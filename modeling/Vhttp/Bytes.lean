import Mathlib

/-!
# Byte strings, constant tables and evaluated runs

The server's strings are `vhttp_iovec_t`s: a pointer and a length. They are lists of
octets here; `ascii` writes a string constant of the source. A constant array of numbers is
one number, so that looking an entry up is a shift. `exists_of_any` evaluates a function on
fixed inputs.
-/

namespace Vhttp

/-- A `vhttp_iovec_t`. -/
abbrev Bytes := List UInt8

/-- The octet of an ASCII character. -/
def ofChar (c : Char) : UInt8 := UInt8.ofNat c.toNat

/-- A string constant of the source (`vhttp_STRLIT`). -/
def ascii (s : String) : Bytes := s.toList.map ofChar

/-- The array of the entries, each of `width` bits. -/
def packTable (width : ℕ) (entries : List ℕ) : ℕ :=
  entries.foldr (fun entry table => table * 2 ^ width + entry) 0

/-- `table[i]`. -/
def tableEntry (width table i : ℕ) : ℕ := table >>> (width * i) % 2 ^ width

/-- What is computed exists, and has the properties that are decided. -/
theorem exists_of_any {α : Type*} {o : Option α} {P : α → Prop} [DecidablePred P]
    (h : o.any (fun a => decide (P a)) = true) : ∃ a, o = some a ∧ P a := by
  obtain ⟨a, ha, hP⟩ := (Option.any_eq_true _ _).1 h
  exact ⟨a, ha, of_decide_eq_true hP⟩

end Vhttp
