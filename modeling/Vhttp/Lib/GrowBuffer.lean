import Mathlib.Data.List.Basic
import Mathlib.Tactic.Linarith

/-!
# Growing buffers

A buffer has a capacity, which is doubled until what is reserved fits. What is written has to fit,
with some room after it.

* `write_reserve`: what was reserved can be written.
-/

namespace GrowBuffer

variable {α : Type*}

/-- The size is doubled while it is too small. -/
def doubled : ℕ → ℕ → ℕ → ℕ
  | 0, size, _ => size
  | fuel + 1, size, required => if size < required then doubled fuel (size * 2) required else size

/-- The size is doubled, and again until it is enough. -/
def expanded (size required : ℕ) : ℕ := doubled required (size * 2) required

lemma le_doubled {fuel size required : ℕ} (hpos : 0 < size) (h : required ≤ size + fuel) :
    required ≤ doubled fuel size required := by
  induction fuel generalizing size with
  | zero => exact h
  | succ fuel ih =>
    unfold doubled
    split_ifs with hl
    · exact ih (by omega) (by omega)
    · exact Nat.le_of_not_lt hl

lemma le_expanded {size : ℕ} (hpos : 0 < size) (required : ℕ) :
    required ≤ expanded size required :=
  le_doubled (by omega) (by omega)

lemma size_le_doubled (fuel size required : ℕ) : size ≤ doubled fuel size required := by
  induction fuel generalizing size with
  | zero => exact le_refl _
  | succ fuel ih =>
    unfold doubled
    split_ifs
    · exact Nat.le_trans (by omega) (ih (size * 2))
    · exact le_refl _

lemma size_le_expanded (size required : ℕ) : size ≤ expanded size required :=
  Nat.le_trans (by omega) (size_le_doubled required (size * 2) required)

/-- A buffer. -/
structure Buffer (α : Type*) where
  capacity : ℕ
  contents : List α
  deriving DecidableEq

namespace Buffer

/-- Room for this much is reserved. -/
def reserve (b : Buffer α) (n : ℕ) : Buffer α :=
  if b.capacity < b.contents.length + n then
    { b with capacity := expanded b.capacity (b.contents.length + n) }
  else b

/-- Something is written, with this much room after it; `none` if it does not fit. -/
def write (b : Buffer α) (xs : List α) (room : ℕ) : Option (Buffer α) :=
  if b.contents.length + xs.length + room ≤ b.capacity then
    some { b with contents := b.contents ++ xs }
  else none

variable {b b' : Buffer α} {xs : List α} {n room : ℕ}

@[simp] lemma reserve_contents : (b.reserve n).contents = b.contents := by
  unfold reserve
  split_ifs <;> rfl

lemma capacity_le_reserve : b.capacity ≤ (b.reserve n).capacity := by
  unfold reserve
  split_ifs
  · exact size_le_expanded _ _
  · exact le_refl _

lemma le_capacity_reserve (hpos : 0 < b.capacity) :
    b.contents.length + n ≤ (b.reserve n).capacity := by
  unfold reserve
  split_ifs with h
  · exact le_expanded hpos _
  · exact Nat.le_of_not_lt h

lemma write_eq_some : b.write xs room = some b' ↔
    b.contents.length + xs.length + room ≤ b.capacity ∧
      { b with contents := b.contents ++ xs } = b' := by
  unfold write
  rw [Option.ite_none_right_eq_some, Option.some.injEq]

/-- What was reserved can be written. -/
theorem write_reserve (hpos : 0 < b.capacity) (h : xs.length + room ≤ n) :
    (b.reserve n).write xs room = some ⟨(b.reserve n).capacity, b.contents ++ xs⟩ := by
  have hc : b.contents.length + n ≤ (b.reserve n).capacity := le_capacity_reserve hpos
  refine write_eq_some.2 ⟨?_, ?_⟩
  · rw [reserve_contents]
    omega
  · rw [reserve_contents]

end Buffer
end GrowBuffer
