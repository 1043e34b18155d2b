import Vhttp.Bytes

/-!
# Decimal numbers

`vhttp_strtosize` and `vhttp_strtosizefwd` of `lib/common/string.c`; `none` stands for `SIZE_MAX`.

The second one reads a number in front of other text and moves the caller's pointer to what follows
it. It looks at the character after a digit before it looks whether there is one, so that it is
given the memory from the first character on and not only the characters of the string.
-/

namespace Vhttp

open List Bool

/-- `'0' <= ch && ch <= '9'`. -/
def isDigit (ch : UInt8) : Bool := 48 ≤ ch.toNat ∧ ch.toNat ≤ 57

/-- `ch - '0'`. -/
def digitValue (ch : UInt8) : ℕ := ch.toNat - 48

/-- The loop of `vhttp_strtosize`, from the last character to the first; `m` is the power of ten
of the next one. -/
def strtosizeLoop : Bytes → ℕ → ℕ → Option ℕ
  | [], _, _ => none
  | ch :: rest, v, m =>
    if !isDigit ch then none
    else if rest = [] then some (v + digitValue ch * m)
    else if m * 10 = 10000000000000000000 then none
    else strtosizeLoop rest (v + digitValue ch * m) (m * 10)

/-- `vhttp_strtosize`. -/
def strtosize (s : Bytes) : Option ℕ :=
  match strtosizeLoop s.reverse 0 1 with
  | some v => if v ≥ 2 ^ 64 - 1 then none else some v
  | none => none

/-- The number that digits stand for. -/
def decimal (s : Bytes) : ℕ := s.foldl (fun v ch => v * 10 + digitValue ch) 0

lemma decimal_concat (s : Bytes) (ch : UInt8) :
    decimal (s ++ [ch]) = decimal s * 10 + digitValue ch := by
  unfold decimal
  rw [foldl_concat]

lemma digitValue_le {ch : UInt8} (h : isDigit ch) : digitValue ch ≤ 9 := by
  have hl := (of_decide_eq_true h).2
  unfold digitValue
  omega

variable {c v : ℕ} {mem s : Bytes} {p : ℕ × ℕ}

lemma decimal_lt (h : s.all isDigit) : decimal s < 10 ^ s.length := by
  induction s using reverseRecOn with
  | nil => decide
  | append_singleton s ch ih =>
    rw [all_append, and_eq_true] at h
    have hs := ih h.1
    have hc := digitValue_le (all_eq_true.1 h.2 ch (mem_singleton.2 rfl))
    rw [decimal_concat, length_append, length_singleton, pow_succ]
    omega

/-- The loop adds the digits up, as long as there are not more than 19 of them. -/
lemma strtosizeLoop_digits (hs : s ≠ []) (h : s.all isDigit) (v k : ℕ) (hk : k ≤ 18) :
    strtosizeLoop s.reverse v (10 ^ k) =
      if k + s.length ≤ 19 then some (v + decimal s * 10 ^ k) else none := by
  induction s using reverseRecOn generalizing v k with
  | nil => exact absurd rfl hs
  | append_singleton s ch ih =>
    rw [all_append, and_eq_true] at h
    have hc := all_eq_true.1 h.2 ch (mem_singleton.2 rfl)
    rw [reverse_append, reverse_singleton, singleton_append, strtosizeLoop,
      decimal_concat, length_append, length_singleton, hc]
    rcases eq_or_ne s [] with rfl | hne
    · have hl : decimal [] * 10 + digitValue ch = digitValue ch := by
        rw [show decimal [] = 0 from rfl, Nat.zero_mul, Nat.zero_add]
      have hh : k + (([] : Bytes).length + 1) ≤ 19 := by
        rw [length_nil]
        omega
      rw [hl, if_pos hh]
      rfl
    · have hpos := length_pos_of_ne_nil hne
      have hr : s.reverse ≠ [] := fun hn => hne (reverse_eq_nil_iff.1 hn)
      simp only [Bool.not_true, false_eq_true, if_false, if_neg hr]
      rcases Nat.lt_or_ge k 18 with ht | hg
      · have hp : 10 ^ k * 10 ≠ 10000000000000000000 := by
          rw [← pow_succ, show (10000000000000000000 : ℕ) = 10 ^ 19 by rfl]
          intro hq
          have he := Nat.pow_right_injective (by decide : 2 ≤ 10) hq
          omega
        rw [if_neg hp, ← pow_succ, ih hne h.1 _ _ (by omega)]
        have hu : v + digitValue ch * 10 ^ k + decimal s * 10 ^ (k + 1) =
            v + (decimal s * 10 + digitValue ch) * 10 ^ k := by ring
        rw [hu]
        exact if_congr (by omega) rfl rfl
      · obtain rfl : k = 18 := by omega
        rw [if_pos (by rfl), if_neg (by omega)]

/-- A number of at most 19 digits is read. -/
lemma strtosize_digits (hs : s ≠ []) (h : s.all isDigit) :
    strtosize s = if s.length ≤ 19 then some (decimal s) else none := by
  have hl := strtosizeLoop_digits hs h 0 0 (by decide)
  rw [pow_zero, Nat.zero_add, Nat.zero_add, Nat.mul_one] at hl
  unfold strtosize
  rw [hl]
  split_ifs with hlen
  · have ht : decimal s < 10 ^ 19 :=
      (decimal_lt h).trans_le (Nat.pow_le_pow_right (by decide) hlen)
    have hz : (10 : ℕ) ^ 19 ≤ 2 ^ 64 - 1 := by decide
    exact if_neg (by omega)
  · rfl

/-- The end of `vhttp_strtosizefwd`: the number, and how many characters it has. -/
def strtosizefwdEnd (v c : ℕ) : Option (ℕ × ℕ) :=
  if v ≥ 2 ^ 64 - 1 then none else some (v, c)

/-- The loop of `vhttp_strtosizefwd`: `left` is how far the end of the string is ahead, `c` the
number of digits so far. The outer `none` is a read beyond the memory. -/
def strtosizefwdLoop : Bytes → ℤ → ℕ → ℕ → Option (Option (ℕ × ℕ))
  | [], _, _, _ => none
  | ch :: mem, left, v, c =>
    if !isDigit ch then some (strtosizefwdEnd v c)
    else
      let v := (v * 10 + digitValue ch) % 2 ^ 64
      if left = 1 then some (strtosizefwdEnd v (c + 1))
      else if c + 1 = 20 then some none
      else strtosizefwdLoop mem (left - 1) v (c + 1)

/-- `vhttp_strtosizefwd`, with the memory from the first character on. -/
def strtosizefwd (mem : Bytes) (len : ℤ) : Option (Option (ℕ × ℕ)) :=
  if len = 0 then some none
  else
    match mem with
    | [] => none
    | ch :: mem =>
      if !isDigit ch then some none else strtosizefwdLoop mem (len - 1) (digitValue ch) 1

lemma strtosizefwdEnd_lt (h : strtosizefwdEnd v c = some p) : p.1 < 2 ^ 64 - 1 := by
  obtain ⟨hv, ⟨⟩⟩ := Option.ite_none_left_eq_some.1 h
  exact not_le.1 hv

lemma strtosizefwdLoop_lt {left : ℤ}
    (h : strtosizefwdLoop mem left v c = some (some p)) : p.1 < 2 ^ 64 - 1 := by
  induction mem generalizing left v c with
  | nil => cases h
  | cons ch mem ih =>
    rw [strtosizefwdLoop] at h
    split_ifs at h with hd hl ho
    · exact strtosizefwdEnd_lt (Option.some.inj h)
    · exact strtosizefwdEnd_lt (Option.some.inj h)
    · cases h
    · exact ih h

/-- A number that is accepted is below `SIZE_MAX`. -/
lemma strtosizefwd_lt {len : ℤ}
    (h : strtosizefwd mem len = some (some p)) : p.1 < 2 ^ 64 - 1 := by
  unfold strtosizefwd at h
  split_ifs at h with hlen
  · cases h
  · cases mem with
    | nil => cases h
    | cons ch mem =>
      dsimp only at h
      split_ifs at h with hd
      · cases h
      · exact strtosizefwdLoop_lt h

end Vhttp
