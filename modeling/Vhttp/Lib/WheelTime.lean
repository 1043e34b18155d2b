import Mathlib

/-!
# Times on hierarchical wheels

A hierarchical timing wheel with `b` slots per wheel keeps in slot `s` of wheel `w` the
entries whose turn comes at a multiple `T` of `b ^ w`, with `T / b ^ w ≡ s` modulo `b`,
less than one turn of the wheel ahead. `IsTurn b now w s T` says that `T` is that time.

* `IsTurn.eq_now`: at a multiple of `b ^ w`, the current slot of wheel `w` holds only
  entries whose turn is now.
* `IsTurn.mono`: the turn of an entry does not change while it lies in the future.
* `exists_isTurn`: an entry that is due in `b ^ w` up to `b ^ (w + 1)` ticks has a turn on
  wheel `w`, which is not behind the time it is due.
-/

namespace WheelTime

open Nat

/-- `T` is the next time the slot `s` of wheel `w` comes up, not before `now`. -/
structure IsTurn (b now w s T : ℕ) : Prop where
  dvd : b ^ w ∣ T
  slot : T / b ^ w % b = s
  le : now ≤ T
  lt : T < now + b ^ (w + 1)

variable {b now now' w s T : ℕ}

/-- The turn of an entry is the same until it comes. -/
theorem IsTurn.mono (h : IsTurn b now w s T) (h1 : now ≤ now') (h2 : now' ≤ T) :
    IsTurn b now' w s T :=
  ⟨h.dvd, h.slot, h2, by have := h.lt; omega⟩

/-- Two multiples of `m` that differ are at least `m` apart. -/
lemma add_le_of_dvd {m : ℕ} (h1 : m ∣ now) (h2 : m ∣ T) (h : now < T) : now + m ≤ T := by
  obtain ⟨x, rfl⟩ := h1
  obtain ⟨y, rfl⟩ := h2
  have hx : x < y := lt_of_mul_lt_mul_left h (zero_le m)
  calc m * x + m = m * (x + 1) := by ring
    _ ≤ m * y := mul_le_mul_left m hx

/-- At a multiple of `b ^ w` the current slot holds only entries whose turn is now. -/
theorem IsTurn.eq_now (hb : 0 < b) (hd : b ^ w ∣ now) (h : IsTurn b now w (now / b ^ w % b) T) :
    T = now := by
  obtain ⟨x, rfl⟩ := hd
  obtain ⟨⟨y, rfl⟩, hs, hl, ht⟩ := h
  have hpos : 0 < b ^ w := pow_pos hb w
  rw [Nat.mul_div_cancel_left _ hpos, Nat.mul_div_cancel_left _ hpos] at hs
  have hx : x ≤ y := le_of_mul_le_mul_left hl hpos
  have hy : y < x + b := by
    refine lt_of_mul_lt_mul_left (a := b ^ w) ?_ (zero_le _)
    calc b ^ w * y < b ^ w * x + b ^ (w + 1) := ht
      _ = b ^ w * (x + b) := by ring
  -- congruent modulo `b` and less than `b` apart
  have hm : (y - x) % b = 0 := by
    have : y ≡ x [MOD b] := hs
    exact (modEq_iff_dvd' hx).1 this.symm |> mod_eq_zero_of_dvd
  rw [mod_eq_of_lt (by omega)] at hm
  rw [show y = x by omega]

/-- An entry that is due at `A`, in less than `b ^ (w + 1)` ticks and, on a higher wheel, in
`b ^ w` ticks at least, has a turn on wheel `w`. -/
theorem exists_isTurn {A : ℕ} (hb : 0 < b) (hl : now ≤ A) (ht : A < now + b ^ (w + 1))
    (hg : 0 < w → now + b ^ w ≤ A) :
    ∃ T, IsTurn b now w (A / b ^ w % b) T ∧ T ≤ A ∧ (0 < w → now < T) ∧ (w = 0 → T = A) := by
  have hpos : 0 < b ^ w := pow_pos hb w
  have hTA : A / b ^ w * b ^ w ≤ A := div_mul_le_self A _
  have hAT : A < A / b ^ w * b ^ w + b ^ w := lt_div_mul_add hpos
  have hz : w = 0 → A / b ^ w * b ^ w = A := by
    rintro rfl
    simp
  have hn : 0 < w → now < A / b ^ w * b ^ w := by
    intro hw
    have := hg hw
    omega
  refine ⟨A / b ^ w * b ^ w, ⟨dvd_mul_left _ _, ?_, ?_, by omega⟩, hTA, hn, hz⟩
  · rw [Nat.mul_div_cancel _ hpos]
  · rcases Nat.eq_zero_or_pos w with h | h
    · rw [hz h]
      exact hl
    · exact (hn h).le

/-- Such an entry does not come back to the current slot of its wheel. -/
lemma slot_ne {A : ℕ} (hb : 0 < b) (hd : b ^ w ∣ now) (hlt : A < now + b ^ (w + 1))
    (hg : now + b ^ w ≤ A) : A / b ^ w % b ≠ now / b ^ w % b := by
  intro he
  have hpos : 0 < b ^ w := pow_pos hb w
  have hl : now ≤ A / b ^ w * b ^ w := by
    obtain ⟨x, rfl⟩ := hd
    have : x ≤ A / b ^ w := (le_div_iff_mul_le hpos).2 (by
      rw [mul_comm]
      omega)
    calc b ^ w * x = x * b ^ w := mul_comm _ _
      _ ≤ A / b ^ w * b ^ w := mul_le_mul_right _ this
  have hTA : A / b ^ w * b ^ w ≤ A := div_mul_le_self A _
  have hAT : A < A / b ^ w * b ^ w + b ^ w := lt_div_mul_add hpos
  have ht : IsTurn b now w (now / b ^ w % b) (A / b ^ w * b ^ w) :=
    ⟨Nat.dvd_mul_left _ _, by rw [Nat.mul_div_cancel _ hpos, he], hl, by omega⟩
  have := ht.eq_now hb hd
  omega

/-- A time that is not a multiple of `b ^ k` is not the turn of a slot of a higher wheel. -/
lemma IsTurn.ne_of_not_dvd {k : ℕ} (h : IsTurn b now w s T) (hk : k ≤ w)
    (hn : ¬ b ^ k ∣ now) : now < T := by
  refine lt_of_le_of_ne h.le ?_
  rintro rfl
  exact hn ((pow_dvd_pow b hk).trans h.dvd)

/-- A multiple of `b ^ w` in slot `0` of wheel `w` is a multiple of `b ^ (w + 1)`. -/
lemma dvd_succ_iff (hb : 0 < b) (hd : b ^ w ∣ now) : b ^ (w + 1) ∣ now ↔ now / b ^ w % b = 0 := by
  obtain ⟨x, rfl⟩ := hd
  have hpos : 0 < b ^ w := pow_pos hb w
  rw [Nat.mul_div_cancel_left _ hpos, pow_succ, Nat.mul_dvd_mul_iff_left hpos]
  exact dvd_iff_mod_eq_zero

/-- The end of a turn of wheel `w`. -/
lemma dvd_add_sub_slot (hb : 0 < b) (hd : b ^ w ∣ now) :
    b ^ (w + 1) ∣ now + (b - now / b ^ w % b) * b ^ w := by
  obtain ⟨x, rfl⟩ := hd
  rw [Nat.mul_div_cancel_left _ (pow_pos hb w), pow_succ]
  have hm : x % b < b := mod_lt x hb
  have hx := div_add_mod x b
  have hs : x + (b - x % b) = b * (x / b + 1) := by
    rw [mul_add, mul_one]
    omega
  refine ⟨x / b + 1, ?_⟩
  calc b ^ w * x + (b - x % b) * b ^ w = b ^ w * (x + (b - x % b)) := by ring
    _ = b ^ w * b * (x / b + 1) := by rw [hs]; ring

end WheelTime
