import Mathlib

/-!
# The round-robin balancer

The model of `lib/common/balancer/roundrobin.c`. The balancer stays with a target until it has been
selected as often as its weight, and passes over the targets that have been tried.

* `selector_untried`: a target that has not been tried is found.
* `count_period`: in one turn from the beginning every target has as many selections as its weight.
* `selections_fair`: so it has in a turn from any state.
-/

namespace Vhttp.Balancer

open Function Nat

/-- A `struct round_robin_t`, for targets with these `weight_m1`. -/
structure RoundRobin (w : List ℕ) where
  pos : Fin w.length
  consumed : ℕ
  le : consumed ≤ w.get pos

namespace RoundRobin

variable {w : List ℕ}

/-- `select_next`. -/
def selectNext (s : RoundRobin w) : RoundRobin w :=
  if h : s.pos + 1 = w.length then ⟨⟨0, s.pos.pos⟩, 0, Nat.zero_le _⟩
  else ⟨⟨s.pos + 1, by omega⟩, 0, Nat.zero_le _⟩

/-- What is done when the result has been got. -/
def consume (s : RoundRobin w) : RoundRobin w :=
  if h : w.get s.pos < s.consumed + 1 then s.selectNext else ⟨s.pos, s.consumed + 1, by omega⟩

/-- The loop of `selector`; after it comes `vhttp_fatal`. -/
def selectorLoop (tried : Fin w.length → Bool) : ℕ → RoundRobin w →
    Option (Fin w.length × RoundRobin w)
  | 0, _ => none
  | n + 1, s =>
    if tried s.pos = false then some (s.pos, s.consume) else selectorLoop tried n s.selectNext

/-- `selector`. -/
def selector (tried : Fin w.length → Bool) (s : RoundRobin w) :
    Option (Fin w.length × RoundRobin w) :=
  selectorLoop tried w.length s

/-- So many selections, when no target is marked as tried. -/
def selections : ℕ → RoundRobin w → Option (List (Fin w.length))
  | 0, _ => some []
  | n + 1, s => do
    let r ← s.selector fun _ => false
    let rest ← selections n r.2
    some (r.1 :: rest)

variable {tried : Fin w.length → Bool} {t : Fin w.length}

/-- How far a target is ahead. -/
def distance (s : RoundRobin w) (t : Fin w.length) : ℕ :=
  if s.pos ≤ t then t - s.pos else t + w.length - s.pos

lemma distance_selectNext {s : RoundRobin w} (h : s.pos ≠ t) :
    s.selectNext.distance t + 1 = s.distance t := by
  have hne : (s.pos : ℕ) ≠ t := fun he => h (Fin.ext he)
  have hl := t.isLt
  have hpos := s.pos.isLt
  unfold distance selectNext
  simp only [Fin.le_def]
  split_ifs <;> dsimp only at * <;> omega

/-- The loop gets to a target that has not been tried. -/
lemma selectorLoop_untried (ht : tried t = false) {n : ℕ} {s : RoundRobin w}
    (hn : s.distance t < n) : ∃ r s', selectorLoop tried n s = some (r, s') ∧ tried r = false := by
  induction n generalizing s with
  | zero => exact absurd hn (not_lt_zero _)
  | succ n ih =>
    rw [selectorLoop]
    split
    · next h => exact ⟨_, _, rfl, h⟩
    · next h =>
      have := distance_selectNext (s := s) (t := t) fun he => h (he ▸ ht)
      exact ih (by omega)

/-- If a target has not been tried, one that has not been tried is selected. -/
theorem selector_untried (s : RoundRobin w) (ht : tried t = false) :
    ∃ r s', s.selector tried = some (r, s') ∧ tried r = false := by
  refine selectorLoop_untried ht ?_
  have hl := t.isLt
  have hpos := s.pos.isLt
  unfold distance
  simp only [Fin.le_def]
  split <;> omega

/-! ## Turns -/

/-- The weights of the targets before one. -/
def weightBefore (w : List ℕ) (m : ℕ) : ℕ := ((w.map (· + 1)).take m).sum

lemma weightBefore_succ (t : Fin w.length) :
    weightBefore w (t + 1) = weightBefore w t + (w.get t + 1) := by
  rw [weightBefore, weightBefore, List.sum_take_succ _ _ (by simp)]
  simp

/-- The state at the beginning of a turn. -/
def first (h : 0 < w.length) : RoundRobin w := ⟨⟨0, h⟩, 0, Nat.zero_le _⟩

lemma consume_iterate (t : Fin w.length) {c : ℕ} (hc : c ≤ w.get t) :
    consume^[c] ⟨t, 0, Nat.zero_le _⟩ = ⟨t, c, hc⟩ := by
  induction c with
  | zero => rfl
  | succ c ih =>
    rw [iterate_succ_apply', ih (by omega), consume, dif_neg (by dsimp only; omega)]

lemma consume_iterate_succ (t : Fin w.length) :
    consume^[w.get t + 1] ⟨t, 0, Nat.zero_le _⟩ = selectNext ⟨t, 0, Nat.zero_le _⟩ := by
  rw [iterate_succ_apply', consume_iterate t le_rfl, consume, dif_pos (lt_succ_self _)]
  rfl

lemma iterate_weightBefore (h : 0 < w.length) (t : Fin w.length) :
    consume^[weightBefore w t] (first h) = ⟨t, 0, Nat.zero_le _⟩ := by
  obtain ⟨m, hm⟩ := t
  induction m with
  | zero => rfl
  | succ m ih =>
    rw [weightBefore_succ ⟨m, by omega⟩, add_comm, iterate_add_apply, ih (by omega),
      consume_iterate_succ, selectNext, dif_neg (by dsimp only; omega)]

/-- The sum of the weights. -/
def period (w : List ℕ) : ℕ := weightBefore w w.length

lemma iterate_period (h : 0 < w.length) : consume^[period w] (first h) = first h := by
  have hl : w.length = w.length - 1 + 1 := by omega
  rw [period, hl, weightBefore_succ ⟨w.length - 1, by omega⟩, add_comm,
    iterate_add_apply, iterate_weightBefore h ⟨w.length - 1, by omega⟩,
    consume_iterate_succ, selectNext, dif_pos hl.symm]
  rfl

/-- The selections of a target in the part of a turn before another. -/
lemma count_weightBefore (h : 0 < w.length) (t : Fin w.length) {m : ℕ} (hm : m ≤ w.length) :
    (weightBefore w m).count (fun k => (consume^[k] (first h)).pos = t) =
      if t < m then w.get t + 1 else 0 := by
  induction m with
  | zero => rfl
  | succ m ih =>
    have hpos : ∀ k < w.get ⟨m, hm⟩ + 1,
        (consume^[weightBefore w m + k] (first h)).pos = ⟨m, hm⟩ := by
      intro k hk
      rw [add_comm, iterate_add_apply, iterate_weightBefore h ⟨m, hm⟩,
        consume_iterate _ (by omega)]
    rw [weightBefore_succ ⟨m, hm⟩, count_add, ih (by omega)]
    by_cases ht : (t : ℕ) = m
    · obtain rfl : t = ⟨m, hm⟩ := Fin.ext ht
      rw [if_neg (by simp), if_pos (lt_succ_self _), zero_add]
      exact count_iff_forall.2 hpos
    · rw [count_iff_forall_not.2 fun k hk he => ht (by rw [← he, hpos k hk]), add_zero]
      exact if_congr (by omega) rfl rfl

/-- A turn from any state has the selections of a turn from the beginning. -/
theorem count_period (s : RoundRobin w) (t : Fin w.length) :
    (period w).count (fun k => (consume^[k] s).pos = t) = w.get t + 1 := by
  have h := s.pos.pos
  have hs : consume^[weightBefore w s.pos + s.consumed] (first h) = s := by
    rw [add_comm, iterate_add_apply, iterate_weightBefore, consume_iterate _ s.le]
  have ha := count_add (fun k => (consume^[k] (first h)).pos = t)
  have hf := ha (weightBefore w s.pos + s.consumed) (period w)
  have ht := ha (period w) (weightBefore w s.pos + s.consumed)
  simp only [add_comm (_ + s.consumed), iterate_add_apply, hs] at hf
  simp only [add_comm (period w), iterate_add_apply, iterate_period] at ht
  rw [add_comm] at ht
  have hc := count_weightBefore h t le_rfl
  rw [if_pos t.isLt] at hc
  rw [← hc]
  change _ = (period w).count _
  omega

lemma selections_eq (n : ℕ) (s : RoundRobin w) : ∃ l, selections n s = some l ∧
    ∀ t, l.count t = n.count fun k => (consume^[k] s).pos = t := by
  induction n generalizing s with
  | zero => exact ⟨[], rfl, fun _ => rfl⟩
  | succ n ih =>
    obtain ⟨l, hl, hc⟩ := ih s.consume
    have hs : ∀ m, 0 < m → selectorLoop (fun _ => false) m s = some (s.pos, s.consume) := by
      rintro (_ | m) hm
      · cases hm
      · rfl
    refine ⟨s.pos :: l, by simp [selections, selector, hs _ s.pos.pos, hl], fun t => ?_⟩
    rw [count_succ', List.count_cons, hc]
    exact congrArg₂ _ rfl (if_congr beq_iff_eq rfl rfl)

/-- The selector finds a target that has not been tried; and when none has been tried, each is
selected as often as its weight in every window of as many selections as the weights add up to. -/
theorem selector_fair (s : RoundRobin w) : (∀ tried, (∃ t, tried t = false) →
      ∃ t s', s.selector tried = some (t, s') ∧ tried t = false) ∧
    ∃ l, selections (w.map (· + 1)).sum s = some l ∧ ∀ t, l.count t = w.get t + 1 := by
  refine ⟨fun tried ⟨t, ht⟩ => selector_untried s ht, ?_⟩
  have hp : (w.map (· + 1)).sum = period w := by
    rw [period, weightBefore, List.take_of_length_le (by simp)]
  obtain ⟨l, hl, hc⟩ := selections_eq (period w) s
  exact ⟨l, hp ▸ hl, fun t => (hc t).trans (count_period s t)⟩

end RoundRobin
end Vhttp.Balancer
