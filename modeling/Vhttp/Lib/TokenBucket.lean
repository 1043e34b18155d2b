import Mathlib.Data.Int.Order.Basic
import Mathlib.Logic.Relation
import Mathlib.Tactic.Linarith

/-!
# Token buckets

A bucket earns credit as time passes, at most `rate` per `unit` of time and up to a cap, and spends
it. It may spend as long as the credit is not negative, and then as much as it likes.

* `credit_le`: the credit stays within the cap.
* `spentIn_le`: what is spent in an interval is bounded by what is earned in it, the cap and one
  amount that was spent.
-/

namespace TokenBucket

open List

/-- A bucket; `spent` has the times and the amounts. -/
structure Bucket where
  now : ℕ
  credit : ℤ
  spent : List (ℕ × ℕ)

/-- Time passes, or an amount is spent. -/
inductive Step (rate unit : ℕ) (cap : ℤ) : Bucket → Bucket → Prop
  | wait {b : Bucket} (now : ℕ) (credit : ℤ) (hnow : b.now ≤ now)
    (hrate : unit * credit ≤ unit * b.credit + rate * (now - b.now : ℕ)) (hcap : credit ≤ cap) :
    Step rate unit cap b { b with now, credit }
  | spend {b : Bucket} (n : ℕ) (h : 0 ≤ b.credit) :
    Step rate unit cap b { b with credit := b.credit - n, spent := b.spent ++ [(b.now, n)] }

/-- What was spent from the time `a` to the time `b`. -/
def spentIn (spent : List (ℕ × ℕ)) (a b : ℕ) : ℕ :=
  ((spent.filter fun p => a ≤ p.1 ∧ p.1 ≤ b).map Prod.snd).sum

lemma spentIn_append (l l' : List (ℕ × ℕ)) (a b : ℕ) :
    spentIn (l ++ l') a b = spentIn l a b + spentIn l' a b := by
  unfold spentIn
  rw [filter_append, map_append, sum_append]

lemma spentIn_singleton (t n a b : ℕ) :
    spentIn [(t, n)] a b = if a ≤ t ∧ t ≤ b then n else 0 := by
  unfold spentIn
  by_cases h : a ≤ t ∧ t ≤ b <;> simp [h]

section Bound

variable {rate unit : ℕ} {cap : ℤ} {b b' : Bucket}

/-- What holds of a bucket, for the interval from `a` to `a + t`. -/
structure Bounded (rate unit : ℕ) (cap : ℤ) (a t : ℕ) (b : Bucket) : Prop where
  within : b.credit ≤ cap
  past : ∀ p ∈ b.spent, p.1 ≤ b.now
  /-- what was spent and what is left has been earned -/
  earned : a ≤ b.now → b.now ≤ a + t →
    (unit * (spentIn b.spent a (a + t) + b.credit) : ℤ) ≤ unit * cap + rate * (b.now - a : ℕ)
  spent : ∃ n, (n = 0 ∨ ∃ time, (time, n) ∈ b.spent) ∧
    (unit * spentIn b.spent a (a + t) : ℤ) ≤ rate * t + unit * (cap + n)

/-- Nothing was spent in an interval that has not begun. -/
lemma spentIn_eq_zero {spent : List (ℕ × ℕ)} {a t now : ℕ} (ha : ∀ p ∈ spent, p.1 ≤ now)
    (ho : now < a) : spentIn spent a (a + t) = 0 := by
  unfold spentIn
  have hn : (spent.filter fun p => a ≤ p.1 ∧ p.1 ≤ a + t) = [] := by
    rw [filter_eq_nil_iff]
    intro p hp
    have := ha p hp
    simp only [decide_eq_true_eq, not_and]
    omega
  rw [hn]
  rfl

lemma Bounded.step {a t : ℕ} (h : Bounded rate unit cap a t b)
    (hstep : Step rate unit cap b b') : Bounded rate unit cap a t b' := by
  cases hstep with
  | wait now credit ho hr hc =>
    refine ⟨hc, fun p hp => (h.past p hp).trans ho, fun hb he => ?_, h.spent⟩
    by_cases hg : a ≤ b.now
    · have ha := h.earned hg (ho.trans he)
      have hs : (now - a : ℕ) = (now - b.now : ℕ) + (b.now - a : ℕ) := by omega
      rw [hs]
      push_cast
      linarith
    · -- the interval begins: the credit is within the cap
      rw [spentIn_eq_zero h.past (not_le.1 hg)]
      have hu : (unit : ℤ) * credit ≤ unit * cap := by
        apply mul_le_mul_of_nonneg_left hc
        exact Int.natCast_nonneg unit
      have hpos : (0 : ℤ) ≤ rate * (now - a : ℕ) := by positivity
      push_cast
      linarith
  | spend n hn =>
    have hpa : ∀ p ∈ b.spent ++ [(b.now, n)], p.1 ≤ b.now := by
      intro p hp
      rcases mem_append.1 hp with hp | hp
      · exact h.past p hp
      · rw [mem_singleton.1 hp]
    have hu : (0 : ℤ) ≤ unit * n := by positivity
    refine ⟨?_, hpa, fun hb he => ?_, ?_⟩
    · have := h.within
      linarith [Int.natCast_nonneg n]
    · dsimp only at hb he ⊢
      have ha := h.earned hb he
      rw [spentIn_append, spentIn_singleton, if_pos ⟨hb, he⟩]
      push_cast
      linarith
    · dsimp only
      rw [spentIn_append, spentIn_singleton]
      by_cases hi : a ≤ b.now ∧ b.now ≤ a + t
      · -- what is spent now comes on top of what was earned
        rw [if_pos hi]
        refine ⟨n, .inr ⟨b.now, mem_append_right _ (mem_singleton.2 rfl)⟩, ?_⟩
        have ha := h.earned hi.1 hi.2
        have hc : (0 : ℤ) ≤ unit * b.credit := by positivity
        have ht : (rate : ℤ) * (b.now - a : ℕ) ≤ rate * t := by
          apply mul_le_mul_of_nonneg_left
          · omega
          · exact Int.natCast_nonneg rate
        push_cast
        linarith
      · rw [if_neg hi, Nat.add_zero]
        obtain ⟨m, hm, hl⟩ := h.spent
        refine ⟨m, ?_, hl⟩
        rcases hm with hm | ⟨time, ht⟩
        · exact .inl hm
        · exact .inr ⟨time, mem_append_left _ ht⟩

/-- The credit stays within the cap. -/
theorem credit_le (h : Relation.ReflTransGen (Step rate unit cap) b b') (hb : b.credit ≤ cap) :
    b'.credit ≤ cap := by
  induction h with
  | refl => exact hb
  | tail _ hstep ih =>
    cases hstep with
    | wait now credit ho hr hc => exact hc
    | spend n hn =>
      change _ - (n : ℤ) ≤ cap
      omega

/-- What a bucket spends in an interval. -/
theorem spentIn_le {b0 : Bucket} (ha : 0 ≤ cap) (hc : b0.credit ≤ cap)
    (hs : b0.spent = []) (h : Relation.ReflTransGen (Step rate unit cap) b0 b) (a t : ℕ) :
    ∃ n, (n = 0 ∨ ∃ time, (time, n) ∈ b.spent) ∧
      (unit * spentIn b.spent a (a + t) : ℤ) ≤ rate * t + unit * (cap + n) := by
  have hz : spentIn b0.spent a (a + t) = 0 := by
    rw [hs]
    rfl
  have ht : Bounded rate unit cap a t b0 := by
    refine ⟨hc, ?_, fun _ _ => ?_, 0, .inl rfl, ?_⟩
    · rw [hs]
      exact nofun
    · rw [hz]
      have hm : (unit : ℤ) * b0.credit ≤ unit * cap := by
        apply mul_le_mul_of_nonneg_left hc
        exact Int.natCast_nonneg unit
      have hpos : (0 : ℤ) ≤ rate * (b0.now - a : ℕ) := by positivity
      push_cast
      linarith
    · rw [hz]
      push_cast
      positivity
  have hb : Bounded rate unit cap a t b := by
    induction h with
    | refl => exact ht
    | tail _ hstep ih => exact ih.step hstep
  exact hb.spent

end Bound

end TokenBucket
