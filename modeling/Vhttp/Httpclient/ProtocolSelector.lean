import Mathlib

/-!
# The choice of a protocol by the HTTP client

The model of `select_protocol` in `lib/common/httpclient.c`: each protocol has a deficit, to which
its share is added at every call; the one with the largest deficit is chosen and pays 100.

* `Settled.select`, `Settled.lt`: the deficits add up to zero, and stay above -100 and below 300.
* `chosen_near`: how often a protocol has been chosen stays close to its share.
-/

namespace Vhttp.Httpclient

open Finset

/-- `PROTOCOL_SELECTOR_H1`, `_H2`, `_H3` and `_SERVER_DRIVEN`. -/
abbrev Protocol := Fin 4

/-- A `vhttp_httpclient_protocol_ratio_t`. -/
structure Ratio where
  http2 : ℤ
  http3 : ℤ

/-- What is added to the `_deficits`. -/
def share (r : Ratio) : Protocol → ℤ
  | 0 => if r.http2 < 0 then 0 else 100 - r.http2 - r.http3
  | 1 => if r.http2 < 0 then 0 else r.http2
  | 2 => r.http3
  | 3 => if r.http2 < 0 then 100 - r.http3 else 0

/-- The loop that looks for the highest value. -/
def highest (d : Protocol → ℤ) : Protocol :=
  [1, 2, 3].foldl (fun result i => if d result < d i then i else result) 0

/-- `select_protocol`. -/
def selectProtocol (r : Ratio) (deficits : Protocol → ℤ) : Protocol × (Protocol → ℤ) :=
  let d := fun i => deficits i + share r i
  (highest d, fun i => if highest d = i then d i - 100 else d i)

/-- The deficits after so many calls. -/
def deficitsAfter (r : Ratio) : ℕ → Protocol → ℤ
  | 0 => fun _ => 0
  | n + 1 => (selectProtocol r (deficitsAfter r n)).2

/-- How often a protocol has been chosen. -/
def chosen (r : Ratio) (i : Protocol) (n : ℕ) : ℕ :=
  n.count fun k => (selectProtocol r (deficitsAfter r k)).1 = i

variable {d : Protocol → ℤ} {r : Ratio}

lemma le_highest (d : Protocol → ℤ) (i : Protocol) : d i ≤ d (highest d) := by
  simp only [highest, List.foldl_cons, List.foldl_nil]
  fin_cases i <;> simp only [Fin.zero_eta, Fin.mk_one, Fin.reduceFinMk] <;> split_ifs <;> omega

lemma sum_share (r : Ratio) : ∑ i, share r i = 100 := by
  simp only [Fin.sum_univ_four, share]
  split <;> omega

lemma selectProtocol_snd (r : Ratio) (d : Protocol → ℤ) (i : Protocol) :
    (selectProtocol r d).2 i = d i + share r i - if (selectProtocol r d).1 = i then 100 else 0 := by
  unfold selectProtocol
  dsimp only
  split <;> ring

/-- What holds of the deficits between the calls. -/
structure Settled (r : Ratio) (d : Protocol → ℤ) : Prop where
  sum : ∑ i, d i = 0
  gt : ∀ i, -100 < d i
  zero : ∀ i, share r i = 0 → d i = 0

/-- The deficits are in an `int16_t`, also when their shares have been added. -/
theorem Settled.lt (h : Settled r d) (i : Protocol) : d i < 300 := by
  have hs := h.sum
  have h0 := h.gt 0
  have h1 := h.gt 1
  have h2 := h.gt 2
  have h3 := h.gt 3
  rw [Fin.sum_univ_four] at hs
  fin_cases i <;> simp only [Fin.zero_eta, Fin.mk_one, Fin.reduceFinMk] <;> omega

/-- The deficits add up to 100 when one is chosen, so it is not one without a share. -/
lemma Settled.pos (h : Settled r d) :
    0 < d (selectProtocol r d).1 + share r (selectProtocol r d).1 := by
  have hl := sum_le_card_nsmul univ _ _ fun i _ =>
    le_highest (fun i => d i + share r i) i
  rw [sum_add_distrib, h.sum, sum_share] at hl
  simp only [card_univ, Fintype.card_fin, nsmul_eq_mul] at hl
  dsimp only [selectProtocol]
  omega

/-- Every selection keeps the deficits settled. -/
theorem Settled.select (h : Settled r d) (hr : ∀ i, 0 ≤ share r i) :
    Settled r (selectProtocol r d).2 := by
  have hpos := h.pos
  refine ⟨?_, fun i => ?_, fun i hi => ?_⟩
  · simp only [selectProtocol_snd, sum_sub_distrib, sum_add_distrib, h.sum, sum_share,
      sum_ite_eq, mem_univ, if_true]
    rfl
  · have hg := h.gt i
    have hi := hr i
    rw [selectProtocol_snd]
    split
    · next he =>
      rw [he] at hpos
      omega
    · omega
  · rw [selectProtocol_snd, h.zero i hi, hi, if_neg]
    · rfl
    · intro he
      rw [he, h.zero i hi, hi] at hpos
      exact lt_irrefl _ hpos

lemma settled_deficitsAfter (hr : ∀ i, 0 ≤ share r i) (n : ℕ) :
    Settled r (deficitsAfter r n) := by
  induction n with
  | zero => exact ⟨rfl, fun _ => (by decide : (-100 : ℤ) < 0), fun _ _ => rfl⟩
  | succ n ih => exact ih.select hr

lemma deficitsAfter_eq (r : Ratio) (n : ℕ) (i : Protocol) :
    deficitsAfter r n i = n * share r i - 100 * chosen r i n := by
  induction n with
  | zero => simp [deficitsAfter, chosen]
  | succ n ih =>
    rw [deficitsAfter, selectProtocol_snd, ih, chosen, chosen, Nat.count_succ]
    push_cast
    split <;> ring

/-- Each protocol is chosen as often as its share says, up to less than three times, and never
without one. -/
theorem chosen_near (hr : ∀ i, 0 ≤ share r i) (n : ℕ) (i : Protocol) :
    |(100 * chosen r i n : ℤ) - n * share r i| < 300 ∧ (share r i = 0 → chosen r i n = 0) := by
  have h := settled_deficitsAfter hr n
  have he := deficitsAfter_eq r n i
  refine ⟨?_, fun hi => ?_⟩
  · have hg := h.gt i
    rw [abs_sub_comm, ← he, abs_lt]
    exact ⟨by omega, h.lt i⟩
  · rw [h.zero i hi, hi] at he
    omega

/-- Seven selections with the ratios 20 and 10. -/
theorem chosen_near_seven : |(100 * chosen ⟨20, 10⟩ 0 7 : ℤ) - (7 : ℕ) * share ⟨20, 10⟩ 0| < 300 ∧
    (share ⟨20, 10⟩ 0 = 0 → chosen ⟨20, 10⟩ 0 7 = 0) :=
  chosen_near (by decide) 7 0

end Vhttp.Httpclient
