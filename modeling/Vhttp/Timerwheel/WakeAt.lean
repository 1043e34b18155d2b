import Vhttp.Timerwheel.Run

/-!
# The next time to wake up

`vhttp_timerwheel_get_wake_at` goes over the slots in the order of their turns, as a clock
would that is moved on to the first turn: so the invariant that the collecting loop keeps for
`last_run` is kept here for `at`.

* `scanSlots_spec`, `scanCarry_spec`, `scanWheel_spec`: each part of the search ends at a
  turn, or no turn lies before the time it ends with.
* `getWakeAt_found`: the result is the first turn.
-/

namespace Vhttp.Timerwheel

open WheelTime List Multiset Prod Nat

variable {α : Type*} {cap w at_ : ℕ} {ctx ctx' : Ctx α}

/-! ## Nothing is linked -/

variable (hn : ∀ w s, ctx.wheels w s = [])
include hn

lemma scanSlots_empty (k slot at_ : ℕ) : ∃ t, scanSlots ctx w k slot at_ = .upTo t := by
  induction k generalizing slot at_ with
  | zero => exact ⟨at_, rfl⟩
  | succ k ih =>
    rw [scanSlots, hn]
    exact ih _ _

lemma scanCarry_empty (k wi at_ : ℕ) : scanCarry ctx k wi at_ = .upTo at_ := by
  induction k generalizing wi with
  | zero => rfl
  | succ k ih =>
    rw [scanCarry]
    simp only [hn, isEmpty_nil, if_true]
    split
    · rfl
    · exact ih _

lemma scanWheel_empty (at_ : ℕ) : ∃ t, scanWheel ctx w at_ = .upTo t := by
  obtain ⟨t1, h1⟩ := scanSlots_empty (w := w) hn (slotsPerWheel - timerSlot w at_)
    (timerSlot w at_) at_
  obtain ⟨t2, h2⟩ := scanSlots_empty (w := w) hn (timerSlot w at_) 0 t1
  rw [scanWheel]
  simp only [h1, h2, scanCarry_empty hn]
  split
  · exact ⟨_, rfl⟩
  · exact ⟨_, rfl⟩

lemma getWakeAt_empty : getWakeAt ctx = uint64Max := by
  have hs : ∀ k wheel at_, scanWheels ctx k wheel at_ = uint64Max := by
    intro k
    induction k with
    | zero => exact fun _ _ => rfl
    | succ k ih =>
      intro wheel at_
      obtain ⟨t, ht⟩ := scanWheel_empty (w := wheel) hn at_
      rw [scanWheels]
      simp only [ht]
      exact ih _ _
  exact hs _ _ _

omit hn

/-! ## Something is linked -/

/-- The search ends at the turn of a timer, and there is no earlier one. -/
structure Found (cap : ℕ) (ctx : Ctx α) (at_ : ℕ) : Prop where
  inv : Inv cap (fun _ => False) (ctx.setLastRun at_)
  le : ctx.lastRun ≤ at_
  hit : ∃ w, 32 ^ w ∣ at_ ∧ ctx.wheels w (timerSlot w at_) ≠ []

/-- Some timer is linked. -/
def Busy (ctx : Ctx α) : Prop := ∃ w s e, e ∈ ctx.wheels w s

variable {P : ℕ → Prop} {e : Timer α} {k : ℕ}

/-- While a timer is linked, the time does not overflow. -/
lemma Busy.mod_eq (hb : Busy ctx) (hc : cap < wordSize)
    (hi : Inv cap P (ctx.setLastRun at_)) : at_ % wordSize = at_ := by
  obtain ⟨w, s, e, he⟩ := hb
  obtain ⟨-, T, hT, -, hl, -⟩ := hi w s e he
  have := hT.le
  rw [setLastRun_lastRun] at this
  exact mod_eq_of_lt (by omega)

/-- A slot that is not empty and whose turn is now has been found. -/
lemma found_slot (hl : ctx.lastRun ≤ at_) (hd : 32 ^ w ∣ at_)
    (hi : Inv cap P (ctx.setLastRun at_)) (hne : ctx.wheels w (timerSlot w at_) ≠ []) :
    Found cap ctx at_ :=
  ⟨hi.mono fun _ _ hf => hf.elim, hl, w, hd, hne⟩

/-- The slots of a wheel from the current one on. -/
theorem scanSlots_spec {slot : ℕ} (hb : Busy ctx) (hc : cap < wordSize)
    (he : ctx.lastRun ≤ at_) (hk : slot + k ≤ 32) (hd : 32 ^ w ∣ at_)
    (hl : ∀ v < w, ∀ s, ctx.wheels v s = []) (hw : Inv cap (fun _ => False) (ctx.setLastRun at_))
    (ht : 0 < k → timerSlot w at_ = slot ∧ Inv cap (w < ·) (ctx.setLastRun at_)) :
    (∃ t, scanSlots ctx w k slot at_ = .found t ∧ Found cap ctx t) ∨
    (scanSlots ctx w k slot at_ = .upTo (at_ + k * 32 ^ w) ∧
      Inv cap (fun _ => False) (ctx.setLastRun (at_ + k * 32 ^ w)) ∧
      ∀ s, slot ≤ s → s < slot + k → ctx.wheels w s = []) := by
  induction k generalizing at_ slot with
  | zero =>
    rw [zero_mul]
    exact .inr ⟨rfl, hw, fun s _ _ => by omega⟩
  | succ k ih =>
    obtain ⟨rfl, hi⟩ := ht (succ_pos k)
    by_cases hn : ctx.wheels w (timerSlot w at_) = []
    · have hj := inv_jump hi hd hl hn (le_add_right _ (32 ^ w)) (le_refl _)
      have hx : Inv cap (fun _ => False) (ctx.setLastRun (at_ + 32 ^ w)) :=
        hj.mono fun _ _ hf => hf.elim
      have hsl := timerSlot_add w at_
      have hsc : scanSlots ctx w (k + 1) (timerSlot w at_) at_
          = scanSlots ctx w k (timerSlot w at_ + 1) (at_ + 32 ^ w) := by
        rw [scanSlots, hn, pow_bits, hb.mod_eq hc hx]
        rfl
      rw [hsc]
      have hk' : timerSlot w at_ + 1 + k ≤ 32 := by omega
      rcases ih (he.trans (le_add_right _ _)) hk' (dvd_add hd (dvd_refl _)) hx
        (fun h0 => ⟨by omega, inv_within hd (by omega) hx⟩) with ho | ⟨hp, hv, hs⟩
      · exact .inl ho
      · have hu : at_ + 32 ^ w + k * 32 ^ w = at_ + (k + 1) * 32 ^ w := by ring
        rw [hu] at hp hv
        refine .inr ⟨hp, hv, fun s h1 h2 => ?_⟩
        rcases eq_or_lt_of_le h1 with rfl | h1
        · exact hn
        · exact hs s h1 (by omega)
    · left
      refine ⟨at_, ?_, found_slot he hd hi hn⟩
      rw [scanSlots, if_neg (by simpa using hn)]

/-- The carry: afterwards no turn of a higher wheel is now. -/
theorem scanCarry_spec {wi : ℕ} (hl : ctx.lastRun ≤ at_)
    (hk : wi + k = ctx.numWheels ∨ ctx.numWheels ≤ wi)
    (hd : 32 ^ wi ∣ at_) (hi : Inv cap (fun v => w < v ∧ v < wi) (ctx.setLastRun at_)) :
    (∃ t, scanCarry ctx k wi at_ = .found t ∧ Found cap ctx t) ∨
    (scanCarry ctx k wi at_ = .upTo at_ ∧ Inv cap (w < ·) (ctx.setLastRun at_)) := by
  induction k generalizing wi with
  | zero =>
    refine .inr ⟨rfl, hi.ahead fun v s e T he _ _ hw => .inl ⟨hw, ?_⟩⟩
    have hv : v < ctx.numWheels := (hi v s e he).1
    omega
  | succ k ih =>
    by_cases hn : ctx.wheels wi (timerSlot wi at_) = []
    · have hi' := hi.of_slot_nil hn
      by_cases hs : timerSlot wi at_ = 0
      · have hd' : 32 ^ (wi + 1) ∣ at_ := by
          rw [dvd_succ_iff (by norm_num) hd, ← timerSlot_eq]
          exact hs
        rw [hs] at hn
        rw [scanCarry]
        simp only [hs, hn, isEmpty_nil, if_true, ne_eq, not_true_eq_false, if_false]
        exact ih (by omega) hd' (hi'.mono fun v _ hv => by omega)
      · have hnd : ¬ 32 ^ (wi + 1) ∣ at_ := by
          rw [dvd_succ_iff (by norm_num) hd, ← timerSlot_eq]
          exact hs
        refine .inr ⟨?_, (hi'.of_not_dvd hnd).mono fun v _ hv => by omega⟩
        rw [scanCarry]
        simp only [hn, hs, isEmpty_nil, if_true, ne_eq, not_false_eq_true]
    · left
      refine ⟨at_, ?_, found_slot hl hd hi hn⟩
      rw [scanCarry]
      exact if_neg (by simpa using hn)

/-- **One wheel**: the first turn is found, or the wheel is empty and the turns of the
higher wheels lie ahead. -/
theorem scanWheel_spec (hb : Busy ctx) (hc : cap < wordSize) (he : ctx.lastRun ≤ at_)
    (hw : w < ctx.numWheels) (hd : 32 ^ w ∣ at_) (hl : ∀ v < w, ∀ s, ctx.wheels v s = [])
    (hi : Inv cap (w < ·) (ctx.setLastRun at_)) :
    (∃ t, scanWheel ctx w at_ = .found t ∧ Found cap ctx t) ∨
    (∃ t, scanWheel ctx w at_ = .upTo t ∧ ctx.lastRun ≤ t ∧ 32 ^ (w + 1) ∣ t ∧
      (∀ v < w + 1, ∀ s, ctx.wheels v s = []) ∧ Inv cap (w < ·) (ctx.setLastRun t)) := by
  have hlt := timerSlot_lt w at_
  have hwe : Inv cap (fun _ => False) (ctx.setLastRun at_) := hi.mono fun _ _ hf => hf.elim
  have hk : timerSlot w at_ + (slotsPerWheel - timerSlot w at_) ≤ 32 := by
    rw [slotsPerWheel]
    omega
  rw [scanWheel]
  rcases scanSlots_spec hb hc he hk hd hl hwe (fun _ => ⟨rfl, hi⟩) with
    ⟨t, ho, ht⟩ | ⟨hp, hi1, hs1⟩
  · left
    exact ⟨t, by simp only [ho], ht⟩
  set t1 := at_ + (slotsPerWheel - timerSlot w at_) * 32 ^ w with ht1
  have hl1 : ctx.lastRun ≤ t1 := he.trans (le_add_right _ _)
  have hd1 : 32 ^ (w + 1) ∣ t1 := by
    rw [ht1, timerSlot_eq]
    exact dvd_add_sub_slot (by norm_num) hd
  rcases scanCarry_spec (w := w) (k := ctx.numWheels - (w + 1)) hl1 (by omega) hd1
    (hi1.mono fun v _ hv => by omega) with ⟨t, ho, ht⟩ | ⟨ha, hi2⟩
  · left
    exact ⟨t, by simp only [hp, ho], ht⟩
  simp only [hp, ha]
  by_cases hs0 : timerSlot w at_ = 0
  · -- the whole wheel has been looked at
    have hn : ∀ s < 32, ctx.wheels w s = [] := fun s hs => by
      refine hs1 s (by omega) ?_
      rw [hs0, slotsPerWheel]
      omega
    refine .inr ⟨t1, by simp only [hs0, if_true], hl1, hd1, fun v hv s => ?_, hi2⟩
    rcases Nat.lt_succ_iff_lt_or_eq.1 hv with hv | rfl
    · exact hl v hv s
    · exact wheels_eq_nil hi2 hn s
  have hdv : 32 ^ w ∣ t1 := (pow_dvd_pow 32 (le_succ w)).trans hd1
  have hsl1 : timerSlot w t1 = 0 := by
    rw [timerSlot_eq]
    exact (dvd_succ_iff (by norm_num) hdv).1 hd1
  rw [if_neg hs0]
  rcases scanSlots_spec hb hc hl1 (zero_add (timerSlot w at_) ▸ hlt.le) hdv hl
    (hi2.mono fun _ _ hf => hf.elim) (fun _ => ⟨hsl1, hi2⟩) with
    ⟨t, ho, ht⟩ | ⟨hu2, -, hs2⟩
  · left
    exact ⟨t, by simp only [ho], ht⟩
  have hl' : ∀ v < w + 1, ∀ s, ctx.wheels v s = [] := by
    intro v hv s
    rcases Nat.lt_succ_iff_lt_or_eq.1 hv with hv | rfl
    · exact hl v hv s
    · refine wheels_eq_nil hi2 (fun s hs => ?_) s
      rcases lt_or_ge s (timerSlot v at_) with ht' | hg
      · exact hs2 s (zero_le s) (by omega)
      · refine hs1 s hg ?_
        rw [slotsPerWheel]
        omega
  -- the turns that are left are a whole turn of the wheel away
  have hj := inv_jump (hi2.mono fun v _ hv => (lt_succ_self w).trans hv) hd1 hl'
    (hi2.slot_nil (succ_pos w) (lt_succ_self w) hd1) (le_add_right t1 (32 ^ (w + 1)))
    (le_refl _)
  have hi3 : Inv cap (fun _ => False) (ctx.setLastRun (t1 + 32 ^ (w + 1))) :=
    hj.mono fun _ _ hf => hf.elim
  have hu : (t1 + timerSlot w at_ * 32 ^ w
      + 2 ^ (w * bitsPerWheel) * (slotsPerWheel - timerSlot w at_)) % wordSize
      = t1 + 32 ^ (w + 1) := by
    have h32 : timerSlot w at_ + (slotsPerWheel - timerSlot w at_) = 32 := by
      rw [slotsPerWheel]
      omega
    rw [← hb.mod_eq hc hi3, pow_bits]
    congr 1
    calc t1 + timerSlot w at_ * 32 ^ w + 32 ^ w * (slotsPerWheel - timerSlot w at_)
        = t1 + (timerSlot w at_ + (slotsPerWheel - timerSlot w at_)) * 32 ^ w := by ring
      _ = t1 + 32 ^ (w + 1) := by rw [h32]; ring
  simp only [hu2, hu]
  rcases scanCarry_spec (w := w) (k := ctx.numWheels - (w + 1)) (hl1.trans (le_add_right _ _))
    (by omega) (dvd_add hd1 (dvd_refl _)) (hi3.mono fun v _ hv => by omega) with
    ho | ⟨hc2, hi4⟩
  · exact .inl ho
  · exact .inr ⟨_, hc2, hl1.trans (le_add_right _ _), dvd_add hd1 (dvd_refl _), hl', hi4⟩

lemma scanWheels_spec (hb : Busy ctx) (hc : cap < wordSize) (hle : ctx.lastRun ≤ at_)
    (hk : w + k = ctx.numWheels) (hd : 32 ^ w ∣ at_) (hl : ∀ v < w, ∀ s, ctx.wheels v s = [])
    (hi : Inv cap (w < ·) (ctx.setLastRun at_)) : Found cap ctx (scanWheels ctx k w at_) := by
  induction k generalizing w at_ with
  | zero =>
    obtain ⟨v, s, e, he⟩ := hb
    have hv : v < ctx.numWheels := (hi v s e he).1
    exact absurd (hl v (by omega) s) (ne_nil_of_mem he)
  | succ k ih =>
    rw [scanWheels]
    rcases scanWheel_spec hb hc hle (by omega) hd hl hi with
      ⟨t, hf, ht⟩ | ⟨t, hu, he', hd', hl', hi'⟩
    · simp only [hf]
      exact ht
    · simp only [hu]
      exact ih he' (by omega) hd' hl' (hi'.mono fun v _ hv => (lt_succ_self w).trans hv)

/-- **The result of the search** is the first turn. -/
theorem getWakeAt_found (h : Good cap ctx) (hb : Busy ctx) : Found cap ctx (getWakeAt ctx) := by
  refine scanWheels_spec hb h.sane.cap_lt (le_refl _) (zero_add _) (one_dvd _)
    (fun v hv => by omega) ?_
  exact h.inv.mono fun _ _ _ => trivial

lemma busy_of_mem (he : e ∈ ctx.all) : Busy ctx := by
  obtain ⟨w, s, -, -, he⟩ := mem_all.1 he
  exact ⟨w, s, e, he⟩

lemma Found.le_expireAt (h : Found cap ctx at_) (he : e ∈ ctx.all) : at_ ≤ e.expireAt := by
  obtain ⟨w, s, -, -, he⟩ := mem_all.1 he
  exact Inv.lastRun_le h.inv he

lemma Found.le_cap (h : Found cap ctx at_) : at_ ≤ cap := by
  obtain ⟨w, hd, hne⟩ := h.hit
  obtain ⟨e, he⟩ := exists_mem_of_ne_nil _ hne
  obtain ⟨-, T, hT, -, hl, -⟩ := h.inv w _ e he
  exact hT.le.trans hl

/-- The first turn is now only if a timer is due now. -/
lemma Found.lt_of_later (h : Found cap ctx at_) (hg : Good cap ctx)
    (hl : ∀ e ∈ ctx.all, ctx.lastRun < e.expireAt) : ctx.lastRun < at_ := by
  refine lt_of_le_of_ne h.le fun hq => ?_
  obtain ⟨w, hd, hne⟩ := h.hit
  rw [← hq] at hd hne
  rcases Nat.eq_zero_or_pos w with rfl | hw
  · obtain ⟨e, he⟩ := exists_mem_of_ne_nil _ hne
    have ho := hg.settled e he
    have := hl e (mem_all_of_inv hg.inv he)
    omega
  · exact hne (hg.inv.slot_nil hw trivial hd)

lemma getWakeAt_le (h : Good cap ctx) (he : e ∈ ctx.all) : getWakeAt ctx ≤ e.expireAt :=
  (getWakeAt_found h (busy_of_mem he)).le_expireAt he

lemma wheels_eq_nil_of_all (hi : Inv cap P ctx) (ha : ctx.all = 0) (w s : ℕ) :
    ctx.wheels w s = [] := by
  refine eq_nil_iff_forall_not_mem.2 fun e he => ?_
  have := mem_all_of_inv hi he
  rw [ha] at this
  exact absurd this (notMem_zero e)

lemma getWakeAt_eq_max_iff (h : Good cap ctx) (hc : cap < uint64Max) :
    getWakeAt ctx = uint64Max ↔ ctx.all = 0 := by
  constructor
  · intro hm
    by_contra hne
    obtain ⟨e, he⟩ := exists_mem_of_ne_zero hne
    have := (getWakeAt_found h (busy_of_mem he)).le_cap
    omega
  · exact fun ha => getWakeAt_empty (wheels_eq_nil_of_all h.inv ha)

lemma lastRun_lt_getWakeAt (h : Good cap ctx) (hc : cap < uint64Max)
    (hl : ∀ e ∈ ctx.all, ctx.lastRun < e.expireAt) : ctx.lastRun < getWakeAt ctx := by
  by_cases ha : ctx.all = 0
  · rw [(getWakeAt_eq_max_iff h hc).2 ha]
    have := h.sane.clock
    omega
  · obtain ⟨e, he⟩ := exists_mem_of_ne_zero ha
    exact (getWakeAt_found h (busy_of_mem he)).lt_of_later h hl

lemma getWakeAt_eq_lastRun (h : Good cap ctx) (he : e ∈ ctx.all)
    (hd : e.expireAt = ctx.lastRun) : getWakeAt ctx = ctx.lastRun :=
  le_antisymm (hd ▸ getWakeAt_le h he) (getWakeAt_found h (busy_of_mem he)).le

section Reachable

variable [DecidableEq α]

/-- **The time to wake up**, in every state that is reached: `UINT64_MAX` if and only if no
timer is linked, otherwise not after any timer expires; and after a run it lies ahead, unless
one of its callbacks linked a timer that is due already. -/
theorem getWakeAt_reach (h : Reach (uint64Max - 1) (fun _ _ => True) ctx) :
    (getWakeAt ctx = uint64Max ↔ ctx.all = 0) ∧ (∀ e ∈ ctx.all, getWakeAt ctx ≤ e.expireAt) ∧
    ∀ now cb ctx' fired, Admissible (uint64Max - 1) ctx (.run now cb) →
      step ctx (.run now cb) = .ok (ctx', fired) →
      ((∀ e ∈ fired, ∀ p ∈ cb e.id, now < p.2) → now < getWakeAt ctx') ∧
      ((∃ e ∈ fired, ∃ p ∈ cb e.id, p.2 ≤ now) → getWakeAt ctx' = now) := by
  have hm : uint64Max - 1 < uint64Max := sub_one_lt (by have := le_uint64Max; omega)
  have hg := h.good (hm.trans uint64Max_lt)
  refine ⟨getWakeAt_eq_max_iff hg hm, fun e he => getWakeAt_le hg he, ?_⟩
  intro now cb ctx' fired ha hs
  obtain ⟨ctx1, ctx2, ex, hu, hr, ho⟩ := run_spec hg ha
  obtain ⟨rfl, rfl⟩ := mk.inj (Except.ok.inj (hu.symm.trans hs))
  have hla : ctx2.lastRun = now := ho.lastRun.trans hr.lastRun
  refine ⟨fun hl => ?_, ?_⟩
  · rw [← hla]
    refine lastRun_lt_getWakeAt ho.good hm fun e he => ?_
    rw [hla]
    rw [ho.all, mem_add] at he
    rcases he with he | he
    · obtain ⟨w, s, -, -, he⟩ := mem_all.1 he
      exact hr.later he
    · obtain ⟨p, hp, rfl⟩ := List.mem_map.1 he
      obtain ⟨entry, ht, hp⟩ := mem_flatMap.1 hp
      exact lt_max_of_lt_left (hl entry ht p hp)
  · rintro ⟨entry, ht, p, hp, hd⟩
    have hmem : linked now p ∈ ctx2.all := by
      rw [ho.all, mem_add]
      exact .inr (List.mem_map_of_mem (mem_flatMap.2 ⟨entry, ht, hp⟩))
    rw [← hla] at hmem hd ⊢
    exact getWakeAt_eq_lastRun ho.good hmem (max_eq_right hd)

end Reachable

/-- With a timer for tick `5`, before and after it fires. -/
theorem getWakeAt_reach_three_wheels : ∃ ctx ctx' : Ctx ℕ, ∃ fired,
    Reach (uint64Max - 1) (fun _ _ => True) ctx ∧ ctx.all = {⟨1, 5⟩} ∧ getWakeAt ctx ≤ 5 ∧
    step ctx (.run 5 fun _ => []) = .ok (ctx', fired) ∧ 5 < getWakeAt ctx' := by
  have hm := le_uint64Max
  have hw := uint64Max_lt
  obtain ⟨ctx, hr, hl, -, ha⟩ := exists_reach_three_wheels (C := fun _ _ => True)
    (le_sub_one_of_lt hm) (by omega) fun _ _ _ => trivial
  obtain ⟨-, ctx', fired, hs, -⟩ := run_spec (hr.good (by omega)) ha
  obtain ⟨-, he, hf⟩ := getWakeAt_reach hr
  exact ⟨ctx, ctx', fired, hr, hl, he ⟨1, 5⟩ (by rw [hl]; exact Multiset.mem_singleton_self _),
    hs, (hf 5 (fun _ => []) ctx' fired ha hs).1 fun _ _ _ hp => absurd hp not_mem_nil⟩

/-- A callback that links a timer for the current tick: the time to wake up is not ahead. -/
theorem getWakeAt_now_after_run : ∃ ctx ctx1 ctx2 : Ctx ℕ, ∃ fired,
    create ℕ 3 0 = .ok ctx ∧ step ctx (.link 1 5) = .ok (ctx1, []) ∧
    step ctx1 (.run 5 fun _ => [(2, 5)]) = .ok (ctx2, fired) ∧ ¬ 5 < getWakeAt ctx2 := by
  have hu : (do
      let ctx ← create ℕ 3 0
      let (ctx1, fired1) ← step ctx (.link 1 5)
      let (ctx2, _) ← step ctx1 (.run 5 fun _ => [(2, 5)])
      pure (fired1, getWakeAt ctx2)) = .ok ([], 5) := by decide +kernel
  obtain ⟨ctx, hc, hu⟩ := of_bind_eq_ok hu
  obtain ⟨⟨ctx1, fired1⟩, hl, hu⟩ := of_bind_eq_ok hu
  obtain ⟨⟨ctx2, fired⟩, hr, hu⟩ := of_bind_eq_ok hu
  obtain ⟨rfl, hw⟩ := mk.inj (Except.ok.inj hu)
  exact ⟨ctx, ctx1, ctx2, fired, hc, hl, hr, by rw [hw]; exact lt_irrefl 5⟩

end Vhttp.Timerwheel
