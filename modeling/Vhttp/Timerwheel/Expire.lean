import Vhttp.Timerwheel.Invariant

/-!
# Collecting the expired timers

`vhttp_timerwheel_get_expired` moves the clock to `now`. It passes over the slots of wheel
`0` one tick at a time; when a wheel has been found empty it goes on with the next one in
larger steps, and a slot that is not empty takes it back to wheel `0`.

* `collect_pass`: what one pass over the slots of a wheel does.
* `redoExpired_spec`: every pass moves the clock, so the loop ends at `now`.
* `getExpired_spec`: afterwards the clock is at `now`, no timer is lost or doubled, the
  timers that are still linked expire later, and those collected do not.
-/

namespace Vhttp.Timerwheel

open WheelTime List Multiset Nat

variable {α : Type*} {cap now : ℕ} {ctx ctx' ctx'' : Ctx α} {ex ex' ex'' : List (Timer α)}

/-- What holds of every way to advance the clock: no timer is lost or doubled, and the
timers that are collected have expired. -/
structure Advance (now : ℕ) (ctx ctx' : Ctx α) (ex ex' : List (Timer α)) : Prop where
  maxTicks : ctx'.maxTicks = ctx.maxTicks
  numWheels : ctx'.numWheels = ctx.numWheels
  le : ctx.lastRun ≤ ctx'.lastRun
  le_now : ctx'.lastRun ≤ now
  total : ctx'.all + (ex' : Multiset (Timer α)) = ctx.all + (ex : Multiset (Timer α))
  exact : 32 ≤ ctx.maxTicks ∨ ctx.numWheels = 1 → Exact ctx →
    Exact ctx' ∧ ∀ e ∈ ex', e ∈ ex ∨ e.expireAt ≤ now

lemma Advance.refl (h : ctx.lastRun ≤ now) : Advance now ctx ctx ex ex :=
  ⟨rfl, rfl, le_refl _, h, rfl, fun _ hx => ⟨hx, fun _ he => .inl he⟩⟩

lemma Advance.trans (h : Advance now ctx ctx' ex ex') (h' : Advance now ctx' ctx'' ex' ex'') :
    Advance now ctx ctx'' ex ex'' := by
  refine ⟨h'.maxTicks.trans h.maxTicks, h'.numWheels.trans h.numWheels, h.le.trans h'.le, h'.le_now,
    h'.total.trans h.total, fun hn hx => ?_⟩
  obtain ⟨hx1, he1⟩ := h.exact hn hx
  obtain ⟨hx2, he2⟩ := h'.exact (by rw [h.maxTicks, h.numWheels]; exact hn) hx1
  refine ⟨hx2, fun e he => ?_⟩
  rcases he2 e he with he | he
  · exact he1 e he
  · exact .inr he

/-- The context that the clock is to reach. -/
def AtNow (cap now : ℕ) (ctx : Ctx α) : Prop := Sane cap (ctx.setLastRun now)

lemma AtNow.sane (h : AtNow cap now ctx) (hl : ctx.lastRun ≤ now) : Sane cap ctx :=
  Sane.congr h rfl rfl hl

lemma AtNow.advance (h : AtNow cap now ctx) (ha : Advance now ctx ctx' ex ex') :
    AtNow cap now ctx' :=
  Sane.congr h ha.numWheels ha.maxTicks le_rfl

lemma Moved.advance (h : Moved cap ctx ctx') (hl : ctx.lastRun ≤ now)
    (hn : 1 < ctx.numWheels) : Advance now ctx ctx' ex ex := by
  refine ⟨h.maxTicks, h.numWheels, le_of_eq h.lastRun.symm, by rw [h.lastRun]; exact hl,
    by rw [h.all], fun ht hx => ⟨h.exact (ht.resolve_right (by omega)) hx, fun _ he => .inl he⟩⟩

/-! ## Moving the clock -/

variable {P : ℕ → Prop} {e : Timer α} {k s slot t w : ℕ}

lemma Exact.tick (hx : Exact ctx) (hi : Inv cap P ctx') (hl : ctx.lastRun ≤ ctx'.lastRun)
    (hmem : ∀ s e, e ∈ ctx'.wheels 0 s → e ∈ ctx.wheels 0 s) : Exact ctx' := by
  intro s e he
  exact (hx s e (hmem s e he)).mono hl (hi.lastRun_le he)

lemma advance_setLastRun (ex : List (Timer α)) (h1 : ctx.lastRun ≤ t)
    (h2 : t ≤ now) (hi : Inv cap P (ctx.setLastRun t)) : Advance now ctx (ctx.setLastRun t) ex ex :=
  ⟨rfl, rfl, h1, h2, rfl, fun _ hx => ⟨hx.tick hi h1 (fun _ _ he => he), fun _ he => .inl he⟩⟩

/-- With the lower wheels and the current slot of wheel `w` empty, the next turn is at least
`32 ^ w` ticks away. -/
lemma add_le_turn (hd : 32 ^ w ∣ ctx.lastRun) (hl : ∀ v < w, ∀ s, ctx.wheels v s = [])
    (hn : ctx.wheels w (timerSlot w ctx.lastRun) = []) {v T : ℕ}
    (he : e ∈ ctx.wheels v s) (hT : IsTurn 32 ctx.lastRun v s T)
    (ha : 0 < v → w < v → ctx.lastRun < T) : ctx.lastRun + 32 ^ w ≤ T := by
  rcases lt_trichotomy v w with ht | rfl | hg
  · exact absurd (hl v ht s) (ne_nil_of_mem he)
  · refine add_le_of_dvd hd hT.dvd (lt_of_le_of_ne hT.le fun hq => ?_)
    rw [timerSlot_eq, hq, hT.slot] at hn
    exact ne_nil_of_mem he hn
  · exact add_le_of_dvd hd ((pow_dvd_pow 32 hg.le).trans hT.dvd) (ha (by omega) hg)

/-- So the clock can be moved up to there. -/
lemma inv_jump (hi : Inv cap (w < ·) ctx) (hd : 32 ^ w ∣ ctx.lastRun)
    (hl : ∀ v < w, ∀ s, ctx.wheels v s = [])
    (hn : ctx.wheels w (timerSlot w ctx.lastRun) = []) (h1 : ctx.lastRun ≤ t)
    (h2 : t ≤ ctx.lastRun + 32 ^ w) :
    Inv cap (fun _ => t < ctx.lastRun + 32 ^ w) (ctx.setLastRun t) := by
  intro v s e he
  obtain ⟨hv, T, hT, hTe, hc, ha⟩ := hi v s e he
  have hg := add_le_turn hd hl hn he hT ha
  exact ⟨hv, T, hT.mono h1 (h2.trans hg), hTe, hc, fun _ ht => lt_of_lt_of_le ht hg⟩

lemma timerSlot_add (w t : ℕ) : timerSlot w (t + 32 ^ w) = (timerSlot w t + 1) % 32 := by
  rw [timerSlot_eq, timerSlot_eq, add_div_right _ (pow_pos (by norm_num) w), mod_add_mod]

/-- Within a turn of wheel `w`, no turn of a higher wheel is now. -/
lemma inv_within (hd : 32 ^ w ∣ t) (hs : timerSlot w t + 1 < 32)
    (hi : Inv cap P (ctx.setLastRun (t + 32 ^ w))) :
    Inv cap (w < ·) (ctx.setLastRun (t + 32 ^ w)) := by
  have hn : ¬ 32 ^ (w + 1) ∣ t + 32 ^ w := by
    rw [dvd_succ_iff (by norm_num) (dvd_add hd (dvd_refl _)), ← timerSlot_eq, timerSlot_add]
    omega
  exact (hi.of_not_dvd hn).mono fun v _ hv => .inr hv

/-! ## A pass over the slots of a wheel -/

/-- The clock has arrived at `now`, and the slot of `now` has been collected. -/
structure Reached (cap now : ℕ) (ctx ctx' : Ctx α) (ex ex' : List (Timer α)) : Prop where
  advance : Advance now ctx ctx' ex ex'
  lastRun : ctx'.lastRun = now
  inv : Inv cap (fun _ => True) ctx'
  slot : ctx'.wheels 0 (timerSlot 0 now) = []

lemma Reached.of_advance (h : Reached cap now ctx' ctx'' ex' ex'')
    (ha : Advance now ctx ctx' ex ex') : Reached cap now ctx ctx'' ex ex'' :=
  ⟨ha.trans h.advance, h.lastRun, h.inv, h.slot⟩

/-- The timers that are still linked expire later. -/
lemma Reached.later (h : Reached cap now ctx ctx' ex ex')
    (he : e ∈ ctx'.wheels w s) : now < e.expireAt := by
  obtain ⟨-, T, hT, hTe, -, ha⟩ := h.inv w s e he
  rw [h.lastRun] at hT ha
  refine lt_of_lt_of_le ?_ hTe
  rcases Nat.eq_zero_or_pos w with rfl | hw
  · refine lt_of_le_of_ne hT.le fun hq => ?_
    have hn := h.slot
    rw [timerSlot_eq, hq, hT.slot] at hn
    exact ne_nil_of_mem he hn
  · exact ha hw trivial

/-- The pass has come to the end of the wheel: the slots from `slot` on are empty, and the other
slots are as they were. -/
structure Swept (cap now w slot : ℕ) (ctx ctx' : Ctx α) (ex ex' : List (Timer α)) : Prop where
  advance : Advance now ctx ctx' ex ex'
  moved : slot < 32 → ctx.lastRun < ctx'.lastRun
  dvd : 32 ^ (w + 1) ∣ ctx'.lastRun
  inv : Inv cap (fun _ => False) ctx'
  nil : ∀ s, slot ≤ s → s < 32 → ctx'.wheels w s = []
  same : ∀ v s, (v = w → s < slot) → ctx'.wheels v s = ctx.wheels v s

/-- How a pass ends: at `now`, at a slot of a higher wheel that has been cascaded, or at the end of
the wheel. -/
inductive Passed (cap now w slot : ℕ) (ctx : Ctx α) (ex : List (Timer α)) : Collected α → Prop
  | exit {ctx' : Ctx α} {ex' : List (Timer α)} (h : Reached cap now ctx ctx' ex ex') :
      Passed cap now w slot ctx ex (.exit ctx' ex')
  | redo {ctx' : Ctx α} {ex' : List (Timer α)} (hw : 0 < w) (h : Advance now ctx ctx' ex ex')
      (hmoved : ctx.wheels w slot = [] → ctx.lastRun < ctx'.lastRun)
      (hi : Inv cap (fun _ => True) ctx') : Passed cap now w slot ctx ex (.redo ctx' ex')
  | carry {ctx' : Ctx α} {ex' : List (Timer α)} (h : Swept cap now w slot ctx ctx' ex ex') :
      Passed cap now w slot ctx ex (.carry ctx' ex')

/-- What holds at a slot of wheel `w`: the lower wheels are empty. -/
structure AtSlot (cap now w : ℕ) (ctx : Ctx α) (ex : List (Timer α)) : Prop where
  atNow : AtNow cap now ctx
  le_now : ctx.lastRun ≤ now
  nodup : (ctx.all + (ex : Multiset (Timer α))).Nodup
  wheel_lt : w < ctx.numWheels
  low : ∀ v < w, ∀ s, ctx.wheels v s = []
  dvd : 32 ^ w ∣ ctx.lastRun

variable (h : AtSlot cap now w ctx ex)
include h

lemma AtSlot.low_setSlot {v : ℕ} (hv : v < w) (s : ℕ) :
    (ctx.setSlot w slot []).wheels v s = [] := by
  rw [setSlot_ne _ _ _ _ fun hs => hv.ne hs.1]
  exact h.low v hv s

/-- The current slot is emptied: on wheel `0` it is collected, on a higher wheel there is nothing
in it. -/
lemma AtSlot.advance_setSlot (hm : w = 0 ∨ ctx.wheels w (timerSlot w ctx.lastRun) = []) :
    Advance now ctx (ctx.setSlot w (timerSlot w ctx.lastRun) []) ex
      (ex ++ ctx.wheels w (timerSlot w ctx.lastRun)) := by
  refine ⟨rfl, rfl, le_refl _, h.le_now, ?_, fun _ hx => ⟨?_, fun e he => ?_⟩⟩
  · have ha := all_setSlot ctx [] h.wheel_lt (timerSlot_lt w ctx.lastRun)
    rw [← coe_add, add_comm (ex : Multiset (Timer α)), ← add_assoc, ha]
    simp
  · exact fun s e he => hx s e (mem_setSlot ctx (nil_subset _) he)
  · refine (mem_append.1 he).imp_right fun he => ?_
    rcases hm with rfl | hn
    · have hT := hx _ e he
      rw [timerSlot_eq] at hT
      rw [hT.eq_now (by norm_num) (one_dvd _)]
      exact h.le_now
    · exact absurd hn (ne_nil_of_mem he)

lemma AtSlot.of_advance (ha : Advance now ctx ctx' ex ex')
    (hl : ∀ v < w, ∀ s, ctx'.wheels v s = []) (hd : 32 ^ w ∣ ctx'.lastRun) :
    AtSlot cap now w ctx' ex' :=
  ⟨h.atNow.advance ha, ha.le_now, by rw [ha.total]; exact h.nodup,
    by rw [ha.numWheels]; exact h.wheel_lt, hl, hd⟩

omit h

/-- The slot is passed, and the pass goes on from the next one. -/
lemma Passed.cons {c : Collected α} {n : ℕ} (hn : ctx.lastRun < n)
    (hd : Advance now ctx ((ctx.setSlot w slot []).setLastRun n) ex ex')
    (h : Passed cap now w (slot + 1) ((ctx.setSlot w slot []).setLastRun n) ex' c) :
    Passed cap now w slot ctx ex c := by
  cases h with
  | exit hr => exact .exit (hr.of_advance hd)
  | redo hw ha _ hi => exact .redo hw (hd.trans ha) (fun _ => hn.trans_le ha.le) hi
  | carry hs =>
    refine .carry ⟨hd.trans hs.advance, fun _ => hn.trans_le hs.advance.le, hs.dvd, hs.inv,
      fun s hs1 hs2 => ?_, fun v s hvs => ?_⟩
    · rcases eq_or_lt_of_le hs1 with rfl | hs1
      · rw [hs.same w _ fun _ => lt_succ_self _]
        exact setSlot_same _ _ _ _
      · exact hs.nil s hs1 hs2
    · rw [hs.same v s fun hv => (hvs hv).trans (lt_succ_self _)]
      exact setSlot_ne _ _ _ _ fun h => (hvs h.1).ne h.2

lemma setSlot_of_nil (h : ctx.wheels w slot = []) : ctx.setSlot w slot [] = ctx := by
  have hw : (ctx.setSlot w slot []).wheels = ctx.wheels := by
    funext v s
    by_cases hv : v = w ∧ s = slot
    · obtain ⟨rfl, rfl⟩ := hv
      rw [setSlot_same, h]
    · exact setSlot_ne _ _ _ _ hv
  calc ctx.setSlot w slot [] = { ctx with wheels := (ctx.setSlot w slot []).wheels } := rfl
    _ = ctx := by rw [hw]

section Pass

variable [DecidableEq α]

/-- A step of a pass over slots that are empty, or that are collected. -/
lemma collect_step (he : w = 0 ∨ ctx.wheels w slot = []) (hs : w ≤ 6)
    (hl : ctx.lastRun ≤ now) (ho : ctx.lastRun + 32 ^ w < wordSize) :
    collect now w (k + 1) slot ctx ex = if ctx.lastRun + 32 ^ w > now then
        .ok (.exit ((ctx.setSlot w slot []).setLastRun now) (ex ++ ctx.wheels w slot))
      else collect now w k (slot + 1) ((ctx.setSlot w slot []).setLastRun (ctx.lastRun + 32 ^ w))
        (ex ++ ctx.wheels w slot) := by
  rw [collect]
  rcases Nat.eq_zero_or_pos w with rfl | hw
  · rw [pow_zero] at ho ⊢
    simp only [if_pos, setSlot_lastRun, mod_eq_of_lt ho]
    rcases hl.eq_or_lt with rfl | ht
    · rw [if_pos rfl]
      exact (if_pos (lt_succ_self _)).symm
    · rw [if_neg ht.ne, if_neg (by omega)]
  · have hn := he.resolve_left hw.ne'
    rw [if_neg hw.ne', setSlot_of_nil hn, hn, append_nil]
    simp only [isEmpty_nil, Bool.not_true, Bool.false_eq_true, if_false]
    rw [if_neg (by simp [bitsPerWheel]; omega), pow_bits, mod_eq_of_lt ho]

include h

/-- A slot that is not empty is cascaded. -/
lemma AtSlot.collect_redo (hw : w ≠ 0) (hi : Inv cap (w < ·) ctx)
    (hne : ctx.wheels w (timerSlot w ctx.lastRun) ≠ []) :
    ∃ c, collect now w (k + 1) (timerSlot w ctx.lastRun) ctx ex = .ok c ∧
      Passed cap now w (timerSlot w ctx.lastRun) ctx ex c := by
  have hpos := pos_of_ne_zero hw
  obtain ⟨ctx', ho, hm, hn⟩ := cascadeOne_spec (h.atNow.sane h.le_now) hi
    (nodup_add.1 h.nodup).1 hpos h.wheel_lt h.dvd
  have ha : Advance now ctx ctx' ex ex := hm.advance h.le_now (by have := h.wheel_lt; omega)
  refine ⟨.redo ctx' ex, ?_, .redo hpos ha (absurd · hne) fun v s e he => ?_⟩
  · rw [collect, if_neg hw]
    simp [hne, ho, hn]
  rcases hm.mem v s e he with hl | ⟨T, hT⟩
  · have hvw : w ≤ v := by
      by_contra ht
      exact ne_nil_of_mem hl (h.low v (by omega) s)
    rw [← hm.lastRun] at hn
    obtain ⟨hv, T, hT, hTe, hc, hh⟩ := (hm.inv hi).of_slot_nil hn v s e he
    exact ⟨hv, T, hT, hTe, hc, fun h0 _ => hh h0 (by omega)⟩
  · rw [hm.lastRun, hm.numWheels]
    exact hT.inv fun _ => True

/-- **A pass over the slots of a wheel**, with the lower wheels empty. -/
theorem collect_pass (hs : w ≤ 6) (hk : slot + k = 32)
    (ht : 0 < k → timerSlot w ctx.lastRun = slot ∧ Inv cap (w < ·) ctx)
    (hen : k = 0 → 32 ^ (w + 1) ∣ ctx.lastRun ∧ Inv cap (fun _ => False) ctx) :
    ∃ c, collect now w k slot ctx ex = .ok c ∧ Passed cap now w slot ctx ex c := by
  induction k generalizing ctx slot ex with
  | zero =>
    obtain ⟨hd, hi⟩ := hen rfl
    exact ⟨_, rfl, .carry ⟨.refl h.le_now, by omega, hd, hi, fun s _ _ => by omega,
      fun _ _ _ => rfl⟩⟩
  | succ k ih =>
    obtain ⟨rfl, hi⟩ := ht (succ_pos k)
    by_cases hm : w = 0 ∨ ctx.wheels w (timerSlot w ctx.lastRun) = []
    swap
    · exact h.collect_redo (not_or.1 hm).1 hi (not_or.1 hm).2
    have ho : ctx.lastRun + 32 ^ w < wordSize := by
      have hsp : 32 ^ w ≤ ctx.maxTicks :=
        (Nat.pow_le_pow_right (by norm_num) (Nat.le_sub_one_of_lt h.wheel_lt)).trans h.atNow.span
      have h1 : now + ctx.maxTicks ≤ cap := h.atNow.clock
      have h2 := h.atNow.cap_lt
      have h3 := h.le_now
      omega
    have hpos : 0 < 32 ^ w := pow_pos (by norm_num) w
    -- the slot is empty now, so the clock can be moved by `32 ^ w`
    have hi1 : Inv cap (w < ·) (ctx.setSlot w (timerSlot w ctx.lastRun) []) :=
      fun v s e he => hi v s e (mem_setSlot ctx (nil_subset _) he)
    have hj {t : ℕ} : ctx.lastRun ≤ t → t ≤ ctx.lastRun + 32 ^ w →
        Inv cap (fun _ => t < ctx.lastRun + 32 ^ w)
          ((ctx.setSlot w (timerSlot w ctx.lastRun) []).setLastRun t) :=
      inv_jump hi1 h.dvd (fun _ => h.low_setSlot) (setSlot_same _ _ _ _)
    have ha {t : ℕ} (h1 : ctx.lastRun ≤ t) (h2 : t ≤ ctx.lastRun + 32 ^ w) (h3 : t ≤ now) :=
      (h.advance_setSlot hm).trans (advance_setLastRun _ h1 h3 (hj h1 h2))
    rw [collect_step hm hs h.le_now ho]
    by_cases hn : ctx.lastRun + 32 ^ w > now
    · refine ⟨_, if_pos hn, .exit ⟨ha h.le_now hn.le le_rfl, rfl,
        (hj h.le_now hn.le).mono fun _ _ _ => hn, ?_⟩⟩
      rcases Nat.eq_zero_or_pos w with rfl | hw
      · rw [show now = ctx.lastRun by have := h.le_now; omega]
        exact setSlot_same _ _ _ _
      · exact h.low_setSlot hw _
    · rw [if_neg hn]
      have hv : 32 ^ w ∣ ctx.lastRun + 32 ^ w := dvd_add h.dvd (dvd_refl _)
      have hl := timerSlot_add w ctx.lastRun
      have ha' := ha (le_add_right _ _) (le_refl _) (not_lt.1 hn)
      have hwe := (hj (le_add_right _ _) (le_refl _)).mono (Q := fun _ => False)
        fun _ _ hf => hf.elim
      have hk' : timerSlot w ctx.lastRun + 1 + k = 32 := by omega
      obtain ⟨c, hc, hp⟩ := ih (h.of_advance ha' (fun _ => h.low_setSlot) hv) hk'
        (fun h0 => ⟨by rw [setLastRun_lastRun]; omega, inv_within h.dvd (by omega) hwe⟩)
        (fun h0 => ⟨(dvd_succ_iff (by norm_num) hv).2 (by rw [← timerSlot_eq]; omega), hwe⟩)
      exact ⟨c, hc, hp.cons (Nat.lt_add_of_pos_right hpos) ha'⟩

end Pass

/-! ## The loop -/

section Loop

variable {start wheel : ℕ}

/-- What holds at the label `Redo`: the wheels below `wheel` are empty, and the clock has
been moved by `32 ^ wheel` since the loop was started at `start`. -/
structure AtRedo (cap start now wheel : ℕ) (ctx : Ctx α) (ex : List (Timer α)) : Prop where
  atNow : AtNow cap now ctx
  le_now : ctx.lastRun ≤ now
  inv : Inv cap (fun _ => True) ctx
  nodup : (ctx.all + (ex : Multiset (Timer α))).Nodup
  wheel_lt : wheel < ctx.numWheels
  low : ∀ v < wheel, ∀ s, ctx.wheels v s = []
  dvd : 32 ^ wheel ∣ ctx.lastRun
  le : start ≤ ctx.lastRun
  climbed : 0 < wheel → start + 32 ^ wheel ≤ ctx.lastRun

lemma AtRedo.zero (h : AtRedo cap start now wheel ctx ex) (ha : Advance now ctx ctx' ex ex')
    (hi : Inv cap (fun _ => True) ctx') : AtRedo cap start now 0 ctx' ex' :=
  ⟨h.atNow.advance ha, ha.le_now, hi, by rw [ha.total]; exact h.nodup,
    by rw [ha.numWheels]; exact h.atNow.pos, fun v hv => by omega, one_dvd _, h.le.trans ha.le,
    fun h0 => by omega⟩

lemma wheels_eq_nil (hi : Inv cap P ctx) (h : ∀ s < 32, ctx.wheels wheel s = [])
    (s : ℕ) : ctx.wheels wheel s = [] := by
  refine eq_nil_iff_forall_not_mem.2 fun e he => ?_
  obtain ⟨-, T, hT, -⟩ := hi wheel s e he
  exact ne_nil_of_mem he (h s (IsTurn.slot_lt hT))

/-- When every wheel is empty, the clock is set. -/
lemma exitExpired_empty (cap : ℕ) (ex : List (Timer α)) (hl : ctx.lastRun ≤ now)
    (hn : ∀ w s, ctx.wheels w s = []) :
    exitExpired now (if ctx.lastRun < now then ctx.setLastRun now else ctx) ex
      = .ok (ctx.setLastRun now, ex) ∧ Reached cap now ctx (ctx.setLastRun now) ex ex := by
  have hi : Inv cap (fun _ => True) (ctx.setLastRun now) :=
    fun w s e he => absurd (hn w s) (ne_nil_of_mem he)
  refine ⟨?_, advance_setLastRun ex hl (le_refl _) hi, rfl, hi, hn 0 _⟩
  rcases eq_or_lt_of_le hl with hq | ht
  · subst hq
    rw [if_neg (lt_irrefl _)]
    exact if_pos rfl
  · rw [if_pos ht]
    exact if_pos rfl

variable [DecidableEq α]

/-- `cascade_all` after a pass over `wheel`. -/
lemma cascadeAll_spec (ex : List (Timer α)) (h : Sane cap ctx) (hl : ctx.lastRun ≤ now)
    (hi : Inv cap (· < wheel) ctx) (hn : ctx.all.Nodup) (hw : wheel < ctx.numWheels)
    (hd : 32 ^ (wheel + 1) ∣ ctx.lastRun) :
    ∃ ctx' b, cascadeAll ctx (if wheel ≠ 0 then wheel else 1) = .ok (ctx', b) ∧
      Advance now ctx ctx' ex ex ∧ ctx'.lastRun = ctx.lastRun ∧ Inv cap (fun _ => True) ctx' ∧
      (b = false → ctx'.wheels = ctx.wheels) := by
  by_cases hn1 : ctx.numWheels = 1
  · -- there is nothing above the only wheel
    obtain rfl : wheel = 0 := by omega
    refine ⟨ctx, false, by simp [cascadeAll, hn1, cascadeLoopAll], .refl hl, rfl,
      hi.ahead fun v s e T he _ h0 _ => ?_, fun _ => rfl⟩
    have := (hi v s e he).1
    omega
  · set first := if wheel ≠ 0 then wheel else 1 with hs
    have hpos : 0 < first ∧ first < ctx.numWheels ∧ first ≤ wheel + 1 ∧ (0 < wheel → first = wheel) := by
      rw [hs]
      have := h.pos
      split <;> omega
    obtain ⟨h0, ht, hl', hq⟩ := hpos
    obtain ⟨ctx', b, ha, hm, hi', hb⟩ := cascadeLoopAll_spec (k := ctx.numWheels - first) false h
      (hi.mono fun v hv hv' => by omega) hn h0 (by omega) ((pow_dvd_pow 32 hl').trans hd)
    exact ⟨ctx', b, ha, hm.advance hl (by omega), hm.lastRun, hi', fun hf => (hb hf).2⟩

/-- **The loop ends at `now`**: every pass moves the clock. -/
theorem redoExpired_spec {fuel : ℕ}
    (hh : ∀ v, 0 < v → v < ctx.numWheels → start + 32 ^ v ≤ now → v ≤ 6)
    (h : AtRedo cap start now wheel ctx ex) (hf : now - ctx.lastRun < fuel) :
    ∃ ctx' ex', redoExpired now fuel wheel ctx ex = .ok (ctx', ex') ∧
      Reached cap now ctx ctx' ex ex' := by
  induction fuel generalizing wheel ctx ex with
  | zero => omega
  | succ fuel ih =>
    -- the loop is entered again, with the clock moved on
    have hre {ctx1 : Ctx α} {ex1 : List (Timer α)} {wheel : ℕ} (ha : Advance now ctx ctx1 ex ex1)
        (ht : ctx.lastRun < ctx1.lastRun) (h1 : AtRedo cap start now wheel ctx1 ex1) :
        ∃ ctx' ex', redoExpired now fuel wheel ctx1 ex1 = .ok (ctx', ex') ∧
          Reached cap now ctx ctx' ex ex' := by
      obtain ⟨ctx', ex', hu, hr⟩ := ih (by rw [ha.numWheels]; exact hh) h1
        (by have := ha.le_now; omega)
      exact ⟨ctx', ex', hu, hr.of_advance ha⟩
    have ht := timerSlot_lt wheel ctx.lastRun
    have hx : wheel ≤ 6 := by
      by_contra hg
      have hw : 0 < wheel := by omega
      exact hg (hh wheel hw h.wheel_lt ((h.climbed hw).trans h.le_now))
    obtain ⟨c, hc, hp⟩ := collect_pass (k := slotsPerWheel - timerSlot wheel ctx.lastRun)
      ⟨h.atNow, h.le_now, h.nodup, h.wheel_lt, h.low, h.dvd⟩ hx (Nat.add_sub_cancel' ht.le)
      (fun _ => ⟨rfl, h.inv.mono fun _ _ _ => trivial⟩) (fun h0 => by rw [slotsPerWheel] at h0; omega)
    rw [redoExpired]
    simp only [hc, ok_bind]
    cases hp with
    | exit hr =>
      refine ⟨_, _, ?_, hr⟩
      simp only [exitExpired, hr.lastRun, if_pos]
    | redo hw ha hm hi =>
      exact hre ha (hm (h.inv.slot_nil hw trivial h.dvd)) (h.zero ha hi)
    | @carry ctx1 ex1 hsw =>
      have ha := hsw.advance
      have hle := ha.le_now
      have hl : ∀ v < wheel, ∀ s, ctx1.wheels v s = [] := fun v hv s =>
        (hsw.same v s fun hvw => absurd hvw hv.ne).trans (h.low v hv s)
      have hn1 : (ctx1.all + (ex1 : Multiset (Timer α))).Nodup := by
        rw [ha.total]
        exact h.nodup
      obtain ⟨ctx2, b, hal, ha2, hlr, hi2, hb⟩ := cascadeAll_spec ex1
        ((h.atNow.advance ha).sane hle) hle
        (hsw.inv.ahead fun v s e _ he _ _ hv => absurd (hl v hv s) (ne_nil_of_mem he))
        (nodup_add.1 hn1).1 (by rw [ha.numWheels]; exact h.wheel_lt) hsw.dvd
      have ha' := ha.trans ha2
      have hz := h.zero ha' hi2
      have hd := hsw.dvd
      have hm := hsw.moved ht
      rw [← hlr] at hd hm
      simp only [hal, ok_bind]
      cases b with
      | true => exact hre ha' hm hz
      | false =>
        rw [← hb rfl] at hl
        simp only [Bool.false_eq_true, if_false]
        by_cases hs : timerSlot wheel ctx.lastRun = 0
        · rw [if_neg (not_not.2 hs)]
          have hl' : ∀ v < wheel + 1, ∀ s, ctx2.wheels v s = [] := by
            intro v hv s
            rcases Nat.lt_succ_iff_lt_or_eq.1 hv with hv | rfl
            · exact hl v hv s
            · refine wheels_eq_nil hi2 (fun s hs' => ?_) s
              rw [hb rfl]
              exact hsw.nil s (by omega) hs'
          have hcl : ctx.lastRun + 32 ^ (wheel + 1) ≤ ctx2.lastRun := by
            refine add_le_of_dvd ((dvd_succ_iff (by norm_num) h.dvd).2 ?_) hd hm
            rw [← timerSlot_eq]
            exact hs
          by_cases hla : wheel + 1 < ctx2.numWheels
          · rw [if_pos hla]
            exact hre ha' hm ⟨hz.atNow, hz.le_now, hi2, hz.nodup, hla, hl', hd, hz.le,
              fun _ => by have := h.le; omega⟩
          · -- every wheel is empty
            rw [if_neg hla]
            obtain ⟨hex, hr⟩ := exitExpired_empty cap ex1 hz.le_now fun v s =>
              eq_nil_iff_forall_not_mem.2 fun e he =>
                ne_nil_of_mem he (hl' v (by have := (hi2 v s e he).1; omega) s)
            exact ⟨_, _, hex, hr.of_advance ha'⟩
        · rw [if_pos hs]
          exact hre ha' hm ⟨hz.atNow, hz.le_now, hi2, hz.nodup,
            by rw [ha'.numWheels]; exact h.wheel_lt, hl, (pow_dvd_pow 32 (le_succ _)).trans hd,
            hz.le, fun h0 => (h.climbed h0).trans ha'.le⟩

/-- **`vhttp_timerwheel_get_expired` reaches `now`** without a fault. -/
theorem getExpired_spec (ha : AtNow cap now ctx) (hl : ctx.lastRun ≤ now)
    (hi : Inv cap (fun _ => True) ctx) (hn : ctx.all.Nodup)
    (hs : ∀ v, 0 < v → v < ctx.numWheels → ctx.lastRun + 32 ^ v ≤ now → v ≤ 6) :
    ∃ ctx' ex, getExpired ctx now = .ok (ctx', ex) ∧ Reached cap now ctx ctx' [] ex := by
  rw [getExpired, if_neg (not_lt.2 hl)]
  refine redoExpired_spec hs ⟨ha, hl, hi, ?_, ha.pos, fun v hv => by omega, one_dvd _,
    le_refl _, fun h0 => by omega⟩ (lt_succ_self _)
  rw [coe_nil, add_zero]
  exact hn

end Loop

end Vhttp.Timerwheel
