import Vhttp.Timerwheel.Basic
import Vhttp.Lib.WheelTime

/-!
# The slot invariant of the timer wheel

A timer in slot `s` of wheel `w` has a turn: the time at which the slot is visited next.
The invariant says that the turn lies ahead and not behind the time the timer expires. It
does not depend on the number of wheels, and far-future timers that are linked at the
highest wheel keep it as well.

* `linkTimer_eq`: linking a timer never leaves the array and establishes the invariant for it.
* `cascadeOne_spec`: cascading the slot whose turn is now empties it, trips neither the
  assertion nor the abort, and relinks every timer ahead of the clock.
-/

namespace Vhttp.Timerwheel

open WheelTime Bool Finset Nat

variable {α : Type*}

/-! ## Wheel and slot of a time -/

lemma pow_bits (wheel : ℕ) : 2 ^ (wheel * bitsPerWheel) = 32 ^ wheel := by
  rw [Nat.mul_comm, pow_mul]
  rfl

lemma timerSlot_eq (wheel expire : ℕ) : timerSlot wheel expire = expire / 32 ^ wheel % 32 := by
  rw [timerSlot, Nat.and_comm, Nat.shiftRight_eq_div_pow, pow_bits]
  exact Nat.and_two_pow_sub_one_eq_mod _ 5

lemma timerSlot_lt (wheel expire : ℕ) : timerSlot wheel expire < 32 := by
  rw [timerSlot_eq]
  exact mod_lt _ (by norm_num)

variable {T delta k s w : ℕ} {ctx' : Ctx α}

lemma le_of_timerWheel (h : 0 < timerWheel delta) : 32 ^ timerWheel delta ≤ delta := by
  rw [timerWheel] at h ⊢
  split at h
  · exact absurd h (lt_irrefl 0)
  · rename_i hd
    rw [if_neg hd, ← pow_bits]
    calc 2 ^ (delta.log2 / bitsPerWheel * bitsPerWheel) ≤ 2 ^ delta.log2 :=
          Nat.pow_le_pow_right (by norm_num) (Nat.div_mul_le_self _ _)
      _ ≤ delta := log2_self_le hd

lemma lt_of_timerWheel (delta : ℕ) : delta < 32 ^ (timerWheel delta + 1) := by
  rw [timerWheel]
  split
  · rename_i hd
    rw [hd]
    norm_num
  · rename_i hd
    rw [← pow_bits]
    calc delta < 2 ^ (delta.log2 + 1) := lt_log2_self
      _ ≤ 2 ^ ((delta.log2 / bitsPerWheel + 1) * bitsPerWheel) := by
          refine Nat.pow_le_pow_right (by norm_num) ?_
          have := Nat.lt_div_mul_add (a := delta.log2) (b := bitsPerWheel) (by decide)
          rw [add_mul, one_mul]
          omega

lemma timerWheel_lt {n : ℕ} (hn : 0 < n) (h : delta < 32 ^ n) : timerWheel delta < n := by
  by_contra hg
  have hpos : 0 < timerWheel delta := by omega
  have := le_of_timerWheel hpos
  have : 32 ^ n ≤ 32 ^ timerWheel delta := Nat.pow_le_pow_right (by norm_num) (by omega)
  omega

/-! ## The linked timers -/

/-- All linked timers. -/
def Ctx.all (ctx : Ctx α) : Multiset (Timer α) :=
  ∑ p ∈ range ctx.numWheels ×ˢ range slotsPerWheel, (ctx.wheels p.1 p.2 : Multiset (Timer α))

lemma mem_all {ctx : Ctx α} {e : Timer α} :
    e ∈ ctx.all ↔ ∃ w s, w < ctx.numWheels ∧ s < 32 ∧ e ∈ ctx.wheels w s := by
  simp only [Ctx.all, Multiset.mem_sum, mem_product, mem_range, slotsPerWheel,
    Multiset.mem_coe, Prod.exists]
  constructor
  · rintro ⟨w, s, ⟨hw, hs⟩, he⟩
    exact ⟨w, s, hw, hs, he⟩
  · rintro ⟨w, s, hw, hs, he⟩
    exact ⟨w, s, ⟨hw, hs⟩, he⟩

section SetSlot

variable (ctx : Ctx α) (wheel slot : ℕ) (l : List (Timer α))

@[simp] lemma setSlot_lastRun : (ctx.setSlot wheel slot l).lastRun = ctx.lastRun := rfl

@[simp] lemma setSlot_numWheels : (ctx.setSlot wheel slot l).numWheels = ctx.numWheels := rfl

@[simp] lemma setSlot_same : (ctx.setSlot wheel slot l).wheels wheel slot = l := by
  simp [Ctx.setSlot]

lemma setSlot_ne (h : ¬(w = wheel ∧ s = slot)) :
    (ctx.setSlot wheel slot l).wheels w s = ctx.wheels w s := by
  simp [Ctx.setSlot, h]

@[simp] lemma setLastRun_lastRun (t : ℕ) : (ctx.setLastRun t).lastRun = t := rfl

variable {wheel slot}

lemma all_setSlot (hw : wheel < ctx.numWheels) (hs : slot < 32) :
    (ctx.setSlot wheel slot l).all + (ctx.wheels wheel slot : Multiset (Timer α)) =
    ctx.all + (l : Multiset (Timer α)) := by
  have hmem : (wheel, slot) ∈ range ctx.numWheels ×ˢ range slotsPerWheel := by
    simp [hw, slotsPerWheel, hs]
  have hr : ∑ p ∈ (range ctx.numWheels ×ˢ range slotsPerWheel).erase (wheel, slot),
      ((ctx.setSlot wheel slot l).wheels p.1 p.2 : Multiset (Timer α))
      = ∑ p ∈ (range ctx.numWheels ×ˢ range slotsPerWheel).erase (wheel, slot),
        (ctx.wheels p.1 p.2 : Multiset (Timer α)) := by
    refine sum_congr rfl fun p hp => ?_
    rw [setSlot_ne]
    rintro ⟨h1, h2⟩
    exact (mem_erase.1 hp).1 (Prod.ext h1 h2)
  rw [Ctx.all, Ctx.all, ← add_sum_erase _ _ hmem, setSlot_numWheels,
    ← add_sum_erase (a := (wheel, slot)) _ _ hmem, hr, setSlot_same]
  abel

/-- A timer is put at the end of a slot. -/
lemma all_link (hw : wheel < ctx.numWheels) (hs : slot < 32) (e : Timer α) :
    (ctx.setSlot wheel slot (ctx.wheels wheel slot ++ [e])).all = ctx.all + {e} := by
  have h := all_setSlot ctx (ctx.wheels wheel slot ++ [e]) hw hs
  rw [← Multiset.coe_add, ← add_assoc, add_right_comm] at h
  exact add_right_cancel h

lemma mem_link {e e' : Timer α}
    (h : e' ∈ (ctx.setSlot wheel slot (ctx.wheels wheel slot ++ [e])).wheels w s) :
    e' ∈ ctx.wheels w s ∨ w = wheel ∧ s = slot ∧ e' = e := by
  by_cases hs : w = wheel ∧ s = slot
  · obtain ⟨rfl, rfl⟩ := hs
    rw [setSlot_same, List.mem_append, List.mem_singleton] at h
    exact h.imp_right fun h => ⟨rfl, rfl, h⟩
  · rw [setSlot_ne _ _ _ _ hs] at h
    exact .inl h

/-- A slot is left with some of its timers. -/
lemma mem_setSlot {e : Timer α} {l : List (Timer α)} (hl : l ⊆ ctx.wheels wheel slot)
    (he : e ∈ (ctx.setSlot wheel slot l).wheels w s) : e ∈ ctx.wheels w s := by
  by_cases hs : w = wheel ∧ s = slot
  · obtain ⟨rfl, rfl⟩ := hs
    rw [setSlot_same] at he
    exact hl he
  · rwa [setSlot_ne _ _ _ _ hs] at he

end SetSlot

/-! ## Linking -/

/-- What `vhttp_timerwheel_create` sets up and every later step keeps: the clock is so far
below `cap` that `last_run + max_ticks` does not overflow. -/
structure Sane (cap : ℕ) (ctx : Ctx α) : Prop where
  pos : 0 < ctx.numWheels
  ticks : 31 ≤ ctx.maxTicks
  span : 32 ^ (ctx.numWheels - 1) ≤ ctx.maxTicks
  ticks_lt : ctx.maxTicks < 32 ^ ctx.numWheels
  clock : ctx.lastRun + ctx.maxTicks ≤ cap
  cap_lt : cap < wordSize

/-- The place of a timer that has just been linked. -/
structure Fresh (cap : ℕ) (ctx : Ctx α) (w s : ℕ) (e : Timer α) (T : ℕ) : Prop where
  wheel : w < ctx.numWheels
  turn : IsTurn 32 ctx.lastRun w s T
  le : T ≤ e.expireAt
  le_cap : T ≤ cap
  ahead : 0 < w → ctx.lastRun < T
  exact : w = 0 → T = min e.expireAt (ctx.lastRun + ctx.maxTicks)

variable {cap : ℕ} {ctx : Ctx α} {e : Timer α}

/-- **Linking a timer** puts it at the end of a slot of the array whose turn is not behind
the time it expires. A timer that is linked while its slot is cascaded does not come back
to the same slot. -/
theorem linkTimer_eq (h : Sane cap ctx) (he : ctx.lastRun ≤ e.expireAt) :
    ∃ w s T, linkTimer ctx e = .ok (ctx.setSlot w s (ctx.wheels w s ++ [e])) ∧
      Fresh cap ctx w s e T ∧
      (∀ v, 0 < v → 32 ^ v ∣ ctx.lastRun → ¬(w = v ∧ s = timerSlot v ctx.lastRun)) := by
  obtain ⟨hpos, ht, -, hlt, hc, hp⟩ := h
  have hl : (ctx.lastRun + ctx.maxTicks) % wordSize = ctx.lastRun + ctx.maxTicks :=
    mod_eq_of_lt (by omega)
  set A := min e.expireAt (ctx.lastRun + ctx.maxTicks) with hA
  have ha : (if e.expireAt > ctx.lastRun + ctx.maxTicks then ctx.lastRun + ctx.maxTicks
      else e.expireAt) = A := by
    rw [hA]
    split <;> omega
  have hd : (A + wordSize - ctx.lastRun) % wordSize = A - ctx.lastRun := by
    rw [show A + wordSize - ctx.lastRun = (A - ctx.lastRun) + wordSize by omega,
      add_mod_right, mod_eq_of_lt (by omega)]
  have hh : timerWheel (A - ctx.lastRun) < ctx.numWheels := timerWheel_lt hpos (by omega)
  have hg : 0 < timerWheel (A - ctx.lastRun) →
      ctx.lastRun + 32 ^ timerWheel (A - ctx.lastRun) ≤ A := by
    intro hw
    have := le_of_timerWheel hw
    omega
  have hl' : A < ctx.lastRun + 32 ^ (timerWheel (A - ctx.lastRun) + 1) := by
    have := lt_of_timerWheel (A - ctx.lastRun)
    omega
  obtain ⟨T, hu, hTA, hah, hz⟩ := exists_isTurn (by norm_num) (by omega) hl' hg
  rw [← timerSlot_eq] at hu
  refine ⟨timerWheel (A - ctx.lastRun), timerSlot (timerWheel (A - ctx.lastRun)) A, T, ?_,
    ⟨hh, hu, by omega, by omega, hah, hz⟩, ?_⟩
  · rw [linkTimer, hl, ha, hd]
    exact if_pos hh
  · rintro v hv hdv ⟨rfl, hs⟩
    rw [timerSlot_eq, timerSlot_eq] at hs
    exact slot_ne (by norm_num) hdv hl' (hg hv) hs

/-! ## The invariant -/

/-- Every timer lies on a wheel of the array, in a slot whose turn is not behind the time
the timer expires. On the higher wheels `w` with `P w` the turn is ahead of the clock; on
the others it may be now, which is what remains to be cascaded. -/
def Inv (cap : ℕ) (P : ℕ → Prop) (ctx : Ctx α) : Prop :=
  ∀ w s e, e ∈ ctx.wheels w s → w < ctx.numWheels ∧
    ∃ T, IsTurn 32 ctx.lastRun w s T ∧ T ≤ e.expireAt ∧ T ≤ cap ∧
      (0 < w → P w → ctx.lastRun < T)

variable {P Q : ℕ → Prop}

/-- In wheel `0` a timer lies in the slot of the time it expires. -/
def Exact (ctx : Ctx α) : Prop :=
  ∀ s e, e ∈ ctx.wheels 0 s → IsTurn 32 ctx.lastRun 0 s e.expireAt

lemma IsTurn.slot_lt {now : ℕ} (h : IsTurn 32 now w s T) : s < 32 := by
  rw [← h.slot]
  exact mod_lt _ (by norm_num)

/-- Turns that are ahead for some other reason. -/
lemma Inv.ahead (h : Inv cap P ctx) (hk : ∀ w s e T, e ∈ ctx.wheels w s →
    IsTurn 32 ctx.lastRun w s T → 0 < w → Q w → P w ∨ ctx.lastRun < T) : Inv cap Q ctx := by
  intro w s e he
  obtain ⟨hw, T, hT, hl, hc, ha⟩ := h w s e he
  exact ⟨hw, T, hT, hl, hc, fun h0 h1 => (hk w s e T he hT h0 h1).elim (ha h0) id⟩

lemma Inv.mono (h : Inv cap P ctx) (hk : ∀ w, 0 < w → Q w → P w) : Inv cap Q ctx :=
  h.ahead fun w _ _ _ _ _ h0 h1 => .inl (hk w h0 h1)

lemma Fresh.inv (h : Fresh cap ctx w s e T) (P : ℕ → Prop) :
    w < ctx.numWheels ∧ ∃ T, IsTurn 32 ctx.lastRun w s T ∧ T ≤ e.expireAt ∧ T ≤ cap ∧
      (0 < w → P w → ctx.lastRun < T) :=
  ⟨h.wheel, T, h.turn, h.le, h.le_cap, fun h0 _ => h.ahead h0⟩

/-- A fresh timer in wheel `0` lies in its own slot, if there is a second wheel for the
timers that are further away. -/
lemma Fresh.exact_turn (h : Fresh cap ctx 0 s e T)
    (hn : 32 ≤ ctx.maxTicks ∨ e.expireAt ≤ ctx.lastRun + ctx.maxTicks) :
    IsTurn 32 ctx.lastRun 0 s e.expireAt := by
  have hT := h.exact rfl
  have hlt := h.turn.lt
  have : T = e.expireAt := by
    rcases hn with hn | hn
    · norm_num at hlt
      omega
    · omega
  rw [← this]
  exact h.turn

lemma mem_all_of_inv (h : Inv cap P ctx) (he : e ∈ ctx.wheels w s) : e ∈ ctx.all := by
  obtain ⟨hw, T, hT, -⟩ := h w s e he
  exact mem_all.2 ⟨w, s, hw, IsTurn.slot_lt hT, he⟩

/-! ## Cascading -/

/-- `ctx'` is `ctx` with some of the timers linked anew. -/
structure Moved (cap : ℕ) (ctx ctx' : Ctx α) : Prop where
  lastRun : ctx'.lastRun = ctx.lastRun
  maxTicks : ctx'.maxTicks = ctx.maxTicks
  numWheels : ctx'.numWheels = ctx.numWheels
  all : ctx'.all = ctx.all
  mem : ∀ w s e, e ∈ ctx'.wheels w s → e ∈ ctx.wheels w s ∨ ∃ T, Fresh cap ctx w s e T

lemma Moved.refl : Moved cap ctx ctx :=
  ⟨rfl, rfl, rfl, rfl, fun _ _ _ he => .inl he⟩

lemma Moved.trans {ctx'' : Ctx α} (h : Moved cap ctx ctx')
    (h' : Moved cap ctx' ctx'') : Moved cap ctx ctx'' := by
  refine ⟨h'.lastRun.trans h.lastRun, h'.maxTicks.trans h.maxTicks,
    h'.numWheels.trans h.numWheels, h'.all.trans h.all, fun w s e he => ?_⟩
  rcases h'.mem w s e he with he' | ⟨T, hT⟩
  · exact h.mem w s e he'
  · refine .inr ⟨T, ?_⟩
    obtain ⟨h1, h2, h3, h4, h5, h6⟩ := hT
    rw [h.lastRun] at h2 h5 h6
    rw [h.numWheels] at h1
    rw [h.maxTicks] at h6
    exact ⟨h1, h2, h3, h4, h5, h6⟩

lemma Sane.congr (h : Sane cap ctx) (hn : ctx'.numWheels = ctx.numWheels)
    (ht : ctx'.maxTicks = ctx.maxTicks) (hl : ctx'.lastRun ≤ ctx.lastRun) : Sane cap ctx' := by
  obtain ⟨h1, h2, h3, h4, h5, h6⟩ := h
  rw [← hn] at h1 h3 h4
  rw [← ht] at h2 h3 h4 h5
  exact ⟨h1, h2, h3, h4, (Nat.add_le_add_right hl _).trans h5, h6⟩

lemma Moved.sane (h : Moved cap ctx ctx') (hs : Sane cap ctx) : Sane cap ctx' :=
  hs.congr h.numWheels h.maxTicks h.lastRun.le

lemma Moved.inv (h : Moved cap ctx ctx') (hi : Inv cap P ctx) : Inv cap P ctx' := by
  intro w s e he
  rw [h.lastRun, h.numWheels]
  rcases h.mem w s e he with he' | ⟨T, hT⟩
  · exact hi w s e he'
  · exact hT.inv P

lemma Moved.exact (h : Moved cap ctx ctx')
    (hn : 32 ≤ ctx.maxTicks) (hi : Exact ctx) : Exact ctx' := by
  intro s e he
  rw [h.lastRun]
  rcases h.mem 0 s e he with he' | ⟨T, hT⟩
  · exact hi s e he'
  · exact hT.exact_turn (.inl hn)

section Cascade

variable {wheel : ℕ}

/-- One iteration of the loop of `cascade_one`. -/
lemma cascade_step (h : Sane cap ctx) (hw : 0 < wheel) (hlt : wheel < ctx.numWheels)
    (hdv : 32 ^ wheel ∣ ctx.lastRun) {rest : List (Timer α)}
    (hl : ctx.wheels wheel (timerSlot wheel ctx.lastRun) = e :: rest)
    (he : ctx.lastRun ≤ e.expireAt) :
    ∃ ctx', linkTimer (ctx.setSlot wheel (timerSlot wheel ctx.lastRun) rest) e = .ok ctx' ∧
      Moved cap ctx ctx' ∧ ctx'.wheels wheel (timerSlot wheel ctx.lastRun) = rest := by
  set slot := timerSlot wheel ctx.lastRun with hsl
  set ctx1 := ctx.setSlot wheel slot rest with hc1
  have h1 : Sane cap ctx1 := { h with }
  obtain ⟨w, s, T, hk, hf, hne⟩ := linkTimer_eq h1 he
  have hp : ¬(wheel = w ∧ slot = s) := fun hs => hne wheel hw hdv ⟨hs.1.symm, hs.2.symm⟩
  refine ⟨_, hk, ⟨rfl, rfl, rfl, ?_, fun w' s' e' he' => ?_⟩, ?_⟩
  · -- the timer leaves one slot and enters another
    have hlf := all_setSlot ctx rest hlt (timerSlot_lt wheel ctx.lastRun)
    rw [← hsl, hl, ← hc1, ← Multiset.cons_coe, ← Multiset.singleton_add, ← add_assoc] at hlf
    rw [all_link ctx1 hf.wheel (IsTurn.slot_lt hf.turn)]
    exact add_right_cancel hlf
  · rcases mem_link ctx1 he' with he' | ⟨rfl, rfl, rfl⟩
    · refine .inl (mem_setSlot ctx ?_ he')
      rw [hl]
      exact List.subset_cons_self _ _
    · exact .inr ⟨T, { hf with }⟩
  · rw [setSlot_ne _ _ _ _ hp, hc1, setSlot_same]

lemma nodup_slot (hn : ctx.all.Nodup) (hw : w < ctx.numWheels) (hs : s < 32) :
    (ctx.wheels w s).Nodup := by
  have hmem : (w, s) ∈ range ctx.numWheels ×ˢ range slotsPerWheel := by
    simp [hw, slotsPerWheel, hs]
  have hl : (ctx.wheels w s : Multiset (Timer α)) ≤ ctx.all := by
    rw [Ctx.all, ← add_sum_erase _ _ hmem]
    exact Multiset.le_add_right _ _
  exact Multiset.coe_nodup.1 (Multiset.nodup_of_le hl hn)

lemma Inv.lastRun_le (h : Inv cap P ctx) (he : e ∈ ctx.wheels w s) :
    ctx.lastRun ≤ e.expireAt := by
  obtain ⟨-, T, hT, hl, -⟩ := h w s e he
  exact hT.le.trans hl

/-- With the slot whose turn is now empty, the turns of the wheel are ahead of the clock. -/
lemma Inv.of_slot_nil (hi : Inv cap P ctx)
    (hl : ctx.wheels wheel (timerSlot wheel ctx.lastRun) = []) :
    Inv cap (fun w => P w ∨ w = wheel) ctx := by
  refine hi.ahead fun w s e T he hT _ h1 => h1.imp_right ?_
  rintro rfl
  refine lt_of_le_of_ne hT.le fun hq => ?_
  -- a turn that is now would be in the empty slot
  rw [timerSlot_eq, hq, hT.slot] at hl
  exact List.ne_nil_of_mem he hl

/-- Conversely, when the turns of a wheel are ahead, the slot whose turn is now is empty. -/
lemma Inv.slot_nil (hi : Inv cap P ctx) (hw : 0 < wheel) (hP : P wheel)
    (hdv : 32 ^ wheel ∣ ctx.lastRun) : ctx.wheels wheel (timerSlot wheel ctx.lastRun) = [] := by
  refine List.eq_nil_iff_forall_not_mem.2 fun e he => ?_
  obtain ⟨-, T, hT, -, -, ha⟩ := hi _ _ e he
  rw [timerSlot_eq] at hT
  have hq := hT.eq_now (by norm_num) hdv
  have := ha hw hP
  omega

/-- Past a clock that is no multiple of `32 ^ k`, the turns of the wheels from `k` on are ahead. -/
lemma Inv.of_not_dvd (hi : Inv cap P ctx) (hd : ¬ 32 ^ k ∣ ctx.lastRun) :
    Inv cap (fun w => P w ∨ k ≤ w) ctx :=
  hi.ahead fun _ _ _ _ _ hT _ h1 => h1.imp_right fun h1 => hT.ne_of_not_dvd h1 hd

variable [DecidableEq α]

variable (h : Sane cap ctx) (hi : Inv cap P ctx) (hn : ctx.all.Nodup) (hw : 0 < wheel)
  (hlt : wheel < ctx.numWheels) (hdv : 32 ^ wheel ∣ ctx.lastRun)
include h hi hn hw hlt hdv

lemma cascadeLoop_spec {fuel : ℕ}
    (hf : (ctx.wheels wheel (timerSlot wheel ctx.lastRun)).length = fuel) :
    ∃ ctx', cascadeLoop wheel (timerSlot wheel ctx.lastRun) fuel ctx = .ok ctx' ∧
      Moved cap ctx ctx' ∧ ctx'.wheels wheel (timerSlot wheel ctx.lastRun) = [] := by
  induction fuel generalizing ctx with
  | zero =>
    have hni := List.eq_nil_of_length_eq_zero hf
    exact ⟨ctx, by rw [cascadeLoop, hni]; rfl, .refl, hni⟩
  | succ fuel ih =>
    obtain ⟨e, rest, hl⟩ := List.exists_cons_of_length_eq_add_one hf
    have hmem : e ∈ ctx.wheels wheel (timerSlot wheel ctx.lastRun) := by
      rw [hl]
      exact List.mem_cons_self
    have he := hi.lastRun_le hmem
    obtain ⟨ctx1, hk, hm, hre⟩ := cascade_step h hw hlt hdv hl he
    -- the entry is not the last one of the slot: no timer is linked twice
    have hne : (ctx1.wheels wheel (timerSlot wheel ctx.lastRun)).getLast? ≠ some e := by
      have hd := nodup_slot hn hlt (timerSlot_lt wheel ctx.lastRun)
      rw [hl, List.nodup_cons] at hd
      rw [hre]
      exact fun ha => hd.1 (List.mem_of_getLast? ha)
    have hr := hm.lastRun
    obtain ⟨ctx', hp, hm', hni⟩ := ih (hm.sane h) (hm.inv hi)
      (by rw [hm.all]; exact hn) (by rw [hm.numWheels]; exact hlt) (by rw [hr]; exact hdv)
      (by rw [hr, hre]; rw [hl, List.length_cons] at hf; exact succ.inj hf)
    rw [hr] at hp hni
    refine ⟨ctx', ?_, hm.trans hm', hni⟩
    rw [cascadeLoop, hl]
    simp only [if_neg (not_lt.2 he), hk]
    exact (if_neg hne).trans hp

/-- **Cascading the slot whose turn is now** empties it, without a fault. -/
theorem cascadeOne_spec : ∃ ctx', cascadeOne ctx wheel (timerSlot wheel ctx.lastRun) = .ok ctx' ∧
      Moved cap ctx ctx' ∧ ctx'.wheels wheel (timerSlot wheel ctx.lastRun) = [] := by
  rw [cascadeOne, if_neg (by omega)]
  exact cascadeLoop_spec h hi hn hw hlt hdv rfl

omit h hi hn hw hlt hdv

lemma cascadeLoopAll_spec (cascaded : Bool) (h : Sane cap ctx)
    (hi : Inv cap (· < wheel) ctx) (hn : ctx.all.Nodup) (hw : 0 < wheel)
    (hk : wheel + k = ctx.numWheels)
    (hdv : 32 ^ wheel ∣ ctx.lastRun) :
    ∃ ctx' b, cascadeLoopAll k wheel ctx cascaded = .ok (ctx', b) ∧ Moved cap ctx ctx' ∧
      Inv cap (fun _ => True) ctx' ∧ (b = false → cascaded = false ∧ ctx'.wheels = ctx.wheels) := by
  induction k generalizing ctx wheel cascaded with
  | zero =>
    -- there is no wheel from `wheel` on
    refine ⟨ctx, cascaded, rfl, .refl, hi.ahead fun w s e T he _ _ _ => .inl ?_,
      fun hb => ⟨hb, rfl⟩⟩
    have := (hi w s e he).1
    omega
  | succ k ih =>
    have hlt : wheel < ctx.numWheels := by omega
    obtain ⟨ctx1, ho, hm, hl⟩ := cascadeOne_spec h hi hn hw hlt hdv
    have hr := hm.lastRun
    rw [← hr] at hl
    have hi1 : Inv cap (fun w => w < wheel ∨ w = wheel) ctx1 := (hm.inv hi).of_slot_nil hl
    -- an empty slot is left as it is
    have hsm : (ctx.wheels wheel (timerSlot wheel ctx.lastRun)).isEmpty = true → ctx1 = ctx := by
      intro hp
      rw [List.isEmpty_iff] at hp
      rw [cascadeOne, if_neg (by omega), hp, List.length_nil, cascadeLoop, hp] at ho
      exact (Except.ok.inj ho).symm
    rw [cascadeLoopAll]
    simp only [ho, ok_bind]
    by_cases hs : timerSlot wheel ctx.lastRun = 0
    · rw [if_neg (by simpa using hs)]
      have hd' : 32 ^ (wheel + 1) ∣ ctx1.lastRun := by
        rw [hr, dvd_succ_iff (by norm_num) hdv, ← timerSlot_eq]
        exact hs
      obtain ⟨ctx', b, ha, hm', hi', hb⟩ := ih
        (cascaded || !(ctx.wheels wheel (timerSlot wheel ctx.lastRun)).isEmpty) (hm.sane h)
        (hi1.mono fun w _ hw => by omega)
        (by rw [hm.all]; exact hn) (by omega) (by rw [hm.numWheels]; omega) hd'
      refine ⟨ctx', b, ha, hm.trans hm', hi', fun hf => ?_⟩
      obtain ⟨hno, hh⟩ := hb hf
      rw [or_eq_false_iff, not_eq_false'] at hno
      exact ⟨hno.1, by rw [hh, hsm hno.2]⟩
    · rw [if_pos (by simpa using hs)]
      refine ⟨ctx1, _, rfl, hm, ?_, fun hf => ?_⟩
      · have hd : ¬ 32 ^ (wheel + 1) ∣ ctx1.lastRun := by
          rw [hr, dvd_succ_iff (by norm_num) hdv, ← timerSlot_eq]
          exact hs
        exact (hi1.of_not_dvd hd).mono fun w _ _ => by omega
      · rw [or_eq_false_iff, not_eq_false'] at hf
        exact ⟨hf.1, by rw [hsm hf.2]⟩

end Cascade

end Vhttp.Timerwheel
