import Vhttp.Timerwheel.Expire

/-!
# Runs of the timer wheel

The users of a timer wheel link, unlink and run it, and the callbacks of the timers that
fire link further timers.

* `Good`: what holds in every state that is reached.
* `linkAll_spec`, `fire_spec`: the callbacks only add timers.
* `step_good`: no operation ends with a fault, and all keep `Good`.
* `step_exact`: a run fires exactly the timers that are due, and leaves the others linked.
-/

namespace Vhttp.Timerwheel

open Multiset Prod Ctx

variable {α : Type*} {cap now : ℕ} {ctx ctx' ctx'' : Ctx α} {e : Timer α}

/-- The timers that are linked, by identity. -/
def Ctx.ids (ctx : Ctx α) : Multiset α := ctx.all.map Timer.id

/-- The states that are reached. -/
structure Good (cap : ℕ) (ctx : Ctx α) : Prop where
  sane : Sane cap ctx
  inv : Inv cap (fun _ => True) ctx
  nodup : ctx.ids.Nodup
  /-- the slot of wheel `0` whose turn is now holds timers that are due now -/
  settled : ∀ e ∈ ctx.wheels 0 (timerSlot 0 ctx.lastRun), e.expireAt = ctx.lastRun

lemma Good.all_nodup (h : Good cap ctx) : ctx.all.Nodup := Nodup.of_map _ h.nodup

/-! ## Linking -/

/-- `ctx'` is `ctx` with `new` linked. -/
structure Grown (cap : ℕ) (ctx ctx' : Ctx α) (new : List (Timer α)) : Prop where
  good : Good cap ctx'
  lastRun : ctx'.lastRun = ctx.lastRun
  maxTicks : ctx'.maxTicks = ctx.maxTicks
  numWheels : ctx'.numWheels = ctx.numWheels
  all : ctx'.all = ctx.all + (new : Multiset (Timer α))
  exact : (32 ≤ ctx.maxTicks ∨ ∀ e ∈ new, e.expireAt ≤ ctx.lastRun + ctx.maxTicks) →
    Exact ctx → Exact ctx'

lemma Grown.refl (h : Good cap ctx) : Grown cap ctx ctx [] :=
  ⟨h, rfl, rfl, rfl, by simp, fun _ hx => hx⟩

variable {cb : α → List (α × ℕ)} {expired new : List (Timer α)} {op : Op α}

lemma Grown.trans {new' : List (Timer α)} (h : Grown cap ctx ctx' new)
    (h' : Grown cap ctx' ctx'' new') : Grown cap ctx ctx'' (new ++ new') := by
  refine ⟨h'.good, h'.lastRun.trans h.lastRun, h'.maxTicks.trans h.maxTicks,
    h'.numWheels.trans h.numWheels, ?_, fun hn hx => ?_⟩
  · rw [h'.all, h.all, ← coe_add, add_assoc]
  · refine h'.exact ?_ (h.exact (hn.imp_right fun hn e he => hn e (List.mem_append_left _ he)) hx)
    rw [h.lastRun, h.maxTicks]
    exact hn.imp_right fun hn e he => hn e (List.mem_append_right _ he)

lemma Grown.ids (h : Grown cap ctx ctx' new) :
    ctx'.ids = ctx.ids + (new.map Timer.id : Multiset α) := by
  rw [Ctx.ids, h.all, Multiset.map_add, map_coe]
  rfl

lemma linkTimer_spec (h : Good cap ctx) (hi : e.id ∉ ctx.ids) (he : ctx.lastRun ≤ e.expireAt) :
    ∃ ctx', linkTimer ctx e = .ok ctx' ∧ Grown cap ctx ctx' [e] := by
  obtain ⟨w, s, T, hl, hf, -⟩ := linkTimer_eq h.sane he
  have hs : s < 32 := IsTurn.slot_lt hf.turn
  have ha := all_link ctx hf.wheel hs e
  refine ⟨_, hl, ⟨{ h.sane with }, fun w' s' x hx => ?_, ?_, fun x hx => ?_⟩, rfl, rfl, rfl, ha,
    fun hn hx s' x hx' => ?_⟩
  · rcases mem_link ctx hx with hx | ⟨rfl, rfl, rfl⟩
    · exact h.inv w' s' x hx
    · exact hf.inv (fun _ => True)
  · rw [ids, ha, Multiset.map_add, map_singleton, add_comm, singleton_add, nodup_cons]
    exact ⟨hi, h.nodup⟩
  · rcases mem_link ctx hx with hx | ⟨h0, h1, rfl⟩
    · exact h.settled x hx
    · -- the turn of the new timer is now
      subst h0
      have hT := hf.turn
      rw [← h1, setSlot_lastRun, timerSlot_eq] at hT
      have ho := hT.eq_now (by norm_num) (one_dvd _)
      have hex := hf.exact rfl
      have := h.sane.ticks
      rw [setSlot_lastRun]
      omega
  · rcases mem_link ctx hx' with hx' | ⟨h0, rfl, rfl⟩
    · exact hx s' x hx'
    · subst h0
      exact hf.exact_turn (hn.imp_right fun hn => hn x (List.mem_singleton_self _))

section Links

variable [DecidableEq α]

lemma isLinked_iff {id : α} : ctx.isLinked id = true ↔ id ∈ ctx.ids := by
  rw [isLinked, ids, mem_map]
  simp only [List.any_eq_true, List.mem_range, decide_eq_true_eq, mem_all, slotsPerWheel]
  constructor
  · rintro ⟨w, hw, s, hs, e, he, rfl⟩
    exact ⟨e, ⟨w, s, hw, hs, he⟩, rfl⟩
  · rintro ⟨e, ⟨w, s, hw, hs, he⟩, rfl⟩
    exact ⟨w, hw, s, hs, e, he, rfl⟩

/-- The timer that `vhttp_timerwheel_link_abs` links. -/
def linked (lastRun : ℕ) (p : α × ℕ) : Timer α := ⟨p.1, max p.2 lastRun⟩

lemma link_spec (expired : List (Timer α)) {id : α} (at_ : ℕ) (h : Good cap ctx)
    (hi : id ∉ ctx.ids) (hx : id ∉ expired.map Timer.id) :
    ∃ ctx', link ctx expired id at_ = .ok ctx' ∧
      Grown cap ctx ctx' [linked ctx.lastRun (id, at_)] := by
  have hf : (ctx.isLinked id || expired.any fun e => decide (e.id = id)) = false := by
    rw [Bool.or_eq_false_iff]
    refine ⟨Bool.eq_false_iff.2 fun hl => hi (isLinked_iff.1 hl), ?_⟩
    rw [List.any_eq_false]
    intro e he hq
    exact hx (List.mem_map.2 ⟨e, he, of_decide_eq_true hq⟩)
  have ha : linkAbs ctx id at_ = linkTimer ctx (linked ctx.lastRun (id, at_)) := by
    have hm : (if at_ < ctx.lastRun then ctx.lastRun else at_) = max at_ ctx.lastRun := by
      split <;> omega
    rw [linkAbs, hm, linked]
  have hk : link ctx expired id at_ = linkTimer ctx (linked ctx.lastRun (id, at_)) := by
    rw [link, hf, ← ha]
    exact if_neg Bool.false_ne_true
  rw [hk]
  exact linkTimer_spec h hi (le_max_right _ _)

/-- A callback links timers that are not linked. -/
theorem linkAll_spec {links : List (α × ℕ)} (h : Good cap ctx) (hn : (links.map fst).Nodup)
    (hf : ∀ id ∈ links.map fst, id ∉ ctx.ids ∧ id ∉ expired.map Timer.id) :
    ∃ ctx', linkAll expired links ctx = .ok ctx' ∧
      Grown cap ctx ctx' (links.map (linked ctx.lastRun)) := by
  induction links generalizing ctx with
  | nil => exact ⟨ctx, rfl, .refl h⟩
  | cons p links ih =>
    obtain ⟨id, at_⟩ := p
    rw [List.map_cons, List.nodup_cons] at hn
    obtain ⟨hd, he⟩ := hf id List.mem_cons_self
    obtain ⟨ctx1, hl, hg⟩ := link_spec expired at_ h hd he
    have hi : ctx1.ids = id ::ₘ ctx.ids := by
      rw [hg.ids, add_comm]
      rfl
    have hf' : ∀ x ∈ links.map fst, x ∉ ctx1.ids ∧ x ∉ expired.map Timer.id := by
      intro x hx
      obtain ⟨h1, h2⟩ := hf x (List.mem_cons_of_mem _ hx)
      rw [hi, mem_cons, not_or]
      exact ⟨⟨fun hq => hn.1 (hq ▸ hx), h1⟩, h2⟩
    obtain ⟨ctx', ha, hg'⟩ := ih hg.good hn.2 hf'
    refine ⟨ctx', ?_, ?_⟩
    · simp only [linkAll, hl, ok_bind]
      exact ha
    · have := hg.trans hg'
      rw [hg.lastRun] at this
      exact this

/-- The promise of the users: the callbacks of the timers in `expired`, called in order, link
only timers that are not linked at that time. -/
def Legal (cb : α → List (α × ℕ)) : List (Timer α) → Multiset α → Prop
  | [], _ => True
  | entry :: expired, ids =>
    ((cb entry.id).map fst).Nodup ∧
      (∀ id ∈ (cb entry.id).map fst, id ∉ ids ∧ id ∉ expired.map Timer.id) ∧
      Legal cb expired (ids + ((cb entry.id).map fst : Multiset α))

/-- The timers that are linked by the callbacks. -/
def linkedBy (cb : α → List (α × ℕ)) (now : ℕ) (fired : List (Timer α)) : List (Timer α) :=
  (fired.flatMap fun entry => cb entry.id).map (linked now)

/-- **The callbacks** only add timers. -/
theorem fire_spec (h : Good cap ctx) (hl : Legal cb expired ctx.ids) :
    ∃ ctx', fire cb expired ctx = .ok ctx' ∧
      Grown cap ctx ctx' (linkedBy cb ctx.lastRun expired) := by
  induction expired generalizing ctx with
  | nil => exact ⟨ctx, rfl, .refl h⟩
  | cons entry expired ih =>
    obtain ⟨hn, hf, ha⟩ := hl
    obtain ⟨ctx1, hk, hg⟩ := linkAll_spec h hn hf
    have hi : ctx1.ids = ctx.ids + ((cb entry.id).map fst : Multiset α) := by
      rw [hg.ids, List.map_map]
      rfl
    obtain ⟨ctx', hfi, hg'⟩ := ih hg.good (by rw [hi]; exact ha)
    refine ⟨ctx', ?_, ?_⟩
    · simp only [fire, hk, ok_bind]
      exact hfi
    · have := hg.trans hg'
      rw [hg.lastRun, linkedBy, ← List.map_append] at this
      exact this

end Links

/-! ## Unlinking -/

section Unlink

variable [DecidableEq α] (id : α)

lemma unlink_all : (unlink ctx id).all = ctx.all.filter fun e => e.id ≠ id := by
  rw [all, all]
  refine Finset.sum_hom_rel (r := fun a b => a = filter (fun e : Timer α => e.id ≠ id) b) ?_ ?_
  · rw [filter_zero]
  · rintro p b c rfl
    rw [filter_add, filter_coe]
    rfl

lemma mem_unlink {w s : ℕ} (he : e ∈ (unlink ctx id).wheels w s) : e ∈ ctx.wheels w s :=
  List.mem_of_mem_filter he

lemma unlink_good (h : Good cap ctx) : Good cap (unlink ctx id) := by
  refine ⟨{ h.sane with }, fun w s e he => h.inv w s e (mem_unlink id he), ?_,
    fun e he => h.settled e (mem_unlink id he)⟩
  rw [ids, unlink_all]
  exact nodup_of_le (map_le_map (filter_le _ _)) h.nodup

lemma unlink_exact (hx : Exact ctx) : Exact (unlink ctx id) :=
  fun s e he => hx s e (mem_unlink id he)

end Unlink

/-! ## Running -/

lemma Reached.good {ex : List (Timer α)} (h : Reached cap now ctx ctx' [] ex)
    (hat : AtNow cap now ctx) (hn : ctx.ids.Nodup) : Good cap ctx' := by
  have ha : ctx'.all ≤ ctx.all := by
    have ht := h.advance.total
    rw [coe_nil, add_zero] at ht
    rw [← ht]
    exact Multiset.le_add_right _ _
  refine ⟨(hat.advance h.advance).sane (le_of_eq h.lastRun), h.inv,
    nodup_of_le (map_le_map ha) hn, fun e he => ?_⟩
  rw [h.lastRun, h.slot] at he
  exact absurd he List.not_mem_nil

lemma Sane.wide (h : Sane cap ctx) : 32 ≤ ctx.maxTicks ∨ ctx.numWheels = 1 := by
  rcases Nat.lt_or_ge 1 ctx.numWheels with hn | hn
  · left
    calc 32 = 32 ^ 1 := by norm_num
      _ ≤ 32 ^ (ctx.numWheels - 1) := Nat.pow_le_pow_right (by norm_num) (by omega)
      _ ≤ ctx.maxTicks := h.span
  · have := h.pos
    omega

lemma uint64Max_lt : uint64Max < wordSize := by
  rw [uint64Max, wordSize]
  norm_num

/-- What `vhttp_timerwheel_create` sets up. -/
lemma create_good {numWheels t : ℕ} (h : create α numWheels t = .ok ctx)
    (hc : cap < wordSize) (hl : t + ctx.maxTicks ≤ cap) : Good cap ctx ∧ Exact ctx := by
  rw [create] at h
  split at h
  · cases h
  · rename_i hn
    cases h
    have hn' : 1 ≤ numWheels ∧ numWheels ≤ 13 := by
      simp only [bitsPerWheel] at hn
      omega
    refine ⟨⟨⟨hn'.1, ?_, ?_, ?_, hl, hc⟩, fun _ _ _ h => (by cases h),
      by simp [ids, all], fun _ h => (by cases h)⟩, fun _ _ h => (by cases h)⟩
    -- `max_ticks` wraps around for `13` wheels only, and stays in its range
    all_goals
      obtain ⟨h1, h13⟩ := hn'
      interval_cases numWheels <;> simp [bitsPerWheel, slotsPerWheel, wordSize]

section Steps

variable [DecidableEq α]

/-- What a step needs: the clock does not go back and stays `max_ticks` below `cap`; the
users link only timers that are not linked; and with more than seven wheels a single run does
not go over `2 ^ 35` ticks, since `1 << (wheel * 5)` is computed in an `int`. -/
def Admissible (cap : ℕ) (ctx : Ctx α) : Op α → Prop
  | .link id _ => id ∉ ctx.ids
  | .unlink _ => True
  | .run now cb => ctx.lastRun ≤ now ∧ now + ctx.maxTicks ≤ cap ∧
      (ctx.numWheels ≤ 7 ∨ now < ctx.lastRun + 2 ^ 35) ∧
      ∀ ctx' ex, getExpired ctx now = .ok (ctx', ex) → Legal cb ex ctx'.ids

lemma run_spec (h : Good cap ctx) (ha : Admissible cap ctx (.run now cb)) :
    ∃ ctx1 ctx' ex, run ctx now cb = .ok (ctx', ex) ∧ Reached cap now ctx ctx1 [] ex ∧
      Grown cap ctx1 ctx' (linkedBy cb now ex) := by
  obtain ⟨hle, hc, hf, hl⟩ := ha
  have ht : AtNow cap now ctx := { h.sane with clock := hc }
  have hs : ∀ v, 0 < v → v < ctx.numWheels → ctx.lastRun + 32 ^ v ≤ now → v ≤ 6 := by
    intro v _ hv hn
    rcases hf with hf | hf
    · omega
    · by_contra hgt
      have : 32 ^ 7 ≤ 32 ^ v := Nat.pow_le_pow_right (by norm_num) (by omega)
      norm_num at this hf
      omega
  obtain ⟨ctx1, ex, he, hr⟩ := getExpired_spec ht hle h.inv h.all_nodup hs
  obtain ⟨ctx', hi, hg⟩ := fire_spec (hr.good ht h.nodup) (hl ctx1 ex he)
  rw [hr.lastRun] at hg
  refine ⟨ctx1, ctx', ex, ?_, hr, hg⟩
  rw [run, he, ok_bind]
  simp only [hi, ok_bind]

/-- A single wheel has nowhere to put a timer that is more than `max_ticks` away. -/
def Fits (ctx : Ctx α) : Op α → Prop
  | .link _ at_ => 2 ≤ ctx.numWheels ∨ at_ ≤ ctx.lastRun + ctx.maxTicks
  | .unlink _ => True
  | .run now cb => 2 ≤ ctx.numWheels ∨
      ∀ e ∈ ctx.all, e.expireAt ≤ now → ∀ p ∈ cb e.id, p.2 ≤ now + ctx.maxTicks

/-- What an operation is to do: a run fires the timers that are due, each of them once, and
leaves the others linked; its callbacks link what they link. -/
def Effect (ctx : Ctx α) (op : Op α) (ctx' : Ctx α) (fired : List (Timer α)) : Prop :=
  match op with
  | .link id at_ => fired = [] ∧ ctx'.lastRun = ctx.lastRun ∧
      ctx'.all = ⟨id, max at_ ctx.lastRun⟩ ::ₘ ctx.all
  | .unlink id => fired = [] ∧ ctx'.lastRun = ctx.lastRun ∧
      ctx'.all = ctx.all.filter fun e => e.id ≠ id
  | .run now cb => (fired : Multiset (Timer α)) = ctx.all.filter (fun e => e.expireAt ≤ now) ∧
      (fired.map Timer.id).Nodup ∧ ctx'.lastRun = now ∧
      ctx'.all = ctx.all.filter (fun e => now < e.expireAt)
        + (linkedBy cb now fired : Multiset (Timer α))

/-- No operation ends with a fault. -/
theorem step_good (h : Good cap ctx) (ha : Admissible cap ctx op) :
    ∃ ctx' fired, step ctx op = .ok (ctx', fired) ∧ Good cap ctx' := by
  cases op with
  | link id at_ =>
    obtain ⟨ctx', hl, hg⟩ := link_spec [] at_ h ha List.not_mem_nil
    exact ⟨ctx', [], by simp only [step, hl, ok_bind], hg.good⟩
  | unlink id => exact ⟨_, [], rfl, unlink_good id h⟩
  | run now cb =>
    obtain ⟨ctx1, ctx', ex, hr, -, hg⟩ := run_spec h ha
    exact ⟨ctx', ex, hr, hg.good⟩

/-- With a timer in the slot it expires in, every operation has the effect it is to have. -/
lemma step_effect (h : Good cap ctx) (hx : Exact ctx) (ha : Admissible cap ctx op)
    (hf : Fits ctx op) :
    ∃ ctx' fired, step ctx op = .ok (ctx', fired) ∧ Exact ctx' ∧ Effect ctx op ctx' fired := by
  have hw := h.sane.wide
  cases op with
  | link id at_ =>
    obtain ⟨ctx', hk, hg⟩ := link_spec [] at_ h ha List.not_mem_nil
    refine ⟨ctx', [], by simp only [step, hk, ok_bind], hg.exact ?_ hx, rfl, hg.lastRun, ?_⟩
    · rcases hf with hf | hf
      · exact .inl (hw.resolve_right (by omega))
      · right
        intro e he
        rw [List.mem_singleton.1 he]
        exact max_le hf (Nat.le_add_right _ _)
    · rw [hg.all, add_comm]
      rfl
  | unlink id => exact ⟨_, [], rfl, unlink_exact id hx, rfl, rfl, unlink_all id⟩
  | run now cb =>
    obtain ⟨ctx1, ctx', ex, hu, hr, hg⟩ := run_spec h ha
    obtain ⟨hx1, hd⟩ := hr.advance.exact hw hx
    have ht : ctx1.all + (ex : Multiset (Timer α)) = ctx.all := hr.advance.total.trans (by simp)
    have hex : ∀ e ∈ ex, e.expireAt ≤ now := by
      intro e he
      exact (hd e he).resolve_left List.not_mem_nil
    have hl : ∀ e ∈ ctx1.all, now < e.expireAt := by
      intro e he
      obtain ⟨w, s, -, -, he⟩ := mem_all.1 he
      exact hr.later he
    refine ⟨ctx', ex, hu, hg.exact ?_ hx1, ?_, ?_, by rw [hg.lastRun, hr.lastRun], ?_⟩
    · rw [hr.advance.maxTicks, hr.lastRun]
      rcases hf with hf | hf
      · exact .inl (hw.resolve_right (by omega))
      · right
        intro e he
        obtain ⟨p, hp, rfl⟩ := List.mem_map.1 he
        obtain ⟨entry, hn, hp⟩ := List.mem_flatMap.1 hp
        have hmem : entry ∈ ctx.all := by
          rw [← ht]
          exact mem_add.2 (.inr hn)
        exact max_le (hf entry hmem (hex entry hn) p hp) (Nat.le_add_right _ _)
    · rw [← ht, filter_add, filter_eq_nil.2, zero_add,
        filter_eq_self.2 fun e he => hex e (mem_coe.1 he)]
      exact fun e he => Nat.not_le.2 (hl e he)
    · have hnd := h.nodup
      rw [ids, ← ht, Multiset.map_add, nodup_add] at hnd
      exact coe_nodup.1 hnd.2.1
    · rw [hg.all, ← ht, filter_add, filter_eq_self.2 hl,
        (filter_eq_nil (s := (ex : Multiset (Timer α)))).2, add_zero]
      exact fun e he => Nat.not_lt.2 (hex e (mem_coe.1 he))

/-! ## The states that are reached -/

/-- The states reached from a new timer wheel by admissible steps that meet the condition `C`. -/
inductive Reach (cap : ℕ) (C : Ctx α → Op α → Prop) : Ctx α → Prop
  | create {numWheels t : ℕ} {ctx : Ctx α} (h : create α numWheels t = .ok ctx)
      (hclock : t + ctx.maxTicks ≤ cap) : Reach cap C ctx
  | step {ctx ctx' : Ctx α} {op : Op α} {fired : List (Timer α)} (h : Reach cap C ctx)
      (ha : Admissible cap ctx op) (hc : C ctx op) (hs : step ctx op = .ok (ctx', fired)) :
      Reach cap C ctx'

lemma Reach.good {C : Ctx α → Op α → Prop} (hc : cap < wordSize) (h : Reach cap C ctx) :
    Good cap ctx := by
  induction h with
  | create h hl => exact (create_good h hc hl).1
  | step _ ha _ hs ih =>
    obtain ⟨ctx', fired, hs', hg⟩ := step_good ih ha
    rw [hs] at hs'
    cases hs'
    exact hg

lemma Reach.exact (hp : cap < wordSize) (h : Reach cap Fits ctx) : Exact ctx := by
  induction h with
  | create h hl => exact (create_good h hp hl).2
  | step h ha hc hs ih =>
    obtain ⟨ctx', fired, hs', hx, -⟩ := step_effect (h.good hp) ih ha hc
    rw [hs] at hs'
    cases hs'
    exact hx

/-- **The timer wheel is exact**: in every state that is reached by steps that meet the
conditions, such a step ends without a fault and has the effect it is to have. -/
theorem step_exact {op : Op α} (h : Reach uint64Max Fits ctx) (ha : Admissible uint64Max ctx op)
    (hf : Fits ctx op) :
    ∃ ctx' fired, step ctx op = .ok (ctx', fired) ∧ Effect ctx op ctx' fired := by
  obtain ⟨ctx', fired, hs, -, he⟩ :=
    step_effect (h.good uint64Max_lt) (h.exact uint64Max_lt) ha hf
  exact ⟨ctx', fired, hs, he⟩

end Steps

/-- Three wheels and a timer for tick `5`. -/
lemma exists_reach_three_wheels {C : Ctx ℕ → Op ℕ → Prop} (ha : 32000 ≤ cap)
    (hw : cap < wordSize) (hC : ∀ ctx op, 2 ≤ ctx.numWheels → C ctx op) :
    ∃ ctx, Reach cap C ctx ∧ ctx.all = {⟨1, 5⟩} ∧ 2 ≤ ctx.numWheels ∧
      Admissible cap ctx (.run 5 fun _ => []) := by
  have hc : create ℕ 3 0 = .ok ⟨0, 31744, 3, fun _ _ => []⟩ := by
    simp [create, bitsPerWheel, slotsPerWheel, wordSize]
  have hr : Reach cap C ⟨0, 31744, 3, fun _ _ => []⟩ := .create hc (by simp; omega)
  have hf : 1 ∉ (⟨0, 31744, 3, fun _ _ => []⟩ : Ctx ℕ).ids := by simp [ids, all]
  obtain ⟨ctx, hk, hg⟩ := link_spec [] 5 (hr.good hw) hf List.not_mem_nil
  have hstep : step (⟨0, 31744, 3, fun _ _ => []⟩ : Ctx ℕ) (.link 1 5) = .ok (ctx, []) := by
    simp only [step, hk, ok_bind]
  have hl : ∀ (ex : List (Timer ℕ)) ids, Legal (fun _ => []) ex ids := by
    intro ex
    induction ex with
    | nil => exact fun _ => trivial
    | cons e ex ih => exact fun ids => ⟨List.nodup_nil, fun _ h => absurd h List.not_mem_nil, ih _⟩
  refine ⟨ctx, .step hr ?_ (hC _ _ (by simp)) hstep, ?_, ?_, ?_, ?_, .inl ?_, ?_⟩
  · exact hf
  · rw [hg.all]
    simp [all, linked]
  · rw [hg.numWheels]
    simp
  · rw [hg.lastRun]
    simp
  · rw [hg.maxTicks]
    simp
    omega
  · rw [hg.numWheels]
    simp
  · exact fun _ ex _ => hl ex _

lemma fits_of_two_le (ctx : Ctx ℕ) (op : Op ℕ) (h : 2 ≤ ctx.numWheels) : Fits ctx op := by
  cases op with
  | link id at_ | run now cb => exact .inl h
  | unlink id => trivial

lemma le_uint64Max : 32000 < uint64Max := by
  rw [uint64Max]
  norm_num

/-- A timer is linked and a run fires it. -/
theorem step_exact_three_wheels : ∃ ctx ctx' : Ctx ℕ, ∃ fired, Reach uint64Max Fits ctx ∧
    ctx.all = {⟨1, 5⟩} ∧ step ctx (.run 5 fun _ => []) = .ok (ctx', fired) ∧
    Effect ctx (.run 5 fun _ => []) ctx' fired := by
  obtain ⟨ctx, hr, hl, ht, ha⟩ :=
    exists_reach_three_wheels le_uint64Max.le uint64Max_lt fits_of_two_le
  obtain ⟨ctx', fired, hs, he⟩ := step_exact hr ha (fits_of_two_le _ _ ht)
  exact ⟨ctx, ctx', fired, hr, hl, hs, he⟩

lemma of_bind_eq_ok.{u} {β γ : Type u} {x : Except Fault β} {f : β → Except Fault γ} {c : γ}
    (h : x >>= f = .ok c) : ∃ b, x = .ok b ∧ f b = .ok c := by
  cases x with
  | error _ => cases h
  | ok b => exact ⟨b, rfl, h⟩

/-- With a single wheel, a timer for tick `100` is fired at tick `31`. -/
theorem single_wheel_fires_early : ∃ ctx ctx1 ctx2 : Ctx ℕ, ∃ fired,
    create ℕ 1 0 = .ok ctx ∧ step ctx (.link 7 100) = .ok (ctx1, []) ∧
    step ctx1 (.run 31 fun _ => []) = .ok (ctx2, fired) ∧
    ⟨7, 100⟩ ∈ fired ∧ ¬ Effect ctx1 (.run 31 fun _ => []) ctx2 fired := by
  have hu : (do
      let ctx ← create ℕ 1 0
      let (ctx1, fired1) ← step ctx (.link 7 100)
      let (_, fired) ← step ctx1 (.run 31 fun _ => [])
      pure (fired1, fired)) = .ok ([], [⟨7, 100⟩]) := by decide +kernel
  obtain ⟨ctx, hc, hu⟩ := of_bind_eq_ok hu
  obtain ⟨⟨ctx1, fired1⟩, hl, hu⟩ := of_bind_eq_ok hu
  obtain ⟨⟨ctx2, fired⟩, hr, hu⟩ := of_bind_eq_ok hu
  obtain ⟨rfl, rfl⟩ := mk.inj (Except.ok.inj hu)
  refine ⟨ctx, ctx1, ctx2, _, hc, hl, hr, List.mem_singleton_self _, fun he => ?_⟩
  have hmem : (⟨7, 100⟩ : Timer ℕ) ∈ ctx1.all.filter fun e => e.expireAt ≤ 31 := by
    rw [← he.1]
    exact mem_singleton_self _
  have := (mem_filter.1 hmem).2
  norm_num at this

end Vhttp.Timerwheel
