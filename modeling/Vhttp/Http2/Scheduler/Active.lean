import Vhttp.Lib.ParentTree
import Vhttp.Http2.Scheduler.Basic

/-!
# Active nodes of the scheduler

The fields of a scheduler fall in two parts: the shape of the tree, and what tells which nodes
have something to send. `Sched.dyn` replaces the second part. `Counts t e` says that the
counts are right but for an error `e`; a walk up the tree moves the error at the node it starts
from, and nothing else.

* `incr_spec`, `decr_spec`: `incr_active_cnt` and `decr_active_cnt`.
-/

namespace Vhttp.Http2.Scheduler.Sched

open ParentTree Function List Option

/-- The scheduler with other queues, deficits, counts and links. -/
def dyn (t : Sched) (queue : ℕ → Option Queue) (deficit activeCnt : ℕ → ℕ)
    (link : ℕ → Option ℕ) : Sched :=
  { t with queue := queue, deficit := deficit, activeCnt := activeCnt, link := link }

/-- The number of children that are active. -/
def activeChildren (t : Sched) (node : ℕ) : ℕ :=
  (t.allRefs node).countP (fun c => t.activeCnt c != 0)

/-- A reference is in the queue its link names, once, and in no other. -/
def Queued (t : Sched) : Prop :=
  ∀ node c, (t.getQueue node).count c = if t.link c = some node then 1 else 0

/-- The counts are off by `e`; what is active is linked to the node whose child it is. -/
structure Counts (t : Sched) (e : ℕ → ℤ) : Prop where
  cnt : ∀ n ∈ t.opened,
    (t.activeCnt n : ℤ) + e n = (t.selfIsActive n).toNat + t.activeChildren n
  linked : ∀ c p, t.link c = some p ↔ c ∈ t.allRefs p ∧ t.activeCnt c ≠ 0

/-- Each reference is in one list of children at most. -/
structure Lists (t : Sched) : Prop where
  nodup : ∀ p, (t.allRefs p).Nodup
  unique : ∀ c p q, c ∈ t.allRefs p → c ∈ t.allRefs q → p = q
  opened : ∀ c p, c ∈ t.allRefs p → c ∈ t.opened

/-- The result has the tree of `t`, and counts that are off by `e`. -/
def Becomes (t : Sched) (e : ℕ → ℤ) (r : Option Sched) : Prop :=
  ∃ q d a l, r = some (t.dyn q d a l) ∧ Queued (t.dyn q d a l) ∧ Counts (t.dyn q d a l) e

variable {t : Sched} {e e' : ℕ → ℤ} {fuel k n p ref v : ℕ} {s : Sched}

lemma Counts.congr (h : Counts t e) (he : ∀ n ∈ t.opened, e' n = e n) : Counts t e' :=
  { h with cnt := fun n hn => by rw [he n hn]; exact h.cnt n hn }

/-- What is not active is not linked. -/
lemma Counts.link_none (h : Counts t e) {c : ℕ} (hc : t.activeCnt c = 0) : t.link c = none := by
  cases hl : t.link c with
  | none => rfl
  | some p => exact absurd hc ((h.linked c p).1 hl).2

/-! ## Queues -/

lemma queueSet_spec (hq : Queued t) (node : ℕ) (hl : t.link ref = none)
    (hw : 1 ≤ t.weight ref) : ∃ q d, t.queueSet node ref = some (t.dyn q d t.activeCnt
        (update t.link ref (some node))) ∧
      Queued (t.dyn q d t.activeCnt (update t.link ref (some node))) := by
  obtain ⟨r, hr⟩ := isSome_iff_exists.1 (Queue.set_isSome hw (t.getQueue node) ref (t.deficit ref))
  refine ⟨update t.queue node (some r.1), update t.deficit ref r.2, ?_, ?_⟩
  · rw [queueSet, if_pos hl, hr]
    rfl
  · intro n c
    have ho := hq n c
    by_cases hn : n = node
    · subst hn
      have ht := Queue.count_set hr c
      simp only [dyn, getQueue, update_self, getD_some]
      rw [ht, ho]
      by_cases hc : c = ref
      · simp [hc, hl]
      · simp [hc]
    · simp only [dyn, getQueue, update_of_ne hn]
      rw [← getQueue, ho]
      by_cases hc : c = ref
      · simp [hc, hl, Ne.symm hn]
      · simp [hc]

lemma queueUnset_spec (hq : Queued t) {node : ℕ} (hl : t.link ref = some node) :
    ∃ q, t.queueUnset ref = some (t.dyn q t.deficit t.activeCnt (update t.link ref none)) ∧
      Queued (t.dyn q t.deficit t.activeCnt (update t.link ref none)) := by
  have he : (t.getQueue node).count ref ≤ 1 := by
    rw [hq node ref]
    split <;> omega
  refine ⟨update t.queue node (some ((t.getQueue node).unlink ref)), ?_, ?_⟩
  · rw [queueUnset, hl]
    rfl
  · intro n c
    have ho := hq n c
    by_cases hn : n = node
    · subst hn
      simp only [dyn, getQueue, update_self, getD_some]
      rw [← getQueue, Queue.count_unlink he, ho]
      by_cases hc : c = ref
      · simp [hc]
      · simp [hc]
    · simp only [dyn, getQueue, update_of_ne hn]
      rw [← getQueue, ho]
      by_cases hc : c = ref
      · simp [hc, hl, Ne.symm hn]
      · simp [hc]

/-! ## Changing one node -/

lemma countP_update {l : List ℕ} (hn : l.Nodup) (f : ℕ → ℕ) (n v : ℕ) :
    (l.countP (fun c => update f n v c != 0) : ℤ) = l.countP (fun c => f c != 0) +
      if n ∈ l then (if v = 0 then 0 else 1) - (if f n = 0 then 0 else 1) else 0 := by
  induction l with
  | nil => simp
  | cons a l ih =>
    rw [nodup_cons] at hn
    have ih := ih hn.2
    rw [countP_cons, countP_cons]
    by_cases ha : a = n
    · subst ha
      rw [if_neg hn.1] at ih
      push_cast
      rw [ih]
      by_cases hv : v = 0 <;> by_cases hf : f a = 0 <;> simp [hv, hf]
    · have hmem : n ∈ a :: l ↔ n ∈ l := by
        simp [Ne.symm ha]
      push_cast
      rw [ih, update_of_ne ha]
      simp only [hmem]
      ring

/-- A child's count and activity are replaced, and its link with them. -/
lemma Counts.setNode (s : Sched) (hl : Lists t) (hc : Counts t e) {b : Bool}
    (hp : n ∈ t.allRefs p) (hr : s.allRefs = t.allRefs)
    (ho : s.opened = t.opened) (hn : s.activeCnt = update t.activeCnt n v)
    (hs : s.selfIsActive = update t.selfIsActive n b)
    (hk : s.link = update t.link n (if v = 0 then none else some p))
    (he : ∀ m ∈ t.opened, e' m = e m + (if m = n then b.toNat - (t.selfIsActive n).toNat
          - ((v : ℤ) - t.activeCnt n) else 0)
      + if m = p then (if v = 0 then 0 else 1) - (if t.activeCnt n = 0 then 0 else 1) else 0) :
    Counts s e' := by
  constructor
  case cnt =>
    intro m hm
    rw [ho] at hm
    have hd := hc.cnt m hm
    have hh : (s.activeChildren m : ℤ) = t.activeChildren m +
        if m = p then (if v = 0 then 0 else 1) - (if t.activeCnt n = 0 then 0 else 1) else 0 := by
      rw [activeChildren, hr, hn, countP_update (hl.nodup m)]
      have hi : n ∈ t.allRefs m ↔ m = p :=
        ⟨fun h => hl.unique n m p h hp, fun h => h ▸ hp⟩
      simp only [hi, activeChildren]
    rw [he m hm, hh, hn, hs]
    by_cases hmn : m = n
    · subst hmn
      simp only [update_self, if_true]
      linarith
    · simp only [update_of_ne hmn, hmn, if_false]
      linarith
  case linked =>
    intro c q
    rw [hk, hr, hn]
    by_cases hcn : c = n
    · subst hcn
      simp only [update_self]
      by_cases hv : v = 0
      · simp [hv]
      · simp only [hv, if_false, some.injEq, ne_eq, not_false_eq_true, and_true]
        exact ⟨fun h => h ▸ hp, fun h => hl.unique c p q hp h⟩
    · simp only [update_of_ne hcn]
      exact hc.linked c q

/-! ## Walking up the tree -/

/-- The way up from a node: `k` references, each a child of the next. -/
inductive Up (t : Sched) : ℕ → ℕ → Prop
  | root {n : ℕ} (h : t.parent n = none) (hn : n ∉ t.opened) : Up t n 0
  | up {n p k : ℕ} (h : t.parent n = some p) (hn : n ∈ t.opened) (hmem : n ∈ t.allRefs p)
      (hw : 1 ≤ t.weight n) (hp : Up t p k) : Up t n (k + 1)

lemma Up.climb (h : Up t n k) : Climb t.parent n k := by
  induction h with
  | root h _ => exact .root h
  | up h _ _ _ _ ih => exact .up h ih

/-- The two have the same tree. -/
structure SameShape (t s : Sched) : Prop where
  parent : s.parent = t.parent
  allRefs : s.allRefs = t.allRefs
  weight : s.weight = t.weight
  opened : s.opened = t.opened

lemma sameShape_dyn (t : Sched) (q : ℕ → Option Queue) (d a : ℕ → ℕ) (l : ℕ → Option ℕ) :
    SameShape t (t.dyn q d a l) :=
  ⟨rfl, rfl, rfl, rfl⟩

lemma Up.congr (h : Up t n k) (hs : SameShape t s) : Up s n k := by
  induction h with
  | root h hn => exact .root (by rw [hs.parent, h]) (by rw [hs.opened]; exact hn)
  | up h hn hmem hw _ ih =>
    exact .up (by rw [hs.parent, h]) (by rw [hs.opened]; exact hn) (by rw [hs.allRefs]; exact hmem)
      (by rw [hs.weight]; exact hw) ih

lemma Lists.congr (h : Lists t) (hs : SameShape t s) : Lists s :=
  ⟨by rw [hs.allRefs]; exact h.nodup, by rw [hs.allRefs]; exact h.unique,
    by rw [hs.allRefs, hs.opened]; exact h.opened⟩

/-- The count of a child goes from zero to one, and it enters the queue. -/
lemma Counts.activate_child (hl : Lists t) (hq : Queued t) (hc : Counts t e)
    (hmem : n ∈ t.allRefs p) (hw : 1 ≤ t.weight n) (ha : t.activeCnt n = 0) :
    Becomes t (fun m => e m - (if m = n then 1 else 0) + if m = p then 1 else 0)
      (({ t with activeCnt := update t.activeCnt n 1 } : Sched).queueSet p n) := by
  obtain ⟨q, d, hs, hq'⟩ := queueSet_spec
    (show Queued { t with activeCnt := update t.activeCnt n 1 } from hq) p
    (hc.link_none ha) hw
  refine ⟨q, d, _, _, hs, hq', ?_⟩
  refine hc.setNode (t.dyn q d (update t.activeCnt n 1)
      (update t.link n (some p))) hl (b := t.selfIsActive n) (v := 1) hmem rfl rfl rfl
    (update_eq_self n t.selfIsActive).symm rfl (fun m _ => ?_)
  simp only [ha, one_ne_zero, if_false, if_true]
  split_ifs <;> push_cast <;> omega

/-- The count of a child goes to zero, and it leaves the queue. -/
lemma Counts.deactivate_child (hl : Lists t) (hq : Queued t) (hc : Counts t e)
    (hmem : n ∈ t.allRefs p) (ha : t.activeCnt n = 1) :
    ∃ q, ({ t with activeCnt := update t.activeCnt n 0 } : Sched).queueUnset n =
        some (t.dyn q t.deficit (update t.activeCnt n 0) (update t.link n none)) ∧
      Queued (t.dyn q t.deficit (update t.activeCnt n 0) (update t.link n none)) ∧
      Counts (t.dyn q t.deficit (update t.activeCnt n 0) (update t.link n none))
        (fun m => e m + (if m = n then 1 else 0) - if m = p then 1 else 0) := by
  have hk : t.link n = some p := (hc.linked n p).2 ⟨hmem, by omega⟩
  obtain ⟨q, hs, hq'⟩ := queueUnset_spec
    (show Queued { t with activeCnt := update t.activeCnt n 0 } from hq) hk
  refine ⟨q, hs, hq', ?_⟩
  refine hc.setNode (t.dyn q t.deficit (update t.activeCnt n 0)
      (update t.link n none)) hl (b := t.selfIsActive n) (v := 0) hmem rfl rfl rfl
    (update_eq_self n t.selfIsActive).symm rfl (fun m _ => ?_)
  simp only [ha, one_ne_zero, if_false, if_true]
  split_ifs <;> push_cast <;> omega

/-- The count of a child changes, and it stays active. -/
lemma Counts.change_child (hl : Lists t) (hc : Counts t e)
    (hmem : n ∈ t.allRefs p) (ha : t.activeCnt n ≠ 0) (hv : v ≠ 0) :
    Counts (t.dyn t.queue t.deficit (update t.activeCnt n v) t.link)
      (fun m => e m - if m = n then (v : ℤ) - t.activeCnt n else 0) := by
  have hk : t.link n = some p := (hc.linked n p).2 ⟨hmem, ha⟩
  refine hc.setNode (t.dyn t.queue t.deficit (update t.activeCnt n v) t.link) hl
    (b := t.selfIsActive n) (v := v) hmem rfl rfl rfl
    (update_eq_self n t.selfIsActive).symm ?_ (fun m _ => ?_)
  · rw [if_neg hv, ← hk, update_eq_self]
    rfl
  · simp only [hv, ha, if_false]
    split_ifs <;> omega

lemma incr_inactive (h : t.parent n = some p) (ha : t.activeCnt n = 0) :
    incrActiveCnt (fuel + 1) t n =
      (({ t with activeCnt := update t.activeCnt n 1 } : Sched).queueSet p n).bind
        (fun t => incrActiveCnt fuel t p) := by
  rw [incrActiveCnt, h]
  simp [ha]

lemma incr_active (h : t.parent n = some p) (ha : t.activeCnt n ≠ 0) :
    incrActiveCnt (fuel + 1) t n =
      some (t.dyn t.queue t.deficit (update t.activeCnt n (t.activeCnt n + 1)) t.link) := by
  rw [incrActiveCnt, h]
  simp [ha, dyn]

/-- `incr_active_cnt` takes one off the error of the node. -/
theorem incr_spec (hu : Up t n k) (hf : k < fuel) (hl : Lists t) (hq : Queued t) (hc : Counts t e) :
    Becomes t (fun m => e m - if m = n then 1 else 0) (incrActiveCnt fuel t n) := by
  induction k generalizing t n fuel e with
  | zero =>
    cases hu with
    | root h hn =>
      obtain ⟨fuel, rfl⟩ : ∃ f, fuel = f + 1 := ⟨fuel - 1, by omega⟩
      refine ⟨t.queue, t.deficit, t.activeCnt, t.link, by simp [incrActiveCnt, h, dyn], hq,
        hc.congr (fun m hm => ?_)⟩
      have hne : m ≠ n := fun he => hn (he ▸ hm)
      rw [if_neg hne, sub_zero]
  | succ k ih =>
    cases hu with
    | @up _ p _ h hn hmem hw hp =>
      obtain ⟨fuel, rfl⟩ : ∃ f, fuel = f + 1 := ⟨fuel - 1, by omega⟩
      by_cases ha : t.activeCnt n = 0
      · obtain ⟨q1, d1, a1, l1, hs, hq1, hc1⟩ := hc.activate_child hl hq hmem hw ha
        obtain ⟨q, d, a, l, hr, hq2, hc2⟩ :=
          ih (hp.congr (sameShape_dyn ..)) (Nat.lt_of_succ_lt_succ hf)
            (hl.congr (sameShape_dyn ..)) hq1 hc1
        refine ⟨q, d, a, l, ?_, hq2, hc2.congr (fun m _ => by ring)⟩
        rw [incr_inactive h ha, hs, bind_some, hr]
        rfl
      · refine ⟨_, _, _, _, incr_active h ha, hq, ?_⟩
        refine (hc.change_child hl hmem ha (Nat.succ_ne_zero _)).congr (fun m _ => ?_)
        split_ifs <;> push_cast <;> ring

lemma decr_last (h : t.parent n = some p) (ha : t.activeCnt n = 1) :
    decrActiveCnt (fuel + 1) t n =
      (({ t with activeCnt := update t.activeCnt n 0 } : Sched).queueUnset n).bind
        (fun t => decrActiveCnt fuel t p) := by
  rw [decrActiveCnt, h]
  simp [ha]

lemma decr_more (h : t.parent n = some p) (ha : 1 < t.activeCnt n) :
    decrActiveCnt (fuel + 1) t n =
      some (t.dyn t.queue t.deficit (update t.activeCnt n (t.activeCnt n - 1)) t.link) := by
  rw [decrActiveCnt, h]
  simp [dyn, show t.activeCnt n ≠ 0 by omega, show t.activeCnt n - 1 ≠ 0 by omega]

/-- `decr_active_cnt` adds one to the error of the node, if on the way up no count is zero
while that of a child is not. -/
theorem decr_spec (hup : Up t n k) (hf : k < fuel) (hl : Lists t) (hq : Queued t)
    (hc : Counts t e) (hn : n ∈ t.opened → t.activeCnt n ≠ 0)
    (hpos : ∀ m p, Above t.parent n m → t.parent m = some p → p ∈ t.opened →
      t.activeCnt m ≠ 0 → t.activeCnt p ≠ 0) :
    Becomes t (fun m => e m + if m = n then 1 else 0) (decrActiveCnt fuel t n) := by
  induction k generalizing t n fuel e with
  | zero =>
    cases hup with
    | root h hn =>
      obtain ⟨fuel, rfl⟩ : ∃ f, fuel = f + 1 := ⟨fuel - 1, by omega⟩
      refine ⟨t.queue, t.deficit, t.activeCnt, t.link, by simp [decrActiveCnt, h, dyn], hq,
        hc.congr (fun m hm => ?_)⟩
      have hne : m ≠ n := fun he => hn (he ▸ hm)
      rw [if_neg hne, add_zero]
  | succ k ih =>
    have hi := hup.climb
    cases hup with
    | @up _ p _ h ho hmem hw hp =>
      obtain ⟨fuel, rfl⟩ : ∃ f, fuel = f + 1 := ⟨fuel - 1, by omega⟩
      have ha := hn ho
      by_cases h1 : t.activeCnt n = 1
      · obtain ⟨q1, hs, hq1, hc1⟩ := hc.deactivate_child hl hq hmem h1
        have hk : ∀ m, Above t.parent p m → update t.activeCnt n 0 m = t.activeCnt m := by
          intro m hm
          have hne : m ≠ n := by
            rintro rfl
            exact hi.not_above_parent h hm
          rw [update_of_ne hne]
        have hp1 : ∀ m r, Above t.parent p m → t.parent m = some r → r ∈ t.opened →
            update t.activeCnt n 0 m ≠ 0 → update t.activeCnt n 0 r ≠ 0 := by
          intro m r hm hr hro
          rw [hk m hm, hk r (hm.tail hr)]
          exact hpos m r (hm.head h) hr hro
        obtain ⟨q, d, a, l, hu, hq2, hc2⟩ :=
          ih (hp.congr (sameShape_dyn ..)) (Nat.lt_of_succ_lt_succ hf)
            (hl.congr (sameShape_dyn ..)) hq1 hc1
            (fun hpo => by
              simp only [dyn]
              rw [hk p (Above.refl p)]
              exact hpos n p (Above.refl n) h hpo ha)
            hp1
        refine ⟨q, d, a, l, ?_, hq2, hc2.congr (fun m _ => by ring)⟩
        rw [decr_last h h1, hs, bind_some, hu]
        rfl
      · have hg : 1 < t.activeCnt n := by omega
        refine ⟨_, _, _, _, decr_more h hg, hq, ?_⟩
        refine (hc.change_child hl hmem ha (by omega)).congr (fun m _ => ?_)
        split_ifs
        · push_cast [Nat.cast_sub (by omega : 1 ≤ t.activeCnt n)]
          ring
        · ring

end Vhttp.Http2.Scheduler.Sched
