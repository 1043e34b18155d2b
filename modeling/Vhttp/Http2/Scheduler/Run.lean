import Vhttp.Http2.Scheduler.Relocate

/-!
# Runs of the scheduler

* `priority_tree_sound`: after any operations the references form a tree, the counts are right,
  exactly the active references are queued, and no assertion fails in the next operation.
* `close_overflow`: the sum of the weights of 2²⁴ dependents is zero in 32 bits.
* `rebind_reprioritises`: rebinding makes the tree of RFC 7540 section 5.3.3.
* `close_redistributes`: the dependents of a reference that is closed share its weight.
-/

namespace Vhttp.Http2.Scheduler.Sched

open ParentTree Function List Option

variable {t : Sched} {node ref : ℕ}

/-! ## Taking a reference from a queue -/

/-- A reference has been popped from the queue of `node`. -/
def popped (t : Sched) (node ref : ℕ) (q : Queue) : Sched :=
  { t with
    queue := update t.queue node (some q)
    link := update t.link ref none }

/-- The reference is no longer active itself. -/
def unmark (t : Sched) (ref : ℕ) : Sched :=
  { t with
    selfIsActive := update t.selfIsActive ref false
    activeCnt := update t.activeCnt ref (t.activeCnt ref - 1) }

lemma afterCallback_last {p : ℕ} (hp : t.parent ref = some p) (hc : t.activeCnt ref - 1 = 0) :
    t.afterCallback node ref false = (t.unmark ref).decrActiveCnt t.bound p := by
  have hz : (t.unmark ref).activeCnt ref = 0 := by simp [unmark, hc]
  rw [afterCallback, if_neg Bool.false_ne_true]
  refine (if_neg (not_not.2 hz)).trans ?_
  rw [hp]
  rfl

lemma afterCallback_more (hc : t.activeCnt ref - 1 ≠ 0) :
    t.afterCallback node ref false = (t.unmark ref).queueSet node ref := by
  have hn : (t.unmark ref).activeCnt ref ≠ 0 := by simpa [unmark] using hc
  rw [afterCallback, if_neg Bool.false_ne_true]
  exact if_pos hn

section Pop

variable (h : Sound t) {q q' : Queue} (hq : t.queue node = some q)
include h hq

lemma Sound.queued_pop_none (hp : q.pop = (q', none)) :
    Sound { t with queue := update t.queue node (some q') } := by
  refine ⟨h.tree.congr ⟨rfl, rfl, rfl, rfl⟩, fun n c => ?_, ⟨h.counts.cnt, h.counts.linked⟩⟩
  by_cases hn : n = node
  · subst hn
    have hc := Queue.count_pop hp c
    have ho := h.queued n c
    rw [getQueue, hq, getD_some] at ho
    simp only [getQueue, update_self, getD_some]
    simp only [reduceCtorEq, if_false, Nat.add_zero] at hc
    rw [hc, ho]
  · simp only [getQueue, update_of_ne hn]
    exact h.queued n c

variable (hp : q.pop = (q', some ref))
include hp

/-- What a pop returns is an active child of the node. -/
lemma Sound.pop_some : ref ∈ t.allRefs node ∧ t.activeCnt ref ≠ 0 := by
  have hc := Queue.count_pop hp ref
  have ho := h.queued node ref
  rw [getQueue, hq, getD_some] at ho
  rw [if_pos rfl, ho] at hc
  split at hc
  · next hl => exact (h.counts.linked ref node).1 hl
  · omega

lemma Sound.queued_popped : Queued (popped t node ref q') := by
  have hl : t.link ref = some node := (h.counts.linked ref node).2 (h.pop_some hq hp)
  intro n c
  have ho := h.queued n c
  simp only [getQueue] at ho
  by_cases hn : n = node
  · subst hn
    have ht := Queue.count_pop hp c
    rw [hq, getD_some] at ho
    simp only [popped, getQueue, update_self, getD_some]
    by_cases hc : c = ref
    · subst hc
      rw [hl, if_pos rfl] at ho
      rw [if_pos rfl, ho] at ht
      simpa using ht
    · have hne : ¬ some ref = some c := fun he => hc (some.inj he).symm
      rw [if_neg hne, Nat.add_zero, ho] at ht
      simpa [hc] using ht
  · simp only [popped, getQueue, update_of_ne hn]
    rw [ho]
    by_cases hc : c = ref
    · simp [hc, hl, Ne.symm hn]
    · simp [hc]

/-- Putting it back leaves everything as it was but the place in the queue. -/
lemma Sound.requeue_popped :
    ∃ t', (popped t node ref q').queueSet node ref = some t' ∧ Sound t' ∧ SameShape t t' := by
  obtain ⟨hmem, ha⟩ := h.pop_some hq hp
  have hk : t.link ref = some node := (h.counts.linked ref node).2 ⟨hmem, ha⟩
  have ho := h.tree.lists.opened ref node hmem
  obtain ⟨q1, d1, hs, hq1⟩ := queueSet_spec (h.queued_popped hq hp) node
    (update_self _ _ _) (h.tree.weight ref ho).1
  have hl : update (popped t node ref q').link ref (some node) = t.link := by
    simp only [popped]
    rw [update_idem, ← hk, update_eq_self]
  rw [hl] at hs hq1
  exact ⟨_, hs, ⟨h.tree.congr ⟨rfl, rfl, rfl, rfl⟩, hq1, ⟨h.counts.cnt, h.counts.linked⟩⟩,
    ⟨rfl, rfl, rfl, rfl⟩⟩

/-- The callback has been called on an active reference. -/
lemma Sound.afterCallback (hn : t.Node node) (he : t.selfIsActive ref = true) (still : Bool) :
    ∃ t', (popped t node ref q').afterCallback node ref still = some t' ∧ Sound t' := by
  obtain ⟨hmem, ha⟩ := h.pop_some hq hp
  have hop := h.tree.lists.opened ref node hmem
  have hr : t.parent ref = some node := ((h.tree.mem_refs node ref).1 hmem).2
  cases still with
  | true =>
    obtain ⟨t', ht', hs', -⟩ := h.requeue_popped hq hp
    exact ⟨t', ht', hs'⟩
  | false =>
    have hqp := h.queued_popped hq hp
    set s : Sched := (popped t node ref q').unmark ref with hs
    have hh : SameShape t s := ⟨rfl, rfl, rfl, rfl⟩
    by_cases hmo : t.activeCnt ref - 1 = 0
    · -- nothing is left below the reference: its parent has one active child less
      have hc : Counts s (fun m => if m = node then -1 else 0) := by
        refine h.counts.setNode s h.tree.lists (v := 0) (b := false) hmem rfl rfl ?_ rfl rfl
          (fun m _ => ?_)
        · simp only [hs, unmark, popped, hmo]
        · have h1 : t.activeCnt ref = 1 := by omega
          simp only [he, h1, Bool.toNat_true, Bool.toNat_false]
          split_ifs <;> simp_all
      have hkp : ∀ m, Above t.parent node m → s.activeCnt m = t.activeCnt m := by
        intro m hm
        have hne : m ≠ ref := by
          rintro rfl
          exact h.tree.not_above_parent hop hr hm
        simp only [hs, unmark, popped, update_of_ne hne]
      obtain ⟨k, hk, hu⟩ := h.tree.up_self hn
      rw [afterCallback_last (t := popped t node ref q') hr hmo]
      refine (decr_spec (hu.congr hh) hk (h.tree.lists.congr hh) hqp hc
        (fun ho => ?_) (fun m p hm hr ho hma => ?_)).sound (h.tree.congr hh)
          fun m => by split <;> simp
      · rw [hkp node (Above.refl node)]
        exact h.parent_active hmem ho ha
      · rw [hkp p (hm.tail hr)]
        rw [hkp m hm] at hma
        exact h.above_active hn m p hm hr ho hma
    · -- it has active dependents, and stays queued for them
      obtain ⟨q1, d1, ht, hq1⟩ := queueSet_spec (t := s) hqp node
        (update_self _ _ _) (h.tree.weight ref hop).1
      have hc : Counts (s.dyn q1 d1 s.activeCnt (update s.link ref (some node))) (fun _ => 0) := by
        refine h.counts.setNode (s.dyn q1 d1 s.activeCnt (update s.link ref (some node)))
          h.tree.lists (v := t.activeCnt ref - 1) (b := false) hmem rfl rfl rfl rfl ?_ (fun m _ => ?_)
        · simp only [dyn, hs, unmark, popped, update_idem, hmo, if_false]
        · have h1 : 1 ≤ t.activeCnt ref := by omega
          simp only [he, Bool.toNat_true, Bool.toNat_false, hmo, ha, if_false]
          push_cast [Nat.cast_sub h1]
          split_ifs <;> ring
      refine ⟨_, ?_, (h.tree.congr hh).congr (sameShape_dyn ..), hq1, hc⟩
      exact (afterCallback_more (t := popped t node ref q') hmo).trans ht

end Pop

/-! ## Running -/

/-- `proceed` goes down the tree, so that it ends within the number of references. -/
lemma Sound.proceed {cb : Callback} {fuel k : ℕ} (h : Sound t)
    (hn : t.Node node) (hk : Climb t.parent node k) (hf : t.bound ≤ k + fuel) :
    ∃ r, t.proceed cb fuel node = some r ∧ Sound r.1 := by
  induction fuel generalizing t node k with
  | zero =>
    obtain ⟨j, hj, hu⟩ := h.tree.up_self hn
    have hjk := hu.climb.unique hk
    omega
  | succ fuel ih =>
    rw [Sched.proceed]
    cases hq : t.queue node with
    | none => exact ⟨_, rfl, h⟩
    | some q =>
      obtain ⟨q', r, hp⟩ : ∃ q' r, q.pop = (q', r) := ⟨_, _, rfl⟩
      simp only [hp]
      cases r with
      | none => exact ⟨_, rfl, h.queued_pop_none hq hp⟩
      | some ref =>
        obtain ⟨hmem, ha⟩ := h.pop_some hq hp
        have ho := h.tree.lists.opened ref node hmem
        have hpa : t.parent ref = some node := ((h.tree.mem_refs node ref).1 hmem).2
        by_cases hs : t.selfIsActive ref = true
        · obtain ⟨t', ht', hs'⟩ := h.afterCallback hq hp hn hs (cb ref).1
          refine ⟨(t', some ref), ?_, hs'⟩
          simp only [hs, if_true, ha, if_false]
          rw [popped] at ht'
          rw [ht']
          rfl
        · obtain ⟨t', ht', hs', hh⟩ := h.requeue_popped hq hp
          have hc : Climb t'.parent ref (k + 1) := by
            rw [hh.parent]
            exact .up hpa hk
          have ho' : ref ∈ t'.opened := by
            rw [hh.opened]
            exact ho
          have hb : t'.bound ≤ k + 1 + fuel := by
            rw [bound, hh.opened]
            rw [bound] at hf
            omega
          obtain ⟨r, hr, hsr⟩ := ih hs' (Or.inr ho') hc hb
          refine ⟨r, ?_, hsr⟩
          simp only [hs, Bool.false_eq_true, if_false]
          rw [popped] at ht'
          rw [ht']
          exact hr

lemma Sound.run (h : Sound t) (cbs : List Callback) : ∃ t', t.run cbs = some t' ∧ Sound t' := by
  induction cbs generalizing t with
  | nil => exact ⟨t, rfl, h⟩
  | cons cb cbs ih =>
    rw [Sched.run]
    by_cases hm : t.hasMore = true
    · obtain ⟨r, hr, hs⟩ : ∃ r, t.proceed cb t.bound root = some r ∧ Sound r.1 :=
        h.proceed (Or.inl rfl) (.root h.tree.root_parent) (by omega)
      rw [if_pos hm, hr]
      simp only [bind_eq_bind, bind_some]
      split
      · split
        · exact ⟨r.1, rfl, hs⟩
        · exact ih hs
      · exact ih hs
    · rw [if_neg hm]
      exact ⟨t, rfl, h⟩

/-! ## Operations -/

/-- What callers of the scheduler see to: references that are opened are not open, those that
are used are, parents are in the tree, weights are between 1 and 257. The weights of the
dependents of a reference that is closed are not zero together, in 32 bits. -/
def Allowed (t : Sched) : Op → Prop
  | .openRef ref parent weight _ => ref ∉ t.opened ∧ ref ≠ root ∧
      (parent = root ∨ parent ∈ t.opened) ∧ 1 ≤ weight ∧ weight ≤ 257
  | .close ref => ref ∈ t.opened ∧ (t.allRefs ref ≠ [] → t.totalWeight ref ≠ 0)
  | .rebind ref newParent weight _ => ref ∈ t.opened ∧ ref ≠ newParent ∧
      (newParent = root ∨ newParent ∈ t.opened) ∧ 1 ≤ weight ∧ weight ≤ 257
  | .relocate dst src => src ∈ t.opened ∧ dst ∉ t.opened ∧ dst ≠ root
  | .activate ref => ref ∈ t.opened
  | .deactivate ref => ref ∈ t.opened
  | .run _ => True

instance (t : Sched) (op : Op) : Decidable (t.Allowed op) := by
  cases op <;> unfold Allowed <;> exact inferInstance

lemma Sound.step (h : Sound t) {op : Op} (ho : t.Allowed op) :
    ∃ t', t.step op = some t' ∧ Sound t' := by
  cases op with
  | openRef ref parent weight exclusive =>
    exact h.openRef ho.1 ho.2.1 ho.2.2.1 ho.2.2.2.1 ho.2.2.2.2 exclusive
  | close ref =>
    obtain ⟨t', ht', hs', -⟩ := h.close ho.1 ho.2
    exact ⟨t', ht', hs'⟩
  | rebind ref newParent weight exclusive =>
    obtain ⟨t', ht', hs', -⟩ := h.rebind ho.1 ho.2.2.1 ho.2.1 ho.2.2.2.1 ho.2.2.2.2 exclusive
    exact ⟨t', ht', hs'⟩
  | relocate dst src => exact h.relocate ho.1 ho.2.1 ho.2.2
  | activate ref => exact h.activate ho
  | deactivate ref => exact h.deactivate ho
  | run cbs => exact h.run cbs

/-- The states that operations lead to. -/
inductive Reach : Sched → Prop
  | init : Reach init
  | step {t t' : Sched} {op : Op} (h : Reach t) (hop : t.Allowed op)
      (hs : t.step op = some t') : Reach t'

lemma Reach.steps {ops : List Op} {t' : Sched} (h : Reach t)
    (hs : ops.foldlM (fun t op => if t.Allowed op then t.step op else none) t = some t') :
    Reach t' := by
  induction ops generalizing t with
  | nil => exact some.inj hs ▸ h
  | cons op ops ih =>
    obtain ⟨t1, h1, hs⟩ := bind_eq_some_iff.1 hs
    obtain ⟨ho, h1⟩ := ite_none_right_eq_some.1 h1
    exact ih (h.step ho h1) hs

lemma sound_init : Sound init := by
  refine ⟨?_, fun n c => by simp [getQueue, init], ?_⟩
  · constructor <;> simp [init, root]
  · constructor <;> simp [init]

lemma Reach.sound (h : Reach t) : Sound t := by
  induction h with
  | init => exact sound_init
  | step _ ho hs ih =>
    obtain ⟨t', ht', hn⟩ := ih.step ho
    rw [hs, some.injEq] at ht'
    exact ht' ▸ hn

/-- The root is reached from every node of the tree. -/
lemma Tree.above_root (h : Tree t) {c : ℕ} (hc : c ∈ t.opened) : Above t.parent c root := by
  obtain ⟨k, hk⟩ := h.climb c hc
  have hn : t.Node c := Or.inr hc
  clear hc
  induction hk with
  | @root n hr =>
    rcases hn with rfl | ho
    · exact Above.refl _
    · obtain ⟨p, hp, -⟩ := h.parent_open n ho
      rw [hr] at hp
      cases hp
  | @up n p k hp _ ih =>
    exact (ih (h.of_parent hn hp).2).head hp

/-- **The priority tree.**  After any operations every open reference is below the root and on
no cycle, and in the list of children of its parent; `_active_cnt` is its own activity plus
the number of its active children; it is in its parent's queue exactly when that is not zero,
once, and in no other queue; and no assertion fails in any further operation. -/
theorem priority_tree_sound (h : Reach t) : (∀ c ∈ t.opened, Above t.parent c root ∧
      ∃ p, t.parent c = some p ∧ c ∈ t.allRefs p ∧ ¬ Above t.parent p c) ∧
    (∀ p c, c ∈ t.allRefs p → c ∈ t.opened ∧ t.parent c = some p) ∧
    (∀ c ∈ t.opened, t.activeCnt c = (t.selfIsActive c).toNat + t.activeChildren c) ∧
    (∀ c p, (t.getQueue p).count c =
      if c ∈ t.opened ∧ t.parent c = some p ∧ t.activeCnt c ≠ 0 then 1 else 0) ∧
    ∀ op, t.Allowed op → (t.step op).isSome = true := by
  have hs := h.sound
  refine ⟨fun c hc => ⟨hs.tree.above_root hc, ?_⟩, fun p c => (hs.tree.mem_refs p c).1, ?_, ?_, ?_⟩
  · obtain ⟨p, hp, -⟩ := hs.tree.parent_open c hc
    exact ⟨p, hp, (hs.tree.mem_refs p c).2 ⟨hc, hp⟩, hs.tree.not_above_parent hc hp⟩
  · intro c hc
    have hn := hs.counts.cnt c hc
    rw [add_zero] at hn
    exact_mod_cast hn
  · intro c p
    rw [hs.queued]
    have hi : t.link c = some p ↔ c ∈ t.opened ∧ t.parent c = some p ∧ t.activeCnt c ≠ 0 := by
      rw [hs.counts.linked, hs.tree.mem_refs, and_assoc]
    simp only [hi]
  · intro op ho
    obtain ⟨t', ht', -⟩ := hs.step ho
    rw [ht']
    rfl

/-- A reference with an active dependent gets a parent, which is closed. -/
theorem priority_tree_sound_moved : ∃ t, Reach t ∧ t.opened = [3, 2] ∧ t.parent 2 = some root ∧
    (t.getQueue root).count 2 = 1 ∧ (t.step (.deactivate 3)).isSome = true := by
  obtain ⟨t, hs, ho, hp, ha⟩ : ∃ t, [Op.openRef 1 root 16 false, .openRef 2 root 8 false,
      .openRef 3 2 8 false, .activate 3, .rebind 2 1 4 false, .close 1].foldlM
        (fun t op => if t.Allowed op then t.step op else none) init = some t ∧
      t.opened = [3, 2] ∧ t.parent 2 = some root ∧ t.activeCnt 2 ≠ 0 :=
    exists_of_any (by decide +kernel)
  have h := Reach.init.steps hs
  obtain ⟨-, -, -, hc, hstep⟩ := priority_tree_sound h
  refine ⟨t, h, ho, hp, ?_, hstep (.deactivate 3) ?_⟩
  · rw [hc, if_pos ⟨by simp [ho], hp, ha⟩]
  · show 3 ∈ t.opened
    simp [ho]

/-- A reference with `n` dependents of weight 256. -/
def fan : ℕ → Sched
  | 0 => init.link₁ 1 root 1
  | n + 1 => (fan n).link₁ (n + 2) 1 256

lemma opened_fan (n m : ℕ) : m ∈ (fan n).opened ↔ 1 ≤ m ∧ m ≤ n + 1 := by
  induction n with
  | zero =>
    simp only [fan, link₁, init, mem_singleton]
    omega
  | succ n ih =>
    simp only [fan, link₁, mem_cons, ih]
    omega

lemma reach_fan (n : ℕ) : Reach (fan n) := by
  induction n with
  | zero =>
    refine Reach.step Reach.init (?_ : init.Allowed (.openRef 1 root 1 false)) rfl
    refine ⟨?_, ?_, Or.inl rfl, ?_, ?_⟩ <;> simp [init, root]
  | succ n ih =>
    refine Reach.step ih (?_ : (fan n).Allowed (.openRef (n + 2) 1 256 false)) rfl
    refine ⟨?_, ?_, Or.inr ((opened_fan n 1).2 ?_), ?_, ?_⟩
    · rw [opened_fan]
      omega
    all_goals simp [root]

lemma sum_weight_fan (n : ℕ) : (((fan n).allRefs 1).map (fan n).weight).sum = 256 * n := by
  induction n with
  | zero => simp [fan, link₁, init, root]
  | succ n ih =>
    have hn : n + 2 ∉ (fan n).allRefs 1 := by
      intro hmem
      have hl := (opened_fan n (n + 2)).1 ((reach_fan n).sound.tree.lists.opened _ _ hmem)
      omega
    have ha : ((fan n).allRefs 1).map (update (fan n).weight (n + 2) 256) =
        ((fan n).allRefs 1).map (fan n).weight :=
      map_congr_left fun m hm => update_of_ne (ne_of_mem_of_not_mem hm hn) _ _
    have hne : (1 : ℕ) ≠ n + 2 := by omega
    simp only [fan, link₁, update_self, update_of_ne hne, map_append, ha,
      sum_append, ih, map_singleton, sum_singleton]
    omega

/-- A total weight of zero in 32 bits fails the assertion of `vhttp_http2_scheduler_close`. -/
lemma close_fan {n : ℕ} (hn : n ≠ 0) (hz : 256 * n % 2 ^ 32 = 0) :
    (fan n).step (.close 1) = none := by
  have hs := sum_weight_fan n
  have ht : (fan n).totalWeight 1 = 0 := by
    rw [totalWeight, hs, hz]
  have hne : (fan n).allRefs 1 ≠ [] := by
    intro hi
    rw [hi] at hs
    simp at hs
    omega
  rw [step, close]
  cases (fan n).parent 1 with
  | none => rfl
  | some parent => simp [hne, ht]

/-- 2²⁴ dependents of weight 256 cannot be given to another parent. -/
theorem close_overflow : ∃ t, Reach t ∧ 1 ∈ t.opened ∧ t.step (.close 1) = none :=
  ⟨fan (2 ^ 24), reach_fan _, (opened_fan _ 1).2 (by omega), close_fan (by omega) (by omega)⟩

/-! ## What rebinding and closing do to the tree -/

/-- **Reprioritisation.**  A new parent that depends on the reference first takes its place; then
the reference gets the new parent and weight, and the other children of that parent if it is
exclusive. No other parent or weight changes. -/
theorem rebind_reprioritises (h : Sound t) {new w : ℕ} (href : ref ∈ t.opened)
    (hnew : new = root ∨ new ∈ t.opened) (hne : ref ≠ new) (hw : 1 ≤ w) (hw' : w ≤ 257)
    (exclusive : Bool) : ∃ t', t.rebind ref new w exclusive = some t' ∧ Tree t' ∧
      t'.opened = t.opened ∧ t'.weight = update t.weight ref w ∧
      ∀ n ∈ t.opened, t'.parent n = reprioritised t.parent ref new exclusive n := by
  obtain ⟨t', ht', hs', hr⟩ := h.rebind href hnew hne hw hw' exclusive
  exact ⟨t', ht', hs'.tree, hr⟩

/-- A reference of weight 16 with a dependent of weight 8. -/
def chain : Sched := (init.link₁ 1 root 16).link₁ 2 1 8

lemma sound_chain : Sound chain := by
  have ho : Sound (init.link₁ 1 root 16) :=
    sound_init.link₁ not_mem_nil (by decide) (.inl rfl) (by decide) (by decide)
  exact ho.link₁ (by decide) (by decide) (.inr (by decide)) (by decide) (by decide)

/-- The dependent becomes the parent. -/
theorem rebind_reprioritises_chain : ∃ t', chain.rebind 1 2 4 true = some t' ∧ Tree t' ∧
    t'.weight 1 = 4 ∧ t'.parent 1 = some 2 := by
  obtain ⟨t', ht', ht, -, hw, hp⟩ := rebind_reprioritises sound_chain
    (show 1 ∈ chain.opened by decide) (.inr (show 2 ∈ chain.opened by decide)) (by decide)
    (show 1 ≤ 4 by decide) (by decide) true
  refine ⟨t', ht', ht, by rw [hw, update_self], ?_⟩
  rw [hp 1 (by decide)]
  simp [reprioritised, adopted]

/-- **Closing.**  The dependents of a reference become those of its parent. Each gets its share of
the weight of the reference, between 1 and 256 and up to one; nothing overflows on the way, and
nothing else changes. -/
theorem close_redistributes (h : Sound t) (href : ref ∈ t.opened)
    (hsum : ((t.allRefs ref).map t.weight).sum < 2 ^ 32) :
    ∃ t', t.close ref = some t' ∧ Tree t' ∧ t'.opened = t.opened.erase ref ∧
      (∀ n ∉ t.allRefs ref, t'.parent n = t.parent n ∧ t'.weight n = t.weight n) ∧
      t.weight ref * 65536 + ((t.allRefs ref).map t.weight).sum / 2 < 2 ^ 32 ∧
      ∀ n ∈ t.allRefs ref, t'.parent n = t.parent ref ∧ 1 ≤ t'.weight n ∧ t'.weight n ≤ 256 ∧
        t.weight n * t.factor ref < 2 ^ 32 ∧
        (t.weight n * t.factor ref / 32768 + 1) / 2 < 2 ^ 16 ∧
        |(t'.weight n : ℚ) - max 1 (min 256 (t.weight ref * t.weight n /
          ((t.allRefs ref).map t.weight).sum : ℚ))| ≤ 1 := by
  have ho := (h.tree.weight ref href).2
  have hf : t.factor ref = (t.weight ref * 65536 + ((t.allRefs ref).map t.weight).sum / 2) /
      ((t.allRefs ref).map t.weight).sum := by
    rw [factor, totalWeight, Nat.mod_eq_of_lt hsum, Nat.mod_eq_of_lt (by omega),
      Nat.mod_eq_of_lt (by omega)]
  have hpos : t.allRefs ref ≠ [] → t.totalWeight ref ≠ 0 := fun hr => by
    obtain ⟨c, hc⟩ := exists_mem_of_ne_nil _ hr
    have hl := h.weight_le_sum hc
    rw [totalWeight, Nat.mod_eq_of_lt hsum]
    omega
  obtain ⟨t', ht', hs', hp, he⟩ := h.close href hpos
  refine ⟨t', ht', hs'.tree, hp, fun n hn => ?_, by omega, fun n hn => ?_⟩
  · simpa only [if_neg hn] using he n
  · obtain ⟨hpos, hl⟩ := h.weight_le_sum hn
    obtain ⟨ht, hw⟩ := he n
    rw [if_pos hn] at ht hw
    obtain ⟨hpr, hr, hm, hne⟩ := childWeight_near ho hl hpos.1 hpos.2 hf
    rw [hw]
    exact ⟨ht, (childWeight_range _ _).1, hm, hpr, hr, hne⟩

/-- The dependent goes to the root. -/
theorem close_redistributes_chain : ∃ t', chain.close 1 = some t' ∧ Tree t' ∧
    t'.parent 2 = some root ∧ t'.weight 2 ≤ 256 := by
  obtain ⟨t', ht', ht, -, -, -, hc⟩ := close_redistributes sound_chain
    (show 1 ∈ chain.opened by decide) (by decide)
  obtain ⟨hp, -, hm, -⟩ := hc 2 (by decide)
  exact ⟨t', ht', ht, hp, hm⟩

/-- With 2²⁴ dependents of weight 256 the reference is not closed. -/
theorem close_redistributes_overflow : ∃ t, Sound t ∧ 1 ∈ t.opened ∧
    ((t.allRefs 1).map t.weight).sum = 2 ^ 32 ∧ t.close 1 = none :=
  ⟨fan (2 ^ 24), (reach_fan _).sound, (opened_fan _ 1).2 (by omega),
    (sum_weight_fan _).trans (by omega), close_fan (by omega) (by omega)⟩

end Vhttp.Http2.Scheduler.Sched
