import Vhttp.Http2.Scheduler.Active

/-!
# The tree of the scheduler

`Sound t` is what holds between operations: the open references are a tree under the root, the
counts are right, and exactly the active references are queued. The primitive that changes
the tree is `moveTo`, by which a reference gets another parent.

* `Sound.moveTo`: moving a reference below a node that does not depend on it.
* `Sound.rebindPlain`, `Sound.convertToExclusive`: what is built from it.
-/

namespace Vhttp.Http2.Scheduler.Sched

open ParentTree Function List Option

/-- The open references form a tree under `root`, with lists of children that agree with the
parents. -/
structure Tree (t : Sched) : Prop where
  root_parent : t.parent root = none
  root_closed : root ∉ t.opened
  nodup : t.opened.Nodup
  refs_nodup : ∀ p, (t.allRefs p).Nodup
  mem_refs : ∀ p c, c ∈ t.allRefs p ↔ c ∈ t.opened ∧ t.parent c = some p
  parent_open : ∀ c ∈ t.opened, ∃ p, t.parent c = some p ∧ (p = root ∨ p ∈ t.opened)
  climb : ∀ c ∈ t.opened, ∃ k, Climb t.parent c k
  weight : ∀ c ∈ t.opened, 1 ≤ t.weight c ∧ t.weight c ≤ 257

/-- The root or an open reference. -/
abbrev Node (t : Sched) (n : ℕ) : Prop := n = root ∨ n ∈ t.opened

/-- What holds between operations. -/
structure Sound (t : Sched) : Prop where
  tree : Tree t
  queued : Queued t
  counts : Counts t (fun _ => 0)

variable {t : Sched}

/-! ## The way up -/

lemma Tree.lists (h : Tree t) : Lists t where
  nodup := h.refs_nodup
  unique := by
    intro c p q hp hq
    have hp' := ((h.mem_refs p c).1 hp).2
    rw [((h.mem_refs q c).1 hq).2, some.injEq] at hp'
    exact hp'.symm
  opened := fun c p hc => ((h.mem_refs p c).1 hc).1

lemma Tree.congr {s : Sched} (h : Tree t) (hs : SameShape t s) : Tree s := by
  obtain ⟨hp, hr, hw, ho⟩ := hs
  constructor
  case root_parent => rw [hp]; exact h.root_parent
  case root_closed => rw [ho]; exact h.root_closed
  case nodup => rw [ho]; exact h.nodup
  case refs_nodup => rw [hr]; exact h.refs_nodup
  case mem_refs => rw [hr, ho, hp]; exact h.mem_refs
  case parent_open => rw [ho, hp]; exact h.parent_open
  case climb => rw [ho, hp]; exact h.climb
  case weight => rw [ho, hw]; exact h.weight

/-- A result with correct counts is sound, and the tree is the same. -/
lemma Becomes.sound_shape {e : ℕ → ℤ} {r : Option Sched} (h : Becomes t e r) (ht : Tree t)
    (he : ∀ m, e m = 0) : ∃ t', r = some t' ∧ Sound t' ∧ SameShape t t' := by
  obtain ⟨q, d, a, l, hr, hq, hc⟩ := h
  have hs := sameShape_dyn t q d a l
  exact ⟨_, hr, ⟨ht.congr hs, hq, hc.congr fun m _ => (he m).symm⟩, hs⟩

lemma Becomes.sound {e : ℕ → ℤ} {r : Option Sched} (h : Becomes t e r) (ht : Tree t)
    (he : ∀ m, e m = 0) : ∃ t', r = some t' ∧ Sound t' :=
  let ⟨t', hr, hs, _⟩ := h.sound_shape ht he
  ⟨t', hr, hs⟩

variable {added c fuel n p parent w : ℕ} {l : List ℕ}

lemma Tree.climb_node (h : Tree t) (hn : t.Node n) : ∃ k, Climb t.parent n k := by
  rcases hn with rfl | hn
  · exact ⟨0, .root h.root_parent⟩
  · exact h.climb n hn

/-- A node that has a parent is not the root, and its parent is a node. -/
lemma Tree.of_parent (h : Tree t) (hn : t.Node n) (hp : t.parent n = some p) :
    n ∈ t.opened ∧ t.Node p := by
  have hop : n ∈ t.opened := by
    refine hn.resolve_left ?_
    rintro rfl
    rw [h.root_parent] at hp
    cases hp
  obtain ⟨q, hq, ho⟩ := h.parent_open n hop
  cases hp.symm.trans hq
  exact ⟨hop, ho⟩

/-- What is above a node of the tree is one. -/
lemma Tree.above_node (h : Tree t) {m : ℕ} (hn : t.Node n)
    (ha : Above t.parent n m) : t.Node m := by
  induction ha with
  | refl => exact hn
  | tail _ hp ih => exact (h.of_parent ih hp).2

lemma Tree.not_above_parent (h : Tree t) (hc : c ∈ t.opened) (hp : t.parent c = some p) :
    ¬ Above t.parent p c :=
  let ⟨_, hk⟩ := h.climb c hc
  hk.not_above_parent hp

lemma Tree.ne_parent (h : Tree t) (hc : c ∈ t.opened) (hp : t.parent c = some p) : c ≠ p :=
  fun he => h.not_above_parent hc hp (he ▸ Above.refl _)

/-- The way up, also while the list of another reference is being changed. -/
lemma Tree.up (h : Tree t) (hn : t.Node n) {A : ℕ → List ℕ}
    (hA : ∀ c p, Above t.parent n c → c ∈ t.opened → t.parent c = some p → c ∈ A p) :
    ∃ k, k < t.bound ∧ Up { t with allRefs := A } n k := by
  obtain ⟨k, hk⟩ := h.climb_node hn
  have hlen : k ≤ t.opened.length := by
    refine hk.le_length (fun m hm ha => ?_)
    rcases h.above_node hn hm with rfl | hop
    · exact absurd h.root_parent ha
    · exact hop
  refine ⟨k, Nat.lt_succ_of_le hlen, ?_⟩
  clear hlen
  induction hk with
  | @root n hr =>
    refine .root hr (fun hop => ?_)
    obtain ⟨p, hp, -⟩ := h.parent_open n hop
    rw [hr] at hp
    cases hp
  | @up n p k hp hl ih =>
    obtain ⟨hop, ho⟩ := h.of_parent hn hp
    refine .up hp hop (hA n p (Above.refl n) hop hp) (h.weight n hop).1 (ih ho ?_)
    intro c q hc
    exact hA c q (hc.head hp)

lemma Tree.up_self (h : Tree t) (hn : t.Node n) : ∃ k, k < t.bound ∧ Up t n k :=
  h.up (A := t.allRefs) hn (fun c p _ ho hp => (h.mem_refs p c).2 ⟨ho, hp⟩)

/-- A node with an active child is active. -/
lemma Sound.parent_active (h : Sound t) (hmem : c ∈ t.allRefs p)
    (hp : p ∈ t.opened) (hc : t.activeCnt c ≠ 0) : t.activeCnt p ≠ 0 := by
  have hn := h.counts.cnt p hp
  have hpos : 0 < t.activeChildren p :=
    countP_pos_iff.2 ⟨c, hmem, by simpa using hc⟩
  intro hz
  rw [hz] at hn
  push_cast at hn
  omega

lemma Sound.above_active (h : Sound t) (hn : t.Node n) (m p : ℕ)
    (hm : Above t.parent n m) (hp : t.parent m = some p) (ho : p ∈ t.opened)
    (hc : t.activeCnt m ≠ 0) : t.activeCnt p ≠ 0 := by
  have hmo := (h.tree.of_parent (h.tree.above_node hn hm) hp).1
  exact h.parent_active ((h.tree.mem_refs p m).2 ⟨hmo, hp⟩) ho hc

/-! ## Moving a reference between lists -/

section relink

variable {A : ℕ → List ℕ} {ref old new : ℕ}

lemma mem_unlink (hn : ∀ p, (A p).Nodup) (ho : ∀ p, ref ∈ A p → p = old) :
    c ∈ update A old ((A old).erase ref) p ↔ c ≠ ref ∧ c ∈ A p := by
  by_cases hp : p = old
  · subst hp
    rw [update_self, (hn p).mem_erase_iff]
  · rw [update_of_ne hp]
    refine ⟨fun hc => ⟨?_, hc⟩, fun hc => hc.2⟩
    rintro rfl
    exact hp (ho p hc)

lemma unlink_nodup (hn : ∀ p, (A p).Nodup) (p : ℕ) :
    (update A old ((A old).erase ref) p).Nodup := by
  by_cases hp : p = old
  · subst hp
    rw [update_self]
    exact (hn p).erase ref
  · rw [update_of_ne hp]
    exact hn p

lemma countP_unlink (f : ℕ → Bool) (hmem : ref ∈ A old ∨ f ref = false) (p : ℕ) :
    ((update A old ((A old).erase ref) p).countP f : ℤ) =
      (A p).countP f - if p = old then (if f ref then 1 else 0) else 0 := by
  by_cases hp : p = old
  · subst hp
    rw [update_self, if_pos rfl]
    rcases hmem with hmem | hf
    · rw [(perm_cons_erase hmem).countP_eq f, countP_cons]
      push_cast
      ring
    · simp [countP_erase, hf]
  · rw [update_of_ne hp, if_neg hp, sub_zero]

lemma mem_relink (hn : ∀ p, (A p).Nodup) (ho : ∀ p, ref ∈ A p → p = old) :
    c ∈ relink A ref old new p ↔ (c ≠ ref ∧ c ∈ A p) ∨ (c = ref ∧ p = new) := by
  simp only [relink]
  by_cases hp : p = new
  · subst hp
    rw [update_self, mem_append, mem_unlink hn ho, mem_singleton]
    simp
  · rw [update_of_ne hp, mem_unlink hn ho]
    simp [hp]

lemma relink_nodup (hn : ∀ p, (A p).Nodup) (ho : ∀ p, ref ∈ A p → p = old) (p : ℕ) :
    (relink A ref old new p).Nodup := by
  simp only [relink]
  by_cases hp : p = new
  · subst hp
    rw [update_self, ← concat_eq_append]
    exact (unlink_nodup hn p).concat fun hmem => ((mem_unlink hn ho).1 hmem).1 rfl
  · rw [update_of_ne hp]
    exact unlink_nodup hn p

lemma countP_relink (f : ℕ → Bool) (hmem : ref ∈ A old ∨ f ref = false) (p : ℕ) :
    ((relink A ref old new p).countP f : ℤ) = (A p).countP f
      - (if p = old then (if f ref then 1 else 0) else 0)
      + if p = new then (if f ref then 1 else 0) else 0 := by
  simp only [relink]
  by_cases hp : p = new
  · subst hp
    rw [update_self, countP_append, countP_singleton, if_pos rfl]
    push_cast
    rw [countP_unlink f hmem]
  · rw [update_of_ne hp, countP_unlink f hmem, if_neg hp, add_zero]

end relink

/-! ## Moving a reference -/

/-- The tree after `ref` has got the parent `new`. -/
def moved (t : Sched) (ref old new : ℕ) : Sched :=
  { t with
    allRefs := relink t.allRefs ref old new
    parent := update t.parent ref (some new) }

variable {ref old new : ℕ}

lemma Tree.own (h : Tree t) (hd : t.parent ref = some old) (p : ℕ) (hp : ref ∈ t.allRefs p) :
    p = old := by
  have ha := ((h.mem_refs p ref).1 hp).2
  rw [hd, some.injEq] at ha
  exact ha.symm

/-- The tree with a reference, whether it was open before or not, under another node. -/
lemma Tree.place (h : Tree t) {s : Sched} (hrt : ref ≠ root)
    (hw : ∀ p, ref ∈ t.allRefs p → p = old) (hne : t.Node new)
    (ha : ¬ Above t.parent new ref) (hnd : s.opened.Nodup)
    (he : ∀ c, c ∈ s.opened ↔ c = ref ∨ c ∈ t.opened)
    (ht : s.parent = update t.parent ref (some new)) (hf : s.allRefs = relink t.allRefs ref old new)
    (hg : ∀ c ∈ s.opened, 1 ≤ s.weight c ∧ s.weight c ≤ 257) : Tree s := by
  have hno : ∀ {n}, t.Node n → s.Node n :=
    fun hn => hn.imp_right fun ho => (he _).2 (.inr ho)
  constructor
  case root_parent => rw [ht, update_of_ne hrt.symm, h.root_parent]
  case root_closed => simp [he, hrt.symm, h.root_closed]
  case nodup => exact hnd
  case refs_nodup => exact hf ▸ relink_nodup h.refs_nodup hw
  case mem_refs =>
    intro p c
    rw [hf, mem_relink h.refs_nodup hw, he, ht]
    by_cases hc : c = ref
    · subst hc
      simp [eq_comm]
    · simp [hc, h.mem_refs]
  case parent_open =>
    intro c hc
    rw [ht]
    by_cases hr : c = ref
    · subst hr
      exact ⟨new, update_self _ _ _, hno hne⟩
    · obtain ⟨p, hp, hpn⟩ := h.parent_open c (((he c).1 hc).resolve_left hr)
      exact ⟨p, by rw [update_of_ne hr, hp], hno hpn⟩
  case climb =>
    intro c hc
    rw [ht]
    obtain ⟨j, hj⟩ := h.climb_node hne
    by_cases hr : c = ref
    · subst hr
      exact ⟨j + 1, .up (update_self _ _ _) (hj.update ha _)⟩
    · obtain ⟨k, hk⟩ := h.climb c (((he c).1 hc).resolve_left hr)
      exact hj.move ha hk
  case weight => exact hg

lemma Tree.moved (h : Tree t) (href : ref ∈ t.opened) (hd : t.parent ref = some old)
    (hn : t.Node new) (ha : ¬ Above t.parent new ref) :
    Tree (moved t ref old new) :=
  h.place (fun he => h.root_closed (he ▸ href)) (h.own hd) hn ha h.nodup
    (fun _ => ⟨.inr, fun hc => hc.elim (· ▸ href) id⟩) rfl rfl h.weight

lemma Tree.relink_lists (h : Tree t) (href : ref ∈ t.opened) (hd : t.parent ref = some old)
    (new : ℕ) :
    Lists { t with allRefs := relink t.allRefs ref old new } where
  nodup := relink_nodup h.refs_nodup (h.own hd)
  unique := by
    intro c p q hp hq
    rw [mem_relink h.refs_nodup (h.own hd)] at hp hq
    rcases hp with ⟨hc, hp⟩ | ⟨rfl, rfl⟩
    · rcases hq with ⟨-, hq⟩ | ⟨hc', -⟩
      · exact h.lists.unique c p q hp hq
      · exact absurd hc' hc
    · rcases hq with ⟨hc', -⟩ | ⟨-, hq⟩
      · exact absurd rfl hc'
      · exact hq.symm
  opened := by
    intro c p hp
    rw [mem_relink h.refs_nodup (h.own hd)] at hp
    rcases hp with ⟨-, hp⟩ | ⟨rfl, -⟩
    · exact h.lists.opened c p hp
    · exact href

/-- The way up from a node that does not depend on the reference is not changed. -/
lemma Tree.up_relink (h : Tree t) (hd : t.parent ref = some old) (new : ℕ)
    (hn : t.Node n) (ha : ¬ Above t.parent n ref) :
    ∃ k, k < t.bound ∧ Up { t with allRefs := relink t.allRefs ref old new } n k := by
  refine h.up hn (fun c p hc ho hp => ?_)
  rw [mem_relink h.refs_nodup (h.own hd)]
  refine Or.inl ⟨?_, (h.mem_refs p c).2 ⟨ho, hp⟩⟩
  rintro rfl
  exact ha hc

variable (h : Sound t) (href : ref ∈ t.opened) (hd : t.parent ref = some old)
include h href hd

/-- The error of the counts once the reference is linked under the new parent only. -/
lemma Sound.counts_relink (new : ℕ) {q : ℕ → Option Queue} {d : ℕ → ℕ}
    {l : ℕ → Option ℕ} (hl : l = update t.link ref (if t.activeCnt ref = 0 then none else some new)) :
    Counts ({ t with allRefs := relink t.allRefs ref old new }.dyn q d t.activeCnt l)
      (fun m => (if m = new then (if t.activeCnt ref = 0 then 0 else 1) else 0)
        - if m = old then (if t.activeCnt ref = 0 then 0 else 1) else 0) := by
  have hmem : ref ∈ t.allRefs old := (h.tree.mem_refs old ref).2 ⟨href, hd⟩
  constructor
  case cnt =>
    intro m hm
    have hn := h.counts.cnt m hm
    have hh : (({ t with allRefs := relink t.allRefs ref old new }.dyn q d t.activeCnt
        l).activeChildren m : ℤ) = t.activeChildren m
        - (if m = old then (if t.activeCnt ref != 0 then 1 else 0) else 0)
        + if m = new then (if t.activeCnt ref != 0 then 1 else 0) else 0 :=
      countP_relink (fun c => t.activeCnt c != 0) (.inl hmem) m
    rw [hh]
    by_cases ha : t.activeCnt ref = 0
    · simp only [ha, bne_self_eq_false, Bool.false_eq_true, if_true, if_false, ite_self, dyn]
      linarith
    · simp only [bne_iff_ne.2 ha, ha, if_true, if_false, dyn]
      linarith
  case linked =>
    intro c p
    simp only [dyn, hl, mem_relink h.tree.refs_nodup (h.tree.own hd)]
    by_cases hc : c = ref
    · subst hc
      by_cases ha : t.activeCnt c = 0
      · simp [ha]
      · simp [ha, eq_comm]
    · rw [update_of_ne hc]
      simp [hc, h.counts.linked]

lemma Sound.requeue (hn : t.Node new) (hb : ¬ Above t.parent new ref)
    (ha : t.activeCnt ref ≠ 0) :
    Becomes { t with allRefs := relink t.allRefs ref old new } (fun _ => 0)
      (Sched.requeue { t with allRefs := relink t.allRefs ref old new } ref old new) := by
  have hmem : ref ∈ t.allRefs old := (h.tree.mem_refs old ref).2 ⟨href, hd⟩
  have hlk : t.link ref = some old := (h.counts.linked ref old).2 ⟨hmem, ha⟩
  have hl := (h.tree.of_parent (Or.inr href) hd).2
  have hi := h.tree.relink_lists href hd new
  set s : Sched := { t with allRefs := relink t.allRefs ref old new } with hs
  -- the reference goes from the old queue to the new one
  obtain ⟨q1, hu, hq1⟩ := queueUnset_spec (t := s) h.queued hlk
  obtain ⟨q2, d2, he, hq2⟩ := queueSet_spec hq1 new (update_self _ _ _) (h.tree.weight ref href).1
  have hc2 := h.counts_relink (q := q2) (d := d2) href hd new
    (l := update (update t.link ref none) ref (some new))
    (by rw [if_neg ha, update_idem])
  simp only [if_neg ha] at hc2
  -- the old parent has one active child less
  obtain ⟨k, hk, hp⟩ := h.tree.up_relink hd new hl (h.tree.not_above_parent href hd)
  obtain ⟨q3, d3, a3, l3, hde, hq3, hc3⟩ := decr_spec (hp.congr (sameShape_dyn _ q2 d2
      t.activeCnt (update (update t.link ref none) ref (some new)))) hk
    (hi.congr (sameShape_dyn ..)) hq2 hc2 (fun ho => h.parent_active hmem ho ha)
    (fun m p => h.above_active hl m p)
  -- and the new parent one more
  obtain ⟨k', hk', hu'⟩ := h.tree.up_relink hd new hn hb
  obtain ⟨q4, d4, a4, l4, hin, hq4, hc4⟩ := incr_spec (hu'.congr (sameShape_dyn _ q3 d3 a3 l3)) hk'
    (hi.congr (sameShape_dyn ..)) hq3 hc3
  refine ⟨q4, d4, a4, l4, ?_, hq4, hc4.congr (fun m _ => ?_)⟩
  · simp only [Sched.requeue, hu, he, bind_eq_bind, bind_some]
    erw [hde]
    simp only [bind_some]
    exact hin
  · ring

/-- A reference moves below a node that does not depend on it. -/
theorem Sound.moveTo (hn : t.Node new) (hb : ¬ Above t.parent new ref) :
    ∃ q d a l, t.moveTo ref new = some ((moved t ref old new).dyn q d a l) ∧
      Sound ((moved t ref old new).dyn q d a l) := by
  have ht := h.tree.moved href hd hn hb
  by_cases ha : t.activeCnt ref = 0
  · refine ⟨t.queue, t.deficit, t.activeCnt, t.link, ?_, ⟨ht.congr
      (sameShape_dyn ..), h.queued, ?_⟩⟩
    · simp [Sched.moveTo, hd, ha, moved, dyn]
    · have hc := h.counts_relink (q := t.queue) (d := t.deficit) (l := t.link) href
        hd new (by rw [if_pos ha, ← h.counts.link_none ha, update_eq_self])
      have hc' : Counts _ (fun _ => 0) := hc.congr (fun m _ => by simp [ha])
      exact ⟨hc'.cnt, hc'.linked⟩
  · obtain ⟨q, d, a, l, hr, hq, hc⟩ := h.requeue href hd hn hb ha
    refine ⟨q, d, a, l, ?_, ⟨ht.congr (sameShape_dyn ..), hq, ⟨hc.cnt, hc.linked⟩⟩⟩
    simp only [Sched.moveTo, hd, bind_eq_bind, bind_some, if_neg ha]
    rw [hr]
    rfl

omit h href hd

/-! ## Rebinding -/

lemma Sound.setWeight (h : Sound t) (hw : 1 ≤ w) (hw' : w ≤ 257) (ref : ℕ) :
    Sound { t with weight := update t.weight ref w } := by
  refine ⟨{ h.tree with weight := fun c hc => ?_ }, h.queued, ⟨h.counts.cnt, h.counts.linked⟩⟩
  by_cases hr : c = ref
  · subst hr
    simp only [update_self]
    exact ⟨hw, hw'⟩
  · simp only [update_of_ne hr]
    exact h.tree.weight c hc

/-- The loop finds whether the node depends on the reference. -/
lemma isBelow_iff {k : ℕ} (hk : Climb t.parent n k) (hf : k ≤ fuel) :
    t.isBelow ref fuel n = true ↔ ∃ p, t.parent n = some p ∧ Above t.parent p ref := by
  induction fuel generalizing n k with
  | zero =>
    obtain rfl : k = 0 := by omega
    cases hk with
    | root h => simp [isBelow, h]
  | succ fuel ih =>
    cases hk with
    | root h => simp [isBelow, h]
    | @up _ p k h hp =>
      rw [isBelow, h]
      simp only [some.injEq, exists_eq_left']
      rw [above_iff]
      by_cases hr : p = ref
      · simp [hr]
      · simp only [hr, if_false, false_or]
        exact ih hp (by omega)

lemma Tree.climb_le (h : Tree t) (hn : t.Node n) :
    ∃ k ≤ t.bound, Climb t.parent n k := by
  obtain ⟨k, hk, hu⟩ := h.up_self hn
  exact ⟨k, hk.le, hu.climb⟩

lemma Tree.isBelow_eq (h : Tree t) (hn : t.Node new) (hne : ref ≠ new) :
    t.isBelow ref t.bound new = true ↔ Above t.parent new ref := by
  obtain ⟨k, hk, hc⟩ := h.climb_le hn
  rw [isBelow_iff hc hk, above_iff (n := new)]
  simp [hne.symm]

/-- A reference that has a parent other than the new one is moved. -/
theorem Sound.rebindPlain (h : Sound t) (href : ref ∈ t.opened) (hd : t.parent ref = some old)
    (ho : old ≠ new) (hn : t.Node new) (ha : ¬ Above t.parent new ref)
    (hw : 1 ≤ w) (hw' : w ≤ 257) :
    ∃ q d a l, t.rebindPlain ref new w =
        some ((moved { t with weight := update t.weight ref w } ref old new).dyn q d a l) ∧
      Sound ((moved { t with weight := update t.weight ref w } ref old new).dyn
        q d a l) := by
  have hne : ref ≠ new := fun hq => ha (hq ▸ Above.refl ref)
  have hs := h.setWeight hw hw' ref
  have he : ¬ Sched.isBelow { t with weight := update t.weight ref w } ref t.bound new = true := by
    intro hb
    exact ha ((hs.tree.isBelow_eq hn hne).1 hb)
  obtain ⟨q, d, a, l, hm, hsn⟩ := hs.moveTo href hd hn ha
  refine ⟨q, d, a, l, ?_, hsn⟩
  have hl : Sched.liftNewParent { t with weight := update t.weight ref w } ref new =
      some { t with weight := update t.weight ref w } := by
    rw [liftNewParent, if_neg (fun hc => he hc.2)]
  rw [Sched.rebindPlain, rebindWith, if_pos ⟨href, hne, hw, hw'⟩, if_neg]
  · simp only [hl, bind_eq_bind, bind_some]
    exact hm
  · rw [hd, some.injEq]
    exact fun hc => ho hc.1

/-- The parents once the other children of a node have gone below the added one, if asked for. -/
def adopted (parent : ℕ → Option ℕ) (node added : ℕ) (exclusive : Bool) (n : ℕ) : Option ℕ :=
  if exclusive = true ∧ n ≠ added ∧ parent n = some node then some added else parent n

/-- The children before the added one go below it. -/
theorem Sound.convertToExclusive (h : Sound t)
    (had : t.parent added = some parent) (hr : t.allRefs parent = l ++ [added])
    (hf : l.length < fuel) :
    ∃ t', convertToExclusive fuel t parent added = some t' ∧ Sound t' ∧ t'.opened = t.opened ∧
      t'.weight = t.weight ∧ ∀ n ∈ t.opened, t'.parent n = adopted t.parent parent added true n := by
  induction l generalizing t fuel with
  | nil =>
    obtain ⟨fuel, rfl⟩ : ∃ f, fuel = f + 1 := ⟨fuel - 1, by omega⟩
    refine ⟨t, by simp [Sched.convertToExclusive, hr], h, rfl, rfl, fun n hn => ?_⟩
    rw [adopted, if_neg]
    rintro ⟨-, hna, hnp⟩
    have hmem := (h.tree.mem_refs parent n).2 ⟨hn, hnp⟩
    rw [hr] at hmem
    exact hna (mem_singleton.1 hmem)
  | cons child l ih =>
    obtain ⟨fuel, rfl⟩ : ∃ f, fuel = f + 1 := ⟨fuel - 1, by omega⟩
    have hnd := h.tree.refs_nodup parent
    rw [hr, cons_append, nodup_cons] at hnd
    have hca : child ≠ added := fun he => hnd.1 (he ▸ by simp)
    have hc := (h.tree.mem_refs parent child).1 (by rw [hr]; simp)
    have ha := (h.tree.mem_refs parent added).1 (by rw [hr]; simp)
    have hp := (h.tree.ne_parent ha.1 had).symm
    have hb : ¬ Above t.parent added child := by
      rw [above_iff, had]
      simp only [some.injEq, exists_eq_left', not_or]
      exact ⟨hca.symm, h.tree.not_above_parent hc.1 hc.2⟩
    have hw := h.tree.weight child hc.1
    obtain ⟨q, d, a, lk, hre, hs⟩ := h.rebindPlain hc.1 hc.2 hp (Or.inr ha.1) hb hw.1 hw.2
    have hr' : relink t.allRefs child parent added parent = l ++ [added] := by
      simp only [relink]
      rw [update_of_ne hp, update_self, hr]
      simp
    obtain ⟨t', ht', hs', ho', hw', hp'⟩ := ih hs
      (by simpa [moved, dyn, hca.symm] using had) hr' (Nat.lt_of_succ_lt_succ hf)
    refine ⟨t', ?_, hs', ho', hw'.trans (update_eq_self ..), fun n hn => (hp' n hn).trans ?_⟩
    · rw [Sched.convertToExclusive, hr]
      simp only [cons_append, hca, if_false, hre, bind_eq_bind, bind_some]
      exact ht'
    · by_cases hnc : n = child
      · simp [adopted, moved, dyn, hnc, hca, hc.2, hp.symm]
      · simp [adopted, moved, dyn, hnc]

lemma Sound.convertIf (h : Sound t)
    (ha : t.parent added = some parent) (hr : t.allRefs parent = l ++ [added]) (exclusive : Bool) :
    ∃ t', convertIf exclusive t parent added = some t' ∧ Sound t' ∧ t'.opened = t.opened ∧
      t'.weight = t.weight ∧
      ∀ n ∈ t.opened, t'.parent n = adopted t.parent parent added exclusive n := by
  cases exclusive with
  | false => exact ⟨t, by simp [Sched.convertIf], h, rfl, rfl, fun n _ => by simp [adopted]⟩
  | true =>
    have hlen : l.length < (t.allRefs parent).length + 1 := by
      rw [hr, length_append]
      omega
    obtain ⟨t', ht', hs'⟩ := h.convertToExclusive ha hr hlen
    exact ⟨t', by rw [Sched.convertIf, if_pos rfl, ht'], hs'⟩

open Classical in
/-- The parents once a new parent that depends on the reference has become its sibling. -/
noncomputable def lifted (parent : ℕ → Option ℕ) (ref new : ℕ) : ℕ → Option ℕ :=
  if Above parent new ref then update parent new (parent ref) else parent

/-- The parents after a reprioritisation, by RFC 7540 section 5.3.3. -/
noncomputable def reprioritised (parent : ℕ → Option ℕ) (ref new : ℕ) (exclusive : Bool) :
    ℕ → Option ℕ :=
  adopted (update (lifted parent ref new) ref (some new)) new ref exclusive

include h href hd

lemma Sound.doRebind
    (hn : t.Node new) (ha : ¬ Above t.parent new ref) (exclusive : Bool) :
    ∃ t', t.doRebind ref new exclusive = some t' ∧ Sound t' ∧ t'.opened = t.opened ∧
      t'.weight = t.weight ∧ ∀ n ∈ t.opened,
        t'.parent n = adopted (update t.parent ref (some new)) new ref exclusive n := by
  obtain ⟨q, d, a, l, hm, hs⟩ := h.moveTo href hd hn ha
  have hr : ((moved t ref old new).dyn q d a l).allRefs new =
      update t.allRefs old ((t.allRefs old).erase ref) new ++ [ref] := by
    simp only [moved, dyn, relink, update_self]
  have hp : ((moved t ref old new).dyn q d a l).parent ref = some new :=
    update_self _ _ _
  obtain ⟨t', ht', hs'⟩ := hs.convertIf hp hr exclusive
  refine ⟨t', ?_, hs'⟩
  rw [Sched.doRebind, hm]
  exact ht'

/-- A new parent that depends on the reference becomes its sibling. -/
lemma Sound.liftNewParent (hn : t.Node new) (hne : ref ≠ new) :
    ∃ t', t.liftNewParent ref new = some t' ∧ Sound t' ∧ t'.opened = t.opened ∧
      t'.weight = t.weight ∧ t'.parent = lifted t.parent ref new ∧
      t'.parent ref = some old ∧ ¬ Above t'.parent new ref := by
  obtain ⟨kr, hk⟩ := h.tree.climb ref href
  have hb := h.tree.isBelow_eq hn hne
  by_cases hco : t.allRefs ref ≠ [] ∧ t.isBelow ref t.bound new = true
  · have ha := hb.1 hco.2
    obtain ⟨kn, hkn⟩ := h.tree.climb_node hn
    have hno : new ∈ t.opened := by
      obtain ⟨p, hp, -⟩ := (above_iff.1 ha).resolve_left hne.symm
      exact (h.tree.of_parent hn hp).1
    obtain ⟨pn, hpn, -⟩ := h.tree.parent_open new hno
    have ho := (h.tree.of_parent (Or.inr href) hd).2
    have ht : ¬ Above t.parent old new := by
      intro hon
      exact hne (hk.above_antisymm (hon.head hd) ha)
    obtain ⟨q, d, a, l, hm, hs⟩ := h.moveTo hno hpn ho ht
    refine ⟨_, ?_, hs, rfl, rfl, ?_, ?_, ?_⟩
    · rw [Sched.liftNewParent, if_pos hco, hd]
      exact hm
    · rw [lifted, if_pos ha, hd]
      rfl
    · simpa [moved, dyn, hne] using hd
    · obtain ⟨ko, hko⟩ := h.tree.climb_node ho
      simp only [moved, dyn]
      rw [above_iff, update_self]
      simp only [some.injEq, exists_eq_left', not_or]
      refine ⟨hne.symm, ?_⟩
      rw [above_update_iff hko ht]
      exact h.tree.not_above_parent href hd
  · have ha : ¬ Above t.parent new ref := by
      intro ha
      refine hco ⟨?_, hb.2 ha⟩
      -- what is above another node has a child
      obtain ⟨c, hc⟩ : ∃ c, c ∈ t.allRefs ref := by
        rcases Relation.ReflTransGen.cases_tail ha with he | ⟨c, hcn, hcp⟩
        · exact absurd he hne
        · exact ⟨c, (h.tree.mem_refs ref c).2
            ⟨(h.tree.of_parent (h.tree.above_node hn hcn) hcp).1, hcp⟩⟩
      exact ne_nil_of_mem hc
    exact ⟨t, by rw [Sched.liftNewParent, if_neg hco], h, rfl, rfl, (if_neg ha).symm, hd, ha⟩

omit h href hd

lemma Sound.rebind (h : Sound t) (href : ref ∈ t.opened) (he : t.Node new)
    (hne : ref ≠ new) (hw : 1 ≤ w) (hw' : w ≤ 257) (exclusive : Bool) :
    ∃ t', t.rebind ref new w exclusive = some t' ∧ Sound t' ∧ t'.opened = t.opened ∧
      t'.weight = update t.weight ref w ∧
      ∀ n ∈ t.opened, t'.parent n = reprioritised t.parent ref new exclusive n := by
  obtain ⟨old, hd, -⟩ := h.tree.parent_open ref href
  rw [Sched.rebind, rebindWith, if_pos ⟨href, hne, hw, hw'⟩]
  split
  · next hm =>
    obtain ⟨hp, hg, rfl⟩ := hm
    refine ⟨t, rfl, h, rfl, by rw [← hg, update_eq_self], fun n _ => ?_⟩
    rw [reprioritised, lifted, if_neg (h.tree.not_above_parent href hp), ← hp, update_eq_self]
    simp [adopted]
  · have hs := h.setWeight hw hw' ref
    obtain ⟨t1, ht1, hs1, ho1, hw1, hl1, hp1, ha1⟩ := hs.liftNewParent href hd he hne
    have hr1 : ref ∈ t1.opened := by rw [ho1]; exact href
    have hn1 : t1.Node new := by rw [Node, ho1]; exact he
    obtain ⟨t2, ht2, hs2, ho2, hw2, hp2⟩ := hs1.doRebind hr1 hp1 hn1 ha1 exclusive
    refine ⟨t2, ?_, hs2, ho2.trans ho1, hw2.trans hw1, fun n hn => ?_⟩
    · simp only [ht1, bind_eq_bind, bind_some, ht2]
    · rw [hp2 n (ho1 ▸ hn), hl1]
      rfl

end Vhttp.Http2.Scheduler.Sched
