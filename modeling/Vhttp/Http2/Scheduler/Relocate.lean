import Vhttp.Http2.Scheduler.Ops

/-!
# Relocating a reference

`vhttp_http2_scheduler_relocate` puts a reference that is not open in the place of one that
is: in the tree, in the list of its parent and in the queue. On what is open afterwards, it
renames the tree by `swap src dst`.
-/

namespace Vhttp.Http2.Scheduler.Sched

open ParentTree Function Queue Equiv List Option

variable {t : Sched} {src dst : ℕ}

variable {c q : ℕ} {l : List ℕ}

lemma mem_swapIn (hd : dst ∉ l) : c ∈ swapIn src dst l ↔ swap src dst c ∈ l := by
  simp only [swapIn, List.mem_map]
  constructor
  · rintro ⟨n, hn, rfl⟩
    by_cases hs : n = src
    · rwa [if_pos hs, swap_apply_right, ← hs]
    · rwa [if_neg hs, swap_apply_of_ne_of_ne hs (ne_of_mem_of_not_mem hn hd)]
  · refine fun hc => ⟨_, hc, ?_⟩
    by_cases hcd : c = dst
    · rw [hcd, swap_apply_right, if_pos rfl]
    · have hcs : c ≠ src := by
        rintro rfl
        exact hd (swap_apply_left c dst ▸ hc)
      rw [swap_apply_of_ne_of_ne hcs hcd, if_neg hcs]

lemma swap_mem (hs : src ∉ l) (hd : dst ∉ l) : swap src dst c ∈ l ↔ c ∈ l :=
  (apply_swap_eq_self (v := (· ∈ l)) (by simp [hs, hd]) c).to_iff

lemma nodup_swapIn (hn : l.Nodup) (hd : dst ∉ l) : (swapIn src dst l).Nodup := by
  refine hn.map_on (fun x hx y hy hxy => ?_)
  by_cases hs : x = src <;> by_cases hys : y = src
  · rw [hs, hys]
  · rw [if_pos hs, if_neg hys] at hxy
    exact absurd (hxy ▸ hy) hd
  · rw [if_neg hs, if_pos hys] at hxy
    exact absurd (hxy ▸ hx) hd
  · rwa [if_neg hs, if_neg hys] at hxy

/-- `src` is open under `p`, and `dst` is free. -/
structure Relocation (t : Sched) (dst src p : ℕ) : Prop where
  sound : Sound t
  src_open : src ∈ t.opened
  parent : t.parent src = some p
  dst_closed : dst ∉ t.opened
  dst_ne_root : dst ≠ root

namespace Relocation

variable {p : ℕ} (h : Relocation t dst src p)
include h

lemma parent_ne_src : p ≠ src := (h.sound.tree.ne_parent h.src_open h.parent).symm

lemma parent_node : t.Node p :=
  (h.sound.tree.of_parent (Or.inr h.src_open) h.parent).2

lemma node_ne_dst (hc : t.Node c) : c ≠ dst := by
  rintro rfl
  exact hc.elim h.dst_ne_root h.dst_closed

lemma parent_ne_dst : p ≠ dst := h.node_ne_dst h.parent_node

lemma src_ne_dst : src ≠ dst := h.node_ne_dst (Or.inr h.src_open)

lemma dst_not_mem (q : ℕ) : dst ∉ t.allRefs q := h.sound.tree.not_mem_refs h.dst_closed q

lemma src_mem : src ∈ t.allRefs q ↔ q = p := by
  rw [h.sound.tree.mem_refs, h.parent, some.injEq]
  simp [h.src_open, eq_comm]

lemma src_not_mem_self : src ∉ t.allRefs src := fun hc => h.parent_ne_src (h.src_mem.1 hc).symm

lemma relocate_eq : t.relocate dst src = some (relocated t dst src p) := by
  have ha : (t.allRefs src).all (fun child => t.parent child = some src) = true := by
    rw [List.all_eq_true]
    intro c hc
    simpa using ((h.sound.tree.mem_refs src c).1 hc).2
  rw [relocate, h.parent]
  exact if_pos ha

lemma refs_eq (node : ℕ) : (relocated t dst src p).allRefs node =
    if node = p then swapIn src dst (t.allRefs p)
    else if node = src then [] else if node = dst then t.allRefs src else t.allRefs node := by
  have hp := h.parent_ne_src
  have hd := h.parent_ne_dst
  have hds := h.src_ne_dst.symm
  dsimp only [relocated]
  by_cases hn : node = p
  · subst hn
    simp [hp, hd]
  · by_cases hs : node = src
    · simp [hs, hp.symm]
    · by_cases hnd : node = dst
      · simp [hnd, hd.symm, hds]
      · simp [hn, hs, hnd]

/-! ## Where things are after it -/

lemma swap_root : swap src dst root = root := by
  refine swap_apply_of_ne_of_ne ?_ h.dst_ne_root.symm
  rintro rfl
  exact h.sound.tree.root_closed h.src_open

lemma swap_parent : swap src dst p = p :=
  swap_apply_of_ne_of_ne h.parent_ne_src h.parent_ne_dst

lemma mem_opened : c ∈ (relocated t dst src p).opened ↔ swap src dst c ∈ t.opened :=
  mem_swapIn h.dst_closed

lemma mem_refs :
    c ∈ (relocated t dst src p).allRefs q ↔ swap src dst c ∈ t.allRefs (swap src dst q) := by
  rw [h.refs_eq]
  by_cases hq : q = p
  · rw [if_pos hq, hq, h.swap_parent]
    exact mem_swapIn (h.dst_not_mem p)
  rw [if_neg hq]
  by_cases hs : q = src
  · rw [if_pos hs, hs, swap_apply_left, h.sound.tree.refs_closed h.dst_closed h.dst_ne_root]
    simp
  rw [if_neg hs]
  by_cases hd : q = dst
  · rw [if_pos hd, hd, swap_apply_right]
    exact (swap_mem h.src_not_mem_self (h.dst_not_mem src)).symm
  · rw [if_neg hd, swap_apply_of_ne_of_ne hs hd]
    exact (swap_mem (fun hm => hq (h.src_mem.1 hm)) (h.dst_not_mem q)).symm

lemma parent_of (hc : t.Node c) :
    (relocated t dst src p).parent (swap src dst c) = (t.parent c).map (swap src dst) := by
  have hd := h.node_ne_dst hc
  by_cases hs : c = src
  · rw [hs, swap_apply_left, h.parent]
    simp [relocated, h.dst_not_mem, h.swap_parent]
  rw [swap_apply_of_ne_of_ne hs hd]
  simp only [relocated, h.sound.tree.mem_refs, hd, if_false]
  split
  · next hm => simp [hm.2]
  · next hm =>
    cases hq : t.parent c with
    | none => rfl
    | some q =>
      obtain ⟨ho, hn⟩ := h.sound.tree.of_parent hc hq
      have hqs : q ≠ src := fun he => hm ⟨ho, he ▸ hq⟩
      have hqd := h.node_ne_dst hn
      rw [map_some, swap_apply_of_ne_of_ne hqs hqd]

/-- What a reference has, it has under its new name. -/
lemma update_of {β : Type*} (f : ℕ → β) (hc : swap src dst c ∈ t.opened) :
    update f dst (f src) c = f (swap src dst c) := by
  by_cases hd : c = dst
  · rw [hd, update_self, swap_apply_right]
  · have hs : c ≠ src := by
      rintro rfl
      exact h.dst_closed (swap_apply_left c dst ▸ hc)
    rw [update_of_ne hd, swap_apply_of_ne_of_ne hs hd]

lemma climb {n k : ℕ} (hn : t.Node n) (hk : Climb t.parent n k) :
    Climb (relocated t dst src p).parent (swap src dst n) k := by
  induction hk with
  | root hr => exact .root (by rw [h.parent_of hn, hr, map_none])
  | @up n q k hq _ ih =>
    refine .up ?_ (ih (h.sound.tree.of_parent hn hq).2)
    rw [h.parent_of hn, hq, map_some]

lemma tree : Tree (relocated t dst src p) := by
  have ht := h.sound.tree
  have hp : ∀ c, swap src dst c ∈ t.opened →
      (relocated t dst src p).parent c = (t.parent (swap src dst c)).map (swap src dst) := by
    intro c hc
    rw [← h.parent_of (Or.inr hc), swap_apply_self]
  constructor
  case root_parent =>
    have hrt := h.parent_of (Or.inl rfl)
    rwa [h.swap_root, ht.root_parent, map_none] at hrt
  case root_closed =>
    rw [h.mem_opened, h.swap_root]
    exact ht.root_closed
  case nodup => exact nodup_swapIn ht.nodup h.dst_closed
  case refs_nodup =>
    intro q
    rw [h.refs_eq]
    split_ifs
    · exact nodup_swapIn (ht.refs_nodup p) (h.dst_not_mem p)
    · exact nodup_nil
    · exact ht.refs_nodup src
    · exact ht.refs_nodup q
  case mem_refs =>
    intro q c
    rw [h.mem_refs, ht.mem_refs, h.mem_opened]
    refine and_congr_right fun hc => ?_
    rw [hp c hc, map_eq_some_iff]
    refine ⟨fun hq => ⟨_, hq, swap_apply_self _ _ _⟩, ?_⟩
    rintro ⟨q, hq, rfl⟩
    rw [hq, swap_apply_self]
  case parent_open =>
    intro c hc
    rw [h.mem_opened] at hc
    obtain ⟨q, hq, hn⟩ := ht.parent_open _ hc
    refine ⟨swap src dst q, by rw [hp c hc, hq, map_some], ?_⟩
    rw [h.mem_opened, swap_apply_self]
    exact hn.imp_left fun hr => by rw [hr, h.swap_root]
  case climb =>
    intro c hc
    rw [h.mem_opened] at hc
    obtain ⟨k, hk⟩ := ht.climb _ hc
    have hl := h.climb (Or.inr hc) hk
    rw [swap_apply_self] at hl
    exact ⟨k, hl⟩
  case weight =>
    intro c hc
    rw [h.mem_opened] at hc
    simp only [relocated, h.update_of t.weight hc]
    exact ht.weight _ hc

/-! ## Activity -/

lemma opened_of_mem_refs (hc : c ∈ (relocated t dst src p).allRefs q) :
    swap src dst c ∈ t.opened :=
  h.sound.tree.lists.opened _ _ (h.mem_refs.1 hc)

lemma activeChildren_eq (n : ℕ) :
    (relocated t dst src p).activeChildren n = t.activeChildren (swap src dst n) := by
  have hp : ((relocated t dst src p).allRefs n).Perm
      ((t.allRefs (swap src dst n)).map (swap src dst)) := by
    refine (perm_ext_iff_of_nodup (h.tree.refs_nodup n)
      ((h.sound.tree.refs_nodup _).map (swap src dst).injective)).2 fun c => ?_
    rw [h.mem_refs, mem_map_of_involutive (swap_apply_self src dst)]
  simp only [activeChildren]
  rw [hp.countP_eq, countP_map]
  refine countP_congr fun c hc => ?_
  have ho := h.sound.tree.lists.opened _ _ hc
  rw [← swap_apply_self src dst c] at ho
  simp only [comp_apply, relocated, h.update_of t.activeCnt ho, swap_apply_self]

lemma link_dst : t.link dst = none := h.sound.link_closed h.dst_closed

lemma link_ne_dst (c : ℕ) : t.link c ≠ some dst :=
  h.sound.link_ne_of_refs_nil (h.sound.tree.refs_closed h.dst_closed h.dst_ne_root) c

lemma link_self : t.link src ≠ some src :=
  fun hl => h.src_not_mem_self ((h.sound.counts.linked src src).1 hl).1

lemma link_iff : (relocated t dst src p).link c = some q ↔
    t.link (swap src dst c) = some (swap src dst q) := by
  have hd := h.link_dst
  have hs := h.link_self
  simp only [relocated]
  by_cases hcs : c = src
  · simp [hcs, hd]
  rw [if_neg hcs]
  by_cases hc : c = dst
  · rw [if_pos hc, hc, swap_apply_right]
    by_cases hqs : q = src
    · simp [hqs, hs, h.link_ne_dst]
    · by_cases hq : q = dst
      · simp [hq, hs, h.link_ne_dst]
      · rw [swap_apply_of_ne_of_ne hqs hq]
  · rw [if_neg hc, swap_apply_of_ne_of_ne hcs hc]
    by_cases hqs : q = src
    · have hsd := h.src_ne_dst
      have hn := h.link_ne_dst c
      split <;> simp_all [eq_comm]
    · by_cases hq : q = dst
      · simp [hq, h.link_ne_dst]
      · rw [swap_apply_of_ne_of_ne hqs hq]
        split
        · next hl => simp [hl, Ne.symm hqs, Ne.symm hq]
        · rfl

lemma counts : Counts (relocated t dst src p) (fun _ => 0) where
  cnt n hn := by
    rw [h.mem_opened] at hn
    rw [h.activeChildren_eq]
    simp only [relocated, h.update_of t.activeCnt hn, h.update_of t.selfIsActive hn]
    exact h.sound.counts.cnt _ hn
  linked c q := by
    rw [h.link_iff, h.sound.counts.linked, ← h.mem_refs]
    refine and_congr_right fun hc => ?_
    simp only [relocated, h.update_of t.activeCnt (h.opened_of_mem_refs hc)]

lemma queued : Queued (relocated t dst src p) := by
  have hq := h.sound.queued
  have hds := h.src_ne_dst.symm
  have hd := h.link_dst
  have hs := h.link_self
  intro n c
  simp only [h.link_iff]
  simp only [getQueue, relocated, relocateQueue]
  by_cases hns : n = src
  · rw [hns, update_self, getD_none, count_init, swap_apply_left, if_neg (h.link_ne_dst _)]
  rw [update_of_ne hns]
  by_cases hnd : n = dst
  · have hl : ((if t.allRefs src = [] then none else t.queue src).getD Queue.init).count c =
        if t.link c = some src then 1 else 0 := by
      split
      · next hn => simp [h.sound.link_ne_of_refs_nil hn c]
      · exact hq src c
    rw [hnd, update_self, if_neg hs, swap_apply_right, hl]
    exact (apply_swap_eq_self (v := fun c => if t.link c = _ then 1 else 0) (by simp [hs, hd]) c).symm
  rw [update_of_ne hnd, swap_apply_of_ne_of_ne hns hnd]
  have hc := hq n
  simp only [getQueue] at hc
  by_cases hln : t.link src = some n
  · obtain ⟨qn, hqn⟩ : ∃ qn, t.queue n = some qn := by
      cases hqn : t.queue n with
      | none =>
        have ho := hc src
        rw [hqn, hln] at ho
        simp at ho
      | some qn => exact ⟨qn, rfl⟩
    rw [hqn, getD_some] at hc
    rw [if_pos hln, hqn, map_some, getD_some, count_replace hds (by rw [hc, hd]; simp), hc, hc]
    by_cases hcd : c = dst
    · simp [hcd]
    · by_cases hcs : c = src
      · simp [hcs, h.src_ne_dst, hd]
      · rw [if_neg hcd, if_neg hcs, swap_apply_of_ne_of_ne hcs hcd]
  · rw [if_neg hln, hc]
    exact (apply_swap_eq_self (v := fun c => if t.link c = _ then 1 else 0) (by simp [hln, hd]) c).symm

end Relocation

lemma Sound.relocate (h : Sound t) (hs : src ∈ t.opened) (hd : dst ∉ t.opened)
    (ht : dst ≠ root) : ∃ t', t.relocate dst src = some t' ∧ Sound t' := by
  obtain ⟨p, hp, -⟩ := h.tree.parent_open src hs
  have hr : Relocation t dst src p := ⟨h, hs, hp, hd, ht⟩
  exact ⟨_, hr.relocate_eq, hr.tree, hr.queued, hr.counts⟩

end Vhttp.Http2.Scheduler.Sched
