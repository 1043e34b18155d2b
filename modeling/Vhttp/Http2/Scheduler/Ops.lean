import Vhttp.Http2.Scheduler.Tree

/-!
# The operations of the scheduler

Opening, closing, relocating and activating references, and running the scheduler, all lead
from one sound state to another.
-/

namespace Vhttp.Http2.Scheduler.Sched

open ParentTree Function List Option Nat

variable {t : Sched} {ref : ℕ}

/-! ## References that are not open -/

lemma Tree.not_mem_refs (h : Tree t) (he : ref ∉ t.opened) (p : ℕ) : ref ∉ t.allRefs p :=
  fun hmem => he ((h.mem_refs p ref).1 hmem).1

lemma Tree.refs_closed (h : Tree t) (he : ref ∉ t.opened) (hr : ref ≠ root) :
    t.allRefs ref = [] := by
  refine eq_nil_iff_forall_not_mem.2 (fun c hc => ?_)
  obtain ⟨ho, hp⟩ := (h.mem_refs ref c).1 hc
  exact (h.of_parent (Or.inr ho) hp).2.elim hr he

variable (h : Sound t)
include h

lemma Sound.link_closed (he : ref ∉ t.opened) : t.link ref = none := by
  cases hl : t.link ref with
  | none => rfl
  | some p => exact absurd ((h.counts.linked ref p).1 hl).1 (h.tree.not_mem_refs he p)

/-- Nothing is linked to a node without children. -/
lemma Sound.link_ne_of_refs_nil (hr : t.allRefs ref = []) (c : ℕ) : t.link c ≠ some ref := by
  intro hl
  have hmem := ((h.counts.linked c ref).1 hl).1
  rw [hr] at hmem
  cases hmem

/-- The queue of a node without children can be dropped. -/
lemma Sound.queued_drop (hr : t.allRefs ref = []) :
    Queued { t with queue := update t.queue ref none } := by
  intro n c
  by_cases hn : n = ref
  · subst hn
    simp [getQueue, h.link_ne_of_refs_nil hr c]
  · simp only [getQueue, update_of_ne hn]
    exact h.queued n c

omit h

/-! ## Opening -/

/-- The lists of children after a reference without children has been linked. -/
lemma Tree.link₁_refs (h : Tree t) {parent w : ℕ} (he : ref ∉ t.opened) (hr : ref ≠ root) :
    (t.link₁ ref parent w).allRefs = relink t.allRefs ref ref parent := by
  have hn := h.refs_closed he hr
  simp only [Sched.link₁, relink, hn, erase_nil]

lemma Tree.link₁ (h : Tree t) {parent w : ℕ} (he : ref ∉ t.opened) (hr : ref ≠ root)
    (ht : t.Node parent) (hw : 1 ≤ w) (hw' : w ≤ 257) :
    Tree (t.link₁ ref parent w) := by
  refine h.place hr (fun p hp => absurd hp (h.not_mem_refs he p)) ht (fun ha => ?_)
    (nodup_cons.2 ⟨he, h.nodup⟩) (fun _ => mem_cons) rfl (h.link₁_refs he hr)
    (fun c hc => ?_)
  · exact (h.above_node ht ha).elim hr he
  · simp only [Sched.link₁, mem_cons] at hc ⊢
    by_cases hcr : c = ref
    · subst hcr
      rw [update_self]
      exact ⟨hw, hw'⟩
    · rw [update_of_ne hcr]
      exact h.weight c (hc.resolve_left hcr)

include h

lemma Sound.link₁ {parent w : ℕ} (he : ref ∉ t.opened) (hr : ref ≠ root)
    (hp : t.Node parent) (hw : 1 ≤ w) (hw' : w ≤ 257) :
    Sound (t.link₁ ref parent w) := by
  have htr := h.tree.link₁ he hr hp hw hw'
  have hi := h.tree.refs_closed he hr
  refine ⟨htr, ?_, ?_, ?_⟩
  · intro n c
    have hd := h.queued_drop hi n c
    simp only [Sched.link₁] at hd ⊢
    by_cases hc : c = ref
    · subst hc
      rw [h.link_closed he] at hd
      simpa [getQueue] using hd
    · simpa [getQueue, hc] using hd
  · intro n hn
    have hh : (t.link₁ ref parent w).activeChildren n = t.activeChildren n := by
      have ht : ((relink t.allRefs ref ref parent n).countP
          fun c => update t.activeCnt ref 0 c != 0 : ℤ) = _ :=
        countP_relink _ (.inr (by simp)) n
      rw [countP_update (h.tree.refs_nodup n), if_neg (h.tree.not_mem_refs he n)] at ht
      rw [activeChildren, h.tree.link₁_refs he hr]
      simpa [activeChildren, Sched.link₁] using ht
    rw [hh]
    by_cases hnr : n = ref
    · subst hnr
      simp [Sched.link₁, activeChildren, hi]
    · simpa [Sched.link₁, hnr] using h.counts.cnt n ((mem_cons.1 hn).resolve_left hnr)
  · intro c p
    rw [htr.mem_refs]
    simp only [Sched.link₁, mem_cons]
    by_cases hc : c = ref
    · subst hc
      simp
    · simp only [update_of_ne hc, hc, false_or]
      rw [h.counts.linked, h.tree.mem_refs]

lemma Sound.openRef {parent w : ℕ} (he : ref ∉ t.opened) (hr : ref ≠ root)
    (hp : t.Node parent) (hw : 1 ≤ w) (hw' : w ≤ 257) (exclusive : Bool) :
    ∃ t', t.openRef ref parent w exclusive = some t' ∧ Sound t' := by
  have hs := h.link₁ he hr hp hw hw'
  have ha : (t.link₁ ref parent w).parent ref = some parent := update_self _ _ _
  have hf : (t.link₁ ref parent w).allRefs parent =
      update t.allRefs ref [] parent ++ [ref] := update_self _ _ _
  obtain ⟨t', ht', hs', -⟩ := hs.convertIf ha hf exclusive
  exact ⟨t', ht', hs'⟩

omit h

/-! ## Activating -/

/-- The error of the counts when a reference's own activity has changed. -/
lemma Sound.counts_self (h : Sound t) (b : Bool) :
    Counts { t with selfIsActive := update t.selfIsActive ref b }
      (fun m => if m = ref then (b.toNat : ℤ) - (t.selfIsActive ref).toNat else 0) := by
  refine ⟨fun n hn => ?_, h.counts.linked⟩
  have hc := h.counts.cnt n hn
  simp only [activeChildren] at hc ⊢
  by_cases hr : n = ref
  · subst hr
    simp only [update_self, if_true]
    linarith
  · simp only [update_of_ne hr, hr, if_false]
    exact hc

variable (he : ref ∈ t.opened)
include h he

lemma Sound.activate : ∃ t', t.activate ref = some t' ∧ Sound t' := by
  by_cases hs : t.selfIsActive ref = true
  · exact ⟨t, by simp [Sched.activate, hs], h⟩
  · obtain ⟨k, hk, hu⟩ := h.tree.up_self (Or.inr he)
    have hh : SameShape t { t with
        selfIsActive := update t.selfIsActive ref true } := ⟨rfl, rfl, rfl, rfl⟩
    rw [Sched.activate, if_neg hs]
    refine (incr_spec (hu.congr hh) hk (h.tree.lists.congr hh) h.queued
      (h.counts_self true)).sound (h.tree.congr hh) fun m => ?_
    rw [Bool.eq_false_of_not_eq_true hs]
    split <;> simp

lemma Sound.deactivate : ∃ t', t.deactivate ref = some t' ∧ Sound t' := by
  by_cases hs : t.selfIsActive ref = true
  · obtain ⟨k, hk, hu⟩ := h.tree.up_self (Or.inr he)
    have hh : SameShape t { t with
        selfIsActive := update t.selfIsActive ref false } := ⟨rfl, rfl, rfl, rfl⟩
    have hpos : t.activeCnt ref ≠ 0 := by
      have hc := h.counts.cnt ref he
      rw [hs] at hc
      intro hz
      rw [hz] at hc
      push_cast [Bool.toNat_true] at hc
      omega
    rw [Sched.deactivate, if_pos hs]
    refine (decr_spec (hu.congr hh) hk (h.tree.lists.congr hh) h.queued
      (h.counts_self false) (fun _ => hpos) (h.above_active (Or.inr he))).sound
        (h.tree.congr hh) fun m => ?_
    rw [hs]
    split <;> simp
  · exact ⟨t, by simp [Sched.deactivate, hs], h⟩

omit h he

/-! ## Closing -/

lemma childWeight_range (f w : ℕ) : 1 ≤ childWeight f w ∧ childWeight f w ≤ 257 := by
  simp only [childWeight]
  split
  · omega
  · split <;> omega

/-- The weight given to a child is its share of the weight of the reference, up to one. -/
lemma childWeight_near {f own sum weight : ℕ} (ho : own ≤ 257) (hle : weight ≤ sum)
    (hpos : 0 < weight) (hw : weight ≤ 257) (hf : f = (own * 65536 + sum / 2) / sum) :
    weight * f < 2 ^ 32 ∧ (weight * f / 32768 + 1) / 2 < 2 ^ 16 ∧ childWeight f weight ≤ 256 ∧
      |(childWeight f weight : ℚ) - max 1 (min 256 (own * weight / sum : ℚ))| ≤ 1 := by
  have hs : (0 : ℚ) < sum := by exact_mod_cast hpos.trans_le hle
  -- the product is the share in 1/65536, with an error of at most the weight
  have hl : own * 65536 ≤ (f + 1) * sum := by
    have := lt_div_mul_add (a := own * 65536 + sum / 2) (hpos.trans_le hle)
    rw [hf, succ_mul]
    omega
  have hi : f * sum ≤ own * 65536 + sum := by
    have := div_mul_le_self (own * 65536 + sum / 2) sum
    rw [hf]
    omega
  have hh : (own * weight / sum : ℚ) ≤ 257 := by
    rw [div_le_iff₀ hs]
    exact_mod_cast Nat.mul_le_mul ho hle
  have hw' : (weight : ℚ) ≤ 257 := by exact_mod_cast hw
  have hn : (0 : ℚ) ≤ weight := cast_nonneg weight
  have hu : (weight * f : ℚ) ≤ 65536 * (own * weight / sum) + weight := by
    have hm := mul_le_mul_of_nonneg_left (cast_le (α := ℚ).2 hi) hn
    push_cast at hm
    rw [← mul_div_assoc, div_add' _ _ _ hs.ne', le_div_iff₀ hs]
    linarith
  have hd : 65536 * (own * weight / sum) ≤ (weight * f : ℚ) + weight := by
    have hm := mul_le_mul_of_nonneg_left (cast_le (α := ℚ).2 hl) hn
    push_cast at hm
    rw [← mul_div_assoc, div_le_iff₀ hs]
    linarith
  have hp : weight * f ≤ 65536 * 257 + 257 := by
    have hp : (weight * f : ℚ) ≤ 65536 * 257 + 257 := by linarith
    exact_mod_cast hp
  have hc : childWeight f weight = max 1 (min 256 ((weight * f / 32768 + 1) / 2)) := by
    simp only [childWeight, mod_eq_of_lt (show weight * f < 2 ^ 32 by omega)]
    split_ifs <;> omega
  refine ⟨by omega, by omega, by omega, ?_⟩
  have hv1 : (65536 * ((weight * f / 32768 + 1) / 2 : ℕ) : ℚ) ≤ weight * f + 32768 := by
    exact_mod_cast (by omega : 65536 * ((weight * f / 32768 + 1) / 2) ≤ weight * f + 32768)
  have hv2 : (weight * f : ℚ) ≤ 65536 * ((weight * f / 32768 + 1) / 2 : ℕ) + 32768 := by
    exact_mod_cast (by omega : weight * f ≤ 65536 * ((weight * f / 32768 + 1) / 2) + 32768)
  rw [hc, cast_max, cast_min, cast_one, cast_ofNat]
  refine (abs_max_sub_max_le_max ..).trans (max_le (by simp) ?_)
  refine (abs_min_sub_min_le_max ..).trans (max_le (by simp) (abs_le.2 ⟨?_, ?_⟩)) <;> linarith

/-- The children of a reference become children of its parent, one after the other. -/
lemma Sound.raiseChildren {f p : ℕ} {l : List ℕ} (h : Sound t) (he : ref ∈ t.opened)
    (hp : t.parent ref = some p) (hr : t.allRefs ref = l) :
    ∃ t', raiseChildren f ref p l.length t = some t' ∧ Sound t' ∧ t'.opened = t.opened ∧
      t'.allRefs ref = [] ∧ ∀ n, t'.parent n = (if n ∈ l then some p else t.parent n) ∧
        t'.weight n = if n ∈ l then childWeight f (t.weight n) else t.weight n := by
  induction l generalizing t with
  | nil => exact ⟨t, by simp [Sched.raiseChildren, hr], h, rfl, hr, by simp⟩
  | cons child l ih =>
    have hc := (h.tree.mem_refs ref child).1 (by rw [hr]; simp)
    have hrp := h.tree.ne_parent he hp
    have hcr := h.tree.ne_parent hc.1 hc.2
    have hn := (h.tree.of_parent (Or.inr he) hp).2
    have hb : ¬ Above t.parent p child :=
      fun ha => h.tree.not_above_parent hc.1 hc.2 (ha.head hp)
    have hw := childWeight_range f (t.weight child)
    obtain ⟨q, d, a, lk, hre, hs⟩ := h.rebindPlain hc.1 hc.2 hrp hn hb hw.1 hw.2
    have hf' : relink t.allRefs child ref p ref = l := by
      simp only [relink]
      rw [update_of_ne hrp, update_self, hr]
      simp
    obtain ⟨t', ht', hs', ho', hr', hn'⟩ := ih hs he (by simpa [moved, dyn, hcr.symm] using hp) hf'
    refine ⟨t', ?_, hs', ho', hr', fun n => ?_⟩
    · rw [length_cons, Sched.raiseChildren, hr]
      simp only [hre, bind_eq_bind, bind_some]
      exact ht'
    · obtain ⟨hp', hw'⟩ := hn' n
      rw [hp', hw']
      by_cases hnc : n = child
      · have hl : n ∉ l := hnc ▸ (nodup_cons.1 (hr ▸ h.tree.refs_nodup ref)).1
        simp [moved, dyn, hnc ▸ hl, hnc]
      · simp [moved, dyn, hnc]

lemma Sound.weight_le_sum {c : ℕ} (h : Sound t) (hc : c ∈ t.allRefs ref) :
    (1 ≤ t.weight c ∧ t.weight c ≤ 257) ∧ t.weight c ≤ ((t.allRefs ref).map t.weight).sum :=
  ⟨h.tree.weight c ((h.tree.mem_refs ref c).1 hc).1,
    single_le_sum (fun _ _ => zero_le _) _ (List.mem_map_of_mem hc)⟩

/-- The state without a leaf. -/
abbrev detached (t : Sched) (ref parent : ℕ) : Sched :=
  { t with
    queue := update t.queue ref none
    allRefs := update t.allRefs parent ((t.allRefs parent).erase ref)
    opened := t.opened.erase ref }

lemma Tree.detach (h : Tree t) {p : ℕ} (hp : t.parent ref = some p)
    (hr : t.allRefs ref = []) : Tree (t.detached ref p) := by
  have hs : ∀ c ∈ t.opened.erase ref, c ∈ t.opened := fun c hc => mem_of_mem_erase hc
  constructor
  case root_parent => exact h.root_parent
  case root_closed => exact fun hc => h.root_closed (hs root hc)
  case nodup => exact h.nodup.erase ref
  case refs_nodup => exact unlink_nodup h.refs_nodup
  case mem_refs =>
    intro q c
    simp only [h.nodup.mem_erase_iff, mem_unlink h.refs_nodup (h.own hp), h.mem_refs, and_assoc]
  case parent_open =>
    intro c hc
    obtain ⟨q, hq, hn⟩ := h.parent_open c (hs c hc)
    refine ⟨q, hq, hn.imp id (fun ho => ?_)⟩
    refine (h.nodup.mem_erase_iff).2 ⟨?_, ho⟩
    rintro rfl
    have hmem := (h.mem_refs q c).2 ⟨hs c hc, hq⟩
    rw [hr] at hmem
    cases hmem
  case climb => exact fun c hc => h.climb c (hs c hc)
  case weight => exact fun c hc => h.weight c (hs c hc)

include h he

/-- The counts without the leaf: its parent has one active child less if it was active. -/
lemma Sound.counts_detach {p : ℕ}
    (hp : t.parent ref = some p) {q : ℕ → Option Queue} {d : ℕ → ℕ} :
    Counts ((t.detached ref p).dyn q d t.activeCnt (update t.link ref none))
      (fun m => if m = p then (if t.activeCnt ref = 0 then 0 else -1) else 0) := by
  have hmem : ref ∈ t.allRefs p := (h.tree.mem_refs p ref).2 ⟨he, hp⟩
  constructor
  case cnt =>
    intro n hn
    have ht := h.counts.cnt n (mem_of_mem_erase hn)
    have hh := countP_unlink (fun c => t.activeCnt c != 0) (.inl hmem) n
    simp only [activeChildren, dyn] at ht ⊢
    rw [hh]
    by_cases hnp : n = p <;> by_cases ha : t.activeCnt ref = 0 <;> simp [hnp, ha] at ht ⊢ <;>
      linarith
  case linked =>
    intro c r
    simp only [dyn, mem_unlink h.tree.refs_nodup (h.tree.own hp)]
    by_cases hc : c = ref
    · simp [hc]
    · simp [hc, h.counts.linked]

lemma Sound.detachSelf {p : ℕ} (hp : t.parent ref = some p) (hf : t.allRefs ref = []) :
    ∃ t', t.detachSelf ref p = some t' ∧ Sound t' ∧ SameShape (t.detached ref p) t' := by
  have ht := h.tree.detach hp hf
  have hmem : ref ∈ t.allRefs p := (h.tree.mem_refs p ref).2 ⟨he, hp⟩
  have hc : t.activeCnt ref = (t.selfIsActive ref).toNat := by
    have hc := h.counts.cnt ref he
    rw [activeChildren, hf] at hc
    simpa using hc
  by_cases hs : t.selfIsActive ref = true
  · rw [hs, Bool.toNat_true] at hc
    have hl : t.link ref = some p := (h.counts.linked ref p).2 ⟨hmem, by omega⟩
    have hn := (h.tree.of_parent (Or.inr he) hp).2
    have hpn : p = root ∨ p ∈ t.opened.erase ref := hn.imp_right fun ho =>
      h.tree.nodup.mem_erase_iff.2 ⟨(h.tree.ne_parent he hp).symm, ho⟩
    obtain ⟨q1, hu, hq1⟩ := queueUnset_spec
      (show Queued (t.detached ref p) from h.queued_drop hf) hl
    have hc1 := h.counts_detach (q := q1) (d := t.deficit) he hp
    obtain ⟨k, hk, hup⟩ := ht.up_self hpn
    simp only [Sched.detachSelf, hs, hc, if_true]
    rw [hu]
    obtain ⟨t', ht', hs', hh⟩ := (decr_spec (hup.congr (sameShape_dyn ..)) hk
      (ht.lists.congr (sameShape_dyn ..)) hq1 hc1
      (fun ho => h.parent_active hmem (mem_of_mem_erase ho) (by omega))
      (fun m r hm hr ho => h.above_active hn m r hm hr (mem_of_mem_erase ho))).sound_shape
        (ht.congr (sameShape_dyn ..)) (fun m => by split <;> simp [hc])
    exact ⟨t', ht', hs', ⟨hh.parent, hh.allRefs, hh.weight, hh.opened⟩⟩
  · rw [Bool.not_eq_true] at hs
    rw [hs, Bool.toNat_false] at hc
    have hc1 := h.counts_detach (q := update t.queue ref none) (d := t.deficit) he hp
    rw [← h.counts.link_none hc, update_eq_self] at hc1
    refine ⟨_, ?_, ⟨ht, h.queued_drop hf, ?_⟩, ⟨rfl, rfl, rfl, rfl⟩⟩
    · simp only [Sched.detachSelf, hs, Bool.false_eq_true, if_false, hc, if_true]
    · have hc2 : Counts _ (fun _ => 0) := hc1.congr (fun m _ => by simp [hc])
      exact ⟨hc2.cnt, hc2.linked⟩

/-- The children of a reference that is closed go to its parent with new weights. -/
lemma Sound.close (ht : t.allRefs ref ≠ [] → t.totalWeight ref ≠ 0) :
    ∃ t', t.close ref = some t' ∧ Sound t' ∧ t'.opened = t.opened.erase ref ∧
      ∀ n, t'.parent n = (if n ∈ t.allRefs ref then t.parent ref else t.parent n) ∧
        t'.weight n = if n ∈ t.allRefs ref then childWeight (t.factor ref) (t.weight n)
          else t.weight n := by
  obtain ⟨p, hp, -⟩ := h.tree.parent_open ref he
  by_cases hr : t.allRefs ref = []
  · obtain ⟨t', ht', hs', hs⟩ := h.detachSelf he hp hr
    refine ⟨t', ?_, hs', hs.opened, fun n => ?_⟩
    · simp only [Sched.close, hp, bind_eq_bind, bind_some, he, hr, if_true]
      exact ht'
    · simp [hr, hs.parent, hs.weight]
  · have hpos := ht hr
    obtain ⟨t1, ht1, hs1, ho1, hr1, hn1⟩ := h.raiseChildren (f := t.factor ref) he hp rfl
    have he1 : ref ∈ t1.opened := by rw [ho1]; exact he
    have hp1 : t1.parent ref = some p := by
      rw [(hn1 ref).1]
      split
      · rfl
      · exact hp
    obtain ⟨t', ht', hs', hs⟩ := hs1.detachSelf he1 hp1 hr1
    refine ⟨t', ?_, hs', ?_, fun n => ?_⟩
    · simp only [Sched.close, hp, bind_eq_bind, bind_some, he, if_true, hr, if_false, hpos, ht1]
      exact ht'
    · rw [hs.opened, detached, ho1]
    · rw [hs.parent, hs.weight, hp]
      exact hn1 n

end Vhttp.Http2.Scheduler.Sched
