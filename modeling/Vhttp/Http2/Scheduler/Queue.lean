import Vhttp.Bytes

/-!
# The queue of the HTTP/2 scheduler

The model of the queue in `lib/http2/scheduler.c`: sixty-four lists on a wheel, a bit for each
that may hold something, and one list that goes before them. A node of weight `w` is put about
`63 / w` places ahead of the current one; what is cut off by the division stays with the node
as its deficit.

* `count_set`, `count_unlink`, `count_pop`: what each operation does to the nodes in the queue.
-/

namespace Vhttp.Http2.Scheduler

open Function Finset

/-- `OFFSET_TABLE`: `65536 * 63 / weight`, rounded, and zero for the weight 257. -/
def offsetTable : List ℕ :=
  (List.range 256).map (fun i => (2 * 65536 * 63 + i + 1) / (2 * (i + 1))) ++ [0]

/-- A `vhttp_http2_scheduler_queue_t`; nodes are linked at the end of a list and taken from its
front. -/
structure Queue where
  bits : BitVec 64
  offset : ℕ
  anchors : ℕ → List ℕ
  anchor257 : List ℕ

namespace Queue

/-- `queue_init`. -/
def init : Queue := ⟨0, 0, fun _ => [], []⟩

/-- `queue_is_empty`. -/
def isEmpty (q : Queue) : Bool := q.bits = 0 ∧ q.anchor257 = []

/-- `queue_set`, for a node that is not linked: the queue and the node's new deficit. -/
def set (q : Queue) (node weight deficit : ℕ) : Option (Queue × ℕ) :=
  if 256 < weight then
    some ({ q with anchor257 := q.anchor257 ++ [node] }, deficit)
  else if weight < 1 then none
  else
    let sum := offsetTable.getD (weight - 1) 0 + deficit
    let offset := sum / 65536
    let slot := (q.offset + offset) % 64
    some ({ q with
      bits := q.bits ||| 1 <<< (63 - offset)
      anchors := Function.update q.anchors slot (q.anchors slot ++ [node]) }, sum % 65536)

/-- `vhttp_linklist_unlink` of a node of the queue; it is in one of the lists. -/
def unlink (q : Queue) (node : ℕ) : Queue :=
  { q with
    anchors := fun i => (q.anchors i).erase node
    anchor257 := q.anchor257.erase node }

/-- The bits but the highest. -/
def clearTop (bits : BitVec 64) : BitVec 64 := bits &&& (1 <<< 63 - 1)

/-- The loop of `queue_pop`; each turn clears a bit. -/
def popLoop : ℕ → Queue → Queue × Option ℕ
  | 0, q => (q, none)
  | n + 1, q =>
    if q.bits = 0 then (q, none)
    else
      let zeroes := q.bits.clz.toNat
      let bits := q.bits <<< zeroes
      let offset := (q.offset + zeroes) % 64
      match q.anchors offset with
      | node :: nodes =>
        ({ q with
          bits := if nodes = [] then clearTop bits else bits
          offset := offset
          anchors := Function.update q.anchors offset nodes }, some node)
      | [] => popLoop n { q with bits := clearTop bits, offset := offset }

/-- `queue_pop`. -/
def pop (q : Queue) : Queue × Option ℕ :=
  match q.anchor257 with
  | node :: nodes => ({ q with anchor257 := nodes }, some node)
  | [] => popLoop 64 q

/-- `dst` for `src`. -/
def swapIn (src dst : ℕ) (l : List ℕ) : List ℕ := l.map (fun n => if n = src then dst else n)

/-- A node takes the place of another. -/
def replace (q : Queue) (src dst : ℕ) : Queue :=
  { q with
    anchors := fun i => swapIn src dst (q.anchors i)
    anchor257 := swapIn src dst q.anchor257 }

/-! ## The nodes in a queue -/

/-- How often a node is linked in the queue. -/
def count (q : Queue) (node : ℕ) : ℕ :=
  q.anchor257.count node + ∑ i ∈ range 64, (q.anchors i).count node

@[simp] lemma count_init (node : ℕ) : init.count node = 0 := by
  simp [count, init]

/-- Changing one of the lists changes the count by what it does there. -/
lemma sum_update (anchors : ℕ → List ℕ) {i : ℕ} (hi : i < 64) (l : List ℕ) (node : ℕ) :
    ∑ j ∈ range 64, (Function.update anchors i l j).count node + (anchors i).count node =
      ∑ j ∈ range 64, (anchors j).count node + l.count node := by
  have hmem : i ∈ range 64 := mem_range.2 hi
  rw [← add_sum_erase _ _ hmem, ← add_sum_erase (range 64)
    (fun j => (anchors j).count node) hmem, update_self]
  have hr : ∑ j ∈ (range 64).erase i, (Function.update anchors i l j).count node =
      ∑ j ∈ (range 64).erase i, (anchors j).count node := by
    refine sum_congr rfl (fun j hj => ?_)
    rw [update_of_ne (ne_of_mem_erase hj)]
  rw [hr]
  omega

variable {dst node src weight : ℕ} {q q' : Queue} {r : Option ℕ}

/-- A node is put in once. -/
theorem count_set {deficit deficit' : ℕ}
    (h : q.set node weight deficit = some (q', deficit')) (m : ℕ) :
    q'.count m = q.count m + if m = node then 1 else 0 := by
  unfold set at h
  split at h
  · cases h
    simp only [count, List.count_append, List.count_singleton]
    by_cases hm : m = node
    · simp [hm]; omega
    · simp [hm, Ne.symm hm]
  · split at h
    · cases h
    · cases h
      have hs := sum_update q.anchors
        (Nat.mod_lt (q.offset + (offsetTable.getD (weight - 1) 0 + deficit) / 65536)
          (by decide : 0 < 64))
        (q.anchors ((q.offset + (offsetTable.getD (weight - 1) 0 + deficit) / 65536) % 64) ++
          [node]) m
      rw [List.count_append, List.count_singleton] at hs
      simp only [count]
      by_cases hm : m = node
      · simp only [hm, beq_self_eq_true, if_true] at hs ⊢
        omega
      · simp only [Ne.symm hm, hm, beq_iff_eq, if_false] at hs ⊢
        omega

lemma set_isSome (hw : 1 ≤ weight) (q : Queue) (node deficit : ℕ) :
    (q.set node weight deficit).isSome = true := by
  unfold set
  split
  · rfl
  · rw [if_neg (by omega)]
    rfl

/-- A node that is linked once is gone after unlinking it, and the others are where they
were. -/
theorem count_unlink (h : q.count node ≤ 1) (m : ℕ) :
    (q.unlink node).count m = if m = node then 0 else q.count m := by
  by_cases hm : m = node
  · subst hm
    have hl : ∀ i ∈ range 64, (q.anchors i).count m ≤ 1 := by
      intro i hi
      have := single_le_sum (f := fun i => (q.anchors i).count m) (fun _ _ => Nat.zero_le _) hi
      simp only [count] at h
      omega
    have h257 : q.anchor257.count m ≤ 1 := by
      simp only [count] at h
      omega
    simp only [count, unlink, List.count_erase_self, if_true, Nat.add_eq_zero_iff, sum_eq_zero_iff]
    exact ⟨by omega, fun i hi => by have := hl i hi; omega⟩
  · simp only [count, unlink, List.count_erase_of_ne hm, hm, if_false]

lemma count_popLoop {n : ℕ} (h : popLoop n q = (q', r)) (m : ℕ) :
    q'.count m + (if r = some m then 1 else 0) = q.count m := by
  induction n generalizing q with
  | zero =>
    cases h
    simp
  | succ n ih =>
    rw [popLoop] at h
    split at h
    · cases h
      simp
    · simp only at h
      split at h
      · next node nodes hn =>
        cases h
        have hs := sum_update q.anchors
          (Nat.mod_lt (q.offset + q.bits.clz.toNat) (by decide : 0 < 64)) nodes m
        rw [hn, List.count_cons] at hs
        simp only [count, Option.some.injEq]
        simp only [beq_iff_eq] at hs
        omega
      · have hr := ih h
        exact hr

/-- The node that is popped was in the queue, and leaves it once. -/
theorem count_pop (h : q.pop = (q', r)) (m : ℕ) :
    q'.count m + (if r = some m then 1 else 0) = q.count m := by
  unfold pop at h
  split at h
  · next node nodes hn =>
    cases h
    simp only [count, hn, List.count_cons, Option.some.injEq, beq_iff_eq]
    omega
  · exact count_popLoop h m

lemma count_swapIn (hne : dst ≠ src) (l : List ℕ) (m : ℕ) : (swapIn src dst l).count m =
      if m = dst then l.count src + l.count dst else if m = src then 0 else l.count m := by
  induction l with
  | nil => simp [swapIn]
  | cons a l ih =>
    have hc : swapIn src dst (a :: l) = (if a = src then dst else a) :: swapIn src dst l := rfl
    rw [hc, List.count_cons, ih]
    by_cases ha : a = src
    · subst ha
      by_cases hm : m = dst
      · simp [hm, hne.symm]; omega
      · by_cases hma : m = a
        · simp [hma, hne.symm, hne]
        · simp [hm, hma, Ne.symm hm, Ne.symm hma]
    · by_cases hm : m = dst
      · subst hm
        simp [ha, List.count_cons]; omega
      · by_cases hma : m = src
        · subst hma
          simp [ha, hne.symm]
        · simp [ha, hm, hma, List.count_cons]

lemma count_replace (hne : dst ≠ src) (hd : q.count dst = 0)
    (m : ℕ) : (q.replace src dst).count m =
      if m = dst then q.count src else if m = src then 0 else q.count m := by
  have h257 : q.anchor257.count dst = 0 := by
    simp only [count] at hd
    omega
  have ha : ∀ i ∈ range 64, (q.anchors i).count dst = 0 := by
    simp only [count, Nat.add_eq_zero_iff, sum_eq_zero_iff] at hd
    exact hd.2
  have hs : ∑ i ∈ range 64, ((q.anchors i).count src + (q.anchors i).count dst) =
      ∑ i ∈ range 64, (q.anchors i).count src :=
    sum_congr rfl (fun i hi => by rw [ha i hi, Nat.add_zero])
  simp only [count, replace, count_swapIn hne]
  by_cases hm : m = dst
  · simp only [hm, if_true, h257, Nat.add_zero, hs]
  · by_cases hms : m = src
    · simp [hms, hne.symm]
    · simp only [hm, hms, if_false]

end Queue

end Vhttp.Http2.Scheduler
