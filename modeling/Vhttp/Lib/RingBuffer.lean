import Mathlib

/-!
# Ring buffers

A queue in an array: `count` elements from the index `start` on, going on at the beginning
of the array after its end. New elements come to the front, old ones leave at the back, and
a full array is copied to a larger one.

`RingBuffer.toList` is the queue, and each operation is the one on lists: `toList_pushFront`,
`toList_dropLast`, `toList_grow`, `getElem?_toList`.
-/

/-- A queue in the array `slots`; the slots in use are filled. -/
structure RingBuffer (α : Type*) where
  slots : List (Option α)
  start : ℕ
  count : ℕ
  count_le : count ≤ slots.length
  filled : ∀ i < count, ∃ x, slots[(start + i) % slots.length]? = some (some x)

namespace RingBuffer

open List Nat

variable {α : Type*}

/-- No array has been allocated yet. -/
def empty : RingBuffer α := ⟨[], 0, 0, le_rfl, fun _ hi => absurd hi (Nat.not_lt_zero _)⟩

variable (r : RingBuffer α)

/-- The place of the element `i`. -/
def index (i : ℕ) : ℕ := (r.start + i) % r.slots.length

/-- The element `i`, counted from the front. -/
def get? (i : ℕ) : Option α :=
  if i < r.count then r.slots[r.index i]?.join else none

/-- The elements from the front to the back. -/
def toList : List α := (range r.count).filterMap r.get?

lemma exists_get? {i : ℕ} (hi : i < r.count) :
    ∃ x, r.get? i = some x ∧ r.slots[r.index i]? = some (some x) := by
  obtain ⟨x, hx⟩ := r.filled i hi
  exact ⟨x, by rw [get?, if_pos hi, index, hx]; rfl, hx⟩

/-- Different elements have different places. -/
lemma index_ne {i j : ℕ} (hi : i < r.slots.length) (hj : j < r.slots.length)
    (hne : i ≠ j) : r.index i ≠ r.index j := by
  intro h
  have hm : i % r.slots.length = j % r.slots.length := Nat.ModEq.add_left_cancel' r.start h
  rw [mod_eq_of_lt hi, mod_eq_of_lt hj] at hm
  exact hne hm

/-- Reading an element is reading the list. -/
theorem getElem?_toList (i : ℕ) : r.toList[i]? = r.get? i := by
  have hm : ∀ n ≤ r.count, ((range n).filterMap r.get?).length = n ∧
      ∀ j < n, ((range n).filterMap r.get?)[j]? = r.get? j := by
    intro n
    induction n with
    | zero => exact fun _ => ⟨rfl, fun j hj => absurd hj (not_lt_zero j)⟩
    | succ n ih =>
      intro hn
      obtain ⟨hlen, hg⟩ := ih (by omega)
      obtain ⟨x, hx, -⟩ := r.exists_get? (i := n) (by omega)
      have hs : (range (n + 1)).filterMap r.get? = (range n).filterMap r.get? ++ [x] := by
        rw [range_succ, filterMap_append, filterMap_cons_some hx, filterMap_nil]
      rw [hs]
      refine ⟨by simp [hlen], fun j hj => ?_⟩
      rcases Nat.lt_succ_iff_lt_or_eq.1 hj with hl | rfl
      · rw [getElem?_append_left (by omega), hg j hl]
      · rw [getElem?_append_right (by omega), hlen, Nat.sub_self, hx]
        rfl
  obtain ⟨hlen, hg⟩ := hm r.count le_rfl
  by_cases hi : i < r.count
  · exact hg i hi
  · rw [get?, if_neg hi, getElem?_eq_none]
    rw [toList, hlen]
    omega

@[simp] lemma length_toList : r.toList.length = r.count := by
  apply le_antisymm
  · exact (length_filterMap_le _ _).trans (by simp)
  · by_contra hl
    obtain ⟨x, hx, -⟩ := r.exists_get? (i := r.toList.length) (by omega)
    rw [← getElem?_toList, getElem?_eq_none le_rfl] at hx
    exact absurd hx (by simp)

/-! ## The element at the back leaves -/

/-- The last element is taken out, and its slot is cleared. -/
def dropLast : RingBuffer α where
  slots := r.slots.set (r.index (r.count - 1)) none
  start := r.start
  count := r.count - 1
  count_le := by rw [length_set]; exact (Nat.sub_le _ _).trans r.count_le
  filled := by
    intro i hi
    have hle := r.count_le
    rw [length_set, getElem?_set_ne]
    · exact r.filled i (by omega)
    · exact (r.index_ne (i := i) (by omega) (by omega) (by omega)).symm

theorem toList_dropLast : r.dropLast.toList = r.toList.dropLast := by
  apply ext_getElem?
  intro i
  rw [getElem?_dropLast, getElem?_toList, getElem?_toList, length_toList]
  by_cases hi : i < r.count - 1
  · have hl := r.count_le
    have hne : r.index (r.count - 1) ≠ r.index i :=
      (r.index_ne (i := i) (by omega) (by omega) (by omega)).symm
    have hn : r.dropLast.index i = r.index i := by simp [index, dropLast]
    rw [if_pos hi, get?, get?, if_pos (by simpa [dropLast] using hi), if_pos (by omega), hn]
    simp only [dropLast]
    rw [getElem?_set_ne hne]
  · rw [if_neg hi, get?, if_neg (by simpa [dropLast] using hi)]

/-! ## A larger array -/

/-- The elements are copied to the beginning of an array of `n` slots. -/
def grow (n : ℕ) : RingBuffer α where
  slots := r.toList.map some ++ replicate (n - r.count) none
  start := 0
  count := r.count
  count_le := by simp
  filled := by
    intro i hi
    have hlen : i < (r.toList.map some ++ replicate (n - r.count) none).length := by
      simp only [length_append, length_map, length_toList, length_replicate]
      omega
    obtain ⟨x, hx, -⟩ := r.exists_get? hi
    refine ⟨x, ?_⟩
    rw [Nat.zero_add, Nat.mod_eq_of_lt hlen, getElem?_append_left (by simpa using hi),
      getElem?_map, getElem?_toList, hx]
    rfl

@[simp] lemma count_grow (n : ℕ) : (r.grow n).count = r.count := rfl

@[simp] lemma length_slots_grow (n : ℕ) : (r.grow n).slots.length = r.count + (n - r.count) := by
  simp only [grow, length_append, length_map, length_toList, length_replicate]

/-- A larger array holds the same queue. -/
theorem toList_grow (n : ℕ) : (r.grow n).toList = r.toList := by
  apply ext_getElem?
  intro i
  rw [getElem?_toList, getElem?_toList]
  by_cases hi : i < r.count
  · have hn : (r.grow n).index i = i := by
      rw [index, length_slots_grow]
      exact (congrArg (· % _) (zero_add i)).trans (mod_eq_of_lt (by omega))
    obtain ⟨x, hx, -⟩ := r.exists_get? hi
    rw [get?, if_pos (by simpa using hi), hn]
    simp only [grow]
    rw [getElem?_append_left (by simpa using hi), getElem?_map, getElem?_toList, hx]
    rfl
  · rw [get?, get?, if_neg (by simpa using hi), if_neg hi]

/-! ## An element comes to the front -/

lemma index_pred (hl : r.count < r.slots.length) (i : ℕ) :
    ((r.start + r.slots.length - 1) % r.slots.length + (i + 1)) % r.slots.length = r.index i := by
  have hs : r.start + r.slots.length - 1 + (i + 1) = r.start + i + r.slots.length := by omega
  rw [index, mod_add_mod, hs, add_mod_right]

/-- The start moves back by one slot, where the new element is put. -/
def pushFront (x : α) (hlt : r.count < r.slots.length) : RingBuffer α where
  slots := r.slots.set ((r.start + r.slots.length - 1) % r.slots.length) (some x)
  start := (r.start + r.slots.length - 1) % r.slots.length
  count := r.count + 1
  count_le := by rw [length_set]; omega
  filled := by
    intro i hi
    rw [length_set]
    cases i with
    | zero =>
      refine ⟨x, ?_⟩
      rw [Nat.add_zero, Nat.mod_mod, getElem?_set_self (Nat.mod_lt _ (by omega))]
    | succ i =>
      have hfirst : (r.start + r.slots.length - 1) % r.slots.length
          = r.index (r.slots.length - 1) := by
        rw [index]
        congr 1
        omega
      rw [r.index_pred hlt i, getElem?_set_ne]
      · exact r.filled i (by omega)
      · rw [hfirst]
        exact r.index_ne (by omega) (by omega) (by omega)

/-- The new element is the first of the queue. -/
theorem toList_pushFront (x : α) (ht : r.count < r.slots.length) :
    (r.pushFront x ht).toList = x :: r.toList := by
  have hlen : (r.pushFront x ht).slots.length = r.slots.length := by simp [pushFront]
  have hc : (r.pushFront x ht).count = r.count + 1 := rfl
  apply ext_getElem?
  intro i
  rw [getElem?_toList]
  by_cases hi : i < r.count + 1
  · obtain ⟨y, hy, hl⟩ := (r.pushFront x ht).exists_get? (i := i) (by rw [hc]; exact hi)
    rw [index, hlen] at hl
    simp only [pushFront] at hl
    cases i with
    | zero =>
      rw [add_zero, mod_mod, getElem?_set_self (mod_lt _ (by omega))] at hl
      rw [hy, getElem?_cons_zero, Option.some.inj hl]
    | succ i =>
      have hf : (r.start + r.slots.length - 1) % r.slots.length = r.index (r.slots.length - 1) := by
        rw [index]
        congr 1
        omega
      obtain ⟨z, hz, hs⟩ := r.exists_get? (i := i) (by omega)
      rw [r.index_pred ht i, getElem?_set_ne
        (by rw [hf]; exact r.index_ne (by omega) (by omega) (by omega)), hs] at hl
      rw [hy, getElem?_cons_succ, getElem?_toList, hz, Option.some.inj hl]
  · rw [get?, if_neg (by rw [hc]; exact hi), getElem?_eq_none]
    simp only [length_cons, length_toList]
    omega

end RingBuffer
