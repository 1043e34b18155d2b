import Mathlib.Algebra.BigOperators.Group.Finset.Basic

/-!
# Tallies

The total of a weight over a finite family that changes one element at a time. A counter that
is kept in step with the family equals the total, whatever the order of the changes.

* `total_update`, `total_insert`, `total_erase`: the total after an element is replaced, added or
  removed.
-/

namespace Tally

open Function Finset

variable {ι α M : Type*} [AddCommGroup M]

/-- The weights of the elements of a family, added up. -/
def total (w : ι → α → M) (keys : Finset ι) (item : ι → α) : M := ∑ i ∈ keys, w i (item i)

variable {w : ι → α → M} {keys : Finset ι} {item : ι → α}

lemma total_empty : total w ∅ item = 0 := rfl

variable [DecidableEq ι] {i : ι}

/-- The elements that are not in the family do not count. -/
lemma total_update_of_notMem (h : i ∉ keys) (a : α) :
    total w keys (update item i a) = total w keys item := by
  refine sum_congr rfl fun j hj => ?_
  rw [update_of_ne (ne_of_mem_of_not_mem hj h)]

theorem total_erase (h : i ∈ keys) (a : α) :
    total w (keys.erase i) (update item i a) = total w keys item - w i (item i) := by
  rw [total_update_of_notMem (notMem_erase i keys), eq_sub_iff_add_eq]
  exact sum_erase_add keys (fun j => w j (item j)) h

theorem total_insert (h : i ∉ keys) (a : α) :
    total w (insert i keys) (update item i a) = total w keys item + w i a := by
  unfold total
  rw [sum_insert h, update_self, add_comm]
  congr 1
  exact total_update_of_notMem h a

theorem total_update (h : i ∈ keys) (a : α) :
    total w keys (update item i a) = total w keys item - w i (item i) + w i a := by
  have hs : total w (insert i (keys.erase i)) (update item i a) = _ :=
    total_insert (notMem_erase i keys) a
  rw [insert_erase h] at hs
  rw [hs, ← total_erase h (item i), update_eq_self]

end Tally
