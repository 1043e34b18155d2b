import Mathlib

/-!
# Queues within a budget

A queue of weighted elements, the newest first, from which the oldest are dropped until the
rest fits. What is kept is `fitting`, the longest beginning whose weight is within the
budget.

* `fitting_dropLast`: dropping an element while the weight is too large does not change it.
-/

namespace Budget

open List

variable {α : Type*} (w : α → ℕ)

/-- The weight of a queue. -/
def weight (l : List α) : ℕ := (l.map w).sum

/-- The longest beginning of a queue whose weight is at most `cap`. -/
def fitting (cap : ℕ) : List α → List α
  | [] => []
  | a :: l => if w a ≤ cap then a :: fitting (cap - w a) l else []

@[simp] lemma weight_nil : weight w [] = 0 := rfl

@[simp] lemma weight_cons (a : α) (l : List α) : weight w (a :: l) = w a + weight w l := by
  simp [weight]

lemma weight_append (l m : List α) : weight w (l ++ m) = weight w l + weight w m := by
  simp [weight]

variable {w}

lemma weight_le_of_sublist {l m : List α} (h : Sublist l m) : weight w l ≤ weight w m :=
  (h.map w).sum_le_sum fun _ _ => Nat.zero_le _

lemma weight_dropLast_add (l : List α) {a : α} (h : l.getLast? = some a) :
    weight w l.dropLast + w a = weight w l := by
  obtain ⟨m, rfl⟩ := getLast?_eq_some_iff.1 h
  simp [weight_append]

lemma fitting_prefix (cap : ℕ) (l : List α) : fitting w cap l <+: l := by
  induction l generalizing cap with
  | nil => exact prefix_rfl
  | cons a l ih =>
    rw [fitting]
    split
    · exact (prefix_cons_inj a).2 (ih _)
    · exact nil_prefix

lemma weight_fitting_le (cap : ℕ) (l : List α) : weight w (fitting w cap l) ≤ cap := by
  induction l generalizing cap with
  | nil => exact Nat.zero_le _
  | cons a l ih =>
    rw [fitting]
    split
    · next hl =>
      have := ih (cap - w a)
      rw [weight_cons]
      omega
    · exact Nat.zero_le _

lemma fitting_of_le {cap : ℕ} {l : List α} (h : weight w l ≤ cap) : fitting w cap l = l := by
  induction l generalizing cap with
  | nil => rfl
  | cons a l ih =>
    rw [weight_cons] at h
    rw [fitting, if_pos (by omega), ih (by omega)]

/-- While a queue is too heavy, its last element may go. -/
theorem fitting_dropLast {cap : ℕ} {l : List α} (h : cap < weight w l) :
    fitting w cap l.dropLast = fitting w cap l := by
  induction l generalizing cap with
  | nil => rfl
  | cons a l ih =>
    cases l with
    | nil =>
      have hl : ¬ w a ≤ cap := by simpa using h
      simp [fitting, hl]
    | cons b l =>
      rw [dropLast_cons_cons, fitting, fitting]
      rw [weight_cons] at h
      split
      · rw [ih (by omega)]
      · rfl

end Budget
