import Mathlib.Data.List.Basic

/-!
# Incremental decoders

A decoder takes symbols one by one. A symbol leads to a new state and some output, or it ends the
input, or it is an error. The input comes in pieces: `feed` gives a decoder a piece.

* `feed_append`, `feed_append_done`: the pieces do not matter.
* `feed_related`: a relation that the steps of two decoders keep, with the same output, is kept by
  every piece.
-/

namespace Incremental

open List

variable {σ τ α β : Type*}

/-- What a symbol does to a decoder. -/
inductive Step (σ β : Type*) where
  | next (state : σ) (output : List β)
  | done (state : σ)
  | fail (state : σ)

/-- How a piece of the input ends: more is needed, the end came with these symbols left, or there
was an error. -/
inductive Result (α : Type*) where
  | more
  | done (rest : List α)
  | fail

/-- A piece of the input: the state after it, the output and the result. -/
def feed (step : σ → α → Step σ β) : σ → List α → σ × List β × Result α
  | s, [] => (s, [], .more)
  | s, a :: as =>
    match step s a with
    | .next s' output =>
      ((feed step s' as).1, output ++ (feed step s' as).2.1, (feed step s' as).2.2)
    | .done s' => (s', [], .done as)
    | .fail s' => (s', [], .fail)

variable {step : σ → α → Step σ β} {s : σ}

variable {a : α} {as rest : List α} {s' : σ}

lemma feed_next {output : List β} (h : step s a = .next s' output)
    (as : List α) : feed step s (a :: as) =
      ((feed step s' as).1, output ++ (feed step s' as).2.1, (feed step s' as).2.2) := by
  rw [feed, h]

lemma feed_done (h : step s a = .done s') (as : List α) :
    feed step s (a :: as) = (s', [], .done as) := by
  rw [feed, h]

lemma feed_fail (h : step s a = .fail s') (as : List α) :
    feed step s (a :: as) = (s', [], .fail) := by
  rw [feed, h]

/-- Two pieces are like one. -/
theorem feed_append (h : (feed step s as).2.2 = .more) (bs : List α) :
    feed step s (as ++ bs) = ((feed step (feed step s as).1 bs).1,
      (feed step s as).2.1 ++ (feed step (feed step s as).1 bs).2.1,
      (feed step (feed step s as).1 bs).2.2) := by
  induction as generalizing s with
  | nil => rfl
  | cons a as ih =>
    rw [cons_append]
    cases hstep : step s a with
    | next s' output =>
      rw [feed_next hstep] at h
      rw [feed_next hstep, feed_next hstep, ih h]
      rw [append_assoc]
    | done s' =>
      rw [feed_done hstep] at h
      cases h
    | fail s' =>
      rw [feed_fail hstep] at h
      cases h

variable (h : (feed step s as).2.2 = .done rest)
include h

/-- What comes after the end is left. -/
theorem feed_append_done (bs : List α) : (feed step s (as ++ bs)).2.2 = .done (rest ++ bs) := by
  induction as generalizing s with
  | nil => cases h
  | cons a as ih =>
    rw [cons_append]
    cases hstep : step s a with
    | next s' output =>
      rw [feed_next hstep] at h ⊢
      exact ih h
    | done s' =>
      rw [feed_done hstep] at h ⊢
      cases h
      rfl
    | fail s' =>
      rw [feed_fail hstep] at h
      cases h

/-- What comes after the end gives no output. -/
lemma feed_append_done_output
    (bs : List α) : (feed step s (as ++ bs)).2.1 = (feed step s as).2.1 := by
  induction as generalizing s with
  | nil => cases h
  | cons a as ih =>
    rw [cons_append]
    cases hstep : step s a with
    | next s' output =>
      rw [feed_next hstep] at h ⊢
      rw [feed_next hstep, ih h]
    | done s' =>
      rw [feed_done hstep, feed_done hstep]
    | fail s' =>
      rw [feed_fail hstep] at h
      cases h

/-- What is left is the end of the piece. -/
lemma feed_done_suffix : rest <:+ as := by
  induction as generalizing s with
  | nil => cases h
  | cons a as ih =>
    cases hstep : step s a with
    | next s' output =>
      rw [feed_next hstep] at h
      exact (ih h).trans (suffix_cons a as)
    | done s' =>
      rw [feed_done hstep] at h
      cases h
      exact suffix_cons _ _
    | fail s' =>
      rw [feed_fail hstep] at h
      cases h

omit h

/-- Two steps with the same output and related states. -/
inductive Step.Related (R : σ → τ → Prop) : Step σ β → Step τ β → Prop
  | next {s : σ} {t : τ} (h : R s t) (output : List β) :
    Related R (.next s output) (.next t output)
  | done {s : σ} {t : τ} (h : R s t) : Related R (.done s) (.done t)
  | fail {s : σ} {t : τ} (h : R s t) : Related R (.fail s) (.fail t)

/-- Related machines give the same output. -/
theorem feed_related {R : σ → τ → Prop} {step' : τ → α → Step τ β} {t : τ}
    (hstep : ∀ s t a, R s t → (step s a).Related R (step' t a)) (h : R s t) (as : List α) :
    R (feed step s as).1 (feed step' t as).1 ∧ (feed step s as).2 = (feed step' t as).2 := by
  induction as generalizing s t with
  | nil => exact ⟨h, rfl⟩
  | cons a as ih =>
    have hr := hstep s t a h
    generalize hs : step s a = x at hr
    generalize ht : step' t a = y at hr
    cases hr with
    | next hn output =>
      obtain ⟨hR, he⟩ := ih hn
      rw [feed_next hs, feed_next ht, he]
      exact ⟨hR, rfl⟩
    | done hd =>
      rw [feed_done hs, feed_done ht]
      exact ⟨hd, rfl⟩
    | fail hf =>
      rw [feed_fail hs, feed_fail ht]
      exact ⟨hf, rfl⟩

end Incremental
