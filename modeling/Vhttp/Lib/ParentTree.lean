import Mathlib

/-!
# Trees by parent pointers

A forest in which each node knows its parent. `Climb par n k` says that `k` steps up lead
from `n` to a root; a node from which a root is reached is on no cycle.

* `Climb.not_above_parent`: no node is above its own parent.
* `Climb.move`: giving a node a parent that is not below it keeps every node under a root.
* `Climb.le_length`: a climb is not longer than the number of nodes.
-/

namespace ParentTree

open List Function

variable {α : Type*} {par : α → Option α}

/-- `k` steps up from `n` lead to a root. -/
inductive Climb (par : α → Option α) : α → ℕ → Prop
  | root {n : α} (h : par n = none) : Climb par n 0
  | up {n p : α} {k : ℕ} (h : par n = some p) (hp : Climb par p k) : Climb par n (k + 1)

/-- `m` is `n` or one of its ancestors. -/
def Above (par : α → Option α) (n m : α) : Prop :=
  Relation.ReflTransGen (fun c p => par c = some p) n m

lemma Above.refl (n : α) : Above par n n := Relation.ReflTransGen.refl

variable {c m n p : α} {j k : ℕ}

lemma Above.head (h : par n = some p) (hp : Above par p m) : Above par n m :=
  Relation.ReflTransGen.head h hp

lemma above_iff : Above par n m ↔ n = m ∨ ∃ p, par n = some p ∧ Above par p m := by
  constructor
  · intro h
    rcases Relation.ReflTransGen.cases_head h with rfl | ⟨p, hp, hm⟩
    · exact Or.inl rfl
    · exact Or.inr ⟨p, hp, hm⟩
  · rintro (rfl | ⟨p, hp, hm⟩)
    · exact Above.refl n
    · exact hm.head hp

lemma Climb.unique (hj : Climb par n j) (hk : Climb par n k) : j = k := by
  induction hj generalizing k with
  | root h =>
    cases hk with
    | root _ => rfl
    | up h' _ =>
      rw [h] at h'
      cases h'
  | up h hp ih =>
    cases hk with
    | root h' =>
      rw [h] at h'
      cases h'
    | up h' hp' =>
      rw [h, Option.some.injEq] at h'
      subst h'
      rw [ih hp']

variable (h : Climb par n k)
include h

/-- An ancestor is reached on the way up. -/
lemma Climb.above (ha : Above par n m) : ∃ j ≤ k, Climb par m j := by
  induction h with
  | root h =>
    rcases above_iff.1 ha with rfl | ⟨p, hp, -⟩
    · exact ⟨0, Nat.le_refl 0, .root h⟩
    · rw [h] at hp
      cases hp
  | up h hp ih =>
    rcases above_iff.1 ha with rfl | ⟨p', hp', hm⟩
    · exact ⟨_, Nat.le_refl _, .up h hp⟩
    · rw [h, Option.some.injEq] at hp'
      subst hp'
      obtain ⟨j, hj, hc⟩ := ih hm
      exact ⟨j, Nat.le_succ_of_le hj, hc⟩

/-- No node is above its own parent: there is no cycle. -/
theorem Climb.not_above_parent (hn : par n = some p) : ¬ Above par p n := by
  intro ha
  cases h with
  | root h =>
    rw [hn] at h
    cases h
  | up h hp =>
    rw [hn, Option.some.injEq] at h
    subst h
    obtain ⟨j, hj, hc⟩ := hp.above ha
    have hj' := hc.unique (.up hn hp)
    omega

/-- Two nodes of which each is above the other are the same. -/
lemma Climb.above_antisymm (hn : Above par n m) (hm : Above par m n) : n = m := by
  rcases above_iff.1 hn with rfl | ⟨p, hp, hpm⟩
  · rfl
  · exact absurd (Relation.ReflTransGen.trans hpm hm) (h.not_above_parent hp)

/-- The nodes on the way up, each once. -/
lemma Climb.exists_list :
    ∃ l : List α, l.length = k ∧ l.Nodup ∧ ∀ m ∈ l, Above par n m ∧ par m ≠ none := by
  induction h with
  | root h => exact ⟨[], rfl, nodup_nil, fun m hm => absurd hm not_mem_nil⟩
  | @up n p k h hp ih =>
    obtain ⟨l, hlen, hd, hl⟩ := ih
    have ho : ¬ Above par p n := Climb.not_above_parent (.up h hp) h
    refine ⟨n :: l, by rw [length_cons, hlen], ?_, ?_⟩
    · exact nodup_cons.2 ⟨fun hn => ho (hl n hn).1, hd⟩
    · intro m hm
      rcases mem_cons.1 hm with rfl | hm
      · exact ⟨Above.refl m, by rw [h]; exact Option.some_ne_none p⟩
      · exact ⟨(hl m hm).1.head h, (hl m hm).2⟩

/-- A climb is not longer than the number of nodes that have a parent. -/
theorem Climb.le_length {s : List α}
    (hs : ∀ m, Above par n m → par m ≠ none → m ∈ s) : k ≤ s.length := by
  obtain ⟨l, rfl, hn, hl⟩ := h.exists_list
  exact (hn.subperm (fun m hm => hs m (hl m hm).1 (hl m hm).2)).length_le

omit h

/-! ## Moving a node -/

variable [DecidableEq α]

/-- A climb that does not pass a node does not see its parent change. -/
lemma Climb.update (h : Climb par n k) (hc : ¬ Above par n c)
    (x : Option α) : Climb (Function.update par c x) n k := by
  induction h with
  | @root n h =>
    have hne : n ≠ c := fun he => hc (he ▸ Above.refl n)
    exact .root (by rw [update_of_ne hne, h])
  | @up n p k h hp ih =>
    have hne : n ≠ c := fun he => hc (he ▸ Above.refl n)
    exact .up (by rw [update_of_ne hne, h]) (ih (fun ha => hc (ha.head h)))

/-- Giving a node a parent that is not below it keeps every node under a root. -/
theorem Climb.move {q : α} (hq : Climb par q j) (hc : ¬ Above par q c) (h : Climb par n k) :
    ∃ k', Climb (Function.update par c (some q)) n k' := by
  have hm : ∃ k', Climb (Function.update par c (some q)) c k' :=
    ⟨j + 1, .up (update_self _ _ _) (hq.update hc _)⟩
  induction h with
  | @root n h =>
    by_cases hne : n = c
    · exact hne ▸ hm
    · exact ⟨0, .root (by rw [update_of_ne hne, h])⟩
  | @up n p k h hp ih =>
    by_cases hne : n = c
    · exact hne ▸ hm
    · obtain ⟨k', hk'⟩ := ih
      exact ⟨k' + 1, .up (by rw [update_of_ne hne, h]) hk'⟩

lemma above_update_iff (h : Climb par n k) (hc : ¬ Above par n c)
    (x : Option α) : Above (Function.update par c x) n m ↔ Above par n m := by
  induction h with
  | @root n h =>
    have hne : n ≠ c := fun he => hc (he ▸ Above.refl n)
    rw [above_iff, above_iff, update_of_ne hne, h]
    simp
  | @up n p k h hp ih =>
    have hne : n ≠ c := fun he => hc (he ▸ Above.refl n)
    rw [above_iff, @above_iff _ par, update_of_ne hne, h]
    simp only [Option.some.injEq, exists_eq_left', ih (fun ha => hc (ha.head h))]

end ParentTree
