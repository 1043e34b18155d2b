import Mathlib.Data.List.Basic

/-!
# Items of a stream

A stream is a sequence of items, each of which says where it ends. A reader takes the items off
the front of what it has as soon as they are complete.

* `items_append`: it does not matter in which pieces the stream comes.
-/

namespace Incremental

variable {α β : Type*}

/-- A parser for the item at the front of the input, with its length. An item is not empty, and
what follows it does not matter. -/
structure ItemParser (α β : Type*) where
  next : List α → Option (β × ℕ)
  pos : ∀ {xs b n}, next xs = some (b, n) → 0 < n
  le : ∀ {xs b n}, next xs = some (b, n) → n ≤ xs.length
  append : ∀ {xs b n} (ys : List α), next xs = some (b, n) → next (xs ++ ys) = some (b, n)

namespace ItemParser

variable (p : ItemParser α β)

/-- At most so many items, and what is left. -/
def take : ℕ → List α → List β × List α
  | 0, xs => ([], xs)
  | fuel + 1, xs =>
    match p.next xs with
    | none => ([], xs)
    | some (b, n) => (b :: (take fuel (xs.drop n)).1, (take fuel (xs.drop n)).2)

/-- The complete items, and what is left. -/
def items (xs : List α) : List β × List α := p.take xs.length xs

variable {p} {xs : List α}

lemma take_of_none (h : p.next xs = none) (fuel : ℕ) : p.take fuel xs = ([], xs) := by
  cases fuel with
  | zero => rfl
  | succ fuel => rw [take, h]

lemma take_of_some {b : β} {n : ℕ} (h : p.next xs = some (b, n)) (fuel : ℕ) :
    p.take (fuel + 1) xs = (b :: (p.take fuel (xs.drop n)).1, (p.take fuel (xs.drop n)).2) := by
  rw [take, h]

/-- An item takes something off the input. -/
lemma length_drop_lt {b : β} {n : ℕ} (h : p.next xs = some (b, n)) :
    (xs.drop n).length < xs.length := by
  have hpos := p.pos h
  have hl := p.le h
  rw [List.length_drop]
  omega

/-- The length of the input is enough. -/
lemma take_eq_items {fuel : ℕ} (h : xs.length ≤ fuel) : p.take fuel xs = p.items xs := by
  unfold items
  induction fuel using Nat.strongRecOn generalizing xs with
  | ind fuel ih =>
    cases hn : p.next xs with
    | none => rw [take_of_none hn, take_of_none hn]
    | some item =>
      obtain ⟨b, n⟩ := item
      have hl := length_drop_lt hn
      obtain ⟨fuel, rfl⟩ := Nat.exists_eq_succ_of_ne_zero (Nat.ne_of_gt (by omega : 0 < fuel))
      obtain ⟨len, hlen⟩ := Nat.exists_eq_succ_of_ne_zero (Nat.ne_of_gt (by omega : 0 < xs.length))
      rw [hlen, take_of_some hn, take_of_some hn, ih fuel (Nat.lt_succ_self fuel) (by omega)]
      by_cases hs : len = (xs.drop n).length
      · rw [hs]
      · rw [ih len (by omega) (by omega)]

lemma items_of_none (h : p.next xs = none) : p.items xs = ([], xs) := take_of_none h _

lemma items_of_some {b : β} {n : ℕ} (h : p.next xs = some (b, n)) :
    p.items xs = (b :: (p.items (xs.drop n)).1, (p.items (xs.drop n)).2) := by
  have hl := length_drop_lt h
  rw [← take_eq_items (Nat.le_succ xs.length), take_of_some h, take_eq_items (Nat.le_of_lt hl)]

/-- The items of the pieces are those of the whole. -/
theorem items_append (p : ItemParser α β) (xs ys : List α) : p.items (xs ++ ys) =
      ((p.items xs).1 ++ (p.items ((p.items xs).2 ++ ys)).1,
        (p.items ((p.items xs).2 ++ ys)).2) := by
  induction hlen : xs.length using Nat.strongRecOn generalizing xs with
  | ind len ih =>
    cases hn : p.next xs with
    | none => rw [items_of_none hn, List.nil_append]
    | some item =>
      obtain ⟨b, n⟩ := item
      rw [items_of_some (p.append ys hn), items_of_some hn, List.drop_append_of_le_length (p.le hn),
        ih _ (hlen ▸ length_drop_lt hn) _ rfl, List.cons_append]

/-- What is left has no complete item. -/
lemma items_rest : p.items (p.items xs).2 = ([], (p.items xs).2) := by
  have h := items_append p xs []
  rw [List.append_nil, List.append_nil] at h
  exact Prod.ext (List.self_eq_append_right.1 (congrArg Prod.fst h)) (congrArg Prod.snd h).symm

end ItemParser
end Incremental
