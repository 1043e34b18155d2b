import Mathlib

/-!
# The HTTP/2 connections of a connection pool

The model of `adjust_conn_linkedlist` in `lib/common/http2client.c`, of what calls it, and of
`find_h2conn` in `lib/common/httpclient.c`. The connections are in a list that is meant to be
sorted by the ratio of the open streams to the streams that are allowed.

* `sorted_insert`: a connection is put where it belongs, in either direction.
* `findH2conn_least`: with a sorted list, the connection that is found is the least loaded one. The
  list gets out of order when a connection is created while another one has streams, and when one
  should get to the front of the list.
-/

namespace Vhttp.Httpclient

open List

variable {U : Type*}

/-- A `struct st_vhttp_http2client_conn_t`, with its origin and its limit. -/
structure H2Conn (U : Type*) where
  originUrl : U
  numStreams : ℕ
  maxConcurrentStreams : ℕ+

/-- The ratio by which the connections are sorted. -/
def H2Conn.ratio (c : H2Conn U) : ℚ := c.numStreams / (c.maxConcurrentStreams : ℕ)

/-- `adjust_conn_linkedlist`, for the connection between two parts of the list. Nodes are inserted
before another one or, at the end of the list, before the anchor. -/
def adjustConnLinkedlist (pre : List (H2Conn U)) (c : H2Conn U) (post : List (H2Conn U))
    (forward : Bool) : List (H2Conn U) :=
  if forward then
    pre ++ (post.takeWhile (¬c.ratio ≤ ·.ratio) ++ c :: post.dropWhile (¬c.ratio ≤ ·.ratio))
  else
    let passed := pre.reverse.takeWhile (¬c.ratio ≥ ·.ratio)
    let rest := pre.reverse.dropWhile (¬c.ratio ≥ ·.ratio)
    if passed ≠ [] ∧ rest = [] then pre ++ (post ++ [c])
    else rest.reverse ++ c :: (passed.reverse ++ post)

/-- A connection is created, or a stream is registered or unregistered with one of them. -/
inductive PoolEvent (U : Type*) where
  | create (originUrl : U) (maxConcurrentStreams : ℕ+)
  | register (i : ℕ)
  | unregister (i : ℕ)

/-- `create_connection`, `register_stream` and `unregister_stream`. -/
def poolStep (l : List (H2Conn U)) : PoolEvent U → Option (List (H2Conn U))
  | .create originUrl max => some (l ++ [⟨originUrl, 0, max⟩])
  | .register i => l[i]?.map fun c =>
      adjustConnLinkedlist (l.take i) { c with numStreams := c.numStreams + 1 } (l.drop (i + 1)) true
  | .unregister i => l[i]?.bind fun c =>
      if c.numStreams = 0 then none
      else some (adjustConnLinkedlist (l.take i) { c with numStreams := c.numStreams - 1 }
        (l.drop (i + 1)) false)

/-- The lists that are reached by events that are allowed. -/
inductive PoolReach (ok : List (H2Conn U) → PoolEvent U → Prop) : List (H2Conn U) → Prop
  | init : PoolReach ok []
  | step {l l' : List (H2Conn U)} {e : PoolEvent U} :
      PoolReach ok l → ok l e → poolStep l e = some l' → PoolReach ok l'

/-- What `find_h2conn` looks for; a pool for one origin does not check it. -/
def H2Conn.matches [DecidableEq U] (target : Option U) (c : H2Conn U) : Bool :=
  target.all (· = c.originUrl) ∧ c.numStreams < c.maxConcurrentStreams

/-- `find_h2conn`. -/
def findH2conn [DecidableEq U] (l : List (H2Conn U)) (target : Option U) : Option (H2Conn U) :=
  l.find? (·.matches target)

/-- A connection is created when no other one has streams; and when a stream ends, its connection is
the first one, or does not get to be it. -/
def InOrder (l : List (H2Conn U)) : PoolEvent U → Prop
  | .create .. => ∀ c ∈ l, c.numStreams = 0
  | .register _ => True
  | .unregister i => i = 0 ∨ ∃ c ∈ l[i]?, ∃ d ∈ l.take i,
      d.ratio ≤ { c with numStreams := c.numStreams - 1 : H2Conn U }.ratio

def Sorted (l : List (H2Conn U)) : Prop := l.Pairwise (·.ratio ≤ ·.ratio)

variable {c c' : H2Conn U} {e : PoolEvent U} {l l' post pre : List (H2Conn U)}

/-- A connection that belongs farther on is moved there. -/
theorem sorted_insert {r : H2Conn U → H2Conn U → Prop} [DecidableRel r] [IsTrans _ r] [Std.Total r]
    (h : (pre ++ c :: post).Pairwise r) (hc : r c c') :
    (pre ++ (post.takeWhile (¬r c' ·) ++ c' :: post.dropWhile (¬r c' ·))).Pairwise r := by
  rw [← orderedInsert_eq_take_drop]
  rw [pairwise_append, pairwise_cons] at h
  obtain ⟨hr, ⟨-, hp⟩, hl⟩ := h
  refine pairwise_append.2 ⟨hr, hp.orderedInsert c' _, fun a ha b hb => ?_⟩
  obtain rfl | hb := (mem_orderedInsert r).1 hb
  · exact IsTrans.trans _ _ _ (hl a ha c mem_cons_self) hc
  · exact hl a ha b (mem_cons_of_mem _ hb)

lemma Sorted.adjust_forward (h : Sorted (pre ++ c :: post)) (hc : c.ratio ≤ c'.ratio) :
    Sorted (adjustConnLinkedlist pre c' post true) := by
  have : IsTrans (H2Conn U) (·.ratio ≤ ·.ratio) := ⟨fun _ _ _ => le_trans⟩
  have : Std.Total fun c d : H2Conn U => c.ratio ≤ d.ratio := ⟨fun _ _ => le_total _ _⟩
  exact sorted_insert h hc

/-- The other way, unless the connection gets to the front. -/
lemma Sorted.adjust_backward (h : Sorted (pre ++ c :: post)) (hc : c'.ratio ≤ c.ratio)
    (hp : pre = [] ∨ ∃ d ∈ pre, d.ratio ≤ c'.ratio) :
    Sorted (adjustConnLinkedlist pre c' post false) := by
  have : IsTrans (H2Conn U) (·.ratio ≥ ·.ratio) := ⟨fun _ _ _ => ge_trans⟩
  have : Std.Total fun c d : H2Conn U => c.ratio ≥ d.ratio := ⟨fun _ _ => le_total _ _⟩
  have hr : (post.reverse ++ c :: pre.reverse).Pairwise (·.ratio ≥ ·.ratio) := by
    rw [← pairwise_reverse]
    simpa [Sorted] using h
  have hi := pairwise_reverse.2 (sorted_insert hr hc)
  unfold adjustConnLinkedlist
  rw [if_neg Bool.false_ne_true, if_neg]
  · simpa [Sorted] using hi
  · rintro ⟨hne, hn⟩
    obtain rfl | ⟨d, hd, hl⟩ := hp
    · exact hne rfl
    · rw [dropWhile_eq_nil_iff] at hn
      simpa [hl] using hn d (mem_reverse.2 hd)

lemma eq_take_append {i : ℕ} (h : l[i]? = some c) : l = l.take i ++ c :: l.drop (i + 1) := by
  obtain ⟨hi, rfl⟩ := List.getElem?_eq_some_iff.1 h
  rw [← drop_eq_getElem_cons hi, take_append_drop]

lemma ratio_mono {n : ℕ} (h : c.numStreams ≤ n) :
    c.ratio ≤ H2Conn.ratio { c with numStreams := n } := by
  unfold H2Conn.ratio
  gcongr

lemma Sorted.step (h : Sorted l) (ho : InOrder l e) (hs : poolStep l e = some l') :
    Sorted l' := by
  cases e with
  | create originUrl max =>
    cases hs
    refine pairwise_append.2 ⟨h, pairwise_singleton _ _, fun a ha b hb => ?_⟩
    rw [mem_singleton.1 hb]
    simp [H2Conn.ratio, ho a ha]
  | register i =>
    obtain ⟨c, hg, rfl⟩ := Option.map_eq_some_iff.1 hs
    rw [eq_take_append hg] at h
    exact h.adjust_forward (ratio_mono (Nat.le_succ _))
  | unregister i =>
    obtain ⟨c, hg, hs⟩ := Option.bind_eq_some_iff.1 hs
    rw [Option.ite_none_left_eq_some] at hs
    cases hs.2
    rw [eq_take_append hg] at h
    refine h.adjust_backward (ratio_mono (c := { c with numStreams := c.numStreams - 1 })
      (Nat.pred_le _)) ?_
    obtain rfl | ⟨c', hc', hd⟩ := ho
    · exact .inl rfl
    · obtain rfl : c = c' := Option.some.inj (hg.symm.trans hc')
      exact .inr hd

/-- If connections are created and streams end in order, the list stays sorted. A connection is
found if there is one that matches and has a free slot, and it has the smallest ratio. -/
theorem findH2conn_least [DecidableEq U] (h : PoolReach InOrder l) (target : Option U) :
    Sorted l ∧ ((findH2conn l target).isSome ↔ ∃ d ∈ l, d.matches target) ∧
      ∀ c, findH2conn l target = some c →
        c ∈ l ∧ c.matches target ∧ ∀ d ∈ l, d.matches target → c.ratio ≤ d.ratio := by
  have ho : Sorted l := by
    induction h with
    | init => exact List.Pairwise.nil
    | step _ hk hs ih => exact ih.step hk hs
  refine ⟨ho, find?_isSome, fun c hc => ?_⟩
  obtain ⟨hm, pre, post, rfl, hp⟩ := find?_eq_some_iff_append.1 hc
  refine ⟨by simp, hm, fun d hd hdm => ?_⟩
  rw [mem_append, mem_cons] at hd
  obtain hd | rfl | hd := hd
  · simpa [hdm] using hp d hd
  · exact le_rfl
  · exact (pairwise_cons.1 (pairwise_append.1 ho).2.1).1 d hd

/-- Two connections with different limits, a stream on each, and the end of one of them. -/
theorem findH2conn_least_two : ∃ l : List (H2Conn Unit), PoolReach InOrder l ∧
    l = [⟨(), 0, 4⟩, ⟨(), 1, 2⟩] ∧
      ∃ c, findH2conn l none = some c ∧ ∀ d ∈ l, d.matches none → c.ratio ≤ d.ratio := by
  have h1 : PoolReach InOrder [(⟨(), 0, 2⟩ : H2Conn Unit), ⟨(), 0, 4⟩] :=
    .step (e := .create () 4) (.step (e := .create () 2) .init (by simp [InOrder]) rfl)
      (by simp [InOrder]) rfl
  have h2 : PoolReach InOrder [(⟨(), 0, 4⟩ : H2Conn Unit), ⟨(), 1, 2⟩] :=
    .step (e := .register 0) h1 trivial
      (by norm_num [poolStep, adjustConnLinkedlist, H2Conn.ratio])
  have h3 : PoolReach InOrder [(⟨(), 1, 4⟩ : H2Conn Unit), ⟨(), 1, 2⟩] :=
    .step (e := .register 0) h2 trivial
      (by norm_num [poolStep, adjustConnLinkedlist, H2Conn.ratio])
  have h4 : PoolReach InOrder [(⟨(), 0, 4⟩ : H2Conn Unit), ⟨(), 1, 2⟩] :=
    .step (e := .unregister 0) h3 (.inl rfl) (by norm_num [poolStep, adjustConnLinkedlist])
  obtain ⟨-, hf, hl⟩ := findH2conn_least h4 none
  obtain ⟨c, hc⟩ := Option.isSome_iff_exists.1 (hf.2 ⟨_, mem_cons_self, rfl⟩)
  exact ⟨_, h4, rfl, c, hc, (hl c hc).2.2⟩

/-- A connection is created while another one has a stream: it is not found, although it has none. -/
theorem findH2conn_busy : ∃ l : List (H2Conn Unit), PoolReach (fun _ _ => True) l ∧
    ∃ c d, findH2conn l none = some c ∧ d ∈ l ∧ d.matches none = true ∧ d.ratio < c.ratio := by
  refine ⟨[⟨(), 1, 100⟩, ⟨(), 0, 100⟩], ?_, ⟨(), 1, 100⟩, ⟨(), 0, 100⟩, rfl, by simp, rfl, ?_⟩
  · exact .step (.step (.step .init trivial (show poolStep _ (.create () 100) = _ from rfl)) trivial
      (show poolStep _ (.register 0) = _ from rfl)) trivial
      (show poolStep _ (.create () 100) = _ from rfl)
  · norm_num [H2Conn.ratio]

end Vhttp.Httpclient
