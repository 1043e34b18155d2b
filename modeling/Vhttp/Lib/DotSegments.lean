import Mathlib

/-!
# Segment stacks: removing dot segments while walking over a path

A path over an alphabet `α` is cut into segments by a separator `sep`. A `Walk`
reads the path one symbol at a time; it keeps the segments closed so far on a
stack, and the symbols of the segment that is still open. Closing the segment
`[dot]` drops it, closing `[dot, dot]` also drops the segment below it, and
nothing is ever dropped below the bottom of the stack.

* `segs_finish_run`: the walk computes the same segments as `resolve`, which works
  on the whole list of segments at once.
* `Walk.Clean.run`, `Walk.Clean.finish`: what is on the stack contains no dot
  segment and no separator, and `splitOn_render` recovers it from the rendering.
* `run_above_of_run?`: a walk that never asks for a segment below its starting
  point (`run?`) does the same over any stack that is put underneath it.
-/

namespace Segments

open List Option

variable {α : Type*} [DecidableEq α]

/-- A walk over a path: the closed segments, bottom first, and the open one. -/
@[ext] structure Walk (α : Type*) where
  stack : List (List α)
  cur : List α

/-- The walk that has read nothing. -/
def Walk.root : Walk α := ⟨[], []⟩

/-- Close the segment `seg` on top of `stack`. -/
def settle (dot : α) (stack : List (List α)) (seg : List α) : List (List α) :=
  if seg = [dot] then stack
  else if seg = [dot, dot] then stack.dropLast
  else stack ++ [seg]

namespace Walk

/-- Read one symbol. -/
def step (sep dot : α) (w : Walk α) (c : α) : Walk α :=
  if c = sep then ⟨settle dot w.stack w.cur, []⟩ else ⟨w.stack, w.cur ++ [c]⟩

/-- Read a list of symbols. -/
def run (sep dot : α) (w : Walk α) (cs : List α) : Walk α := cs.foldl (step sep dot) w

/-- The end of the path: an open dot segment takes effect and leaves an empty segment. -/
def finish (dot : α) (w : Walk α) : Walk α :=
  if w.cur = [dot] then ⟨w.stack, []⟩
  else if w.cur = [dot, dot] then ⟨w.stack.dropLast, []⟩
  else w

/-- All segments of a walk, the open one last. -/
def segs (w : Walk α) : List (List α) := w.stack ++ [w.cur]

/-- The path a walk stands for: every segment behind a separator. -/
def render (sep : α) (w : Walk α) : List α := sep :: [sep].intercalate w.segs

end Walk

/-- Dot-segment removal on a list of segments, as a recursion over the list: the last
segment is never closed by a separator, so it is treated by `Walk.finish`. -/
def resolve (dot : α) : List (List α) → List (List α) → List (List α)
  | stack, [] => stack
  | stack, [s] => (Walk.finish dot ⟨stack, s⟩).segs
  | stack, s :: t :: rest => resolve dot (settle dot stack s) (t :: rest)

/-! ## Renderings -/

section Render

omit [DecidableEq α]

variable (sep : α)

variable (w : Walk α)

lemma render_eq : w.render sep = sep :: (w.stack.flatMap (· ++ [sep]) ++ w.cur) := by
  obtain ⟨stack, cur⟩ := w
  have key : ∀ l : List (List α),
      [sep].intercalate (l ++ [cur]) = l.flatMap (· ++ [sep]) ++ cur := by
    intro l
    induction l with
    | nil => simp [intercalate]
    | cons s l ih =>
      obtain ⟨t, rest, ht⟩ := exists_cons_of_ne_nil (show l ++ [cur] ≠ [] by simp)
      rw [cons_append, ht, intercalate_cons_cons, ← ht, ih]
      simp
  simp only [Walk.render, Walk.segs, key]

lemma render_append (cs : List α) :
    w.render sep ++ cs = Walk.render sep ⟨w.stack, w.cur ++ cs⟩ := by
  simp [render_eq]

lemma render_push : w.render sep ++ [sep] = Walk.render sep ⟨w.stack ++ [w.cur], []⟩ := by
  simp [render_eq]

lemma render_open : w.render sep = Walk.render sep ⟨w.stack, []⟩ ++ w.cur := by
  simp [render_eq]

lemma length_render_pos : 0 < (w.render sep).length := by
  simp [render_eq]

end Render

/-! ## The walk and the segment list -/

section Basic

variable (sep dot : α)

lemma settle_of_ne {dot : α} {stack : List (List α)} {seg : List α} (h1 : seg ≠ [dot])
    (h2 : seg ≠ [dot, dot]) : settle dot stack seg = stack ++ [seg] := by
  rw [settle, if_neg h1, if_neg h2]

lemma settle_dot (stack : List (List α)) : settle dot stack [dot] = stack := if_pos rfl

lemma settle_dots (stack : List (List α)) : settle dot stack [dot, dot] = stack.dropLast := by
  simp [settle]

lemma Walk.finish_of_ne {dot : α} {w : Walk α} (h1 : w.cur ≠ [dot]) (h2 : w.cur ≠ [dot, dot]) :
    w.finish dot = w := by
  rw [finish, if_neg h1, if_neg h2]

/-- An open dot segment is treated at the end of the path as in front of a separator. -/
lemma Walk.finish_eq_settle {dot : α} {w : Walk α} (h : w.cur = [dot] ∨ w.cur = [dot, dot]) :
    w.finish dot = ⟨settle dot w.stack w.cur, []⟩ := by
  rcases h with h | h <;> simp [finish, settle, h]

variable (w : Walk α)

lemma Walk.run_cons (c : α) (cs : List α) :
    w.run sep dot (c :: cs) = (w.step sep dot c).run sep dot cs := rfl

lemma Walk.run_append (cs ds : List α) :
    w.run sep dot (cs ++ ds) = (w.run sep dot cs).run sep dot ds := foldl_append

lemma resolve_cons {segs : List (List α)} (stack : List (List α)) (s : List α)
    (h : segs ≠ []) : resolve dot stack (s :: segs) = resolve dot (settle dot stack s) segs := by
  cases segs with
  | nil => exact absurd rfl h
  | cons t rest => rfl

/-- **The walk computes `resolve`.**  The open segment stands in front of the first one
that is still to be read. -/
theorem segs_finish_run (w : Walk α) (cs : List α) : ((w.run sep dot cs).finish dot).segs
      = resolve dot w.stack ((cs.splitOn sep).modifyHead (w.cur ++ ·)) := by
  induction cs generalizing w with
  | nil => simp [Walk.run, resolve]
  | cons c cs ih =>
    obtain ⟨s, rest, hs⟩ := exists_cons_of_ne_nil (splitOn_ne_nil sep cs)
    rw [Walk.run_cons, ih, splitOn_cons_eq_if_modifyHead]
    by_cases hc : c = sep
    · simp only [Walk.step, hc, if_true, beq_self_eq_true, modifyHead_cons, append_nil]
      rw [resolve_cons dot _ _ (splitOn_ne_nil sep cs), hs]
      simp
    · simp [Walk.step, hc, hs]

end Basic

/-! ## How a step changes the rendering -/

section Step

variable (sep dot : α)

omit [DecidableEq α] in
lemma prefix_render {kept stack : List (List α)} (h : kept <+: stack) (cur : List α) :
    Walk.render sep ⟨kept, []⟩ <+: Walk.render sep ⟨stack, cur⟩ := by
  obtain ⟨t, rfl⟩ := h
  exact ⟨t.flatMap (· ++ [sep]) ++ cur, by simp [render_eq]⟩

variable (w : Walk α)

lemma prefix_render_settle :
    Walk.render sep ⟨settle dot w.stack w.cur, []⟩ <+: w.render sep ++ [sep] := by
  by_cases h1 : w.cur = [dot]
  · exact ⟨[dot, sep], by simp [h1, settle_dot, render_eq]⟩
  · by_cases h2 : w.cur = [dot, dot]
    · rw [h2, settle_dots]
      exact (prefix_render sep ( dropLast_prefix _) w.cur).trans (prefix_append _ _)
    · rw [settle_of_ne h1 h2, render_push]

/-- Reading a symbol appends it, or takes back symbols at the end of the rendering. -/
lemma prefix_render_step (c : α) : (w.step sep dot c).render sep <+: w.render sep ++ [c] := by
  by_cases hc : c = sep
  · rw [Walk.step, if_pos hc, hc]
    exact prefix_render_settle sep dot w
  · rw [Walk.step, if_neg hc, render_append]

/-- A symbol that takes symbols back is not kept itself. -/
lemma length_render_step (c : α) :
    ((w.step sep dot c).render sep).length = (w.render sep).length + 1 ∨
      ((w.step sep dot c).render sep).length + 1 ≤ (w.render sep).length := by
  by_cases hc : c = sep
  · rw [Walk.step, if_pos hc]
    by_cases h1 : w.cur = [dot]
    · simp [h1, settle_dot, render_eq]
    · by_cases h2 : w.cur = [dot, dot]
      · have hp := (prefix_render sep ( dropLast_prefix w.stack) []).length_le
        have hw := congrArg length (render_open sep w)
        rw [length_append, h2, length_cons] at hw
        rw [h2, settle_dots]
        omega
      · rw [settle_of_ne h1 h2, ← render_push, length_append, length_singleton]
        exact .inl rfl
  · rw [Walk.step, if_neg hc, ← render_append, length_append, length_singleton]
    exact .inl rfl

/-- A walk that loses symbols loses at least two. -/
lemma length_render_run (cs : List α) :
    ((w.run sep dot cs).render sep).length = (w.render sep).length + cs.length ∨
      ((w.run sep dot cs).render sep).length + 2 ≤ (w.render sep).length + cs.length := by
  induction cs generalizing w with
  | nil => exact .inl rfl
  | cons c cs ih =>
    have := length_render_step sep dot w c
    have := ih (w.step sep dot c)
    rw [Walk.run_cons, length_cons]
    omega

lemma prefix_render_finish : (w.finish dot).render sep <+: w.render sep := by
  by_cases h1 : w.cur = [dot]
  · exact ⟨[dot], by simp [Walk.finish_eq_settle (.inl h1), h1, settle_dot, render_eq]⟩
  · by_cases h2 : w.cur = [dot, dot]
    · rw [Walk.finish_eq_settle (.inr h2), h2, settle_dots]
      exact prefix_render sep ( dropLast_prefix _) w.cur
    · rw [Walk.finish_of_ne h1 h2]

omit [DecidableEq α] in
lemma getLast?_render (stack : List (List α)) :
    (Walk.render sep ⟨stack, []⟩).getLast? = some sep := by
  rcases eq_nil_or_concat stack with rfl | ⟨init, s, rfl⟩
  · rfl
  · rw [concat_eq_append, ← render_push sep ⟨init, s⟩, getLast?_concat]

/-- After a step the rendering ends with a separator, or it has grown. -/
lemma getLast?_render_step (c : α) : ((w.step sep dot c).render sep).getLast? = some sep ∨
      (w.step sep dot c).render sep = w.render sep ++ [c] := by
  by_cases hc : c = sep
  · rw [Walk.step, if_pos hc]
    exact .inl (getLast?_render sep _)
  · rw [Walk.step, if_neg hc, render_append]
    exact .inr rfl

lemma getLast?_render_finish :
    ((w.finish dot).render sep).getLast? = some sep ∨ w.finish dot = w := by
  by_cases hd : w.cur = [dot] ∨ w.cur = [dot, dot]
  · rw [Walk.finish_eq_settle hd]
    exact .inl (getLast?_render sep _)
  · obtain ⟨h1, h2⟩ := not_or.1 hd
    exact .inr (Walk.finish_of_ne h1 h2)

end Step

/-! ## Clean stacks -/

/-- A segment that stays in a path: no separator in it and not a dot segment. -/
structure CleanSeg (sep dot : α) (s : List α) : Prop where
  no_sep : sep ∉ s
  ne_dot : s ≠ [dot]
  ne_dots : s ≠ [dot, dot]

/-- The closed segments are clean and the open one holds no separator. -/
structure Walk.Clean (sep dot : α) (w : Walk α) : Prop where
  stack : ∀ s ∈ w.stack, CleanSeg sep dot s
  cur : sep ∉ w.cur

section Clean

variable {sep dot : α} {w : Walk α}

omit [DecidableEq α] in
lemma cleanSeg_nil : CleanSeg sep dot [] := ⟨by simp, by simp, by simp⟩

omit [DecidableEq α] in
lemma Walk.clean_root : (Walk.root : Walk α).Clean sep dot := ⟨by simp [root], by simp [root]⟩

variable (h : w.Clean sep dot)
include h

lemma settle_clean : ∀ s ∈ settle dot w.stack w.cur, CleanSeg sep dot s := by
  intro s hs
  by_cases h1 : w.cur = [dot]
  · rw [h1, settle_dot] at hs
    exact h.stack s hs
  · by_cases h2 : w.cur = [dot, dot]
    · rw [h2, settle_dots] at hs
      exact h.stack s (dropLast_subset _ hs)
    · rw [settle_of_ne h1 h2, mem_append, mem_singleton] at hs
      rcases hs with hs | rfl
      · exact h.stack s hs
      · exact ⟨h.cur, h1, h2⟩

lemma Walk.Clean.step (c : α) : (w.step sep dot c).Clean sep dot := by
  by_cases hc : c = sep
  · rw [Walk.step, if_pos hc]
    exact ⟨settle_clean h, by simp⟩
  · rw [Walk.step, if_neg hc]
    exact ⟨h.stack, by simpa [h.cur] using Ne.symm hc⟩

theorem Walk.Clean.run (cs : List α) : (w.run sep dot cs).Clean sep dot := by
  induction cs generalizing w with
  | nil => exact h
  | cons c cs ih => exact ih (h.step c)

/-- After `finish` the open segment is clean too. -/
theorem Walk.Clean.finish : ∀ s ∈ (w.finish dot).segs, CleanSeg sep dot s := by
  intro s hs
  rw [segs, mem_append, mem_singleton] at hs
  by_cases hd : w.cur = [dot] ∨ w.cur = [dot, dot]
  · rw [finish_eq_settle hd] at hs
    rcases hs with hs | rfl
    · exact settle_clean h s hs
    · exact cleanSeg_nil
  · obtain ⟨h1, h2⟩ := not_or.1 hd
    rw [finish_of_ne h1 h2] at hs
    rcases hs with hs | rfl
    · exact h.stack s hs
    · exact ⟨h.cur, h1, h2⟩

omit h

/-- The segments are got back from the rendering. -/
theorem splitOn_render (h : ∀ s ∈ w.segs, sep ∉ s) : (w.render sep).tail.splitOn sep = w.segs :=
  splitOn_intercalate sep h (by simp [Walk.segs])

end Clean

/-! ## Walks that stay above their starting point -/

/-- `settle`, but undefined when a segment below the bottom of the stack is asked for. -/
def settle? (dot : α) (stack : List (List α)) (seg : List α) : Option (List (List α)) :=
  if seg = [dot, dot] ∧ stack = [] then none else some (settle dot stack seg)

/-- `Walk.step`, but undefined when it would climb above the start of the walk. -/
def Walk.step? (sep dot : α) (w : Walk α) (c : α) : Option (Walk α) :=
  if c = sep then (settle? dot w.stack w.cur).map (⟨·, []⟩) else some ⟨w.stack, w.cur ++ [c]⟩

/-- `Walk.run`, but undefined when it would climb above the start of the walk. -/
def Walk.run? (sep dot : α) : Walk α → List α → Option (Walk α)
  | w, [] => some w
  | w, c :: cs => (w.step? sep dot c).bind (Walk.run? sep dot · cs)

/-- `Walk.finish`, but undefined when it would climb above the start of the walk. -/
def Walk.finish? (dot : α) (w : Walk α) : Option (Walk α) :=
  if w.cur = [dot, dot] ∧ w.stack = [] then none else some (w.finish dot)

/-- The walk with the segments `base` put under its stack. -/
def Walk.above (base : List (List α)) (w : Walk α) : Walk α := ⟨base ++ w.stack, w.cur⟩

section Over

variable {sep dot : α} {w w' : Walk α} (base : List (List α))

lemma settle_append_of_settle? {stack stack' : List (List α)} {seg : List α}
    (h : settle? dot stack seg = some stack') : settle dot (base ++ stack) seg = base ++ stack' := by
  rw [settle?] at h
  split at h
  · cases h
  · rename_i hne
    obtain rfl := some.inj h
    by_cases h1 : seg = [dot]
    · rw [h1, settle_dot, settle_dot]
    · by_cases h2 : seg = [dot, dot]
      · have hs : stack ≠ [] := fun hs => hne ⟨h2, hs⟩
        rw [h2, settle_dots, settle_dots, dropLast_append_of_ne_nil hs]
      · rw [settle_of_ne h1 h2, settle_of_ne h1 h2, append_assoc]

lemma Walk.step_above_of_step? {c : α} (h : w.step? sep dot c = some w') :
    (w.above base).step sep dot c = w'.above base := by
  by_cases hc : c = sep
  · rw [step?, if_pos hc, map_eq_some_iff] at h
    obtain ⟨stack', hs, rfl⟩ := h
    rw [step, if_pos hc, above, settle_append_of_settle? base hs, above]
  · rw [step?, if_neg hc] at h
    obtain rfl := some.inj h
    rw [step, if_neg hc, above, above]

/-- A walk that never climbs above its start does the same over any segments. -/
theorem Walk.run_above_of_run? {cs : List α} (h : w.run? sep dot cs = some w') :
    (w.above base).run sep dot cs = w'.above base := by
  induction cs generalizing w with
  | nil =>
    obtain rfl := some.inj h
    rfl
  | cons c cs ih =>
    rw [run?, bind_eq_some_iff] at h
    obtain ⟨w1, h1, h2⟩ := h
    rw [run_cons, step_above_of_step? base h1, ih h2]

lemma Walk.finish_above_of_finish? (h : w.finish? dot = some w') :
    (w.above base).finish dot = w'.above base := by
  rw [finish?] at h
  split at h
  · cases h
  · rename_i hne
    obtain rfl := some.inj h
    by_cases hd : w.cur = [dot] ∨ w.cur = [dot, dot]
    · have hs : settle? dot w.stack w.cur = some (settle dot w.stack w.cur) := by
        rw [settle?, if_neg hne]
      have hd' : (w.above base).cur = [dot] ∨ (w.above base).cur = [dot, dot] := hd
      rw [finish_eq_settle hd', finish_eq_settle hd, above, settle_append_of_settle? base hs, above]
    · obtain ⟨h1, h2⟩ := not_or.1 hd
      rw [finish_of_ne h1 h2, finish_of_ne (w := w.above base) h1 h2]

/-- Whatever a walk reads, it keeps some of the segments underneath. If it climbs above its start,
the last one of them is lost, and at some time nothing but the others is left. -/
lemma Walk.exists_above (w : Walk α) (cs : List α) : ∃ kept,
    ((w.above base).run sep dot cs).finish dot = ((w.run sep dot cs).finish dot).above kept ∧
      kept <+: base ∧ ((w.run? sep dot cs).bind (finish? dot) = none → kept <+: base.dropLast ∧
        (((w.above base).run sep dot cs).finish dot = ⟨base.dropLast, []⟩ ∨
          ∃ ds, ds <+: cs ∧ (w.above base).run sep dot ds = ⟨base.dropLast, []⟩)) := by
  induction cs generalizing w base with
  | nil =>
    by_cases h : w.cur = [dot, dot] ∧ w.stack = []
    · have hf : (w.above base).finish dot = ⟨base.dropLast, []⟩ := by
        simp [finish, above, h.1, h.2]
      refine ⟨base.dropLast, ?_, dropLast_prefix base, fun _ => ⟨prefix_rfl, .inl hf⟩⟩
      simp [run, finish, above, h.1, h.2]
    · have hf : w.finish? dot = some (w.finish dot) := if_neg h
      exact ⟨base, finish_above_of_finish? base hf, prefix_rfl, fun hn => nomatch hf.symm.trans hn⟩
  | cons c cs ih =>
    rw [run_cons, run_cons, run?]
    cases h : w.step? sep dot c with
    | some w1 =>
      obtain ⟨kept, he, hk, hd⟩ := ih base w1
      rw [step_above_of_step? base h, show w.step sep dot c = w1 from step_above_of_step? [] h]
      refine ⟨kept, he, hk, fun hn => (hd hn).imp_right (.imp_right ?_)⟩
      rintro ⟨ds, hp, hr⟩
      exact ⟨c :: ds, cons_prefix_cons.2 ⟨rfl, hp⟩, by rwa [run_cons, step_above_of_step? base h]⟩
    | none =>
      obtain ⟨hc, h1, h2⟩ : c = sep ∧ w.cur = [dot, dot] ∧ w.stack = [] := by
        rw [step?] at h
        split at h
        · next hc => exact ⟨hc, by simpa [settle?] using h⟩
        · cases h
      have hs : (w.above base).step sep dot c = ⟨base.dropLast, []⟩ := by
        simp [step, hc, above, h1, h2, settle_dots]
      obtain ⟨kept, he, hk, -⟩ := ih base.dropLast root
      refine ⟨kept, ?_, hk.trans ( dropLast_prefix base),
        fun _ => ⟨hk, .inr ⟨[c], ⟨cs, rfl⟩, hs⟩⟩⟩
      simpa [step, hc, above, h1, h2, settle_dots, root] using he

omit [DecidableEq α] in
lemma render_above (w : Walk α) :
    (w.above base).render sep = Walk.render sep ⟨base, []⟩ ++ (w.render sep).tail := by
  simp [render_eq, Walk.above]

omit [DecidableEq α] in
lemma length_render_dropLast (hb : base ≠ []) :
    (Walk.render sep ⟨base.dropLast, []⟩).length < (Walk.render sep ⟨base, []⟩).length := by
  obtain ⟨init, s, rfl⟩ := (eq_nil_or_concat base).resolve_left hb
  simp [render_eq]

end Over

end Segments
