import Vhttp.Url.Basic

/-!
# The path normaliser computes the reference

`rebuild_path` is simulated by a segment walk: its buffer is the rendering of the walk,
`last_slash` is the last octet of the rendering of the closed segments, and one loop
iteration is one step of the walk (`Sim.put`).

* `dst_rebuildPath`: the buffer at the end is the rendering of the finished walk.
* `normalizePath_path`: `vhttp_url_normalize_path` returns the reference path, on its
  fast path as well.
* `normalizePath_eq_reference`: what that path is; the fall-back is dead code.
-/

namespace Vhttp.Url

open Segments List Prod Walk Rebuild

/-! ## The source as decoded octets -/

/-- The decoded octets of a source that starts at `srcOff`, each with the offset behind it. -/
def units : Bytes → Nat → List (UInt8 × Nat)
  | [], _ => []
  | c :: h :: l :: rest, srcOff =>
    match if c = percent then decodePair h l else none with
    | some decoded => (decoded, srcOff + 3) :: units rest (srcOff + 3)
    | none => (c, srcOff + 1) :: units (h :: l :: rest) (srcOff + 1)
  | c :: rest, srcOff => (c, srcOff + 1) :: units rest (srcOff + 1)

lemma map_fst_units (src : Bytes) (srcOff : Nat) :
    (units src srcOff).map fst = percentDecode src := by
  fun_induction units src srcOff with
  | case1 => rfl
  | case2 srcOff c h l rest decoded hd ih | case3 srcOff c h l rest hd ih =>
    rw [percentDecode, hexOctet_eq, hd]; simp [ih]
  | case4 srcOff c rest hne ih => rw [percentDecode]; simp [ih]; exact hne

/-- An escape is two octets longer than what it stands for. -/
lemma length_percentDecode (p : Bytes) : (percentDecode p).length = p.length ∨
    (percentDecode p).length + 2 ≤ p.length := by
  fun_induction percentDecode p with
  | case1 => exact .inl rfl
  | case2 | case3 | case4 => simp only [length_cons] at *; omega

/-- The loop of `rebuild_path` over octets that are already decoded. -/
def Rebuild.putAll (st : Rebuild) (us : List (UInt8 × Nat)) : Rebuild :=
  us.foldl (fun st u => st.put u.1 u.2) st

lemma Rebuild.loop_eq_putAll (src : Bytes) (srcOff : Nat) (st : Rebuild) :
    Rebuild.loop src srcOff st = st.putAll (units src srcOff) := by
  fun_induction loop src srcOff st with
  | case1 => rfl
  | case2 srcOff st c h l rest decoded hd ih | case3 srcOff st c h l rest hd ih =>
    rw [units, hd]; simp [ih, putAll]
  | case4 srcOff st c rest hne ih => rw [units]; simp [ih, putAll]; exact hne

/-! ## The buffer as a walk -/

/-- The buffer of `rebuild_path` stands for the walk `w`. -/
structure Sim (st : Rebuild) (w : Walk UInt8) : Prop where
  clean : w.Clean slash dot
  dst : st.dst = w.render slash
  lastSlash : st.lastSlash + 1 = (Walk.render slash ⟨w.stack, []⟩).length
  norm : st.normIndexes.length = st.dst.length

lemma sim_init (srcOff : Nat) : Sim (.init srcOff) Walk.root :=
  ⟨clean_root, rfl, rfl, rfl⟩

variable {a b path r s src : Bytes} {c : UInt8}

lemma backToSlash_append (rest : Bytes) (hb : b.getLast? = some slash) (hs : slash ∉ s) :
    backToSlash (b ++ s ++ rest) (b.length + s.length) = b.length := by
  induction s using reverseRecOn generalizing rest with
  | nil =>
    obtain ⟨a, rfl⟩ := getLast?_eq_some_iff.1 hb
    simp [backToSlash]
  | append_singleton s c ih =>
    simp only [mem_append, mem_singleton, not_or] at hs
    have hc : (b ++ (s ++ [c]) ++ rest)[b.length + s.length]? = some c := by
      rw [show b ++ (s ++ [c]) ++ rest = (b ++ s) ++ c :: rest by simp, ← length_append,
        getElem?_append_right (Nat.le_refl _)]
      simp
    rw [length_append, length_singleton, ← Nat.add_assoc, backToSlash, hc,
      if_neg (fun h => hs.2 (Option.some.inj h).symm)]
    simpa using ih (c :: rest) hs.1

/-- The loop of `handle_special_paths` finds the end of the segment below the top one. -/
lemma backToSlash_render {stack : List Bytes} {rest : Bytes} (hs : slash ∉ s) :
    backToSlash (Walk.render slash ⟨stack ++ [s], []⟩ ++ rest)
        ((Walk.render slash ⟨stack ++ [s], []⟩).length - 1)
      = (Walk.render slash ⟨stack, []⟩).length := by
  have hr : render slash ⟨stack ++ [s], []⟩
      = render slash ⟨stack, []⟩ ++ s ++ [slash] := by
    rw [render_append, render_push]
    rfl
  have := backToSlash_append ([slash] ++ rest) (getLast?_render slash stack) hs
  rw [hr, append_assoc _ [slash], length_append, length_append,
    length_singleton, Nat.add_sub_cancel]
  exact this

section Special

variable {dst : Bytes} {stack : List Bytes} {lastSlash : Nat}

lemma handleSpecialPaths_dot (hd : dst = Walk.render slash ⟨stack, [dot]⟩)
    (hl : lastSlash + 1 = (Walk.render slash ⟨stack, []⟩).length) :
    handleSpecialPaths dst dst.length lastSlash = 1 := by
  rw [render_open] at hd
  have hlen : dst.length = (render slash ⟨stack, []⟩).length + 1 := by simp [hd]
  have hg : dst[dst.length - 1]? = some dot := by simp [hd]
  rw [handleSpecialPaths, if_pos ⟨by omega, hg⟩]

lemma handleSpecialPaths_dots (hd : dst = Walk.render slash ⟨stack, [dot, dot]⟩)
    (ha : lastSlash + 1 = (Walk.render slash ⟨stack, []⟩).length) (hs : ∀ s ∈ stack, slash ∉ s) :
    handleSpecialPaths dst dst.length lastSlash
      = dst.length - (Walk.render slash ⟨stack.dropLast, []⟩).length := by
  rw [render_open] at hd
  have hlen : dst.length = (render slash ⟨stack, []⟩).length + 2 := by simp [hd]
  have hg1 : dst[dst.length - 1]? = some dot := by simp [hd]
  have hg2 : dst[dst.length - 2]? = some dot := by simp [hd]
  rw [handleSpecialPaths, if_neg (by omega), if_pos ⟨by omega, hg2, hg1⟩,
    show dst.length - 2 = (render slash ⟨stack, []⟩).length by omega]
  rcases eq_nil_or_concat stack with rfl | ⟨init, s, rfl⟩
  · have ho : (render slash (⟨[], []⟩ : Walk UInt8)).length = 1 := rfl
    rw [if_neg (by omega), dropLast_nil]
    omega
  · have hl : (render slash ⟨init.concat s, []⟩).length > 1 := by
      simp [render_eq]
    rw [if_pos hl, hd, concat_eq_append, backToSlash_render (hs s (by simp)), dropLast_concat]

lemma handleSpecialPaths_of_ne {cur : Bytes} (hd : dst = Walk.render slash ⟨stack, cur⟩)
    (hl : lastSlash + 1 = (Walk.render slash ⟨stack, []⟩).length) (h1 : cur ≠ [dot])
    (h2 : cur ≠ [dot, dot]) : handleSpecialPaths dst dst.length lastSlash = 0 := by
  rw [render_open] at hd
  have hlen : dst.length = (render slash ⟨stack, []⟩).length + cur.length := by simp [hd]
  rw [handleSpecialPaths, if_neg, if_neg]
  · rintro ⟨hp, hg2, hg1⟩
    obtain ⟨a, b, rfl⟩ := length_eq_two.1 (show cur.length = 2 by omega)
    simp only [hd, length_append, length_cons, length_nil] at hg1 hg2
    simp at hg1 hg2
    exact h2 (by rw [hg1, hg2])
  · rintro ⟨hp, hg⟩
    obtain ⟨a, rfl⟩ := length_eq_one_iff.1 (show cur.length = 1 by omega)
    simp only [hd, length_append, length_cons, length_nil] at hg
    simp at hg
    exact h1 (by rw [hg])

end Special

section Loop

variable {st : Rebuild} {w : Walk UInt8}

variable (h : Sim st w)
include h

/-- **`handle_special_paths` takes back exactly what finishing the walk removes.** -/
lemma take_finish :
    st.dst.take (st.dst.length - handleSpecialPaths st.dst st.dst.length st.lastSlash)
      = (w.finish dot).render slash := by
  obtain ⟨stack, cur⟩ := w
  have hl := h.lastSlash
  have hd := h.dst
  have he : ∀ s ∈ stack, slash ∉ s := fun s hs => (h.clean.stack s hs).no_sep
  by_cases h1 : cur = [dot]
  · subst h1
    rw [handleSpecialPaths_dot hd hl, finish_eq_settle (.inl rfl), settle_dot]
    simp [hd, render_open slash ⟨stack, [dot]⟩]
  · by_cases h2 : cur = [dot, dot]
    · subst h2
      rw [handleSpecialPaths_dots hd hl he, finish_eq_settle (.inr rfl), settle_dots]
      -- the stack below the top segment renders to an initial part of the buffer
      rcases eq_nil_or_concat stack with rfl | ⟨init, s, rfl⟩
      · rw [hd]
        rfl
      · have hp : st.dst = render slash ⟨init, []⟩ ++ (s ++ [slash] ++ [dot, dot]) := by
          simp [hd, render_eq]
        simp only [concat_eq_append, dropLast_concat]
        rw [hp]
        simp
    · rw [handleSpecialPaths_of_ne hd hl h1 h2, finish_of_ne h1 h2, Nat.sub_zero,
        take_length, hd]

lemma length_take_finish : st.dst.length - handleSpecialPaths st.dst st.dst.length st.lastSlash
      = ((w.finish dot).render slash).length := by
  rw [← take_finish h, length_take]
  omega

lemma handleSpecialPaths_pos (hd : w.cur = [dot] ∨ w.cur = [dot, dot]) :
    handleSpecialPaths st.dst st.dst.length st.lastSlash > 0 := by
  have hlen := length_take_finish h
  rw [finish_eq_settle hd] at hlen
  have hl : (render slash ⟨settle dot w.stack w.cur, []⟩).length < (w.render slash).length := by
    rcases hd with hd | hd
    · simp [hd, settle_dot, render_eq]
    · rcases eq_nil_or_concat w.stack with hw | ⟨init, s, hw⟩ <;>
        simp [hd, hw, settle_dots, render_eq]
  rw [← hlen, ← h.dst] at hl
  omega

/-- **One iteration of the loop is one step of the walk.** -/
theorem Sim.put (c : UInt8) (srcOff : Nat) : Sim (st.put c srcOff) (w.step slash dot c) := by
  by_cases hc : c = slash
  · subst hc
    by_cases hd : w.cur = [dot] ∨ w.cur = [dot, dot]
    · have hstep : w.step slash dot slash = w.finish dot := by
        rw [step, if_pos rfl, finish_eq_settle hd]
      have hp : st.put slash srcOff
          = st.rewind (handleSpecialPaths st.dst st.dst.length st.lastSlash) := by
        rw [Rebuild.put, if_pos rfl]
        exact if_pos (handleSpecialPaths_pos h hd)
      have hlen := length_take_finish h
      refine ⟨h.clean.step slash, ?_, ?_, ?_⟩
      · rw [hp, hstep]
        exact take_finish h
      · rw [hp, hstep, finish_eq_settle hd, ← finish_eq_settle hd, ← hlen]
        have := length_render_pos slash (w.finish dot)
        simp only [rewind]
        omega
      · simp [hp, rewind, h.norm]
    · obtain ⟨h1, h2⟩ := not_or.1 hd
      have hp : st.put slash srcOff
          = write { st with lastSlash := st.dst.length } slash srcOff := by
        rw [Rebuild.put, if_pos rfl, handleSpecialPaths_of_ne h.dst h.lastSlash h1 h2]
        rfl
      have hstep : w.step slash dot slash = ⟨w.stack ++ [w.cur], []⟩ := by
        rw [step, if_pos rfl, settle_of_ne h1 h2]
      refine ⟨h.clean.step slash, ?_, ?_, ?_⟩
      · rw [hp, hstep, ← render_push, ← h.dst]
        rfl
      · rw [hp, hstep, ← render_push, ← h.dst]
        simp [write]
      · simp [hp, write, h.norm]
  · have hp : st.put c srcOff = st.write c srcOff := if_neg hc
    have hstep : w.step slash dot c = ⟨w.stack, w.cur ++ [c]⟩ := if_neg hc
    refine ⟨h.clean.step c, ?_, ?_, ?_⟩
    · rw [hp, hstep, ← render_append, ← h.dst]
      rfl
    · rw [hp, hstep]
      exact h.lastSlash
    · simp [hp, write, h.norm]

lemma Sim.putAll (us : List (UInt8 × Nat)) :
    Sim (st.putAll us) (w.run slash dot (us.map fst)) := by
  induction us generalizing st w with
  | nil => exact h
  | cons u us ih => exact ih (h.put u.1 u.2)

end Loop

/-! ## `rebuild_path` -/

/-- The source behind its leading slash. -/
def body (src : Bytes) : Bytes :=
  (pathPart src).drop (if (pathPart src).head? = some slash then 1 else 0)

/-- The walk over the whole source of `rebuild_path`. -/
def walkOf (src : Bytes) : Walk UInt8 := Walk.root.run slash dot (percentDecode (body src))

lemma sim_loop (src : Bytes) (srcOff : Nat) :
    Sim (Rebuild.loop (body src) srcOff (.init srcOff)) (walkOf src) := by
  rw [loop_eq_putAll, walkOf, ← map_fst_units _ srcOff]
  exact (sim_init srcOff).putAll _

/-- **The buffer at the end of `rebuild_path` is the rendering of the finished walk.** -/
theorem dst_rebuildPath (src : Bytes) :
    (rebuildPath src).dst = ((walkOf src).finish dot).render slash :=
  take_finish (sim_loop src _)

lemma percentDecode_slash (p : Bytes) : percentDecode (slash :: p) = slash :: percentDecode p := by
  match p with
  | [] => rfl
  | [_] => rfl
  | _ :: _ :: _ => rw [percentDecode, if_neg (by decide)]

lemma decode_withSlash (p : Bytes) : (percentDecode (withSlash p)).tail
      = percentDecode (p.drop (if p.head? = some slash then 1 else 0)) := by
  by_cases h : p.head? = some slash
  · obtain ⟨q, rfl⟩ := head?_eq_some_iff.1 h
    rw [withSlash, if_pos h, if_pos h, percentDecode_slash]
    rfl
  · rw [withSlash, if_neg h, if_neg h, percentDecode_slash]
    rfl

lemma referencePath_eq (path : Bytes) :
    referencePath path = ((walkOf path).finish dot).render slash := by
  have h := segs_finish_run slash dot root (percentDecode (body path))
  obtain ⟨s, rest, hs⟩ :=
    exists_cons_of_ne_nil (splitOn_ne_nil slash (percentDecode (body path)))
  rw [referencePath, removeDotSegments, decode_withSlash, render, walkOf, h]
  change slash :: [slash].intercalate (resolve dot [] ((percentDecode (body path)).splitOn slash)) = _
  rw [hs]
  rfl

/-! ## The segments of the result -/

lemma clean_walkOf (src : Bytes) : (walkOf src).Clean slash dot := clean_root.run _

lemma splitOn_referencePath (path : Bytes) :
    (referencePath path).splitOn slash = [] :: ((walkOf path).finish dot).segs := by
  have he := fun s hs => ((clean_walkOf path).finish s hs).no_sep
  rw [referencePath_eq, ← splitOn_render he, render, tail_cons]
  exact splitOn_append_cons_self [] _

/-- No segment of the reference path is `.` or `..`. -/
lemma cleanSeg_of_mem_referencePath
    (hs : s ∈ (referencePath path).splitOn slash) : CleanSeg slash dot s := by
  rw [splitOn_referencePath, mem_cons] at hs
  rcases hs with rfl | hs
  · exact cleanSeg_nil
  · exact (clean_walkOf path).finish s hs

lemma splitOn_dots : ([dot, dot] : Bytes).splitOn slash = [[dot, dot]] := by decide

lemma dots_mem_of_eq_append (h : r = a ++ ascii "/../" ++ b) : [dot, dot] ∈ r.splitOn slash := by
  have : r = a ++ slash :: ([dot, dot] ++ slash :: b) := by
    rw [h, append_assoc]
    rfl
  rw [this, splitOn_append_cons_self, splitOn_append_cons_self, splitOn_dots]
  simp

lemma dots_mem_of_suffix (h : r = a ++ ascii "/..") : [dot, dot] ∈ r.splitOn slash := by
  have : r = a ++ slash :: [dot, dot] := h
  rw [this, splitOn_append_cons_self, splitOn_dots]
  simp

lemma dots_notMem_referencePath (path : Bytes) :
    [dot, dot] ∉ (referencePath path).splitOn slash :=
  fun h => (cleanSeg_of_mem_referencePath h).ne_dots rfl

lemma eq_append_of_strstr {haystack needle : Bytes} (h : (strstr haystack needle).isSome) :
    ∃ a b, haystack = a ++ needle ++ b := by
  obtain ⟨off, ho⟩ := Option.isSome_iff_exists.1 h
  have hp : needle.isPrefixOf (haystack.drop off) := find?_some (p := fun off =>
    needle.isPrefixOf (haystack.drop off)) ho
  obtain ⟨b, hb⟩ := isPrefixOf_iff_prefix.1 hp
  exact ⟨haystack.take off, b, by rw [append_assoc, hb, take_append_drop]⟩

/-- **The checks behind `Rewrite` never fire**, so its result is the reference path. -/
lemma rewrite_eq (path : Bytes) : rewrite path
      = ⟨referencePath path, queryOffset path, some (rebuildPath path).normIndexes, .rebuilt⟩ := by
  have hd : (rebuildPath path).dst = referencePath path := by
    rw [dst_rebuildPath, referencePath_eq]
  have hn := dots_notMem_referencePath path
  rw [rewrite, hd, if_neg]
  rintro (h | h | h | ⟨-, h⟩)
  · cases h
  · exact h rfl
  · obtain ⟨a, b, ha⟩ := eq_append_of_strstr h
    exact hn (dots_mem_of_eq_append ha)
  · apply hn
    rw [← take_append_drop ((referencePath path).length - 3) (referencePath path), h]
    exact dots_mem_of_suffix rfl

/-! ## The fast path -/

lemma percentDecode_cons_of_ne (hc : c ≠ percent) (p : Bytes) :
    percentDecode (c :: p) = c :: percentDecode p := by
  match p with
  | [] => rfl
  | [_] => rfl
  | _ :: _ :: _ => rw [percentDecode, if_neg hc]

/-- What a scan that does not ask for a rewrite has seen: the path part holds nothing to
decode, and no segment in it starts with a dot. -/
structure Plain (src : Bytes) : Prop where
  decode : percentDecode src = src
  noDot : ¬ [slash, dot] <:+: src

lemma plain_of_length_le_one (h : src.length ≤ 1) : Plain src := by
  match src, h with
  | [], _ => exact ⟨rfl, by simp⟩
  | [c], _ => exact ⟨rfl, fun hi => by simpa using hi.length_le⟩

@[simp] lemma pathPart_nil : pathPart [] = [] := rfl

@[simp] lemma pathPart_question (rest : Bytes) : pathPart (question :: rest) = [] := by
  simp [pathPart]

lemma pathPart_cons (hc : c ≠ question) (rest : Bytes) :
    pathPart (c :: rest) = c :: pathPart rest := by
  simp [pathPart, hc]

lemma queryOffset_cons (hc : c ≠ question) (rest : Bytes) :
    queryOffset (c :: rest) = (queryOffset rest).map (1 + ·) := by
  simp only [queryOffset, mem_cons, Ne.symm hc, false_or, pathPart_cons hc, length_cons]
  split <;> simp [Nat.add_comm]

lemma plain_cons (h : Plain src) (hpc : c ≠ percent)
    (hs : ¬(c = slash ∧ src.head? = some dot)) : Plain (c :: src) := by
  refine ⟨by rw [percentDecode_cons_of_ne hpc, h.decode], ?_⟩
  rw [infix_cons_iff]
  rintro (hp | hi)
  · obtain ⟨hc, t, ht⟩ := cons_prefix_cons.1 hp
    exact hs ⟨hc.symm, by rw [← ht]; rfl⟩
  · exact h.noDot hi

lemma scan_eq_some {p n : Nat} {q : Option Nat} (h : scan src p = some (n, q)) :
    n = p + (pathPart src).length ∧ q = (queryOffset src).map (p + ·) ∧ Plain (pathPart src) := by
  fun_induction scan src p with
  | case1 p =>
    obtain ⟨rfl, rfl⟩ : p = n ∧ none = q := by simpa using h
    exact ⟨rfl, rfl, plain_of_length_le_one (by simp)⟩
  | case2 p | case5 d rest p hb =>
    obtain ⟨rfl, rfl⟩ : p = n ∧ some p = q := by simpa using h
    exact ⟨by simp, by simp [queryOffset], plain_of_length_le_one (by simp)⟩
  | case3 c p hc =>
    obtain ⟨rfl, rfl⟩ : p + 1 = n ∧ none = q := by simpa using h
    rw [pathPart_cons hc, queryOffset_cons hc]
    exact ⟨rfl, rfl, plain_of_length_le_one (by simp)⟩
  | case4 c d rest p hb => cases h
  | case6 c d rest p hb hc ih =>
    obtain ⟨hs, hp⟩ := not_or.1 hb
    obtain ⟨hn, hq, hl⟩ := ih h
    rw [pathPart_cons hc, queryOffset_cons hc]
    refine ⟨by rw [hn, length_cons]; omega, ?_, plain_cons hl hp ?_⟩
    · rw [hq, Option.map_map]
      congr 1
      funext k
      simp [Nat.add_assoc]
    · rintro ⟨hcs, hd⟩
      -- the path part behind `c` starts with `d`, unless `d` is the question mark
      by_cases hdq : d = question
      · simp [hdq] at hd
      · rw [pathPart_cons hdq] at hd
        exact hs ⟨hcs, Option.some.inj hd⟩

/-- A walk over segments that do not start with a dot keeps all of them. -/
lemma render_run_plain {w : Walk UInt8} {cs : Bytes} (hw : w.cur.head? ≠ some dot)
    (hs : w.cur = [] → cs.head? ≠ some dot) (hn : ¬ [slash, dot] <:+: cs) :
    (w.run slash dot cs).render slash = w.render slash ++ cs ∧
      (w.run slash dot cs).cur.head? ≠ some dot := by
  induction cs generalizing w with
  | nil => exact ⟨by simp [run], hw⟩
  | cons c cs ih =>
    have hn' : ¬ [slash, dot] <:+: cs := fun hi => hn (infix_cons_iff.2 (.inr hi))
    rw [run_cons]
    by_cases hc : c = slash
    · have hstep : w.step slash dot c = ⟨w.stack ++ [w.cur], []⟩ := by
        rw [step, if_pos hc, settle_of_ne] <;> · intro h; simp [h] at hw
      have hh : cs.head? ≠ some dot := by
        intro hd
        obtain ⟨t, rfl⟩ := head?_eq_some_iff.1 hd
        exact hn ⟨[], t, by simp [hc]⟩
      obtain ⟨hr, hu⟩ := ih (w := w.step slash dot c) (by simp [hstep]) (fun _ => hh) hn'
      refine ⟨?_, hu⟩
      rw [hr, hstep, ← render_push, hc]
      simp
    · have hstep : w.step slash dot c = ⟨w.stack, w.cur ++ [c]⟩ := if_neg hc
      have hh : (w.cur ++ [c]).head? ≠ some dot := by
        cases hu : w.cur with
        | nil => simpa [hu] using hs
        | cons a t => simpa [hu] using hw
      obtain ⟨hr, hu⟩ := ih (w := w.step slash dot c) (by rw [hstep]; exact hh)
        (by simp [hstep]) hn'
      refine ⟨?_, hu⟩
      rw [hr, hstep, ← render_append]
      simp

/-- On the fast path the reference changes nothing. -/
lemma referencePath_of_plain (hs : path.head? = some slash)
    (h : Plain (pathPart path)) : referencePath path = pathPart path := by
  obtain ⟨rest, rfl⟩ := head?_eq_some_iff.1 hs
  have hp : pathPart (slash :: rest) = slash :: pathPart rest := pathPart_cons (by decide) rest
  rw [hp] at h ⊢
  have hb : percentDecode (body (slash :: rest)) = pathPart rest := by
    have := h.decode
    rw [percentDecode_slash] at this
    simpa [body, hp] using cons_injective this
  have hh : (pathPart rest).head? ≠ some dot := by
    intro hd
    obtain ⟨t, ht⟩ := head?_eq_some_iff.1 hd
    exact h.noDot ⟨[], t, by simp [ht]⟩
  have hn : ¬ [slash, dot] <:+: pathPart rest :=
    fun hi => h.noDot (infix_cons_iff.2 (.inr hi))
  obtain ⟨hr, hc⟩ := render_run_plain (w := root) (by simp [root]) (fun _ => hh) hn
  rw [referencePath_eq, walkOf, hb, finish_of_ne, hr]
  · rfl
  · intro he
    simp [he] at hc
  · intro he
    simp [he] at hc

/-! ## `vhttp_url_normalize_path` -/

lemma queryOffset_eq_idxOf? (path : Bytes) : queryOffset path = path.idxOf? question := by
  induction path with
  | nil => rfl
  | cons c rest ih =>
    by_cases hc : c = question
    · simp [queryOffset, hc, idxOf?_cons]
    · rw [queryOffset_cons hc, ih, idxOf?_cons]
      simp [hc, Nat.add_comm]

/-- What the normaliser returns. There is no index map for the empty path and on the fast path. -/
lemma normalizePath_eq (path : Bytes) : ∃ normIndexes exit,
    normalizePath path = ⟨referencePath path, queryOffset path, normIndexes, exit⟩ ∧
      exit ≠ .rewriteError ∧ (normIndexes = some (rebuildPath path).normIndexes ∨
        normIndexes = none ∧ (path = [] ∨ path.head? = some slash ∧ Plain (pathPart path))) := by
  rw [normalizePath, rewrite_eq]
  split
  · rename_i h
    subst h
    exact ⟨none, .asIs, rfl, by simp, .inr ⟨rfl, .inl rfl⟩⟩
  · split
    · exact ⟨_, .rebuilt, rfl, by simp, .inl rfl⟩
    · rename_i hs
      rw [not_ne_iff] at hs
      split
      · exact ⟨_, .rebuilt, rfl, by simp, .inl rfl⟩
      · rename_i n q hc
        obtain ⟨rfl, rfl, hl⟩ := scan_eq_some hc
        refine ⟨none, .asIs, ?_, by simp, .inr ⟨rfl, .inr ⟨hs, hl⟩⟩⟩
        have hp : pathPart path <+: path := takeWhile_prefix _
        rw [referencePath_of_plain hs hl, Nat.zero_add, ← prefix_iff_eq_take.1 hp]
        simp

/-- The normaliser returns the reference path. -/
theorem normalizePath_path (path : Bytes) : (normalizePath path).path = referencePath path := by
  obtain ⟨_, _, h, -⟩ := normalizePath_eq path
  rw [h]

/-- **The normaliser computes the reference path.**  For every input the result is the
reference path; it starts with a slash and has no segment `.` or `..`; `query_at` is the
offset of the first question mark, if there is one; and the fall-back exit is not taken. -/
theorem normalizePath_eq_reference (path : Bytes) : (normalizePath path).path = referencePath path ∧
    (normalizePath path).path.head? = some slash ∧
    (∀ s ∈ (normalizePath path).path.splitOn slash, s ≠ [dot] ∧ s ≠ [dot, dot]) ∧
    (normalizePath path).queryAt = path.idxOf? question ∧
    (normalizePath path).exit ≠ .rewriteError := by
  obtain ⟨_, _, h, he, -⟩ := normalizePath_eq path
  rw [h]
  refine ⟨rfl, rfl, fun s hs => ?_, queryOffset_eq_idxOf? path, he⟩
  have hc := cleanSeg_of_mem_referencePath hs
  exact ⟨hc.ne_dot, hc.ne_dots⟩

example : (normalizePath (ascii "/mydir/%2e%2E/abc/.././def/..?q")).path = ascii "/" := by decide

end Vhttp.Url
