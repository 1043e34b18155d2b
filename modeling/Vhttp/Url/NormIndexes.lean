import Vhttp.Url.Normalize

/-!
# The index map of the path normaliser

`norm_indexes[k]` is the source offset behind the octet that wrote `dst[k]`. Once
written, the octets `dst[0..k]` stay until the end of the input, or `norm_indexes[k]`
would have been overwritten. So the source from that offset on is what the rest of the
normalised path comes from.

* `kept_of_normIndexes`: the source can be cut at `norm_indexes[k]`; the first part walks
  to the octets `dst[0..k]`, and the second part never takes any of them back.
* `rest_of_dir`, `rest_of_name`: behind a directory of the normalised
  path, the rest of it is what the rest of the source gives on its own.
-/

namespace Vhttp.Url

open Segments List Prod Walk

/-! ## Offsets of decoded octets -/

/-- The source offset behind a list of decoded octets that starts at `srcOff`. -/
def endOff (srcOff : Nat) (us : List (UInt8 × Nat)) : Nat := (us.getLast?.map snd).getD srcOff

lemma endOff_cons (srcOff : Nat) (u : UInt8 × Nat) (us : List (UInt8 × Nat)) :
    endOff srcOff (u :: us) = endOff u.2 us := by
  cases us with
  | nil => rfl
  | cons v us => simp [endOff, getLast?_cons]

variable {conf cs path src tail : Bytes} {i k srcOff : Nat} {w : Walk UInt8}

/-- The first decoded octet takes one or three octets of the source. -/
lemma exists_units_eq_cons (h : src ≠ []) (srcOff : Nat) :
    ∃ d n, 0 < n ∧ (n = 1 → src.head? = some d) ∧ n ≤ src.length ∧
      units src srcOff = (d, srcOff + n) :: units (src.drop n) (srcOff + n) := by
  rcases src with _ | ⟨c, _ | ⟨x, _ | ⟨y, rest⟩⟩⟩
  · exact absurd rfl h
  · exact ⟨c, 1, Nat.one_pos, fun _ => rfl, by simp, rfl⟩
  · exact ⟨c, 1, Nat.one_pos, fun _ => rfl, by simp, rfl⟩
  · rw [units]
    cases (if c = percent then decodePair x y else none) with
    | some decoded => exact ⟨decoded, 3, by simp, by simp, by simp, rfl⟩
    | none => exact ⟨c, 1, Nat.one_pos, fun _ => rfl, by simp, rfl⟩

/-- Behind a list of decoded octets, the source is decoded from its offset on. -/
lemma units_eq_append {pre post : List (UInt8 × Nat)} (h : units src srcOff = pre ++ post) :
    srcOff + pre.length ≤ endOff srcOff pre ∧ endOff srcOff pre ≤ srcOff + src.length ∧
      post = units (src.drop (endOff srcOff pre - srcOff)) (endOff srcOff pre) := by
  induction pre generalizing src srcOff with
  | nil => exact ⟨Nat.le_refl _, Nat.le_add_right _ _, by simpa [endOff] using h.symm⟩
  | cons u pre ih =>
    have hne : src ≠ [] := by
      rintro rfl
      simp [units] at h
    obtain ⟨d, n, hpos, -, hn, hc⟩ := exists_units_eq_cons hne srcOff
    rw [hc, cons_append] at h
    obtain ⟨hu, ht⟩ := List.cons.inj h
    obtain ⟨h1, h2, h3⟩ := ih ht
    rw [length_drop] at h2
    rw [endOff_cons, ← hu, length_cons]
    dsimp only
    refine ⟨by omega, by omega, ?_⟩
    rw [h3, drop_drop]
    congr 2
    omega

/-! ## What the map keeps -/

/-- The octets `0..k` of the walk over `us` were completed at source offset `i`, and none
of them has been taken back since. -/
def Kept (srcOff : Nat) (us : List (UInt8 × Nat)) (k i : Nat) : Prop :=
  ∃ pre post, us = pre ++ post ∧ endOff srcOff pre = i ∧
    ((Walk.root.run slash dot (pre.map fst)).render slash).length = k + 1 ∧
    ∀ q, q <+: post → (Walk.root.run slash dot (pre.map fst)).render slash <+:
      (Walk.root.run slash dot ((pre ++ q).map fst)).render slash

lemma Kept.append {us : List (UInt8 × Nat)} {u : UInt8 × Nat} (h : Kept srcOff us k i)
    (hu : ∀ r : Bytes, r.length = k + 1 →
      r <+: (Walk.root.run slash dot (us.map fst)).render slash →
      r <+: (Walk.root.run slash dot ((us ++ [u]).map fst)).render slash) :
    Kept srcOff (us ++ [u]) k i := by
  obtain ⟨pre, post, rfl, hi, hk, hp⟩ := h
  refine ⟨pre, post ++ [u], by simp, hi, hk, fun q hq => ?_⟩
  rcases prefix_concat_iff.1 hq with rfl | hq
  · rw [← append_assoc]
    exact hu _ hk (hp post (prefix_refl _))
  · exact hp q hq

/-- How one iteration of the loop changes the index map: it is cut with the buffer, or it
grows with it. -/
lemma normIndexes_put (st : Rebuild) (c : UInt8) (srcOff : Nat) :
    (∃ n, (st.put c srcOff).dst = st.dst.take n ∧
      (st.put c srcOff).normIndexes = st.normIndexes.take n) ∨
    (∃ d, (st.put c srcOff).dst = st.dst ++ [d] ∧
      (st.put c srcOff).normIndexes = st.normIndexes ++ [srcOff]) := by
  rw [Rebuild.put]
  by_cases hc : c = slash
  · rw [if_pos hc]
    dsimp only
    split
    · exact .inl ⟨_, rfl, rfl⟩
    · exact .inr ⟨c, rfl, rfl⟩
  · rw [if_neg hc]
    exact .inr ⟨c, rfl, rfl⟩

lemma putAll_append (st : Rebuild) (us : List (UInt8 × Nat)) (u : UInt8 × Nat) :
    st.putAll (us ++ [u]) = (st.putAll us).put u.1 u.2 := by
  simp [Rebuild.putAll]

lemma kept_putAll (srcOff : Nat) (us : List (UInt8 × Nat))
    (h : ((Rebuild.init srcOff).putAll us).normIndexes[k]? = some i) : Kept srcOff us k i := by
  induction us using reverseRecOn generalizing k i with
  | nil =>
    have hk : k = 0 ∧ srcOff = i := by
      change [srcOff][k]? = some i at h
      rcases k with _ | k
      · exact ⟨rfl, by simpa using h⟩
      · simp at h
    obtain ⟨rfl, rfl⟩ := hk
    exact ⟨[], [], rfl, rfl, rfl, fun q hq => by rw [prefix_nil.1 hq]; exact ⟨[], rfl⟩⟩
  | append_singleton us u ih =>
    have hs := (sim_init srcOff).putAll us
    have hs' := (sim_init srcOff).putAll (us ++ [u])
    rw [putAll_append] at h hs'
    have hlen := hs'.norm
    rw [hs'.dst] at hlen
    have hk : k < ((root.run slash dot ((us ++ [u]).map fst)).render slash).length := by
      rw [← hlen]
      exact (List.getElem?_eq_some_iff.1 h).1
    rcases normIndexes_put _ u.1 u.2 with ⟨n, hd, hn⟩ | ⟨d, hd, hn⟩
    · -- the buffer was rewound, to more than `k` octets
      rw [hn] at h
      obtain ⟨ht, -⟩ := List.getElem?_eq_some_iff.1 h
      rw [length_take] at ht
      rw [getElem?_take_of_lt (by omega)] at h
      rw [hs'.dst, hs.dst] at hd
      refine (ih h).append fun r hr hp => ?_
      rw [hd, prefix_take_iff]
      rw [hd, length_take] at hk
      exact ⟨hp, by omega⟩
    · rw [hn] at h
      rw [hs'.dst, hs.dst] at hd
      by_cases hl : k < ((Rebuild.init srcOff).putAll us).normIndexes.length
      · rw [getElem?_append_left hl] at h
        refine (ih h).append fun r _ hp => ?_
        rw [hd]
        exact hp.trans (prefix_append _ _)
      · -- the octet written last
        rw [getElem?_append_right (Nat.not_lt.1 hl)] at h
        have he : k = ((Rebuild.init srcOff).putAll us).normIndexes.length := by
          rw [hd, length_append, ← hs.dst, ← hs.norm] at hk
          simp at hk
          omega
        have hi : u.2 = i := by simpa [he] using h
        refine ⟨us ++ [u], [], by simp, by simpa [endOff] using hi, ?_, fun q hq => ?_⟩
        · rw [hd, length_append, ← hs.dst, ← hs.norm, he]
          rfl
        · rw [prefix_nil.1 hq, append_nil]

/-- The offset at which the loop of `rebuild_path` starts. -/
def startOff (path : Bytes) : Nat := if (pathPart path).head? = some slash then 1 else 0

/-- The last rewind cuts the map with the buffer. -/
lemma normIndexes_rebuildPath (path : Bytes) : (rebuildPath path).normIndexes
      = (Rebuild.loop (body path) (startOff path) (.init (startOff path))).normIndexes.take
          (referencePath path).length := by
  rw [referencePath_eq, ← length_take_finish (sim_loop path (startOff path))]
  rfl

lemma length_normIndexes_rebuildPath (path : Bytes) :
    (rebuildPath path).normIndexes.length = (referencePath path).length := by
  have hs := sim_loop path (startOff path)
  have hl := (prefix_render_finish slash dot (walkOf path)).length_le
  rw [← referencePath_eq, ← hs.dst, ← hs.norm] at hl
  rw [normIndexes_rebuildPath, length_take, Nat.min_eq_left hl]

/-- **The source can be cut at `norm_indexes[k]`.**  The part before it walks to the octets
`0..k` of the result, and the part behind it never takes any of them back. -/
theorem kept_of_normIndexes (h : (rebuildPath path).normIndexes[k]? = some i) :
    ∃ w : Walk UInt8, w.Clean slash dot ∧ (w.render slash).length = k + 1 ∧ k + startOff path ≤ i ∧
      (startOff path = 0 → i = 1 →
        ∃ c, (pathPart path).head? = some c ∧ w = root.run slash dot [c]) ∧
      i ≤ (pathPart path).length ∧
      walkOf path = w.run slash dot (percentDecode ((pathPart path).drop i)) ∧
      (∀ q, q <+: percentDecode ((pathPart path).drop i) →
        w.render slash <+: (w.run slash dot q).render slash) ∧
      w.render slash <+: referencePath path := by
  have hsi := sim_loop path (startOff path)
  rw [normIndexes_rebuildPath] at h
  obtain ⟨ht, -⟩ := List.getElem?_eq_some_iff.1 h
  rw [length_take] at ht
  rw [getElem?_take_of_lt (by omega), Rebuild.loop_eq_putAll] at h
  obtain ⟨pre, post, hu, hi, hk, hkp⟩ := kept_putAll _ _ h
  obtain ⟨hl, hg, hp⟩ := units_eq_append hu
  rw [hi] at hl hg hp
  have hlen : startOff path + (body path).length = (pathPart path).length := by
    rw [body, startOff]
    split
    · rename_i hs
      obtain ⟨q, hq⟩ := head?_eq_some_iff.1 hs
      simp [hq, Nat.add_comm]
    · simp
  have hd : (body path).drop (i - startOff path) = (pathPart path).drop i := by
    rw [body, drop_drop]
    congr 1
    rw [startOff] at hl ⊢
    omega
  rw [hd] at hp
  have hm : post.map fst = percentDecode ((pathPart path).drop i) := by
    rw [hp, map_fst_units]
  have hw : walkOf path = (root.run slash dot (pre.map fst)).run slash dot
      (percentDecode ((pathPart path).drop i)) := by
    rw [walkOf, ← map_fst_units _ (startOff path), hu, map_append, run_append, hm]
  have hr := length_render_run slash dot root (pre.map fst)
  rw [length_map, show (root.render slash).length = 1 from rfl] at hr
  refine ⟨_, clean_root.run _, hk, by omega, fun h0 h1 => ?_, by omega, hw, fun q hq => ?_, ?_⟩
  · -- only the first octet has been read
    rw [h0] at hi hl hu
    cases pre with
    | nil => cases hi.trans h1
    | cons u pre =>
      obtain rfl : pre = [] := length_eq_zero_iff.1 (by rw [length_cons] at hl; omega)
      have hb : body path ≠ [] := fun he => by simp [he, units] at hu
      obtain ⟨d, n, -, hd, -, hc⟩ := exists_units_eq_cons hb 0
      rw [hc] at hu
      obtain rfl := (List.cons.inj hu).1
      have hn : n = 1 := (Nat.zero_add n).symm.trans (Eq.trans hi h1)
      have hh : ((pathPart path).drop (startOff path)).head? = some d := hd hn
      exact ⟨d, by rwa [h0] at hh, rfl⟩
  · rw [← hm] at hq
    obtain ⟨q', hq', rfl⟩ := prefix_map_iff.1 hq
    rw [← run_append, ← map_append]
    exact hkp q' hq'
  · have ha := hkp post (prefix_refl _)
    rw [map_append, run_append, hm, ← hw, ← hsi.dst] at ha
    have hf : referencePath path <+: (Rebuild.loop (body path) (startOff path)
        (.init (startOff path))).dst := by
      rw [referencePath_eq, hsi.dst]
      exact prefix_render_finish slash dot _
    exact prefix_of_prefix_length_le ha hf (by omega)

/-! ## The rest of the path on its own -/

/-- Reading the decoded octets `cs` on their own gives the path `/tail`, and never asks for
a segment above the place where they start. -/
def Rest (cs tail : Bytes) : Prop :=
  ∃ w : Walk UInt8, (Walk.root.run? slash dot cs).bind (finish? dot) = some w ∧
    (w.render slash).tail = tail

lemma eq_above_root (base : List Bytes) : (⟨base, []⟩ : Walk UInt8) = root.above base := by
  simp [above, root]

/-- Such octets give the same behind any directory. -/
lemma Rest.render_above (h : Rest cs tail) (base : List Bytes) :
    ((Walk.run slash dot ⟨base, []⟩ cs).finish dot).render slash
      = Walk.render slash ⟨base, []⟩ ++ tail := by
  obtain ⟨w', h, rfl⟩ := h
  obtain ⟨w, hr, hf⟩ := Option.bind_eq_some_iff.1 h
  rw [eq_above_root, run_above_of_run? base hr, finish_above_of_finish? base hf,
    Segments.render_above, ← eq_above_root]

lemma rest_of_keeps (base : List Bytes) (hb : base ≠ [])
    (hr : ∀ q, q <+: cs → Walk.render slash ⟨base, []⟩ <+:
      (Walk.run slash dot ⟨base, []⟩ q).render slash)
    (hf : ((Walk.run slash dot ⟨base, []⟩ cs).finish dot).render slash
      = Walk.render slash ⟨base, []⟩ ++ tail) : Rest cs tail := by
  cases h : (root.run? slash dot cs).bind (finish? dot) with
  | some w =>
    have he := Rest.render_above ⟨w, h, rfl⟩ base
    exact ⟨w, h, append_cancel_left (he.symm.trans hf)⟩
  | none =>
    -- the last segment of the directory would be taken back
    have hlen : (render slash ⟨base.dropLast, []⟩).length < _ := length_render_dropLast base hb
    obtain ⟨kept, -, -, hd⟩ := exists_above base root cs
    obtain ⟨-, he | ⟨q, hq, he⟩⟩ := hd h
    · rw [eq_above_root, he, ← eq_above_root] at hf
      rw [hf, length_append] at hlen
      omega
    · have := hr q hq
      rw [eq_above_root, he, ← eq_above_root] at this
      exact absurd this.length_le (Nat.not_le.2 hlen)

lemma Walk_eq_of_getLast? (hw : w.Clean slash dot)
    (h : (w.render slash).getLast? = some slash) : w = ⟨w.stack, []⟩ := by
  rcases eq_nil_or_concat w.cur with hc | ⟨init, c, hc⟩
  · rw [← hc]
  · rw [render_open, hc, concat_eq_append, ← append_assoc, getLast?_concat] at h
    have hu := hw.cur
    rw [hc, Option.some.inj h] at hu
    simp at hu

lemma prefix_concat_of_ne {r : Bytes} (h : conf <+: r) (hne : r ≠ conf) :
    conf.length + 1 ≤ r.length := by
  obtain ⟨t, rfl⟩ := h
  cases t with
  | nil => simp at hne
  | cons a t => simp

/-- The rest of a rebuilt path behind a directory that ends with a slash. -/
theorem rest_of_dir (hlen : 1 < conf.length)
    (hs : conf.getLast? = some slash) (hN : referencePath path = conf ++ tail)
    (h : (rebuildPath path).normIndexes[conf.length - 1]? = some i) :
    Rest (percentDecode ((pathPart path).drop i)) tail := by
  obtain ⟨w, hc, hk, -, -, -, ha, hkp, u, hu⟩ := kept_of_normIndexes h
  have hw : w.render slash = conf := (append_inj (hu.trans hN) (by omega)).1
  have hb := Walk_eq_of_getLast? hc (by rw [hw, hs])
  rw [hb] at hw ha hkp
  have hne : w.stack ≠ [] := by
    intro hn
    rw [hn] at hw
    rw [← hw] at hlen
    exact absurd hlen (by decide)
  refine rest_of_keeps w.stack hne hkp ?_
  rw [← ha, ← referencePath_eq, hN, hw]

/-- A walk whose rendering does not end with a slash: if nothing of it is ever taken back,
the first octet read behind it stays as well. -/
lemma concat_prefix_run {c : UInt8} (ha : (w.render slash).getLast? ≠ some slash)
    (hk : ∀ q, q <+: c :: cs → w.render slash <+: (w.run slash dot q).render slash) :
    ∀ q, q <+: cs → w.render slash ++ [c] <+: (w.run slash dot (c :: q)).render slash := by
  -- a rendering that ends with a slash is not the one we started from
  have hg : ∀ v : Walk UInt8, ∀ d, w.render slash <+: v.render slash →
      w.render slash <+: (v.step slash dot d).render slash →
      (w.render slash).length + 1 ≤ ((v.step slash dot d).render slash).length := by
    intro v d hv hstep
    rcases getLast?_render_step slash dot v d with hl | he
    · refine prefix_concat_of_ne hstep fun he => ha ?_
      rw [← he, hl]
    · rw [he, length_append, length_singleton]
      exact Nat.add_le_add_right hv.length_le 1
  intro q hq
  induction q using reverseRecOn with
  | nil =>
    have hstep := hk [c] ⟨cs, rfl⟩
    refine prefix_of_prefix_length_le prefix_rfl (prefix_render_step slash dot w c) ?_
    rw [length_append, length_singleton]
    exact hg w c prefix_rfl hstep
  | append_singleton q d ih =>
    have hq' : q <+: cs := (prefix_append q [d]).trans hq
    have hp := ih hq'
    have hv : w.render slash <+: (w.run slash dot (c :: q)).render slash :=
      (prefix_append _ _).trans hp
    have hn := hk (c :: (q ++ [d])) (cons_prefix_cons.2 ⟨rfl, hq⟩)
    have hr : w.run slash dot (c :: (q ++ [d])) = (w.run slash dot (c :: q)).step slash dot d := by
      rw [← cons_append, run_append]
      rfl
    rw [hr] at hn ⊢
    refine prefix_of_prefix_length_le (hp.trans (prefix_append _ [d]))
      (prefix_render_step slash dot _ d) ?_
    rw [length_append, length_singleton]
    exact hg _ d hv hn

/-- A walk that ends on its first octets, and does not end with a slash, has read nothing. -/
lemma eq_nil_of_finish_eq (ha : (w.render slash).getLast? ≠ some slash)
    (hk : ∀ q, q <+: cs → w.render slash <+: (w.run slash dot q).render slash)
    (hf : ((w.run slash dot cs).finish dot).render slash = w.render slash) : cs = [] := by
  cases cs with
  | nil => rfl
  | cons c cs =>
    have hg := concat_prefix_run ha hk cs prefix_rfl
    rcases getLast?_render_finish slash dot (w.run slash dot (c :: cs)) with hl | he
    · rw [hf] at hl
      exact absurd hl ha
    · rw [he] at hf
      have hle := hg.length_le
      rw [hf, length_append, length_singleton] at hle
      omega

/-- The rest of a rebuilt path behind a name without a trailing slash: the next decoded
octet is the slash that ends the name. -/
theorem rest_of_name (hpos : 0 < conf.length)
    (hla : conf.getLast? ≠ some slash) (hN : referencePath path = conf ++ slash :: tail)
    (h : (rebuildPath path).normIndexes[conf.length - 1]? = some i) :
    ∃ cs, percentDecode ((pathPart path).drop i) = slash :: cs ∧ Rest cs tail := by
  obtain ⟨w, hl, hk, -, -, -, ha, hkp, u, hu⟩ := kept_of_normIndexes h
  have hw : w.render slash = conf := (append_inj (hu.trans hN) (by omega)).1
  have hl' : (w.render slash).getLast? ≠ some slash := by rwa [hw]
  have hf : ((walkOf path).finish dot).render slash = conf ++ slash :: tail := by
    rw [← referencePath_eq, hN]
  cases hs : percentDecode ((pathPart path).drop i) with
  | nil =>
    -- nothing is left to write the slash
    have hwk : walkOf path = w := by
      rw [ha, hs]
      rfl
    have he := (prefix_render_finish slash dot w).length_le
    rw [← hwk, hf, hwk, hw, length_append, length_cons] at he
    omega
  | cons c cs =>
    rw [hs] at ha hkp
    have hk' := concat_prefix_run hl' hkp
    -- the octet behind the name is still there at the end
    have hc : conf ++ [c] <+: conf ++ slash :: tail := by
      rw [← hf, ha, ← hw]
      refine prefix_of_prefix_length_le (hk' cs prefix_rfl) (prefix_render_finish slash dot _) ?_
      rw [← ha, hf, hw]
      simp
    obtain rfl : c = slash := by
      rw [prefix_append_right_inj] at hc
      exact (cons_prefix_cons.1 hc).1
    have hstep : w.step slash dot slash = ⟨settle dot w.stack w.cur, []⟩ := if_pos rfl
    have hr : render slash ⟨settle dot w.stack w.cur, []⟩ = conf ++ [slash] := by
      have h1 := hk' [] nil_prefix
      have h2 := prefix_render_settle slash dot w
      rw [show w.run slash dot [slash] = w.step slash dot slash from rfl, hstep, hw] at h1
      rw [hw] at h2
      exact (IsPrefix.eq_of_length_le h1 h2.length_le).symm
    refine ⟨cs, rfl, rest_of_keeps (settle dot w.stack w.cur) ?_ (fun q hq => ?_) ?_⟩
    · intro hn
      rw [hn] at hr
      have : (render slash (⟨[], []⟩ : Walk UInt8)).length = conf.length + 1 := by
        rw [hr]
        simp
      have : conf.length = 0 := Nat.succ.inj this.symm
      omega
    · rw [← hstep, ← run_cons, hstep, hr, ← hw]
      exact hk' q hq
    · rw [← hstep, ← run_cons, ← ha, hf, hstep, hr]
      simp

/-- Nothing is left of the source when the name is the whole normalised path. -/
lemma rest_nil_of_name (hpos : 0 < conf.length)
    (hl : conf.getLast? ≠ some slash) (hN : referencePath path = conf)
    (h : (rebuildPath path).normIndexes[conf.length - 1]? = some i) :
    percentDecode ((pathPart path).drop i) = [] := by
  obtain ⟨w, -, hk, -, -, -, ha, hkp, hp⟩ := kept_of_normIndexes h
  have hw : w.render slash = conf := by
    rw [hN] at hp
    exact hp.eq_of_length (by omega)
  refine eq_nil_of_finish_eq (by rwa [hw]) hkp ?_
  rw [← ha, ← referencePath_eq, hN, hw]

/-- A path that is as long as its source is cut where its source is cut. -/
lemma eq_of_normIndexes (hs : startOff path = 1)
    (hl : (pathPart path).length ≤ (referencePath path).length)
    (h : (rebuildPath path).normIndexes[k]? = some i) : i = k + 1 := by
  obtain ⟨w, -, hk, hi, -, hle, ha, -⟩ := kept_of_normIndexes h
  have h1 := (prefix_render_finish slash dot (walkOf path)).length_le
  have h2 := length_render_run slash dot w (percentDecode ((pathPart path).drop i))
  have h3 := length_percentDecode ((pathPart path).drop i)
  rw [← referencePath_eq, ha] at h1
  rw [length_drop] at h3
  omega

end Vhttp.Url
