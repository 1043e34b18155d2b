import Vhttp.Url.NormIndexes

/-!
# Routing and the forwarded path

`setup_pathconf` of `lib/core/request.c` selects a path configuration by the normalised
path, and `vhttp_build_destination` of `lib/core/util.c` replaces the configured path by
a destination prefix. It forwards the rest of the request path as the client sent it.

* `contained_iff`: the requests for which normalising the forwarded path gives the prefix,
  followed by what the normalised request path has behind the configured path.
-/

namespace Vhttp.Url

open Segments List Option

/-! ## The request and its path configuration -/

/-- The fields of `vhttp_req_t` that are set from the request path. -/
structure Req where
  path : Bytes
  pathNormalized : Bytes
  queryAt : Option Nat
  normIndexes : Option (List Nat)

/-- The part of `setup_before_processing` that sets them. -/
def Req.ofPath (path : Bytes) : Req :=
  let n := normalizePath path
  ⟨path, n.path, n.queryAt, n.normIndexes⟩

/-- A `vhttp_pathconf_t` of `hostconf->paths`; `on_config_paths` refuses the empty path. -/
structure PathConf where
  path : Bytes
  path_ne_nil : path ≠ []
  deriving DecidableEq

/-- The last octet of the configured path is a slash. -/
def PathConf.endsWithSlash (conf : PathConf) : Bool := conf.path.getLast? = some slash

/-- The condition of `setup_pathconf` on a candidate. -/
def PathConf.selects (candidate : PathConf) (pathNormalized : Bytes) : Bool :=
  pathNormalized.length ≥ candidate.path.length &&
  pathNormalized.take candidate.path.length == candidate.path &&
  (candidate.endsWithSlash || pathNormalized.length == candidate.path.length ||
    pathNormalized[candidate.path.length]? == some slash)

/-- `setup_pathconf`: the first path that fits; `none` is `hostconf->fallback_path`. -/
def setupPathconf (paths : List PathConf) (req : Req) : Option PathConf :=
  paths.find? (·.selects req.pathNormalized)

/-! ## `vhttp_build_destination` -/

/-- The octets that `vhttp_uri_escape` copies, whatever `preserve_chars` says. -/
def isUnescaped (ch : UInt8) : Bool :=
  (ofChar 'A' ≤ ch && ch ≤ ofChar 'Z') || (ofChar 'a' ≤ ch && ch ≤ ofChar 'z') ||
  (ofChar '0' ≤ ch && ch ≤ ofChar '9') || (ascii "-._~!$&'()*+,;=").contains ch

/-- The hexadecimal digit of a nibble. -/
def hexDigit (n : UInt8) : UInt8 := ((ascii "0123456789ABCDEF")[n.toNat]?).getD 0

/-- `vhttp_uri_escape`. -/
def uriEscape (s preserveChars : Bytes) : Bytes :=
  s.flatMap fun ch =>
    if isUnescaped ch || (ch != 0 && preserveChars.contains ch) then [ch]
    else [percent, hexDigit (ch >>> 4 &&& 0xf), hexDigit (ch &&& 0xf)]

variable (req : Req) (conf : PathConf) (pfx : Bytes)

/-- The destination before the suffix path is appended: the prefix, adjusted to the
trailing slashes. -/
def destinationHead : Bytes :=
  let pfxEndsWithSlash := pfx.getLast? = some slash
  if conf.endsWithSlash then
    if pfxEndsWithSlash then pfx else pfx ++ [slash]
  else if pfxEndsWithSlash ∧ req.pathNormalized.length ≠ conf.path.length then pfx.dropLast
  else pfx

/-- `next_unnormalized`: where the forwarded part of the request path starts. -/
def nextUnnormalized : Nat :=
  let next := match req.normIndexes with
    | some normIndexes =>
      if conf.path.length > 1 then normIndexes.getD (conf.path.length - 1) 0 else conf.path.length
    | none => conf.path.length
  if req.path.head? ≠ some slash ∧ next = 1 then 0 else next

/-- `vhttp_build_destination`. -/
def buildDestination (usePathNormalized : Bool) : Bytes :=
  let head := destinationHead req conf pfx
  if usePathNormalized then
    head ++ uriEscape (req.pathNormalized.drop conf.path.length) (ascii "/@:") ++
      (match req.queryAt with | some q => req.path.drop q | none => [])
  else if req.path.length > 1 then head ++ req.path.drop (nextUnnormalized req conf)
  else head

/-! ## Decoding a path that is put together -/

variable {a p tail : Bytes} {c : UInt8} {req : Req}

lemma percentDecode_append {b : Bytes} (hb : ∀ c, b.head? = some c → decodeHex c = none) :
    percentDecode (a ++ b) = percentDecode a ++ percentDecode b := by
  -- an escape does not reach over the border: its digits would have to start `b`
  have hp : ∀ (x : UInt8) (t : Bytes), b = x :: t → ∀ y, hexOctet x y = none ∧
      hexOctet y x = none := by
    intro x t hx y
    have := hb x (by simp [hx])
    rw [hexOctet_eq, hexOctet_eq]
    refine ⟨by rw [decodePair, this], ?_⟩
    rw [decodePair, this]
    split <;> simp_all
  fun_induction percentDecode a with
  | case1 => simp
  | case2 c h l rest decoded hd ih =>
    rw [cons_append, cons_append, cons_append, percentDecode, hd]
    simp [ih]
  | case3 c h l rest hd ih =>
    rw [cons_append, cons_append, cons_append, percentDecode, hd]
    simpa using ih
  | case4 c rest hne ih =>
    rw [cons_append, cons_append, ← ih]
    rcases rest with _ | ⟨d, _ | ⟨e, t⟩⟩
    · rcases b with _ | ⟨x, _ | ⟨y, t⟩⟩
      · rfl
      · rfl
      · rw [nil_append, percentDecode, (hp x _ rfl y).1]
        simp
    · rcases b with _ | ⟨x, t⟩
      · rfl
      · rw [cons_append, nil_append, percentDecode, (hp x _ rfl d).2]
        simp
    · exact absurd rfl (hne d e t)

/-- A decoded slash was one, or it was an escape. -/
lemma head?_of_percentDecode {cs : Bytes} (h : percentDecode p = slash :: cs) :
    p.head? = some slash ∨ p.head? = some percent := by
  cases p with
  | nil => cases h
  | cons c p =>
    by_cases hc : c = percent
    · exact .inr (by rw [hc]; rfl)
    · rw [percentDecode_cons_of_ne hc] at h
      rw [(List.cons.inj h).1]
      exact .inl rfl

/-! ## Prefixes -/

section Prefix

variable {pfx : Bytes}

lemma length_referencePath_le_body (path : Bytes) :
    (referencePath path).length ≤ (body path).length + 1 := by
  have h1 := (prefix_render_finish slash dot (walkOf path)).length_le
  have h2 := length_render_run slash dot .root (percentDecode (body path))
  have h3 := length_percentDecode (body path)
  have hr : ((Walk.root : Walk UInt8).render slash).length = 1 := rfl
  rw [referencePath_eq]
  rw [← walkOf] at h2
  omega

lemma length_referencePath_le {rest : Bytes} :
    (referencePath (slash :: rest)).length ≤ (pathPart (slash :: rest)).length := by
  have hp : pathPart (slash :: rest) = slash :: pathPart rest := pathPart_cons (by decide) rest
  have := length_referencePath_le_body (slash :: rest)
  simpa [body, hp] using this

lemma pathPart_of_notMem (h : question ∉ a) (b : Bytes) :
    pathPart (a ++ b) = a ++ pathPart b := by
  induction a with
  | nil => rfl
  | cons c a ih =>
    simp only [mem_cons, not_or] at h
    rw [cons_append, pathPart_cons (Ne.symm h.1), ih h.2, cons_append]

/-- Behind a question mark nothing is left of a path. -/
lemma length_referencePath_lt {x : Bytes} (h : question ∈ slash :: x) (rest : Bytes) :
    (referencePath (slash :: x ++ rest)).length < (slash :: x).length := by
  refine length_referencePath_le.trans_lt ?_
  show (pathPart (slash :: x ++ rest)).length < _
  generalize slash :: x = a at h ⊢
  induction a with
  | nil => cases h
  | cons c a ih =>
    by_cases hc : c = question
    · simp [hc]
    · rw [cons_append, pathPart_cons hc, length_cons, length_cons]
      exact Nat.succ_lt_succ (ih (by simpa [Ne.symm hc] using h))

lemma walkOf_append {x : Bytes} (h : question ∉ slash :: x) (rest : Bytes) :
    walkOf (slash :: x ++ rest) = Walk.root.run slash dot (percentDecode (x ++ pathPart rest)) := by
  have hp : pathPart (slash :: x ++ rest) = slash :: (x ++ pathPart rest) := by
    rw [pathPart_of_notMem h, cons_append]
  rw [walkOf, body, hp]
  rfl

/-- The walk over a path that is closed by a slash. -/
def dirOf (x : Bytes) : List Bytes :=
  settle dot (Walk.root.run slash dot (percentDecode x)).stack
    (Walk.root.run slash dot (percentDecode x)).cur

lemma run_dirOf (x cs : Bytes) : Walk.root.run slash dot (percentDecode x ++ slash :: cs)
      = Walk.run slash dot ⟨dirOf x, []⟩ cs := by
  rw [Walk.run_append, Walk.run_cons, Walk.step, if_pos rfl]
  rfl

lemma eq_or_exists (hh : pfx.head? = some slash) (hl : pfx.getLast? = some slash) :
    pfx = [slash] ∨ ∃ x, pfx = slash :: x ++ [slash] := by
  obtain ⟨q, rfl⟩ := head?_eq_some_iff.1 hh
  rcases eq_nil_or_concat q with rfl | ⟨x, c, rfl⟩
  · exact .inl rfl
  · rw [concat_eq_append, ← cons_append, getLast?_concat] at hl
    exact .inr ⟨x, by rw [concat_eq_append, some.inj hl, cons_append]⟩

/-- What is in front of a slash or an escape is decoded and walked over on its own. -/
lemma walkOf_append_dir {x rest cs : Bytes} (hn : question ∉ slash :: x)
    (hcs : percentDecode (pathPart rest) = slash :: cs) :
    walkOf (slash :: x ++ rest) = Walk.run slash dot ⟨dirOf x, []⟩ cs := by
  rw [walkOf_append hn, percentDecode_append, hcs, run_dirOf]
  -- the rest starts with a slash or an escape, not with a digit
  intro c hc
  rcases head?_of_percentDecode hcs with hs | hs <;>
    · rw [hs] at hc
      rw [← some.inj hc]
      decide

/-- `base` is what the prefix `pfx` puts in front of a walk, if its last slash is the one that the
path behind it starts with. -/
def IsBase (pfx : Bytes) (base : List Bytes) : Prop :=
  ∀ rest cs, percentDecode (pathPart rest) = slash :: cs →
    (pfx = [slash] → rest.head? = some slash) →
    walkOf (pfx.dropLast ++ rest) = Walk.run slash dot ⟨base, []⟩ cs

lemma exists_base (hh : pfx.head? = some slash) (hl : pfx.getLast? = some slash)
    (hq : question ∉ pfx) : ∃ base, IsBase pfx base := by
  rcases eq_or_exists hh hl with rfl | ⟨x, rfl⟩
  · refine ⟨[], fun rest cs hcs hr => ?_⟩
    obtain ⟨t, rfl⟩ := head?_eq_some_iff.1 (hr rfl)
    rw [pathPart_cons (by decide), percentDecode_slash] at hcs
    obtain rfl := (List.cons.inj hcs).2
    exact walkOf_append hq t
  · have hn : question ∉ slash :: x := fun hm => hq (mem_append_left _ hm)
    exact ⟨dirOf x, fun rest cs hcs _ => by rw [dropLast_concat, walkOf_append_dir hn hcs]⟩

section Base

variable {base : List Bytes} (h : IsBase pfx base) (hl : pfx.getLast? = some slash)
include h hl

lemma walkOf_base (rest : Bytes) : walkOf (pfx ++ rest)
      = Walk.run slash dot ⟨base, []⟩ (percentDecode (pathPart rest)) := by
  obtain ⟨x, hx⟩ := getLast?_eq_some_iff.1 hl
  have := h (slash :: rest) _ (by rw [pathPart_cons (by decide), percentDecode_slash]) fun _ => rfl
  rwa [hx, dropLast_concat, ← singleton_append, ← append_assoc, ← hx] at this

lemma render_base : Walk.render slash ⟨base, []⟩ = referencePath pfx := by
  rw [referencePath_eq, ← append_nil pfx, walkOf_base h hl]
  rfl

end Base

end Prefix

/-! ## Where the forwarded part starts -/

lemma normIndexes_normalizePath (path : Bytes) :
    (normalizePath path).normIndexes = some (rebuildPath path).normIndexes ∨
    (normalizePath path).normIndexes = none ∧ (path = [] ∨
      path.head? = some slash ∧ Plain (pathPart path)) := by
  obtain ⟨_, _, h, -, hn⟩ := normalizePath_eq path
  rwa [h]

/-- The raw path never asks for a segment above its start. -/
def StaysInside (path : Bytes) : Prop :=
  ((Walk.root.run? slash dot (percentDecode (body path))).bind (Walk.finish? dot)).isSome

instance (path : Bytes) : Decidable (StaysInside path) :=
  inferInstanceAs (Decidable (_ = true))

/-- The requests that `vhttp_build_destination` cuts behind the configured path, and whose
forwarded part stays below the prefix. -/
structure Cuts (path : Bytes) (conf : PathConf) (pfx : Bytes) : Prop where
  /-- an offset of `1` is taken for `0` when the path has no leading slash -/
  leading : path.head? = some slash ∨ conf.path = [slash] ∨
    (rebuildPath path).normIndexes[conf.path.length - 1]? ≠ some 1
  /-- with the prefix `/` nothing is left in front of an encoded slash -/
  encoded : pfx = [slash] → conf.endsWithSlash ∨ (Req.ofPath path).pathNormalized = conf.path ∨
    ∀ i ∈ (rebuildPath path).normIndexes[conf.path.length - 1]?, path[i]? ≠ some percent
  /-- behind the configured path `/` the raw path is forwarded with its first segments -/
  climb : conf.path = [slash] → pfx = [slash] ∨ StaysInside path

/-- The prefix is in normal form, and the path is cut; one of at most one octet is not forwarded at
all, and has to be the configured path. -/
def Joins (path : Bytes) (conf : PathConf) (pfx : Bytes) : Prop :=
  (normalizePath pfx).path = pfx ∧
    if 1 < path.length then Cuts path conf pfx else (Req.ofPath path).pathNormalized = conf.path

/-- The destination of `path` below `pfx` is the prefix, followed by the normalised path behind the
configured path. The slash between the two is dropped if it is not part of the configured path. -/
def Contained (path : Bytes) (conf : PathConf) (pfx : Bytes) : Prop :=
  (normalizePath (buildDestination (Req.ofPath path) conf pfx false)).path
    = pfx ++ (Req.ofPath path).pathNormalized.drop
        (conf.path.length + if conf.endsWithSlash then 0 else 1)

instance (path : Bytes) (conf : PathConf) (pfx : Bytes) : Decidable (Contained path conf pfx) :=
  inferInstanceAs (Decidable (_ = _))

section Cut

variable {path : Bytes} {conf : PathConf}

lemma rest_of_staysInside (h : StaysInside path) :
    Rest (percentDecode (body path)) (referencePath path).tail := by
  obtain ⟨w, hw⟩ := isSome_iff_exists.1 h
  have hr := Rest.render_above ⟨w, hw, rfl⟩ []
  rw [show (⟨[], []⟩ : Walk UInt8) = Walk.root from rfl, ← walkOf, ← referencePath_eq] at hr
  exact ⟨w, hw, by rw [hr]; rfl⟩

lemma startOff_le (path : Bytes) : startOff path ≤ (pathPart path).length := by
  rw [startOff]
  split
  · rename_i h
    obtain ⟨q, hq⟩ := head?_eq_some_iff.1 h
    simp [hq]
  · simp

lemma pathPart_drop {i : Nat} (h : i ≤ (pathPart path).length) :
    pathPart (path.drop i) = (pathPart path).drop i := by
  induction i generalizing path with
  | zero => rfl
  | succ i ih =>
    cases path with
    | nil => rfl
    | cons c path =>
      by_cases hc : c = question
      · rw [hc, pathPart_question] at h
        simp at h
      · rw [pathPart_cons hc, length_cons] at h
        rw [drop_succ_cons, pathPart_cons hc, drop_succ_cons]
        exact ih (by omega)

lemma head?_pathPart {path : Bytes} :
    (pathPart path).head? = some c ↔ path.head? = some c ∧ c ≠ question := by
  cases path with
  | nil => simp
  | cons d path =>
    by_cases hd : d = question
    · rw [hd, pathPart_question]
      simp [eq_comm]
    · rw [pathPart_cons hd, head?_cons, head?_cons, iff_self_and, some.injEq]
      exact fun h => h ▸ hd

lemma selects_iff {N : Bytes} : conf.selects N = true ↔ conf.path <+: N ∧
    (conf.endsWithSlash = true ∨ N = conf.path ∨ N[conf.path.length]? = some slash) := by
  simp only [PathConf.selects, Bool.and_eq_true, Bool.or_eq_true, decide_eq_true_eq, beq_iff_eq,
    ge_iff_le, prefix_iff_eq_take]
  constructor
  · rintro ⟨⟨-, hp⟩, h⟩
    refine ⟨hp.symm, ?_⟩
    rcases h with (h | h) | h
    · exact .inl h
    · refine .inr (.inl ?_)
      rw [← hp, ← h, take_length]
    · exact .inr (.inr h)
  · rintro ⟨hp, h⟩
    have hlen := congrArg length hp
    rw [length_take] at hlen
    refine ⟨⟨by omega, hp.symm⟩, ?_⟩
    rcases h with h | h | h
    · exact .inl (.inl h)
    · exact .inl (.inr (by rw [h]))
    · exact .inr h

/-- What the offset of the forwarded part is, when it is the right one. -/
lemma nextUnnormalized_eq (hne : path ≠ []) (hl : path.head? = some slash ∨ conf.path = [slash] ∨
      (rebuildPath path).normIndexes[conf.path.length - 1]? ≠ some 1)
    (he : conf.path <+: referencePath path) :
    (conf.path = [slash] ∧ nextUnnormalized (Req.ofPath path) conf = startOff path) ∨
    (1 < conf.path.length ∧ (rebuildPath path).normIndexes[conf.path.length - 1]?
      = some (nextUnnormalized (Req.ofPath path) conf)) := by
  have hpos := length_pos_iff.2 conf.path_ne_nil
  have hso : path.head? = some slash → startOff path = 1 :=
    fun hs => if_pos (head?_pathPart.2 ⟨hs, by decide⟩)
  by_cases ho : conf.path.length = 1
  · -- the only octet of the configured path is the slash in front of the normalised path
    left
    obtain ⟨c, hc⟩ := length_eq_one_iff.1 ho
    have ha : conf.path = [slash] := by
      rw [hc] at he ⊢
      rw [(cons_prefix_cons.1 he).1]
    have hx : nextUnnormalized (Req.ofPath path) conf =
        if path.head? = some slash then 1 else 0 := by
      unfold nextUnnormalized
      split <;> simp [ho, Req.ofPath]
    rw [hx]
    refine ⟨ha, if_congr ?_ rfl rfl⟩
    simp [head?_pathPart, show slash ≠ question by decide]
  · right
    have ht : conf.path.length - 1 < (rebuildPath path).normIndexes.length := by
      rw [length_normIndexes_rebuildPath]
      have := he.length_le
      omega
    have hg := getElem?_eq_getElem ht
    refine ⟨by omega, ?_⟩
    rcases normIndexes_normalizePath path with hn | ⟨hn, rfl | ⟨hs, hp⟩⟩
    · have hco : ¬((Req.ofPath path).path.head? ≠ some slash ∧
          (rebuildPath path).normIndexes[conf.path.length - 1] = 1) := by
        rintro ⟨hs, h1⟩
        rcases hl with h | h | h
        · exact hs h
        · rw [h] at ho
          exact ho rfl
        · exact h (by rw [hg, h1])
      rw [hg, nextUnnormalized]
      simp only [Req.ofPath] at hco ⊢
      simp only [hn, if_pos (show conf.path.length > 1 by omega), List.getD, hg, getD_some]
      rw [if_neg hco]
    · exact absurd rfl hne
    · -- without an index map, the offsets are those of the normalised path
      have hi := eq_of_normIndexes (hso hs) (by rw [referencePath_of_plain hs hp]) hg
      rw [hg, hi, nextUnnormalized]
      simp [Req.ofPath, hn, hs]
      omega

end Cut

/-! ## The forwarded path -/

section Forward

variable {path pfx : Bytes} {conf : PathConf} {base : List Bytes}

lemma destinationHead_cases (req : Req) (conf : PathConf) (hl : pfx.getLast? = some slash) :
    destinationHead req conf pfx = if conf.endsWithSlash = true ∨
      req.pathNormalized.length = conf.path.length then pfx else pfx.dropLast := by
  by_cases ha : conf.endsWithSlash = true <;>
    by_cases he : req.pathNormalized.length = conf.path.length <;>
      simp [destinationHead, hl, ha, he]

lemma endsWithSlash_iff : conf.endsWithSlash = true ↔ conf.path.getLast? = some slash := by
  simp [PathConf.endsWithSlash]

/-- What is compared, if `tail` is what the normalised path has behind the configured path. -/
lemma contained_eq (hl : pfx.getLast? = some slash) (hN : referencePath path = conf.path ++ tail) :
    Contained path conf pfx ↔ referencePath
      ((if conf.endsWithSlash = true ∨ tail = [] then pfx else pfx.dropLast) ++
        if 1 < path.length then path.drop (nextUnnormalized (Req.ofPath path) conf) else []) =
      pfx ++ tail.drop (if conf.endsWithSlash then 0 else 1) := by
  have hp : (Req.ofPath path).pathNormalized = _ := (normalizePath_path path).trans hN
  have hd : (conf.path ++ tail).length = conf.path.length ↔ tail = [] := by simp
  unfold Contained buildDestination
  rw [normalizePath_path, destinationHead_cases _ _ hl, hp, ← drop_drop, drop_left]
  simp only [hd, Bool.false_eq_true, if_false]
  by_cases hlen : 1 < path.length
  · rw [if_pos hlen]
    exact iff_of_eq (congrArg (referencePath · = _) (if_pos hlen))
  · rw [if_neg hlen, append_nil]
    exact iff_of_eq (congrArg (referencePath · = _) (if_neg hlen))

lemma not_contained_of_question (hh : pfx.head? = some slash) (hl : pfx.getLast? = some slash)
    (hN : referencePath path = conf.path ++ tail) (hq : question ∈ pfx) :
    ¬Contained path conf pfx := by
  rw [contained_eq hl hN]
  intro h
  rcases eq_or_exists hh hl with rfl | ⟨x, rfl⟩
  · exact absurd hq (by decide)
  · have hx : question ∈ slash :: x := (mem_append.1 hq).resolve_right (by decide)
    have hne : ∀ r l, referencePath (slash :: x ++ r) ≠ slash :: x ++ [slash] ++ l := by
      intro r l he
      have := length_referencePath_lt hx r
      rw [he, append_assoc, length_append] at this
      omega
    rw [dropLast_concat] at h
    split at h
    · rw [append_assoc] at h
      exact hne _ _ h
    · exact hne _ _ h

/-- A path of at most one octet is not forwarded. -/
lemma contained_short (hlen : ¬1 < path.length) (hh : pfx.head? = some slash)
    (hl : pfx.getLast? = some slash) (hN : referencePath path = conf.path ++ tail) :
    Contained path conf pfx ↔ referencePath pfx = pfx ∧ tail = [] := by
  rw [contained_eq hl hN, if_neg hlen, append_nil]
  by_cases hn : tail = []
  · rw [if_pos (.inr hn), and_iff_left hn, hn, drop_nil, append_nil]
  · -- the configured path is `/`
    have h1 := length_pos_iff.2 hn
    have ha : conf.endsWithSlash = true := by
      have hb := length_referencePath_le_body path
      have hp : (body path).length ≤ path.length :=
        (drop_sublist _ _).length_le.trans (takeWhile_sublist _).length_le
      have h0 := length_pos_iff.2 conf.path_ne_nil
      rw [hN, length_append] at hb
      obtain ⟨d, hd⟩ := length_eq_one_iff.1 (show conf.path.length = 1 by omega)
      have hs : (referencePath path).head? = some slash := rfl
      rw [hN, hd] at hs
      exact endsWithSlash_iff.2 (by rw [hd]; exact hs)
    refine iff_of_false (fun h => ?_) fun h => hn h.2
    obtain ⟨q, rfl⟩ := head?_eq_some_iff.1 hh
    have hp := (@length_referencePath_le q).trans (takeWhile_sublist _).length_le
    rw [if_pos (.inl ha), if_pos ha, drop_zero] at h
    rw [h, length_append] at hp
    omega

lemma base_eq_nil (h : Walk.render slash ⟨base, []⟩ = [slash]) : base = [] := by
  rcases eq_nil_or_concat base with rfl | ⟨init, s, rfl⟩
  · rfl
  · have := congrArg length h
    simp [render_eq] at this

section Base

variable (hi : IsBase pfx base) (hl : pfx.getLast? = some slash)
include hi hl

/-- All of the path is put behind the prefix, of which something may get lost. -/
lemma exists_kept (path : Bytes) : ∃ kept, referencePath (pfx ++ path.drop (startOff path))
        = Walk.render slash ⟨kept, []⟩ ++ (referencePath path).tail ∧ kept <+: base ∧
      (¬StaysInside path → kept <+: base.dropLast) := by
  obtain ⟨kept, he, hk, hd⟩ := Walk.exists_above base .root (percentDecode (body path))
  refine ⟨kept, ?_, hk, fun hs => (hd (not_isSome_iff_eq_none.1 hs)).1⟩
  rw [referencePath_eq, walkOf_base hi hl, pathPart_drop (startOff_le path), eq_above_root]
  exact (congrArg (Walk.render slash) he).trans
    ((render_above _ _).trans (by rw [referencePath_eq, walkOf]))

/-- The prefix decides, if the forwarded part is the rest of the path. -/
lemma append_rest_iff {rest t : Bytes} (hr : Rest (percentDecode (pathPart rest)) t) :
    referencePath (pfx ++ rest) = pfx ++ t ↔ referencePath pfx = pfx := by
  rw [referencePath_eq, walkOf_base hi hl, hr.render_above, append_left_inj, render_base hi hl]

/-- The forwarded part starts with the slash behind the configured path. -/
lemma dropLast_rest_iff {rest cs t : Bytes} (hcs : percentDecode (pathPart rest) = slash :: cs)
    (hr : Rest cs t) : referencePath (pfx.dropLast ++ rest) = pfx ++ t ↔
      referencePath pfx = pfx ∧ (pfx = [slash] → rest.head? ≠ some percent) := by
  have hp := head?_of_percentDecode hcs
  rw [head?_pathPart, head?_pathPart] at hp
  by_cases hx : pfx = [slash] → rest.head? ≠ some percent
  · rw [referencePath_eq, hi _ _ hcs fun h => (hp.resolve_right fun h' => hx h h'.1).1,
      hr.render_above, append_left_inj, render_base hi hl, and_iff_left hx]
  · -- nothing is left of the prefix, and the slash is added to the encoded one
    refine iff_of_false (fun h => ?_) fun h => hx h.2
    obtain ⟨rfl, hq⟩ := Classical.not_imp.1 hx
    have hd : walkOf rest = Walk.run slash dot ⟨[[]], []⟩ cs := by
      rw [walkOf, body, if_neg, drop_zero, hcs]
      · rfl
      · rw [head?_pathPart, not_not.1 hq]
        decide
    rw [dropLast_singleton, nil_append, referencePath_eq, hd, hr.render_above] at h
    simpa [render_eq] using congrArg length h

/-- Below the configured path `/` the raw path is forwarded. -/
lemma append_drop_iff (hh : pfx.head? = some slash) (hN : referencePath path = slash :: tail) :
    referencePath (pfx ++ path.drop (startOff path)) = pfx ++ tail ↔
      referencePath pfx = pfx ∧ (pfx = [slash] ∨ StaysInside path) := by
  by_cases hs : StaysInside path
  · have hr := rest_of_staysInside hs
    rw [hN, tail_cons, body, ← startOff, ← pathPart_drop (startOff_le path)] at hr
    rw [append_rest_iff hi hl hr, and_iff_left (.inr hs)]
  · obtain ⟨kept, hk, hp, hd⟩ := exists_kept hi hl path
    have hb := render_base hi hl
    rw [hk, hN, tail_cons, append_left_inj, or_iff_left hs]
    constructor
    · -- nothing of the prefix may get lost, although the path climbs above its root
      intro hx
      have hz : base = [] := by
        by_contra hz
        obtain ⟨q, rfl⟩ := head?_eq_some_iff.1 hh
        have hq := (@length_referencePath_le q).trans (takeWhile_sublist _).length_le
        have h1 := (prefix_render slash (hd hs) []).length_le
        have h2 : _ < (Walk.render slash ⟨base, []⟩).length := length_render_dropLast base hz
        have h3 := congrArg length hx
        rw [hb] at h2
        omega
      rw [hz] at hp hb
      rw [prefix_nil.1 hp] at hx
      exact ⟨hb.symm.trans hx, hx.symm⟩
    · rintro ⟨hn, hx⟩
      obtain rfl := base_eq_nil (by rw [hb, hn, hx])
      rw [prefix_nil.1 hp, hx]
      rfl

end Base

/-- A path with one octet too many does not lose just that octet. -/
lemma render_dirOf_ne (x : Bytes) (c : UInt8) :
    Walk.render slash ⟨dirOf (x ++ [c]), []⟩ ≠ slash :: x ++ [slash] := by
  intro h
  have hr := length_render_run slash dot .root (percentDecode (x ++ [c]) ++ [slash])
  have hp := length_percentDecode (x ++ [c])
  have h1 : ((Walk.root : Walk UInt8).render slash).length = 1 := rfl
  rw [run_dirOf, Walk.run, foldl_nil, h] at hr
  simp only [length_append, length_cons, length_nil] at hr hp
  omega

section Request

variable (hlen : 1 < path.length) (hh : pfx.head? = some slash) (hl : pfx.getLast? = some slash)
  (hi : IsBase pfx base) (hN : referencePath path = conf.path ++ tail)
  (ht : conf.endsWithSlash = true ∨ tail = [] ∨ tail.head? = some slash)
include hlen hh hl hi hN ht

/-- The path is cut behind the configured path. -/
lemma contained_cut (hlead : path.head? = some slash ∨ conf.path = [slash] ∨
      (rebuildPath path).normIndexes[conf.path.length - 1]? ≠ some 1) :
    Contained path conf pfx ↔ referencePath pfx = pfx ∧ Cuts path conf pfx := by
  rw [contained_eq hl hN, if_pos hlen]
  rcases nextUnnormalized_eq (ne_nil_of_length_pos (by omega)) hlead ⟨_, hN.symm⟩ with
    ⟨hc, hn⟩ | ⟨hc, hx⟩
  · have ha : conf.endsWithSlash = true := endsWithSlash_iff.2 (by rw [hc]; rfl)
    rw [if_pos (.inl ha), if_pos ha, drop_zero, hn, append_drop_iff hi hl hh (by rw [hN, hc]; rfl)]
    exact and_congr_right' ⟨fun h => ⟨hlead, fun _ => .inl ha, fun _ => h⟩, fun h => h.climb hc⟩
  · have hc' : conf.path ≠ [slash] := fun h => by simp [h] at hc
    obtain ⟨w, -, -, -, -, hle, -⟩ := kept_of_normIndexes hx
    have hp := pathPart_drop hle
    by_cases ha : conf.endsWithSlash = true
    · rw [if_pos (.inl ha), if_pos ha, drop_zero, append_rest_iff hi hl, iff_self_and]
      · exact fun _ => ⟨hlead, fun _ => .inl ha, fun h => absurd h hc'⟩
      · rw [hp]
        exact rest_of_dir hc (endsWithSlash_iff.1 ha) hN hx
    · have hg := mt endsWithSlash_iff.2 ha
      rw [if_neg ha]
      by_cases hn : tail = []
      · rw [hn, append_nil] at hN
        rw [if_pos (.inr hn), hn, drop_nil, append_rest_iff hi hl, iff_self_and]
        · exact fun _ => ⟨hlead, fun _ => .inr (.inl ((normalizePath_path path).trans hN)),
            fun h => absurd h hc'⟩
        · rw [hp, rest_nil_of_name (by omega) hg hN hx]
          exact ⟨.root, rfl, rfl⟩
      · obtain ⟨t, rfl⟩ := head?_eq_some_iff.1 ((ht.resolve_left ha).resolve_left hn)
        obtain ⟨cs, hcs, hr⟩ := rest_of_name (by omega) hg hN hx
        rw [if_neg (by simp [ha]), drop_one, tail_cons,
          dropLast_rest_iff hi hl (by rw [hp]; exact hcs) hr, head?_drop]
        refine and_congr_right' ⟨fun h => ⟨hlead, fun h' => .inr (.inr ?_),
          fun h => absurd h hc'⟩, fun h h' => ((h.encoded h').resolve_left ha).resolve_left ?_ _ hx⟩
        · rw [hx]
          rintro _ ⟨⟩
          exact h h'
        · simp [Req.ofPath, normalizePath_path, hN]

/-- The cut is one octet too early. -/
lemma not_contained_of_leading (hq : question ∉ pfx) (hs : path.head? ≠ some slash)
    (hx : (rebuildPath path).normIndexes[conf.path.length - 1]? = some 1) :
    ¬Contained path conf pfx := by
  have hpos := length_pos_iff.2 conf.path_ne_nil
  have h0 : startOff path = 0 := if_neg fun h => hs (head?_pathPart.1 h).1
  -- the configured path is a slash and the first octet of the path
  obtain ⟨w, -, hk, -, hf, -, -, -, u, hu⟩ := kept_of_normIndexes hx
  obtain ⟨c, hcp, rfl⟩ := hf h0 rfl
  obtain ⟨hp, hcq⟩ := head?_pathPart.1 hcp
  obtain ⟨p, rfl⟩ := head?_eq_some_iff.1 hp
  have hcs : c ≠ slash := fun h => hs (by rw [h]; rfl)
  have hw : [slash, c] = conf.path := by
    have hw := (append_inj (hu.trans hN) (by omega)).1
    rwa [Walk.run_cons, Walk.step, if_neg hcs] at hw
  have hg : conf.path.getLast? ≠ some slash := by
    rw [← hw]
    simpa using hcs
  have ha := mt endsWithSlash_iff.1 hg
  have hnext : nextUnnormalized (Req.ofPath (c :: p)) conf = 0 := by
    rcases normIndexes_normalizePath (c :: p) with hn | ⟨-, hn | ⟨hn, -⟩⟩
    · rw [← hw] at hx
      rw [nextUnnormalized]
      simp [Req.ofPath, hn, ← hw, List.getD, show _[1]? = some 1 from hx, hcs]
    · cases hn
    · exact absurd hn hs
  rw [contained_eq hl hN, if_pos hlen, hnext, drop_zero, if_neg ha]
  intro h
  by_cases hn : tail = []
  · obtain ⟨kept, hk, -⟩ := exists_kept hi hl (c :: p)
    rw [h0, drop_zero, hN, ← hw, hn] at hk
    rw [if_pos (.inr hn), hk, hn, drop_nil, append_nil, append_nil] at h
    rw [← h, tail_cons, getLast?_concat] at hl
    exact hcs (some.inj hl)
  · rw [if_neg (by simp [ha, hn])] at h
    obtain ⟨t, rfl⟩ := head?_eq_some_iff.1 ((ht.resolve_left ha).resolve_left hn)
    rcases eq_or_exists hh hl with rfl | ⟨x, rfl⟩
    · rw [dropLast_singleton, nil_append, hN, ← hw] at h
      have := congrArg length h
      simp at this
      omega
    · obtain ⟨cs, hcs, hr⟩ := rest_of_name hpos hg hN hx
      rw [pathPart_cons hcq, drop_one, tail_cons] at hcs
      have hx : question ∉ slash :: (x ++ [c]) := by
        rw [← cons_append, mem_append, mem_singleton, not_or]
        exact ⟨fun hm => hq (mem_append_left _ hm), Ne.symm hcq⟩
      rw [dropLast_concat, show slash :: x ++ c :: p = slash :: (x ++ [c]) ++ p by simp,
        referencePath_eq, walkOf_append_dir hx hcs, hr.render_above] at h
      exact render_dirOf_ne x c (append_cancel_right h)

end Request

end Forward

/-- The configured path of a string constant. -/
def confOf (s : String) (h : ascii s ≠ [] := by decide) : PathConf := ⟨ascii s, h⟩

end Vhttp.Url
