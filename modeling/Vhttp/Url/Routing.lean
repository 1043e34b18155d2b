import Vhttp.Url.Destination

/-!
# Registering paths

`vhttp_config_register_path` of `lib/core/config.c` keeps the paths of a host ordered, longer
paths first, so that the first path that `setup_pathconf` finds is the longest one.

* `bindPathconf_longest`: a request is bound to the configuration with the longest path that ends
  at a segment boundary, or to the fallback path, in whatever order the paths were registered.
-/

namespace Vhttp.Url

open List

variable {α : Type*}

/-- A registered `vhttp_pathconf_t`: its path, and what else is configured for it. -/
structure Registered (α : Type*) extends PathConf where
  conf : α

/-- The slot of `vhttp_config_register_path` is in front of this entry. -/
def PathConf.precedes (pathconf entry : PathConf) : Bool :=
  pathconf.path.length > entry.path.length ||
    pathconf.path.length == entry.path.length && pathconf.path < entry.path

variable (paths : List (Registered α)) (pathconf : Registered α) (req : Req)

/-- `vhttp_config_register_path`: the path is inserted in the first such slot. -/
def registerPath : List (Registered α) :=
  paths.orderedInsert (fun a b => a.precedes b.toPathConf) pathconf

/-- `hostconf->paths` once the configurations have been registered, one after the other. -/
def registerPaths (configs : List (Registered α)) : List (Registered α) :=
  configs.foldl registerPath []

/-- The configuration that `setup_pathconf` binds a request to; `none` is
`hostconf->fallback_path`. -/
def bindPathconf : Option (Registered α) :=
  paths.find? (·.selects req.pathNormalized)

lemma bindPathconf_toPathConf :
    (bindPathconf paths req).map (·.toPathConf) = setupPathconf (paths.map (·.toPathConf)) req := by
  rw [bindPathconf, setupPathconf, find?_map]
  rfl

/-- The path is a prefix of the normalised path and ends at a segment boundary. -/
def Covers (path pathNormalized : Bytes) : Prop :=
  path <+: pathNormalized ∧ (path.getLast? = some slash ∨ pathNormalized = path ∨
    pathNormalized[path.length]? = some slash)

/-- The configuration has the longest path that covers the normalised path, or there is none. -/
def IsLongest (configs : List (Registered α)) (pathNormalized : Bytes) :
    Option (Registered α) → Prop
  | some c => c ∈ configs ∧ Covers c.path pathNormalized ∧
      ∀ c' ∈ configs, Covers c'.path pathNormalized → c'.path.length ≤ c.path.length
  | none => ∀ c ∈ configs, ¬Covers c.path pathNormalized

lemma selects_iff_covers {conf : PathConf} {pathNormalized : Bytes} :
    conf.selects pathNormalized = true ↔ Covers conf.path pathNormalized := by
  rw [selects_iff, endsWithSlash_iff, Covers]

/-! ## The order of the paths -/

/-- No path is longer than one in front of it. -/
def Descending : Prop :=
  paths.Pairwise fun a b => b.path.length ≤ a.path.length

lemma registerPath_perm : (registerPath paths pathconf).Perm (pathconf :: paths) :=
  perm_orderedInsert _ _ _

variable {N : Bytes} {c : Option (Registered α)} {configs paths : List (Registered α)}

lemma Descending.registerPath (h : Descending paths)
    (pathconf : Registered α) : Descending (registerPath paths pathconf) := by
  induction paths with
  | nil => exact pairwise_singleton _ _
  | cons entry paths ih =>
    obtain ⟨he, hp⟩ := pairwise_cons.1 h
    rw [Url.registerPath, orderedInsert_cons]
    split
    · next hs =>
      have hl : entry.path.length ≤ pathconf.path.length := by
        simp only [PathConf.precedes, Bool.or_eq_true, Bool.and_eq_true, decide_eq_true_eq,
          beq_iff_eq] at hs
        omega
      refine pairwise_cons.2 ⟨?_, h⟩
      exact forall_mem_cons.2 ⟨hl, fun c hc => (he c hc).trans hl⟩
    · next hs =>
      have hl : pathconf.path.length ≤ entry.path.length := by
        simp only [PathConf.precedes, Bool.or_eq_true, decide_eq_true_eq, not_or] at hs
        omega
      refine pairwise_cons.2 ⟨fun c hc => ?_, ih hp⟩
      rcases mem_cons.1 ((registerPath_perm paths pathconf).mem_iff.1 hc) with rfl | hc
      · exact hl
      · exact he c hc

lemma descending_registerPaths (configs : List (Registered α)) :
    Descending (registerPaths configs) :=
  foldlRecOn configs registerPath List.Pairwise.nil fun _ h c _ => h.registerPath c

lemma registerPaths_perm (configs : List (Registered α)) :
    (registerPaths configs).Perm configs := by
  suffices h : ∀ paths, (configs.foldl registerPath paths).Perm (configs ++ paths) by
    simpa [registerPaths] using h []
  induction configs with
  | nil => exact fun paths => .refl paths
  | cons c configs ih =>
    intro paths
    exact (ih _).trans (((registerPath_perm paths c).append_left configs).trans perm_middle)

/-! ## The longest path -/

/-- Of paths in descending order, the first that is found is the longest. -/
lemma isLongest_bindPathconf (h : Descending paths) (req : Req) :
    IsLongest paths req.pathNormalized (bindPathconf paths req) := by
  cases hi : bindPathconf paths req with
  | none =>
    exact fun c hc ho => find?_eq_none.1 hi c hc (selects_iff_covers.2 ho)
  | some c =>
    obtain ⟨hs, front, back, rfl, hf⟩ := find?_eq_some_iff_append.1 hi
    refine ⟨by simp, selects_iff_covers.1 hs, fun c' hc' ho => ?_⟩
    rcases mem_append.1 hc' with hmem | hmem
    · have hn := hf c' hmem
      rw [selects_iff_covers.2 ho] at hn
      exact absurd hn nofun
    · rcases mem_cons.1 hmem with rfl | hmem
      · exact le_rfl
      · exact (pairwise_cons.1 (pairwise_append.1 h).2.1).1 c' hmem

lemma IsLongest.perm {configs' : List (Registered α)} (h : configs'.Perm configs)
    (hc : IsLongest configs' N c) : IsLongest configs N c := by
  cases c with
  | none => exact fun c' hc' => hc c' (h.mem_iff.2 hc')
  | some c =>
    exact ⟨h.mem_iff.1 hc.1, hc.2.1, fun c' hc' => hc.2.2 c' (h.mem_iff.2 hc')⟩

/-- Two covering paths of one length are the same prefix. -/
lemma IsLongest.unique (h : (configs.map (·.path)).Nodup)
    {c' : Option (Registered α)} (hc : IsLongest configs N c)
    (hc' : IsLongest configs N c') : c = c' := by
  cases c with
  | none =>
    cases c' with
    | none => rfl
    | some c' => exact absurd hc'.2.1 (hc c' hc'.1)
  | some c =>
    cases c' with
    | none => exact absurd hc.2.1 (hc' c hc.1)
    | some c' =>
      have hlen : c.path.length = c'.path.length :=
        (hc'.2.2 c hc.1 hc.2.1).antisymm (hc.2.2 c' hc'.1 hc'.2.1)
      have hp : c.path = c'.path :=
        (prefix_of_prefix_length_le hc.2.1.1 hc'.2.1.1 hlen.le).eq_of_length hlen
      rw [inj_on_of_nodup_map h hc.1 hc'.1 hp]

/-- A request is bound to the configuration with the longest path that covers its normalised
path, and if no two paths are the same the order in which they were registered does not matter. -/
theorem bindPathconf_longest (configs : List (Registered α)) (req : Req) :
    IsLongest configs req.pathNormalized (bindPathconf (registerPaths configs) req) ∧
      ((configs.map (·.path)).Nodup → ∀ configs', configs'.Perm configs →
        bindPathconf (registerPaths configs') req = bindPathconf (registerPaths configs) req) := by
  have hl : ∀ configs', configs'.Perm configs →
      IsLongest configs req.pathNormalized (bindPathconf (registerPaths configs') req) :=
    fun configs' hp => (isLongest_bindPathconf (descending_registerPaths configs') req).perm
      ((registerPaths_perm configs').trans hp)
  exact ⟨hl configs (.refl _), fun hn configs' hp =>
    (hl configs' hp).unique hn (hl configs (.refl _))⟩

/-- `/a/1` is found for `/a/1/x` although `/a` was registered first. -/
theorem bindPathconf_longest_nested :
    (bindPathconf (registerPaths [⟨confOf "/a", 1⟩, ⟨confOf "/a/1", 2⟩])
      (Req.ofPath (ascii "/a/1/x"))).map (·.conf) = some 2 ∧
    bindPathconf (registerPaths [⟨confOf "/a/1", 2⟩, ⟨confOf "/a", 1⟩])
        (Req.ofPath (ascii "/a/1/x")) =
      bindPathconf (registerPaths [⟨confOf "/a", 1⟩, ⟨confOf "/a/1", 2⟩])
        (Req.ofPath (ascii "/a/1/x")) :=
  ⟨rfl, (bindPathconf_longest _ _).2 (by decide) _ (.swap _ _ _)⟩

end Vhttp.Url
