import Vhttp.Token

/-!
# The parameters of a FastCGI request

`append_params` of `lib/handler/fastcgi.c`. The application is given the variables of the request
environment, and one for each header field unless the environment has a variable of that name. The
test and the name that is given to the application treat `-` differently.

* `shadow_free_iff`: which header fields have the name of a variable of the environment.
* `shadow_user`: a header field that replaces a variable.
-/

namespace Vhttp.Fastcgi

open List Prod

/-- A name and a value. -/
abbrev Param := Bytes × Bytes

/-- What `append_address_info` finds out about an address. -/
structure Address where
  host : Option Bytes
  port : Option ℕ

/-- `vhttp_filereq_t`. -/
structure Filereq where
  localPath : Bytes
  scriptName : Bytes
  pathInfo : Option Bytes

/-- A header field of the request. -/
structure ReqHeader where
  name : HeaderName
  value : Bytes

/-- What `append_params` reads of the request, its connection and the configuration. -/
structure ParamsReq where
  entityLen : Option ℕ
  filereq : Option Filereq
  pathNormalized : Option Bytes
  documentRoot : Option Bytes
  sendDelegatedUri : Bool
  path : Bytes
  queryAt : Option ℕ
  peername : Option Address
  sockname : Option Address
  /-- `req->env`, in pairs -/
  env : List Param
  method : Bytes
  authority : Bytes
  inputAuthority : Bytes
  inputPath : Bytes
  hostname : Bytes
  version : Bytes
  serverName : Bytes
  isHttps : Bool
  isEarlyData : Bool
  headers : List ReqHeader

/-- `vhttp_toupper`. -/
def toUpper (ch : UInt8) : UInt8 := if 97 ≤ ch ∧ ch ≤ 122 then ch - 0x20 else ch

/-- `envname_is_headername`. -/
def envnameIsHeadername (env header : Bytes) : Bool :=
  env.length = 5 + header.length ∧ env.take 5 = ascii "HTTP_" ∧
    ((env.drop 5).zip header).all fun (e, h) => e = toUpper h

/-- The name that is written for a header field. -/
def headerVariable (name : Bytes) : Bytes :=
  ascii "HTTP_" ++ name.map fun ch => if ch = ofChar '-' then ofChar '_' else toUpper ch

/-- `append_address_info`. -/
def addressParams (addrlabel portlabel : String) (address : Option Address) : List Param :=
  match address with
  | none => []
  | some a =>
    (a.host.map fun host => (ascii addrlabel, host)).toList ++
      (a.port.map fun port => (ascii portlabel, ascii (toString (port % 2 ^ 16)))).toList

/-- The variables of `append_params` that do not come from header fields. -/
def serverParams (req : ParamsReq) : List Param :=
  let pathInfo := match req.filereq with
    | some f => f.pathInfo
    | none => req.pathNormalized
  (req.entityLen.map fun n => (ascii "CONTENT_LENGTH", ascii (toString n))).toList ++
  (match req.filereq with
    | some f =>
      [(ascii "SCRIPT_FILENAME", f.localPath), (ascii "SCRIPT_NAME", f.scriptName)]
    | none => [(ascii "SCRIPT_NAME", [])]) ++
  (pathInfo.map fun info => (ascii "PATH_INFO", info)).toList ++
  (match req.documentRoot with
    | some root => (ascii "DOCUMENT_ROOT", root) ::
      (pathInfo.map fun info => (ascii "PATH_TRANSLATED", root ++ info)).toList
    | none => []) ++
  [(ascii "QUERY_STRING", match req.queryAt with
    | some i => req.path.drop (i + 1)
    | none => [])] ++
  addressParams "REMOTE_ADDR" "REMOTE_PORT" req.peername ++
  req.env ++
  [(ascii "REQUEST_METHOD", req.method),
    (ascii "HTTP_HOST", if req.sendDelegatedUri then req.authority else req.inputAuthority),
    (ascii "REQUEST_URI", if req.sendDelegatedUri then req.path else req.inputPath)] ++
  addressParams "SERVER_ADDR" "SERVER_PORT" req.sockname ++
  [(ascii "SERVER_NAME", req.hostname), (ascii "SERVER_PROTOCOL", req.version),
    (ascii "SERVER_SOFTWARE", req.serverName)] ++
  if req.isHttps then [(ascii "HTTPS", ascii "on")] else []

/-- The variables of the loop over the header fields, and what it has appended. -/
structure HeaderLoop where
  params : List Param
  cookieLength : ℕ
  foundEarlyData : Bool

variable (env : List Param) (headers : List ReqHeader)

/-- A round of the loop over the header fields. -/
def HeaderLoop.field (l : HeaderLoop) (h : ReqHeader) : HeaderLoop :=
  if h.name = .token .contentType then
    { l with params := l.params ++ [(ascii "CONTENT_TYPE", h.value)] }
  else if h.name = .token .cookie then
    { l with cookieLength := l.cookieLength + (h.value.length + 1) }
  else
    let l := { l with foundEarlyData := l.foundEarlyData || h.name = .token .earlyData }
    if env.any fun e => envnameIsHeadername e.1 h.name.bytes then l
    else { l with params := l.params ++ [(headerVariable h.name.bytes, h.value)] }

/-- The loop over the header fields. -/
def headerLoop : HeaderLoop :=
  headers.foldl (HeaderLoop.field env) ⟨[], 0, false⟩

/-- The loop that merges the cookies. -/
def mergeCookies : ℕ → List ReqHeader → Bytes
  | _, [] => []
  | n, h :: headers =>
    if h.name = .token .cookie then
      if n = h.value.length then h.value
      else h.value ++ [ofChar ';'] ++ mergeCookies (n - (h.value.length + 1)) headers
    else mergeCookies n headers

/-- The variables of `append_params` that come from header fields. -/
def headerParams : List Param :=
  let l := headerLoop env headers
  if l.cookieLength = 0 then l.params
  else l.params ++ [(ascii "HTTP_COOKIE", mergeCookies (l.cookieLength - 1) headers)]

/-- `append_params`. -/
def appendParams (req : ParamsReq) : List Param :=
  serverParams req ++ headerParams req.env req.headers ++
    if !(headerLoop req.env req.headers).foundEarlyData && req.isEarlyData then
      [(ascii "HTTP_EARLY_DATA", ascii "1")]
    else []

/-! ## Names -/

/-- A header field is left out if the environment has its name in upper case. -/
lemma envnameIsHeadername_iff {env header : Bytes} :
    envnameIsHeadername env header = true ↔ env = ascii "HTTP_" ++ header.map toUpper := by
  have hz : ∀ l m : Bytes, l.length = m.length →
      ((l.zip m).all (fun (e, h) => e = toUpper h) = true ↔ l = m.map toUpper) := by
    intro l
    induction l with
    | nil => intro m hm; simp [length_eq_zero_iff.1 hm.symm]
    | cons e l ih =>
      intro m hm
      cases m with
      | nil => cases hm
      | cons h m => simpa using fun _ => ih m (Nat.succ.inj hm)
  unfold envnameIsHeadername
  rw [decide_eq_true_iff]
  constructor
  · rintro ⟨hlen, ht, ha⟩
    have hd := (hz _ _ (by rw [length_drop]; omega)).1 ha
    rw [← take_append_drop 5 env, ht, hd]
  · rintro rfl
    refine ⟨by simp [ascii]; omega, rfl, ?_⟩
    exact (hz _ _ (length_map _)).2 rfl

/-- Without `-` in its name, a header field is given the name that is tested. -/
lemma headerVariable_eq {name : Bytes} (h : ofChar '-' ∉ name) :
    headerVariable name = ascii "HTTP_" ++ name.map toUpper := by
  refine congrArg _ (map_congr_left fun ch hc => if_neg ?_)
  rintro rfl
  exact h hc

/-! ## What the loop appends -/

/-- What the loop appends for a header field. -/
def fieldParam (h : ReqHeader) : Option Param :=
  if h.name = .token .contentType then some (ascii "CONTENT_TYPE", h.value)
  else if h.name = .token .cookie then none
  else if env.any fun e => envnameIsHeadername e.1 h.name.bytes then none
  else some (headerVariable h.name.bytes, h.value)

lemma headerLoop_eq : (headerLoop env headers).params = headers.filterMap (fieldParam env) ∧
      ((headerLoop env headers).cookieLength = 0 ↔ ∀ h ∈ headers, h.name ≠ .token .cookie) := by
  unfold headerLoop
  induction headers using reverseRecOn with
  | nil => simp
  | append_singleton headers h ih =>
    rw [foldl_concat, filterMap_append, ← ih.1]
    simp only [forall_mem_append, ← ih.2, forall_mem_singleton]
    unfold HeaderLoop.field fieldParam
    by_cases ht : h.name = .token .contentType
    · simp [ht]
    by_cases hc : h.name = .token .cookie
    · simp [hc]
    simp only [ht, hc, if_false]
    split <;> simp [*]

/-- The names of the environment that a header field can take: the two that are not tested, and
those that are spelled with `_` where the field has `-`. -/
def ShadowFree (h : ReqHeader) : Prop :=
  let names := env.map fst
  if h.name = .token .contentType then ascii "CONTENT_TYPE" ∉ names
  else if h.name = .token .cookie then ascii "HTTP_COOKIE" ∉ names
  else ofChar '-' ∈ h.name.bytes → headerVariable h.name.bytes ∈ names →
    ascii "HTTP_" ++ h.name.bytes.map toUpper ∈ names

/-- No header field is given to the application under a name of the environment, if and only if
every one of them is free of it. -/
lemma headerParams_free_iff : (∀ p ∈ headerParams env headers, p.1 ∉ env.map fst) ↔
    ∀ h ∈ headers, ShadowFree env h := by
  obtain ⟨hp, ho⟩ := headerLoop_eq env headers
  have hlp : (∀ p ∈ (headerLoop env headers).params, p.1 ∉ env.map fst) ↔
      ∀ h ∈ headers, h.name ≠ .token .cookie → ShadowFree env h := by
    rw [hp]
    simp only [mem_filterMap, forall_exists_index, and_imp]
    rw [forall_comm]
    refine forall_congr' fun h => ?_
    rw [forall_comm]
    refine forall_congr' fun hmem => ?_
    unfold fieldParam ShadowFree
    by_cases hy : h.name = .token .contentType
    · simp [hy]
    by_cases hc : h.name = .token .cookie
    · simp [hc]
    have ht : (env.any fun e => envnameIsHeadername e.1 h.name.bytes) = true ↔
        ascii "HTTP_" ++ h.name.bytes.map toUpper ∈ env.map fst := by
      simp only [any_eq_true, envnameIsHeadername_iff, mem_map]
    simp only [hy, hc, if_false, ne_eq, not_false_iff, forall_const]
    by_cases ha : (env.any fun e => envnameIsHeadername e.1 h.name.bytes) = true
    · simp [ha, ht.1 ha]
    · rw [if_neg ha]
      simp only [Option.some.injEq, forall_eq', ← ht, ha]
      constructor
      · exact fun hf _ hn => absurd hn hf
      · intro hf hn
        by_cases hd : ofChar '-' ∈ h.name.bytes
        · exact absurd (hf hd hn) Bool.false_ne_true
        · exact ha (ht.2 (headerVariable_eq hd ▸ hn))
  unfold headerParams
  by_cases hno : (headerLoop env headers).cookieLength = 0
  · rw [if_pos hno, hlp]
    exact forall₂_congr fun h hmem => by simp [ho.1 hno h hmem]
  · rw [if_neg hno]
    simp only [forall_mem_append, hlp, forall_mem_singleton]
    obtain ⟨h₀, hm₀, hn₀⟩ : ∃ h ∈ headers, h.name = .token .cookie := by
      by_contra hl
      push Not at hl
      exact hno (ho.2 hl)
    have hc : ∀ h : ReqHeader, h.name = .token .cookie →
        (ShadowFree env h ↔ ascii "HTTP_COOKIE" ∉ env.map fst) := by
      intro h hn
      simp [ShadowFree, hn]
    constructor
    · rintro ⟨hf, hn⟩ h hmem
      by_cases hh : h.name = .token .cookie
      · exact (hc h hh).2 hn
      · exact hf h hmem hh
    · exact fun hl => ⟨fun h hmem _ => hl h hmem, (hc h₀ hn₀).1 (hl h₀ hm₀)⟩

/-- Header fields do not get the names of the environment if and only if they are free of them.
Then what the application is given under such a name is not from a header field, unless the server
says that the request is early data. -/
theorem shadow_free_iff (req : ParamsReq) :
    ((∀ p ∈ headerParams req.env req.headers, p.1 ∉ req.env.map fst) ↔
      ∀ h ∈ req.headers, ShadowFree req.env h) ∧
    ((∀ h ∈ req.headers, ShadowFree req.env h) → ∀ p ∈ appendParams req,
      p.1 ∈ req.env.map fst → p ∈ serverParams req ∨ p = (ascii "HTTP_EARLY_DATA", ascii "1")) := by
  have hi := headerParams_free_iff req.env req.headers
  refine ⟨hi, fun hf p hp hn => ?_⟩
  rcases mem_append.1 hp with hp | hp
  · exact .inl ((mem_append.1 hp).resolve_right fun hh => hi.2 hf p hh hn)
  · split at hp
    · exact .inr (mem_singleton.1 hp)
    · cases hp

/-- The environment names a user, and so does the client. -/
theorem shadow_user : (ascii "HTTP_X_USER", ascii "mallory") ∈
    headerParams [(ascii "HTTP_X_USER", ascii "alice")] [⟨.text (ascii "x-user"), ascii "mallory"⟩] ∧
      ascii "HTTP_X_USER" ∈ [(ascii "HTTP_X_USER", ascii "alice")].map fst := by
  decide

end Vhttp.Fastcgi
