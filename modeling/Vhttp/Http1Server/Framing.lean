import Vhttp.Http1Server.Request

/-!
# Where a request body ends

Of the header fields `content-length` and `transfer-encoding` one is kept: the last
`transfer-encoding`, or else the first `content-length`. The others are not looked at.

* `unambiguous_iff`: when the fields of a request agree or it is refused.
* `unambiguous_two_lengths`: two lengths, of which the first one is used.
-/

namespace Vhttp.Http1Server

open List Option Except
open Http1Client (Field)

/-- The field is `transfer-encoding`. -/
def isTransferEncoding (f : Field) : Bool := f.headerName = .token .transferEncoding

/-- The field is `content-length`. -/
def isContentLength (f : Field) : Bool := f.headerName = .token .contentLength

variable (fields : List Field) (f : Field)

/-- The field that decides how the body is read. -/
def entityField : Option Field :=
  ((fields.filter isTransferEncoding).getLast?).or (fields.filter isContentLength).head?

/-- The fields disagree: there are lengths that differ, or codings that are not all `chunked`. -/
def Conflicting : Prop :=
  (∃ f ∈ fields, ∃ g ∈ fields, isContentLength f ∧ isContentLength g ∧ f.value ≠ g.value) ∨
    1 < (fields.filter isTransferEncoding).length ∧
      ∃ f ∈ fields, isTransferEncoding f ∧ lcstris f.value (ascii "chunked") = false

/-! ## The field that is kept -/

lemma entityField_append : entityField (fields ++ [f]) = if isTransferEncoding f then some f
      else if isContentLength f then (entityField fields).or (some f) else entityField fields := by
  unfold entityField
  rw [filter_append, filter_append, getLast?_append, head?_append]
  split_ifs with hc hlen
  · simp [hc]
  · simp [hc, hlen]
  · simp [hc, hlen]

/-- The index is that of the field. -/
def Points (index : Option ℕ) (field : Option Field) : Prop :=
  index.isSome = field.isSome ∧ index.bind (fields[·]?) = field

variable {f : Field} {fields : List Field} {r r' : Collected}

lemma Points.append {index : Option ℕ} {field : Option Field}
    (h : Points fields index field) (f : Field) : Points (fields ++ [f]) index field := by
  obtain ⟨hs, hg⟩ := h
  refine ⟨hs, ?_⟩
  cases index with
  | none => exact hg
  | some i =>
    obtain ⟨g, rfl⟩ := isSome_iff_exists.1 hs.symm
    obtain ⟨hi, -⟩ := List.getElem?_eq_some_iff.1 hg
    exact (getElem?_append_left hi).trans hg

lemma points_last (fields : List Field) (f : Field) :
    Points (fields ++ [f]) (some fields.length) (some f) :=
  ⟨rfl, getElem?_concat_length⟩

/-- What one field does to the index. -/
lemma field_index {i : ℕ} (h : r.field i f = .ok r') : r'.entityHeaderIndex =
      if isTransferEncoding f then some i
      else if isContentLength f then r.entityHeaderIndex.or (some i) else r.entityHeaderIndex := by
  unfold Collected.field at h
  unfold isTransferEncoding isContentLength
  split_ifs at h with hn
  cases hh : f.headerName with
  | text name =>
    rw [hh] at h
    obtain rfl := ok.inj h
    rfl
  | token t =>
    rw [hh] at h
    dsimp only at h
    by_cases hs : t.flags.isInitHeaderSpecial
    · rw [if_pos hs] at h
      obtain rfl := ok.inj h
      rw [isInitHeaderSpecial_iff] at hs
      fin_cases hs
      · rfl
      · cases hi : r.entityHeaderIndex <;> simp [Collected.special, hi]
      · rfl
      · rfl
      · rfl
    · rw [if_neg hs] at h
      obtain rfl := ok.inj h
      have hc : t ≠ .transferEncoding := by
        rintro rfl
        exact hs rfl
      have hlen : t ≠ .contentLength := by
        rintro rfl
        exact hs rfl
      simp only [HeaderName.token.injEq, hc, hlen, decide_false, Bool.false_eq_true, if_false]
      split <;> rfl

/-- One field of the loop. -/
lemma Points.field (h : Points fields r.entityHeaderIndex (entityField fields))
    (hf : r.field fields.length f = .ok r') :
    Points (fields ++ [f]) r'.entityHeaderIndex (entityField (fields ++ [f])) := by
  rw [entityField_append, field_index hf]
  split_ifs with hc hlen
  · exact points_last fields f
  · cases hi : r.entityHeaderIndex with
    | none =>
      rw [hi] at h
      rw [← h.2]
      exact points_last fields f
    | some i =>
      rw [hi] at h
      obtain ⟨g, hg⟩ := isSome_iff_exists.1 h.1.symm
      rw [hg] at h ⊢
      exact h.append f
  · exact h.append f

lemma Points.collect {rest : List Field}
    (h : Points fields r.entityHeaderIndex (entityField fields))
    (hc : collect r fields.length rest = .ok r') :
    Points (fields ++ rest) r'.entityHeaderIndex (entityField (fields ++ rest)) := by
  induction rest generalizing fields r with
  | nil =>
    obtain rfl := ok.inj hc
    rw [append_nil]
    exact h
  | cons f rest ih =>
    rw [Http1Server.collect] at hc
    cases hf : r.field fields.length f with
    | error err =>
      rw [hf] at hc
      cases hc
    | ok r1 =>
      rw [hf] at hc
      have hlen : fields.length + 1 = (fields ++ [f]).length := by
        rw [length_append]
        rfl
      rw [hlen] at hc
      have hn := ih (h.field hf) hc
      rw [append_assoc] at hn
      exact hn

/-- `init_headers` keeps the last coding, or else the first length. -/
lemma points_initHeaders (h : initHeaders fields = .ok r) :
    Points fields r.entityHeaderIndex (entityField fields) := by
  have hn : Points [] Collected.empty.entityHeaderIndex (entityField []) := ⟨rfl, rfl⟩
  exact hn.collect h

section Decision

variable {σ : Type} {env : Env σ} {head : Head} {fixed : Fixed}

lemma fixupConnection_entity (env : Env σ) (req : Request) (r : Collected) :
    (fixupConnection env req r).entityHeaderIndex = r.entityHeaderIndex ∧
      ((fixupConnection env req r).isH2Upgrade → r.entityHeaderIndex = none) := by
  unfold fixupConnection
  cases r.connection with
  | none => exact ⟨rfl, nofun⟩
  | some connection =>
    cases r.upgrade with
    | none => exact ⟨rfl, nofun⟩
    | some upgrade =>
      dsimp only
      split_ifs with hu
      · rw [Bool.and_eq_true] at hu
        exact ⟨rfl, fun _ => isNone_iff_eq_none.1 hu.2⟩
      · exact ⟨rfl, nofun⟩
      · exact ⟨rfl, nofun⟩

/-- `fixup_request` keeps the index, and a request with a body is not upgraded. -/
lemma points_fixupRequest (h : fixupRequest env head = .ok fixed) :
    Points head.headers fixed.entityHeaderIndex (entityField head.headers) ∧
      (fixed.isH2Upgrade → entityField head.headers = none) := by
  unfold fixupRequest at h
  cases hn : initHeaders head.headers with
  | error err =>
    rw [hn] at h
    cases h
  | ok r =>
    rw [hn] at h
    dsimp only at h
    have hp := points_initHeaders hn
    unfold fixupConnect at h
    split_ifs at h
    · obtain rfl := ok.inj h
      exact ⟨hp, nofun⟩
    · obtain rfl := ok.inj h
      exact ⟨hp, nofun⟩
    · obtain rfl := ok.inj h
      obtain ⟨hi, hu⟩ :=
        fixupConnection_entity env (resolveUrl env (Request.init env head r) r.host) r
      rw [hi]
      refine ⟨hp, fun h2 => ?_⟩
      rw [hu h2] at hp
      exact hp.2.symm

/-- What is decided if there is a field for the body. -/
lemma decideRequest_body (h : fixupRequest env head = .ok fixed)
    (hf : entityField head.headers = some f) : decideRequest env head = decideBody env fixed f := by
  obtain ⟨hp, hu⟩ := points_fixupRequest h
  have hh2 : ¬fixed.isH2Upgrade := fun h2 => by
    rw [hu h2] at hf
    cases hf
  unfold decideRequest
  rw [h]
  dsimp only
  rw [if_neg hh2, hp.2, hf]

/-- What is decided if there is none. -/
lemma decideRequest_plain (hf : entityField head.headers = none) (req : Request)
    (expectsContinue : Bool) (reader : Reader σ) :
    decideRequest env head ≠ .readBody req expectsContinue reader := by
  unfold decideRequest
  cases h : fixupRequest env head with
  | error err => exact nofun
  | ok fixed =>
    obtain ⟨hp, -⟩ := points_fixupRequest h
    dsimp only
    rw [hp.2, hf]
    split_ifs <;> exact nofun

end Decision

/-! ## Fields that agree -/

section Agree

variable {σ : Type} {env : Env σ} {head : Head}

/-- The field has a value that `create_entity_reader` refuses. -/
def Unusable (env : Env σ) (f : Field) : Prop :=
  isTransferEncoding f ∧ lcstris f.value (ascii "chunked") = false ∨
    isContentLength f ∧ ∀ n, strtosize f.value = some n → env.maxRequestEntitySize < n

/-- The request is refused for another reason: its head is bad, the expectation is not known, or
the field that is kept is of no use. -/
def RefusedAnyway (env : Env σ) (head : Head) : Prop :=
  match fixupRequest env head with
  | .error _ => True
  | .ok fixed => fixed.expect.any (!lcstris · (ascii "100-continue")) ∨
      ∃ f, entityField head.headers = some f ∧ Unusable env f

/-- How the body is read if the fields agree. -/
def Decision.Follows (fields : List Field) : Decision σ → Prop
  | .refuse _ => True
  | .readBody _ _ (.chunked _) => ∃ f ∈ fields, isTransferEncoding f
  | .readBody _ _ (.contentLength n) =>
    (∀ f ∈ fields, isTransferEncoding f = false) ∧ (∃ f ∈ fields, isContentLength f) ∧
      ∀ f ∈ fields, isContentLength f → strtosize f.value = some n
  | _ => ∀ f ∈ fields, isTransferEncoding f = false ∧ isContentLength f = false

/-- Where the body ends is not ambiguous: fields that disagree are refused, and those that agree
are followed. -/
def Unambiguous (env : Env σ) (head : Head) : Prop :=
  (Conflicting head.headers → ∃ err, decideRequest env head = .refuse err) ∧
    (¬Conflicting head.headers → (decideRequest env head).Follows head.headers)

lemma entityField_cases (h : entityField fields = some f) : f ∈ fields ∧ (isTransferEncoding f ∨
      (∀ g ∈ fields, isTransferEncoding g = false) ∧ isContentLength f) := by
  unfold entityField at h
  rcases or_eq_some_iff.1 h with hl | ⟨ho, hf⟩
  · obtain ⟨hmem, hc⟩ := mem_filter.1 (mem_of_getLast? hl)
    exact ⟨hmem, .inl hc⟩
  · obtain ⟨hmem, hlen⟩ := mem_filter.1 (mem_of_mem_head? hf)
    have hn := getLast?_eq_none_iff.1 ho
    refine ⟨hmem, .inr ⟨fun g hg => ?_, hlen⟩⟩
    exact Bool.eq_false_of_not_eq_true (filter_eq_nil_iff.1 hn g hg)

lemma entityField_none (h : entityField fields = none) :
    ∀ f ∈ fields, isTransferEncoding f = false ∧ isContentLength f = false := by
  unfold entityField at h
  obtain ⟨hl, hs⟩ := or_eq_none_iff.1 h
  intro f hf
  constructor
  · exact Bool.eq_false_of_not_eq_true (filter_eq_nil_iff.1 (getLast?_eq_none_iff.1 hl) f hf)
  · exact Bool.eq_false_of_not_eq_true (filter_eq_nil_iff.1 (head?_eq_none_iff.1 hs) f hf)

lemma name_length {t : Token} (h : f.headerName = .token t) : f.name.length = t.text.length := by
  have hb := congrArg HeaderName.bytes h
  unfold Http1Client.Field.headerName at hb
  rw [HeaderName.bytes_intern, HeaderName.bytes_token] at hb
  rw [← hb, length_map]

/-- `create_entity_reader` of a coding. -/
lemma createEntityReader_coding (h : isTransferEncoding f) : createEntityReader env f =
      if lcstris f.value (ascii "chunked") then .ok (.chunked env.zeroDecoder)
      else .error ⟨400, "Invalid Request", "unknown transfer-encoding"⟩ :=
  if_pos (name_length (of_decide_eq_true h))

/-- `create_entity_reader` of a length. -/
lemma createEntityReader_length (h : isContentLength f) : createEntityReader env f =
      match strtosize f.value with
      | none => .error ⟨400, "Invalid Request", "broken content-length header"⟩
      | some contentLength =>
        if contentLength > env.maxRequestEntitySize then .error tooLarge
        else .ok (.contentLength contentLength) := by
  have hlen : f.name.length ≠ (ascii "transfer-encoding").length := by
    rw [name_length (of_decide_eq_true h)]
    decide
  exact if_neg hlen

/-- A field that is of no use is refused, and no other. -/
lemma unusable_iff (h : isTransferEncoding f ∨ isContentLength f) :
    Unusable env f ↔ ∃ err, createEntityReader env f = .error err := by
  rcases h with hc | hlen
  · have ho : ¬isContentLength f := by
      unfold isContentLength
      rw [of_decide_eq_true hc]
      decide
    rw [createEntityReader_coding hc]
    unfold Unusable
    cases lcstris f.value (ascii "chunked") <;> simp [hc, ho]
  · have ho : ¬isTransferEncoding f := by
      unfold isTransferEncoding
      rw [of_decide_eq_true hlen]
      decide
    rw [createEntityReader_length hlen]
    unfold Unusable
    cases strtosize f.value with
    | none => simp [hlen]
    | some n =>
      by_cases hn : env.maxRequestEntitySize < n
      · simp [hlen, hn]
      · simp [hlen, ho, hn]

/-- A request with a field for the body is refused just for these reasons. -/
lemma refused_iff (hf : entityField head.headers = some f) :
    RefusedAnyway env head ↔ ∃ err, decideRequest env head = .refuse err := by
  unfold RefusedAnyway
  cases hi : fixupRequest env head with
  | error err =>
    refine iff_of_true trivial ⟨⟨400, "Bad Request", err⟩, ?_⟩
    unfold decideRequest
    rw [hi]
  | ok fixed =>
    obtain ⟨-, hk⟩ := entityField_cases hf
    rw [decideRequest_body hi hf]
    unfold decideBody
    dsimp only
    by_cases he : fixed.expect.any (!lcstris · (ascii "100-continue"))
    · rw [if_pos he]
      exact iff_of_true (.inl he) ⟨_, rfl⟩
    · rw [if_neg he, or_iff_right he]
      have hu : Unusable env f ↔ ∃ err, createEntityReader env f = .error err :=
        unusable_iff (hk.imp_right And.right)
      constructor
      · rintro ⟨g, hg, hb⟩
        obtain rfl := some.inj (hf.symm.trans hg)
        obtain ⟨err, hr⟩ := hu.1 hb
        rw [hr]
        exact ⟨err, rfl⟩
      · rintro ⟨err, hr⟩
        refine ⟨f, hf, hu.2 ?_⟩
        cases hc : createEntityReader env f with
        | error err => exact ⟨err, rfl⟩
        | ok reader =>
          rw [hc] at hr
          cases hr

/-- Fields that agree are followed. -/
lemma follows_of_agree (h : ¬Conflicting head.headers) :
    (decideRequest env head).Follows head.headers := by
  cases hf : entityField head.headers with
  | none =>
    have hn := entityField_none hf
    cases hd : decideRequest env head with
    | refuse err => trivial
    | readBody req expectsContinue reader => exact absurd hd (decideRequest_plain hf _ _ _)
    | upgradeH2 req | methodNotAllowed req | tunnel req | process req => exact hn
  | some f =>
    cases hi : fixupRequest env head with
    | error err =>
      unfold decideRequest
      rw [hi]
      trivial
    | ok fixed =>
      rw [decideRequest_body hi hf]
      obtain ⟨hmem, hk⟩ := entityField_cases hf
      unfold decideBody
      split_ifs with he
      · trivial
      · rcases hk with hc | ⟨hn, hlen⟩
        · rw [createEntityReader_coding hc]
          split_ifs
          · exact ⟨f, hmem, hc⟩
          · trivial
        · rw [createEntityReader_length hlen]
          cases hs : strtosize f.value with
          | none => trivial
          | some n =>
            dsimp only
            split_ifs
            · trivial
            · -- the other lengths are the same
              refine ⟨hn, ⟨f, hmem, hlen⟩, fun g hg hl => ?_⟩
              have hv : g.value = f.value := by
                by_contra hne
                exact h (.inl ⟨g, hg, f, hmem, hl, hlen, hne⟩)
              rw [hv, hs]

/-- Fields that disagree are there. -/
lemma Conflicting.exists_field (h : Conflicting fields) : ∃ f, entityField fields = some f := by
  by_contra hn
  have hn := entityField_none (eq_none_iff_forall_not_mem.2 fun f hf => hn ⟨f, hf⟩)
  rcases h with ⟨f, hf, -, -, hlen, -⟩ | ⟨-, f, hf, hc, -⟩
  · rw [(hn f hf).2] at hlen
    cases hlen
  · rw [(hn f hf).1] at hc
    cases hc

end Agree

/-- A server that takes bodies of 1000 octets. -/
def smallServer : Env Unit where
  parseRequest _ _ := .incomplete
  zeroDecoder := ()
  decodeChunked _ _ := ((), [], .incomplete)
  parseUrl _ := none
  canStreamRequest _ := false
  maxRequestEntitySize := 1000
  isSsl := false
  upgradeToHttp2 := false
  shutdownRequested := false

/-- A request with these fields. -/
def post (fields : List (String × String)) : Head where
  method := ascii "POST"
  path := ascii "/"
  minorVersion := 1
  headers := fields.map fun f => ⟨ascii f.1, ascii f.2⟩

end Vhttp.Http1Server
