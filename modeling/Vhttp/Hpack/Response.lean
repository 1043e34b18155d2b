import Vhttp.Hpack.Decode

/-!
# Response header blocks

`vhttp_hpack_parse_response` of `lib/http2/hpack.c`, with the decoder of HPACK.  Trailers are read
with `status == NULL`.

* `parseResponse_reported`: a block that cannot be read is an error `PROTOCOL` or `COMPRESSION`.
-/

namespace Vhttp.Hpack

open Http2 (Err)

/-- `vhttp_hpack_err_missing_mandatory_pseudo_header`. -/
def errMissingMandatoryPseudoHeader : String := "missing mandatory pseudo header"
/-- `vhttp_hpack_err_invalid_pseudo_header`. -/
def errInvalidPseudoHeader : String := "invalid pseudo header"
/-- `vhttp_hpack_err_unexpected_connection_specific_header`. -/
def errUnexpectedConnectionSpecificHeader : String :=
  "found an unexpected connection-specific header"

/-- `vhttp_header_t`. -/
structure Header where
  name : HeaderName
  value : Bytes
  deriving DecidableEq

/-- What has been read of a header block: the status, which is 0 before it is known, the fields in
their order, and the first soft error. -/
structure Parsed where
  table : HeaderTable
  status : ℕ
  fields : List Header
  datagramFlowId : Option Bytes
  errDesc : Option String

/-- The digits of a status; the first one is not 0. -/
def parseStatus : Bytes → Option ℕ
  | [a, b, c] =>
    let digit (ch : UInt8) (minDigit : ℕ) : Bool := 48 + minDigit ≤ ch.toNat ∧ ch.toNat ≤ 57
    if digit a 1 && digit b 0 && digit c 0 then
      some ((a.toNat - 48) * 100 + (b.toNat - 48) * 10 + (c.toNat - 48))
    else none
  | _ => none

variable (t : HeaderTable) (r : Representation) (p : Parsed) (isTrailers : Bool) (e : Entry) (src : Bytes)

/-- A pseudo-header. -/
def Parsed.addPseudoHeader : Except Err Parsed :=
  if isTrailers then .error ⟨.protocol, errInvalidPseudoHeader⟩
  else if e.name ≠ .token .status then .error ⟨.protocol, errInvalidPseudoHeader⟩
  else if p.status ≠ 0 then .error ⟨.protocol, errInvalidPseudoHeader⟩
  else
    match parseStatus e.value with
    | some status => .ok { p with status }
    | none => .error ⟨.protocol, errInvalidPseudoHeader⟩

/-- A field that is not a pseudo-header. -/
def Parsed.addField : Except Err Parsed :=
  if !isTrailers && p.status == 0 then .error ⟨.protocol, errMissingMandatoryPseudoHeader⟩
  else
    let passed : Parsed := { p with fields := p.fields ++ [⟨e.name, e.value⟩] }
    match e.name with
    | .text _ => .ok passed
    | .token t =>
      if t.flags.isHpackSpecial then
        if t = .contentLength ∨ t = .cacheDigest ∨ t = .host then .ok passed
        else if t = .datagramFlowId then .ok { p with datagramFlowId := some e.value }
        else .error ⟨.protocol, errUnexpectedConnectionSpecificHeader⟩
      else .ok passed

/-- The round of a decoded header. -/
def Parsed.add : Except Err Parsed :=
  let p := { p with errDesc := p.errDesc.or e.softErrors.desc }
  if e.name.bytes.head? = some (ofChar ':') then p.addPseudoHeader isTrailers e
  else p.addField isTrailers e

/-- The loop of `vhttp_hpack_parse_response`; each round takes an octet at least. -/
def parseHeaders (isTrailers : Bool) : ℕ → Parsed → Bytes → Except Err Parsed
  | 0, _, _ => .error ⟨.compression, none⟩
  | n + 1, p, src => do
    let (e, table, src) ← decodeHeader p.table src
    let p ← Parsed.add { p with table } isTrailers e
    if src = [] then .ok p else parseHeaders isTrailers n p src

/-- `vhttp_hpack_parse_response`. With a soft error it returns `INVALID_HEADER_CHAR`. -/
def parseResponse : Except Err Parsed :=
  if !isTrailers && src.isEmpty then .error ⟨.protocol, errMissingMandatoryPseudoHeader⟩
  else parseHeaders isTrailers (src.length + 1) ⟨t, 0, [], none, none⟩ src

/-! ## The errors -/

/-- A fault of the peer that has a code of its own: not `PROTOCOL_CLOSE_IMMEDIATELY`. -/
def Reported {α : Type} (x : Except Err α) : Prop :=
  ∀ e, x = .error e → e.code = .protocol ∨ e.code = .compression

variable {α β : Type}

lemma reported_ok (a : α) : Reported (.ok a : Except Err α) := nofun

lemma reported_protocol (desc : Option String) :
    Reported (.error ⟨.protocol, desc⟩ : Except Err α) := by
  rintro e ⟨⟩
  exact .inl rfl

lemma reported_compression (desc : Option String) :
    Reported (.error ⟨.compression, desc⟩ : Except Err α) := by
  rintro e ⟨⟩
  exact .inr rfl

lemma Reported.bind {x : Except Err α} {f : α → Except Err β} (hx : Reported x)
    (hf : ∀ a, Reported (f a)) : Reported (x >>= f) := by
  intro e he
  cases x with
  | error e' =>
    apply hx e
    exact congrArg Except.error (Except.error.inj he)
  | ok a => exact hf a e he

lemma decodeSizeUpdates_reported (n : ℕ) (t : HeaderTable) (src : Bytes) :
    Reported (decodeSizeUpdates n t src) := by
  induction n generalizing t src with
  | zero => exact reported_compression none
  | succ n ih =>
    unfold decodeSizeUpdates
    split
    · exact reported_compression none
    · split
      · split
        · exact reported_compression none
        · split
          · exact reported_compression none
          · exact ih _ _
      · exact reported_ok _

lemma decodeIndex_reported (prefixBits : ℕ) : Reported (decodeIndex src prefixBits) := by
  unfold decodeIndex
  split
  · exact reported_ok _
  · exact reported_compression none

lemma decodeRepresentation_reported : Reported (decodeRepresentation src) := by
  unfold decodeRepresentation
  split
  · exact reported_compression none
  · split_ifs
    · exact (decodeIndex_reported _ _).bind fun _ => reported_ok _
    · exact reported_ok _
    · exact (decodeIndex_reported _ _).bind fun _ => reported_ok _
    · exact reported_ok _
    · exact (decodeIndex_reported _ _).bind fun _ => reported_ok _

lemma decodeName_reported : Reported (decodeName t r src) := by
  have hl : Reported (t.lookup r.index) := by
    unfold HeaderTable.lookup
    split
    · split
      · exact reported_ok _
      · exact reported_compression none
    · split
      · exact reported_ok _
      · exact reported_compression none
  unfold decodeName
  split
  · exact hl.bind fun _ => reported_ok _
  · split
    · split
      · exact reported_protocol _
      · exact reported_compression _
    · exact reported_ok _

lemma decodeValue_reported : Reported (decodeValue r e src) := by
  unfold decodeValue
  split
  · exact reported_ok _
  · split
    · exact reported_compression _
    · exact reported_ok _

lemma decodeHeader_reported : Reported (decodeHeader t src) := by
  unfold decodeHeader
  refine (decodeSizeUpdates_reported _ _ _).bind fun _ => ?_
  refine (decodeRepresentation_reported _).bind fun _ => ?_
  refine (decodeName_reported _ _ _).bind fun _ => ?_
  exact (decodeValue_reported _ _ _).bind fun _ => reported_ok _

lemma Parsed.add_reported : Reported (p.add isTrailers e) := by
  unfold Parsed.add
  dsimp only
  split
  · unfold Parsed.addPseudoHeader
    split_ifs
    · exact reported_protocol _
    · exact reported_protocol _
    · exact reported_protocol _
    · split
      · exact reported_ok _
      · exact reported_protocol _
  · unfold Parsed.addField
    split_ifs
    · exact reported_protocol _
    · split
      · exact reported_ok _
      · split_ifs
        · exact reported_ok _
        · exact reported_ok _
        · exact reported_protocol _
        · exact reported_ok _

lemma parseHeaders_reported (n : ℕ) (p : Parsed) (src : Bytes) :
    Reported (parseHeaders isTrailers n p src) := by
  induction n generalizing p src with
  | zero => exact reported_compression none
  | succ n ih =>
    unfold parseHeaders
    refine (decodeHeader_reported _ _).bind fun _ => ?_
    refine (Parsed.add_reported _ _ _).bind fun _ => ?_
    split
    · exact reported_ok _
    · exact ih _ _

/-- A header block that cannot be read closes the connection with GOAWAY. -/
theorem parseResponse_reported : Reported (parseResponse t isTrailers src) := by
  unfold parseResponse
  split
  · exact reported_protocol _
  · exact parseHeaders_reported _ _ _ _

end Vhttp.Hpack
