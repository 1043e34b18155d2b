import Vhttp.Hpack.Response
import Vhttp.Http1Client.Basic

/-!
# The HTTP/1 server: request heads

What `lib/http1.c` makes of a request head: `init_headers`, `fixup_request` and
`create_entity_reader`. `phr_parse_request`, the chunked decoder and `vhttp_url_parse` are
parameters, as is the configuration.
-/

namespace Vhttp.Http1Server

open Http1 (ChunkResult)
open Http1Client (Field containsToken)

/-- `vhttp_lcstris`: `s` is `t`, which is in lower case. -/
def lcstris (s t : Bytes) : Bool := s.map Socketpool.toLower = t

/-- The schemes a request may have. -/
inductive Scheme where
  | http | https | masque
  deriving DecidableEq

/-- What is used of `vhttp_url_t`. -/
structure Url where
  scheme : Scheme
  authority : Bytes
  path : Bytes

/-- A request head as `phr_parse_request` returns it. -/
structure Head where
  method : Bytes
  path : Bytes
  minorVersion : ℕ
  headers : List Field

/-- The result of `phr_parse_request`: -1, -2, or a length and a head. -/
inductive ParseResult where
  | error
  | incomplete
  | complete (reqlen : ℕ) (head : Head)

/-- What `fixup_request` sets of `vhttp_req_t`. -/
structure Request where
  method : Bytes
  path : Bytes
  scheme : Scheme
  authority : Option Bytes
  version : ℕ
  headers : List Hpack.Header
  upgrade : Option Bytes
  isTunnelReq : Bool
  http1IsPersistent : Bool
  contentLength : Option ℕ
  deriving DecidableEq

/-- The parameters: the parsers, the configuration, and whether the first handler of a request
streams its body. -/
structure Env (σ : Type) where
  parseRequest : Bytes → ℕ → ParseResult
  zeroDecoder : σ
  decodeChunked : σ → Bytes → σ × Bytes × ChunkResult
  parseUrl : Bytes → Option Url
  canStreamRequest : Request → Bool
  maxRequestEntitySize : ℕ
  isSsl : Bool
  upgradeToHttp2 : Bool
  shutdownRequested : Bool

/-! ## Header fields -/

/-- What `init_headers` collects. -/
structure Collected where
  headers : List Hpack.Header
  connection : Option Bytes
  host : Option Bytes
  upgrade : Option Bytes
  expect : Option Bytes
  entityHeaderIndex : Option ℕ

/-- Nothing collected. -/
def Collected.empty : Collected := ⟨[], none, none, none, none, none⟩

/-- A field whose token is special; no other token than these is. -/
def Collected.special (r : Collected) (i : ℕ) (t : Token) (value : Bytes) : Collected :=
  match t with
  | .host => { r with host := some value }
  | .contentLength =>
    if r.entityHeaderIndex = none then { r with entityHeaderIndex := some i } else r
  | .transferEncoding => { r with entityHeaderIndex := some i }
  | .expect => { r with expect := some value }
  | .upgrade => { r with upgrade := some value }
  | _ => r

/-- The assertion of `init_headers` holds. -/
lemma isInitHeaderSpecial_iff (t : Token) : t.flags.isInitHeaderSpecial ↔
    t ∈ [Token.host, .contentLength, .transferEncoding, .expect, .upgrade] := by
  cases t <;> decide

/-- The loop of `init_headers` for the field at `i`. -/
def Collected.field (r : Collected) (i : ℕ) (f : Field) : Except String Collected :=
  if f.name = [] then .error "line folding of header fields is not supported"
  else
    match f.headerName with
    | .token t =>
      if t.flags.isInitHeaderSpecial then .ok (r.special i t f.value)
      else
        let r := { r with headers := r.headers ++ [⟨.token t, f.value⟩] }
        .ok (if t = .connection then { r with connection := some f.value } else r)
    | .text name => .ok { r with headers := r.headers ++ [⟨.text name, f.value⟩] }

/-- The loop of `init_headers`, from the field at `i` on. -/
def collect (r : Collected) (i : ℕ) : List Field → Except String Collected
  | [] => .ok r
  | f :: fs =>
    match r.field i f with
    | .ok r => collect r (i + 1) fs
    | .error err => .error err

/-- `init_headers`. -/
def initHeaders (fields : List Field) : Except String Collected := collect .empty 0 fields

/-! ## The request -/

/-- `upgrade_is_h2`. -/
def upgradeIsH2 (upgrade : Bytes) : Bool :=
  lcstris upgrade (ascii "h2c") || lcstris upgrade (ascii "h2c-14") ||
    lcstris upgrade (ascii "h2c-16")

/-- `vhttp_req_validate_pseudo_headers`. -/
def validatePseudoHeaders (method path : Bytes) (scheme : Scheme) : Bool :=
  if method = ascii "CONNECT-UDP" then
    (scheme = .masque ∨ scheme = .https) && decide (path = ascii "/")
  else scheme ≠ .masque

/-- What `fixup_request` returns if there is no error. -/
structure Fixed where
  req : Request
  expect : Option Bytes
  entityHeaderIndex : Option ℕ
  isH2Upgrade : Bool

section Fixup

variable {σ : Type}

variable (env : Env σ) (head : Head) (req : Request) (r : Collected)

/-- A request as it is before the method is looked at. -/
def Request.init : Request where
  method := head.method
  path := head.path
  scheme := if env.isSsl then .https else .http
  authority := none
  version := 0x100 + if head.minorVersion ≠ 0 then 1 else 0
  headers := r.headers
  upgrade := none
  isTunnelReq := false
  http1IsPersistent := false
  contentLength := none

/-- A request with the method CONNECT. -/
def fixupConnect : Except String Fixed :=
  if req.version < 0x101 ∨ req.path = [] ∨ (r.host.isSome ∧ r.host ≠ some req.path) ∨
      r.entityHeaderIndex.isSome then
    .error "invalid request"
  else
    .ok {
      req := { req with authority := some req.path, path := [], isTunnelReq := true }
      expect := r.expect
      entityHeaderIndex := r.entityHeaderIndex
      isH2Upgrade := false }

/-- An absolute URL replaces the scheme, the path and the host. -/
def resolveUrl (host : Option Bytes) : Request :=
  match (if req.path ≠ [] ∧ req.path.head? ≠ some 47 then env.parseUrl req.path else none) with
  | some url => { req with scheme := url.scheme, path := url.path, authority := some url.authority }
  | none => { req with authority := host }

/-- The end of `fixup_request`: keep-alive is disabled if shutdown is requested. -/
def checkShutdown : Request :=
  if req.http1IsPersistent && env.shutdownRequested then { req with http1IsPersistent := false }
  else req

/-- The header fields `connection` and `upgrade`. -/
def fixupConnection : Fixed :=
  match r.connection with
  | some connection =>
    let req := { req with http1IsPersistent := containsToken connection (ascii "keep-alive") }
    match r.upgrade with
    | some upgrade =>
      if containsToken connection (ascii "upgrade") && r.entityHeaderIndex.isNone then
        if upgradeIsH2 upgrade && !env.isSsl && env.upgradeToHttp2 then
          ⟨req, r.expect, r.entityHeaderIndex, true⟩
        else
          let req :=
            { req with upgrade := some upgrade, isTunnelReq := true, http1IsPersistent := false }
          ⟨checkShutdown env req, r.expect, r.entityHeaderIndex, false⟩
      else ⟨checkShutdown env req, r.expect, r.entityHeaderIndex, false⟩
    | none => ⟨checkShutdown env req, r.expect, r.entityHeaderIndex, false⟩
  | none =>
    let req := { req with http1IsPersistent := decide (req.version ≥ 0x101) }
    ⟨checkShutdown env req, r.expect, r.entityHeaderIndex, false⟩

/-- `fixup_request`. -/
def fixupRequest : Except String Fixed :=
  match initHeaders head.headers with
  | .error err => .error err
  | .ok r =>
    let req := Request.init env head r
    if head.method = ascii "CONNECT" then fixupConnect req r
    else
      let req := resolveUrl env req r.host
      if !validatePseudoHeaders req.method req.path req.scheme then .error "invalid request"
      else if head.method = ascii "CONNECT-UDP" then
        .ok ⟨{ req with isTunnelReq := true }, r.expect, r.entityHeaderIndex, false⟩
      else .ok (fixupConnection env req r)

/-! ## Readers of the body -/

/-- The readers of the request body. -/
inductive Reader (σ : Type) where
  | contentLength (contentLength : ℕ)
  | chunked (decoder : σ)

/-- An error response: the status, the reason and the body. -/
structure ErrorResponse where
  status : ℕ
  reason : String
  body : String
  deriving DecidableEq

/-- The response to a body that is too large. -/
def tooLarge : ErrorResponse := ⟨413, "Request Entity Too Large", "request entity is too large"⟩

/-- `create_entity_reader`. -/
def createEntityReader (f : Field) : Except ErrorResponse (Reader σ) :=
  if f.name.length = (ascii "transfer-encoding").length then
    if lcstris f.value (ascii "chunked") then .ok (.chunked env.zeroDecoder)
    else .error ⟨400, "Invalid Request", "unknown transfer-encoding"⟩
  else
    match strtosize f.value with
    | none => .error ⟨400, "Invalid Request", "broken content-length header"⟩
    | some contentLength =>
      if contentLength > env.maxRequestEntitySize then .error tooLarge
      else .ok (.contentLength contentLength)

/-- What is done with a request whose head is complete. -/
inductive Decision (σ : Type) where
  | refuse (err : ErrorResponse)
  | upgradeH2 (req : Request)
  | readBody (req : Request) (expectsContinue : Bool) (reader : Reader σ)
  | methodNotAllowed (req : Request)
  | tunnel (req : Request)
  | process (req : Request)

/-- The length that a reader reads is that of the request. -/
def Request.withReader : Reader σ → Request
  | .contentLength n => { req with contentLength := some n }
  | .chunked _ => req

/-- `handle_incoming_request` when there is a body. -/
def decideBody (fixed : Fixed) (f : Field) : Decision σ :=
  if fixed.expect.any (!lcstris · (ascii "100-continue")) then
    .refuse ⟨417, "Expectation Failed", "unknown expectation"⟩
  else
    match createEntityReader env f with
    | .error err => .refuse err
    | .ok reader => .readBody (fixed.req.withReader reader) fixed.expect.isSome reader

/-- `handle_incoming_request` when the head is complete. -/
def decideRequest : Decision σ :=
  match fixupRequest env head with
  | .error err => .refuse ⟨400, "Bad Request", err⟩
  | .ok fixed =>
    if fixed.isH2Upgrade then .upgradeH2 fixed.req
    else
      match fixed.entityHeaderIndex.bind (head.headers[·]?) with
      | some f => decideBody env fixed f
      | none =>
        if fixed.req.isTunnelReq then
          if !env.canStreamRequest fixed.req && fixed.req.method = ascii "CONNECT" then
            .methodNotAllowed fixed.req
          else .tunnel fixed.req
        else .process fixed.req

end Fixup

end Vhttp.Http1Server
