import Vhttp.Lib.GrowBuffer
import Vhttp.Token

/-!
# Access log lines

`lib/core/logconf.c`: a log format is compiled to a list of elements, each of which has a text that
follows it. A line is written to a buffer that the caller provides; an element reserves room for
what it may append and for its suffix, and the buffer grows if there is not enough.

`describe` is the `switch` of `vhttp_log_request`: what an element reserves and appends. A write
that does not fit is `overflow`.
-/

namespace Vhttp.Logconf

open GrowBuffer (Buffer)

/-! ## Elements -/

/-- `ELEMENT_TYPE_EMPTY` and so on, with `data`. -/
inductive ElementType where
  | empty | localAddr | bytesSent | headerBytesSent | protocol | remoteAddr | logname | method
  | localPort | remotePort
  | envVar (name : Bytes)
  | query | requestLine | status | timestamp
  | timestampStrftime (name : Bytes)
  | timestampSecSinceEpoch | timestampMsecSinceEpoch | timestampUsecSinceEpoch
  | timestampMsecFrac | timestampUsecFrac | urlPath | remoteUser | authority | hostconf
  | inHeaderToken (token : Token)
  | inHeaderString (name : Bytes)
  | inHeaderUpgrade
  | outHeaderToken (token : Token)
  | outHeaderString (name : Bytes)
  | outHeaderTokenConcatenated (token : Token)
  | extendedVar (name : Bytes)
  | connectionId | requestId | connectTime | requestHeaderTime | requestBodyTime
  | requestTotalTime | processTime | responseTime | totalTime | error
  | protocolSpecific (callbackIndex : ℕ)
  | proxyIdleTime | proxyConnectTime | proxyRequestTime | proxyProcessTime | proxyResponseTime
  | proxyTotalTime | proxyRequestBytes | proxyRequestBytesHeader | proxyRequestBytesBody
  | proxyResponseBytes | proxyResponseBytesHeader | proxyResponseBytesBody
  | proxySslProtocolVersion | proxySslSessionReused | proxySslCipher | proxySslCipherBits
  deriving DecidableEq

/-- `log_element_t`. -/
structure Element where
  type : ElementType
  suffix : Bytes
  magicallyQuotedJson : Bool
  originalResponse : Bool

/-- `vhttp_LOGCONF_ESCAPE_APACHE`, `vhttp_LOGCONF_ESCAPE_JSON`. -/
inductive Escape where
  | apache | json
  deriving DecidableEq

/-! ## Quotes -/

/-- The state of `determine_magicquote_nodes`: the quote that is open, if it has just been opened,
and the number of backslashes before the next character. -/
structure QuoteState where
  quoteChar : Option UInt8
  justIn : Bool
  backslashes : ℕ

/-- A character of a suffix. -/
def QuoteState.char (s : QuoteState) (c : UInt8) : QuoteState where
  quoteChar :=
    match s.quoteChar with
    | some q => if q = c ∧ s.backslashes % 2 = 0 then none else some q
    | none => if c = 34 ∨ c = 39 then some c else none
  justIn := s.quoteChar = none ∧ (c = 34 ∨ c = 39)
  backslashes := if c = 92 then s.backslashes + 1 else 0

/-- The characters of a suffix. -/
def QuoteState.suffix (s : QuoteState) (suffix : Bytes) : QuoteState :=
  suffix.foldl QuoteState.char ⟨s.quoteChar, false, 0⟩

/-- `determine_magicquote_nodes` for the elements from here on. -/
def determineMagicquoteNodes (s : QuoteState) : List Element → List Element
  | [] => []
  | e :: es =>
    { e with magicallyQuotedJson := s.justIn && e.suffix ≠ [] && e.suffix.head? = s.quoteChar } ::
      determineMagicquoteNodes (s.suffix e.suffix) es

/-- `vhttp_logconf_t` as `vhttp_logconf_compile` leaves it. -/
structure Conf where
  elements : List Element
  escape : Escape
  quoted : elements = match escape with
    | .json => determineMagicquoteNodes ⟨none, false, 0⟩ elements
    | .apache => elements.map fun e => { e with magicallyQuotedJson := false }

/-! ## The request -/

/-- `struct timeval`. -/
structure Timeval where
  sec : ℕ
  usec : Fin 1000000

/-- `vhttp_timeval_is_null`. -/
def Timeval.isNull (t : Timeval) : Bool := t.sec = 0

/-- `vhttp_timeval_subtract`. -/
def Timeval.subtract (start stop : Timeval) : ℤ :=
  ((stop.sec : ℤ) - start.sec).bmod (2 ^ 32) * 1000000 + ((stop.usec : ℤ) - start.usec)

/-- `COMPUTE_DURATION`. -/
def computeDuration (start stop : Timeval) : Option ℤ :=
  if start.isNull || stop.isNull then none else some (start.subtract stop)

/-- `NI_MAXHOST`. -/
def niMaxhost : ℕ := 1025

/-- `vhttp_TIMESTR_LOG_LEN`. -/
def timestrLogLen : ℕ := 26

/-- What is read of `vhttp_req_t`. A numeric host is what `getnameinfo` writes; `strftime` is the
text for a format. -/
structure Req where
  version : ℕ
  method : Bytes
  path : Bytes
  queryAt : Option ℕ
  authority : Bytes
  hostport : Bytes
  env : Bytes → Option Bytes
  headers : List (HeaderName × Bytes)
  upgrade : Option Bytes
  status : ℤ
  originalStatus : ℤ
  resHeaders : List (HeaderName × Bytes)
  originalHeaders : List (HeaderName × Bytes)
  bytesSent : UInt64
  headerBytesSent : UInt64
  sockname : Option {s : Bytes // s.length < niMaxhost}
  sockport : Option UInt16
  peername : Option {s : Bytes // s.length < niMaxhost}
  peerport : Option UInt16
  connId : UInt64
  reqId : UInt64
  errorLogs : Option Bytes
  log : ℕ → Option Bytes
  logStr : {s : Bytes // s.length = timestrLogLen}
  strftime : Bytes → Bytes
  connectedAt : Timeval
  requestBeginAt : Timeval
  requestBodyBeginAt : Timeval
  processedAt : Timeval
  responseStartAt : Timeval
  responseEndAt : Timeval
  proxyStartAt : Timeval
  proxyRequestBeginAt : Timeval
  proxyRequestEndAt : Timeval
  proxyResponseStartAt : Timeval
  proxyResponseEndAt : Timeval
  proxyWritten : UInt64
  proxyWrittenHeader : UInt64
  proxyWrittenBody : UInt64
  proxyRead : UInt64
  proxyReadHeader : UInt64
  proxyReadBody : UInt64
  proxySslProtocolVersion : Option Bytes
  proxySslSessionReused : Bool
  proxySslCipher : Option Bytes
  proxySslCipherBits : UInt16

/-- Where the body of the request begins, or the request was processed. -/
def Req.bodyBegin (req : Req) : Timeval :=
  if req.requestBodyBeginAt.isNull then req.processedAt else req.requestBodyBeginAt

/-- `vhttp_find_header`, again and again: the values of a field. -/
def findHeader (headers : List (HeaderName × Bytes)) (token : Token) : List Bytes :=
  (headers.filter fun h => h.1 = .token token).map Prod.snd

/-- `vhttp_find_header_by_str`, again and again: the values of a field. -/
def findHeaderByStr (headers : List (HeaderName × Bytes)) (name : Bytes) : List Bytes :=
  (headers.filter fun h => h.1.bytes = name).map Prod.snd

/-! ## Texts -/

/-- A hexadecimal digit. -/
def hexDigit (n : ℕ) : UInt8 := UInt8.ofNat (if n < 10 then 48 + n else 87 + n)

/-- A character of `append_unsafe_string_apache`. -/
def apacheChar (c : UInt8) : Bytes :=
  if 32 ≤ c ∧ c < 125 ∧ c ≠ 34 then [c]
  else [92, 120, hexDigit (c.toNat / 16), hexDigit (c.toNat % 16)]

/-- A character of `append_unsafe_string_json`. -/
def jsonChar (c : UInt8) : Bytes :=
  if 32 ≤ c ∧ c < 126 then if c = 34 ∨ c = 92 then [92, c] else [c]
  else [92, 117, 48, 48, hexDigit (c.toNat / 16), hexDigit (c.toNat % 16)]

variable (escape : Escape) (req : Req) (e : Element)

/-- What `append_unsafe_string` appends. -/
def Escape.unsafeString (src : Bytes) : Bytes :=
  match escape with
  | .apache => src.flatMap apacheChar
  | .json => src.flatMap jsonChar

/-- `unsafe_factor`. -/
def Escape.unsafeFactor : Escape → ℕ
  | .apache => 4
  | .json => 6

/-- `nullexpr`. -/
def Escape.nullexpr : Escape → Bytes
  | .apache => ascii "-"
  | .json => ascii "null"

/-- `%u` and its like. -/
def decimalText (n : ℕ) : Bytes := (Nat.toDigits 10 n).map ofChar

/-- `%d` for an `int32_t`. -/
def signedText (z : ℤ) : Bytes :=
  let v := z.bmod (2 ^ 32)
  if v < 0 then 45 :: decimalText v.natAbs else decimalText v.natAbs

/-- `%03u` and its like. -/
def paddedText (width n : ℕ) : Bytes :=
  List.replicate (width - (decimalText n).length) 48 ++ decimalText n

/-- The digits that `APPEND_DURATION` writes after the point, from the last to the first. -/
def fractionDigits : ℕ → ℤ → Bytes
  | 0, _ => []
  | k + 1, usec => fractionDigits k (usec.tdiv 10) ++ [UInt8.ofNat ((48 + usec.tmod 10) % 256).toNat]

/-- `delta_sec` of `APPEND_DURATION`. -/
def durationSec (deltaUsec : ℤ) : ℤ := (deltaUsec.tdiv 1000000).bmod (2 ^ 32)

/-- What is left for the digits after the point. -/
def durationRest (deltaUsec : ℤ) : ℤ := deltaUsec - durationSec deltaUsec * 1000000

/-- What `APPEND_DURATION` appends. -/
def durationText (deltaUsec : ℤ) : Bytes :=
  signedText (durationSec deltaUsec) ++
    if durationRest deltaUsec = 0 then [] else 46 :: fractionDigits 6 (durationRest deltaUsec)

/-- `vhttp_stringify_protocol_version`. -/
def stringifyProtocolVersion (version : ℕ) : Bytes :=
  if version < 0x200 then ascii "HTTP/1." ++ [UInt8.ofNat (48 + version % 256)]
  else ascii "HTTP/" ++ [UInt8.ofNat (version / 256 + 48)]

/-! ## What an element appends -/

/-- What an element appends: the expression for null; a text, for which room is reserved or not and
after which there may be a terminator; the values of a field, all of them or the first; or a time in
the format of the user. -/
inductive Emission where
  | null
  | append (reserved : Option ℕ) (text : Bytes) (terminated : Bool)
  | header (values : List Bytes) (concat : Bool)
  | strftime (text : Bytes)

/-- `RESERVE(sizeof(longest) - 1)` and `sprintf`. -/
def number (longest : String) (text : Bytes) : Emission :=
  .append (some longest.length) text true

/-- The longest numbers. -/
def uint64LongestStr : String := "18446744073709551615"

/-- A `uint64_t`. -/
def uint64 (n : UInt64) : Emission := number uint64LongestStr (decimalText n.toNat)

/-- `append_addr`. -/
def addr (host : Option {s : Bytes // s.length < niMaxhost}) : Emission :=
  match host with
  | some host => .append (some niMaxhost) host.1 true
  | none => .append (some niMaxhost) escape.nullexpr false

/-- `append_port`. -/
def port (n : Option UInt16) : Emission :=
  match n with
  | some n => number "65535" (decimalText n.toNat)
  | none => .append (some "65535".length) escape.nullexpr false

/-- A text that is escaped. -/
def unsafeText (src : Bytes) : Emission :=
  .append (some (src.length * escape.unsafeFactor)) (escape.unsafeString src) false

/-- `APPEND_SAFE_STRING`. -/
def safeText (s : Option Bytes) : Emission :=
  match s with
  | some s => .append (some s.length) s false
  | none => .null

/-- `APPEND_DURATION`. -/
def duration (start stop : Timeval) : Emission :=
  match computeDuration start stop with
  | none => .null
  | some deltaUsec =>
    .append (some "-2147483648.999999".length) (durationText deltaUsec)
      (durationRest deltaUsec = 0)

/-- An element that needs the time at which the request was processed. -/
def timestamp (emission : Emission) : Emission :=
  if req.processedAt.isNull then .null else emission

/-- The `switch` of `vhttp_log_request`. -/
def describe : Emission :=
  let out := if e.originalResponse then req.originalHeaders else req.resHeaders
  match e.type with
  | .empty => .append (some 0) [] false
  | .localAddr => addr escape req.sockname
  | .bytesSent => uint64 req.bytesSent
  | .headerBytesSent => uint64 req.headerBytesSent
  | .protocol =>
    if req.version = 0 then .null
    else .append (some ("HTTP/1.1".length + 1)) (stringifyProtocolVersion req.version) true
  | .remoteAddr => addr escape req.peername
  | .method => if req.method = [] then .null else unsafeText escape req.method
  | .localPort => port escape req.sockport
  | .remotePort => port escape req.peerport
  | .envVar name =>
    match req.env name with
    | none => .null
    | some value => .append (some (value.length * escape.unsafeFactor)) value false
  | .query =>
    match req.queryAt with
    | some queryAt => unsafeText escape (req.path.drop queryAt)
    | none => .append none [] false
  | .requestLine =>
    if req.version = 0 then .null
    else
      .append (some ((req.method.length + req.path.length) * escape.unsafeFactor +
          ("  HTTP/1.1".length + 1)))
        (escape.unsafeString req.method ++ [32] ++ escape.unsafeString req.path ++ [32] ++
          stringifyProtocolVersion req.version) true
  | .status =>
    if req.status = 0 then .null
    else
      number "-2147483648"
        (signedText (if e.originalResponse then req.originalStatus else req.status))
  | .timestamp =>
    timestamp req (.append (some (timestrLogLen + 2)) ([91] ++ req.logStr.1 ++ [93]) false)
  | .timestampStrftime name => timestamp req (.strftime (req.strftime name))
  | .timestampSecSinceEpoch =>
    timestamp req (number "4294967295" (decimalText (req.processedAt.sec % 2 ^ 32)))
  | .timestampMsecSinceEpoch =>
    timestamp req (number uint64LongestStr
      (decimalText ((req.processedAt.sec * 1000 + req.processedAt.usec / 1000) % 2 ^ 64)))
  | .timestampUsecSinceEpoch =>
    timestamp req (number uint64LongestStr
      (decimalText ((req.processedAt.sec * 1000000 + req.processedAt.usec) % 2 ^ 64)))
  | .timestampMsecFrac =>
    timestamp req (.append (some 3) (paddedText 3 (req.processedAt.usec / 1000)) true)
  | .timestampUsecFrac => timestamp req (.append (some 6) (paddedText 6 req.processedAt.usec) true)
  | .urlPath =>
    if req.path = [] then .null
    else unsafeText escape (req.path.take (req.queryAt.getD req.path.length))
  | .remoteUser =>
    match req.env (ascii "REMOTE_USER") with
    | none => .null
    | some value => unsafeText escape value
  | .authority => unsafeText escape req.authority
  | .hostconf => unsafeText escape req.hostport
  | .inHeaderToken token => .header (findHeader req.headers token) false
  | .inHeaderString name => .header (findHeaderByStr req.headers name) false
  | .inHeaderUpgrade =>
    match req.upgrade with
    | none => .null
    | some value => unsafeText escape value
  | .outHeaderToken token => .header (findHeader out token) false
  | .outHeaderString name => .header (findHeaderByStr out name) false
  | .outHeaderTokenConcatenated token => .header (findHeader out token) true
  | .connectionId => uint64 req.connId
  | .connectTime => duration req.connectedAt req.requestBeginAt
  | .requestId => uint64 req.reqId
  | .requestHeaderTime => duration req.requestBeginAt req.bodyBegin
  | .requestBodyTime => duration req.bodyBegin req.processedAt
  | .requestTotalTime => duration req.requestBeginAt req.processedAt
  | .processTime => duration req.processedAt req.responseStartAt
  | .responseTime => duration req.responseStartAt req.responseEndAt
  | .totalTime => duration req.requestBeginAt req.responseEndAt
  | .error =>
    match req.errorLogs with
    | some logs => .append none (escape.unsafeString logs) false
    | none => .append none [] false
  | .proxyIdleTime => duration req.requestBeginAt req.proxyStartAt
  | .proxyConnectTime => duration req.proxyStartAt req.proxyRequestBeginAt
  | .proxyRequestTime => duration req.proxyRequestBeginAt req.proxyRequestEndAt
  | .proxyProcessTime => duration req.proxyRequestEndAt req.proxyResponseStartAt
  | .proxyResponseTime => duration req.proxyResponseStartAt req.proxyResponseEndAt
  | .proxyTotalTime => duration req.proxyRequestBeginAt req.proxyResponseEndAt
  | .proxyRequestBytes => uint64 req.proxyWritten
  | .proxyRequestBytesHeader => uint64 req.proxyWrittenHeader
  | .proxyRequestBytesBody => uint64 req.proxyWrittenBody
  | .proxyResponseBytes => uint64 req.proxyRead
  | .proxyResponseBytesHeader => uint64 req.proxyReadHeader
  | .proxyResponseBytesBody => uint64 req.proxyReadBody
  | .proxySslSessionReused =>
    .append (some 1) [if req.proxySslSessionReused then 49 else 48] false
  | .proxySslCipherBits =>
    if req.proxySslCipherBits = 0 then .null
    else .append (some ("-32768".length + 1)) (decimalText req.proxySslCipherBits.toNat) true
  | .proxySslProtocolVersion => safeText req.proxySslProtocolVersion
  | .proxySslCipher => safeText req.proxySslCipher
  | .protocolSpecific callbackIndex => safeText (req.log callbackIndex)
  | .logname => .null
  | .extendedVar _ => .null

/-! ## The line -/

/-- Why there is no line: a write does not fit, or `strftime` is called again and again because its
result is empty. -/
inductive Fault where
  | overflow | endless
  deriving DecidableEq

/-- The line. -/
abbrev Line := Buffer UInt8

/-- A text is appended; it has to fit, with this much room after it. -/
def put (text : Bytes) (room : ℕ) (line : Line) : Except Fault Line :=
  match line.write text room with
  | some line => .ok line
  | none => .error .overflow

/-- `EmitNull`. In a quoted string the quotes are left out. -/
def emitNull (line : Line) : Except Fault Line := do
  let line := line.reserve (escape.nullexpr.length + e.suffix.length)
  if e.magicallyQuotedJson then
    if line.contents = [] then .error .overflow
    else
      let line ← put escape.nullexpr (e.suffix.length - 1)
        { line with contents := line.contents.dropLast }
      put (e.suffix.drop 1) 0 line
  else
    let line ← put escape.nullexpr e.suffix.length line
    put e.suffix 0 line

/-- A text and the suffix. -/
def emitText (reserved : Option ℕ) (text : Bytes) (terminated : Bool)
    (line : Line) : Except Fault Line := do
  let line := match reserved with
    | some n => line.reserve (n + e.suffix.length)
    | none => line
  let line ← put text (max e.suffix.length (if terminated then 1 else 0)) line
  put e.suffix 0 line

/-- The value of a field. -/
def emitValue (value : Bytes) (line : Line) : Except Fault Line :=
  put (escape.unsafeString value) e.suffix.length
    (line.reserve (value.length * escape.unsafeFactor + e.suffix.length))

/-- The other values of a field. -/
def emitValues (escape : Escape) (e : Element) : List Bytes → Line → Except Fault Line
  | [], line => .ok line
  | value :: values, line => do
    let line ← put (ascii ", ") e.suffix.length (line.reserve (2 + e.suffix.length))
    let line ← emitValue escape e value line
    emitValues escape e values line

/-- The loop around `strftime`. -/
def emitTime (e : Element) (text : Bytes) : ℕ → ℕ → Line → Except Fault Line
  | 0, _, _ => .error .endless
  | fuel + 1, bufsz, line => do
    let line := line.reserve (bufsz + e.suffix.length)
    if text ≠ [] ∧ text.length < bufsz then
      let line ← put text (max e.suffix.length 1) line
      put e.suffix 0 line
    else emitTime e text fuel (bufsz * 2) line

/-- An element and its suffix. -/
def emit (line : Line) : Emission → Except Fault Line
  | .null => emitNull escape e line
  | .append reserved text terminated => emitText e reserved text terminated line
  | .header [] _ => emitNull escape e line
  | .header (value :: values) concat => do
    let line ← emitValue escape e value line
    let line ← emitValues escape e (if concat then values else []) line
    put e.suffix 0 line
  | .strftime text => emitTime e text (text.length + 1) 128 line

/-- The elements, one after another. -/
def logElements (es : List Element) (line : Line) : Except Fault Line :=
  es.foldlM (fun line e => emit escape e line (describe escape req e)) line

/-- `vhttp_log_request` with a buffer of this size. -/
def logRequest (conf : Conf) (req : Req) (size : ℕ) : Except Fault Line :=
  logElements conf.escape req conf.elements ⟨size, []⟩

end Vhttp.Logconf
