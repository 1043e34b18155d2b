import Vhttp.Http1.Chunked
import Vhttp.Socketpool.Basic
import Vhttp.Strtosize
import Vhttp.Token

/-!
# The HTTP/1 client: state

The model of `lib/common/http1client.c`. `phr_parse_response` is a parameter of the model, the
chunked decoder is that of `Vhttp.Http1.Chunked`. The content of what is written is not modelled,
only the callbacks that the writes have.
-/

namespace Vhttp.Http1Client

open Http1 (Decoder)

/-! ## Response heads -/

/-- A header field as `phr_parse_response` returns it. -/
structure Field where
  name : Bytes
  value : Bytes
  deriving DecidableEq

/-- The head of a response. -/
structure Head where
  minorVersion : ℕ
  status : ℕ
  fields : List Field
  deriving DecidableEq

/-- The result of `phr_parse_response`: -1, -2, or a head and its length. -/
inductive HeadResult where
  | error
  | incomplete
  | head (h : Head) (rlen : ℕ)

/-- `phr_parse_response`. -/
abbrev Parser := Bytes → HeadResult

/-- The name of a field after `vhttp_strtolower` and `vhttp_lookup_token`. -/
def Field.headerName (f : Field) : HeaderName := .intern (f.name.map Socketpool.toLower)

/-- `*cur == ' ' || *cur == '\t'`. -/
def isBlank (ch : UInt8) : Bool := ch = 32 ∨ ch = 9

/-- `vhttp_contains_token` with a comma as the separator. -/
def containsToken (haystack needle : Bytes) : Bool :=
  (haystack.splitOn 44).any fun element =>
    ((element.dropWhile isBlank).rdropWhile isBlank).map Socketpool.toLower = needle

/-! ## Callbacks -/

/-- The callbacks of the socket for input. -/
inductive ReadCb where
  | onHead
  | onBodyUntilClose
  | onBodyContentLength
  | onBodyChunked
  | onBodyToPipe
  deriving DecidableEq

/-- The callbacks of a write. -/
inductive WriteCb where
  | onWholeRequestSent
  | onHeaderSentWait100
  | reqBodySendComplete

/-- The callbacks of the timer. -/
inductive TimerCb where
  | onSendTimeout
  | onHeadFirstByteTimeout
  | onHeadTimeout
  | onBodyTimeout

/-- The errors that the application is told. -/
inductive Error where
  | isEos
  | io
  | firstByteTimeout
  | ioTimeout
  | invalidContentLength
  | lineFolding
  | unexpectedTransferEncoding
  | parseFailed
  | internal
  | unexpected101
  deriving DecidableEq

/-- A call to the application. `onBody` comes with the octets that were added to the buffer. -/
inductive Call where
  | informational (status : ℕ) (fields : List Field)
  | onHead (err : Option Error) (head : Option Head)
  | onBody (err : Option Error) (data : Bytes)
  | proceedReq (err : Option Error)
  deriving DecidableEq

/-- The answers of the application. -/
structure Env where
  /-- the return values of `informational_cb`, one for each call -/
  informationalOk : ℕ → Bool
  /-- `on_head` returns a callback -/
  onHeadOk : Bool
  /-- `on_head` sets `on_body_piped`, if it is offered a pipe reader -/
  usesPipe : Bool
  onBodyOk : Bool
  /-- the octets that `on_body` takes from the buffer -/
  consumed : ℕ

/-! ## The client -/

/-- The states of the request and the response. -/
inductive StreamState where
  | head
  | body
  | closed
  deriving DecidableEq

/-- `upgrade_to`. -/
inductive Upgrade where
  | connect
  | protocol
  deriving DecidableEq

/-- What becomes of the socket. -/
inductive Disposal where
  /-- `vhttp_socketpool_return` -/
  | returned
  /-- `vhttp_socket_close` -/
  | closed
  deriving DecidableEq

/-- `struct st_vhttp_http1client_t`, with its socket. `decoder` is the union `_body_decoder`: the
octets left in a chunk are in the place of `content_length.bytesleft`. -/
structure Client where
  req : StreamState
  res : StreamState
  methodIsHead : Bool
  doKeepalive : Bool
  upgradeTo : Option Upgrade
  decoder : Decoder
  reader : Option ReadCb
  proceedReq : Bool
  bodyBuf : Bytes
  isEndStream : Bool
  onBodyPiped : Bool
  seenAtLeastOneChunk : Bool
  appPrefersPipeReader : Bool
  useExpect : Bool
  informationalCb : Bool
  /-- there is a pool that keeps connections -/
  pooled : Bool
  maxBufferSize : ℕ
  /-- `sock->input` -/
  input : Bytes
  reading : Option ReadCb
  writing : Option WriteCb
  timer : Bool
  timerCb : TimerCb
  /-- what has become of the socket -/
  disposal : Option Disposal
  /-- the calls to the application -/
  calls : List Call
  /-- everything that has been read from the socket -/
  received : Bytes

namespace Client

variable (c : Client)

def call (c : Client) (call : Call) : Client := { c with calls := c.calls ++ [call] }

/-- `vhttp_timer_unlink`. -/
def unlinkTimer : Client := { c with timer := false }

/-- `vhttp_timer_link`. -/
def linkTimer : Client := { c with timer := true }

/-- The application takes octets from the buffer. -/
def consume (n : ℕ) : Client := { c with input := c.input.drop n }

/-- `close_client`. -/
def closeClient : Client :=
  { c with
    disposal := some (if c.pooled && c.doKeepalive then .returned else .closed)
    reading := none
    writing := none
    timer := false }

/-- `close_response`. -/
def closeResponse : Client :=
  if c.req = .closed then c.closeClient else { c with reading := none }

/-- The callback of `on_error`. -/
def errorCall (err : Error) : List Call :=
  match c.res with
  | .head => [.onHead (some err) none]
  | .body => [.onBody (some err) []]
  | .closed => if c.proceedReq then [.proceedReq (some err)] else []

/-- `on_error`. -/
def onError (err : Error) : Client :=
  closeClient { c with calls := c.calls ++ c.errorCall err }

/-- `update_read_state`. -/
def updateReadState : Client :=
  let c :=
    if c.reader = some .onBodyToPipe then { c with reading := c.reader }
    else if c.maxBufferSize ≤ c.input.length then
      { c with reader := c.reading.or c.reader, reading := none }
    else { c with reading := c.reading.or c.reader }
  { c with timer := c.reading.isSome }

/-- The callbacks of the client are only moved. -/
lemma updateReadState_readers (c : Client) (cb : ReadCb) :
    (c.updateReadState.reading = some cb → c.reading = some cb ∨ c.reader = some cb) ∧
      (c.updateReadState.reader = some cb → c.reading = some cb ∨ c.reader = some cb) := by
  have ho : c.reading.or c.reader = some cb → c.reading = some cb ∨ c.reader = some cb := by
    intro h
    rcases Option.or_eq_some_iff.1 h with h | ⟨-, h⟩
    · exact .inl h
    · exact .inr h
  unfold updateReadState
  split
  · exact ⟨.inr, .inr⟩
  · split
    · exact ⟨nofun, ho⟩
    · exact ⟨ho, .inr⟩

/-- What `update_read_state` does not touch. -/
lemma updateReadState_fields (c : Client) :
    c.updateReadState.disposal = c.disposal ∧ c.updateReadState.res = c.res ∧
      c.updateReadState.decoder = c.decoder ∧ c.updateReadState.methodIsHead = c.methodIsHead ∧
      c.updateReadState.received = c.received ∧ c.updateReadState.doKeepalive = c.doKeepalive := by
  unfold updateReadState
  split
  · exact ⟨rfl, rfl, rfl, rfl, rfl, rfl⟩
  · split
    · exact ⟨rfl, rfl, rfl, rfl, rfl, rfl⟩
    · exact ⟨rfl, rfl, rfl, rfl, rfl, rfl⟩

end Client

/-! ## Hop-by-hop fields -/

/-- What `on_head` has found out about the body. -/
structure Recognized where
  doKeepalive : Bool
  decoder : Decoder
  reader : ReadCb

/-- A round of the loop of `on_head` over the fields of a response. -/
def Recognized.field (r : Recognized) (f : Field) : Except (Error × Recognized) Recognized :=
  if f.headerName = .token .connection then
    .ok { r with doKeepalive := containsToken f.value (ascii "keep-alive") }
  else if f.headerName = .token .transferEncoding then
    if f.value = ascii "chunked" then
      .ok { r with decoder := { r.decoder with consumeTrailer := true }, reader := .onBodyChunked }
    else if f.value = ascii "identity" then .ok r
    else .error (.unexpectedTransferEncoding, r)
  else if f.headerName = .token .contentLength then
    match strtosize f.value with
    | none =>
      .error (.invalidContentLength,
        { r with decoder := { r.decoder with bytesLeftInChunk := 2 ^ 64 - 1 } })
    | some n =>
      .ok { r with
        decoder := { r.decoder with bytesLeftInChunk := n }
        reader := if r.reader = .onBodyChunked then .onBodyChunked else .onBodyContentLength }
  else .ok r

/-- The loop of `on_head` over the fields of a response. -/
def recognize (h : Head) (decoder : Decoder) : Except (Error × Recognized) Recognized :=
  h.fields.foldlM Recognized.field ⟨1 ≤ h.minorVersion, decoder, .onBodyUntilClose⟩

/-- `vhttp_httpclient__tunnel_is_ready`. -/
def tunnelIsReady (upgradeTo : Option Upgrade) (status : ℕ) : Bool :=
  match upgradeTo with
  | none => false
  | some u => (u = .connect ∧ 200 ≤ status ∧ status ≤ 299) ∨ status = 101

end Vhttp.Http1Client
