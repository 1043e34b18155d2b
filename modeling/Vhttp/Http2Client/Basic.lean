import Vhttp.Hpack.Response
import Vhttp.Strtosize
import Vhttp.Http2.Connection

/-!
# The HTTP/2 client: model

`lib/common/http2client.c`: the connection, its streams and what the handlers do to them. What
the application answers to its callbacks and what the socket has room for is given by `Env`; the
application does not call back into the client while a callback of a frame runs.

`log`, `written` and `received` are not part of the connection: they record the callbacks of each
stream, the frames whose write has completed and the octets of DATA frames.
-/

namespace Vhttp.Http2Client

open Function
open Http2 (ErrorCode Settings windowUpdate)
open Hpack (Header HeaderTable)

/-- `vhttp_HTTP2_SETTINGS_CLIENT_CONNECTION_WINDOW_SIZE`. -/
def connectionWindowSize : ℕ := 16777216

/-- `vhttp_HTTP2_SETTINGS_CLIENT_MAX_FRAME_SIZE`. -/
def maxFrameSize : ℕ := 16384

/-- The errors that the callbacks are called with: `vhttp_httpclient_error_...`. -/
inductive Error where
  | isEos
  | refusedStream
  | io
  | firstByteTimeout
  | ioTimeout
  | flowControl
  | protocolViolation
  deriving DecidableEq

/-- A call to the application. -/
inductive Callback where
  | informational (status : ℕ) (headers : List Header)
  | onHead (err : Option Error) (status : ℕ) (headers : List Header)
  | onBody (err : Option Error) (trailers : List Header)
  | proceedReq (err : Option Error)
  deriving DecidableEq

/-- `enum enum_vhttp_http2client_stream_state`. -/
inductive StreamState where
  | head
  | body
  | closed
  deriving DecidableEq

/-- `enum enum_vhttp_http2client_conn_state`, what is left when `close_connection_now` has run,
and what is left when an assertion fails or a null pointer is used. -/
inductive ConnState where
  | «open»
  | halfClosed
  | isClosing
  | freed
  | aborted
  deriving DecidableEq

/-- `input.read_frame`. -/
inductive ReadFrame where
  | settings
  | default
  | continuationOfHeaders
  deriving DecidableEq

/-- The codes that a stream is reset with. -/
inductive ResetCode where
  | protocol
  | internal
  | flowControl
  | cancel

/-- What is put into the write buffer. -/
inductive OutFrame where
  | preface (initialWindowSize : ℕ)
  | settingsAck
  | headers (id : ℕ) (endStream : Bool)
  | data (id : ℕ) (payload : Bytes) (endStream : Bool)
  | rstStream (id : ℕ) (code : ResetCode)
  | windowUpdate (id : ℕ) (delta : ℤ)
  | ping (payload : Bytes)
  | goaway (code : Option ErrorCode) (desc : Option String)

/-- `struct st_vhttp_http2client_stream_t`. -/
structure Stream where
  req : StreamState
  res : StreamState
  outputWindow : ℤ
  /-- `output.buf`; `none` for `NULL` -/
  outputBuf : Option Bytes
  /-- `output.proceed_req != NULL` -/
  proceedReq : Bool
  inputWindow : ℤ
  status : ℕ
  headers : List Header
  body : Bytes
  trailers : List Header
  /-- `none` for `SIZE_MAX` -/
  remainingContentLength : Option ℕ
  messageBodyForbidden : Bool
  /-- `informational_cb != NULL` -/
  informationalCb : Bool
  /-- `_timeout` is linked -/
  timeout : Bool

/-- `struct st_vhttp_http2client_conn_t`. -/
structure Conn where
  state : ConnState
  streams : ℕ → Option Stream
  peerSettings : Settings
  maxOpenStreamId : ℕ
  /-- `super.num_streams` -/
  numStreams : ℕ
  /-- `get_max_buffer_size(ctx)` -/
  maxBufferSize : ℕ
  /-- `super.link` is linked, so that new requests are given to this connection -/
  inPool : Bool
  ioTimeout : Bool
  keepaliveTimeout : Bool
  outputWindow : ℤ
  buf : List OutFrame
  bufInFlight : Option (List OutFrame)
  deferTimeout : Bool
  sendingStreams : List ℕ
  sentStreams : List ℕ
  /-- `vhttp_socket_is_writing(sock)` -/
  writing : Bool
  headerTable : HeaderTable
  inputWindow : ℤ
  readFrame : ReadFrame
  headersUnparsed : Bytes
  /-- `sock->input` -/
  input : Bytes
  log : ℕ → List Callback
  written : List OutFrame
  received : ℕ

/-- What the application and the socket do while a frame is handled. -/
structure Env where
  /-- `informational_cb` returns 0 -/
  informationalOk : Bool
  /-- `on_head` returns a callback for the body -/
  onHeadOk : Bool
  /-- `on_body` returns 0 -/
  onBodyOk : Bool
  /-- the octets that `on_body` takes out of the buffer -/
  consumed : ℕ
  /-- the octets that fit into the write buffer, after the header of a frame -/
  room : ℕ

/-- The application takes what it is given. -/
def Env.accepts (env : Env) : Bool := env.informationalOk && env.onHeadOk && env.onBodyOk

variable (c : Conn) (id : ℕ) (s : Stream)

namespace Conn

/-- An assertion fails, or a null pointer is used. -/
def abort : Conn := { c with state := .aborted }

/-- A frame is put into the write buffer. -/
def queue (f : OutFrame) : Conn := { c with buf := c.buf ++ [f] }

/-- The application is called for a stream. -/
def call (cb : Callback) : Conn :=
  { c with log := update c.log id (c.log id ++ [cb]) }

/-- A stream is written back. -/
def setStream : Conn :=
  { c with streams := update c.streams id (some s) }

/-- The table of the header decoder is written back. -/
def setTable (table : HeaderTable) : Conn := { c with headerTable := table }

/-- The settings of the peer are written back. -/
def setPeerSettings (settings : Settings) : Conn := { c with peerSettings := settings }

/-- Octets of DATA frames have come. -/
def count (n : ℕ) : Conn := { c with received := c.received + n }

/-- `vhttp_http2_window_consume_window` for the connection. -/
def consumeWindow (n : ℕ) : Conn := { c with inputWindow := c.inputWindow - n }

/-- The number of streams that are registered. -/
def registered : ℕ :=
  ((Finset.range (c.maxOpenStreamId + 1)).filter fun id => (c.streams id).isSome).card

/-- `request_write`. -/
def requestWrite : Conn :=
  { c with deferTimeout := c.deferTimeout || (c.state != .isClosing && !c.writing) }

/-- `stream_send_error`, which asserts that the connection is not closing. -/
def streamSendError (code : ResetCode) : Conn :=
  let c : Conn := { c with state := if c.state = .isClosing then .aborted else c.state }
  (c.queue (.rstStream id code)).requestWrite

/-- `close_stream`, with `unregister_stream`. -/
def closeStream : Conn :=
  let c := { c with
    streams := update c.streams id none
    numStreams := c.numStreams - 1
    sendingStreams := c.sendingStreams.filter (· ≠ id)
    sentStreams := c.sentStreams.filter (· ≠ id) }
  { c with keepaliveTimeout := c.keepaliveTimeout || c.numStreams == 0 }

/-- A stream is reset and closed. -/
def resetStream (code : ResetCode) : Conn :=
  (c.streamSendError id code).closeStream id

/-- `close_response`; `s` is the stream. -/
def closeResponse : Conn :=
  if s.res = .closed then c.abort
  else if s.req = .closed then c.closeStream id
  else c.setStream id { s with res := .closed }

end Conn

/-- The stream takes data, and `consumed` octets of the buffer leave it. -/
def Stream.receive (payload : Bytes) (consumed : ℕ) : Stream :=
  { s with
    remainingContentLength := s.remainingContentLength.map (· - payload.length)
    body := (s.body ++ payload).drop consumed
    inputWindow := s.inputWindow - payload.length }

/-- The callback of `call_callback_with_error`. -/
def errorCallbacks (err : Error) : List Callback :=
  match s.res with
  | .head => [.onHead (some err) 0 []]
  | .body => [.onBody (some err) []]
  | .closed => if s.proceedReq then [.proceedReq (some err)] else []

/-- The stream after `call_callback_with_error`. -/
def afterError : Stream :=
  { s with proceedReq := s.proceedReq && s.res != .closed }

namespace Conn

/-- `call_callback_with_error`; `s` is the stream. -/
def callCallbackWithError (err : Error) : Conn :=
  { c with
    streams := update c.streams id (some (afterError s))
    log := update c.log id (c.log id ++ errorCallbacks s err) }

/-- `call_stream_callbacks_with_error`. -/
def callStreamCallbacksWithError (err : Error) : Conn :=
  { c with
    streams := fun id => (c.streams id).map afterError
    log := fun id => c.log id ++ ((c.streams id).map (errorCallbacks · err)).getD [] }

/-- The stream is told an error, reset and closed. -/
def failStream (err : Error) (code : ResetCode) : Conn :=
  (c.callCallbackWithError id s err).resetStream id code

/-- `enqueue_window_update`: the increment, if there is one. `avail * 2 < desired` compares
unsigned numbers. -/
def windowIncrement (avail : ℤ) (desired : ℕ) : Option ℤ :=
  if avail * 2 % 2 ^ 64 < desired then some (desired - avail) else none

/-- `enqueue_window_update` for the connection. -/
def updateConnWindow : Conn :=
  match windowIncrement c.inputWindow connectionWindowSize with
  | none => c
  | some delta =>
    let c := (c.queue (.windowUpdate 0 delta)).requestWrite
    { c with inputWindow := (windowUpdate c.inputWindow delta).getD c.inputWindow }

/-- `do_update_window`; `s` is the stream. -/
def updateWindow : Conn :=
  if c.maxBufferSize < s.body.length then c.abort
  else
    match windowIncrement s.inputWindow (c.maxBufferSize - s.body.length) with
    | none => c
    | some delta =>
      let window := (windowUpdate s.inputWindow delta).getD s.inputWindow
      ((c.queue (.windowUpdate id delta)).requestWrite).setStream id { s with inputWindow := window }

end Conn

section Streams

variable {c : Conn} {id j : ℕ} {s : Stream}

lemma setStream_self : (c.setStream id s).streams id = some s := update_self _ _ _

lemma setStream_of_ne (h : j ≠ id) : (c.setStream id s).streams j = c.streams j :=
  update_of_ne h _ _

lemma closeStream_self : (c.closeStream id).streams id = none := update_self _ _ _

lemma closeStream_of_ne (h : j ≠ id) : (c.closeStream id).streams j = c.streams j :=
  update_of_ne h _ _

lemma updateConnWindow_streams : c.updateConnWindow.streams = c.streams := by
  unfold Conn.updateConnWindow
  split <;> rfl

end Streams

/-- `extract_content_length`. -/
def extractContentLength (headers : List Header) : Except String (Option ℕ) :=
  headers.foldlM (fun contentLength h =>
    if h.name = .token .contentLength then
      if contentLength.isSome then .error "duplicate content-length"
      else
        match strtosize h.value with
        | some n => .ok (some n)
        | none => .error "malformed content-length"
    else .ok contentLength) none

end Vhttp.Http2Client
