import Vhttp.Http2Client.Frames

/-!
# The HTTP/2 client: runs

The callbacks of the socket and of the timers, and the calls of the application. `Reach` are the
states that a connection goes through.
-/

namespace Vhttp.Http2Client

open Http2 (Err ErrorCode Frame decodeFrame frameHeaderSize)

/-! ## Closing -/

variable (c : Conn) (id : ℕ) (s : Stream)

namespace Conn

/-- `close_connection_now`. -/
def closeConnectionNow : Conn :=
  { c with
    state := .freed
    streams := fun _ => none
    numStreams := c.numStreams - c.registered
    inPool := false
    ioTimeout := false
    keepaliveTimeout := false
    deferTimeout := false
    sendingStreams := []
    sentStreams := [] }

/-- `close_connection_if_necessary`. -/
def closeConnectionIfNecessary : Conn :=
  if c.state = .isClosing ∨ c.state = .halfClosed ∧ c.numStreams = 0 then c.closeConnectionNow
  else c

/-- `close_connection`. -/
def closeConnection : Conn :=
  -- a pending write closes the connection when it has completed
  if c.bufInFlight.isSome || c.deferTimeout then { c with state := .isClosing }
  else c.closeConnectionNow

/-- `enqueue_goaway`. -/
def enqueueGoaway (code : Option ErrorCode) (desc : Option String) : Conn :=
  if c.state = .isClosing then c
  else { (c.queue (.goaway code desc)).requestWrite with state := .halfClosed, inPool := false }

/-- What `parse_input` does with an error. -/
def connectionError (e : Err) : Conn :=
  let c := if e.code = .protocolCloseImmediately then c else c.enqueueGoaway (some e.code) e.desc
  (c.callStreamCallbacksWithError .protocolViolation).closeConnection

/-- The connection is read from. -/
def isReading : Bool := c.state == .open || c.state == .halfClosed

end Conn

/-! ## Writing -/

/-- `calc_max_payload_size` and `stream_emit_pending_data`; `s` is the stream, and `buf` what it
has to send. -/
def streamEmitPendingData (buf : Bytes) (room : ℕ) : Conn × Stream :=
  let maxPayloadSize :=
    (min (min (bufferWindow c room) s.outputWindow) c.peerSettings.maxFrameSize).toNat
  let payload := buf.take maxPayloadSize
  let endStream := !s.proceedReq && payload.length == buf.length
  if payload = [] ∧ !endStream then (c, s)
  else
    ({ c.queue (.data id payload endStream) with outputWindow := c.outputWindow - payload.length },
      { s with
        outputBuf := some (buf.drop payload.length)
        outputWindow := s.outputWindow - payload.length })

/-- A round of the loop of `do_emit_writereq`. -/
def emitStream (room : ℕ → ℕ) (c : Conn) (id : ℕ) : Conn :=
  match c.streams id with
  | none => c
  | some s =>
    let (c, s) := match s.outputBuf with
      | some buf => streamEmitPendingData c id s buf (room id)
      | none => (c, s)
    let c := c.setStream id s
    if s.outputBuf.all (· = []) then { c with sentStreams := c.sentStreams ++ [id] }
    else if 0 < s.outputWindow then { c with sendingStreams := c.sendingStreams ++ [id] }
    else c

/-- `do_emit_writereq`. -/
def doEmitWritereq (room : ℕ → ℕ) : Conn :=
  if c.bufInFlight.isSome then c.abort
  else
    let c := c.sendingStreams.foldl (emitStream room) { c with sendingStreams := [] }
    if c.buf = [] then c
    else { c with buf := [], bufInFlight := some c.buf, writing := true, ioTimeout := true }

/-- `do_write_req`; `s` is the stream. -/
def doWriteReq (chunk : Bytes) (isEndStream : Bool) : Conn :=
  let s := { s with
    proceedReq := s.proceedReq && !isEndStream
    outputBuf := some (s.outputBuf.getD [] ++ chunk) }
  Conn.requestWrite { c.setStream id s with sendingStreams := c.sendingStreams ++ [id] }

/-- What the application does in `proceed_req`. -/
inductive ProceedReply where
  /-- it writes later -/
  | later
  | write (chunk : Bytes) (isEndStream : Bool)
  | cancel

/-- `do_cancel`. -/
def doCancel : Conn := c.resetStream id .cancel

/-- The whole request of a stream has been sent, unless it is linked again. -/
def finishRequest : Conn :=
  match c.streams id with
  | none => c
  | some s =>
    if !s.proceedReq ∧ id ∉ c.sendingStreams then
      c.setStream id { s with req := .closed, timeout := true }
    else c

/-- A round of the loop of `on_write_complete`. -/
def proceedStream (reply : ℕ → ProceedReply) (c : Conn) (id : ℕ) : Conn :=
  match c.streams id with
  | none => c
  | some s =>
    if s.proceedReq then
      let c := c.call id (.proceedReq none)
      match reply id with
      | .later => finishRequest c id
      | .write chunk isEndStream => finishRequest (doWriteReq c id s chunk isEndStream) id
      | .cancel => doCancel c id
    else finishRequest c id

/-- The part of `on_write_complete` after the streams have been told. -/
def continueWriting (room : ℕ → ℕ) : Conn :=
  if c.buf = [] ∧ c.sendingStreams = [] then
    if c.deferTimeout then c.abort else c.closeConnectionIfNecessary
  else if c.state = .open then { c with deferTimeout := false, writing := true }
  else (doEmitWritereq { c with deferTimeout := false } room).closeConnectionIfNecessary

/-- `on_write_complete` without an error. -/
def onWriteComplete (reply : ℕ → ProceedReply) (room : ℕ → ℕ) : Conn :=
  let c := { c with
    ioTimeout := false
    writing := false
    bufInFlight := none
    written := c.written ++ c.bufInFlight.getD [] }
  if c.state = .isClosing ∨ c.state = .halfClosed ∧ c.numStreams = 0 then c.closeConnectionNow
  else
    let c := c.sentStreams.foldl (proceedStream reply) { c with sentStreams := [] }
    if c.state = .aborted then c else continueWriting c room

/-- `on_write_complete` with an error. -/
def onWriteError : Conn :=
  if c.state = .isClosing then c.closeConnectionNow
  else (c.callStreamCallbacksWithError .io).closeConnectionNow

/-- `on_notify_write`. -/
def onNotifyWrite (failed : Bool) (room : ℕ → ℕ) : Conn :=
  if failed then (c.callStreamCallbacksWithError .io).closeConnectionNow
  else (doEmitWritereq { c with writing := false } room).closeConnectionIfNecessary

/-! ## Reading -/

/-- What `parse_input` does with what a handler returns. -/
def settle : Conn × Ret → Conn
  | (c, some e) => c.connectionError e
  | (c, none) => c

/-- A round of the loop of `parse_input`, with a frame. -/
def onFrame (frame : Frame) (env : Env) : Conn := settle (readFrame c frame env)

/-- `vhttp_buffer_consume` for the input of the socket. -/
def Conn.takeInput (n : ℕ) : Conn := { c with input := c.input.drop n }

/-- `parse_input`: every round takes a frame. The answers of the application to the frames are
`env 0`, `env 1` and so on. -/
def parseInput : ℕ → Conn → (ℕ → Env) → Conn
  | 0, c, _ => c
  | n + 1, c, env =>
    match decodeFrame c.input maxFrameSize with
    | .error .incomplete => c
    | .error code => c.connectionError ⟨code, none⟩
    | .ok frame =>
      let c := onFrame c frame (env 0)
      if c.isReading then
        parseInput n (c.takeInput (frameHeaderSize + frame.payload.length)) fun i => env (i + 1)
      else c

/-- The end of `on_read`. -/
def flushAfterRead (room : ℕ → ℕ) : Conn :=
  if c.state = .freed ∨ c.state = .aborted then c
  else
    let c := if c.deferTimeout then doEmitWritereq { c with deferTimeout := false } room else c
    { c with ioTimeout := true }

/-- `on_read` without an error. -/
def onRead (data : Bytes) (env : ℕ → Env) (room : ℕ → ℕ) : Conn :=
  let c := { c with ioTimeout := false, input := c.input ++ data }
  flushAfterRead (parseInput c.input.length c env) room

/-- `on_read` with an error. -/
def onReadError : Conn :=
  (Conn.callStreamCallbacksWithError { c with ioTimeout := false } .io).closeConnection

/-! ## Timers -/

/-- `do_stream_timeout`; `s` is the stream. -/
def doStreamTimeout : Conn :=
  let err := if s.res = .head then Error.firstByteTimeout else .ioTimeout
  (c.callCallbackWithError id s err).closeStream id

/-- `on_io_timeout`. -/
def onIoTimeout : Conn :=
  let err (s : Stream) : Error := if s.res = .head then .firstByteTimeout else .ioTimeout
  Conn.closeConnectionNow
    { c with log := fun id => c.log id ++ ((c.streams id).map fun s => errorCallbacks s (err s)).getD [] }

/-- `on_keepalive_timeout`. -/
def onKeepaliveTimeout : Conn :=
  ((Conn.enqueueGoaway { c with keepaliveTimeout := false } none none).requestWrite).closeConnection

/-! ## Requests -/

/-- What `on_connect` returns, and the callbacks of the client. -/
structure Request where
  /-- `on_connect` returns a callback for the head -/
  accepted : Bool
  isHead : Bool
  body : Option Bytes
  /-- `proceed_req != NULL` -/
  proceedReq : Bool
  informationalCb : Bool

/-- `setup_stream`, and the fields that `on_connection_ready` sets. -/
def newStream (r : Request) : Stream :=
  let hasBody := r.proceedReq || r.body.isSome
  { req := if hasBody then .body else .closed
    res := .head
    outputWindow := c.peerSettings.initialWindowSize
    outputBuf := if hasBody then some (r.body.getD []) else none
    proceedReq := r.proceedReq
    inputWindow := c.maxBufferSize
    status := 0
    headers := []
    body := []
    trailers := []
    remainingContentLength := none
    messageBodyForbidden := r.isHead
    informationalCb := r.informationalCb
    timeout := false }

/-- The id that `register_stream` gives to a new stream, a `uint32_t`. -/
def Conn.nextStreamId : ℕ :=
  if c.maxOpenStreamId = 0 then 1 else (c.maxOpenStreamId + 2) % 2 ^ 32

/-- No stream had the id of the next one: the ids do not start again. -/
def Conn.FreshId : Prop := c.maxOpenStreamId + 2 < 2 ^ 32

/-- `register_stream`. -/
def Conn.registerStream : Conn :=
  { c with
    streams := Function.update c.streams c.nextStreamId (some s)
    maxOpenStreamId := c.nextStreamId
    numStreams := c.numStreams + 1
    keepaliveTimeout := false }

/-- A stream is linked to `sending_streams`. -/
def Conn.linkSending : Conn :=
  { c with sendingStreams := c.sendingStreams ++ [id] }

/-- `vhttp_httpclient__h2_on_connect` and `on_connection_ready`. -/
def onConnect (r : Request) : Conn :=
  let id := c.nextStreamId
  let s := newStream c r
  let c := { c.registerStream s with ioTimeout := true }
  if !r.accepted then c.closeStream id
  else ((c.queue (.headers id (s.req == .closed))).linkSending id).requestWrite

/-- `create_connection` and `send_client_preface`. -/
def Conn.new (maxBufferSize : ℕ) (inPool : Bool) : Conn where
  state := .open
  streams := fun _ => none
  peerSettings := .default
  maxOpenStreamId := 0
  numStreams := 0
  maxBufferSize
  inPool
  ioTimeout := false
  keepaliveTimeout := false
  outputWindow := 65535
  buf := [.preface maxBufferSize]
  bufInFlight := none
  deferTimeout := true
  sendingStreams := []
  sentStreams := []
  writing := false
  headerTable := .new 4096 4096
  inputWindow := 65535
  readFrame := .settings
  headersUnparsed := []
  input := []
  log := fun _ => []
  written := []
  received := 0

/-! ## Runs -/

/-- What happens to a connection. -/
inductive Event where
  | connect (r : Request)
  | read (data : Bytes) (env : ℕ → Env) (room : ℕ → ℕ)
  | readError
  | writeComplete (reply : ℕ → ProceedReply) (room : ℕ → ℕ)
  | writeError
  | notifyWrite (failed : Bool) (room : ℕ → ℕ)
  | deferTimeout (room : ℕ → ℕ)
  | streamTimeout (id : ℕ)
  | ioTimeout
  | keepaliveTimeout
  | writeReq (id : ℕ) (chunk : Bytes) (isEndStream : Bool)
  | cancel (id : ℕ)
  | consume (id : ℕ) (n : ℕ)

/-- The connection exists. -/
def Conn.isAlive : Bool := c.isReading || c.state == .isClosing

/-- An event, if it can happen. -/
def step : Event → Option Conn
  | .connect r =>
    if c.isAlive ∧ (c.inPool ∨ c.maxOpenStreamId = 0) then some (onConnect c r) else none
  | .read data env room => if c.isReading then some (onRead c data env room) else none
  | .readError => if c.isReading then some (onReadError c) else none
  | .writeComplete reply room =>
    if c.isAlive ∧ c.bufInFlight.isSome then some (onWriteComplete c reply room) else none
  | .writeError => if c.isAlive ∧ c.bufInFlight.isSome then some (onWriteError c) else none
  | .notifyWrite failed room =>
    if c.isAlive ∧ c.writing ∧ c.bufInFlight.isNone then some (onNotifyWrite c failed room)
    else none
  | .deferTimeout room =>
    if c.isAlive ∧ c.deferTimeout then some (doEmitWritereq { c with deferTimeout := false } room)
    else none
  | .streamTimeout id =>
    match c.streams id with
    | some s => if c.isAlive ∧ s.timeout then some (doStreamTimeout c id s) else none
    | none => none
  | .ioTimeout => if c.isAlive ∧ c.ioTimeout then some (onIoTimeout c) else none
  | .keepaliveTimeout =>
    if c.isAlive ∧ c.keepaliveTimeout then some (onKeepaliveTimeout c) else none
  | .writeReq id chunk isEndStream =>
    match c.streams id with
    | some s =>
      if c.isAlive ∧ s.proceedReq ∧ id ∉ c.sendingStreams ∧ id ∉ c.sentStreams then
        some (doWriteReq c id s chunk isEndStream)
      else none
    | none => none
  | .cancel id => if c.isAlive ∧ (c.streams id).isSome then some (doCancel c id) else none
  | .consume id n =>
    match c.streams id with
    | some s =>
      if c.isAlive then
        let s := { s with body := s.body.drop n }
        some ((c.setStream id s).updateWindow id s)
      else none
    | none => none

/-- The states that a connection reaches by events which meet a condition. -/
inductive Reach (ok : Conn → Event → Prop) : Conn → Prop
  | new (maxBufferSize : ℕ) (inPool : Bool) (h : maxBufferSize ≤ 2 ^ 31 - 1) :
    Reach ok (Conn.new maxBufferSize inPool)
  | step {c c' : Conn} {e : Event} (hc : Reach ok c) (hok : ok c e) (h : step c e = some c') :
    Reach ok c'

/-- An event that happens was possible. -/
lemma of_guard {p : Prop} [Decidable p] {c c' : Conn}
    (h : (if p then some c else none) = some c') : p ∧ c = c' := by
  obtain ⟨hp, he⟩ := Option.ite_none_right_eq_some.1 h
  exact ⟨hp, Option.some.inj he⟩

lemma of_streamGuard {p : Stream → Prop} [DecidablePred p] {f : Stream → Conn} {c c' : Conn}
    {id : ℕ} (h : (match c.streams id with
      | some s => if p s then some (f s) else none
      | none => none) = some c') : ∃ s, c.streams id = some s ∧ p s ∧ f s = c' := by
  split at h
  · next s hs => exact ⟨s, hs, of_guard h⟩
  · cases h

/-- Every frame that `parse_input` takes meets a condition. -/
def EachFrame (ok : Conn → Frame → Env → Prop) : ℕ → Conn → (ℕ → Env) → Prop
  | 0, _, _ => True
  | n + 1, c, env => ∀ frame, decodeFrame c.input maxFrameSize = .ok frame → ok c frame (env 0) ∧
      ((onFrame c frame (env 0)).isReading = true →
        EachFrame ok n ((onFrame c frame (env 0)).takeInput
          (frameHeaderSize + frame.payload.length)) fun i => env (i + 1))

instance EachFrame.decidable {ok : Conn → Frame → Env → Prop}
    [∀ c frame env, Decidable (ok c frame env)] :
    ∀ n c env, Decidable (EachFrame ok n c env)
  | 0, _, _ => .isTrue trivial
  | n + 1, c, env =>
    match h : decodeFrame c.input maxFrameSize with
    | .error _ => .isTrue fun _ hframe => nomatch h.symm.trans hframe
    | .ok frame =>
      have : Decidable (EachFrame ok n _ _) := EachFrame.decidable n ((onFrame c frame (env 0)).takeInput
        (frameHeaderSize + frame.payload.length)) fun i => env (i + 1)
      decidable_of_iff (ok c frame (env 0) ∧ ((onFrame c frame (env 0)).isReading = true →
        EachFrame ok n ((onFrame c frame (env 0)).takeInput
          (frameHeaderSize + frame.payload.length)) fun i => env (i + 1)))
        ⟨fun hok _ hframe' => Except.ok.inj (h.symm.trans hframe') ▸ hok,
          fun hok => hok frame h⟩

/-- The events one after another. -/
def run (events : List Event) : Option Conn := events.foldlM step c

lemma Reach.run {ok : Conn → Event → Prop} (ho : ∀ c e, ok c e) {c c' : Conn}
    {events : List Event} (hc : Reach ok c) (h : run c events = some c') : Reach ok c' := by
  induction events generalizing c with
  | nil => exact Option.some.inj h ▸ hc
  | cons e events ih =>
    obtain ⟨c1, hstep, hr⟩ := Option.bind_eq_some_iff.1 h
    exact ih (.step hc (ho c e) hstep) hr

/-- A request without a body, and one whose body is written later. -/
def plainRequest : Request := ⟨true, false, none, false, false⟩

def uploadRequest : Request := ⟨true, false, none, true, false⟩

/-- The application takes everything. -/
def acceptAll : Env := ⟨true, true, true, 0, 0⟩

end Vhttp.Http2Client
