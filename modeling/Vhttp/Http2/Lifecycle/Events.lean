import Vhttp.Http2.Lifecycle.Basic

/-!
# The streams of an HTTP/2 connection: events

What happens on a connection: frames of the peer, calls of the handlers of the requests, written
output, pushes, and the end of the connection. `Conn.step` is one of them; what the rest of the
server decides is part of the `Event`, and `Conn.Enabled` says when it can happen.

Requests that are pending, streams that are to proceed and requests that are replayed are handled
one by one, each by an event of its own.
-/

namespace Vhttp.Http2.Lifecycle

namespace Cell

/-! ## Request bodies -/

/-- What `write_req.cb` does: it may send a response, it sets or resets `write_req.cb`, and it
returns zero or not. -/
structure WriteReq where
  ok : Bool
  send : Option Response
  writeReq : Bool

variable (ctx : Ctx) (w : WriteReq) (c : Cell)

/-- The handler may send a response when it is asked for one. -/
def sendIfAsked (send : Option Response) : Option Cell :=
  match send with
  | none => some c
  | some r => if c.stream.asked then c.finalostreamSend r else some c

/-- The call of `write_req.cb`. -/
def callWriteReq (w : WriteReq) : Option Cell :=
  if c.stream.writeReq then do
    let c ← c.sendIfAsked w.send
    some { c with stream := { c.stream with writeReq := w.writeReq } }
  else none

/-- The end of `write_streaming_body`: the callback has failed, or both sides are done. -/
def finishWriting : Option Cell :=
  if !w.ok then c.sendErrorAndReset ctx
  else if c.stream.reqBodyState = .closeDelivered ∧ c.stream.state = .endStream then c.streamClose
  else some c

/-- `write_streaming_body`. -/
def writeStreamingBody : Option Cell :=
  if c.stream.entity = none then do
    let c ← (match c.stream.reqBodyState with
      | .openBeforeFirstFrame | .open => if c.stream.bodySize = 0 then none else some c
      | .closeQueued => c.deliverClose
      | .none | .closeDelivered => none)
    let c := { c with stream := { c.stream with entity := some c.stream.bodySize } }
    let c ← c.callWriteReq w
    c.finishWriting ctx w
  else none

/-- What decides about the handling of a part of a request body. -/
structure Chunk where
  length : ℕ
  isEndStream : Bool
  /-- the body is too large, or not as long as `content-length` says -/
  bad : Bool
  /-- `vhttp_req_can_stream_request` -/
  canStream : Bool
  write : WriteReq

/-- The state of the stream and of the request body at the end of the body. -/
def endBody : Option Cell := do
  let c ← (
    if c.stream.state.beforeReqPending then do
      let c ← c.setState .reqPending
      if c.stream.processCalled then c.setState .sendHeaders else some c
    else some c)
  if c.stream.writeReq then c.setReqBodyState .closeQueued else c.deliverClose

/-- The end of `handle_request_body_chunk`: what is done with the data. -/
def useChunk (d : Chunk) (isFirst reqQueued : Bool) (c : Cell) : Option Cell :=
  if c.stream.streamed then
    if c.stream.writeReq then
      if c.stream.entity = none then c.writeStreamingBody ctx d.write else some c
    else some { c with stream := { c.stream with entity := some c.stream.bodySize } }
  else
    let c := { c with stream := { c.stream with entity := some c.stream.bodySize } }
    if isFirst && !d.isEndStream && d.canStream then
      { c with stream := { c.stream with proceedReq := true } }.executeOrEnqueueRequestCore
    else if d.isEndStream && !reqQueued then c.executeOrEnqueueRequest ctx
    else some c

/-- The part of `handle_request_body_chunk` for data that is accepted. -/
def takeChunk (d : Chunk) (isFirst : Bool) (c : Cell) : Option Cell := do
  let c ← c.ensureBlocked
  if c.disregarded ctx then c.streamReset
  else do
    let reqQueued := c.stream.proceedReq
    let c ← (if d.isEndStream then c.endBody else some c)
    let c := { c with stream := { c.stream with bodySize := c.stream.bodySize + d.length } }
    c.useChunk ctx d isFirst reqQueued

/-- `handle_request_body_chunk`. -/
def handleRequestBodyChunk (d : Chunk) (c : Cell) : Option Cell := do
  let isFirst := c.stream.reqBodyState == .openBeforeFirstFrame
  let c ← (match c.stream.reqBodyState with
    | .openBeforeFirstFrame => c.setReqBodyState .open
    | .open => some c
    | .none | .closeQueued | .closeDelivered => none)
  if d.bad then c.sendErrorAndReset ctx else c.takeChunk ctx d isFirst

/-- `handle_data_frame`, for a stream that exists. -/
def handleDataFrame (d : Chunk) (c : Cell) : Option Cell :=
  if !c.stream.reqBodyState.isOpen then c.sendErrorAndReset ctx
  else if d.length ≠ 0 ∨ d.isEndStream then c.handleRequestBodyChunk ctx d
  else some c

/-- `proceed_request`; `unblock` tells whether there is input window left. -/
def proceedRequest (failed unblock : Bool) (w : WriteReq) (c : Cell) : Option Cell :=
  if c.stream.streamed then
    let written := c.stream.entity.getD 0
    let c := { c with stream := { c.stream with
      bodySize := c.stream.bodySize - written, entity := none } }
    if failed then do
      let c ← c.deliverClose
      if ctx.live then
        let c ← (c.setActive false).ensureLinked .streamsToProceed
        c.streamReset
      else some c
    else match c.stream.reqBodyState with
      | .open => do
        let c ← (if unblock then c.ensureUnblocked else some c)
        if c.stream.bodySize = 0 then some c else c.writeStreamingBody ctx w
      | .closeQueued => if written = 0 then none else c.writeStreamingBody ctx w
      | .none | .openBeforeFirstFrame | .closeDelivered => none
  else none

/-! ## Header blocks -/

/-- What the header block of a request turns out to be. -/
inductive Verdict where
  /-- the stream is reset (`SendRSTStream`) -/
  | refused
  /-- an error is sent: 400 or 417 -/
  | invalid
  /-- a CONNECT request -/
  | connect
  /-- any other request -/
  | plain

/-- `send_invalid_request_error`: the error is sent in place of the handler's response. -/
def sendInvalidRequestError : Option Cell := do
  let c ← c.setState .reqPending
  let c ← c.setState .sendHeaders
  some c.ask

/-- `handle_incoming_request`, once the header block has been decoded. -/
def handleIncomingRequest (v : Verdict) (c : Cell) : Option Cell :=
  if c.stream.state = .recvHeaders then
    match v with
    | .refused => c.sendErrorAndReset ctx
    | .invalid => c.sendInvalidRequestError
    | .connect =>
      if c.stream.hasReqBody then do
        let c := { c with stream := { c.stream with
          isTunnelReq := true, entity := some 0, proceedReq := true } }
        let c ← c.setState .recvBody
        let c ← c.setReqBodyState .open
        c.processRequest
      else c.sendInvalidRequestError
    | .plain =>
      if c.stream.hasReqBody then do
        let c ← c.setState .recvBody
        c.setReqBodyState .openBeforeFirstFrame
      else c.executeOrEnqueueRequest ctx
  else none

/-! ## Output -/

/-- `update_stream_output_window`; the flag tells that the window would overflow. -/
def updateStreamOutputWindow (delta : ℤ) (c : Cell) : Option (Cell × Bool) :=
  match windowUpdate c.stream.outputWindow delta with
  | none => some (c, true)
  | some window =>
    let cur := c.stream.outputWindow
    let c := { c with stream := { c.stream with outputWindow := window } }
    if cur ≤ 0 ∧ 0 < window ∧ (c.stream.hasPendingData ∨ c.stream.state = .sendBodyIsFinal) then
      if c.stream.link = none then some (c.setActive true, false) else none
    else some (c, false)

/-- The loop of `send_data`: how much is sent of the data, and what is left of it. -/
def fill : ℕ → List ℕ → ℕ × List ℕ
  | _, [] => (0, [])
  | room, len :: bufs =>
    let n := min room len
    if len - n ≠ 0 then (n, (len - n) :: bufs)
    else if bufs = [] ∨ room - n = 0 then (n, bufs)
    else
      let r := fill (room - n) bufs
      (n + r.1, r.2)

/-- `vhttp_http2_stream_send_pending_data`, with the largest payload that `send_data` can send:
the stream afterwards, and the length of the DATA frame that was sent, if any. `readOk` tells
whether the data can be read. -/
def streamSendPendingData (maxPayloadSize : ℕ) (readOk : Bool) (c : Cell) :
    Option (Cell × Option ℕ) :=
  if c.stream.outputWindow ≤ 0 then some (c, none)
  else if maxPayloadSize ≠ 0 ∧ c.stream.data ≠ [] ∧ !readOk then do
    let c := { c with stream := { c.stream with data := [], sendState := .error } }
    let c ← c.setState .endStream
    some (c, none)
  else
    let r := if maxPayloadSize = 0 then (0, c.stream.data) else fill maxPayloadSize c.stream.data
    let frame :=
      if maxPayloadSize = 0 ∨ r.1 = 0 ∧ c.stream.sendState = .inProgress then none else some r.1
    let c := { c with stream := { c.stream with
      data := r.2, outputWindow := c.stream.outputWindow - r.1, sent := c.stream.sent + r.1 } }
    if r.2 = [] ∧ c.stream.state = .sendBodyIsFinal then do
      let c ← c.setState .endStream
      some (c, frame)
    else some (c, frame)

/-- `emit_writereq_of_openref`, and what `vhttp_http2_scheduler_run` makes of
`still_is_active`. -/
def emitWritereqOfOpenref (maxPayloadSize : ℕ) (readOk : Bool) (c : Cell) :
    Option (Cell × Option ℕ) :=
  if c.stream.hasPendingData ∨ c.stream.state = .sendBodyIsFinal ∨ c.stream.state = .endStream then do
    let r ← c.streamSendPendingData maxPayloadSize readOk
    let c := r.1
    if c.stream.hasPendingData ∨ c.stream.state = .sendBodyIsFinal then
      some (c.setActive (decide (0 < c.stream.outputWindow)), r.2)
    else do
      let c ← (c.setActive false).insertLink .streamsToProceed
      some (c, r.2)
  else none

end Cell

/-! ## Connections -/

/-- A DATA frame, with the windows and the largest size at the time it was written. -/
structure DataFrame where
  streamId : ℕ
  length : ℕ
  streamWindow : ℤ
  connWindow : ℤ
  maxFrameSize : ℕ

/-- `vhttp_http2_conn_t`. `dataSent` is not part of it. -/
structure Conn where
  /-- the keys of `conn->streams` -/
  ids : Finset ℕ
  stream : ℕ → Stream
  num : Counter → ℤ
  peerSettings : Settings
  writeWindow : ℤ
  state : ConnState
  pullMaxOpen : ℕ
  pushMaxOpen : ℕ
  dataSent : List DataFrame

namespace Conn

variable (conn : Conn) (i : ℕ)

def ctx : Ctx := ⟨conn.state, conn.pullMaxOpen⟩

/-- A stream and the counters. -/
def cell : Cell := ⟨i, conn.num, conn.stream i, true⟩

/-- The stream and the counters are as in the cell. -/
def put (c : Cell) : Conn :=
  { conn with
    stream := Function.update conn.stream i c.stream
    num := c.num
    ids := if c.registered then conn.ids else conn.ids.erase i }

/-- A function is called on a stream. -/
def on (f : Cell → Option Cell) : Option Conn :=
  (f (conn.cell i)).map (conn.put i)

/-- A function is called on a stream, if there is one. -/
def onIfOpen (f : Cell → Option Cell) : Option Conn :=
  if i ∈ conn.ids then conn.on i f else some conn

/-- `vhttp_http2_stream_open`. -/
def openStream : Conn :=
  { conn with
    ids := insert i conn.ids
    stream := Function.update conn.stream i (.new conn.peerSettings.initialWindowSize)
    num := Function.update conn.num (.open .priority) (conn.num (.open .priority) + 1) }

/-- `vhttp_http2_stream_open`, if there is no such stream. -/
def ensureOpen : Conn := if i ∈ conn.ids then conn else conn.openStream i

/-- `max_open` is updated when a stream is prepared for a request. -/
def raiseMaxOpen : Conn :=
  if isPush i then { conn with pushMaxOpen := max conn.pushMaxOpen i }
  else if conn.state = .open then { conn with pullMaxOpen := max conn.pullMaxOpen i }
  else conn

/-- `vhttp_http2_stream_prepare_for_request`. -/
def prepareForRequest (conn : Conn) (i : ℕ) : Option Conn :=
  (conn.raiseMaxOpen i).on i (Cell.prepareForRequest conn.ctx conn.peerSettings.initialWindowSize)

/-- The part of `handle_headers_frame` that sets up a request. -/
def openRequest (endStream : Bool) : Option Conn := do
  let conn ← (conn.ensureOpen i).prepareForRequest i
  conn.on i fun c => some { c with stream := { c.stream with hasReqBody := !endStream } }

/-- `is_idle_stream_id`. -/
def isIdleStreamId : Bool :=
  decide ((if isPush i then conn.pushMaxOpen else conn.pullMaxOpen) < i)

/-- The stream in `handle_window_update_frame`. -/
def updateWindow (increment : ℕ) (c : Cell) : Option Cell := do
  let r ← c.updateStreamOutputWindow increment
  if r.2 then
    let c ← r.1.streamReset
    some { c with stream := { c.stream with
      increments := c.stream.increments + increment, flowError := true } }
  else some { r.1 with stream := { r.1.stream with
    increments := r.1.stream.increments + increment } }

/-- The change of the initial window size in `handle_settings_frame`; the overflow of a window
is not looked at. -/
def settingsCell (delta : ℤ) (c : Cell) : Option Cell :=
  if delta = 0 then some c else (c.updateStreamOutputWindow delta).map Prod.fst

/-- The loop of `handle_settings_frame` over the streams. -/
def applySettings (delta : ℤ) : List ℕ → Conn → Option Conn
  | [], conn => some conn
  | i :: is, conn => do
    let conn ← conn.on i (settingsCell delta)
    applySettings delta is conn

/-- `handle_settings_frame`, once the settings have been read. -/
def handleSettingsFrame (settings : Settings) : Option Conn :=
  let delta : ℤ := settings.initialWindowSize - conn.peerSettings.initialWindowSize
  applySettings delta (conn.ids.sort (· ≤ ·)) { conn with peerSettings := settings }

/-- `calc_max_payload_size`; `room` is what is left of the output buffer, without the frame
header. -/
def calcMaxPayloadSize (room : ℕ) : ℕ :=
  let connMax := min (room : ℤ) conn.writeWindow
  if connMax ≤ 0 ∨ (conn.stream i).outputWindow ≤ 0 then 0
  else min (min connMax (conn.stream i).outputWindow).toNat conn.peerSettings.maxFrameSize

/-- `emit_writereq_of_openref`, called by the scheduler. -/
def emitWritereq (room : ℕ) (readOk : Bool) : Option Conn := do
  let r ← (conn.cell i).emitWritereqOfOpenref (conn.calcMaxPayloadSize i room) readOk
  let conn' := conn.put i r.1
  match r.2 with
  | none => some conn'
  | some length =>
    some { conn' with
      writeWindow := conn.writeWindow - length
      dataSent := ⟨i, length, (conn.stream i).outputWindow, conn.writeWindow,
        conn.peerSettings.maxFrameSize⟩ :: conn.dataSent }

/-- The part of `push_path` that opens a stream. -/
def pushPath : Option Conn := do
  let i := conn.pushMaxOpen + 2
  let conn ← (conn.openStream i).prepareForRequest i
  conn.on i (Cell.executeOrEnqueueRequest conn.ctx)

/-- `vhttp_http2_stream_close` of all streams. -/
def closeStreams : List ℕ → Conn → Option Conn
  | [], conn => some conn
  | i :: is, conn => do
    let conn ← conn.on i Cell.streamClose
    closeStreams is conn

/-- The counters that `close_connection_now` asserts to be zero. -/
def closingCounters : List Counter :=
  [.open .pull, .halfClosed .pull, .sendBody .pull, .halfClosed .push, .sendBody .push,
    .open .priority, .blockedByServer, .reqStreamingInProgress, .tunnel]

/-- `close_connection_now`. -/
def closeConnectionNow : Option Conn := do
  let closed ← closeStreams (conn.ids.sort (· ≤ ·)) { conn with state := .isClosing }
  if (∀ k ∈ closingCounters, closed.num k = 0) ∧ ∀ i ∈ conn.ids, (closed.stream i).link = none then
    some closed
  else none

/-- A new connection (`create_conn`). -/
def init : Conn where
  ids := ∅
  stream _ := .new 0
  num _ := 0
  peerSettings := .default
  writeWindow := Settings.default.initialWindowSize
  state := .open
  pullMaxOpen := 0
  pushMaxOpen := 0
  dataSent := []

/-- A new connection with the settings of the peer. -/
def initWith (settings : Settings) : Conn := { init with peerSettings := settings }

/-- A connection that was upgraded from HTTP/1 (`vhttp_http2_handle_upgrade` and
`on_upgrade_complete`). -/
def upgraded (settings : Settings) : Option Conn := do
  let conn ← ((initWith settings).openStream 1).prepareForRequest 1
  conn.on 1 (Cell.executeOrEnqueueRequest conn.ctx)

end Conn

/-! ## Events -/

/-- What happens on a connection. -/
inductive Event where
  /-- a HEADERS frame that opens a request -/
  | headers (i : ℕ) (endStream : Bool)
  /-- the header block of the request is complete -/
  | request (i : ℕ) (v : Cell.Verdict)
  /-- a DATA frame -/
  | data (i : ℕ) (d : Cell.Chunk)
  /-- trailers -/
  | trailers (i : ℕ) (d : Cell.Chunk)
  /-- a PRIORITY frame -/
  | priority (i : ℕ)
  /-- a RST_STREAM frame -/
  | rstStream (i : ℕ)
  /-- a SETTINGS frame that is accepted (`vhttp_http2_update_peer_settings`) -/
  | settings (settings : Settings)
  /-- a WINDOW_UPDATE frame for a stream; the increment may be zero, which is an error -/
  | windowUpdate (i increment : ℕ)
  /-- a WINDOW_UPDATE frame for the connection -/
  | connWindowUpdate (increment : ℕ)
  /-- a GOAWAY frame -/
  | goaway
  /-- a pending request is run (`run_pending_requests`) -/
  | runPending (i : ℕ)
  /-- the handler of the request sets or resets `write_req.cb` -/
  | setWriteReq (i : ℕ) (writeReq : Bool)
  /-- the handler sends (a part of) the response -/
  | send (i : ℕ) (r : Cell.Response)
  /-- the handler has taken a part of the request body, or fails -/
  | proceedRequest (i : ℕ) (failed unblock : Bool) (w : Cell.WriteReq)
  /-- the scheduler lets a stream write -/
  | emit (i room : ℕ) (readOk : Bool)
  /-- output has been written, and a stream is to proceed (`on_write_complete`) -/
  | proceed (i : ℕ)
  /-- a request that was parked is replayed (`on_read`) -/
  | replay (i : ℕ)
  /-- the server pushes a response -/
  | push
  /-- the server sends GOAWAY (`enqueue_goaway`) -/
  | sendGoaway
  /-- the connection is closed as soon as the output has been written -/
  | closeConnection
  /-- the connection is closed -/
  | closeConnectionNow

namespace Conn

/-- The event can happen. -/
def Enabled (conn : Conn) : Event → Prop
  | .headers i _ => conn.ctx.live = true ∧ isPush i = false ∧ conn.pullMaxOpen < i
  | .request i _ => conn.ctx.live = true ∧ i ∈ conn.ids ∧ (conn.stream i).state = .recvHeaders
  | .data i _ => conn.ctx.live = true ∧ i ∈ conn.ids
  | .trailers i _ => conn.ctx.live = true ∧ i ∈ conn.ids
  | .priority i => conn.ctx.live = true ∧ isPush i = false ∧ conn.pullMaxOpen < i
  | .rstStream i => conn.ctx.live = true ∧ conn.isIdleStreamId i = false
  | .settings settings => conn.ctx.live = true ∧ settings.initialWindowSize ≤ 0x7fffffff
  | .windowUpdate i increment =>
    conn.ctx.live = true ∧ (increment ≠ 0 → conn.isIdleStreamId i = false)
  | .connWindowUpdate _ => conn.ctx.live = true
  | .goaway => conn.ctx.live = true
  | .runPending i => i ∈ conn.ids ∧ (conn.stream i).link = some .pendingReqs
  | .setWriteReq i _ => i ∈ conn.ids ∧ (conn.stream i).processCalled = true
  | .send i _ => i ∈ conn.ids ∧ (conn.stream i).asked = true
  | .proceedRequest i _ _ _ => i ∈ conn.ids ∧ (conn.stream i).proceedReq = true ∧
      (conn.stream i).processCalled = true
  | .emit i room _ => conn.ctx.live = true ∧ i ∈ conn.ids ∧ (conn.stream i).active = true ∧
      0 < min (room : ℤ) conn.writeWindow
  | .proceed i => conn.ctx.live = true ∧ i ∈ conn.ids ∧
      (conn.stream i).link = some .streamsToProceed
  | .replay i => i ∈ conn.ids ∧ (conn.stream i).link = some .blockedStreams
  | .push => conn.ctx.live = true ∧ conn.pushMaxOpen < 0x7ffffff0
  | .sendGoaway => conn.ctx.live = true
  | .closeConnection => True
  | .closeConnectionNow => True

instance (conn : Conn) : DecidablePred conn.Enabled := by
  intro e
  cases e <;> unfold Enabled <;> infer_instance

/-- What happens in an event; `none` if an assertion fails. -/
def step (conn : Conn) : Event → Option Conn
  | .headers i endStream => conn.openRequest i endStream
  | .request i v => conn.on i (Cell.handleIncomingRequest conn.ctx v)
  | .data i d => conn.on i (Cell.handleDataFrame conn.ctx d)
  | .trailers i d =>
    conn.on i (Cell.handleRequestBodyChunk conn.ctx { d with length := 0, isEndStream := true })
  | .priority i => some (conn.ensureOpen i)
  | .rstStream i => conn.onIfOpen i Cell.streamReset
  | .settings settings => conn.handleSettingsFrame settings
  | .windowUpdate i increment =>
    if increment = 0 then conn.onIfOpen i Cell.streamReset
    else conn.onIfOpen i (updateWindow increment)
  | .connWindowUpdate increment =>
    match windowUpdate conn.writeWindow increment with
    | none => some { conn with state := .isClosing }
    | some window => some { conn with writeWindow := window }
  | .goaway => some { conn with pushMaxOpen := 0x7ffffffe }
  | .runPending i => conn.on i fun c => c.unlink.processRequest
  | .setWriteReq i writeReq =>
    conn.on i fun c => some { c with stream := { c.stream with writeReq := writeReq } }
  | .send i r => conn.on i (Cell.finalostreamSend · r)
  | .proceedRequest i failed unblock w => conn.on i (Cell.proceedRequest conn.ctx failed unblock w)
  | .emit i room readOk => conn.emitWritereq i room readOk
  | .proceed i =>
    if (conn.stream i).hasPendingData then none else conn.on i fun c => c.unlink.streamProceed
  | .replay i => conn.on i fun c => do
    let c ← c.unlink.ensureBlocked
    some c.ask
  | .push => conn.pushPath
  | .sendGoaway => some { conn with state := .halfClosed }
  | .closeConnection => some { conn with state := .isClosing }
  | .closeConnectionNow => conn.closeConnectionNow

/-- A sequence of events that are possible and meet the condition. -/
def run (C : Conn → Event → Prop) [∀ conn e, Decidable (C conn e)] :
    List Event → Conn → Option Conn
  | [], conn => some conn
  | e :: es, conn =>
    if conn.Enabled e ∧ C conn e then (conn.step e).bind (run C es) else none

/-- The states of a connection, as long as the events meet the condition `C`. -/
inductive Reach (C : Conn → Event → Prop) : Conn → Prop
  | init : Reach C init
  | upgrade {settings : Settings} {conn : Conn} (h : upgraded settings = some conn) : Reach C conn
  | step {conn conn' : Conn} {e : Event} (h : Reach C conn) (he : conn.Enabled e) (hc : C conn e)
      (hs : conn.step e = some conn') : Reach C conn'

lemma Reach.run {C : Conn → Event → Prop} [∀ conn e, Decidable (C conn e)] {es : List Event}
    {conn conn' : Conn} (h : Reach C conn) (hr : Conn.run C es conn = some conn') : Reach C conn' := by
  induction es generalizing conn with
  | nil =>
    cases hr
    exact h
  | cons e es ih =>
    obtain ⟨⟨he, hc⟩, hr⟩ := Option.ite_none_right_eq_some.1 hr
    obtain ⟨conn1, hs, hr⟩ := Option.bind_eq_some_iff.1 hr
    exact ih (.step h he hc hs) hr

end Conn

end Vhttp.Http2.Lifecycle
