import Vhttp.Http2.Connection

/-!
# The streams of an HTTP/2 connection: states, counters and lists

`include/vhttp/http2_internal.h`, `lib/http2/connection.c` and `lib/http2/stream.c`: what happens
to one stream of a connection from the time it is opened until it is closed. A function of the
source that takes a connection and a stream works on a `Cell` here: the stream and the counters
of the connection. It returns `none` where an assertion fails or the process is aborted.

The three lists that `_link` may be in are told apart by `link`; the order of their elements,
which decides only about which stream is next, is left out, as are the timers, the input windows
and the place of the stream in the scheduler (`active` is `_scheduler._self_is_active`). What the
handler of the request may do is told by `asked`: it has been called, and has not answered yet.

`increments`, `sent` and `flowError` are not part of a stream: they record the WINDOW_UPDATE
frames it has got, the DATA bytes sent and whether a flow-control error was signalled.
-/

namespace Vhttp.Http2.Lifecycle

/-- `num_streams.priority`, `num_streams.pull` and `num_streams.push`. -/
inductive Slot where
  | priority
  | pull
  | push
  deriving DecidableEq

/-- The counters of `num_streams`. -/
inductive Counter where
  | «open» (slot : Slot)
  | halfClosed (slot : Slot)
  | sendBody (slot : Slot)
  | blockedByServer
  | reqStreamingInProgress
  | tunnel
  deriving DecidableEq

/-- The list that `_link` is in: `_pending_reqs`, `_write.streams_to_proceed` or
`early_data.blocked_streams`. -/
inductive LinkList where
  | pendingReqs
  | streamsToProceed
  | blockedStreams
  deriving DecidableEq

/-- `vhttp_send_state_t`. -/
inductive SendState where
  | inProgress
  | final
  | error
  deriving DecidableEq

/-- `vhttp_http2_stream_t`. -/
structure Stream where
  state : StreamState
  /-- `_num_streams_slot` -/
  slot : Option Slot
  blockedByServer : Bool
  outputWindow : ℤ
  /-- the lengths of the elements of `_data` -/
  data : List ℕ
  sendState : SendState
  link : Option LinkList
  active : Bool
  /-- `req_body.buf != NULL` -/
  hasReqBody : Bool
  /-- `req_body.buf->size` -/
  bodySize : ℕ
  reqBodyState : ReqBodyState
  streamed : Bool
  isTunnelReq : Bool
  /-- the length of `req.entity`, `none` if it is `NULL` -/
  entity : Option ℕ
  /-- `req.proceed_req != NULL` -/
  proceedReq : Bool
  /-- `req.write_req.cb != NULL` -/
  writeReq : Bool
  processCalled : Bool
  asked : Bool
  increments : ℕ
  sent : ℕ
  flowError : Bool

/-- The stream that `vhttp_http2_stream_open` sets up. -/
def Stream.new (initialWindowSize : ℕ) : Stream where
  state := .idle
  slot := some .priority
  blockedByServer := false
  outputWindow := initialWindowSize
  data := []
  sendState := .inProgress
  link := none
  active := false
  hasReqBody := false
  bodySize := 0
  reqBodyState := .none
  streamed := false
  isTunnelReq := false
  entity := none
  proceedReq := false
  writeReq := false
  processCalled := false
  asked := false
  increments := 0
  sent := 0
  flowError := false

/-- `vhttp_http2_stream_has_pending_data`. -/
def Stream.hasPendingData (stream : Stream) : Bool := stream.data != []

/-- What the functions that work on a stream see of the connection. -/
structure Ctx where
  state : ConnState
  pullMaxOpen : ℕ

/-- The connection is not closing. -/
def Ctx.live (ctx : Ctx) : Bool := ctx.state == .open || ctx.state == .halfClosed

/-- A stream, and the counters of its connection. -/
structure Cell where
  id : ℕ
  num : Counter → ℤ
  stream : Stream
  /-- the stream is in `conn->streams` -/
  registered : Bool

namespace Cell

variable (ctx : Ctx) (c : Cell)

/-- A counter is incremented or decremented. -/
def bump (k : Counter) (d : ℤ) : Cell :=
  { c with num := Function.update c.num k (c.num k + d) }

/-- `vhttp_linklist_insert`. -/
def insertLink (list : LinkList) : Option Cell :=
  if c.stream.link = none then some { c with stream := { c.stream with link := some list } }
  else none

/-- `vhttp_linklist_insert`, if the stream is not in a list. -/
def ensureLinked (list : LinkList) : Option Cell :=
  if c.stream.link = none then c.insertLink list else some c

/-- `vhttp_linklist_unlink`. -/
def unlink : Cell := { c with stream := { c.stream with link := none } }

/-- `vhttp_http2_scheduler_activate` and `vhttp_http2_scheduler_deactivate`. -/
def setActive (on : Bool) : Cell := { c with stream := { c.stream with active := on } }

/-- The handler of the request is asked for (more of) the response. -/
def ask : Cell := { c with stream := { c.stream with asked := true } }

/-! ## The state of the stream -/

/-- `vhttp_http2_stream_set_blocked_by_server`. -/
def setBlockedByServer (on : Bool) : Option Cell :=
  if c.stream.blockedByServer = on then none
  else some ({ c with stream := { c.stream with blockedByServer := on } }.bump .blockedByServer
    (if on then 1 else -1))

/-- `vhttp_http2_stream_set_blocked_by_server`, if it is not set yet. -/
def ensureBlocked : Option Cell :=
  if c.stream.blockedByServer then some c else c.setBlockedByServer true

/-- `vhttp_http2_stream_set_blocked_by_server`, if it is set. -/
def ensureUnblocked : Option Cell :=
  if c.stream.blockedByServer then c.setBlockedByServer false else some c

/-- `vhttp_http2_stream_update_open_slot`. -/
def updateOpenSlot (slot : Slot) : Option Cell := do
  let old ← c.stream.slot
  let c := (c.bump (.open old) (-1)).bump (.open slot) 1
  some { c with stream := { c.stream with slot := some slot } }

/-- `stream->state = new_state`. -/
def putState (state : StreamState) : Cell :=
  { c with stream := { c.stream with state := state } }

/-- The counters that a stream leaves when it ends. -/
def leaveCounters (slot : Slot) : Option Cell :=
  match c.stream.state with
  | .idle | .recvBody | .recvHeaders | .reqPending => some c
  | .sendHeaders => some (c.bump (.halfClosed slot) (-1))
  | .sendBody | .sendBodyIsFinal =>
    some ((c.bump (.halfClosed slot) (-1)).bump (.sendBody slot) (-1))
  | .endStream => none

/-- `vhttp_http2_stream_set_state`. -/
def setState (newState : StreamState) : Option Cell :=
  match newState with
  | .idle => none
  | .recvHeaders =>
    if c.stream.state = .idle then do
      let c ← c.updateOpenSlot (if isPush c.id then .push else .pull)
      some (c.putState .recvHeaders)
    else none
  | .recvBody => some (c.putState .recvBody)
  | .reqPending => some (c.putState .reqPending)
  | .sendHeaders =>
    if c.stream.state = .reqPending then do
      let slot ← c.stream.slot
      some ((c.bump (.halfClosed slot) 1).putState .sendHeaders)
    else none
  | .sendBody =>
    if c.stream.state = .sendHeaders then do
      let slot ← c.stream.slot
      some ((c.bump (.sendBody slot) 1).putState .sendBody)
    else none
  | .sendBodyIsFinal =>
    if c.stream.state = .sendBody then some (c.putState .sendBodyIsFinal) else none
  | .endStream => do
    let slot ← c.stream.slot
    let c ← c.leaveCounters slot
    let c := (c.putState .endStream).bump (.open slot) (-1)
    { c with stream := { c.stream with slot := none } }.ensureUnblocked

/-- The order of `enum en_vhttp_req_body_state_t`. -/
def rank : ReqBodyState → ℕ
  | .none => 0
  | .openBeforeFirstFrame => 1
  | .open => 2
  | .closeQueued => 3
  | .closeDelivered => 4

/-- `set_req_body_state`. -/
def setReqBodyState (newState : ReqBodyState) : Option Cell :=
  if rank c.stream.reqBodyState < rank newState then
    let put (c : Cell) : Cell := { c with stream := { c.stream with reqBodyState := newState } }
    if newState = .closeDelivered then
      if c.stream.proceedReq then none
      else if c.stream.streamed then
        let c := c.bump .reqStreamingInProgress (-1)
        some (put (if c.stream.isTunnelReq then c.bump .tunnel (-1) else c))
      else some (put c)
    else some (put c)
  else none

/-- The request body is done: `proceed_req` is reset first. -/
def deliverClose : Option Cell :=
  { c with stream := { c.stream with proceedReq := false } }.setReqBodyState .closeDelivered

/-! ## Closing -/

/-- The part of `vhttp_http2_conn_unregister_stream` that unlinks the stream. -/
def unlinkByState : Option Cell :=
  match c.stream.state with
  | .idle | .recvHeaders => if c.stream.link = none then some c else none
  | .reqPending => if c.stream.link = none then none else some c.unlink
  | .recvBody | .sendHeaders | .sendBody | .sendBodyIsFinal | .endStream => some c.unlink

/-- The request body is done, if there is one and it is not done yet. -/
def ensureDelivered : Option Cell :=
  if c.stream.reqBodyState ≠ .none ∧ c.stream.reqBodyState ≠ .closeDelivered then c.deliverClose
  else some c

/-- The stream ends, if it has not ended yet. -/
def ensureEnded : Option Cell :=
  if c.stream.state = .endStream then some c else c.setState .endStream

/-- `vhttp_http2_conn_unregister_stream`. -/
def unregisterStream : Option Cell := do
  let c ← c.ensureDelivered
  let c ← c.ensureUnblocked
  let c ← c.unlinkByState
  let c ← c.ensureEnded
  some { c with registered := false }

/-- `vhttp_http2_stream_close`. -/
def streamClose : Option Cell := c.unregisterStream

/-- `vhttp_http2_stream_reset`. -/
def streamReset : Option Cell :=
  match c.stream.state with
  | .idle | .recvHeaders | .recvBody | .reqPending => c.streamClose
  | .sendHeaders | .sendBody | .sendBodyIsFinal | .endStream => do
    let c ← c.ensureEnded
    let c := { c with stream := { c.stream with data := [] } }
    if c.stream.link = none then c.streamClose else some c

/-- `stream_send_error`, which asserts that the connection is not closing, and
`vhttp_http2_stream_reset`. -/
def sendErrorAndReset : Option Cell :=
  if ctx.live then c.streamReset else none

/-! ## Requests -/

/-- `vhttp_http2_stream_prepare_for_request`, without `max_open`. -/
def prepareForRequest (initialWindowSize : ℕ) (c : Cell) : Option Cell :=
  if ctx.live then do
    let c ← c.setState .recvHeaders
    some { c with stream := { c.stream with outputWindow := initialWindowSize } }
  else none

/-- `vhttp_process_request`: the handler is called. -/
def callHandler : Option Cell :=
  if c.stream.processCalled then none
  else some { c with stream := { c.stream with processCalled := true, asked := true } }

/-- The start of the streaming of a request body in `process_request`. -/
def startStreaming : Option Cell :=
  if c.stream.reqBodyState = .none ∨ c.stream.reqBodyState = .closeDelivered then none
  else
    let c := c.bump .reqStreamingInProgress 1
    let c := { c with stream := { c.stream with streamed := true } }
    some (if c.stream.isTunnelReq then c.bump .tunnel 1 else c)

/-- `process_request`. -/
def processRequest : Option Cell := do
  let c ← (
    if c.stream.proceedReq then c.startStreaming
    else if c.stream.state.beforeReqPending ∨ c.stream.state = .reqPending then do
      let c ← c.setState .reqPending
      c.setState .sendHeaders
    else some c)
  c.callHandler

/-- `execute_or_enqueue_request_core`; the pending requests are run later. -/
def executeOrEnqueueRequestCore : Option Cell := c.insertLink .pendingReqs

/-- `reset_stream_if_disregarded`: the stream was opened after GOAWAY. -/
def disregarded : Bool := !isPush c.id && decide (ctx.pullMaxOpen < c.id)

/-- `execute_or_enqueue_request`. -/
def executeOrEnqueueRequest : Option Cell :=
  if c.stream.state = .recvHeaders ∨ c.stream.state = .reqPending then
    if c.disregarded ctx then c.streamReset
    else do
      let c ← c.setState .reqPending
      let c ← c.ensureBlocked
      c.executeOrEnqueueRequestCore
  else none

/-! ## Responses -/

/-- What the handler passes to `finalostream_send`, and what its effect depends on. -/
structure Response where
  bufs : List ℕ
  sendState : SendState
  /-- status 425 and `reprocess_if_too_early` -/
  tooEarly : Bool
  /-- the TLS handshake is not complete -/
  earlyData : Bool
  /-- `upstream_refused` -/
  refused : Bool
  /-- a pushed response is not needed -/
  cancelPush : Bool
  /-- the stream gets a new place in the scheduler, by its `priority` header -/
  reprioritized : Bool

variable (r : Response)

/-- `request_write_and_close`. -/
def requestWriteAndClose : Option Cell := do
  let c ← c.setState .endStream
  (c.setActive false).ensureLinked .streamsToProceed

/-- `vhttp_http2_conn_register_for_proceed_callback`. -/
def registerForProceedCallback : Option Cell :=
  if c.stream.hasPendingData ∨ c.stream.state = .sendBodyIsFinal ∨ c.stream.state = .endStream then
    if 0 < c.stream.outputWindow then
      if c.stream.link = none then some (c.setActive true) else none
    else some c
  else c.insertLink .streamsToProceed

/-- `vhttp_http2_conn_register_for_replay`; a request that is not parked is replayed. -/
def registerForReplay : Option Cell :=
  if r.earlyData then c.insertLink .blockedStreams else some c.ask

/-- `stream->_data` is set, if there is something to send. -/
def queueBufs (bufs : List ℕ) : Cell :=
  if bufs = [] then c else { c with stream := { c.stream with data := bufs } }

/-- The part of `finalostream_send` for a response that has been started. -/
def sendBody : Option Cell := do
  let c ← (if r.sendState = .inProgress then some c else c.setState .sendBodyIsFinal)
  (c.queueBufs r.bufs).registerForProceedCallback

/-- The part of `finalostream_send` that starts a response, with `send_headers`. -/
def startResponse : Option Cell :=
  if r.refused then c.requestWriteAndClose
  else if isPush c.id && r.cancelPush then do
    let c ← c.setState .endStream
    c.insertLink .streamsToProceed
  else do
    let c ← (if r.reprioritized then c.setActive false else c).setState .sendBody
    if r.sendState = .final ∧ r.bufs = [] then c.requestWriteAndClose else c.sendBody r

/-- The part of `finalostream_send` that depends on the state of the stream. -/
def respond : Option Cell :=
  match c.stream.state with
  | .recvBody => do
    let c ← c.setState .reqPending
    let c ← c.setState .sendHeaders
    c.startResponse r
  | .reqPending => do
    let c ← c.setState .sendHeaders
    c.startResponse r
  | .sendHeaders => c.startResponse r
  | .sendBody => c.sendBody r
  | .endStream => some c
  | .idle | .recvHeaders | .sendBodyIsFinal => none

/-- `finalostream_send`. -/
def finalostreamSend : Option Cell :=
  if c.stream.sendState = .inProgress ∧ c.stream.data = [] then do
    let c ← { c with stream := { c.stream with asked := false } }.ensureUnblocked
    if r.tooEarly then
      if c.stream.state = .sendBody ∨ c.stream.state = .sendBodyIsFinal ∨
        c.stream.state = .endStream then none
      else c.registerForReplay r
    else
      let c := { c with stream := { c.stream with sendState := r.sendState } }
      c.respond r
  else none

/-- `vhttp_http2_stream_proceed`. -/
def streamProceed : Option Cell :=
  if c.stream.state = .endStream then
    if c.stream.reqBodyState = .none ∨ c.stream.reqBodyState = .closeDelivered then c.streamClose
    else some c
  else do
    let c ← c.ensureBlocked
    some c.ask

end Cell

end Vhttp.Http2.Lifecycle
