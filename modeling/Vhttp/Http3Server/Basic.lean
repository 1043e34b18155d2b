import Vhttp.Http3.Frame

/-!
# The request streams of an HTTP/3 connection

`lib/http3/server.c`: how request streams are received, blocked, run and closed. Each callback works
on one stream and on the data that the streams of the connection share: the lists of delayed
streams, the counters and the timer of `run_delayed`.

The handlers are parameters: `vhttp_qpack_parse_request`, if a request can be streamed, and which
calls an application makes before `vhttp_process_request` or `write_req` returns.
-/

namespace Vhttp.Http3Server

open Http3 (readFrame)

/-! ## Streams -/

/-- `vhttp_http3_server_stream_state`. -/
inductive StreamState where
  | recvHeaders | recvBodyBeforeBlock | recvBodyBlocked | recvBodyUnblocked
  | reqPending | sendHeaders | sendBody | closeWait
  deriving DecidableEq

/-- `state < SEND_HEADERS`. -/
def StreamState.isReceiving : StreamState → Bool
  | .sendHeaders | .sendBody | .closeWait => false
  | _ => true

/-- The functions that `handle_input` points to. -/
inductive HandleInput where
  | expectHeaders | expectData | expectDataPayload | postTrailers
  deriving DecidableEq

/-- `st_vhttp_http3_server_stream_t` and the state of its QUIC stream. `buf` are the octets that
have been received in order and not processed, `eosKnown` and `recvComplete` tell if the size of
the request is known and all of it received, `sendOpen` if the response may go on, and `unsent` if
there is something in `sendbuf`. -/
structure Stream where
  state : StreamState
  handleInput : HandleInput
  buf : Bytes
  bytesLeftInDataFrame : ℕ
  eosKnown : Bool
  recvComplete : Bool
  stopRequested : Bool
  sendOpen : Bool
  unsent : Bool
  readBlocked : Bool
  reqStreaming : Bool
  isTunnelReq : Bool
  contentLength : Option ℕ
  reqBody : Option Bytes
  reqBodyBytesReceived : ℕ
  processCalled : Bool
  writeReq : Bool
  proceedReq : Bool

/-- `stream_open_cb`. -/
def Stream.new : Stream where
  state := .recvHeaders
  handleInput := .expectHeaders
  buf := []
  bytesLeftInDataFrame := 0
  eosKnown := false
  recvComplete := false
  stopRequested := false
  sendOpen := true
  unsent := false
  readBlocked := false
  reqStreaming := false
  isTunnelReq := false
  contentLength := none
  reqBody := none
  reqBodyBytesReceived := 0
  processCalled := false
  writeReq := false
  proceedReq := false

namespace Stream

variable (s : Stream)

def setState (state : StreamState) : Stream := { s with state }

def setHandleInput (handleInput : HandleInput) : Stream := { s with handleInput }

def setBuf (buf : Bytes) : Stream := { s with buf }

def setEosKnown : Stream := { s with eosKnown := true }

/-- All of the request has been received. -/
def setRecvComplete : Stream := { s with eosKnown := true, recvComplete := true }

def setStopRequested : Stream := { s with stopRequested := true }

def setSendOpen (sendOpen : Bool) : Stream := { s with sendOpen }

def setUnsent (unsent : Bool) : Stream := { s with unsent }

def setReadBlocked (readBlocked : Bool) : Stream := { s with readBlocked }

def setContentLength (contentLength : Option ℕ) : Stream := { s with contentLength }

def setReqBody (reqBody : Option Bytes) : Stream := { s with reqBody }

def setProcessCalled : Stream := { s with processCalled := true }

def setWriteReq : Stream := { s with writeReq := true }

/-- The request is going to be streamed. -/
def startStreaming : Stream := { s with reqStreaming := true, proceedReq := true }

/-- The request is a tunnel. -/
def startTunnel : Stream :=
  { s with isTunnelReq := true, reqBody := some [], readBlocked := true, proceedReq := true }

def setReqStreaming (reqStreaming : Bool) : Stream := { s with reqStreaming }

/-- The request has been streamed. -/
def endStreaming : Stream :=
  { s with writeReq := false, proceedReq := false, reqStreaming := false }

end Stream

/-- What the streams share: the lists of `delayed_streams`, if `timeout` is linked, the counters
`num_streams.recv_body_unblocked` and `num_streams_req_streaming`, and if the connection is being
closed. -/
structure Shared where
  recvBodyBlocked : List ℕ
  reqStreaming : List ℕ
  pending : List ℕ
  timeout : Bool
  numRecvBodyUnblocked : UInt32
  numReqStreaming : UInt32
  closing : Bool

/-- What a callback sees. -/
structure View where
  shared : Shared
  stream : Stream

/-! ## Parameters -/

/-- What `expect` asks for. -/
inductive Expectation where
  | nothing | continue100 | unknown

/-- What `handle_input_expect_headers` reads of a header block that can be decoded: if the pseudo
headers are those of the method, if there is an invalid character, if the values of the pseudo
headers are valid, and the rest. -/
structure Head where
  pseudoHeaders : Bool
  invalidChar : Bool
  validPseudoHeaders : Bool
  contentLength : Option ℕ
  isConnect : Bool
  expect : Expectation

/-- A call of the application: `do_send` with or without a body, setting `write_req`, and
`proceed_req` with or without an error. -/
inductive AppCall where
  | send (hasBody final : Bool)
  | startStreaming
  | proceed (err : Bool)

/-- The configuration and the handlers. -/
structure Env where
  maxConcurrentStreamingRequests : ℕ
  maxRequestEntitySize : ℕ
  maxFramePayloadSize : ℕ
  parseRequest : Bytes → Option Head
  canStreamRequest : ℕ → View → Bool
  react : ℕ → View → List AppCall
  writeReqFails : ℕ → View → Bool

/-! ## The shared data -/

variable (env : Env) (d : Shared) (i : ℕ) (v : View) (src : Bytes)

/-- `request_run_delayed`. -/
def Shared.requestRunDelayed : Shared := { d with timeout := true }

/-- Another request may be received in full or be streamed. -/
def Shared.slotFree : Bool :=
  (d.numRecvBodyUnblocked + d.numReqStreaming).toNat < env.maxConcurrentStreamingRequests

/-- `check_run_blocked`. -/
def Shared.checkRunBlocked : Shared :=
  if d.slotFree env ∧ d.recvBodyBlocked ≠ [] then d.requestRunDelayed else d

/-- `vhttp_linklist_unlink` for a stream that may be in one of the lists. -/
def Shared.unlink : Shared :=
  { d with
    recvBodyBlocked := d.recvBodyBlocked.filter (· ≠ i)
    reqStreaming := d.reqStreaming.filter (· ≠ i)
    pending := d.pending.filter (· ≠ i) }

/-- `vhttp_linklist_is_linked`. -/
def Shared.isLinked : Bool :=
  i ∈ d.recvBodyBlocked || i ∈ d.reqStreaming || i ∈ d.pending

/-- A request is no longer streamed, and `check_run_blocked` is called. -/
def Shared.endStreaming : Shared :=
  { d with numReqStreaming := d.numReqStreaming - 1 }.checkRunBlocked env

def Shared.startStreaming : Shared :=
  { d with numReqStreaming := d.numReqStreaming + 1 }

def Shared.setTimeout (timeout : Bool) : Shared := { d with timeout }

def Shared.setClosing : Shared := { d with closing := true }

def Shared.addBlocked : Shared :=
  { d with recvBodyBlocked := d.recvBodyBlocked ++ [i] }

def Shared.addPending : Shared := { d with pending := d.pending ++ [i] }

/-- The stream is put into the list, if it is in no list. -/
def Shared.addStreaming : Shared :=
  if d.isLinked i then d else { d with reqStreaming := d.reqStreaming ++ [i] }

/-- The counters for a stream that goes from a state to another one. -/
def Shared.count (old new : StreamState) : Shared :=
  { d with
    numRecvBodyUnblocked :=
      d.numRecvBodyUnblocked - (if old = .recvBodyUnblocked then 1 else 0) +
        if new = .recvBodyUnblocked then 1 else 0 }

namespace View

def mapShared (f : Shared → Shared) : View := { v with shared := f v.shared }

def mapStream (f : Stream → Stream) : View := { v with stream := f v.stream }

/-! ## States -/

/-- `pre_dispose_request`. -/
def preDisposeRequest : View :=
  let v := v.mapStream (·.setReqBody none)
  if v.stream.reqStreaming && !v.stream.isTunnelReq then
    (v.mapStream (·.setReqStreaming false)).mapShared (·.endStreaming env)
  else v

/-- The beginning of `set_state`. -/
def changeState (state : StreamState) : View :=
  (v.mapShared (·.count v.stream.state state)).mapStream (·.setState state)

/-- The stream is closed and taken off its list. -/
def enterCloseWait : View :=
  (v.changeState .closeWait).mapShared (·.unlink i)

/-- `set_state`. -/
def setState (state : StreamState) : View :=
  if state = .closeWait then (v.enterCloseWait i).preDisposeRequest env else v.changeState state

/-- `quicly_request_stop`. -/
def requestStop : View :=
  if v.stream.eosKnown then v else v.mapStream (·.setStopRequested)

/-- `shutdown_stream`. -/
def shutdownStream (resetOnlyIfOpen : Bool) (v : View) : View :=
  let v := v.requestStop
  if resetOnlyIfOpen && !v.stream.sendOpen then
    if v.stream.state = .sendBody then v else v.setState env i .sendBody
  else (v.mapStream (·.setSendOpen false)).setState env i .closeWait

/-- `vhttp_quic_close_connection`. -/
def closeConnection : View := v.mapShared (·.setClosing)

/-! ## Sending -/

/-- `shutdown_by_generator`. -/
def shutdownByGenerator : View :=
  let v := v.mapStream (·.setSendOpen false)
  if v.stream.unsent then v else v.requestStop.setState env i .closeWait

/-- The end of `do_send`. -/
def sendBody (hasBody final : Bool) (v : View) : View :=
  let v := if hasBody then v.mapStream (·.setUnsent true) else v
  if final then v.shutdownByGenerator env i else v

/-- `do_send`; it is not called in other states than these. -/
def doSend (hasBody final : Bool) (v : View) : View :=
  match v.stream.state with
  | .sendHeaders =>
    ((v.mapStream (·.setUnsent true)).setState env i .sendBody).sendBody env i hasBody final
  | .sendBody => if v.stream.sendOpen then v.sendBody env i hasBody final else v
  | _ => v

/-- The calls that an application can make before it has its answer to `proceed_req`. -/
def appSend : AppCall → View
  | .send hasBody final => v.doSend env i hasBody final
  | .startStreaming => if v.stream.proceedReq then v.mapStream (·.setWriteReq) else v
  | .proceed _ => v

end View

/-! ## Receiving -/

/-- What `handle_input` returns: 0, `vhttp_HTTP3_ERROR_INCOMPLETE`, or another error. -/
inductive Code where
  | ok | incomplete | error

/-- A return value, what the callback sees, and the input that is left. -/
abbrev Result := Code × View × Bytes

/-- The payload of a DATA frame is appended to the body. -/
def Stream.appendBody (s : Stream) (payload : Bytes) : Stream :=
  { s with
    reqBody := some (s.reqBody.getD [] ++ payload)
    reqBodyBytesReceived := s.reqBodyBytesReceived + payload.length
    bytesLeftInDataFrame := s.bytesLeftInDataFrame - payload.length
    handleInput :=
      if s.bytesLeftInDataFrame - payload.length = 0 then .expectData else s.handleInput }

/-- A DATA frame of this length begins; an empty one is skipped. -/
def Stream.startData (s : Stream) (length : ℕ) : Stream :=
  if length = 0 then s
  else { s with bytesLeftInDataFrame := length, handleInput := .expectDataPayload }

/-- A DATA frame of this length is longer than what is left of `content-length`. -/
def Stream.overflows (s : Stream) (length : ℕ) : Bool :=
  match s.contentLength with
  | none => false
  | some n => n - s.reqBodyBytesReceived < length

namespace View

/-- `handle_input_post_trailers`. -/
def handlePostTrailers : Result :=
  match readFrame false env.maxFramePayloadSize src with
  | .incomplete => (.incomplete, v, src)
  | .tooLarge _ | .unexpected => (.error, v, src)
  | .frame f rest =>
    match f.type with
    | .headers | .data => (.error, v, rest)
    | _ => (.ok, v, rest)

/-- `handle_input_expect_data_payload`. -/
def handleExpectDataPayload : Result :=
  (.ok, v.mapStream (·.appendBody (src.take v.stream.bytesLeftInDataFrame)),
    src.drop v.stream.bytesLeftInDataFrame)

/-- `handle_input_expect_data`. -/
def handleExpectData : Result :=
  match readFrame false env.maxFramePayloadSize src with
  | .incomplete => (.incomplete, v, src)
  | .tooLarge _ | .unexpected => (.error, v, src)
  | .frame f rest =>
    match f.type with
    | .headers =>
      if v.stream.isTunnelReq then (.error, v, rest)
      else (.ok, v.mapStream (·.setHandleInput .postTrailers), rest)
    | .data =>
      if v.stream.overflows f.length then (.ok, v.shutdownStream env i false, rest)
      else (.ok, v.mapStream (·.startData f.length), rest)
    | _ => (.ok, v, rest)

/-- `handle_input_expect_headers_send_http_error`. -/
def sendHttpError : View :=
  let v := if v.stream.recvComplete then v else v.requestStop
  (v.setState env i .sendHeaders).doSend env i true true

/-- `handle_input_expect_headers_process_connect`. The application does not proceed before
`vhttp_process_request` returns. -/
def processConnect : View :=
  if v.stream.contentLength ≠ none then v.sendHttpError env i
  else
    let v := v.mapStream (·.startTunnel)
    let v := (v.setState env i .sendHeaders).mapStream (·.setProcessCalled)
    (env.react i v).foldl (appSend env i) v

/-- `handle_input_expect_headers`, for a header block that has been decoded. -/
def processHead (head : Head) : Code × View :=
  let v := v.mapStream (·.setContentLength head.contentLength)
  if !head.pseudoHeaders then (.ok, v.shutdownStream env i false)
  else if head.invalidChar then (.ok, v.sendHttpError env i)
  else if !head.validPseudoHeaders then (.error, v)
  else if head.contentLength.any (env.maxRequestEntitySize < ·) then (.ok, v.sendHttpError env i)
  else if head.isConnect then (.ok, v.processConnect env i)
  else
    let v := v.setState env i .recvBodyBeforeBlock
    match head.expect with
    | .unknown => (.ok, v.sendHttpError env i)
    | .continue100 => (.ok, v.mapStream (·.setUnsent true))
    | .nothing => (.ok, v)

/-- `handle_input_expect_headers`. -/
def handleExpectHeaders : Result :=
  match readFrame false env.maxFramePayloadSize src with
  | .incomplete => (.incomplete, v, src)
  | .tooLarge type =>
    if type = .headers then (.ok, v.shutdownStream env i false, src) else (.error, v, src)
  | .unexpected => (.error, v, src)
  | .frame f rest =>
    match f.type with
    | .headers =>
      let v := v.mapStream (·.setHandleInput .expectData)
      match env.parseRequest f.payload with
      | none => (.error, v, rest)
      | some head => ((v.processHead env i head).1, (v.processHead env i head).2, rest)
    | .data => (.error, v, rest)
    | _ => (.ok, v, rest)

/-- `handle_input`. -/
def handle : Result :=
  match v.stream.handleInput with
  | .expectHeaders => v.handleExpectHeaders env i src
  | .expectData => v.handleExpectData env i src
  | .expectDataPayload => v.handleExpectDataPayload src
  | .postTrailers => v.handlePostTrailers env src

end View

/-- How the loop of `handle_buffered_input` ends: the function returns, or goes on. -/
inductive LoopResult where
  | returned (v : View)
  | consumed (v : View)

/-- The loop of `handle_buffered_input`. -/
def handleLoop (env : Env) (i : ℕ) : ℕ → View → Bytes → LoopResult
  | 0, v, src => .consumed (v.mapStream (·.setBuf src))
  | fuel + 1, v, src =>
    match v.handle env i src with
    | (.incomplete, v, rest) =>
      if v.stream.recvComplete then .returned v.closeConnection
      else .consumed (v.mapStream (·.setBuf rest))
    | (.error, v, _) => .returned v.closeConnection
    | (.ok, v, rest) =>
      if v.stream.state = .closeWait then .returned v
      else if rest ≠ [] ∧ ¬v.stream.readBlocked ∧ ¬v.stream.stopRequested then
        handleLoop env i fuel v rest
      else .consumed (v.mapStream (·.setBuf rest))

namespace View

/-- The stream is put at the end of `delayed_streams.req_streaming`, if it is in no list. -/
def linkStreaming : View :=
  v.mapShared fun d => (d.addStreaming i).requestRunDelayed

/-- The request has been received and is put at the end of `delayed_streams.pending`. -/
def linkPending : View :=
  (v.setState env i .reqPending).mapShared fun d => (d.addPending i).requestRunDelayed

/-- The request is put at the end of `delayed_streams.recv_body_blocked`. -/
def linkBlocked : View :=
  let v := (v.mapStream (·.setReadBlocked true)).mapShared (·.addBlocked i)
  (v.setState env i .recvBodyBlocked).mapShared (·.checkRunBlocked env)

/-- The end of `handle_buffered_input`, when the request has been received completely. -/
def receivedAll : View :=
  let s := v.stream
  if s.buf = [] ∧ (s.handleInput = .expectData ∨ s.handleInput = .postTrailers) then
    if s.contentLength.any (· ≠ s.reqBodyBytesReceived) then v.shutdownStream env i false
    else if s.writeReq then v.linkStreaming i
    else if !s.processCalled && s.state.isReceiving then v.linkPending env i
    else v
  else v.shutdownStream env i false

/-- The end of `handle_buffered_input`, when there is more to come. -/
def receivedSome : View :=
  let s := v.stream
  if s.state = .recvBodyBeforeBlock ∧ s.reqBody.any (1 ≤ ·.length) then v.linkBlocked env i
  else if s.writeReq ∧ s.reqBody.any (·.length ≠ 0) then v.linkStreaming i
  else v

/-- `handle_buffered_input`. -/
def handleBufferedInput : View :=
  if v.stream.state = .closeWait then v
  else
    let result :=
      if v.stream.buf = [] then .consumed v
      else handleLoop env i v.stream.buf.length v v.stream.buf
    match result with
    | .returned v => v
    | .consumed v' =>
      if v.stream.buf ≠ [] ∧ v'.stream.readBlocked then v'
      else if v'.stream.recvComplete then v'.receivedAll env i
      else v'.receivedSome env i

/-- `on_receive`. -/
def onReceive (fresh : Bytes) : View :=
  let v := v.mapStream fun s => s.setBuf (s.buf ++ fresh)
  if v.stream.readBlocked || v.stream.stopRequested then v else v.handleBufferedInput env i

/-! ## The application -/

/-- The end of request streaming in `proceed_request_streaming`. -/
def tidyUp : View :=
  (v.mapStream (·.endStreaming)).mapShared fun d =>
    if v.stream.isTunnelReq then d.checkRunBlocked env else d.endStreaming env

/-- `proceed_request_streaming`. -/
def proceedRequestStreaming (err : Bool) (v : View) : View :=
  let v := if err ∨ (v.stream.buf = [] ∧ v.stream.recvComplete) then v.tidyUp env else v
  if err then v.shutdownStream env i true
  else
    let v := v.mapStream fun s => (s.setReqBody (some [])).setReadBlocked false
    v.handleBufferedInput env i

/-- A call of the application. -/
def appCall : AppCall → View
  | .proceed err =>
    if v.stream.proceedReq ∧ v.stream.state ≠ .closeWait ∧ v.stream.reqBody.isSome ∧
        (err ∨ ¬v.shared.isLinked i) then
      v.proceedRequestStreaming env i err
    else v
  | call => v.appSend env i call

/-- The calls that the application makes before it returns. -/
def react (env : Env) (i : ℕ) (v : View) : View := (env.react i v).foldl (appCall env i) v

/-- `vhttp_process_request`. -/
def processRequest : View :=
  (v.mapStream (·.setProcessCalled)).react env i

/-! ## Delayed streams -/

/-- A blocked stream is promoted by `run_delayed`. -/
def promote : View :=
  let v := v.mapShared (·.unlink i)
  if env.canStreamRequest i v then
    let v := (v.mapStream (·.startStreaming)).mapShared (·.startStreaming)
    (v.setState env i .sendHeaders).processRequest env i
  else
    let v := v.mapStream (·.setReadBlocked false)
    (v.setState env i .recvBodyUnblocked).handleBufferedInput env i

/-- `write_req` is called by `run_delayed`. -/
def callWriteReq : View :=
  let v := (v.mapShared (·.unlink i)).mapStream (·.setReadBlocked true)
  let fails := env.writeReqFails i v
  let v := v.react env i
  if fails ∧ v.stream.state ≠ .closeWait then v.shutdownStream env i true else v

/-- A request is processed by `run_delayed`. -/
def runPending : View :=
  ((v.mapShared (·.unlink i)).setState env i .sendHeaders).processRequest env i

end View

/-! ## The connection -/

/-- `st_vhttp_http3_server_conn_t`. -/
structure Conn where
  shared : Shared
  streams : ℕ → Option Stream

namespace Conn

def new : Conn where
  shared := ⟨[], [], [], false, 0, 0, false⟩
  streams _ := none

/-- A callback on a stream that exists. -/
def onStream (c : Conn) (i : ℕ) (f : View → View) : Conn :=
  match c.streams i with
  | none => { c with shared := c.shared.unlink i }
  | some s =>
    { shared := (f ⟨c.shared, s⟩).shared
      streams := Function.update c.streams i (some (f ⟨c.shared, s⟩).stream) }

/-- The request of a blocked stream is going to be streamed. -/
def willStream (c : Conn) (i : ℕ) : Bool :=
  (c.streams i).any fun s => env.canStreamRequest i ⟨c.shared.unlink i, s⟩

/-- The streams that have data to submit; `none` if they do not end in so many steps. -/
def drainStreaming (env : Env) : ℕ → Conn → Option Conn
  | fuel, c =>
    match c.shared.reqStreaming, fuel with
    | [], _ => some c
    | _ :: _, 0 => none
    | i :: _, fuel + 1 => drainStreaming env fuel (c.onStream i (·.callWriteReq env i))

/-- The requests that are to be processed; `none` if they do not end in so many steps. -/
def drainPending (env : Env) : ℕ → Conn → Option Conn
  | fuel, c =>
    match c.shared.pending, fuel with
    | [], _ => some c
    | _ :: _, 0 => none
    | i :: _, fuel + 1 => drainPending env fuel (c.onStream i (·.runPending env i))

/-- The lists of streams that are not blocked. -/
def drain (fuel : ℕ) (c : Conn) : Option Conn :=
  (c.drainStreaming env fuel).bind (drainPending env fuel)

/-- `run_delayed`; `none` if the loop does not end in so many steps. -/
def runDelayed (env : Env) : ℕ → Conn → Option Conn
  | 0, _ => none
  | fuel + 1, c =>
    if c.shared.slotFree env ∧ c.shared.recvBodyBlocked ≠ [] then
      let i := c.shared.recvBodyBlocked.headD 0
      let c' := c.onStream i (·.promote env i)
      if ¬c.willStream env i ∧ c'.shared.closing then some c'
      else (c'.drain env fuel).bind (runDelayed env fuel)
    else if c.shared.reqStreaming = [] ∧ c.shared.pending = [] then some c
    else (c.drain env fuel).bind (runDelayed env fuel)

end Conn

/-! ## Runs -/

/-- What can happen to a stream that is not closed. -/
inductive Callback where
  /-- The size of the request gets known. -/
  | eosKnown
  /-- Octets can be read in order after those that have been received; `fin` tells if they are the
  last ones. -/
  | receive (fresh : Bytes) (fin : Bool)
  /-- The peer resets its side of the stream. -/
  | reset
  /-- The peer sends STOP_SENDING. -/
  | stopSending
  /-- `on_send_emit` fails. -/
  | sendError
  /-- All that has been sent is acknowledged. -/
  | acked
  | app (call : AppCall)

/-- Whether it can happen. -/
def Callback.possible (s : Stream) : Callback → Bool
  | .eosKnown | .app _ => true
  | .receive _ _ | .reset => !s.recvComplete
  | .stopSending => s.sendOpen
  | .sendError => s.state = .sendBody
  | .acked => s.unsent

/-- What it does. -/
def Callback.run : Callback → View
  | .eosKnown => v.mapStream (·.setEosKnown)
  | .receive fresh fin =>
    (if fin then v.mapStream (·.setRecvComplete) else v).onReceive env i fresh
  | .reset => (v.mapStream (·.setRecvComplete)).shutdownStream env i true
  | .stopSending => (v.mapStream (·.setSendOpen false)).shutdownStream env i false
  | .sendError => v.shutdownStream env i false
  | .acked =>
    let v := v.mapStream (·.setUnsent false)
    if v.stream.sendOpen then v else v.requestStop.setState env i .closeWait
  | .app call => v.appCall env i call

/-- What can happen to a connection. -/
inductive Event where
  | open (i : ℕ)
  | stream (i : ℕ) (callback : Callback)
  /-- `run_delayed` is called by the timer, and ends in so many steps. -/
  | timeout (fuel : ℕ)
  /-- The stream is destroyed, after both sides have been closed. -/
  | destroy (i : ℕ)
  /-- The connection is closed. -/
  | close

namespace Conn

/-- An event; `none` if it cannot happen. -/
def step (c : Conn) (e : Event) : Option Conn :=
  if c.shared.closing then none
  else
    match e with
    | .open i =>
      if c.streams i = none then
        some { c with streams := Function.update c.streams i (some Stream.new) }
      else none
    | .stream i callback =>
      if (c.streams i).any fun s => s.state ≠ .closeWait ∧ callback.possible s then
        some (c.onStream i fun v => callback.run env i v)
      else none
    | .timeout fuel =>
      if c.shared.timeout then
        { c with shared := c.shared.setTimeout false }.runDelayed env fuel
      else none
    | .destroy i =>
      if (c.streams i).any (·.state = .closeWait) then
        some { shared := c.shared.unlink i, streams := Function.update c.streams i none }
      else none
    | .close => some { c with shared := c.shared.setClosing }

/-- The connections that runs reach by events that meet a condition. -/
inductive Reach (env : Env) (ok : Conn → Event → Bool) : Conn → Prop where
  | new : Reach env ok Conn.new
  | step {c c' : Conn} {e : Event} :
      Reach env ok c → ok c e = true → c.step env e = some c' → Reach env ok c'

/-- A sequence of events that meet a condition. -/
def run (env : Env) (ok : Conn → Event → Bool) : List Event → Conn → Option Conn
  | [], c => some c
  | e :: es, c => if ok c e then (c.step env e).bind (run env ok es) else none

lemma Reach.run {env : Env} {ok : Conn → Event → Bool} {es : List Event} {c c' : Conn}
    (h : Reach env ok c) (hs : Conn.run env ok es c = some c') : Reach env ok c' := by
  induction es generalizing c with
  | nil =>
    cases hs
    exact h
  | cons e es ih =>
    obtain ⟨ho, hs⟩ := Option.ite_none_right_eq_some.1 hs
    obtain ⟨c1, hstep, hs⟩ := Option.bind_eq_some_iff.1 hs
    exact ih (.step h ho hstep) hs

end Conn

/-- A server with one slot for streamed requests, which takes bodies of this size. No request
announces its length or is streamed. -/
def plainServer (maxRequestEntitySize : ℕ) : Env where
  maxConcurrentStreamingRequests := 1
  maxRequestEntitySize
  maxFramePayloadSize := 16384
  parseRequest _ := some ⟨true, false, true, none, false, .nothing⟩
  canStreamRequest _ _ := false
  react _ _ := []
  writeReqFails _ _ := false

/-- A HEADERS frame with the fields of `POST https://a/`. -/
def postHeaders : Bytes := [1, 8, 0, 0, 0xd4, 0xd7, 0xc1, 0x50, 1, 97]

end Vhttp.Http3Server
