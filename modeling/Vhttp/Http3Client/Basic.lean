import Vhttp.Http3.Frame

/-!
# A request of the HTTP/3 client

`lib/common/http3client.c`: a request runs over a QUIC stream. The response is a sequence of
frames, which `handle_input` takes off the stream, and the application is called back with what
they bring.

The calls to `on_head`, `on_body` and `informational_cb` are recorded in order. The application
answers a call as it likes, depending on all the calls so far. `vhttp_qpack_parse_response` is a
parameter.
-/

namespace Vhttp.Http3Client

open Http3 (readFrame)

/-! ## The request -/

/-- The errors that the application is told. -/
inductive Err where
  /-- `vhttp_httpclient_error_is_eos` -/
  | isEos
  /-- `vhttp_httpclient_error_io` -/
  | io
  /-- `vhttp_httpclient_error_malformed_frame` -/
  | malformedFrame
  | message (text : Bytes)
  deriving DecidableEq

/-- A call to the application; `nullBody` is a call to `on_body` when it is `NULL`. -/
inductive Call where
  | informational (status : ℕ)
  | head (status : ℕ) (isEos : Bool)
  | headError (err : Err)
  | body (err : Option Err)
  | nullBody
  deriving DecidableEq

/-- What `vhttp_qpack_parse_response` gives of a header block. -/
structure Head where
  status : ℕ
  datagramFlowId : Bool

/-- The surroundings of a request: `max_frame_payload_size`, `vhttp_qpack_parse_response` (which
does not block, as the client has no dynamic table), if there is an `upgrade_to`, an
`informational_cb` and a `proceed_req`, if a datagram-flow-id has been offered, and if the
application is content with the last of these calls (`on_head` returns an `on_body`, the others
return 0). -/
structure Env where
  maxFramePayloadSize : ℕ
  parseResponse : Bytes → Except (Option Bytes) Head
  upgradeTo : Bool
  informationalCb : Bool
  proceedReq : Bool
  offeredDatagramFlowId : Bool
  content : List Call → Bool

/-- The functions that `handle_input` points to. -/
inductive HandleInput where
  | expectHeaders | expectDataFrame | dataPayload

/-- `response_state`. -/
inductive ResponseState where
  | head | body | closed
  deriving DecidableEq

/-- The states of the QUIC stream that the request reads: if the send side is open
(`quicly_sendstate_is_open`), and if both sides are complete
(`quicly_sendstate_transfer_complete`, `quicly_recvstate_transfer_complete`). -/
structure Quic where
  sendOpen : Bool
  sendComplete : Bool
  recvComplete : Bool

/-- `st_vhttp_http3client_req_t`. `stream` are the octets that have been received in order and not
processed, `onBody` tells if `on_body` is set, and `inflight` if `bytes_inflight` is not
`SIZE_MAX`. A request that is `stuck` does not leave the loop of `on_receive_process_bytes`. -/
structure Req where
  quic : Option Quic
  handleInput : HandleInput
  bytesLeftInDataFrame : ℕ
  body : Bytes
  stream : Bytes
  onBody : Bool
  inflight : Bool
  responseState : ResponseState
  calls : List Call
  cancelled : Bool
  destroyed : Bool
  stuck : Bool

variable (env : Env) (eos : Bool) (r : Req) (quic : Quic) (src : Bytes)

namespace Req

/-- A call is made. -/
def call (c : Call) : Req := { r with calls := r.calls ++ [c] }

def setState (responseState : ResponseState) : Req := { r with responseState }

def setHandler (handleInput : HandleInput) : Req := { r with handleInput }

def setQuic (quic : Option Quic) : Req := { r with quic }

def setInflight (inflight : Bool) : Req := { r with inflight }

def setStream (stream : Bytes) : Req := { r with stream }

def setOnBody (onBody : Bool) : Req := { r with onBody }

/-- So much of the DATA frame is left, and this has been received of it. -/
def receiveBody (payload : Bytes) (left : ℕ) : Req :=
  { r with body := r.body ++ payload, bytesLeftInDataFrame := left }

def setStuck : Req := { r with stuck := true }

/-- `detach_stream` and `close_stream`. -/
def detach : Req := r.setQuic none

/-- `destroy_request`. -/
def destroy : Req := { r with destroyed := true }

/-! ## Calling the application -/

/-- `on_body` is called. -/
def callBody (err : Option Err) : Req :=
  r.call (if r.onBody then .body err else .nullBody)

/-- `notify_response_error`. -/
def notifyResponseError (err : Err) : Req :=
  (match r.responseState with
    | .head => r.call (.headError err)
    | .body => r.callBody (some err)
    | .closed => r).setState .closed

/-- `call_on_body`; the application is asked for its return value afterwards. -/
def callOnBody (err : Option Err) : Req :=
  if err = none then r.callBody err else (r.callBody err).setState .closed

/-- If the application is content with the last call. -/
def content (env : Env) (r : Req) : Bool := env.content r.calls

end Req

/-! ## Processing the input -/

/-- What `handle_input` returns: 0, `vhttp_HTTP3_ERROR_INCOMPLETE`, or another error. -/
inductive Code where
  | ok | incomplete | error
  deriving DecidableEq

/-- A return value, the request and the input that is left. -/
abbrev Result := Code × Req × Bytes

namespace Req

/-- The octets of the DATA frame in the input are saved. -/
def savePayload : Req :=
  let r := r.receiveBody (src.take r.bytesLeftInDataFrame) (r.bytesLeftInDataFrame - src.length)
  if r.bytesLeftInDataFrame = 0 then r.setHandler .expectDataFrame else r

/-- The `errstr` of `handle_input_data_payload`. -/
def payloadErr (rest : Bytes) (eos : Bool) : Option Err :=
  if rest = [] ∧ eos then some (if r.bytesLeftInDataFrame = 0 then .isEos else .io) else none

/-- `handle_input_data_payload`. -/
def handleDataPayload : Result :=
  let rest := src.drop r.bytesLeftInDataFrame
  let r := r.savePayload src
  let r := r.callOnBody (r.payloadErr rest eos)
  (if r.content env then .ok else .error, r, rest)

/-- A DATA frame of this length begins. -/
def startData (length : ℕ) : Req :=
  { r with bytesLeftInDataFrame := length, handleInput := .dataPayload }

/-- `handle_input_expect_data_frame`. -/
def handleExpectDataFrame : Result :=
  if src = [] then
    if eos then (r.startData 0).handleDataPayload env eos src else (.ok, r, src)
  else
    match readFrame true env.maxFramePayloadSize src with
    | .incomplete =>
      if eos then (.incomplete, r.callOnBody (some .malformedFrame), src)
      else (.incomplete, r, src)
    | .tooLarge _ | .unexpected => (.error, r.callOnBody (some .malformedFrame), src)
    | .frame f rest =>
      match f.type with
      | .data => (r.startData f.length).handleDataPayload env eos rest
      | .headers => (if env.upgradeTo then .error else .ok, r, rest)
      | _ => (.ok, r, rest)

/-- The end of `handle_input_expect_headers`, for a final response. -/
def handleFinal (status : ℕ) (frameIsEos : Bool) (rest : Bytes) : Result :=
  let r := r.call (.head status frameIsEos)
  let r := (r.setOnBody (r.content env)).setState .body
  if r.onBody then (.ok, r.setHandler .expectDataFrame, rest)
  else (if frameIsEos then .ok else .error, r, rest)

/-- The handling of 1xx in `handle_input_expect_headers`. -/
def handleInformational (status : ℕ) (frameIsEos : Bool) (rest : Bytes) : Result :=
  if status = 101 then (.error, r.notifyResponseError (.message (ascii "unexpected 101")), rest)
  else if frameIsEos then (.ok, r.notifyResponseError .io, rest)
  else if env.informationalCb then
    let r := r.call (.informational status)
    (if r.content env then .ok else .error, r, rest)
  else (.ok, r, rest)

/-- The handling of a HEADERS frame in `handle_input_expect_headers`. -/
def handleHeaders (payload : Bytes) (frameIsEos : Bool) (rest : Bytes) : Result :=
  match env.parseResponse payload with
  | .error desc =>
    (.error, r.notifyResponseError (.message (desc.getD (ascii "qpack error"))), rest)
  | .ok head =>
    if head.datagramFlowId && !env.offeredDatagramFlowId then (.error, r, rest)
    else if 100 ≤ head.status ∧ head.status ≤ 199 then
      r.handleInformational env head.status frameIsEos rest
    else r.handleFinal env head.status frameIsEos rest

/-- `handle_input_expect_headers`. -/
def handleExpectHeaders : Result :=
  match readFrame true env.maxFramePayloadSize src with
  | .incomplete => if eos then (.ok, r.notifyResponseError .io, src) else (.incomplete, r, src)
  | .tooLarge _ | .unexpected =>
    (.error, r.notifyResponseError (.message (ascii "response header too large")), src)
  | .frame f rest =>
    match f.type with
    | .headers => r.handleHeaders env f.payload (rest = [] && eos) rest
    | .data => (.error, r, rest)
    | _ => (.ok, r, rest)

/-- `handle_input`. -/
def handle : Result :=
  match r.handleInput with
  | .expectHeaders => r.handleExpectHeaders env eos src
  | .expectDataFrame => r.handleExpectDataFrame env eos src
  | .dataPayload => r.handleDataPayload env eos src

end Req

/-- The loop of `on_receive_process_bytes`. -/
def processBytes (env : Env) (eos : Bool) : ℕ → Req → Bytes → Result
  | 0, r, src => (.error, r.setStuck, src)
  | fuel + 1, r, src =>
    match r.handle env eos src with
    | (.ok, r, rest) => if rest = [] then (.ok, r, rest) else processBytes env eos fuel r rest
    | (.incomplete, r, rest) => (if eos then .error else .ok, r, rest)
    | (.error, r, rest) => (.error, r, rest)

/-- More turns than the loop can take without being stuck. -/
def turns : ℕ := src.length + 1

namespace Req

/-! ## Callbacks of the stream -/

/-- The stream has an error and the response is not complete. -/
def closeOnError : Req :=
  let r := (r.notifyResponseError .io).detach
  if !quic.sendOpen then r.destroy
  else if r.inflight then (r.setInflight false).destroy
  else r

/-- The end of `on_receive`. -/
def afterProcess : Result → Req
  | (code, r, rest) =>
    let r := r.setStream rest
    if r.stuck then r
    else if quic.recvComplete then (if quic.sendComplete then r.detach.destroy else r)
    else if code = .error then r.closeOnError quic
    else r

/-- `on_receive`, with the octets that can now be read in order after those that have been
received. -/
def onReceive (fresh : Bytes) : Req :=
  if fresh = [] ∧ (r.stream ≠ [] ∨ ¬quic.recvComplete) then r
  else afterProcess quic
    (processBytes env quic.recvComplete (turns (r.stream ++ fresh)) r (r.stream ++ fresh))

/-- `on_stream_destroy`, which does nothing when the request is detached. -/
def onStreamDestroy : Req :=
  if r.quic = none then r else (r.notifyResponseError .io).detach.destroy

/-- `on_send_stop`, after the send side has been reset. -/
def onSendStop : Req :=
  let r := r.setInflight false
  let r := if quic.recvComplete then r else r.notifyResponseError .io
  r.detach.destroy

/-- `on_receive_reset`. -/
def onReceiveReset : Req := (r.notifyResponseError .io).detach.destroy

/-- `start_request`, when the application has given an `on_head` and the stream is `opened`. -/
def start (opened : Bool) : Req :=
  let r : Req :=
    { quic := none
      handleInput := .expectHeaders
      bytesLeftInDataFrame := 0
      body := []
      stream := []
      onBody := false
      inflight := false
      responseState := .head
      calls := []
      cancelled := false
      destroyed := false
      stuck := false }
  if opened then
    (r.setQuic (some ⟨env.proceedReq || env.upgradeTo, false, false⟩)).setInflight env.proceedReq
  else (r.notifyResponseError (.message (ascii "failed to open stream"))).destroy

/-- `do_write_req`. -/
def doWriteReq (isEndStream : Bool) : Req :=
  match r.quic with
  | none => r.destroy
  | some quic =>
    if quic.sendOpen then
      (r.setQuic (some { quic with sendOpen := !isEndStream })).setInflight true
    else if quic.recvComplete then r.detach.destroy
    else r

/-- `cancel_request`. -/
def cancel : Req := { r with quic := none, cancelled := true, destroyed := true }

end Req

/-! ## Runs -/

/-- What can happen to a request. -/
inductive Event where
  /-- Octets can be read in order after those that have been received, and it is known if they are
  the last ones. -/
  | receive (fresh : Bytes) (fin : Bool)
  /-- The peer resets its side of the stream. -/
  | reset
  /-- The peer sends STOP_SENDING. -/
  | stopSending
  /-- All that is to be sent has been sent once. -/
  | sent
  /-- The peer has acknowledged the whole request. -/
  | acked
  /-- The connection is closed. -/
  | connectionClosed
  /-- The application sends more of the request. -/
  | writeReq (isEndStream : Bool)
  /-- The application cancels the request. -/
  | cancel

/-- The stream is destroyed by quicly when both sides are complete. -/
def reap (r : Req) : Req :=
  if quic.recvComplete ∧ quic.sendComplete ∧ ¬r.stuck then r.onStreamDestroy else r

/-- An event of a request that has its stream. -/
def streamStep : Event → Option Req
  | .receive fresh fin =>
    if quic.recvComplete then none
    else
      let quic := { quic with recvComplete := fin }
      some (reap quic ((r.setQuic (some quic)).onReceive env quic fresh))
  | .reset => if quic.recvComplete then none else some r.onReceiveReset
  | .stopSending => if quic.sendOpen then some (r.onSendStop quic) else none
  | .sent => if r.inflight then some (r.setInflight false) else none
  | .acked =>
    if quic.sendOpen ∨ quic.sendComplete then none
    else
      let quic := { quic with sendComplete := true }
      some (reap quic (r.setQuic (some quic)))
  | .connectionClosed => some r.onStreamDestroy
  | .writeReq isEndStream =>
    if env.proceedReq ∧ ¬r.inflight ∧ quic.sendOpen then some (r.doWriteReq isEndStream) else none
  | .cancel => some r.cancel

/-- An event of a request without a stream. -/
def detachedStep : Event → Option Req
  | .writeReq isEndStream =>
    if env.proceedReq ∧ ¬r.inflight then some (r.doWriteReq isEndStream) else none
  | .cancel => some r.cancel
  | _ => none

/-- An event; `none` if it cannot happen. -/
def step (e : Event) : Option Req :=
  if r.destroyed ∨ r.stuck then none
  else
    match r.quic with
    | none => detachedStep env r e
    | some quic => streamStep env r quic e

/-- The requests that runs reach by events that meet a condition. -/
inductive Reach (env : Env) (ok : Req → Event → Bool) : Req → Prop where
  | start (opened : Bool) : Reach env ok (Req.start env opened)
  | step {r r' : Req} {e : Event} :
      Reach env ok r → ok r e = true → Http3Client.step env r e = some r' → Reach env ok r'

/-- A sequence of events that meet a condition. -/
def run (env : Env) (ok : Req → Event → Bool) : List Event → Req → Option Req
  | [], r => some r
  | e :: es, r => if ok r e then (step env r e).bind (run env ok es) else none

lemma Reach.run {env : Env} {ok : Req → Event → Bool} {es : List Event} {r r' : Req}
    (h : Reach env ok r) (hs : Http3Client.run env ok es r = some r') : Reach env ok r' := by
  induction es generalizing r with
  | nil =>
    cases hs
    exact h
  | cons e es ih =>
    obtain ⟨ho, hs⟩ := Option.ite_none_right_eq_some.1 hs
    obtain ⟨r1, hstep, hs⟩ := Option.bind_eq_some_iff.1 hs
    exact ih (.step h ho hstep) hs

end Vhttp.Http3Client
