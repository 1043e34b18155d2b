import Vhttp.Http1Client.Basic
import Vhttp.Lib.Items

/-!
# The FastCGI handler

`lib/handler/fastcgi.c`: the response of a FastCGI application comes in records. The contents of
the `FCGI_STDOUT` records are the header fields and the body of the response, which is sent on while
it is received.

The calls that the handler makes to the server are recorded in order. `phr_parse_headers` is a
parameter.
-/

namespace Vhttp.Fastcgi

open List
open Http1Client (Field)

/-! ## Records -/

/-- `FCGI_END_REQUEST`. -/
def endRequest : UInt8 := 3

/-- `FCGI_STDOUT`. -/
def stdout : UInt8 := 6

/-- `FCGI_STDERR`. -/
def stderr : UInt8 := 7

/-- `FCGI_RECORD_HEADER_SIZE`. -/
def recordHeaderSize : ℕ := 8

/-- `st_fcgi_record_header_t`. -/
structure RecordHeader where
  version : UInt8
  type : UInt8
  requestId : ℕ
  contentLength : ℕ
  paddingLength : ℕ
  reserved : UInt8

/-- `decode_header`; `none` if there is no complete header. -/
def decodeHeader : Bytes → Option RecordHeader
  | version :: type :: id₁ :: id₀ :: len₁ :: len₀ :: padding :: reserved :: _ =>
    some ⟨version, type, id₁.toNat * 256 + id₀.toNat, len₁.toNat * 256 + len₀.toNat,
      padding.toNat, reserved⟩
  | _ => none

/-- The type and the content of a record. -/
structure Record where
  type : UInt8
  content : Bytes
  deriving DecidableEq

/-- The size of a record. -/
def RecordHeader.recsize (h : RecordHeader) : ℕ :=
  recordHeaderSize + h.contentLength + h.paddingLength

/-- The first record of the input and its size, if it is complete. -/
def nextRecord (input : Bytes) : Option (Record × ℕ) :=
  match decodeHeader input with
  | none => none
  | some header =>
    if input.length < header.recsize then none
    else some (⟨header.type, (input.drop recordHeaderSize).take header.contentLength⟩,
      header.recsize)

lemma decodeHeader_append {input : Bytes} {header : RecordHeader}
    (h : decodeHeader input = some header) (more : Bytes) :
    decodeHeader (input ++ more) = some header := by
  unfold decodeHeader at h
  split at h
  · exact h
  · cases h

lemma nextRecord_eq_some {input : Bytes} {r : Record} {n : ℕ} :
    nextRecord input = some (r, n) ↔ ∃ header, decodeHeader input = some header ∧
      header.recsize ≤ input.length ∧ header.recsize = n ∧
        (⟨header.type, (input.drop recordHeaderSize).take header.contentLength⟩ : Record) = r := by
  unfold nextRecord
  cases hh : decodeHeader input with
  | none => simp
  | some header =>
    by_cases hlen : input.length < header.recsize
    · simp [hlen]
    · simp [hlen, and_comm, Nat.not_lt.1 hlen]

/-- The records of a stream. -/
def recordParser : Incremental.ItemParser UInt8 Record where
  next := nextRecord
  pos h := by
    obtain ⟨header, -, -, rfl, -⟩ := nextRecord_eq_some.1 h
    unfold RecordHeader.recsize recordHeaderSize
    omega
  le h := by
    obtain ⟨header, -, hle, rfl, -⟩ := nextRecord_eq_some.1 h
    exact hle
  append more h := by
    obtain ⟨header, hheader, hle, rfl, rfl⟩ := nextRecord_eq_some.1 h
    refine nextRecord_eq_some.2 ⟨header, decodeHeader_append hheader more, ?_, rfl, ?_⟩
    · rw [length_append]
      exact Nat.le_add_right_of_le hle
    · unfold RecordHeader.recsize at hle
      rw [drop_append_of_le_length (by omega), take_append_of_le_length]
      rw [length_drop]
      omega

/-! ## The head of the response -/

/-- The result of `phr_parse_headers`: -1, -2, or a length and the fields. -/
inductive ParseResult where
  | error
  | incomplete
  | complete (len : ℕ) (fields : List Field)

/-- What `fill_headers` sets of `vhttp_res_t`; a `content_length` of `SIZE_MAX` is `none`. -/
structure Head where
  status : ℕ
  reason : Bytes
  contentLength : Option ℕ
  headers : List (HeaderName × Bytes)
  deriving DecidableEq

/-- The status code and the reason of a `status` field. -/
def parseStatus (value : Bytes) : Option (ℕ × Bytes) :=
  match value with
  | a :: b :: c :: rest =>
    if !(isDigit a && isDigit b && isDigit c) || (rest ≠ [] && rest.head? ≠ some 32) then none
    else some (digitValue a * 100 + digitValue b * 10 + digitValue c,
      if value.length ≥ 5 then value.drop 4 else ascii "OK")
  | _ => none

/-- A field of the response, or the message that is logged. -/
def Head.addField (h : Head) (f : Field) : Except Bytes Head :=
  match f.headerName with
  | .token t =>
    if t.flags.proxyShouldDropForRes then .ok h
    else if t = .contentLength then
      if h.contentLength ≠ none then
        .error (ascii "received multiple content-length headers from fcgi")
      else
        match strtosize f.value with
        | none => .error (ascii "failed to parse content-length header sent from fcgi: " ++ f.value)
        | some n => .ok { h with contentLength := some n }
    else .ok { h with headers := h.headers ++ [(.token t, f.value)] }
  | .text name =>
    if name = ascii "status" then
      match parseStatus f.value with
      | none => .error (ascii "failed to parse Status header, got: " ++ f.value)
      | some (status, reason) => .ok { h with status, reason }
    else .ok { h with headers := h.headers ++ [(.text name, f.value)] }

/-- `vhttp_resp_add_date_header`, if there is no `date` field. -/
def Head.addDate (h : Head) (date : Bytes) : Head :=
  if h.headers.any (·.1 == .token .date) then h
  else { h with headers := h.headers ++ [(.token .date, date)] }

/-- `fill_headers`. -/
def fillHeaders (date : Bytes) (fields : List Field) : Except Bytes Head :=
  match fields.foldlM Head.addField ⟨200, ascii "OK", none, []⟩ with
  | .error message => .error message
  | .ok head => .ok (head.addDate date)

/-! ## The generator -/

/-- `vhttp_send_state_t`. -/
inductive SendState where
  | inProgress | final | error
  deriving DecidableEq

/-- What the handler calls. -/
inductive Call where
  | logError (message : Bytes)
  | startResponse (head : Head)
  | send (body : Bytes) (state : SendState)
  | sendError503
  | returnSocket
  | closeSocket

/-- The server the handler runs in: `phr_parse_headers` for the input and the length it had when it
was parsed before, the value of `date`, whether connections are kept alive, and the most that is
sent at once. -/
structure Env where
  parseHeaders : Bytes → ℕ → ParseResult
  date : Bytes
  keepalive : Bool
  preferredChunkSize : ℕ
  preferredChunkSize_pos : 0 < preferredChunkSize

/-- `vhttp_doublebuffer_t`. -/
structure DoubleBuffer where
  buf : Bytes
  inflight : Bool
  bytesInflight : ℕ

/-- `st_fcgi_generator_t`. `sock` has the input buffer of the socket, `timeout` tells if the timer
is linked and `disposed` if the buffers are gone. `room` is how much the response buffer may
still grow, if memory is short. -/
structure Generator where
  connecting : Bool
  sock : Option Bytes
  sentHeaders : Bool
  leftsize : Option ℕ
  sending : DoubleBuffer
  receiving : Bytes
  timeout : Bool
  disposed : Bool
  room : Option ℕ
  calls : List Call

variable (env : Env) (g : Generator)

namespace Generator

/-- A call is made. -/
def call (c : Call) : Generator := { g with calls := g.calls ++ [c] }

/-- `vhttp_req_log_error`. -/
def log (message : Bytes) : Generator := g.call (.logError message)

/-- The input buffer is changed, or the socket is gone. -/
def setSock (sock : Option Bytes) : Generator := { g with sock }

/-- The timer is linked or unlinked. -/
def setTimeout (timeout : Bool) : Generator := { g with timeout }

/-- The response buffer is changed. -/
def setReceiving (receiving : Bytes) : Generator := { g with receiving }

/-- The buffers are changed. -/
def setBuffers (sending : DoubleBuffer) (receiving : Bytes) : Generator :=
  { g with sending, receiving }

/-- The connection attempt is over. -/
def setConnected : Generator := { g with connecting := false }

/-- The response has been started with this head. -/
def setStarted (head : Head) : Generator :=
  { g with leftsize := head.contentLength, sentHeaders := true }

/-- How much memory there is. -/
def setRoom (room : Option ℕ) : Generator := { g with room }

/-- `on_req`. -/
def new : Generator where
  connecting := true
  sock := none
  sentHeaders := false
  leftsize := none
  sending := ⟨[], false, 0⟩
  receiving := []
  timeout := true
  disposed := false
  room := none
  calls := []

end Generator

/-! ## Sending -/

/-- `vhttp_doublebuffer_prepare`: what is to be sent, and the buffers. -/
def DoubleBuffer.prepare (db : DoubleBuffer) (receiving : Bytes) (maxBytes : ℕ) :
    Bytes × DoubleBuffer × Bytes :=
  if db.buf = [] then
    if receiving = [] then ([], db, receiving)
    else (receiving.take maxBytes, ⟨receiving, true, min receiving.length maxBytes⟩, [])
  else (db.buf.take maxBytes, ⟨db.buf, true, min db.buf.length maxBytes⟩, receiving)

/-- `vhttp_doublebuffer_prepare_empty`. -/
def DoubleBuffer.prepareEmpty (db : DoubleBuffer) : DoubleBuffer := { db with inflight := true }

/-- `vhttp_doublebuffer_consume`. -/
def DoubleBuffer.consume (db : DoubleBuffer) : DoubleBuffer :=
  ⟨db.buf.drop db.bytesInflight, false, 0⟩

/-- The state with which `do_send` ends the response. -/
def verdict (leftsize : Option ℕ) : SendState :=
  if leftsize = some 0 ∨ leftsize = none then .final else .error

namespace Generator

/-- The end of `do_send`, with what `vhttp_doublebuffer_prepare` returns. -/
def sendPrepared (prepared : Bytes × DoubleBuffer × Bytes) : Generator :=
  if g.sock = none ∧ prepared.1.length = prepared.2.1.buf.length ∧ prepared.2.2 = [] then
    (g.setBuffers prepared.2.1 prepared.2.2).call (.send prepared.1 (verdict g.leftsize))
  else if prepared.1 = [] then g.setBuffers prepared.2.1 prepared.2.2
  else (g.setBuffers prepared.2.1 prepared.2.2).call (.send prepared.1 .inProgress)

/-- `do_send`. -/
def doSend : Generator :=
  g.sendPrepared (g.sending.prepare g.receiving env.preferredChunkSize)

/-- `close_generator`. -/
def closeGenerator : Generator :=
  let g := if g.sock = none then g else g.call .closeSocket
  { g with
    timeout := false
    connecting := false
    sock := none
    disposed := true }

/-- `send_eos_and_close`. -/
def sendEosAndClose (canKeepalive : Bool) : Generator :=
  let g := g.call (if env.keepalive && canKeepalive then .returnSocket else .closeSocket)
  let g := (g.setSock none).setTimeout false
  if g.sending.inflight then g else g.doSend env

/-- `errorclose`. -/
def errorclose : Generator :=
  if g.sentHeaders then g.sendEosAndClose env false
  else g.closeGenerator.call .sendError503

end Generator

/-! ## Receiving -/

/-- No more than `content-length` octets are accumulated. -/
def limited (leftsize : Option ℕ) (src : Bytes) : Bytes :=
  match leftsize with
  | none => src
  | some left => src.take left

namespace Generator

/-- `append_content`; `false` if it fails. -/
def appendContent (src : Bytes) : Bool × Generator :=
  let content := limited g.leftsize src
  if content = [] then (true, g)
  else
    let g := { g with leftsize := g.leftsize.map (· - content.length) }
    match g.room with
    | none => (true, g.setReceiving (g.receiving ++ content))
    | some room =>
      if room < content.length then (false, g)
      else (true, (g.setReceiving (g.receiving ++ content)).setRoom (some (room - content.length)))

/-- `append_content` with the message that is logged. -/
def appendOrLog (src : Bytes) : Bool × Generator :=
  match g.appendContent src with
  | (true, g) => (true, g)
  | (false, g) => (false, g.log (ascii "failed to allocate memory"))

/-- The response is started with these fields, and then `rest` is done. -/
def startResponse (env : Env) (g : Generator) (fields : List Field)
    (rest : Generator → Bool × Generator) : Bool × Generator :=
  match fillHeaders env.date fields with
  | .error message => (false, g.log message)
  | .ok head => rest ((g.call (.startResponse head)).setStarted head)

/-- `handle_stdin_record`; `false` if it returns -1. -/
def handleStdinRecord (content : Bytes) : Bool × Generator :=
  if content = [] then (true, g)
  else if g.sentHeaders then g.appendOrLog content
  else if g.receiving = [] then
    match env.parseHeaders content 0 with
    | .error => (false, g.log (ascii "received broken response"))
    | .incomplete => (true, g.setReceiving content)
    | .complete len fields =>
      g.startResponse env fields fun g =>
        if content.drop len = [] then (true, g) else g.appendOrLog (content.drop len)
  else
    let received := g.receiving ++ content
    match env.parseHeaders received g.receiving.length with
    | .error => (false, (g.setReceiving received).log (ascii "received broken response"))
    | .incomplete => (true, g.setReceiving received)
    | .complete len fields =>
      (g.setReceiving received).startResponse env fields fun g =>
        (true, g.setReceiving (g.receiving.drop len))

end Generator

/-- How the loop of `on_read` goes on after a record. -/
inductive Next where
  | more (g : Generator)
  | eosReceived (g : Generator) (canKeepalive : Bool)
  | error (g : Generator)

/-- The message for a record of another type. -/
def unexpectedRecord (type : UInt8) : Bytes :=
  ascii "received unexpected record, type: " ++ ascii (toString type.toNat)

namespace Generator

/-- The `switch` of `on_read`. -/
def handleRecord (r : Record) : Next :=
  if r.type = stdout then
    match g.handleStdinRecord env r.content with
    | (true, g) => .more g
    | (false, g) => .error g
  else if r.type = stderr then .more (if r.content = [] then g else g.log r.content)
  else if r.type = endRequest then
    if g.sentHeaders then .eosReceived g true
    else .error (g.log (ascii "received FCGI_END_REQUEST before end of the headers"))
  else
    let g := g.log (unexpectedRecord r.type)
    if g.sentHeaders then .eosReceived g false else .error g

/-- The loop of `on_read`. -/
def handleRecords (env : Env) : ℕ → Generator → Bytes → Next
  | 0, g, input => .more (g.setSock (some input))
  | fuel + 1, g, input =>
    match nextRecord input with
    | none => .more (g.setSock (some input))
    | some (r, recsize) =>
      match g.handleRecord env r with
      | .more g => handleRecords env fuel g (input.drop recsize)
      | .eosReceived g canKeepalive => .eosReceived g canKeepalive
      | .error g => .error g

/-- Data is sent if necessary. -/
def sendReceived (sentHeadersBefore : Bool) : Generator :=
  if g.sentHeaders then
    if !sentHeadersBefore && g.receiving = [] then
      (g.setBuffers g.sending.prepareEmpty g.receiving).call (.send [] .inProgress)
    else if g.sending.inflight then g
    else g.doSend env
  else g

/-- `on_read` when there is no error; `input` is the input buffer with what has been read. -/
def onRead (input : Bytes) : Generator :=
  match g.handleRecords env input.length input with
  | .more g' => (g'.sendReceived env g.sentHeaders).setTimeout true
  | .eosReceived g' canKeepalive => g'.sendEosAndClose env canKeepalive
  | .error g' => g'.errorclose env

/-- `on_read` when there is an error. -/
def onReadError : Generator :=
  if g.sentHeaders then g.errorclose env
  else (g.log (ascii "fastcgi connection closed unexpectedly")).errorclose env

/-- `on_rw_timeout`, or `on_connect_timeout` if there is no connection yet. -/
def onTimeout : Generator :=
  let message := if g.connecting then ascii "connect timeout" else ascii "I/O timeout"
  ((g.setTimeout false).log message).errorclose env

/-- `on_connect`, with the message if it failed. -/
def onConnect (errstr : Option Bytes) : Generator :=
  match errstr with
  | some errstr => (g.setConnected.log (ascii "connection failed:" ++ errstr)).errorclose env
  | none => (g.setConnected.setSock (some [])).setTimeout true

/-- `do_proceed`. -/
def doProceed : Generator :=
  (g.setBuffers g.sending.consume g.receiving).doSend env

end Generator

/-! ## Runs -/

/-- What happens to a generator. `stop` is `do_stop`, or the end of the request. -/
inductive Event where
  | connect (errstr : Option Bytes)
  | sendComplete
  | read (data : Bytes) (room : Option ℕ)
  | readError
  | timeout
  | proceed
  | stop

/-- What the client gets: nothing yet, a response of which this much has been sent, a response and
how it ended, or the error response. -/
inductive Reply where
  | waiting
  | started (head : Head) (body : Bytes)
  | done (head : Head) (body : Bytes) (state : SendState)
  | unavailable
  deriving DecidableEq

/-- What a call adds to it. -/
def Reply.add : Reply → Call → Reply
  | .waiting, .startResponse head => .started head []
  | .waiting, .sendError503 => .unavailable
  | .started head body, .send more .inProgress => .started head (body ++ more)
  | .started head body, .send more state => .done head (body ++ more) state
  | reply, _ => reply

/-- What the client gets by these calls. -/
def reply (calls : List Call) : Reply := calls.foldl Reply.add .waiting

/-- The response has been ended. -/
def Generator.ended : Bool :=
  match reply g.calls with
  | .done _ _ _ => true
  | .unavailable => true
  | _ => false

/-- Callbacks that are not registered are not called, and `proceed` is called once for what was
sent, if that was not the end. -/
def possible : Event → Bool
  | .connect _ => g.connecting
  | .sendComplete => g.sock.isSome
  | .read _ _ => g.sock.isSome
  | .readError => g.sock.isSome
  | .timeout => g.timeout
  | .proceed => g.sending.inflight && !g.disposed && !g.ended
  | .stop => !g.disposed

/-- The handler of an event. -/
def handle : Event → Generator
  | .connect errstr => g.onConnect env errstr
  | .sendComplete => g.setTimeout true
  | .read data room => (g.setRoom room).onRead env (g.sock.getD [] ++ data)
  | .readError => g.onReadError env
  | .timeout => g.onTimeout env
  | .proceed => g.doProceed env
  | .stop => g.closeGenerator

/-- An event, if it is possible. -/
def step (e : Event) : Option Generator :=
  if possible g e then some (handle env g e) else none

/-- How the connection was lost. -/
inductive Cut where
  | closed | timeout
  deriving DecidableEq

/-- What the generator has seen of the application, the octets and how the connection was lost, and
whether it was stopped. -/
structure Transcript where
  stream : Bytes
  cut : Option Cut
  stopped : Bool

/-- What an event adds. -/
def Transcript.add (t : Transcript) : Event → Transcript
  | .read data _ => { t with stream := t.stream ++ data }
  | .readError => { t with cut := some .closed }
  | .connect (some _) => { t with cut := some .closed }
  | .timeout => { t with cut := some .timeout }
  | .stop => { t with stopped := true }
  | _ => t

/-- The generators that can be reached by events that are `ok`. -/
inductive Reach (env : Env) (ok : Event → Prop) : Generator → Transcript → Prop
  | new : Reach env ok .new ⟨[], none, false⟩
  | step {g g' : Generator} {t : Transcript} {e : Event} : Reach env ok g t → ok e →
    step env g e = some g' → Reach env ok g' (t.add e)

/-- Events one after another. -/
def run (es : List Event) : Option Generator := es.foldlM (step env) g

lemma Reach.run {env : Env} {ok : Event → Prop} {g g' : Generator} {t : Transcript}
    {es : List Event} (h : Reach env ok g t) (ho : ∀ e ∈ es, ok e)
    (hr : run env g es = some g') : Reach env ok g' (es.foldl Transcript.add t) := by
  induction es generalizing g t with
  | nil =>
    cases hr
    exact h
  | cons e es ih =>
    obtain ⟨g1, hstep, he⟩ := Option.bind_eq_some_iff.1 hr
    exact ih (h.step (ho e mem_cons_self) hstep) (fun e' he' => ho e' (mem_cons_of_mem _ he')) he

end Vhttp.Fastcgi
