import Vhttp.Http2Client.Events

/-!
# What the client does, one action at a time

A handler is a sequence of a few actions: a stream is written back or closed, the application is
told something, a frame is queued. `Act` lists them, with what is known when one is taken. A
property of the connection that is kept by each action, or a relation that holds over each, then
holds for every handler.

* `handled_readFrame`: every frame is handled by actions.
* `acts_step`: so is every event that makes no request.
* `beside_of_acts`: what no action of a handler touches.
-/

namespace Vhttp.Http2Client

open Option Bool Function Conn Relation.ReflTransGen
open Http2 (Err ErrorCode Frame flagEndHeaders flagEndStream typeData typeHeaders typeContinuation
  Settings windowUpdate decodeHeadersPayload decodeDataPayload)
open Hpack (HeaderTable Parsed)

variable {c c' c'' : Conn} {id : ℕ} {s s' : Stream} {env : Env} {frame : Frame}

/-! ## The response of a stream -/

/-- How far the callbacks of a stream have come. -/
inductive Phase where
  | head
  | body
  | ended
  deriving DecidableEq

/-- The phase after a callback; `none` if the callback must not come. -/
def Phase.next : Phase → Callback → Option Phase
  | p, .proceedReq _ => some p
  | .head, .informational _ _ => some .head
  | .head, .onHead none _ _ => some .body
  | .head, .onHead (some _) _ _ => some .ended
  | .body, .onBody none _ => some .body
  | .body, .onBody (some _) _ => some .ended
  | _, _ => none

/-- The phase of a stream, by the state of its response. -/
def StreamState.phase : StreamState → Phase
  | .head => .head
  | .body => .body
  | .closed => .ended

/-- The part of a stream that belongs to the response. -/
structure SameInput (s s' : Stream) : Prop where
  res : s'.res = s.res
  headers : s'.headers = s.headers
  body : s'.body = s.body
  remaining : s'.remainingContentLength = s.remainingContentLength
  forbidden : s'.messageBodyForbidden = s.messageBodyForbidden
  informationalCb : s'.informationalCb = s.informationalCb

lemma SameInput.refl (s : Stream) : SameInput s s := ⟨rfl, rfl, rfl, rfl, rfl, rfl⟩

lemma SameInput.trans {s'' : Stream} (h : SameInput s s') (h' : SameInput s' s'') :
    SameInput s s'' where
  res := h'.res.trans h.res
  headers := h'.headers.trans h.headers
  body := h'.body.trans h.body
  remaining := h'.remaining.trans h.remaining
  forbidden := h'.forbidden.trans h.forbidden
  informationalCb := h'.informationalCb.trans h.informationalCb

/-- The response of a stream is closed. -/
def Conn.resClosed (c : Conn) (id : ℕ) : Bool := (c.streams id).any (·.res == .closed)

/-! ## What a frame carries -/

/-- The checks of `handle_headers_frame` fail. -/
def headersRefused (c : Conn) (id dependency : ℕ) (isEndStream : Bool) : Prop :=
  id % 2 = 0 ∨ id = dependency ∨ (c.streams id).isNone ∧ c.maxOpenStreamId < id ∨
    (c.streams id).any (·.res == .body) ∧ !isEndStream

instance (dependency : ℕ) (isEndStream : Bool) :
    Decidable (headersRefused c id dependency isEndStream) := by
  unfold headersRefused
  exact inferInstance

/-- The header block that a frame completes for a stream, with its END_STREAM flag. -/
def blockOf (c : Conn) (id : ℕ) (frame : Frame) : Option (Bytes × Bool) :=
  if frame.streamId ≠ id ∨ frame.has flagEndHeaders = false then none
  else
    match c.readFrame with
    | .settings => none
    | .default =>
      if frame.type = typeHeaders then
        match decodeHeadersPayload frame with
        | .error _ => none
        | .ok payload =>
          if headersRefused c id payload.priority.dependency (frame.has flagEndStream) then none
          else some (payload.headers, frame.has flagEndStream)
      else none
    | .continuationOfHeaders =>
      if frame.type = typeContinuation ∧ c.resClosed id = false then
        some (c.headersUnparsed ++ frame.payload, frame.has flagEndStream)
      else none

/-- The data that a frame carries for a stream. -/
def dataOf (c : Conn) (id : ℕ) (frame : Frame) : Option Bytes :=
  if c.readFrame = .default ∧ frame.type = typeData ∧ frame.streamId = id then
    (decodeDataPayload frame).toOption
  else none

/-- A HEADERS frame that completes a block is not for a stream whose response is closed. -/
def OpenHeaders (c : Conn) (frame : Frame) : Prop :=
  c.readFrame = .default → frame.type = typeHeaders → frame.has flagEndHeaders = true →
    c.resClosed frame.streamId = false

lemma unlinkTimeout_any (c : Conn) (id j : ℕ) (state : StreamState) :
    ((unlinkTimeout c id).streams j).any (·.res == state) = (c.streams j).any (·.res == state) := by
  unfold unlinkTimeout
  cases hs : c.streams id with
  | none => rfl
  | some s =>
    by_cases hj : j = id
    · subst hj
      simp only [setStream, update_self, hs]
      rfl
    · simp only [setStream, update_of_ne hj]

/-! ## Actions -/

/-- When actions are taken. -/
structure Scope where
  /-- what is read is a part of the response of these streams -/
  news : ℕ → Prop
  /-- the application takes what it is given, and nothing comes for a closed response -/
  orderly : Prop
  /-- a DATA frame is read -/
  data : Prop
  /-- a write has completed -/
  written : Prop
  /-- no frame is being handled -/
  outside : Prop

/-- A handler, whatever it reads. -/
def Scope.handler : Scope := ⟨fun _ => True, False, True, False, False⟩

/-- An event, whatever it is. -/
def Scope.event : Scope := ⟨fun _ => True, False, True, False, True⟩

/-- What the client does at once. -/
inductive Act (σ : Scope) : Conn → Conn → Prop
  | configure {c : Conn} (table : HeaderTable) (readFrame : ReadFrame) (unparsed : Bytes)
      (settings : Settings) (window : ℤ) (inPool : Bool) (sending sent : List ℕ) :
      Act σ c { c with
        headerTable := table
        readFrame := readFrame
        headersUnparsed := unparsed
        peerSettings := settings
        outputWindow := window
        inPool := inPool
        sendingStreams := sending
        sentStreams := sent }
  | abort {c : Conn} : Act σ c c.abort
  | requestWrite {c : Conn} : Act σ c c.requestWrite
  | queue {c : Conn} (f : OutFrame) (h : ∀ id delta, f ≠ .windowUpdate id delta) :
      Act σ c (c.queue f)
  | openWindow {c : Conn} {id : ℕ} (hs : (c.streams id).isSome = true) (delta : ℤ) :
      Act σ c (c.queue (.windowUpdate id delta))
  | sendError {c : Conn} (id : ℕ) (code : ResetCode) : Act σ c (c.streamSendError id code)
  | count {c : Conn} (h : σ.data) (n : ℕ) : Act σ c (c.count n)
  | consumeWindow {c : Conn} (h : σ.data) (n : ℕ) : Act σ c (c.consumeWindow n)
  | updateConnWindow {c : Conn} (h : σ.data) : Act σ c c.updateConnWindow
  /-- a stream is written back -/
  | amend {c : Conn} {id : ℕ} {s s' : Stream} (hs : c.streams id = some s) (hreq : s'.req = s.req)
      (hres : s'.res = s.res) (hinput : σ.news id ∨ SameInput s s') : Act σ c (c.setStream id s')
  /-- all streams are -/
  | map {c : Conn} (f : Stream → Stream) (hf : ∀ s, (f s).req = s.req ∧ SameInput s (f s)) :
      Act σ c { c with streams := fun id => (c.streams id).map f }
  /-- a stream is told an error, and closed -/
  | error {c : Conn} {id : ℕ} {s s' : Stream} {err : Error} (hs : c.streams id = some s)
      (hres : s'.res = s.res) (herr : err ≠ .isEos) :
      Act σ c ((c.callCallbackWithError id s' err).closeStream id)
  | refuse {c : Conn} (last : ℕ) : Act σ c (refuseStreams c last)
  /-- a part of the response is passed on, and there is more to come -/
  | answer {c : Conn} {id : ℕ} {s s' : Stream} {cb : Callback} (hs : c.streams id = some s)
      (hnews : σ.news id) (hreq : s'.req = s.req) (hres : s'.res = .closed → s.res = .closed)
      (hnext : σ.orderly → s.res.phase.next cb = some s'.res.phase) :
      Act σ c ((c.call id cb).setStream id s')
  /-- the end of the response is passed on -/
  | finish {c : Conn} {id : ℕ} {s s' : Stream} {cb : Callback} (hs : c.streams id = some s)
      (hnews : σ.news id) (hreq : s'.req = s.req)
      (hnext : σ.orderly → s.res.phase.next cb = some .ended ∧ s'.res ≠ .closed) :
      Act σ c ((c.call id cb).closeResponse id s')
  /-- the application gives up a stream -/
  | call {c : Conn} {id : ℕ} (horderly : ¬ σ.orderly) (hnews : σ.news id) (cb : Callback) :
      Act σ c (c.call id cb)
  | reset {c : Conn} {id : ℕ} (horderly : ¬ σ.orderly) (hs : (c.streams id).isSome = true)
      (code : ResetCode) : Act σ c (c.resetStream id code)
  /-- a request has been sent, in part or as a whole -/
  | proceed {c : Conn} {id : ℕ} (hs : (c.streams id).isSome = true) :
      Act σ c (c.call id (.proceedReq none))
  | requestSent {c : Conn} {id : ℕ} {s : Stream} (h : σ.written) (hs : c.streams id = some s) :
      Act σ c (c.setStream id { s with req := .closed, timeout := true })
  /-- the flags of the timers and of the socket change -/
  | timers {c : Conn} (h : σ.outside) (ioTimeout deferTimeout writing : Bool) (input : Bytes) :
      Act σ c { c with
        ioTimeout := ioTimeout
        deferTimeout := deferTimeout
        writing := writing
        input := input }
  | stopKeepalive {c : Conn} (h : σ.outside) : Act σ c { c with keepaliveTimeout := false }
  | changeState {c : Conn} (h : σ.outside) (state : ConnState) : Act σ c { c with state := state }
  /-- all streams are told an error -/
  | tell {c : Conn} (h : σ.outside) (err : Stream → Error) (herr : ∀ s, err s ≠ .isEos) :
      Act σ c { c with
        log := fun id => c.log id ++
          ((c.streams id).map fun s => errorCallbacks s (err s)).getD [] }
  | free {c : Conn} (h : σ.outside) : Act σ c c.closeConnectionNow
  /-- what is in the buffer is written -/
  | launch {c : Conn} (h : σ.outside) (hflight : c.bufInFlight = none) :
      Act σ c { c with buf := [], bufInFlight := some c.buf }
  | land {c : Conn} (h : σ.outside) :
      Act σ c { c with bufInFlight := none, written := c.written ++ c.bufInFlight.getD [] }

/-- Actions, one after another. -/
abbrev Acts (σ : Scope) : Conn → Conn → Prop := Relation.ReflTransGen (Act σ)

variable {σ : Scope}

/-- A relation that holds over every action holds over any number of them. -/
lemma Acts.rule {R : Conn → Conn → Prop} (hre : ∀ c, R c c)
    (ht : ∀ {c c' c''}, R c c' → R c' c'' → R c c'') (ha : ∀ {c c'}, Act σ c c' → R c c')
    (h : Acts σ c c') : R c c' := by
  induction h with
  | refl => exact hre c
  | tail _ hl ih => exact ht ih (ha hl)

/-! ## What no action of a handler touches -/

/-- There is no stream in an empty place. -/
lemma no_stream {p : Prop} (h : none = some s) : p := absurd h (not_mem_none s)

/-- The state of a connection that is read from stays, unless an assertion fails. -/
def KeepsState (c c' : Conn) : Prop := c'.state = c.state ∨ c'.state = .aborted

lemma KeepsState.trans (h : KeepsState c c') (h' : KeepsState c' c'') : KeepsState c c'' := by
  rcases h' with h' | h'
  · rcases h with h | h
    · exact .inl (h'.trans h)
    · exact .inr (h'.trans h)
  · exact .inr h'

/-- What a handler leaves as it is, but for a failed assertion. -/
structure Beside (c c' : Conn) : Prop where
  maxOpen : c'.maxOpenStreamId = c.maxOpenStreamId
  state : KeepsState c c'
  writing : c'.writing = c.writing
  inFlight : c'.bufInFlight = c.bufInFlight
  defer : c.writing = true → c'.deferTimeout = c.deferTimeout

lemma Beside.refl (c : Conn) : Beside c c := ⟨rfl, .inl rfl, rfl, rfl, fun _ => rfl⟩

lemma Beside.trans (h : Beside c c') (h' : Beside c' c'') : Beside c c'' where
  maxOpen := h'.maxOpen.trans h.maxOpen
  state := h.state.trans h'.state
  writing := h'.writing.trans h.writing
  inFlight := h'.inFlight.trans h.inFlight
  defer hw := (h'.defer (h.writing.trans hw)).trans (h.defer hw)

/-- A write that is going on is not requested again. -/
lemma beside_requestWrite : Beside c c.requestWrite where
  maxOpen := rfl
  state := .inl rfl
  writing := rfl
  inFlight := rfl
  defer hw := by
    show (c.deferTimeout || (c.state != .isClosing && !c.writing)) = c.deferTimeout
    rw [hw, Bool.not_true, Bool.and_false, Bool.or_false]

lemma beside_sendError (code : ResetCode) : Beside c (c.streamSendError id code) := by
  have ht : Beside c { c with state := if c.state = .isClosing then .aborted else c.state } := by
    refine ⟨rfl, ?_, rfl, rfl, fun _ => rfl⟩
    by_cases h : c.state = .isClosing
    · exact .inr (if_pos h)
    · exact .inl (if_neg h)
  exact ht.trans ⟨rfl, .inl rfl, rfl, rfl, beside_requestWrite.defer⟩

lemma beside_of_act (hi : ¬ σ.outside) (h : Act σ c c') : Beside c c' := by
  cases h with
  | requestWrite => exact beside_requestWrite
  | sendError id code => exact beside_sendError code
  | updateConnWindow =>
    unfold updateConnWindow
    split
    · exact .refl c
    · exact ⟨rfl, .inl rfl, rfl, rfl, beside_requestWrite.defer⟩
  | finish =>
    unfold closeResponse
    split_ifs
    · exact ⟨rfl, .inr rfl, rfl, rfl, fun _ => rfl⟩
    · exact ⟨rfl, .inl rfl, rfl, rfl, fun _ => rfl⟩
    · exact ⟨rfl, .inl rfl, rfl, rfl, fun _ => rfl⟩
  | @reset id _ _ code =>
    have h : Beside c (c.streamSendError id code) := beside_sendError code
    exact ⟨h.maxOpen, h.state, h.writing, h.inFlight, h.defer⟩
  | abort => exact ⟨rfl, .inr rfl, rfl, rfl, fun _ => rfl⟩
  | timers h | stopKeepalive h | changeState h | tell h | free h | launch h | land h =>
    exact absurd h hi
  | _ => exact ⟨rfl, .inl rfl, rfl, rfl, fun _ => rfl⟩

/-- What no handler touches. -/
theorem beside_of_acts (hi : ¬ σ.outside) (h : Acts σ c c') : Beside c c' :=
  h.rule Beside.refl Beside.trans (beside_of_act hi)

variable {err : Error} {payload : Bytes} {reply : ℕ → ProceedReply} {x : Conn × Ret}

lemma error_closeStream_streams :
    ((c.callCallbackWithError id s err).closeStream id).streams = (c.closeStream id).streams :=
  update_idem _ _ _

/-! ## Header blocks -/

lemma acts_setTable (table : HeaderTable) : Acts σ c (c.setTable table) :=
  .single (.configure table _ _ _ _ _ _ _)

/-- The stream is told an error, reset and closed. -/
lemma acts_failStream (hs : c.streams id = some s) (he : s'.res = s.res)
    (her : err ≠ .isEos) (code : ResetCode) : Acts σ c (c.failStream id s' err code) :=
  .tail (.single (.error hs he her)) (.sendError id code)

lemma acts_call_reset (ho : ¬ σ.orderly) (hnw : σ.news id) (hs : c.streams id = some s)
    (cb : Callback) (code : ResetCode) : Acts σ c ((c.call id cb).resetStream id code) := by
  have hs1 : (c.call id cb).streams id = some s := hs
  exact .tail (.single (.call ho hnw cb)) (.reset ho (isSome_of_eq_some hs1) code)

lemma Env.of_accepts (h : env.accepts = true) :
    (env.informationalOk = true ∧ env.onHeadOk = true) ∧ env.onBodyOk = true := by
  simpa only [Env.accepts, and_eq_true] using h

variable (hnw : σ.news id) (hs : c.streams id = some s) (hr : s'.req = s.req)
  (he : s'.res = s.res) (ho : σ.orderly → env.accepts = true ∧ s.res = .head)
include hnw hs hr he ho

lemma acts_onInformational : Acts σ c (onInformational c id s' env) := by
  unfold onInformational
  split_ifs with _ _ hk
  · exact acts_failStream hs he (by decide) _
  · exact .single (.amend hs hr he (.inl hnw))
  · refine .single (.answer hs hnw hr (fun h => he.symm.trans h) fun h => ?_)
    rw [he, (ho h).2]
    rfl
  · exact acts_call_reset (fun h => hk (Env.of_accepts (ho h).1).1.1) hnw hs _ _

lemma acts_deliverHead (isEndStream : Bool) : Acts σ c (deliverHead c id s' isEndStream env) := by
  unfold deliverHead
  split_ifs with hn hk
  · refine .single (.finish hs hnw hr fun h => ?_)
    rw [he, (ho h).2]
    exact ⟨rfl, nofun⟩
  · refine acts_call_reset (fun h => ?_) hnw hs _ _
    rw [(Env.of_accepts (ho h).1).1.2] at hk
    cases hk
  · apply single
    apply Act.answer hs hnw
    · exact hr
    · exact nofun
    · intro h
      rw [(ho h).2]
      rfl

lemma acts_onFinalHead (isEndStream : Bool) : Acts σ c (onFinalHead c id s' isEndStream env) := by
  unfold onFinalHead
  dsimp only
  split
  · apply acts_failStream hs
    · exact he
    · decide
  · apply acts_deliverHead hnw hs
    · exact hr
    · exact he
    · exact ho

omit hs hr he ho

lemma acts_onHeadParsed
    (ho : σ.orderly → env.accepts = true ∧ ∀ s, c.streams id = some s → s.res = .head)
    (parsed : Parsed) (isEndStream : Bool) :
    Acts σ c (onHeadParsed c id parsed isEndStream env) := by
  unfold onHeadParsed
  cases hs : c.streams id with
  | none =>
    dsimp only
    split
    · exact .single .abort
    · exact .refl
  | some s =>
    have ho' : σ.orderly → env.accepts = true ∧ s.res = .head :=
      fun h => ⟨(ho h).1, (ho h).2 s hs⟩
    dsimp only
    split_ifs
    · apply acts_failStream hs
      · rfl
      · decide
    · apply acts_onInformational hnw hs
      · rfl
      · rfl
      · exact ho'
    · apply acts_onFinalHead hnw hs
      · rfl
      · rfl
      · exact ho'

lemma acts_onTrailersParsed (hs : c.streams id = some s)
    (ho : σ.orderly → env.accepts = true) (hb : s.res = .body) (parsed : Parsed) :
    Acts σ c (onTrailersParsed c id s parsed env) := by
  unfold onTrailersParsed
  split_ifs with _ hk
  · apply acts_failStream hs
    · rfl
    · decide
  · apply single
    apply Act.finish hs hnw
    · rfl
    · rw [hb]
      exact fun _ => ⟨rfl, nofun⟩
  · exact acts_call_reset (fun h => hk (Env.of_accepts (ho h)).2) hnw hs _ _

omit hnw

/-- Actions, and an error before anything is done to the connection. -/
structure Handled (σ : Scope) (c : Conn) (x : Conn × Ret) : Prop where
  acts : Acts σ c x.1
  error : x.2 ≠ none → x.1.state = c.state

lemma Handled.ok (h : Acts σ c c') : Handled σ c (c', none) := ⟨h, fun h => absurd rfl h⟩

lemma Handled.failed (c : Conn) (e : Err) : Handled σ c (c, some e) := ⟨.refl, fun _ => rfl⟩

/-- What happens before a handler is called. -/
lemma Handled.after (h : Acts σ c c') (ht : c'.state = c.state)
    (hx : Handled σ c' x) : Handled σ c x :=
  ⟨h.trans hx.acts, fun her => (hx.error her).trans ht⟩

lemma handled_onHeaderBlock (hnw : σ.news id)
    (ho : σ.orderly → env.accepts = true ∧ c.resClosed id = false) (block : Bytes)
    (isEndStream : Bool) : Handled σ c (onHeaderBlock c id block isEndStream env) := by
  have hh : (∀ s, c.streams id = some s → s.res ≠ .body) →
      Handled σ c (onHead c id block isEndStream env) := by
    intro hb
    unfold onHead
    split
    · exact .failed c _
    · next parsed _ =>
      refine .ok ((acts_setTable parsed.table).trans (acts_onHeadParsed hnw (fun h => ?_) _ _))
      refine ⟨(ho h).1, fun s hs => ?_⟩
      have hs : c.streams id = some s := hs
      have hp := (ho h).2
      unfold resClosed at hp
      rw [hs, any_some] at hp
      cases he : s.res with
      | head => rfl
      | body => exact absurd he (hb s hs)
      | closed =>
        rw [he] at hp
        cases hp
  unfold onHeaderBlock
  cases hs : c.streams id with
  | none => exact hh fun s hs' => nomatch hs.symm.trans hs'
  | some s =>
    dsimp only
    split
    · next hb =>
      unfold onTrailers
      split
      · exact .failed c _
      · next parsed _ =>
        have hs1 : (c.setTable parsed.table).streams id = some s := hs
        exact .ok ((acts_setTable parsed.table).trans
          (acts_onTrailersParsed hnw hs1 (fun h => (ho h).1) hb parsed))
    · next hb =>
      refine hh fun s' hs' => ?_
      obtain rfl := some.inj (hs.symm.trans hs')
      exact hb

lemma acts_unlinkTimeout : Acts σ c (unlinkTimeout c id) := by
  unfold unlinkTimeout
  split
  · next s hs => exact .single (.amend hs rfl rfl (.inr ⟨rfl, rfl, rfl, rfl, rfl, rfl⟩))
  · exact .refl

/-- A frame that gives a stream a header block does so when nothing has come for it, if that is
asked for. -/
lemma handled_handleHeadersFrame (hrd : c.readFrame = .default) (hy : frame.type = typeHeaders)
    (hnw : (blockOf c frame.streamId frame).isSome = true → σ.news frame.streamId)
    (ho : σ.orderly → env.accepts = true ∧ OpenHeaders c frame) :
    Handled σ c (handleHeadersFrame c frame env) := by
  unfold handleHeadersFrame
  cases hp : decodeHeadersPayload frame with
  | error e => exact .failed c _
  | ok payload =>
    have hst : (unlinkTimeout c frame.streamId).state = c.state := by
      unfold unlinkTimeout
      split <;> rfl
    unfold handleHeaders
    dsimp only
    rw [unlinkTimeout_any]
    split
    · exact .failed c _
    split
    · exact .failed c _
    split
    · exact .failed c _
    refine .after acts_unlinkTimeout hst ?_
    split
    · exact .failed _ _
    split
    · exact .ok (.single (.configure _ .continuationOfHeaders payload.headers _ _ _ _ _))
    · next hd hl hi ht hn =>
      have hn : frame.has flagEndHeaders = true := by simpa using hn
      refine handled_onHeaderBlock (hnw ?_) (fun h => ⟨(ho h).1, ?_⟩) _ _
      · unfold blockOf
        rw [if_neg (by simp [hn]), hrd]
        rw [if_pos hy, hp]
        dsimp only
        rw [if_neg]
        · rfl
        · rintro (h | h | h | h)
          · exact hd h
          · exact hl h
          · exact hi h
          · exact ht h
      · rw [resClosed, unlinkTimeout_any]
        exact (ho h).2 hrd hy hn

lemma handled_expectContinuation (hrd : c.readFrame = .continuationOfHeaders)
    (hnw : (blockOf c frame.streamId frame).isSome = true → σ.news frame.streamId)
    (ho : σ.orderly → env.accepts = true) :
    Handled σ c (expectContinuationOfHeaders c frame env) := by
  unfold expectContinuationOfHeaders
  split
  · exact .failed c _
  split
  · exact .failed c _
  next ht hp =>
  have hp : c.resClosed frame.streamId = false := eq_false_iff.2 hp
  split
  · next hn =>
    have hd : Acts σ c { c with readFrame := .default, headersUnparsed := [] } :=
      .single (.configure _ .default [] _ _ _ _ _)
    refine .after hd rfl (handled_onHeaderBlock (hnw ?_) ?_ _ _)
    rotate_left
    · exact fun h => ⟨ho h, hp⟩
    unfold blockOf
    rw [if_neg (by simp [hn]), hrd]
    dsimp only
    rw [if_pos ⟨not_not.1 ht, hp⟩]
    rfl
  · exact .ok (.single (.configure _ _ _ _ _ _ _ _))

/-! ## DATA frames -/

lemma dataError_ne_eos {code : ResetCode}
    (h : dataError c s payload = some (err, code)) : err ≠ .isEos := by
  unfold dataError at h
  split_ifs at h <;> cases h <;> decide

lemma dataError_body (h : dataError c s payload = none) : s.res = .body := by
  unfold dataError at h
  split_ifs at h with he
  exact not_not.1 he

lemma acts_updateWindow (hs : c.streams id = some s) : Acts σ c (c.updateWindow id s) := by
  unfold updateWindow
  split
  · exact .single .abort
  split
  · exact .refl
  · next delta _ =>
    exact .tail (.tail (.single (.openWindow (isSome_of_eq_some hs) delta)) .requestWrite)
      (.amend hs rfl rfl (.inr ⟨rfl, rfl, rfl, rfl, rfl, rfl⟩))

lemma acts_acceptData (hd : σ.data) (hnw : σ.news id)
    (hs : c.streams id = some s) (hb : s.res = .body)
    (ho : σ.orderly → env.accepts = true) (payload : Bytes) (isFinal : Bool) :
    Acts σ c (acceptData c id s payload isFinal env) := by
  have hs1 : (c.consumeWindow payload.length).streams id = some s := hs
  refine head (.consumeWindow hd payload.length) ?_
  unfold acceptData
  dsimp only
  split
  · next hk =>
    refine acts_call_reset (fun h => ?_) hnw hs1 _ _
    rw [(Env.of_accepts (ho h)).2] at hk
    cases hk
  have he : (s.receive payload env.consumed).res = .body := hb
  cases isFinal with
  | true =>
    refine .single (.finish hs1 hnw ?_ fun _ => ?_)
    · rfl
    · rw [hb, he]
      exact ⟨rfl, nofun⟩
  | false =>
    have ha : Act σ (c.consumeWindow payload.length)
        (((c.consumeWindow payload.length).call id (.onBody none [])).setStream id
          (s.receive payload env.consumed)) := by
      refine .answer hs1 hnw rfl (fun h => hb.trans (he.symm.trans h)) fun _ => ?_
      rw [hb, he]
      rfl
    refine .head ha (.head (.updateConnWindow hd) (acts_updateWindow ?_))
    rw [updateConnWindow_streams]
    exact setStream_self

lemma handled_handleDataFrame (hrd : c.readFrame = .default) (ht : frame.type = typeData)
    (hd : σ.data) (hnw : (dataOf c frame.streamId frame).isSome = true →
      (∃ s, c.streams frame.streamId = some s ∧ s.res = .body) → σ.news frame.streamId)
    (ho : σ.orderly → env.accepts = true) : Handled σ c (handleDataFrame c frame env) := by
  unfold handleDataFrame
  dsimp only
  refine .after (.single (.count hd frame.payload.length)) rfl ?_
  cases hp : decodeDataPayload frame with
  | error e => exact .failed _ _
  | ok payload =>
    unfold handleData
    cases hs : (c.count frame.payload.length).streams frame.streamId with
    | none =>
      dsimp only
      split
      · exact .ok (.tail (.single (.consumeWindow hd _)) (.updateConnWindow hd))
      · exact .failed _ _
    | some s =>
      dsimp only
      split
      · next her => exact .ok (acts_failStream hs rfl (dataError_ne_eos her) _)
      · next her =>
        have hb := dataError_body her
        refine .ok (acts_acceptData hd (hnw ?_ ⟨s, hs, hb⟩) hs hb ho _ _)
        unfold dataOf
        rw [if_pos ⟨hrd, ht, rfl⟩, hp]
        rfl

/-! ## The other frames -/

lemma handled_handleRstStreamFrame : Handled σ c (handleRstStreamFrame c frame) := by
  unfold handleRstStreamFrame
  split
  · exact .failed c _
  split
  · exact .failed c _
  split
  · exact .ok .refl
  · next s hs =>
    refine .ok (.single (.error hs rfl ?_))
    split <;> exact nofun

lemma acts_resumeWriting (room : ℕ) : Acts σ c (resumeWriting c room) := by
  unfold resumeWriting
  split
  · exact .single .requestWrite
  · exact .refl

lemma acts_updateAllOutputWindows (delta : ℤ) : Acts σ c (updateAllOutputWindows c delta) := by
  have hm : Act σ c { c with streams := fun id => (c.streams id).map fun s =>
      { s with outputWindow := (windowUpdate s.outputWindow delta).getD s.outputWindow } } :=
    .map _ fun _ => ⟨rfl, rfl, rfl, rfl, rfl, rfl, rfl⟩
  exact .tail (.single hm) (.configure _ _ _ _ _ _ _ _)

lemma handled_handleSettingsFrame : Handled σ c (handleSettingsFrame c frame env) := by
  unfold handleSettingsFrame
  split
  · exact .failed c _
  split
  · split
    · exact .failed c _
    · exact .ok .refl
  split
  · exact .failed c _
  · next settings _ =>
    have ha : Acts σ c ((c.setPeerSettings settings).queue .settingsAck).requestWrite :=
      .tail (.tail (.single (.configure _ _ _ settings _ _ _ _)) (.queue .settingsAck nofun))
        .requestWrite
    dsimp only
    split
    · exact .ok ha
    · exact .ok (ha.trans ((acts_updateAllOutputWindows _).trans (acts_resumeWriting _)))

lemma acts_updateStreamOutputWindow (hs : c.streams id = some s) {delta : ℤ}
    (h : updateStreamOutputWindow c id s delta = some c') : Acts σ c c' := by
  obtain ⟨window, -, rfl⟩ := map_eq_some_iff.1 h
  have ht : Act σ c (c.setStream id { s with outputWindow := window }) :=
    .amend hs rfl rfl (.inr ⟨rfl, rfl, rfl, rfl, rfl, rfl⟩)
  exact .tail (.single ht) (.configure _ _ _ _ _ _ _ _)

lemma handled_handleWindowUpdateFrame : Handled σ c (handleWindowUpdateFrame c frame env) := by
  unfold handleWindowUpdateFrame
  split
  · split
    · unfold failWindowUpdate
      split
      · next s hs => exact .ok (acts_failStream hs rfl (by decide) _)
      · exact .ok (.single (.sendError _ _))
    · exact .failed c _
  split
  · split
    · exact .failed c _
    · next window _ =>
      exact .ok (.head (.configure _ _ _ _ window _ _ _) (acts_resumeWriting _))
  split
  · split
    · exact .ok (acts_resumeWriting _)
    · next s hs =>
      split
      · exact .ok (acts_failStream hs rfl (by decide) _)
      · next c' hc' =>
        exact .ok ((acts_updateStreamOutputWindow hs hc').trans (acts_resumeWriting _))
  · exact .failed c _

/-- Every frame is handled by actions. -/
theorem handled_readFrame (hdt : c.readFrame = .default → frame.type = typeData → σ.data)
    (hb : (blockOf c frame.streamId frame).isSome = true → σ.news frame.streamId)
    (hbd : (dataOf c frame.streamId frame).isSome = true →
      (∃ s, c.streams frame.streamId = some s ∧ s.res = .body) → σ.news frame.streamId)
    (ho : σ.orderly → env.accepts = true ∧ OpenHeaders c frame) :
    Handled σ c (readFrame c frame env) := by
  unfold readFrame
  cases hd : c.readFrame with
  | settings =>
    dsimp only
    unfold expectSettings
    split
    · exact .failed c _
    · have h : Handled σ c (handleSettingsFrame c frame env) := handled_handleSettingsFrame
      split
      · next hq => exact hq ▸ h
      · next hq =>
        rw [hq] at h
        exact .ok (h.acts.tail (.configure _ .default _ _ _ _ _ _))
  | default =>
    dsimp only
    unfold expectDefault
    split
    · next ht =>
      exact handled_handleDataFrame hd ht (hdt hd ht) hbd fun h => (ho h).1
    · next ht => exact handled_handleHeadersFrame hd ht hb ho
    · unfold handlePriorityFrame
      split
      · exact .failed c _
      split
      · exact .failed c _
      · exact .ok .refl
    · exact handled_handleRstStreamFrame
    · exact handled_handleSettingsFrame
    · exact .failed c _
    · unfold handlePingFrame
      split
      · exact .failed c _
      split
      · exact .ok .refl
      · exact .ok (.tail (.single (.queue (.ping _) nofun)) .requestWrite)
    · unfold handleGoawayFrame
      split
      · exact .failed c _
      · exact .ok (.tail (.single (.refuse _)) (.configure _ _ _ _ _ false _ _))
    · exact handled_handleWindowUpdateFrame
    · exact .failed c _
    · exact .ok .refl
  | continuationOfHeaders =>
    exact handled_expectContinuation hd hb fun h => (ho h).1

/-! ## Closing -/

variable (hu : σ.outside)
include hu

lemma acts_closeConnectionIfNecessary : Acts σ c c.closeConnectionIfNecessary := by
  unfold closeConnectionIfNecessary
  split
  · exact .single (.free hu)
  · exact .refl

lemma acts_closeConnection : Acts σ c c.closeConnection := by
  unfold closeConnection
  split
  · exact .single (.changeState hu _)
  · exact .single (.free hu)

lemma acts_callAll (her : err ≠ .isEos) : Acts σ c (c.callStreamCallbacksWithError err) :=
  .tail (.single (.tell hu (fun _ => err) fun _ => her))
    (.map afterError fun _ => ⟨rfl, rfl, rfl, rfl, rfl, rfl, rfl⟩)

lemma acts_enqueueGoaway (code : Option ErrorCode) (desc : Option String) :
    Acts σ c (c.enqueueGoaway code desc) := by
  unfold enqueueGoaway
  split
  · exact .refl
  · exact .tail (.tail (.tail (.single (.queue (.goaway code desc) fun _ => nofun)) .requestWrite)
      (.changeState hu .halfClosed)) (.configure _ _ _ _ _ false _ _)

lemma acts_connectionError (e : Err) : Acts σ c (c.connectionError e) := by
  unfold connectionError
  refine .trans ?_ ((acts_callAll hu (by decide)).trans (acts_closeConnection hu))
  split
  · exact .refl
  · exact acts_enqueueGoaway hu _ _

lemma acts_settle (h : Acts σ c x.1) : Acts σ c (settle x) := by
  obtain ⟨c', ret⟩ := x
  cases ret with
  | none => exact h
  | some e => exact h.trans (acts_connectionError hu e)

omit hu

/-! ## Writing -/

lemma acts_amend (hs : c.streams id = some s) (hr : s'.req = s.req) (h : SameInput s s') :
    Acts σ c (c.setStream id s') := .single (.amend hs hr h.res (.inr h))

lemma acts_sendData (hs : c.streams id = some s) (payload : Bytes) (endStream : Bool)
    (window : ℤ) (hr : s'.req = s.req) (h : SameInput s s') :
    Acts σ c (Conn.setStream
      { c.queue (.data id payload endStream) with outputWindow := window } id s') := by
  have hq : Acts σ c { c.queue (.data id payload endStream) with outputWindow := window } :=
    .tail (.single (.queue (.data id payload endStream) nofun)) (.configure _ _ _ _ window _ _ _)
  exact hq.trans (acts_amend hs hr h)

/-- A round of `do_emit_writereq` writes the stream back and puts it in one of the lists. -/
lemma emitStream_induct {P : Conn → Prop} {room : ℕ → ℕ} (hn : P c)
    (hs : ∀ s, c.streams id = some s → P (c.setStream id s))
    (he : ∀ s buf, c.streams id = some s →
      P ((streamEmitPendingData c id s buf (room id)).1.setStream id
        (streamEmitPendingData c id s buf (room id)).2))
    (hl : ∀ {c : Conn} sent sending, P c →
      P { c with sentStreams := sent, sendingStreams := sending }) : P (emitStream room c id) := by
  unfold emitStream
  cases hc : c.streams id with
  | none => exact hn
  | some s =>
    dsimp only
    cases s.outputBuf with
    | none =>
      have h := hs s hc
      split_ifs
      exacts [hl _ _ h, hl _ _ h, h]
    | some buf =>
      have h := he s buf hc
      split_ifs
      exacts [hl _ _ h, hl _ _ h, h]

lemma acts_emitStream (room : ℕ → ℕ) : Acts σ c (emitStream room c id) := by
  refine emitStream_induct .refl (fun s hs => acts_amend hs rfl (.refl s)) (fun s buf hs => ?_)
    fun _ _ h => h.tail (.configure _ _ _ _ _ _ _ _)
  unfold streamEmitPendingData
  dsimp only
  split
  · exact acts_amend hs rfl (.refl s)
  · apply acts_sendData hs
    · rfl
    · exact ⟨rfl, rfl, rfl, rfl, rfl, rfl⟩

lemma acts_emitStreams (room : ℕ → ℕ) (ids : List ℕ) :
    Acts σ c (ids.foldl (emitStream room) c) := by
  induction ids generalizing c with
  | nil => exact .refl
  | cons id ids ih => exact (acts_emitStream room).trans ih

lemma acts_doEmitWritereq (hu : σ.outside) (room : ℕ → ℕ) : Acts σ c (doEmitWritereq c room) := by
  have hi : ∀ σ : Scope, Acts σ c
      (c.sendingStreams.foldl (emitStream room) { c with sendingStreams := [] }) := fun _ =>
    .trans (.single (.configure _ _ _ _ _ _ [] _)) (acts_emitStreams room c.sendingStreams)
  unfold doEmitWritereq
  split
  · exact .single .abort
  next hf =>
  -- the loop only fills the buffer
  have hb := beside_of_acts id (hi ⟨fun _ => False, False, False, False, False⟩)
  dsimp only
  split
  · exact hi σ
  · refine .tail (.tail (hi σ) (.launch hu ?_)) (.timers hu true _ true _)
    rw [hb.inFlight]
    simpa using hf

lemma acts_doWriteReq (hs : c.streams id = some s) (chunk : Bytes) (isEndStream : Bool) :
    Acts σ c (doWriteReq c id s chunk isEndStream) := by
  unfold doWriteReq
  refine .tail (.tail (b := c.setStream id _) ?_ (.configure _ _ _ _ _ _ _ _)) .requestWrite
  exact acts_amend hs rfl ⟨rfl, rfl, rfl, rfl, rfl, rfl⟩

lemma acts_finishRequest (hw : σ.written) : Acts σ c (finishRequest c id) := by
  unfold finishRequest
  split
  · exact .refl
  · next s hs =>
    split
    · exact .single (.requestSent hw hs)
    · exact .refl

lemma acts_proceedStream (hw : σ.written)
    (ho : σ.orderly → reply id ≠ .cancel) : Acts σ c (proceedStream reply c id) := by
  unfold proceedStream
  split
  · exact .refl
  · next s hs =>
    split
    · have ha : Acts σ c (c.call id (.proceedReq none)) :=
        .single (.proceed (isSome_of_eq_some hs))
      have hs1 : (c.call id (.proceedReq none)).streams id = some s := hs
      refine ha.trans ?_
      split
      · exact acts_finishRequest hw
      · exact (acts_doWriteReq hs1 _ _).trans (acts_finishRequest hw)
      · next hc =>
        exact .single (.reset (fun h => ho h hc) (isSome_of_eq_some hs1) _)
    · exact acts_finishRequest hw

lemma acts_proceedStreams (hw : σ.written)
    (ho : σ.orderly → ∀ id, reply id ≠ .cancel) (ids : List ℕ) :
    Acts σ c (ids.foldl (proceedStream reply) c) := by
  induction ids generalizing c with
  | nil => exact .refl
  | cons id ids ih => exact (acts_proceedStream hw fun h => ho h id).trans ih

include hu

lemma acts_continueWriting (room : ℕ → ℕ) : Acts σ c (continueWriting c room) := by
  unfold continueWriting
  split
  · split
    · exact .single .abort
    · exact acts_closeConnectionIfNecessary hu
  split
  · exact .single (.timers hu _ false true _)
  · exact .head (.timers hu _ false _ _)
      ((acts_doEmitWritereq hu room).trans (acts_closeConnectionIfNecessary hu))

lemma acts_flushAfterRead (room : ℕ → ℕ) : Acts σ c (flushAfterRead c room) := by
  unfold flushAfterRead
  split
  · exact .refl
  · refine .tail (b := if _ then _ else c) ?_ (.timers hu true _ _ _)
    split
    · exact .head (.timers hu _ false _ _) (acts_doEmitWritereq hu room)
    · exact .refl

omit hu

/-! ## Events -/

/-- The loop of `parse_input`. -/
lemma acts_parseInput {n : ℕ} {env : ℕ → Env} : Acts .event c (parseInput n c env) := by
  induction n generalizing c env with
  | zero => exact .refl
  | succ n ih =>
    rw [parseInput]
    split
    · exact .refl
    · exact acts_connectionError trivial _
    · next frame _ =>
      have hf : Acts .event c (onFrame c frame (env 0)) :=
        acts_settle trivial (handled_readFrame (fun _ _ => trivial) (fun _ => trivial)
          (fun _ _ => trivial) False.elim).acts
      dsimp only
      split
      · exact hf.trans (.head (.timers trivial _ _ _ _) ih)
      · exact hf

/-- The events that do not begin or end a request, and read nothing. -/
theorem acts_step (hu : σ.outside) (hnw : ∀ id, σ.news id) {e : Event} (hstep : step c e = some c')
    (hc : ∀ r, e ≠ .connect r) (hd : ∀ data env room, e ≠ .read data env room)
    (hw : ∀ reply room, e ≠ .writeComplete reply room)
    (ha : σ.orderly → ∀ id, e ≠ .cancel id) : Acts σ c c' := by
  cases e with
  | connect r => exact absurd rfl (hc r)
  | read data env room => exact absurd rfl (hd data env room)
  | writeComplete reply room => exact absurd rfl (hw reply room)
  | readError =>
    obtain ⟨-, rfl⟩ := of_guard hstep
    exact .head (.timers hu false _ _ _)
      ((acts_callAll hu (by decide)).trans (acts_closeConnection hu))
  | writeError =>
    obtain ⟨-, rfl⟩ := of_guard hstep
    unfold onWriteError
    split
    · exact .single (.free hu)
    · exact .tail (acts_callAll hu (by decide)) (.free hu)
  | notifyWrite failed room =>
    obtain ⟨-, rfl⟩ := of_guard hstep
    unfold onNotifyWrite
    split
    · exact .tail (acts_callAll hu (by decide)) (.free hu)
    · exact .head (.timers hu _ _ false _)
        ((acts_doEmitWritereq hu room).trans (acts_closeConnectionIfNecessary hu))
  | deferTimeout room =>
    obtain ⟨-, rfl⟩ := of_guard hstep
    exact .head (.timers hu _ false _ _) (acts_doEmitWritereq hu room)
  | streamTimeout id =>
    obtain ⟨s, hs, -, rfl⟩ := of_streamGuard hstep
    refine .single (.error hs rfl ?_)
    split <;> decide
  | ioTimeout =>
    obtain ⟨-, rfl⟩ := of_guard hstep
    refine .tail (.single (.tell hu _ fun s => ?_)) (.free hu)
    split <;> decide
  | keepaliveTimeout =>
    obtain ⟨-, rfl⟩ := of_guard hstep
    exact .head (.stopKeepalive hu) ((acts_enqueueGoaway hu none none).trans
      (.head .requestWrite (acts_closeConnection hu)))
  | writeReq id chunk isEndStream =>
    obtain ⟨s, hs, -, rfl⟩ := of_streamGuard hstep
    exact acts_doWriteReq hs _ _
  | cancel id =>
    obtain ⟨⟨-, hs⟩, rfl⟩ := of_guard hstep
    exact .single (.reset (fun h => ha h id rfl) hs _)
  | consume id n =>
    obtain ⟨s, hs, -, rfl⟩ := of_streamGuard hstep
    have ht : Act σ c (c.setStream id { s with body := s.body.drop n }) :=
      .amend hs rfl rfl (.inl (hnw id))
    exact .head ht (acts_updateWindow setStream_self)

end Vhttp.Http2Client
