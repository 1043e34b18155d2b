import Vhttp.Http2.Lifecycle.Ledger

/-!
# What the functions of a stream do

One lemma for each function that works on a stream: when it succeeds, and what the stream is
afterwards. The slot and `blocked_by_server` are left open here; the counters change with them
(`Becomes`).

* `setState_becomes`, `streamReset_becomes`: the state machine, and the end of a stream.
* `processRequest_becomes`, `executeOrEnqueueRequest_becomes`: requests.
* `sendBody_answers`, `startResponse_answers`: responses.
-/

namespace Vhttp.Http2.Lifecycle.Cell

open Option Lifecycle.Stream

open Option (bind_eq_some_iff ite_none_right_eq_some)

variable {ctx : Ctx} {c c' : Cell} {r : Response}

/-- The stream becomes `s`, up to the slot and `blocked_by_server`, and the counters follow. -/
def Becomes (c c' : Cell) (s : Stream) : Prop :=
  Settles c c' ∧ ∃ num slot blocked, c' = { c with num := num, stream := { s with
    slot := slot, blockedByServer := blocked } }

lemma Becomes.refl : Becomes c c c.stream := ⟨.refl, _, _, _, rfl⟩

lemma Becomes.put {c1 : Cell} {s s1 : Stream} (h : Becomes c c1 s1)
    (hs : s.counted = c1.stream.counted) : Becomes c { c1 with stream := s } s := by
  obtain ⟨he, _, _, _, rfl⟩ := h
  exact ⟨he.trans (.of_stream hs), _, _, _, rfl⟩

lemma setBlockedByServer_becomes {on : Bool} (h : c.setBlockedByServer on = some c') :
    Becomes c c' c.stream := by
  refine ⟨setBlockedByServer_settles h, ?_⟩
  unfold setBlockedByServer at h
  split at h <;> cases h
  exact ⟨_, _, _, rfl⟩

lemma ensureBlocked_becomes (h : c.ensureBlocked = some c') : Becomes c c' c.stream := by
  unfold ensureBlocked at h
  split at h
  · cases h
    exact .refl
  · exact setBlockedByServer_becomes h

lemma ensureUnblocked_becomes (h : c.ensureUnblocked = some c') : Becomes c c' c.stream := by
  unfold ensureUnblocked at h
  split at h
  · exact setBlockedByServer_becomes h
  · cases h
    exact .refl

/-- The states that a stream comes from. -/
def Follows (old : StreamState) : StreamState → Prop
  | .idle => False
  | .recvHeaders => old = .idle
  | .recvBody | .reqPending => True
  | .sendHeaders => old = .reqPending
  | .sendBody => old = .sendHeaders
  | .sendBodyIsFinal => old = .sendBody
  | .endStream => old ≠ .endStream

lemma leaveCounters_eq {slot : Slot} (h : c.leaveCounters slot = some c') :
    c.stream.state ≠ .endStream ∧ ∃ num, c' = { c with num := num } := by
  unfold leaveCounters at h
  split at h
  case h_8 => cases h
  all_goals
    next hs =>
    cases h
    exact ⟨by simp [hs], _, rfl⟩

variable {active readOk : Bool} {c1 : Cell} {frame : Option ℕ} {list : LinkList} {room : ℕ}
  {state : StreamState}

/-- A request may become pending before its response is started. -/
theorem setState_becomes (h : c.setState state = some c')
    (ht : state = .recvBody ∨ state = .reqPending → c.stream.state = .recvHeaders ∨
      c.stream.state = .recvBody ∨ c.stream.state = .reqPending) :
    Follows c.stream.state state ∧ Becomes c c' { c.stream with state := state } := by
  unfold setState at h
  cases state with
  | idle => cases h
  | recvHeaders =>
    obtain ⟨hi, h⟩ := ite_none_right_eq_some.1 h
    obtain ⟨c1, hsl, h⟩ := bind_eq_some_iff.1 h
    have hs := updateOpenSlot_settles hi hsl
    obtain ⟨slot, -, hsl⟩ := bind_eq_some_iff.1 hsl
    cases hsl
    cases h
    exact ⟨hi, hs, _, _, _, rfl⟩
  | recvBody | reqPending =>
    cases h
    refine ⟨trivial, putState_settles (slotOf_eq (by simp) ?_) ?_ ?_, _, _, _, rfl⟩ <;>
      rcases ht (by simp) with h | h | h <;> simp [h, isHalfClosed, isSendBody]
  | sendHeaders | sendBody =>
    obtain ⟨ho, h⟩ := ite_none_right_eq_some.1 h
    obtain ⟨slot, hsl, h⟩ := bind_eq_some_iff.1 h
    cases h
    refine ⟨ho, bump_putState_settles hsl (slotOf_eq (by simp) (by simp [ho])) ?_, _, _, _, rfl⟩
    simp [ho, isHalfClosed, isSendBody]
  | sendBodyIsFinal =>
    obtain ⟨ho, h⟩ := ite_none_right_eq_some.1 h
    cases h
    refine ⟨ho, putState_settles (slotOf_eq (by simp) ?_) ?_ ?_, _, _, _, rfl⟩ <;>
      simp [ho, isHalfClosed, isSendBody]
  | endStream =>
    obtain ⟨slot, hsl, h⟩ := bind_eq_some_iff.1 h
    obtain ⟨c1, hl, h⟩ := bind_eq_some_iff.1 h
    have hs := leaveCounters_settles hsl hl
    obtain ⟨hne, num, rfl⟩ := leaveCounters_eq hl
    obtain ⟨hs', _, _, _, rfl⟩ := ensureUnblocked_becomes h
    exact ⟨hne, hs.trans hs', _, _, _, rfl⟩

lemma setReqBodyState_becomes {body : ReqBodyState} (h : c.setReqBodyState body = some c') :
    Becomes c c' { c.stream with reqBodyState := body } := by
  refine ⟨setReqBodyState_settles h, ?_⟩
  obtain ⟨-, h⟩ := ite_none_right_eq_some.1 h
  dsimp only at h
  split_ifs at h <;> cases h <;> exact ⟨_, _, _, rfl⟩

lemma deliverClose_becomes (h : c.deliverClose = some c') :
    Becomes c c' { c.stream with proceedReq := false, reqBodyState := .closeDelivered } := by
  obtain ⟨hs, _, _, _, rfl⟩ := setReqBodyState_becomes h
  exact ⟨hs.update rfl, _, _, _, rfl⟩

lemma insertLink_eq (h : c.insertLink list = some c') :
    c.stream.link = none ∧ c' = { c with stream := { c.stream with link := some list } } := by
  obtain ⟨hl, h⟩ := ite_none_right_eq_some.1 h
  exact ⟨hl, (some.inj h).symm⟩

lemma ensureLinked_eq (h : c.ensureLinked list = some c') :
    c' = { c with stream := { c.stream with link := c.stream.link.or (some list) } } := by
  unfold ensureLinked at h
  split at h
  · next hl =>
    obtain ⟨-, rfl⟩ := insertLink_eq h
    rw [hl]
    rfl
  · next hl =>
    obtain ⟨list', hi⟩ := ne_none_iff_exists'.1 hl
    cases h
    rw [hi, some_or, ← hi]

/-! ## Closing -/

/-- The stream is closed, and does not count any more. -/
structure Closes (c c' : Cell) : Prop where
  registered : c'.registered = false
  id : c'.id = c.id
  settles : Settles c c'
  weight : c.Ok → weight c'.id c'.stream = 0

lemma Closes.after (h : Closes c1 c') (hi : c1.id = c.id) (hs : Settles c c1) : Closes c c' :=
  ⟨h.registered, h.id.trans hi, hs.trans h.settles, fun ho => h.weight (hs ho).1⟩

/-- The counters change by as much as the weight of the stream, which is zero if it is closed. -/
structure Balances (c c' : Cell) : Prop where
  id : c'.id = c.id
  settles : Settles c c'
  registered : c'.registered = c.registered ∨
    c'.registered = false ∧ (c.Ok → weight c'.id c'.stream = 0)

lemma Balances.put {s : Stream} (h : Balances c c') (hs : s.counted = c'.stream.counted) :
    Balances c { c' with stream := s } := by
  refine ⟨h.id, h.settles.trans (.of_stream hs), h.registered.imp_right fun hc => ⟨hc.1, fun ho => ?_⟩⟩
  exact (weight_congr hs).trans (hc.2 ho)

lemma Becomes.closes {s : Stream} (h : Becomes c c1 s) (h' : Closes c1 c') : Closes c c' := by
  obtain ⟨hs, _, _, _, rfl⟩ := h
  exact h'.after rfl hs

lemma unlink_becomes : Becomes c c.unlink { c.stream with link := none } :=
  ⟨.of_stream rfl, _, _, _, rfl⟩

lemma ensureEnded_becomes (h : c.ensureEnded = some c') :
    Becomes c c' { c.stream with state := .endStream } := by
  unfold ensureEnded at h
  split at h
  · next he =>
    cases h
    exact ⟨.refl, _, _, _, by rw [← he]⟩
  · exact (setState_becomes h (by simp)).2

lemma ensureDelivered_becomes (h : c.ensureDelivered = some c') :
    ∃ s, Becomes c c' s ∧ s.state = c.stream.state ∧ s.link = c.stream.link ∧
      (s.reqBodyState = .none ∨ s.reqBodyState = .closeDelivered) := by
  unfold ensureDelivered at h
  split at h
  · exact ⟨_, deliverClose_becomes h, rfl, rfl, .inr rfl⟩
  · next hb =>
    cases h
    exact ⟨_, .refl, rfl, rfl, by simpa [or_iff_not_imp_left] using hb⟩

lemma ensureUnblocked_blocked (h : c.ensureUnblocked = some c') :
    c'.stream.blockedByServer = false := by
  unfold ensureUnblocked at h
  split at h
  · unfold setBlockedByServer at h
    split at h <;> cases h
    rfl
  · next hb =>
    cases h
    simpa using hb

lemma unlinkByState_eq (h : c.unlinkByState = some c') : c' = c.unlink := by
  unfold unlinkByState at h
  split at h
  case h_1 | h_2 =>
    obtain ⟨hl, h⟩ := ite_none_right_eq_some.1 h
    cases h
    unfold unlink
    rw [← hl]
  case h_3 =>
    split at h <;> cases h
    rfl
  all_goals
    cases h
    rfl

lemma ensureEnded_blocked (h : c.ensureEnded = some c')
    (hb : c.stream.blockedByServer = false) : c'.stream.blockedByServer = false := by
  unfold ensureEnded at h
  split at h
  · cases h
    exact hb
  · obtain ⟨slot, -, h⟩ := bind_eq_some_iff.1 h
    obtain ⟨c1, -, h⟩ := bind_eq_some_iff.1 h
    exact ensureUnblocked_blocked h

lemma streamClose_closes (h : c.streamClose = some c') : Closes c c' := by
  obtain ⟨c1, hd, h⟩ := bind_eq_some_iff.1 h
  obtain ⟨c2, hu, h⟩ := bind_eq_some_iff.1 h
  obtain ⟨c3, hl, h⟩ := bind_eq_some_iff.1 h
  obtain ⟨c4, he, h⟩ := bind_eq_some_iff.1 h
  cases h
  obtain rfl := unlinkByState_eq hl
  have hn := ensureUnblocked_blocked hu
  have hb := ensureEnded_blocked he hn
  obtain ⟨s, hc, -, -, hbd⟩ := ensureDelivered_becomes hd
  obtain ⟨hs1, _, _, _, rfl⟩ := hc
  obtain ⟨hs2, _, _, _, rfl⟩ := ensureUnblocked_becomes hu
  obtain ⟨hs3, _, _, _, rfl⟩ := ensureEnded_becomes he
  have hs := hs1.trans (hs2.trans (hs3.update rfl))
  have ho' {c : Cell} (ho : c.Ok) : Cell.Ok { c with registered := false } := ⟨ho.slot, ho.body⟩
  refine ⟨rfl, rfl, fun ho => ⟨ho' (hs ho).1, (hs ho).2⟩, fun ho => ?_⟩
  exact (ho' (hs ho).1).weight_eq_zero rfl hb hbd

/-- The states in which a stream that is reset may have to wait. -/
def answering : StreamState → Bool
  | .sendHeaders | .sendBody | .sendBodyIsFinal | .endStream => true
  | _ => false

/-- A reset closes the stream, or leaves that to what it is linked to. -/
theorem streamReset_becomes (h : c.streamReset = some c') :
    Closes c c' ∨ answering c.stream.state = true ∧ c.stream.link ≠ none ∧
      Becomes c c' { c.stream with state := .endStream, data := [] } := by
  unfold streamReset at h
  split at h
  case h_1 | h_2 | h_3 | h_4 => exact .inl (streamClose_closes h)
  all_goals
    next hs =>
    obtain ⟨c1, hn, h⟩ := bind_eq_some_iff.1 h
    have he := ensureEnded_becomes hn
    have hb := he.put (s := { c1.stream with data := [] }) rfl
    obtain ⟨-, _, _, _, rfl⟩ := he
    dsimp only at h
    split at h
    · exact .inl (hb.closes (streamClose_closes h))
    · next hl =>
      cases h
      exact .inr ⟨by rw [hs]; rfl, hl, hb⟩

lemma sendErrorAndReset_eq (h : c.sendErrorAndReset ctx = some c') :
    ctx.live = true ∧ c.streamReset = some c' := ite_none_right_eq_some.1 h

/-! ## Requests -/

lemma prepareForRequest_becomes {w : ℕ} (h : c.prepareForRequest ctx w = some c') :
    c.stream.state = .idle ∧ ctx.live = true ∧
      Becomes c c' { c.stream with state := .recvHeaders, outputWindow := w } := by
  obtain ⟨hl, h⟩ := ite_none_right_eq_some.1 h
  obtain ⟨c1, he, h⟩ := bind_eq_some_iff.1 h
  obtain ⟨hi, hs, _, _, _, rfl⟩ := setState_becomes he (by simp)
  cases h
  exact ⟨hi, hl, hs.trans (.of_stream rfl), _, _, _, rfl⟩

lemma callHandler_becomes (h : c.callHandler = some c') :
    Becomes c c' { c.stream with processCalled := true, asked := true } := by
  unfold callHandler at h
  split at h <;> cases h
  exact ⟨.of_stream rfl, _, _, _, rfl⟩

lemma startStreaming_becomes (h : c.startStreaming = some c') (hs : c.stream.streamed = false) :
    (c.stream.reqBodyState ≠ .none ∧ c.stream.reqBodyState ≠ .closeDelivered) ∧
      Becomes c c' { c.stream with streamed := true } := by
  have he := startStreaming_settles h hs
  unfold startStreaming at h
  split at h
  · cases h
  next hb =>
  refine ⟨not_or.1 hb, he, ?_⟩
  dsimp only at h
  split_ifs at h <;> cases h <;> exact ⟨_, _, _, rfl⟩

/-- The state in which the handler is called. -/
def calledIn (state : StreamState) (proceedReq : Bool) : StreamState :=
  if !proceedReq && (state.beforeReqPending || state == .reqPending) then .sendHeaders else state

/-- The handler is called, and may stream the request body. -/
theorem processRequest_becomes (h : c.processRequest = some c') (hi : c.stream.state ≠ .idle)
    (ht : c.stream.streamed = false) :
    (c.stream.proceedReq = true →
        c.stream.reqBodyState ≠ .none ∧ c.stream.reqBodyState ≠ .closeDelivered) ∧
      Becomes c c' { c.stream with
        state := calledIn c.stream.state c.stream.proceedReq
        streamed := c.stream.streamed || c.stream.proceedReq
        processCalled := true
        asked := true } := by
  obtain ⟨c1, hs, h⟩ := bind_eq_some_iff.1 h
  obtain ⟨hs', num, slot, blocked, rfl⟩ := callHandler_becomes h
  unfold calledIn
  split at hs
  · next hp =>
    obtain ⟨hb, he, _, _, _, rfl⟩ := startStreaming_becomes hs ht
    refine ⟨fun _ => hb, he.trans hs', num, slot, blocked, ?_⟩
    simp [hp]
  next hp =>
  refine ⟨fun h => absurd h hp, ?_⟩
  split at hs
  · next hst =>
    obtain ⟨c2, hse, hs⟩ := bind_eq_some_iff.1 hs
    obtain ⟨-, hs2, _, _, _, rfl⟩ := setState_becomes hse fun _ => by
      cases ho : c.stream.state <;> simp_all [StreamState.beforeReqPending]
    obtain ⟨-, he, _, _, _, rfl⟩ := setState_becomes hs (by simp)
    refine ⟨hs2.trans (he.trans hs'), num, slot, blocked, ?_⟩
    simp [hp, hst]
  · next hst =>
    cases hs
    refine ⟨hs', num, slot, blocked, ?_⟩
    simp [hp, hst]

/-- A request is queued, or its stream is closed. -/
theorem executeOrEnqueueRequest_becomes (h : c.executeOrEnqueueRequest ctx = some c') :
    (c.stream.state = .recvHeaders ∨ c.stream.state = .reqPending) ∧
      (Closes c c' ∨ c.stream.link = none ∧
        Becomes c c' { c.stream with state := .reqPending, link := some .pendingReqs }) := by
  obtain ⟨ht, h⟩ := ite_none_right_eq_some.1 h
  refine ⟨ht, ?_⟩
  split at h
  · -- a stream in one of these two states is closed right away
    rcases streamReset_becomes h with hc | ⟨ha, -⟩
    · exact .inl hc
    · rcases ht with ht | ht <;> simp [ht, answering] at ha
  · obtain ⟨c1, hs, h⟩ := bind_eq_some_iff.1 h
    obtain ⟨-, hs1, _, _, _, rfl⟩ := setState_becomes hs fun _ => ht.imp_right .inr
    obtain ⟨c2, hb, h⟩ := bind_eq_some_iff.1 h
    obtain ⟨hs2, _, _, _, rfl⟩ := ensureBlocked_becomes hb
    obtain ⟨hl, rfl⟩ := insertLink_eq h
    exact .inr ⟨hl, (hs1.trans hs2).trans (.of_stream rfl), _, _, _, rfl⟩

/-- The state of a stream at the end of its request body. -/
def endedIn (state : StreamState) (processCalled : Bool) : StreamState :=
  if state.beforeReqPending then if processCalled then .sendHeaders else .reqPending else state

lemma endBody_becomes (h : c.endBody = some c') (hi : c.stream.state ≠ .idle) :
    c.stream.writeReq = true ∧ Becomes c c' { c.stream with
        state := endedIn c.stream.state c.stream.processCalled, reqBodyState := .closeQueued } ∨
      c.stream.writeReq = false ∧ Becomes c c' { c.stream with
        state := endedIn c.stream.state c.stream.processCalled
        proceedReq := false, reqBodyState := .closeDelivered } := by
  obtain ⟨c1, ht, h⟩ := bind_eq_some_iff.1 h
  obtain ⟨hs1, _, _, _, rfl⟩ : Becomes c c1
      { c.stream with state := endedIn c.stream.state c.stream.processCalled } := by
    unfold endedIn
    split at ht
    · next hb =>
      obtain ⟨c2, he, ht⟩ := bind_eq_some_iff.1 ht
      obtain ⟨-, hs2, num, slot, blocked, rfl⟩ := setState_becomes he fun _ => by
        cases ho : c.stream.state <;> simp_all [StreamState.beforeReqPending]
      split at ht
      · next hc =>
        obtain ⟨-, hs, num, slot, blocked, rfl⟩ := setState_becomes ht (by simp)
        refine ⟨hs2.trans hs, num, slot, blocked, ?_⟩
        simp [hb, show c.stream.processCalled = true from hc]
      · next hc =>
        cases ht
        refine ⟨hs2, num, slot, blocked, ?_⟩
        simp [hb, show ¬c.stream.processCalled = true from hc]
    · next hb =>
      cases ht
      refine ⟨.refl, c.num, c.stream.slot, c.stream.blockedByServer, ?_⟩
      simp [hb]
  split at h
  · next hw =>
    obtain ⟨hs, _, _, _, rfl⟩ := setReqBodyState_becomes h
    exact .inl ⟨hw, hs1.trans hs, _, _, _, rfl⟩
  · next hw =>
    obtain ⟨hs, _, _, _, rfl⟩ := deliverClose_becomes h
    exact .inr ⟨by simpa using hw, hs1.trans hs, _, _, _, rfl⟩

/-! ## Responses -/

/-- How a response that has been started goes on: it has ended, all of it has been written, or
there is more to write. -/
inductive Answer (s : Stream) : Stream → Prop
  | ended (active : Bool) :
    Answer s { s with state := .endStream, link := some .streamsToProceed, active := active }
  | drained {active : Bool} (hactive : active = true → s.active = true) :
    Answer s { s with state := .sendBody, link := some .streamsToProceed, active := active }
  | sending {state : StreamState} {data : List ℕ} {active : Bool}
    (hstate : state = .sendBody ∧ data ≠ [] ∨ state = .sendBodyIsFinal)
    (hactive : 0 < s.outputWindow → active = true) :
    Answer s { s with state := state, data := data, active := active }

/-- The response of the stream goes on. -/
def Answers (c c' : Cell) : Prop := ∃ s, Answer c.stream s ∧ Becomes c c' s

/-- The state before does not matter, nor that the stream has been deactivated. -/
lemma Answer.of_update {s s' : Stream} (h : Answer { s with state := state, active := active } s')
    (hc : active = true → s.active = true) : Answer s s' := by
  cases h with
  | ended active => exact .ended active
  | drained h => exact .drained fun ha => hc (h ha)
  | sending hs h => exact .sending hs h

lemma Answers.becomes {s1 : Stream} (h : Becomes c c1 s1) (h' : Answers c1 c') :
    ∃ s, Answer s1 s ∧ Becomes c c' s := by
  obtain ⟨he, _, _, _, rfl⟩ := h
  obtain ⟨s, hs, hs', num, slot, blocked, rfl⟩ := h'
  have he := he.trans hs'
  cases hs with
  | ended active => exact ⟨_, .ended active, he, num, slot, blocked, rfl⟩
  | drained h => exact ⟨_, .drained h, he, num, slot, blocked, rfl⟩
  | sending ht h => exact ⟨_, .sending ht h, he, num, slot, blocked, rfl⟩

lemma Answers.of_becomes (h : Becomes c c1 { c.stream with state := state, active := active })
    (ha : active = true → c.stream.active = true) (h' : Answers c1 c') : Answers c c' := by
  obtain ⟨s, hs, hb⟩ := h'.becomes h
  exact ⟨s, hs.of_update ha, hb⟩

lemma requestWriteAndClose_answers (h : c.requestWriteAndClose = some c')
    (hl : c.stream.link = none) : Answers c c' := by
  obtain ⟨c1, he, h⟩ := bind_eq_some_iff.1 h
  obtain ⟨-, hs, num, slot, blocked, rfl⟩ := setState_becomes he (by simp)
  obtain rfl := ensureLinked_eq h
  refine ⟨_, .ended false, hs.trans (.of_stream rfl), num, slot, blocked, ?_⟩
  simp [setActive, hl]

lemma queueBufs_eq {bufs : List ℕ} (hd : c.stream.data = []) :
    c.queueBufs bufs = { c with stream := { c.stream with data := bufs } } := by
  unfold queueBufs
  split
  · next hn => rw [hn, ← hd]
  · rfl

/-- More of a response is given by the handler. -/
theorem sendBody_answers (h : c.sendBody r = some c') (ht : c.stream.state = .sendBody)
    (hd : c.stream.data = []) : Answers c c' := by
  obtain ⟨c1, he, h⟩ := bind_eq_some_iff.1 h
  have hc1 : ∃ state, Becomes c c1 { c.stream with state := state } ∧
      (state = .sendBody ∨ state = .sendBodyIsFinal) := by
    split at he
    · cases he
      exact ⟨.sendBody, ⟨.refl, _, _, _, by rw [← ht]⟩, .inl rfl⟩
    · exact ⟨_, (setState_becomes he (by simp)).2, .inr rfl⟩
  obtain ⟨state, ⟨hs, num, slot, blocked, rfl⟩, hc⟩ := hc1
  rw [queueBufs_eq (by exact hd)] at h
  unfold registerForProceedCallback at h
  split at h
  · next hp =>
    have hn : state = .sendBody ∧ r.bufs ≠ [] ∨ state = .sendBodyIsFinal := by
      rcases hc with rfl | rfl
      · exact .inl ⟨rfl, by simpa [hasPendingData] using hp⟩
      · exact .inr rfl
    split at h
    · obtain ⟨hl, h⟩ := ite_none_right_eq_some.1 h
      cases h
      exact ⟨_, .sending hn fun _ => rfl, hs.trans (.of_stream rfl), num, slot, blocked, rfl⟩
    · next hw =>
      cases h
      exact ⟨_, .sending hn fun h => absurd h hw, hs.trans (.of_stream rfl), num,
        slot, blocked, rfl⟩
  · next hp =>
    obtain ⟨hl, rfl⟩ := insertLink_eq h
    have hr : r.bufs = [] ∧ state = .sendBody := by
      rcases hc with rfl | rfl
      · exact ⟨by simpa [hasPendingData] using hp, rfl⟩
      · simp at hp
    refine ⟨_, .drained fun h => h, hs.trans (.of_stream rfl), num, slot, blocked, ?_⟩
    simp [hr, hd]

/-- The handler begins to respond. -/
theorem startResponse_answers (h : c.startResponse r = some c') (hl : c.stream.link = none)
    (hd : c.stream.data = []) : Answers c c' := by
  unfold startResponse at h
  split at h
  · exact requestWriteAndClose_answers h hl
  split at h
  · obtain ⟨c1, hs, h⟩ := bind_eq_some_iff.1 h
    obtain ⟨-, he, num, slot, blocked, rfl⟩ := setState_becomes hs (by simp)
    obtain ⟨-, rfl⟩ := insertLink_eq h
    exact ⟨_, .ended _, he.trans (.of_stream rfl), num, slot, blocked, rfl⟩
  obtain ⟨c1, hs, h⟩ := bind_eq_some_iff.1 h
  have hc1 : ∃ active, Becomes c c1 { c.stream with state := .sendBody, active := active } ∧
      (active = true → c.stream.active = true) := by
    split at hs
    · obtain ⟨-, he, hc1⟩ := setState_becomes hs (by simp)
      exact ⟨false, ⟨he.update rfl, hc1⟩, fun h => absurd h Bool.false_ne_true⟩
    · exact ⟨_, (setState_becomes hs (by simp)).2, fun h => h⟩
  obtain ⟨active, hb, ha⟩ := hc1
  refine .of_becomes hb ha ?_
  obtain ⟨-, _, _, _, rfl⟩ := hb
  split at h
  · exact requestWriteAndClose_answers h hl
  · exact sendBody_answers h rfl hd

/-- What `finalostream_send` makes of a stream. -/
inductive Sent (r : Response) (s : Stream) : Stream → Prop
  /-- the request is parked until the TLS handshake is complete -/
  | parked (hearly : r.tooEarly = true ∧ r.earlyData = true)
    (hstate : s.state ≠ .sendBody ∧ s.state ≠ .sendBodyIsFinal ∧ s.state ≠ .endStream) :
    Sent r s { s with asked := false, link := some .blockedStreams }
  /-- the request is replayed right away -/
  | replayed (hstate : s.state ≠ .sendBody ∧ s.state ≠ .sendBodyIsFinal ∧ s.state ≠ .endStream) :
    Sent r s { s with asked := true }
  /-- the stream has been reset -/
  | ignored (hstate : s.state = .endStream) :
    Sent r s { s with asked := false, sendState := r.sendState }
  | answered {s' : Stream}
    (hstate : s.state = .recvBody ∨ s.state = .reqPending ∨ s.state = .sendHeaders ∨
      s.state = .sendBody)
    (h : Answer { s with asked := false, sendState := r.sendState } s') : Sent r s s'

lemma respond_becomes (h : c.respond r = some c')
    (hl : c.stream.link = none ∨ c.stream.state = .endStream) (hd : c.stream.data = []) :
    c.stream.state = .endStream ∧ c' = c ∨
      (c.stream.state = .recvBody ∨ c.stream.state = .reqPending ∨ c.stream.state = .sendHeaders ∨
        c.stream.state = .sendBody) ∧ Answers c c' := by
  have ha {c1 : Cell} (hb : Becomes c c1 { c.stream with state := .sendHeaders })
      (hl : c.stream.link = none) (h : c1.startResponse r = some c') : Answers c c' := by
    refine .of_becomes hb (fun h => h) ?_
    obtain ⟨-, _, _, _, rfl⟩ := hb
    exact startResponse_answers h hl hd
  unfold respond at h
  split at h
  · next ht =>
    have hl := hl.resolve_right (by simp [ht])
    obtain ⟨c1, hs, h⟩ := bind_eq_some_iff.1 h
    obtain ⟨-, hs1, _, _, _, rfl⟩ := setState_becomes hs fun _ => .inr (.inl ht)
    obtain ⟨c2, hs, h⟩ := bind_eq_some_iff.1 h
    obtain ⟨-, hs2, hc2⟩ := setState_becomes hs (by simp)
    exact .inr ⟨.inl ht, ha ⟨hs1.trans hs2, hc2⟩ hl h⟩
  · next ht =>
    have hl := hl.resolve_right (by simp [ht])
    obtain ⟨c1, hs, h⟩ := bind_eq_some_iff.1 h
    obtain ⟨-, hb⟩ := setState_becomes hs (by simp)
    exact .inr ⟨.inr (.inl ht), ha hb hl h⟩
  · next ht =>
    have hl := hl.resolve_right (by simp [ht])
    exact .inr ⟨.inr (.inr (.inl ht)), startResponse_answers h hl hd⟩
  · next ht => exact .inr ⟨.inr (.inr (.inr ht)), sendBody_answers h ht hd⟩
  · next ht => exact .inl ⟨ht, (some.inj h).symm⟩
  all_goals cases h

/-- The handler sends when it has been asked, so that the stream is in no list unless it has
been reset. -/
lemma finalostreamSend_becomes (h : c.finalostreamSend r = some c')
    (hl : c.stream.link = none ∨ c.stream.state = .endStream) :
    c.stream.data = [] ∧ ∃ s, Sent r c.stream s ∧ Becomes c c' s := by
  obtain ⟨⟨-, hd⟩, h⟩ := ite_none_right_eq_some.1 h
  refine ⟨hd, ?_⟩
  obtain ⟨c1, hu, h⟩ := bind_eq_some_iff.1 h
  have hb : Becomes c { c1 with stream := { c1.stream with sendState := r.sendState } }
      { c.stream with asked := false, sendState := r.sendState } := by
    obtain ⟨he, num, slot, blocked, rfl⟩ := ensureUnblocked_becomes hu
    exact ⟨(he.update rfl).trans (.of_stream rfl), num, slot, blocked, rfl⟩
  obtain ⟨hn, num, slot, blocked, rfl⟩ := ensureUnblocked_becomes hu
  have he : Settles c _ := hn.update rfl
  split at h
  · next ha =>
    split at h
    · cases h
    next ht =>
    have ht : c.stream.state ≠ .sendBody ∧ c.stream.state ≠ .sendBodyIsFinal ∧
        c.stream.state ≠ .endStream := by simpa only [not_or] using ht
    unfold registerForReplay at h
    split at h
    · next hd =>
      obtain ⟨-, rfl⟩ := insertLink_eq h
      exact ⟨_, .parked ⟨ha, hd⟩ ht, he.trans (.of_stream rfl), num, slot, blocked, rfl⟩
    · cases h
      exact ⟨_, .replayed ht, he.trans (.of_stream rfl), num, slot, blocked, rfl⟩
  · rcases respond_becomes h hl hd with ⟨ht, rfl⟩ | ⟨ht, han⟩
    · exact ⟨_, .ignored ht, hb⟩
    · obtain ⟨s, hs, hb⟩ := han.becomes hb
      exact ⟨s, .answered ht hs, hb⟩

/-! ## Output -/

lemma fill_le (room : ℕ) (bufs : List ℕ) : (fill room bufs).1 ≤ room := by
  fun_induction fill room bufs with
  | case1 => exact Nat.zero_le _
  | case2 room len bufs n hr | case3 room len bufs n hr hl => exact Nat.min_le_left _ _
  | case4 room len bufs n hr hl r ih =>
    dsimp only [r]
    omega

/-- What `send_data` makes of a stream when it sends `n` bytes. -/
inductive Output (s : Stream) (n : ℕ) : Stream → Prop
  | written {rest : List ℕ} (hrest : rest ≠ [] → s.data ≠ []) :
    Output s n { s with data := rest, outputWindow := s.outputWindow - n, sent := s.sent + n }
  | ended (sendState : SendState) : Output s n { s with
      state := .endStream, sendState := sendState, data := []
      outputWindow := s.outputWindow - n, sent := s.sent + n }

lemma streamSendPendingData_becomes (h : c.streamSendPendingData room readOk = some (c', frame)) :
    ∃ n ≤ room, (frame = none ∧ n = 0 ∨ frame = some n ∧ room ≠ 0) ∧
      ∃ s, Output c.stream n s ∧ Becomes c c' s := by
  unfold streamSendPendingData at h
  split at h
  · cases h
    refine ⟨0, Nat.zero_le _, .inl ⟨rfl, rfl⟩, _, .written fun h => h, .refl, c.num, c.stream.slot,
      c.stream.blockedByServer, ?_⟩
    simp
  split at h
  · obtain ⟨c1, he, h⟩ := bind_eq_some_iff.1 h
    obtain ⟨-, hs, num, slot, blocked, rfl⟩ := setState_becomes he (by simp)
    cases h
    refine ⟨0, Nat.zero_le _, .inl ⟨rfl, rfl⟩, _, .ended .error, hs.update rfl, num, slot,
      blocked, ?_⟩
    simp
  extract_lets r f s c1 at h
  have hm : r.1 ≤ room := by
    dsimp only [r]
    split
    · exact Nat.zero_le _
    · exact fill_le _ _
  have hr : f = none ∧ r.1 = 0 ∨ f = some r.1 ∧ room ≠ 0 := by
    dsimp only [f]
    split
    · next ho =>
      refine .inl ⟨rfl, ?_⟩
      rcases ho with hz | ⟨hz, -⟩
      · exact Nat.le_zero.1 (hz ▸ hm)
      · exact hz
    · next hso => exact .inr ⟨rfl, (not_or.1 hso).1⟩
  have hre : r.2 ≠ [] → c.stream.data ≠ [] := by
    intro hne hn
    apply hne
    dsimp only [r]
    rw [hn]
    split <;> rfl
  split at h
  · next hd =>
    obtain ⟨c2, he, h⟩ := bind_eq_some_iff.1 h
    obtain ⟨-, hs, num, slot, blocked, rfl⟩ := setState_becomes he (by simp)
    obtain ⟨hc', hf⟩ := Prod.mk.inj (some.inj h)
    rw [← hc', ← hf]
    refine ⟨r.1, hm, hr, _, .ended c.stream.sendState, hs.update rfl, num, slot, blocked, ?_⟩
    simp only [c1, s, hd.1]
  · obtain ⟨hc', hf⟩ := Prod.mk.inj (some.inj h)
    rw [← hc', ← hf]
    exact ⟨r.1, hm, hr, _, .written hre, .of_stream rfl, _, _, _, rfl⟩

/-- What `emit_writereq_of_openref` makes of a stream: it stays active as long as there is
something to write and room for it, and proceeds when all is written. -/
inductive Emitted (s : Stream) (n : ℕ) : Stream → Prop
  | more {s' : Stream} (h : Output s n s') (hmore : s'.data ≠ [] ∨ s'.state = .sendBodyIsFinal) :
    Emitted s n { s' with active := decide (0 < s'.outputWindow) }
  | done {s' : Stream} (h : Output s n s') (hdata : s'.data = [])
    (hstate : s'.state ≠ .sendBodyIsFinal) (hlink : s'.link = none) :
    Emitted s n { s' with active := false, link := some .streamsToProceed }

lemma emitWritereqOfOpenref_becomes (h : c.emitWritereqOfOpenref room readOk = some (c', frame)) :
    (c.stream.data ≠ [] ∨ c.stream.state = .sendBodyIsFinal ∨ c.stream.state = .endStream) ∧
      ∃ n ≤ room, (frame = none ∧ n = 0 ∨ frame = some n ∧ room ≠ 0) ∧
        ∃ s, Emitted c.stream n s ∧ Becomes c c' s := by
  obtain ⟨hp, h⟩ := ite_none_right_eq_some.1 h
  refine ⟨by simpa [hasPendingData] using hp, ?_⟩
  obtain ⟨⟨c1, frame1⟩, hsd, h⟩ := bind_eq_some_iff.1 h
  obtain ⟨n, hn, hf, s, hs, he, num, slot, blocked, rfl⟩ :=
    streamSendPendingData_becomes hsd
  dsimp only at h
  split at h
  · next hm =>
    cases h
    exact ⟨n, hn, hf, _, .more hs (by simpa [hasPendingData] using hm),
      he.trans (.of_stream rfl), num, slot, blocked, rfl⟩
  · next hm =>
    obtain ⟨c2, hl, h⟩ := bind_eq_some_iff.1 h
    obtain ⟨ho, rfl⟩ := insertLink_eq hl
    cases h
    have hd : s.data = [] ∧ s.state ≠ .sendBodyIsFinal := by
      simpa [hasPendingData] using hm
    exact ⟨n, hn, hf, _, .done hs hd.1 hd.2 ho, he.trans (.of_stream rfl), num, slot, blocked, rfl⟩

/-- A window that opens activates the stream if it has something to write. -/
lemma updateStreamOutputWindow_eq {delta : ℤ} {overflow : Bool}
    (h : c.updateStreamOutputWindow delta = some (c', overflow)) :
    overflow = true ∧ windowUpdate c.stream.outputWindow delta = none ∧ c' = c ∨
      overflow = false ∧ ∃ window active, windowUpdate c.stream.outputWindow delta = some window ∧
        (0 < window → (c.stream.data ≠ [] ∨ c.stream.state = .sendBodyIsFinal) →
          0 < c.stream.outputWindow ∧ active = c.stream.active ∨ active = true) ∧
        (active = true → c.stream.active = true ∨
          c.stream.data ≠ [] ∨ c.stream.state = .sendBodyIsFinal) ∧
        c' = { c with stream := { c.stream with outputWindow := window, active := active } } := by
  unfold updateStreamOutputWindow at h
  split at h
  · next hn =>
    cases h
    exact .inl ⟨rfl, hn, rfl⟩
  next window hs =>
  dsimp only at h
  split at h
  · next ho =>
    obtain ⟨-, h⟩ := ite_none_right_eq_some.1 h
    cases h
    exact .inr ⟨rfl, window, true, hs, fun _ _ => .inr rfl,
      fun _ => .inr (by simpa [hasPendingData] using ho.2.2), rfl⟩
  · next ho =>
    cases h
    refine .inr ⟨rfl, window, c.stream.active, hs, ?_, .inl, rfl⟩
    intro hpos hp
    refine .inl ⟨?_, rfl⟩
    by_contra hl
    exact ho ⟨not_lt.1 hl, hpos, by simpa [hasPendingData] using hp⟩

end Vhttp.Http2.Lifecycle.Cell
