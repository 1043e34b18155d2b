import Vhttp.Http2.Lifecycle.Effect

/-!
# The life of a stream

A stream on its own, without the connection: the moves it can make while it is open (`Move`), and
how its state, its request body, the list it is in and the handler fit together (`Phase`).

* `Move.phase`: every move keeps the phase of the stream.
* `Moves.phase`: so does every sequence of moves.

`safe` tells the moves apart that leave a stream behind that nobody closes.
-/

namespace Vhttp.Http2.Lifecycle

open Cell

/-- The request has been parked in the state in which its response is started. -/
def Stream.Parked (s : Stream) : Prop := s.state = .sendHeaders ∧ s.link = some .blockedStreams

instance (s : Stream) : Decidable s.Parked := inferInstanceAs (Decidable (_ ∧ _))

/-- The moves of a stream. -/
inductive Move (safe : Prop) (s : Stream) : Stream → Prop
  /-- the slot and `blocked_by_server` are not looked at here -/
  | counted (slot : Option Slot) (blocked : Bool) :
    Move safe s { s with slot := slot, blockedByServer := blocked }
  | buffered (size : ℕ) (entity : Option ℕ) :
    Move safe s { s with bodySize := size, entity := entity }
  | setWriteReq (on : Bool) (hcalled : s.processCalled = true) : Move safe s { s with writeReq := on }
  /-- the header block of a request with a body -/
  | received (hstate : s.state = .recvHeaders) :
    Move safe s { s with state := .recvBody, reqBodyState := .openBeforeFirstFrame }
  /-- the header block of a CONNECT request -/
  | connected (hstate : s.state = .recvHeaders) : Move safe s { s with
      isTunnelReq := true, entity := some 0, proceedReq := true, state := .recvBody
      reqBodyState := .open, streamed := true, processCalled := true, asked := true }
  /-- the header block of an invalid request -/
  | invalid (hstate : s.state = .recvHeaders) :
    Move safe s { s with state := .sendHeaders, asked := true }
  /-- the header block of a request without a body -/
  | enqueued (hstate : s.state = .recvHeaders) :
    Move safe s { s with state := .reqPending, link := some .pendingReqs }
  /-- the pending request is run -/
  | run (hlink : s.link = some .pendingReqs) (hbody : s.proceedReq = true →
      s.reqBodyState ≠ .none ∧ s.reqBodyState ≠ .closeDelivered) : Move safe s { s with
      link := none, state := calledIn s.state s.proceedReq
      streamed := s.streamed || s.proceedReq, processCalled := true, asked := true }
  /-- the first part of the request body -/
  | first (hbody : s.reqBodyState = .openBeforeFirstFrame) :
    Move safe s { s with reqBodyState := .open }
  /-- the request is run before its body is complete -/
  | queued (hbody : s.reqBodyState = .open) (hstreamed : s.streamed = false)
    (hlink : s.link = none) : Move safe s { s with proceedReq := true, link := some .pendingReqs }
  /-- the body is complete, and the request is already run -/
  | bodyEnded (hcalled : s.processCalled = true) :
    Move safe s { s with state := endedIn s.state true }
  | closeQueued (hbody : s.reqBodyState = .open) (hcalled : s.processCalled = true) :
    Move safe s { s with reqBodyState := .closeQueued }
  | delivered (hcalled : s.processCalled = true)
    (hsafe : safe → s.state = .endStream → s.link = some .streamsToProceed) :
    Move safe s { s with proceedReq := false, reqBodyState := .closeDelivered }
  /-- the body is complete, and the request is pending -/
  | bodyPending (hcalled : s.processCalled = false) (hproceed : s.proceedReq = true) :
    Move safe s { s with
      state := .reqPending, proceedReq := false, reqBodyState := .closeDelivered }
  /-- the body is complete, and the request is run -/
  | bodyEnqueued (hbody : s.reqBodyState = .open) (hstreamed : s.streamed = false)
    (hproceed : s.proceedReq = false) (hlink : s.link = none) : Move safe s { s with
      state := .reqPending, link := some .pendingReqs, reqBodyState := .closeDelivered }
  /-- the handler does not want the request body -/
  | failed (hstate : answering s.state = true)
    (hsafe : safe → ¬s.Parked) : Move safe s { s with
      state := .endStream, data := [], active := false, link := s.link.or (some .streamsToProceed)
      proceedReq := false, reqBodyState := .closeDelivered }
  | sent {s' : Stream} {r : Response} (hasked : s.asked = true) (hdata : s.data = [])
    (h : Sent r s s') :
    Move safe s s'
  | reset (hstate : answering s.state = true) (hlink : s.link ≠ none) (hsafe : safe → ¬s.Parked) :
    Move safe s { s with state := .endStream, data := [] }
  | emitted {n : ℕ} {s' : Stream}
    (hpending : s.data ≠ [] ∨ s.state = .sendBodyIsFinal ∨ s.state = .endStream)
    (h : Emitted s n s') : Move safe s s'
  /-- the response has been written, the request body is not done -/
  | waiting (hlink : s.link = some .streamsToProceed) (hstate : s.state = .endStream)
    (hbody : s.reqBodyState ≠ .none ∧ s.reqBodyState ≠ .closeDelivered) :
    Move safe s { s with link := none }
  /-- more of the response is asked for -/
  | asked (hlink : s.link = some .streamsToProceed) (hstate : s.state ≠ .endStream)
    (hdata : s.data = []) :
    Move safe s { s with link := none, asked := true }
  /-- the request is replayed -/
  | replayed (hlink : s.link = some .blockedStreams) :
    Move safe s { s with link := none, asked := true }

/-- The state, the request body, the list and the handler of a stream fit together. -/
structure Stream.Phase (s : Stream) : Prop where
  early : s.state = .idle ∨ s.state = .recvHeaders → s.link = none ∧ s.asked = false ∧
    s.processCalled = false ∧ s.proceedReq = false ∧ s.reqBodyState = .none
  pending : s.link = some .pendingReqs →
    (s.state = .recvBody ∨ s.state = .reqPending) ∧ s.processCalled = false ∧ s.asked = false ∧
      (s.proceedReq = true ∨ s.reqBodyState = .none ∨ s.reqBodyState = .closeDelivered)
  reqPending : s.state = .reqPending → s.link = some .pendingReqs ∧ s.proceedReq = false
  toProceed : s.link = some .streamsToProceed → s.state = .sendBody ∨ s.state = .endStream
  parked : s.link = some .blockedStreams →
    (s.state = .recvBody ∨ s.state = .sendHeaders ∨ s.state = .endStream) ∧
      (s.streamed = true ∨ s.reqBodyState = .none ∨ s.reqBodyState = .closeDelivered)
  asked : s.asked = true →
    (s.link = none ∨ s.state = .endStream) ∧ s.state ≠ .sendBodyIsFinal ∧ s.data = []
  queued : s.proceedReq = true → s.processCalled = false → s.link = some .pendingReqs
  called : s.streamed = true ∨ s.writeReq = true → s.processCalled = true
  streamed : s.processCalled = true ∨ s.asked = true →
    s.streamed = true ∨ s.reqBodyState = .none ∨ s.reqBodyState = .closeDelivered
  receiving : s.reqBodyState ≠ .none → s.reqBodyState ≠ .closeDelivered → s.processCalled = false →
    s.state = .recvBody
  data : s.data ≠ [] → s.state = .sendBody ∨ s.state = .sendBodyIsFinal

variable {safe : Prop} {s s' : Stream}

lemma Stream.phase_new (w : ℕ) : (Stream.new w).Phase := by
  constructor <;> simp [Stream.new]

namespace Stream.Phase

variable (hp : s.Phase)
include hp

/-- Nothing has been done for a stream that has not been called. -/
lemma uncalled (hc : s.processCalled = false) : s.streamed = false ∧ s.writeReq = false := by
  constructor
  · by_contra h
    simp [hp.called (.inl (by simpa using h))] at hc
  · by_contra h
    simp [hp.called (.inr (by simpa using h))] at hc

lemma data_nil (h1 : s.state ≠ .sendBody) (h2 : s.state ≠ .sendBodyIsFinal) : s.data = [] := by
  by_contra h
  exact (hp.data h).elim h1 h2

/-- The handler is not asked for the response of a pending request. -/
lemma not_reqPending (h : s.asked = true ∨ s.processCalled = true) : s.state ≠ .reqPending := by
  intro hst
  obtain ⟨-, hc, ha, -⟩ := hp.pending (hp.reqPending hst).1
  simp [hc, ha] at h

/-- The handler has been asked for the response after the header block. -/
lemma not_early (h : s.asked = true ∨ s.processCalled = true) :
    s.state ≠ .idle ∧ s.state ≠ .recvHeaders := by
  constructor <;> intro hst
  · obtain ⟨-, ha, hc, -⟩ := hp.early (.inl hst)
    simp [hc, ha] at h
  · obtain ⟨-, ha, hc, -⟩ := hp.early (.inr hst)
    simp [hc, ha] at h

/-- A stream without a request is as it was when it was opened. -/
lemma fresh (h : s.state = .idle ∨ s.state = .recvHeaders) :
    (s.link = none ∧ s.asked = false ∧ s.processCalled = false ∧ s.proceedReq = false ∧
      s.reqBodyState = .none) ∧ (s.streamed = false ∧ s.writeReq = false) ∧ s.data = [] := by
  have he := hp.early h
  refine ⟨he, hp.uncalled he.2.2.1, hp.data_nil ?_ ?_⟩ <;> rcases h with h | h <;> simp [h]

/-- A new stream gets a request. -/
lemma prepared (hi : s.state = .idle) (w : ℤ) (b : Bool) :
    Stream.Phase { s with state := .recvHeaders, outputWindow := w, hasReqBody := b } := by
  have hf := hp.fresh (.inl hi)
  constructor <;> simp [hf]

lemma run (hl : s.link = some .pendingReqs) : Stream.Phase { s with
    link := none, state := calledIn s.state s.proceedReq
    streamed := s.streamed || s.proceedReq, processCalled := true, asked := true } := by
  obtain ⟨hst, hc, ha, hd⟩ := hp.pending hl
  have hdt : s.data = [] := by
    refine hp.data_nil ?_ ?_ <;> rcases hst with h | h <;> simp [h]
  cases hr : s.proceedReq with
  | true =>
    have hv : s.state = .recvBody := by
      refine hst.resolve_right fun h => ?_
      simp [(hp.reqPending h).2] at hr
    constructor <;> simp [calledIn, hv, hdt]
  | false =>
    have hd := hd.resolve_left (by simp [hr])
    have hs : calledIn s.state false = .sendHeaders := by
      rcases hst with h | h <;> simp [h, calledIn, StreamState.beforeReqPending]
    constructor <;> simp [hs, hdt, hd]

/-! ## Request bodies -/

lemma first (hd : s.reqBodyState = .openBeforeFirstFrame) :
    Stream.Phase { s with reqBodyState := .open } := by
  refine { hp with early := ?_, pending := ?_, parked := ?_, streamed := ?_, receiving := ?_ }
  · intro h
    have hf := hp.fresh h
    simp [hd] at hf
  · intro h
    obtain ⟨hst, hc, ha, hr⟩ := hp.pending h
    exact ⟨hst, hc, ha, .inl (hr.resolve_right (by simp [hd]))⟩
  · intro h
    obtain ⟨hst, ht⟩ := hp.parked h
    exact ⟨hst, .inl (ht.resolve_right (by simp [hd]))⟩
  · intro h
    exact .inl ((hp.streamed h).resolve_right (by simp [hd]))
  · intro _ _ hc
    exact hp.receiving (by simp [hd]) (by simp [hd]) hc

variable (hd : s.reqBodyState = .open) (ht : s.streamed = false)
include hd ht

/-- A request whose body is not complete and not streamed has not been run. -/
lemma not_run : s.state = .recvBody ∧ s.processCalled = false ∧ s.asked = false ∧ s.data = [] ∧
      s.writeReq = false := by
  have hn : ¬(s.processCalled = true ∨ s.asked = true) := by
    intro h
    simpa [hd, ht] using hp.streamed h
  obtain ⟨hc, ha⟩ : s.processCalled = false ∧ s.asked = false := by simpa using hn
  have hst := hp.receiving (by simp [hd]) (by simp [hd]) hc
  exact ⟨hst, hc, ha, hp.data_nil (by simp [hst]) (by simp [hst]), (hp.uncalled hc).2⟩

lemma queue : Stream.Phase { s with proceedReq := true, link := some .pendingReqs } := by
  have hn := hp.not_run hd ht
  constructor <;> simp [hn, ht]

lemma bodyEnqueued (hr : s.proceedReq = false) : Stream.Phase { s with
      state := .reqPending, link := some .pendingReqs, reqBodyState := .closeDelivered } := by
  have hn := hp.not_run hd ht
  constructor <;> simp [hr, hn, ht]

omit hd ht

lemma bodyPending (hc : s.processCalled = false)
    (hr : s.proceedReq = true) : Stream.Phase { s with
      state := .reqPending, proceedReq := false, reqBodyState := .closeDelivered } := by
  have hl := hp.queued hr hc
  obtain ⟨hst, -, ha, -⟩ := hp.pending hl
  have hdt : s.data = [] := by
    refine hp.data_nil ?_ ?_ <;> rcases hst with h | h <;> simp [h]
  have hu := hp.uncalled hc
  constructor <;> simp [hl, hc, ha, hdt, hu]

/-- The state of a request that has been run, when its body ends. -/
lemma endedIn_cases (hc : s.processCalled = true) :
    s.state = .recvBody ∧ endedIn s.state true = .sendHeaders ∨
      s.state ≠ .recvBody ∧ endedIn s.state true = s.state := by
  have he := hp.not_early (.inr hc)
  unfold endedIn
  cases hst : s.state <;> simp_all [StreamState.beforeReqPending]

/-- A request that has been run is not pending. -/
lemma not_pending (h : s.asked = true ∨ s.processCalled = true) : s.link ≠ some .pendingReqs := by
  intro hl
  obtain ⟨-, hc, ha, -⟩ := hp.pending hl
  simp [hc, ha] at h

lemma bodyEnded (hc : s.processCalled = true) :
    Stream.Phase { s with state := endedIn s.state true } := by
  rcases hp.endedIn_cases hc with ⟨hst, he⟩ | ⟨-, he⟩
  · have hdt := hp.data_nil (by simp [hst]) (by simp [hst])
    rw [he]
    refine { hp with
      early := by simp, pending := ?_, reqPending := by simp, toProceed := ?_, parked := ?_,
      asked := ?_, receiving := by simp [hc], data := by simp [hdt] }
    · intro h
      exact absurd h (hp.not_pending (.inr hc))
    · intro h
      have := hp.toProceed h
      simp [hst] at this
    · intro h
      exact ⟨.inr (.inl rfl), (hp.parked h).2⟩
    · intro h
      exact ⟨.inl ((hp.asked h).1.resolve_right (by simp [hst])), by simp, hdt⟩
  · rw [he]
    exact hp

lemma closeQueued (hd : s.reqBodyState = .open)
    (hc : s.processCalled = true) : Stream.Phase { s with reqBodyState := .closeQueued } := by
  have ht := (hp.streamed (.inl hc)).resolve_right (by simp [hd])
  refine { hp with
    early := ?_, pending := ?_, parked := ?_, streamed := fun _ => .inl ht
    receiving := by simp [hc] }
  · exact fun h => absurd h (not_or.2 (hp.not_early (.inr hc)))
  · exact fun h => absurd h (hp.not_pending (.inr hc))
  · intro h
    exact ⟨(hp.parked h).1, .inl ht⟩

lemma delivered (hc : s.processCalled = true) :
    Stream.Phase { s with proceedReq := false, reqBodyState := .closeDelivered } := by
  refine { hp with
    early := ?_, pending := ?_, reqPending := ?_, parked := ?_, queued := by simp
    streamed := by simp, receiving := by simp }
  · exact fun h => absurd h (not_or.2 (hp.not_early (.inr hc)))
  · exact fun h => absurd h (hp.not_pending (.inr hc))
  · intro h
    exact absurd h (hp.not_reqPending (.inr hc))
  · intro h
    exact ⟨(hp.parked h).1, .inr (.inr rfl)⟩

/-! ## Responses -/

variable (hst : answering s.state = true)
include hst

/-- A stream that is being answered is not pending. -/
lemma answering_link : s.link ≠ some .pendingReqs := by
  intro hl
  rcases (hp.pending hl).1 with h | h <;> simp [h, answering] at hst

/-- A stream that is being answered has a handler for its request body. -/
lemma answering_body (h1 : s.reqBodyState ≠ .none) (h2 : s.reqBodyState ≠ .closeDelivered) :
    s.processCalled = true := by
  by_contra h
  rw [hp.receiving h1 h2 (by simpa using h)] at hst
  simp [answering] at hst

/-- A stream ends. -/
lemma ended : Stream.Phase { s with state := .endStream, data := [] } := by
  refine { hp with
    early := by simp, pending := ?_, reqPending := by simp, toProceed := by simp, parked := ?_
    asked := by simp, receiving := ?_, data := by simp }
  · intro h
    exact absurd h (hp.answering_link hst)
  · intro h
    exact ⟨.inr (.inr rfl), (hp.parked h).2⟩
  · intro h1 h2 hc
    simp [hp.answering_body hst h1 h2] at hc

lemma failed (a : Bool) : Stream.Phase { s with
      state := .endStream, data := [], active := a, link := s.link.or (some .streamsToProceed)
      proceedReq := false, reqBodyState := .closeDelivered } := by
  have hl : s.link.or (some .streamsToProceed) ≠ some .pendingReqs := by
    have := hp.answering_link hst
    cases h : s.link <;> simp_all
  refine { hp with
    early := by simp, pending := fun h => absurd h hl, reqPending := by simp, toProceed := by simp
    parked := by simp, asked := by simp, queued := by simp, streamed := by simp
    receiving := by simp, data := by simp }

omit hst

variable (ha : s.asked = true)
include ha

/-- Whether a stream whose handler is asked is in a list. -/
lemma asked_link (hst : s.state ≠ .endStream) : s.link = none := (hp.asked ha).1.resolve_right hst

/-- A handler that is asked takes care of the request body. -/
lemma asked_body (h1 : s.reqBodyState ≠ .none)
    (h2 : s.reqBodyState ≠ .closeDelivered) : s.processCalled = true :=
  hp.called (.inl ((hp.streamed (.inr ha)).resolve_right (not_or.2 ⟨h1, h2⟩)))

/-- The response of a stream that was asked for it is being sent. -/
lemma answered (hn : s.link = none) {state : StreamState} {link : Option LinkList}
    (hst : state = .sendBody ∨ state = .sendBodyIsFinal ∨ state = .endStream)
    (hl : link = none ∨ link = some .streamsToProceed ∧ state ≠ .sendBodyIsFinal)
    {data : List ℕ} (hdt : data ≠ [] → state ≠ .endStream) (sendState : SendState)
    (active : Bool) : Stream.Phase { s with
      asked := false, sendState := sendState, state := state, link := link, data := data
      active := active } := by
  refine { hp with
    early := ?_, pending := ?_, reqPending := ?_, toProceed := ?_, parked := ?_, asked := by simp
    queued := ?_, streamed := fun _ => hp.streamed (.inr ha), receiving := ?_, data := ?_ }
  · rcases hst with rfl | rfl | rfl <;> simp
  · rcases hl with rfl | ⟨rfl, -⟩ <;> simp
  · rcases hst with rfl | rfl | rfl <;> simp
  · intro h
    rcases hl with rfl | ⟨-, hne⟩
    · cases h
    · exact hst.imp_right fun h => h.resolve_left hne
  · rcases hl with rfl | ⟨rfl, -⟩ <;> simp
  · intro h1 h2
    rw [hp.queued h1 h2] at hn
    cases hn
  · intro h1 h2 h3
    rw [hp.asked_body ha h1 h2] at h3
    cases h3
  · intro h
    exact hst.imp_right fun hs => hs.resolve_right (hdt h)

lemma sent (hdt : s.data = []) {r : Response} (h : Sent r s s') : s'.Phase := by
  have he := hp.not_reqPending (.inl ha)
  cases h with
  | parked hr hst =>
    have hn := hp.asked_link ha hst.2.2
    have hb := hp.not_early (.inl ha)
    refine { hp with
      early := ?_, pending := by simp, reqPending := fun h => absurd h he, toProceed := by simp
      parked := ?_, asked := by simp, queued := ?_, streamed := fun _ => hp.streamed (.inr ha) }
    · simp [hb]
    · refine fun _ => ⟨?_, hp.streamed (.inr ha)⟩
      cases h : s.state <;> simp_all
    · intro h1 h2
      rw [hp.queued h1 h2] at hn
      cases hn
  | replayed hst =>
    have hq : { s with asked := true } = s := by rw [← ha]
    rwa [hq]
  | ignored hst =>
    refine { hp with
      early := by simp [hst], pending := ?_, asked := by simp
      streamed := fun _ => hp.streamed (.inr ha) }
    intro h
    exact absurd h (hp.not_pending (.inl ha))
  | answered hst h =>
    have hn : s.link = none := by
      refine hp.asked_link ha ?_
      rcases hst with h | h | h | h <;> simp [h]
    cases h with
    | ended active =>
      exact hp.answered ha hn (.inr (.inr rfl)) (.inr ⟨rfl, by simp⟩) (by simp [hdt]) _ _
    | drained hc =>
      exact hp.answered ha hn (.inl rfl) (.inr ⟨rfl, by simp⟩) (by simp) _ _
    | sending hst hc =>
      refine hp.answered ha hn ?_ (.inl hn) ?_ _ _
      · exact hst.imp And.left .inl
      · rcases hst with ⟨rfl, -⟩ | rfl <;> simp

omit ha

/-! ## Output -/

/-- A stream that can write is being answered. -/
lemma answering_of_pending (h : s.data ≠ [] ∨ s.state = .sendBodyIsFinal ∨ s.state = .endStream) :
    answering s.state = true := by
  rcases h with h | h | h
  · rcases hp.data h with h | h <;> simp [h, answering]
  · simp [h, answering]
  · simp [h, answering]

lemma output {n : ℕ} (h : Output s n s')
    (he : s.data ≠ [] ∨ s.state = .sendBodyIsFinal ∨ s.state = .endStream) : s'.Phase := by
  cases h with
  | written hr =>
    exact { hp with
      asked := fun h => ⟨(hp.asked h).1, (hp.asked h).2.1, by
        by_contra hne
        exact hr hne (hp.asked h).2.2⟩
      data := fun h => hp.data (hr h) }
  | ended sendState => exact { hp.ended (hp.answering_of_pending he) with }

/-- The states of a stream that has written. -/
lemma output_state {n : ℕ} (h : Output s n s')
    (he : s.data ≠ [] ∨ s.state = .sendBodyIsFinal ∨ s.state = .endStream) :
    (s'.state = .sendBody ∨ s'.state = .sendBodyIsFinal ∨ s'.state = .endStream) ∧
      (s'.asked = true → s'.state = .endStream) := by
  cases h with
  | written hr =>
    constructor
    · rcases he with h | h
      · exact (hp.data h).imp_right .inl
      · exact .inr h
    · intro ha
      obtain ⟨-, hf, hdt⟩ := hp.asked ha
      exact (he.resolve_left (not_not_intro hdt)).resolve_left hf
  | ended sendState => exact ⟨.inr (.inr rfl), fun _ => rfl⟩

lemma emitted {n : ℕ} (h : Emitted s n s')
    (he : s.data ≠ [] ∨ s.state = .sendBodyIsFinal ∨ s.state = .endStream) : s'.Phase := by
  cases h with
  | more h hm => exact { hp.output h he with }
  | done h hdt hf hl =>
    obtain ⟨hst, ha⟩ := hp.output_state h he
    have hst := hst.imp_right fun h => h.resolve_left hf
    refine { hp.output h he with
      early := ?_, pending := by simp, reqPending := ?_, toProceed := fun _ => hst
      parked := by simp, asked := fun h => ⟨.inr (ha h), hf, hdt⟩, queued := ?_ }
    · rcases hst with h | h <;> simp [h]
    · rcases hst with h | h <;> simp [h]
    · intro h1 h2
      rw [(hp.output h he).queued h1 h2] at hl
      cases hl

/-- A stream that has written all of its response waits for the request body. -/
lemma waiting (hl : s.link = some .streamsToProceed)
    (hst : s.state = .endStream) : Stream.Phase { s with link := none } := by
  refine { hp with
    early := by simp [hst], pending := by simp, reqPending := by simp [hst]
    toProceed := by simp, parked := by simp, asked := ?_, queued := ?_ }
  · intro h
    exact ⟨.inl rfl, (hp.asked h).2⟩
  · intro h1 h2
    rw [hp.queued h1 h2] at hl
    cases hl

/-- The handler of a stream is asked. -/
lemma ask {list : LinkList} (hl : s.link = some list)
    (hne : list ≠ .pendingReqs) (hdt : s.data = []) (hf : s.state ≠ .sendBodyIsFinal)
    (ht : s.streamed = true ∨ s.reqBodyState = .none ∨ s.reqBodyState = .closeDelivered) :
    Stream.Phase { s with link := none, asked := true } := by
  have hn : s.link ≠ some .pendingReqs := by simpa [hl] using hne
  refine { hp with
    early := ?_, pending := by simp, reqPending := fun h => absurd (hp.reqPending h).1 hn
    toProceed := by simp, parked := by simp, asked := fun _ => ⟨.inl rfl, hf, hdt⟩
    queued := fun h1 h2 => absurd (hp.queued h1 h2) hn, streamed := fun _ => ht }
  intro h
  rw [(hp.early h).1] at hl
  cases hl

lemma asked_more (hl : s.link = some .streamsToProceed)
    (hst : s.state ≠ .endStream) (hdt : s.data = []) :
    Stream.Phase { s with link := none, asked := true } := by
  have hd := (hp.toProceed hl).resolve_right hst
  refine hp.ask hl (by simp) hdt (by simp [hd]) ?_
  by_cases hc : s.processCalled = true
  · exact hp.streamed (.inl hc)
  · by_contra h
    obtain ⟨-, h1, h2⟩ : ¬s.streamed = true ∧ s.reqBodyState ≠ .none ∧
        s.reqBodyState ≠ .closeDelivered := by simpa only [not_or] using h
    exact hc (hp.answering_body (by simp [hd, answering]) h1 h2)

lemma replayed (hl : s.link = some .blockedStreams) :
    Stream.Phase { s with link := none, asked := true } := by
  obtain ⟨hst, ht⟩ := hp.parked hl
  refine hp.ask hl (by simp) (hp.data_nil ?_ ?_) ?_ ht <;>
    rcases hst with h | h | h <;> simp [h]

lemma setWriteReq (hc : s.processCalled = true) (on : Bool) :
    Stream.Phase { s with writeReq := on } := { hp with called := fun _ => hc }

end Stream.Phase

/-- Every move keeps the phase of the stream. -/
theorem Move.phase (h : Move safe s s') (hp : s.Phase) : s'.Phase := by
  cases h with
  | counted slot blocked | buffered size entity => exact { hp with }
  | setWriteReq on hc => exact hp.setWriteReq hc on
  | received hst | connected hst | invalid hst | enqueued hst =>
    -- the header block is complete
    have hf := hp.fresh (.inr hst)
    constructor <;> simp [hf]
  | run hl hd => exact hp.run hl
  | first hd => exact hp.first hd
  | queued hd ht hl => exact hp.queue hd ht
  | bodyEnded hc => exact hp.bodyEnded hc
  | closeQueued hd hc => exact hp.closeQueued hd hc
  | delivered hc hs => exact hp.delivered hc
  | bodyPending hc hr => exact hp.bodyPending hc hr
  | bodyEnqueued hd ht hr hl => exact hp.bodyEnqueued hd ht hr
  | failed hst hs => exact hp.failed hst false
  | sent ha hdt h => exact hp.sent ha hdt h
  | reset hst hl hs => exact hp.ended hst
  | emitted he h => exact hp.emitted h he
  | waiting hl hst hd => exact hp.waiting hl hst
  | asked hl hst hdt => exact hp.asked_more hl hst hdt
  | replayed hl => exact hp.replayed hl

/-- A sequence of moves. -/
def Moves (safe : Prop) : Stream → Stream → Prop := Relation.ReflTransGen (Move safe)

/-- The fields of a stream fit its state along any moves. -/
theorem Moves.phase (h : Moves safe s s') (hp : s.Phase) : s'.Phase := by
  induction h with
  | refl => exact hp
  | tail _ hm ih => exact hm.phase ih

end Vhttp.Http2.Lifecycle
