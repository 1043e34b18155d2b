import Vhttp.Http2Client.HeaderBlock

/-!
# The receive window of the client

The client keeps the window of the connection in `inputWindow`. It takes the data of a DATA frame
off the window, without padding, and only for a frame that is not an error of its stream. When the
window is half empty it queues a WINDOW_UPDATE frame, but not after the last frame of a response.

* `connWindow_of_reach`: the window is what the peer thinks it is, and never empty, in every run in
  which no DATA frame is padded, an error, or larger than the window; the last one of a response
  may not use up the window.
-/

namespace Vhttp.Http2Client

open List Option Function Conn
open Http2 (Frame flagEndStream flagPadded typeData windowUpdate decodeDataPayload)

/-- What a frame adds to the window of the connection at the peer. -/
def OutFrame.increment : OutFrame → ℤ
  | .windowUpdate 0 delta => delta
  | _ => 0

/-- The increments of the connection window in these frames. -/
def increments (frames : List OutFrame) : ℤ := (frames.map OutFrame.increment).sum

/-- The increments that were queued for stream 0. -/
def Conn.queuedIncrements (c : Conn) : ℤ :=
  increments c.written + increments (c.bufInFlight.getD []) + increments c.buf

/-- The window that the peer has at the start, as far as the client knows. -/
def Conn.balance (c : Conn) : ℤ := c.inputWindow - c.queuedIncrements + c.received

lemma increments_append (l m : List OutFrame) :
    increments (l ++ m) = increments l + increments m := by
  unfold increments
  rw [map_append, sum_append]

variable {c c' c'' : Conn} {id : ℕ} {s s' : Stream} {env : Env} {frame : Frame}

/-- Nothing happens to the window of the connection, if there is no stream 0. -/
structure SameWindow (c c' : Conn) : Prop where
  window : c'.inputWindow = c.inputWindow
  balance : c.streams 0 = none → c'.balance = c.balance
  noStream : c.streams 0 = none → c'.streams 0 = none

lemma SameWindow.refl (c : Conn) : SameWindow c c := ⟨rfl, fun _ => rfl, id⟩

lemma SameWindow.trans (h : SameWindow c c') (h' : SameWindow c' c'') : SameWindow c c'' where
  window := h'.window.trans h.window
  balance hc := (h'.balance (h.noStream hc)).trans (h.balance hc)
  noStream hc := h'.noStream (h.noStream hc)

/-! ## Actions -/

lemma balance_queue {f : OutFrame} (h : f.increment = 0) : (c.queue f).balance = c.balance := by
  have hb : increments (c.buf ++ [f]) = increments c.buf := by
    rw [increments_append, increments, increments, map_singleton, sum_singleton, h, add_zero]
  unfold balance queuedIncrements queue
  rw [hb]

lemma noStream_update {o : Option Stream} (h : c.streams 0 = none)
    (hs : (c.streams id).isSome = true) : Function.update c.streams id o 0 = none := by
  have hi : 0 ≠ id := by
    rintro rfl
    rw [h] at hs
    cases hs
  rw [update_of_ne hi]
  exact h

lemma noStream_closeStream (h : c.streams 0 = none) : (c.closeStream id).streams 0 = none := by
  by_cases hi : 0 = id
  · subst hi
    exact closeStream_self
  · rw [closeStream_of_ne hi]
    exact h

lemma sameWindow_closeResponse (hs : (c.streams id).isSome = true) :
    SameWindow c (c.closeResponse id s) := by
  unfold closeResponse
  split_ifs
  · exact ⟨rfl, fun _ => rfl, fun h => h⟩
  · exact ⟨rfl, fun _ => rfl, noStream_closeStream⟩
  · exact ⟨rfl, fun _ => rfl, fun h => noStream_update h hs⟩

/-- Only DATA frames change the window. -/
lemma sameWindow_of_act {σ : Scope} (hd : ¬ σ.data) (h : Act σ c c') : SameWindow c c' := by
  have hr : ∀ id code, (c.queue (.rstStream id code)).balance = c.balance :=
    fun _ _ => balance_queue rfl
  cases h with
  | count h | consumeWindow h | updateConnWindow h => exact absurd h hd
  | queue f hf =>
    refine ⟨rfl, fun _ => balance_queue ?_, fun h => h⟩
    cases f with
    | windowUpdate id delta => exact absurd rfl (hf id delta)
    | _ => rfl
  | @openWindow id hs delta =>
    refine ⟨rfl, fun h => balance_queue ?_, fun h => h⟩
    cases id with
    | zero =>
      rw [h] at hs
      cases hs
    | succ id => rfl
  | sendError id code => exact ⟨rfl, fun _ => hr id code, fun h => h⟩
  | amend hs | answer hs =>
    exact ⟨rfl, fun _ => rfl, fun h => noStream_update h (isSome_of_eq_some hs)⟩
  | requestSent _ hs =>
    exact ⟨rfl, fun _ => rfl, fun h => noStream_update h (isSome_of_eq_some hs)⟩
  | map f =>
    refine ⟨rfl, fun _ => rfl, fun h => ?_⟩
    show (c.streams 0).map f = none
    rw [h]
    rfl
  | error =>
    refine ⟨rfl, fun _ => rfl, fun h => ?_⟩
    rw [error_closeStream_streams]
    exact noStream_closeStream h
  | refuse last =>
    refine ⟨rfl, fun _ => rfl, fun h => ?_⟩
    show (if last < 0 then none else c.streams 0) = none
    rw [if_neg (Nat.not_lt_zero last)]
    exact h
  | @finish id _ s' cb hs =>
    have h : SameWindow (c.call id cb) ((c.call id cb).closeResponse id s') :=
      sameWindow_closeResponse (isSome_of_eq_some hs)
    exact ⟨h.window, h.balance, h.noStream⟩
  | @reset id _ _ code =>
    exact ⟨rfl, fun _ => hr id code, noStream_closeStream⟩
  | free => exact ⟨rfl, fun _ => rfl, fun _ => rfl⟩
  | launch _ hl =>
    refine ⟨rfl, fun _ => ?_, fun h => h⟩
    show c.inputWindow - (increments c.written + increments c.buf + 0) + c.received = c.balance
    unfold balance queuedIncrements
    rw [hl]
    show c.inputWindow - (increments c.written + increments c.buf + 0) + c.received =
      c.inputWindow - (increments c.written + 0 + increments c.buf) + c.received
    omega
  | land =>
    refine ⟨rfl, fun _ => ?_, fun h => h⟩
    show c.inputWindow - (increments (c.written ++ c.bufInFlight.getD []) + 0 +
      increments c.buf) + c.received = c.balance
    rw [increments_append, add_zero]
    rfl
  | _ => exact ⟨rfl, fun _ => rfl, fun h => h⟩

/-- An event or a frame without data. -/
def Scope.noData : Scope := ⟨fun _ => True, False, False, True, True⟩

lemma sameWindow_of_acts (h : Acts .noData c c') : SameWindow c c' :=
  h.rule SameWindow.refl SameWindow.trans (sameWindow_of_act not_false)

/-! ## DATA frames -/

/-- A DATA frame that the window accounts for. It is not padded, its stream takes it, and it fits
into the window. The last one of a response, and one that the application refuses, leave some of
the window. -/
def Accounted (c : Conn) (frame : Frame) (env : Env) : Prop :=
  c.readFrame = .default → frame.type = typeData →
    frame.streamId ≠ 0 ∧ frame.has flagPadded = false ∧ frame.payload.length ≤ c.inputWindow ∧
    match c.streams frame.streamId with
    | none => frame.streamId ≤ c.maxOpenStreamId
    | some s => dataError c s frame.payload = none ∧
      (frame.has flagEndStream = true ∨ env.onBodyOk = false →
        frame.payload.length < c.inputWindow)

instance : Decidable (Accounted c frame env) := by
  unfold Accounted
  cases c.streams frame.streamId <;> exact inferInstance

/-- The window is what the peer thinks, and the peer can send. -/
structure Balanced (c : Conn) : Prop where
  balance : c.balance = 65535
  pos : 0 < c.inputWindow
  noStream : c.streams 0 = none

lemma Balanced.of_same (h : Balanced c) (h' : SameWindow c c') : Balanced c' where
  balance := (h'.balance h.noStream).trans h.balance
  pos := h'.window ▸ h.pos
  noStream := h'.noStream h.noStream

/-- What a DATA frame takes off the window was received. -/
lemma balance_consume (c : Conn) (n : ℕ) : ((c.count n).consumeWindow n).balance = c.balance := by
  show c.inputWindow - n - c.queuedIncrements + ((c.received + n : ℕ) : ℤ) = c.balance
  unfold balance
  push_cast
  omega

/-- A window that is not negative is filled again. -/
lemma updateConnWindow_balanced (hb : c.balance = 65535) (hw : 0 ≤ c.inputWindow)
    (hs : c.streams 0 = none) : Balanced c.updateConnWindow := by
  unfold updateConnWindow windowIncrement
  by_cases hl : c.inputWindow * 2 % 2 ^ 64 < (connectionWindowSize : ℤ)
  · rw [if_pos hl]
    have hu : c.inputWindow + (connectionWindowSize - c.inputWindow) =
        (connectionWindowSize : ℤ) := by omega
    have hf : windowUpdate c.inputWindow (connectionWindowSize - c.inputWindow) =
        some (connectionWindowSize : ℤ) := by
      unfold windowUpdate
      rw [hu]
      rfl
    refine ⟨?_, ?_, hs⟩
    · unfold balance queuedIncrements at hb ⊢
      dsimp only [requestWrite, queue]
      rw [hf, increments_append]
      show connectionWindowSize - (increments c.written + increments (c.bufInFlight.getD []) +
        (increments c.buf + (connectionWindowSize - c.inputWindow + 0))) + c.received = 65535
      omega
    · show 0 < (windowUpdate c.inputWindow (connectionWindowSize - c.inputWindow)).getD
        c.inputWindow
      rw [hf]
      exact Int.natCast_pos.2 (by decide)
  · rw [if_neg hl]
    refine ⟨hb, ?_, hs⟩
    -- an empty window is below every threshold
    refine lt_of_le_of_ne hw fun he => hl ?_
    rw [← he]
    decide

/-- The end of `handle_data_frame`, when the data has been taken off the window. -/
lemma balanced_afterBody (hb : c.balance = 65535) (hw : 0 ≤ c.inputWindow)
    (ht : c.streams 0 = none) (hs : c.streams id = some s) {isFinal : Bool}
    (hl : isFinal = true ∨ env.onBodyOk = false → 0 < c.inputWindow) :
    Balanced (if !env.onBodyOk then c.resetStream id .internal
      else if isFinal then c.closeResponse id s'
      else ((c.setStream id s').updateConnWindow).updateWindow id s') := by
  split_ifs with ho hf
  · have hpos := hl (.inr (by simpa using ho))
    have hr : Act .noData c (c.resetStream id .internal) :=
      .reset not_false (isSome_of_eq_some hs) _
    exact Balanced.of_same ⟨hb, hpos, ht⟩ (sameWindow_of_acts (.single hr))
  · have hpos := hl (.inl hf)
    exact Balanced.of_same ⟨hb, hpos, ht⟩ (sameWindow_closeResponse (isSome_of_eq_some hs))
  · have hi : Balanced (c.setStream id s').updateConnWindow :=
      updateConnWindow_balanced hb hw (noStream_update ht (isSome_of_eq_some hs))
    have hs' : (c.setStream id s').updateConnWindow.streams id = some s' := by
      rw [updateConnWindow_streams]
      exact update_self _ _ _
    exact hi.of_same (sameWindow_of_acts (acts_updateWindow hs'))

lemma balanced_handleDataFrame (h : Balanced c) {frame : Frame} (hr : c.readFrame = .default)
    (hdt : frame.type = typeData) (hf : Accounted c frame env) :
    (handleDataFrame c frame env).2 = none ∧ Balanced (handleDataFrame c frame env).1 := by
  obtain ⟨hi, hp, hw, ht⟩ := hf hr hdt
  have hd : decodeDataPayload frame = .ok frame.payload := by
    unfold decodeDataPayload
    rw [if_neg hi, hp]
    rfl
  have hb := (balance_consume c frame.payload.length).trans h.balance
  have hl : 0 ≤ ((c.count frame.payload.length).consumeWindow
      frame.payload.length).inputWindow := sub_nonneg.2 hw
  unfold handleDataFrame
  rw [hd]
  unfold handleData
  dsimp only
  have hst : (c.count frame.payload.length).streams = c.streams := rfl
  rw [hst]
  cases hs : c.streams frame.streamId with
  | none =>
    rw [hs] at ht
    have ho : frame.streamId ≤ (c.count frame.payload.length).maxOpenStreamId := ht
    rw [if_pos ho]
    exact ⟨rfl, updateConnWindow_balanced hb hl h.noStream⟩
  | some s =>
    rw [hs] at ht
    obtain ⟨he, ha⟩ := ht
    have he' : dataError (c.count frame.payload.length) s frame.payload = none := he
    dsimp only
    rw [he']
    refine ⟨rfl, ?_⟩
    show Balanced (acceptData (c.count frame.payload.length) frame.streamId s frame.payload
      (frame.has flagEndStream) env)
    unfold acceptData
    apply balanced_afterBody (s := s)
    · exact hb
    · exact hl
    · exact h.noStream
    · exact hs
    · exact fun hn => sub_pos.2 (ha hn)

/-! ## The rounds of `parse_input` -/

lemma balanced_onFrame (h : Balanced c) {frame : Frame} (hf : Accounted c frame env) :
    Balanced (onFrame c frame env) := by
  by_cases hdt : c.readFrame = .default ∧ frame.type = typeData
  · obtain ⟨hd, ht⟩ := hdt
    obtain ⟨hr, hb⟩ := balanced_handleDataFrame h hd ht hf
    have hh : readFrame c frame env = handleDataFrame c frame env := by
      unfold readFrame
      rw [hd]
      unfold expectDefault
      rw [ht]
      rfl
    unfold onFrame
    rw [hh, settle_of_none hr]
    exact hb
  · refine h.of_same (sameWindow_of_acts (acts_settle trivial (handled_readFrame ?_
      (fun _ => trivial) (fun _ _ => trivial) False.elim).acts))
    exact fun hd ht => hdt ⟨hd, ht⟩

lemma balanced_parseInput {n : ℕ} {env : ℕ → Env} (h : Balanced c)
    (hf : EachFrame Accounted n c env) : Balanced (parseInput n c env) := by
  induction n generalizing c env with
  | zero => exact h
  | succ n ih =>
    unfold parseInput
    split
    · exact h
    · exact h.of_same (sameWindow_of_acts (acts_connectionError trivial _))
    · next frame hr =>
      obtain ⟨ha, he⟩ := hf frame hr
      have hn : Balanced (onFrame c frame (env 0)) := balanced_onFrame h ha
      dsimp only
      split_ifs with hd
      · exact ih ⟨hn.balance, hn.pos, hn.noStream⟩ (he hd)
      · exact hn

/-! ## The other events -/

/-- The ids of the streams are odd. -/
def OddIds (c : Conn) : Prop := c.maxOpenStreamId = 0 ∨ c.maxOpenStreamId % 2 = 1

lemma odd_nextStreamId (h : OddIds c) : c.nextStreamId % 2 = 1 := by
  unfold OddIds at h
  unfold nextStreamId
  split_ifs <;> omega

lemma maxOpen_of_acts {σ : Scope} (h : Acts σ c c') :
    c'.maxOpenStreamId = c.maxOpenStreamId := by
  refine h.rule (R := fun c c' => c'.maxOpenStreamId = c.maxOpenStreamId) (fun _ => rfl)
    (fun h h' => h'.trans h) fun h => ?_
  cases h with
  | updateConnWindow =>
    unfold updateConnWindow
    split <;> rfl
  | finish =>
    unfold closeResponse
    split_ifs <;> rfl
  | _ => rfl

lemma sameWindow_onConnect (ho : OddIds c) (r : Request) : SameWindow c (onConnect c r) := by
  have hr : SameWindow c { c.registerStream (newStream c r) with ioTimeout := true } := by
    refine ⟨rfl, fun _ => rfl, fun h => ?_⟩
    show Function.update c.streams c.nextStreamId (some (newStream c r)) 0 = none
    have hn := odd_nextStreamId ho
    rw [update_of_ne (by omega)]
    exact h
  unfold onConnect
  split_ifs
  · exact hr.trans ⟨rfl, fun _ => rfl, noStream_closeStream⟩
  · refine hr.trans (sameWindow_of_acts ?_)
    exact .tail (.tail (.single (.queue (.headers _ _) nofun)) (.configure _ _ _ _ _ _ _ _))
      .requestWrite

lemma acts_onWriteComplete (reply : ℕ → ProceedReply) (room : ℕ → ℕ) :
    Acts .noData c (onWriteComplete c reply room) := by
  unfold onWriteComplete
  extract_lets c1 c2
  have hl : Acts .noData c c1 := .tail (.single (.land trivial)) (.timers trivial false _ false _)
  have hp : Acts .noData c1 c2 :=
    .head (.configure _ _ _ _ _ _ _ []) (acts_proceedStreams trivial False.elim _)
  refine hl.trans ?_
  split
  · exact .single (.free trivial)
  refine hp.trans ?_
  split
  · exact .refl
  · exact acts_continueWriting trivial room

/-! ## Runs -/

/-- The condition on an event: the window accounts for the DATA frames that are read. -/
def Event.accounted (c : Conn) : Event → Prop
  | .read data env _ =>
    EachFrame Accounted (c.input ++ data).length
      { c with ioTimeout := false, input := c.input ++ data } env
  | _ => True

instance (e : Event) : Decidable (e.accounted c) := by
  cases e <;> unfold Event.accounted <;> exact inferInstance

/-- Only a request opens a stream, with an odd id. -/
lemma oddIds_step {e : Event} (h : OddIds c) (hstep : step c e = some c') : OddIds c' := by
  have hs : ∀ {σ : Scope}, Acts σ c c' → OddIds c' := fun ha => by
    unfold OddIds
    rw [maxOpen_of_acts ha]
    exact h
  cases e with
  | connect r =>
    obtain ⟨-, rfl⟩ := of_guard hstep
    have hm : (onConnect c r).maxOpenStreamId = c.nextStreamId := by
      unfold onConnect
      split <;> rfl
    exact .inr (hm ▸ odd_nextStreamId h)
  | read data env room =>
    obtain ⟨-, rfl⟩ := of_guard hstep
    exact hs (σ := .event) (.head (.timers trivial false _ _ _)
      (acts_parseInput.trans (acts_flushAfterRead trivial room)))
  | writeComplete reply room =>
    obtain ⟨-, rfl⟩ := of_guard hstep
    exact hs (acts_onWriteComplete reply room)
  | _ =>
    exact hs (σ := .event)
      (acts_step trivial (fun _ => trivial) hstep nofun nofun nofun False.elim)

/-- What an event does to the window. -/
lemma Balanced.step (h : Balanced c) (hi : OddIds c) {e : Event} (ho : e.accounted c)
    (hstep : Http2Client.step c e = some c') : Balanced c' := by
  cases e with
  | connect r =>
    obtain ⟨-, rfl⟩ := of_guard hstep
    exact h.of_same (sameWindow_onConnect hi r)
  | read data env room =>
    obtain ⟨-, rfl⟩ := of_guard hstep
    refine Balanced.of_same ?_ (sameWindow_of_acts (acts_flushAfterRead trivial room))
    exact balanced_parseInput ⟨h.balance, h.pos, h.noStream⟩ ho
  | writeComplete reply room =>
    obtain ⟨-, rfl⟩ := of_guard hstep
    exact h.of_same (sameWindow_of_acts (acts_onWriteComplete reply room))
  | _ =>
    exact h.of_same (sameWindow_of_acts
      (acts_step trivial (fun _ => trivial) hstep nofun nofun nofun False.elim))

/-- The window that the client tracks is what the peer was told less what it sent, and there is
some of it left. -/
theorem connWindow_of_reach (h : Reach (fun c e => e.accounted c) c) :
    c.inputWindow = 65535 + c.queuedIncrements - c.received ∧ 0 < c.inputWindow := by
  have hb : Balanced c ∧ OddIds c := by
    induction h with
    | new maxBufferSize inPool _ =>
      exact ⟨⟨rfl, Int.natCast_pos.2 (by decide : 0 < 65535), rfl⟩, .inl rfl⟩
    | step _ ho hstep ih => exact ⟨ih.1.step ih.2 ho hstep, oddIds_step ih.2 hstep⟩
  refine ⟨?_, hb.1.pos⟩
  have ha := hb.1.balance
  unfold balance at ha
  omega

/-- A padded DATA frame: the client takes one of its three bytes off the window. -/
theorem window_loses_padding : ∃ c, Reach (fun _ _ => True) c ∧
    c.inputWindow ≠ 65535 + c.queuedIncrements - c.received := by
  obtain ⟨c, hc, hw⟩ : ∃ c, run (new 65536 true) [.connect plainRequest,
      .read ([0, 0, 0, 4, 0, 0, 0, 0, 0] ++ [0, 0, 1, 1, 4, 0, 0, 0, 1, 0x88] ++
        [0, 0, 3, 0, 8, 0, 0, 0, 1, 1, 65, 0]) (fun _ => acceptAll) fun _ => 0] = some c ∧
      c.inputWindow ≠ 65535 + c.queuedIncrements - c.received := exists_of_any rfl
  exact ⟨c, (Reach.new 65536 true (by decide)).run (fun _ _ => trivial) hc, hw⟩

/-- A request, and a response of two DATA frames of one byte each. -/
theorem connWindow_of_reach_response : ∃ c, Reach (fun c e => e.accounted c) c ∧ c.received = 2 ∧
    c.inputWindow = 65535 + c.queuedIncrements - c.received ∧ 0 < c.inputWindow := by
  let data : Bytes := [0, 0, 0, 4, 0, 0, 0, 0, 0] ++ [0, 0, 1, 1, 4, 0, 0, 0, 1, 0x88] ++
    [0, 0, 1, 0, 0, 0, 0, 0, 1, 65] ++ [0, 0, 1, 0, 1, 0, 0, 0, 1, 66]
  let c := onConnect (new 65536 true) plainRequest
  have hc : Reach (fun c e => e.accounted c) c :=
    .step (e := .connect plainRequest) (.new 65536 true (by decide)) trivial rfl
  have hd : Event.accounted c (.read data (fun _ => acceptAll) fun _ => 0) := by
    decide
  have hr : Reach (fun c e => e.accounted c) (onRead c data (fun _ => acceptAll) fun _ => 0) :=
    .step hc hd rfl
  exact ⟨_, hr, by decide, connWindow_of_reach hr⟩

end Vhttp.Http2Client
