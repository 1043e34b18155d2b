import Vhttp.Http3Server.Invariant

/-!
# Blocked uploads

Requests with a body are received one by one: the others wait in the list of blocked streams. When
a slot gets free, `run_delayed` has to be called.

* `kept_of_reach`: a free slot is not forgotten, if no request that has a slot is reset, stopped or
  broken while another one waits.
-/

namespace Vhttp.Http3Server

open List Option Prod View
open Http3 (readFrame)

variable {env : Env} {i : ℕ}

/-! ## The rest of a request -/

/-- What `handle_input` does with the body of a request: it cannot go on, the DATA frame is longer
than `content-length` allows, or it goes on. -/
inductive BodyStep where
  | stop
  | overflow
  | next (s : Stream) (rest : Bytes)

/-- One frame of the body, or a part of the payload of one. -/
def bodyStep (env : Env) (s : Stream) (src : Bytes) : BodyStep :=
  match s.handleInput with
  | .expectHeaders => .stop
  | .expectDataPayload =>
    .next (s.appendBody (src.take s.bytesLeftInDataFrame)) (src.drop s.bytesLeftInDataFrame)
  | .expectData =>
    match readFrame false env.maxFramePayloadSize src with
    | .incomplete | .tooLarge _ | .unexpected => .stop
    | .frame f rest =>
      match f.type with
      | .headers => if s.isTunnelReq then .stop else .next (s.setHandleInput .postTrailers) rest
      | .data => if s.overflows f.length then .overflow else .next (s.startData f.length) rest
      | _ => .next s rest
  | .postTrailers =>
    match readFrame false env.maxFramePayloadSize src with
    | .incomplete | .tooLarge _ | .unexpected => .stop
    | .frame f rest =>
      match f.type with
      | .headers | .data => .stop
      | _ => .next s rest

/-- The request may end here: not within a DATA frame, and with as many octets as `content-length`
says. -/
def Stream.endFine (s : Stream) : Bool :=
  (s.handleInput = .expectData || s.handleInput = .postTrailers) &&
    !s.contentLength.any (· ≠ s.reqBodyBytesReceived)

/-- The rest of a request is not broken. -/
def bodyFine (env : Env) : ℕ → Stream → Bytes → Bool
  | 0, s, _ => !s.recvComplete
  | fuel + 1, s, src =>
    match bodyStep env s src with
    | .stop => true
    | .overflow => false
    | .next s rest => if rest = [] then !s.recvComplete || s.endFine else bodyFine env fuel s rest

/-- What has been received is not broken. -/
def inputFine (env : Env) (s : Stream) : Bool :=
  if s.buf = [] then !s.recvComplete || s.endFine else bodyFine env s.buf.length s s.buf

/-- The stream when `on_receive` is called. -/
def Stream.received (s : Stream) (fresh : Bytes) (fin : Bool) : Stream :=
  (if fin then s.setRecvComplete else s).setBuf (s.buf ++ fresh)

/-- A request that has a slot is not reset, stopped or broken. -/
def callbackFine (env : Env) (s : Stream) : Callback → Bool
  | .receive fresh fin => s.readBlocked || s.stopRequested || inputFine env (s.received fresh fin)
  | .reset | .stopSending => false
  | _ => true

/-- This is so while another request waits for a slot and `run_delayed` is not going to be called. -/
def eventFine (env : Env) (c : Conn) : Event → Bool
  | .stream i callback =>
    match c.streams i with
    | none => true
    | some s =>
      s.state ≠ .recvBodyUnblocked || c.shared.recvBodyBlocked = [] || c.shared.timeout ||
        callbackFine env s callback
  | _ => true

/-! ## A request that has a slot -/

variable {c c' : Conn} {d : Shared} {rest src : Bytes} {s s' : Stream} {v : View}

/-- How `handle_input` goes on with a body. -/
lemma handle_of_next (h : bodyStep env s src = .next s' rest) :
    View.handle env i ⟨d, s⟩ src = (.ok, ⟨d, s'⟩, rest) := by
  unfold bodyStep at h
  cases hi : s.handleInput with
  | expectHeaders =>
    rw [hi] at h
    cases h
  | expectDataPayload =>
    rw [hi] at h
    cases h
    simp only [handle, hi]
    rfl
  | expectData =>
    rw [hi] at h
    simp only [handle, hi, handleExpectData]
    repeat' split at h
    all_goals cases h
    all_goals simp_all [mapStream]
  | postTrailers =>
    rw [hi] at h
    simp only [handle, hi, handlePostTrailers]
    repeat' split at h
    all_goals cases h
    all_goals simp_all

/-- The loop of `handle_input` ends if the body cannot go on. -/
lemma handle_of_stop (hi : s.handleInput ≠ .expectHeaders) (h : bodyStep env s src = .stop) :
    ∃ rest, View.handle env i ⟨d, s⟩ src = (.incomplete, ⟨d, s⟩, rest) ∨
      View.handle env i ⟨d, s⟩ src = (.error, ⟨d, s⟩, rest) := by
  unfold bodyStep at h
  cases hh : s.handleInput with
  | expectHeaders => exact absurd hh hi
  | expectDataPayload =>
    rw [hh] at h
    cases h
  | expectData =>
    rw [hh] at h
    simp only [handle, hh, handleExpectData]
    repeat' split at h
    all_goals first | cases h; done | simp_all
  | postTrailers =>
    rw [hh] at h
    simp only [handle, hh, handlePostTrailers]
    repeat' split at h
    all_goals first | cases h; done | simp_all

/-- What receiving the body does not change. -/
structure SameSlot (s s' : Stream) : Prop where
  state : s'.state = s.state
  recvComplete : s'.recvComplete = s.recvComplete
  readBlocked : s'.readBlocked = s.readBlocked
  stopRequested : s'.stopRequested = s.stopRequested

lemma SameSlot.trans {s1 s2 s3 : Stream} (h : SameSlot s1 s2) (h' : SameSlot s2 s3) :
    SameSlot s1 s3 :=
  ⟨h'.state.trans h.state, h'.recvComplete.trans h.recvComplete,
    h'.readBlocked.trans h.readBlocked, h'.stopRequested.trans h.stopRequested⟩

lemma sameSlot_startData (s : Stream) (length : ℕ) : SameSlot s (s.startData length) := by
  unfold Stream.startData
  split
  · exact ⟨rfl, rfl, rfl, rfl⟩
  · exact ⟨rfl, rfl, rfl, rfl⟩

lemma sameSlot_bodyStep (h : bodyStep env s src = .next s' rest) : SameSlot s s' := by
  unfold bodyStep at h
  repeat' split at h
  all_goals cases h
  all_goals first | exact sameSlot_startData _ _ | exact ⟨rfl, rfl, rfl, rfl⟩

lemma handleInput_bodyStep
    (h : bodyStep env s src = .next s' rest) : s'.handleInput ≠ .expectHeaders := by
  unfold bodyStep at h
  repeat' split at h
  all_goals cases h
  all_goals simp_all [Stream.appendBody, Stream.startData, Stream.setHandleInput]
  all_goals split <;> simp_all

/-- The loop of `handle_buffered_input` with a body that is not broken: the connection is closed, or
the request keeps its slot and may end where it ends. -/
lemma handleLoop_of_bodyFine (fuel : ℕ)
    (hl : s.state = .recvBodyUnblocked) (hi : s.handleInput ≠ .expectHeaders)
    (hd : s.readBlocked = false) (hs : s.stopRequested = false)
    (hf : bodyFine env fuel s src = true) :
    (∃ v, handleLoop env i fuel ⟨d, s⟩ src = .returned v ∧ v.shared.closing = true) ∨
      ∃ s', handleLoop env i fuel ⟨d, s⟩ src = .consumed ⟨d, s'⟩ ∧ SameSlot s s' ∧
        (s'.recvComplete = true → s'.buf = [] ∧ s'.endFine = true) := by
  induction fuel generalizing s src with
  | zero =>
    refine .inr ⟨s.setBuf src, rfl, ⟨rfl, rfl, rfl, rfl⟩, fun hv => ?_⟩
    have hn : (!s.recvComplete) = true := hf
    change s.recvComplete = true at hv
    rw [hv] at hn
    cases hn
  | succ fuel ih =>
    unfold bodyFine at hf
    unfold handleLoop
    cases hstep : bodyStep env s src with
    | stop =>
      obtain ⟨rest, hh | hh⟩ := handle_of_stop (i := i) (d := d) hi hstep
      · rw [hh]
        dsimp only
        by_cases hv : s.recvComplete = true
        · rw [if_pos hv]
          exact .inl ⟨_, rfl, rfl⟩
        · rw [if_neg hv]
          exact .inr ⟨s.setBuf rest, rfl, ⟨rfl, rfl, rfl, rfl⟩, fun h => absurd h hv⟩
      · rw [hh]
        exact .inl ⟨_, rfl, rfl⟩
    | overflow =>
      rw [hstep] at hf
      cases hf
    | next s1 rest =>
      have hm := sameSlot_bodyStep hstep
      have hc : s1.state ≠ .closeWait := by
        rw [hm.state, hl]
        decide
      rw [handle_of_next hstep]
      rw [hstep] at hf
      dsimp only at hf ⊢
      rw [if_neg hc]
      by_cases hre : rest = []
      · rw [if_pos hre] at hf
        rw [if_neg fun h => h.1 hre]
        refine .inr ⟨s1.setBuf rest, rfl, hm.trans ⟨rfl, rfl, rfl, rfl⟩, fun hv => ?_⟩
        change s1.recvComplete = true at hv
        rw [hv] at hf
        exact ⟨hre, hf⟩
      · rw [if_neg hre] at hf
        rw [if_pos ⟨hre, by simp [hm.readBlocked, hd], by simp [hm.stopRequested, hs]⟩]
        rcases ih (hm.state.trans hl) (handleInput_bodyStep hstep)
          (hm.readBlocked.trans hd) (hm.stopRequested.trans hs) hf with
          hr | ⟨s', ho, hs', he⟩
        · exact .inl hr
        · exact .inr ⟨s', ho, hm.trans hs', he⟩

lemma kept_linkStreaming (v : View) : Kept env (v.linkStreaming i).shared :=
  kept_requestRunDelayed env _

/-- The end of `handle_buffered_input` for a request that has a slot. -/
lemma kept_received (hs : v.stream.state = .recvBodyUnblocked) (hk : Kept env v.shared)
    (he : v.stream.recvComplete = true → v.stream.buf = [] ∧ v.stream.endFine = true) :
    Kept env (if v.stream.recvComplete then v.receivedAll env i
      else v.receivedSome env i).shared := by
  split
  · rename_i hr
    obtain ⟨hb, hf⟩ := he hr
    obtain ⟨hi, hlen⟩ := (Bool.and_eq_true _ _).mp hf
    have hh : v.stream.handleInput = .expectData ∨ v.stream.handleInput = .postTrailers := by
      simpa using hi
    unfold receivedAll
    rw [if_pos ⟨hb, hh⟩, if_neg (by simpa using hlen)]
    split
    · exact kept_linkStreaming v
    split
    · exact kept_linkPending v
    · exact hk
  · unfold receivedSome
    dsimp only
    rw [if_neg fun h => StreamState.noConfusion (hs.symm.trans h.1)]
    split
    · exact kept_linkStreaming v
    · exact hk

/-- `handle_buffered_input` for a request that has a slot. -/
lemma kept_handleBufferedInput (hn : Sound v.stream)
    (hsl : v.stream.state = .recvBodyUnblocked) (hd : v.stream.readBlocked = false)
    (hs : v.stream.stopRequested = false) (hk : Kept env v.shared)
    (hf : inputFine env v.stream = true) : Kept env (v.handleBufferedInput env i).shared := by
  obtain ⟨d, s⟩ := v
  have hc : s.state ≠ .closeWait := fun h => StreamState.noConfusion (hsl.symm.trans h)
  unfold inputFine at hf
  unfold handleBufferedInput
  dsimp only at hsl hd hf ⊢
  rw [if_neg hc]
  by_cases hb : s.buf = []
  · rw [if_pos hb] at hf
    rw [if_pos hb]
    dsimp only
    rw [if_neg fun h => h.1 hb]
    refine kept_received hsl hk fun hv => ⟨hb, ?_⟩
    change s.recvComplete = true at hv
    rw [hv] at hf
    exact hf
  · have hin : s.handleInput ≠ .expectHeaders := by
      intro hi
      rcases hn.head hi with h | h <;> cases hsl.symm.trans h
    rw [if_neg hb] at hf
    rw [if_neg hb]
    rcases handleLoop_of_bodyFine (i := i) (d := d) _ hsl hin hd hs hf with
      ⟨v, hr, hl⟩ | ⟨s', ho, hm, he⟩
    · rw [hr]
      exact fun hp => absurd (hp.symm.trans hl) Bool.false_ne_true
    · rw [ho]
      dsimp only
      rw [if_neg (by simp [hm.readBlocked, hd])]
      exact kept_received (v := ⟨d, s'⟩) (hm.state.trans hsl) hk he

/-- What a callback does when it frees no slot, or when no stream waits for one. -/
lemma kept_of_noneAdded {v' : View} (hm : Moves env i v v')
    (hs : v.stream.state = .recvBodyUnblocked)
    (h : v.shared.recvBodyBlocked = [] ∨ v.shared.timeout = true) : Kept env v'.shared := by
  rcases h with hn | ht
  · intro _ _ hne
    obtain ⟨k, hk⟩ := exists_mem_of_ne_nil _ hne
    have hmem := (hm.noneAdded (by rw [hs]; rfl)).2 k hk
    rw [hn] at hmem
    cases hmem
  · exact fun _ _ _ => hm.others.timeout ht

/-- A callback for a request that has a slot, which is not reset, stopped or broken. -/
lemma kept_callback {callback : Callback} (hb : Base i v)
    (hl : v.stream.state = .recvBodyUnblocked) (hk : Kept env v.shared)
    (hp : callback.possible v.stream = true) (hf : callbackFine env v.stream callback = true) :
    Kept env (callback.run env i v).shared := by
  have hr : v.stream.state.isReceiving = true := by rw [hl]; rfl
  cases callback with
  | eosKnown => exact hk
  | receive fresh fin =>
    have hu : (Callback.receive fresh fin).run env i v =
        if v.stream.readBlocked || v.stream.stopRequested then
          ⟨v.shared, v.stream.received fresh fin⟩
        else handleBufferedInput env i ⟨v.shared, v.stream.received fresh fin⟩ := by
      cases fin <;> rfl
    rw [hu]
    split
    · exact hk
    · rename_i hd
      have ho : v.stream.readBlocked = false ∧ v.stream.stopRequested = false := by
        simpa using hd
      have hi : inputFine env (v.stream.received fresh fin) = true := by
        simpa [callbackFine, ho.1, ho.2] using hf
      have hs : Sound (v.stream.received fresh fin) := hb.sound.of_key (by cases fin <;> rfl)
      refine kept_handleBufferedInput hs ?_ ?_ ?_ hk hi
      · exact (by cases fin <;> rfl : (v.stream.received fresh fin).state = _).trans hl
      · exact (by cases fin <;> rfl : (v.stream.received fresh fin).readBlocked = _).trans ho.1
      · exact (by cases fin <;> rfl : (v.stream.received fresh fin).stopRequested = _).trans ho.2
  | reset | stopSending => cases hf
  | sendError =>
    have ht : v.stream.state = .sendBody := by simpa [Callback.possible] using hp
    cases hl.symm.trans ht
  | acked =>
    have hop := hb.sound.sendOpen hr
    unfold Callback.run
    rw [if_pos (show (v.mapStream (·.setUnsent false)).stream.sendOpen = true from hop)]
    exact hk
  | app call =>
    have hpr := (hb.sound.notStreaming hr).2
    cases call with
    | send hasBody final =>
      change Kept env (v.doSend env i hasBody final).shared
      unfold doSend
      rw [hl]
      exact hk
    | startStreaming =>
      change Kept env (if v.stream.proceedReq then _ else v).shared
      rw [hpr]
      exact hk
    | proceed err =>
      change Kept env (if v.stream.proceedReq ∧ _ then _ else v).shared
      rw [if_neg (by simp [hpr])]
      exact hk

/-! ## Runs -/

namespace Conn

/-- `run_delayed` goes on while there is a free slot for a blocked stream. -/
lemma kept_runDelayed {fuel : ℕ} (hs : c.runDelayed env fuel = some c') : Kept env c'.shared := by
  induction fuel generalizing c with
  | zero => cases hs
  | succ fuel ih =>
    unfold runDelayed at hs
    dsimp only at hs
    split at hs
    · split at hs
      · rename_i hc
        cases hs
        exact fun ho => absurd (ho.symm.trans hc.2) Bool.false_ne_true
      · obtain ⟨c1, -, hs⟩ := bind_eq_some_iff.1 hs
        exact ih hs
    · rename_i hn
      split at hs
      · cases hs
        exact fun _ hf hne => absurd ⟨hf, hne⟩ hn
      · obtain ⟨c1, -, hs⟩ := bind_eq_some_iff.1 hs
        exact ih hs

lemma kept_step {e : Event} (ht : c.Fits) (hk : Kept env c.shared)
    (hf : eventFine env c e = true) (hs : c.step env e = some c') : Kept env c'.shared := by
  cases takes_of_step hs with
  | «open» => exact hk
  | @stream i s callback hi hc hp =>
    have hb := ht.base i s hi
    have hm : Moves env i ⟨c.shared, s⟩ (callback.run env i ⟨c.shared, s⟩) :=
      (moves_callback env hb hc callback).1
    unfold eventFine at hf
    dsimp only at hf
    rw [hi] at hf
    unfold onStream
    rw [hi]
    by_cases hl : s.state = .recvBodyUnblocked
    · by_cases hw : c.shared.recvBodyBlocked = [] ∨ c.shared.timeout = true
      · exact kept_of_noneAdded hm hl hw
      · refine kept_callback (v := ⟨c.shared, s⟩) hb hl hk hp ?_
        rw [not_or] at hw
        simpa [hl, hw.1, hw.2] using hf
    · exact (hm.kept hb hl hk).2
  | timeout hs => exact kept_runDelayed hs
  | destroy => exact kept_unlink hk _
  | close => exact fun ho => absurd ho nofun

lemma kept_reach (h : Reach env (eventFine env) c) : Kept env c.shared := by
  induction h with
  | new => exact fun _ _ hne => absurd rfl hne
  | step hr hf hs ih => exact kept_step (fits_of_reach hr) ih hf hs

/-- In every run in which no request that has a slot is reset, stopped or broken while another one
waits, `run_delayed` is going to be called when there is a free slot for a blocked stream, unless
the connection is being closed. -/
theorem kept_of_reach {c : Conn} (h : Reach env (eventFine env) c)
    (hopen : c.shared.closing = false) (hfree : c.shared.slotFree env = true)
    (hwaiting : c.shared.recvBodyBlocked ≠ []) : c.shared.timeout = true :=
  kept_reach h hopen hfree hwaiting

/-- In every run, a stream that waits in a list is open and in the state that the list is for. -/
theorem waiting_of_reach {ok : Conn → Event → Bool} (h : Reach env ok c) (i : ℕ) :
    (i ∈ c.shared.recvBodyBlocked → (c.streams i).map Stream.state = some .recvBodyBlocked) ∧
      (i ∈ c.shared.pending → (c.streams i).map Stream.state = some .reqPending) := by
  have hf := fits_of_reach h
  cases hs : c.streams i with
  | none => simp [not_mem_of_isLinked (hf.exists_of_linked i hs)]
  | some s =>
    have hb := hf.base i s hs
    exact ⟨fun hm => congrArg some (hb.blocked hm), fun hm => congrArg some (hb.pending hm)⟩

end Conn

/-- A server with one slot. -/
def oneSlot : Env := plainServer 100

/-- A HEADERS frame, and the first octet of a DATA frame of five octets. -/
def upload : Bytes := postHeaders ++ [0, 5, 65]

/-- The first stream gets the slot, and the second one waits. -/
def twoUploads : List Event :=
  [.open 0, .stream 0 (.receive upload false), .timeout 3, .open 4,
    .stream 4 (.receive upload false)]

/-- The first request is received completely. -/
theorem kept_of_reach_complete : ∃ c, Conn.Reach oneSlot (eventFine oneSlot) c ∧
    c.shared.slotFree oneSlot = true ∧ c.shared.recvBodyBlocked = [4] ∧
      c.shared.timeout = true := by
  obtain ⟨c, hc, hl, hf, hb⟩ : ∃ c, Conn.run oneSlot (eventFine oneSlot)
      (twoUploads ++ [.stream 0 (.receive [66, 67, 68, 69] true)]) Conn.new = some c ∧
      c.shared.closing = false ∧ c.shared.slotFree oneSlot = true ∧
      c.shared.recvBodyBlocked = [4] := exists_of_any rfl
  have hr := Conn.Reach.new.run hc
  refine ⟨c, hr, hf, hb, Conn.kept_of_reach hr hl hf ?_⟩
  rw [hb]
  exact cons_ne_nil 4 []

/-- The second of two uploads waits. -/
theorem waiting_of_reach_upload : ∃ c, Conn.Reach oneSlot (fun _ _ => true) c ∧
    (c.streams 4).map Stream.state = some .recvBodyBlocked := by
  obtain ⟨c, hc, hm⟩ : ∃ c, Conn.run oneSlot (fun _ _ => true) twoUploads Conn.new = some c ∧
      4 ∈ c.shared.recvBodyBlocked := exists_of_any rfl
  have hr := Conn.Reach.new.run hc
  exact ⟨c, hr, (Conn.waiting_of_reach hr 4).1 hm⟩

/-- The first request is reset, and the second one is forgotten. -/
theorem forgotten_after_reset : ∃ c, Conn.Reach oneSlot (fun _ _ => true) c ∧
    c.shared.closing = false ∧ c.shared.slotFree oneSlot = true ∧
      c.shared.recvBodyBlocked = [4] ∧ c.shared.timeout = false := by
  refine (exists_of_any (o := Conn.run oneSlot (fun _ _ => true) (twoUploads ++ [.stream 0 .reset])
    .new) ?_).imp fun c ⟨hc, hr⟩ => ⟨Conn.Reach.new.run hc, hr⟩
  rfl

end Vhttp.Http3Server
