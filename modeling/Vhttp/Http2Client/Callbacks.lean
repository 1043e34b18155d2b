import Vhttp.Http2Client.Handlers

/-!
# The callbacks of the client

What the application of a stream sees, over whole runs.

* `callbacks_of_reach`: the callbacks of each stream come in order, and a stream that is freed has
  been told its end, in every run in which no HEADERS frame comes for a closed response, no timer
  fires and no request is made while the connection is closing, and the application does not give
  up a stream itself.
-/

namespace Vhttp.Http2Client

open List Option Bool Function Conn
open Http2 (Err ErrorCode Frame)

variable {c c' c'' : Conn} {id : ℕ} {s s' : Stream} {log : List Callback} {env : Env}

/-- The stream has been opened. -/
def Conn.opened (c : Conn) (id : ℕ) : Prop := id % 2 = 1 ∧ id ≤ c.maxOpenStreamId

/-- The callbacks of a stream came in order, and a stream that is freed has been told its end. -/
def Conn.FollowsProtocol (c : Conn) (id : ℕ) : Prop :=
  (phaseOf (c.log id)).isSome ∧
    (c.opened id → c.streams id = none → phaseOf (c.log id) = some .ended)

instance (c : Conn) (id : ℕ) : Decidable (c.FollowsProtocol id) :=
  inferInstanceAs (Decidable (_ ∧ (_ ∧ _ → _ → _)))

/-! ## The invariant -/

/-- The callbacks of an open stream. Once the connection is closing, all have been told. -/
def InPhase (state : ConnState) (s : Stream) (log : List Callback) : Prop :=
  match state with
  | .isClosing => phaseOf log = some .ended
  | .aborted => (phaseOf log).isSome
  | _ => phaseOf log = some s.res.phase

/-- What holds between two events. -/
structure Sound (c : Conn) : Prop where
  parity : c.maxOpenStreamId = 0 ∨ c.maxOpenStreamId % 2 = 1
  opened : ∀ id s, c.streams id = some s → c.opened id
  inPhase : ∀ id s, c.streams id = some s → InPhase c.state s (c.log id)
  ended : ∀ id, c.opened id → c.streams id = none → phaseOf (c.log id) = some .ended
  fresh : ∀ id, ¬ c.opened id → c.log id = []
  keepalive : c.keepaliveTimeout = true → c.numStreams = 0
  defer : c.writing = true → c.deferTimeout = false
  pending : c.state = .isClosing → c.writing = true → c.bufInFlight.isSome
  counted : Counted c

lemma inPhase_of_reading (h : c.isReading = true) :
    InPhase c.state s log ↔ phaseOf log = some s.res.phase := by
  unfold isReading at h
  cases hs : c.state with
  | «open» | halfClosed | freed => exact Iff.rfl
  | isClosing | aborted =>
    rw [hs] at h
    cases h

lemma InPhase.isSome {state : ConnState} (h : InPhase state s log) : (phaseOf log).isSome := by
  cases state with
  | isClosing | «open» | halfClosed | freed => exact isSome_of_eq_some h
  | aborted => exact h

variable (h : Sound c)
include h

/-- What the invariant says to the application. -/
lemma Sound.followsProtocol (id : ℕ) : c.FollowsProtocol id := by
  refine ⟨?_, h.ended id⟩
  cases hs : c.streams id with
  | some s => exact (h.inPhase id s hs).isSome
  | none =>
    by_cases hi : c.opened id
    · exact isSome_of_eq_some (h.ended id hi hs)
    · rw [h.fresh id hi]
      rfl

/-- A handler keeps the invariant. -/
lemma Sound.keeps (hrd : c.isReading = true) (hk : Keeps c c') (hc : Counts c c') : Sound c' where
  parity := by
    rw [hk.maxOpen]
    exact h.parity
  opened id s' hs' := by
    have he := hk.streams id
    unfold Conn.opened
    rw [hk.maxOpen]
    cases hs : c.streams id with
    | none =>
      rw [hs] at he
      exact nomatch he.1.symm.trans hs'
    | some s => exact h.opened id s hs
  inPhase id s' hs' := by
    have he := hk.streams id
    rw [hs'] at he
    cases hs : c.streams id with
    | none =>
      rw [hs] at he
      exact nomatch he.1
    | some s =>
      rw [hs] at he
      have hp := he ((inPhase_of_reading hrd).1 (h.inPhase id s hs))
      rcases hk.state with ht | ht
      · rw [ht, inPhase_of_reading hrd]
        exact hp
      · rw [ht]
        exact isSome_of_eq_some hp
  ended id hi hs' := by
    have he := hk.streams id
    rw [hs'] at he
    have hi' : c.opened id := ⟨hi.1, hk.maxOpen ▸ hi.2⟩
    cases hs : c.streams id with
    | none =>
      rw [hs] at he
      rw [he.2]
      exact h.ended id hi' hs
    | some s =>
      rw [hs] at he
      exact he ((inPhase_of_reading hrd).1 (h.inPhase id s hs))
  fresh id hi := by
    have hi' : ¬ c.opened id := fun ho => hi ⟨ho.1, hk.maxOpen.symm ▸ ho.2⟩
    have he := hk.streams id
    cases hs : c.streams id with
    | none =>
      rw [hs] at he
      rw [he.2]
      exact h.fresh id hi'
    | some s => exact absurd (h.opened id s hs) hi'
  keepalive ha := by
    rcases hc.keepalive ha with ha | hz
    · have hl := hc.le
      rw [h.keepalive ha] at hl
      exact Nat.le_zero.1 hl
    · exact hz
  defer hw := by
    rw [hk.writing] at hw
    rw [hk.defer hw]
    exact h.defer hw
  pending ht _ := by
    unfold isReading at hrd
    rcases hk.state with hs | hs
    · rw [← hs, ht] at hrd
      cases hrd
    · exact nomatch hs.symm.trans ht
  counted := hc.counted h.counted

omit h

/-! ## What does not concern the responses -/

/-- The states of the responses and the callbacks stay. -/
structure Sends (c c' : Conn) : Prop where
  maxOpen : c'.maxOpenStreamId = c.maxOpenStreamId
  state : KeepsState c c' ∨ c.isReading = true ∧ c'.isReading = true
  res : ∀ id, (c'.streams id).map (·.res) = (c.streams id).map (·.res)
  log : c'.log = c.log
  keepalive : c'.keepaliveTimeout = c.keepaliveTimeout
  numStreams : c'.numStreams = c.numStreams

lemma Sends.streams_none (h : Sends c c') : c'.streams id = none ↔ c.streams id = none := by
  rw [← map_eq_none_iff (f := (·.res)), h.res id, map_eq_none_iff]

lemma Sends.streams_some (h : Sends c c') (hs' : c'.streams id = some s') :
    ∃ s, c.streams id = some s ∧ s'.res = s.res := by
  have hr := h.res id
  rw [hs', map_some] at hr
  obtain ⟨s, hs, he⟩ := map_eq_some_iff.1 hr.symm
  exact ⟨s, hs, he.symm⟩

lemma Sound.sends (h : Sound c) (hs : Sends c c')
    (hd : c'.writing = true → c'.deferTimeout = false)
    (hp : c'.state = .isClosing → c'.writing = true → c'.bufInFlight.isSome) : Sound c' where
  parity := by
    rw [hs.maxOpen]
    exact h.parity
  opened id s' hs' := by
    obtain ⟨s, ht, -⟩ := hs.streams_some hs'
    unfold Conn.opened
    rw [hs.maxOpen]
    exact h.opened id s ht
  inPhase id s' hs' := by
    obtain ⟨s, ht, hr⟩ := hs.streams_some hs'
    have hh := h.inPhase id s ht
    rw [hs.log]
    rcases hs.state with (hst | hst) | ⟨hrd, hr'⟩
    · rw [hst]
      unfold InPhase at hh ⊢
      rw [hr]
      exact hh
    · rw [hst]
      exact hh.isSome
    · rw [inPhase_of_reading hr', hr]
      exact (inPhase_of_reading hrd).1 hh
  ended id hi hn := by
    rw [hs.log]
    exact h.ended id ⟨hi.1, hs.maxOpen ▸ hi.2⟩ (hs.streams_none.1 hn)
  fresh id hi := by
    rw [hs.log]
    exact h.fresh id fun ho => hi ⟨ho.1, hs.maxOpen.symm ▸ ho.2⟩
  keepalive := by
    rw [hs.keepalive, hs.numStreams]
    exact h.keepalive
  defer := hd
  pending := hp
  counted := h.counted.same hs.maxOpen hs.numStreams fun id => by
    rw [← isSome_map (f := (·.res)), hs.res id, isSome_map]

lemma isReading_ne_closing (h : c.isReading = true) : c.state ≠ .isClosing := by
  intro hs
  unfold isReading at h
  rw [hs] at h
  cases h

include h

/-- A connection that is read from goes on being read from, and the streams do not change. -/
lemma Sound.quiet (hrd : c.isReading = true) (hr' : c'.isReading = true)
    (hm : c'.maxOpenStreamId = c.maxOpenStreamId) (hs : c'.streams = c.streams)
    (hl : c'.log = c.log) (hk : c'.keepaliveTimeout = c.keepaliveTimeout)
    (hn : c'.numStreams = c.numStreams)
    (hd : c'.writing = true → c'.deferTimeout = false) : Sound c' :=
  h.sends ⟨hm, .inr ⟨hrd, hr'⟩, fun _ => by rw [hs], hl, hk, hn⟩ hd
    fun ht => absurd ht (isReading_ne_closing hr')

lemma Sound.requestWrite : Sound c.requestWrite := by
  have hb : Beside c c.requestWrite := beside_requestWrite
  exact h.sends ⟨rfl, .inl (.inl rfl), fun _ => rfl, rfl, rfl, rfl⟩
    (fun hw => (hb.defer hw).trans (h.defer hw)) h.pending

lemma Sound.enqueueGoaway (hrd : c.isReading = true) (code : Option ErrorCode)
    (desc : Option String) :
    Sound (c.enqueueGoaway code desc) ∧ (c.enqueueGoaway code desc).isReading = true := by
  unfold Conn.enqueueGoaway
  rw [if_neg (isReading_ne_closing hrd)]
  exact ⟨h.quiet hrd rfl rfl rfl rfl rfl rfl h.requestWrite.defer, rfl⟩

omit h

/-! ## Closing -/

/-- Every stream has been told its end. -/
def AllEnded (c : Conn) : Prop := ∀ id, c.opened id → phaseOf (c.log id) = some .ended

/-- The connection may be closed. -/
structure Settled (c : Conn) : Prop where
  parity : c.maxOpenStreamId = 0 ∨ c.maxOpenStreamId % 2 = 1
  opened : ∀ id s, c.streams id = some s → c.opened id
  allEnded : AllEnded c
  fresh : ∀ id, ¬ c.opened id → c.log id = []
  keepalive : c.keepaliveTimeout = true → c.numStreams = 0
  defer : c.writing = true → c.deferTimeout = false
  counted : Counted c

lemma Settled.freed (h : Settled c) : Sound c.closeConnectionNow where
  parity := h.parity
  opened _ _ := no_stream
  inPhase _ _ := no_stream
  ended id hi _ := h.allEnded id hi
  fresh := h.fresh
  keepalive hk := nomatch hk
  defer _ := rfl
  pending hs := nomatch hs
  counted := registers_closeConnectionNow.counted h.counted

lemma Settled.closeConnection (h : Settled c) : Sound c.closeConnection := by
  unfold Conn.closeConnection
  split
  · next hp =>
    refine ⟨h.parity, h.opened, fun id s hs => h.allEnded id (h.opened id s hs),
      fun id hi _ => h.allEnded id hi, h.fresh, h.keepalive, h.defer, fun _ hw => ?_,
      h.counted.same rfl rfl fun _ => rfl⟩
    rcases or_eq_true_iff.1 hp with hf | hd
    · exact hf
    · exact nomatch (h.defer hw).symm.trans hd
  · exact h.freed

include h

/-- The connection has no streams that wait for an answer. -/
lemma Sound.settled
    (ht : ∀ id s, c.streams id = some s → phaseOf (c.log id) = some .ended) : Settled c := by
  refine ⟨h.parity, h.opened, fun id hi => ?_, h.fresh, h.keepalive, h.defer, h.counted⟩
  cases hs : c.streams id with
  | none => exact h.ended id hi hs
  | some s => exact ht id s hs

lemma Sound.settled_of_closing (ht : c.state = .isClosing) : Settled c := by
  refine h.settled fun id s hs => ?_
  have hp := h.inPhase id s hs
  rw [ht] at hp
  exact hp

lemma Sound.settled_of_numStreams (hz : c.numStreams = 0) : Settled c := by
  refine h.settled fun id s hs => ?_
  rw [h.counted.streams_none hz id] at hs
  cases hs

lemma Sound.closeConnectionIfNecessary : Sound c.closeConnectionIfNecessary := by
  unfold Conn.closeConnectionIfNecessary
  split
  · next hc =>
    rcases hc with hc | hc
    · exact (h.settled_of_closing hc).freed
    · exact (h.settled_of_numStreams hc.2).freed
  · exact h

variable (hrd : c.isReading = true)
include hrd

/-- All streams are told an error before the connection is closed. -/
lemma Sound.tell (err : Stream → Error) : Settled { c with
      log := fun id => c.log id ++ ((c.streams id).map fun s => errorCallbacks s (err s)).getD [] } := by
  have ht : ∀ log, Registers c { c with log := log } := fun _ => .quiet rfl rfl rfl rfl
  refine ⟨h.parity, h.opened, fun id hi => ?_, fun id hi => ?_, h.keepalive, h.defer,
    (ht _).counted h.counted⟩
  · dsimp only
    cases hs : c.streams id with
    | none =>
      rw [map_none, getD_none, append_nil]
      exact h.ended id hi hs
    | some s => exact phaseOf_error ((inPhase_of_reading hrd).1 (h.inPhase id s hs)) _
  · dsimp only
    cases hs : c.streams id with
    | none =>
      rw [map_none, getD_none, append_nil]
      exact h.fresh id hi
    | some s => exact absurd (h.opened id s hs) hi

lemma Sound.callAll (err : Error) : Settled (c.callStreamCallbacksWithError err) := by
  have ht := h.tell hrd fun _ => err
  refine ⟨h.parity, fun id s hs => ?_, ht.allEnded, ht.fresh, h.keepalive, h.defer,
    (registers_callAll err).counted h.counted⟩
  obtain ⟨s', hs', -⟩ := map_eq_some_iff.1 hs
  exact h.opened id s' hs'

lemma Sound.connectionError (e : Err) : Sound (c.connectionError e) := by
  unfold Conn.connectionError
  split
  · exact (h.callAll hrd _).closeConnection
  · obtain ⟨hg, hr'⟩ := h.enqueueGoaway hrd (some e.code) e.desc
    exact (hg.callAll hr' _).closeConnection

omit h hrd

/-! ## Reading -/

lemma Sound.onFrame (h : Sound c) (hrd : c.isReading = true) (hn : env.accepts = true)
    {frame : Frame} (ho : OpenHeaders c frame) : Sound (onFrame c frame env) := by
  obtain ⟨hk, hc, he⟩ := keeps_readFrame hn ho
  have hs := h.keeps hrd hk hc
  unfold Http2Client.onFrame
  cases hx : readFrame c frame env with
  | mk c1 ret =>
    rw [hx] at hs he
    cases ret with
    | none => exact hs
    | some e =>
      refine hs.connectionError ?_ e
      have ht := he nofun
      unfold isReading at hrd ⊢
      rw [ht]
      exact hrd

/-- The loop of `parse_input`. -/
lemma Sound.parseInput {n : ℕ} {env : ℕ → Env} (h : Sound c) (hrd : c.isReading = true)
    (he : ∀ i, (env i).accepts = true)
    (ho : EachFrame (fun c frame _ => OpenHeaders c frame) n c env) :
    Sound (parseInput n c env) := by
  induction n generalizing c env with
  | zero => exact h
  | succ n ih =>
    rw [Http2Client.parseInput]
    split
    · exact h
    · exact h.connectionError hrd _
    · next frame hf =>
      obtain ⟨hk, hr⟩ := ho frame hf
      have hs := h.onFrame hrd (he 0) hk
      dsimp only
      split
      · next hr' =>
        refine ih ?_ hr' (fun i => he (i + 1)) (hr hr')
        exact hs.quiet hr' hr' rfl rfl rfl rfl rfl hs.defer
      · exact hs

/-! ## Writing -/

lemma res_update (hs : c.streams id = some s)
    (ht : c'.streams = Function.update c.streams id (some s')) (hr : s'.res = s.res)
    (j : ℕ) : (c'.streams j).map (·.res) = (c.streams j).map (·.res) := by
  rw [ht]
  by_cases hj : j = id
  · subst hj
    rw [update_self, hs, map_some, map_some, hr]
  · rw [update_of_ne hj]

lemma sends_setStream (hs : c.streams id = some s) (hr : s'.res = s.res) :
    Sends c (c.setStream id s') := ⟨rfl, .inl (.inl rfl), res_update hs rfl hr, rfl, rfl, rfl⟩

/-- What a round of `do_emit_writereq` does not touch. -/
structure SendsOnly (c c' : Conn) : Prop where
  maxOpen : c'.maxOpenStreamId = c.maxOpenStreamId
  state : c'.state = c.state
  res : ∀ id, (c'.streams id).map (·.res) = (c.streams id).map (·.res)
  log : c'.log = c.log
  keepalive : c'.keepaliveTimeout = c.keepaliveTimeout
  numStreams : c'.numStreams = c.numStreams
  writing : c'.writing = c.writing
  defer : c'.deferTimeout = c.deferTimeout

lemma SendsOnly.refl (c : Conn) : SendsOnly c c :=
  ⟨rfl, rfl, fun _ => rfl, rfl, rfl, rfl, rfl, rfl⟩

lemma SendsOnly.trans (h : SendsOnly c c') (h' : SendsOnly c' c'') : SendsOnly c c'' where
  maxOpen := h'.maxOpen.trans h.maxOpen
  state := h'.state.trans h.state
  res id := (h'.res id).trans (h.res id)
  log := h'.log.trans h.log
  keepalive := h'.keepalive.trans h.keepalive
  numStreams := h'.numStreams.trans h.numStreams
  writing := h'.writing.trans h.writing
  defer := h'.defer.trans h.defer

lemma SendsOnly.sends (h : SendsOnly c c') : Sends c c' :=
  ⟨h.maxOpen, .inl (.inl h.state), h.res, h.log, h.keepalive, h.numStreams⟩

lemma emitPending_sends (hs : c.streams id = some s) (buf : Bytes) (room : ℕ) :
    SendsOnly c ((streamEmitPendingData c id s buf room).1.setStream id
      (streamEmitPendingData c id s buf room).2) := by
  unfold streamEmitPendingData
  dsimp only
  split
  · exact ⟨rfl, rfl, res_update hs rfl rfl, rfl, rfl, rfl, rfl, rfl⟩
  · refine ⟨rfl, rfl, res_update hs rfl ?_, rfl, rfl, rfl, rfl, rfl⟩
    rfl

lemma emitStream_sends (room : ℕ → ℕ) : SendsOnly c (emitStream room c id) :=
  emitStream_induct (.refl c)
    (fun _ hs => ⟨rfl, rfl, res_update hs rfl rfl, rfl, rfl, rfl, rfl, rfl⟩)
    (fun _ buf hs => emitPending_sends hs buf (room id)) fun _ _ h => { h with }

lemma emitStreams_sends (room : ℕ → ℕ) (ids : List ℕ) :
    SendsOnly c (ids.foldl (emitStream room) c) := by
  induction ids generalizing c with
  | nil => exact .refl c
  | cons id ids ih => exact (emitStream_sends room).trans ih

include h

lemma Sound.doEmitWritereq (hd : c.deferTimeout = false)
    (hr : c.writing = false) (room : ℕ → ℕ) : Sound (doEmitWritereq c room) := by
  unfold Http2Client.doEmitWritereq
  split
  · refine h.sends ⟨rfl, .inl (.inr rfl), fun _ => rfl, rfl, rfl, rfl⟩ (fun _ => hd) fun ht => ?_
    cases ht
  · have hs : SendsOnly c (c.sendingStreams.foldl (emitStream room)
        { c with sendingStreams := [] }) := by
      have hi := emitStreams_sends (c := { c with sendingStreams := [] }) room c.sendingStreams
      exact { hi with }
    dsimp only
    split
    · refine h.sends hs.sends (fun _ => hs.defer.trans hd) fun _ hw => ?_
      rw [hs.writing, hr] at hw
      cases hw
    · exact h.sends { hs.sends with } (fun _ => hs.defer.trans hd) fun _ _ => rfl

lemma Sound.continueWriting (hrd : c.isReading = true)
    (hw : c.writing = false) (room : ℕ → ℕ) : Sound (continueWriting c room) := by
  unfold Http2Client.continueWriting
  split
  · split
    · refine h.sends ⟨rfl, .inl (.inr rfl), fun _ => rfl, rfl, rfl, rfl⟩ h.defer fun hs => ?_
      cases hs
    · exact h.closeConnectionIfNecessary
  split
  · exact h.quiet hrd hrd rfl rfl rfl rfl rfl fun _ => rfl
  · have hd : Sound { c with deferTimeout := false } :=
      h.quiet hrd hrd rfl rfl rfl rfl rfl fun _ => rfl
    exact (hd.doEmitWritereq rfl hw room).closeConnectionIfNecessary

omit h

lemma Sound.deferred (h : Sound c) (hd : c.deferTimeout = true) (room : ℕ → ℕ) :
    Sound (Http2Client.doEmitWritereq { c with deferTimeout := false } room) := by
  have hr : c.writing = false := by
    rw [← not_eq_true]
    exact fun hw => nomatch (h.defer hw).symm.trans hd
  have hu : Sound { c with deferTimeout := false } :=
    h.sends ⟨rfl, .inl (.inl rfl), fun _ => rfl, rfl, rfl, rfl⟩ (fun _ => rfl) h.pending
  exact hu.doEmitWritereq rfl hr room

/-! ## The events -/

/-- No HEADERS frame comes for a closed response, no timer fires and no request is made while the
connection is closing, the application does not give up a stream itself, and every stream gets an id
of its own. -/
def Orderly (c : Conn) : Event → Prop
  | .connect r => r.accepted = true ∧ c.state ≠ .isClosing ∧ c.FreshId
  | .read data env _ => (∀ i, (env i).accepts = true) ∧
      EachFrame (fun c frame _ => OpenHeaders c frame) (c.input ++ data).length
        { c with ioTimeout := false, input := c.input ++ data } env
  | .writeComplete reply _ => ∀ id, reply id ≠ .cancel
  | .streamTimeout _ => c.state ≠ .isClosing
  | .ioTimeout => c.state ≠ .isClosing
  | .cancel _ => False
  | _ => True

lemma isReading_of_alive (h : c.isAlive = true) (hs : c.state ≠ .isClosing) :
    c.isReading = true := by
  unfold isAlive at h
  rcases or_eq_true_iff.1 h with h | h
  · exact h
  · exact absurd (eq_of_beq h) hs

include h hrd

lemma Sound.registerStream (hf : c.FreshId) (hs : s.res = .head) :
    Sound (c.registerStream s) := by
  have hn : c.nextStreamId % 2 = 1 ∧ c.maxOpenStreamId < c.nextStreamId ∧
      ∀ id, id % 2 = 1 → id ≤ c.nextStreamId → id ≤ c.maxOpenStreamId ∨ id = c.nextStreamId := by
    have ha := h.parity
    unfold nextStreamId
    rw [Nat.mod_eq_of_lt hf]
    split
    · refine ⟨rfl, by omega, fun id ho hle => ?_⟩
      omega
    · refine ⟨by omega, by omega, fun id ho hle => ?_⟩
      omega
  obtain ⟨ho, hlt, hi⟩ := hn
  refine ⟨.inr ho, fun id s' hs' => ?_, fun id s' hs' => ?_, fun id hd hs' => ?_,
    fun id hd => ?_, nofun, h.defer, fun hst => absurd hst (isReading_ne_closing hrd),
    counted_registerStream h.counted hf s⟩
  · by_cases hd : id = c.nextStreamId
    · exact ⟨hd ▸ ho, hd.le⟩
    · rw [registerStream_of_ne hd] at hs'
      obtain ⟨ho', hle⟩ := h.opened id s' hs'
      exact ⟨ho', hle.trans hlt.le⟩
  · refine (inPhase_of_reading hrd).2 ?_
    by_cases hd : id = c.nextStreamId
    · -- a new stream has no callbacks yet
      have hl : c.log id = [] := h.fresh _ fun hp => absurd hp.2 (by omega)
      subst hd
      obtain rfl := some.inj (registerStream_self.symm.trans hs')
      show phaseOf (c.log c.nextStreamId) = _
      rw [hl, hs]
      rfl
    · rw [registerStream_of_ne hd] at hs'
      exact (inPhase_of_reading hrd).1 (h.inPhase id s' hs')
  · by_cases hi' : id = c.nextStreamId
    · subst hi'
      cases registerStream_self.symm.trans hs'
    · rw [registerStream_of_ne hi'] at hs'
      exact h.ended id ⟨hd.1, (hi id hd.1 hd.2).resolve_right hi'⟩ hs'
  · exact h.fresh id fun hp => hd ⟨hp.1, hp.2.trans hlt.le⟩

lemma sound_onConnect {r : Request} (ha : r.accepted = true) (hf : c.FreshId) :
    Sound (onConnect c r) := by
  have hr := h.registerStream hrd hf (s := newStream c r) rfl
  have ht : Sound { c.registerStream (newStream c r) with ioTimeout := true } :=
    hr.quiet hrd hrd rfl rfl rfl rfl rfl h.defer
  have hc : ∀ (c : Conn) (id : ℕ) (isEndStream : Bool),
      Acts .inOrder c ((c.queue (.headers id isEndStream)).linkSending id).requestWrite := by
    intro c id isEndStream
    exact .tail (.tail (.single (.queue (.headers id isEndStream) nofun))
      (.configure _ _ _ _ _ _ _ _)) .requestWrite
  unfold onConnect
  rw [ha]
  exact ht.keeps hrd (keeps_of_acts (hc _ _ _)) (counts_of_acts (hc _ _ _))

lemma sound_onRead {data : Bytes} {env : ℕ → Env} (he : ∀ i, (env i).accepts = true)
    (ho : EachFrame (fun c frame _ => OpenHeaders c frame) (c.input ++ data).length
      { c with ioTimeout := false, input := c.input ++ data } env) (room : ℕ → ℕ) :
    Sound (onRead c data env room) := by
  have hi : Sound { c with ioTimeout := false, input := c.input ++ data } :=
    h.quiet hrd hrd rfl rfl rfl rfl rfl h.defer
  have hp := hi.parseInput hrd he ho
  unfold onRead
  dsimp only
  generalize parseInput _ _ _ = c1 at hp ⊢
  unfold flushAfterRead
  split
  · exact hp
  · have ht : ∀ c2 : Conn, Sound c2 → Sound { c2 with ioTimeout := true } :=
      fun c2 h2 => h2.sends ⟨rfl, .inl (.inl rfl), fun _ => rfl, rfl, rfl, rfl⟩ h2.defer h2.pending
    split
    · next hd => exact ht _ (hp.deferred hd room)
    · exact ht _ hp

omit hrd

lemma sound_onWriteComplete (hl : c.isAlive = true)
    {reply : ℕ → ProceedReply} (hr : ∀ id, reply id ≠ .cancel) (room : ℕ → ℕ) :
    Sound (onWriteComplete c reply room) := by
  unfold onWriteComplete
  extract_lets c1
  have h1 : Sound c1 :=
    h.sends ⟨rfl, .inl (.inl rfl), fun _ => rfl, rfl, rfl, rfl⟩ nofun fun _ => nofun
  split
  · next hc =>
    rcases hc with hc | hc
    · exact (h1.settled_of_closing hc).freed
    · exact (h1.settled_of_numStreams hc.2).freed
  · next hc =>
    have hrd : c1.isReading = true := isReading_of_alive hl fun ht => hc (.inl ht)
    have hs : Sound { c1 with sentStreams := [] } :=
      h1.quiet hrd hrd rfl rfl rfl rfl rfl h1.defer
    have hac : Acts .inOrder { c1 with sentStreams := [] }
        (c1.sentStreams.foldl (proceedStream reply) { c1 with sentStreams := [] }) :=
      acts_proceedStreams trivial (fun _ => hr) _
    have hk := keeps_of_acts hac
    have hp := hs.keeps hrd hk (counts_of_acts hac)
    split
    · exact hp
    · next ha =>
      refine hp.continueWriting ?_ hk.writing room
      rcases hk.state with ht | ht
      · unfold isReading at hrd ⊢
        rw [ht]
        exact hrd
      · exact absurd ht ha

/-- The keep-alive timer runs when there are no streams. -/
lemma sound_onKeepaliveTimeout (hl : c.isAlive = true)
    (hi : c.keepaliveTimeout = true) : Sound (onKeepaliveTimeout c) := by
  have hs : Sound { c with keepaliveTimeout := false } :=
    { h with keepalive := nofun, counted := h.counted.same rfl rfl fun _ => rfl }
  have hg : Sound (enqueueGoaway { c with keepaliveTimeout := false } none none) ∧
      (enqueueGoaway { c with keepaliveTimeout := false } none none).numStreams =
        c.numStreams := by
    by_cases hc : c.state = .isClosing
    · unfold enqueueGoaway
      rw [if_pos hc]
      exact ⟨hs, rfl⟩
    · refine ⟨(hs.enqueueGoaway (isReading_of_alive hl hc) none none).1, ?_⟩
      unfold enqueueGoaway
      rw [if_neg hc]
      rfl
  obtain ⟨hn, hu⟩ := hg
  exact (hn.requestWrite.settled_of_numStreams (hu.trans (h.keepalive hi))).closeConnection

omit h

lemma sends_updateWindow (hs : c.streams id = some s) (hr : s'.res = s.res) :
    Sends c (c.updateWindow id s') := by
  unfold updateWindow
  split
  · exact ⟨rfl, .inl (.inr rfl), fun _ => rfl, rfl, rfl, rfl⟩
  · split
    · exact ⟨rfl, .inl (.inl rfl), fun _ => rfl, rfl, rfl, rfl⟩
    · exact ⟨rfl, .inl (.inl rfl), res_update hs rfl hr, rfl, rfl, rfl⟩

include h

/-- The application takes data out of the buffer. -/
lemma sound_consume (hs : c.streams id = some s) (n : ℕ) :
    Sound ((c.setStream id { s with body := s.body.drop n }).updateWindow id
      { s with body := s.body.drop n }) := by
  generalize hn : { s with body := s.body.drop n } = s1
  have hr : s1.res = s.res := hn ▸ rfl
  have he : (c.setStream id s1).streams id = some s1 := update_self _ _ _
  have ht : Sound (c.setStream id s1) := h.sends (sends_setStream hs hr) h.defer h.pending
  have hk : Keeps (c.setStream id s1) ((c.setStream id s1).updateWindow id s1) :=
    keeps_of_acts (acts_updateWindow he)
  refine ht.sends (sends_updateWindow he rfl) (fun hw => ?_) fun hst hw => ?_
  · rw [hk.writing] at hw
    exact (hk.defer hw).trans (h.defer hw)
  · rw [hk.writing] at hw
    rw [hk.inFlight]
    refine h.pending ?_ hw
    rcases hk.state with hq | hq
    · exact hq.symm.trans hst
    · exact nomatch hq.symm.trans hst

/-- An event keeps the invariant, if it is orderly. -/
lemma Sound.step {e : Event} (ho : Orderly c e) (hstep : step c e = some c') : Sound c' := by
  cases e with
  | connect r =>
    obtain ⟨⟨hl, -⟩, rfl⟩ := of_guard hstep
    exact sound_onConnect h (isReading_of_alive hl ho.2.1) ho.1 ho.2.2
  | read data env room =>
    obtain ⟨hrd, rfl⟩ := of_guard hstep
    exact sound_onRead h hrd ho.1 ho.2 room
  | readError =>
    obtain ⟨hrd, rfl⟩ := of_guard hstep
    have ht : Sound { c with ioTimeout := false } :=
      h.quiet hrd hrd rfl rfl rfl rfl rfl h.defer
    exact (ht.callAll hrd _).closeConnection
  | writeComplete reply room =>
    obtain ⟨⟨hl, -⟩, rfl⟩ := of_guard hstep
    exact sound_onWriteComplete h hl ho room
  | writeError =>
    obtain ⟨⟨hl, -⟩, rfl⟩ := of_guard hstep
    unfold onWriteError
    split
    · next hc => exact (h.settled_of_closing hc).freed
    · next hc => exact (h.callAll (isReading_of_alive hl hc) _).freed
  | notifyWrite failed room =>
    obtain ⟨⟨hl, hr, hf⟩, rfl⟩ := of_guard hstep
    have hrd : c.isReading = true := by
      refine isReading_of_alive hl fun hc => ?_
      have hso := h.pending hc hr
      rw [isNone_iff_eq_none.1 hf] at hso
      cases hso
    unfold onNotifyWrite
    split
    · exact (h.callAll hrd _).freed
    · have hi : Sound { c with writing := false } :=
        h.quiet hrd hrd rfl rfl rfl rfl rfl nofun
      exact (hi.doEmitWritereq (h.defer hr) rfl room).closeConnectionIfNecessary
  | deferTimeout room =>
    obtain ⟨⟨hl, hd⟩, rfl⟩ := of_guard hstep
    exact h.deferred hd room
  | streamTimeout id =>
    obtain ⟨s, hs, ⟨hl, -⟩, rfl⟩ := of_streamGuard hstep
    have ha : Acts .inOrder c (doStreamTimeout c id s) := by
      refine .single (.error hs rfl ?_)
      split <;> decide
    exact h.keeps (isReading_of_alive hl ho) (keeps_of_acts ha) (counts_of_acts ha)
  | ioTimeout =>
    obtain ⟨⟨hl, -⟩, rfl⟩ := of_guard hstep
    exact (h.tell (isReading_of_alive hl ho) _).freed
  | keepaliveTimeout =>
    obtain ⟨⟨hl, hi⟩, rfl⟩ := of_guard hstep
    exact sound_onKeepaliveTimeout h hl hi
  | writeReq id chunk isEndStream =>
    obtain ⟨s, hs, -, rfl⟩ := of_streamGuard hstep
    have hk := keeps_of_acts (acts_doWriteReq hs chunk isEndStream)
    have he : Sends c (doWriteReq c id s chunk isEndStream) :=
      ⟨rfl, .inl (.inl rfl), res_update hs rfl rfl, rfl, rfl, rfl⟩
    exact h.sends he (fun hw => (hk.defer hw).trans (h.defer hw)) h.pending
  | cancel id => exact ho.elim
  | consume id n =>
    obtain ⟨s, hs, -, rfl⟩ := of_streamGuard hstep
    exact sound_consume h hs n

omit h

lemma sound_new (maxBufferSize : ℕ) (inPool : Bool) : Sound (Conn.new maxBufferSize inPool) where
  parity := .inl rfl
  opened _ _ := no_stream
  inPhase _ _ := no_stream
  ended id hi _ := by
    obtain ⟨ho, hl⟩ := hi
    have hz : id = 0 := Nat.le_zero.1 hl
    rw [hz] at ho
    cases ho
  fresh _ _ := rfl
  keepalive hk := nomatch hk
  defer hw := nomatch hw
  pending hs := nomatch hs
  counted := ⟨fun _ _ => no_stream, rfl⟩

/-- The callbacks of every stream come in order, and a stream that is freed has been told its end,
in every run in which the events are orderly. -/
theorem callbacks_of_reach {c : Conn} (h : Reach Orderly c) (id : ℕ) : c.FollowsProtocol id := by
  have hs : Sound c := by
    induction h with
    | new maxBufferSize inPool _ => exact sound_new maxBufferSize inPool
    | step _ ho hstep ih => exact ih.step ho hstep
  exact hs.followsProtocol id

/-! ## Runs that are not orderly -/

/-- After these events a stream has been told what the protocol excludes. -/
def Breaks (events : List Event) (id : ℕ) (log : List Callback) : Prop :=
  ∃ c, run (Conn.new 65536 true) events = some c ∧ Reach (fun _ _ => True) c ∧ c.log id = log ∧
    ¬ c.FollowsProtocol id

lemma breaks_of_run {log : List Callback} {events : List Event}
    (h : (run (Conn.new 65536 true) events).any
      (fun c => decide (c.log id = log ∧ ¬ c.FollowsProtocol id)) = true) :
    Breaks events id log := by
  obtain ⟨c, hc, hb⟩ := exists_of_any h
  exact ⟨c, hc, (Reach.new 65536 true (by decide)).run (fun _ _ => trivial) hc, hb⟩

/-- A first frame that is not SETTINGS. -/
def badPreface : Event := .read [0, 0, 0, 1, 4, 0, 0, 0, 1] (fun _ => acceptAll) fun _ => 0

/-- A response comes again while the request is being sent: `on_head` is called twice. The I/O
timer fires while the last frames are being written, or the timer of a stream does: the application
is told two errors. A request is given to a connection that is closing: its stream is freed without
a callback. -/
theorem callbacks_broken :
    Breaks [.connect uploadRequest,
      .read ([0, 0, 0, 4, 0, 0, 0, 0, 0] ++ [0, 0, 1, 1, 5, 0, 0, 0, 1, 0x88] ++
        [0, 0, 1, 1, 4, 0, 0, 0, 1, 0x88]) (fun _ => acceptAll) fun _ => 0]
      1 [.onHead (some .isEos) 200 [], .onHead none 200 []] ∧
    Breaks [.connect plainRequest, .deferTimeout fun _ => 0, badPreface, .ioTimeout]
      1 [.onHead (some .protocolViolation) 0 [], .onHead (some .firstByteTimeout) 0 []] ∧
    Breaks [.connect plainRequest, .deferTimeout fun _ => 0,
      .writeComplete (fun _ => .later) fun _ => 0, .connect plainRequest,
      .deferTimeout fun _ => 0, badPreface, .streamTimeout 1]
      1 [.onHead (some .protocolViolation) 0 [], .onHead (some .firstByteTimeout) 0 []] ∧
    Breaks [.connect plainRequest, .deferTimeout fun _ => 0, .readError, .connect plainRequest,
      .writeComplete (fun _ => .later) fun _ => 0] 3 [] :=
  ⟨breaks_of_run rfl, breaks_of_run rfl, breaks_of_run rfl, breaks_of_run rfl⟩

/-- A request on a connection that times out: its stream is told so, and freed. -/
theorem callbacks_of_reach_timeout : ∃ c : Conn, Reach Orderly c ∧ c.opened 1 ∧
    c.streams 1 = none ∧ c.log 1 = [.onHead (some .firstByteTimeout) 0 []] ∧
    c.FollowsProtocol 1 := by
  have hr : Reach Orderly (onIoTimeout (onConnect (new 65536 true) plainRequest)) := by
    have hc : Reach Orderly (onConnect (new 65536 true) plainRequest) :=
      .step (e := .connect plainRequest) (.new 65536 true (by decide))
        ⟨rfl, nofun, (by decide : 0 + 2 < 2 ^ 32)⟩ rfl
    exact .step (e := .ioTimeout) hc (by decide : ConnState.open ≠ .isClosing) rfl
  exact ⟨_, hr, ⟨rfl, le_rfl⟩, rfl, rfl, callbacks_of_reach hr 1⟩

end Vhttp.Http2Client
