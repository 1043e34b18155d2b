import Vhttp.Http2Client.Actions

/-!
# The streams of the client

A stream is registered until both its request and its response are closed. `num_streams` counts
the registered streams.

* `registers_of_acts`: no action but the end of a request leaves a stream behind whose two sides are
  closed.
* `released_of_reach`: no event does, if no write completes the request of a stream whose response
  has come before; `num_streams` is right, as long as no stream gets the id of another one.
* `released_not_uploaded`: a response that comes before the end of the request leaves its stream.
-/

namespace Vhttp.Http2Client

open Function Option Finset Conn

variable {c c' c'' : Conn} {id : ℕ} {s s' : Stream} {env : Env}

/-! ## Counting -/

/-- `num_streams` is right. -/
structure Counted (c : Conn) : Prop where
  bound : ∀ id s, c.streams id = some s → id ≤ c.maxOpenStreamId
  count : c.numStreams = c.registered

/-- A connection that counts no streams has none. -/
lemma Counted.streams_none (h : Counted c) (hz : c.numStreams = 0) (id : ℕ) :
    c.streams id = none := by
  cases hs : c.streams id with
  | none => rfl
  | some s =>
    have he := card_eq_zero.1 (h.count.symm.trans hz)
    have hmem : id ∈ (range (c.maxOpenStreamId + 1)).filter
        fun id => (c.streams id).isSome := by
      rw [mem_filter, mem_range, hs]
      exact ⟨Nat.lt_succ_of_le (h.bound id s hs), rfl⟩
    rw [he] at hmem
    exact absurd hmem (notMem_empty id)

/-- The same streams are registered. -/
lemma Counted.same (h : Counted c) (hm : c'.maxOpenStreamId = c.maxOpenStreamId)
    (hn : c'.numStreams = c.numStreams)
    (ht : ∀ id, (c'.streams id).isSome = (c.streams id).isSome) : Counted c' := by
  refine ⟨fun id s' hs' => ?_, ?_⟩
  · have ho := ht id
    rw [hs', isSome_some] at ho
    obtain ⟨s, hs⟩ := isSome_iff_exists.1 ho.symm
    rw [hm]
    exact h.bound id s hs
  · unfold registered
    rw [hn, h.count, hm]
    simp only [ht]
    rfl

/-- Some streams are not registered any more. -/
lemma Counted.remove (h : Counted c) (gone : Finset ℕ)
    (hg : ∀ id ∈ gone, (c.streams id).isSome = true) (hm : c'.maxOpenStreamId = c.maxOpenStreamId)
    (hn : c'.numStreams = c.numStreams - gone.card)
    (ht : ∀ id, (c'.streams id).isSome = (decide (id ∉ gone) && (c.streams id).isSome)) :
    Counted c' := by
  have hmem : ∀ id, id ∈ gone → id ∈ range (c.maxOpenStreamId + 1) := by
    intro id hi
    obtain ⟨s, hs⟩ := isSome_iff_exists.1 (hg id hi)
    exact mem_range.2 (Nat.lt_succ_of_le (h.bound id s hs))
  refine ⟨fun id s' hs' => ?_, ?_⟩
  · have ho := ht id
    rw [hs', isSome_some] at ho
    obtain ⟨s, hs⟩ := isSome_iff_exists.1 (Bool.and_eq_true_iff.1 ho.symm).2
    rw [hm]
    exact h.bound id s hs
  · unfold registered
    rw [hn, h.count, hm]
    unfold registered
    rw [← card_sdiff_of_subset]
    · congr 1
      ext id
      simp only [mem_sdiff, mem_filter, ht, Bool.and_eq_true, decide_eq_true_eq]
      exact ⟨fun h => ⟨h.1.1, h.2, h.1.2⟩, fun h => ⟨⟨h.1, h.2.2⟩, h.2.1⟩⟩
    · intro id hi
      exact mem_filter.2 ⟨hmem id hi, hg id hi⟩

/-- What an operation does to the count; the keep-alive timer starts with the last stream. -/
structure Counts (c c' : Conn) : Prop where
  counted : Counted c → Counted c'
  le : c'.numStreams ≤ c.numStreams
  keepalive : c'.keepaliveTimeout = true → c.keepaliveTimeout = true ∨ c'.numStreams = 0

lemma Counts.trans (h : Counts c c') (h' : Counts c' c'') : Counts c c'' where
  counted hc := h'.counted (h.counted hc)
  le := h'.le.trans h.le
  keepalive hk := by
    rcases h'.keepalive hk with hk | hz
    · rcases h.keepalive hk with hk | hz
      · exact .inl hk
      · exact .inr (Nat.le_zero.1 (hz ▸ h'.le))
    · exact .inr hz

/-! ## Registered streams -/

/-- What an operation does to the streams: the requests stay as they are, and a response ends only
if the request has not. -/
structure Registers (c c' : Conn) : Prop extends Counts c c' where
  streams : ∀ id s', c'.streams id = some s' → ∃ s, c.streams id = some s ∧ s'.req = s.req ∧
    (s'.res = .closed → s.res = .closed ∨ s.req ≠ .closed)

lemma Registers.trans (h : Registers c c') (h' : Registers c' c'') : Registers c c'' where
  toCounts := h.toCounts.trans h'.toCounts
  streams id s'' hs'' := by
    obtain ⟨s', hs', hr', he'⟩ := h'.streams id s'' hs''
    obtain ⟨s, hs, hr, he⟩ := h.streams id s' hs'
    refine ⟨s, hs, hr'.trans hr, fun hc => ?_⟩
    rcases he' hc with h | h
    · exact he h
    · rw [hr] at h
      exact .inr h

section SameCount

variable (hm : c'.maxOpenStreamId = c.maxOpenStreamId) (hn : c'.numStreams = c.numStreams)
  (ha : c'.keepaliveTimeout = c.keepaliveTimeout)
include hm hn ha

lemma Counts.same (hs : ∀ id, (c'.streams id).isSome = (c.streams id).isSome) : Counts c c' :=
  ⟨fun hc => hc.same hm hn hs, hn.le, fun hk => .inl (ha ▸ hk)⟩

/-- The streams stay as they are. -/
lemma Registers.quiet (ht : c'.streams = c.streams) : Registers c c' where
  toCounts := .same hm hn ha fun id => by rw [ht]
  streams id s hs := ⟨s, ht ▸ hs, rfl, .inl⟩

/-- A stream is written back. -/
lemma Registers.update (s' : Stream) (hs : c.streams id = some s) (hr : s'.req = s.req)
    (he : s'.res = .closed → s.res = .closed ∨ s.req ≠ .closed)
    (ht : c'.streams = update c.streams id (some s')) : Registers c c' where
  toCounts := .same hm hn ha fun j => by
    rw [ht]
    by_cases hj : j = id
    · rw [hj, update_self, hs]
      rfl
    · rw [update_of_ne hj]
  streams j s1 hs1 := by
    rw [ht] at hs1
    by_cases hj : j = id
    · rw [hj, update_self] at hs1
      cases hs1
      exact ⟨s, hj ▸ hs, hr, he⟩
    · rw [update_of_ne hj] at hs1
      exact ⟨s1, hs1, rfl, .inl⟩

/-- All streams change, but for what the relation is about. -/
lemma Registers.map (f : Stream → Stream) (hf : ∀ s, (f s).req = s.req ∧ (f s).res = s.res)
    (ht : ∀ id, c'.streams id = (c.streams id).map f) : Registers c c' where
  toCounts := .same hm hn ha fun id => by rw [ht, isSome_map]
  streams id s' hs' := by
    rw [ht] at hs'
    obtain ⟨s, hs, rfl⟩ := map_eq_some_iff.1 hs'
    refine ⟨s, hs, (hf s).1, fun hl => .inl ?_⟩
    rw [← (hf s).2]
    exact hl

end SameCount

lemma Registers.refl (c : Conn) : Registers c c := .quiet rfl rfl rfl rfl

lemma registers_closeStream (hs : (c.streams id).isSome = true) :
    Registers c (c.closeStream id) where
  counted hc := by
    refine hc.remove {id} (fun j hj => ?_) rfl ?_ fun j => ?_
    · rw [mem_singleton.1 hj]
      exact hs
    · rw [card_singleton]
      rfl
    · by_cases hj : j = id
      · rw [hj, closeStream_self, decide_eq_false (by simp)]
        rfl
      · rw [closeStream_of_ne hj, decide_eq_true (by simpa using hj), Bool.true_and]
  le := Nat.sub_le _ _
  keepalive hk := by
    rcases Bool.or_eq_true_iff.1 hk with hk | hk
    · exact .inl hk
    · exact .inr (eq_of_beq hk)
  streams j s hj := by
    by_cases hi : j = id
    · rw [hi, closeStream_self] at hj
      cases hj
    · rw [closeStream_of_ne hi] at hj
      exact ⟨s, hj, rfl, .inl⟩

lemma registers_setStream (hs : c.streams id = some s) (hr : s'.req = s.req)
    (he : s'.res = .closed → s.res = .closed ∨ s.req ≠ .closed) :
    Registers c (c.setStream id s') := .update rfl rfl rfl s' hs hr he rfl

lemma registers_closeResponse (hs : c.streams id = some s) (hr : s'.req = s.req) :
    Registers c (c.closeResponse id s') := by
  unfold closeResponse
  split
  · exact .quiet rfl rfl rfl rfl
  split
  · exact registers_closeStream (isSome_of_eq_some hs)
  · next ho =>
    rw [hr] at ho
    exact registers_setStream hs hr fun _ => .inr ho

/-- The streams above the limit are closed. -/
lemma registers_refuseStreams (last : ℕ) : Registers c (refuseStreams c last) where
  counted hc := by
    refine hc.remove ((range (c.maxOpenStreamId + 1)).filter fun id =>
      last < id ∧ (c.streams id).isSome) (fun id hi => ?_) rfl rfl fun id => ?_
    · exact (mem_filter.1 hi).2.2
    · show (if last < id then none else c.streams id).isSome = _
      by_cases hl : last < id
      · rw [if_pos hl]
        cases hs : c.streams id with
        | none => rw [isSome_none, Bool.and_false]
        | some s =>
          rw [decide_eq_false, Bool.false_and]
          · rfl
          · rw [not_not, mem_filter, mem_range, hs]
            exact ⟨Nat.lt_succ_of_le (hc.bound id s hs), hl, rfl⟩
      · rw [if_neg hl, decide_eq_true, Bool.true_and]
        exact fun hi => hl (mem_filter.1 hi).2.1
  le := Nat.sub_le _ _
  keepalive hk := by
    rcases Bool.or_eq_true_iff.1 hk with hk | hk
    · exact .inl hk
    · exact .inr (eq_of_beq (Bool.and_eq_true_iff.1 hk).1)
  streams id s hs := by
    have hs : (if last < id then none else c.streams id) = some s := hs
    split at hs
    · cases hs
    · exact ⟨s, hs, rfl, .inl⟩

/-- No stream is left. -/
lemma registers_closeConnectionNow : Registers c c.closeConnectionNow where
  counted hc := by
    refine ⟨fun _ _ => no_stream, ?_⟩
    have he : c.closeConnectionNow.registered = 0 := by
      unfold registered
      rw [card_eq_zero, filter_eq_empty_iff]
      exact fun _ _ => nofun
    rw [he]
    exact Nat.sub_eq_zero_of_le hc.count.le
  le := Nat.sub_le _ _
  keepalive := nofun
  streams _ _ := no_stream

lemma registers_callAll (err : Error) : Registers c (c.callStreamCallbacksWithError err) :=
  .map rfl rfl rfl afterError (fun _ => ⟨rfl, rfl⟩) fun _ => rfl

/-! ## Actions -/

variable {σ : Scope}

/-- What an action does to the streams; the end of a request is told apart. -/
lemma registers_of_act (h : Act σ c c') : Registers c c' ∨
    σ.written ∧ ∃ id s s', c.streams id = some s ∧ c' = c.setStream id s' := by
  cases h with
  | requestSent h hs => exact .inr ⟨h, _, _, _, hs, rfl⟩
  | updateConnWindow =>
    refine .inl ?_
    unfold updateConnWindow
    split
    · exact .refl c
    · exact .quiet rfl rfl rfl rfl
  | amend hs hr he _ => exact .inl (registers_setStream hs hr fun h => .inl (he ▸ h))
  | map f hf =>
    exact .inl (.map rfl rfl rfl f (fun s => ⟨(hf s).1, (hf s).2.res⟩) fun _ => rfl)
  | @error id _ _ _ hs _ _ =>
    have h : Registers c (c.closeStream id) := registers_closeStream (isSome_of_eq_some hs)
    refine .inl ⟨⟨fun hc => (h.counted hc).same rfl rfl fun j => ?_, h.le, h.keepalive⟩, ?_⟩
    · rw [error_closeStream_streams]
    · rw [error_closeStream_streams]
      exact h.streams
  | refuse last => exact .inl (registers_refuseStreams last)
  | answer hs _ hr he _ =>
    exact .inl (.update rfl rfl rfl _ hs hr (fun h => .inl (he h)) rfl)
  | @finish id _ _ cb hs _ hr _ =>
    have ha : Registers c (c.call id cb) := .quiet rfl rfl rfl rfl
    exact .inl (ha.trans (registers_closeResponse hs hr))
  | @reset id _ hs code =>
    have her : Registers c (c.streamSendError id code) := .quiet rfl rfl rfl rfl
    exact .inl (her.trans (registers_closeStream hs))
  | stopKeepalive =>
    exact .inl ⟨⟨fun hc => hc.same rfl rfl fun _ => rfl, le_rfl, nofun⟩,
      fun _ s hs => ⟨s, hs, rfl, .inl⟩⟩
  | free => exact .inl registers_closeConnectionNow
  | _ => exact .inl (.quiet rfl rfl rfl rfl)

/-- What actions do to the streams, if no request ends. -/
theorem registers_of_acts (h : Acts .event c c') : Registers c c' :=
  h.rule Registers.refl Registers.trans fun h => (registers_of_act h).resolve_right fun h => h.1

lemma counts_setStream (hs : c.streams id = some s) : Counts c (c.setStream id s') where
  counted hc := hc.same rfl rfl fun j => by
    by_cases hj : j = id
    · rw [hj, setStream_self, hs]
      rfl
    · rw [setStream_of_ne hj]
  le := le_rfl
  keepalive := .inl

/-- What actions do to the count. -/
lemma counts_of_acts (h : Acts σ c c') : Counts c c' := by
  refine h.rule (fun c => (Registers.refl c).toCounts) Counts.trans fun h => ?_
  rcases registers_of_act h with h | ⟨-, id, s, s', hs, rfl⟩
  · exact h.toCounts
  · exact counts_setStream hs

/-! ## The end of a request -/

/-- No stream is registered whose request and response are closed. -/
def Released (c : Conn) : Prop :=
  ∀ id s, c.streams id = some s → ¬ (s.req = .closed ∧ s.res = .closed)

lemma Registers.released (h : Registers c c') (hc : Released c) : Released c' := by
  rintro id s' hs' ⟨hr', he'⟩
  obtain ⟨s, hs, he, hr⟩ := h.streams id s' hs'
  rw [he] at hr'
  rcases hr he' with hr | ho
  · exact hc id s hs ⟨hr', hr⟩
  · exact ho hr'

/-- If the response of the stream has ended, then there is more of the request to come. -/
def Busy (c : Conn) (id : ℕ) : Prop :=
  ∀ s, c.streams id = some s → s.res = .closed → s.proceedReq = true ∨ id ∈ c.sendingStreams

/-- The request of a stream ends, whose response has not. -/
lemma released_finishRequest (h : Released c) (hb : Busy c id) :
    Released (finishRequest c id) ∧ ∀ j, Busy c j → Busy (finishRequest c id) j := by
  unfold finishRequest
  split
  · exact ⟨h, fun _ hj => hj⟩
  · next s hs =>
    split
    · next hd =>
      have ho : s.res ≠ .closed := by
        intro hr
        rcases hb s hs hr with hp | he
        · rw [hp] at hd
          cases hd.1
        · exact hd.2 he
      constructor
      · intro j s' hs'
        by_cases hj : j = id
        · rw [hj, setStream_self] at hs'
          cases hs'
          exact fun hc => ho hc.2
        · rw [setStream_of_ne hj] at hs'
          exact h j s' hs'
      · intro j hj s' hs' hr'
        by_cases hi : j = id
        · rw [hi, setStream_self] at hs'
          cases hs'
          exact absurd hr' ho
        · rw [setStream_of_ne hi] at hs'
          exact hj s' hs' hr'
    · exact ⟨h, fun _ hj => hj⟩

lemma busy_doWriteReq {chunk : Bytes} {isEndStream : Bool} {j : ℕ} (hj : j = id ∨ Busy c j) :
    Busy (doWriteReq c id s chunk isEndStream) j := by
  intro s' hs' hr'
  have hs : (doWriteReq c id s chunk isEndStream).sendingStreams = c.sendingStreams ++ [id] := rfl
  rw [hs, List.mem_append, List.mem_singleton]
  by_cases hi : j = id
  · exact .inr (.inr hi)
  · have ho : (doWriteReq c id s chunk isEndStream).streams j = c.streams j :=
      update_of_ne hi _ _
    rw [ho] at hs'
    rcases hj.resolve_left hi s' hs' hr' with h | h
    · exact .inl h
    · exact .inr (.inl h)

lemma busy_doCancel {j : ℕ} (hj : Busy c j) : Busy (doCancel c id) j := by
  intro s' hs' hr'
  by_cases hi : j = id
  · have hn : (doCancel c id).streams id = none := update_self _ _ _
    rw [hi, hn] at hs'
    cases hs'
  · have ho : (doCancel c id).streams j = c.streams j := update_of_ne hi _ _
    have hs : (doCancel c id).sendingStreams = c.sendingStreams.filter (· ≠ id) := rfl
    rw [ho] at hs'
    rw [hs, List.mem_filter]
    rcases hj s' hs' hr' with h | h
    · exact .inl h
    · exact .inr ⟨h, by simpa using hi⟩

lemma released_proceedStream (reply : ℕ → ProceedReply) (h : Released c) (hb : Busy c id) :
    Released (proceedStream reply c id) ∧ ∀ j, Busy c j → Busy (proceedStream reply c id) j := by
  unfold proceedStream
  split
  · exact ⟨h, fun _ hj => hj⟩
  · next s hs =>
    split
    · extract_lets c1
      have ha : Registers c c1 := .quiet rfl rfl rfl rfl
      have hs1 : c1.streams id = some s := hs
      have hb1 : ∀ j, Busy c j → Busy c1 j := fun _ hj => hj
      clear_value c1
      have h1 := ha.released h
      split
      · obtain ⟨hf, ho⟩ := released_finishRequest h1 (hb1 id hb)
        exact ⟨hf, fun j hj => ho j (hb1 j hj)⟩
      · next chunk isEndStream _ =>
        have h2 := (registers_of_acts (acts_doWriteReq hs1 chunk isEndStream)).released h1
        obtain ⟨hf, ho⟩ := released_finishRequest h2 (busy_doWriteReq (.inl rfl))
        exact ⟨hf, fun j hj => ho j (busy_doWriteReq (.inr (hb1 j hj)))⟩
      · have hc : Act .event c1 (doCancel c1 id) :=
          .reset not_false (isSome_of_eq_some hs1) _
        refine ⟨(registers_of_acts (.single hc)).released h1, ?_⟩
        exact fun j hj => busy_doCancel (hb1 j hj)
    · exact released_finishRequest h hb

lemma released_proceedStreams {reply : ℕ → ProceedReply} {ids : List ℕ} (h : Released c)
    (hb : ∀ id ∈ ids, Busy c id) : Released (ids.foldl (proceedStream reply) c) := by
  induction ids generalizing c with
  | nil => exact h
  | cons id ids ih =>
    obtain ⟨hn, ho⟩ := released_proceedStream reply h (hb id List.mem_cons_self)
    exact ih hn fun j hj => ho j (hb j (List.mem_cons_of_mem id hj))

/-! ## Runs -/

/-- No write completes the request of a stream whose response has ended, and every stream gets an id
of its own. -/
def ResponseLast (c : Conn) : Event → Prop
  | .connect _ => c.FreshId
  | .writeComplete _ _ => ∀ id ∈ c.sentStreams, ∀ s, c.streams id = some s →
      s.res = .closed → s.proceedReq = true
  | _ => True

lemma registerStream_self : (c.registerStream s).streams c.nextStreamId = some s :=
  update_self _ _ _

lemma registerStream_of_ne (h : id ≠ c.nextStreamId) :
    (c.registerStream s).streams id = c.streams id := update_of_ne h _ _

lemma FreshId.lt (h : c.FreshId) : c.maxOpenStreamId < c.nextStreamId := by
  unfold nextStreamId
  rw [Nat.mod_eq_of_lt h]
  split <;> omega

lemma counted_registerStream (h : Counted c) (hf : c.FreshId) (s : Stream) :
    Counted (c.registerStream s) := by
  have hn := FreshId.lt hf
  refine ⟨fun id s' hs' => ?_, ?_⟩
  · by_cases hd : id = c.nextStreamId
    · exact hd.le
    · rw [registerStream_of_ne hd] at hs'
      exact (h.bound id s' hs').trans hn.le
  · show c.numStreams + 1 = _
    have hi : (range (c.nextStreamId + 1)).filter
          (fun id => ((c.registerStream s).streams id).isSome) =
        insert c.nextStreamId ((range (c.maxOpenStreamId + 1)).filter
          fun id => (c.streams id).isSome) := by
      ext id
      rw [mem_insert, mem_filter, mem_filter, mem_range, mem_range]
      by_cases hd : id = c.nextStreamId
      · rw [hd, registerStream_self]
        exact ⟨fun _ => .inl rfl, fun _ => ⟨Nat.lt_succ_self _, rfl⟩⟩
      · rw [registerStream_of_ne hd]
        constructor
        · rintro ⟨-, hso⟩
          obtain ⟨s', hs'⟩ := isSome_iff_exists.1 hso
          exact .inr ⟨Nat.lt_succ_of_le (h.bound id s' hs'), hso⟩
        · rintro (he | ⟨hl, hso⟩)
          · exact absurd he hd
          · exact ⟨by omega, hso⟩
    rw [h.count]
    unfold registered
    show _ = ((range (c.nextStreamId + 1)).filter _).card
    rw [hi, card_insert_of_notMem]
    rw [mem_filter, mem_range]
    omega

/-- A new request. -/
lemma counted_onConnect (h : Counted c) (hf : c.FreshId) (r : Request) :
    Counted (onConnect c r) := by
  unfold onConnect
  extract_lets id1 s1 c0 c1
  have hr : Counted c1 :=
    (counted_registerStream h hf s1).same rfl rfl fun _ => rfl
  have hs : c1.streams id1 = some s1 := update_self _ _ _
  clear_value c1
  split
  · exact (registers_closeStream (isSome_of_eq_some hs)).counted hr
  · exact hr.same rfl rfl fun _ => rfl

lemma released_onConnect (h : Released c) (r : Request) : Released (onConnect c r) := by
  unfold onConnect
  extract_lets id1 s1 c0 c1
  have he : c1.streams id1 = some s1 := update_self _ _ _
  have hr : Released c1 := by
    intro id s hs
    by_cases hi : id = id1
    · rw [hi, he] at hs
      cases hs
      exact fun hc => nomatch hc.2
    · have ho : c1.streams id = c.streams id := update_of_ne hi _ _
      rw [ho] at hs
      exact h id s hs
  clear_value c1
  split
  · exact (registers_closeStream (isSome_of_eq_some he)).released hr
  · exact hr

/-- The events that neither begin nor end a request. -/
lemma registers_step {e : Event} (hstep : step c e = some c') (hc : ∀ r, e ≠ .connect r)
    (hw : ∀ reply room, e ≠ .writeComplete reply room) : Registers c c' := by
  refine registers_of_acts ?_
  by_cases hr : ∃ data env room, e = .read data env room
  · obtain ⟨data, env, room, rfl⟩ := hr
    obtain ⟨-, rfl⟩ := of_guard hstep
    exact .head (.timers trivial false _ _ _) (acts_parseInput.trans
      (acts_flushAfterRead trivial room))
  · push Not at hr
    exact acts_step trivial (fun _ => trivial) hstep hc hr hw False.elim

/-- `on_write_complete`, up to the loop over the streams whose requests were sent. -/
lemma onWriteComplete_cases (reply : ℕ → ProceedReply) (room : ℕ → ℕ) :
    Registers c (onWriteComplete c reply room) ∨
      ∃ c1 : Conn, Registers c c1 ∧ (∀ id, Busy c id → Busy c1 id) ∧
        Registers (c.sentStreams.foldl (proceedStream reply) c1)
          (onWriteComplete c reply room) := by
  unfold onWriteComplete
  extract_lets c1 c2
  have hw : Registers c c1 := .quiet rfl rfl rfl rfl
  split
  · exact .inl (hw.trans registers_closeConnectionNow)
  · refine .inr ⟨{ c1 with sentStreams := [] }, .quiet rfl rfl rfl rfl, fun _ h => h, ?_⟩
    show Registers c2 _
    split
    · exact .refl c2
    · exact registers_of_acts (acts_continueWriting trivial room)

lemma counted_step {e : Event} (h : Counted c) (hf : ∀ r, e = .connect r → c.FreshId)
    (hstep : step c e = some c') : Counted c' := by
  cases e with
  | connect r =>
    obtain ⟨-, rfl⟩ := of_guard hstep
    exact counted_onConnect h (hf r rfl) r
  | writeComplete reply room =>
    obtain ⟨-, rfl⟩ := of_guard hstep
    rcases onWriteComplete_cases reply room with hc | ⟨c1, hs, -, hr⟩
    · exact hc.counted h
    · have hp : Acts ⟨fun _ => True, False, True, True, True⟩ c1
          (c.sentStreams.foldl (proceedStream reply) c1) :=
        acts_proceedStreams trivial False.elim c.sentStreams
      exact hr.counted ((counts_of_acts hp).counted (hs.counted h))
  | _ => exact (registers_step hstep nofun nofun).counted h

lemma released_step {e : Event} (h : Released c) (ho : ResponseLast c e)
    (hstep : step c e = some c') : Released c' := by
  cases e with
  | connect r =>
    obtain ⟨-, rfl⟩ := of_guard hstep
    exact released_onConnect h r
  | writeComplete reply room =>
    obtain ⟨-, rfl⟩ := of_guard hstep
    rcases onWriteComplete_cases reply room with hc | ⟨c1, he, hb, hre⟩
    · exact hc.released h
    · refine hre.released (released_proceedStreams (he.released h) fun id hi => ?_)
      exact hb id fun s hs hr => .inl (ho id hi s hs hr)
  | _ => exact (registers_step hstep nofun nofun).released h

/-- Streams are released, and counted, in every run in which no write completes the request of a
stream whose response has ended and no id is given twice. -/
theorem released_of_reach {c : Conn} (h : Reach ResponseLast c) : Released c ∧ Counted c := by
  induction h with
  | new maxBufferSize inPool _ => exact ⟨fun _ _ => no_stream, fun _ _ => no_stream, rfl⟩
  | step _ ho hstep ih =>
    refine ⟨released_step ih.1 ho hstep, counted_step ih.2 (fun r he => ?_) hstep⟩
    subst he
    exact ho

/-- A response ends while the request is being sent: when a write completes, the stream has to
wait for the rest of the request. -/
theorem released_of_reach_waiting : ∃ c : Conn, c.numStreams = 1 ∧
    (c.streams 1).map (fun s => (s.req, s.res)) = some (.body, .closed) ∧
    Released c ∧ Counted c := by
  let room : ℕ → ℕ := fun _ => 100
  let data : Bytes := [0, 0, 0, 4, 0, 0, 0, 0, 0] ++ [0, 0, 1, 1, 5, 0, 0, 0, 1, 0x88]
  let c1 := onConnect (new 65536 true) uploadRequest
  let c2 := doEmitWritereq { c1 with deferTimeout := false } room
  let c3 := onRead c2 data (fun _ => acceptAll) room
  have h1 : Reach ResponseLast c1 :=
    .step (e := .connect uploadRequest) (.new 65536 true (by decide))
      (by decide : 0 + 2 < 2 ^ 32) rfl
  have h2 : Reach ResponseLast c2 := .step (e := .deferTimeout room) h1 trivial rfl
  have h3 : Reach ResponseLast c3 :=
    .step (e := .read data (fun _ => acceptAll) room) h2 trivial rfl
  have hc : c3.sentStreams = [1] ∧ (c3.streams 1).map (·.proceedReq) = some true ∧
      c3.isAlive ∧ c3.bufInFlight.isSome := by decide +kernel
  have ho : ResponseLast c3 (.writeComplete (fun _ => .later) room) := by
    intro id hi s hs _
    rw [hc.1] at hi
    rw [List.mem_singleton.1 hi] at hs
    have hp := hc.2.1
    rw [hs] at hp
    exact some.inj hp
  have hs : step c3 (.writeComplete (fun _ => .later) room) =
      some (onWriteComplete c3 (fun _ => .later) room) := by
    unfold step
    exact if_pos hc.2.2
  have h4 : Reach ResponseLast (onWriteComplete c3 (fun _ => .later) room) := .step h3 ho hs
  exact ⟨_, by decide +kernel, by decide +kernel, released_of_reach h4⟩

/-- The response comes before the end of the request: when the request has been sent, both sides are
closed, and the stream stays. -/
theorem released_not_uploaded : ∃ c, Reach (fun _ _ => True) c ∧ ¬ Released c := by
  have hr : (run (new 65536 true) [.connect uploadRequest, .deferTimeout fun _ => 100,
      .read ([0, 0, 0, 4, 0, 0, 0, 0, 0] ++ [0, 0, 1, 1, 5, 0, 0, 0, 1, 0x88])
        (fun _ => acceptAll) (fun _ => 100),
      .writeComplete (fun _ => .write [65] true) (fun _ => 100), .notifyWrite false fun _ => 100,
      .writeComplete (fun _ => .later) fun _ => 100]).map
        (fun c => (c.streams 1).map fun s => (s.req, s.res)) = some (some (.closed, .closed)) := rfl
  obtain ⟨c, hc, hq⟩ := map_eq_some_iff.1 hr
  obtain ⟨s, hs, hcl⟩ := map_eq_some_iff.1 hq
  obtain ⟨he, hre⟩ := Prod.mk.inj hcl
  refine ⟨c, (Reach.new 65536 true (by decide)).run (fun _ _ => trivial) hc, fun hl => ?_⟩
  exact hl 1 s hs ⟨he, hre⟩

end Vhttp.Http2Client
