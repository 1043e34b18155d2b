import Vhttp.Http2.Lifecycle.Events

/-!
# The counters of streams: one stream

Every stream has a weight: what it counts for in the counters of `num_streams`. A function that
works on a stream changes the counters by as much as it changes the weight of the stream
(`Settles`).

* `putState_settles`, `bump_putState_settles`, `leaveCounters_settles`: the state of a stream.
* `setReqBodyState_settles`, `startStreaming_settles`: its request body.
-/

namespace Vhttp.Http2.Lifecycle

open Counter Lifecycle.Stream

open Option (ite_none_right_eq_some)

/-- Whether a stream is counted in `half_closed`: the response is being sent. -/
def isHalfClosed : StreamState → Bool
  | .sendHeaders | .sendBody | .sendBodyIsFinal => true
  | _ => false

/-- Whether a stream is counted in `send_body`. -/
def isSendBody : StreamState → Bool
  | .sendBody | .sendBodyIsFinal => true
  | _ => false

/-- The slot that a stream is counted in: idle streams are there for their priority only. -/
def slotOf (i : ℕ) : StreamState → Option Slot
  | .idle => some .priority
  | .endStream => none
  | _ => some (if isPush i then .push else .pull)

@[simp] lemma slotOf_endStream {i : ℕ} : slotOf i .endStream = none := rfl

/-- The request body of the stream is being streamed. -/
def Stream.streaming (s : Stream) : Bool := s.streamed && s.reqBodyState != .closeDelivered

/-- The condition that a counter stands for, for a stream in the given state. -/
def Counter.holdsFor (i : ℕ) (state : StreamState) (blocked streaming tunnel : Bool) : Counter → Bool
  | .open slot => decide (slotOf i state = some slot)
  | .halfClosed slot => decide (slotOf i state = some slot) && isHalfClosed state
  | .sendBody slot => decide (slotOf i state = some slot) && isSendBody state
  | .blockedByServer => blocked
  | .reqStreamingInProgress => streaming
  | .tunnel => streaming && tunnel

/-- The condition that a counter stands for. -/
def Counter.holds (i : ℕ) (s : Stream) (k : Counter) : Bool :=
  k.holdsFor i s.state s.blockedByServer s.streaming s.isTunnelReq

/-- What a stream counts for. -/
def weight (i : ℕ) (s : Stream) : Counter → ℤ := fun k => (k.holds i s).toNat

/-- The part of a stream that decides about what it counts for. -/
def Stream.counted (s : Stream) : Option Slot × StreamState × Bool × ReqBodyState × Bool × Bool :=
  (s.slot, s.state, s.blockedByServer, s.reqBodyState, s.streamed, s.isTunnelReq)

namespace Cell

variable {c c' c'' : Cell} {d : ℤ} {k : Counter} {on : Bool} {s : Stream} {slot : Slot}
  {state : StreamState}

/-- The stream is counted in the slot of its state, and streams a body that it has. -/
structure Ok (c : Cell) : Prop where
  slot : c.stream.slot = slotOf c.id c.stream.state
  body : c.stream.streamed = true → c.stream.reqBodyState ≠ .none

lemma Ok.congr (ho : c.Ok) (hi : c'.id = c.id) (hs : c'.stream = c.stream) : c'.Ok := by
  refine ⟨?_, ?_⟩ <;> rw [hs]
  · exact ho.slot.trans (by rw [hi])
  · exact ho.body

/-- The counters without the weight of the stream. -/
def others (c : Cell) : Counter → ℤ := c.num - weight c.id c.stream

/-- The counters change by as much as the weight of the stream. -/
def Settles (c c' : Cell) : Prop := c.Ok → c'.Ok ∧ c'.others = c.others

lemma Settles.refl : Settles c c := fun h => ⟨h, rfl⟩

lemma Settles.trans (h : Settles c c') (h' : Settles c' c'') : Settles c c'' := by
  intro ho
  obtain ⟨ho', hn⟩ := h ho
  obtain ⟨ho'', hn'⟩ := h' ho'
  exact ⟨ho'', hn'.trans hn⟩

/-- A change of the stream that no counter depends on. -/
lemma weight_congr {i : ℕ} {s' : Stream} (h : s.counted = s'.counted) :
    weight i s = weight i s' := by
  simp only [counted, Prod.mk.injEq] at h
  unfold weight holds streaming
  simp only [h]

lemma Settles.of_stream (h : s.counted = c.stream.counted) : Settles c { c with stream := s } := by
  intro ho
  have hw : weight c.id s = weight c.id c.stream := weight_congr h
  simp only [counted, Prod.mk.injEq] at h
  refine ⟨⟨?_, ?_⟩, ?_⟩
  · simp only [h]
    exact ho.slot
  · simp only [h]
    exact ho.body
  · simp only [others, hw]

lemma Settles.update (h : Settles { c with stream := s } c') (hs : s.counted = c.stream.counted) :
    Settles c c' := (Settles.of_stream hs).trans h

@[simp] lemma stream_bump : (c.bump k d).stream = c.stream := rfl

@[simp] lemma id_bump : (c.bump k d).id = c.id := rfl

@[simp] lemma num_bump (k' : Counter) :
    (c.bump k d).num k' = c.num k' + if k = k' then d else 0 := by
  unfold bump
  by_cases h : k = k'
  · subst h
    simp
  · simp [h, Ne.symm h]

lemma toNat_decide (p : Prop) [Decidable p] : ((decide p).toNat : ℤ) = if p then 1 else 0 := by
  by_cases h : p <;> simp [h]

/-- The counters are changed by as much as the conditions they stand for. -/
lemma others_eq (hi : c'.id = c.id) (h : ∀ k : Counter, c'.num k = c.num k +
      ((k.holds c.id c'.stream).toNat - (k.holds c.id c.stream).toNat)) : c'.others = c.others := by
  funext k
  have hk := h k
  unfold others weight
  simp only [Pi.sub_apply, hi]
  omega

lemma setBlockedByServer_settles (h : c.setBlockedByServer on = some c') : Settles c c' := by
  unfold setBlockedByServer at h
  split at h
  · cases h
  next hne =>
  cases h
  refine fun ho => ⟨⟨ho.slot, ho.body⟩, others_eq rfl fun k => ?_⟩
  cases on <;> cases k <;> simp_all [holds, holdsFor, streaming]

/-! ## The state of the stream -/

lemma updateOpenSlot_settles (hi : c.stream.state = .idle)
    (h : c.updateOpenSlot (if isPush c.id then .push else .pull) = some c') :
    Settles c (c'.putState .recvHeaders) := by
  intro ho
  have hs : c.stream.slot = some .priority := by
    rw [ho.slot, hi]
    rfl
  unfold updateOpenSlot at h
  rw [hs] at h
  cases h
  refine ⟨⟨rfl, ho.body⟩, others_eq rfl fun k => ?_⟩
  unfold holds
  rw [hi]
  cases k with
  | «open» slot =>
    cases hp : isPush c.id <;> cases slot <;>
      simp [putState, holdsFor, slotOf, hp]
  | _ => simp [putState, holdsFor, isHalfClosed, isSendBody, streaming]

/-- A stream goes from one state to another in the same slot. -/
theorem putState_settles (hs : slotOf c.id state = slotOf c.id c.stream.state)
    (hh : isHalfClosed state = isHalfClosed c.stream.state)
    (hb : isSendBody state = isSendBody c.stream.state) : Settles c (c.putState state) := by
  refine fun ho => ⟨⟨ho.slot.trans hs.symm, ho.body⟩, others_eq rfl fun k => ?_⟩
  unfold holds
  cases k <;> simp [putState, holdsFor, hs, hh, hb, streaming]

/-- A response is started, or its body. -/
theorem bump_putState_settles
    (hs : c.stream.slot = some slot) (hl : slotOf c.id state = slotOf c.id c.stream.state)
    (hk : k = .halfClosed slot ∧ isHalfClosed state = true ∧ isHalfClosed c.stream.state = false ∧
        isSendBody state = isSendBody c.stream.state ∨
      k = .sendBody slot ∧ isSendBody state = true ∧ isSendBody c.stream.state = false ∧
        isHalfClosed state = isHalfClosed c.stream.state) :
    Settles c ((c.bump k 1).putState state) := by
  intro ho
  have hi : slotOf c.id c.stream.state = some slot := ho.slot.symm.trans hs
  refine ⟨⟨ho.slot.trans hl.symm, ho.body⟩, others_eq rfl fun k' => ?_⟩
  unfold holds
  rcases hk with ⟨rfl, h1, h2, h3⟩ | ⟨rfl, h1, h2, h3⟩ <;> cases k' <;>
    simp [putState, holdsFor, hl, hi, h1, h2, h3, streaming, toNat_decide]

/-- A stream ends. -/
theorem leaveCounters_settles (hs : c.stream.slot = some slot)
    (h : c.leaveCounters slot = some c') :
    Settles c { (c'.putState .endStream).bump (.open slot) (-1) with
      stream := { ((c'.putState .endStream).bump (.open slot) (-1)).stream with slot := none } } := by
  intro ho
  have hi : slotOf c.id c.stream.state = some slot := ho.slot.symm.trans hs
  unfold leaveCounters at h
  cases ht : c.stream.state with
  | endStream =>
    rw [ht] at h
    cases h
  | _ =>
    rw [ht] at h hi
    cases h
    refine ⟨⟨rfl, ho.body⟩, others_eq rfl fun k => ?_⟩
    unfold holds
    rw [ht]
    cases k <;> simp [putState, holdsFor, hi, isHalfClosed, isSendBody, streaming,
      toNat_decide, apply_ite Neg.neg]

/-- A stream that has got a request is in the slot of its kind until it ends. -/
lemma slotOf_eq {i : ℕ} {state' : StreamState} (h1 : state ≠ .idle ∧ state ≠ .endStream)
    (h2 : state' ≠ .idle ∧ state' ≠ .endStream) : slotOf i state = slotOf i state' := by
  cases state <;> cases state' <;> simp_all [slotOf]

/-! ## Request bodies -/

/-- The two counters of the requests that are streamed follow the streaming of the stream. -/
lemma others_streaming (hi : c'.id = c.id) (hs : c'.stream.state = c.stream.state)
    (hb : c'.stream.blockedByServer = c.stream.blockedByServer)
    (ht : c'.stream.isTunnelReq = c.stream.isTunnelReq) (hn : c'.num = if c.stream.isTunnelReq
      then ((c.bump .reqStreamingInProgress d).bump .tunnel d).num
      else (c.bump .reqStreamingInProgress d).num)
    (hd : (c'.stream.streaming.toNat : ℤ) = c.stream.streaming.toNat + d) :
    c'.others = c.others := by
  refine others_eq hi fun k => ?_
  unfold holds
  rw [hs, hb, ht, hn]
  cases c.stream.isTunnelReq <;> cases k <;> simp [holdsFor, hd]

/-- The state of the request body advances; the streaming ends when it is done. -/
theorem setReqBodyState_settles {body : ReqBodyState} (h : c.setReqBodyState body = some c') :
    Settles c c' := by
  intro hk
  obtain ⟨hr, h⟩ := ite_none_right_eq_some.1 h
  have hn : body ≠ .none := by
    rintro rfl
    exact absurd hr (Nat.not_lt_zero _)
  have hp : (c.stream.reqBodyState != .closeDelivered) = true := by
    rw [bne_iff_ne]
    intro ho
    rw [ho] at hr
    cases body <;> simp [rank] at hr
  dsimp only at h
  split at h
  · next hc =>
    subst hc
    split at h
    · cases h
    split at h
    · next hs =>
      have hd : ((c.stream.streamed && false).toNat : ℤ) = c.stream.streaming.toNat + -1 := by
        simp [streaming, hs, hp]
      split at h
      · next ht =>
        cases h
        exact ⟨⟨hk.slot, fun _ => hn⟩, others_streaming rfl rfl rfl rfl (if_pos ht).symm hd⟩
      · next ht =>
        cases h
        exact ⟨⟨hk.slot, fun _ => hn⟩, others_streaming rfl rfl rfl rfl (if_neg ht).symm hd⟩
    · next hs =>
      cases h
      refine ⟨⟨hk.slot, fun _ => hn⟩, others_eq rfl fun k => ?_⟩
      cases k <;> simp [holds, holdsFor, streaming, hs]
  · next hc =>
    cases h
    refine ⟨⟨hk.slot, fun _ => hn⟩, others_eq rfl fun k => ?_⟩
    have hc : (body != .closeDelivered) = true := by simpa using hc
    cases k <;> simp [holds, holdsFor, streaming, hp, hc]

theorem startStreaming_settles (h : c.startStreaming = some c')
    (hs : c.stream.streamed = false) : Settles c c' := by
  intro ho
  unfold startStreaming at h
  split at h
  · cases h
  next hb =>
  obtain ⟨hn, hc⟩ := not_or.1 hb
  have hd : ((true && c.stream.reqBodyState != .closeDelivered).toNat : ℤ) =
      c.stream.streaming.toNat + 1 := by
    simp [streaming, hs, hc]
  dsimp only at h
  split at h
  · next ht =>
    cases h
    exact ⟨⟨ho.slot, fun _ => hn⟩, others_streaming rfl rfl rfl rfl (if_pos ht).symm hd⟩
  · next ht =>
    cases h
    exact ⟨⟨ho.slot, fun _ => hn⟩, others_streaming rfl rfl rfl rfl (if_neg ht).symm hd⟩

/-- A CONNECT request becomes a tunnel before it is streamed. -/
lemma isTunnelReq_settles {b proceedReq : Bool} {entity : Option ℕ}
    (hs : c.stream.streamed = false) : Settles c { c with stream := { c.stream with
      isTunnelReq := b, entity := entity, proceedReq := proceedReq } } := by
  refine fun ho => ⟨⟨ho.slot, ho.body⟩, others_eq rfl fun k => ?_⟩
  cases k <;> simp [holds, holdsFor, streaming, hs]

/-- A stream that is done does not count. -/
lemma Ok.weight_eq_zero (ho : c.Ok) (hst : c.stream.state = .endStream)
    (hb : c.stream.blockedByServer = false)
    (hd : c.stream.reqBodyState = .none ∨ c.stream.reqBodyState = .closeDelivered) :
    weight c.id c.stream = 0 := by
  have ht : c.stream.streaming = false := by
    unfold streaming
    rcases hd with hd | hd
    · have hs : c.stream.streamed = false := by
        by_contra h
        exact ho.body (by simpa using h) hd
      rw [hs, Bool.false_and]
    · simp [hd]
  funext k
  unfold weight holds
  rw [hst, hb, ht]
  cases k <;> rfl

end Cell

end Vhttp.Http2.Lifecycle
