import Vhttp.Http3Server.Invariant

/-!
# The size of a request body

`max_request_entity_size` bounds the body of a request. Over HTTP/3 only an announced
`content-length` is compared with it; the DATA frames are not counted.

* `bounded_of_reach`: the body that is accepted is within the bound, if the DATA frames that the peer
  sends on the stream are.
-/

namespace Vhttp.Http3Server

open Option Function Prod

variable {env : Env} {i m : ℕ}

namespace Conn

/-- What is read on this stream announces no more than the bound. -/
def eventWithin (env : Env) (m i : ℕ) (c : Conn) : Event → Bool
  | .stream k callback => k ≠ i || (c.streams i).all fun s => callback.within env m s
  | _ => true

/-- The body of a request is within a bound, or the connection is being closed. -/
def BoundedAt (env : Env) (m i : ℕ) (c : Conn) : Prop :=
  ∀ s, c.streams i = some s → Bounded env m ⟨c.shared, s⟩

variable {c c' : Conn} {f : View → View} {k : ℕ}

/-- Another stream is changed. -/
lemma BoundedAt.of_ne (h : BoundedAt env m i c)
    (hc : c.shared.closing = true → c'.shared.closing = true)
    (hm : c'.streams i = c.streams i) : BoundedAt env m i c' := by
  intro s hs
  rw [hm] at hs
  exact (h s hs).imp hc id

/-- A callback on some stream. -/
lemma boundedAt_onStream (h : BoundedAt env m i c)
    (ho : ∀ s, c.streams k = some s → Others k c.shared (f ⟨c.shared, s⟩).shared)
    (hf : k = i → ∀ s, c.streams k = some s → Bounded env m ⟨c.shared, s⟩ →
      Bounded env m (f ⟨c.shared, s⟩)) : BoundedAt env m i (c.onStream k f) := by
  unfold onStream
  cases hk : c.streams k with
  | none => exact h.of_ne (others_unlink c.shared k).closing rfl
  | some s =>
    by_cases hi : k = i
    · intro s' hs'
      subst hi
      dsimp only at hs'
      rw [update_self] at hs'
      cases hs'
      exact hf rfl s hk (h s hk)
    · exact h.of_ne (ho s hk).closing (update_of_ne (Ne.symm hi) _ _)

variable (hft : c.Fits) (h : BoundedAt env m i c)
include hft h

lemma boundedAt_of_works
    (hf : ∀ {s}, Base k ⟨c.shared, s⟩ → Works env k ⟨c.shared, s⟩ (f ⟨c.shared, s⟩)) :
    (c.onStream k f).Fits ∧ BoundedAt env m i (c.onStream k f) :=
  ⟨fits_of_moves hft fun _ _ hb => (hf hb).toMoves,
    boundedAt_onStream h (fun s hs => (hf (hft.base k s hs)).others)
      fun _ s hs => (hf (hft.base k s hs)).bounded (hft.base k s hs) m⟩

lemma boundedAt_runDelayed {fuel : ℕ}
    (hs : c.runDelayed env fuel = some c') : BoundedAt env m i c' := by
  have ho : c'.Fits ∧ BoundedAt env m i c' := by
    refine runDelayed_induct (P := fun c => c.Fits ∧ BoundedAt env m i c)
      (fun {c k} h hm => ?_) (fun {c k} h hm => ?_) (fun {c k} h hm => ?_) ⟨hft, h⟩ hs
    · have hp (s : Stream) (hs : c.streams k = some s) := promote_spec env (h.1.base k s hs) hm
      refine ⟨fits_onStream h.1 fun s hs => ⟨(hp s hs).1, (hp s hs).2.1⟩,
        boundedAt_onStream h.2 (fun s hs => (hp s hs).1) ?_⟩
      exact fun _ s hs hd => (hp s hs).2.2 m hd
    · have hw {s : Stream} (hb : Base k ⟨c.shared, s⟩) :
          Works env k ⟨c.shared, s⟩ (View.callWriteReq env k ⟨c.shared, s⟩) := works_callWriteReq hb
      exact boundedAt_of_works h.1 h.2 hw
    · have he {s : Stream} (hb : Base k ⟨c.shared, s⟩) :
          Works env k ⟨c.shared, s⟩ (View.runPending env k ⟨c.shared, s⟩) := works_runPending hb hm
      exact boundedAt_of_works h.1 h.2 he
  exact ho.2

lemma boundedAt_step {e : Event}
    (hf : eventWithin env m i c e = true) (hs : c.step env e = some c') : BoundedAt env m i c' := by
  cases takes_of_step hs with
  | @«open» k =>
    by_cases hi : k = i
    · intro s hs
      subst hi
      dsimp only at hs
      rw [update_self] at hs
      cases hs
      exact .inr (within_of_announced (Nat.zero_le m))
    · exact h.of_ne id (update_of_ne (Ne.symm hi) _ _)
  | @stream k s callback hk hl =>
    have hc := moves_callback env (hft.base k s hk) hl callback
    refine boundedAt_onStream h (fun s' hs' => ?_) fun hi s' hs' hb => ?_
    · cases hk.symm.trans hs'
      exact hc.1.others
    · cases hk.symm.trans hs'
      subst hi
      exact hc.2 m (by simpa [eventWithin, hk] using hf) hb
  | timeout hs =>
    exact boundedAt_runDelayed (hft.of_lists (d := c.shared.setTimeout false) rfl)
      (h.of_ne id rfl) hs
  | @destroy k =>
    by_cases hi : k = i
    · intro s hs
      subst hi
      dsimp only at hs
      rw [update_self] at hs
      cases hs
    · exact h.of_ne (others_unlink c.shared k).closing (update_of_ne (Ne.symm hi) _ _)
  | close => exact h.of_ne (fun _ => rfl) rfl

omit hft h

lemma boundedAt_reach (h : Reach env (eventWithin env m i) c) : BoundedAt env m i c := by
  induction h with
  | new => exact fun _ hs => by cases hs
  | step hr hf hs ih => exact boundedAt_step (fits_of_reach hr) ih hf hs

/-- In every run in which the DATA frames of a request announce no more than
`max_request_entity_size`, no more than that is received of its body, unless the connection is being
closed. -/
theorem bounded_of_reach {c : Conn} {s : Stream}
    (h : Reach env (eventWithin env env.maxRequestEntitySize i) c)
    (hopen : c.shared.closing = false) (hs : c.streams i = some s) :
    s.reqBodyBytesReceived ≤ env.maxRequestEntitySize := by
  rcases boundedAt_reach h s hs with hc | hw
  · exact absurd (hopen.symm.trans hc) Bool.false_ne_true
  · exact hw.1

end Conn

/-- A server that takes request bodies of two octets. -/
def smallBodies : Env := plainServer 2

/-- A connection that is not being closed, and the first request on it. -/
def Conn.first (c : Conn) : Option Stream := if c.shared.closing then none else c.streams 0

/-- A request without `content-length` that is to be processed, with its body; it is not stopped and
no response is written. -/
def Stream.accepted (s : Stream) : Option Bytes :=
  if s.state = .reqPending ∧ s.contentLength = none ∧ s.stopRequested = false ∧ s.unsent = false
  then s.reqBody else none

/-- The first request has been accepted. -/
lemma accepted_of_run {ok : Conn → Event → Bool} {es : List Event} {body : Bytes} {n : ℕ}
    (h : ((Conn.run smallBodies ok es Conn.new).bind Conn.first).map
      (fun s => (s.accepted, s.reqBodyBytesReceived)) = some (some body, n)) :
    ∃ c s, Conn.Reach smallBodies ok c ∧ c.shared.closing = false ∧ c.streams 0 = some s ∧
      s.accepted = some body ∧ s.reqBodyBytesReceived = n := by
  obtain ⟨s, hs, he⟩ := map_eq_some_iff.1 h
  obtain ⟨c, hc, hf⟩ := bind_eq_some_iff.1 hs
  obtain ⟨ho, ht⟩ := ite_none_left_eq_some.1 hf
  exact ⟨c, s, Conn.Reach.new.run hc, Bool.eq_false_iff.2 ho, ht, congrArg fst he, congrArg snd he⟩

/-- Two DATA frames of one octet. -/
theorem bounded_of_reach_two : ∃ c s, Conn.Reach smallBodies
    (Conn.eventWithin smallBodies smallBodies.maxRequestEntitySize 0) c ∧
      c.streams 0 = some s ∧ s.accepted = some [65, 66] ∧
        s.reqBodyBytesReceived ≤ smallBodies.maxRequestEntitySize := by
  have hr : ((Conn.run smallBodies (Conn.eventWithin smallBodies smallBodies.maxRequestEntitySize 0)
      [.open 0, .stream 0 (.receive (postHeaders ++ [0, 1, 65, 0, 1, 66]) true)] Conn.new).bind
      Conn.first).map (fun s => (s.accepted, s.reqBodyBytesReceived)) =
        some (some [65, 66], 2) := rfl
  obtain ⟨c, s, hc, ho, hs, ha, -⟩ := accepted_of_run hr
  exact ⟨c, s, hc, hs, ha, Conn.bounded_of_reach hc ho hs⟩

/-- A third DATA frame is accepted. -/
theorem body_over_limit : ∃ c s, Conn.Reach smallBodies (fun _ _ => true) c ∧
    c.shared.closing = false ∧ c.streams 0 = some s ∧ s.accepted = some [65, 66, 67] ∧
      smallBodies.maxRequestEntitySize < s.reqBodyBytesReceived := by
  have hr : ((Conn.run smallBodies (fun _ _ => true)
      [.open 0, .stream 0 (.receive (postHeaders ++ [0, 1, 65, 0, 1, 66, 0, 1, 67]) true)]
      Conn.new).bind Conn.first).map (fun s => (s.accepted, s.reqBodyBytesReceived)) =
        some (some [65, 66, 67], 3) := rfl
  obtain ⟨c, s, hrc, ho, hs, ha, hc⟩ := accepted_of_run hr
  refine ⟨c, s, hrc, ho, hs, ha, ?_⟩
  rw [hc]
  decide

end Vhttp.Http3Server
