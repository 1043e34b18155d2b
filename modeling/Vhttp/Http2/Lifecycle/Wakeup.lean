import Vhttp.Http2.Lifecycle.Steps

/-!
# No stream is forgotten by the scheduler

* `active_of_reach`: in every state between events, a stream that can write is active in the
  scheduler, and a stream that is active has something to write.
-/

namespace Vhttp.Http2.Lifecycle

open Cell

/-- The stream is active when it can write, and only if it has something to write. -/
structure Stream.Awake (s : Stream) : Prop where
  wake : s.data ≠ [] ∨ s.state = .sendBodyIsFinal → 0 < s.outputWindow → s.active = true
  active : s.active = true → s.data ≠ [] ∨ s.state = .sendBodyIsFinal ∨ s.state = .endStream

namespace Stream.Awake

variable {s s' : Stream}

/-- A stream that has nothing to write. -/
lemma of_empty (hd : s.data = []) (hs : s.state ≠ .sendBodyIsFinal)
    (ha : s.active = true → s.state = .endStream) : s.Awake :=
  ⟨fun h => absurd h (by simp [hd, hs]), fun h => .inr (.inr (ha h))⟩

lemma inactive (ha : s.Awake) (hd : s.data = []) (h1 : s.state ≠ .sendBodyIsFinal)
    (h2 : s.state ≠ .endStream) : s.active = false := by
  by_contra h
  simpa [hd, h1, h2] using ha.active (by simpa using h)

/-- A stream whose response is not being sent is not active. -/
lemma before (ha : s.Awake) (hp : s.Phase)
    (hs : s.state ≠ .sendBody ∧ s.state ≠ .sendBodyIsFinal ∧ s.state ≠ .endStream) :
    s.data = [] ∧ s.active = false := by
  have hd := hp.data_nil hs.1 hs.2.1
  exact ⟨hd, ha.inactive hd hs.2.1 hs.2.2⟩

/-- The window is changed. -/
lemma resized (ha : s.Awake) {delta : ℤ} (h : Resized delta s s') : s'.Awake := by
  cases h with
  | same | overflow => exact ha
  | done _ hw hc =>
    refine ⟨fun hp hpos => ?_, fun h => ?_⟩
    · rcases hw hpos hp with ⟨ho, rfl⟩ | h
      · exact ha.wake hp ho
      · exact h
    · rcases hc h with h | h
      · exact ha.active h
      · exact h.imp_right .inl

lemma sent (ha : s.Awake) (hp : s.Phase) {r : Response} (hs : s.asked = true)
    (hd : s.data = []) (h : Sent r s s') : s'.Awake := by
  cases h with
  | parked _ _ | replayed _ | ignored _ => exact ⟨ha.wake, ha.active⟩
  | answered ht h =>
    cases h with
    | ended active => exact .of_empty hd (by simp) fun _ => rfl
    | drained hc =>
      refine .of_empty hd (by simp) fun h => ?_
      have hn := ha.inactive hd (hp.asked hs).2.1 (by rcases ht with h | h | h | h <;> simp [h])
      simp [show s.active = true from hc h] at hn
    | sending ht hc =>
      refine ⟨fun _ => hc, fun _ => ?_⟩
      rcases ht with ⟨-, h⟩ | h
      · exact .inl h
      · exact .inr (.inl h)

lemma of_emitted {n : ℕ} (h : Emitted s n s') : s'.Awake := by
  cases h with
  | more h hm => exact ⟨fun _ hpos => by simpa using hpos, fun _ => hm.imp_right .inl⟩
  | done h hd hs hl => exact .of_empty hd hs fun h => by simp at h

end Stream.Awake

/-- Every move leaves the stream awake. -/
lemma Move.awake {safe : Prop} {s s' : Stream} (h : Move safe s s') (hp : s.Phase)
    (ha : s.Awake) : s'.Awake := by
  cases h with
  | received ht | connected ht | invalid ht | enqueued ht =>
    obtain ⟨hd, hc⟩ := ha.before hp (by simp [ht])
    exact .of_empty hd (by simp) (by simp [hc])
  | run hlk hb =>
    obtain ⟨hd, hc⟩ := ha.before hp (by
      rcases (hp.pending hlk).1 with h | h <;> simp [h])
    refine .of_empty hd ?_ (by simp [hc])
    unfold calledIn
    split
    · simp
    · rcases (hp.pending hlk).1 with h | h <;> simp [h]
  | bodyEnded hl =>
    rcases hp.endedIn_cases hl with ⟨ht, he⟩ | ⟨-, he⟩
    · obtain ⟨hd, hc⟩ := ha.before hp (by simp [ht])
      exact .of_empty hd (by simp [he]) (by simp [hc])
    · rw [he]
      exact ha
  | bodyPending hl hr =>
    obtain ⟨hd, hc⟩ := ha.before hp (by
      rcases (hp.pending (hp.queued hr hl)).1 with h | h <;> simp [h])
    exact .of_empty hd (by simp) (by simp [hc])
  | bodyEnqueued hb hs hr hlk =>
    obtain ⟨hd, hc⟩ := ha.before hp (by simp [(hp.not_run hb hs).1])
    exact .of_empty hd (by simp) (by simp [hc])
  | failed ht hf | reset ht hlk hf => exact .of_empty rfl (by simp) fun _ => rfl
  | sent hk hd h => exact ha.sent hp hk hd h
  | emitted hn h => exact .of_emitted h
  -- the other moves do not touch what is written
  | _ => exact ⟨ha.wake, ha.active⟩

lemma keeps_awake : Keeps False Stream.Awake where
  new w := .of_empty rfl (by simp [Stream.new]) (by simp [Stream.new])
  prepared hp h hi w b := by
    obtain ⟨hd, ha⟩ := h.before hp (by simp [hi])
    exact .of_empty hd (by simp) (by simp [ha])
  move hp h hm := hm.awake hp h
  resized hp h hr := h.resized hr
  marked h n b := ⟨h.wake, h.active⟩

/-- In every state between events, a stream that has unsent data or is in its last state, and
whose window is open, is active in the scheduler; and every stream that is active has unsent
data, is in its last state, or has ended. -/
theorem active_of_reach {conn : Conn} (h : conn.Reach fun _ _ => True) (i : ℕ) (hi : i ∈ conn.ids) :
    ((conn.stream i).hasPendingData = true ∨ (conn.stream i).state = .sendBodyIsFinal →
      0 < (conn.stream i).outputWindow → (conn.stream i).active = true) ∧
    ((conn.stream i).active = true → (conn.stream i).hasPendingData = true ∨
      (conn.stream i).state = .sendBodyIsFinal ∨ (conn.stream i).state = .endStream) := by
  have ha := keeps_awake.all_of_reach (h.mono fun _ _ _ => False.elim) i hi
  simp only [Stream.hasPendingData, bne_iff_ne]
  exact ⟨ha.wake, ha.active⟩

/-- A request, and the first part of its response. -/
def responseStarted : List Event :=
  [.headers 1 true, .request 1 .plain, .runPending 1,
    .send 1 ⟨[100], .inProgress, false, false, false, false, false⟩]

/-- A response with data waits in the scheduler. -/
theorem active_of_reach_response : ∃ conn : Conn, (conn.Reach fun _ _ => True) ∧
    1 ∈ conn.ids ∧ (conn.stream 1).hasPendingData = true ∧ 0 < (conn.stream 1).outputWindow ∧
    (conn.stream 1).active = true := by
  obtain ⟨conn, hc, hmem, hd, hw⟩ : ∃ conn, Conn.run (fun _ _ => True)
      responseStarted .init = some conn ∧ 1 ∈ conn.ids ∧ (conn.stream 1).hasPendingData = true ∧
      0 < (conn.stream 1).outputWindow := exists_of_any rfl
  have hr := Conn.Reach.init.run hc
  exact ⟨conn, hr, hmem, hd, hw, (active_of_reach hr 1 hmem).1 (.inl hd) hw⟩

end Vhttp.Http2.Lifecycle
