import Mathlib

/-!
# Messages between threads

The model of `lib/common/multithread.c`. A step is what is done while the mutex of the queue is
held, a write to the eventfd, or something that only the receiving loop does; the threads take their
steps in any order. `sent` and `passed` record what was given to each receiver and to its callback.

* `Sound.step`: messages stay in order, and no wake-up is lost.
* `work_lt`: the loop is done at some time.
* `messages_of_reach`: every message is passed once, in order, and the loop is woken up for it.
-/

namespace Vhttp.Multithread

open Function

variable {M : Type*}

/-- Where the receiving loop is: in `queue_cb` it may be calling a receiver with its messages. -/
inductive Loop (M : Type*) where
  | outside
  | inside
  | calling (receiver : ℕ) (messages : List M)

/-- A `vhttp_multithread_queue_t` with its receivers, the wake-ups that have been written and not
been consumed, and the number of senders that are about to write one. -/
structure Queue (M : Type*) where
  messages : ℕ → List M
  active : List ℕ
  written : ℕ
  writing : ℕ
  loop : Loop M
  sent : ℕ → List M
  passed : ℕ → List M

/-- `vhttp_multithread_create_queue`. -/
def Queue.init : Queue M := ⟨fun _ => [], [], 0, 0, .outside, fun _ => [], fun _ => []⟩

namespace Queue

/-- `vhttp_multithread_send_message`, up to the release of the mutex. -/
def sendMessage (q : Queue M) (receiver : ℕ) (message : Option M) : Queue M :=
  let doSend := if q.messages receiver = [] then 1 else 0
  match message with
  | some m =>
    { q with
      messages := update q.messages receiver (q.messages receiver ++ [m])
      active := if q.messages receiver = [] then q.active ++ [receiver] else q.active
      writing := q.writing + doSend
      sent := update q.sent receiver (q.sent receiver ++ [m]) }
  | none => { q with writing := q.writing + doSend }

/-- What a sender does after that, and what the loop does: `on_read`, `queue_cb` while it holds the
mutex, with or without an active receiver, and the callback. -/
inductive Work : Queue M → Queue M → Prop
  | write {q : Queue M} {n : ℕ} : q.writing = n + 1 →
      Work q { q with writing := n, written := q.written + 1 }
  | read {q : Queue M} : q.loop = .outside → q.written ≠ 0 →
      Work q { q with written := 0, loop := .inside }
  | leave {q : Queue M} : q.loop = .inside → q.active = [] → Work q { q with loop := .outside }
  | dispatch {q : Queue M} {r : ℕ} {active : List ℕ} : q.loop = .inside → q.active = r :: active →
      Work q { q with
        active := active
        messages := update q.messages r []
        loop := .calling r (q.messages r) }
  | callback {q : Queue M} {r : ℕ} {messages : List M} : q.loop = .calling r messages →
      Work q { q with passed := update q.passed r (q.passed r ++ messages), loop := .inside }

/-- The queues that are reached. -/
inductive Reach : Queue M → Prop
  | init : Reach init
  | send {q : Queue M} (r : ℕ) (message : Option M) : Reach q → Reach (q.sendMessage r message)
  | work {q q' : Queue M} : Reach q → Work q q' → Reach q'

/-- The messages that a callback has and has not taken. -/
def inFlight (q : Queue M) (r : ℕ) : List M :=
  match q.loop with
  | .calling r' messages => if r' = r then messages else []
  | _ => []

/-- A receiver is active while it has messages; they are in order, and outside `queue_cb` there is
a wake-up for them. -/
structure Sound (q : Queue M) : Prop where
  nodup : q.active.Nodup
  active : ∀ r, r ∈ q.active ↔ q.messages r ≠ []
  order : ∀ r, q.sent r = q.passed r ++ (q.inFlight r ++ q.messages r)
  woken : q.loop = .outside → q.active ≠ [] → 0 < q.written + q.writing

variable {q q' : Queue M}

lemma Sound.sendMessage (h : q.Sound) (r : ℕ) (message : Option M) :
    (q.sendMessage r message).Sound := by
  cases message with
  | none =>
    refine ⟨h.nodup, h.active, h.order, fun ho hne => ?_⟩
    have := h.woken ho hne
    dsimp only [Queue.sendMessage]
    omega
  | some m =>
    have hd : ∀ k, update q.sent r (q.sent r ++ [m]) k =
        q.passed k ++ (q.inFlight k ++ update q.messages r (q.messages r ++ [m]) k) := by
      intro k
      by_cases hk : k = r
      · simp only [hk, update_self, h.order r, List.append_assoc]
      · simp only [update_of_ne hk, h.order k]
    by_cases hn : q.messages r = []
    · have hr : r ∉ q.active := fun hr => (h.active r).1 hr hn
      refine ⟨?_, fun k => ?_, hd, fun _ _ => ?_⟩
      · simpa [Queue.sendMessage, hn, List.nodup_append, h.nodup] using
          fun k hk => ne_of_mem_of_not_mem hk hr
      · by_cases hk : k = r
        · simp [Queue.sendMessage, hn, hk]
        · simp [Queue.sendMessage, hn, hk, h.active k]
      · simp [Queue.sendMessage, hn]
    · refine ⟨?_, fun k => ?_, hd, fun ho hne => ?_⟩
      · simpa [Queue.sendMessage, hn] using h.nodup
      · by_cases hk : k = r
        · simpa [Queue.sendMessage, hn, hk] using (h.active r).2 hn
        · simp [Queue.sendMessage, hn, hk, h.active k]
      · simpa [Queue.sendMessage, hn] using h.woken ho (by simpa [Queue.sendMessage, hn] using hne)

lemma Sound.work (h : q.Sound) (hs : Work q q') : q'.Sound := by
  cases hs with
  | write => exact ⟨h.nodup, h.active, h.order, fun _ _ => by dsimp only; omega⟩
  | read ho =>
    refine ⟨h.nodup, h.active, fun r => ?_, nofun⟩
    rw [h.order r, inFlight, ho]
    rfl
  | leave hi hl =>
    refine ⟨h.nodup, h.active, fun r => ?_, fun _ hne => absurd hl hne⟩
    rw [h.order r, inFlight, hi]
    rfl
  | @dispatch r active hi ha =>
    have hn := h.nodup
    rw [ha, List.nodup_cons] at hn
    refine ⟨hn.2, fun k => ?_, fun k => ?_, nofun⟩
    · have hk := h.active k
      rw [ha, List.mem_cons] at hk
      by_cases hr : k = r
      · simp [hr, hn.1]
      · simpa [hr] using hk
    · rw [h.order k, inFlight, hi]
      by_cases hr : k = r
      · simp [inFlight, hr]
      · simp [inFlight, hr, Ne.symm hr]
  | @callback r messages hc =>
    refine ⟨h.nodup, h.active, fun k => ?_, nofun⟩
    rw [h.order k, inFlight, hc]
    by_cases hr : k = r
    · simp [inFlight, hr]
    · simp [inFlight, hr, Ne.symm hr]

lemma Reach.sound (h : Reach q) : q.Sound := by
  induction h with
  | init => exact ⟨List.nodup_nil, fun _ => by simp [Queue.init], fun _ => rfl, fun _ h =>
      absurd rfl h⟩
  | send r message _ ih => exact ih.sendMessage r message
  | work _ hs ih => exact ih.work hs

/-- What is left to do, if nothing more is sent. -/
def left (q : Queue M) : ℕ :=
  3 * q.writing + 2 * q.written + 2 * q.active.length +
    match q.loop with
    | .outside => 0
    | .inside => 1
    | .calling .. => 2

lemma left_lt (hs : Work q q') : q'.left < q.left := by
  cases hs with
  | write h =>
    simp only [left, h]
    omega
  | read h | leave h | callback h =>
    simp only [left, h]
    omega
  | dispatch h ha =>
    simp only [left, h, ha, List.length_cons]
    omega

/-- When nothing is left to do, everything has been passed. -/
lemma Sound.passed_eq (h : q.Sound) (hs : ∀ q', ¬Work q q') : q.passed = q.sent := by
  have ho : q.loop = .outside := by
    cases hl : q.loop with
    | outside => rfl
    | inside =>
      cases ha : q.active with
      | nil => exact absurd (.leave hl ha) (hs _)
      | cons r active => exact absurd (.dispatch hl ha) (hs _)
    | calling r messages => exact absurd (.callback hl) (hs _)
  have hw : q.written = 0 := by
    by_contra hne
    exact hs _ (.read ho hne)
  have hi : q.writing = 0 := by
    by_contra hne
    exact hs _ (.write (Nat.succ_pred hne).symm)
  have ha : q.active = [] := by
    by_contra hne
    have := h.woken ho hne
    omega
  funext r
  have hm : q.messages r = [] := by
    by_contra hne
    have hr := (h.active r).2 hne
    rw [ha] at hr
    cases hr
  rw [h.order r, inFlight, ho, hm]
  simp

/-- Each message is passed to the callback of its receiver once and in order; while a receiver has
messages and the loop is not in `queue_cb`, a wake-up has been or is about to be written; and the
loop comes to an end, when all have been passed. -/
theorem messages_of_reach (h : Reach q) :
    (∀ r, q.sent r = q.passed r ++ (q.inFlight r ++ q.messages r)) ∧
    (q.loop = .outside → ∀ r, q.messages r ≠ [] → 0 < q.written ∨ 0 < q.writing) ∧
    (∀ q', Work q q' → q'.left < q.left) ∧ ((∀ q', ¬Work q q') → q.passed = q.sent) := by
  refine ⟨h.sound.order, fun ho r hr => ?_, fun q' => left_lt, h.sound.passed_eq⟩
  have := h.sound.woken ho (List.ne_nil_of_mem ((h.sound.active r).2 hr))
  omega

/-- A message is sent while the callback has one. -/
theorem messages_of_reach_two : ∃ q : Queue ℕ, Reach q ∧ q.passed 0 = [1] ∧ q.messages 0 = [2] ∧
    q.sent 0 = q.passed 0 ++ (q.inFlight 0 ++ q.messages 0) := by
  have h₁ : Reach _ := .work (.work (.work (.send 0 (some 1) .init) (.write rfl))
    (.read rfl (by decide))) (.dispatch rfl rfl)
  have h₂ : Reach _ := .work (.send 0 (some 2) h₁) (.callback rfl)
  exact ⟨_, h₂, rfl, rfl, (messages_of_reach h₂).1 0⟩

end Queue
end Vhttp.Multithread
