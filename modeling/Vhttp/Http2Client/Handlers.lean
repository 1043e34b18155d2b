import Vhttp.Http2Client.HeaderBlock
import Vhttp.Http2Client.Registry

/-!
# What the handlers of the client do to a stream

The callbacks of a stream come in phases: informational responses, the head of the final response,
its body, and one terminal notification. `Keeps` says what a handler does to the streams of a
connection that is read from: the callbacks stay in step with the state of the response, and a
stream that is freed has been told its end.

* `keeps_readFrame`: every handler does so, for an application that takes what it is given, unless a
  HEADERS frame comes for a closed response.
-/

namespace Vhttp.Http2Client

open List Option Function
open Http2 (Frame)

/-! ## Phases -/

/-- The phase after these callbacks. -/
def phaseOf (log : List Callback) : Option Phase := log.foldlM Phase.next .head

variable {c c' c'' : Conn} {id : ℕ} {s s' : Stream} {log : List Callback} {env : Env} {p : Phase}

lemma phaseOf_append (log l : List Callback) :
    phaseOf (log ++ l) = (phaseOf log).bind fun p => l.foldlM Phase.next p :=
  foldlM_append

lemma phaseOf_snoc (h : phaseOf log = some p) (cb : Callback) :
    phaseOf (log ++ [cb]) = p.next cb := by
  rw [phaseOf_append, h, bind_some, foldlM_cons]
  exact bind_pure _

/-- An error is a terminal notification, whatever the state of the response is. -/
lemma phaseOf_error (h : phaseOf log = some s.res.phase) (err : Error) :
    phaseOf (log ++ errorCallbacks s err) = some .ended := by
  unfold errorCallbacks
  cases hr : s.res with
  | head | body =>
    rw [hr] at h
    exact phaseOf_snoc h _
  | closed =>
    rw [hr] at h
    dsimp only
    split
    · exact phaseOf_snoc h _
    · rw [append_nil]
      exact h

/-! ## One stream -/

/-- What a handler does to a stream and its callbacks. -/
def Evolves (o : Option Stream) (log : List Callback) (o' : Option Stream)
    (log' : List Callback) : Prop :=
  match o, o' with
  | none, o' => o' = none ∧ log' = log
  | some s, some s' => phaseOf log = some s.res.phase → phaseOf log' = some s'.res.phase
  | some s, none => phaseOf log = some s.res.phase → phaseOf log' = some .ended

lemma Evolves.refl (o : Option Stream) (log : List Callback) : Evolves o log o log := by
  cases o with
  | none => exact ⟨rfl, rfl⟩
  | some s => exact fun h => h

lemma Evolves.trans {o o' o'' : Option Stream} {l l' l'' : List Callback}
    (h : Evolves o l o' l') (h' : Evolves o' l' o'' l'') : Evolves o l o'' l'' := by
  cases o with
  | none =>
    obtain ⟨rfl, rfl⟩ := h
    exact h'
  | some s =>
    cases o' with
    | none =>
      obtain ⟨rfl, rfl⟩ := h'
      exact h
    | some s' =>
      cases o'' with
      | none | some s'' => exact fun hs => h' (h hs)

/-- What a handler does to the streams of a connection that is read from. -/
structure Keeps (c c' : Conn) : Prop extends Beside c c' where
  streams : ∀ id, Evolves (c.streams id) (c.log id) (c'.streams id) (c'.log id)

lemma Keeps.trans (h : Keeps c c') (h' : Keeps c' c'') : Keeps c c'' where
  toBeside := h.toBeside.trans h'.toBeside
  streams id := (h.streams id).trans (h'.streams id)

/-- Nothing happens to the streams. -/
lemma Keeps.quiet (h : Beside c c') (hs : c'.streams = c.streams)
    (hl : c'.log = c.log) : Keeps c c' where
  toBeside := h
  streams id := by
    rw [hs, hl]
    exact .refl _ _

lemma Keeps.refl (c : Conn) : Keeps c c :=
  .quiet (.refl c) rfl rfl

/-- One stream changes. -/
lemma Keeps.update {o' : Option Stream} {log' : List Callback} (h : Beside c c')
    (hs : c.streams id = some s) (ht : c'.streams = Function.update c.streams id o')
    (hl : c'.log = Function.update c.log id log')
    (he : Evolves (some s) (c.log id) o' log') : Keeps c c' where
  toBeside := h
  streams j := by
    rw [ht, hl]
    by_cases hj : j = id
    · subst hj
      rw [update_self, update_self, hs]
      exact he
    · rw [update_of_ne hj, update_of_ne hj]
      exact .refl _ _

/-! ## Actions -/

lemma keeps_call_closeResponse (hs : c.streams id = some s) {cb : Callback}
    (hn : s.res.phase.next cb = some .ended) (ho : s'.res ≠ .closed)
    (hb : Beside c ((c.call id cb).closeResponse id s')) :
    Keeps c ((c.call id cb).closeResponse id s') := by
  have hp : phaseOf (c.log id) = some s.res.phase →
      phaseOf (c.log id ++ [cb]) = some .ended := fun h => (phaseOf_snoc h cb).trans hn
  unfold Conn.closeResponse at hb ⊢
  rw [if_neg ho] at hb ⊢
  split_ifs at hb ⊢
  · exact .update hb hs rfl rfl hp
  · exact .update hb hs rfl rfl hp

/-- What an action does, when what comes is in order. -/
lemma keeps_of_act {σ : Scope} (ho : σ.orderly) (hi : ¬ σ.outside) (h : Act σ c c') :
    Keeps c c' := by
  have hb := beside_of_act hi h
  cases h with
  | updateConnWindow =>
    refine .quiet hb updateConnWindow_streams ?_
    unfold Conn.updateConnWindow
    split <;> rfl
  | amend hs _ hr _ =>
    refine .update hb hs rfl (update_eq_self _ c.log).symm fun hp => ?_
    rw [hr]
    exact hp
  | requestSent _ hs =>
    exact .update hb hs rfl (update_eq_self _ c.log).symm fun hp => hp
  | map f hf =>
    refine ⟨hb, fun id => ?_⟩
    show Evolves (c.streams id) (c.log id) ((c.streams id).map f) (c.log id)
    cases c.streams id with
    | none => exact ⟨rfl, rfl⟩
    | some s =>
      show _ → phaseOf (c.log id) = some (f s).res.phase
      rw [(hf s).2.res]
      exact fun h => h
  | error hs hr _ =>
    refine .update hb hs (update_idem _ _ _) rfl fun hp => ?_
    rw [← hr] at hp
    exact phaseOf_error hp _
  | refuse last =>
    refine ⟨hb, fun id => ?_⟩
    show Evolves (c.streams id) (c.log id) (if last < id then none else c.streams id)
      (if last < id then c.log id ++ _ else c.log id)
    split
    · cases c.streams id with
      | none => exact ⟨rfl, append_nil _⟩
      | some s => exact fun h => phaseOf_error h .refusedStream
    · exact .refl _ _
  | answer hs _ _ _ hn =>
    exact .update hb hs rfl rfl fun hp => (phaseOf_snoc hp _).trans (hn ho)
  | finish hs _ _ hn =>
    exact keeps_call_closeResponse hs (hn ho).1 (hn ho).2 hb
  | call h | reset h => exact absurd ho h
  | @proceed id hs =>
    obtain ⟨s, hs⟩ := isSome_iff_exists.1 hs
    refine .update hb hs (update_eq_self id c.streams).symm rfl ?_
    rw [hs]
    exact fun hp => phaseOf_snoc hp _
  | timers h | stopKeepalive h | changeState h | tell h | free h | launch h | land h =>
    exact absurd h hi
  | _ => exact .quiet hb rfl rfl

/-- A handler, when what comes is in order. -/
def Scope.inOrder : Scope := ⟨fun _ => True, True, True, True, False⟩

lemma keeps_of_acts (h : Acts .inOrder c c') : Keeps c c' :=
  h.rule Keeps.refl Keeps.trans (keeps_of_act trivial not_false)

/-- Every frame, as long as no block comes for a closed response. -/
theorem keeps_readFrame (he : env.accepts = true) {frame : Frame} (ho : OpenHeaders c frame) :
    Keeps c (readFrame c frame env).1 ∧ Counts c (readFrame c frame env).1 ∧
      ((readFrame c frame env).2 ≠ none → (readFrame c frame env).1.state = c.state) := by
  have h : Handled .inOrder c (readFrame c frame env) := handled_readFrame (fun _ _ => trivial)
    (fun _ => trivial) (fun _ _ => trivial) fun _ => ⟨he, ho⟩
  exact ⟨keeps_of_acts h.acts, counts_of_acts h.acts, h.error⟩

end Vhttp.Http2Client
