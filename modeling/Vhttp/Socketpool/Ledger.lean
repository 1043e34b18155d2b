import Vhttp.Socketpool.Basic

/-!
# The accounts of the socket pool

`Ledger p n ts` says that the counters of the pool agree with where its sockets are, while `n`
connections are being moved and those to the targets `ts` of them still count as leased. Each
change of a counter and each move of a socket is one entry; a callback of the source is
balanced if its entries cancel.

* `ledger_of_reach`: every run that avoids three events keeps the accounts.
* `accounts_overdrawn`: a connection that fails to open is written off twice.
-/

namespace Vhttp.Socketpool

open List Option Bool

/-- A request resolves a name, or it has a socket to the target it has selected. -/
def RequestOk (r : ConnectRequest) : Prop :=
  (r.getaddrReq = true ∧ r.handshaking = false ∧ r.sock = .null) ∨
    (r.getaddrReq = false ∧ r.sock = .live r.selectedTarget)

/-- The counters, with `n` connections in hand, `ts` the targets they are leased for. -/
structure Ledger (p : Socketpool) (n : ℕ) (ts : List ℕ) : Prop where
  leased : ∀ t, p.leasedCount t =
    p.requests.countP (fun r => r.selectedTarget = t) + p.leased.count t + ts.count t
  pooled : p.pooledCount = p.sockets.length
  count : p.count = p.sockets.length + p.leased.length + p.requests.length + n
  requests : ∀ r ∈ p.requests, RequestOk r

variable {p : Socketpool} {n : ℕ} {ts : List ℕ}

/-! ## Entries -/

lemma Ledger.addLeased_one (h : Ledger p n ts) (t : ℕ) :
    Ledger (p.addLeased t 1) n (t :: ts) := by
  refine { h with leased := fun u => ?_ }
  have hu := h.leased u
  by_cases ht : u = t
  · subst ht
    simp [addLeased, hu]
    ring
  · simp [addLeased, ht, hu, Ne.symm ht]

variable {alive : ℕ → Bool} {choice : ℕ → Choice} {m t : ℕ} {p' : Socketpool} {r : ConnectRequest}
  {target : Option ℕ}

lemma Ledger.addLeased_neg (h : Ledger p n (t :: ts)) : Ledger (p.addLeased t (-1)) n ts := by
  refine { h with leased := fun u => ?_ }
  have hu := h.leased u
  by_cases ht : u = t
  · subst ht
    simp [addLeased, hu]
    ring
  · simpa [addLeased, ht, count_cons, Ne.symm ht] using hu

lemma Ledger.addCount_one (h : Ledger p n ts) : Ledger (p.addCount 1) (n + 1) ts := by
  refine { h with count := ?_ }
  simp only [addCount, h.count]
  push_cast
  ring

lemma Ledger.addCount_neg (h : Ledger p (n + 1) ts) : Ledger (p.addCount (-1)) n ts := by
  refine { h with count := ?_ }
  simp only [addCount, h.count]
  push_cast
  ring

lemma Ledger.onClose (h : Ledger p (n + 1) (t :: ts)) : Ledger (p.onClose t) n ts :=
  h.addLeased_neg.addCount_neg

/-! ## Moves -/

lemma Ledger.withoutRequest (h : Ledger p n ts) (hr : r ∈ p.requests) :
    Ledger (p.withoutRequest r) (n + 1) (r.selectedTarget :: ts) := by
  have hp := perm_cons_erase hr
  constructor
  case leased =>
    intro t
    have ht := h.leased t
    rw [hp.countP_eq, countP_cons] at ht
    simp only [Socketpool.withoutRequest, ht, count_cons, decide_eq_true_eq, beq_iff_eq]
    push_cast
    ring
  case pooled => exact h.pooled
  case count =>
    have hc := h.count
    rw [hp.length_eq, length_cons] at hc
    simp only [Socketpool.withoutRequest, hc]
    push_cast
    ring
  case requests => exact fun x hx => h.requests x (mem_of_mem_erase hx)

lemma Ledger.addRequest (h : Ledger p (n + 1) (r.selectedTarget :: ts))
    (hr : RequestOk r) : Ledger { p with requests := r :: p.requests } n ts := by
  constructor
  case leased =>
    intro t
    have ht := h.leased t
    rw [count_cons] at ht
    simp only [ht, countP_cons, decide_eq_true_eq, beq_iff_eq]
    push_cast
    ring
  case pooled => exact h.pooled
  case count =>
    simp only [h.count, length_cons]
    push_cast
    ring
  case requests =>
    intro x hx
    rcases mem_cons.1 hx with rfl | hx
    · exact hr
    · exact h.requests x hx

lemma Ledger.withoutLeased (h : Ledger p n ts) (ht : t ∈ p.leased) :
    Ledger (p.withoutLeased t) (n + 1) (t :: ts) := by
  have hp := perm_cons_erase ht
  constructor
  case leased =>
    intro u
    have hu := h.leased u
    rw [hp.count_eq, count_cons] at hu
    simp only [Socketpool.withoutLeased, hu, count_cons]
    push_cast
    ring
  case pooled => exact h.pooled
  case count =>
    have hc := h.count
    rw [hp.length_eq, length_cons] at hc
    simp only [Socketpool.withoutLeased, hc]
    push_cast
    ring
  case requests => exact h.requests

lemma Ledger.addToLeased (h : Ledger p (n + 1) (t :: ts)) :
    Ledger { p with leased := t :: p.leased } n ts := by
  refine { h with leased := fun u => ?_, count := ?_ }
  · have hu := h.leased u
    rw [count_cons] at hu
    simp only [hu, count_cons]
    push_cast
    ring
  · simp only [h.count, length_cons]
    push_cast
    ring

lemma Ledger.unpool (h : Ledger p n ts) {e : PoolEntry} (he : e ∈ p.sockets) :
    Ledger ({ p with sockets := p.sockets.erase e }.addPooled (-1)) (n + 1) ts := by
  have hlen := (perm_cons_erase he).length_eq
  rw [length_cons] at hlen
  refine { h with pooled := ?_, count := ?_ }
  · simp only [addPooled, h.pooled, hlen]
    push_cast
    ring
  · simp only [addPooled, h.count, hlen]
    push_cast
    ring

lemma Ledger.pool (h : Ledger p (n + 1) ts) (e : PoolEntry) :
    Ledger { p.addPooled 1 with sockets := p.sockets ++ [e] } n ts := by
  refine { h with pooled := ?_, count := ?_ }
  · simp [addPooled, h.pooled]
  · simp only [addPooled, h.count, length_append, length_singleton]
    push_cast
    ring

/-! ## Expiration -/

/-- Each turn of the loop writes one pooled socket off. -/
lemma Ledger.destroyExpired (b : ℕ) (es : List PoolEntry)
    (h : Ledger { p with sockets := es } n ts) : Ledger (destroyExpired b es p) n ts := by
  induction es generalizing p with
  | nil => exact h
  | cons e es ih =>
    rw [Socketpool.destroyExpired]
    split
    · exact h
    · refine ih { h with pooled := ?_, count := ?_ }
      · have hp := h.pooled
        simp only [length_cons] at hp
        simp only [addPooled, addCount, hp]
        push_cast
        ring
      · have hc := h.count
        simp only [length_cons] at hc
        simp only [addPooled, addCount, hc]
        push_cast
        ring

lemma Ledger.checkPoolExpired (h : Ledger p n ts) (now : ℕ) :
    Ledger (p.checkPoolExpired now) n ts := by
  rw [Socketpool.checkPoolExpired]
  split
  · exact Ledger.destroyExpired _ _ h
  · exact h

/-! ## Connecting -/

/-- A request in hand that waits for nothing. -/
def Idle (r : ConnectRequest) : Prop :=
  r.getaddrReq = false ∧ r.handshaking = false ∧ r.sock = .null

lemma selectTarget_idle {r' : ConnectRequest} (hr : Idle r)
    (h : p.selectTarget r m = some r') : Idle r' ∧ r'.remainingTryCount = r.remainingTryCount := by
  unfold selectTarget at h
  split at h
  · cases h
    exact ⟨hr, rfl⟩
  · split at h
    · split at h
      · cases h
        exact ⟨hr, rfl⟩
      · cases h
    · cases h
      exact ⟨hr, rfl⟩

/-- A connection attempt that fails at once is written off and retried, or the request ends. -/
lemma Ledger.startConnect {retry : Socketpool → ConnectRequest → Option Socketpool}
    (he : ∀ {q q' : Socketpool} {r : ConnectRequest}, Ledger q 1 [] → Idle r →
      retry q r = some q' → Ledger q' 0 [])
    (h : Ledger p 1 [r.selectedTarget]) (hr : Idle r) {connects : Bool}
    (hs : startConnect retry p r connects = some p') : Ledger p' 0 [] := by
  unfold Socketpool.startConnect at hs
  split at hs
  · cases hs
    exact h.addRequest (r := { r with sock := .live r.selectedTarget }) (Or.inr ⟨hr.1, rfl⟩)
  · have hl := h.addLeased_neg
    simp only at hs
    split at hs
    · exact he (r := { r with sock := .null }) hl ⟨hr.1, hr.2.1, rfl⟩ hs
    · cases hs
      exact hl.addCount_neg

lemma Ledger.tryConnect
    (h : Ledger p 1 []) (hr : Idle r) (hs : tryConnect choice m p r = some p') :
    Ledger p' 0 [] := by
  induction m generalizing p p' r with
  | zero => cases hs
  | succ m ih =>
    simp only [Socketpool.tryConnect, bind_eq_bind, bind_eq_some_iff] at hs
    obtain ⟨r', he, target, -, hs⟩ := hs
    have hr' : Idle r' := (selectTarget_idle (r := { r with remainingTryCount := m }) hr he).1
    have hl := h.addLeased_one r'.selectedTarget
    split at hs
    · cases hs
      exact hl.addRequest (r := { r' with getaddrReq := true }) (Or.inl ⟨rfl, hr'.2.1, hr'.2.2⟩)
    · exact Ledger.startConnect ih hl hr' hs

lemma Ledger.connectNew
    (h : Ledger p 0 []) (hs : connectNew choice p target = some p') : Ledger p' 0 [] := by
  unfold Socketpool.connectNew at hs
  cases target with
  | none | some t => exact h.addCount_one.tryConnect ⟨rfl, rfl, rfl⟩ hs

/-- A pooled socket that is alive changes hands. -/
lemma Ledger.takePooled {f : PoolEntry → Bool}
    (hl : ∀ m, alive m = true) (h : Ledger p 0 []) (m : ℕ) :
    Ledger (takePooled f alive m p).1 0 [] := by
  cases m with
  | zero => exact h
  | succ m =>
    rw [Socketpool.takePooled]
    cases hf : p.sockets.find? f with
    | none => exact h
    | some e =>
      simp only [hl, if_true]
      have hu := h.unpool (mem_of_find?_eq_some hf)
      exact (hu.addLeased_one e.target).addToLeased

lemma Ledger.connectWith {wanted : PoolEntry → Bool}
    (hl : ∀ m, alive m = true) (h : Ledger p 0 [])
    (hs : connectWith alive choice wanted target p = some p') : Ledger p' 0 [] := by
  have ht := h.takePooled hl p.sockets.length (f := wanted)
  unfold Socketpool.connectWith at hs
  split at hs
  · next q hq =>
    rw [hq] at ht
    cases hs
    exact ht
  · next q hq =>
    rw [hq] at ht
    exact ht.connectNew hs

lemma Ledger.globalTarget (h : Ledger p n ts) (url : TargetUrl) (isAddress : Bool) :
    Ledger (p.globalTarget url isAddress).1 n ts := by
  unfold Socketpool.globalTarget
  split
  · exact h
  · exact { h with }

lemma Ledger.connect {url : TargetUrl} {isAddress : Bool} {now : ℕ}
    (hl : ∀ m, alive m = true) (h : Ledger p 0 [])
    (hs : p.connect url isAddress now alive choice = some p') : Ledger p' 0 [] := by
  have he := h.checkPoolExpired now
  unfold Socketpool.connect at hs
  simp only at hs
  split at hs
  · exact (he.globalTarget url isAddress).connectWith hl hs
  · split at hs
    · cases hs
    · exact he.connectWith hl hs

/-! ## Callbacks -/

variable (h : Ledger p 1 [r.selectedTarget])
include h

lemma Ledger.onGetaddr {err : Bool} (hr : RequestOk r)
    (hg : r.getaddrReq = true) (hs : p.onGetaddr r err choice = some p') : Ledger p' 0 [] := by
  have hi : Idle { r with getaddrReq := false } := by
    rcases hr with ⟨-, hh, hk⟩ | ⟨hg', -⟩
    · exact ⟨rfl, hh, hk⟩
    · rw [hg] at hg'
      cases hg'
  unfold Socketpool.onGetaddr at hs
  simp only at hs
  split at hs
  · have hl := h.addLeased_neg
    split at hs
    · exact hl.tryConnect hi hs
    · cases hs
      exact hl.addCount_neg
  · exact Ledger.startConnect (r := { r with getaddrReq := false }) Ledger.tryConnect h hi hs

lemma Ledger.lease (hs : r.sock = .live r.selectedTarget) : Ledger (p.lease r) 0 [] := by
  rw [Socketpool.lease, hs]
  exact h.addToLeased

lemma Ledger.onConnect (hg : r.getaddrReq = false) (hk : r.sock = .live r.selectedTarget)
    (hs : p.onConnect r false choice = some p') : Ledger p' 0 [] := by
  simp only [Socketpool.onConnect, false_eq_true, if_false, bind_eq_bind, bind_eq_some_iff] at hs
  obtain ⟨target, -, hs⟩ := hs
  split at hs
  · cases hs
    exact h.addRequest (r := { r with handshaking := true }) (Or.inr ⟨hg, hk⟩)
  · cases hs
    exact h.lease hk

lemma Ledger.onHandshakeComplete {failed : Bool} (hk : r.sock = .live r.selectedTarget)
    (hs : p.onHandshakeComplete r failed = some p') : Ledger p' 0 [] := by
  unfold Socketpool.onHandshakeComplete at hs
  split at hs
  · rw [hk] at hs
    cases hs
    exact h.onClose
  · cases hs
    exact h.lease hk

lemma Ledger.cancelConnect (hk : r.sock = .live r.selectedTarget)
    (ht : r.tried = none) (hs : p.cancelConnect r = some p') : Ledger p' 0 [] := by
  simp only [Socketpool.cancelConnect, hk, reduceCtorEq, if_false, closeSock, ht,
    isSome_none, false_eq_true, bind_eq_bind, bind_some,
    some.injEq] at hs
  subst hs
  exact h.onClose

omit h

lemma Ledger.giveBack (h : Ledger p 1 [t]) (exported : Bool) (now : ℕ) :
    Ledger (p.giveBack t exported now) 0 [] := by
  have hl := h.addLeased_neg
  unfold Socketpool.giveBack
  simp only
  split
  · exact (hl.pool _).checkPoolExpired now
  · exact hl.addCount_neg

/-! ## Runs -/

/-- The states that events lead to, all of which satisfy `ok`. -/
inductive Reach (ok : Event → Prop) : Socketpool → Prop
  | specific (targets : List Target) (timeout : ℕ) (hasLoop : Bool) :
      Reach ok (initSpecific targets timeout hasLoop)
  | global (timeout : ℕ) (hasLoop : Bool) : Reach ok (initGlobal timeout hasLoop)
  | step {p p' : Socketpool} {e : Event} (h : Reach ok p) (he : ok e)
      (hs : p.step e = some p') : Reach ok p'

/-- No pooled socket is found dead, no connection fails to open after `connect` has returned a
socket, and a request is cancelled only while it has a socket and does no load balancing. -/
def Balanced : Event → Prop
  | .connect _ _ _ alive _ => ∀ m, alive m = true
  | .connected _ err _ => err = false
  | .cancel r => r.getaddrReq = false ∧ r.tried = none
  | _ => True

/-- One balanced event. -/
lemma Ledger.step {e : Event} (h : Ledger p 0 []) (he : Balanced e)
    (hs : p.step e = some p') : Ledger p' 0 [] := by
  cases e with
  | connect url isAddress now alive choice => exact h.connect he hs
  | getaddr r err choice =>
    obtain ⟨hr, hs⟩ := ite_none_right_eq_some.1 hs
    exact (h.withoutRequest hr.1).onGetaddr (h.requests r hr.1) hr.2 hs
  | connected r err choice =>
    obtain ⟨hr, hs⟩ := ite_none_right_eq_some.1 hs
    obtain rfl : err = false := he
    have hk : r.sock = .live r.selectedTarget := by
      rcases h.requests r hr.1 with ⟨hg, -⟩ | ⟨-, hk⟩
      · rw [hr.2.1] at hg
        cases hg
      · exact hk
    exact (h.withoutRequest hr.1).onConnect hr.2.1 hk hs
  | handshake r failed =>
    obtain ⟨hr, hs⟩ := ite_none_right_eq_some.1 hs
    have hk : r.sock = .live r.selectedTarget := by
      rcases h.requests r hr.1 with ⟨-, hh, -⟩ | ⟨-, hk⟩
      · rw [hr.2] at hh
        cases hh
      · exact hk
    exact (h.withoutRequest hr.1).onHandshakeComplete hk hs
  | cancel r =>
    obtain ⟨hr, hs⟩ := ite_none_right_eq_some.1 hs
    have hk : r.sock = .live r.selectedTarget := by
      rcases h.requests r hr with ⟨hg, -⟩ | ⟨-, hk⟩
      · rw [he.1] at hg
        cases hg
      · exact hk
    exact (h.withoutRequest hr).cancelConnect hk he.2 hs
  | giveBack t exported now =>
    obtain ⟨ht, hs⟩ := ite_none_right_eq_some.1 hs
    cases hs
    exact (h.withoutLeased ht).giveBack exported now
  | detach t =>
    obtain ⟨ht, hs⟩ := ite_none_right_eq_some.1 hs
    cases hs
    exact (h.withoutLeased ht).addLeased_neg.addCount_neg
  | close t =>
    obtain ⟨ht, hs⟩ := ite_none_right_eq_some.1 hs
    cases hs
    exact (h.withoutLeased ht).onClose
  | timeout now =>
    simp only [Socketpool.step, some.injEq] at hs
    subst hs
    exact h.checkPoolExpired now

lemma Reach.ledger (h : Reach Balanced p) : Ledger p 0 [] := by
  induction h with
  | specific targets timeout hasLoop =>
    constructor <;> simp [initSpecific]
  | global timeout hasLoop =>
    constructor <;> simp [initGlobal, initSpecific]
  | step _ he hs ih => exact ih.step he hs

/-- **The accounts of the pool.**  In every run of balanced events a target's `leased_count` is
the number of its sockets that are being connected or are leased out, `pooled_count` that of
the pooled sockets, `count` that of all, and no counter is below zero. -/
theorem ledger_of_reach (h : Reach Balanced p) :
    (∀ t, p.leasedCount t = p.requests.countP (fun r => r.selectedTarget = t) + p.leased.count t ∧
      0 ≤ p.leasedCount t) ∧ (p.pooledCount = p.sockets.length ∧ 0 ≤ p.pooledCount) ∧
    p.count = p.sockets.length + p.leased.length + p.requests.length ∧ 0 ≤ p.count := by
  have hl := h.ledger
  have hc : p.count = p.sockets.length + p.leased.length + p.requests.length := by
    simpa using hl.count
  refine ⟨fun t => ?_, ⟨hl.pooled, ?_⟩, hc, ?_⟩
  · have ht : p.leasedCount t =
        p.requests.countP (fun r => r.selectedTarget = t) + p.leased.count t := by
      simpa using hl.leased t
    exact ⟨ht, by rw [ht]; positivity⟩
  · rw [hl.pooled]
    positivity
  · rw [hc]
    positivity

/-- A server that is reached by its address. -/
def addressUrl : TargetUrl := ⟨0, false, ascii "127.0.0.1", 80⟩

/-- One connection is leased, and counted. -/
theorem ledger_of_reach_leased : ∃ p, Reach Balanced p ∧ p.leased = [0] ∧ p.leasedCount 0 =
      p.requests.countP (fun r => r.selectedTarget = 0) + p.leased.count 0 := by
  have hr : Reach Balanced _ :=
    ((Reach.global 2000 false).step
      (e := .connect addressUrl true 0 (fun _ => true) (fun _ => ⟨0, true⟩)) (fun _ => rfl) rfl).step
      (e := .connected ⟨0, 0, none, false, .live 0, false⟩ false (fun _ => ⟨0, true⟩)) rfl rfl
  exact ⟨_, hr, rfl, ((ledger_of_reach hr).1 0).1⟩

/-- A connection that fails to open is written off by `on_connect` and again by the `on_close`
it causes. -/
theorem accounts_overdrawn :
    ∃ p, Reach (fun _ => True) p ∧ p.count = -1 ∧ p.leasedCount 0 = -1 ∧ p.requests = [] ∧
      p.leased = [] ∧ p.sockets = [] := by
  have hr : Reach (fun _ => True) _ :=
    ((Reach.global 2000 false).step
      (e := .connect addressUrl true 0 (fun _ => true) (fun _ => ⟨0, true⟩)) trivial rfl).step
      (e := .connected ⟨0, 0, none, false, .live 0, false⟩ true (fun _ => ⟨0, true⟩)) trivial rfl
  exact ⟨_, hr, rfl, rfl, rfl, rfl, rfl⟩

end Vhttp.Socketpool
