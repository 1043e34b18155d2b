import Vhttp.Bytes

/-!
# The socket pool

The model of `lib/common/socketpool.c`: a pool of connections to upstream servers, with the
three counters `count`, `pooled_count` and the `leased_count` of each target. A socket is in
one place at a time: it is pooled, it belongs to a connect request, or it has been handed to
an application. What the operating system, the resolver, the load balancer and the
applications do are the parameters of the events.

Every call is one step. The counters are integers, so that one decrement too many shows.
-/

namespace Vhttp

/-- The parts of a `vhttp_url_t` that the pool reads. -/
structure TargetUrl where
  scheme : ℕ
  isSsl : Bool
  host : Bytes
  port : ℕ

/-- A `vhttp_socketpool_target_t`; `named` is its type. -/
structure Target where
  url : TargetUrl
  named : Bool

/-- A `struct pool_entry_t`. -/
structure PoolEntry where
  target : ℕ
  addedAt : ℕ
deriving DecidableEq

/-- The `sock` of a request. A live socket carries the target of its `on_close` data. -/
inductive SockPtr
  | null
  | live (target : ℕ)
  | dangling
deriving DecidableEq

/-- A `vhttp_socketpool_connect_request_t`. `handshaking` tells which callback its socket
waits for. -/
structure ConnectRequest where
  selectedTarget : ℕ
  remainingTryCount : ℕ
  tried : Option (List Bool)
  getaddrReq : Bool
  sock : SockPtr
  handshaking : Bool
deriving DecidableEq

/-- A `vhttp_socketpool_t` with its requests and, by their targets, the sockets that
applications hold. The list of a target is the part of `sockets` with that target. -/
structure Socketpool where
  isGlobal : Bool
  targets : List Target
  timeout : ℕ
  hasLoop : Bool
  sockets : List PoolEntry
  count : ℤ
  pooledCount : ℤ
  leasedCount : ℕ → ℤ
  requests : List ConnectRequest
  leased : List ℕ

namespace Socketpool

/-- `vhttp_socketpool_init_specific`. -/
def initSpecific (targets : List Target) (timeout : ℕ) (hasLoop : Bool) : Socketpool where
  isGlobal := false
  targets := targets
  timeout := timeout
  hasLoop := hasLoop
  sockets := []
  count := 0
  pooledCount := 0
  leasedCount := fun _ => 0
  requests := []
  leased := []

/-- `vhttp_socketpool_init_global`. -/
def initGlobal (timeout : ℕ) (hasLoop : Bool) : Socketpool :=
  { initSpecific [] timeout hasLoop with isGlobal := true }

variable (p : Socketpool) (r : ConnectRequest) (target : ℕ)

/-- An atomic addition to `count`. -/
def addCount (n : ℤ) : Socketpool := { p with count := p.count + n }

/-- An atomic addition to `pooled_count`. -/
def addPooled (n : ℤ) : Socketpool := { p with pooledCount := p.pooledCount + n }

/-- An atomic addition to the `leased_count` of a target. -/
def addLeased (n : ℤ) : Socketpool :=
  { p with leasedCount := Function.update p.leasedCount target (p.leasedCount target + n) }

/-- `on_close`, which `dispose_socket` calls. -/
def onClose : Socketpool := (p.addLeased target (-1)).addCount (-1)

/-- `vhttp_socket_close` of a request's socket. -/
def closeSock : SockPtr → Option Socketpool
  | .live target => some (p.onClose target)
  | .null => none
  | .dangling => none

/-! ## Targets -/

/-- `vhttp_url_host_is_unix_path`. -/
def hostIsUnixPath (host : Bytes) : Bool := host.take 5 = ascii "unix:"

/-- `vhttp_tolower`. -/
def toLower (c : UInt8) : UInt8 := if 65 ≤ c ∧ c ≤ 90 then c + 32 else c

/-- `vhttp_url_hosts_are_equal`. -/
def hostsAreEqual (a b : Bytes) : Bool :=
  if hostIsUnixPath a then a = b else a.map toLower = b

/-- `lookup_target`. -/
def lookupTarget (url : TargetUrl) : Option ℕ :=
  p.targets.findIdx? (fun t =>
    t.url.scheme = url.scheme ∧ t.url.port = url.port ∧ hostsAreEqual t.url.host url.host)

/-- `vhttp_socketpool_create_target`; `isAddress` is the verdict of `vhttp_hostinfo_aton`. -/
def createTarget (url : TargetUrl) (isAddress : Bool) : Target where
  url := if hostIsUnixPath url.host then url else { url with host := url.host.map toLower }
  named := !hostIsUnixPath url.host && !isAddress

/-! ## Expiration -/

/-- The loop of `destroy_expired_locked` over the list. -/
def destroyExpired (expireBefore : ℕ) : List PoolEntry → Socketpool → Socketpool
  | [], p => { p with sockets := [] }
  | entry :: entries, p =>
    if expireBefore < entry.addedAt then { p with sockets := entry :: entries }
    else destroyExpired expireBefore entries ((p.addCount (-1)).addPooled (-1))

/-- `check_pool_expired_locked`. -/
def checkPoolExpired (now : ℕ) : Socketpool :=
  if p.hasLoop then
    destroyExpired ((now + 2 ^ 64 - p.timeout) % 2 ^ 64) p.sockets p
  else p

/-! ## Connecting -/

/-- What is decided outside the pool while a target is tried: the answer of the balancer, and
whether `vhttp_socket_connect` returns a socket. -/
structure Choice where
  select : ℕ
  connects : Bool

/-- The selection at the start of `try_connect`. -/
def selectTarget (select : ℕ) : Option ConnectRequest :=
  match r.tried with
  | none => some r
  | some tried =>
    if 1 < p.targets.length then
      if tried[select]? = some false then
        some { r with selectedTarget := select, tried := some (tried.set select true) }
      else none
    else some { r with selectedTarget := 0 }

/-- `start_connect`; `retry` is `try_connect`. A request that is over leaves the pool. -/
def startConnect (retry : Socketpool → ConnectRequest → Option Socketpool) (p : Socketpool)
    (r : ConnectRequest) (connects : Bool) : Option Socketpool :=
  if connects then
    some { p with requests := { r with sock := .live r.selectedTarget } :: p.requests }
  else
    let p := p.addLeased r.selectedTarget (-1)
    if 0 < r.remainingTryCount then retry p { r with sock := .null }
    else some (p.addCount (-1))

/-- `try_connect`, for a request with the given number of tries left. -/
def tryConnect (choice : ℕ → Choice) : ℕ → Socketpool → ConnectRequest → Option Socketpool
  | 0, _, _ => none
  | n + 1, p, r => do
    let r ← p.selectTarget { r with remainingTryCount := n } (choice n).select
    let target ← p.targets[r.selectedTarget]?
    let p := p.addLeased r.selectedTarget 1
    if target.named then
      some { p with requests := { r with getaddrReq := true } :: p.requests }
    else
      startConnect (tryConnect choice n) p r (choice n).connects

/-- The loop of `vhttp_socketpool_connect` that looks for a pooled socket. `alive` is what
`recv` tells of the one that is looked at; the turns are counted down. -/
def takePooled (wanted : PoolEntry → Bool) (alive : ℕ → Bool) :
    ℕ → Socketpool → Socketpool × Bool
  | 0, p => (p, false)
  | n + 1, p =>
    match p.sockets.find? wanted with
    | none => (p, false)
    | some entry =>
      let p := { p with sockets := p.sockets.erase entry }.addPooled (-1)
      if alive n then
        ({ p.addLeased entry.target 1 with leased := entry.target :: p.leased }, true)
      else takePooled wanted alive n p

/-- The part of `vhttp_socketpool_connect` that is made when no pooled socket was found. -/
def connectNew (choice : ℕ → Choice) (p : Socketpool) (target : Option ℕ) : Option Socketpool :=
  let p := p.addCount 1
  match target with
  | none => tryConnect choice p.targets.length p
      ⟨0, p.targets.length, some (List.replicate p.targets.length false), false, .null, false⟩
  | some t => tryConnect choice 1 p ⟨t, 1, none, false, .null, false⟩

/-- The part of `vhttp_socketpool_connect` behind the choice of the list. -/
def connectWith (alive : ℕ → Bool) (choice : ℕ → Choice) (wanted : PoolEntry → Bool)
    (target : Option ℕ) (p : Socketpool) : Option Socketpool :=
  match takePooled wanted alive p.sockets.length p with
  | (p, true) => some p
  | (p, false) => connectNew choice p target

/-- The target of a URL in a global pool, which is made if it is not there. -/
def globalTarget (url : TargetUrl) (isAddress : Bool) : Socketpool × ℕ :=
  match p.lookupTarget url with
  | some target => (p, target)
  | none => ({ p with targets := p.targets ++ [createTarget url isAddress] }, p.targets.length)

/-- `vhttp_socketpool_connect`. -/
def connect (url : TargetUrl) (isAddress : Bool) (now : ℕ) (alive : ℕ → Bool)
    (choice : ℕ → Choice) : Option Socketpool :=
  let p := p.checkPoolExpired now
  if p.isGlobal then
    let r := p.globalTarget url isAddress
    connectWith alive choice (fun entry => entry.target = r.2) (some r.2) r.1
  else if p.targets = [] then none
  else connectWith alive choice (fun _ => true) none p

/-! ## The callbacks of a request -/

/-- The socket of a request goes to the application. -/
def lease : Socketpool :=
  match r.sock with
  | .live target => { p with leased := target :: p.leased }
  | .null => p
  | .dangling => p

/-- `on_getaddr`. -/
def onGetaddr (err : Bool) (choice : ℕ → Choice) : Option Socketpool :=
  let r := { r with getaddrReq := false }
  if err then
    let p := p.addLeased r.selectedTarget (-1)
    if 0 < r.remainingTryCount then tryConnect choice r.remainingTryCount p r
    else some (p.addCount (-1))
  else
    startConnect (tryConnect choice r.remainingTryCount) p r (choice r.remainingTryCount).connects

/-- `on_connect`. -/
def onConnect (err : Bool) (choice : ℕ → Choice) : Option Socketpool := do
  if err then
    let p := p.addLeased r.selectedTarget (-1)
    let p ← p.closeSock r.sock
    if 0 < r.remainingTryCount then
      tryConnect choice r.remainingTryCount p { r with sock := .dangling }
    else some (p.addCount (-1))
  else
    let target ← p.targets[r.selectedTarget]?
    if target.url.isSsl then
      some { p with requests := { r with handshaking := true } :: p.requests }
    else some (p.lease r)

/-- `on_handshake_complete`; `failed` tells whether the error, if any, is one that closes the
socket. -/
def onHandshakeComplete (failed : Bool) : Option Socketpool :=
  if failed then p.closeSock r.sock else some (p.lease r)

/-- `vhttp_socketpool_cancel_connect`. -/
def cancelConnect : Option Socketpool := do
  let p ← if r.sock = .null then some p else p.closeSock r.sock
  if r.tried.isSome then some (p.addLeased r.selectedTarget (-1)) else some p

/-! ## The sockets of the applications -/

/-- `vhttp_socketpool_return`; `exported` tells whether the socket could be exported. -/
def giveBack (exported : Bool) (now : ℕ) : Socketpool :=
  let p := p.addLeased target (-1)
  if exported then
    checkPoolExpired { p.addPooled 1 with sockets := p.sockets ++ [⟨target, now⟩] } now
  else p.addCount (-1)

/-- `vhttp_socketpool_detach`. -/
def detach : Socketpool :=
  (p.addLeased target (-1)).addCount (-1)

/-! ## Events -/

/-- What can happen next. -/
inductive Event
  | connect (url : TargetUrl) (isAddress : Bool) (now : ℕ) (alive : ℕ → Bool)
      (choice : ℕ → Choice)
  | getaddr (r : ConnectRequest) (err : Bool) (choice : ℕ → Choice)
  | connected (r : ConnectRequest) (err : Bool) (choice : ℕ → Choice)
  | handshake (r : ConnectRequest) (failed : Bool)
  | cancel (r : ConnectRequest)
  | giveBack (target : ℕ) (exported : Bool) (now : ℕ)
  | detach (target : ℕ)
  | close (target : ℕ)
  | timeout (now : ℕ)

/-- Take a request out of the pool while it is worked on. -/
def withoutRequest : Socketpool :=
  { p with requests := p.requests.erase r }

/-- Take a socket away from the applications. -/
def withoutLeased : Socketpool :=
  { p with leased := p.leased.erase target }

/-- One event. There is no next state if it cannot happen, or if a freed socket would be
used. -/
def step : Event → Option Socketpool
  | .connect url isAddress now alive choice => p.connect url isAddress now alive choice
  | .getaddr r err choice =>
    if r ∈ p.requests ∧ r.getaddrReq then (p.withoutRequest r).onGetaddr r err choice else none
  | .connected r err choice =>
    if r ∈ p.requests ∧ r.getaddrReq = false ∧ r.handshaking = false then
      (p.withoutRequest r).onConnect r err choice
    else none
  | .handshake r failed =>
    if r ∈ p.requests ∧ r.handshaking then (p.withoutRequest r).onHandshakeComplete r failed
    else none
  | .cancel r => if r ∈ p.requests then (p.withoutRequest r).cancelConnect r else none
  | .giveBack target exported now =>
    if target ∈ p.leased then some ((p.withoutLeased target).giveBack target exported now)
    else none
  | .detach target =>
    if target ∈ p.leased then some ((p.withoutLeased target).detach target) else none
  | .close target =>
    if target ∈ p.leased then some ((p.withoutLeased target).onClose target) else none
  | .timeout now => some (p.checkPoolExpired now)

end Socketpool

end Vhttp
