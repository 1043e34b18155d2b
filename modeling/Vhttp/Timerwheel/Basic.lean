import Mathlib

/-!
# The timer wheel: model

`lib/common/timerwheel.c`. A context has `num_wheels` wheels of 32 slots; slot `s` of wheel
`w` is a list of timers, in the order of the linked list. Times are the `uint64_t`s of the
source: sums are taken modulo `2 ^ 64`. What the source leaves to `assert`, `vhttp_fatal`
or undefined behaviour is a `Fault` here.

`vhttp_timerwheel_get_expired` jumps back to `Redo` as long as there is time to catch up
with; its model has a fuel argument, and running out of it is a fault as well. Callbacks
are functions that say which timers they link.
-/

namespace Vhttp.Timerwheel

/-- `vhttp_TIMERWHEEL_BITS_PER_WHEEL`. -/
def bitsPerWheel : ℕ := 5

/-- `vhttp_TIMERWHEEL_SLOTS_PER_WHEEL`. -/
def slotsPerWheel : ℕ := 32

/-- The number of `uint64_t` values. -/
@[irreducible] def wordSize : ℕ := 2 ^ 64

/-- `UINT64_MAX`. -/
@[irreducible] def uint64Max : ℕ := 2 ^ 64 - 1

/-- What can go wrong. -/
inductive Fault where
  /-- a failed `assert` -/
  | assertion
  /-- `ABORT_CORRUPT_TIMER` -/
  | corruptTimer
  /-- a wheel that is not in the array -/
  | outOfRange
  /-- a shift by the width of the type or more, or into the sign bit of an `int` -/
  | undefinedShift
  /-- the fuel of the model is used up -/
  | diverges
  deriving DecidableEq

/-- A linked `vhttp_timerwheel_entry_t`; `id` is its address. -/
structure Timer (α : Type*) where
  id : α
  expireAt : ℕ
  deriving DecidableEq

/-- `vhttp_timerwheel_t`. -/
structure Ctx (α : Type*) where
  lastRun : ℕ
  maxTicks : ℕ
  numWheels : ℕ
  wheels : ℕ → ℕ → List (Timer α)

@[simp] lemma ok_bind.{u} {β γ : Type u} (b : β) (f : β → Except Fault γ) :
    (Except.ok b >>= f) = f b := rfl

variable {α : Type*} [DecidableEq α]

variable (ctx : Ctx α)

/-- The context with another list in one slot. -/
def Ctx.setSlot (wheel slot : ℕ) (l : List (Timer α)) : Ctx α :=
  { ctx with wheels := fun w s => if w = wheel ∧ s = slot then l else ctx.wheels w s }

/-- The context with another clock. -/
def Ctx.setLastRun (t : ℕ) : Ctx α := { ctx with lastRun := t }

/-- `timer_wheel`; the highest bit of `delta` gives the wheel. -/
def timerWheel (delta : ℕ) : ℕ := if delta = 0 then 0 else delta.log2 / bitsPerWheel

/-- `timer_slot`. -/
def timerSlot (wheel expire : ℕ) : ℕ := (slotsPerWheel - 1) &&& (expire >>> (wheel * bitsPerWheel))

/-- `link_timer`. -/
def linkTimer (entry : Timer α) : Except Fault (Ctx α) :=
  let limit := (ctx.lastRun + ctx.maxTicks) % wordSize
  let wheelAbs := if entry.expireAt > limit then limit else entry.expireAt
  let wheel := timerWheel ((wheelAbs + wordSize - ctx.lastRun) % wordSize)
  let slot := timerSlot wheel wheelAbs
  if wheel < ctx.numWheels then
    .ok (ctx.setSlot wheel slot (ctx.wheels wheel slot ++ [entry]))
  else .error .outOfRange

/-- `vhttp_timerwheel_create`. -/
def create (α : Type*) (numWheels now : ℕ) : Except Fault (Ctx α) :=
  if numWheels = 0 ∨ bitsPerWheel * (numWheels - 1) ≥ 64 then .error .undefinedShift
  else .ok
    { lastRun := now
      maxTicks := 2 ^ (bitsPerWheel * (numWheels - 1)) * (slotsPerWheel - 1) % wordSize
      numWheels := numWheels
      wheels := fun _ _ => [] }

/-- `vhttp_timerwheel_link_abs`, for an entry that is not linked. -/
def linkAbs (id : α) (at_ : ℕ) : Except Fault (Ctx α) :=
  linkTimer ctx ⟨id, if at_ < ctx.lastRun then ctx.lastRun else at_⟩

/-! ## `vhttp_timerwheel_get_expired` -/

/-- The `while` loop of `cascade_one`. -/
def cascadeLoop (wheel slot : ℕ) : ℕ → Ctx α → Except Fault (Ctx α)
  | 0, ctx => if (ctx.wheels wheel slot).isEmpty then .ok ctx else .error .diverges
  | fuel + 1, ctx =>
    match ctx.wheels wheel slot with
    | [] => .ok ctx
    | entry :: rest =>
      if entry.expireAt < ctx.lastRun then .error .corruptTimer
      else do
        let ctx' ← linkTimer (ctx.setSlot wheel slot rest) entry
        -- the entry must not have been reassigned to the same slot
        if (ctx'.wheels wheel slot).getLast? = some entry then .error .assertion
        else cascadeLoop wheel slot fuel ctx'

/-- `cascade_one`. -/
def cascadeOne (wheel slot : ℕ) : Except Fault (Ctx α) :=
  if wheel = 0 then .error .assertion
  else cascadeLoop wheel slot (ctx.wheels wheel slot).length ctx

/-- The `for` loop of `cascade_all`; the first argument counts the wheels that are left. -/
def cascadeLoopAll : ℕ → ℕ → Ctx α → Bool → Except Fault (Ctx α × Bool)
  | 0, _, ctx, cascaded => .ok (ctx, cascaded)
  | k + 1, wheel, ctx, cascaded => do
    let slot := timerSlot wheel ctx.lastRun
    let cascaded := cascaded || !(ctx.wheels wheel slot).isEmpty
    let ctx' ← cascadeOne ctx wheel slot
    if slot ≠ 0 then .ok (ctx', cascaded) else cascadeLoopAll k (wheel + 1) ctx' cascaded

/-- `cascade_all`. -/
def cascadeAll (wheel : ℕ) : Except Fault (Ctx α × Bool) :=
  cascadeLoopAll (ctx.numWheels - wheel) wheel ctx false

/-- How the collecting loop of `vhttp_timerwheel_get_expired` was left. -/
inductive Collected (α : Type*) where
  /-- `goto Exit` -/
  | exit (ctx : Ctx α) (expired : List (Timer α))
  /-- `wheel = 0; goto Redo` -/
  | redo (ctx : Ctx α) (expired : List (Timer α))
  /-- the last slot is done -/
  | carry (ctx : Ctx α) (expired : List (Timer α))

/-- The `for` loop that collects from the slots of a wheel; the first argument counts the
slots that are left. -/
def collect (now wheel : ℕ) : ℕ → ℕ → Ctx α → List (Timer α) → Except Fault (Collected α)
  | 0, _, ctx, expired => .ok (.carry ctx expired)
  | k + 1, slot, ctx, expired =>
    if wheel = 0 then
      let expired := expired ++ ctx.wheels wheel slot
      let ctx := ctx.setSlot wheel slot []
      if ctx.lastRun = now then .ok (.exit ctx expired)
      else collect now wheel k (slot + 1) (ctx.setLastRun ((ctx.lastRun + 1) % wordSize)) expired
    else if !(ctx.wheels wheel slot).isEmpty then do
      let ctx' ← cascadeOne ctx wheel slot
      if (ctx'.wheels wheel slot).isEmpty then .ok (.redo ctx' expired) else .error .assertion
    -- `1 << n` is a shift of an `int`
    else if wheel * bitsPerWheel ≥ 31 then .error .undefinedShift
    else
      let lastRun := (ctx.lastRun + 2 ^ (wheel * bitsPerWheel)) % wordSize
      if lastRun > now then .ok (.exit (ctx.setLastRun now) expired)
      else collect now wheel k (slot + 1) (ctx.setLastRun lastRun) expired

/-- The label `Exit`. -/
def exitExpired (now : ℕ) (ctx : Ctx α) (expired : List (Timer α)) :
    Except Fault (Ctx α × List (Timer α)) :=
  if ctx.lastRun = now then .ok (ctx, expired) else .error .assertion

/-- The label `Redo`. -/
def redoExpired (now : ℕ) : ℕ → ℕ → Ctx α → List (Timer α) →
    Except Fault (Ctx α × List (Timer α))
  | 0, _, _, _ => .error .diverges
  | fuel + 1, wheel, ctx, expired => do
    let slotStart := timerSlot wheel ctx.lastRun
    match ← collect now wheel (slotsPerWheel - slotStart) slotStart ctx expired with
    | .exit ctx expired => exitExpired now ctx expired
    | .redo ctx expired => redoExpired now fuel 0 ctx expired
    | .carry ctx expired =>
      let (ctx, cascaded) ← cascadeAll ctx (if wheel ≠ 0 then wheel else 1)
      if cascaded then redoExpired now fuel 0 ctx expired
      else if slotStart ≠ 0 then redoExpired now fuel wheel ctx expired
      else if wheel + 1 < ctx.numWheels then redoExpired now fuel (wheel + 1) ctx expired
      else
        -- all the wheels were empty
        exitExpired now (if ctx.lastRun < now then ctx.setLastRun now else ctx) expired

/-- `vhttp_timerwheel_get_expired`. -/
def getExpired (now : ℕ) : Except Fault (Ctx α × List (Timer α)) :=
  if now < ctx.lastRun then .ok (ctx, [])
  else redoExpired now (now - ctx.lastRun + 1) 0 ctx []

/-! ## The operations -/

/-- `vhttp_timerwheel_is_linked`, for a timer in one of the wheels. -/
def Ctx.isLinked (id : α) : Bool :=
  (List.range ctx.numWheels).any fun w => (List.range slotsPerWheel).any fun s =>
    (ctx.wheels w s).any fun e => decide (e.id = id)

/-- `vhttp_timerwheel_link_abs` with the assertion of `vhttp_linklist_insert`: the timer must
not be linked, neither in a wheel nor in the list of expired timers. -/
def link (expired : List (Timer α)) (id : α) (at_ : ℕ) : Except Fault (Ctx α) :=
  if ctx.isLinked id || expired.any (fun e => decide (e.id = id)) then .error .assertion
  else linkAbs ctx id at_

/-- `vhttp_timerwheel_unlink`. -/
def unlink (id : α) : Ctx α :=
  { ctx with wheels := fun w s => (ctx.wheels w s).filter fun e => decide (e.id ≠ id) }

/-- What a callback does: it links some timers. -/
def linkAll (expired : List (Timer α)) : List (α × ℕ) → Ctx α → Except Fault (Ctx α)
  | [], ctx => .ok ctx
  | (id, at_) :: links, ctx => do
    let ctx' ← link ctx expired id at_
    linkAll expired links ctx'

/-- The `while` loop of `vhttp_timerwheel_run`. -/
def fire (cb : α → List (α × ℕ)) : List (Timer α) → Ctx α → Except Fault (Ctx α)
  | [], ctx => .ok ctx
  | entry :: expired, ctx => do
    let ctx' ← linkAll expired (cb entry.id) ctx
    fire cb expired ctx'

/-- `vhttp_timerwheel_run`, with the timers that are fired, in order; the source returns how
many there are. `cb` says what the callback of each timer links in this run. -/
def run (now : ℕ) (cb : α → List (α × ℕ)) : Except Fault (Ctx α × List (Timer α)) := do
  let (ctx', expired) ← getExpired ctx now
  let ctx'' ← fire cb expired ctx'
  .ok (ctx'', expired)

/-- The operations of the users of a timer wheel. -/
inductive Op (α : Type*) where
  | link (id : α) (at_ : ℕ)
  | unlink (id : α)
  | run (now : ℕ) (cb : α → List (α × ℕ))

/-- One operation, with the timers that it fires. -/
def step : Op α → Except Fault (Ctx α × List (Timer α))
  | .link id at_ => do
    let ctx' ← link ctx [] id at_
    .ok (ctx', [])
  | .unlink id => .ok (unlink ctx id, [])
  | .run now cb => run ctx now cb

/-! ## `vhttp_timerwheel_get_wake_at` -/

/-- What a part of the search for the next slot ends with. -/
inductive Scan where
  /-- `goto Found` -/
  | found (at_ : ℕ)
  /-- nothing found up to here -/
  | upTo (at_ : ℕ)

/-- Check `k` slots of a wheel from `slot` on. -/
def scanSlots (ctx : Ctx α) (wheel : ℕ) : ℕ → ℕ → ℕ → Scan
  | 0, _, at_ => .upTo at_
  | k + 1, slot, at_ =>
    if (ctx.wheels wheel slot).isEmpty then
      scanSlots ctx wheel k (slot + 1) ((at_ + 2 ^ (wheel * bitsPerWheel)) % wordSize)
    else .found at_

/-- The carry loop: check the slots of the higher wheels that start at `at_`. -/
def scanCarry (ctx : Ctx α) : ℕ → ℕ → ℕ → Scan
  | 0, _, at_ => .upTo at_
  | k + 1, wi, at_ =>
    let si := timerSlot wi at_
    if (ctx.wheels wi si).isEmpty then
      if si ≠ 0 then .upTo at_ else scanCarry ctx k (wi + 1) at_
    else .found at_

/-- The body of the loop over the wheels. -/
def scanWheel (wheel at_ : ℕ) : Scan :=
  let slotBase := timerSlot wheel at_
  match scanSlots ctx wheel (slotsPerWheel - slotBase) slotBase at_ with
  | .found at_ => .found at_
  | .upTo at_ =>
    match scanCarry ctx (ctx.numWheels - (wheel + 1)) (wheel + 1) at_ with
    | .found at_ => .found at_
    | .upTo at_ =>
      if slotBase = 0 then .upTo at_
      else match scanSlots ctx wheel slotBase 0 at_ with
        | .found at_ => .found at_
        | .upTo at_ =>
          let at_ := (at_ + 2 ^ (wheel * bitsPerWheel) * (slotsPerWheel - slotBase)) % wordSize
          scanCarry ctx (ctx.numWheels - (wheel + 1)) (wheel + 1) at_

/-- The loop over the wheels. -/
def scanWheels (ctx : Ctx α) : ℕ → ℕ → ℕ → ℕ
  | 0, _, _ => uint64Max
  | k + 1, wheel, at_ =>
    match scanWheel ctx wheel at_ with
    | .found at_ => at_
    | .upTo at_ => scanWheels ctx k (wheel + 1) at_

/-- `vhttp_timerwheel_get_wake_at`. -/
def getWakeAt : ℕ := scanWheels ctx ctx.numWheels 0 ctx.lastRun

end Vhttp.Timerwheel
