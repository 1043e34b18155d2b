import Vhttp.Http2.Scheduler.Queue

/-!
# The HTTP/2 scheduler

The model of `lib/http2/scheduler.c`: the dependency tree of the streams of a connection. The
references (`vhttp_http2_scheduler_openref_t`) are numbers, `root` is the node of the
connection, and the state has one array for each of their fields. A reference is linked in
the queue of the node `link` names; in C the link is a part of that queue's lists.

An operation returns `none` where an assertion of the source fails. Loops that climb the tree
or empty a list have a bound: the number of references that are open, or the length of the
list.
-/

namespace Vhttp.Http2.Scheduler

open Function

/-- The node of the connection. -/
def root : ℕ := 0

/-- The nodes and references of a connection; `opened` are those whose `_all_link` is
linked. -/
structure Sched where
  parent : ℕ → Option ℕ
  allRefs : ℕ → List ℕ
  queue : ℕ → Option Queue
  weight : ℕ → ℕ
  activeCnt : ℕ → ℕ
  selfIsActive : ℕ → Bool
  deficit : ℕ → ℕ
  link : ℕ → Option ℕ
  isRelocated : ℕ → Bool
  opened : List ℕ

namespace Sched

/-- `vhttp_http2_scheduler_init`. -/
def init : Sched where
  parent := fun _ => none
  allRefs := fun _ => []
  queue := fun _ => none
  weight := fun _ => 0
  activeCnt := fun _ => 0
  selfIsActive := fun _ => false
  deficit := fun _ => 0
  link := fun _ => none
  isRelocated := fun _ => false
  opened := []

variable (t : Sched) (node ref newParent : ℕ)

/-- `get_queue`. -/
def getQueue : Queue := (t.queue node).getD Queue.init

/-- `queue_set` of a reference in the queue of a node. -/
def queueSet : Option Sched :=
  if t.link ref = none then do
    let r ← (t.getQueue node).set ref (t.weight ref) (t.deficit ref)
    some { t with
      queue := update t.queue node (some r.1)
      deficit := update t.deficit ref r.2
      link := update t.link ref (some node) }
  else none

/-- `queue_unset`. -/
def queueUnset : Option Sched := do
  let node ← t.link ref
  some { t with
    queue := update t.queue node (some ((t.getQueue node).unlink ref))
    link := update t.link ref none }

/-- A bound for the length of a climb to the root. -/
def bound : ℕ := t.opened.length + 1

/-- `incr_active_cnt`. -/
def incrActiveCnt : ℕ → Sched → ℕ → Option Sched
  | 0, _, _ => none
  | fuel + 1, t, node =>
    match t.parent node with
    | none => some t
    | some parent =>
      let t := { t with activeCnt := update t.activeCnt node (t.activeCnt node + 1) }
      if t.activeCnt node = 1 then do
        let t ← t.queueSet parent node
        incrActiveCnt fuel t parent
      else some t

/-- `decr_active_cnt`; a count of zero would wrap around. -/
def decrActiveCnt : ℕ → Sched → ℕ → Option Sched
  | 0, _, _ => none
  | fuel + 1, t, node =>
    match t.parent node with
    | none => some t
    | some parent =>
      if t.activeCnt node = 0 then none
      else
        let t := { t with activeCnt := update t.activeCnt node (t.activeCnt node - 1) }
        if t.activeCnt node = 0 then do
          let t ← t.queueUnset node
          decrActiveCnt fuel t parent
        else some t

/-! ## Moving a reference -/

/-- The part of `do_rebind` that adjusts the queues and counts, for a reference that is
active. -/
def requeue (oldParent newParent : ℕ) : Option Sched := do
  let t ← t.queueUnset ref
  let t ← t.queueSet newParent ref
  let t ← t.decrActiveCnt t.bound oldParent
  t.incrActiveCnt t.bound newParent

/-- `_all_link` goes from the list of a node to the end of the list of another. -/
def relink (allRefs : ℕ → List ℕ) (ref oldParent newParent : ℕ) : ℕ → List ℕ :=
  let unlinked := update allRefs oldParent ((allRefs oldParent).erase ref)
  update unlinked newParent (unlinked newParent ++ [ref])

/-- `do_rebind` up to the conversion to exclusive. -/
def moveTo : Option Sched := do
  let oldParent ← t.parent ref
  let t := { t with allRefs := relink t.allRefs ref oldParent newParent }
  let t ← if t.activeCnt ref = 0 then some t else t.requeue ref oldParent newParent
  some { t with parent := update t.parent ref (some newParent) }

/-- The loop of `vhttp_http2_scheduler_rebind`: climbing from `node`, is `ref` met? -/
def isBelow (t : Sched) (ref : ℕ) : ℕ → ℕ → Bool
  | 0, _ => false
  | fuel + 1, node =>
    match t.parent node with
    | none => false
    | some parent => if parent = ref then true else t.isBelow ref fuel parent

/-- If the new parent depends on the reference, it becomes a sibling of it. -/
def liftNewParent : Option Sched :=
  if t.allRefs ref ≠ [] ∧ t.isBelow ref t.bound newParent then do
    let parent ← t.parent ref
    t.moveTo newParent parent
  else some t

/-- `vhttp_http2_scheduler_rebind`, with `final` for the `do_rebind` of the reference. -/
def rebindWith (final : Sched → Option Sched) (t : Sched) (ref newParent weight : ℕ)
    (exclusive : Bool) : Option Sched :=
  if ref ∈ t.opened ∧ ref ≠ newParent ∧ 1 ≤ weight ∧ weight ≤ 257 then
    if t.parent ref = some newParent ∧ t.weight ref = weight ∧ exclusive = false then some t
    else do
      let t := { t with weight := update t.weight ref weight }
      let t ← t.liftNewParent ref newParent
      final t
  else none

/-- `vhttp_http2_scheduler_rebind`, not exclusive. -/
def rebindPlain (weight : ℕ) : Option Sched :=
  rebindWith (fun t => t.moveTo ref newParent) t ref newParent weight false

/-- `convert_to_exclusive`. -/
def convertToExclusive : ℕ → Sched → ℕ → ℕ → Option Sched
  | 0, _, _, _ => none
  | fuel + 1, t, parent, added =>
    match t.allRefs parent with
    | [] => some t
    | child :: _ =>
      if child = added then
        if (t.allRefs parent).getLast? = some added then some t else none
      else do
        let t ← t.rebindPlain child added (t.weight child)
        convertToExclusive fuel t parent added

/-- `convert_to_exclusive`, if asked for. -/
def convertIf (exclusive : Bool) (t : Sched) (parent added : ℕ) : Option Sched :=
  if exclusive then convertToExclusive ((t.allRefs parent).length + 1) t parent added else some t

/-- `do_rebind`. -/
def doRebind (exclusive : Bool) : Option Sched := do
  let t ← t.moveTo ref newParent
  convertIf exclusive t newParent ref

/-- `vhttp_http2_scheduler_rebind`. -/
def rebind (weight : ℕ) (exclusive : Bool) : Option Sched :=
  rebindWith (fun t => t.doRebind ref newParent exclusive) t ref newParent weight exclusive

/-! ## Opening and closing -/

/-- A reference with no dependents is linked under a node. -/
def link₁ (parent weight : ℕ) : Sched where
  parent := update t.parent ref (some parent)
  allRefs :=
    let allRefs := update t.allRefs ref []
    update allRefs parent (allRefs parent ++ [ref])
  queue := update t.queue ref none
  weight := update t.weight ref weight
  activeCnt := update t.activeCnt ref 0
  selfIsActive := update t.selfIsActive ref false
  deficit := update t.deficit ref 0
  link := update t.link ref none
  isRelocated := update t.isRelocated ref false
  opened := ref :: t.opened

/-- `vhttp_http2_scheduler_open`. -/
def openRef (parent weight : ℕ) (exclusive : Bool) : Option Sched :=
  convertIf exclusive (t.link₁ ref parent weight) parent ref

/-- The sum of the children's weights, in 32 bits. -/
def totalWeight : ℕ := ((t.allRefs ref).map t.weight).sum % 2 ^ 32

/-- What a child's weight is multiplied by, in 1/65536. -/
def factor : ℕ :=
  (t.weight ref * 65536 % 2 ^ 32 + t.totalWeight ref / 2) % 2 ^ 32 / t.totalWeight ref

/-- The weight of a child of a reference that is closed. -/
def childWeight (factor weight : ℕ) : ℕ :=
  let w := (weight * factor % 2 ^ 32 / 32768 + 1) / 2 % 2 ^ 16
  if w < 1 then 1 else if 256 < w then 256 else w

/-- The loop of `vhttp_http2_scheduler_close` that moves the dependents. -/
def raiseChildren (factor ref parent : ℕ) : ℕ → Sched → Option Sched
  | 0, t => if t.allRefs ref = [] then some t else none
  | fuel + 1, t =>
    match t.allRefs ref with
    | [] => some t
    | child :: _ => do
      let t ← t.rebindPlain child parent (childWeight factor (t.weight child))
      raiseChildren factor ref parent fuel t

/-- The end of `vhttp_http2_scheduler_close`: the reference leaves the tree. -/
def detachSelf (parent : ℕ) : Option Sched :=
  let t := { t with
    queue := update t.queue ref none
    allRefs := update t.allRefs parent ((t.allRefs parent).erase ref)
    opened := t.opened.erase ref }
  if t.selfIsActive ref then
    if t.activeCnt ref = 1 then do
      let t ← t.queueUnset ref
      t.decrActiveCnt t.bound parent
    else none
  else if t.activeCnt ref = 0 then some t else none

/-- `vhttp_http2_scheduler_close`. -/
def close : Option Sched := do
  let parent ← t.parent ref
  if ref ∈ t.opened then
    let t ←
      if t.allRefs ref = [] then some t
      else if t.totalWeight ref = 0 then none
      else raiseChildren (t.factor ref) ref parent (t.allRefs ref).length t
    t.detachSelf ref parent
  else none

/-! ## Relocating -/

/-- The queues after `dst` has taken the place of `src`: the one it is linked in, and the one
it has. -/
def relocateQueue (dst src : ℕ) : ℕ → Option Queue :=
  let queue := fun node =>
    if t.link src = some node then (t.queue node).map (·.replace src dst) else t.queue node
  update
    (update queue dst (if t.allRefs src = [] then none else queue src)) src none

/-- The references after `dst`, with the same parent, has taken the place of `src`. -/
def relocated (dst src parent : ℕ) : Sched where
  parent := fun node =>
    if node ∈ t.allRefs src then some dst else if node = dst then some parent else t.parent node
  allRefs :=
    let allRefs := update (update t.allRefs dst (t.allRefs src)) src []
    update allRefs parent (Queue.swapIn src dst (allRefs parent))
  queue := t.relocateQueue dst src
  weight := update t.weight dst (t.weight src)
  activeCnt := update t.activeCnt dst (t.activeCnt src)
  selfIsActive := update t.selfIsActive dst (t.selfIsActive src)
  deficit := update t.deficit dst (t.deficit src)
  link := fun node =>
    if node = src then none
    else if node = dst then t.link src
    else if t.link node = some src then some dst else t.link node
  isRelocated := update t.isRelocated dst true
  opened := Queue.swapIn src dst t.opened

/-- `vhttp_http2_scheduler_relocate`. -/
def relocate (dst src : ℕ) : Option Sched := do
  let parent ← t.parent src
  if (t.allRefs src).all (fun child => t.parent child = some src) then
    some (t.relocated dst src parent)
  else none

/-! ## Activity -/

/-- `vhttp_http2_scheduler_activate`. -/
def activate : Option Sched :=
  if t.selfIsActive ref then some t
  else
    let t := { t with selfIsActive := update t.selfIsActive ref true }
    t.incrActiveCnt t.bound ref

/-- `vhttp_http2_scheduler_deactivate`. -/
def deactivate : Option Sched :=
  if t.selfIsActive ref then
    let t := { t with selfIsActive := update t.selfIsActive ref false }
    t.decrActiveCnt t.bound ref
  else some t

/-- What a callback answers for a reference: `still_is_active`, and whether to bail out. -/
abbrev Callback := ℕ → Bool × Bool

/-- The end of `proceed`, once the callback has been called on a reference popped from the
queue of `node`. -/
def afterCallback (stillIsActive : Bool) : Option Sched :=
  if stillIsActive then t.queueSet node ref
  else
    let t := { t with
      selfIsActive := update t.selfIsActive ref false
      activeCnt := update t.activeCnt ref (t.activeCnt ref - 1) }
    if t.activeCnt ref ≠ 0 then t.queueSet node ref
    else
      match t.parent ref with
      | none => some t
      | some parent => t.decrActiveCnt t.bound parent

/-- `proceed`: the reference the callback was called on, if any, comes with the new state. -/
def proceed (cb : Callback) : ℕ → Sched → ℕ → Option (Sched × Option ℕ)
  | 0, _, _ => none
  | fuel + 1, t, node =>
    match t.queue node with
    | none => some (t, none)
    | some queue =>
      let popped := queue.pop
      let t := { t with queue := update t.queue node (some popped.1) }
      match popped.2 with
      | none => some (t, none)
      | some ref =>
        let t := { t with link := update t.link ref none }
        if t.selfIsActive ref then
          if t.activeCnt ref = 0 then none
          else do
            let t ← t.afterCallback node ref (cb ref).1
            some (t, some ref)
        else do
          let t ← t.queueSet node ref
          proceed cb fuel t ref

/-- Whether the loop of `vhttp_http2_scheduler_run` makes another turn. -/
def hasMore : Bool :=
  match t.queue root with
  | none => false
  | some queue => !queue.isEmpty

/-- The first turns of the loop of `vhttp_http2_scheduler_run`, each with the answers of the
callback in that turn. -/
def run : List Callback → Sched → Option Sched
  | [], t => some t
  | cb :: cbs, t =>
    if t.hasMore then do
      let r ← t.proceed cb t.bound root
      match r.2 with
      | some ref => if (cb ref).2 then some r.1 else run cbs r.1
      | none => run cbs r.1
    else some t

/-! ## Operations -/

/-- An operation on the scheduler. -/
inductive Op
  | openRef (ref parent weight : ℕ) (exclusive : Bool)
  | close (ref : ℕ)
  | rebind (ref newParent weight : ℕ) (exclusive : Bool)
  | relocate (dst src : ℕ)
  | activate (ref : ℕ)
  | deactivate (ref : ℕ)
  | run (cbs : List Callback)

/-- Make an operation. -/
def step : Op → Option Sched
  | .openRef ref parent weight exclusive => t.openRef ref parent weight exclusive
  | .close ref => t.close ref
  | .rebind ref newParent weight exclusive => t.rebind ref newParent weight exclusive
  | .relocate dst src => t.relocate dst src
  | .activate ref => t.activate ref
  | .deactivate ref => t.deactivate ref
  | .run cbs => t.run cbs

end Sched

end Vhttp.Http2.Scheduler
