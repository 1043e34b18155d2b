import Vhttp.Bytes
import Vhttp.Lib.BoundedCache

/-!
# The in-memory cache

The model of `lib/common/cache.c`. The references (`vhttp_cache_ref_t`) live in a heap and
are counted; the hash table, the list in order of use and the list in order of age hold
pointers to them. An operation returns `none` where an assertion of the source fails or a
freed reference would be read.

The hash table is a finite map by key. The mutex makes each operation atomic, and
`vhttp_cache_release` is one atomic decrement.
-/

namespace Vhttp

open Function

/-- A `vhttp_cache_ref_t`; `setAt` is its `at`. -/
structure CacheRef where
  key : Bytes
  setAt : ℕ
  value : Bytes
  requestedEarlyUpdate : Bool
  refcnt : ℕ

/-- A `vhttp_cache_t` with the heap of its references. The first element of a list is the one
its anchor's `next` points at; `next` is the pointer the next allocation returns, `destroyed`
the values handed to `destroy_cb`. -/
structure Cache where
  earlyUpdate : Bool
  table : AList (fun _ : Bytes => ℕ)
  size : ℕ
  capacity : ℕ
  lru : List ℕ
  age : List ℕ
  duration : ℕ
  destroyCb : Bool
  refs : ℕ → Option CacheRef
  next : ℕ
  destroyed : List Bytes

namespace Cache

/-- `vhttp_cache_create`. -/
def create (earlyUpdate : Bool) (capacity duration : ℕ) (destroyCb : Bool) : Cache where
  earlyUpdate := earlyUpdate
  table := ∅
  size := 0
  capacity := capacity
  lru := []
  age := []
  duration := duration
  destroyCb := destroyCb
  refs := fun _ => none
  next := 0
  destroyed := []

variable (c : Cache) (now : ℕ) (key : Bytes)

/-- `vhttp_cache_release`. -/
def release (id : ℕ) : Option Cache := do
  let ref ← c.refs id
  if ref.refcnt = 1 then
    if id ∈ c.lru ∨ id ∈ c.age then
      none
    else
      some { c with
        refs := update c.refs id none
        destroyed := if c.destroyCb then ref.value :: c.destroyed else c.destroyed }
  else
    some { c with refs := update c.refs id (some { ref with refcnt := ref.refcnt - 1 }) }

/-- `erase_ref`; the slot of the table is the one of `key`. -/
def eraseRef (reuse : Bool) : Option Cache := do
  let id ← c.table.lookup key
  let ref ← c.refs id
  release { c with
    table := if reuse then c.table else c.table.erase key
    lru := c.lru.erase id
    age := c.age.erase id
    size := c.size - ref.value.length } id

/-- A `uint64_t` read as an `int64_t`. -/
def toInt64 (n : ℤ) : ℤ := n.bmod (2 ^ 64)

/-- `get_timeleft`. The subtraction is one of `uint64_t`s. -/
def getTimeleft (ref : CacheRef) (now : ℕ) : ℤ :=
  toInt64 (ref.setAt + c.duration - now)

/-- The first loop of `purge`; each turn takes one reference off the list. -/
def purgeBySize : ℕ → Cache → Option Cache
  | 0, c => if c.capacity < c.size then none else some c
  | fuel + 1, c =>
    if c.capacity < c.size then do
      let last ← c.lru.head?
      let ref ← c.refs last
      let c ← eraseRef c ref.key false
      purgeBySize fuel c
    else some c

/-- The second loop of `purge`. -/
def purgeByTtl (now : ℕ) : ℕ → Cache → Option Cache
  | 0, c => if c.age = [] then some c else none
  | fuel + 1, c =>
    match c.age.head? with
    | none => some c
    | some oldest => do
      let ref ← c.refs oldest
      if 0 ≤ getTimeleft c ref now then some c
      else do
        let c ← eraseRef c ref.key false
        purgeByTtl now fuel c

/-- `purge`. -/
def purge : Option Cache := do
  let c ← purgeBySize c.lru.length c
  purgeByTtl now c.age.length c

/-- The loop of `vhttp_cache_clear`. -/
def clearAll : ℕ → Cache → Option Cache
  | 0, c => if c.lru = [] then some c else none
  | fuel + 1, c =>
    match c.lru.head? with
    | none => some c
    | some id => do
      let ref ← c.refs id
      let c ← eraseRef c ref.key false
      clearAll fuel c

/-- `vhttp_cache_clear`; the anchor of the age list is always linked. -/
def clear : Option Cache := do
  let c ← clearAll c.lru.length c
  if c.table.keys.length = 0 ∧ c.size = 0 then some c else none

/-- `vhttp_cache_fetch`. -/
def fetch : Option (Cache × Option ℕ) := do
  let c ← purge c now
  match c.table.lookup key with
  | none => some (c, none)
  | some id => do
    let ref ← c.refs id
    if getTimeleft c ref now < 0 then
      some (c, none)
    else if c.earlyUpdate ∧ getTimeleft c ref now < 10 ∧ ref.requestedEarlyUpdate = false then
      some ({ c with
        refs := update c.refs id (some { ref with requestedEarlyUpdate := true }) }, none)
    else
      some ({ c with
        lru := c.lru.erase id ++ [id]
        refs := update c.refs id (some { ref with refcnt := ref.refcnt + 1 }) }, some id)

/-- `vhttp_cache_set`; tells whether the key existed. -/
def set (value : Bytes) : Option (Cache × Bool) := do
  let newref := c.next
  let existed := (c.table.lookup key).isSome
  let c := { c with
    refs := update c.refs newref (some ⟨key, now, value, false, 1⟩)
    next := c.next + 1 }
  let c ← if existed then eraseRef c key true else some c
  let c ← purge { c with
    table := c.table.insert key newref
    lru := c.lru ++ [newref]
    age := c.age ++ [newref]
    size := c.size + value.length } now
  some (c, existed)

/-- `vhttp_cache_delete`. -/
def delete : Option Cache := do
  let c ← purge c now
  if (c.table.lookup key).isSome then eraseRef c key false else some c

/-! ## What a caller does -/

/-- A call of the cache. -/
inductive Op
  | set (now : ℕ) (key value : Bytes)
  | fetch (now : ℕ) (key : Bytes)
  | release (id : ℕ)
  | delete (now : ℕ) (key : Bytes)
  | clear

/-- What a call returns. -/
inductive Reply
  | existed (b : Bool)
  | found (ref : Option ℕ)
  | done

/-- Run one call. -/
def call : Op → Option (Cache × Reply)
  | .set now key value => (set c now key value).map (fun p => (p.1, .existed p.2))
  | .fetch now key => (fetch c now key).map (fun p => (p.1, .found p.2))
  | .release id => (release c id).map (fun c => (c, .done))
  | .delete now key => (delete c now key).map (fun c => (c, .done))
  | .clear => (clear c).map (fun c => (c, .done))

/-- The time a call is made at, where it is told. -/
def Op.time? : Op → Option ℕ
  | .set now _ _ => some now
  | .fetch now _ => some now
  | .delete now _ => some now
  | .release _ => none
  | .clear => none

/-- The fetch is of an entry that is in the cache and whose time is not over, and it is
answered with a miss. -/
def freshMiss (op : Op) (reply : Reply) (id : ℕ) : Bool :=
  match op, reply with
  | .fetch now key, .found none =>
    c.table.lookup key = some id ∧ ∃ ref ∈ c.refs id, now ≤ ref.setAt + c.duration
  | _, _ => false

end Cache

end Vhttp
