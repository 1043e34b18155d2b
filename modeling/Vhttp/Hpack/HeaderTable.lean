import Vhttp.Token
import Vhttp.Lib.Budget
import Vhttp.Lib.RingBuffer
import Vhttp.Hpack.Validate

/-!
# The header tables of HPACK

The static table, and the dynamic one: `vhttp_hpack_header_table_t` of `lib/http2/hpack.c`, a ring
buffer with the newest entry first. The oldest entries leave when the entries become too large
for the capacity.
-/

namespace Vhttp.Hpack

/-- `vhttp_hpack_static_table`. -/
def staticTable : List (Token × String) := [
  (.authority, ""), (.method, "GET"), (.method, "POST"), (.path, "/"), (.path, "/index.html"),
  (.scheme, "http"), (.scheme, "https"), (.status, "200"), (.status, "204"), (.status, "206"),
  (.status, "304"), (.status, "400"), (.status, "404"), (.status, "500"), (.acceptCharset, ""),
  (.acceptEncoding, "gzip, deflate"), (.acceptLanguage, ""), (.acceptRanges, ""), (.accept, ""),
  (.accessControlAllowOrigin, ""), (.age, ""), (.allow, ""), (.authorization, ""),
  (.cacheControl, ""), (.contentDisposition, ""), (.contentEncoding, ""), (.contentLanguage, ""),
  (.contentLength, ""), (.contentLocation, ""), (.contentRange, ""), (.contentType, ""),
  (.cookie, ""), (.date, ""), (.etag, ""), (.expect, ""), (.expires, ""), (.fromHeader, ""),
  (.host, ""), (.ifMatch, ""), (.ifModifiedSince, ""), (.ifNoneMatch, ""), (.ifRange, ""),
  (.ifUnmodifiedSince, ""), (.lastModified, ""), (.link, ""), (.location, ""), (.maxForwards, ""),
  (.proxyAuthenticate, ""), (.proxyAuthorization, ""), (.range, ""), (.referer, ""),
  (.refresh, ""), (.retryAfter, ""), (.server, ""), (.setCookie, ""),
  (.strictTransportSecurity, ""), (.transferEncoding, ""), (.userAgent, ""), (.vary, ""),
  (.via, ""), (.wwwAuthenticate, "")]

/-- `HEADER_TABLE_OFFSET`: the index of the first entry of the dynamic table. -/
def headerTableOffset : ℕ := 62

/-- `HEADER_TABLE_ENTRY_SIZE_OFFSET`. -/
def entrySizeOffset : ℕ := 32

/-- `struct st_vhttp_hpack_header_table_entry_t`. -/
structure Entry where
  name : HeaderName
  value : Bytes
  softErrors : SoftErrors

/-- What an entry counts for. -/
def Entry.size (e : Entry) : ℕ := e.name.bytes.length + e.value.length + entrySizeOffset

/-- `vhttp_hpack_header_table_t`; the size is that of the entries. -/
structure HeaderTable where
  entries : RingBuffer Entry
  hpackSize : ℕ
  hpackCapacity : ℕ
  hpackMaxCapacity : ℕ
  size_eq : hpackSize = Budget.weight Entry.size entries.toList

namespace HeaderTable

open Budget

variable (t : HeaderTable) (e : Entry)

/-- The entries, the newest first. -/
def toList (t : HeaderTable) : List Entry := t.entries.toList

/-- A new table. -/
def new (capacity maxCapacity : ℕ) : HeaderTable := ⟨.empty, 0, capacity, maxCapacity, rfl⟩

/-- `vhttp_hpack_header_table_get`. -/
def get? (t : HeaderTable) (i : ℕ) : Option Entry := t.entries.get? i

/-! ## Eviction -/

/-- The size without the oldest entry. -/
lemma weight_dropLast {l : List Entry} :
    weight Entry.size l - (l.getLast?.map Entry.size).getD 0 = weight Entry.size l.dropLast := by
  cases hl : l.getLast? with
  | none =>
    rw [List.getLast?_eq_none_iff] at hl
    subst hl
    rfl
  | some e =>
    have := weight_dropLast_add (w := Entry.size) l hl
    simp only [Option.map_some, Option.getD_some]
    omega

/-- `header_table_evict_one`. -/
def evictOne : HeaderTable where
  entries := t.entries.dropLast
  hpackSize := t.hpackSize - ((t.toList.getLast?).map Entry.size).getD 0
  hpackCapacity := t.hpackCapacity
  hpackMaxCapacity := t.hpackMaxCapacity
  size_eq := by
    rw [t.size_eq, RingBuffer.toList_dropLast]
    exact weight_dropLast

/-- Entries are evicted while there are any and the condition holds, at most `n` of them. -/
def evictWhile (cond : HeaderTable → Bool) : ℕ → HeaderTable → HeaderTable
  | 0, t => t
  | n + 1, t =>
    if t.entries.count ≠ 0 ∧ cond t = true then evictWhile cond n t.evictOne else t

/-- `while (num_entries != 0 && hpack_size + size_add > hpack_capacity)`. -/
def shrink (sizeAdd : ℕ) : HeaderTable :=
  evictWhile (fun t => decide (t.hpackSize + sizeAdd > t.hpackCapacity)) t.entries.count t

/-- `while (max_num_entries <= num_entries)`. -/
def limit (maxNumEntries : ℕ) : HeaderTable :=
  evictWhile (fun t => decide (maxNumEntries ≤ t.entries.count)) t.entries.count t

/-! ## New entries -/

/-- The entries in an array that has room for one more: a full array is copied to a larger
one. -/
def roomy (r : RingBuffer Entry) : RingBuffer Entry :=
  if r.count = r.slots.length then r.grow (max 16 (r.count * 2)) else r

lemma toList_roomy (r : RingBuffer Entry) : (roomy r).toList = r.toList := by
  unfold roomy
  split
  · exact r.toList_grow _
  · rfl

lemma roomy_lt (r : RingBuffer Entry) : (roomy r).count < (roomy r).slots.length := by
  have hl := r.count_le
  unfold roomy
  split
  · rw [RingBuffer.count_grow, RingBuffer.length_slots_grow]
    omega
  · omega

/-- An entry comes to the front. -/
def push : HeaderTable where
  entries := (roomy t.entries).pushFront e (roomy_lt t.entries)
  hpackSize := t.hpackSize + e.size
  hpackCapacity := t.hpackCapacity
  hpackMaxCapacity := t.hpackMaxCapacity
  size_eq := by
    rw [RingBuffer.toList_pushFront, toList_roomy, weight_cons, t.size_eq]
    exact Nat.add_comm _ _

/-- `header_table_add`, and the entry that is stored in the slot it returns. -/
def add (maxNumEntries : ℕ) : HeaderTable :=
  let t := (t.shrink e.size).limit maxNumEntries
  if t.entries.count = 0 ∧ e.size > t.hpackCapacity then t else t.push e

end HeaderTable

end Vhttp.Hpack
