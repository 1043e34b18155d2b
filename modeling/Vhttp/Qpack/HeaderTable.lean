import Vhttp.Hpack.HeaderTable

/-!
# The dynamic table of QPACK

`struct st_vhttp_qpack_header_table_t` of `lib/http3/qpack.c`, as the instructions of the encoder
stream change it. The entries in use are a window of an array: the oldest leave at its front and
new ones come behind it.

* `table_of_reach`: the table is a suffix of the headers inserted so far, the longest that was never
  too large, and no assertion fails.
* `table_regrown`: a header that has left does not come back when the table may be larger again.
-/

namespace Vhttp.Qpack

open Hpack (Entry)
open Nat Budget List Option

/-- Why an instruction is not carried out. An `assertion` is also a `NULL` that is followed. -/
inductive Failure where
  | headerExceedsTableSize
  | invalidDuplicate
  | invalidMaxSize
  | assertion

/-- The slots from `buf_start` to `buf_end`; those from `first` to `last` are in use. -/
structure HeaderTable where
  buf : List (Option Entry)
  first : ℕ
  last : ℕ
  baseOffset : ℕ
  numBytes : ℕ
  maxSize : ℕ

namespace HeaderTable

/-- `header_table_init`. -/
def new (maxSize : ℕ) : HeaderTable := ⟨[], 0, 0, 1, 0, maxSize⟩

variable (t : HeaderTable) (added : Entry)

/-- The slots in use. -/
def active : List (Option Entry) := (t.buf.drop t.first).take (t.last - t.first)

/-- The oldest entry leaves. -/
def pop (e : Entry) : HeaderTable :=
  { t with
    buf := t.buf.set t.first none
    first := t.first + 1
    baseOffset := t.baseOffset + 1
    numBytes := t.numBytes - e.size }

/-- The loop of `header_table_evict`, with the assertion after it; `n` entries are left. -/
def evictLoop (delta : ℕ) : ℕ → HeaderTable → Except Failure HeaderTable
  | 0, t => if t.numBytes = 0 then .ok t else .error .assertion
  | n + 1, t =>
    if t.numBytes + delta ≤ t.maxSize then .ok t
    else
      match t.buf[t.first]?.join with
      | none => .error .assertion
      | some e => evictLoop delta n (t.pop e)

/-- `header_table_evict`. -/
def evict (delta : ℕ) : Except Failure HeaderTable :=
  evictLoop delta (t.last - t.first) t

/-- The window moves to the beginning of `capacity` slots; the others are cleared. -/
def compact (capacity : ℕ) : HeaderTable :=
  { t with
    buf := t.active ++ replicate (capacity - (t.last - t.first)) none
    first := 0
    last := t.last - t.first }

/-- The part of `header_table_insert` that provides a slot behind the window. -/
def makeRoom : Except Failure HeaderTable :=
  let count := t.last - t.first
  let newCapacity := if count ≤ 2 then 4 else count * 2
  if t.last ≠ t.buf.length then .ok t
  else if t.buf.length < newCapacity then .ok (t.compact newCapacity)
  else if t.first = 0 then .error .assertion
  else .ok (t.compact t.buf.length)

/-- `*table->last++ = added`. -/
def push : HeaderTable :=
  { t with
    buf := t.buf.set t.last (some added)
    last := t.last + 1
    numBytes := t.numBytes + added.size }

/-- `header_table_insert`. -/
def insert : Except Failure HeaderTable := do
  let t ← t.evict added.size
  let t ← t.makeRoom
  return t.push added

/-- `resolve_dynamic_abs`. -/
def resolveDynamicAbs (index : ℤ) : Option Entry :=
  if index < t.baseOffset then none
  else
    let index := (index - t.baseOffset).toNat
    if t.last - t.first ≤ index then none else t.buf[t.first + index]?.join

/-- The entry that `duplicate` reads. -/
def fromLast (index : ℕ) : Option Entry := t.buf[t.last - index - 1]?.join

end HeaderTable

/-- The instructions of the encoder stream; a header to insert has its name and value decoded. -/
inductive Instruction where
  | insert (header : Entry)
  | duplicate (index : ℕ)
  | sizeUpdate (maxSize : ℕ)

/-- The end of `decode_value_and_insert`, `duplicate` and `dynamic_table_size_update`. -/
def handle (headerTableSize : ℕ) (t : HeaderTable) : Instruction → Except Failure HeaderTable
  | .insert header =>
    if t.maxSize < header.size then .error .headerExceedsTableSize else t.insert header
  | .duplicate index =>
    if t.last - t.first ≤ index then .error .invalidDuplicate
    else
      match t.fromLast index with
      | none => .error .assertion
      | some header => t.insert header
  | .sizeUpdate maxSize =>
    if headerTableSize < maxSize then .error .invalidMaxSize
    else { t with maxSize := maxSize }.evict 0

/-- The header that an instruction inserts. -/
def Instruction.added (t : HeaderTable) : Instruction → List Entry
  | .insert header => [header]
  | .duplicate index => (t.fromLast index).toList
  | .sizeUpdate _ => []

/-- The tables after accepted instructions, with all headers inserted so far. The first argument
has, for each state passed through, the headers inserted by then and its `max_size`. -/
inductive Reach (headerTableSize : ℕ) : List (List Entry × ℕ) → List Entry → HeaderTable → Prop
  | new : Reach headerTableSize [([], headerTableSize)] [] (.new headerTableSize)
  | step {past : List (List Entry × ℕ)} {all : List Entry} {t t' : HeaderTable} (i : Instruction) :
      Reach headerTableSize past all t → handle headerTableSize t i = .ok t' →
        Reach headerTableSize ((all ++ i.added t, t'.maxSize) :: past) (all ++ i.added t) t'

/-! ## The window -/

/-- The window holds the headers from the one of index `k` on. -/
structure Holds (t : HeaderTable) (all : List Entry) (k : ℕ) : Prop where
  slots : ∀ i, k + i < all.length → t.buf[t.first + i]? = some all[k + i]?
  last_eq : t.last = t.first + (all.length - k)
  last_le : t.last ≤ t.buf.length
  base : t.baseOffset = k + 1
  bytes : t.numBytes = weight Entry.size (all.drop k)
  le : k ≤ all.length

/-- A failed instruction is refused; after another, the headers from `k` on that fit are left. -/
def Sound (all : List Entry) (k : ℕ) : Except Failure HeaderTable → Prop
  | .ok t => ∃ k', Holds t all k' ∧
    ∀ j, k' ≤ j ↔ k ≤ j ∧ weight Entry.size (all.drop j) ≤ t.maxSize
  | .error failure => failure ≠ .assertion

variable {t : HeaderTable} {all : List Entry} {e : Entry} {delta k size : ℕ}
  {past : List (List Entry × ℕ)}

namespace Holds

variable (h : Holds t all k)
include h

lemma count : t.last - t.first = all.length - k := by
  rw [h.last_eq, Nat.add_sub_cancel_left]

lemma active : t.active = (all.drop k).map some := by
  refine ext_getElem? fun i => ?_
  rw [HeaderTable.active, h.count, getElem?_take, getElem?_drop, getElem?_map, getElem?_drop]
  split_ifs with hi
  · rw [h.slots i (by omega), getElem?_eq_getElem (by omega), map_some]
  · rw [getElem?_eq_none (by omega), map_none]

lemma pop (hk : k < all.length) : Holds (t.pop all[k]) all (k + 1) := by
  have hl := h.last_eq
  unfold HeaderTable.pop
  refine ⟨fun i hi => ?_, by dsimp only; omega, by simpa using h.last_le, by rw [h.base], ?_, hk⟩
  · rw [getElem?_set_ne (Nat.ne_of_lt (by dsimp only; omega)), Nat.add_assoc, Nat.add_assoc]
    exact h.slots (1 + i) (by omega)
  · rw [h.bytes, drop_eq_getElem_cons hk, weight_cons, Nat.add_sub_cancel_left]

/-- As many headers leave as have to. -/
lemma evict (hd : delta ≤ t.maxSize) :
    ∃ t' k', t.evict delta = .ok t' ∧ t'.maxSize = t.maxSize ∧ Holds t' all k' ∧
      ∀ j, k' ≤ j ↔ k ≤ j ∧ weight Entry.size (all.drop j) + delta ≤ t.maxSize := by
  rw [HeaderTable.evict, h.count]
  generalize hn : all.length - k = n
  induction n generalizing t k with
  | zero =>
    have hk := h.le
    have hi : ∀ j, k ≤ j → all.drop j = [] := fun j hj => drop_eq_nil_of_le (by omega)
    refine ⟨t, k, if_pos (by rw [h.bytes, hi k le_rfl, weight_nil]), rfl, h, fun j => ?_⟩
    exact ⟨fun hj => ⟨hj, by rwa [hi j hj, weight_nil, zero_add]⟩, And.left⟩
  | succ n ih =>
    have hk : k < all.length := by omega
    rw [HeaderTable.evictLoop, h.bytes]
    split_ifs with hf
    · refine ⟨t, k, rfl, rfl, h, fun j => ⟨fun hj => ⟨hj, ?_⟩, And.left⟩⟩
      have := weight_le_of_sublist (w := Entry.size) (drop_sublist_drop_left all hj)
      omega
    · have hg : t.buf[t.first]? = _ := h.slots 0 hk
      rw [add_zero, getElem?_eq_getElem hk] at hg
      obtain ⟨t', k', hp, hm, hh, hl⟩ := ih (h.pop hk) hd (by omega)
      simp only [hg, join_some]
      refine ⟨t', k', hp, hm, hh, fun j => (hl j).trans ?_⟩
      refine and_congr_left fun hj => ⟨le_of_succ_le, fun he => ?_⟩
      exact lt_of_le_of_ne he fun hq => hf (hq ▸ hj)

lemma compact {capacity : ℕ} (hl : all.length - k < capacity) : Holds (t.compact capacity) all k ∧
      (t.compact capacity).last < (t.compact capacity).buf.length := by
  rw [HeaderTable.compact, h.active, h.count]
  refine ⟨⟨fun i hi => ?_, (zero_add _).symm, ?_, h.base, h.bytes, h.le⟩, ?_⟩
  · rw [zero_add, getElem?_append_left (by simp; omega)]
    simp [hi]
  · simp
  · simp
    omega

lemma makeRoom : ∃ t', t.makeRoom = .ok t' ∧ t'.maxSize = t.maxSize ∧
    Holds t' all k ∧ t'.last < t'.buf.length := by
  have ha := h.last_eq
  have he := h.last_le
  simp only [HeaderTable.makeRoom, h.count]
  generalize hc : (if all.length - k ≤ 2 then 4 else (all.length - k) * 2) = newCapacity
  have hl : all.length - k < newCapacity := by split_ifs at hc <;> omega
  split_ifs with hr hg hf
  · exact ⟨t, rfl, rfl, h, by omega⟩
  · exact ⟨_, rfl, rfl, h.compact hl⟩
  · omega
  · exact ⟨_, rfl, rfl, h.compact (by omega)⟩

lemma push (hr : t.last < t.buf.length) : Holds (t.push e) (all ++ [e]) k := by
  have hl := h.last_eq
  have he := h.le
  have hlen : (all ++ [e]).length = all.length + 1 := length_append
  unfold HeaderTable.push
  refine ⟨fun i hi => ?_, by dsimp only; omega, by simpa using hr, h.base, ?_, by omega⟩
  · dsimp only
    by_cases ho : k + i < all.length
    · rw [getElem?_set_ne (by omega), h.slots i ho, getElem?_append_left ho]
    · have hn : k + i = all.length := by omega
      rw [show t.first + i = t.last by omega, hn, getElem?_set_self hr]
      simp
  · simp [drop_append_of_le_length h.le, h.bytes, weight_append]

lemma insert (hf : e.size ≤ t.maxSize) : Sound (all ++ [e]) k (t.insert e) := by
  obtain ⟨t1, k', he, hm1, hh1, hl⟩ := h.evict hf
  obtain ⟨t2, hr, hm2, hh2, ht⟩ := hh1.makeRoom
  simp only [HeaderTable.insert, he, bind, Except.bind, hr]
  refine ⟨k', hh2.push ht, fun j => (hl j).trans (and_congr_right fun _ => ?_)⟩
  change _ ↔ _ ≤ t2.maxSize
  rw [hm2, hm1]
  by_cases hj : j ≤ all.length
  · simp [drop_append_of_le_length hj, weight_append]
  · simpa [drop_eq_nil_of_le (show (all ++ [e]).length ≤ j by simp; omega),
      drop_eq_nil_of_le (Nat.le_of_not_le hj)] using hf

lemma handle (he : weight Entry.size (all.drop k) ≤ t.maxSize)
    (i : Instruction) : Sound (all ++ i.added t) k (handle size t i) := by
  cases i with
  | insert header =>
    simp only [Qpack.handle]
    split_ifs with hg
    · exact nofun
    · exact h.insert (Nat.le_of_not_lt hg)
  | duplicate index =>
    simp only [Qpack.handle, h.count, Instruction.added, HeaderTable.fromLast]
    split_ifs with hi
    · exact nofun
    · have ht : all.length - k - index - 1 < (all.drop k).length := by
        rw [length_drop]
        omega
      have hp : t.last - index - 1 = t.first + (all.length - k - index - 1) := by
        rw [h.last_eq]
        omega
      have ho := weight_le_of_sublist (w := Entry.size) (singleton_sublist.2 (getElem_mem ht))
      rw [hp, h.slots _ (by simp at ht; omega), ← getElem?_drop, getElem?_eq_getElem ht]
      exact h.insert (ho.trans he)
  | sizeUpdate maxSize =>
    simp only [Qpack.handle]
    split_ifs with hg
    · exact nofun
    · have hs : Holds { t with maxSize := maxSize } all k := { h with }
      obtain ⟨t', k', ht', hm, hh, hl⟩ := hs.evict (zero_le _)
      rw [ht', Instruction.added, append_nil]
      exact ⟨k', hh, hm ▸ hl⟩

lemma resolve (index : ℤ) : t.resolveDynamicAbs index =
    if (k : ℤ) < index then all[(index - 1).toNat]? else none := by
  simp only [HeaderTable.resolveDynamicAbs, h.count, h.base]
  split_ifs with hl hh hh
  · omega
  · rfl
  · rw [getElem?_eq_none (by omega)]
  · omega
  · rw [h.slots _ (by omega), join_some]
    congr 1
    omega
  · omega

end Holds

lemma Reach.holds (h : Reach size past all t) : ∃ k, Holds t all k ∧
    (∀ j, k ≤ j ↔ ∀ s ∈ past, weight Entry.size (s.1.drop j) ≤ s.2) ∧ (all, t.maxSize) ∈ past := by
  induction h with
  | new =>
    exact ⟨0, ⟨nofun, rfl, le_rfl, rfl, rfl, le_rfl⟩, fun j => by simp, mem_singleton_self _⟩
  | step i _ hstep ih =>
    obtain ⟨k, hk, ht, hn⟩ := ih
    obtain ⟨k', hh, hl⟩ := hstep ▸ hk.handle ((ht k).1 le_rfl _ hn) i
    refine ⟨k', hh, fun j => ?_, mem_cons_self⟩
    rw [hl, forall_mem_cons, ht j, and_comm]

/-- The table holds the longest suffix of the headers inserted so far that was, in every state, at
most as large as `max_size`. -/
theorem table_of_reach (h : Reach size past all t) : ∃ k, t.active = (all.drop k).map some ∧
      (∀ j, k ≤ j ↔ ∀ s ∈ past, weight Entry.size (s.1.drop j) ≤ s.2) ∧
      t.numBytes = weight Entry.size (all.drop k) ∧ (∀ index : ℤ, t.resolveDynamicAbs index =
        if (k : ℤ) < index then all[(index - 1).toNat]? else none) ∧
      ∀ i, handle size t i ≠ .error .assertion := by
  obtain ⟨k, hk, ht, hn⟩ := h.holds
  refine ⟨k, hk.active, ht, hk.bytes, hk.resolve, fun i he => ?_⟩
  exact (he ▸ hk.handle ((ht k).1 le_rfl _ hn) i : Sound _ _ (.error .assertion)) rfl

def shortHeader : Entry := ⟨.text [97], [98], .none⟩

/-- A table of 64 bytes that was given a header, was made empty and may be as large as before. -/
def regrown : HeaderTable := ⟨replicate 4 none, 1, 1, 2, 0, 64⟩

lemma regrown_reach : ∃ past, Reach 64 past [shortHeader] regrown :=
  ⟨_, ((Reach.new.step (.insert _) rfl).step (.sizeUpdate 0) rfl).step (.sizeUpdate 64) rfl⟩

/-- The table is not larger than what was inserted. -/
theorem table_of_reach_regrown : regrown.numBytes ≤ shortHeader.size := by
  obtain ⟨past, h⟩ := regrown_reach
  obtain ⟨k, _, _, hb, _⟩ := table_of_reach h
  exact hb ▸ weight_le_of_sublist (drop_sublist k _)

/-- A table that was made smaller and larger again stays empty, with room for the header. -/
theorem table_regrown : (∃ past, Reach 64 past [shortHeader] regrown) ∧
    regrown.active = [] ∧ weight Entry.size [shortHeader] ≤ regrown.maxSize :=
  ⟨regrown_reach, rfl, by decide⟩

end Vhttp.Qpack
