import Vhttp.Cache.Basic

/-!
# The cache refines the bounded cache

`Rep` relates a cache with its table, its two lists and its heap to the entries it holds. The
references that callers hold are counted next to it, so that a reference is freed exactly when
nobody has it. Every call of the cache keeps the relation and answers as the bounded cache
does, as long as times and durations are within an `int64_t`: the time left is computed in one.

* `Rep.purge`: the two loops of `purge`.
* `Rep.set`, `Rep.fetch`, `Rep.delete`, `Rep.release`, `Rep.clear`: the calls.
-/

namespace Vhttp.Cache

open BoundedCache Function List Option Cache Nat

/-- The largest `int64_t`. -/
def int64Max : ℕ := 2 ^ 63 - 1

/-- What the cache was created with. -/
def config (c : Cache) : Config Bytes where
  weight := length
  capacity := c.capacity
  duration := c.duration
  margin := if c.earlyUpdate then 10 else 0

/-- The reference that holds an entry. -/
def refOf (e : Entry Bytes Bytes) (refcnt : ℕ) : CacheRef :=
  ⟨e.key, e.setAt, e.value, e.askedEarly, refcnt⟩

/-- The cache holds the entries `l`, callers hold `held id` times the reference `id`, and all
entries were stored by `clock`; `n` references have been allocated. -/
structure Rep (cfg : Config Bytes) (c : Cache) (held : ℕ → ℕ) (clock n : ℕ)
    (l : Entries Bytes Bytes) : Prop where
  config_eq : c.config = cfg
  ids : (l.map (·.id)).Nodup
  keys : (l.map (·.key)).Nodup
  lru : c.lru = (l.map (·.id)).reverse
  age : ∃ a : Entries Bytes Bytes,
    a.Perm l ∧ a.Pairwise (fun x y => x.setAt ≤ y.setAt) ∧ c.age = a.map (·.id)
  table : ∀ key id, c.table.lookup key = some id ↔ ∃ e ∈ l, e.key = key ∧ e.id = id
  live : ∀ e ∈ l, c.refs e.id = some (refOf e (held e.id + 1))
  dead : ∀ id, (∀ e ∈ l, e.id ≠ id) →
    (c.refs id = none ∧ held id = 0) ∨ ∃ ref, c.refs id = some ref ∧ ref.refcnt = held id ∧
      0 < held id
  size : c.size = weight cfg l
  next_eq : c.next = n
  next : ∀ id, c.next ≤ id → c.refs id = none
  clock : ∀ e ∈ l, e.setAt ≤ clock

/-! ## Lists of pointers -/

variable {e x : Entry Bytes Bytes} {f : Entry Bytes Bytes → β} {fuel id now : ℕ} {key : Bytes}
  {ref : CacheRef} {β : Type}

lemma eq_of_id_eq {l : Entries Bytes Bytes} (hn : (l.map (·.id)).Nodup)
    (hx : x ∈ l) (he : e ∈ l) (h : x.id = e.id) : x = e :=
  inj_on_of_nodup_map hn hx he h

lemma eq_of_key_eq {l : Entries Bytes Bytes} (hn : (l.map (·.key)).Nodup)
    (hx : x ∈ l) (he : e ∈ l) (h : x.key = e.key) : x = e :=
  inj_on_of_nodup_map hn hx he h

/-- Unlinking a pointer removes the entry. -/
lemma erase_ids {l : Entries Bytes Bytes}
    (hi : (l.map (·.id)).Nodup) (hk : (l.map (·.key)).Nodup) (he : e ∈ l) :
    (l.map (·.id)).erase e.id = (without e.key l).map (·.id) := by
  have hs : l.filter (fun x => x.id ≠ e.id) = without e.key l := by
    refine filter_congr (fun x hx => ?_)
    have hf : x.id = e.id ↔ x.key = e.key :=
      ⟨fun h => by rw [eq_of_id_eq hi hx he h], fun h => by rw [eq_of_key_eq hk hx he h]⟩
    simp [hf]
  rw [hi.erase_eq_filter, List.filter_map, ← hs]
  congr 1
  refine filter_congr (fun x _ => ?_)
  rw [comp_apply, bne, Bool.beq_eq_decide_eq, decide_not]

lemma erase_ids_reverse {l : Entries Bytes Bytes}
    (hi : (l.map (·.id)).Nodup) (hk : (l.map (·.key)).Nodup) (he : e ∈ l) :
    (l.map (·.id)).reverse.erase e.id = ((without e.key l).map (·.id)).reverse := by
  rw [← erase_ids hi hk he, hi.erase_eq_filter, ← filter_reverse,
    (nodup_reverse.2 hi).erase_eq_filter]

lemma without_nodup {l : Entries Bytes Bytes}
    (key : Bytes) (hn : (l.map f).Nodup) : ((without key l).map f).Nodup :=
  hn.sublist (filter_sublist.map f)

/-! ## Erasing a reference -/

variable {cfg : Config Bytes} {c : Cache} {held : ℕ → ℕ} {clock n : ℕ} {l : Entries Bytes Bytes}

variable (h : Rep cfg c held clock n l)
include h

lemma Rep.weight_eq : cfg.weight = length := by
  rw [← h.config_eq]
  rfl

/-- Pointers of entries have been allocated. -/
lemma Rep.ne_of_next_le (he : e ∈ l) (hi : c.next ≤ id) : id ≠ e.id := by
  rintro rfl
  have hf := h.next e.id hi
  rw [h.live e he] at hf
  cases hf

lemma Rep.lookup (he : e ∈ l) : c.table.lookup e.key = some e.id :=
  (h.table _ _).2 ⟨e, he, rfl, rfl⟩

omit h

/-- One holder less; the last one frees the reference. -/
def oneLess (ref : CacheRef) : Option CacheRef :=
  if ref.refcnt = 1 then none else some { ref with refcnt := ref.refcnt - 1 }

/-- Giving a reference back that is in neither list. -/
lemma release_unlinked (hl : id ∉ c.lru) (ha : id ∉ c.age) (hr : c.refs id = some ref) :
    ∃ d, c.release id =
      some { c with refs := update c.refs id (oneLess ref), destroyed := d } := by
  unfold release oneLess
  by_cases h1 : ref.refcnt = 1
  · refine ⟨if c.destroyCb then ref.value :: c.destroyed else c.destroyed, ?_⟩
    simp [hr, h1, hl, ha]
  · refine ⟨c.destroyed, ?_⟩
    simp [hr, h1]

/-- A reference that has left the lists belongs to the callers that hold it. -/
lemma oneLess_refOf (e : Entry Bytes Bytes) (n : ℕ) : (oneLess (refOf e (n + 1)) = none ∧ n = 0) ∨
      ∃ ref, oneLess (refOf e (n + 1)) = some ref ∧ ref.refcnt = n ∧ 0 < n := by
  cases n with
  | zero => exact Or.inl ⟨rfl, rfl⟩
  | succ n => exact Or.inr ⟨refOf e (n + 1), rfl, rfl, succ_pos n⟩

/-- The cache without the reference of `e`. -/
def forget (c : Cache) (e : Entry Bytes Bytes) (n : ℕ) (table : AList (fun _ : Bytes => ℕ))
    (d : List Bytes) : Cache :=
  { c with
    table := table
    lru := c.lru.erase e.id
    age := c.age.erase e.id
    size := c.size - e.value.length
    refs := update c.refs e.id (oneLess (refOf e (n + 1)))
    destroyed := d }

lemma eraseRef_eq {n : ℕ} (ho : c.table.lookup e.key = some e.id)
    (hr : c.refs e.id = some (refOf e (n + 1))) (hl : c.lru.Nodup) (ha : c.age.Nodup)
    (reuse : Bool) : ∃ d, c.eraseRef e.key reuse =
      some (forget c e n (if reuse then c.table else c.table.erase e.key) d) := by
  simp only [eraseRef, ho, hr, bind_eq_bind, bind_some]
  exact release_unlinked hl.not_mem_erase ha.not_mem_erase hr

include h

lemma Rep.lru_nodup : c.lru.Nodup := by
  rw [h.lru]
  exact nodup_reverse.2 h.ids

lemma Rep.age_nodup : c.age.Nodup := by
  obtain ⟨a, hp, -, ha⟩ := h.age
  rw [ha]
  exact (hp.map _).nodup_iff.2 h.ids

lemma Rep.forget (he : e ∈ l) (d : List Bytes) :
    Rep cfg (forget c e (held e.id) (c.table.erase e.key) d) held clock n (without e.key l) := by
  obtain ⟨a, hp, hs, ha⟩ := h.age
  have hne : ∀ x ∈ without e.key l, x.id ≠ e.id := fun x hx hi =>
    (mem_without.1 hx).2 (by rw [eq_of_id_eq h.ids (mem_without.1 hx).1 he hi])
  constructor
  case config_eq => exact h.config_eq
  case ids => exact without_nodup _ h.ids
  case keys => exact without_nodup _ h.keys
  case lru =>
    simp only [Cache.forget]
    rw [h.lru, erase_ids_reverse h.ids h.keys he]
  case age =>
    refine ⟨without e.key a, hp.filter _, hs.filter _, ?_⟩
    simp only [Cache.forget]
    rw [ha, erase_ids ((hp.map _).nodup_iff.2 h.ids) ((hp.map _).nodup_iff.2 h.keys)
      (hp.mem_iff.2 he)]
  case table =>
    intro key id
    simp only [Cache.forget, mem_without]
    by_cases hk : key = e.key
    · subst hk
      simp only [AList.lookup_erase, reduceCtorEq, false_iff]
      rintro ⟨x, hx, hxk, -⟩
      exact hx.2 hxk
    · rw [AList.lookup_erase_ne hk, h.table]
      constructor
      · rintro ⟨x, hx, rfl, rfl⟩
        exact ⟨x, ⟨hx, hk⟩, rfl, rfl⟩
      · rintro ⟨x, ⟨hx, -⟩, rfl, rfl⟩
        exact ⟨x, hx, rfl, rfl⟩
  case live =>
    intro x hx
    simp only [Cache.forget, update_of_ne (hne x hx)]
    exact h.live x (mem_without.1 hx).1
  case dead =>
    intro id hi
    by_cases hie : id = e.id
    · subst hie
      simpa [Cache.forget] using oneLess_refOf e (held e.id)
    · simp only [Cache.forget, update_of_ne hie]
      refine h.dead id (fun x hx hxi => ?_)
      by_cases hxk : x.key = e.key
      · exact hie (by rw [← hxi, eq_of_key_eq h.keys hx he hxk])
      · exact hi x (mem_without.2 ⟨hx, hxk⟩) hxi
  case size =>
    rw [weight_without cfg h.keys he, ← h.size, h.weight_eq]
    rfl
  case next_eq => exact h.next_eq
  case next =>
    intro id hi
    simp only [Cache.forget, update_of_ne (h.ne_of_next_le he hi)]
    exact h.next id hi
  case clock => exact fun x hx => h.clock x (mem_without.1 hx).1

/-- Erasing an entry's reference removes the entry. -/
lemma Rep.eraseRef (he : e ∈ l) :
    ∃ c', c.eraseRef e.key false = some c' ∧ Rep cfg c' held clock n (without e.key l) := by
  obtain ⟨d, hd⟩ := eraseRef_eq (h.lookup he) (h.live e he) h.lru_nodup h.age_nodup false
  exact ⟨_, hd, h.forget he d⟩

/-! ## The loops -/

lemma Rep.last : c.lru.head? = l.getLast?.map (·.id) := by
  rw [h.lru, head?_reverse, getLast?_map]

lemma Rep.purgeBySize (hf : l.length ≤ fuel) : ∃ c', purgeBySize fuel c = some c' ∧
      Rep cfg c' held clock n (Budget.fitting (entryWeight cfg) cfg.capacity l) := by
  induction fuel generalizing c l with
  | zero =>
    obtain rfl : l = [] := by simpa using hf
    have hle : ¬ c.capacity < c.size := by simp [h.size, weight]
    exact ⟨c, by simp [purgeBySize, hle], h⟩
  | succ fuel ih =>
    have hc : c.capacity = cfg.capacity := by rw [← h.config_eq]; rfl
    by_cases hl : c.capacity < c.size
    · have hw : cfg.capacity < Budget.weight (entryWeight cfg) l := by
        rw [hc, h.size] at hl
        exact hl
      cases ha : l.getLast? with
      | none =>
        rw [getLast?_eq_none_iff.1 ha] at hw
        simp at hw
      | some e =>
        have he : e ∈ l := mem_of_getLast? ha
        obtain ⟨c', hc', hr⟩ := h.eraseRef he
        rw [without_getLast h.keys ha] at hr
        have hlen : l.dropLast.length ≤ fuel := by
          rw [length_dropLast]
          omega
        obtain ⟨c'', hc'', hr'⟩ := ih hr hlen
        rw [Budget.fitting_dropLast hw] at hr'
        refine ⟨c'', ?_, hr'⟩
        rw [purgeBySize, if_pos hl, h.last, ha]
        simp only [map_some, bind_eq_bind, bind_some, h.live e he, refOf]
        rw [hc', bind_some, hc'']
    · have hw : Budget.weight (entryWeight cfg) l ≤ cfg.capacity := by
        rw [hc, h.size] at hl
        exact not_lt.1 hl
      rw [Budget.fitting_of_le hw]
      exact ⟨c, by rw [purgeBySize, if_neg hl], h⟩

omit h

/-- For times and durations that an `int64_t` can hold, the time left is the one meant. -/
lemma getTimeleft_eq (ha : ref.setAt ≤ now) (hn : now ≤ int64Max)
    (hd : c.duration ≤ int64Max) : c.getTimeleft ref now = ref.setAt + c.duration - now := by
  unfold int64Max at hn hd
  rw [getTimeleft, toInt64, Int.bmod_eq_of_le] <;> omega

lemma Rep.timeleft (h : Rep cfg c held clock n l) (hc : clock ≤ now)
    (hn : now ≤ int64Max) (hu : cfg.duration ≤ int64Max) (he : e ∈ l) (n : ℕ) :
    c.getTimeleft (refOf e n) now = e.setAt + cfg.duration - now := by
  have hd : c.duration = cfg.duration := by rw [← h.config_eq]; rfl
  rw [← hd] at hu ⊢
  exact getTimeleft_eq ((h.clock e he).trans hc) hn hu

include h

/-- The entries that are not expired. The list by age is sorted, so that those behind a fresh
one are fresh too. -/
lemma Rep.purgeByTtl (hc : clock ≤ now)
    (hn : now ≤ int64Max) (hd : cfg.duration ≤ int64Max) (hf : l.length ≤ fuel) :
    ∃ c', purgeByTtl now fuel c = some c' ∧ Rep cfg c' held clock n (l.filter (fresh cfg now)) := by
  induction fuel generalizing c l with
  | zero =>
    obtain rfl : l = [] := by simpa using hf
    obtain ⟨a, hp, -, ha⟩ := h.age
    have hi : c.age = [] := by rw [ha, hp.eq_nil]; rfl
    exact ⟨c, by simp [purgeByTtl, hi], h⟩
  | succ fuel ih =>
    obtain ⟨a, hp, hs, ha⟩ := h.age
    cases a with
    | nil =>
      obtain rfl := hp.symm.eq_nil
      exact ⟨c, by simp [purgeByTtl, ha], h⟩
    | cons e a =>
      have he : e ∈ l := hp.mem_iff.1 mem_cons_self
      have hlf := h.timeleft hc hn hd he (held e.id + 1)
      rw [purgeByTtl, ha]
      simp only [map_cons, head?_cons, h.live e he, bind_eq_bind, bind_some, hlf]
      by_cases hfr : now ≤ e.setAt + cfg.duration
      · rw [if_pos (by omega)]
        have hl : l.filter (fresh cfg now) = l := by
          refine filter_eq_self.2 (fun x hx => ?_)
          have hle : e.setAt ≤ x.setAt := by
            rcases mem_cons.1 (hp.mem_iff.2 hx) with rfl | hxa
            · exact le_refl _
            · exact (pairwise_cons.1 hs).1 x hxa
          simp only [fresh, decide_eq_true_eq]
          omega
        exact ⟨c, rfl, hl.symm ▸ h⟩
      · rw [if_neg (by omega)]
        obtain ⟨c', hc', hr⟩ := h.eraseRef he
        have hlen : (without e.key l).length ≤ fuel := by
          have := (cons_without_perm h.keys he).length_eq
          rw [length_cons] at this
          omega
        obtain ⟨c'', hc'', hr'⟩ := ih hr hlen
        refine ⟨c'', ?_, ?_⟩
        · simp only [refOf, hc', bind_some, hc'']
        · have hm : (without e.key l).filter (fresh cfg now) = l.filter (fresh cfg now) := by
            rw [without, List.filter_filter]
            refine filter_congr (fun x hx => ?_)
            by_cases hk : x.key = e.key
            · obtain rfl := eq_of_key_eq h.keys hx he hk
              simp [fresh, hfr]
            · simp [hk]
          rwa [hm] at hr'

lemma Rep.age_length : c.age.length = l.length := by
  obtain ⟨a, hp, -, ha⟩ := h.age
  rw [ha, length_map, hp.length_eq]

/-- `purge` does what the bounded cache does. -/
theorem Rep.purge (hc : clock ≤ now) (hn : now ≤ int64Max) (hd : cfg.duration ≤ int64Max) :
    ∃ c', c.purge now = some c' ∧ Rep cfg c' held clock n (BoundedCache.purge cfg now l) := by
  have hlen : l.length ≤ c.lru.length := by rw [h.lru]; simp
  obtain ⟨c1, hc1, h1⟩ := h.purgeBySize hlen
  obtain ⟨c2, hc2, h2⟩ := h1.purgeByTtl hc hn hd (le_of_eq h1.age_length.symm)
  exact ⟨c2, by simp [Cache.purge, hc1, hc2], h2⟩

lemma Rep.clearAll (hf : l.length ≤ fuel) :
    ∃ c', clearAll fuel c = some c' ∧ Rep cfg c' held clock n [] := by
  induction fuel generalizing c l with
  | zero =>
    obtain rfl : l = [] := by simpa using hf
    exact ⟨c, by simp [clearAll, h.lru], h⟩
  | succ fuel ih =>
    rw [clearAll, h.last]
    cases hl : l.getLast? with
    | none =>
      obtain rfl := getLast?_eq_none_iff.1 hl
      exact ⟨c, rfl, h⟩
    | some e =>
      have he : e ∈ l := mem_of_getLast? hl
      obtain ⟨c', hc', hr⟩ := h.eraseRef he
      rw [without_getLast h.keys hl] at hr
      obtain ⟨c'', hc'', hr'⟩ := ih hr (by rw [length_dropLast]; omega)
      refine ⟨c'', ?_, hr'⟩
      simp only [map_some, h.live e he, bind_eq_bind, bind_some, refOf, hc', hc'']

/-! ## The calls -/

/-- `vhttp_cache_clear` leaves no entry. -/
theorem Rep.clear : ∃ c', c.clear = some c' ∧ Rep cfg c' held clock n [] := by
  have hlen : l.length ≤ c.lru.length := by rw [h.lru]; simp
  obtain ⟨c', hc', hr⟩ := h.clearAll hlen
  refine ⟨c', ?_, hr⟩
  have hke : c'.table.keys = [] := by
    refine eq_nil_iff_forall_not_mem.2 (fun key hk => ?_)
    obtain ⟨id, hi⟩ := isSome_iff_exists.1 (AList.lookup_isSome.2 hk)
    obtain ⟨e, he, -⟩ := (hr.table key id).1 hi
    cases he
  have hs : c'.size = 0 := hr.size
  simp [Cache.clear, hc', hke, hs]

/-- `vhttp_cache_delete` removes the key. -/
theorem Rep.delete (hc : clock ≤ now)
    (hn : now ≤ int64Max) (hd : cfg.duration ≤ int64Max) (key : Bytes) :
    ∃ c', c.delete now key = some c' ∧ Rep cfg c' held clock n (remove cfg now key l) := by
  obtain ⟨c1, hc1, h1⟩ := h.purge hc hn hd
  rw [remove]
  cases hl : c1.table.lookup key with
  | none =>
    refine ⟨c1, by simp [Cache.delete, hc1, hl], ?_⟩
    rw [without_eq_self]
    · exact h1
    · rintro e he rfl
      rw [h1.lookup he] at hl
      cases hl
  | some id =>
    obtain ⟨e, he, rfl, rfl⟩ := (h1.table key id).1 hl
    obtain ⟨c2, hc2, h2⟩ := h1.eraseRef he
    exact ⟨c2, by simp [Cache.delete, hc1, hl, hc2], h2⟩

lemma Rep.clock_le (hl : clock ≤ now) : Rep cfg c held now n l :=
  { h with clock := fun e he => (h.clock e he).trans hl }

lemma Rep.held_next : held c.next = 0 := by
  rcases h.dead c.next (fun e he => (h.ne_of_next_le he (le_refl _)).symm) with ⟨-, h0⟩
    | ⟨ref, hr, -⟩
  · exact h0
  · rw [h.next c.next (le_refl _)] at hr
    cases hr

omit h

/-- The cache with a new reference linked in. -/
def link (c : Cache) (now : ℕ) (key value : Bytes) (table : AList (fun _ : Bytes => ℕ)) : Cache :=
  { c with
    table := table
    lru := c.lru ++ [c.next]
    age := c.age ++ [c.next]
    size := c.size + value.length
    refs := update c.refs c.next (some ⟨key, now, value, false, 1⟩)
    next := c.next + 1 }

lemma Rep.link (h : Rep cfg c held clock n l) (hc : clock ≤ now)
    (value : Bytes) (hky : ∀ e ∈ l, e.key ≠ key) {table : AList (fun _ : Bytes => ℕ)}
    (ht : ∀ k, table.lookup k = if k = key then some c.next else c.table.lookup k) :
    Rep cfg (link c now key value table) held now (n + 1)
      (⟨c.next, key, value, now, false⟩ :: l) := by
  constructor
  case config_eq => exact h.config_eq
  case ids =>
    rw [map_cons, nodup_cons]
    refine ⟨?_, h.ids⟩
    rintro hmem
    obtain ⟨e, he, hi⟩ := List.mem_map.1 hmem
    exact h.ne_of_next_le he (le_refl _) hi.symm
  case keys =>
    rw [map_cons, nodup_cons]
    refine ⟨?_, h.keys⟩
    rintro hmem
    obtain ⟨e, he, hk⟩ := List.mem_map.1 hmem
    exact hky e he hk
  case lru => simp [Cache.link, h.lru]
  case age =>
    obtain ⟨a, hp, hs, ha⟩ := h.age
    refine ⟨a ++ [⟨c.next, key, value, now, false⟩], ?_, ?_, by simp [Cache.link, ha]⟩
    · exact (perm_append_singleton _ _).trans (hp.cons _)
    · rw [pairwise_append]
      refine ⟨hs, pairwise_singleton _ _, ?_⟩
      intro x hx y hy
      rw [mem_singleton.1 hy]
      exact (h.clock x (hp.mem_iff.1 hx)).trans hc
  case table =>
    intro k id
    simp only [Cache.link, ht]
    by_cases hk : k = key
    · subst hk
      simp only [if_true, some.injEq, mem_cons]
      constructor
      · rintro rfl
        exact ⟨_, Or.inl rfl, rfl, rfl⟩
      · rintro ⟨e, rfl | he, hke, hi⟩
        · exact hi
        · exact absurd hke (hky e he)
    · rw [if_neg hk, h.table]
      constructor
      · rintro ⟨e, he, hke, hi⟩
        exact ⟨e, mem_cons_of_mem _ he, hke, hi⟩
      · rintro ⟨e, he, hke, hi⟩
        rcases mem_cons.1 he with rfl | he
        · exact absurd hke.symm hk
        · exact ⟨e, he, hke, hi⟩
  case live =>
    intro e he
    rcases mem_cons.1 he with rfl | he
    · simp [Cache.link, refOf, h.held_next]
    · simp only [Cache.link, update_of_ne (h.ne_of_next_le he (le_refl _)).symm]
      exact h.live e he
  case dead =>
    intro id hi
    have hne : id ≠ c.next := fun hq => hi _ mem_cons_self hq.symm
    simp only [Cache.link, update_of_ne hne]
    exact h.dead id (fun e he => hi e (mem_cons_of_mem _ he))
  case size =>
    simp only [Cache.link, weight, Budget.weight_cons, entryWeight, h.weight_eq, h.size]
    omega
  case next_eq => exact congrArg (· + 1) h.next_eq
  case next =>
    intro id hi
    simp only [Cache.link] at hi
    simp only [Cache.link, update_of_ne (show id ≠ c.next by omega)]
    exact h.next id (by omega)
  case clock =>
    intro e he
    rcases mem_cons.1 he with rfl | he
    · exact le_refl _
    · exact (h.clock e he).trans hc

lemma lookup_insert (table : AList (fun _ : Bytes => ℕ)) (key : Bytes) (id : ℕ) (k : Bytes) :
    (table.insert key id).lookup k = if k = key then some id else table.lookup k := by
  by_cases hk : k = key
  · subst hk
    simp
  · rw [AList.lookup_insert_ne hk, if_neg hk]

include h

lemma Rep.any_key (key : Bytes) : l.any (fun e => e.key = key) = (c.table.lookup key).isSome := by
  rw [Bool.eq_iff_iff, List.any_eq_true, isSome_iff_exists]
  constructor
  · rintro ⟨e, he, hk⟩
    exact ⟨e.id, (h.table _ _).2 ⟨e, he, by simpa using hk, rfl⟩⟩
  · rintro ⟨id, hi⟩
    obtain ⟨e, he, hk, -⟩ := (h.table _ _).1 hi
    exact ⟨e, he, by simpa using hk⟩

/-- `vhttp_cache_set` stores the value, and tells whether there was one. -/
theorem Rep.set (hc : clock ≤ now)
    (hn : now ≤ int64Max) (hu : cfg.duration ≤ int64Max) (key value : Bytes) :
    ∃ c', c.set now key value = some (c', (store cfg now n key value l).2) ∧
      Rep cfg c' held now (n + 1) (store cfg now n key value l).1 := by
  obtain rfl := h.next_eq
  simp only [store, h.any_key]
  cases hl : c.table.lookup key with
  | none =>
    have hy : ∀ e ∈ l, e.key ≠ key := by
      rintro e he rfl
      rw [h.lookup he] at hl
      cases hl
    have hlk := h.link hc value hy (lookup_insert c.table key c.next)
    rw [without_eq_self hy]
    obtain ⟨c', hc', hr⟩ := hlk.purge (le_refl _) hn hu
    refine ⟨c', ?_, hr⟩
    simp only [set, hl, isSome_none, Bool.false_eq_true, if_false, bind_eq_bind, bind_some]
    rw [Cache.link] at hc'
    rw [hc', bind_some]
  | some id =>
    obtain ⟨e, he, rfl, rfl⟩ := (h.table key id).1 hl
    have hne : e.id ≠ c.next := (h.ne_of_next_le he (le_refl _)).symm
    obtain ⟨d, hd⟩ := eraseRef_eq (c := { c with
        refs := update c.refs c.next (some ⟨e.key, now, value, false, 1⟩)
        next := c.next + 1 }) hl (by simpa [hne] using h.live e he) h.lru_nodup h.age_nodup true
    have ht : ∀ k, (c.table.insert e.key c.next).lookup k =
        if k = e.key then some c.next else (c.table.erase e.key).lookup k := by
      intro k
      rw [lookup_insert]
      split
      · rfl
      · next hk => rw [AList.lookup_erase_ne hk]
    have hlk := (h.forget he d).link hc value (fun x hx => (mem_without.1 hx).2) ht
    obtain ⟨c', hc', hr⟩ := hlk.purge (le_refl _) hn hu
    refine ⟨c', ?_, hr⟩
    simp only [set, hl, isSome_some, if_true, bind_eq_bind, hd, bind_some]
    simp only [Cache.link, Cache.forget, update_comm hne] at hc' ⊢
    rw [hc', bind_some]

/-- The reference of an entry or of a caller is changed in its count only. -/
theorem Rep.release (hh : 0 < held id) : ∃ c', c.release id = some c' ∧
      Rep cfg c' (update held id (held id - 1)) clock n l := by
  by_cases hn : ∃ e ∈ l, e.id = id
  · obtain ⟨e, he, rfl⟩ := hn
    have hr := h.live e he
    refine ⟨_, by simp [release, hr, refOf, ne_of_gt hh]; rfl, ?_⟩
    refine { h with live := fun x hx => ?_, dead := fun id hid => ?_, next := fun id hid => ?_ }
    · by_cases hxe : x.id = e.id
      · obtain rfl := eq_of_id_eq h.ids hx he hxe
        simp only [update_self, refOf, some.injEq, CacheRef.mk.injEq, true_and]
        omega
      · simpa [hxe] using h.live x hx
    · have hne : id ≠ e.id := fun hq => hid e he hq.symm
      simpa [hne] using h.dead id hid
    · simpa [h.ne_of_next_le he hid] using h.next id hid
  · have ho : ∀ e ∈ l, e.id ≠ id := fun e he hid => hn ⟨e, he, hid⟩
    obtain ⟨ref, hr, hc, -⟩ : ∃ ref, c.refs id = some ref ∧ ref.refcnt = held id ∧ 0 < held id := by
      rcases h.dead id ho with ⟨-, h0⟩ | hs
      · omega
      · exact hs
    have hl : id ∉ c.lru := by
      rw [h.lru, mem_reverse, List.mem_map]
      rintro ⟨e, he, hid⟩
      exact ho e he hid
    have ha : id ∉ c.age := by
      obtain ⟨a, hp, -, ha⟩ := h.age
      rw [ha, List.mem_map]
      rintro ⟨e, he, hid⟩
      exact ho e (hp.mem_iff.1 he) hid
    obtain ⟨d, hd⟩ := release_unlinked hl ha hr
    refine ⟨_, hd, ?_⟩
    refine { h with live := fun x hx => ?_, dead := fun i hi => ?_, next := fun i hi => ?_ }
    · simpa [ho x hx] using h.live x hx
    · by_cases hie : i = id
      · subst hie
        simp only [update_self, oneLess]
        by_cases h1 : ref.refcnt = 1
        · exact Or.inl ⟨if_pos h1, by omega⟩
        · exact Or.inr ⟨_, if_neg h1, by simp only; omega, by omega⟩
      · simpa [hie] using h.dead i hi
    · have hie : i ≠ id := by
        rintro rfl
        rw [h.next i hi] at hr
        cases hr
      simpa [hie] using h.next i hi

omit h

lemma mem_markEarly (hx : x ∈ markEarly key l) :
    ∃ y ∈ l, x = if y.key = key then { y with askedEarly := true } else y := by
  obtain ⟨y, hy, rfl⟩ := List.mem_map.1 hx
  exact ⟨y, hy, rfl⟩

lemma map_markEarly (key : Bytes)
    (hf : ∀ e : Entry Bytes Bytes, f { e with askedEarly := true } = f e)
    (l : Entries Bytes Bytes) : (markEarly key l).map f = l.map f := by
  rw [markEarly, List.map_map]
  refine map_congr_left (fun e _ => ?_)
  rw [comp_apply]
  split
  · exact hf e
  · rfl

include h

/-- An entry has been reported missing ahead of its end. -/
lemma Rep.markEarly (he : e ∈ l) :
    Rep cfg { c with
        refs := update c.refs e.id
          (some { refOf e (held e.id + 1) with requestedEarlyUpdate := true }) } held clock n
      (BoundedCache.markEarly e.key l) := by
  have hd : ∀ x ∈ l, x.key = e.key ↔ x.id = e.id := fun x hx =>
    ⟨fun hk => by rw [eq_of_key_eq h.keys hx he hk], fun hk => by rw [eq_of_id_eq h.ids hx he hk]⟩
  constructor
  case config_eq => exact h.config_eq
  case ids => rw [map_markEarly _ (fun _ => rfl)]; exact h.ids
  case keys => rw [map_markEarly _ (fun _ => rfl)]; exact h.keys
  case lru => rw [map_markEarly _ (fun _ => rfl)]; exact h.lru
  case age =>
    obtain ⟨a, hp, hs, ha⟩ := h.age
    refine ⟨BoundedCache.markEarly e.key a, hp.map _, ?_, ?_⟩
    · have hm := pairwise_map.2 hs
      rw [← map_markEarly (f := (·.setAt)) e.key (fun _ => rfl)] at hm
      exact pairwise_map.1 hm
    · rw [map_markEarly _ (fun _ => rfl)]
      exact ha
  case table =>
    intro key id
    rw [h.table]
    constructor
    · rintro ⟨x, hx, rfl, rfl⟩
      refine ⟨_, mem_map_of_mem hx, ?_, ?_⟩ <;> split <;> rfl
    · rintro ⟨x, hx, hk, hi⟩
      obtain ⟨y, hy, rfl⟩ := mem_markEarly hx
      refine ⟨y, hy, ?_, ?_⟩
      · rw [← hk]; split <;> rfl
      · rw [← hi]; split <;> rfl
  case live =>
    intro x hx
    obtain ⟨y, hy, rfl⟩ := mem_markEarly hx
    by_cases hk : y.key = e.key
    · obtain rfl := eq_of_key_eq h.keys hy he hk
      simp [refOf]
    · have hne : y.id ≠ e.id := fun hi => hk ((hd y hy).2 hi)
      simpa [hk, hne] using h.live y hy
  case dead =>
    intro id hne
    have ho : ∀ x ∈ l, x.id ≠ id := by
      intro x hx hxi
      refine hne _ (mem_map_of_mem hx) ?_
      rw [← hxi]
      split <;> rfl
    simpa [(ho e he).symm] using h.dead id ho
  case size => rw [weight_markEarly]; exact h.size
  case next_eq => exact h.next_eq
  case next =>
    intro id hg
    simpa [h.ne_of_next_le he hg] using h.next id hg
  case clock =>
    intro x hx
    obtain ⟨y, hy, rfl⟩ := mem_markEarly hx
    have hl := h.clock y hy
    split <;> exact hl

/-- An entry has been handed to one more caller. -/
lemma Rep.use (he : e ∈ l) :
    Rep cfg { c with
        lru := c.lru.erase e.id ++ [e.id]
        refs := update c.refs e.id
          (some { refOf e (held e.id + 1) with refcnt := held e.id + 1 + 1 }) }
      (update held e.id (held e.id + 1)) clock n (e :: without e.key l) := by
  have hp := cons_without_perm h.keys he
  constructor
  case config_eq => exact h.config_eq
  case ids => exact (hp.map _).nodup_iff.2 h.ids
  case keys => exact (hp.map _).nodup_iff.2 h.keys
  case lru =>
    simp only [map_cons, reverse_cons]
    rw [h.lru, erase_ids_reverse h.ids h.keys he]
  case age =>
    obtain ⟨a, ha, hs, hg⟩ := h.age
    exact ⟨a, ha.trans hp.symm, hs, hg⟩
  case table =>
    intro key id
    simp only [h.table, hp.mem_iff]
  case live =>
    intro x hx
    have hl := hp.mem_iff.1 hx
    by_cases hxe : x.id = e.id
    · obtain rfl := eq_of_id_eq h.ids hl he hxe
      simp [refOf]
    · simpa [hxe] using h.live x hl
  case dead =>
    intro id hi
    have ho : ∀ x ∈ l, x.id ≠ id := fun x hx => hi x (hp.mem_iff.2 hx)
    simpa [(ho e he).symm] using h.dead id ho
  case size => rw [weight_perm cfg hp]; exact h.size
  case next_eq => exact h.next_eq
  case next =>
    intro id hge
    simpa [h.ne_of_next_le he hge] using h.next id hge
  case clock => exact fun x hx => h.clock x (hp.mem_iff.1 hx)

lemma Rep.find?_eq (key : Bytes) :
    (l.find? (fun e => e.key = key)).map (·.id) = c.table.lookup key := by
  cases hl : c.table.lookup key with
  | none =>
    rw [map_eq_none_iff, find?_eq_none]
    intro e he hk
    rw [decide_eq_true_eq] at hk
    subst hk
    rw [h.lookup he] at hl
    cases hl
  | some id =>
    obtain ⟨e, he, rfl, rfl⟩ := (h.table key id).1 hl
    rw [find?_key h.keys he, map_some]

omit h

/-- The callers' references after an answer. -/
def take (held : ℕ → ℕ) : Option ℕ → ℕ → ℕ
  | none => held
  | some id => update held id (held id + 1)

/-- `vhttp_cache_fetch` finds what the bounded cache does, and the caller holds it. -/
theorem Rep.fetch (h : Rep cfg c held clock n l) (hl : clock ≤ now)
    (hn : now ≤ int64Max) (hd : cfg.duration ≤ int64Max) (key : Bytes) :
    ∃ c', c.fetch now key = some (c', (BoundedCache.fetch cfg now key l).2.map (·.id)) ∧
      Rep cfg c' (take held ((BoundedCache.fetch cfg now key l).2.map (·.id))) now n
        (BoundedCache.fetch cfg now key l).1 := by
  obtain ⟨c1, hc1, h1⟩ := h.purge hl hn hd
  have hi := h1.find?_eq key
  simp only [BoundedCache.fetch]
  cases hf : (BoundedCache.purge cfg now l).find? (fun e => e.key = key) with
  | none =>
    rw [hf, map_none] at hi
    refine ⟨c1, ?_, h1.clock_le hl⟩
    simp [Cache.fetch, hc1, ← hi]
  | some e =>
    have he := mem_of_find?_eq_some hf
    obtain rfl : e.key = key := by simpa using find?_some hf
    rw [hf, map_some] at hi
    have hr := fresh_of_mem_purge cfg he
    have hlf := h1.timeleft hl hn hd he (held e.id + 1)
    have hs : endsSoon cfg now e = true ↔
        c1.earlyUpdate = true ∧ (e.setAt + cfg.duration - now : ℤ) < 10 := by
      simp only [endsSoon, decide_eq_true_eq, ← h1.config_eq, config]
      rw [← h1.config_eq] at hr
      simp only [config] at hr
      cases c1.earlyUpdate <;> simp <;> omega
    simp only [Cache.fetch, hc1, bind_eq_bind, bind_some, ← hi, h1.live e he, hlf]
    rw [if_neg (by omega)]
    by_cases ha : endsSoon cfg now e = true ∧ e.askedEarly = false
    · rw [if_pos ⟨(hs.1 ha.1).1, (hs.1 ha.1).2, ha.2⟩, if_pos (by simpa using ha)]
      exact ⟨_, rfl, (h1.markEarly he).clock_le hl⟩
    · rw [if_neg (fun hc => ha ⟨hs.2 ⟨hc.1, hc.2.1⟩, hc.2.2⟩), if_neg (by simpa using ha)]
      exact ⟨_, rfl, (h1.use he).clock_le hl⟩

end Vhttp.Cache
