import Vhttp.Cache.Refine

/-!
# Runs of the cache

A `World` is a cache with what its callers know: the references they hold and the time of the
last call. Calls come in any order, with times that do not decrease; a caller gives back only
what it holds.

* `cache_refines`: in every reachable world each call answers as the bounded cache does, the
  table and both lists hold the same references, and the size is within the capacity.
* `expired_fetched`: past the largest `int64_t` an expired value is returned.
-/

namespace Vhttp.Cache

open BoundedCache List Bool Cache

/-- A cache and its callers. `missed id` counts the fetches that were answered with a miss
while the entry `id` was there and its time was not over. -/
structure World where
  cache : Cache
  held : ℕ → ℕ
  clock : ℕ
  missed : ℕ → ℕ

/-- What callers promise: times do not decrease and are within an `int64_t`, and a reference
that is given back is held. -/
def World.Allowed (w : World) (op : Op) : Prop :=
  (∀ now ∈ op.time?, w.clock ≤ now ∧ now ≤ int64Max) ∧ ∀ id, op = .release id → 0 < w.held id

/-- The references callers hold after a call. -/
def heldAfter (held : ℕ → ℕ) : Op → Reply → ℕ → ℕ
  | .release id, _ => Function.update held id (held id - 1)
  | _, .found ref => take held ref
  | _, _ => held

/-- The world after a call that left the cache `c` and returned `reply`. -/
def World.after (w : World) (op : Op) (c : Cache) (reply : Reply) : World where
  cache := c
  held := heldAfter w.held op reply
  clock := op.time?.getD w.clock
  missed := fun id => if freshMiss w.cache op reply id then w.missed id + 1 else w.missed id

/-- The bounded cache, with the identity of the next entry. -/
structure Spec where
  entries : Entries Bytes Bytes
  next : ℕ

/-- A call of the bounded cache. -/
def Spec.call (cfg : Config Bytes) (a : Spec) : Op → Spec × Reply
  | .set now key value =>
    let r := store cfg now a.next key value a.entries
    (⟨r.1, a.next + 1⟩, .existed r.2)
  | .fetch now key =>
    let r := BoundedCache.fetch cfg now key a.entries
    (⟨r.1, a.next⟩, .found (r.2.map (·.id)))
  | .release _ => (a, .done)
  | .delete now key => (⟨remove cfg now key a.entries, a.next⟩, .done)
  | .clear => (⟨[], a.next⟩, .done)

/-- The worlds that calls lead to, each with the bounded cache after the same calls. -/
inductive Reach (c₀ : Cache) : World → Spec → Prop
  | start : Reach c₀ ⟨c₀, fun _ => 0, 0, fun _ => 0⟩ ⟨[], 0⟩
  | call {w : World} {a : Spec} {op : Op} {c : Cache} {reply : Reply} (h : Reach c₀ w a)
      (allowed : w.Allowed op) (run : w.cache.call op = some (c, reply)) :
      Reach c₀ (w.after op c reply) (a.call c₀.config op).1

/-- What holds between a world and the bounded cache. -/
structure Sim (c₀ : Cache) (w : World) (a : Spec) : Prop where
  rep : Rep c₀.config w.cache w.held w.clock a.next a.entries
  fits : weight c₀.config a.entries ≤ c₀.capacity
  missed_le : ∀ id, w.missed id ≤ 1
  missed_asked : ∀ id, 0 < w.missed id → id < a.next ∧
    ∀ e ∈ a.entries, e.id = id → e.askedEarly = true

/-! ## Entries through a call -/

variable {a : Spec} {c c₀ : Cache} {cfg : Config Bytes} {clock id n now : ℕ} {e : Entry Bytes Bytes}
  {held : ℕ → ℕ} {key : Bytes} {l : Entries Bytes Bytes} {op : Op} {w : World}

lemma mem_fetch (he : e ∈ (BoundedCache.fetch cfg now key l).1) :
    ∃ x ∈ l, x.id = e.id ∧ (x.askedEarly = true → e.askedEarly = true) := by
  have hs : ∀ x ∈ BoundedCache.purge cfg now l, x ∈ l :=
    fun x hx => (purge_sublist cfg now l).subset hx
  simp only [BoundedCache.fetch] at he
  split at he
  · exact ⟨e, hs e he, rfl, id⟩
  · next x hx =>
    split at he
    · obtain ⟨y, hy, rfl⟩ := mem_markEarly he
      refine ⟨y, hs y hy, ?_, ?_⟩ <;> split <;> simp
    · rcases mem_cons.1 he with rfl | he
      · exact ⟨e, hs e (mem_of_find?_eq_some hx), rfl, id⟩
      · exact ⟨e, hs e (mem_without.1 he).1, rfl, id⟩

/-- An entry after a call is the new one or one that was there, and stays marked. -/
lemma mem_call (he : e ∈ (a.call cfg op).1.entries) :
    (e.id = a.next ∧ (a.call cfg op).1.next = a.next + 1) ∨
      ∃ x ∈ a.entries, x.id = e.id ∧ (x.askedEarly = true → e.askedEarly = true) := by
  cases op with
  | set now key value =>
    have hmem := (purge_sublist cfg now _).subset he
    rcases mem_cons.1 hmem with rfl | hx
    · exact Or.inl ⟨rfl, rfl⟩
    · exact Or.inr ⟨e, (mem_without.1 hx).1, rfl, id⟩
  | fetch now key => exact Or.inr (mem_fetch he)
  | release id => exact Or.inr ⟨e, he, rfl, fun h => h⟩
  | delete now key =>
    exact Or.inr ⟨e, (purge_sublist cfg now _).subset (mem_without.1 he).1, rfl, id⟩
  | clear => cases he

lemma next_le_call (cfg : Config Bytes) (a : Spec) (op : Op) :
    a.next ≤ (a.call cfg op).1.next := by
  cases op <;> simp [Spec.call]

lemma weight_call_le (hn : (a.entries.map (·.key)).Nodup)
    (ha : weight cfg a.entries ≤ cfg.capacity) (op : Op) :
    weight cfg (a.call cfg op).1.entries ≤ cfg.capacity := by
  cases op with
  | set now key value => exact weight_purge_le cfg now _
  | fetch now key =>
    simp only [Spec.call, BoundedCache.fetch]
    split
    · exact weight_purge_le cfg now _
    · next e hf =>
      have he := mem_of_find?_eq_some hf
      obtain rfl : e.key = key := by simpa using find?_some hf
      split
      · rw [weight_markEarly]
        exact weight_purge_le cfg now _
      · rw [weight_perm cfg (cons_without_perm (hn.sublist ((purge_sublist cfg now _).map _)) he)]
        exact weight_purge_le cfg now _
  | release id => exact ha
  | delete now key =>
    exact (Budget.weight_le_of_sublist filter_sublist).trans (weight_purge_le cfg now _)
  | clear => exact Nat.zero_le _

/-! ## Early misses -/

/-- A purge keeps what fits and is fresh. -/
lemma mem_purge (hf : weight cfg l ≤ cfg.capacity) (he : e ∈ l)
    (hr : now ≤ e.setAt + cfg.duration) : e ∈ BoundedCache.purge cfg now l := by
  rw [BoundedCache.purge, Budget.fitting_of_le hf]
  exact mem_filter.2 ⟨he, by simpa [fresh] using hr⟩

/-- An entry whose time is not over is reported missing only within the margin, and is marked
by it. -/
lemma fetch_none (hn : (l.map (·.key)).Nodup) (hf : weight cfg l ≤ cfg.capacity)
    (he : e ∈ l) (hr : now ≤ e.setAt + cfg.duration)
    (ho : (BoundedCache.fetch cfg now e.key l).2 = none) :
    e.askedEarly = false ∧ e.setAt + cfg.duration < now + cfg.margin ∧
      (BoundedCache.fetch cfg now e.key l).1 =
        BoundedCache.markEarly e.key (BoundedCache.purge cfg now l) := by
  have hmem := mem_purge hf he hr
  have hi := find?_key (hn.sublist ((purge_sublist cfg now l).map _)) hmem
  simp only [BoundedCache.fetch, hi] at ho ⊢
  split at ho
  · next hs =>
    rw [if_pos hs]
    simp only [endsSoon, and_eq_true, decide_eq_true_eq, not_eq_true'] at hs
    exact ⟨hs.2, hs.1, rfl⟩
  · cases ho

/-- What a fresh miss says of the entries. -/
lemma Sim.freshMiss (h : Sim c₀ w a)
    (hm : freshMiss w.cache op (a.call c₀.config op).2 id = true) :
    ∃ now e, op = .fetch now e.key ∧ e ∈ a.entries ∧ e.id = id ∧ e.askedEarly = false ∧
      (now ≤ e.setAt + c₀.duration ∧ e.setAt + c₀.duration < now + c₀.config.margin) ∧
      (a.call c₀.config op).1.entries =
        BoundedCache.markEarly e.key (BoundedCache.purge c₀.config now a.entries) := by
  cases op with
  | fetch now key =>
    simp only [Spec.call] at hm ⊢
    cases hr : (BoundedCache.fetch c₀.config now key a.entries).2 with
    | some x => simp [hr, freshMiss] at hm
    | none =>
      simp only [hr, Option.map_none, freshMiss, decide_eq_true_eq] at hm
      obtain ⟨hl, ref, hf, hfr⟩ := hm
      obtain ⟨e, he, rfl, rfl⟩ := (h.rep.table key id).1 hl
      rw [h.rep.live e he, Option.mem_some_iff] at hf
      subst hf
      have hd : w.cache.duration = c₀.config.duration := by
        rw [← h.rep.config_eq]
        rfl
      rw [hd] at hfr
      obtain ⟨ha, hs, hma⟩ := fetch_none h.rep.keys h.fits he hfr hr
      exact ⟨now, e, rfl, he, rfl, ha, ⟨hfr, hs⟩, hma⟩
  | set now key value | release id | delete now key | clear => simp [freshMiss] at hm

/-! ## One call, and all of them -/

lemma Sim.call_eq (h : Sim c₀ w a) (hd : c₀.duration ≤ int64Max) (ho : w.Allowed op) :
    ∃ c', w.cache.call op = some (c', (a.call c₀.config op).2) ∧
      Rep c₀.config c' (heldAfter w.held op (a.call c₀.config op).2) (op.time?.getD w.clock)
        (a.call c₀.config op).1.next (a.call c₀.config op).1.entries := by
  cases op with
  | set now key value =>
    obtain ⟨hc, hn⟩ := ho.1 now rfl
    obtain ⟨c', hc', hr⟩ := h.rep.set hc hn hd key value
    exact ⟨c', by simp [call, hc', Spec.call], hr⟩
  | fetch now key =>
    obtain ⟨hc, hn⟩ := ho.1 now rfl
    obtain ⟨c', hc', hr⟩ := h.rep.fetch hc hn hd key
    exact ⟨c', by simp [call, hc', Spec.call], hr⟩
  | release id =>
    obtain ⟨c', hc', hr⟩ := h.rep.release (ho.2 id rfl)
    exact ⟨c', by simp [call, hc', Spec.call], hr⟩
  | delete now key =>
    obtain ⟨hc, hn⟩ := ho.1 now rfl
    obtain ⟨c', hc', hr⟩ := h.rep.delete hc hn hd key
    exact ⟨c', by simp [call, hc', Spec.call], hr.clock_le hc⟩
  | clear =>
    obtain ⟨c', hc', hr⟩ := h.rep.clear
    exact ⟨c', by simp [call, hc', Spec.call], hr⟩

lemma Sim.after (h : Sim c₀ w a)
    (hr : Rep c₀.config c (heldAfter w.held op (a.call c₀.config op).2)
      (op.time?.getD w.clock) (a.call c₀.config op).1.next (a.call c₀.config op).1.entries) :
    Sim c₀ (w.after op c (a.call c₀.config op).2) (a.call c₀.config op).1 := by
  refine ⟨hr, weight_call_le h.rep.keys h.fits op, fun id => ?_, fun id hpos => ?_⟩
  · simp only [World.after]
    split
    · next hm =>
      obtain ⟨now, e, -, he, hi, ha, -⟩ := h.freshMiss hm
      have hz : w.missed id = 0 := by
        by_contra hne
        rw [(h.missed_asked id (Nat.pos_of_ne_zero hne)).2 e he hi] at ha
        cases ha
      omega
    · exact h.missed_le id
  · by_cases hm : Cache.freshMiss w.cache op (a.call c₀.config op).2 id = true
    · obtain ⟨now, e, -, he, rfl, -, -, hma⟩ := h.freshMiss hm
      have ht : e.id < a.next := by
        by_contra hg
        have hle : w.cache.next ≤ e.id := by
          rw [h.rep.next_eq]
          omega
        exact h.rep.ne_of_next_le he hle rfl
      refine ⟨ht.trans_le (next_le_call _ _ _), fun x hx hi => ?_⟩
      rw [hma] at hx
      obtain ⟨y, hy, rfl⟩ := mem_markEarly hx
      have hyl := (purge_sublist _ _ _).subset hy
      have hye : y.id = e.id := by
        rw [← hi]
        split <;> rfl
      rw [eq_of_id_eq h.rep.ids hyl he hye, if_pos rfl]
    · have hp' : 0 < w.missed id := by
        simp only [World.after, hm] at hpos
        exact hpos
      obtain ⟨ht, hl⟩ := h.missed_asked id hp'
      refine ⟨ht.trans_le (next_le_call _ _ _), fun x hx hi => ?_⟩
      rcases mem_call hx with ⟨hn, -⟩ | ⟨y, hy, hyx, hk⟩
      · omega
      · exact hk (hl y hy (hyx.trans hi))

lemma Reach.sim {early : Bool} {capacity duration : ℕ} {destroyCb : Bool}
    (hd : duration ≤ int64Max) (h : Reach (create early capacity duration destroyCb) w a) :
    Sim (create early capacity duration destroyCb) w a := by
  induction h with
  | start =>
    refine ⟨?_, Nat.zero_le _, fun _ => Nat.zero_le _, fun id hpos => absurd hpos (lt_irrefl 0)⟩
    constructor <;> simp [create, weight]
  | call h allowed run ih =>
    obtain ⟨c', hc', hr⟩ := ih.call_eq hd allowed
    rw [hc', Option.some.injEq, Prod.mk.injEq] at run
    obtain ⟨rfl, rfl⟩ := run
    exact ih.after hr

/-! ## The cache as its callers see it -/

/-- The bytes of the values that the references of a list hold. -/
def valueBytes (c : Cache) (ids : List ℕ) : ℕ :=
  (ids.map (fun id => ((c.refs id).map (·.value.length)).getD 0)).sum

lemma Rep.size_eq (h : Rep cfg c held clock n l) : c.size = valueBytes c c.lru := by
  rw [h.size, h.lru, valueBytes, map_reverse, sum_reverse, map_map, weight, Budget.weight]
  congr 1
  refine map_congr_left (fun e he => ?_)
  simp [h.live e he, refOf, entryWeight, h.weight_eq]

lemma Rep.mem_lru (h : Rep cfg c held clock n l) : id ∈ c.lru ↔ ∃ e ∈ l, e.id = id := by
  rw [h.lru, mem_reverse, mem_map]

lemma Rep.mem_age (h : Rep cfg c held clock n l) : id ∈ c.age ↔ ∃ e ∈ l, e.id = id := by
  obtain ⟨a, hp, -, ha⟩ := h.age
  simp only [ha, mem_map, hp.mem_iff]

lemma mem_of_fetch (h : (BoundedCache.fetch cfg now key l).2 = some e) : e ∈ l ∧ e.key = key := by
  simp only [BoundedCache.fetch] at h
  split at h
  · cases h
  · next x hx =>
    split at h
    · cases h
    · cases h
      exact ⟨(purge_sublist cfg now l).subset (mem_of_find?_eq_some hx),
        by simpa using find?_some hx⟩

/-- The reference that a fetch returns holds the key and is not expired. -/
lemma Sim.fetched (h : Sim c₀ w a) (hd : c₀.duration ≤ int64Max) (ho : w.Allowed (.fetch now key))
    {c' : Cache} (hf : w.cache.fetch now key = some (c', some id)) :
    ∃ ref, w.cache.refs id = some ref ∧ ref.key = key ∧ now ≤ ref.setAt + c₀.duration := by
  obtain ⟨hc, hn⟩ := ho.1 now rfl
  obtain ⟨c'', hc'', -⟩ := h.rep.fetch hc hn hd key
  rw [hf, Option.some.injEq, Prod.mk.injEq] at hc''
  obtain ⟨e, he, rfl⟩ := Option.map_eq_some_iff.1 hc''.2.symm
  obtain ⟨hmem, hk⟩ := mem_of_fetch he
  exact ⟨_, h.rep.live e hmem, hk, fresh_of_fetch _ he⟩

/-- **The cache is a bounded cache.**  In every world that calls lead to, each further call
answers as the bounded cache does and no assertion fails; the table and the two lists hold the
same references, each once; the size is that of their values and within the capacity; what is
fetched is not expired; and an entry whose time is not over is reported missing at most once,
ten milliseconds or less before its end. -/
theorem cache_refines {early : Bool} {capacity duration : ℕ} {destroyCb : Bool}
    (hdur : duration ≤ int64Max) {w : World} {a : Spec}
    (h : Reach (create early capacity duration destroyCb) w a) :
    (∀ op, w.Allowed op → ∃ c', w.cache.call op =
      some (c', (a.call (create early capacity duration destroyCb).config op).2)) ∧
    (w.cache.lru.Nodup ∧ w.cache.age.Nodup ∧
      ∀ id, (id ∈ w.cache.lru ↔ ∃ key, w.cache.table.lookup key = some id) ∧
        (id ∈ w.cache.age ↔ ∃ key, w.cache.table.lookup key = some id)) ∧
    (∀ key id, w.cache.table.lookup key = some id →
      ∃ ref, w.cache.refs id = some ref ∧ ref.key = key) ∧
    (w.cache.size = valueBytes w.cache w.cache.lru ∧ w.cache.size ≤ capacity) ∧
    (∀ now key c' id, w.Allowed (.fetch now key) → w.cache.fetch now key = some (c', some id) →
      ∃ ref, w.cache.refs id = some ref ∧ ref.key = key ∧ now ≤ ref.setAt + duration) ∧
    (∀ id, w.missed id ≤ 1) ∧ ∀ op c' reply id, w.Allowed op → w.cache.call op = some (c', reply) →
      freshMiss w.cache op reply id = true →
      early = true ∧ ∃ now key ref, op = .fetch now key ∧ w.cache.refs id = some ref ∧
        ref.setAt + duration < now + 10 := by
  have hs := h.sim hdur
  have hr := hs.rep
  have ht : ∀ id, (∃ e ∈ a.entries, e.id = id) ↔ ∃ key, w.cache.table.lookup key = some id := by
    intro id
    constructor
    · rintro ⟨e, he, rfl⟩
      exact ⟨e.key, hr.lookup he⟩
    · rintro ⟨key, hy⟩
      obtain ⟨e, he, -, hi⟩ := (hr.table key id).1 hy
      exact ⟨e, he, hi⟩
  refine ⟨fun op ho => ?_, ⟨hr.lru_nodup, hr.age_nodup, fun id => ⟨?_, ?_⟩⟩, ?_,
    ⟨hr.size_eq, ?_⟩, ?_, hs.missed_le, ?_⟩
  · obtain ⟨c', hc', -⟩ := hs.call_eq hdur ho
    exact ⟨c', hc'⟩
  · exact hr.mem_lru.trans (ht id)
  · exact hr.mem_age.trans (ht id)
  · intro key id hy
    obtain ⟨e, he, hk, rfl⟩ := (hr.table key id).1 hy
    exact ⟨_, hr.live e he, hk⟩
  · rw [hr.size]
    exact hs.fits
  · intro now key c' id ho hf
    exact hs.fetched hdur ho hf
  · intro op c' reply id ho hc hm
    obtain ⟨c'', hc'', -⟩ := hs.call_eq hdur ho
    rw [hc, Option.some.injEq, Prod.mk.injEq] at hc''
    rw [hc''.2] at hm
    obtain ⟨now, e, rfl, he, rfl, -, ⟨hfr, hso⟩, -⟩ := hs.freshMiss hm
    simp only [config, create] at hfr hso
    cases early with
    | false => simp only [false_eq_true, if_false] at hso; omega
    | true => exact ⟨rfl, now, e.key, _, rfl, hr.live e he, hso⟩

/-- A call at a time that is told. -/
def World.timed (c₀ : Cache) (p : World × Spec) (op : Op) : Option (World × Spec) :=
  if ∃ now ∈ op.time?, p.1.clock ≤ now ∧ now ≤ int64Max then
    (p.1.cache.call op).map fun r => (p.1.after op r.1 r.2, (p.2.call c₀.config op).1)
  else none

lemma Reach.timed {ops : List Op} {p p' : World × Spec} (h : Reach c₀ p.1 p.2)
    (hs : ops.foldlM (World.timed c₀) p = some p') : Reach c₀ p'.1 p'.2 := by
  induction ops generalizing p with
  | nil => exact Option.some.inj hs ▸ h
  | cons op ops ih =>
    obtain ⟨p₁, h₁, hs⟩ := Option.bind_eq_some_iff.1 hs
    obtain ⟨⟨now, ht, hc⟩, h₁⟩ := Option.ite_none_right_eq_some.1 h₁
    obtain ⟨r, hr, rfl⟩ := Option.map_eq_some_iff.1 h₁
    refine ih (h.call ⟨fun now' ht' => Option.mem_unique ht ht' ▸ hc, ?_⟩ hr) hs
    rintro id rfl
    cases ht

/-- A value is overwritten, evicted by another one, and that one expires. -/
theorem cache_refines_expired : ∃ w a, Reach (create true 8 100 true) w a ∧
    a.entries.map (·.key) = [[3]] ∧ w.cache.size = valueBytes w.cache w.cache.lru ∧
    w.cache.size ≤ 8 := by
  obtain ⟨p, hp, hk⟩ : ∃ p : World × Spec, [Op.set 5 [1] [2, 3], .set 6 [1] [4, 5, 6],
      .set 7 [2] [0, 0, 0, 0, 0, 0], .fetch 8 [1], .set 200 [3] [7]].foldlM
        (World.timed (create true 8 100 true))
        (⟨create true 8 100 true, fun _ => 0, 0, fun _ => 0⟩, ⟨[], 0⟩) = some p ∧
      p.2.entries.map (·.key) = [[3]] := exists_of_any (by decide +kernel)
  have hr := Reach.timed (.start : Reach _ _ ⟨[], 0⟩) hp
  exact ⟨p.1, p.2, hr, hk, (cache_refines (by decide) hr).2.2.2.1⟩

/-- A value stored at time 0 for 10 ms is returned at time `2 ^ 63 + 11`: the time left has
become positive again. -/
theorem expired_fetched : ∃ c₁ c₂, (create false 8 10 true).set 0 [1] [2] = some (c₁, false) ∧
      c₁.fetch (2 ^ 63 + 11) [1] = some (c₂, some 0) ∧
      ∃ ref, c₁.refs 0 = some ref ∧ ref.setAt + 10 < 2 ^ 63 + 11 := by
  refine ⟨_, _, rfl, rfl, _, rfl, by decide⟩

end Vhttp.Cache
