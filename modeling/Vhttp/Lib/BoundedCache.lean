import Vhttp.Lib.Budget

/-!
# A bounded cache as a list

A cache is the list of its entries, the most recently used one first. Storing a value puts it
at the front, a hit moves the entry there, and before every answer the cache is purged: the
least recently used entries go until the weight is within the capacity, and then those whose
time is over. An entry whose time is about to end is reported missing once, so that its user
renews it while it can still be served to others.

* `cons_without_perm`: using an entry reorders the cache and does nothing else.
* `weight_purge_le`: a purge brings the weight within the capacity.
* `fresh_of_fetch`: what is fetched is not expired.
-/

namespace BoundedCache

open List

variable {κ ν : Type*} [DecidableEq κ]

/-- An entry: its identity, its key and value, when it was stored, and whether it has been
reported missing ahead of its end. -/
structure Entry (κ ν : Type*) where
  id : ℕ
  key : κ
  value : ν
  setAt : ℕ
  askedEarly : Bool

/-- What a cache is set up with. `margin` is how long before its end an entry is reported
missing; no entry is when it is zero. -/
structure Config (ν : Type*) where
  weight : ν → ℕ
  capacity : ℕ
  duration : ℕ
  margin : ℕ

/-- The entries, the most recently used one first. -/
abbrev Entries (κ ν : Type*) := List (Entry κ ν)

variable (cfg : Config ν)

variable (now id : ℕ) (key : κ) (value : ν) (l : Entries κ ν)

/-- The entry can still be served at time `now`. -/
def fresh (e : Entry κ ν) : Bool := now ≤ e.setAt + cfg.duration

/-- The time left is within the margin. -/
def endsSoon (e : Entry κ ν) : Bool := e.setAt + cfg.duration < now + cfg.margin

/-- The weight of an entry is that of its value. -/
def entryWeight (e : Entry κ ν) : ℕ := cfg.weight e.value

/-- The weight of a cache. -/
def weight (l : Entries κ ν) : ℕ := Budget.weight (entryWeight cfg) l

/-- Least recently used entries go until the rest fits, then expired ones. -/
def purge : Entries κ ν :=
  (Budget.fitting (entryWeight cfg) cfg.capacity l).filter (fresh cfg now)

/-- The entries with another key. -/
def without : Entries κ ν := l.filter (fun e => e.key ≠ key)

/-- The entry with the key has been reported missing. -/
def markEarly : Entries κ ν :=
  l.map (fun e => if e.key = key then { e with askedEarly := true } else e)

/-- Store a value; tells whether the key was there. -/
def store : Entries κ ν × Bool :=
  (purge cfg now (⟨id, key, value, now, false⟩ :: without key l), l.any (fun e => e.key = key))

/-- Look a key up. -/
def fetch : Entries κ ν × Option (Entry κ ν) :=
  let l := purge cfg now l
  match l.find? (fun e => e.key = key) with
  | none => (l, none)
  | some e =>
    if endsSoon cfg now e && !e.askedEarly then (markEarly key l, none)
    else (e :: without key l, some e)

/-- Remove a key. -/
def remove : Entries κ ν := without key (purge cfg now l)

/-! ## Removing a key -/

variable {e : Entry κ ν} {key : κ} {l m : Entries κ ν} {now : ℕ}

lemma mem_without : e ∈ without key l ↔ e ∈ l ∧ e.key ≠ key := by
  simp [without]

lemma without_eq_self (h : ∀ e ∈ l, e.key ≠ key) : without key l = l :=
  filter_eq_self.2 (fun e he => by simpa using h e he)

variable (hn : (l.map (·.key)).Nodup)
include hn

/-- Bringing an entry to the front permutes the cache. -/
theorem cons_without_perm (he : e ∈ l) : (e :: without e.key l).Perm l := by
  induction l with
  | nil => cases he
  | cons a l ih =>
    rw [map_cons, nodup_cons] at hn
    rcases mem_cons.1 he with rfl | hl
    · have hr : without e.key l = l :=
        without_eq_self (fun x hx hk => hn.1 (hk ▸ mem_map_of_mem hx))
      have hh : without e.key (e :: l) = without e.key l := by simp [without]
      rw [hh, hr]
    · have hne : a.key ≠ e.key := fun hk => hn.1 (hk ▸ mem_map_of_mem hl)
      have hh : without e.key (a :: l) = a :: without e.key l := by simp [without, hne]
      rw [hh]
      exact (Perm.swap _ _ _).trans ((ih hn.2 hl).cons a)

/-- Removing the key of the last entry drops it. -/
lemma without_getLast (he : l.getLast? = some e) : without e.key l = l.dropLast := by
  obtain ⟨m, rfl⟩ := getLast?_eq_some_iff.1 he
  have hm : without e.key m = m := by
    refine without_eq_self (fun x hx hk => ?_)
    rw [map_append, nodup_append] at hn
    exact hn.2.2 x.key (mem_map_of_mem hx) e.key (by simp) hk
  have hs : without e.key (m ++ [e]) = without e.key m := by simp [without]
  rw [hs, hm, dropLast_concat]

lemma find?_key (he : e ∈ l) : l.find? (fun x => x.key = e.key) = some e := by
  induction l with
  | nil => cases he
  | cons a l ih =>
    rw [map_cons, nodup_cons] at hn
    rcases mem_cons.1 he with rfl | hl
    · simp
    · have hne : a.key ≠ e.key := fun hk => hn.1 (hk ▸ mem_map_of_mem hl)
      simp [hne, ih hn.2 hl]

omit hn

/-! ## The weight -/

omit [DecidableEq κ] in
lemma weight_perm (h : l.Perm m) : weight cfg l = weight cfg m :=
  (h.map _).sum_nat

lemma weight_without (hn : (l.map (·.key)).Nodup)
    (he : e ∈ l) : weight cfg (without e.key l) = weight cfg l - cfg.weight e.value := by
  have h := weight_perm cfg (cons_without_perm hn he)
  rw [weight, Budget.weight_cons] at h
  simp only [weight, entryWeight] at h ⊢
  omega

omit [DecidableEq κ] in
/-- After a purge the cache is within its capacity. -/
theorem weight_purge_le (now : ℕ) (l : Entries κ ν) : weight cfg (purge cfg now l) ≤ cfg.capacity :=
  (Budget.weight_le_of_sublist filter_sublist).trans (Budget.weight_fitting_le _ _)

lemma weight_markEarly (key : κ) (l : Entries κ ν) :
    weight cfg (markEarly key l) = weight cfg l := by
  have hw : entryWeight cfg ∘ (fun e : Entry κ ν =>
      if e.key = key then { e with askedEarly := true } else e) = entryWeight cfg := by
    funext e
    by_cases hk : e.key = key <;> simp [entryWeight, hk]
  simp only [weight, Budget.weight, markEarly, map_map, hw]

omit [DecidableEq κ] in
lemma purge_sublist (now : ℕ) (l : Entries κ ν) : (purge cfg now l).Sublist l :=
  filter_sublist.trans (Budget.fitting_prefix _ _).sublist

omit [DecidableEq κ] in
lemma fresh_of_mem_purge (he : e ∈ purge cfg now l) : now ≤ e.setAt + cfg.duration := by
  simpa [fresh] using (mem_filter.1 he).2

/-! ## Looking a key up -/

/-- What is fetched is not expired. -/
theorem fresh_of_fetch (h : (fetch cfg now key l).2 = some e) : now ≤ e.setAt + cfg.duration := by
  simp only [fetch] at h
  split at h
  · cases h
  · next x hx =>
    split at h
    · cases h
    · cases h
      exact fresh_of_mem_purge cfg (mem_of_find?_eq_some hx)

end BoundedCache
