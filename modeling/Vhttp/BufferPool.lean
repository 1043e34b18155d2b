import Mathlib

/-!
# The size classes of buffers

The model of `buffer_size_to_power`, `buffer_allocate` and `vhttp_buffer__do_free` in
`lib/common/memory.c`. A freed block goes to the bin of its class, which is computed again.

* `isLeast_sizeToPower`: below `2 ^ 31` the class is the smallest one that is large enough.
* `buffers_of_reach`: buffers of no more than `2 ^ 30` octets get back to the bin they are from.
  For larger ones an `int` is shifted too far.
-/

namespace Vhttp.BufferPool

open Nat Function Option

/-- `offsetof(vhttp_buffer_t, _buf)`. -/
def header : ℕ := 36

/-- `vhttp_BUFFER_MIN_ALLOC_POWER`. -/
def minAllocPower : ℕ := 12

/-- `1 << power`, as an `int`; there is nothing if that is not defined. -/
def shiftInt (power : ℕ) : Option ℕ := if power < 31 then some (2 ^ power) else none

/-- `buffer_size_to_power`. -/
def sizeToPower (sz : ℕ) : Option ℕ :=
  if sz.log2 < minAllocPower then some minAllocPower
  else (shiftInt sz.log2).map fun shifted => if sz ≠ shifted then sz.log2 + 1 else sz.log2

/-- A buffer: the class it is from, the size of its block and its capacity. -/
structure Buffer where
  power : ℕ
  block : ℕ
  capacity : ℕ

/-- The blocks in each of `buffer_recycle_bins`, by their sizes, and the buffers in use. -/
structure Pool where
  bins : ℕ → List ℕ
  buffers : List Buffer

namespace Pool

/-- A buffer of a class; `vhttp_mem_alloc_recycle`. -/
def take (s : Pool) (power : ℕ) : Pool where
  bins := update s.bins power (s.bins power).tail
  buffers := ⟨power, (s.bins power).headD (2 ^ power), 2 ^ power - header⟩ :: s.buffers

/-- `buffer_allocate`, for a prototype of the `initial` capacity. -/
def allocate (s : Pool) (initial min desired : ℕ) : Option Pool :=
  let normal := (sizeToPower (header + max min initial)).map s.take
  if desired ≤ max min initial then normal
  else (sizeToPower (header + desired)).bind fun power =>
    if s.bins power = [] then normal else some (s.take power)

/-- `vhttp_buffer__do_free`, with its assertion. -/
def free (s : Pool) (b : Buffer) (rest : List Buffer) : Option Pool :=
  (sizeToPower (header + b.capacity)).bind fun power =>
    if 2 ^ power = header + b.capacity then
      some ⟨update s.bins power (b.block :: s.bins power), rest⟩
    else none

/-- What is reached if buffers are allocated only as is allowed. -/
inductive Reach (ok : ℕ → ℕ → ℕ → Prop) : Pool → Prop
  | init : Reach ok ⟨fun _ => [], []⟩
  | allocate {s s' : Pool} {initial min desired : ℕ} : Reach ok s → ok initial min desired →
      s.allocate initial min desired = some s' → Reach ok s'
  | free {s s' : Pool} {b : Buffer} {pre post : List Buffer} : Reach ok s →
      s.buffers = pre ++ b :: post → s.free b (pre ++ post) = some s' → Reach ok s'

end Pool

/-- Neither what is needed nor what is desired is too large. -/
def Small (initial min desired : ℕ) : Prop :=
  header + max min initial ≤ 2 ^ 30 ∧ header + desired < 2 ^ 31

variable {p sz : ℕ} {s s' : Pool}

/-- Below 2³¹ the class is the least that holds the size. -/
theorem isLeast_sizeToPower (h0 : sz ≠ 0) (h : sz < 2 ^ 31) :
    ∃ p, sizeToPower sz = some p ∧ IsLeast {p | minAllocPower ≤ p ∧ sz ≤ 2 ^ p} p := by
  have hlt : sz.log2 < 31 := (Nat.log2_lt h0).2 h
  have hs := Nat.log2_self_le h0
  have hl {q : ℕ} (hq : sz ≤ 2 ^ q) (hne : sz ≠ 2 ^ sz.log2) : sz.log2 + 1 ≤ q :=
    (Nat.pow_lt_pow_iff_right (by decide)).1 ((lt_of_le_of_ne hs hne.symm).trans_le hq)
  unfold sizeToPower shiftInt
  rw [if_pos hlt, map_some]
  split_ifs with hm hne
  · refine ⟨_, rfl, ⟨le_rfl, ?_⟩, fun q hq => hq.1⟩
    exact ((Nat.log2_lt h0).1 hm).le
  · exact ⟨_, rfl, ⟨(not_lt.1 hm).trans (le_succ _), lt_log2_self.le⟩,
      fun q hq => hl hq.2 hne⟩
  · rw [not_not] at hne
    refine ⟨_, rfl, ⟨not_lt.1 hm, hne.le⟩, fun q hq => ?_⟩
    exact (Nat.pow_le_pow_iff_right (by decide)).1 (hs.trans hq.2)

lemma sizeToPower_large (h : 2 ^ 31 ≤ sz) : sizeToPower sz = none := by
  have hl : 31 ≤ sz.log2 := (Nat.le_log2 (by omega)).2 h
  rw [sizeToPower, if_neg (by rw [minAllocPower]; omega), shiftInt, if_neg (by omega)]
  rfl

/-- A class for which the shift is defined, also when a buffer is freed. -/
def Fits (p : ℕ) : Prop := minAllocPower ≤ p ∧ p ≤ 30

/-- The class of what is allocated from a class is that class. -/
lemma Fits.sizeToPower (h : Fits p) : sizeToPower (2 ^ p) = some p := by
  obtain ⟨q, hq, ⟨-, hl⟩, hm⟩ := isLeast_sizeToPower (Nat.two_pow_pos p).ne'
    (Nat.pow_lt_pow_right one_lt_two (Nat.lt_succ_of_le h.2))
  rw [hq, le_antisymm (hm ⟨h.1, le_rfl⟩) ((Nat.pow_le_pow_iff_right one_lt_two).1 hl)]

/-- The blocks of a bin have the size of its class. -/
def Blocks (p : ℕ) (bin : List ℕ) : Prop := ∀ block ∈ bin, Fits p ∧ block = 2 ^ p

structure Sound (s : Pool) : Prop where
  bins : ∀ p, Blocks p (s.bins p)
  buffers : ∀ b ∈ s.buffers, Fits b.power ∧ b.block = 2 ^ b.power ∧
    header + b.capacity = 2 ^ b.power

lemma Sound.take (h : Sound s) (hp : Fits p) : Sound (s.take p) := by
  refine ⟨(forall_update_iff _ Blocks).2 ⟨fun block hb => ?_, fun q _ => h.bins q⟩, ?_⟩
  · exact h.bins p block (List.mem_of_mem_tail hb)
  · refine List.forall_mem_cons.2 ⟨⟨hp, ?_, Nat.add_sub_cancel' ?_⟩, h.buffers⟩
    · dsimp only
      cases hb : s.bins p with
      | nil => rfl
      | cons block rest => exact (h.bins p block (hb ▸ List.mem_cons_self)).2
    · exact le_trans (by decide) (Nat.pow_le_pow_right two_pos hp.1)

lemma Sound.allocate (h : Sound s) {initial min desired : ℕ} (hs : Small initial min desired)
    (ha : s.allocate initial min desired = some s') : Sound s' := by
  obtain ⟨p, hp, hl⟩ := isLeast_sizeToPower (Nat.add_pos_left (by decide) _).ne'
    (hs.1.trans_lt (by decide))
  have hn : Sound (s.take p) := h.take ⟨hl.1.1, hl.2 ⟨by decide, hs.1⟩⟩
  unfold Pool.allocate at ha
  simp only [hp, map_some] at ha
  split_ifs at ha
  · exact some.inj ha ▸ hn
  · obtain ⟨q, -, ha⟩ := bind_eq_some_iff.1 ha
    split_ifs at ha with he
    · exact some.inj ha ▸ hn
    · obtain ⟨block, hb⟩ := List.exists_mem_of_ne_nil _ he
      exact some.inj ha ▸ h.take (h.bins q block hb).1

lemma Sound.free (h : Sound s) {b : Buffer} {pre post : List Buffer}
    (hb : s.buffers = pre ++ b :: post) : ∃ s', s.free b (pre ++ post) = some s' ∧ Sound s' := by
  have hm := h.buffers
  rw [hb, List.forall_mem_append, List.forall_mem_cons] at hm
  obtain ⟨hr, ⟨hf, hk, hc⟩, ho⟩ := hm
  rw [Pool.free, hc, hf.sizeToPower, bind_some, if_pos rfl]
  refine ⟨_, rfl, (forall_update_iff _ Blocks).2 ⟨?_, fun q _ => h.bins q⟩,
    List.forall_mem_append.2 ⟨hr, ho⟩⟩
  exact List.forall_mem_cons.2 ⟨⟨hf, hk⟩, h.bins b.power⟩

/-- **Buffers get back to where they are from**, and a block is as large as its buffer says, if
nothing is allocated that is too large; a size has a class if and only if it is below `2 ^ 31`. -/
theorem buffers_of_reach (h : Pool.Reach Small s) :
    (∀ sz ≠ 0, sz < 2 ^ 31 ↔
      ∃ p, sizeToPower sz = some p ∧ IsLeast {p | minAllocPower ≤ p ∧ sz ≤ 2 ^ p} p) ∧
    (∀ b ∈ s.buffers, sizeToPower (header + b.capacity) = some b.power ∧
      b.block = header + b.capacity) ∧
    ∀ pre b post, s.buffers = pre ++ b :: post → ∃ s', s.free b (pre ++ post) = some s' := by
  refine ⟨fun sz h0 => ⟨isLeast_sizeToPower h0, fun ⟨p, hp, _⟩ => ?_⟩, ?_⟩
  · by_contra hl
    rw [sizeToPower_large (not_lt.1 hl)] at hp
    cases hp
  have hs : Sound s := by
    induction h with
    | init => exact ⟨fun _ _ => nofun, fun _ => nofun⟩
    | allocate _ hk ha ih => exact ih.allocate hk ha
    | free _ hb hf ih =>
      obtain ⟨s', hs', hi⟩ := ih.free hb
      exact some.inj (hs'.symm.trans hf) ▸ hi
  refine ⟨fun b hb => ?_, fun pre b post hb => (hs.free hb).imp fun _ => And.left⟩
  obtain ⟨hf, hk, hc⟩ := hs.buffers b hb
  rw [hc]
  exact ⟨hf.sizeToPower, hk⟩

/-- A buffer is freed, and its block is used again for one that need not be so large. -/
theorem buffers_of_reach_recycled : ∃ s b, Pool.Reach Small s ∧ s.buffers = [b] ∧ b.power = 13 ∧
    ∃ s', s.free b [] = some s' := by
  have h₁ : Pool.Reach Small _ := .allocate .init ⟨by decide, by decide⟩
    (show Pool.allocate _ 0 5000 0 = _ from rfl)
  have h₂ := @Pool.Reach.free Small _ _ _ [] [] h₁ rfl rfl
  have h₃ : Pool.Reach Small _ := .allocate h₂ ⟨by decide, by decide⟩
    (show Pool.allocate _ 0 1 5000 = _ from rfl)
  exact ⟨_, _, h₃, rfl, rfl, (buffers_of_reach h₃).2.2 [] _ [] rfl⟩

/-- A buffer for `2 ^ 30` octets can be allocated, but not be freed. -/
theorem allocated_not_freed : ∃ s b, Pool.Reach (fun _ _ _ => True) s ∧ s.buffers = [b] ∧
    header + b.capacity = 2 ^ 31 ∧ sizeToPower (2 ^ 31) = none ∧ s.free b [] = none :=
  ⟨_, _, .allocate .init trivial (show Pool.allocate _ 0 (2 ^ 30) 0 = _ from rfl), rfl, rfl,
    sizeToPower_large le_rfl, rfl⟩

end Vhttp.BufferPool
