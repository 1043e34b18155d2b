import Vhttp.Bytes

/-!
# Cache-aware server push

The model of `lib/http2/casper.c`: the keys of what a client has, in order, and the cookie that
stands for them, which is made when it is asked for and then kept.

* `getCookie_of_reach`: the keys are those that have been set or received. The cookie stands for
  all of them if none is kept while a cookie with another key is received.
-/

namespace Vhttp.Http2

open List

/-- A `vhttp_http2_casper_t`. -/
structure Casper where
  keys : List ℕ
  cookieCache : Option Bytes

namespace Casper

/-- The parameters, the hash of a path and the coding of keys, with the room for what is decoded. -/
structure Coding where
  capacityBits : ℕ
  hash : Bytes → ℕ
  encode : List ℕ → Bytes
  decode : ℕ → Bytes → Option (List ℕ)
  sorted : ∀ {room value keys}, decode room value = some keys → keys.SortedLT

/-- The loop of `vhttp_http2_casper_lookup`, and the insertion of a key that is not found. -/
def insertKey (key : ℕ) : List ℕ → Option (List ℕ)
  | [] => some [key]
  | e :: es =>
    if key ≤ e then if key = e then none else some (key :: e :: es)
    else (insertKey key es).map (e :: ·)

/-- The merge of `vhttp_http2_casper_consume_cookie`. -/
def merge : List ℕ → List ℕ → List ℕ
  | [], new => new
  | orig, [] => orig
  | a :: orig, b :: new =>
    if a < b then a :: merge orig (b :: new)
    else if b < a then b :: merge (a :: orig) new
    else a :: merge orig new

def cookieName : Bytes := ascii "vhttp_casper="

def cookieAttributes : Bytes := ascii "; Path=/; Expires=Tue, 01 Jan 2030 00:00:00 GMT; Secure"

section Calls

variable (k : Coding) (c : Casper) (path cookie : Bytes)

def calcKey : ℕ := k.hash path % 2 ^ k.capacityBits

/-- `vhttp_http2_casper_lookup`. -/
def lookup (set : Bool) : Bool × Casper :=
  match insertKey (calcKey k path) c.keys with
  | none => (true, c)
  | some keys => (false, if set then ⟨keys, none⟩ else c)

/-- The keys of a cookie, if it is accepted. The room for them is doubled until it is enough. -/
def decodeCookie : List ℕ :=
  if cookieName.length < cookie.length ∧ cookieName <+: cookie then
    ((range (k.capacityBits - 7 + 1)).findSome? fun i =>
      k.decode (128 * 2 ^ i) (cookie.drop cookieName.length)).getD []
  else []

/-- `vhttp_http2_casper_consume_cookie`. -/
def consumeCookie : Casper := { c with keys := merge c.keys (decodeCookie k cookie) }

/-- What `vhttp_http2_casper_get_cookie` makes of keys. -/
def encodeCookie (keys : List ℕ) : Bytes := cookieName ++ k.encode keys ++ cookieAttributes

/-- `vhttp_http2_casper_get_cookie`. -/
def getCookie : Option Bytes × Casper :=
  if c.cookieCache ≠ none ∨ c.keys = [] then (c.cookieCache, c)
  else (some (encodeCookie k c.keys), { c with cookieCache := some (encodeCookie k c.keys) })

/-- What is reached by calls, with the keys that have been set or received; `ok` says when cookies
are received. -/
inductive Reach (ok : Casper → Bytes → Prop) : Casper → Set ℕ → Prop
  | create : Reach ok ⟨[], none⟩ ∅
  | lookup {c s} (path : Bytes) (set : Bool) : Reach ok c s → Reach ok (lookup k c path set).2
      (if set then insert (calcKey k path) s else s)
  | consumeCookie {c s} (cookie : Bytes) : Reach ok c s → ok c cookie → Reach ok
      (consumeCookie k c cookie) (s ∪ {key | key ∈ decodeCookie k cookie})
  | getCookie {c s} : Reach ok c s → Reach ok (getCookie k c).2 s

/-- If a cookie is kept, what is received has no other keys. -/
def NothingNew : Prop := c.cookieCache = none ∨ decodeCookie k cookie ⊆ c.keys

/-- The keys are in order and complete, and the cookie that is kept is theirs. -/
structure Sound (s : Set ℕ) : Prop where
  sorted : c.keys.SortedLT
  mem : ∀ key, key ∈ c.keys ↔ key ∈ s
  cache : ∀ cookie ∈ c.cookieCache, c.keys ≠ [] ∧ cookie = encodeCookie k c.keys

end Calls

variable {k : Coding} {c : Casper} {l l' : List ℕ} {s : Set ℕ} {key : ℕ}

lemma sortedLT_cons {a : ℕ} : (a :: l).SortedLT ↔ (∀ x ∈ l, a < x) ∧ l.SortedLT := by
  rw [sortedLT_iff_pairwise, sortedLT_iff_pairwise, pairwise_cons]

/-- What is before the first key is before all of them. -/
lemma lt_of_mem {a b x : ℕ} (h : (b :: l).SortedLT) (ha : a < b) (hx : x ∈ b :: l) : a < x := by
  rcases mem_cons.1 hx with rfl | hx
  · exact ha
  · exact ha.trans ((sortedLT_cons.1 h).1 x hx)

lemma mem_of_insertKey_none (h : insertKey key l = none) : key ∈ l := by
  fun_induction insertKey key l <;> grind [Option.map_eq_none_iff]

/-- A key that is not found is inserted in its place. -/
lemma insertKey_some (h : insertKey key l = some l') :
    (∀ x, x ∈ l' ↔ x = key ∨ x ∈ l) ∧ (l.SortedLT → l'.SortedLT) := by
  fun_induction insertKey key l generalizing l' with
  | case1 =>
    cases h
    exact ⟨fun x => mem_cons, fun hs => sortedLT_cons.2 ⟨nofun, hs⟩⟩
  | case2 => cases h
  | case3 e es hle hne =>
    cases h
    have hlt := lt_of_le_of_ne hle hne
    exact ⟨fun x => mem_cons, fun hs => sortedLT_cons.2 ⟨fun x => lt_of_mem hs hlt, hs⟩⟩
  | case4 e es hle ih =>
    obtain ⟨es', hes, rfl⟩ := Option.map_eq_some_iff.1 h
    obtain ⟨hm, hp⟩ := ih hes
    refine ⟨fun x => by rw [mem_cons, mem_cons, hm, or_left_comm], fun hs => ?_⟩
    obtain ⟨hf, hs⟩ := sortedLT_cons.1 hs
    refine sortedLT_cons.2 ⟨fun x hx => ?_, hp hs⟩
    rcases (hm x).1 hx with rfl | hx
    · exact not_le.1 hle
    · exact hf x hx

lemma mem_merge (x : ℕ) : x ∈ merge l l' ↔ x ∈ l ∨ x ∈ l' := by
  fun_induction merge l l' with
  | case1 | case2 => simp
  | case3 a orig b new _ ih => rw [mem_cons, ih, mem_cons, mem_cons, or_assoc]
  | case4 a orig b new _ _ ih => rw [mem_cons, ih, mem_cons, mem_cons, or_left_comm]
  | case5 a orig b new h h' ih =>
    have he : a = b := by omega
    rw [mem_cons, ih, mem_cons, mem_cons, he, or_or_distrib_left]

/-- The merge takes the smaller one of the two first keys, or both if they are equal. -/
lemma sorted_merge (h : l.SortedLT) (h' : l'.SortedLT) : (merge l l').SortedLT := by
  fun_induction merge l l' with
  | case1 => exact h'
  | case2 => exact h
  | case3 a orig b new hlt ih =>
    obtain ⟨hf, hs⟩ := sortedLT_cons.1 h
    refine sortedLT_cons.2 ⟨fun x hx => ?_, ih hs h'⟩
    exact ((mem_merge x).1 hx).elim (hf x) (lt_of_mem h' hlt)
  | case4 a orig b new _ hlt ih =>
    obtain ⟨hf, hs⟩ := sortedLT_cons.1 h'
    refine sortedLT_cons.2 ⟨fun x hx => ?_, ih h hs⟩
    exact ((mem_merge x).1 hx).elim (lt_of_mem h hlt) (hf x)
  | case5 a orig b new hn hn' ih =>
    obtain rfl : a = b := by omega
    obtain ⟨hf, hs⟩ := sortedLT_cons.1 h
    obtain ⟨hf', hs'⟩ := sortedLT_cons.1 h'
    refine sortedLT_cons.2 ⟨fun x hx => ?_, ih hs hs'⟩
    exact ((mem_merge x).1 hx).elim (hf x) (hf' x)

lemma sorted_decodeCookie (k : Coding) (cookie : Bytes) : (decodeCookie k cookie).SortedLT := by
  unfold decodeCookie
  split
  · cases hs : findSome? _ _ with
    | none => exact List.Pairwise.nil.sortedLT
    | some keys =>
      obtain ⟨i, -, hi⟩ := exists_of_findSome?_eq_some hs
      exact k.sorted hi
  · exact List.Pairwise.nil.sortedLT

lemma Sound.lookup (h : Sound k c s) (path : Bytes) (set : Bool) :
    Sound k (lookup k c path set).2 (if set then insert (calcKey k path) s else s) := by
  unfold Casper.lookup
  split
  · next hn =>
    have hm := (h.mem _).1 (mem_of_insertKey_none hn)
    rw [Set.insert_eq_of_mem hm, ite_self]
    exact h
  · next keys hs =>
    obtain ⟨hm, hp⟩ := insertKey_some hs
    cases set with
    | false => exact h
    | true => exact ⟨hp h.sorted, by simp [hm, h.mem], nofun⟩

lemma Sound.consumeCookie (h : Sound k c s) {cookie : Bytes} (ho : NothingNew k c cookie) :
    Sound k (consumeCookie k c cookie) (s ∪ {key | key ∈ decodeCookie k cookie}) := by
  have hp := sorted_merge h.sorted (sorted_decodeCookie k cookie)
  refine ⟨hp, fun key => by simp [Casper.consumeCookie, mem_merge, h.mem], fun old hc => ?_⟩
  obtain hn | hs := ho
  · cases hn.symm.trans hc
  · have he : merge c.keys (decodeCookie k cookie) = c.keys := by
      refine hp.eq_of_mem_iff h.sorted fun key => ?_
      rw [mem_merge, or_iff_left_of_imp (@hs key)]
    rw [Casper.consumeCookie, he]
    exact h.cache old hc

lemma Sound.getCookie (h : Sound k c s) : Sound k (getCookie k c).2 s ∧
    (Casper.getCookie k c).1 = if c.keys = [] then none else some (encodeCookie k c.keys) := by
  unfold Casper.getCookie
  split
  · next hc =>
    refine ⟨h, ?_⟩
    cases hk : c.cookieCache with
    | none => rw [if_pos (hc.resolve_left (not_not.2 hk))]
    | some cookie =>
      obtain ⟨hn, rfl⟩ := h.cache cookie hk
      exact (if_neg hn).symm
  · next hc =>
    have hn := fun hk => hc (.inr hk)
    refine ⟨⟨h.sorted, h.mem, fun cookie hk => ?_⟩, (if_neg hn).symm⟩
    cases hk
    exact ⟨hn, rfl⟩

/-- **The keys are those that have been set or received**, and the cookie stands for all of them as
long as nothing new is received while a cookie is kept. -/
theorem getCookie_of_reach (h : Reach k (NothingNew k) c s) :
    c.keys.SortedLT ∧ (∀ key, key ∈ c.keys ↔ key ∈ s) ∧
      (getCookie k c).1 = if c.keys = [] then none else some (encodeCookie k c.keys) := by
  have hs : Sound k c s := by
    induction h with
    | create => exact ⟨List.Pairwise.nil.sortedLT, by simp, nofun⟩
    | lookup path set _ ih => exact ih.lookup path set
    | consumeCookie cookie _ ho ih => exact ih.consumeCookie ho
    | getCookie _ ih => exact ih.getCookie.1
  exact ⟨hs.sorted, hs.mem, hs.getCookie.2⟩

lemma insertKey_eq_none_iff (h : l.SortedLT) : insertKey key l = none ↔ key ∈ l := by
  refine ⟨mem_of_insertKey_none, fun hm => ?_⟩
  fun_induction insertKey key l <;> grind [pairwise_cons]

/-- A path is found if and only if its key has been set or received, in any order of calls. -/
theorem lookup_of_reach {ok : Casper → Bytes → Prop} (h : Reach k ok c s) (path : Bytes)
    (set : Bool) : (lookup k c path set).1 = true ↔ calcKey k path ∈ s := by
  -- what is kept for the cookie may be out of date, and is left out
  have hs : Sound k ⟨c.keys, none⟩ s := by
    induction h with
    | create => exact ⟨List.Pairwise.nil.sortedLT, by simp, by simp⟩
    | lookup path set _ ih =>
      have hl := ih.lookup path set
      unfold Casper.lookup at hl ⊢
      grind
    | consumeCookie cookie _ _ ih => exact ih.consumeCookie (.inl rfl)
    | getCookie _ ih =>
      unfold Casper.getCookie
      split <;> exact ih
  rw [← hs.mem, ← insertKey_eq_none_iff hs.sorted]
  unfold Casper.lookup
  split <;> simp [*]

/-- A coding of keys that are octets. -/
def octets : Coding where
  capacityBits := 8
  hash := length
  encode keys := keys.map UInt8.ofNat
  decode n value :=
    if value.length ≤ n ∧ (value.map UInt8.toNat).SortedLT then some (value.map UInt8.toNat)
    else none
  sorted h := by
    obtain ⟨⟨-, hs⟩, h⟩ := Option.ite_none_right_eq_some.1 h
    exact Option.some.inj h ▸ hs

/-- The cookie of one key. -/
def keyCookie (key : UInt8) : Bytes := cookieName ++ [key]

lemma decode_keyCookie : ∀ key, decodeCookie octets (keyCookie key) = [key.toNat] := by
  decide +kernel

/-- A cookie is received when none is kept, a path is set, and when a cookie is kept one is received
whose key is known. -/
theorem getCookie_of_reach_known : ∃ c s, Reach octets (NothingNew octets) c s ∧
    c.cookieCache.isSome ∧ (getCookie octets c).1 = some (encodeCookie octets [0, 7]) := by
  have h : Reach octets (NothingNew octets) _ _ :=
    .getCookie (.lookup [] true (.consumeCookie (keyCookie 7) .create (.inl rfl)))
  have hk : (consumeCookie octets ⟨[], none⟩ (keyCookie 7)).keys = [7] := by
    unfold consumeCookie
    rw [decode_keyCookie, merge]
    rfl
  unfold lookup at h
  rw [hk] at h
  have h' := Reach.consumeCookie (keyCookie 0) h (.inr (by rw [decode_keyCookie]; decide))
  refine ⟨_, _, h', rfl, (getCookie_of_reach h').2.2.trans ?_⟩
  show (if merge [0, 7] (decodeCookie octets (keyCookie 0)) = [] then none
    else some (encodeCookie octets (merge [0, 7] (decodeCookie octets (keyCookie 0))))) = _
  rw [decode_keyCookie]
  simp [merge]

/-- A path is found whose key was received while a cookie was kept. -/
theorem lookup_of_reach_received : ∃ c s, Reach octets (fun _ _ => True) c s ∧
    (lookup octets c (ascii "/a/path") true).1 = true := by
  have h : Reach octets (fun _ _ => True) _ _ :=
    .consumeCookie (keyCookie 7) (.getCookie (.lookup [] true .create)) trivial
  refine ⟨_, _, h, (lookup_of_reach h (ascii "/a/path") true).2 (.inr ?_)⟩
  show 7 ∈ decodeCookie octets (keyCookie 7)
  rw [decode_keyCookie]
  exact mem_singleton_self 7

/-- A cookie that is received after one has been made is not in what is returned. -/
theorem getCookie_stale : ∃ c s, Reach octets (fun _ _ => True) c s ∧ c.keys = [0, 7] ∧
    (getCookie octets c).1 = some (encodeCookie octets [0]) ∧
    encodeCookie octets [0] ≠ encodeCookie octets [0, 7] := by
  refine ⟨_, _, .consumeCookie (keyCookie 7) (.getCookie (.lookup [] true .create)) trivial,
    ?_, rfl, by decide⟩
  show merge [0] (decodeCookie octets (keyCookie 7)) = _
  rw [decode_keyCookie]
  simp [merge]

end Casper

end Vhttp.Http2
