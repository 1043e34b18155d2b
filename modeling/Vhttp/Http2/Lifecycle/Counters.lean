import Vhttp.Lib.Tally
import Vhttp.Http2.Lifecycle.Steps

/-!
# The counters of streams: the connection

Every function that works on a stream keeps the counters in step with it, so that in every state
the counters are the tally of the streams (`Balanced`).

* `counters_of_reach`: every counter is the number of streams in the condition it stands for, and
  closing the connection fails no assertion.
-/

namespace Vhttp.Http2.Lifecycle

open List Tally Option Finset
open Option (bind_eq_some_iff)

namespace Cell

variable {c c' : Cell}

/-! ## Closing -/

lemma ensureDelivered_total : ∃ c', c.ensureDelivered = some c' := by
  unfold ensureDelivered
  split
  · next hd =>
    unfold deliverClose setReqBodyState
    have hr : rank c.stream.reqBodyState < rank .closeDelivered := by
      cases h : c.stream.reqBodyState <;> simp_all [rank]
    rw [if_pos hr]
    rw [if_pos rfl, if_neg (by simp)]
    split_ifs <;> exact ⟨_, rfl⟩
  · exact ⟨c, rfl⟩

lemma ensureUnblocked_total : ∃ c', c.ensureUnblocked = some c' := by
  unfold ensureUnblocked
  split
  · next hl =>
    unfold setBlockedByServer
    rw [if_neg (by simp [hl])]
    exact ⟨_, rfl⟩
  · exact ⟨c, rfl⟩

lemma ensureEnded_total (ho : c.Ok) : ∃ c', c.ensureEnded = some c' := by
  unfold ensureEnded
  split
  · exact ⟨c, rfl⟩
  · next he =>
    obtain ⟨slot, hsl⟩ : ∃ slot, c.stream.slot = some slot := by
      rw [ho.slot]
      cases hs : c.stream.state <;> first | exact ⟨_, rfl⟩ | exact absurd hs he
    obtain ⟨c1, hl⟩ : ∃ c1, c.leaveCounters slot = some c1 := by
      unfold leaveCounters
      cases hs : c.stream.state <;> first | exact ⟨_, rfl⟩ | exact absurd hs he
    unfold setState
    dsimp only
    rw [hsl, bind_eq_bind, bind_some, hl]
    exact ensureUnblocked_total

/-- A stream in one of its phases can be closed: no assertion fails, and it is in no list
afterwards. -/
lemma streamClose_total (hp : c.stream.Phase) (ho : c.Ok) :
    ∃ c', c.streamClose = some c' ∧ c'.stream.link = none := by
  obtain ⟨c1, hd⟩ : ∃ c1, c.ensureDelivered = some c1 := ensureDelivered_total
  obtain ⟨s, he, ht, hk, -⟩ := ensureDelivered_becomes hd
  obtain ⟨c2, hu⟩ : ∃ c2, c1.ensureUnblocked = some c2 := ensureUnblocked_total
  have hn := ensureUnblocked_becomes hu
  obtain ⟨c3, hl⟩ : ∃ c3, c2.unlinkByState = some c3 := by
    obtain ⟨-, _, _, _, rfl⟩ := he
    obtain ⟨-, _, _, _, rfl⟩ := hn
    unfold unlinkByState
    rw [ht, hk]
    split
    · next ht => exact ⟨_, if_pos (hp.early (.inl ht)).1⟩
    · next ht => exact ⟨_, if_pos (hp.early (.inr ht)).1⟩
    · next ht =>
      rw [if_neg (by simp [(hp.reqPending ht).1])]
      exact ⟨_, rfl⟩
    all_goals exact ⟨_, rfl⟩
  obtain rfl := unlinkByState_eq hl
  have hs := he.1.trans (hn.1.trans unlink_becomes.1)
  obtain ⟨c4, hen⟩ := ensureEnded_total (hs ho).1
  refine ⟨{ c4 with registered := false }, ?_, ?_⟩
  · unfold streamClose unregisterStream
    simp [hd, hu, hl, hen]
  · obtain ⟨-, _, _, _, rfl⟩ := ensureEnded_becomes hen
    rfl

end Cell

namespace Conn

variable {conn conn' : Conn} {e : Event} {i j : ℕ}

/-! ## The tally of the streams -/

/-- The counters are the tally of the streams. -/
structure Balanced (conn : Conn) : Prop where
  ok : ∀ i ∈ conn.ids, (conn.cell i).Ok
  num : conn.num = total weight conn.ids conn.stream

variable (hb : conn.Balanced)
include hb

/-- A function that settles what it changes. -/
lemma Balanced.put {c : Cell} (hi : i ∈ conn.ids)
    (hs : (conn.cell i).Balances c) : (conn.put i c).Balanced := by
  have hd : c.id = i := hs.id
  obtain ⟨ho, hn⟩ := hs.settles (hb.ok i hi)
  have hc : c.num = conn.num - weight i (conn.stream i) + weight i c.stream := by
    unfold Cell.others at hn
    rw [hd] at hn
    exact sub_eq_iff_eq_add.1 hn
  refine ⟨fun j hj => ?_, ?_⟩
  · by_cases hji : j = i
    · subst hji
      exact ho.congr hd.symm (put_stream c)
    · exact (hb.ok j (mem_put hj).1).congr rfl (put_stream_of_ne c hji)
  · show c.num = _
    rw [hc, hb.num]
    rcases hs.registered with hr | ⟨hr, hz⟩
    · unfold Conn.put
      rw [if_pos (show c.registered = true from hr)]
      exact (total_update hi c.stream).symm
    · unfold Conn.put
      rw [if_neg (by simp [hr]), ← hd, hz (hb.ok i hi), add_zero, hd]
      exact (total_erase hi c.stream).symm

lemma Balanced.on {f : Cell → Option Cell} (h : conn.on i f = some conn')
    (hi : i ∈ conn.ids) (hf : ∀ c, f (conn.cell i) = some c → (conn.cell i).Balances c) :
    conn'.Balanced := by
  obtain ⟨c, hc, rfl⟩ := on_eq h
  exact hb.put hi (hf c hc)

omit hb

/-- A new stream counts as an idle one. -/
lemma weight_new (i w : ℕ) : weight i (.new w) = Pi.single (.open .priority) 1 := by
  funext k
  rcases k with (_ | _ | _) | (_ | _ | _) | (_ | _ | _) | _ | _ | _ <;> rfl

include hb

lemma Balanced.openStream (hi : i ∉ conn.ids) : (conn.openStream i).Balanced := by
  refine ⟨fun j hj => ?_, ?_⟩
  · by_cases hji : j = i
    · subst hji
      have hs : ((conn.openStream j).cell j).stream = .new conn.initialWindow :=
        openStream_stream
      refine ⟨?_, ?_⟩ <;> rw [hs] <;> simp [Stream.new, slotOf]
    · exact (hb.ok j ((mem_insert.1 hj).resolve_left hji)).congr rfl (openStream_stream_of_ne hji)
  · have ht : total weight (conn.openStream i).ids (conn.openStream i).stream = _ :=
      total_insert hi (Stream.new conn.initialWindow)
    rw [ht, weight_new, ← hb.num]
    funext k
    by_cases hk : k = .open .priority <;> simp [Conn.openStream, hk]

lemma Balanced.ensureOpen : (conn.ensureOpen i).Balanced := by
  unfold Conn.ensureOpen
  split
  · exact hb
  · next hi => exact hb.openStream hi

omit hb

lemma mem_ensureOpen_self : i ∈ (conn.ensureOpen i).ids := by
  unfold Conn.ensureOpen
  split
  · next hi => exact hi
  · exact mem_insert_self i _

include hb

lemma Balanced.prepareForRequest (hi : i ∈ conn.ids)
    (h : conn.prepareForRequest i = some conn') : conn'.Balanced := by
  obtain ⟨pull, push, hr⟩ : ∃ pull push, conn.raiseMaxOpen i = _ := raiseMaxOpen_eq
  have ha : (conn.raiseMaxOpen i).Balanced := by
    rw [hr]
    exact ⟨hb.ok, hb.num⟩
  refine ha.on h (by rw [hr]; exact hi) fun c hc => ?_
  obtain ⟨-, -, hs, _, _, _, rfl⟩ := Cell.prepareForRequest_becomes hc
  exact ⟨rfl, hs, .inl rfl⟩

lemma Balanced.openRequest {endStream : Bool}
    (h : conn.openRequest i endStream = some conn') : conn'.Balanced := by
  obtain ⟨conn1, hp, h⟩ := bind_eq_some_iff.1 h
  have hi : i ∈ conn1.ids := by
    rw [(prepareForRequest_eq hp).2.1]
    exact mem_ensureOpen_self
  refine (hb.ensureOpen.prepareForRequest mem_ensureOpen_self hp).on h hi fun c hc => ?_
  cases hc
  exact ⟨rfl, .of_stream rfl, .inl rfl⟩

/-- A stream is opened for a request of the server's own. -/
lemma Balanced.execute {conn1 : Conn} {ctx : Ctx} (hi : i ∉ conn.ids)
    (hp : (conn.openStream i).prepareForRequest i = some conn1)
    (h : conn1.on i (Cell.executeOrEnqueueRequest ctx) = some conn') : conn'.Balanced := by
  have hmem : i ∈ (conn.openStream i).ids := mem_insert_self i _
  obtain ⟨-, hd, -, -, slot, blocked, hs⟩ := prepareForRequest_eq hp
  refine ((hb.openStream hi).prepareForRequest hmem hp).on h (hd ▸ hmem) fun c hc => ?_
  have hg : Cell.Goes False (conn1.cell i) c := Cell.executeOrEnqueueRequest_goes hc
    (congrArg Stream.state hs)
  exact hg.balances

lemma Balanced.applySettings {delta : ℤ} {is : List ℕ}
    (hs : ∀ i ∈ is, i ∈ conn.ids) (h : applySettings delta is conn = some conn') :
    conn'.Balanced := by
  induction is generalizing conn with
  | nil =>
    cases h
    exact hb
  | cons i is ih =>
    obtain ⟨conn1, ho, h⟩ := bind_eq_some_iff.1 h
    have hi := hs i mem_cons_self
    have hb1 := hb.on ho hi fun c hc => (settingsCell_resized hc).2.1
    obtain ⟨c, hc, rfl⟩ := on_eq ho
    refine ih hb1 (fun j hj => ?_) h
    have hr : c.registered = true := (settingsCell_resized hc).1
    unfold Conn.put
    rw [if_pos hr]
    exact hs j (mem_cons_of_mem i hj)

lemma Balanced.emitWritereq {room : ℕ} {readOk : Bool} (hi : i ∈ conn.ids)
    (h : conn.emitWritereq i room readOk = some conn') : conn'.Balanced := by
  obtain ⟨⟨c, frame⟩, he, h⟩ := bind_eq_some_iff.1 h
  have hg : Cell.Goes False (conn.cell i) c := .inr (Cell.emitWritereqOfOpenref_stays he)
  have hp := hb.put hi hg.balances
  cases frame <;> cases h
  · exact hp
  · exact ⟨hp.ok, hp.num⟩

/-! ## The end of the connection -/

/-- All streams can be closed. -/
lemma Balanced.closeStreams {is : List ℕ} (hd : is.Nodup)
    (hs : ∀ i ∈ is, i ∈ conn.ids) (hp : ∀ i ∈ is, (conn.stream i).Phase) :
    ∃ conn', closeStreams is conn = some conn' ∧ conn'.Balanced ∧
      (∀ j ∈ is, (conn'.stream j).link = none) ∧ ∀ j ∉ is, conn'.stream j = conn.stream j := by
  induction is generalizing conn with
  | nil => exact ⟨conn, rfl, hb, by simp, fun _ _ => rfl⟩
  | cons i is ih =>
    obtain ⟨hn, hd⟩ := nodup_cons.1 hd
    have hi := hs i mem_cons_self
    obtain ⟨c, hc, hk⟩ :=
      Cell.streamClose_total (hp i mem_cons_self) (hb.ok i hi)
    have hne : ∀ j ∈ is, j ≠ i := fun j hj => ne_of_mem_of_not_mem hj hn
    have hl := Cell.streamClose_closes hc
    have hg : Cell.Goes False (conn.cell i) c := .inl hl
    obtain ⟨conn', h, hb', hin, ho⟩ := ih (hb.put hi hg.balances) hd (fun j hj => by
        unfold Conn.put
        rw [if_neg (by simp [hl.registered])]
        exact mem_erase.2 ⟨hne j hj, hs j (mem_cons_of_mem i hj)⟩)
      (fun j hj => by
        rw [put_stream_of_ne c (hne j hj)]
        exact hp j (mem_cons_of_mem i hj))
    refine ⟨conn', ?_, hb', ?_, ?_⟩
    · unfold Conn.closeStreams Conn.on
      rw [hc]
      exact h
    · intro j hj
      rcases List.mem_cons.1 hj with rfl | hj
      · rw [ho j hn, put_stream]
        exact hk
      · exact hin j hj
    · intro j hj
      obtain ⟨hji, hj⟩ := not_or.1 (mt List.mem_cons.2 hj)
      rw [ho j hj, put_stream_of_ne c hji]

/-- The connection can be closed: the counters are zero and the lists are empty then. -/
lemma Balanced.closeConnectionNow (hw : conn.Wf) :
    ∃ conn', conn.closeConnectionNow = some conn' ∧ conn'.Balanced := by
  have hb0 : Balanced { conn with state := .isClosing } := ⟨hb.ok, hb.num⟩
  have hmem : ∀ i, i ∈ conn.ids.sort (· ≤ ·) ↔ i ∈ conn.ids := fun i => mem_sort _
  obtain ⟨closed, hc, hb', hl, -⟩ := hb0.closeStreams (conn.ids.sort_nodup (· ≤ ·))
    (fun i hi => (hmem i).1 hi) fun i hi => hw.phase i ((hmem i).1 hi)
  have hd : closed.ids = ∅ := by
    refine eq_empty_of_forall_notMem fun j hj => ?_
    obtain ⟨hj, hn⟩ := closeStreams_ids hc hj
    exact hn ((hmem j).2 hj)
  have hu : closed.num = 0 := by
    rw [hb'.num, hd]
    exact total_empty
  refine ⟨closed, ?_, hb'⟩
  unfold Conn.closeConnectionNow
  rw [hc, bind_eq_bind, bind_some, if_pos]
  refine ⟨fun k _ => congrFun hu k, fun i hi => hl i ((hmem i).2 hi)⟩

omit hb

/-! ## Runs -/

lemma balanced_init (settings : Settings) : (initWith settings).Balanced :=
  ⟨fun i hi => absurd hi (notMem_empty i), total_empty.symm⟩

/-- Every event keeps the counters in step with the streams. -/
lemma Balanced.step (hb : conn.Balanced) (hw : conn.Wf) (h : conn.step e = some conn')
    (he : conn.Enabled e) : conn'.Balanced := by
  by_cases ht : touches e = true
  · rcases step_touches h he hw.phase False.elim ht with rfl | ⟨i, hi, c, hg, rfl⟩
    · exact hb
    · exact hb.put hi hg.balances
  cases e with
  | headers i endStream => exact hb.openRequest h
  | priority i =>
    cases h
    exact hb.ensureOpen
  | settings settings =>
    have hb0 : Balanced { conn with peerSettings := settings } := ⟨hb.ok, hb.num⟩
    exact hb0.applySettings (fun i hi => (mem_sort _).1 hi) h
  | windowUpdate i n =>
    cases n with
    | zero => exact absurd rfl ht
    | succ n =>
      have h : conn.onIfOpen i (updateWindow (n + 1)) = some conn' := h
      unfold onIfOpen at h
      split at h
      · next hi => exact hb.on h hi fun c hc => (updateWindow_updated hc False.elim).1
      · cases h
        exact hb
  | connWindowUpdate n =>
    dsimp only [Conn.step] at h
    split at h <;> cases h <;> exact ⟨hb.ok, hb.num⟩
  | goaway | sendGoaway | closeConnection =>
    cases h
    exact ⟨hb.ok, hb.num⟩
  | emit i room readOk => exact hb.emitWritereq he.2.1 h
  | push =>
    obtain ⟨conn1, hp, h⟩ := bind_eq_some_iff.1 h
    exact hb.execute hw.push.notMem hp h
  | closeConnectionNow =>
    obtain ⟨closed, hl, hb'⟩ := hb.closeConnectionNow hw
    obtain rfl := some.inj (hl.symm.trans h)
    exact hb'
  | _ => exact absurd rfl ht

lemma Reach.balanced {C : Conn → Event → Prop} (h : conn.Reach C) : conn.Balanced := by
  induction h with
  | init => exact balanced_init .default
  | upgrade h =>
    unfold upgraded at h
    obtain ⟨conn1, hp, h⟩ := bind_eq_some_iff.1 h
    exact (balanced_init _).execute (notMem_empty 1) hp h
  | step hr he _ hs ih => exact ih.step hr.wf hs he

/-- The tally of the streams is a number of streams for each counter. -/
lemma total_weight (k : Counter) : total weight conn.ids conn.stream k =
      (conn.ids.filter fun i => k.holds i (conn.stream i) = true).card := by
  unfold total weight
  rw [Finset.sum_apply, card_filter, Nat.cast_sum]
  refine sum_congr rfl fun i _ => ?_
  cases k.holds i (conn.stream i) <;> rfl

end Conn

/-- In every state of a connection each counter of `num_streams` is the number of open streams in
the condition it stands for, and no assertion fails when the connection is closed. -/
theorem counters_of_reach {conn : Conn} (h : conn.Reach fun _ _ => True) :
    (∀ k : Counter, conn.num k = (conn.ids.filter fun i => k.holds i (conn.stream i) = true).card) ∧
    ∃ closed, conn.closeConnectionNow = some closed := by
  have hb := h.balanced
  refine ⟨fun k => ?_, ?_⟩
  · rw [hb.num]
    exact Conn.total_weight k
  · obtain ⟨closed, hc, -⟩ := hb.closeConnectionNow h.wf
    exact ⟨closed, hc⟩

/-- A tunnel, and a request whose response is being sent. -/
def tunnelAndResponse : List Event :=
  [.headers 1 false, .request 1 .connect, .headers 3 true, .request 3 .plain, .runPending 3,
    .send 3 ⟨[100], .inProgress, false, false, false, false, false⟩]

/-- A tunnel next to a response that is being sent. -/
theorem counters_of_reach_tunnel : ∃ conn : Conn, (conn.Reach fun _ _ => True) ∧
    conn.num .tunnel = 1 ∧ conn.num (.open .pull) = 2 ∧ conn.num (.sendBody .pull) = 1 ∧
    ∃ closed, conn.closeConnectionNow = some closed := by
  obtain ⟨conn, hc, ht, ho, hs⟩ : ∃ conn, Conn.run (fun _ _ => True)
      tunnelAndResponse .init = some conn ∧ conn.num .tunnel = 1 ∧ conn.num (.open .pull) = 2 ∧
      conn.num (.sendBody .pull) = 1 := exists_of_any rfl
  have hr := Conn.Reach.init.run hc
  exact ⟨conn, hr, ht, ho, hs, (counters_of_reach hr).2⟩

end Vhttp.Http2.Lifecycle
