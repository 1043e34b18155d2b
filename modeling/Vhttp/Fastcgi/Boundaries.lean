import Vhttp.Fastcgi.Response

/-!
# Record boundaries

The fields and the body of a response are the contents of the `FCGI_STDOUT` records, one after
another; where one record ends and the next begins should not matter.

* `sameReply_iff`: it matters if and only if the fields are in more than one record, the last of
  these has some of the body, a length is announced and that much has come.
* `sameReply_straddling`: then the octets of the body in that record are not counted.
-/

namespace Vhttp.Fastcgi

open Nat List Option
open Http1Client (Field)

/-! ## What the client should get -/

/-- The content of the response. -/
def contentOf (rs : List Record) : Bytes :=
  rs.flatMap fun r => if r.type = stdout then r.content else []

/-- The fields of a response and their length, if they are complete. -/
def headOf (env : Env) (xs : Bytes) : Option (ℕ × List Field) :=
  match env.parseHeaders xs 0 with
  | .complete len fields => some (len, fields)
  | _ => none

/-- `phr_parse_headers` is an incremental parser: what follows the fields does not matter, to
resume gives what starting again would give, and an error is not mended by what follows. -/
structure Correct (env : Env) : Prop where
  bound : ∀ {xs len fields}, headOf env xs = some (len, fields) → 0 < len ∧ len ≤ xs.length
  append : ∀ {xs len fields} (ys : Bytes), headOf env xs = some (len, fields) →
    headOf env (xs ++ ys) = some (len, fields)
  resume : ∀ {xs} (ys : Bytes) {len fields}, headOf env xs = none →
    (env.parseHeaders (xs ++ ys) xs.length = .complete len fields ↔
      headOf env (xs ++ ys) = some (len, fields))
  error : ∀ {xs ys} (zs : Bytes), headOf env xs = none →
    env.parseHeaders (xs ++ ys) xs.length = .error → headOf env (xs ++ ys ++ zs) = none

/-- The response that has this content: with a `content-length` the first octets of the body, and
the end only if there are so many. -/
def expected (env : Env) (content : Bytes) : Reply :=
  match headOf env content with
  | none => .unavailable
  | some (len, fields) =>
    match fillHeaders env.date fields with
    | .error _ => .unavailable
    | .ok head =>
      match head.contentLength with
      | none => .done head (content.drop len) .final
      | some size =>
        .done head ((content.drop len).take size)
          (if size ≤ (content.drop len).length then .final else .error)

/-- Whatever the reads and whenever the client takes what is sent, it gets the response that has
this content. -/
def SameReply (env : Env) (t : Transcript) (content : Bytes) : Prop :=
  ∀ g, Reach env Event.Roomy g t → possible g .proceed = false →
    reply g.calls = expected env content

/-- The fields end in a record that is not the first one and has some of the body, and as much has
come as was announced. -/
def Straddles (env : Env) (rs : List Record) : Prop :=
  ∃ before r after len fields head size, rs = before ++ r :: after ∧
    contentOf before ≠ [] ∧ headOf env (contentOf before) = none ∧
    headOf env (contentOf (before ++ [r])) = some (len, fields) ∧
    fillHeaders env.date fields = .ok head ∧ head.contentLength = some size ∧
    len < (contentOf (before ++ [r])).length ∧ size ≤ ((contentOf rs).drop len).length

/-! ## The body -/

section Body

variable {env : Env} {head : Head} {left : Option ℕ} {content : Bytes} {rs : List Record}

lemma contentOf_append (rs rs' : List Record) :
    contentOf (rs ++ rs') = contentOf rs ++ contentOf rs' := flatMap_append

lemma limited_append (left : Option ℕ) (xs ys : Bytes) :
    limited left xs ++ limited (left.map (· - xs.length)) ys = limited left (xs ++ ys) := by
  cases left with
  | none => rfl
  | some left => exact (take_append ..).symm

/-- What is counted off is what has come. -/
lemma Phase.append_eq (head : Head) (left : Option ℕ) (content src : Bytes) :
    Phase.append head left content src =
      .body head (left.map (· - src.length)) (content ++ limited left src) := by
  unfold Phase.append
  cases left with
  | none => rfl
  | some left =>
    have hl : left - (src.take left).length = left - src.length := by
      rw [length_take]
      omega
    exact congrArg (fun n => Phase.body head (some n) (content ++ src.take left)) hl

/-- Records of the response, or of its error log. -/
def Plain (rs : List Record) : Prop := ∀ r ∈ rs, r.type = stdout ∨ r.type = stderr

lemma foldl_body (hp : Plain rs) (left : Option ℕ) (content : Bytes) :
    (rs.map .record).foldl (Phase.next env) (.body head left content) =
      .body head (left.map (· - (contentOf rs).length))
        (content ++ limited left (contentOf rs)) := by
  induction rs generalizing left content with
  | nil =>
    change Phase.body head left content = .body head (left.map (· - 0)) (content ++ limited left [])
    rw [limited_nil, append_nil]
    cases left with
    | none | some left => rfl
  | cons r rs ih =>
    have hre := ih fun r' hr' => hp r' (mem_cons_of_mem _ hr')
    have hc : contentOf (r :: rs) = contentOf [r] ++ contentOf rs := contentOf_append [r] rs
    rw [map_cons, foldl_cons, hc, ← limited_append, ← append_assoc, length_append]
    rcases hp r mem_cons_self with hu | hr
    · have ho : contentOf [r] = r.content := by simp [contentOf, hu]
      rw [Phase.next, if_pos hu, Phase.append_eq, hre, ho, Option.map_map]
      congr 2
      funext n
      exact Nat.sub_sub n _ _
    · have hn : ¬r.type = stdout := by
        rw [hr]
        decide
      have ho : contentOf [r] = [] := by simp [contentOf, hn]
      have hs : left.map (· - ([] : Bytes).length) = left := by
        cases left with
        | none | some left => rfl
      rw [Phase.next, if_neg hn, if_pos hr, hre, ho, limited_nil, append_nil, hs,
        length_nil, zero_add]

end Body

/-! ## The fields -/

section Fields

variable {env : Env} {rs : List Record} {len : ℕ} {fields : List Field}

variable (he : Correct env)
include he

lemma headOf_nil : headOf env [] = none := by
  cases hh : headOf env [] with
  | none => rfl
  | some found =>
    obtain ⟨hpos, hl⟩ := he.bound hh
    exact absurd (lt_of_lt_of_le hpos hl) (lt_irrefl 0)

lemma headOf_of_append {xs ys : Bytes}
    (h : headOf env (xs ++ ys) = none) : headOf env xs = none := by
  cases hh : headOf env xs with
  | none => rfl
  | some found =>
    rw [he.append ys hh] at h
    cases h

omit he

variable {before : List Record} {r : Record}

lemma contentOf_stderr (h : r.type = stderr) : contentOf [r] = [] := by
  have hn : ¬r.type = stdout := by
    rw [h]
    decide
  simp [contentOf, hn]

lemma contentOf_stdout (h : r.type = stdout) : contentOf [r] = r.content := by
  simp [contentOf, h]

include he

/-- As long as the fields are not complete they are collected, or they are not fields at all. -/
lemma run_incomplete (hl : Plain rs) (h : headOf env (contentOf rs) = none) :
    Phase.run env (rs.map .record) = .starting (contentOf rs) ∨
      Phase.run env (rs.map .record) = .failed ∧
        ∀ more, headOf env (contentOf rs ++ more) = none := by
  induction rs using reverseRecOn with
  | nil => exact .inl rfl
  | append_singleton rs r ih =>
    rw [contentOf_append] at h ⊢
    rw [map_append, run_append]
    change Phase.next env (Phase.run env (rs.map .record)) (.record r) = _ ∨
      Phase.next env (Phase.run env (rs.map .record)) (.record r) = _ ∧ _
    have hb := headOf_of_append he h
    rcases ih (fun r' hr' => hl r' (mem_append_left _ hr')) hb with
      hr | ⟨hr, hv⟩
    · rw [hr]
      rcases hl r (mem_append_right _ mem_cons_self) with ho | her
      · rw [contentOf_stdout ho] at h ⊢
        rw [Phase.next, if_pos ho]
        by_cases hn : r.content = []
        · rw [if_pos hn, hn, append_nil]
          exact .inl rfl
        · rw [if_neg hn]
          unfold Phase.receive
          cases hp : env.parseHeaders (contentOf rs ++ r.content) (contentOf rs).length with
          | error => exact .inr ⟨rfl, fun more => he.error more hb hp⟩
          | incomplete => exact .inl rfl
          | complete len fields =>
            rw [(he.resume r.content hb).1 hp] at h
            cases h
      · have ht : ¬r.type = stdout := by
          rw [her]
          decide
        rw [contentOf_stderr her, append_nil, Phase.next, if_neg ht, if_pos her]
        exact .inl rfl
    · rw [hr]
      refine .inr ⟨rfl, fun more => ?_⟩
      rw [append_assoc]
      exact hv _

/-- Complete fields are completed by one of the records. -/
lemma exists_completing (h : headOf env (contentOf rs) = some (len, fields)) :
    ∃ before r after, rs = before ++ r :: after ∧ headOf env (contentOf before) = none ∧
      headOf env (contentOf (before ++ [r])) = some (len, fields) := by
  induction rs using reverseRecOn with
  | nil =>
    rw [show contentOf [] = [] from rfl, headOf_nil he] at h
    cases h
  | append_singleton rs r ih =>
    cases hb : headOf env (contentOf rs) with
    | none => exact ⟨rs, r, [], rfl, hb, h⟩
    | some found =>
      have hs := he.append (contentOf [r]) hb
      rw [← contentOf_append, h] at hs
      obtain ⟨before, r', after, rfl, hn, ho⟩ := ih (hb.trans hs.symm)
      exact ⟨before, r', after ++ [r], by simp, hn, ho⟩

/-- What the record that completes the fields does. -/
lemma next_completing (hp : Plain (before ++ [r])) (hno : headOf env (contentOf before) = none)
    (hs : headOf env (contentOf (before ++ [r])) = some (len, fields)) :
    Phase.run env ((before ++ [r]).map .record) =
      match fillHeaders env.date fields with
      | .error _ => .failed
      | .ok head =>
        if contentOf before = [] then
          .append head head.contentLength [] ((contentOf (before ++ [r])).drop len)
        else .body head head.contentLength ((contentOf (before ++ [r])).drop len) := by
  rw [contentOf_append] at hs ⊢
  have hr : Phase.run env (before.map .record) = .starting (contentOf before) := by
    rcases run_incomplete he (fun r' hr' => hp r' (mem_append_left _ hr')) hno with
      hr | ⟨-, hv⟩
    · exact hr
    · rw [hv] at hs
      cases hs
  rw [map_append, run_append, hr]
  change Phase.next env (.starting (contentOf before)) (.record r) = _
  rcases hp r (mem_append_right _ mem_cons_self) with ho | her
  · rw [contentOf_stdout ho] at hs ⊢
    have hn : ¬r.content = [] := by
      intro hn
      rw [hn, append_nil, hno] at hs
      cases hs
    rw [Phase.next, if_pos ho, if_neg hn]
    unfold Phase.receive
    rw [(he.resume r.content hno).2 hs]
    dsimp only
    cases fillHeaders env.date fields with
    | error message => rfl
    | ok head =>
      by_cases hf : contentOf before = []
      · rw [hf, nil_append]
      · simp only [hf, if_false]
  · rw [contentOf_stderr her, append_nil, hno] at hs
    cases hs

/-- The body begins in the record that completes the fields. -/
lemma drop_contentOf
    (hs : headOf env (contentOf (before ++ [r])) = some (len, fields)) (after : List Record) :
    (contentOf (before ++ r :: after)).drop len =
      (contentOf (before ++ [r])).drop len ++ contentOf after := by
  rw [show before ++ r :: after = (before ++ [r]) ++ after by simp, contentOf_append,
    drop_append_of_le_length (he.bound hs).2]

/-- The phase of a response with these fields: the content is limited, up to what shares a record
with the end of the fields if it is not the first one. -/
lemma run_complete {after : List Record} {head : Head}
    (hp : Plain (before ++ r :: after)) (hn : headOf env (contentOf before) = none)
    (hs : headOf env (contentOf (before ++ [r])) = some (len, fields))
    (hi : fillHeaders env.date fields = .ok head) :
    Phase.run env ((before ++ r :: after).map .record) = if contentOf before = [] then .body head
          (head.contentLength.map (· - ((contentOf (before ++ r :: after)).drop len).length))
          (limited head.contentLength ((contentOf (before ++ r :: after)).drop len)) else
        .body head (head.contentLength.map (· - (contentOf after).length))
          ((contentOf (before ++ [r])).drop len ++
            limited head.contentLength (contentOf after)) := by
  have ha : before ++ r :: after = (before ++ [r]) ++ after := by simp
  have hp1 : Plain (before ++ [r]) :=
    fun r' hr' => hp r' (ha ▸ mem_append_left _ hr')
  have hp2 : Plain after := fun r' hr' => hp r' (ha ▸ mem_append_right _ hr')
  rw [drop_contentOf he hs after, ha, map_append, run_append, next_completing he hp1 hn hs, hi]
  by_cases hf : contentOf before = []
  · simp only [hf, if_true]
    rw [Phase.append_eq, foldl_body hp2, nil_append, limited_append, length_append, Option.map_map]
    congr 2
    funext n
    exact Nat.sub_sub n _ _
  · simp only [hf, if_false]
    rw [foldl_body hp2]

lemma run_invalid (hp : Plain rs)
    (hs : headOf env (contentOf rs) = some (len, fields)) {message : Bytes}
    (hf : fillHeaders env.date fields = .error message) :
    Phase.run env (rs.map .record) = .failed := by
  obtain ⟨before, r, after, rfl, hn, hc⟩ := exists_completing he hs
  have ha : before ++ r :: after = (before ++ [r]) ++ after := by simp
  have hp1 : Plain (before ++ [r]) :=
    fun r' hr' => hp r' (ha ▸ mem_append_left _ hr')
  rw [ha, map_append, run_append, next_completing he hp1 hn hc, hf]
  exact foldl_failed _

end Fields

/-! ## The end -/

section End

variable {env : Env} {rs : List Record} {e : Input} {t : Transcript} {g : Generator}

/-- The end of the request: `FCGI_END_REQUEST`, or the application closes the connection. -/
def Input.EndsRequest : Input → Prop
  | .record r => r.type = endRequest
  | .cut c => c = .closed

lemma next_starting_end (hn : e.EndsRequest) (received : Bytes) :
    Phase.next env (.starting received) e = .failed := by
  cases e with
  | record r =>
    have he' : r.type = endRequest := hn
    rw [Phase.next, he']
    rfl
  | cut c => rfl

lemma next_body_end (hn : e.EndsRequest) (head : Head) (left : Option ℕ) (content : Bytes) :
    Phase.next env (.body head left content) e = .finished head left content := by
  cases e with
  | record r =>
    have he' : r.type = endRequest := hn
    rw [Phase.next, he']
    rfl
  | cut c => rfl

/-- Once the client has taken everything, the response is the one of the phase. -/
lemma reply_of_reach (hc : Reach env Event.Roomy g t) (hs : t.stopped = false)
    (hpr : possible g .proceed = false) :
    (Phase.run env t.inputs = .failed → reply g.calls = .unavailable) ∧
      ∀ head left content, Phase.run env t.inputs = .finished head left content →
        reply g.calls = .done head content (verdict left) := by
  cases accounted_of_reach (fun _ h => h) hc with
  | connecting _ _ _ _ _ _ _ hn =>
    subst hn
    refine ⟨fun h => ?_, fun _ _ _ h => ?_⟩
    · cases h
    · cases h
  | live _ _ hr =>
    refine ⟨fun h => ?_, fun _ _ _ h => ?_⟩
    · rw [h] at hr
      cases hr
    · rw [h] at hr
      cases hr
  | draining _ hl _ hf =>
    exfalso
    obtain ⟨body, hp, -⟩ := hl.sent
    have hd : g.ended = false := by
      unfold Generator.ended
      rw [hp]
    change (g.sending.inflight && !g.disposed && !g.ended) = false at hpr
    rw [hf, hl.disposed, hd] at hpr
    cases hpr
  | ended _ hh hdn =>
    refine ⟨fun h => ?_, fun _ _ _ h => ?_⟩
    · rw [hh] at h
      cases h
    · rw [hh] at h
      cases h
      exact hdn
  | failed _ hh _ hu =>
    refine ⟨fun _ => hu, fun _ _ _ h => ?_⟩
    rw [hh] at h
    cases h
  | stopped _ _ hs' =>
    rw [hs] at hs'
    cases hs'

/-- The stream is read at once. -/
lemma reach_read (env : Env) (stream : Bytes) :
    ∃ g, Reach env Event.Roomy g ⟨stream, none, false⟩ := by
  have hn : Reach env Event.Roomy .new ⟨[], none, false⟩ := .new
  have hc : Reach env Event.Roomy (Generator.onConnect env .new none) ⟨[], none, false⟩ :=
    hn.step (e := .connect none) trivial (if_pos rfl)
  exact ⟨_, hc.step (e := .read stream none) rfl (if_pos rfl)⟩

/-- There is a run with these inputs in which the client takes everything. -/
lemma exists_complete (hs : t.stopped = false) (hn : e.EndsRequest)
    (ht : t.inputs = rs.map .record ++ [e]) {head : Head} {left : Option ℕ} {content : Bytes}
    (hb : Phase.run env (rs.map .record) = .body head left content) :
    ∃ g, Reach env Event.Roomy g t ∧ reply g.calls = .done head content (verdict left) := by
  have hh : Phase.run env t.inputs = .finished head left content := by
    rw [ht, run_append, hb]
    exact next_body_end hn head left content
  suffices hc : ∃ g, Reach env Event.Roomy g t by
    obtain ⟨g, hg⟩ := hc
    exact hg.completes (fun _ h => h) trivial hs hh
  obtain ⟨g, hg⟩ := reach_read env t.stream
  obtain ⟨stream, cut, stopped⟩ := t
  cases hs
  cases cut with
  | none => exact ⟨g, hg⟩
  | some c =>
    unfold Transcript.inputs at ht
    obtain ⟨hr, hl⟩ := append_inj' ht rfl
    cases hl
    cases hn
    -- the response is not finished yet, so that there is a connection
    have hi : Transcript.inputs ⟨stream, none, false⟩ = rs.map .record :=
      (append_nil _).trans hr
    cases accounted_of_reach (fun _ h => h) hg with
    | live hk =>
      have hp : possible g .readError = true := by
        change g.sock.isSome = true
        rw [hk]
        rfl
      exact ⟨_, hg.step (e := .readError) trivial (if_pos hp)⟩
    | connecting _ _ _ _ _ _ _ ho =>
      cases ho
      rw [← hi] at hb
      cases hb
    | draining _ _ hp' | ended _ hp' | failed _ hp' =>
      rw [hi, hb] at hp'
      cases hp'
    | stopped _ _ hs => cases hs

end End

/-! ## Boundaries -/

section Boundaries

variable {env : Env} {rs : List Record} {e : Input} {t : Transcript}

lemma verdict_some (n : ℕ) : verdict (some n) = if n = 0 then .final else .error := by
  unfold verdict
  by_cases h : n = 0
  · simp [h]
  · simp [h]

lemma expected_eq {content : Bytes} {len : ℕ} {fields : List Field} {head : Head}
    (hh : headOf env content = some (len, fields)) (hf : fillHeaders env.date fields = .ok head) :
    expected env content = .done head (limited head.contentLength (content.drop len))
      (verdict (head.contentLength.map (· - (content.drop len).length))) := by
  unfold expected
  rw [hh]
  dsimp only
  rw [hf]
  dsimp only
  cases head.contentLength with
  | none => rfl
  | some size =>
    rw [map_some, verdict_some]
    simp only [Nat.sub_eq_zero_iff_le]
    rfl

/-- Octets that are not counted make no difference if there are none, if nothing is counted, or if
there are too few anyway. -/
lemma uncounted_iff (tail rest : Bytes) (announced : Option ℕ) :
    (tail ++ limited announced rest = limited announced (tail ++ rest) ∧
        verdict (announced.map (· - rest.length)) =
          verdict (announced.map (· - (tail ++ rest).length))) ↔
      tail = [] ∨ ∀ size, announced = some size → (tail ++ rest).length < size := by
  cases announced with
  | none => simp [limited]
  | some size =>
    simp only [map_some, verdict_some, some.injEq, forall_eq', Nat.sub_eq_zero_iff_le,
      length_append]
    constructor
    · rintro ⟨hb, hs⟩
      by_contra hn
      obtain ⟨ht, hz⟩ := not_or.1 hn
      have hpos : 0 < tail.length := length_pos_iff.2 ht
      have hlen := congrArg length hb
      simp only [limited, length_append, length_take] at hlen
      have hf : ¬size ≤ rest.length := by omega
      rw [if_neg hf, if_pos (Nat.le_of_not_lt hz)] at hs
      cases hs
    · rintro (rfl | hz)
      · simp
      · have hr : rest.length ≤ size := by omega
        have ha : (tail ++ rest).length ≤ size := by
          rw [length_append]
          omega
        refine ⟨?_, ?_⟩
        · change tail ++ rest.take size = (tail ++ rest).take size
          rw [take_of_length_le hr, take_of_length_le ha]
        · rw [if_neg (by omega), if_neg (by omega)]

/-- **Where the records end does not matter**, unless a record has the end of the fields and the
beginning of the body, and is not the first one. -/
theorem sameReply_iff (he : Correct env) (hplain : Plain rs) (hend : e.EndsRequest)
    (ht : t.inputs = rs.map .record ++ [e]) (hstop : t.stopped = false) :
    SameReply env t (contentOf rs) ↔ ¬Straddles env rs := by
  constructor
  · rintro hm ⟨before, r, after, len, fields, head, size, rfl, hf, hno, hs, hfi, hz, hlen, hco⟩
    have hr := run_complete he hplain hno hs hfi
    rw [if_neg hf] at hr
    obtain ⟨g, hrc, hd⟩ := exists_complete hstop hend ht hr
    have hh : headOf env (contentOf (before ++ r :: after)) = some (len, fields) := by
      have hp := he.append (contentOf after) hs
      rwa [← contentOf_append, append_assoc] at hp
    rw [drop_contentOf he hs after] at hco
    have hpr : possible g .proceed = false := by
      change (g.sending.inflight && !g.disposed && !g.ended) = false
      unfold Generator.ended
      rw [hd]
      exact Bool.and_false _
    have hq := hm g hrc hpr
    rw [hd, expected_eq hh hfi, drop_contentOf he hs after] at hq
    obtain ⟨-, hb, hst⟩ := Reply.done.inj hq
    rcases (uncounted_iff _ _ _).1 ⟨hb, hst⟩ with hn | hw
    · exact absurd (drop_eq_nil_iff.1 hn) (not_le.2 hlen)
    · exact absurd (hw size hz) (not_lt.2 hco)
  · intro ho g hrc hpr
    obtain ⟨ha, hi⟩ := reply_of_reach hrc hstop hpr
    rw [ht, run_append] at ha hi
    cases hh : headOf env (contentOf rs) with
    | none =>
      have hx : expected env (contentOf rs) = .unavailable := by
        unfold expected
        rw [hh]
      rw [hx]
      refine ha ?_
      rcases run_incomplete he hplain hh with hr | ⟨hr, -⟩
      · rw [hr]
        exact next_starting_end hend _
      · rw [hr]
        rfl
    | some found =>
      obtain ⟨len, fields⟩ := found
      cases hfi : fillHeaders env.date fields with
      | error message =>
        have hx : expected env (contentOf rs) = .unavailable := by
          unfold expected
          rw [hh]
          dsimp only
          rw [hfi]
        rw [hx]
        refine ha ?_
        rw [run_invalid he hplain hh hfi]
        rfl
      | ok head =>
        rw [expected_eq hh hfi]
        obtain ⟨before, r, after, rfl, hno, hs⟩ := exists_completing he hh
        have hr := run_complete he hplain hno hs hfi
        by_cases hf : contentOf before = []
        · rw [if_pos hf] at hr
          refine hi _ _ _ ?_
          rw [hr]
          exact next_body_end hend _ _ _
        · rw [if_neg hf] at hr
          have hre := hi head _ _ (hr ▸ next_body_end hend _ _ _)
          have hc : (contentOf (before ++ [r])).drop len = [] ∨
              ∀ size, head.contentLength = some size →
                ((contentOf (before ++ [r])).drop len ++ contentOf after).length < size := by
            by_contra hbo
            obtain ⟨hta, hw⟩ := not_or.1 hbo
            obtain ⟨size, hz, hco⟩ : ∃ size, head.contentLength = some size ∧
                ¬((contentOf (before ++ [r])).drop len ++ contentOf after).length < size := by
              simpa only [not_forall, exists_prop] using hw
            refine ho ⟨before, r, after, len, fields, head, size, rfl, hf, hno, hs,
              hfi, hz, Nat.lt_of_not_le fun hl => hta (drop_eq_nil_iff.2 hl), ?_⟩
            rw [drop_contentOf he hs after]
            exact Nat.le_of_not_lt hco
          obtain ⟨hb, hst⟩ := (uncounted_iff _ _ _).2 hc
          rw [hre, drop_contentOf he hs after, hb, hst]

end Boundaries

/-! ## A parser that knows one head -/

/-- A parser that knows these fields. -/
def knowingEnv (text : Bytes) (fields : List Field) : Env where
  parseHeaders xs _ := if text <+: xs then .complete text.length fields else .incomplete
  date := ascii "Thu, 01 Jan 1970 00:00:00 GMT"
  keepalive := false
  preferredChunkSize := 65536
  preferredChunkSize_pos := by decide

lemma headOf_knowingEnv (text : Bytes) (fields : List Field) (xs : Bytes) :
    headOf (knowingEnv text fields) xs =
      if text <+: xs then some (text.length, fields) else none := by
  unfold headOf knowingEnv
  dsimp only
  by_cases h : text <+: xs
  · rw [if_pos h, if_pos h]
  · rw [if_neg h, if_neg h]

lemma correct_knowingEnv {text : Bytes} (ht : text ≠ []) (fields : List Field) :
    Correct (knowingEnv text fields) where
  bound h := by
    rw [headOf_knowingEnv] at h
    obtain ⟨hb, hs⟩ := ite_none_right_eq_some.1 h
    cases hs
    exact ⟨length_pos_iff.2 ht, hb.length_le⟩
  append ys h := by
    rw [headOf_knowingEnv] at h ⊢
    obtain ⟨hb, hs⟩ := ite_none_right_eq_some.1 h
    rw [if_pos (hb.trans (prefix_append _ ys)), hs]
  resume {xs} ys len fields' _ := by
    rw [headOf_knowingEnv]
    unfold knowingEnv
    dsimp only
    by_cases hb : text <+: xs ++ ys
    · rw [if_pos hb, if_pos hb]
      simp
    · rw [if_neg hb, if_neg hb]
      simp
  error {xs ys} zs _ h := by
    unfold knowingEnv at h
    dsimp only at h
    split_ifs at h

/-- `content-length: 5` and the empty line. -/
def fiveEnv : Env :=
  knowingEnv (ascii "content-length: 5\r\n\r\n") [⟨ascii "content-length", ascii "5"⟩]

/-- A record on the wire, with two octets of padding. -/
def encodeRecord (r : Record) : Bytes :=
  [1, r.type, 0, 1, UInt8.ofNat (r.content.length / 256), UInt8.ofNat r.content.length, 2, 0] ++
    r.content ++ [0, 0]

/-- The end of the request. -/
def endRecord : Record := ⟨endRequest, replicate 8 0⟩

/-- The fields and a part of the body in one record. -/
def fieldsFirst : List Record :=
  [⟨stdout, ascii "content-length: 5\r\n\r\nhe"⟩, ⟨stderr, ascii "note"⟩, ⟨stdout, ascii "llo"⟩]

/-- The fields and the body share a record that is not the first. -/
def fieldsSecond : List Record :=
  [⟨stdout, ascii "content-length: 5\r\n"⟩, ⟨stdout, ascii "\r\nhello"⟩]

/-- A request with these records. -/
def requestOf (rs : List Record) : Transcript :=
  ⟨(rs ++ [endRecord]).flatMap encodeRecord, none, false⟩

/-- The first record has all of the fields. -/
theorem sameReply_fieldsFirst :
    SameReply fiveEnv (requestOf fieldsFirst) (contentOf fieldsFirst) := by
  have hp : Plain fieldsFirst := by
    unfold Plain
    decide
  have hi : (requestOf fieldsFirst).inputs = fieldsFirst.map .record ++ [.record endRecord] := by
    rfl
  have hn : (Input.record endRecord).EndsRequest := rfl
  refine (sameReply_iff (correct_knowingEnv (cons_ne_nil _ _) _) hp hn hi rfl).2 ?_
  rintro ⟨before, r, after, len, fields, head, size, hr, hne, ho, -⟩
  cases before with
  | nil => exact hne rfl
  | cons first before =>
    obtain ⟨rfl, -⟩ := List.cons.inj hr
    have hf : headOf fiveEnv (ascii "content-length: 5\r\n\r\nhe") ≠ none := by decide
    exact hf (headOf_of_append (correct_knowingEnv (cons_ne_nil _ _) _) ho)

/-- A body of five octets that is complete, and is reported as if it were not. -/
theorem sameReply_straddling :
    ¬SameReply fiveEnv (requestOf fieldsSecond) (contentOf fieldsSecond) := by
  intro h
  obtain ⟨g, hg, hp, hd⟩ : ∃ g, run fiveEnv .new [.connect none,
      .read (requestOf fieldsSecond).stream none] = some g ∧ possible g .proceed = false ∧
      reply g.calls ≠ expected fiveEnv (contentOf fieldsSecond) := exists_of_any rfl
  have hr : Reach fiveEnv Event.Roomy g (requestOf fieldsSecond) := by
    refine Reach.run .new ?_ hg
    simp [Event.Roomy]
  exact hd (h g hr hp)

end Vhttp.Fastcgi
