import Vhttp.Fastcgi.Boundaries

/-!
# Truncated responses

A response that was cut off should not look like a complete one.

* `complete_of_reach`: it does not, if the application ends responses without a `content-length` by
  `FCGI_END_REQUEST` or an empty `FCGI_STDOUT` record.
* `final_after_timeout`: if it does not, a response that is cut off by a timeout, by an unexpected
  record or by the end of the connection is completed.
-/

namespace Vhttp.Fastcgi

open List Option

/-! ## The end of a response -/

/-- After this nothing is added to a response. -/
def Input.isEnd : Input → Bool
  | .record r => !(r.type == stdout || r.type == stderr)
  | .cut _ => true

variable (env : Env) (inputs : List Input) (head : Head) (body : Bytes)

/-- What comes before the end. -/
def beforeEnd : List Input := inputs.takeWhile fun i => !i.isEnd

/-- What ends the response. -/
def ending : Option Input := (inputs.dropWhile fun i => !i.isEnd).head?

/-- The application has sent `FCGI_END_REQUEST` or an empty `FCGI_STDOUT` record. -/
def Finished : Prop :=
  (∃ content, ending inputs = some (.record ⟨endRequest, content⟩)) ∨
    .record ⟨stdout, []⟩ ∈ beforeEnd inputs

/-- The announced length has been reached, or the application has said that this is the end. -/
def Complete (inputs : List Input) : Prop :=
  match head.contentLength with
  | some size => size ≤ body.length
  | none => Finished inputs

/-- The response is cut off in the middle of its body, by a timeout or by a record that is not
expected; this much of it has come. -/
def Interrupted : Prop :=
  (∃ left, Phase.run env (beforeEnd inputs) = .body head left body) ∧
    (ending inputs = some (.cut .timeout) ∨
      ∃ r, ending inputs = some (.record r) ∧ r.type ≠ endRequest) ∧
    ¬Complete head body inputs

/-- The application says where a response without a `content-length` ends. -/
def Signalled : Prop :=
  ∀ head left body, Phase.run env (beforeEnd inputs) = .body head left body →
    head.contentLength = none → ending inputs ≠ none → Finished inputs

/-! ## Phases and lengths -/

section Phases

variable {env : Env} {inputs : List Input} {head : Head} {left : Option ℕ} {body : Bytes}

/-- What is left of the announced length: at least what has not come. -/
def Counts (head : Head) (left : Option ℕ) (body : Bytes) : Prop :=
  match head.contentLength with
  | some size => ∃ rest, left = some rest ∧ size ≤ rest + body.length
  | none => left = none

lemma counts_append (h : Counts head left body) (src : Bytes) :
    Counts head (left.map (· - (limited left src).length)) (body ++ limited left src) := by
  unfold Counts at h ⊢
  cases hs : head.contentLength with
  | none =>
    rw [hs] at h
    cases h
    rfl
  | some size =>
    rw [hs] at h
    obtain ⟨rest, rfl, hl⟩ := h
    refine ⟨rest - (limited (some rest) src).length, rfl, ?_⟩
    rw [length_append]
    omega

lemma counts_start (head : Head) (body : Bytes) : Counts head head.contentLength body := by
  unfold Counts
  cases head.contentLength with
  | none => rfl
  | some size => exact ⟨size, rfl, Nat.le_add_right _ _⟩

/-- The lengths of a phase. -/
def Phase.Counted : Phase → Prop
  | .body head left content => Counts head left content
  | .finished head left content => Counts head left content
  | _ => True

lemma counted_receive (env : Env) (received src : Bytes) :
    (Phase.receive env received src).Counted := by
  unfold Phase.receive
  cases env.parseHeaders (received ++ src) received.length with
  | error | incomplete => trivial
  | complete len fields =>
    dsimp only
    cases fillHeaders env.date fields with
    | error message => trivial
    | ok head =>
      split_ifs
      · exact counts_append (counts_start head []) _
      · exact counts_start head _

lemma counted_next {p : Phase} (h : p.Counted) (i : Input) : (p.next env i).Counted := by
  cases p with
  | starting received =>
    cases i with
    | record r =>
      rw [Phase.next]
      split_ifs
      · trivial
      · exact counted_receive env received r.content
      · trivial
      · trivial
    | cut c => trivial
  | body head left content =>
    cases i with
    | record r =>
      rw [Phase.next]
      split_ifs
      · exact counts_append h r.content
      · exact h
      · exact h
    | cut c => exact h
  | finished head left content => exact h
  | failed => trivial

lemma counted_run (env : Env) (inputs : List Input) : (Phase.run env inputs).Counted := by
  induction inputs using reverseRecOn with
  | nil => trivial
  | append_singleton inputs i ih =>
    rw [run_append]
    exact counted_next ih i

/-! ## Phases and ends -/

/-- Nothing that has come is the end. -/
def Phase.isFinished : Phase → Bool
  | .finished _ _ _ => true
  | _ => false

lemma next_not_finished {p : Phase} (h : p.isFinished = false) {i : Input}
    (hi : i.isEnd = false) : (p.next env i).isFinished = false := by
  cases i with
  | cut c => cases hi
  | record r =>
    have ht : r.type = stdout ∨ r.type = stderr := by
      simpa [Input.isEnd, or_iff_not_imp_left] using hi
    cases p with
    | starting received =>
      rw [Phase.next]
      unfold Phase.receive
      repeat' split
      all_goals rfl
    | body head left content =>
      rw [Phase.next]
      rcases ht with ho | he
      · rw [if_pos ho]
        rfl
      · rw [if_pos he]
        split_ifs
        · rfl
        · rfl
    | finished head left content => cases h
    | failed => rfl

lemma run_not_finished (h : ∀ i ∈ inputs, i.isEnd = false) :
    (Phase.run env inputs).isFinished = false := by
  induction inputs using reverseRecOn with
  | nil => rfl
  | append_singleton inputs i ih =>
    rw [run_append]
    exact next_not_finished (ih fun i' hi' => h i' (mem_append_left _ hi'))
      (h i (mem_append_right _ mem_cons_self))

lemma beforeEnd_not_end {i : Input} (h : i ∈ beforeEnd inputs) : i.isEnd = false := by
  have ht := mem_takeWhile_imp (p := fun i : Input => !i.isEnd) h
  rwa [Bool.not_eq_true'] at ht

/-- The inputs up to the end, and the end. -/
lemma run_of_ending (env : Env) {i : Input} (h : ending inputs = some i) :
    ∃ rest : List Input, Phase.run env inputs =
      rest.foldl (Phase.next env) ((Phase.run env (beforeEnd inputs)).next env i) ∧
        i.isEnd = true := by
  have hs : beforeEnd inputs ++ inputs.dropWhile (fun i => !i.isEnd) = inputs :=
    takeWhile_append_dropWhile
  obtain ⟨rest, hr⟩ : ∃ rest, inputs.dropWhile (fun i => !i.isEnd) = i :: rest :=
    head?_eq_some_iff.1 h
  refine ⟨rest, ?_, ?_⟩
  · conv_lhs => rw [← hs, hr, run_append, foldl_cons]
  · have hn := head?_dropWhile_not (fun i : Input => !i.isEnd) inputs
    rw [hr] at hn
    simpa using hn

lemma next_body_isEnd {i : Input} (hi : i.isEnd = true) :
    Phase.next env (.body head left body) i = .finished head left body := by
  cases i with
  | cut c => rfl
  | record r =>
    have ht : ¬r.type = stdout ∧ ¬r.type = stderr := by
      simpa [Input.isEnd] using hi
    rw [Phase.next, if_neg ht.1, if_neg ht.2]

/-- The end of a response that has begun. -/
lemma run_finished_of_ending {i : Input} (h : ending inputs = some i)
    (hr : Phase.run env (beforeEnd inputs) = .body head left body) :
    Phase.run env inputs = .finished head left body := by
  obtain ⟨rest, hf, hi⟩ := run_of_ending env h
  rw [hf, hr, next_body_isEnd hi, foldl_finished]

/-- A response that is finished has begun and has been ended. -/
lemma ending_of_finished (h : Phase.run env inputs = .finished head left body) :
    Phase.run env (beforeEnd inputs) = .body head left body ∧ ending inputs ≠ none := by
  cases he : ending inputs with
  | none =>
    have ha : beforeEnd inputs = inputs := by
      have hl : inputs.dropWhile (fun i => !i.isEnd) = [] := head?_eq_none_iff.1 he
      have hs : beforeEnd inputs ++ inputs.dropWhile (fun i => !i.isEnd) = inputs :=
        takeWhile_append_dropWhile
      rwa [hl, append_nil] at hs
    have hn : (Phase.run env (beforeEnd inputs)).isFinished = false :=
      run_not_finished fun i => beforeEnd_not_end
    rw [ha, h] at hn
    cases hn
  | some i =>
    refine ⟨?_, some_ne_none i⟩
    obtain ⟨rest, ho, hi⟩ := run_of_ending env he
    have hn : (Phase.run env (beforeEnd inputs)).isFinished = false :=
      run_not_finished fun i => beforeEnd_not_end
    rw [ho] at h
    cases hr : Phase.run env (beforeEnd inputs) with
    | starting received =>
      have hf : Phase.next env (.starting received) i = .failed := by
        cases i with
        | cut c => rfl
        | record r =>
          have ht : ¬r.type = stdout ∧ ¬r.type = stderr := by
            simpa [Input.isEnd] using hi
          rw [Phase.next, if_neg ht.1, if_neg ht.2]
      rw [hr, hf, foldl_failed] at h
      cases h
    | body he' left' body' =>
      rw [hr, next_body_isEnd hi, foldl_finished] at h
      cases h
      rfl
    | finished he' left' body' =>
      rw [hr] at hn
      cases hn
    | failed =>
      rw [hr] at h
      change rest.foldl (Phase.next env) .failed = _ at h
      rw [foldl_failed] at h
      cases h

end Phases

/-! ## Truncation -/

section Truncation

variable {env : Env} {g : Generator} {t : Transcript} {head : Head} {left : Option ℕ} {body : Bytes}

/-- A response whose length was not announced, or was not reached, is not final. -/
lemma verdict_eq_final (hc : Counts head left body) (h : verdict left = .final) :
    ∀ size, head.contentLength = some size → size ≤ body.length := by
  intro size hs
  unfold Counts at hc
  rw [hs] at hc
  obtain ⟨rest, rfl, hl⟩ := hc
  rw [verdict_some] at h
  split_ifs at h with hz
  omega

lemma complete_of_finished (hs : Signalled env t.inputs)
    (hp : Phase.run env t.inputs = .finished head left body) (h : verdict left = .final) :
    Complete head body t.inputs := by
  obtain ⟨hb, he⟩ := ending_of_finished hp
  have hc : Counts head left body := by
    have ho := counted_run env t.inputs
    rwa [hp] at ho
  unfold Complete
  cases hz : head.contentLength with
  | none => exact hs head left body hb hz he
  | some size => exact verdict_eq_final hc h size hz

lemma verdict_eq_or (left : Option ℕ) : verdict left = .final ∨ verdict left = .error := by
  unfold verdict
  split_ifs
  · exact .inl rfl
  · exact .inr rfl

/-- **A response that was cut off does not look complete**, as long as the application says where a
response without a `content-length` ends. -/
theorem complete_of_reach (h : Reach env Event.Roomy g t) (hsig : Signalled env t.inputs) :
    (∀ head body, reply g.calls = .done head body .final → Complete head body t.inputs) ∧
      ∀ head body, Interrupted env t.inputs head body →
        (∀ body', reply g.calls ≠ .done head body' .final) ∧
          (t.stopped = false → possible g .proceed = false →
            reply g.calls = .done head body .error) := by
  have hf : ∀ head body, reply g.calls = .done head body .final →
      ∃ left, Phase.run env t.inputs = .finished head left body ∧ verdict left = .final := by
    intro head body hdn
    cases accounted_of_reach (fun _ h => h) h with
    | connecting _ _ _ _ _ _ hw => rw [hw] at hdn; cases hdn
    | live _ _ hd =>
      generalize Phase.run env t.inputs = p at hd
      cases hd with
      | starting _ _ _ _ hw => rw [hw] at hdn; cases hdn
      | body hl =>
        obtain ⟨_, he, -⟩ := hl.sent
        rw [he] at hdn
        cases hdn
    | draining _ hl =>
      obtain ⟨_, he, -⟩ := hl.sent
      rw [he] at hdn
      cases hdn
    | ended _ hp hn =>
      rw [hn] at hdn
      obtain ⟨rfl, rfl, hv⟩ := Reply.done.inj hdn
      exact ⟨_, hp, hv⟩
    | failed _ _ _ hu => rw [hu] at hdn; cases hdn
    | stopped _ _ _ hop => exact absurd hdn (hop _ _ _)
  refine ⟨fun head body hdn => ?_, fun head body ht => ?_⟩
  · obtain ⟨left, hp, hv⟩ := hf head body hdn
    exact complete_of_finished hsig hp hv
  · obtain ⟨⟨left, hb⟩, hc, ho⟩ := ht
    obtain ⟨i, hi⟩ : ∃ i, ending t.inputs = some i := by
      rcases hc with hto | ⟨r, hr, -⟩
      · exact ⟨_, hto⟩
      · exact ⟨_, hr⟩
    have hp := run_finished_of_ending hi hb
    have her : verdict left = .error := by
      rcases verdict_eq_or left with hv | her
      · exact absurd (complete_of_finished hsig hp hv) ho
      · exact her
    refine ⟨fun body' hdn => ?_, fun hs hpr => ?_⟩
    · obtain ⟨left', hp', hv⟩ := hf head body' hdn
      rw [hp] at hp'
      cases hp'
      rw [her] at hv
      cases hv
    · have he := (reply_of_reach h hs hpr).2 head left body hp
      rwa [her] at he

end Truncation

/-- Three octets of five. -/
def threeOctets : Bytes := encodeRecord ⟨stdout, ascii "content-length: 5\r\n\r\nhel"⟩

/-- A body is cut off by a timeout. -/
theorem complete_of_reach_timeout : ∃ g head, Reach fiveEnv Event.Roomy g
    ⟨threeOctets, some .timeout, false⟩ ∧ reply g.calls = .done head (ascii "hel") .error := by
  obtain ⟨g, hg, hp⟩ : ∃ g, run fiveEnv .new [.connect none, .read threeOctets none,
      .timeout, .proceed] = some g ∧ possible g .proceed = false := exists_of_any rfl
  have hr : Reach fiveEnv Event.Roomy g ⟨threeOctets, some .timeout, false⟩ := by
    refine Reach.run .new ?_ hg
    simp [Event.Roomy]
  let head : Head := ⟨200, ascii "OK", some 5,
    [(.token .date, ascii "Thu, 01 Jan 1970 00:00:00 GMT")]⟩
  let inputs := Transcript.inputs ⟨threeOctets, some .timeout, false⟩
  have hb : Phase.run fiveEnv (beforeEnd inputs) = .body head (some 2) (ascii "hel") := by
    decide
  have he : ending inputs = some (.cut .timeout) := by
    rfl
  have hs : Signalled fiveEnv inputs := by
    intro he' left body hd hn
    rw [hb] at hd
    cases hd
    cases hn
  have hi : Interrupted fiveEnv inputs head (ascii "hel") := by
    refine ⟨⟨some 2, hb⟩, .inl he, ?_⟩
    change ¬5 ≤ (ascii "hel").length
    decide
  exact ⟨g, head, hr, ((complete_of_reach hr hs).2 head _ hi).2 rfl hp⟩

/-- No length is announced. -/
def plainEnv : Env := knowingEnv (ascii "x: y\r\n\r\n") [⟨ascii "x", ascii "y"⟩]

/-- A response without a `content-length` that is cut off by a timeout is completed. -/
theorem final_after_timeout : ∃ g t head body, Reach plainEnv Event.Roomy g t ∧
    ending t.inputs = some (.cut .timeout) ∧ reply g.calls = .done head body .final ∧
      ¬Complete head body t.inputs := by
  let stream := encodeRecord ⟨stdout, ascii "x: y\r\n\r\nhel"⟩
  let head : Head := ⟨200, ascii "OK", none, [(.text (ascii "x"), ascii "y"),
    (.token .date, ascii "Thu, 01 Jan 1970 00:00:00 GMT")]⟩
  obtain ⟨g, hg, hd⟩ : ∃ g, run plainEnv .new [.connect none, .read stream none, .timeout,
      .proceed] = some g ∧ reply g.calls = .done head (ascii "hel") .final := exists_of_any rfl
  have he : ending (Transcript.inputs ⟨stream, some .timeout, false⟩) = some (.cut .timeout) := by
    rfl
  refine ⟨g, ⟨stream, some .timeout, false⟩, head, ascii "hel", ?_, he, hd, ?_⟩
  · refine Reach.run .new ?_ hg
    simp [Event.Roomy]
  · rintro (⟨content, hn⟩ | hm)
    · rw [he] at hn
      cases hn
    · revert hm
      decide

end Vhttp.Fastcgi
