import Vhttp.Http2Client.Response

/-!
# The fields of informational responses

`on_head` appends the fields of a header block to the headers of the stream, and nothing takes them
out again: the callback of a response gets the fields of all responses that came before it on its
stream.

* `headFields_iff`: every response is passed on with its own fields if and only if none comes after
  an informational response that has fields.
-/

namespace Vhttp.Http2Client

open List Option Function
open Http2 (Frame)
open Hpack (Header Parsed parseResponse)

variable {c : Conn} {id : ℕ} {s : Stream} {frame : Frame} {env : Env}

/-! ## What is passed on -/

/-- The status and the header list that a callback passes on. -/
def Callback.head : Callback → Option (ℕ × List Header)
  | .informational status headers => some (status, headers)
  | .onHead err status headers => if err.all (· = .isEos) then some (status, headers) else none
  | _ => none

/-- The responses that have been passed on. -/
def heads (calls : List Callback) : List (ℕ × List Header) := calls.filterMap Callback.head

/-- The status and the fields of a header block, if the application is to be told. A final
response is, if its content-length is good, and an informational one, if there is a callback for
it. -/
def announces (p : Parsed) (informationalCb : Bool) : List (ℕ × List Header) :=
  if p.errDesc.isSome then []
  else if 100 ≤ p.status ∧ p.status ≤ 199 then
    if p.status = 101 ∨ !informationalCb then [] else [(p.status, p.fields)]
  else
    match extractContentLength p.fields with
    | .error _ => []
    | .ok _ => [(p.status, p.fields)]

/-- The header block that a frame completes for a stream, decoded. -/
def parsedOf (c : Conn) (id : ℕ) (frame : Frame) : Option Parsed :=
  (blockOf c id frame).bind fun block => (parseResponse c.headerTable false block.1).toOption

/-- The responses of a stream that are to be passed on, each with the fields of its own header
block. -/
def announced (id : ℕ) : Conn → List Frame → (ℕ → Env) → List (ℕ × List Header)
  | _, [], _ => []
  | c, frame :: frames, env =>
    if c.receives id .head then
      ((parsedOf c id frame).map fun p =>
        announces p ((c.streams id).any (·.informationalCb))).getD [] ++
        announced id (onFrame c frame (env 0)) frames fun i => env (i + 1)
    else []

/-- No response that is to be passed on comes after one with fields. -/
def NoLeftover (id : ℕ) : Conn → List Frame → (ℕ → Env) → Prop
  | _, [], _ => True
  | c, frame :: frames, env =>
    c.receives id .head = true →
      ((parsedOf c id frame).any (·.fields ≠ []) = true →
        announced id (onFrame c frame (env 0)) frames (fun i => env (i + 1)) = []) ∧
      NoLeftover id (onFrame c frame (env 0)) frames fun i => env (i + 1)

/-! ## One header block -/

/-- What `on_head` passes on, if the stream has these headers already. -/
def passes (headers : List Header) (p : Parsed) (informationalCb : Bool) : List (ℕ × List Header) :=
  if p.errDesc.isSome then []
  else if 100 ≤ p.status ∧ p.status ≤ 199 then
    if p.status = 101 ∨ !informationalCb then [] else [(p.status, headers ++ p.fields)]
  else
    match extractContentLength (headers ++ p.fields) with
    | .error _ => []
    | .ok _ => [(p.status, headers ++ p.fields)]

/-- A field of an earlier block does not make the content-length of a response good. -/
lemma extractContentLength_append {headers fields : List Header} {n : Option ℕ}
    (h : extractContentLength (headers ++ fields) = .ok n) :
    ∃ m, extractContentLength fields = .ok m := by
  unfold extractContentLength at h ⊢
  rw [foldlM_append] at h
  dsimp only [bind, Except.bind] at h
  split at h
  · cases h
  next start _ =>
  cases start with
  | none => exact ⟨n, h⟩
  | some k =>
    -- after a content-length there is no other one
    induction fields with
    | nil => exact ⟨none, rfl⟩
    | cons field fields ih =>
      rw [foldlM_cons] at h ⊢
      by_cases hn : field.name = .token .contentLength
      · simp only [if_pos hn] at h
        cases h
      · simp only [if_neg hn] at h ⊢
        exact ih h

lemma passes_eq_iff (headers : List Header) (p : Parsed) (informationalCb : Bool) :
    passes headers p informationalCb = announces p informationalCb ↔
      (headers ≠ [] → announces p informationalCb = []) := by
  unfold passes announces
  split
  · simp
  split
  · split
    · simp
    · simp
  · cases ho : extractContentLength p.fields with
    | error e =>
      cases ha : extractContentLength (headers ++ p.fields) with
      | error e => simp
      | ok n =>
        obtain ⟨m, hm⟩ := extractContentLength_append ha
        exact nomatch ho.symm.trans hm
    | ok n =>
      cases ha : extractContentLength (headers ++ p.fields) with
      | error e =>
        have hne : headers ≠ [] := by
          rintro rfl
          exact nomatch ho.symm.trans ha
        simpa using hne
      | ok n => simp

/-- What happens to a stream that waits for its head: these responses are passed on, and if it
still waits, it has these headers. -/
structure HeadOutcome (id : ℕ) (c c' : Conn) (passed : List (ℕ × List Header))
    (headers : List Header) : Prop where
  log : ∃ calls, c'.log id = c.log id ++ calls ∧ heads calls = passed
  stream : ∀ s', c'.streams id = some s' → s'.res = .head → s'.headers = headers

lemma headOutcome_failStream {s' : Stream} (hr : s'.res = .head) (headers : List Header) :
    HeadOutcome id c (c.failStream id s' .protocolViolation .protocol) [] headers := by
  refine ⟨⟨errorCallbacks s' .protocolViolation, update_self _ _ _, ?_⟩, ?_⟩
  · unfold errorCallbacks
    rw [hr]
    rfl
  · intro s'' hs''
    exact nomatch closeStream_self.symm.trans hs''

lemma headOutcome_onInformational {s' : Stream} (hr : s'.res = .head) :
    HeadOutcome id c (onInformational c id s' env)
      (if s'.status = 101 ∨ !s'.informationalCb then [] else [(s'.status, s'.headers)])
      s'.headers := by
  have he : ∀ {c : Conn} s'', (c.setStream id s').streams id = some s'' →
      s''.headers = s'.headers := by
    intro c s'' hs''
    rw [← some.inj (setStream_self.symm.trans hs'')]
  have hg : ∀ {c : Conn} s'', (c.closeStream id).streams id = some s'' →
      s''.headers = s'.headers := by
    intro c s'' hs''
    exact nomatch closeStream_self.symm.trans hs''
  unfold onInformational
  by_cases hs : s'.status = 101
  · rw [if_pos hs, if_pos (.inl hs)]
    exact headOutcome_failStream hr _
  rw [if_neg hs]
  by_cases hc : !s'.informationalCb
  · rw [if_pos hc, if_pos (.inr hc)]
    exact ⟨⟨[], (append_nil _).symm, rfl⟩, fun s'' hs'' _ => he s'' hs''⟩
  rw [if_neg hc, if_neg (not_or.2 ⟨hs, hc⟩)]
  have hl : (c.call id (.informational s'.status s'.headers)).log id =
      c.log id ++ [.informational s'.status s'.headers] := update_self _ _ _
  split
  · exact ⟨⟨_, hl, rfl⟩, fun s'' hs'' _ => he s'' hs''⟩
  · exact ⟨⟨_, hl, rfl⟩, fun s'' hs'' _ => hg s'' hs''⟩

lemma headOutcome_onFinalHead (c : Conn) (id : ℕ) (env : Env) {s' : Stream} (hr : s'.res = .head)
    (isEndStream : Bool) :
    (∃ calls, (onFinalHead c id s' isEndStream env).log id = c.log id ++ calls ∧
      heads calls = match extractContentLength s'.headers with
        | .error _ => []
        | .ok _ => [(s'.status, s'.headers)]) ∧
    ∀ s'', (onFinalHead c id s' isEndStream env).streams id = some s'' → s''.res ≠ .head := by
  unfold onFinalHead
  dsimp only
  cases extractContentLength s'.headers with
  | error e =>
    have hf : HeadOutcome id c (c.failStream id { s' with
        messageBodyForbidden := s'.messageBodyForbidden || s'.status == 204 || s'.status == 304 }
        .protocolViolation .protocol) [] [] := by
      apply headOutcome_failStream
      exact hr
    exact ⟨hf.log, fun s'' hs'' => nomatch closeStream_self.symm.trans hs''⟩
  | ok n =>
    refine ⟨⟨_, deliverHead_log, ?_⟩, ?_⟩
    · cases isEndStream <;> rfl
    · intro s'' hs'' hh
      rcases deliverHead_stream hs'' hr with hc | ⟨-, rfl⟩
      · exact nomatch hc.symm.trans hh
      · cases hh

/-- What a header block does to a stream that waits for its head. -/
lemma headOutcome_onHeadParsed (env : Env) (hs : c.streams id = some s) (hr : s.res = .head)
    (p : Parsed)
    (isEndStream : Bool) :
    HeadOutcome id c (onHeadParsed c id p isEndStream env) (passes s.headers p s.informationalCb)
      (s.headers ++ p.fields) ∧
    ∀ s', (onHeadParsed c id p isEndStream env).streams id = some s' → s'.res = .head →
      100 ≤ p.status ∧ p.status ≤ 199 := by
  unfold onHeadParsed passes
  rw [hs]
  dsimp only
  split
  · refine ⟨headOutcome_failStream ?_ _, fun s' hs' => ?_⟩
    · exact hr
    · exact nomatch closeStream_self.symm.trans hs'
  split
  · next hi =>
    refine ⟨?_, fun _ _ _ => hi⟩
    apply headOutcome_onInformational
    exact hr
  · have hr' : { s with status := p.status, headers := s.headers ++ p.fields }.res = .head := hr
    obtain ⟨hl, ht⟩ := headOutcome_onFinalHead c id env hr' isEndStream
    exact ⟨⟨hl, fun s' hs' hh => absurd hh (ht s' hs')⟩, fun s' hs' hh => absurd hh (ht s' hs')⟩

/-! ## A frame -/

lemma heads_eq_nil {calls : List Callback} (h : ∀ cb ∈ calls, cb.isNews = false) :
    heads calls = [] := by
  refine filterMap_eq_nil_iff.2 fun cb hc => ?_
  have hn := h cb hc
  cases cb with
  | informational status headers => cases hn
  | onHead err status headers => exact if_neg (by rw [show err.all _ = false from hn]; decide)
  | onBody err trailers | proceedReq err => rfl

lemma headOutcome_onFrame (frame : Frame) (env : Env) (hs : c.streams id = some s)
    (hr : s.res = .head) :
    HeadOutcome id c (onFrame c frame env)
      (((parsedOf c id frame).map (passes s.headers · s.informationalCb)).getD [])
      (s.headers ++ ((parsedOf c id frame).map (·.fields)).getD []) ∧
    ∀ p, parsedOf c id frame = some p → (onFrame c frame env).receives id .head = true →
      100 ≤ p.status ∧ p.status ≤ 199 := by
  -- a frame without a block, or with a block that closes the connection
  have ha : ∀ c1 s1, c1.streams id = some s1 → SameInput s s1 → c1.log id = c.log id →
      Aside id c1 (onFrame c frame env) →
      HeadOutcome id c (onFrame c frame env) [] (s.headers ++ []) := by
    intro c1 s1 hs1 hi hl h
    obtain ⟨calls, hcs, hn⟩ := h.log
    refine ⟨⟨calls, hl ▸ hcs, heads_eq_nil hn⟩, fun s' hs' hh => ?_⟩
    obtain ⟨s0, hs0, hi'⟩ := h.stream s' hs' (by rw [hh]; decide)
    obtain rfl := some.inj (hs1.symm.trans hs0)
    rw [append_nil]
    exact hi'.headers.trans hi.headers
  unfold parsedOf
  cases hb : blockOf c id frame with
  | none =>
    refine ⟨ha c s hs (.refl s) rfl (aside_onFrame hb (.inr fun s' hs' => ?_)), nofun⟩
    obtain rfl := some.inj (hs.symm.trans hs')
    rw [hr]
    decide
  | some block =>
    obtain ⟨block, isEndStream⟩ := block
    obtain ⟨c1, s1, hs1, hi, hl, hf⟩ := onFrame_head env hs hr hb
    have hr1 : s1.res = .head := hi.res.trans hr
    rw [bind_some]
    cases hp : parseResponse c.headerTable false block with
    | error e =>
      rw [hp] at hf
      refine ⟨ha c1 s1 hs1 hi hl ?_, nofun⟩
      rw [hf]
      exact aside_connectionError e
    | ok p =>
      rw [hp] at hf
      obtain ⟨ho, ht⟩ := headOutcome_onHeadParsed (c := c1.setTable p.table) env
        hs1 hr1 p isEndStream
      rw [hi.headers, hi.informationalCb] at ho
      rw [hf]
      refine ⟨⟨hl ▸ ho.log, ho.stream⟩, fun p' hp' hc => ?_⟩
      obtain rfl := some.inj hp'
      obtain ⟨s', hs', hh'⟩ := exists_of_receives hc
      exact ht s' hs' hh'

/-! ## All frames -/

lemma append_eq_append_iff_of_length {α : Type} {a b l m : List α} (h : a.length = b.length) :
    a ++ l = b ++ m ↔ a = b ∧ l = m :=
  ⟨fun he => append_inj he h, fun ⟨ha, hl⟩ => by rw [ha, hl]⟩

lemma passes_length {p : Parsed} (h : 100 ≤ p.status ∧ p.status ≤ 199) (headers : List Header)
    (informationalCb : Bool) :
    (passes headers p informationalCb).length = (announces p informationalCb).length := by
  unfold passes announces
  split
  · rfl
  · split <;> rfl

lemma announced_of_not_receives (h : c.receives id .head = false) (frames : List Frame)
    (env : ℕ → Env) : announced id c frames env = [] := by
  cases frames with
  | nil => rfl
  | cons frame frames => exact if_neg (by rw [h]; decide)

lemma noLeftover_of_not_receives (h : c.receives id .head = false) (frames : List Frame)
    (env : ℕ → Env) : NoLeftover id c frames env := by
  cases frames with
  | nil => trivial
  | cons frame frames =>
    intro hr
    exact nomatch h.symm.trans hr

/-- The same for a stream that has headers already. -/
lemma heads_callsWhile_iff (frames : List Frame) (env : ℕ → Env) (headers : List Header)
    (hh : ∀ s, c.streams id = some s → s.res = .head → s.headers = headers) :
    heads (callsWhile .head id c frames env) = announced id c frames env ↔
      (headers ≠ [] → announced id c frames env = []) ∧ NoLeftover id c frames env := by
  induction frames generalizing c env headers with
  | nil => exact ⟨fun _ => ⟨fun _ => rfl, trivial⟩, fun _ => rfl⟩
  | cons frame frames ih =>
    by_cases hr : c.receives id .head = true
    · obtain ⟨s, hs, he⟩ := exists_of_receives hr
      obtain ⟨ho, ht⟩ := headOutcome_onFrame frame (env 0) hs he
      obtain ⟨calls, hcs, ha⟩ := ho.log
      rw [hh s hs he] at ho ha
      have hre := ih (fun i => env (i + 1)) _ ho.stream
      have hb : (c.streams id).any (·.informationalCb) = s.informationalCb := by
        rw [hs]
        rfl
      have hc : heads (callsWhile .head id c (frame :: frames) env) =
          ((parsedOf c id frame).map (passes headers · s.informationalCb)).getD [] ++
            heads (callsWhile .head id (onFrame c frame (env 0)) frames fun i => env (i + 1)) := by
        rw [callsWhile, if_pos hr, newCalls_of_log hcs, ← ha]
        exact filterMap_append
      rw [hc, announced, if_pos hr, NoLeftover, forall_prop_of_true hr, hb]
      cases hp : parsedOf c id frame with
      | none =>
        rw [hp, map_none, getD_none, append_nil] at hre
        simpa using hre
      | some p =>
        rw [hp, map_some, getD_some] at hre
        simp only [map_some, getD_some, any_some, decide_eq_true_eq]
        by_cases hn : (onFrame c frame (env 0)).receives id .head = true
        · -- an informational response: the next one gets its fields as well
          have hlen := passes_length (ht p hp hn) headers s.informationalCb
          rw [append_eq_append_iff_of_length hlen, passes_eq_iff, hre]
          simp only [ne_eq, append_eq_nil_iff]
          tauto
        · rw [Bool.not_eq_true] at hn
          have hno := noLeftover_of_not_receives hn frames fun i => env (i + 1)
          rw [announced_of_not_receives hn, callsWhile_of_not_receives hn]
          simpa [heads, hno] using passes_eq_iff headers p s.informationalCb
    · rw [Bool.not_eq_true] at hr
      rw [announced_of_not_receives hr, callsWhile_of_not_receives hr]
      exact ⟨fun _ => ⟨fun _ => rfl, noLeftover_of_not_receives hr _ _⟩, fun _ => rfl⟩

/-- A stream that waits for its response gets every response with its own fields if and only if
none comes after an informational response that has fields. -/
theorem headFields_iff (hs : c.streams id = some s) (hheaders : s.headers = []) (frames : List Frame)
    (env : ℕ → Env) : heads (callsWhile .head id c frames env) = announced id c frames env ↔
      NoLeftover id c frames env := by
  rw [heads_callsWhile_iff frames env [] fun s' hs' _ => ?_]
  · exact ⟨fun h => h.2, fun h => ⟨fun hne => absurd rfl hne, h⟩⟩
  · obtain rfl := some.inj (hs.symm.trans hs')
    exact hheaders

/-- An informational response with a field, and the final response, which has none. -/
theorem headFields_left_over : ∃ c, Reach (fun _ _ => True) c ∧
    (∃ s, c.streams 1 = some s ∧ s.headers = []) ∧ ∃ frames env,
      heads (callsWhile .head 1 c frames env) ≠ announced 1 c frames env := by
  refine ⟨twoRequests, reach_twoRequests, ⟨_, rfl, rfl⟩,
    [⟨1, 4, 1, [0x08, 3, 0x31, 0x30, 0x33, 0, 1, 97, 1, 98]⟩, ⟨1, 5, 1, [0x88]⟩],
    fun _ => acceptAll, ?_⟩
  decide

/-- An informational response without fields, and the final response with one. -/
theorem headFields_iff_response : announced 1 twoRequests [⟨1, 4, 1, [0x08, 3, 0x31, 0x30, 0x33]⟩,
        ⟨1, 5, 1, [0x88, 0, 1, 97, 1, 98]⟩] (fun _ => acceptAll) = [(200, [⟨.text [97], [98]⟩])] ∧
    NoLeftover 1 twoRequests [⟨1, 4, 1, [0x08, 3, 0x31, 0x30, 0x33]⟩,
      ⟨1, 5, 1, [0x88, 0, 1, 97, 1, 98]⟩] (fun _ => acceptAll) := by
  refine ⟨rfl, ?_⟩
  have hs : twoRequests.streams 1 = some (newStream (Conn.new 65536 true) plainRequest) := rfl
  refine (headFields_iff hs rfl _ _).1 ?_
  rfl

end Vhttp.Http2Client
