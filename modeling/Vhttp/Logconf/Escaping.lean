import Vhttp.Logconf.Capacity

/-!
# The text of others in a log line

What comes from a request, from its environment or from an upstream server has to be escaped in a
log line: it could end its field or the line otherwise.

* `escaped_iff`: a line consists of the texts of its elements, and those of others are escaped, if
  and only if the environment variables that are logged need no escaping.
* `env_var_ends_line`: one that ends the line.
-/

namespace Vhttp.Logconf

open List

/-! ## Escaped texts -/

/-- No control characters and no quotes but after a backslash; in JSON, a backslash has something
to escape. -/
def Escape.escaped (escape : Escape) : Bytes → Bool
  | [] => true
  | [c] => 32 ≤ c && c ≠ 34 && (escape = .apache || c ≠ 92)
  | c :: d :: text =>
    if c = 92 then 32 ≤ d && escape.escaped text
    else 32 ≤ c && c ≠ 34 && escape.escaped (d :: text)

lemma hexDigit_plain : ∀ n < 16, 32 ≤ hexDigit n ∧ hexDigit n ≠ 34 ∧ hexDigit n ≠ 92 := by decide

lemma escaped_cons {escape : Escape} {c : UInt8} {text : Bytes}
    (hc : 32 ≤ c ∧ c ≠ 34 ∧ c ≠ 92) (h : escape.escaped text = true) :
    escape.escaped (c :: text) = true := by
  cases text <;> simp_all [Escape.escaped]

/-- In the mode of Apache nothing has to stand before another character. -/
lemma escaped_apache {text : Bytes} (h : ∀ c ∈ text, 32 ≤ c ∧ c ≠ 34) :
    Escape.apache.escaped text = true := by
  fun_induction Escape.escaped .apache text with
  | case1 => rfl
  | case2 c => simpa using h c
  | case3 d text ih => simp_all
  | case4 c d text hc ih => simp_all

lemma escaped_unsafeString (escape : Escape) (src : Bytes) :
    escape.escaped (escape.unsafeString src) = true := by
  have hh (c : UInt8) := hexDigit_plain (c.toNat / 16) (by have := c.toNat_lt; omega)
  have hh' (c : UInt8) := hexDigit_plain (c.toNat % 16) (by omega)
  cases escape with
  | apache =>
    refine escaped_apache fun c hc => ?_
    obtain ⟨a, -, ha⟩ := mem_flatMap.1 hc
    unfold apacheChar at ha
    split_ifs at ha with hp
    · cases mem_singleton.1 ha
      exact ⟨hp.1, hp.2.2⟩
    · simp only [mem_cons, not_mem_nil, or_false] at ha
      rcases ha with rfl | rfl | rfl | rfl
      · decide
      · decide
      · exact ⟨(hh a).1, (hh a).2.1⟩
      · exact ⟨(hh' a).1, (hh' a).2.1⟩
  | json =>
    induction src with
    | nil => rfl
    | cons c src ih =>
      change Escape.json.escaped (jsonChar c ++ Escape.json.unsafeString src) = true
      unfold jsonChar
      split_ifs with hp hq
      · rcases hq with rfl | rfl <;> simpa [Escape.escaped] using ih
      · exact escaped_cons ⟨hp.1, not_or.1 hq⟩ ih
      · have ho := escaped_cons (hh c) (escaped_cons (hh' c) ih)
        simpa [Escape.escaped] using
          escaped_cons (c := 48) (by decide) (escaped_cons (c := 48) (by decide) ho)

/-! ## Where the texts come from -/

/-- A text in a line, of the server or of others. -/
structure Run where
  foreign : Bool
  text : Bytes

/-- The elements with one text, if it comes from a request, its environment or an upstream server. -/
def ElementType.foreign : ElementType → Bool
  | .method | .envVar _ | .query | .urlPath | .remoteUser | .authority | .hostconf
  | .inHeaderUpgrade | .error => true
  | _ => false

/-- The texts of an element; there are none for null. -/
def runs (escape : Escape) (req : Req) (e : Element) : List Run :=
  match describe escape req e with
  | .append _ text _ =>
    if e.type = .requestLine then
      [⟨true, escape.unsafeString req.method⟩, ⟨false, [32]⟩,
        ⟨true, escape.unsafeString req.path⟩, ⟨false, 32 :: stringifyProtocolVersion req.version⟩]
    else [⟨e.type.foreign, text⟩]
  | .header (value :: values) concat =>
    ⟨true, escape.unsafeString value⟩ :: (if concat then values else []).flatMap fun value =>
      [⟨false, ascii ", "⟩, ⟨true, escape.unsafeString value⟩]
  | .strftime text => [⟨false, text⟩]
  | .header [] _ | .null => []

/-- The line with the texts of one more element, and its suffix. -/
def spell (escape : Escape) (req : Req) (contents : Bytes) (e : Element) : Bytes :=
  match runs escape req e with
  | [] =>
    if e.magicallyQuotedJson then contents.dropLast ++ escape.nullexpr ++ e.suffix.drop 1
    else contents ++ escape.nullexpr ++ e.suffix
  | rs => contents ++ rs.flatMap Run.text ++ e.suffix

/-- Whatever comes from others is escaped. -/
def Escaped (conf : Conf) (req : Req) : Prop :=
  ∀ e ∈ conf.elements, ∀ run ∈ runs conf.escape req e, run.foreign = true →
    conf.escape.escaped run.text = true

variable {escape : Escape} {req : Req} {e : Element} {line line' : Line} {text : Bytes} {room : ℕ}

lemma put_bind {f : Line → Except Fault Line} (h : (put text room line >>= f) = .ok line') :
    f ⟨line.capacity, line.contents ++ text⟩ = .ok line' := by
  rw [put_eq] at h
  split_ifs at h
  · exact h
  · cases h

lemma put_ok (h : put text room line = .ok line') : line'.contents = line.contents ++ text := by
  rw [put_eq] at h
  split_ifs at h
  cases h
  rfl

lemma emitNull_contents (h : emitNull escape e line = .ok line') : line'.contents =
    if e.magicallyQuotedJson then line.contents.dropLast ++ escape.nullexpr ++ e.suffix.drop 1
    else line.contents ++ escape.nullexpr ++ e.suffix := by
  unfold emitNull at h
  dsimp only at h
  split_ifs at h ⊢
  · simpa using put_ok (put_bind h)
  · simpa using put_ok (put_bind h)

lemma emitValues_contents {values : List Bytes} {f : Line → Except Fault Line}
    (h : (emitValues escape e values line >>= f) = .ok line') :
    ∃ line1, f line1 = .ok line' ∧ line1.contents = line.contents ++
      values.flatMap fun value => ascii ", " ++ escape.unsafeString value := by
  induction values generalizing line with
  | nil => exact ⟨line, h, by simp⟩
  | cons value values ih =>
    simp only [emitValues, emitValue, bind_assoc] at h
    obtain ⟨line1, hf, hc⟩ := ih (put_bind (put_bind h))
    exact ⟨line1, hf, by simp [hc]⟩

lemma emitTime_contents {fuel bufsz : ℕ} (h : emitTime e text fuel bufsz line = .ok line') :
    line'.contents = line.contents ++ text ++ e.suffix := by
  induction fuel generalizing bufsz line with
  | zero => cases h
  | succ fuel ih =>
    rw [emitTime] at h
    split_ifs at h
    · simpa using put_ok (put_bind h)
    · simpa using ih h

/-- An element appends its texts. -/
lemma emit_contents (h : emit escape e line (describe escape req e) = .ok line') :
    line'.contents = spell escape req line.contents e := by
  unfold spell runs
  cases hd : describe escape req e with
  | null =>
    rw [hd] at h
    exact emitNull_contents h
  | append reserved text terminated =>
    rw [hd] at h
    have hc : line'.contents = line.contents ++ text ++ e.suffix := by
      cases reserved <;> simpa using put_ok (put_bind h)
    by_cases ht : e.type = .requestLine
    · unfold describe at hd
      simp only [ht] at hd
      split_ifs at hd
      cases hd
      simp [hc, ht]
    · simp [hc, ht]
  | header values concat =>
    rw [hd] at h
    cases values with
    | nil => exact emitNull_contents h
    | cons value values =>
      obtain ⟨line1, hf, hc⟩ := emitValues_contents (put_bind h)
      rw [put_ok hf, hc]
      simp [flatMap_assoc]
  | strftime text =>
    rw [hd] at h
    simpa using emitTime_contents h

lemma logElements_contents {es : List Element} (h : logElements escape req es line = .ok line') :
    line'.contents = es.foldl (spell escape req) line.contents := by
  induction es generalizing line with
  | nil =>
    cases h
    rfl
  | cons e es ih =>
    rw [logElements_cons] at h
    cases he : emit escape e line (describe escape req e) with
    | error fault =>
      rw [he] at h
      cases h
    | ok line1 =>
      rw [he] at h
      rw [foldl_cons, ← emit_contents he]
      exact ih h

/-- A text of others is escaped, unless it is the value of an environment variable. -/
lemma foreign_text {reserved : Option ℕ} {terminated : Bool}
    (h : describe escape req e = .append reserved text terminated)
    (hf : e.type.foreign = true) : (∃ src, text = escape.unsafeString src) ∨
      ∃ name, e.type = .envVar name ∧ req.env name = some text := by
  unfold describe unsafeText at h
  cases ht : e.type with
  | envVar name =>
    simp only [ht] at h
    split at h <;> cases h
    exact .inr ⟨name, rfl, ‹_›⟩
  | method | query | urlPath | remoteUser | authority | hostconf | inHeaderUpgrade | error =>
    simp only [ht] at h
    refine .inl ?_
    first
    | (cases h; exact ⟨_, rfl⟩)
    | (split at h <;> cases h
       all_goals first | exact ⟨_, rfl⟩ | exact ⟨[], by cases escape <;> rfl⟩)
  | _ => simp [ht, ElementType.foreign] at hf

/-- **The texts of others are escaped**, if and only if each environment variable that is logged
is so already. -/
theorem escaped_iff (conf : Conf) (req : Req) : (∀ size line, logRequest conf req size = .ok line →
      line.contents = conf.elements.foldl (spell conf.escape req) []) ∧
    (Escaped conf req ↔ ∀ e ∈ conf.elements, ∀ name value, e.type = .envVar name →
      req.env name = some value → conf.escape.escaped value = true) := by
  refine ⟨fun _ _ => logElements_contents, fun h e he name value ht hv => ?_,
    fun h e he run hr hf => ?_⟩
  · refine h e he ⟨true, value⟩ ?_ rfl
    simp [runs, describe, ht, hv, ElementType.foreign]
  · unfold runs at hr
    split at hr
    · rename_i text _ hd
      split_ifs at hr
      · simp only [mem_cons, not_mem_nil, or_false] at hr
        rcases hr with rfl | rfl | rfl | rfl
        · exact escaped_unsafeString _ _
        · cases hf
        · exact escaped_unsafeString _ _
        · cases hf
      · cases mem_singleton.1 hr
        rcases foreign_text hd hf with ⟨src, rfl⟩ | ⟨name, ht, hv⟩
        · exact escaped_unsafeString _ _
        · exact h e he name _ ht hv
    · simp only [mem_cons, mem_flatMap, not_mem_nil, or_false] at hr
      rcases hr with rfl | ⟨value, -, rfl | rfl⟩
      · exact escaped_unsafeString _ _
      · cases hf
      · exact escaped_unsafeString _ _
    · cases mem_singleton.1 hr
      cases hf
    · cases hr
    · cases hr

/-- A request with an environment variable of two lines. -/
def twoLines : Req := { loggedReq none with env := fun _ => some [97, 10, 98] }

/-- The line break of the variable is in the log. -/
theorem env_var_ends_line : ¬Escaped (oneElement (.envVar (ascii "NAME"))) twoLines ∧
      ((logRequest (oneElement (.envVar (ascii "NAME"))) twoLines 4096).toOption.map
        fun line => line.contents) = some [97, 10, 98, 10] := by
  refine ⟨fun h => ?_, rfl⟩
  exact absurd (h _ mem_cons_self ⟨true, [97, 10, 98]⟩ mem_cons_self rfl) (by decide)

end Vhttp.Logconf
