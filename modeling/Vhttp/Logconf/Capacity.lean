import Vhttp.Logconf.Basic

/-!
# The capacity of a log line

Every element should reserve what it appends, with its suffix.

* `fits_iff`: what is appended to a line fits, if and only if three kinds of elements find room by
  chance: `%{error}x`, which reserves nothing; `%q` of a request without a query, which does not
  reserve its suffix; and a number of the greatest length without a suffix, because `sprintf` also
  writes a terminator.
* `overflow_error`: an error log that is longer than what is left of the buffer.
-/

namespace Vhttp.Logconf

open GrowBuffer List Nat Buffer

/-! ## Lengths -/

lemma length_decimalText_le {n k : ℕ} (hk : 0 < k) (h : n < 10 ^ k) :
    (decimalText n).length ≤ k := by
  unfold decimalText
  rw [length_map]
  exact toDigits_length 10 n k hk h

lemma length_signedText_le (z : ℤ) : (signedText z).length ≤ 11 := by
  have hl : -(2 ^ 31) ≤ z.bmod (2 ^ 32) := Int.le_bmod (by decide)
  have hh : z.bmod (2 ^ 32) < 2 ^ 31 := Int.bmod_lt (by decide)
  have hd : (decimalText (z.bmod (2 ^ 32)).natAbs).length ≤ 10 :=
    length_decimalText_le (by decide) (by omega)
  unfold signedText
  dsimp only
  split_ifs
  · exact succ_le_succ hd
  · exact le_succ_of_le hd

lemma length_fractionDigits (k : ℕ) (usec : ℤ) : (fractionDigits k usec).length = k := by
  induction k generalizing usec with
  | zero => rfl
  | succ k ih => rw [fractionDigits, length_append, ih, length_singleton]

lemma length_durationText_le (deltaUsec : ℤ) : (durationText deltaUsec).length ≤ 18 := by
  have hs := length_signedText_le (durationSec deltaUsec)
  unfold durationText
  rw [length_append]
  split_ifs
  · rw [length_nil]
    omega
  · rw [length_cons, length_fractionDigits]
    omega

lemma length_stringifyProtocolVersion_le (version : ℕ) :
    (stringifyProtocolVersion version).length ≤ 8 := by
  unfold stringifyProtocolVersion
  split_ifs
  · exact le_refl _
  · exact le_add_right 6 2

lemma length_paddedText {width n : ℕ} (h : (decimalText n).length ≤ width) :
    (paddedText width n).length = width := by
  unfold paddedText
  rw [length_append, length_replicate]
  omega

variable (escape : Escape) (req : Req) (e : Element) (src : Bytes)

/-- No character becomes longer than `unsafe_factor`. -/
lemma length_unsafeString_le :
    (escape.unsafeString src).length ≤ src.length * escape.unsafeFactor := by
  have hl : ∀ (f : UInt8 → Bytes) (k : ℕ), (∀ c, (f c).length ≤ k) →
      (src.flatMap f).length ≤ src.length * k := by
    intro f k hf
    induction src with
    | nil => exact zero_le _
    | cons c src ih =>
      have hc := hf c
      rw [flatMap_cons, length_append, length_cons, add_mul, one_mul]
      omega
  cases escape with
  | apache =>
    refine hl apacheChar 4 fun c => ?_
    unfold apacheChar
    split_ifs <;> simp
  | json =>
    refine hl jsonChar 6 fun c => ?_
    unfold jsonChar
    split_ifs <;> simp

lemma length_nullexpr_le : escape.nullexpr.length ≤ 4 := by
  cases escape <;> decide

/-! ## Reservations -/

/-- What is reserved is enough for the text. -/
def Emission.Sound : Emission → Prop
  | .append (some n) text _ => text.length ≤ n
  | .append none _ terminated => terminated = false
  | _ => True

lemma sound_number {longest : String} {text : Bytes} (h : text.length ≤ longest.length) :
    (number longest text).Sound := h

lemma sound_uint64 (n : UInt64) : (uint64 n).Sound := by
  refine sound_number (length_decimalText_le (k := 20) (by decide) ?_)
  have hl : n.toNat < 2 ^ 64 := n.toNat_lt
  exact lt_trans hl (by decide)

lemma sound_addr (host : Option {s : Bytes // s.length < niMaxhost}) :
    (addr escape host).Sound := by
  cases host with
  | some host => exact le_of_lt host.2
  | none => exact le_trans (length_nullexpr_le escape) (by decide)

lemma sound_port (n : Option UInt16) : (port escape n).Sound := by
  cases n with
  | some n =>
    refine sound_number (length_decimalText_le (k := 5) (by decide) ?_)
    have hl : n.toNat < 2 ^ 16 := n.toNat_lt
    exact lt_trans hl (by decide)
  | none => exact le_trans (length_nullexpr_le escape) (by decide)

lemma sound_safeText (s : Option Bytes) : (safeText s).Sound := by
  cases s with
  | some s => exact le_refl s.length
  | none => trivial

lemma sound_duration (start stop : Timeval) : (duration start stop).Sound := by
  unfold duration
  cases computeDuration start stop with
  | none => trivial
  | some deltaUsec => exact length_durationText_le deltaUsec

lemma sound_timestamp {emission : Emission} (h : emission.Sound) :
    (timestamp req emission).Sound := by
  unfold timestamp
  split_ifs
  · trivial
  · exact h

lemma sound_unsafeText : (unsafeText escape src).Sound :=
  length_unsafeString_le escape src

lemma unsafeFactor_pos : 0 < escape.unsafeFactor := by
  cases escape <;> decide

lemma sound_requestLine :
    (Emission.append (some ((req.method.length + req.path.length) * escape.unsafeFactor +
        ("  HTTP/1.1".length + 1)))
      (escape.unsafeString req.method ++ [32] ++ escape.unsafeString req.path ++ [32] ++
        stringifyProtocolVersion req.version) true).Sound := by
  have hm := length_unsafeString_le escape req.method
  have hp := length_unsafeString_le escape req.path
  have hv := length_stringifyProtocolVersion_le req.version
  have hlen : "  HTTP/1.1".length = 10 := rfl
  change length _ ≤ _
  simp only [length_append, length_singleton]
  rw [add_mul, hlen]
  omega

/-- Whatever reserves room reserves enough. -/
lemma sound_describe : (describe escape req e).Sound := by
  unfold describe
  cases e.type with
  | empty => exact zero_le _
  | localAddr | remoteAddr => exact sound_addr escape _
  | bytesSent | headerBytesSent | connectionId | requestId | proxyRequestBytes
  | proxyRequestBytesHeader | proxyRequestBytesBody | proxyResponseBytes
  | proxyResponseBytesHeader | proxyResponseBytesBody => exact sound_uint64 _
  | protocol =>
    dsimp only
    split_ifs
    · trivial
    · exact le_succ_of_le (length_stringifyProtocolVersion_le _)
  | logname | inHeaderToken token | inHeaderString name | outHeaderToken token
  | outHeaderString name | outHeaderTokenConcatenated token | extendedVar name => trivial
  | method | urlPath =>
    dsimp only
    split_ifs
    · trivial
    · exact sound_unsafeText escape _
  | localPort | remotePort => exact sound_port escape _
  | envVar name =>
    dsimp only
    cases req.env name with
    | none => trivial
    | some value => exact Nat.le_mul_of_pos_right _ (unsafeFactor_pos escape)
  | query =>
    cases req.queryAt with
    | none => rfl
    | some queryAt => exact sound_unsafeText escape _
  | requestLine =>
    dsimp only
    split_ifs
    · trivial
    · exact sound_requestLine escape req
  | status =>
    dsimp only
    split_ifs
    · trivial
    · exact sound_number (length_signedText_le _)
    · exact sound_number (length_signedText_le _)
  | timestamp =>
    refine sound_timestamp req ?_
    change length _ ≤ _
    simp [req.logStr.2, timestrLogLen]
  | timestampStrftime name => exact sound_timestamp req trivial
  | timestampSecSinceEpoch =>
    refine sound_timestamp req (sound_number (length_decimalText_le (k := 10) (by decide) ?_))
    exact lt_trans (mod_lt _ (by decide)) (by decide)
  | timestampMsecSinceEpoch | timestampUsecSinceEpoch =>
    refine sound_timestamp req (sound_number (length_decimalText_le (k := 20) (by decide) ?_))
    exact lt_trans (mod_lt _ (by decide)) (by decide)
  | timestampMsecFrac =>
    have hu := req.processedAt.usec.isLt
    refine sound_timestamp req (le_of_eq (length_paddedText ?_))
    exact length_decimalText_le (by decide) (by omega)
  | timestampUsecFrac =>
    refine sound_timestamp req (le_of_eq (length_paddedText ?_))
    exact length_decimalText_le (by decide) req.processedAt.usec.isLt
  | remoteUser =>
    cases req.env (ascii "REMOTE_USER") with
    | none => trivial
    | some value => exact sound_unsafeText escape _
  | authority | hostconf => exact sound_unsafeText escape _
  | inHeaderUpgrade =>
    dsimp only
    cases req.upgrade with
    | none => trivial
    | some value => exact sound_unsafeText escape _
  | connectTime | requestHeaderTime | requestBodyTime | requestTotalTime | processTime
  | responseTime | totalTime | proxyIdleTime | proxyConnectTime | proxyRequestTime
  | proxyProcessTime | proxyResponseTime | proxyTotalTime => exact sound_duration _ _
  | error =>
    cases req.errorLogs with
    | none | some logs => rfl
  | protocolSpecific callbackIndex => exact sound_safeText _
  | proxySslProtocolVersion | proxySslCipher => exact sound_safeText _
  | proxySslSessionReused => exact le_refl _
  | proxySslCipherBits =>
    dsimp only
    split_ifs
    · trivial
    · have hl : req.proxySslCipherBits.toNat < 2 ^ 16 := req.proxySslCipherBits.toNat_lt
      exact length_decimalText_le (by decide) (lt_trans hl (by decide))

/-! ## Elements -/

section Elements

variable {escape : Escape} {e : Element} {line : Line} {text : Bytes} {n room : ℕ}

lemma put_eq (text : Bytes) (room : ℕ) (line : Line) : put text room line =
    if line.contents.length + text.length + room ≤ line.capacity then
      .ok ⟨line.capacity, line.contents ++ text⟩ else .error .overflow := by
  unfold put write
  split_ifs <;> rfl

lemma put_reserve (hpos : 0 < line.capacity) (h : text.length + room ≤ n) :
    put text room (line.reserve n) = .ok ⟨(line.reserve n).capacity, line.contents ++ text⟩ := by
  unfold put
  rw [write_reserve hpos h]

/-- A text and what follows it: they fit, or there is an overflow. -/
lemma put_put {after : Bytes} (h : after.length ≤ room) (line : Line) :
    (do
      let line ← put text room line
      put after 0 line) =
      if line.contents.length + text.length + room ≤ line.capacity then
        .ok ⟨line.capacity, line.contents ++ text ++ after⟩
      else .error .overflow := by
  rw [put_eq]
  by_cases hf : line.contents.length + text.length + room ≤ line.capacity
  · rw [if_pos hf, if_pos hf]
    change put after 0 ⟨line.capacity, line.contents ++ text⟩ = _
    rw [put_eq, length_append, if_pos (by dsimp only; omega)]
  · rw [if_neg hf, if_neg hf]
    rfl

/-- No overflow: the line goes on, and is not empty after a suffix. -/
def Safe (e : Element) : Except Fault Line → Prop
  | .ok line => 0 < line.capacity ∧ (e.suffix ≠ [] → line.contents ≠ [])
  | .error fault => fault = .endless

/-- What an element needs that it does not reserve. -/
def Room (e : Element) (line : Line) : Emission → Prop
  | .append none text _ => line.contents.length + text.length + e.suffix.length ≤ line.capacity
  | .append (some n) text true =>
    e.suffix = [] → text.length = n → line.contents.length + n < (line.reserve n).capacity
  | _ => True

lemma safe_ok {capacity : ℕ} (hpos : 0 < capacity) (contents : Bytes) :
    Safe e (.ok ⟨capacity, contents ++ e.suffix⟩) :=
  ⟨hpos, fun hs => append_ne_nil_of_right_ne_nil _ hs⟩

lemma capacity_reserve_pos (hpos : 0 < line.capacity) : 0 < (line.reserve n).capacity :=
  lt_of_lt_of_le hpos capacity_le_reserve

lemma safe_emitNull (hpos : 0 < line.capacity)
    (hq : e.magicallyQuotedJson = true → line.contents ≠ [] ∧ e.suffix ≠ []) :
    Safe e (emitNull escape e line) := by
  have ha : line.contents.length + (escape.nullexpr.length + e.suffix.length) ≤
      (line.reserve (escape.nullexpr.length + e.suffix.length)).capacity :=
    le_capacity_reserve hpos
  unfold emitNull
  by_cases hm : e.magicallyQuotedJson = true
  · obtain ⟨hc, hs⟩ := hq hm
    have ho : 0 < e.suffix.length := length_pos_iff.2 hs
    rw [if_pos hm, reserve_contents, if_neg hc, put_put (by rw [length_drop])]
    rw [if_pos]
    · refine ⟨capacity_reserve_pos hpos, fun _ => ?_⟩
      refine append_ne_nil_of_left_ne_nil (append_ne_nil_of_right_ne_nil _ ?_) _
      cases escape <;> decide
    · rw [length_dropLast]
      dsimp only
      omega
  · rw [if_neg hm, put_put (le_refl _), reserve_contents, if_pos (by omega)]
    exact safe_ok (capacity_reserve_pos hpos) _

/-- A text fits if and only if there is room for what is not reserved. -/
lemma safe_emitText {reserved : Option ℕ} {terminated : Bool} (hpos : 0 < line.capacity)
    (hn : (Emission.append reserved text terminated).Sound) :
    Room e line (.append reserved text terminated) ∧
        Safe e (emitText e reserved text terminated line) ∨
      ¬Room e line (.append reserved text terminated) ∧
        emitText e reserved text terminated line = .error .overflow := by
  -- what is written fits, or it does not
  have hc {line' : Line} {P : Prop} (hp' : 0 < line'.capacity) (room : ℕ)
      (hr : e.suffix.length ≤ room)
      (hP : P ↔ line'.contents.length + text.length + room ≤ line'.capacity) :
      P ∧ Safe e (do
          let line ← put text room line'
          put e.suffix 0 line) ∨
        ¬P ∧ (do
          let line ← put text room line'
          put e.suffix 0 line) = .error .overflow := by
    rw [put_put hr, hP]
    by_cases hf : line'.contents.length + text.length + room ≤ line'.capacity
    · rw [if_pos hf]
      exact .inl ⟨hf, safe_ok hp' _⟩
    · rw [if_neg hf]
      exact .inr ⟨hf, rfl⟩
  unfold emitText
  cases reserved with
  | none =>
    cases hn
    refine hc hpos _ (le_max_left _ _) ?_
    rw [if_neg Bool.false_ne_true, max_eq_left (zero_le _)]
    exact Iff.rfl
  | some n =>
    refine hc (capacity_reserve_pos hpos) _ (le_max_left _ _) ?_
    rw [reserve_contents]
    have ha : line.contents.length + (n + e.suffix.length) ≤
        (line.reserve (n + e.suffix.length)).capacity := le_capacity_reserve hpos
    have hlen : text.length ≤ n := hn
    cases terminated with
    | false =>
      refine ⟨fun _ => ?_, fun _ => trivial⟩
      rw [if_neg Bool.false_ne_true, max_eq_left (zero_le _)]
      omega
    | true =>
      rw [if_pos rfl]
      by_cases hs : e.suffix = []
      · -- the terminator needs an octet that was not reserved
        rw [hs, length_nil, add_zero] at ha ⊢
        change (e.suffix = [] → text.length = n →
          line.contents.length + n < (line.reserve n).capacity) ↔
            line.contents.length + text.length + 1 ≤ (line.reserve n).capacity
        constructor
        · intro hr
          by_cases hl : text.length = n
          · have ht := hr hs hl
            omega
          · omega
        · rintro hf - rfl
          exact hf
      · have ho : 0 < e.suffix.length := length_pos_iff.2 hs
        refine ⟨fun _ => ?_, fun _ h => absurd h hs⟩
        rw [max_eq_left ho]
        omega

lemma emitValue_eq (escape : Escape) (e : Element) {line : Line} (hpos : 0 < line.capacity)
    (value : Bytes) : ∃ line', emitValue escape e value line = .ok line' ∧ 0 < line'.capacity ∧
      line'.contents.length + e.suffix.length ≤ line'.capacity := by
  have hlen := length_unsafeString_le escape value
  have hc : line.contents.length + (value.length * escape.unsafeFactor + e.suffix.length) ≤
      (line.reserve (value.length * escape.unsafeFactor + e.suffix.length)).capacity :=
    le_capacity_reserve hpos
  refine ⟨_, put_reserve hpos (by omega), capacity_reserve_pos hpos, ?_⟩
  dsimp only
  rw [length_append]
  omega

lemma emitValues_eq (escape : Escape) (hpos : 0 < line.capacity)
    (hr : line.contents.length + e.suffix.length ≤ line.capacity) (values : List Bytes) :
    ∃ line', emitValues escape e values line = .ok line' ∧ 0 < line'.capacity ∧
      line'.contents.length + e.suffix.length ≤ line'.capacity := by
  induction values generalizing line with
  | nil => exact ⟨line, rfl, hpos, hr⟩
  | cons value values ih =>
    have hc : put (ascii ", ") e.suffix.length (line.reserve (2 + e.suffix.length)) = .ok _ :=
      put_reserve hpos (le_refl _)
    have hp' : 0 < (⟨(line.reserve (2 + e.suffix.length)).capacity,
        line.contents ++ ascii ", "⟩ : Line).capacity := capacity_reserve_pos hpos
    obtain ⟨line1, hv, hp1, hr1⟩ := emitValue_eq escape e hp' value
    obtain ⟨line2, ha, hp2, hr2⟩ := ih hp1 hr1
    refine ⟨line2, ?_, hp2, hr2⟩
    rw [emitValues, hc]
    change (emitValue escape e value _ >>= _) = _
    rw [hv]
    exact ha

lemma safe_emitTime (hpos : 0 < line.capacity) (fuel bufsz : ℕ) :
    Safe e (emitTime e text fuel bufsz line) := by
  induction fuel generalizing bufsz line with
  | zero => rfl
  | succ fuel ih =>
    have hc : line.contents.length + (bufsz + e.suffix.length) ≤
        (line.reserve (bufsz + e.suffix.length)).capacity := le_capacity_reserve hpos
    rw [emitTime]
    by_cases hf : text ≠ [] ∧ text.length < bufsz
    · rw [if_pos hf, put_put (le_max_left _ _), reserve_contents, if_pos]
      · exact safe_ok (capacity_reserve_pos hpos) _
      · omega
    · rw [if_neg hf]
      exact ih (capacity_reserve_pos hpos) _

/-- An element fits if and only if it finds what it does not reserve. -/
lemma safe_emit (escape : Escape) {emission : Emission} (hpos : 0 < line.capacity)
    (hs : emission.Sound)
    (hq : e.magicallyQuotedJson = true → line.contents ≠ [] ∧ e.suffix ≠ []) :
    Room e line emission ∧ Safe e (emit escape e line emission) ∨
      ¬Room e line emission ∧ emit escape e line emission = .error .overflow := by
  cases emission with
  | null => exact .inl ⟨trivial, safe_emitNull hpos hq⟩
  | append reserved text terminated => exact safe_emitText hpos hs
  | header values concat =>
    refine .inl ⟨trivial, ?_⟩
    cases values with
    | nil => exact safe_emitNull hpos hq
    | cons value values =>
      obtain ⟨line1, hv, hp1, hr1⟩ := emitValue_eq escape e hpos value
      obtain ⟨line2, ha, hp2, hr2⟩ := emitValues_eq escape hp1 hr1 (if concat then values else [])
      change Safe e (emitValue escape e value line >>= _)
      rw [hv]
      change Safe e (emitValues escape e (if concat then values else []) line1 >>= _)
      rw [ha]
      change Safe e (put e.suffix 0 line2)
      rw [put_eq, if_pos (by omega)]
      exact safe_ok hp2 _
  | strftime text => exact .inl ⟨trivial, safe_emitTime hpos _ _⟩

end Elements

/-! ## Lines -/

section Lines

variable {escape : Escape} {req : Req} {line : Line} {es : List Element} {inside : Bool}

/-- An element that leaves quotes out has a suffix, and something before it. -/
def Quoted (inside : Bool) : List Element → Prop
  | [] => True
  | e :: es => (e.magicallyQuotedJson = true → inside = true ∧ e.suffix ≠ []) ∧
    Quoted (e.suffix ≠ []) es

lemma justIn_suffix {s : QuoteState} {suffix : Bytes} (h : (s.suffix suffix).justIn = true) :
    suffix ≠ [] := by
  rintro rfl
  cases h

lemma quoted_json {s : QuoteState} (hs : s.justIn = true → inside = true)
    (h : es = determineMagicquoteNodes s es) : Quoted inside es := by
  induction es generalizing s inside with
  | nil => trivial
  | cons e es ih =>
    rw [determineMagicquoteNodes] at h
    obtain ⟨he, hes⟩ := List.cons.inj h
    refine ⟨fun hm => ?_, ih (fun hi => decide_eq_true (justIn_suffix hi)) hes⟩
    rw [he] at hm
    simp only [Bool.and_eq_true, decide_eq_true_eq] at hm
    exact ⟨hs hm.1.1, hm.1.2⟩

lemma quoted_apache (h : ∀ e ∈ es, e.magicallyQuotedJson = false) : Quoted inside es := by
  induction es generalizing inside with
  | nil => trivial
  | cons e es ih =>
    refine ⟨fun hm => ?_, ih fun e' he' => h e' (mem_cons_of_mem _ he')⟩
    rw [h e mem_cons_self] at hm
    cases hm

/-- Only what stands in quotes leaves them out. -/
lemma quoted_conf (conf : Conf) : Quoted false conf.elements := by
  have hq := conf.quoted
  cases hs : conf.escape with
  | json =>
    rw [hs] at hq
    exact quoted_json (fun h => h) hq
  | apache =>
    rw [hs] at hq
    refine quoted_apache fun e he => ?_
    rw [hq] at he
    obtain ⟨e', -, rfl⟩ := mem_map.1 he
    rfl

lemma logElements_cons (escape : Escape) (req : Req) (e : Element) (es : List Element)
    (line : Line) : logElements escape req (e :: es) line =
      emit escape e line (describe escape req e) >>= logElements escape req es := rfl

/-- Every element of a line finds what it does not reserve, if and only if nothing overflows. -/
lemma logElements_iff (hpos : 0 < line.capacity) (hq : Quoted inside es)
    (hi : inside = true → line.contents ≠ []) : logElements escape req es line ≠ .error .overflow ↔
      ∀ before e after line', es = before ++ e :: after →
        logElements escape req before line = .ok line' → Room e line' (describe escape req e) := by
  induction es generalizing line inside with
  | nil =>
    refine ⟨fun _ before e after line' h => ?_, fun _ h => by cases h⟩
    exact absurd h.symm (append_ne_nil_of_right_ne_nil _ (cons_ne_nil _ _))
  | cons e es ih =>
    rw [logElements_cons]
    have hm : e.magicallyQuotedJson = true → line.contents ≠ [] ∧ e.suffix ≠ [] :=
      fun h => ⟨hi (hq.1 h).1, (hq.1 h).2⟩
    -- the first element, and then the others from the line it leaves
    rcases safe_emit escape hpos (sound_describe escape req e) hm with
      ⟨hr, hs⟩ | ⟨hr, ho⟩
    · cases hem : emit escape e line (describe escape req e) with
      | error fault =>
        rw [hem] at hs
        cases hs
        refine ⟨fun _ before e' after line' he hb => ?_, fun _ h => by cases h⟩
        cases before with
        | nil =>
          obtain ⟨rfl, -⟩ := List.cons.inj he
          cases hb
          exact hr
        | cons first before =>
          obtain ⟨rfl, -⟩ := List.cons.inj he
          rw [logElements_cons, hem] at hb
          cases hb
      | ok line1 =>
        rw [hem] at hs
        change logElements escape req es line1 ≠ _ ↔ _
        rw [ih hs.1 hq.2 fun h => hs.2 (of_decide_eq_true h)]
        constructor
        · intro h before e' after line' he hb
          cases before with
          | nil =>
            obtain ⟨rfl, -⟩ := List.cons.inj he
            cases hb
            exact hr
          | cons first before =>
            obtain ⟨rfl, hre⟩ := List.cons.inj he
            rw [logElements_cons, hem] at hb
            exact h before e' after line' hre hb
        · intro h before e' after line' he hb
          refine h (e :: before) e' after line' (congrArg (e :: ·) he) ?_
          rw [logElements_cons, hem]
          exact hb
    · rw [ho]
      refine ⟨fun h => absurd rfl h, fun h => ?_⟩
      exact absurd (h [] e es line rfl rfl) hr

end Lines

/-- Whatever is appended to a line fits into its buffer. -/
def Fits (conf : Conf) (req : Req) (size : ℕ) : Prop := logRequest conf req size ≠ .error .overflow

/-- **What is appended fits**, if and only if the elements that do not reserve what they append find
room for it. -/
theorem fits_iff (conf : Conf) (req : Req) {size : ℕ} (hsize : 0 < size) : Fits conf req size ↔
      ∀ before e after line, conf.elements = before ++ e :: after →
        logElements conf.escape req before ⟨size, []⟩ = .ok line →
          Room e line (describe conf.escape req e) :=
  logElements_iff hsize (quoted_conf conf) fun h => absurd h Bool.false_ne_true

/-- An element with a suffix finds room if it reserves anything. -/
lemma room_of_reserved {e : Element} {escape : Escape} {req : Req} (hs : e.suffix ≠ [])
    (he : e.type ≠ .error) (hq : e.type = .query → req.queryAt ≠ none) (line : Line) :
    Room e line (describe escape req e) := by
  have hr : ∀ text terminated, describe escape req e ≠ .append none text terminated := by
    intro text terminated h
    unfold describe number uint64 addr port unsafeText safeText duration timestamp at h
    cases ht : e.type with
    | error => exact he ht
    | query =>
      obtain ⟨queryAt, ha⟩ := Option.ne_none_iff_exists'.1 (hq ht)
      rw [ht, ha] at h
      cases h
    | _ =>
      simp only [ht] at h
      repeat' split at h
      all_goals cases h
  cases hd : describe escape req e with
  | append reserved text terminated =>
    cases reserved with
    | none => exact absurd hd (hr text terminated)
    | some n =>
      cases terminated with
      | false => trivial
      | true => exact fun h => absurd h hs
  | null | header values concat | strftime text => trivial

/-! ## Lines that fit and lines that do not -/

/-- A request of which only the error log matters. -/
def loggedReq (errorLogs : Option Bytes) : Req where
  version := 0x101
  method := ascii "GET"
  path := ascii "/"
  queryAt := none
  authority := ascii "example.com"
  hostport := ascii "default"
  env _ := none
  headers := []
  upgrade := none
  status := 200
  originalStatus := 200
  resHeaders := []
  originalHeaders := []
  bytesSent := 0
  headerBytesSent := 0
  sockname := none
  sockport := none
  peername := none
  peerport := none
  connId := 1
  reqId := 1
  errorLogs := errorLogs
  log _ := none
  logStr := ⟨replicate 26 48, rfl⟩
  strftime _ := []
  connectedAt := ⟨0, 0⟩
  requestBeginAt := ⟨0, 0⟩
  requestBodyBeginAt := ⟨0, 0⟩
  processedAt := ⟨0, 0⟩
  responseStartAt := ⟨0, 0⟩
  responseEndAt := ⟨0, 0⟩
  proxyStartAt := ⟨0, 0⟩
  proxyRequestBeginAt := ⟨0, 0⟩
  proxyRequestEndAt := ⟨0, 0⟩
  proxyResponseStartAt := ⟨0, 0⟩
  proxyResponseEndAt := ⟨0, 0⟩
  proxyWritten := 0
  proxyWrittenHeader := 0
  proxyWrittenBody := 0
  proxyRead := 0
  proxyReadHeader := 0
  proxyReadBody := 0
  proxySslProtocolVersion := none
  proxySslSessionReused := false
  proxySslCipher := none
  proxySslCipherBits := 0

/-- A format of one element, such as `%m`. -/
def oneElement (type : ElementType) : Conf where
  elements := [⟨type, [10], false, false⟩]
  escape := .apache
  quoted := rfl

/-- The method is reserved with its suffix, however small the buffer is. -/
theorem fits_iff_method : Fits (oneElement .method) (loggedReq none) 1 := by
  refine (fits_iff _ _ one_pos).2 fun before e after line he _ => ?_
  have hmem : e ∈ (oneElement .method).elements := by
    rw [he]
    exact mem_append_right _ mem_cons_self
  rw [mem_singleton.1 hmem]
  exact room_of_reserved (cons_ne_nil _ _) (fun h => by cases h) (fun h => by cases h) line

/-- An error log of 4096 octets does not fit into a buffer of 4096 with the end of the line. -/
theorem overflow_error :
    ¬Fits (oneElement .error) (loggedReq (some (replicate 4096 120))) 4096 := by
  intro h
  refine h ?_
  decide +kernel

end Vhttp.Logconf
