import Vhttp.Strtosize
import Vhttp.Url.Basic

/-!
# The authority of a URL

`vhttp_url_parse_hostport` of `lib/common/url.c`, and the two functions that build an authority:
`vhttp_url_init_with_hostport` and `vhttp_url_init_with_sun_path`. What follows a bracket is not
looked at unless it is a colon, and what is not a digit is skipped in a port.

* `hostport_iff`: the strings that are taken as they should be, and the hosts and ports that are
  read back.
* `sunPath_iff`: the paths of Unix-domain sockets that are read back.
-/

namespace Vhttp.Url

open List Option Prod

/-! ## Parsing -/

/-- The end of an authority. -/
def isEnd (c : UInt8) : Bool := c = slash ∨ c = question

/-- `':'`. -/
def colon : UInt8 := ofChar ':'

/-- The part of `vhttp_url_parse_hostport` that finds the host: the host and what follows it. -/
def hostPart : Bytes → Option (Bytes × Bytes)
  | [] => none
  | c :: s =>
    if c = ofChar '[' then
      if ofChar ']' ∈ s then
        some (s.takeWhile (· ≠ ofChar ']'), (s.dropWhile (· ≠ ofChar ']')).tail)
      else none
    else some ((c :: s).span fun c => !isEnd c && c ≠ colon)

/-- The loop over the port. -/
def portLoop : ℕ → Bytes → Option (ℕ × Bytes)
  | p, [] => some (p, [])
  | p, c :: s =>
    if isDigit c then
      if 65535 ≤ p * 10 + digitValue c then none else portLoop (p * 10 + digitValue c) s
    else if isEnd c then some (p, c :: s)
    else portLoop p s

/-- `vhttp_url_parse_hostport`: the host, the port (65535 if there is none) and the rest. -/
def parseHostport (s : Bytes) : Option (Bytes × ℕ × Bytes) := do
  let (host, rest) ← hostPart s
  if host = [] then none
  else if rest.head? = some colon then
    let (port, rest) ← portLoop 0 rest.tail
    some (host, port, rest)
  else some (host, 65535, rest)

/-! ## What an authority is -/

/-- The text of a host: in brackets, or free of delimiters. -/
def HostText (name host : Bytes) : Prop :=
  host ≠ [] ∧ (name = ofChar '[' :: host ++ [ofChar ']'] ∧ ofChar ']' ∉ host ∨
    name = host ∧ (∀ c ∈ host, !isEnd c && c ≠ colon) ∧ host.head? ≠ some (ofChar '['))

/-- The text of a port: nothing, or a colon and a decimal number below 65535. -/
def PortText (text : Bytes) (port : ℕ) : Prop :=
  text = [] ∧ port = 65535 ∨ ∃ digits ≠ [], text = colon :: digits ∧
    (∀ c ∈ digits, isDigit c) ∧ port = decimal digits ∧ port < 65535

/-- A host and a port, up to the end or the first `/` or `?`. -/
def Authority (s host : Bytes) (port : ℕ) (rest : Bytes) : Prop :=
  ∃ name text, s = name ++ (text ++ rest) ∧ HostText name host ∧ PortText text port ∧
    ∀ c ∈ rest.head?, isEnd c

/-- What follows the host is the end, or a port of digits only, or one whose digits are too
large. -/
def PlainTail (tail : Bytes) : Prop :=
  ∀ c ∈ tail.head?, isEnd c ∨ c = colon ∧
    let port := tail.tail.takeWhile (!isEnd ·)
    port ≠ [] ∧ (∀ c ∈ port, isDigit c) ∨ 65535 ≤ decimal (port.filter isDigit)

/-- What follows the host is plain, if there is one. -/
def PlainPort (s : Bytes) : Prop :=
  ∀ host tail, hostPart s = some (host, tail) → host ≠ [] → PlainTail tail

lemma isEnd_colon : isEnd colon = false := by decide

lemma isEnd_of_isDigit {c : UInt8} (h : isDigit c) : isEnd c = false := by
  by_contra he
  rw [Bool.not_eq_false, isEnd, decide_eq_true_iff] at he
  rcases he with rfl | rfl <;> revert h <;> decide

lemma le_foldl_decimal (s : Bytes) (p : ℕ) :
    p ≤ s.foldl (fun v ch => v * 10 + digitValue ch) p := by
  induction s generalizing p with
  | nil => exact le_rfl
  | cons c s ih =>
    have hl : p ≤ p * 10 + digitValue c := by omega
    exact hl.trans (ih _)

/-- The loop adds up the digits in front of the end, and skips what is not a digit. -/
lemma portLoop_eq {p : ℕ} (s : Bytes) (hp : p < 65535) : portLoop p s =
      let n := ((s.takeWhile (!isEnd ·)).filter isDigit).foldl (fun v ch => v * 10 + digitValue ch) p
      if 65535 ≤ n then none else some (n, s.dropWhile (!isEnd ·)) := by
  induction s generalizing p with
  | nil => exact (if_neg (by simpa using hp)).symm
  | cons c s ih =>
    rw [portLoop]
    by_cases hd : isDigit c = true
    · have he := isEnd_of_isDigit hd
      rw [if_pos hd]
      split
      · next hl =>
        have hle := le_foldl_decimal ((s.takeWhile (!isEnd ·)).filter isDigit)
          (p * 10 + digitValue c)
        simp only [takeWhile_cons, he, Bool.not_false, if_true, filter_cons, hd, foldl_cons]
        exact (if_pos (hl.trans hle)).symm
      · next hs =>
        rw [ih (Nat.not_le.1 hs)]
        simp [he, hd]
    · rw [if_neg hd]
      cases he : isEnd c with
      | true => simpa [he] using hp
      | false => simp [ih hp, he, hd]

variable {host ho' path rest s tail : Bytes} {port : ℕ}

lemma hostPart_of_text {name : Bytes} (h : HostText name host)
    (hr : ∀ c ∈ rest.head?, isEnd c ∨ c = colon) : hostPart (name ++ rest) = some (host, rest) := by
  obtain ⟨hne, ⟨rfl, hf⟩ | ⟨rfl, hf, hh⟩⟩ := h
  · have ha : ∀ c ∈ host, (c ≠ ofChar ']') := fun c hc => ne_of_mem_of_not_mem hc hf
    simp only [cons_append, append_assoc, hostPart, if_true]
    rw [if_pos (by simp), takeWhile_append_of_pos (by simpa using ha),
      dropWhile_append_of_pos (by simpa using ha)]
    simp
  · obtain ⟨c, name, rfl⟩ := exists_cons_of_ne_nil hne
    rw [cons_append, hostPart, if_neg (by simpa using hh), ← cons_append,
      span_eq_takeWhile_dropWhile, takeWhile_append_of_pos hf,
      dropWhile_append_of_pos hf]
    cases rest with
    | nil => simp
    | cons d rest => rcases hr d rfl with hd | rfl <;> simp [isEnd_colon, *]

lemma hostText_of_part (h : hostPart s = some (host, rest))
    (hne : host ≠ []) : ∃ name, s = name ++ rest ∧ HostText name host := by
  cases s with
  | nil => cases h
  | cons c s =>
    rw [hostPart] at h
    split at h
    · next hb =>
      obtain ⟨hmem, h⟩ := ite_none_right_eq_some.1 h
      cases h
      refine ⟨_, ?_, hne, .inl ⟨rfl, fun hi => by simpa using mem_takeWhile_imp hi⟩⟩
      have hd : s.dropWhile (· ≠ ofChar ']') =
          ofChar ']' :: (s.dropWhile (· ≠ ofChar ']')).tail := by
        have ho : s.dropWhile (· ≠ ofChar ']') ≠ [] := by
          rw [ne_eq, dropWhile_eq_nil_iff]
          exact fun ha => by simpa using ha _ hmem
        have hh : (s.dropWhile (· ≠ ofChar ']')).head ho = ofChar ']' := by
          simpa using head_dropWhile_not (· ≠ ofChar ']') ho
        exact (cons_head_tail ho).symm.trans (by rw [hh])
      rw [append_assoc, singleton_append, ← hd, cons_append, hb, takeWhile_append_dropWhile]
    · next hb =>
      rw [span_eq_takeWhile_dropWhile] at h
      cases h
      refine ⟨_, takeWhile_append_dropWhile.symm, hne, .inr ⟨rfl, ?_, ?_⟩⟩
      · exact fun c hc => mem_takeWhile_imp (p := fun c => !isEnd c && c ≠ colon) hc
      · rw [takeWhile_cons] at hne ⊢
        split
        · simpa using hb
        · next hs => exact absurd (if_neg hs) hne

lemma Authority.part (h : Authority s host port rest) :
    host ≠ [] ∧ ∃ text, hostPart s = some (host, text ++ rest) ∧ PortText text port ∧
      ∀ c ∈ rest.head?, isEnd c := by
  obtain ⟨name, text, rfl, hn, ht, hr⟩ := h
  refine ⟨hn.1, text, hostPart_of_text hn ?_, ht, hr⟩
  rcases ht with ⟨rfl, -⟩ | ⟨digits, -, rfl, -⟩
  · exact fun c hc => .inl (hr c hc)
  · rintro c (_ | _)
    exact .inr rfl

/-- What an authority is, for a string whose host has been found. -/
lemma authority_iff (h : hostPart s = some (host, tail)) (hne : host ≠ []) :
    Authority s ho' port rest ↔ ho' = host ∧ ∃ text, tail = text ++ rest ∧
      PortText text port ∧ ∀ c ∈ rest.head?, isEnd c := by
  constructor
  · intro ha
    obtain ⟨-, text, hp, ht⟩ := ha.part
    cases hp.symm.trans h
    exact ⟨rfl, text, rfl, ht⟩
  · rintro ⟨rfl, text, rfl, ht, hr⟩
    obtain ⟨name, rfl, hn⟩ := hostText_of_part h hne
    exact ⟨name, text, rfl, hn, ht, hr⟩

/-- The texts of a port after a colon. -/
lemma portText_iff {u : Bytes} :
    (∃ text, colon :: u = text ++ rest ∧ PortText text port ∧ ∀ c ∈ rest.head?, isEnd c) ↔
      rest = u.dropWhile (!isEnd ·) ∧ u.takeWhile (!isEnd ·) ≠ [] ∧
        (∀ c ∈ u.takeWhile (!isEnd ·), isDigit c) ∧
        port = decimal (u.takeWhile (!isEnd ·)) ∧ port < 65535 := by
  constructor
  · rintro ⟨text, ht, ⟨rfl, -⟩ | ⟨digits, hne, rfl, hd, hp⟩, hr⟩
    · rw [nil_append] at ht
      exact absurd (hr colon (ht ▸ rfl)) (by decide)
    · obtain rfl : u = digits ++ rest := tail_eq_of_cons_eq ht
      have hk : ∀ c ∈ digits, (!isEnd c) = true := fun c hc => by
        rw [isEnd_of_isDigit (hd c hc), Bool.not_false]
      have hs : rest.takeWhile (!isEnd ·) = [] ∧ rest.dropWhile (!isEnd ·) = rest := by
        cases rest with
        | nil => exact ⟨rfl, rfl⟩
        | cons c rest => simp [hr c rfl]
      rw [takeWhile_append_of_pos hk, dropWhile_append_of_pos hk, hs.1, hs.2, append_nil]
      exact ⟨rfl, hne, hd, hp⟩
  · rintro ⟨rfl, hne, hd, hp⟩
    refine ⟨colon :: u.takeWhile (!isEnd ·), ?_, .inr ⟨_, hne, rfl, hd, hp⟩, fun c hc => ?_⟩
    · rw [cons_append, takeWhile_append_dropWhile]
    · have hh := head?_dropWhile_not (!isEnd ·) u
      rw [mem_def.1 hc] at hh
      simpa using hh

/-- Without a colon there is no port. -/
lemma noPort_iff (h : tail.head? ≠ some colon) :
    (∃ text, tail = text ++ rest ∧ PortText text port ∧ ∀ c ∈ rest.head?, isEnd c) ↔
      (port = 65535 ∧ rest = tail) ∧ ∀ c ∈ tail.head?, isEnd c := by
  constructor
  · rintro ⟨text, rfl, ⟨rfl, rfl⟩ | ⟨digits, -, rfl, -⟩, hr⟩
    · exact ⟨⟨rfl, rfl⟩, hr⟩
    · exact absurd rfl h
  · rintro ⟨⟨rfl, rfl⟩, hr⟩
    exact ⟨[], rfl, .inl ⟨rfl, rfl⟩, hr⟩

/-- A port after a colon is read as it should be if and only if it is plain. -/
lemma portLoop_iff (u : Bytes) : (∀ port rest, portLoop 0 u = some (port, rest) ↔
      ∃ text, colon :: u = text ++ rest ∧ PortText text port ∧ ∀ c ∈ rest.head?, isEnd c) ↔
    u.takeWhile (!isEnd ·) ≠ [] ∧ (∀ c ∈ u.takeWhile (!isEnd ·), isDigit c) ∨
      65535 ≤ decimal ((u.takeWhile (!isEnd ·)).filter isDigit) := by
  simp only [portText_iff]
  rw [portLoop_eq u (by decide)]
  dsimp only
  rw [← decimal]
  generalize u.takeWhile (!isEnd ·) = port
  by_cases hp : port ≠ [] ∧ ∀ c ∈ port, isDigit c
  · rw [filter_eq_self.2 hp.2]
    refine iff_of_true (fun p rest => ?_) (.inl hp)
    split_ifs with hl
    · simp only [false_iff]
      rintro ⟨-, -, -, rfl, ht⟩
      omega
    · rw [some.injEq, mk.injEq]
      constructor
      · rintro ⟨rfl, rfl⟩
        exact ⟨rfl, hp.1, hp.2, rfl, Nat.not_le.1 hl⟩
      · rintro ⟨rfl, -, -, rfl, -⟩
        exact ⟨rfl, rfl⟩
  · have hn : ∀ p rest, ¬(rest = u.dropWhile (!isEnd ·) ∧ port ≠ [] ∧
        (∀ c ∈ port, isDigit c) ∧ p = decimal port ∧ p < 65535) :=
      fun p rest h => hp ⟨h.2.1, h.2.2.1⟩
    simp only [hn, iff_false, or_iff_right hp]
    constructor
    · intro h
      by_contra hs
      exact h _ _ (if_neg hs)
    · intro h p rest
      rw [if_pos h]
      exact some_ne_none _ ∘ Eq.symm

lemma parseHostport_eq (h : hostPart s = some (host, tail)) (hne : host ≠ []) :
    parseHostport s = some (ho', port, rest) ↔ ho' = host ∧
      if tail.head? = some colon then portLoop 0 tail.tail = some (port, rest)
      else port = 65535 ∧ rest = tail := by
  simp only [parseHostport, h, bind_eq_bind, bind_some, if_neg hne]
  split
  · simp only [bind_eq_some_iff, some.injEq, mk.injEq, Prod.exists]
    constructor
    · rintro ⟨_, _, hl, rfl, rfl, rfl⟩
      exact ⟨rfl, hl⟩
    · rintro ⟨rfl, hl⟩
      exact ⟨_, _, hl, rfl, rfl, rfl⟩
  · simp only [some.injEq, mk.injEq]
    exact and_congr eq_comm (and_congr eq_comm eq_comm)

/-- A string is taken exactly if it is an authority, if and only if its port is plain. -/
lemma parseHostport_iff (s : Bytes) :
    (∀ host port rest, parseHostport s = some (host, port, rest) ↔ Authority s host port rest) ↔
      PlainPort s := by
  by_cases hp : ∃ host tail, hostPart s = some (host, tail) ∧ host ≠ []
  · obtain ⟨host, tail, hp, hne⟩ := hp
    have hl : PlainPort s ↔ PlainTail tail := by
      constructor
      · exact fun h => h host tail hp hne
      · intro h ho' tail' hp'
        cases hp.symm.trans hp'
        exact fun _ => h
    have hpo : (∀ port rest, (if tail.head? = some colon then
        portLoop 0 tail.tail = some (port, rest) else port = 65535 ∧ rest = tail) ↔
        ∃ text, tail = text ++ rest ∧ PortText text port ∧ ∀ c ∈ rest.head?, isEnd c) ↔
        PlainTail tail := by
      by_cases ho : tail.head? = some colon
      · obtain ⟨u, rfl⟩ : ∃ u, tail = colon :: u := head?_eq_some_iff.1 ho
        simpa [PlainTail, isEnd_colon] using portLoop_iff u
      · simp only [noPort_iff ho, if_neg ho, iff_self_and]
        constructor
        · exact fun h c hc => .inl (h 65535 tail ⟨rfl, rfl⟩ c hc)
        · intro h port rest _ c hc
          refine (h c hc).resolve_right fun hc' => ho ?_
          rw [← hc'.1]
          exact hc
    rw [hl, ← hpo]
    simp only [authority_iff hp hne, parseHostport_eq hp hne, and_congr_right_iff]
    exact ⟨fun h port rest => h host port rest rfl, fun h _ port rest _ => h port rest⟩
  · have hn : ∀ host port rest, ¬Authority s host port rest := fun host port rest h =>
      hp ⟨_, _, h.part.2.choose_spec.1, h.part.1⟩
    refine iff_of_true (fun host port rest => iff_of_false (fun h => ?_) (hn _ _ _))
      fun host tail h hne => absurd ⟨host, tail, h, hne⟩ hp
    obtain ⟨⟨ho', tail⟩, hh, h⟩ := bind_eq_some_iff.1 h
    exact hp ⟨ho', tail, hh, (ite_none_left_eq_some.1 h).1⟩

/-! ## Building -/

/-- `vhttp_url_scheme_t`, as far as it is used here. -/
structure Scheme where
  defaultPort : UInt16

/-- The authority, the host and `_port` that `vhttp_url_init_with_hostport` sets. -/
def initWithHostport (scheme : Scheme) (host : Bytes) (port : UInt16) : Bytes × Bytes × ℕ :=
  if port = scheme.defaultPort then (host, host, 65535)
  else (host ++ colon :: ascii (toString port.toNat), host, port.toNat)

/-- `vhttp_url_get_port`. -/
def getPort (scheme : Scheme) (port : ℕ) : ℕ :=
  if port = 65535 then scheme.defaultPort.toNat else port

/-- The number that `sprintf` writes. -/
lemma decimal_toString (n : ℕ) :
    decimal (ascii (toString n)) = n ∧ ∀ c ∈ ascii (toString n), isDigit c := by
  have hd : ∀ d < 10, digitValue (ofChar d.digitChar) = d ∧ isDigit (ofChar d.digitChar) := by
    decide
  have ht : ascii (toString n) = (Nat.toDigits 10 n).map ofChar := by simp [ascii]
  rw [ht]
  clear ht
  induction n using Nat.strongRecOn with
  | _ n ih =>
    rw [Nat.toDigits_eq_if (by decide)]
    split
    · next hl => simpa [decimal] using hd n hl
    · next hg =>
      obtain ⟨hv, ha⟩ := ih (n / 10) (by omega)
      obtain ⟨hla, hl'⟩ := hd (n % 10) (Nat.mod_lt _ (by decide))
      rw [map_append, map_singleton, decimal_concat, hv, hla]
      refine ⟨by omega, fun c hc => ?_⟩
      rcases mem_append.1 hc with hc | hc
      · exact ha c hc
      · rwa [mem_singleton.1 hc]

/-- The host can be told from what follows it, and the port is not the one that stands for none. -/
def PlainHost (scheme : Scheme) (host : Bytes) (port : UInt16) : Prop :=
  HostText host host ∧ (port = scheme.defaultPort ∨ port ≠ 65535)

lemma portLoop_toString (n : ℕ) :
    portLoop 0 (ascii (toString n)) = if 65535 ≤ n then none else some (n, []) := by
  obtain ⟨hv, hd⟩ := decimal_toString n
  have hk : ∀ c ∈ ascii (toString n), (!isEnd c) = true := fun c hc => by
    rw [isEnd_of_isDigit (hd c hc), Bool.not_false]
  rw [portLoop_eq _ (by decide), takeWhile_eq_self_iff.2 hk, filter_eq_self.2 hd,
    dropWhile_eq_nil_iff.2 hk, ← decimal, hv]

lemma initWithHostport_iff (scheme : Scheme) (host : Bytes) (port : UInt16) :
    (∃ port', parseHostport (initWithHostport scheme host port).1 = some (host, port', []) ∧
      getPort scheme port' = port.toNat) ↔ PlainHost scheme host port := by
  obtain ⟨text, ht, hu⟩ : ∃ text, (text = [] ∧ port = scheme.defaultPort ∨
      text = colon :: ascii (toString port.toNat) ∧ port ≠ scheme.defaultPort) ∧
      (initWithHostport scheme host port).1 = host ++ text := by
    unfold initWithHostport
    split
    · next h => exact ⟨[], .inl ⟨rfl, h⟩, (append_nil host).symm⟩
    · next h => exact ⟨_, .inr ⟨rfl, h⟩, rfl⟩
  rw [hu]
  constructor
  · rintro ⟨port', hp, ho⟩
    obtain ⟨⟨ho', tail⟩, ha, hr⟩ := bind_eq_some_iff.1 hp
    have hne := (ite_none_left_eq_some.1 hr).1
    obtain ⟨rfl, hta⟩ := (parseHostport_eq ha hne).1 hp
    obtain ⟨name, hn, hh⟩ := hostText_of_part ha hne
    obtain ⟨-, ⟨rfl, hf⟩ | ⟨rfl, -⟩⟩ := id hh
    · -- there is no bracket in what follows the host
      have hmem : ofChar ']' ∈ host ++ text := by simp [hn]
      rcases ht with ⟨rfl, -⟩ | ⟨rfl, -⟩
      · simp [hf] at hmem
      · rcases mem_append.1 hmem with hmem | hmem | hmem
        · exact absurd hmem hf
        · rename_i hmem
          exact absurd ((decimal_toString _).2 _ hmem) (by decide)
    · refine ⟨hh, ht.imp (·.2) fun ht hm => ?_⟩
      obtain rfl := append_cancel_left hn
      rw [ht.1, head?_cons, if_pos rfl, tail_cons, portLoop_toString, hm] at hta
      cases hta
  · rintro ⟨hh, ho⟩
    rcases ht with ⟨rfl, rfl⟩ | ⟨rfl, hd⟩
    · refine ⟨65535, (parseHostport_eq (hostPart_of_text hh (by simp)) hh.1).2 ⟨rfl, ?_⟩, rfl⟩
      exact ⟨rfl, rfl⟩
    · have hl : port.toNat ≠ 65535 := fun h => ho.elim hd fun hne =>
        hne (UInt16.toNat_inj.1 h)
      have he := port.toNat_lt
      refine ⟨port.toNat, (parseHostport_eq (hostPart_of_text hh ?_) hh.1).2 ⟨rfl, ?_⟩, if_neg hl⟩
      · rintro c (_ | _)
        exact .inr rfl
      · rw [head?_cons, if_pos rfl, tail_cons, portLoop_toString, if_neg (by omega)]

/-- A string is taken exactly if it is an authority, with what is written in it, if and only if
its port is plain; and an authority that has been built is read back if and only if its host is
plain. -/
theorem hostport_iff (s host : Bytes) (scheme : Scheme) (port : UInt16) :
    ((∀ host port rest, parseHostport s = some (host, port, rest) ↔ Authority s host port rest) ↔
      PlainPort s) ∧
    ((∃ port', parseHostport (initWithHostport scheme host port).1 = some (host, port', []) ∧
      getPort scheme port' = port.toNat) ↔ PlainHost scheme host port) :=
  ⟨parseHostport_iff s, initWithHostport_iff scheme host port⟩

/-- A port in which a letter is skipped, and a host that is cut off at its colon. -/
theorem hostport_skipped : parseHostport (ascii "host:8x0") = some (ascii "host", 80, []) ∧
      ¬Authority (ascii "host:8x0") (ascii "host") 80 [] ∧
      parseHostport (initWithHostport ⟨80⟩ (ascii "::1") 8080).1 = none := by
  refine ⟨rfl, fun h => ?_, rfl⟩
  have hp : hostPart (ascii "host:8x0") = some (ascii "host", colon :: ascii "8x0") := rfl
  obtain ⟨-, -, hd, -⟩ := portText_iff.1 ((authority_iff hp (by decide)).1 h).2
  exact absurd (hd (ofChar 'x') (by decide)) (by decide)

/-! ## Unix-domain sockets -/

/-- `sizeof(sa->sun_path)`. -/
def sunPathSize : ℕ := 108

/-- The authority that `vhttp_url_init_with_sun_path` builds. -/
def sunAuthority (path : Bytes) : Bytes := ascii "[unix:" ++ path ++ ascii "]"

/-- `a - b` of two `size_t`s. -/
def sizeSub (a b : ℕ) : ℕ := if b ≤ a then a - b else 2 ^ 64 + a - b

/-- `vhttp_url_host_to_sun`: the octets that are copied to `sun_path`, or `none` if the host is
refused. -/
def hostToSun (host : Bytes) : Option Bytes :=
  if host.length < 5 ∨ host.take 5 ≠ ascii "unix:" then none
  else if sunPathSize ≤ sizeSub host.length (6 + 1) then none
  else some (host.drop 5)

/-- What is copied for a path, if it is not refused. -/
def sunPath (path : Bytes) : Option Bytes := do
  let (host, _, _) ← parseHostport (sunAuthority path)
  hostToSun host

/-- A path is copied as it is if there is room for it and its terminator, and is refused if
not. -/
def SunRoundTrip (path : Bytes) : Prop :=
  sunPath path = if path.length < sunPathSize then some path else none

/-- Where the path ends for the parser of the authority. -/
def untilBracket (path : Bytes) : Bytes := path.takeWhile (· ≠ ofChar ']')

/-- What follows the first bracket of the authority. -/
def behindBracket (path : Bytes) : Bytes := ((path ++ ascii "]").dropWhile (· ≠ ofChar ']')).tail

/-- There is a colon, and the digits behind it are too large for a port. -/
def LargePort (tail : Bytes) : Prop :=
  tail.head? = some colon ∧ 65535 ≤ decimal ((tail.tail.takeWhile (!isEnd ·)).filter isDigit)

instance (tail : Bytes) : Decidable (LargePort tail) := inferInstanceAs (Decidable (_ ∧ _))

lemma hostPart_sunAuthority (path : Bytes) : hostPart (sunAuthority path) =
    some (ascii "unix:" ++ untilBracket path, behindBracket path) := by
  have hu : ∀ c ∈ ascii "unix:", decide (c ≠ ofChar ']') = true := List.all_eq_true.1 rfl
  have hp : (path ++ ascii "]").takeWhile (· ≠ ofChar ']') = untilBracket path := by
    unfold untilBracket
    induction path with
    | nil => rfl
    | cons c path ih => rw [cons_append, takeWhile_cons, takeWhile_cons, ih]
  have ha : sunAuthority path = ofChar '[' :: (ascii "unix:" ++ (path ++ ascii "]")) := rfl
  rw [ha, hostPart, if_pos rfl, if_pos (by simp [ascii]),
    takeWhile_append_of_pos hu, dropWhile_append_of_pos hu, hp, behindBracket]

lemma sunAuthority_none_iff (path : Bytes) :
    parseHostport (sunAuthority path) = none ↔ LargePort (behindBracket path) := by
  simp only [parseHostport, hostPart_sunAuthority, bind_eq_bind, bind_some, LargePort]
  rw [if_neg (by simp [ascii])]
  split
  · next hc =>
    rw [and_iff_right hc, portLoop_eq _ (by decide)]
    dsimp only
    split_ifs with hl <;> simp [decimal, hl]
  · next hc => simp [hc]

lemma untilBracket_of_notMem (h : ofChar ']' ∉ path) : untilBracket path = path :=
  takeWhile_eq_self_iff.2 fun _ hc => decide_eq_true (ne_of_mem_of_not_mem hc h)

lemma parseHostport_sunAuthority (h : ofChar ']' ∉ path) :
    parseHostport (sunAuthority path) = some (ascii "unix:" ++ path, 65535, []) := by
  refine (parseHostport_eq (hostPart_sunAuthority path) (by simp [ascii])).2 ?_
  have hp : ∀ c ∈ path, decide (c ≠ ofChar ']') = true :=
    fun _ hc => decide_eq_true (ne_of_mem_of_not_mem hc h)
  rw [untilBracket_of_notMem h, behindBracket, dropWhile_append_of_pos hp]
  exact ⟨rfl, rfl, rfl⟩

/-- What is copied is the path up to a bracket, unless that is too short or too long for the test
of the source. -/
lemma sunPath_eq (path : Bytes) : sunPath path =
    if LargePort (behindBracket path) ∨ (untilBracket path).length < 2 ∨
      110 ≤ (untilBracket path).length then none else some (untilBracket path) := by
  unfold sunPath
  simp only [← sunAuthority_none_iff]
  rcases hp : parseHostport (sunAuthority path) with _ | ⟨host, port, rest⟩
  · rfl
  obtain ⟨rfl, -⟩ := (parseHostport_eq (hostPart_sunAuthority path) (by simp [ascii])).1 hp
  have hf : (ascii "unix:").length = 5 := rfl
  simp only [bind_eq_bind, bind_some, hostToSun, length_append, hf,
    take_left' hf, drop_left' hf, sizeSub, sunPathSize, reduceCtorEq, false_or,
    ne_eq, not_true_eq_false, or_false]
  generalize (untilBracket path).length = n
  split_ifs <;> first | rfl | omega

/-- The path has at least two octets and no bracket if it fits; if not, a large port follows the
first bracket, or what is in front of that has less than two octets or more than 109. -/
def PlainSun (path : Bytes) : Prop :=
  if path.length < sunPathSize then ofChar ']' ∉ path ∧ 2 ≤ path.length
  else LargePort (behindBracket path) ∨ (untilBracket path).length < 2 ∨
    110 ≤ (untilBracket path).length

/-- The path of a Unix-domain socket is read back, or refused if it is too long, if and only if it
is plain. -/
theorem sunPath_iff (path : Bytes) : SunRoundTrip path ↔ PlainSun path := by
  unfold SunRoundTrip PlainSun
  rw [sunPath_eq]
  by_cases hf : path.length < sunPathSize
  · rw [if_pos hf, if_pos hf]
    by_cases hmem : ofChar ']' ∈ path
    · refine iff_of_false (fun h => ?_) (fun h => h.1 hmem)
      rw [← some.inj (ite_none_left_eq_some.1 h).2] at hmem
      exact absurd (mem_takeWhile_imp hmem) (by decide)
    · rw [untilBracket_of_notMem hmem, and_iff_right hmem]
      unfold sunPathSize at hf
      simp only [← sunAuthority_none_iff, parseHostport_sunAuthority hmem, reduceCtorEq, false_or,
        ite_eq_right_iff, imp_false]
      omega
  · rw [if_neg hf, if_neg hf]
    exact ⟨fun h => by_contra fun hn => absurd ((if_neg hn).symm.trans h) nofun, fun h => if_pos h⟩

/-- A path of one octet is refused, and one of 109 octets is copied. -/
theorem sunPath_slash : ¬SunRoundTrip (ascii "/") ∧ ¬SunRoundTrip (replicate 109 (ofChar '/')) ∧
      sunPath (ascii "/") = none ∧
      sunPath (replicate 109 (ofChar '/')) = some (replicate 109 (ofChar '/')) := by
  have ho : sunPath (ascii "/") = none := rfl
  have hl : sunPath (replicate 109 (ofChar '/')) = some (replicate 109 (ofChar '/')) := rfl
  refine ⟨fun h => ?_, fun h => ?_, ho, hl⟩
  · exact absurd (ho.symm.trans h) (by decide)
  · exact absurd (hl.symm.trans h) (by decide)

end Vhttp.Url
