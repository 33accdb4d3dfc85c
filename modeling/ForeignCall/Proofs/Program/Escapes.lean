import ForeignCall.Program.Literal
import ForeignCall.Proofs.Constant.Literals
import ForeignCall.Proofs.Results

/-!
# ForeignCall.Proofs.Program.Escapes

String literals, told by their tokens. A token is a character other than a backslash, or an escape;
a literal is split from the left, each time into the longest token that there is.

* `IsToken`, `TokenValue.char?` — the tokens of C, and the characters they stand for;
* `Munches` — splitting a text into longest tokens;
* `token_of_longest`, `token_of_none` — one round of the reader;
* **`decodeString_longest_tokens`** — the text of every literal, or its error.
-/

namespace ForeignCall

/-! ## Tokens -/

/-- What a token stands for: a character, or the number of one. -/
inductive TokenValue where
  | char (c : Char)
  | code (n : Nat)

/-- The character that is meant; a number above 255 means none. -/
def TokenValue.char? : TokenValue → Option Char
  | char c => some c
  | code n => if n ≤ 255 then some (Char.ofNat n) else none

/-- The simple escapes: what stands behind the backslash, and the character that is meant. -/
def simpleEscapes : List (Char × Char) :=
  [('n', '\n'), ('t', '\t'), ('r', '\r'), ('a', Char.ofNat 7), ('b', Char.ofNat 8),
   ('f', Char.ofNat 12), ('v', Char.ofNat 11), ('\\', '\\'), ('"', '"'),
   (Char.ofNat 39, Char.ofNat 39), ('?', '?')]

/-- What can stand behind the backslash of an escape. -/
inductive IsEscape : List Char → TokenValue → Prop where
  | simple {c d} (h : (c, d) ∈ simpleEscapes) : IsEscape [c] (.char d)
  | octal {digits n} (hne : digits ≠ []) (hlength : digits.length ≤ 3) (h : Spells 8 digits n) :
    IsEscape digits (.code n)
  | hexadecimal {digits n} (hne : digits ≠ []) (h : Spells 16 digits n) :
    IsEscape ('x' :: digits) (.code n)

/-- The tokens of a string literal. -/
inductive IsToken : List Char → TokenValue → Prop where
  | plain {c} (h : c ≠ '\\') : IsToken [c] (.char c)
  | escape {s v} (h : IsEscape s v) : IsToken ('\\' :: s) v

/-- A text starts with `t`, which means `v`, and with nothing longer that has a meaning. -/
structure Longest (P : List Char → TokenValue → Prop) (s t : List Char) (v : TokenValue)
    (rest : List Char) : Prop where
  eq_append : s = t ++ rest
  meant : P t v
  length_le : ∀ other w, P other w → other <+: s → other.length ≤ t.length

/-- No start of a text has a meaning. -/
def StartsWithNone (P : List Char → TokenValue → Prop) (s : List Char) : Prop :=
  ∀ t v, P t v → ¬t <+: s

/-- A text is split from the left into longest tokens, up to a rest. -/
inductive Munches : List Char → List (List Char × TokenValue) → List Char → Prop where
  | nil (s) : Munches s [] s
  | cons {s t v rest tokens last} (h : Longest IsToken s t v rest)
    (hrest : Munches rest tokens last) : Munches s ((t, v) :: tokens) last

/-- Every token means the character at its place. -/
def Mean (tokens : List (List Char × TokenValue)) (cs : List Char) : Prop :=
  List.Forall₂ (fun token c => token.2.char? = some c) tokens cs

/-- The error of a text whose first token is missing, or means no character. -/
inductive FailsAtOnce : List Char → LiteralError → Prop where
  | outOfRange {s t n rest} (h : Longest IsToken s t (.code n) rest) (hn : 255 < n) :
    FailsAtOnce s (.outOfRange (String.ofList t))
  | trailing : FailsAtOnce ['\\'] .trailingBackslash
  | unknown {c rest} (h : StartsWithNone IsToken ('\\' :: c :: rest)) :
    FailsAtOnce ('\\' :: c :: rest) (.unknownEscape (String.ofList ['\\', c]))

/-- A text with every backslash doubled. -/
def doubled (s : List Char) : List Char := s.flatMap fun c => if c = '\\' then ['\\', '\\'] else [c]

variable {P : List Char → TokenValue → Prop} {s t rest run digits : List Char} {v : TokenValue}
  {c d : Char} {base n : Nat}

/-! ## Runs of digits -/

/-- Digits spell a number, and nothing else does. -/
theorem exists_spells_iff (hbase : base ≤ 16) :
    (∃ n, Spells base s n) ↔ ∀ c ∈ s, (Text.digitIn base c).isSome := by
  constructor
  · rintro ⟨n, ds, hds, -⟩ c hc
    obtain ⟨d, hd⟩ := exists_isDigit hds hc
    simp [(digitIn_eq_some_iff hbase).mpr hd]
  · intro h
    have hds : ∃ ds, List.Forall₂ (IsDigit base) s ds := by
      induction s with
      | nil => exact ⟨[], .nil⟩
      | cons c s ih =>
        rw [List.forall_mem_cons] at h
        obtain ⟨d, hd⟩ := Option.isSome_iff_exists.mp h.1
        obtain ⟨ds, hds⟩ := ih h.2
        exact ⟨d :: ds, .cons ((digitIn_eq_some_iff hbase).mp hd) hds⟩
    obtain ⟨ds, hds⟩ := hds
    exact ⟨_, ds, hds, rfl⟩

theorem isOctal_of_spells (h : Spells 8 s n) : ∀ c ∈ s, isOctal c :=
  (exists_spells_iff (by omega)).mp ⟨n, h⟩

theorem isHex_of_spells (h : Spells 16 s n) : ∀ c ∈ s, isHex c :=
  (exists_spells_iff (by omega)).mp ⟨n, h⟩

/-- The characters at the start of a text that satisfy `p` are a longest start of its kind. -/
theorem length_le_takeWhile {p : Char → Bool} (h : t <+: s) (hp : ∀ c ∈ t, p c) :
    t.length ≤ (s.takeWhile p).length := by
  obtain ⟨rest, rfl⟩ := h
  rw [List.takeWhile_append_of_pos hp]
  simp

theorem isPrefix_octalRun (s : List Char) : octalRun s <+: s :=
  (List.takeWhile_prefix _).trans (List.take_prefix 3 s)

theorem length_octalRun_le (s : List Char) : (octalRun s).length ≤ 3 :=
  (List.takeWhile_prefix _).length_le.trans (List.length_take_le 3 s)

theorem length_le_octalRun (h : t <+: s) (hlength : t.length ≤ 3) (ht : ∀ c ∈ t, isOctal c) :
    t.length ≤ (octalRun s).length :=
  length_le_takeWhile (List.prefix_take_iff.mpr ⟨h, hlength⟩) ht

/-- A run of octal digits is an escape. -/
theorem exists_isEscape_octalRun (h : octalRun s ≠ []) : ∃ n, IsEscape (octalRun s) (.code n) := by
  have hdigits : ∀ c ∈ octalRun s, isOctal c := List.all_eq_true.mp List.all_takeWhile
  obtain ⟨n, hn⟩ := (exists_spells_iff (by omega)).mpr hdigits
  exact ⟨n, .octal h (length_octalRun_le s) hn⟩

/-- A run of hexadecimal digits behind an `x` is an escape. -/
theorem exists_isEscape_hexRun (h : s.takeWhile isHex ≠ []) :
    ∃ n, IsEscape ('x' :: s.takeWhile isHex) (.code n) := by
  have hdigits : ∀ c ∈ s.takeWhile isHex, isHex c := List.all_eq_true.mp List.all_takeWhile
  obtain ⟨n, hn⟩ := (exists_spells_iff (by omega)).mpr hdigits
  exact ⟨n, .hexadecimal h hn⟩

/-! ## Simple escapes -/

theorem simpleEscape?_eq_some_iff : simpleEscape? c = some d ↔ (c, d) ∈ simpleEscapes := by
  have htable : ∀ p ∈ simpleEscapes, simpleEscape? p.1 = some p.2 := by decide
  refine ⟨fun h => ?_, htable (c, d)⟩
  by_cases hc : c ∈ simpleEscapes.map (·.1)
  · obtain ⟨p, hp, rfl⟩ := List.mem_map.mp hc
    have hd : p.2 = d := by simpa [htable p hp] using h
    exact hd ▸ hp
  · have hquote : c.toNat = 39 ↔ c = Char.ofNat 39 :=
      ⟨fun h => by rw [← h, Char.ofNat_toNat], fun h => by rw [h]; rfl⟩
    have hnone : simpleEscape? c = none := by
      simp [simpleEscapes] at hc
      simp [simpleEscape?, hquote, hc]
    simp [hnone] at h

/-- The letters of simple escapes start no other escape. -/
theorem not_isOctal_of_simple (h : (c, d) ∈ simpleEscapes) : isOctal c = false ∧ c ≠ 'x' := by
  have htable : ∀ p ∈ simpleEscapes, isOctal p.1 = false ∧ p.1 ≠ 'x' := by decide
  exact htable (c, d) h

/-! ## The longest token -/

/-- A text starts with nothing that has a meaning, or with a longest start that has one. -/
theorem startsWithNone_or_longest (P : List Char → TokenValue → Prop) (s : List Char) :
    StartsWithNone P s ∨ ∃ t v rest, Longest P s t v rest := by
  by_cases hnone : StartsWithNone P s
  · exact .inl hnone
  · right
    have hsome : ∃ k, ∃ t v, P t v ∧ t <+: s ∧ s.length - t.length = k := by
      simp only [StartsWithNone, not_forall, not_not] at hnone
      obtain ⟨t, v, hmeant, ht⟩ := hnone
      exact ⟨_, t, v, hmeant, ht, rfl⟩
    classical
    -- what is left over by a longest start is least
    obtain ⟨t, v, hmeant, ⟨rest, rfl⟩, hleast⟩ := Nat.find_spec hsome
    refine ⟨t, v, rest, rfl, hmeant, fun other w hother hprefix => ?_⟩
    have hle := Nat.find_min' hsome ⟨other, w, hother, hprefix, rfl⟩
    have hlength := hprefix.length_le
    rw [← hleast, List.length_append] at hle
    rw [List.length_append] at hlength
    omega

theorem Longest.isPrefix (h : Longest P s t v rest) : t <+: s := ⟨rest, h.eq_append.symm⟩

/-- A start that has a meaning and is no shorter than a longest one is that one. -/
theorem Longest.eq_of_length_le {w : TokenValue} (h : Longest P s t v rest) (hrun : run <+: s)
    (hmeant : P run w) (hlength : t.length ≤ run.length) : run = t := by
  have hle := h.length_le run w hmeant hrun
  exact (List.prefix_of_prefix_length_le hrun h.isPrefix hle).eq_of_length (by omega)

theorem longest_plain (h : c ≠ '\\') : Longest IsToken (c :: rest) [c] (.char c) rest := by
  refine ⟨rfl, .plain h, fun other w hother hprefix => ?_⟩
  cases hother with
  | plain => simp
  | escape =>
    obtain ⟨rfl, -⟩ := List.cons_prefix_cons.mp hprefix
    exact absurd rfl h

theorem longest_simple (h : (c, d) ∈ simpleEscapes) :
    Longest IsToken ('\\' :: c :: rest) ['\\', c] (.char d) rest := by
  refine ⟨rfl, .escape (.simple h), fun other w hother hprefix => ?_⟩
  obtain ⟨hoctal, hx⟩ := not_isOctal_of_simple h
  cases hother with
  | plain => simp
  | escape hescape =>
    have hbehind := (List.cons_prefix_cons.mp hprefix).2
    cases hescape with
    | simple => simp
    | octal hne _ hspells =>
      obtain ⟨digit, digits, rfl⟩ := List.exists_cons_of_ne_nil hne
      obtain ⟨rfl, -⟩ := List.cons_prefix_cons.mp hbehind
      simp [isOctal_of_spells hspells] at hoctal
    | hexadecimal =>
      obtain ⟨rfl, -⟩ := List.cons_prefix_cons.mp hbehind
      exact absurd rfl hx

/-- The longest escape behind the backslash of a longest token. -/
theorem Longest.escape {s t : List Char} (h : Longest IsToken ('\\' :: s) ('\\' :: t) v rest) :
    Longest IsEscape s t v rest := by
  refine ⟨by simpa using h.eq_append, ?_, fun other w hother hprefix => ?_⟩
  · cases h.meant with
    | plain hne => exact absurd rfl hne
    | escape hescape => exact hescape
  · have hle := h.length_le ('\\' :: other) w (.escape hother) (by simpa using hprefix)
    simpa using hle

/-- The longest escape takes all octal digits up to the third. -/
theorem Longest.octalRun_eq (h : Longest IsEscape s digits v rest) (hne : digits ≠ [])
    (hlength : digits.length ≤ 3) (hoctal : ∀ c ∈ digits, isOctal c) : octalRun s = digits := by
  have hge := length_le_octalRun h.isPrefix hlength hoctal
  have hrun : octalRun s ≠ [] := fun hempty => by simp [hempty, hne] at hge
  obtain ⟨n, hescape⟩ := exists_isEscape_octalRun hrun
  exact h.eq_of_length_le (isPrefix_octalRun s) hescape hge

/-- The longest escape takes all hexadecimal digits. -/
theorem Longest.takeWhile_isHex_eq (h : Longest IsEscape ('x' :: s) ('x' :: digits) v rest)
    (hne : digits ≠ []) (hhex : ∀ c ∈ digits, isHex c) : s.takeWhile isHex = digits := by
  have hge := length_le_takeWhile (List.cons_prefix_cons.mp h.isPrefix).2 hhex
  have hrun : s.takeWhile isHex ≠ [] := fun hempty => by simp [hempty, hne] at hge
  obtain ⟨n, hescape⟩ := exists_isEscape_hexRun hrun
  have hprefix : 'x' :: s.takeWhile isHex <+: 'x' :: s :=
    List.cons_prefix_cons.mpr ⟨rfl, List.takeWhile_prefix _⟩
  have heq := h.eq_of_length_le hprefix hescape (by simpa)
  simpa using heq

/-! ## One round -/

/-- The character of a token, or its error. -/
def TokenValue.decode (v : TokenValue) (t : List Char) : Except LiteralError Char :=
  match v.char? with
  | some c => .ok c
  | none => .error (.outOfRange (String.ofList t))

theorem numericEscape_eq (hbase : base ≤ 16) (hne : digits ≠ []) (h : Spells base digits n) :
    numericEscape base digits (String.ofList t) = (TokenValue.code n).decode t := by
  have hvalue := (ofDigits?_eq_some_iff hbase).mpr ⟨hne, h⟩
  simp only [numericEscape, hvalue, Option.getD_some, TokenValue.decode, TokenValue.char?]
  split <;> simp_all

/-- The reader takes the longest escape. -/
theorem escape_of_longest (h : Longest IsEscape s t v rest) :
    escape s = (v.decode ('\\' :: t)).map fun c => (c, rest) := by
  obtain rfl := h.eq_append
  cases h.meant with
  | simple hc =>
    have hsimple := simpleEscape?_eq_some_iff.mpr hc
    simp [escape, hsimple, TokenValue.decode, TokenValue.char?, Except.map]
  | octal hne hlength hspells =>
    have hoctal := isOctal_of_spells hspells
    have hrun := h.octalRun_eq hne hlength hoctal
    obtain ⟨c, digits, rfl⟩ := List.exists_cons_of_ne_nil hne
    have hsimple : simpleEscape? c = none := by
      rw [Option.eq_none_iff_forall_ne_some]
      intro d hd
      have hnot := (not_isOctal_of_simple (simpleEscape?_eq_some_iff.mp hd)).1
      simp [hoctal c List.mem_cons_self] at hnot
    rw [List.cons_append] at hrun ⊢
    simp only [escape, hsimple, hoctal c List.mem_cons_self, if_true, hrun]
    rw [numericEscape_eq (by omega) hne hspells, ← List.cons_append, List.drop_left]
  | @hexadecimal digits n hne hspells =>
    have hrun : (digits ++ rest).takeWhile isHex = digits :=
      h.takeWhile_isHex_eq hne (isHex_of_spells hspells)
    have hdrop : (digits ++ rest).dropWhile isHex = rest := by
      have happend := List.takeWhile_append_dropWhile (p := isHex) (l := digits ++ rest)
      rw [hrun] at happend
      exact List.append_cancel_left happend
    have hx : simpleEscape? 'x' = none ∧ isOctal 'x' = false := by decide
    have hnonempty : digits.isEmpty = false := by simpa using hne
    simp only [List.cons_append, escape, hx.1, hx.2, hrun, hdrop, hnonempty, Bool.false_eq_true,
      if_true, if_false]
    rw [numericEscape_eq (by omega) hne hspells]

/-- A backslash that starts no escape is an error. -/
theorem escape_of_none (h : StartsWithNone IsEscape s) :
    ∃ e, escape s = .error e ∧ FailsAtOnce ('\\' :: s) e := by
  cases s with
  | nil => exact ⟨_, rfl, .trailing⟩
  | cons c s =>
    have hunknown : FailsAtOnce ('\\' :: c :: s) (.unknownEscape (String.ofList ['\\', c])) := by
      refine .unknown fun t v htoken hprefix => ?_
      cases htoken with
      | plain hne => exact hne (List.cons_prefix_cons.mp hprefix).1
      | escape hescape => exact h _ _ hescape (List.cons_prefix_cons.mp hprefix).2
    have hsimple : simpleEscape? c = none := by
      rw [Option.eq_none_iff_forall_ne_some]
      intro d hd
      exact h _ _ (.simple (simpleEscape?_eq_some_iff.mp hd)) (by simp)
    have hoctal : isOctal c = false := by
      by_contra hoctal
      obtain ⟨n, hescape⟩ := exists_isEscape_octalRun (s := c :: s) (by simp_all [octalRun])
      exact h _ _ hescape (isPrefix_octalRun _)
    by_cases hx : c = 'x'
    · subst hx
      have hrun : s.takeWhile isHex = [] := by
        by_contra hrun
        obtain ⟨n, hescape⟩ := exists_isEscape_hexRun hrun
        exact h _ _ hescape (List.cons_prefix_cons.mpr ⟨rfl, List.takeWhile_prefix _⟩)
      exact ⟨_, by simp [escape, hsimple, hoctal, hrun], hunknown⟩
    · exact ⟨_, by simp [escape, hsimple, hoctal, hx], hunknown⟩

/-- **The reader takes the longest token.** -/
theorem token_of_longest (h : Longest IsToken s t v rest) :
    token s = (v.decode t).map fun c => some (c, rest) := by
  obtain rfl := h.eq_append
  cases h.meant with
  | plain hc => simp [token, hc, TokenValue.decode, TokenValue.char?, Except.map]
  | escape =>
    rw [List.cons_append] at h ⊢
    rw [token, if_pos rfl, escape_of_longest h.escape]
    cases v.decode _ <;> rfl

/-- Where there is no token, the reader fails. -/
theorem token_of_none (hne : s ≠ []) (h : StartsWithNone IsToken s) :
    ∃ e, token s = .error e ∧ FailsAtOnce s e := by
  obtain ⟨c, s, rfl⟩ := List.exists_cons_of_ne_nil hne
  by_cases hc : c = '\\'
  · subst hc
    obtain ⟨e, he, hfails⟩ := escape_of_none (s := s) fun t v hescape hprefix =>
      h _ _ (.escape hescape) (List.cons_prefix_cons.mpr ⟨rfl, hprefix⟩)
    exact ⟨e, by simp [token, he, Except.map], hfails⟩
  · exact absurd (by simp) (h [c] _ (.plain hc))

/-- What the reader says about a text that fails at once. -/
theorem FailsAtOnce.token_eq {e : LiteralError} (h : FailsAtOnce s e) : token s = .error e := by
  cases h with
  | outOfRange h hn =>
    rw [token_of_longest h]
    simp [TokenValue.decode, TokenValue.char?, Nat.not_le.mpr hn, Except.map]
  | trailing => rfl
  | unknown h =>
    obtain ⟨e, he, hfails⟩ := token_of_none (by simp) h
    cases hfails with
    | outOfRange hlongest => exact absurd hlongest.isPrefix (h _ _ hlongest.meant)
    | unknown => exact he

theorem IsToken.ne_nil (h : IsToken t v) : t ≠ [] := by
  cases h <;> simp

theorem Longest.length_lt (h : Longest IsToken s t v rest) : rest.length < s.length := by
  have hpos := List.length_pos_iff.mpr h.meant.ne_nil
  rw [h.eq_append, List.length_append]
  omega

theorem TokenValue.decode_of_char? (h : v.char? = some c) (t : List Char) : v.decode t = .ok c := by
  rw [TokenValue.decode, h]

/-! ## Texts -/

/-- What the reader gives for a text that starts with a token. -/
theorem decodeChars_of_longest {fuel : Nat} (h : Longest IsToken s t v rest) :
    decodeChars (fuel + 1) s =
      v.decode t >>= fun c => (decodeChars fuel rest).map (c :: ·) := by
  rw [decodeChars, token_of_longest h]
  cases v.decode t <;> rfl

/-- The reader splits a text into longest tokens that all mean characters, or finds the first place
where that is not possible. -/
theorem munches_of_decodeChars {fuel : Nat} (hfuel : s.length ≤ fuel) :
    (∃ tokens cs, Munches s tokens [] ∧ Mean tokens cs ∧ decodeChars fuel s = .ok cs) ∨
      ∃ tokens last cs e, Munches s tokens last ∧ Mean tokens cs ∧ FailsAtOnce last e ∧
        decodeChars fuel s = .error e := by
  induction fuel generalizing s with
  | zero =>
    obtain rfl : s = [] := by simpa using hfuel
    exact .inl ⟨[], [], .nil [], .nil, rfl⟩
  | succ fuel ih =>
    by_cases hne : s = []
    · subst hne
      exact .inl ⟨[], [], .nil [], .nil, rfl⟩
    · rcases startsWithNone_or_longest IsToken s with hnone | ⟨t, v, rest, hlongest⟩
      · obtain ⟨e, he, hfails⟩ := token_of_none hne hnone
        exact .inr ⟨[], s, [], e, .nil s, .nil, hfails, by rw [decodeChars, he]⟩
      · have hshorter := hlongest.length_lt
        rw [decodeChars_of_longest hlongest, TokenValue.decode]
        cases hvalue : v.char? with
        | none =>
          cases v with
          | char c => simp [TokenValue.char?] at hvalue
          | code n =>
            have hn : 255 < n := by simpa [TokenValue.char?] using hvalue
            exact .inr ⟨[], s, [], _, .nil s, .nil, .outOfRange hlongest hn, rfl⟩
        | some c =>
          rcases ih (s := rest) (by omega) with
            ⟨tokens, cs, hsplit, hmean, hread⟩ | ⟨tokens, last, cs, e, hsplit, hmean, hfails, hread⟩
          · exact .inl ⟨_, _, .cons hlongest hsplit, .cons hvalue hmean,
              by simp [hread, bind, Except.bind, Except.map]⟩
          · exact .inr ⟨_, last, _, e, .cons hlongest hsplit, .cons hvalue hmean, hfails,
              by simp [hread, bind, Except.bind, Except.map]⟩

/-- The tokens in front of the last text are read as the characters that they mean. -/
theorem decodeChars_of_munches {tokens : List (List Char × TokenValue)} {last cs : List Char}
    (h : Munches s tokens last) (hmean : Mean tokens cs) {fuel : Nat} (hfuel : s.length ≤ fuel) :
    ∃ left, last.length ≤ left ∧
      decodeChars fuel s = (decodeChars left last).map (cs ++ ·) := by
  induction h generalizing cs fuel with
  | nil s =>
    cases hmean
    refine ⟨fuel, hfuel, ?_⟩
    cases decodeChars fuel s <;> rfl
  | @cons s t v rest tokens last hlongest _ ih =>
    cases hmean with | cons hvalue hmean =>
    have hshorter := hlongest.length_lt
    obtain ⟨fuel, rfl⟩ : ∃ k, fuel = k + 1 := ⟨fuel - 1, by omega⟩
    have hrest : rest.length ≤ fuel := by omega
    obtain ⟨left, hleft, hread⟩ := ih hmean hrest
    refine ⟨left, hleft, ?_⟩
    rw [decodeChars_of_longest hlongest, TokenValue.decode_of_char? hvalue, hread]
    cases decodeChars left last <;> rfl

theorem decodeChars_nil (fuel : Nat) : decodeChars fuel [] = .ok [] := by
  cases fuel <;> rfl

/-- The reader gives the characters of the longest tokens. -/
theorem decodeChars_eq_ok_iff {fuel : Nat} (hfuel : s.length ≤ fuel) {cs : List Char} :
    decodeChars fuel s = .ok cs ↔ ∃ tokens, Munches s tokens [] ∧ Mean tokens cs := by
  constructor
  · intro h
    rcases munches_of_decodeChars hfuel with
      ⟨tokens, cs', hsplit, hmean, hread⟩ | ⟨_, _, _, e, _, _, _, hread⟩
    · obtain rfl : cs' = cs := Except.ok.inj (hread.symm.trans h)
      exact ⟨tokens, hsplit, hmean⟩
    · cases hread.symm.trans h
  · rintro ⟨tokens, hsplit, hmean⟩
    obtain ⟨left, _, hread⟩ := decodeChars_of_munches hsplit hmean hfuel
    simp [hread, decodeChars_nil, Except.map]

/-- The reader gives the error of the first token that is missing or means no character. -/
theorem decodeChars_eq_error_iff {fuel : Nat} (hfuel : s.length ≤ fuel) {e : LiteralError} :
    decodeChars fuel s = .error e ↔
      ∃ tokens last cs, Munches s tokens last ∧ Mean tokens cs ∧ FailsAtOnce last e := by
  constructor
  · intro h
    rcases munches_of_decodeChars hfuel with
      ⟨_, _, _, _, hread⟩ | ⟨tokens, last, cs, e', hsplit, hmean, hfails, hread⟩
    · cases hread.symm.trans h
    · obtain rfl : e' = e := Except.error.inj (hread.symm.trans h)
      exact ⟨tokens, last, cs, hsplit, hmean, hfails⟩
  · rintro ⟨tokens, last, cs, hsplit, hmean, hfails⟩
    obtain ⟨left, hleft, hread⟩ := decodeChars_of_munches hsplit hmean hfuel
    have hlast : last ≠ [] := by
      rintro rfl
      cases hfails.token_eq
    have hpos := List.length_pos_iff.mpr hlast
    obtain ⟨left, rfl⟩ : ∃ k, left = k + 1 := ⟨left - 1, by omega⟩
    rw [hread, decodeChars, hfails.token_eq]
    rfl

/-- With every backslash doubled, a text is split into tokens that mean its characters. -/
theorem munches_doubled (cs : List Char) :
    ∃ tokens, Munches (doubled cs) tokens [] ∧ Mean tokens cs := by
  induction cs with
  | nil => exact ⟨[], .nil [], .nil⟩
  | cons c cs ih =>
    obtain ⟨tokens, hsplit, hmean⟩ := ih
    by_cases hc : c = '\\'
    · subst hc
      have hbackslash : ('\\', '\\') ∈ simpleEscapes := by decide
      have heq : doubled ('\\' :: cs) = '\\' :: '\\' :: doubled cs := by simp [doubled]
      rw [heq]
      exact ⟨_, .cons (longest_simple hbackslash) hsplit, .cons rfl hmean⟩
    · have heq : doubled (c :: cs) = c :: doubled cs := by simp [doubled, hc]
      rw [heq]
      exact ⟨_, .cons (longest_plain hc) hsplit, .cons rfl hmean⟩

theorem decodeString_eq_ok_iff {raw s : String} :
    decodeString raw = .ok s ↔ decodeChars raw.length raw.toList = .ok s.toList := by
  rw [decodeString, except_map_eq_ok]
  constructor
  · rintro ⟨cs, hcs, rfl⟩
    rw [hcs, String.toList_ofList]
  · intro h
    exact ⟨_, h, String.ofList_toList⟩

/-- **The text of a string literal.** A literal has a text when it can be split from the left into
longest tokens that all mean characters, and the text is these characters in order. Otherwise the
literal has the error of the first token that is missing or whose number is above 255. So the text
of a literal in which every backslash is doubled is the literal before. -/
theorem decodeString_longest_tokens (raw : String) :
    (∀ s : String, decodeString raw = .ok s ↔
      ∃ tokens, Munches raw.toList tokens [] ∧ Mean tokens s.toList) ∧
    (∀ e, decodeString raw = .error e ↔
      ∃ tokens last cs, Munches raw.toList tokens last ∧ Mean tokens cs ∧ FailsAtOnce last e) ∧
    decodeString (String.ofList (doubled raw.toList)) = .ok raw := by
  have hlength : ∀ raw : String, raw.toList.length ≤ raw.length := by
    intro raw
    rw [String.length_toList]
  refine ⟨fun s => ?_, fun e => ?_, ?_⟩
  · rw [decodeString_eq_ok_iff, decodeChars_eq_ok_iff (hlength raw)]
  · rw [decodeString, except_map_eq_error, decodeChars_eq_error_iff (hlength raw)]
  · rw [decodeString_eq_ok_iff, decodeChars_eq_ok_iff (hlength _), String.toList_ofList]
    exact munches_doubled raw.toList

/-- Leading zeros do not count, and a third octal digit is the last. -/
example : decodeString "\\x000000000041\\1012" = .ok "AA2" := by decide +kernel

end ForeignCall
