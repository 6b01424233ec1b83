/-
Parsing.Proofs.Tokens — what a repeated choice of matchers takes off a text.

A matcher that stands before a text takes a token off it, or none
(`Matcher.token?`), and of several matchers the first that takes one
counts (`firstToken?`).  `Tokens` is a whole tokenisation: every token is
the one that counts before what follows it, and before the rest there is
none.  `tokenizer_run_iff` says that this is what the engine does, so that
arguments about languages need not look at a state.

What a tokenizer takes as a whole is said by a property of prefixes of the
input (`Text.IsLongestPrefix`).
-/
import Mathlib
import Parsing.Grammar
import Parsing.Proofs.Matching

namespace Parsing

/-! ## Prefixes -/

namespace Text

/-- A text of accepted characters that is not empty. -/
def IsRun (accepts : Char → Bool) (text : String) : Prop :=
  text ≠ "" ∧ ∀ ch ∈ text.toList, accepts ch = true

/-- Of the prefixes of the text that have the property, `head` is the
longest. -/
structure IsLongestPrefix (P : String → Prop) (text head : String) : Prop where
  exists_append : ∃ rest, text = head ++ rest
  holds : P head
  longest : ∀ other rest, text = other ++ rest → P other →
    other.utf8ByteSize ≤ head.utf8ByteSize

variable {P : String → Prop} {accepts : Char → Bool} {text head head' rest : String}

/-- A prefix is the longest if what follows it cannot be continued, for a
property that only depends on the continuation. -/
theorem isLongestPrefix_append (hhead : P head)
    (hcancel : ∀ other, P (head ++ other) → P other)
    (hstuck : ∀ other rest', rest = other ++ rest' → P other → other = "") :
    IsLongestPrefix P (head ++ rest) head where
  exists_append := ⟨rest, rfl⟩
  holds := hhead
  longest other rest' h hother := by
    by_contra hlonger
    obtain ⟨z, rfl⟩ := exists_append_of_append_eq h (by omega)
    rw [String.append_assoc, String.append_right_inj] at h
    have hz : z = "" := hstuck z rest' h (hcancel z hother)
    simp [hz] at hlonger

/-- The longest prefix of characters of a kind ends where no character of
that kind comes. -/
theorem isLongestPrefix_all {Q : Char → Prop} (hhead : ∀ ch ∈ head.toList, Q ch)
    (hstop : ∀ ch ∈ rest.toList.head?, ¬ Q ch) :
    IsLongestPrefix (fun prefixText => ∀ ch ∈ prefixText.toList, Q ch) (head ++ rest) head := by
  refine isLongestPrefix_append hhead (fun other hother ch hch => ?_) ?_
  · exact hother ch (by simp [hch])
  · rintro other rest' rfl hother
    by_contra hne
    obtain ⟨ch, chars, hchars⟩ := List.exists_cons_of_ne_nil (mt String.toList_eq_nil_iff.1 hne)
    exact hstop ch (by simp [hchars]) (hother ch (by simp [hchars]))

theorem isLongestPrefix_leadingRun (accepts : Char → Bool) (text : String) :
    IsLongestPrefix (fun prefixText => ∀ ch ∈ prefixText.toList, accepts ch = true) text
      (leadingRun accepts text) := by
  obtain ⟨rest, htext, hall, hstop⟩ := leadingRun_eq_iff.1 (Eq.refl (leadingRun accepts text))
  have hstop' : ∀ ch ∈ rest.toList.head?, ¬ accepts ch = true := by simpa using hstop
  have hlongest := isLongestPrefix_all (Q := fun ch => accepts ch = true) hall hstop'
  rwa [← htext] at hlongest

/-- Every text but the empty one has a first character. -/
theorem exists_head_of_ne_empty (h : text ≠ "") : ∃ ch, text.toList.head? = some ch := by
  obtain ⟨ch, chars, hchars⟩ := List.exists_cons_of_ne_nil (mt String.toList_eq_nil_iff.1 h)
  exact ⟨ch, by simp [hchars]⟩

theorem head?_append {ch : Char} (h : head.toList.head? = some ch) (rest : String) :
    (head ++ rest).toList.head? = some ch := by
  simp [String.toList_append, h]

theorem IsRun.exists_head (h : IsRun accepts text) :
    ∃ ch, text.toList.head? = some ch ∧ accepts ch = true := by
  obtain ⟨ch, hch⟩ := exists_head_of_ne_empty h.1
  exact ⟨ch, hch, h.2 ch (List.mem_of_mem_head? hch)⟩

end Text

/-! ## What a matcher takes -/

namespace Matcher

/-- The token that the matcher takes off the start of a text, if any. -/
def token? : Matcher → String → Option String
  | .literal l, text => if text.startsWith l.expected then some l.expected else none
  | .charClass c, text =>
      let run := Text.leadingRun c.accepts text
      if run = "" then none else some run

/-- How the tokens of the matcher look. -/
def Takes : Matcher → String → Prop
  | .literal l, token => token = l.expected
  | .charClass c, token => Text.IsRun c.accepts token

/-- What may follow a token of the matcher: a run is not continued. -/
def EndsBefore : Matcher → String → Prop
  | .literal _, _ => True
  | .charClass c, rest => ∀ ch ∈ rest.toList.head?, c.accepts ch = false

variable {m : Matcher} {u w text token rest : String} {j : Nat}

theorem token?_eq_some_iff :
    m.token? text = some token ↔
      ∃ rest, text = token ++ rest ∧ m.Takes token ∧ m.EndsBefore rest := by
  cases m with
  | literal l =>
    simp only [token?, Takes, EndsBefore, Option.ite_none_right_eq_some, Option.some.injEq,
      Text.startsWith_iff_exists_append]
    constructor
    · rintro ⟨⟨rest, rfl⟩, rfl⟩
      exact ⟨rest, rfl, rfl, trivial⟩
    · rintro ⟨rest, rfl, rfl, -⟩
      exact ⟨⟨rest, rfl⟩, rfl⟩
  | charClass c =>
    simp only [token?, Takes, EndsBefore, Option.ite_none_left_eq_some, Option.some.injEq]
    constructor
    · rintro ⟨hne, hrun⟩
      rw [hrun] at hne
      obtain ⟨rest, rfl, hall, hstop⟩ := Text.leadingRun_eq_iff.1 hrun
      exact ⟨rest, rfl, ⟨hne, hall⟩, hstop⟩
    · rintro ⟨rest, htext, ⟨hne, hall⟩, hstop⟩
      have hrun := Text.leadingRun_eq_iff.2 ⟨rest, htext, hall, hstop⟩
      exact ⟨hrun ▸ hne, hrun⟩

/-- The engine's matcher takes the token. -/
theorem parser_succeeds_iff :
    m.parser.Succeeds (u ++ w) u.utf8ByteSize token j ↔
      m.token? w = some token ∧ j = (u ++ token).utf8ByteSize := by
  cases m with
  | literal l =>
    simp only [parser, Literal.succeeds_iff, token?, Option.ite_none_right_eq_some,
      Option.some.injEq, Text.startsWith_iff_exists_append]
    constructor
    · rintro ⟨rest, rfl, rfl, rfl⟩
      exact ⟨⟨⟨rest, rfl⟩, rfl⟩, rfl⟩
    · rintro ⟨⟨⟨rest, rfl⟩, rfl⟩, rfl⟩
      exact ⟨rest, rfl, rfl, rfl⟩
  | charClass c =>
    simp only [parser, CharClass.succeeds_iff, token?, Option.ite_none_left_eq_some,
      Option.some.injEq]
    constructor
    · rintro ⟨hrun, hne, rfl⟩
      exact ⟨⟨hrun ▸ hne, hrun⟩, rfl⟩
    · rintro ⟨⟨hne, hrun⟩, rfl⟩
      exact ⟨hrun, hrun ▸ hne, rfl⟩

theorem Takes.ne_empty (h : m.Takes token) : token ≠ "" := by
  cases m with
  | literal l => exact h ▸ l.expected_ne_empty
  | charClass c => exact h.1

/-- No token is empty, so a matcher does not succeed where it stands. -/
theorem moves (h : m.parser.Succeeds (u ++ w) u.utf8ByteSize token j) : u.utf8ByteSize < j := by
  obtain ⟨htoken, rfl⟩ := parser_succeeds_iff.1 h
  obtain ⟨-, -, htakes, -⟩ := token?_eq_some_iff.1 htoken
  have hpos : token.utf8ByteSize ≠ 0 := mt String.utf8ByteSize_eq_zero_iff.1 htakes.ne_empty
  rw [String.utf8ByteSize_append]
  omega

end Matcher

/-! ## What a tokenizer takes -/

/-- The token of the first matcher that takes one. -/
def firstToken? (ms : List Matcher) (text : String) : Option String :=
  ms.findSome? fun m => m.token? text

/-- One of the matchers, as often as one of them matches. -/
def tokenizer (ms : List Matcher) : Expr (List String) :=
  .many (.choiceOfList (ms.map .matcher))

/-- Off the tokens' concatenation with `rest` behind it, the tokens are
taken one after the other, and off `rest` none is taken. -/
def Tokens (ms : List Matcher) : List String → String → Prop
  | [], rest => firstToken? ms rest = none
  | token :: tokens, rest =>
      firstToken? ms (token ++ (String.join tokens ++ rest)) = some token ∧
        Tokens ms tokens rest

section Engine

variable {ms : List Matcher} {u w text token target rest : String} {tokens : List String}
  {j : Nat}

theorem exists_of_firstToken? (h : firstToken? ms text = some token) :
    ∃ m ∈ ms, ∃ rest, text = token ++ rest ∧ m.Takes token ∧ m.EndsBefore rest := by
  obtain ⟨m, hm, htoken⟩ := List.exists_of_findSome?_eq_some h
  exact ⟨m, hm, Matcher.token?_eq_some_iff.1 htoken⟩

/-- A lawful parser fails where there is no text that it takes. -/
theorem Parser.Lawful.fails_iff_eq_none {p : Parser String} (hp : p.Lawful)
    {taken : Option String}
    (h : ∀ token j, p.Succeeds (u ++ w) u.utf8ByteSize token j ↔
      taken = some token ∧ j = (u ++ token).utf8ByteSize) :
    p.Fails (u ++ w) u.utf8ByteSize ↔ taken = none := by
  rcases hp.cases (Text.isBoundary_append u w) with ⟨token, j, hsucceeds, -⟩ | hfails
  · have htaken := ((h token j).1 hsucceeds).1
    simp [htaken, hsucceeds.not_fails]
  · simp only [hfails, true_iff]
    rw [Option.eq_none_iff_forall_ne_some]
    intro token htaken
    exact ((h token _).2 ⟨htaken, rfl⟩).not_fails hfails

theorem matcherChoice_succeeds_iff :
    (Parser.choice (ms.map Matcher.parser)).Succeeds (u ++ w) u.utf8ByteSize token j ↔
      firstToken? ms w = some token ∧ j = (u ++ token).utf8ByteSize := by
  have hb := Text.isBoundary_append u w
  induction ms with
  | nil =>
    have hnil : ¬ (Parser.choice ([] : List (Parser String))).Succeeds (u ++ w)
        u.utf8ByteSize token j := fun h => h.not_failsWith Parser.choice_nil_failsWith
    simp [hnil, firstToken?]
  | cons m ms ih =>
    have hfails : m.parser.Fails (u ++ w) u.utf8ByteSize ↔ m.token? w = none :=
      m.parser_lawful.fails_iff_eq_none fun _ _ => Matcher.parser_succeeds_iff
    simp only [List.map_cons, Parser.choice_cons_succeeds m.parser_lawful hb, hfails,
      Matcher.parser_succeeds_iff, ih]
    cases h : m.token? w <;> simp [firstToken?, h]

theorem matcherChoice_lawful (ms : List Matcher) :
    (Parser.choice (ms.map Matcher.parser)).Lawful := by
  refine Parser.Lawful.choice fun p hp => ?_
  obtain ⟨m, -, rfl⟩ := List.mem_map.1 hp
  exact m.parser_lawful

theorem matcherChoice_fails_iff :
    (Parser.choice (ms.map Matcher.parser)).Fails (u ++ w) u.utf8ByteSize ↔
      firstToken? ms w = none :=
  (matcherChoice_lawful ms).fails_iff_eq_none fun _ _ => matcherChoice_succeeds_iff

/-- Tokens are not empty, so a choice of matchers does not stay where it
is. -/
theorem matcherChoice_moves
    (h : (Parser.choice (ms.map Matcher.parser)).Succeeds (u ++ w) u.utf8ByteSize token j) :
    u.utf8ByteSize < j := by
  obtain ⟨p, hp, ha⟩ := Parser.exists_of_choice_eq_ok h
  obtain ⟨m, -, rfl⟩ := List.mem_map.1 hp
  exact m.moves ha

/-- By induction on the tokens kept, each of which is one round. -/
theorem many_matcherChoice_succeeds_iff :
    (Parser.many (Parser.choice (ms.map Matcher.parser))).Succeeds (u ++ w)
        u.utf8ByteSize tokens j ↔
      ∃ rest, w = String.join tokens ++ rest ∧ Tokens ms tokens rest ∧
        j = (u ++ String.join tokens).utf8ByteSize := by
  have hlawful := matcherChoice_lawful ms
  have hb := Text.isBoundary_append u w
  induction tokens generalizing u w j with
  | nil =>
    rw [Parser.many_nil_succeeds hlawful hb, matcherChoice_fails_iff]
    have hmoves : ¬ ∃ token, (Parser.choice (ms.map Matcher.parser)).Succeeds (u ++ w)
        u.utf8ByteSize token u.utf8ByteSize :=
      fun ⟨_, h⟩ => Nat.lt_irrefl _ (matcherChoice_moves h)
    simp only [hmoves, or_false, String.join_nil, String.empty_append, String.append_empty,
      Tokens]
    constructor
    · rintro ⟨hj, hnone⟩
      exact ⟨w, rfl, hnone, hj⟩
    · rintro ⟨rest, rfl, hnone, hj⟩
      exact ⟨hj, hnone⟩
  | cons token tokens ih =>
    rw [Parser.many_cons_succeeds hlawful hb]
    constructor
    · rintro ⟨k, hsucceeds, -, hrest⟩
      obtain ⟨hfirst, rfl⟩ := matcherChoice_succeeds_iff.1 hsucceeds
      obtain ⟨m, -, w', rfl, -⟩ := exists_of_firstToken? hfirst
      rw [← String.append_assoc] at hrest
      obtain ⟨rest, rfl, htokens, rfl⟩ := (ih (Text.isBoundary_append _ _)).1 hrest
      refine ⟨rest, by simp [String.join_cons, String.append_assoc], ⟨hfirst, htokens⟩, ?_⟩
      simp [String.join_cons, String.append_assoc]
    · rintro ⟨rest, rfl, ⟨hfirst, htokens⟩, rfl⟩
      rw [String.join_cons, String.append_assoc]
      have hsucceeds := matcherChoice_succeeds_iff.2 ⟨hfirst, Eq.refl (u ++ token).utf8ByteSize⟩
      have hrest := (ih (Text.isBoundary_append (u ++ token) _)).2 ⟨rest, rfl, htokens, rfl⟩
      rw [String.append_assoc, String.append_assoc] at hrest
      exact ⟨_, hsucceeds, matcherChoice_moves hsucceeds, hrest⟩

theorem parser_tokenizer (ms : List Matcher) :
    (tokenizer ms).parser = Parser.many (Parser.choice (ms.map Matcher.parser)) := by
  rw [tokenizer, Expr.parser, Expr.parser_choiceOfList, List.map_map]
  rfl

/-- **A tokenizer tokenises.**  Run on an input, the engine succeeds with
the tokens that make up the input but for its rest, behind the last of
them. -/
theorem tokenizer_run_iff :
    (tokenizer ms).run target = ⟨target, (String.join tokens).utf8ByteSize, .ok tokens⟩ ↔
      ∃ rest, target = String.join tokens ++ rest ∧ Tokens ms tokens rest := by
  have hmany : (tokenizer ms).parser.Succeeds ("" ++ target) "".utf8ByteSize tokens
        (String.join tokens).utf8ByteSize ↔
      ∃ rest, target = String.join tokens ++ rest ∧ Tokens ms tokens rest ∧
        (String.join tokens).utf8ByteSize = ("" ++ String.join tokens).utf8ByteSize := by
    rw [parser_tokenizer]
    exact many_matcherChoice_succeeds_iff
  simp only [String.empty_append, and_true, String.utf8ByteSize_empty] at hmany
  exact hmany

theorem exists_tokens (ms : List Matcher) (target : String) :
    ∃ tokens rest, target = String.join tokens ++ rest ∧ Tokens ms tokens rest := by
  have hb := Text.isBoundary_append "" target
  obtain ⟨tokens, j, h⟩ := Parser.exists_many_succeeds (matcherChoice_lawful ms) hb
  obtain ⟨rest, htarget, htokens, -⟩ := many_matcherChoice_succeeds_iff.1 h
  exact ⟨tokens, rest, htarget, htokens⟩

/-- The engine gives one answer, so there is one tokenisation. -/
theorem Tokens.unique {tokens' : List String} {rest' : String} (h : Tokens ms tokens rest)
    (h' : Tokens ms tokens' rest')
    (heq : String.join tokens ++ rest = String.join tokens' ++ rest') : tokens = tokens' := by
  have hrun := tokenizer_run_iff.2 ⟨rest, rfl, h⟩
  have hrun' := tokenizer_run_iff.2 ⟨rest', heq, h'⟩
  rw [hrun] at hrun'
  exact Except.ok.inj (congrArg State.outcome hrun')

theorem Tokens.firstToken?_rest (h : Tokens ms tokens rest) : firstToken? ms rest = none := by
  induction tokens with
  | nil => exact h
  | cons token tokens ih => exact ih h.2

/-- Every token is the one that counts before what follows it. -/
theorem Tokens.firstToken?_of_append {before after : List String}
    (h : Tokens ms (before ++ token :: after) rest) :
    firstToken? ms (token ++ (String.join after ++ rest)) = some token := by
  induction before with
  | nil => exact h.1
  | cons _ before ih => exact ih h.2

theorem Tokens.exists_takes (h : Tokens ms tokens rest) (htoken : token ∈ tokens) :
    ∃ m ∈ ms, m.Takes token := by
  obtain ⟨before, after, rfl⟩ := List.append_of_mem htoken
  obtain ⟨m, hm, -, -, htakes, -⟩ := exists_of_firstToken? h.firstToken?_of_append
  exact ⟨m, hm, htakes⟩

end Engine

end Parsing
