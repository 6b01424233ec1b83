/-
Parsing.Proofs.Language — what the two grammars accept, and how they take
it apart.

Neither grammar ever fails.  Each takes the longest prefix of its language
off the input, and its answer is the only way of taking that prefix apart:
`greetings` into its words and runs of white space, `words` into runs of
letters and runs of digits that take turns.  For both this is
`tokenizer_takes_longest`, since their matchers are told apart by the first
character.

Of `words` more is said.  It is a choice of classes, and a choice of
classes takes the longest prefix of accepted characters whatever the
classes are.  They may overlap, and then the first class that accepts a
character decides how far the run goes that starts with it.
-/
import Mathlib
import Parsing.Proofs.Split

namespace Parsing

open Matcher

/-! ## Greetings -/

/-- The words start with different characters, none of which is white
space. -/
theorem Grammar.greetings_apart : Apart Grammar.greetings.matchers := by
  have hwords : ∀ l ∈ greetingWords, ∀ l' ∈ greetingWords,
      l.expected.toList.head? = l'.expected.toList.head? → l = l' := by decide
  have hblank : ∀ l ∈ greetingWords, ∀ ch, l.expected.toList.head? = some ch →
      Text.isAsciiBlank ch = false := by
    have hany : ∀ l ∈ greetingWords,
        l.expected.toList.head?.any Text.isAsciiBlank = false := by decide
    intro l hl ch hch
    simpa [hch] using hany l hl
  intro m hm m' hm' ch h h'
  simp only [Grammar.matchers, List.mem_append, List.mem_map, List.mem_singleton] at hm hm'
  rcases hm with ⟨l, hl, rfl⟩ | rfl <;> rcases hm' with ⟨l', hl', rfl⟩ | rfl
  · rw [hwords l hl l' hl' (Eq.trans h (Eq.symm h'))]
  · simp [StartsWith, CharClass.whitespace, hblank l hl ch h] at h'
  · simp [StartsWith, CharClass.whitespace, hblank l' hl' ch h'] at h
  · rfl

/-- **What `greetings` accepts.**  On every input it succeeds.  It stops
behind the longest prefix that is a concatenation of the words hello,
world, foo and bar and of white space characters; its values make up that
prefix, each of them a word or a run of white space, and no two runs side
by side; and no other list of texts does that. -/
theorem greetings_takes_longest (target : String) :
    ∃ tokens,
      Grammar.greetings.run target =
        ⟨target, (String.join tokens).utf8ByteSize, .ok tokens⟩ ∧
      Text.IsLongestPrefix
        (Text.IsConcat ["hello", "world", "foo", "bar"] [Text.isAsciiBlank]) target
        (String.join tokens) ∧
      Text.IsSplit ["hello", "world", "foo", "bar"] [Text.isAsciiBlank] tokens ∧
      ∀ tokens', String.join tokens' = String.join tokens →
        Text.IsSplit ["hello", "world", "foo", "bar"] [Text.isAsciiBlank] tokens' →
        tokens' = tokens :=
  tokenizer_takes_longest Grammar.greetings_apart target

/-! ## Classes -/

section Classes

variable {classes : List CharClass} {text token rest : String} {tokens : List String}

/-- Of several classes the first that accepts the first character counts. -/
theorem firstToken?_charClasses {ch : Char} (hch : text.toList.head? = some ch) :
    firstToken? (classes.map .charClass) text =
      (classes.find? fun c => c.accepts ch).map fun c => Text.leadingRun c.accepts text := by
  induction classes with
  | nil => rfl
  | cons c classes ih =>
    have hempty : Text.leadingRun c.accepts text = "" ↔ c.accepts ch = false := by
      simp [Text.leadingRun_eq_empty_iff, hch]
    rw [firstToken?, List.map_cons, List.findSome?_cons]
    by_cases haccepts : c.accepts ch = true
    · simp [token?, hempty, haccepts]
    · simp only [token?, hempty, haccepts, if_true, List.find?_cons]
      exact ih

theorem Tokens.isLongestPrefix_charClasses (h : Tokens (classes.map .charClass) tokens rest) :
    Text.IsLongestPrefix (fun prefixText => ∀ ch ∈ prefixText.toList,
        ∃ c ∈ classes, c.accepts ch = true)
      (String.join tokens ++ rest) (String.join tokens) := by
  refine Text.isLongestPrefix_all (fun ch hch => ?_) fun ch hch => ?_
  · rw [String.toList_join, List.mem_flatMap] at hch
    obtain ⟨token, htoken, hch⟩ := hch
    obtain ⟨m, hm, htakes⟩ := h.exists_takes htoken
    obtain ⟨c, hc, rfl⟩ := List.mem_map.1 hm
    exact ⟨c, hc, htakes.2 ch hch⟩
  · have hnone := h.firstToken?_rest
    rw [firstToken?_charClasses hch, Option.map_eq_none_iff, List.find?_eq_none] at hnone
    rintro ⟨c, hc, haccepts⟩
    exact hnone c hc haccepts

/-- A token is the longest run, from where it starts, of the first class
that accepts its first character. -/
theorem Tokens.exists_class {before after : List String}
    (h : Tokens (classes.map .charClass) (before ++ token :: after) rest) :
    ∃ ch c, (token ++ (String.join after ++ rest)).toList.head? = some ch ∧
      classes.find? (fun c => c.accepts ch) = some c ∧
      Text.IsLongestPrefix (fun prefixText => ∀ ch ∈ prefixText.toList, c.accepts ch = true)
        (token ++ (String.join after ++ rest)) token := by
  have hfirst := h.firstToken?_of_append
  have hmem : token ∈ before ++ token :: after := by simp
  obtain ⟨m, -, htakes⟩ := h.exists_takes hmem
  obtain ⟨ch, hch⟩ := Text.exists_head_of_ne_empty htakes.ne_empty
  have hhead := Text.head?_append hch (String.join after ++ rest)
  rw [firstToken?_charClasses hhead, Option.map_eq_some_iff] at hfirst
  obtain ⟨c, hc, hrun⟩ := hfirst
  have hlongest := Text.isLongestPrefix_leadingRun c.accepts
    (token ++ (String.join after ++ rest))
  rw [hrun] at hlongest
  exact ⟨ch, c, hhead, hc, hlongest⟩

end Classes

/-! ## Words -/

/-- No character is both a letter and a digit. -/
theorem Text.isDigit_eq_false_of_isAlpha {ch : Char} (h : ch.isAlpha = true) :
    ch.isDigit = false := by
  simp only [Char.isAlpha, Char.isUpper, Char.isLower, Bool.or_eq_true, Bool.and_eq_true,
    decide_eq_true_eq, UInt32.le_iff_toNat_le, ge_iff_le] at h
  simp only [Char.isDigit, Bool.and_eq_false_iff, decide_eq_false_iff_not,
    UInt32.le_iff_toNat_le, ge_iff_le]
  have hA : 'A'.val.toNat = 65 := rfl
  have ha : 'a'.val.toNat = 97 := rfl
  have h9 : '9'.val.toNat = 57 := rfl
  omega

theorem Grammar.words_apart : Apart Grammar.words.matchers := by
  intro m hm m' hm' ch h h'
  simp only [Grammar.matchers, List.mem_cons, List.not_mem_nil, or_false] at hm hm'
  rcases hm with rfl | rfl <;> rcases hm' with rfl | rfl
  · rfl
  · simp [StartsWith, CharClass.digits, Text.isDigit_eq_false_of_isAlpha h] at h'
  · simp [StartsWith, CharClass.digits, Text.isDigit_eq_false_of_isAlpha h'] at h
  · rfl

/-- **What a repeated choice of classes takes.**  Whatever the classes, it
succeeds and stops behind the longest prefix of characters that one of them
accepts.  Its values make up that prefix; none is empty, and each is the
longest run, from where it starts, of the first class that accepts its
first character.

So `words` takes the longest prefix of letters and digits, and its values
are runs of letters and runs of digits that take turns, which can be said
of no other list of texts that makes up that prefix. -/
theorem classes_take_longest :
    (∀ (classes : List CharClass) (target : String), ∃ tokens,
      (tokenizer (classes.map .charClass)).run target =
        ⟨target, (String.join tokens).utf8ByteSize, .ok tokens⟩ ∧
      Text.IsLongestPrefix (fun prefixText => ∀ ch ∈ prefixText.toList,
        ∃ c ∈ classes, c.accepts ch = true) target (String.join tokens) ∧
      (∀ token ∈ tokens, token ≠ "") ∧
      ∀ before token after, tokens = before ++ token :: after →
        ∃ text ch c, target = String.join before ++ text ∧
          text.toList.head? = some ch ∧ classes.find? (fun c => c.accepts ch) = some c ∧
          Text.IsLongestPrefix (fun prefixText => ∀ ch ∈ prefixText.toList, c.accepts ch = true)
            text token) ∧
    ∀ target : String, ∃ tokens,
      Grammar.words.run target = ⟨target, (String.join tokens).utf8ByteSize, .ok tokens⟩ ∧
      Text.IsLongestPrefix (fun prefixText => ∀ ch ∈ prefixText.toList, ch.isAlphanum = true)
        target (String.join tokens) ∧
      Text.IsSplit [] [Char.isAlpha, Char.isDigit] tokens ∧
      ∀ tokens', String.join tokens' = String.join tokens →
        Text.IsSplit [] [Char.isAlpha, Char.isDigit] tokens' → tokens' = tokens := by
  constructor
  · intro classes target
    obtain ⟨tokens, rest, rfl, htokens⟩ := exists_tokens (classes.map .charClass) target
    refine ⟨tokens, tokenizer_run_iff.2 ⟨rest, rfl, htokens⟩,
      htokens.isLongestPrefix_charClasses, fun token htoken => ?_, ?_⟩
    · obtain ⟨m, -, htakes⟩ := htokens.exists_takes htoken
      exact htakes.ne_empty
    · rintro before token after rfl
      obtain ⟨ch, c, hch, hc, hlongest⟩ := htokens.exists_class
      refine ⟨_, ch, c, ?_, hch, hc, hlongest⟩
      simp [String.join_append, String.join_cons, String.append_assoc]
  · intro target
    obtain ⟨tokens, rest, rfl, htokens⟩ := exists_tokens Grammar.words.matchers target
    have hsplit := htokens.isSplit Grammar.words_apart
    have hclasses : Tokens ([CharClass.letters, CharClass.digits].map .charClass) tokens rest :=
      htokens
    have hlongest := hclasses.isLongestPrefix_charClasses
    refine ⟨tokens, tokenizer_run_iff.2 ⟨rest, rfl, htokens⟩, ?_, hsplit,
      fun tokens' heq hsplit' => isSplit_unique Grammar.words_apart hsplit' hsplit heq⟩
    simpa [CharClass.letters, CharClass.digits, Char.isAlphanum] using hlongest

end Parsing
