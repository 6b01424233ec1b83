/-
Parsing.Proofs.Truncation — an input cut short behind a token.

Where an input ends can change what is taken off it: a literal may be cut in
two, and a run may end early, so that another matcher counts.  A tokenizer's
input may be cut behind any of its tokens all the same.  The token itself is
still there, and a run stays as long as it was.  And no matcher that came
before it can succeed now: whatever a matcher takes off a text it takes, or
something longer, off the text with more behind it
(`Matcher.token?_eq_none_of_append`).  This goes from one token
(`firstToken?_eq_some_of_append`) to all of them (`Tokens.of_append`) by
induction on the tokens.

The argument needs that an alternative is one matcher.  Of parsers in a row
the second may fail on the shorter text and leave it to another alternative.
-/
import Mathlib
import Parsing.Proofs.Split

namespace Parsing

variable {w rest token : String}

/-! ## One token -/

namespace Matcher

variable {m : Matcher}

/-- What may be followed by a text may be followed by less of it. -/
theorem EndsBefore.of_append (h : m.EndsBefore (w ++ rest)) : m.EndsBefore w := by
  cases m with
  | literal l => trivial
  | charClass c =>
    intro ch hch
    exact h ch (Text.head?_append hch rest)

/-- A matcher takes the same token if the text is cut behind it. -/
theorem token?_eq_some_of_append (h : m.token? (token ++ (w ++ rest)) = some token) :
    m.token? (token ++ w) = some token := by
  obtain ⟨after, heq, htakes, hends⟩ := token?_eq_some_iff.1 h
  obtain rfl : w ++ rest = after := (String.append_right_inj token).1 heq
  exact token?_eq_some_iff.2 ⟨w, rfl, htakes, hends.of_append⟩

/-- A matcher that takes nothing off a text takes nothing off less of it. -/
theorem token?_eq_none_of_append (h : m.token? (w ++ rest) = none) : m.token? w = none := by
  rw [Option.eq_none_iff_forall_ne_some]
  intro taken htaken
  obtain ⟨after, rfl, htakes, -⟩ := token?_eq_some_iff.1 htaken
  obtain ⟨longer, hlonger⟩ := htakes.exists_token? (after ++ rest)
  rw [String.append_assoc, hlonger] at h
  cases h

end Matcher

section Tokens

variable {ms : List Matcher} {before after : List String}

/-- By induction on the matchers: those before the one that counts take
nothing off the shorter text either. -/
theorem firstToken?_eq_some_of_append (h : firstToken? ms (token ++ (w ++ rest)) = some token) :
    firstToken? ms (token ++ w) = some token := by
  induction ms with
  | nil => cases h
  | cons m ms ih =>
    rw [firstToken?, List.findSome?_cons] at h ⊢
    cases htoken : m.token? (token ++ (w ++ rest)) with
    | some taken =>
      rw [htoken] at h
      obtain rfl : taken = token := Option.some.inj h
      rw [Matcher.token?_eq_some_of_append htoken]
    | none =>
      rw [htoken] at h
      rw [← String.append_assoc] at htoken
      rw [Matcher.token?_eq_none_of_append htoken]
      exact ih h

theorem firstToken?_empty (ms : List Matcher) : firstToken? ms "" = none := by
  rw [Option.eq_none_iff_forall_ne_some]
  intro taken htaken
  obtain ⟨m, -, after, heq, htakes, -⟩ := exists_of_firstToken? htaken
  exact htakes.ne_empty (String.append_eq_empty_iff.1 heq.symm).1

/-! ## All tokens -/

/-- The tokens before a cut are a tokenisation, and nothing is left over. -/
theorem Tokens.of_append (h : Tokens ms (before ++ after) rest) : Tokens ms before "" := by
  induction before with
  | nil => exact firstToken?_empty ms
  | cons token before ih =>
    have hfirst : firstToken? ms (token ++ (String.join (before ++ after) ++ rest)) = some token :=
      h.1
    rw [String.join_append, String.append_assoc] at hfirst
    refine ⟨?_, ih h.2⟩
    rw [String.append_empty]
    exact firstToken?_eq_some_of_append hfirst

end Tokens

/-- **An input may be cut behind any token.**  Run on an input, a tokenizer
succeeds with tokens, and stops somewhere.  Run on as much of the input as
the first of these tokens make up, it succeeds with just them, and at the
end; run on what is left of the input, it stays at the start and has no
tokens.  The grammars are such tokenizers. -/
theorem truncation_keeps_tokens :
    (∀ (ms : List Matcher) (target : String), ∃ tokens j,
      (tokenizer ms).run target = ⟨target, j, .ok tokens⟩ ∧
      (∀ before after, tokens = before ++ after →
        Text.takeBytes target (String.join before).utf8ByteSize = String.join before ∧
        (tokenizer ms).run (String.join before) =
          ⟨String.join before, (String.join before).utf8ByteSize, .ok before⟩) ∧
      (tokenizer ms).run (Text.dropBytes target j) = ⟨Text.dropBytes target j, 0, .ok []⟩) ∧
    ∀ (grammar : Grammar) (target : String),
      grammar.run target = (tokenizer grammar.matchers).run target := by
  refine ⟨fun ms target => ?_, fun grammar target => rfl⟩
  obtain ⟨tokens, rest, rfl, htokens⟩ := exists_tokens ms target
  refine ⟨tokens, _, tokenizer_run_iff.2 ⟨rest, rfl, htokens⟩, ?_, ?_⟩
  · rintro before after rfl
    constructor
    · rw [String.join_append, String.append_assoc, Text.takeBytes_append]
    · exact tokenizer_run_iff.2 ⟨"", by simp, htokens.of_append⟩
  · have hnone : Tokens ms [] rest := htokens.firstToken?_rest
    rw [Text.dropBytes_append]
    exact tokenizer_run_iff.2 ⟨rest, by simp, hnone⟩

end Parsing
