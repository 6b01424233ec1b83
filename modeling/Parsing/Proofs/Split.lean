/-
Parsing.Proofs.Split — tokens told apart by how they look.

Of some lists of matchers no two start with the same character
(`Matcher.Apart`).  Their order does not matter, and a tokenisation can be
described without matchers: it is a list of literals and of runs in which
no run is continued by its neighbour (`Text.IsSplit`), and such a list is
the one tokenisation of its concatenation.

Literals and single characters form a prefix code there
(`Matcher.Apart.isPart_unique`).  So what continues one concatenation of
them to another is a concatenation itself, and the first token that is
missing shows that no longer prefix of the input is one
(`tokenizer_takes_longest`).
-/
import Mathlib
import Parsing.Proofs.Tokens

namespace Parsing

/-! ## Splits -/

namespace Text

/-- One of the literals, or a character of one of the classes. -/
def IsPart (literals : List String) (classes : List (Char → Bool)) (part : String) : Prop :=
  part ∈ literals ∨ ∃ accepts ∈ classes, ∃ ch, accepts ch = true ∧ part = String.singleton ch

/-- A concatenation of parts. -/
def IsConcat (literals : List String) (classes : List (Char → Bool)) (text : String) : Prop :=
  ∃ parts : List String, text = String.join parts ∧
    ∀ part ∈ parts, IsPart literals classes part

/-- A list of literals and of runs of the classes, in which no two
neighbours are runs of one class. -/
structure IsSplit (literals : List String) (classes : List (Char → Bool))
    (tokens : List String) : Prop where
  each : ∀ token ∈ tokens, token ∈ literals ∨ ∃ accepts ∈ classes, IsRun accepts token
  apart : tokens.IsChain fun first second =>
    ∀ accepts ∈ classes, ¬ (IsRun accepts first ∧ IsRun accepts second)

variable {literals : List String} {classes : List (Char → Bool)} {u w token : String}
  {tokens : List String}

theorem IsConcat.append (hu : IsConcat literals classes u) (hw : IsConcat literals classes w) :
    IsConcat literals classes (u ++ w) := by
  obtain ⟨parts, rfl, hparts⟩ := hu
  obtain ⟨parts', rfl, hparts'⟩ := hw
  refine ⟨parts ++ parts', String.join_append.symm, fun part hpart => ?_⟩
  rcases List.mem_append.1 hpart with h | h
  · exact hparts part h
  · exact hparts' part h

/-- A run is made of its characters. -/
theorem IsRun.isConcat {accepts : Char → Bool} (haccepts : accepts ∈ classes)
    (h : IsRun accepts token) : IsConcat literals classes token := by
  refine ⟨token.toList.map String.singleton, ?_, fun part hpart => ?_⟩
  · apply String.toList_inj.1
    simp [String.toList_join, List.flatMap_map]
  · obtain ⟨ch, hch, rfl⟩ := List.mem_map.1 hpart
    exact .inr ⟨accepts, haccepts, ch, h.2 ch hch, rfl⟩

theorem IsSplit.tail (h : IsSplit literals classes (token :: tokens)) :
    IsSplit literals classes tokens where
  each token' htoken' := h.each token' (List.mem_cons_of_mem _ htoken')
  apart := (List.isChain_cons.1 h.apart).2

theorem IsSplit.isConcat (h : IsSplit literals classes tokens) :
    IsConcat literals classes (String.join tokens) := by
  induction tokens with
  | nil => exact ⟨[], rfl, by simp⟩
  | cons token tokens ih =>
    have htoken : IsConcat literals classes token := by
      rcases h.each token (List.mem_cons_self ..) with hliteral | ⟨accepts, haccepts, hrun⟩
      · exact ⟨[token], by simp [String.join_cons], by simpa using .inl hliteral⟩
      · exact hrun.isConcat haccepts
    rw [String.join_cons]
    exact htoken.append (ih h.tail)

end Text

/-! ## Matchers told apart by the first character -/

namespace Matcher

/-- The literals among the matchers. -/
def literals (ms : List Matcher) : List String :=
  ms.filterMap fun
    | .literal l => some l.expected
    | .charClass _ => none

/-- The classes among the matchers. -/
def classes (ms : List Matcher) : List (Char → Bool) :=
  ms.filterMap fun
    | .literal _ => none
    | .charClass c => some c.accepts

/-- A token of the matcher can start with the character. -/
def StartsWith : Matcher → Char → Prop
  | .literal l, ch => l.expected.toList.head? = some ch
  | .charClass c, ch => c.accepts ch = true

/-- No two of the matchers start with the same character. -/
def Apart (ms : List Matcher) : Prop :=
  ∀ m ∈ ms, ∀ m' ∈ ms, ∀ ch, m.StartsWith ch → m'.StartsWith ch → m = m'

variable {ms : List Matcher} {m m' : Matcher} {c : CharClass} {accepts : Char → Bool}
  {u w token part : String}

theorem mem_classes_iff : accepts ∈ classes ms ↔ ∃ c, .charClass c ∈ ms ∧ c.accepts = accepts := by
  simp only [classes, List.mem_filterMap]
  constructor
  · rintro ⟨_ | c, hm, h⟩
    · simp at h
    · exact ⟨c, hm, Option.some.inj h⟩
  · rintro ⟨c, hm, rfl⟩
    exact ⟨_, hm, rfl⟩

theorem mem_literals_iff : token ∈ literals ms ↔ ∃ l, .literal l ∈ ms ∧ l.expected = token := by
  simp only [literals, List.mem_filterMap]
  constructor
  · rintro ⟨l | _, hm, h⟩
    · exact ⟨l, hm, Option.some.inj h⟩
    · simp at h
  · rintro ⟨l, hm, rfl⟩
    exact ⟨_, hm, rfl⟩

theorem exists_takes_iff :
    (∃ m ∈ ms, m.Takes token) ↔
      token ∈ literals ms ∨ ∃ accepts ∈ classes ms, Text.IsRun accepts token := by
  simp only [mem_literals_iff, mem_classes_iff]
  constructor
  · rintro ⟨l | c, hm, htakes⟩
    · exact .inl ⟨l, hm, htakes.symm⟩
    · exact .inr ⟨_, ⟨c, hm, rfl⟩, htakes⟩
  · rintro (⟨l, hm, rfl⟩ | ⟨_, ⟨c, hm, rfl⟩, hrun⟩)
    · exact ⟨_, hm, rfl⟩
    · exact ⟨_, hm, hrun⟩

/-- A part is a token, and of a class it is a single character. -/
theorem exists_takes_of_isPart (h : Text.IsPart (literals ms) (classes ms) part) :
    ∃ m ∈ ms, m.Takes part ∧ ∀ c, m = .charClass c → ∃ ch, part = String.singleton ch := by
  rcases h with hliteral | ⟨accepts, haccepts, ch, hch, rfl⟩
  · obtain ⟨l, hm, rfl⟩ := mem_literals_iff.1 hliteral
    exact ⟨_, hm, rfl, by simp⟩
  · obtain ⟨c, hm, rfl⟩ := mem_classes_iff.1 haccepts
    refine ⟨_, hm, ⟨?_, by simpa using hch⟩, fun _ _ => ⟨ch, rfl⟩⟩
    simp [← String.toList_eq_nil_iff]

theorem Takes.exists_startsWith (h : m.Takes token) :
    ∃ ch, token.toList.head? = some ch ∧ m.StartsWith ch := by
  cases m with
  | literal l =>
    obtain rfl : token = l.expected := h
    obtain ⟨ch, hch⟩ := Text.exists_head_of_ne_empty l.expected_ne_empty
    exact ⟨ch, hch, hch⟩
  | charClass c => exact Text.IsRun.exists_head h

/-- Before a text that starts with a token, the matcher takes something,
though perhaps more than that token. -/
theorem Takes.exists_token? (h : m.Takes token) (rest : String) :
    ∃ longer, m.token? (token ++ rest) = some longer := by
  cases m with
  | literal l =>
    obtain rfl : token = l.expected := h
    exact ⟨_, token?_eq_some_iff.2 ⟨rest, rfl, rfl, trivial⟩⟩
  | charClass c =>
    obtain ⟨ch, hch, haccepts⟩ := Text.IsRun.exists_head h
    have hne : ¬ Text.leadingRun c.accepts (token ++ rest) = "" := by
      rw [Text.leadingRun_eq_empty_iff]
      intro hstop
      simp [hstop ch (Text.head?_append hch rest)] at haccepts
    exact ⟨_, if_neg hne⟩

namespace Apart

/-- Two matchers with tokens before one text are the same. -/
theorem eq_of_takes {token' rest rest' : String} (hms : Apart ms) (hm : m ∈ ms)
    (hm' : m' ∈ ms) (h : m.Takes token) (h' : m'.Takes token')
    (heq : token ++ rest = token' ++ rest') : m = m' := by
  obtain ⟨ch, hch, hstarts⟩ := h.exists_startsWith
  obtain ⟨ch', hch', hstarts'⟩ := h'.exists_startsWith
  have hsame : some ch = some ch' := by
    rw [← Text.head?_append hch rest, heq, Text.head?_append hch' rest']
  obtain rfl := Option.some.inj hsame
  exact hms m hm m' hm' ch hstarts hstarts'

/-- A token counts if its matcher takes it and it is not continued. -/
theorem firstToken?_append {rest : String} (hms : Apart ms) (hm : m ∈ ms)
    (htakes : m.Takes token) (hends : m.EndsBefore rest) :
    firstToken? ms (token ++ rest) = some token := by
  have htoken : m.token? (token ++ rest) = some token :=
    token?_eq_some_iff.2 ⟨rest, rfl, htakes, hends⟩
  cases hfirst : firstToken? ms (token ++ rest) with
  | none =>
    have hnone := List.findSome?_eq_none_iff.1 hfirst m hm
    rw [htoken] at hnone
    cases hnone
  | some token' =>
    obtain ⟨m', hm', rest', heq, htakes', hends'⟩ := exists_of_firstToken? hfirst
    obtain rfl := hms.eq_of_takes hm hm' htakes htakes' heq
    rw [← htoken]
    exact (token?_eq_some_iff.2 ⟨rest', heq, htakes', hends'⟩).symm

/-- The parts form a prefix code. -/
theorem isPart_unique {part' rest rest' : String} (hms : Apart ms)
    (h : Text.IsPart (literals ms) (classes ms) part)
    (h' : Text.IsPart (literals ms) (classes ms) part')
    (heq : part ++ rest = part' ++ rest') : part = part' := by
  obtain ⟨m, hm, htakes, hsingle⟩ := exists_takes_of_isPart h
  obtain ⟨m', hm', htakes', hsingle'⟩ := exists_takes_of_isPart h'
  obtain rfl := hms.eq_of_takes hm hm' htakes htakes' heq
  cases m with
  | literal l => exact Eq.trans htakes (Eq.symm htakes')
  | charClass c =>
    obtain ⟨ch, rfl⟩ := hsingle c rfl
    obtain ⟨ch', rfl⟩ := hsingle' c rfl
    have hlists := congrArg String.toList heq
    simp only [String.toList_append, String.toList_singleton, List.singleton_append] at hlists
    rw [(List.cons.inj hlists).1]

/-- What continues one concatenation to another is a concatenation, since
the parts of the first are the first parts of the second. -/
theorem isConcat_of_append (hms : Apart ms) (hu : Text.IsConcat (literals ms) (classes ms) u)
    (huw : Text.IsConcat (literals ms) (classes ms) (u ++ w)) :
    Text.IsConcat (literals ms) (classes ms) w := by
  obtain ⟨parts, rfl, hparts⟩ := hu
  induction parts with
  | nil => simpa using huw
  | cons part parts ih =>
    obtain ⟨hpart, hrest⟩ := List.forall_mem_cons.1 hparts
    refine ih hrest ?_
    obtain ⟨parts', heq, hparts'⟩ := huw
    rw [String.join_cons, String.append_assoc] at heq
    cases parts' with
    | nil =>
      obtain ⟨m, -, htakes, -⟩ := exists_takes_of_isPart hpart
      rw [String.join_nil, String.append_eq_empty_iff] at heq
      exact absurd heq.1 htakes.ne_empty
    | cons part' parts' =>
      obtain ⟨hpart', hrest'⟩ := List.forall_mem_cons.1 hparts'
      rw [String.join_cons] at heq
      obtain rfl := hms.isPart_unique hpart hpart' heq
      exact ⟨parts', (String.append_right_inj _).1 heq, hrest'⟩

end Apart

end Matcher

open Matcher

section Splits

variable {ms : List Matcher} {tokens tokens' : List String} {rest : String}

/-- No part stands before the rest of a tokenisation. -/
theorem eq_empty_of_isConcat {u w : String} (h : firstToken? ms (u ++ w) = none)
    (hu : Text.IsConcat (literals ms) (classes ms) u) : u = "" := by
  obtain ⟨parts, rfl, hparts⟩ := hu
  cases parts with
  | nil => rfl
  | cons part parts =>
    obtain ⟨m, hm, htakes, -⟩ := exists_takes_of_isPart (hparts part (List.mem_cons_self ..))
    have hnone := List.findSome?_eq_none_iff.1 h m hm
    obtain ⟨longer, hlonger⟩ := htakes.exists_token? (String.join parts ++ w)
    rw [String.join_cons, String.append_assoc, hlonger] at hnone
    cases hnone

/-- The tokens are a split: a run that counts is not continued. -/
theorem Tokens.isSplit (h : Tokens ms tokens rest) (hms : Apart ms) :
    Text.IsSplit (literals ms) (classes ms) tokens := by
  refine ⟨fun token htoken => exists_takes_iff.1 (h.exists_takes htoken), ?_⟩
  induction tokens with
  | nil => exact .nil
  | cons first tokens ih =>
    refine List.isChain_cons.2 ⟨?_, ih h.2⟩
    rintro second hsecond accepts haccepts ⟨hrun, hrun'⟩
    obtain ⟨tokens', rfl⟩ := List.head?_eq_some_iff.1 hsecond
    obtain ⟨c, hc, rfl⟩ := mem_classes_iff.1 haccepts
    obtain ⟨m, hm, rest', heq, htakes, hends⟩ := exists_of_firstToken? h.1
    obtain rfl := hms.eq_of_takes hm hc htakes hrun heq
    obtain ⟨ch, hch, hstarts⟩ := hrun'.exists_head
    -- the second run starts with a character that would continue the first
    rw [String.append_right_inj, String.join_cons, String.append_assoc] at heq
    subst heq
    simp [hends ch (Text.head?_append hch _)] at hstarts

/-- A split is the tokenisation of its concatenation. -/
theorem tokens_of_isSplit (hms : Apart ms)
    (h : Text.IsSplit (literals ms) (classes ms) tokens) : Tokens ms tokens "" := by
  induction tokens with
  | nil =>
    refine List.findSome?_eq_none_iff.2 fun m hm => ?_
    rw [Option.eq_none_iff_forall_ne_some]
    intro token htoken
    obtain ⟨rest, heq, htakes, -⟩ := token?_eq_some_iff.1 htoken
    exact htakes.ne_empty (String.append_eq_empty_iff.1 heq.symm).1
  | cons first tokens ih =>
    obtain ⟨m, hm, htakes⟩ := exists_takes_iff.2 (h.each first (List.mem_cons_self ..))
    refine ⟨hms.firstToken?_append hm htakes ?_, ih h.tail⟩
    cases m with
    | literal l => trivial
    | charClass c =>
      cases tokens with
      | nil => simp [EndsBefore]
      | cons second tokens =>
        obtain ⟨m', hm', htakes'⟩ := exists_takes_iff.2 (h.each second (by simp))
        obtain ⟨ch', hch', hstarts'⟩ := htakes'.exists_startsWith
        intro ch hch
        rw [String.join_cons, String.append_assoc, Text.head?_append hch'] at hch
        obtain rfl := Option.some.inj hch
        -- the second token would be a run of the same class
        by_contra haccepts
        obtain rfl := hms _ hm _ hm' ch' (by simpa [StartsWith] using haccepts) hstarts'
        have hapart := (List.isChain_cons.1 h.apart).1 second rfl
        exact hapart _ (mem_classes_iff.2 ⟨c, hm, rfl⟩) ⟨htakes, htakes'⟩

theorem isSplit_unique (hms : Apart ms)
    (h : Text.IsSplit (literals ms) (classes ms) tokens)
    (h' : Text.IsSplit (literals ms) (classes ms) tokens')
    (heq : String.join tokens = String.join tokens') : tokens = tokens' :=
  (tokens_of_isSplit hms h).unique (tokens_of_isSplit hms h') (by rw [heq])

/-- **The longest prefix, split in the only way.**  Where no two matchers
start with the same character, the tokenizer takes the longest prefix that
is a concatenation of its literals and of characters of its classes, and
its tokens are the one split of that prefix. -/
theorem tokenizer_takes_longest (hms : Apart ms) (target : String) :
    ∃ tokens,
      (tokenizer ms).run target = ⟨target, (String.join tokens).utf8ByteSize, .ok tokens⟩ ∧
      Text.IsLongestPrefix (Text.IsConcat (literals ms) (classes ms)) target
        (String.join tokens) ∧
      Text.IsSplit (literals ms) (classes ms) tokens ∧
      ∀ tokens', String.join tokens' = String.join tokens →
        Text.IsSplit (literals ms) (classes ms) tokens' → tokens' = tokens := by
  obtain ⟨tokens, rest, rfl, htokens⟩ := exists_tokens ms target
  have hsplit := htokens.isSplit hms
  refine ⟨tokens, tokenizer_run_iff.2 ⟨rest, rfl, htokens⟩, ?_, hsplit,
    fun tokens' heq hsplit' => isSplit_unique hms hsplit' hsplit heq⟩
  refine Text.isLongestPrefix_append hsplit.isConcat
    (fun other => hms.isConcat_of_append hsplit.isConcat) ?_
  rintro other rest' rfl hother
  exact eq_empty_of_isConcat htokens.firstToken?_rest hother

end Splits

end Parsing
