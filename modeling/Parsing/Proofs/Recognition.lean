/-
Parsing.Proofs.Recognition — what a matcher answers, wherever a run comes to
it.

`Parsing.Proofs.Matching` tells when a matcher succeeds between two texts
`u` and `w`.  A success that a run can come to stands between two such texts
(`State.Reachable.exists_cut`), and so its answer is told here by what it has
left: a class takes the longest prefix of accepted characters, a literal its
own text, and what they do not take they refuse where they stand.  In both
cases the offset moves by the size of what is taken and by nothing else.

A class takes all it can, so it takes nothing where it has stopped.  Literals
can be cut and joined: two of them in a row are the literal of both texts
(`Literal.append`), also where the input ends within the second.
-/
import Mathlib
import Parsing.Proofs.Derivation
import Parsing.Proofs.Reachable
import Parsing.Proofs.Repetition

namespace Parsing

/-- A success that a run can come to stands between what is consumed and what
it has left. -/
theorem State.Reachable.exists_cut {target : String} {s : State Unit}
    (h : State.Reachable target s) (hok : s.isError = false) :
    ∃ u w, target = u ++ w ∧ s = ⟨u ++ w, u.utf8ByteSize, .ok ()⟩ := by
  obtain ⟨i, rfl, hi⟩ := h.exists_boundary hok
  obtain ⟨u, w, rfl, rfl⟩ := Text.isBoundary_iff.1 hi
  exact ⟨u, w, rfl, rfl⟩

namespace Parser.FailsWith

variable {α : Type} {p : Parser α} {target : String} {i : Nat} {e : Failure}

theorem isError (h : p.FailsWith target i e) : (p ⟨target, i, .ok ()⟩).isError = true := by
  unfold FailsWith at h
  rw [h, State.isError_error]

/-- A failure of where the parser stands leaves the offset alone. -/
theorem stays (h : p.FailsWith target i e) (hindex : e.index = i) :
    p ⟨target, i, .ok ()⟩ = ⟨target, i, .error e⟩ := by
  unfold FailsWith at h
  rwa [hindex] at h

end Parser.FailsWith

/-! ## Character classes -/

namespace CharClass

variable {c : CharClass} {u w run : String} {i j : Nat}

/-- What a class takes starts with a character that it accepts. -/
theorem head_of_succeeds (h : c.parser.Succeeds (u ++ w) u.utf8ByteSize run j) :
    ∃ ch, w.toList.head? = some ch ∧ c.accepts ch = true := by
  obtain ⟨hrun, hne, -⟩ := succeeds_iff.1 h
  obtain ⟨rest, rfl, hall, -⟩ := Text.leadingRun_eq_iff.1 hrun
  obtain ⟨ch, hch, haccepts⟩ := Text.IsRun.exists_head ⟨hne, hall⟩
  exact ⟨ch, Text.head?_append hch rest, haccepts⟩

/-- Where a class has stopped, it does not match. -/
theorem fails_of_succeeds (h : c.parser.Succeeds (u ++ w) u.utf8ByteSize run j) :
    c.parser.Fails (u ++ w) j := by
  obtain ⟨hrun, -, rfl⟩ := succeeds_iff.1 h
  obtain ⟨rest, rfl, -, hstop⟩ := Text.leadingRun_eq_iff.1 hrun
  rw [← String.append_assoc]
  exact ⟨_, failsWith_iff.2 ⟨hstop, rfl⟩⟩

/-- The kind of a refusal tells the end of the input from a character that is
not accepted. -/
theorem kind_of_refusal (hstop : ∀ ch ∈ w.toList.head?, c.accepts ch = false) :
    ((if w = "" then c.endOfInput i else c.mismatch i).kind = .endOfInput ↔ w = "") ∧
    ((if w = "" then c.endOfInput i else c.mismatch i).kind = .classMismatch ↔
      ∃ ch, w.toList.head? = some ch ∧ c.accepts ch = false) := by
  by_cases hw : w = ""
  · simp [hw, endOfInput, Failure.leaf]
  · obtain ⟨ch, hch⟩ := Text.exists_head_of_ne_empty hw
    have hrefused : ∃ ch, w.toList.head? = some ch ∧ c.accepts ch = false :=
      ⟨ch, hch, hstop ch hch⟩
    simp [hw, hrefused, mismatch, Failure.leaf]

end CharClass

/-- **What a class takes.**  A class succeeds where the input goes on with a
character that it accepts.  Then it takes the longest prefix of such
characters off what is left, moves by the size of it, and does not match where
it has stopped.  Otherwise it fails where it stands: the input is at its end
there, or goes on with a character that it does not accept. -/
theorem class_takes_longest_run (c : CharClass) {target : String} {s : State Unit}
    (hs : State.Reachable target s) (hok : s.isError = false) :
    ((c.parser s).isError = false ↔
      ∃ ch, s.remaining.toList.head? = some ch ∧ c.accepts ch = true) ∧
    ((c.parser s).isError = false → ∃ run,
      Text.IsLongestPrefix (fun prefixText => ∀ ch ∈ prefixText.toList, c.accepts ch = true)
        s.remaining run ∧
      c.parser s = ⟨target, s.index + run.utf8ByteSize, .ok run⟩ ∧
      (c.parser ⟨target, s.index + run.utf8ByteSize, .ok ()⟩).isError = true) ∧
    ((c.parser s).isError = true → ∃ failure,
      c.parser s = ⟨target, s.index, .error failure⟩ ∧
      failure = (if s.remaining = "" then c.endOfInput s.index else c.mismatch s.index) ∧
      failure.index = s.index ∧
      (failure.kind = .endOfInput ↔ s.remaining = "") ∧
      (failure.kind = .classMismatch ↔
        ∃ ch, s.remaining.toList.head? = some ch ∧ c.accepts ch = false)) := by
  obtain ⟨u, w, rfl, rfl⟩ := hs.exists_cut hok
  have hb := Text.isBoundary_append u w
  simp only [State.remaining_append]
  rcases c.parser_lawful.cases hb with ⟨run, j, h, -, hj⟩ | ⟨failure, h⟩
  · have hsuccess := h.not_isError
    refine ⟨iff_of_true hsuccess (CharClass.head_of_succeeds h), fun _ => ⟨run, ?_⟩,
      fun herror => ?_⟩
    · have hstuck := (c.parser_lawful.fails_iff hj).1 (CharClass.fails_of_succeeds h)
      obtain ⟨hrun, -, rfl⟩ := CharClass.succeeds_iff.1 h
      rw [String.utf8ByteSize_append] at h hstuck
      exact ⟨hrun ▸ Text.isLongestPrefix_leadingRun c.accepts w, h, hstuck⟩
    · rw [hsuccess] at herror
      exact Bool.noConfusion herror
  · have herror := h.isError
    obtain ⟨hstop, hfailure⟩ := CharClass.failsWith_iff.1 h
    have hindex : failure.index = u.utf8ByteSize := by
      rw [hfailure]
      split <;> rfl
    refine ⟨iff_of_false (by simp [herror]) ?_, fun hsuccess => ?_,
      fun _ => ⟨failure, h.stays hindex, hfailure, hindex, ?_⟩⟩
    · rintro ⟨ch, hch, haccepts⟩
      simp [hstop ch hch] at haccepts
    · rw [herror] at hsuccess
      exact Bool.noConfusion hsuccess
    · rw [hfailure]
      exact CharClass.kind_of_refusal hstop

/-- The characters beyond ASCII. -/
def CharClass.beyondAscii : CharClass where
  name := "beyond ASCII"
  accepts ch := !Text.isAscii ch

/-- Two characters of two bytes each, between two of one byte. -/
theorem class_takes_longest_run_beyond_ascii :
    State.Reachable "aéß1" (⟨"aéß1", 1, .ok ()⟩ : State Unit) ∧
    (CharClass.beyondAscii.parser ⟨"aéß1", 1, .ok ()⟩).isError = false ∧
    ∃ run,
      Text.IsLongestPrefix
        (fun prefixText => ∀ ch ∈ prefixText.toList, CharClass.beyondAscii.accepts ch = true)
        (⟨"aéß1", 1, .ok ()⟩ : State Unit).remaining run ∧
      CharClass.beyondAscii.parser ⟨"aéß1", 1, .ok ()⟩ =
        ⟨"aéß1", 1 + run.utf8ByteSize, .ok run⟩ ∧
      (CharClass.beyondAscii.parser ⟨"aéß1", 1 + run.utf8ByteSize, .ok ()⟩).isError = true := by
  have hs : State.Reachable "aéß1" (⟨"aéß1", 1, .ok ()⟩ : State Unit) :=
    State.reachable_of_isBoundary (by decide)
  have hsuccess : (CharClass.beyondAscii.parser ⟨"aéß1", 1, .ok ()⟩).isError = false := by cbv
  obtain ⟨-, htakes, -⟩ := class_takes_longest_run CharClass.beyondAscii hs rfl
  exact ⟨hs, hsuccess, htakes hsuccess⟩

/-! ## Literals -/

namespace Literal

variable {l l' : Literal} {u w : String} {texts : List String} {j : Nat}

/-- The literal of two literals' texts, one behind the other. -/
def append (l l' : Literal) : Literal where
  expected := l.expected ++ l'.expected
  expected_ne_empty := by simp [l.expected_ne_empty]

/-- Two literals in a row match where what is left starts with both texts. -/
theorem inARow_succeeds_iff :
    (Parser.sequenceOf [l.parser, l'.parser]).Succeeds (u ++ w) u.utf8ByteSize texts j ↔
      ∃ rest, w = l.expected ++ (l'.expected ++ rest) ∧ texts = [l.expected, l'.expected] ∧
        j = (u ++ (l.expected ++ l'.expected)).utf8ByteSize := by
  have hb := Text.isBoundary_append u w
  rw [Parser.sequenceOf_cons_succeeds l.parser_lawful hb]
  constructor
  · rintro ⟨first, k, others, hfirst, hothers, rfl⟩
    have hk := (l.parser_lawful.forward hb hfirst).2
    obtain ⟨w', rfl, rfl, rfl⟩ := succeeds_iff.1 hfirst
    obtain ⟨second, k', none, hsecond, hnone, rfl⟩ :=
      (Parser.sequenceOf_cons_succeeds l'.parser_lawful hk).1 hothers
    obtain ⟨rfl, rfl⟩ := Parser.sequenceOf_nil_succeeds.1 hnone
    rw [← String.append_assoc] at hsecond
    obtain ⟨rest, rfl, rfl, rfl⟩ := succeeds_iff.1 hsecond
    exact ⟨rest, rfl, rfl, by rw [String.append_assoc]⟩
  · rintro ⟨rest, rfl, rfl, rfl⟩
    have hfirst := l.parser_of_startsWith u (l'.expected ++ rest)
    have hsecond := l'.parser_of_startsWith (u ++ l.expected) rest
    have hk := (l.parser_lawful.forward hb hfirst).2
    rw [String.append_assoc, String.append_assoc] at hsecond
    refine ⟨_, _, _, hfirst, ?_, rfl⟩
    exact (Parser.sequenceOf_cons_succeeds l'.parser_lawful hk).2
      ⟨_, _, _, hsecond, Parser.sequenceOf_nil_succeeds.2 ⟨rfl, rfl⟩, rfl⟩

/-- The literal of both texts answers both of them at once. -/
theorem append_succeeds_iff {text : String} :
    (l.append l').parser.Succeeds (u ++ w) u.utf8ByteSize text j ↔
      ∃ texts, (Parser.sequenceOf [l.parser, l'.parser]).Succeeds (u ++ w) u.utf8ByteSize texts j ∧
        String.join texts = text := by
  simp only [succeeds_iff, inARow_succeeds_iff, append]
  constructor
  · rintro ⟨rest, rfl, rfl, rfl⟩
    exact ⟨_, ⟨rest, by rw [String.append_assoc], rfl, rfl⟩, by simp [String.join_cons]⟩
  · rintro ⟨_, ⟨rest, rfl, rfl, rfl⟩, rfl⟩
    exact ⟨rest, by rw [String.append_assoc], by simp [String.join_cons], rfl⟩

/-- Two literals in a row fail where the literal of both texts does. -/
theorem inARow_isError (l l' : Literal) (u w : String) :
    (Parser.sequenceOf [l.parser, l'.parser] ⟨u ++ w, u.utf8ByteSize, .ok ()⟩).isError =
      ((l.append l').parser ⟨u ++ w, u.utf8ByteSize, .ok ()⟩).isError := by
  have hb := Text.isBoundary_append u w
  have hlawful : (Parser.sequenceOf [l.parser, l'.parser]).Lawful :=
    .sequenceOf (by simp [l.parser_lawful, l'.parser_lawful])
  rcases hlawful.cases hb with ⟨texts, j, h, -⟩ | ⟨e, h⟩
  · rw [h.not_isError, (append_succeeds_iff.2 ⟨texts, h, rfl⟩).not_isError]
  · rw [h.isError]
    rcases (l.append l').parser_lawful.cases hb with ⟨text, j, hsuccess, -⟩ | ⟨e', h'⟩
    · obtain ⟨texts, htexts, -⟩ := append_succeeds_iff.1 hsuccess
      exact absurd h htexts.not_failsWith
    · rw [h'.isError]

end Literal

/-- **What a literal takes.**  A literal whose text comes next succeeds with
that text and moves by the size of it.  Otherwise it fails where it stands:
the input is at its end there, or goes on with something else.

So two literals in a row succeed where the literal of both texts does, at the
same offset, and their values make up its value. -/
theorem literal_takes_its_text (l : Literal) {target : String} {s : State Unit}
    (hs : State.Reachable target s) (hok : s.isError = false) :
    (∀ rest, s.remaining = l.expected ++ rest →
      l.parser s = ⟨target, s.index + l.expected.utf8ByteSize, .ok l.expected⟩) ∧
    ((∀ rest, s.remaining ≠ l.expected ++ rest) → ∃ failure,
      l.parser s = ⟨target, s.index, .error failure⟩ ∧
      failure = (if s.remaining = "" then l.endOfInput s.index
        else l.mismatch s.index s.remaining) ∧
      failure.index = s.index ∧
      failure.kind = (if s.remaining = "" then .endOfInput else .literalMismatch)) ∧
    ∀ l' : Literal,
      (Parser.sequenceOf [l.parser, l'.parser] s).isError = ((l.append l').parser s).isError ∧
      ∀ texts j, Parser.sequenceOf [l.parser, l'.parser] s = ⟨target, j, .ok texts⟩ →
        (l.append l').parser s = ⟨target, j, .ok (String.join texts)⟩ := by
  obtain ⟨u, w, rfl, rfl⟩ := hs.exists_cut hok
  simp only [State.remaining_append]
  refine ⟨?_, fun hrest => ?_, fun l' => ⟨?_, fun texts j h => ?_⟩⟩
  · rintro rest rfl
    have h := l.parser_of_startsWith u rest
    rwa [String.utf8ByteSize_append] at h
  · have h := Literal.parser_of_not_startsWith (u := u) hrest
    refine ⟨_, h.stays ?_, rfl, ?_, ?_⟩ <;> split <;> rfl
  · exact Literal.inARow_isError l l' u w
  · exact Literal.append_succeeds_iff.2 ⟨texts, h, rfl⟩

/-- Two literals of two bytes each, one behind the other, and their
concatenation. -/
theorem literal_takes_its_text_of_two_bytes :
    State.Reachable "aéß1" (⟨"aéß1", 1, .ok ()⟩ : State Unit) ∧
    (⟨"é", by decide⟩ : Literal).parser ⟨"aéß1", 1, .ok ()⟩ = ⟨"aéß1", 1 + 2, .ok "é"⟩ ∧
    Parser.sequenceOf [(⟨"é", by decide⟩ : Literal).parser, (⟨"ß", by decide⟩ : Literal).parser]
      ⟨"aéß1", 1, .ok ()⟩ = ⟨"aéß1", 5, .ok ["é", "ß"]⟩ ∧
    ((⟨"é", by decide⟩ : Literal).append ⟨"ß", by decide⟩).parser ⟨"aéß1", 1, .ok ()⟩ =
      ⟨"aéß1", 5, .ok (String.join ["é", "ß"])⟩ := by
  have hs : State.Reachable "aéß1" (⟨"aéß1", 1, .ok ()⟩ : State Unit) :=
    State.reachable_of_isBoundary (by decide)
  have hrest : (⟨"aéß1", 1, .ok ()⟩ : State Unit).remaining = "é" ++ "ß1" := by cbv
  have hrow : Parser.sequenceOf
      [(⟨"é", by decide⟩ : Literal).parser, (⟨"ß", by decide⟩ : Literal).parser]
      ⟨"aéß1", 1, .ok ()⟩ = ⟨"aéß1", 5, .ok ["é", "ß"]⟩ := by cbv
  obtain ⟨htakes, -, hjoined⟩ := literal_takes_its_text ⟨"é", by decide⟩ hs rfl
  exact ⟨hs, htakes "ß1" hrest, hrow, (hjoined ⟨"ß", by decide⟩).2 _ _ hrow⟩

end Parsing
