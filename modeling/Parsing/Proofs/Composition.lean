/-
Parsing.Proofs.Composition — sessions one behind the other.

A session over complete lines, and then over whatever bytes follow, writes
what the two write one after the other.  What the second has to know of the
first is the grammar and the count: the grammar it starts with, and the
count moves its prompts on (`Piece.countedOn`) and changes nothing else
(`transcript_countedOn`).  The seam is a prompt that both write: the first
answers it itself, as its lines are at their end, and the second goes on from
there.

The bytes that follow need not be text.  So the first line that is no text
ends the whole session just as it ends the second alone, behind the prompt
at the seam at the earliest.
-/
import Mathlib
import Parsing.Session
import Parsing.Proofs.Lines
import Parsing.Proofs.History

namespace Parsing.Session

open Text

variable {byName : String → Option Grammar}

/-! ## Counting on -/

/-- The session with `n` more lines parsed. -/
def countedOn (n : Nat) (session : Session) : Session :=
  { session with parsed := session.parsed + n }

/-- The piece with `n` more lines parsed before it, which a prompt shows. -/
def Piece.countedOn (n : Nat) : Piece → Piece
  | .prompt session => .prompt (session.countedOn n)
  | .unknownGrammar name => .unknownGrammar name
  | .timing => .timing
  | .report text => .report text
  | .farewell => .farewell

/-- The transcript with `n` more lines parsed before it. -/
def Transcript.countedOn (n : Nat) (t : Transcript) : Transcript :=
  { t with pieces := t.pieces.map (Piece.countedOn n) }

theorem Transcript.countedOn_after (n : Nat) (pieces : List Piece) (t : Transcript) :
    (t.after pieces).countedOn n = (t.countedOn n).after (pieces.map (Piece.countedOn n)) := by
  simp [countedOn, after]

/-- **The step.**  The count does not matter to what a session does about a
command, and what it writes about one shows no count. -/
theorem respond_countedOn (style : Style) (n : Nat) (session : Session) (command : Command) :
    (session.countedOn n).respond byName style command =
      (session.respond byName style command).map fun (next, pieces) =>
        (next.countedOn n, pieces.map (Piece.countedOn n)) := by
  cases command with
  | skip => rfl
  | leave => rfl
  | select name =>
    simp only [respond]
    cases byName name <;> rfl
  | parse text =>
    have hcount : session.parsed + n + 1 = session.parsed + 1 + n := by omega
    cases hverbose : style.verbose <;>
      simp [respond, countedOn, Piece.countedOn, hcount, hverbose]

/-- **The run.**  A session that counts on writes the same, with its prompts
counted on, and ends in the same way. -/
theorem transcript_countedOn (style : Style) (n : Nat) (session : Session)
    (lines : List (Option String)) :
    transcript byName style (session.countedOn n) lines =
      (transcript byName style session lines).countedOn n := by
  induction lines generalizing session with
  | nil => rfl
  | cons line lines ih =>
    cases line with
    | none => rfl
    | some line =>
      simp only [transcript, respond_countedOn]
      cases session.respond byName style (.ofLine line) with
      | none => rfl
      | some reply =>
        obtain ⟨next, pieces⟩ := reply
        show (transcript byName style (next.countedOn n) lines).after _ = _
        rw [ih next, Transcript.countedOn_after]
        rfl

/-- A session writes a prompt first. -/
theorem exists_transcript_eq (style : Style) (session : Session) (lines : List (Option String)) :
    ∃ more ending, transcript byName style session lines = ⟨.prompt session :: more, ending⟩ := by
  cases lines with
  | nil => exact ⟨_, _, rfl⟩
  | cons line lines =>
    cases line with
    | none => exact ⟨_, _, rfl⟩
    | some line =>
      simp only [transcript]
      cases session.respond byName style (.ofLine line) with
      | none => exact ⟨_, _, rfl⟩
      | some reply => exact ⟨_, _, rfl⟩

/-- A session after these lines is one that starts with the grammar they
selected and counts on. -/
theorem afterLines_eq_countedOn (first : Grammar) (lines : List String) :
    afterLines byName first lines =
      (start (latestGrammar byName first lines)).countedOn (parsedCount lines) := by
  simp [afterLines, start, countedOn]

/-! ## Ends -/

/-- A line that leaves ends a session well, if all before it is text: it
does not matter what stands behind it. -/
theorem ending_of_leaves (style : Style) (session : Session) {lines : List String} {line : String}
    (h : trimmed line = "exit") (rest : List (Option String)) :
    (transcript byName style session (lines.map some ++ some line :: rest)).ending = .finished := by
  induction lines generalizing session with
  | nil => exact congrArg Transcript.ending (transcript_of_leaves style session h rest)
  | cons first lines ih =>
    simp only [List.map_cons, List.cons_append, transcript]
    cases session.respond byName style (.ofLine first) with
    | none => rfl
    | some reply => exact ih reply.1

/-- A session stops at a first line that is no text, behind its prompt. -/
theorem run_of_not_text (style : Style) (first : Grammar) {input line : List UInt8}
    (hline : (cutLines input).head? = some line) (h : decode? line = none) :
    run byName style first input = ⟨[.prompt (start first)], .notText⟩ := by
  obtain ⟨lines, hlines⟩ := List.head?_eq_some_iff.1 hline
  rw [run, hlines, List.map_cons, h]
  rfl

/-! ## The seam -/

/-- A session over complete lines, none of which leaves, and over what
follows them. -/
theorem run_encode_append (byName : String → Option Grammar) (style : Style) (first : Grammar)
    {text : String}
    (hcomplete : ∀ c ∈ text.toList.getLast?, c = '\n')
    (hstays : ∀ line ∈ lines text, trimmed line ≠ "exit") (input : List UInt8) :
    run byName style first (encode text ++ input) =
      ((run byName style (latestGrammar byName first (lines text)) input).countedOn
        (parsedCount (lines text))).after (entries byName style first [] (lines text)) := by
  rw [run, cutLines_encode_append hcomplete, List.map_append, decode_cutLines_encode]
  show transcript byName style (afterLines byName first []) _ = _
  rw [transcript_append style hstays, List.nil_append, afterLines_eq_countedOn,
    transcript_countedOn]
  rfl

/-- **Sessions compose.**  Over complete lines of which none leaves, a
session comes to its end and answers its last prompt itself.  Over these
lines and whatever bytes follow, it writes the same but for that answer, and
goes on as a session over the bytes alone does, started with the grammar of
that prompt: with the same pieces behind the prompt, counted on, and with the
same ending.  If the bytes begin with a line that is no text, nothing is
written behind the prompt; and if a line that leaves comes before all that is
no text, the session ends well. -/
theorem sessions_compose (byName : String → Option Grammar) (style : Style) (first : Grammar)
    {text : String}
    (hcomplete : ∀ c ∈ text.toList.getLast?, c = '\n')
    (hstays : ∀ line ∈ lines text, trimmed line ≠ "exit") (input : List UInt8) :
    let next := latestGrammar byName first (lines text)
    let parsed := parsedCount (lines text)
    ∃ written more ending,
      run byName style first (encode text) =
          ⟨written ++ [.prompt ⟨next, parsed⟩, .farewell], .finished⟩ ∧
      run byName style next input = ⟨.prompt ⟨next, 0⟩ :: more, ending⟩ ∧
      run byName style first (encode text ++ input) =
          ⟨written ++ .prompt ⟨next, parsed⟩ :: more.map (Piece.countedOn parsed), ending⟩ ∧
      (∀ line ∈ (cutLines input).head?, decode? line = none → more = [] ∧ ending = .notText) ∧
      (∀ (before : List String) line rest,
        (cutLines input).map decode? = before.map some ++ some line :: rest →
          trimmed line = "exit" → ending = .finished) := by
  intro next parsed
  obtain ⟨more, ending, hrest⟩ :=
    exists_transcript_eq style (start next) ((cutLines input).map decode?)
  replace hrest : run byName style next input = ⟨.prompt ⟨next, 0⟩ :: more, ending⟩ := hrest
  refine ⟨entries byName style first [] (lines text), more, ending, ?_, hrest, ?_, ?_, ?_⟩
  · have halone := run_encode_append byName style first hcomplete hstays []
    have hnil : run byName style next [] = ⟨[.prompt ⟨next, 0⟩, .farewell], .finished⟩ := rfl
    rw [List.append_nil, hnil] at halone
    simpa [Transcript.countedOn, Transcript.after, Piece.countedOn, countedOn] using halone
  · rw [run_encode_append byName style first hcomplete hstays, hrest]
    simp [Transcript.countedOn, Transcript.after, Piece.countedOn, countedOn, next, parsed]
  · intro line hline hnone
    rw [run_of_not_text style next hline hnone] at hrest
    obtain ⟨hpieces, hending⟩ := Transcript.mk.inj hrest
    exact ⟨(List.cons.inj hpieces).2.symm, hending.symm⟩
  · intro before line rest hlines hline
    have hends : (run byName style next input).ending = .finished := by
      rw [run, hlines]
      exact ending_of_leaves style (start next) hline rest
    rw [← hends, hrest]

/-- A switch of grammars at the seam, and behind it a line that is no text. -/
theorem sessions_compose_at_broken_line :
    (∀ c ∈ "ab\n:grammar greetings\n".toList.getLast?, c = '\n') ∧
      (∀ line ∈ lines "ab\n:grammar greetings\n", trimmed line ≠ "exit") ∧
      (cutLines [255, lineFeed]).head? = some [255, lineFeed] ∧
      decode? [255, lineFeed] = none ∧
      ∃ written,
        run (Grammar.ofName? true) ⟨false, false⟩ .words (encode "ab\n:grammar greetings\n") =
          ⟨written ++ [.prompt ⟨.greetings, 1⟩, .farewell], .finished⟩ ∧
        run (Grammar.ofName? true) ⟨false, false⟩ .words
            (encode "ab\n:grammar greetings\n" ++ [255, lineFeed]) =
          ⟨written ++ [.prompt ⟨.greetings, 1⟩], .notText⟩ := by
  have hcomplete : ∀ c ∈ "ab\n:grammar greetings\n".toList.getLast?, c = '\n' := by simp
  have hlines : lines "ab\n:grammar greetings\n" = ["ab\n", ":grammar greetings\n"] := by cbv
  have hstays : ∀ line ∈ lines "ab\n:grammar greetings\n", trimmed line ≠ "exit" := by
    rw [hlines]; decide
  have hline : (cutLines [255, lineFeed]).head? = some [255, lineFeed] := by decide
  have hbroken : decode? [255, lineFeed] = none := by cbv
  have hnext : latestGrammar (Grammar.ofName? true) .words
      (lines "ab\n:grammar greetings\n") = .greetings := by
    rw [hlines]; cbv
  have hparsed : parsedCount (lines "ab\n:grammar greetings\n") = 1 := by rw [hlines]; cbv
  refine ⟨hcomplete, hstays, hline, hbroken, ?_⟩
  obtain ⟨written, more, ending, halone, -, hboth, hnotText, -⟩ :=
    sessions_compose (Grammar.ofName? true) ⟨false, false⟩ .words hcomplete hstays [255, lineFeed]
  obtain ⟨rfl, rfl⟩ := hnotText _ hline hbroken
  rw [hnext, hparsed] at halone hboth
  exact ⟨written, halone, hboth⟩

end Parsing.Session
