/-
Parsing.Proofs.ExitStatus — when the program ends with which status.

Two things can go wrong once a run has its options: a file has no text, or a
session comes to a line that is no text.  That the grammar fails is a third
thing the program is ready for, but no grammar does (`Grammar.isError_run`).

A session does not know of a line before it comes to it.  So whether it ends
at a line that is no text is decided by the lines before that one, and none of
them may leave (`Session.ending_transcript_iff`).

The options can be any (`Options.exitCode_run_eq_one_iff`).  How they are read
off arguments, and which arguments are accepted, is for the reader of arguments
to say: the status is that of the options it makes of them.
-/
import Mathlib
import Parsing.CommandLine
import Parsing.Proofs.History
import Parsing.Proofs.Sources

namespace Parsing

open Text

/-! ## How sessions end -/

namespace Session

/-- One of the lines is no text, and none of those before it leaves. -/
def Breaks (lines : List (List UInt8)) : Prop :=
  ∃ before line after, lines = before ++ line :: after ∧ decode? line = none ∧
    ∀ earlier ∈ before, ∀ text, decode? earlier = some text → trimmed text ≠ "exit"

variable {byName : String → Option Grammar} {line : List UInt8} {lines : List (List UInt8)}
  {text : String}

theorem not_breaks_nil : ¬ Breaks [] := by
  rintro ⟨before, line, after, h, -⟩
  simp at h

theorem breaks_cons_of_not_text (h : decode? line = none) : Breaks (line :: lines) :=
  ⟨[], line, lines, rfl, h, by simp⟩

theorem not_breaks_cons_of_leaves (htext : decode? line = some text) (h : trimmed text = "exit") :
    ¬ Breaks (line :: lines) := by
  rintro ⟨before, broken, after, hlines, hbroken, hbefore⟩
  cases before with
  | nil =>
    obtain ⟨rfl, -⟩ := List.cons.inj hlines
    simp [htext] at hbroken
  | cons first before =>
    obtain ⟨rfl, -⟩ := List.cons.inj hlines
    exact hbefore _ (List.mem_cons_self ..) text htext h

theorem breaks_cons_of_stays (htext : decode? line = some text) (h : trimmed text ≠ "exit") :
    Breaks (line :: lines) ↔ Breaks lines := by
  constructor
  · rintro ⟨before, broken, after, hlines, hbroken, hbefore⟩
    cases before with
    | nil =>
      obtain ⟨rfl, -⟩ := List.cons.inj hlines
      simp [htext] at hbroken
    | cons first before =>
      obtain ⟨-, hrest⟩ := List.cons.inj hlines
      exact ⟨before, broken, after, hrest, hbroken, (List.forall_mem_cons.1 hbefore).2⟩
  · rintro ⟨before, broken, after, rfl, hbroken, hbefore⟩
    refine ⟨line :: before, broken, after, rfl, hbroken, List.forall_mem_cons.2 ⟨?_, hbefore⟩⟩
    intro text' htext'
    obtain rfl := Option.some.inj (htext.symm.trans htext')
    exact h

/-- A session goes on after every line that does not leave. -/
theorem exists_respond_of_stays (style : Style) (session : Session) (h : trimmed text ≠ "exit") :
    ∃ next pieces, session.respond byName style (.ofLine text) = some (next, pieces) := by
  have hasks := asks_ofLine text
  generalize Command.ofLine text = command at hasks
  cases hasks with
  | skip hblank => exact ⟨_, _, rfl⟩
  | leave hleave => exact absurd hleave h
  | @select name hname =>
    simp only [respond]
    cases byName name <;> exact ⟨_, _, rfl⟩
  | parse hparsed => exact ⟨_, _, rfl⟩

/-- By induction on the lines: the first of them ends the session, or the
others decide. -/
theorem ending_transcript_iff (style : Style) (session : Session) :
    (transcript byName style session (lines.map decode?)).ending = .notText ↔ Breaks lines := by
  induction lines generalizing session with
  | nil => simp [transcript, not_breaks_nil]
  | cons line lines ih =>
    rw [List.map_cons]
    cases htext : decode? line with
    | none => simp [transcript, breaks_cons_of_not_text htext]
    | some text =>
      -- behind a line that leaves nothing is read, so nothing breaks
      by_cases hleave : trimmed text = "exit"
      · rw [transcript_of_leaves style session hleave]
        simp [not_breaks_cons_of_leaves htext hleave]
      · obtain ⟨next, pieces, hnext⟩ := @exists_respond_of_stays byName _ style session hleave
        rw [breaks_cons_of_stays htext hleave, ← ih next]
        simp only [transcript, hnext, Transcript.after]

end Session

/-! ## What goes wrong -/

/-- A file cannot be read, or its bytes are no text. -/
def HasNoText (contents : Except ReadError (List UInt8)) : Prop :=
  (∃ cause, contents = .error cause) ∨ ∃ bytes, contents = .ok bytes ∧ decode? bytes = none

namespace Options

variable (options : Options)

/-- A run over a file without a text writes nothing; over any other it ends
well. -/
theorem runFile_cases (name : String) (contents : Except ReadError (List UInt8)) :
    (HasNoText contents ∧
        ∃ cause, options.runFile name contents = ⟨"", some (.unreadable name cause)⟩) ∨
      ¬ HasNoText contents ∧ (options.runFile name contents).fault = none := by
  cases contents with
  | error cause => exact .inl ⟨.inl ⟨cause, rfl⟩, cause, rfl⟩
  | ok bytes =>
    cases htext : decode? bytes with
    | none => exact .inl ⟨.inr ⟨bytes, rfl, htext⟩, .notText, by simp only [runFile, htext]⟩
    | some text =>
      refine .inr ⟨?_, by simp only [runFile, htext, runText_eq]⟩
      rintro (⟨cause, hcause⟩ | ⟨bytes', hbytes, hnone⟩)
      · cases hcause
      · cases hbytes
        simp [htext] at hnone

theorem runLines_fault (byName : String → Option Grammar) (elapsed : Session.Elapsed)
    (input : List UInt8) :
    ((options.runLines byName elapsed input).fault = some .inputNotText ∧
        Session.Breaks (cutLines input)) ∨
      (options.runLines byName elapsed input).fault = none ∧
        ¬ Session.Breaks (cutLines input) := by
  have hiff := @Session.ending_transcript_iff byName (cutLines input) options.style
    (Session.start options.grammar)
  simp only [runLines, Session.run]
  cases hending : (Session.transcript byName options.style (Session.start options.grammar)
      ((cutLines input).map decode?)).ending with
  | finished => exact .inr ⟨rfl, by simp [← hiff, hending]⟩
  | notText => exact .inl ⟨rfl, hiff.1 hending⟩

/-- By the place that the text comes from: a file, an option, or the input. -/
theorem exitCode_run_eq_one_iff (byName : String → Option Grammar)
    (read : String → Except ReadError (List UInt8)) (elapsed : Session.Elapsed)
    (input : List UInt8) :
    let outcome := options.run byName read elapsed input
    (outcome.exitCode = 1 ↔
      (∃ name, options.file = some name ∧ HasNoText (read name)) ∨
        options.file = none ∧ options.text = none ∧ Session.Breaks (cutLines input)) ∧
    (options.file.isSome → outcome.exitCode = 1 → outcome.output = "") ∧
    outcome.fault ≠ some .unparsed := by
  cases hfile : options.file with
  | some name =>
    simp only [run, hfile]
    rcases options.runFile_cases name (read name) with ⟨hnoText, cause, hrun⟩ | ⟨htext, hfault⟩
    · simp [hrun, hnoText, Outcome.exitCode]
    · simp [hfault, htext, Outcome.exitCode]
  | none =>
    cases htext : options.text with
    | some text => simp [run, hfile, htext, runText_eq, Outcome.exitCode]
    | none =>
      simp only [run, hfile, htext]
      rcases options.runLines_fault byName elapsed input with ⟨hfault, hbreaks⟩ |
        ⟨hfault, hstays⟩
      · simp [hfault, hbreaks, Outcome.exitCode]
      · simp [hfault, hstays, Outcome.exitCode]

end Options

theorem Outcome.exitCode_eq_zero (outcome : Outcome) (h : outcome.exitCode ≠ 1) :
    outcome.exitCode = 0 := by
  unfold exitCode at h ⊢
  split <;> simp_all

/-- **The exit status.**  Of arguments that a reader accepts, files and an
input: the program ends with status 1 if a file is given that has no text, or
if neither a file nor a text is given and a line of the input that is no text
comes before any that leaves.  Otherwise it ends with status 0.  With a file,
status 1 means that nothing is written; and that a text could not be parsed is
never the reason, as every grammar succeeds on every text. -/
theorem exit_status_iff {accept : List String → Except (Nat × String) Options}
    {arguments : List String} {options : Options} (h : accept arguments = .ok options)
    (byName : String → Option Grammar) :
    (∀ read elapsed input,
      let ended := runArguments accept byName arguments read elapsed input
      (ended.1 = 1 ↔
        (∃ name, options.file = some name ∧ HasNoText (read name)) ∨
          options.file = none ∧ options.text = none ∧ Session.Breaks (cutLines input)) ∧
      (ended.1 ≠ 1 → ended.1 = 0) ∧
      (options.file.isSome → ended.1 = 1 → ended.2 = "") ∧
      (options.run byName read elapsed input).fault ≠ some .unparsed) ∧
    ∀ (g : Grammar) text, (g.run text).isError = false := by
  refine ⟨fun read elapsed input => ?_, Grammar.isError_run⟩
  obtain ⟨hone, hnothing, hparsed⟩ :=
    options.exitCode_run_eq_one_iff byName read elapsed input
  simp only [runArguments, h]
  exact ⟨hone, Outcome.exitCode_eq_zero _, hnothing, hparsed⟩

/-- The second line is no text, and the first does not leave. -/
theorem exit_status_iff_broken_line :
    CommandLine.accept ["--json"] = .ok ⟨none, none, .words, true, false⟩ ∧
    (runArguments CommandLine.accept (Grammar.ofName? true) ["--json"]
      (fun _ => .error .notFound) ⟨"0", "0"⟩ [97, 10, 255, 10]).1 = 1 := by
  have haccept : CommandLine.accept ["--json"] = .ok ⟨none, none, .words, true, false⟩ := rfl
  have htext : decode? [97, 10] = some "a\n" := by cbv
  have hbroken : decode? [255, 10] = none := by cbv
  have hbreaks : Session.Breaks (cutLines [97, 10, 255, 10]) :=
    (Session.breaks_cons_of_stays htext (by cbv)).2 (Session.breaks_cons_of_not_text hbroken)
  obtain ⟨hrun, -⟩ := exit_status_iff haccept (Grammar.ofName? true)
  exact ⟨haccept, (hrun _ _ _).1.2 (.inr ⟨rfl, rfl, hbreaks⟩)⟩

end Parsing
