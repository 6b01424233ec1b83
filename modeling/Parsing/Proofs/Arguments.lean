/-
Parsing.Proofs.Arguments — what is known of a reader of arguments.

A run depends on the arguments through the options that a reader makes of
them, and nothing but this is asked of the reader (`Reads`): behind flags for
the grammar and for how to report, a file may be named and a text may be given.
What begins with a hyphen can be taken for a flag, unless the hyphen stands
alone.  So nothing is asked about a text that does where it stands apart from the
flag for texts, and attached to the flag it is read as it is; and a file that
does is named behind two dashes.

The reader of `Parsing.CommandLine` is one of these (`accept_reads`).
-/
import Mathlib
import Parsing.CommandLine

namespace Parsing.CommandLine

/-! ## Arguments -/

/-- The text begins with a hyphen that does not stand alone. -/
def IsHyphened (text : String) : Prop :=
  ∃ c rest, text.toList = '-' :: c :: rest

/-- Flags for the grammar and for how to report. -/
def flags (g : Grammar) (asJson verbose : Bool) : List String :=
  ("--grammar=" ++ g.name)
    :: ((if asJson then ["--json"] else []) ++ (if verbose then ["-v"] else []))

/-- The arguments name a file. -/
inductive NamesFile (name : String) : List String → Prop where
  | plain (h : ¬ IsHyphened name) : NamesFile name [name]
  | behindDashes : NamesFile name ["--", name]

/-- The arguments give a text. -/
inductive GivesText (text : String) : List String → Prop where
  | apart (h : ¬ IsHyphened text) : GivesText text ["-e", text]
  | attached : GivesText text ["--expr=" ++ text]

/-- What is known of a reader of arguments. -/
structure Reads (accept : List String → Except (Nat × String) Options) : Prop where
  lines : ∀ g asJson verbose,
    accept (flags g asJson verbose) = .ok ⟨none, none, g, asJson, verbose⟩
  file : ∀ g asJson verbose {name arguments}, NamesFile name arguments →
    accept (flags g asJson verbose ++ arguments) = .ok ⟨some name, none, g, asJson, verbose⟩
  text : ∀ g asJson verbose {text arguments}, GivesText text arguments →
    accept (flags g asJson verbose ++ arguments) = .ok ⟨none, some text, g, asJson, verbose⟩

/-! ## A reader -/

variable {given given' : Given} {name text value : String}

theorem isFlag_iff : isFlag text.toList = true ↔ IsHyphened text := by
  unfold isFlag IsHyphened
  split
  · rename_i c rest h
    simp [h]
  · rename_i h
    simpa using fun c rest heq => h c rest heq

theorem splitAtEquals_append {flag : List Char} (h : '=' ∉ flag) (value : List Char) :
    splitAtEquals (flag ++ '=' :: value) = (flag, some value) := by
  have hflag : ∀ c ∈ flag, (c != '=') = true := by
    intro c hc
    exact bne_iff_ne.2 fun heq => h (heq ▸ hc)
  simp [splitAtEquals, List.dropWhile_append_of_pos hflag, List.takeWhile_append_of_pos hflag]

theorem readLong_value (flag : ValueFlag) (h : given.setValue flag value = .ok given') :
    readLong given flag.name (some value) = .ok (.noted given') := by
  cases flag with
  | text => simp [readLong, readLong.read, ValueFlag.name, h, Except.map]
  | grammar => simp [readLong, readLong.read, ValueFlag.name, h, Except.map]

/-- A long flag with its value attached. -/
theorem readArgument_value (flag : ValueFlag) (h : given.setValue flag value = .ok given') :
    readArgument given (flag.name ++ "=" ++ value).toList = .ok (.noted given') := by
  have hnoEquals : '=' ∉ flag.name.toList := by cases flag <;> decide
  have hchars : (flag.name ++ "=" ++ value).toList = flag.name.toList ++ '=' :: value.toList := by
    simp
  have hparts := splitAtEquals_append hnoEquals value.toList
  obtain ⟨rest, hdashes⟩ : ∃ rest, flag.name.toList = '-' :: '-' :: rest := by
    cases flag <;> exact ⟨_, rfl⟩
  rw [hchars]
  rw [hdashes, List.cons_append, List.cons_append] at hparts ⊢
  simp only [readArgument, hparts, Option.map_some, String.ofList_toList]
  rw [← hdashes, String.ofList_toList]
  exact readLong_value flag h

theorem readArguments_value (flag : ValueFlag) (h : given.setValue flag value = .ok given')
    (arguments : List String) :
    readArguments given none ((flag.name ++ "=" ++ value) :: arguments) =
      readArguments given' none arguments := by
  have hends : flag.name ++ "=" ++ value ≠ "--" := by
    intro heq
    have hlength := congrArg (fun text : String => text.toList.length) heq
    cases flag <;> simp [ValueFlag.name] at hlength
  rw [readArguments]
  simp only [if_neg hends, readArgument_value flag h]

/-- The flags without a value, where none of them has been given before. -/
theorem readArguments_switches (hjson : given.asJson = false) (hverbose : given.verbose = false)
    (asJson verbose : Bool) (arguments : List String) :
    readArguments given none
        ((if asJson then ["--json"] else []) ++ ((if verbose then ["-v"] else []) ++ arguments)) =
      readArguments { given with asJson := asJson, verbose := verbose } none arguments := by
  obtain ⟨file, text, grammar, json, verbose'⟩ := given
  obtain rfl : json = false := hjson
  obtain rfl : verbose' = false := hverbose
  cases asJson <;> cases verbose <;> rfl

theorem setValue_grammar (grammar : Grammar) (hnone : given.grammar = none) :
    given.setValue .grammar grammar.name = .ok { given with grammar := some grammar } := by
  simp [Given.setValue, hnone, Grammar.ofName?_name]

/-- Behind the flags, all that they ask for is noted. -/
theorem readArguments_flags (g : Grammar) (asJson verbose : Bool) (arguments : List String) :
    readArguments {} none (flags g asJson verbose ++ arguments) =
      readArguments { grammar := some g, asJson, verbose } none arguments := by
  have hgrammar : Given.setValue {} .grammar g.name = .ok { grammar := some g } :=
    setValue_grammar g rfl
  rw [flags, List.cons_append, List.append_assoc]
  exact (readArguments_value .grammar hgrammar _).trans
    (readArguments_switches rfl rfl asJson verbose arguments)

theorem readArguments_file {arguments : List String} (h : NamesFile name arguments)
    (hnone : given.file = none) :
    readArguments given none arguments = .ok { given with file := some name } := by
  have hfile : given.setFile name = .ok { given with file := some name } := by
    simp [Given.setFile, hnone]
  cases h with
  | plain hplain =>
    have hdashes : name ≠ "--" := by
      rintro rfl
      exact hplain ⟨'-', [], rfl⟩
    have hargument : readArgument given name.toList =
        .ok (.noted { given with file := some name }) := by
      unfold readArgument
      split
      · rename_i rest hchars
        exact absurd ⟨_, _, hchars⟩ hplain
      · rename_i c rest _ hchars
        exact absurd ⟨_, _, hchars⟩ hplain
      · rw [String.ofList_toList, hfile]
        rfl
    rw [readArguments]
    simp only [if_neg hdashes, hargument]
    rfl
  | behindDashes =>
    rw [readArguments]
    simp only [if_true, readFiles, hfile]

/-- A flag whose value stands behind it. -/
theorem readArguments_apart (given : Given) (text : String) :
    readArguments given none ["-e", text] =
      if isFlag text.toList then .error (.missingValue ValueFlag.text.name)
      else given.setValue .text text := by
  show (if isFlag text.toList then _ else _) = _
  split
  · rfl
  · cases given.setValue .text text <;> rfl

theorem readArguments_text {arguments : List String} (h : GivesText text arguments)
    (hnone : given.text = none) :
    readArguments given none arguments = .ok { given with text := some text } := by
  have htext : given.setValue .text text = .ok { given with text := some text } := by
    simp [Given.setValue, hnone]
  cases h with
  | apart hplain => rw [readArguments_apart, if_neg (isFlag_iff.not.2 hplain), htext]
  | attached => exact readArguments_value .text htext []

theorem accept_of_readArguments {arguments : List String} {options : Options}
    (hread : readArguments {} none arguments = .ok given) (hgiven : given.options = .ok options) :
    accept arguments = .ok options := by
  rw [accept, CommandLine.options, hread]
  simp only [hgiven]
  rfl

/-- **The reader of arguments** does what is asked of one. -/
theorem accept_reads : Reads accept where
  lines g asJson verbose := by
    have hread := readArguments_flags g asJson verbose []
    rw [List.append_nil] at hread
    exact accept_of_readArguments hread rfl
  file g asJson verbose name arguments h :=
    accept_of_readArguments ((readArguments_flags g asJson verbose arguments).trans
      (readArguments_file h rfl)) rfl
  text g asJson verbose text arguments h :=
    accept_of_readArguments ((readArguments_flags g asJson verbose arguments).trans
      (readArguments_text h rfl)) rfl

end Parsing.CommandLine
