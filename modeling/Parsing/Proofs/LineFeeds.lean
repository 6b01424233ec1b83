/-
Parsing.Proofs.LineFeeds — the lines of a report.

Input text reaches a report on several ways: in values, in what was left, in
the messages of matchers and in those of causes.  On each of them it is
quoted, and a quoted text has no line feed (`Text.lineFeeds_quoted`).  So the
line feeds of a report are those that the report itself writes: one before
each cause, or one before what was left.

Values and failures are followed through the combinators on their own:
`Parser.Yields` is about the values of a parser, `Parser.FailsOnly` about its
failures.  A class can have any name, and that name stands in messages as it
is; so it must have no line feed (`Expr.LineSafe`).
-/
import Mathlib
import Parsing.Report
import Parsing.Grammar
import Parsing.Proofs.PrefixFree
import Parsing.Proofs.JsonText
import Parsing.Proofs.FailureTree

namespace Parsing

/-! ## Line feeds of texts -/

namespace Text

/-- How many line feeds the text has. -/
def lineFeeds (text : String) : Nat :=
  text.toList.count '\n'

@[simp]
theorem lineFeeds_append (a b : String) : lineFeeds (a ++ b) = lineFeeds a + lineFeeds b := by
  simp [lineFeeds]

theorem lineFeeds_eq_zero_iff {text : String} : lineFeeds text = 0 ↔ '\n' ∉ text.toList :=
  List.count_eq_zero

theorem lineFeeds_join (texts : List String) :
    lineFeeds (String.join texts) = (texts.map lineFeeds).sum := by
  induction texts with
  | nil => rfl
  | cons text texts ih =>
    rw [String.join_cons, lineFeeds_append, ih, List.map_cons, List.sum_cons]

theorem lineFeeds_intercalate {sep : String} {texts : List String} (hsep : lineFeeds sep = 0)
    (htexts : ∀ text ∈ texts, lineFeeds text = 0) : lineFeeds (sep.intercalate texts) = 0 := by
  simp only [lineFeeds_eq_zero_iff] at *
  rw [String.toList_intercalate]
  cases texts with
  | nil => simp
  | cons text texts =>
    obtain ⟨htext, htexts⟩ := List.forall_mem_cons.1 htexts
    rw [intercalate_cons_map]
    simpa [htext, hsep] using htexts

@[simp]
theorem lineFeeds_toString (n : Nat) : lineFeeds (toString n) = 0 := by
  rw [lineFeeds_eq_zero_iff, Nat.toString_eq_ofList_toDigits, String.toList_ofList]
  intro hmem
  obtain ⟨d, hd⟩ := exists_of_mem_toDigits (by decide) hmem
  exact Nat.digitChar_ne '\n' (by decide) hd

/-! ## Quoted texts and JSON texts -/

/-- A style of escapes leaves no line feed if it has an escape for it and
uses none in what it writes. -/
theorem EscapeStyle.Writes.lineFeed_notMem {style : EscapeStyle} {c : Char} {w : List Char}
    (h : style.Writes c w) (hmem : '\n' ∈ style.short.map Prod.fst)
    (hshort : ∀ p ∈ style.short, p.2 ≠ '\n') (hcode : ∀ c, '\n' ∉ style.code c) : '\n' ∉ w := by
  cases h with
  | @short d hd =>
    have hne : '\n' ≠ d := (hshort _ hd).symm
    simp [hne]
  | code =>
    have hc := hcode c
    simpa using hc
  | self hc =>
    have hne : '\n' ≠ c := fun h => hc (h ▸ hmem)
    simpa using hne

theorem lineFeed_notMem_quotedChar (c : Char) : '\n' ∉ quotedChar c := by
  refine (quotedChar_writes c).lineFeed_notMem (by decide) (by decide) fun c hmem => ?_
  simp only [quotedStyle, List.mem_cons, List.mem_append, List.not_mem_nil, or_false,
    Char.reduceEq, false_or] at hmem
  obtain ⟨d, hd⟩ := exists_of_mem_toDigits (by decide) hmem
  exact Nat.digitChar_ne '\n' (by decide) hd

@[simp]
theorem lineFeeds_quoted (text : String) : lineFeeds (quoted text) = 0 := by
  rw [lineFeeds_eq_zero_iff, toList_quoted]
  simp [lineFeed_notMem_quotedChar]

end Text

namespace Json

open Text

theorem lineFeed_notMem_escapedChar (c : Char) : '\n' ∉ escapedChar c := by
  refine (escapedChar_writes c).lineFeed_notMem (by decide) (by decide) fun c hmem => ?_
  simp only [stringStyle, controlCode, List.mem_cons, List.not_mem_nil, or_false,
    Char.reduceEq, false_or] at hmem
  rcases hmem with h | h
  · exact Nat.digitChar_ne '\n' (by decide) h.symm
  · exact Nat.digitChar_ne '\n' (by decide) h.symm

@[simp]
theorem lineFeeds_quotedText (text : String) : lineFeeds (quotedText text) = 0 := by
  rw [lineFeeds_eq_zero_iff, toList_quotedText]
  simp [lineFeed_notMem_escapedChar]

theorem lineFeeds_fieldTexts {fields : List (String × Json)}
    (hfields : ∀ field ∈ fields, lineFeeds field.2.text = 0) :
    ∀ chars ∈ fieldTexts fields, lineFeeds chars = 0 := by
  induction fields with
  | nil => simp [fieldTexts]
  | cons field fields ih =>
    obtain ⟨hfield, hrest⟩ := List.forall_mem_cons.1 hfields
    obtain ⟨key, value⟩ := field
    refine List.forall_mem_cons.2 ⟨?_, ih hrest⟩
    have hvalue : lineFeeds value.text = 0 := hfield
    have hcolon : lineFeeds ":" = 0 := by decide
    simp only [lineFeeds_append, lineFeeds_quotedText, hcolon, hvalue]

/-- A JSON text is one line, whatever texts the value has in it. -/
theorem lineFeeds_text (value : Json) : lineFeeds value.text = 0 := by
  induction value with
  | null => decide
  | bool value => cases value <;> decide
  | num n => exact lineFeeds_toString n
  | str text => exact lineFeeds_quotedText text
  | arr items ih =>
    have hcomma : lineFeeds "," = 0 := by decide
    have hitems : ∀ chars ∈ items.map Json.text, lineFeeds chars = 0 := by simpa using ih
    have hbody := lineFeeds_intercalate hcomma hitems
    rw [text, itemTexts_eq_map, bracketed, lineFeeds_append, lineFeeds_append, hbody]
    decide
  | obj fields ih =>
    have hcomma : lineFeeds "," = 0 := by decide
    have hbody := lineFeeds_intercalate hcomma (lineFeeds_fieldTexts ih)
    rw [text, braced, lineFeeds_append, lineFeeds_append, hbody]
    decide

end Json

/-! ## Values as a reader is shown them -/

section Inspect

open Text

variable {α β : Type} [Inspect α] [Inspect β]

theorem lineFeeds_inspect_list {as : List α} (h : ∀ a ∈ as, lineFeeds (inspect a) = 0) :
    lineFeeds (inspect as) = 0 := by
  have hcomma : lineFeeds ", " = 0 := by decide
  have hitems : ∀ text ∈ as.map inspect, lineFeeds text = 0 := by simpa using h
  have hbody := lineFeeds_intercalate hcomma hitems
  show lineFeeds (Inspect.bracketed (as.map inspect)) = 0
  rw [Inspect.bracketed, lineFeeds_append, lineFeeds_append, hbody]
  decide

theorem lineFeeds_inspect_pair {ab : α × β} (ha : lineFeeds (inspect ab.1) = 0)
    (hb : lineFeeds (inspect ab.2) = 0) : lineFeeds (inspect ab) = 0 := by
  show lineFeeds (Inspect.paired (inspect ab.1) (inspect ab.2)) = 0
  simp only [Inspect.paired, lineFeeds_append, ha, hb]
  decide

theorem lineFeeds_inspect_inl {a : α} (ha : lineFeeds (inspect a) = 0) :
    lineFeeds (inspect (.inl a : α ⊕ β)) = 0 := by
  show lineFeeds (Inspect.sided "Left" (inspect a)) = 0
  simp only [Inspect.sided, lineFeeds_append, ha]
  decide

theorem lineFeeds_inspect_inr {b : β} (hb : lineFeeds (inspect b) = 0) :
    lineFeeds (inspect (.inr b : α ⊕ β)) = 0 := by
  show lineFeeds (Inspect.sided "Right" (inspect b)) = 0
  simp only [Inspect.sided, lineFeeds_append, hb]
  decide

end Inspect

/-! ## What is true of all values of a parser -/

namespace Parser

variable {α β : Type} {p : Parser α} {q : Parser β} {P : α → Prop} {Q : β → Prop}

/-- From a boundary, the parser answers nothing but values that have the
property. -/
def Yields (P : α → Prop) (p : Parser α) : Prop :=
  ∀ ⦃target : String⦄ ⦃i : Nat⦄ ⦃a : α⦄ ⦃j : Nat⦄, Text.IsBoundary target i →
    p.Succeeds target i a j → P a

theorem Yields.imp (hp : p.Yields P) {P' : α → Prop} (h : ∀ a, P a → P' a) :
    p.Yields P' := by
  intro target i a j hi ha
  exact h a (hp hi ha)

theorem Yields.and (hp : p.Yields P) (hq : q.Yields Q) (hlawful : p.Lawful) :
    (p.and q).Yields fun ab => P ab.1 ∧ Q ab.2 := by
  intro target i ab k hi h
  obtain ⟨j, ha, hb⟩ := (and_succeeds hlawful hi).1 h
  exact ⟨hp hi ha, hq (hlawful.forward hi ha).2 hb⟩

theorem Yields.sequenceOf {ps : List (Parser α)} (hps : ∀ p ∈ ps, p.Yields P)
    (hlawful : ∀ p ∈ ps, p.Lawful) : (sequenceOf ps).Yields fun as => ∀ a ∈ as, P a := by
  induction ps with
  | nil =>
    intro target i as j hi h
    obtain ⟨rfl, -⟩ := sequenceOf_nil_succeeds.1 h
    simp
  | cons p ps ih =>
    intro target i as k hi h
    obtain ⟨hp, hrest⟩ := List.forall_mem_cons.1 hps
    obtain ⟨hp', hrest'⟩ := List.forall_mem_cons.1 hlawful
    obtain ⟨b, j, bs, hb, hbs, rfl⟩ := (sequenceOf_cons_succeeds hp' hi).1 h
    exact List.forall_mem_cons.2 ⟨hp hi hb, ih hrest hrest' (hp'.forward hi hb).2 hbs⟩

theorem Yields.choice {ps : List (Parser α)} (hps : ∀ p ∈ ps, p.Yields P)
    (hlawful : ∀ p ∈ ps, p.Lawful) : (choice ps).Yields P := by
  induction ps with
  | nil =>
    intro target i a j hi h
    exact absurd choice_nil_failsWith h.not_failsWith
  | cons p ps ih =>
    intro target i a j hi h
    obtain ⟨hp, hrest⟩ := List.forall_mem_cons.1 hps
    obtain ⟨hp', hrest'⟩ := List.forall_mem_cons.1 hlawful
    rcases (choice_cons_succeeds hp' hi).1 h with ha | ⟨-, ha⟩
    · exact hp hi ha
    · exact ih hrest hrest' hi ha

theorem Yields.or {p q : Parser α} (hp : p.Yields P) (hq : q.Yields P) (hp' : p.Lawful)
    (hq' : q.Lawful) : (p.or q).Yields P := by
  rw [or_eq_choice]
  exact .choice (by simp [hp, hq]) (by simp [hp', hq'])

theorem Yields.either (hp : p.Yields P) (hq : q.Yields Q) (hp' : p.Lawful) (hq' : q.Lawful) :
    (p.either q).Yields fun ab => (∃ a, ab = .inl a ∧ P a) ∨ ∃ b, ab = .inr b ∧ Q b := by
  intro target i ab j hi h
  rcases (either_succeeds hp' hq' hi).1 h with ⟨a, ha, rfl⟩ | ⟨-, b, hb, rfl⟩
  · exact .inl ⟨a, rfl, hp hi ha⟩
  · exact .inr ⟨b, rfl, hq hi hb⟩

/-- By induction on the values kept. -/
theorem Yields.many (hp : p.Yields P) (hlawful : p.Lawful) :
    p.many.Yields fun as => ∀ a ∈ as, P a := by
  intro target i as k hi h
  induction as generalizing i with
  | nil => simp
  | cons a as ih =>
    obtain ⟨j, ha, -, has⟩ := (many_cons_succeeds hlawful hi).1 h
    exact List.forall_mem_cons.2 ⟨hp hi ha, ih (hlawful.forward hi ha).2 has⟩

theorem Yields.manyOne (hp : p.Yields P) (hlawful : p.Lawful) :
    p.manyOne.Yields fun as => ∀ a ∈ as, P a := by
  intro target i as j hi h
  exact hp.many hlawful hi ((manyOne_succeeds hlawful hi).1 h).1

end Parser

/-! ## Messages -/

open Text

namespace Failure

/-- Every message of the failure's tree is one line. -/
def MessagesOneLine (failure : Failure) : Prop :=
  ∀ node, failure.HasNode node → lineFeeds node.message = 0

theorem messagesOneLine_iff {failure : Failure} :
    failure.MessagesOneLine ↔
      lineFeeds failure.message = 0 ∧ ∀ cause ∈ failure.causes, cause.MessagesOneLine := by
  constructor
  · intro h
    exact ⟨h _ (.root _), fun cause hcause node hnode => h node (.cause hcause hnode)⟩
  · rintro ⟨hmessage, hcauses⟩ node hnode
    cases hnode with
    | root => exact hmessage
    | cause hcause hnode => exact hcauses _ hcause node hnode

theorem messagesOneLine_leaf {kind : Kind} {index : Nat} {message : String}
    (h : lineFeeds message = 0) : (leaf kind index message).MessagesOneLine :=
  messagesOneLine_iff.2 ⟨h, by simp [leaf]⟩

theorem messagesOneLine_exhausted {start : Nat} {causes : List Failure}
    (h : ∀ cause ∈ causes, cause.MessagesOneLine) : (exhausted start causes).MessagesOneLine := by
  refine messagesOneLine_iff.2 ⟨?_, h⟩
  simp only [exhausted, withCauses, leaf, lineFeeds_append, lineFeeds_toString]
  decide

theorem messagesOneLine_emptyRepetition (start : Nat) :
    (emptyRepetition start).MessagesOneLine := by
  refine messagesOneLine_leaf ?_
  simp only [lineFeeds_append, lineFeeds_toString]
  decide

/-- Where a parser started does not matter to messages, so what is left is
the messages that combinators write. -/
theorem kept_messagesOneLine : Kept fun _ _ failure => failure.MessagesOneLine where
  mono _ _ _ _ _ h := h
  exhausted _ _ _ _ hcauses := messagesOneLine_exhausted hcauses
  emptyRepetition _ start _ := messagesOneLine_emptyRepetition start

end Failure

theorem Literal.messagesOneLine_endOfInput (l : Literal) (index : Nat) :
    (l.endOfInput index).MessagesOneLine := by
  refine Failure.messagesOneLine_leaf ?_
  simp only [lineFeeds_append, lineFeeds_quoted]
  decide

theorem Literal.messagesOneLine_mismatch (l : Literal) (index : Nat) (rest : String) :
    (l.mismatch index rest).MessagesOneLine := by
  refine Failure.messagesOneLine_leaf ?_
  simp only [lineFeeds_append, lineFeeds_quoted]
  decide

theorem CharClass.messagesOneLine_endOfInput {c : CharClass} (hname : lineFeeds c.name = 0)
    (index : Nat) : (c.endOfInput index).MessagesOneLine := by
  refine Failure.messagesOneLine_leaf ?_
  simp only [lineFeeds_append, hname]
  decide

theorem CharClass.messagesOneLine_mismatch {c : CharClass} (hname : lineFeeds c.name = 0)
    (index : Nat) : (c.mismatch index).MessagesOneLine := by
  refine Failure.messagesOneLine_leaf ?_
  simp only [lineFeeds_append, lineFeeds_toString, hname]
  decide

/-- The name of a class is the only text that a matcher does not quote. -/
def Matcher.NameOneLine : Matcher → Prop
  | .literal _ => True
  | .charClass c => lineFeeds c.name = 0

theorem Matcher.messagesOneLine {m : Matcher} (hname : m.NameOneLine) :
    m.parser.FailsOnly fun _ _ failure => failure.MessagesOneLine := by
  intro target i failure hi h
  obtain ⟨u, w, rfl, rfl⟩ := Text.isBoundary_iff.1 hi
  cases m with
  | literal l =>
    obtain ⟨-, rfl⟩ := Literal.failsWith_iff.1 h
    split
    · exact l.messagesOneLine_endOfInput _
    · exact l.messagesOneLine_mismatch _ _
  | charClass c =>
    obtain ⟨-, rfl⟩ := CharClass.failsWith_iff.1 h
    split
    · exact CharClass.messagesOneLine_endOfInput hname _
    · exact CharClass.messagesOneLine_mismatch hname _

/-! ## Expressions -/

namespace Expr

/-- The expression is built from matchers, whose class names are one line,
by combinators that neither make nor change values or failures by functions
of their own. -/
inductive LineSafe : {α : Type} → [Inspect α] → Expr α → Prop where
  | matcher {m : Matcher} (h : m.NameOneLine) : LineSafe (.matcher m)
  | sequenceOf {α : Type} [Inspect α] {n : Nat} {parts : Fin n → Expr α}
      (h : ∀ i, LineSafe (parts i)) : LineSafe (.sequenceOf parts)
  | and {α β : Type} [Inspect α] [Inspect β] {first : Expr α} {second : Expr β}
      (h₁ : LineSafe first) (h₂ : LineSafe second) : LineSafe (.and first second)
  | choice {α : Type} [Inspect α] {n : Nat} {alternatives : Fin n → Expr α}
      (h : ∀ i, LineSafe (alternatives i)) : LineSafe (.choice alternatives)
  | or {α : Type} [Inspect α] {first second : Expr α} (h₁ : LineSafe first)
      (h₂ : LineSafe second) : LineSafe (.or first second)
  | either {α β : Type} [Inspect α] [Inspect β] {first : Expr α} {second : Expr β}
      (h₁ : LineSafe first) (h₂ : LineSafe second) : LineSafe (.either first second)
  | many {α : Type} [Inspect α] {body : Expr α} (h : LineSafe body) : LineSafe (.many body)
  | manyOne {α : Type} [Inspect α] {body : Expr α} (h : LineSafe body) :
      LineSafe (.manyOne body)
  | boxed {α : Type} [Inspect α] {body : Expr α} (h : LineSafe body) : LineSafe (.boxed body)

variable {α : Type} [Inspect α] {e : Expr α}

theorem LineSafe.stepFree (h : e.LineSafe) : e.StepFree := by
  induction h with
  | matcher _ => trivial
  | sequenceOf _ ih => exact ih
  | and _ _ ih₁ ih₂ => exact ⟨ih₁, ih₂⟩
  | choice _ ih => exact ih
  | or _ _ ih₁ ih₂ => exact ⟨ih₁, ih₂⟩
  | either _ _ ih₁ ih₂ => exact ⟨ih₁, ih₂⟩
  | many _ ih => exact ih
  | manyOne _ ih => exact ih
  | boxed _ ih => exact ih

theorem LineSafe.lawful (h : e.LineSafe) : e.parser.Lawful :=
  StepFree.lawful h.stepFree

theorem LineSafe.messagesOneLine (h : e.LineSafe) :
    e.parser.FailsOnly fun _ _ failure => failure.MessagesOneLine := by
  have hkept := Failure.kept_messagesOneLine
  induction h with
  | matcher hname => exact Matcher.messagesOneLine hname
  | sequenceOf h ih =>
    refine .sequenceOf hkept (fun p hp => ?_) (Parser.lawful_of_mem_ofFn fun i => (h i).lawful)
    obtain ⟨i, rfl⟩ := List.mem_ofFn.1 hp
    exact ih i
  | and h₁ _ ih₁ ih₂ => exact ih₁.and hkept ih₂ h₁.lawful
  | choice h ih =>
    refine .choice hkept (fun p hp => ?_) (Parser.lawful_of_mem_ofFn fun i => (h i).lawful)
    obtain ⟨i, rfl⟩ := List.mem_ofFn.1 hp
    exact ih i
  | or h₁ h₂ ih₁ ih₂ => exact ih₁.or hkept ih₂ h₁.lawful h₂.lawful
  | either h₁ h₂ ih₁ ih₂ => exact ih₁.either hkept ih₂ h₁.lawful h₂.lawful
  | many _ _ => exact Parser.many_failsOnly _
  | manyOne h _ => exact Parser.manyOne_failsOnly hkept h.lawful
  | boxed _ ih => exact ih

theorem LineSafe.lineFeeds_inspect (h : e.LineSafe) :
    e.parser.Yields fun a => lineFeeds (inspect a) = 0 := by
  induction h with
  | matcher _ =>
    intro target i text j _ _
    exact lineFeeds_quoted text
  | sequenceOf h ih =>
    refine (Parser.Yields.sequenceOf (fun p hp => ?_)
      (Parser.lawful_of_mem_ofFn fun i => (h i).lawful)).imp fun _ => lineFeeds_inspect_list
    obtain ⟨i, rfl⟩ := List.mem_ofFn.1 hp
    exact ih i
  | and h₁ _ ih₁ ih₂ =>
    exact (ih₁.and ih₂ h₁.lawful).imp fun _ hab => lineFeeds_inspect_pair hab.1 hab.2
  | choice h ih =>
    refine .choice (fun p hp => ?_) (Parser.lawful_of_mem_ofFn fun i => (h i).lawful)
    obtain ⟨i, rfl⟩ := List.mem_ofFn.1 hp
    exact ih i
  | or h₁ h₂ ih₁ ih₂ => exact ih₁.or ih₂ h₁.lawful h₂.lawful
  | either h₁ h₂ ih₁ ih₂ =>
    refine (ih₁.either ih₂ h₁.lawful h₂.lawful).imp ?_
    rintro _ (⟨a, rfl, ha⟩ | ⟨b, rfl, hb⟩)
    · exact lineFeeds_inspect_inl ha
    · exact lineFeeds_inspect_inr hb
  | many h ih => exact (ih.many h.lawful).imp fun _ => lineFeeds_inspect_list
  | manyOne h ih => exact (ih.manyOne h.lawful).imp fun _ => lineFeeds_inspect_list
  | boxed _ ih => exact ih

end Expr

/-! ## Reports -/

namespace State

variable {α : Type} [Inspect α] [ToJson α]

theorem lineFeeds_report_error {target : String} {index : Nat} {failure : Failure}
    (h : failure.MessagesOneLine) :
    lineFeeds (report (⟨target, index, .error failure⟩ : State α) false) =
      failure.causes.length := by
  obtain ⟨hmessage, hcauses⟩ := Failure.messagesOneLine_iff.1 h
  have hsummary : lineFeeds (summary (⟨target, index, .error failure⟩ : State α)) = 0 := by
    simp only [summary, lineFeeds_append, lineFeeds_toString, hmessage]
    decide
  have hcause : ∀ cause ∈ failure.causes,
      (lineFeeds ∘ fun cause : Failure => "\n  caused by: " ++ cause.message) cause = 1 := by
    intro cause hcause
    rw [Function.comp_apply, lineFeeds_append,
      (Failure.messagesOneLine_iff.1 (hcauses cause hcause)).1]
    decide
  have hdetails : lineFeeds (details (⟨target, index, .error failure⟩ : State α)) =
      failure.causes.length := by
    rw [details, lineFeeds_join, List.map_map, List.map_congr_left hcause]
    simp
  simp only [report, Bool.false_eq_true, if_false, lineFeeds_append, hsummary, hdetails, zero_add]

theorem lineFeeds_report_ok {u w : String} {value : α} (h : lineFeeds (inspect value) = 0) :
    lineFeeds (report ⟨u ++ w, u.utf8ByteSize, .ok value⟩ false) = if w = "" then 0 else 1 := by
  have hsummary : lineFeeds (summary ⟨u ++ w, u.utf8ByteSize, .ok value⟩) = 0 := by
    simp only [summary, lineFeeds_append, lineFeeds_toString, h]
    decide
  have hdetails : lineFeeds (details ⟨u ++ w, u.utf8ByteSize, .ok value⟩) =
      if w = "" then 0 else 1 := by
    simp only [details, remaining_append]
    split
    · rfl
    · rw [lineFeeds_append, lineFeeds_quoted]
      decide
  simp only [report, Bool.false_eq_true, if_false, lineFeeds_append, hsummary, hdetails, zero_add]

end State

/-- **No input adds lines to a report.**  A line-safe expression is run on
any text: the report has one line feed for each direct cause if the run
failed, one if it left something, and none if it took everything.  The JSON
report of any state, made by any parser, has none. -/
theorem reports_keep_lines {α : Type} [Inspect α] [ToJson α] {e : Expr α} (he : e.LineSafe)
    (target : String) :
    lineFeeds ((e.run target).report false) =
        (match (e.run target).outcome with
          | .error failure => failure.causes.length
          | .ok _ => if (e.run target).index = target.utf8ByteSize then 0 else 1) ∧
      ∀ {β : Type} [Inspect β] [ToJson β] (s : State β), lineFeeds (s.report true) = 0 := by
  refine ⟨?_, fun s => Json.lineFeeds_text s.json⟩
  have hi := Text.isBoundary_zero target
  rcases he.lawful.cases hi with ⟨value, j, hvalue, -, hj⟩ | ⟨failure, hfailure⟩
  · obtain ⟨u, w, rfl, rfl⟩ := Text.isBoundary_iff.1 hj
    have hrun : e.run (u ++ w) = ⟨u ++ w, u.utf8ByteSize, .ok value⟩ := hvalue
    have hsize : u.utf8ByteSize = (u ++ w).utf8ByteSize ↔ w = "" := by
      rw [String.utf8ByteSize_append, ← String.utf8ByteSize_eq_zero_iff]
      omega
    rw [hrun, State.lineFeeds_report_ok (he.lineFeeds_inspect hi hvalue)]
    simp only [hsize]
  · have hrun : e.run target = ⟨target, failure.index, .error failure⟩ := hfailure
    rw [hrun, State.lineFeeds_report_error (he.messagesOneLine hi hfailure)]

/-- A literal of two lines, or digits. -/
def linesOrDigits : Expr String :=
  .or (.matcher (.literal ⟨"a\nb", by decide⟩)) (.matcher (.charClass .digits))

/-- The messages of the causes quote the literal and the input, both of two
lines; the report has the line of each cause and no other. -/
theorem reports_keep_lines_two_causes :
    linesOrDigits.LineSafe ∧
    (linesOrDigits.run "\n\"").outcome =
      .error (.exhausted 0
        [Literal.mismatch ⟨"a\nb", by decide⟩ 0 "\n\"", CharClass.digits.mismatch 0]) ∧
    lineFeeds ((linesOrDigits.run "\n\"").report false) = 2 := by
  have hdigits : lineFeeds CharClass.digits.name = 0 := by decide
  have hsafe : linesOrDigits.LineSafe := .or (.matcher trivial) (.matcher hdigits)
  have hliteral : (Matcher.literal ⟨"a\nb", by decide⟩).parser.FailsWith "\n\"" 0
      (Literal.mismatch ⟨"a\nb", by decide⟩ 0 "\n\"") := by
    refine Literal.parser_of_not_startsWith (u := "") (w := "\n\"") fun rest h => ?_
    simpa using congrArg String.toList h
  have hclass : (Matcher.charClass .digits).parser.FailsWith "\n\"" 0
      (CharClass.digits.mismatch 0) :=
    CharClass.parser_of_leadingRun_empty (u := "") (w := "\n\"") (by cbv)
  have hfails := (Parser.or_failsWith (Matcher.parser_lawful _) (Matcher.parser_lawful _)
    (Text.isBoundary_zero _)).2 ⟨_, _, hliteral, hclass, rfl⟩
  have hrun : (linesOrDigits.run "\n\"").outcome = _ := congrArg State.outcome hfails
  have hlines := (reports_keep_lines hsafe "\n\"").1
  rw [hrun] at hlines
  exact ⟨hsafe, hrun, hlines⟩

end Parsing
