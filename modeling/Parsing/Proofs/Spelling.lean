/-
Parsing.Proofs.Spelling — no input is lost, doubled or moved.

Where no function makes values of its own, a value is made of matched
texts: in lists, in pairs, on one side of an alternative.  Read in their
order they spell the input from where the parser started to where it
stopped (`plain_spells_slice`).

The work is one property of parsers, `Parser.Covers`, with a lemma for
each combinator.  Slices that meet are one slice, and that is all that
sequences and repetitions need; a failed alternative and the attempt
that ends a repetition move no offset, so nothing has to be said about
them.
-/
import Mathlib
import Parsing.Grammar
import Parsing.Proofs.Matching

namespace Parsing

/-! ## Slices -/

namespace Text

variable {text v a b : String} {i j k : Nat}

/-- A slice is the middle part of a cut in three. -/
theorem sliceBytes?_eq_some_iff :
    sliceBytes? text i j = some v ↔
      ∃ u w, text = u ++ (v ++ w) ∧ i = u.utf8ByteSize ∧ j = (u ++ v).utf8ByteSize := by
  constructor
  · intro h
    unfold sliceBytes? at h
    split at h
    · rename_i hcond
      obtain ⟨hle, hi, hj⟩ := hcond
      obtain ⟨u, r, rfl, rfl⟩ := isBoundary_iff.1 hi
      obtain ⟨x, y, hxy, rfl⟩ := isBoundary_iff.1 hj
      obtain ⟨z, rfl⟩ := exists_append_of_append_eq hxy hle
      rw [hxy, takeBytes_append, dropBytes_append] at h
      obtain rfl := Option.some.inj h
      exact ⟨u, y, by rw [hxy, String.append_assoc], rfl, rfl⟩
    · simp at h
  · rintro ⟨u, w, rfl, rfl, rfl⟩
    rw [← String.append_assoc]
    exact sliceBytes?_append u v w

theorem sliceBytes?_self (h : IsBoundary text i) : sliceBytes? text i i = some "" := by
  obtain ⟨u, w, rfl, rfl⟩ := isBoundary_iff.1 h
  exact sliceBytes?_eq_some_iff.2 ⟨u, w, by simp, rfl, by simp⟩

/-- Slices that meet are one slice. -/
theorem sliceBytes?_trans (ha : sliceBytes? text i j = some a)
    (hb : sliceBytes? text j k = some b) :
    sliceBytes? text i k = some (a ++ b) := by
  obtain ⟨u, w, rfl, rfl, rfl⟩ := sliceBytes?_eq_some_iff.1 ha
  obtain ⟨u', w', htext, hj, rfl⟩ := sliceBytes?_eq_some_iff.1 hb
  -- both cut the text at `j`, so the cuts are the same
  have hu : u ++ a = u' := by
    rw [← takeBytes_append (u ++ a) w, String.append_assoc, htext, hj, takeBytes_append]
  subst hu
  have hw : w = b ++ w' := by
    rw [String.append_assoc, String.append_right_inj, String.append_right_inj] at htext
    exact htext
  subst hw
  exact sliceBytes?_eq_some_iff.2
    ⟨u, w', by simp only [String.append_assoc], rfl, by rw [String.append_assoc]⟩

end Text

/-! ## What a value spells -/

/-- Types whose values hold matched texts. -/
class Spelled (α : Type) where
  /-- The matched texts of the value, in their order, as one. -/
  spelling : α → String

export Spelled (spelling)

instance : Spelled String where
  spelling text := text

instance {α : Type} [Spelled α] : Spelled (List α) where
  spelling items := String.join (items.map spelling)

instance {α β : Type} [Spelled α] [Spelled β] : Spelled (α × β) where
  spelling pair := spelling pair.1 ++ spelling pair.2

instance {α β : Type} [Spelled α] [Spelled β] : Spelled (α ⊕ β) where
  spelling
    | .inl a => spelling a
    | .inr b => spelling b

theorem spelling_nil {α : Type} [Spelled α] : spelling ([] : List α) = "" :=
  String.join_nil

theorem spelling_cons {α : Type} [Spelled α] (a : α) (as : List α) :
    spelling (a :: as) = spelling a ++ spelling as :=
  String.join_cons

/-! ## Parsers that cover what they move over -/

namespace Parser

variable {α β : Type} [Spelled α] [Spelled β] {p : Parser α} {q : Parser β}

/-- A value of the parser spells the input that the parser moved over. -/
def Covers (p : Parser α) : Prop :=
  ∀ ⦃target : String⦄ ⦃i : Nat⦄ ⦃a : α⦄ ⦃j : Nat⦄, Text.IsBoundary target i →
    p.Succeeds target i a j → Text.sliceBytes? target i j = some (spelling a)

theorem Covers.errorMap (hp : p.Covers) (f : Failure → Nat → Failure) :
    (p.errorMap f).Covers := by
  intro target i a j hi h
  exact hp hi (errorMap_succeeds.1 h)

theorem Covers.and (hp : p.Covers) (hq : q.Covers) (hlawful : p.Lawful) :
    (p.and q).Covers := by
  intro target i ab k hi h
  obtain ⟨j, ha, hb⟩ := (and_succeeds hlawful hi).1 h
  have hj := (hlawful.forward hi ha).2
  exact Text.sliceBytes?_trans (hp hi ha) (hq hj hb)

theorem Covers.sequenceOf {ps : List (Parser α)} (hps : ∀ p ∈ ps, p.Covers)
    (hlawful : ∀ p ∈ ps, p.Lawful) : (sequenceOf ps).Covers := by
  induction ps with
  | nil =>
    intro target i as j hi h
    obtain ⟨rfl, rfl⟩ := sequenceOf_nil_succeeds.1 h
    rw [spelling_nil]
    exact Text.sliceBytes?_self hi
  | cons p ps ih =>
    intro target i as k hi h
    obtain ⟨hp, hrest⟩ := List.forall_mem_cons.1 hps
    obtain ⟨hp', hrest'⟩ := List.forall_mem_cons.1 hlawful
    obtain ⟨b, j, bs, hb, hbs, rfl⟩ := (sequenceOf_cons_succeeds hp' hi).1 h
    have hj := (hp'.forward hi hb).2
    rw [spelling_cons]
    exact Text.sliceBytes?_trans (hp hi hb) (ih hrest hrest' hj hbs)

theorem Covers.choice {ps : List (Parser α)} (hps : ∀ p ∈ ps, p.Covers)
    (hlawful : ∀ p ∈ ps, p.Lawful) : (choice ps).Covers := by
  induction ps with
  | nil =>
    intro target i a j hi h
    exact absurd choice_nil_failsWith h.not_failsWith
  | cons p ps ih =>
    intro target i a j hi h
    obtain ⟨hp, hrest⟩ := List.forall_mem_cons.1 hps
    obtain ⟨hp', hrest'⟩ := List.forall_mem_cons.1 hlawful
    rcases (choice_cons_succeeds hp' hi).1 h with ha | ⟨-, ha⟩
    · exact hp hi ha
    · exact ih hrest hrest' hi ha

theorem Covers.or {p q : Parser α} (hp : p.Covers) (hq : q.Covers) (hp' : p.Lawful)
    (hq' : q.Lawful) : (p.or q).Covers := by
  rw [or_eq_choice]
  exact .choice (by simp [hp, hq]) (by simp [hp', hq'])

theorem Covers.either (hp : p.Covers) (hq : q.Covers) (hp' : p.Lawful)
    (hq' : q.Lawful) : (p.either q).Covers := by
  intro target i ab j hi h
  rcases (either_succeeds hp' hq' hi).1 h with ⟨a, ha, rfl⟩ | ⟨-, b, hb, rfl⟩
  · exact hp hi ha
  · exact hq hi hb

/-- By induction on the values kept. -/
theorem Covers.many (hp : p.Covers) (hlawful : p.Lawful) : p.many.Covers := by
  intro target i as k hi h
  induction as generalizing i with
  | nil =>
    obtain ⟨rfl, -⟩ := (many_nil_succeeds hlawful hi).1 h
    rw [spelling_nil]
    exact Text.sliceBytes?_self hi
  | cons a as ih =>
    obtain ⟨j, ha, -, has⟩ := (many_cons_succeeds hlawful hi).1 h
    have hj := (hlawful.forward hi ha).2
    rw [spelling_cons]
    exact Text.sliceBytes?_trans (hp hi ha) (ih hj has)

theorem Covers.manyOne (hp : p.Covers) (hlawful : p.Lawful) : p.manyOne.Covers := by
  intro target i as j hi h
  exact hp.many hlawful hi ((manyOne_succeeds hlawful hi).1 h).1

end Parser

theorem Matcher.parser_covers (m : Matcher) : m.parser.Covers := by
  intro target i text j hi h
  obtain ⟨u, w, rfl, rfl⟩ := Text.isBoundary_iff.1 hi
  cases m with
  | literal l =>
    obtain ⟨rest, rfl, rfl, rfl⟩ := Literal.succeeds_iff.1 h
    exact Text.sliceBytes?_eq_some_iff.2 ⟨u, rest, rfl, rfl, rfl⟩
  | charClass c =>
    obtain ⟨hrun, -, rfl⟩ := CharClass.succeeds_iff.1 h
    obtain ⟨rest, rfl, -⟩ := Text.leadingRun_eq_iff.1 hrun
    exact Text.sliceBytes?_eq_some_iff.2 ⟨u, rest, rfl, rfl, rfl⟩

/-! ## Plain expressions -/

namespace Expr

/-- The expression has no functions on values and none as parsers, so
that its values are made of matched texts. -/
inductive Plain : {α : Type} → [Spelled α] → Expr α → Prop where
  | matcher (m : Matcher) : Plain (.matcher m)
  | sequenceOf {α : Type} [Spelled α] {n : Nat} {parts : Fin n → Expr α}
      (h : ∀ i, Plain (parts i)) : Plain (.sequenceOf parts)
  | and {α β : Type} [Spelled α] [Spelled β] {first : Expr α} {second : Expr β}
      (h₁ : Plain first) (h₂ : Plain second) : Plain (.and first second)
  | choice {α : Type} [Spelled α] {n : Nat} {alternatives : Fin n → Expr α}
      (h : ∀ i, Plain (alternatives i)) : Plain (.choice alternatives)
  | or {α : Type} [Spelled α] {first second : Expr α} (h₁ : Plain first)
      (h₂ : Plain second) : Plain (.or first second)
  | either {α β : Type} [Spelled α] [Spelled β] {first : Expr α} {second : Expr β}
      (h₁ : Plain first) (h₂ : Plain second) : Plain (.either first second)
  | many {α : Type} [Spelled α] {body : Expr α} (h : Plain body) : Plain (.many body)
  | manyOne {α : Type} [Spelled α] {body : Expr α} (h : Plain body) :
      Plain (.manyOne body)
  | errorMap {α : Type} [Spelled α] {body : Expr α} {f : Failure → Nat → Failure}
      (h : Plain body) : Plain (.errorMap body f)
  | boxed {α : Type} [Spelled α] {body : Expr α} (h : Plain body) : Plain (.boxed body)

theorem Plain.stepFree {α : Type} [Spelled α] {e : Expr α} (h : e.Plain) :
    e.StepFree := by
  induction h with
  | matcher m => trivial
  | sequenceOf _ ih => exact ih
  | and _ _ ih₁ ih₂ => exact ⟨ih₁, ih₂⟩
  | choice _ ih => exact ih
  | or _ _ ih₁ ih₂ => exact ⟨ih₁, ih₂⟩
  | either _ _ ih₁ ih₂ => exact ⟨ih₁, ih₂⟩
  | many _ ih => exact ih
  | manyOne _ ih => exact ih
  | errorMap _ ih => exact ⟨trivial, ih⟩
  | boxed _ ih => exact ih

theorem Plain.lawful {α : Type} [Spelled α] {e : Expr α} (h : e.Plain) :
    e.parser.Lawful :=
  parser_lawful h.stepFree.stepsAre

theorem Plain.covers {α : Type} [Spelled α] {e : Expr α} (h : e.Plain) :
    e.parser.Covers := by
  induction h with
  | matcher m => exact m.parser_covers
  | sequenceOf h ih =>
    refine .sequenceOf (fun p hp => ?_) (Parser.lawful_of_mem_ofFn fun i => (h i).lawful)
    obtain ⟨i, rfl⟩ := List.mem_ofFn.1 hp
    exact ih i
  | and h₁ _ ih₁ ih₂ => exact ih₁.and ih₂ h₁.lawful
  | choice h ih =>
    refine .choice (fun p hp => ?_) (Parser.lawful_of_mem_ofFn fun i => (h i).lawful)
    obtain ⟨i, rfl⟩ := List.mem_ofFn.1 hp
    exact ih i
  | or h₁ h₂ ih₁ ih₂ => exact ih₁.or ih₂ h₁.lawful h₂.lawful
  | either h₁ h₂ ih₁ ih₂ => exact ih₁.either ih₂ h₁.lawful h₂.lawful
  | many h ih => exact ih.many h.lawful
  | manyOne h ih => exact ih.manyOne h.lawful
  | errorMap _ ih => exact ih.errorMap _
  | boxed _ ih => exact ih

theorem Plain.choiceOfList {α : Type} [Spelled α] {alternatives : List (Expr α)}
    (h : ∀ e ∈ alternatives, e.Plain) : (choiceOfList alternatives).Plain :=
  .choice fun _ => h _ (List.getElem_mem _)

end Expr

theorem Grammar.expr_plain (grammar : Grammar) : grammar.expr.Plain := by
  refine .many (.choiceOfList fun e he => ?_)
  obtain ⟨m, -, rfl⟩ := List.mem_map.1 he
  exact .matcher m

/-- **Values spell the input.**  If the parser of a plain expression
succeeds, the matched texts of its value, in their order, are the input
from where it started to where it stopped. -/
theorem plain_spells_slice {α : Type} [Spelled α] {e : Expr α} (he : e.Plain)
    {target : String} {i : Nat} (hi : Text.IsBoundary target i) {value : α}
    (h : (e.parser ⟨target, i, .ok ()⟩).outcome = .ok value) :
    Text.sliceBytes? target i (e.parser ⟨target, i, .ok ()⟩).index =
      some (spelling value) := by
  rcases he.lawful.cases hi with ⟨a, j, ha, -⟩ | ⟨failure, hfailure⟩
  · have hcovers := he.covers hi ha
    unfold Parser.Succeeds at ha
    rw [ha] at h ⊢
    obtain rfl := Except.ok.inj h
    exact hcovers
  · unfold Parser.FailsWith at hfailure
    rw [hfailure] at h
    cases h

/-- From the second character on, and not to the end. -/
theorem plain_spells_slice_words :
    Grammar.words.expr.Plain ∧ Text.IsBoundary "é12ab-" 2 ∧
    (Grammar.words.expr.parser ⟨"é12ab-", 2, .ok ()⟩).outcome = .ok ["12", "ab"] ∧
    Text.sliceBytes? "é12ab-" 2
        (Grammar.words.expr.parser ⟨"é12ab-", 2, .ok ()⟩).index =
      some (spelling ["12", "ab"]) := by
  have hplain : Grammar.words.expr.Plain := Grammar.expr_plain .words
  have hb : Text.IsBoundary "é12ab-" 2 := by decide
  have hok : (Grammar.words.expr.parser ⟨"é12ab-", 2, .ok ()⟩).outcome =
      .ok ["12", "ab"] := by cbv
  exact ⟨hplain, hb, hok, plain_spells_slice hplain hb hok⟩

end Parsing
