/-
Parsing.Proofs.Reachable — the states that a run can come to.

A run starts at the beginning of an input and goes on by the operations
of `Parsing.State` and by parsers, in any order and with any arguments.
The parsers may contain functions that are given as they are, as long as
these do nothing with a state but operate on it (`Parser.Stepwise`):
what they do to one state may depend on that state, so the requirement
is one chain of operations for each state.

`reachable_keeps_rules` says where all these states stand.  It is
`State.LeadsTo` of one step, carried along the run.
-/
import Mathlib
import Parsing.Proofs.Lawful

namespace Parsing

namespace State

/-! ## Operations and chains of them -/

/-- One operation on a state makes another of it. -/
inductive Operates : {α β : Type} → State α → State β → Prop where
  | advance {α β : Type} (s : State α) (length : Nat) (value : β) :
      Operates s (s.advance length value)
  | withResult {α β : Type} (s : State α) (value : β) :
      Operates s (s.withResult value)
  | mapResult {α β : Type} (s : State α) (f : α → β) :
      Operates s (s.mapResult f)
  | fail {α β : Type} (s : State α) (kind : Failure.Kind) (index : Nat)
      (message : String) : Operates s (s.fail kind index message : State β)
  | failWith {α β : Type} (s : State α) (failure : Failure) :
      Operates s (s.failWith failure : State β)
  | mapError {α : Type} (s : State α) (f : Failure → Nat → Failure) :
      Operates s (s.mapError f)
  | splitOk {α : Type} {s : State α} {rest : State Unit} {value : α}
      (h : (s.split : Except (State Unit) _) = .ok (rest, value)) : Operates s rest
  | splitError {α β : Type} {s : State α} {failed : State β}
      (h : s.split = .error failed) : Operates s failed

/-- Steps of one kind, one after the other. -/
inductive Chain (step : (α β : Type) → State α → State β → Prop) {α : Type}
    (s : State α) : {β : Type} → State β → Prop where
  | start : Chain step s s
  | next {β γ : Type} {t : State β} {u : State γ} (h : Chain step s t)
      (hstep : step β γ t u) : Chain step s u

end State

/-- Whatever state the parser is given, it makes its answer of it by
operations. -/
def Parser.Stepwise {α : Type} (p : Parser α) : Prop :=
  ∀ s : State Unit, State.Chain @State.Operates s (p s)

namespace State

/-- One step of a run: an operation, or a parser. -/
inductive Moves : {α β : Type} → State α → State β → Prop where
  | operation {α β : Type} {s : State α} {t : State β} (h : Operates s t) :
      Moves s t
  | transform {β : Type} (s : State Unit) (e : Expr β)
      (he : e.StepsAre fun _ p => p.Stepwise) : Moves s (e.parser s)

/-- The state is one that a run on the input can come to. -/
def Reachable (target : String) {α : Type} (s : State α) : Prop :=
  Chain @Moves (initial target) s

/-! ## Every step keeps to the rules -/

theorem Operates.leadsTo {α β : Type} {s : State α} {t : State β}
    (h : Operates s t) (hs : s.WellPlaced) : s.LeadsTo t := by
  cases h with
  | advance _ length value => exact leadsTo_advance hs length value
  | withResult _ value => exact leadsTo_withResult hs value
  | mapResult _ f => exact leadsTo_mapResult hs f
  | fail _ kind index message => exact leadsTo_failWith s _
  | failWith _ failure => exact leadsTo_failWith s failure
  | mapError _ f => exact leadsTo_mapError hs f
  | splitOk hsplit =>
    obtain ⟨target, index, failure | value⟩ := s
    · simp [split] at hsplit
    · obtain ⟨rfl, -⟩ := Prod.mk.inj (Except.ok.inj hsplit)
      exact ⟨rfl, hs, id, fun _ _ => Nat.le_refl _⟩
  | splitError hsplit =>
    obtain ⟨target, index, failure | value⟩ := s
    · obtain rfl := Except.error.inj hsplit
      exact ⟨rfl, hs, id, fun _ _ => Nat.le_refl _⟩
    · simp [split] at hsplit

theorem Chain.leadsTo {step : (α β : Type) → State α → State β → Prop}
    (hstep : ∀ {α β : Type} {s : State α} {t : State β},
      step α β s t → s.WellPlaced → s.LeadsTo t)
    {α β : Type} {s : State α} {t : State β} (h : Chain step s t)
    (hs : s.WellPlaced) : s.LeadsTo t := by
  induction h with
  | start => exact .refl hs
  | next _ hlast ih => exact ih.trans (hstep hlast ih.wellPlaced)

end State

theorem Parser.Stepwise.lawful {α : Type} {p : Parser α} (h : p.Stepwise) :
    p.Lawful :=
  fun s hs => (h s).leadsTo State.Operates.leadsTo hs

namespace State

theorem Moves.leadsTo {α β : Type} {s : State α} {t : State β}
    (h : Moves s t) (hs : s.WellPlaced) : s.LeadsTo t := by
  cases h with
  | operation h => exact h.leadsTo hs
  | transform s e he =>
    exact Expr.parser_lawful (he.imp fun _ _ hp => hp.lawful) s hs

theorem Reachable.leadsTo {target : String} {α : Type} {s : State α}
    (h : Reachable target s) : (initial target).LeadsTo s :=
  Chain.leadsTo Moves.leadsTo h (wellPlaced_initial target)

/-- From a success that a run can come to, the next parser starts at a boundary
of the input. -/
theorem Reachable.exists_boundary {target : String} {s : State Unit} (h : Reachable target s)
    (hok : s.isError = false) : ∃ i, s = ⟨target, i, .ok ()⟩ ∧ Text.IsBoundary target i := by
  have hplaced := h.leadsTo.wellPlaced
  have htarget : s.target = target := h.leadsTo.target_eq
  obtain ⟨t, i, failure | ⟨⟩⟩ := s
  · exact Bool.noConfusion hok
  · obtain rfl : t = target := htarget
    exact ⟨i, rfl, hplaced⟩

/-- **The states of a run** on an input are its well placed states. -/
theorem reachable_iff {target : String} {α : Type} {s : State α} :
    Reachable target s ↔ s.target = target ∧ s.WellPlaced := by
  constructor
  · intro h
    exact ⟨h.leadsTo.target_eq, h.leadsTo.wellPlaced⟩
  · rintro ⟨rfl, hplaced⟩
    obtain ⟨target, i, failure | value⟩ := s
    · obtain rfl : i = failure.index := hplaced
      exact .next .start (.operation (.failWith _ failure))
    · have hadvance : (initial target).advance i value = ⟨target, i, .ok value⟩ := by
        rw [initial, advance_ok, Nat.zero_add, Text.ceilBoundary_eq_self hplaced]
      rw [← hadvance]
      exact .next .start (.operation (.advance _ i value))

/-- A run can come to every boundary of its input. -/
theorem reachable_of_isBoundary {target : String} {i : Nat} (hi : Text.IsBoundary target i) :
    Reachable target (⟨target, i, .ok ()⟩ : State Unit) :=
  reachable_iff.2 ⟨rfl, hi⟩

/-- A success stands at a boundary, and what it has left is the rest of
the input. -/
theorem WellPlaced.success {α : Type} {s : State α} {value : α}
    (h : s.WellPlaced) (hok : s.outcome = .ok value) :
    s.index ≤ s.target.utf8ByteSize ∧ Text.IsBoundary s.target s.index ∧
      ∃ consumed : String, s.target = consumed ++ s.remaining ∧
        consumed.utf8ByteSize = s.index := by
  obtain ⟨target, index, outcome⟩ := s
  obtain rfl : outcome = .ok value := hok
  have hb : Text.IsBoundary target index := h
  obtain ⟨u, w, rfl, rfl⟩ := Text.isBoundary_iff.1 hb
  exact ⟨hb.le_size, hb, u, by simp, rfl⟩

/-- **Where the states of a run stand.**  The input never changes; a
success stands at a boundary and has the rest of the input left; a
failed state stands at the offset of its failure.  A step from success
to success does not go back, and no step leads out of failure. -/
theorem reachable_keeps_rules {target : String} {α : Type} {s : State α}
    (h : Reachable target s) :
    s.target = target ∧
    (∀ value, s.outcome = .ok value →
      s.index ≤ target.utf8ByteSize ∧ Text.IsBoundary target s.index ∧
        ∃ consumed : String, target = consumed ++ s.remaining ∧
          consumed.utf8ByteSize = s.index) ∧
    (∀ failure, s.outcome = .error failure → s.index = failure.index) ∧
    ∀ {β : Type} {t : State β}, Moves s t →
      (s.isError = false → t.isError = false → s.index ≤ t.index) ∧
      (s.isError = true → t.isError = true) := by
  have hlead := h.leadsTo
  have htarget : s.target = target := hlead.target_eq
  refine ⟨htarget, fun value hok => ?_, fun failure herror => ?_, fun hmove => ?_⟩
  · have hsuccess := hlead.wellPlaced.success hok
    rwa [htarget] at hsuccess
  · have hplaced := hlead.wellPlaced
    simpa only [WellPlaced, herror] using hplaced
  · have hstep := hmove.leadsTo hlead.wellPlaced
    exact ⟨hstep.forward, hstep.stays_failed⟩

/-- Half a character forward, and then letters, or a failure of the
user's where they are missing. -/
theorem reachable_keeps_rules_letters_or_fail :
    Reachable "éa" (⟨"éa", 3, .ok "a"⟩ : State String) ∧
    Text.IsBoundary "éa" 3 ∧
    ∀ t : State Unit, Moves (⟨"éa", 3, .ok "a"⟩ : State String) t →
      t.isError = false → 3 ≤ t.index := by
  have hstate : (Expr.or (.matcher (.charClass .letters))
      (.step fun s => s.fail .custom s.index "no letters")).parser
        ((initial "éa").advance 1 ()) = ⟨"éa", 3, .ok "a"⟩ := by
    simp only [Expr.parser]
    cbv
  have h : Reachable "éa" (⟨"éa", 3, .ok "a"⟩ : State String) := by
    rw [← hstate]
    refine .next (.next .start (.operation (.advance _ 1 ()))) (.transform _ _ ?_)
    exact ⟨trivial, fun s => .next .start (.fail s .custom s.index "no letters")⟩
  have hrules := reachable_keeps_rules h
  exact ⟨h, (hrules.2.1 "a" rfl).2.1, fun t hmove hok => (hrules.2.2.2 hmove).1 rfl hok⟩

end State

/-! ## Parsers and the states of runs -/

/-- From every state that a run can come to, the parser answers one again: of
whatever input, and wherever it stands there.  Functions can answer no others,
as there are no states but those that operations make. -/
def Parser.AnswersReachable {α : Type} (p : Parser α) : Prop :=
  ∀ s : State Unit, State.Reachable s.target s → State.Reachable (p s).target (p s)

theorem Parser.answersReachable_iff {α : Type} {p : Parser α} :
    p.AnswersReachable ↔ ∀ s : State Unit, s.WellPlaced → (p s).WellPlaced := by
  simp only [AnswersReachable, State.reachable_iff, true_and]

theorem Parser.Lawful.answersReachable {α : Type} {p : Parser α} (hp : p.Lawful) :
    p.AnswersReachable :=
  answersReachable_iff.2 fun s hs => (hp s hs).wellPlaced

end Parsing
