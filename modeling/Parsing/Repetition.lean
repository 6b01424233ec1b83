/-
Parsing.Repetition — as often as it goes.

A repetition runs its parser again and again, each time from where it
stopped, until the parser fails or succeeds at the offset at which it
started.  The attempt that ends the repetition leaves no trace: neither
its failure, nor its value, nor its offset.

Nothing else ends a repetition.  A parser may go back, or on to another
input, so that a repetition of it may have no end; `Parser.repeats` is
the loop, and has no answer then.  `Parser.loop` is the same loop, given
up after so many attempts.  What the one answers the other answers under
some limit (`repeats_eq_some_iff`), so that what is said of loops is
said by induction on a limit.
-/
import Parsing.Parser

namespace Parsing

universe u

/-- A one-or-more repetition kept nothing. -/
def Failure.emptyRepetition (index : Nat) : Failure :=
  .leaf .emptyRepetition index
    ("many_one: unable to match any input at index " ++ toString index)

namespace Parser

variable {α : Type u}

/-! ## The loop -/

/-- The repetition as a loop, with a state and a list of values in hand:
the state reached and the values kept, once an attempt fails or succeeds
at the offset at which it started. -/
def repeats (p : Parser α) (s : State Unit) (kept : List α) :
    Option (State Unit × List α) :=
  match ((p s).split : Except (State Unit) (State Unit × α)) with
  | .error _ => some (s, kept)
  | .ok (next, value) =>
      if next.index = s.index then some (s, kept)
      -- This is `repeats p next (kept ++ [value])`.  A call that is
      -- applied leaves no note in the term of where it was written.
      else by
        apply repeats
        · exact p
        · exact next
        · exact kept ++ [value]
partial_fixpoint

/-- The loop, given up after so many attempts. -/
def loop (p : Parser α) : Nat → State Unit → List α → Option (State Unit × List α)
  | 0, _, _ => none
  | limit + 1, s, kept =>
      match ((p s).split : Except (State Unit) (State Unit × α)) with
      | .error _ => some (s, kept)
      | .ok (next, value) =>
          if next.index = s.index then some (s, kept)
          else loop p limit next (kept ++ [value])

/-- The parser, with the state from which it is run in the place of its
value. -/
def traced (p : Parser α) : Parser (State Unit) :=
  fun s => (p s).withResult s

/-- The states from which the loop runs its parser, the last one being
that of the attempt that ends it. -/
def attempts (p : Parser α) (s : State Unit) : Option (List (State Unit)) :=
  (repeats (traced p) s []).map fun (stop, kept) => kept ++ [stop]

/-! ## Repetitions -/

/-- Where the loop stops, and what it has kept.  Where it does not stop
there is nothing to answer, and what is answered stands for that. -/
def iterate (p : Parser α) (s : State Unit) : State Unit × List α :=
  (repeats p s []).getD (s, [])

/-- Applies the parser zero or more times. -/
def many (p : Parser α) : Parser (List α) :=
  fun s => s.andThen fun s _ =>
    let kept := iterate p s
    kept.1.withResult kept.2

/-- Applies the parser one or more times. -/
def manyOne (p : Parser α) : Parser (List α) :=
  fun s => s.andThen fun s _ =>
    let kept := iterate p s
    if kept.2.isEmpty then kept.1.failWith (.emptyRepetition kept.1.index)
    else kept.1.withResult kept.2

/-! ## One attempt -/

variable {p : Parser α} {s : State Unit} {target : String} {index : Nat} {value : α}
  {failure : Failure} {kept : List α} {limit : Nat} {r : State Unit × List α}

theorem repeats_of_error (h : p s = ⟨target, index, .error failure⟩) (kept : List α) :
    repeats p s kept = some (s, kept) := by
  rw [repeats, h]
  rfl

theorem repeats_of_ok (h : p s = ⟨target, index, .ok value⟩) (kept : List α) :
    repeats p s kept =
      if index = s.index then some (s, kept)
      else repeats p ⟨target, index, .ok ()⟩ (kept ++ [value]) := by
  rw [repeats, h]
  rfl

theorem loop_of_error (h : p s = ⟨target, index, .error failure⟩) (limit : Nat)
    (kept : List α) : loop p (limit + 1) s kept = some (s, kept) := by
  rw [loop, h]
  rfl

theorem loop_of_ok (h : p s = ⟨target, index, .ok value⟩) (limit : Nat) (kept : List α) :
    loop p (limit + 1) s kept =
      if index = s.index then some (s, kept)
      else loop p limit ⟨target, index, .ok ()⟩ (kept ++ [value]) := by
  rw [loop, h]
  rfl

/-! ## Limits -/

/-- A loop that is given up answers what the loop answers that is not. -/
theorem repeats_of_loop (h : loop p limit s kept = some r) : repeats p s kept = some r := by
  induction limit generalizing s kept with
  | zero => simp [loop] at h
  | succ limit ih =>
    rw [loop] at h
    rw [repeats]
    split at h
    · exact h
    · split at h
      · rename_i hstays
        rw [if_pos hstays]
        exact h
      · rename_i hmoves
        rw [if_neg hmoves]
        exact ih h

/-- By induction on the attempts of a loop that ends. -/
theorem exists_loop_of_repeats (h : repeats p s kept = some r) :
    ∃ limit, loop p limit s kept = some r := by
  refine repeats.partial_correctness p
    (fun s kept r => ∃ limit, loop p limit s kept = some r) ?_ s kept r h
  intro next ih s kept r h
  split at h
  · rename_i hfails
    refine ⟨1, ?_⟩
    rw [loop, hfails]
    exact h
  · rename_i hsucceeds
    split at h
    · rename_i hstays
      refine ⟨1, ?_⟩
      rw [loop, hsucceeds]
      simp only [if_pos hstays]
      exact h
    · rename_i hmoves
      obtain ⟨limit, hlimit⟩ := ih _ _ _ h
      refine ⟨limit + 1, ?_⟩
      rw [loop, hsucceeds]
      simp only [if_neg hmoves]
      exact hlimit

/-- **The loop.**  It answers what it answers under some limit. -/
theorem repeats_eq_some_iff :
    repeats p s kept = some r ↔ ∃ limit, loop p limit s kept = some r :=
  ⟨exists_loop_of_repeats, fun ⟨_, h⟩ => repeats_of_loop h⟩

/-- Loops that answer the same under every limit answer the same. -/
theorem repeats_congr {β : Type u} {q : Parser β} {s' : State Unit} {kept' : List β}
    (f : State Unit × List α → State Unit × List β)
    (h : ∀ limit, loop q limit s' kept' = (loop p limit s kept).map f) :
    repeats q s' kept' = (repeats p s kept).map f := by
  apply Option.ext
  intro r
  simp only [repeats_eq_some_iff, Option.map_eq_some_iff, h]
  constructor
  · rintro ⟨limit, r', hr', rfl⟩
    exact ⟨r', ⟨limit, hr'⟩, rfl⟩
  · rintro ⟨r', ⟨limit, hr'⟩, rfl⟩
    exact ⟨limit, r', hr', rfl⟩

/-- What has been kept before an attempt stays in front. -/
theorem loop_append (p : Parser α) (limit : Nat) (s : State Unit) (front kept : List α) :
    loop p limit s (front ++ kept) =
      (loop p limit s kept).map fun (stop, kept) => (stop, front ++ kept) := by
  induction limit generalizing s kept with
  | zero => rfl
  | succ limit ih =>
    cases hanswer : p s with
    | mk target index outcome =>
      cases outcome with
      | error failure => simp [loop_of_error hanswer]
      | ok value =>
        rw [loop_of_ok hanswer, loop_of_ok hanswer]
        split
        · rfl
        · rw [List.append_assoc, ih]

theorem repeats_append (p : Parser α) (s : State Unit) (front kept : List α) :
    repeats p s (front ++ kept) =
      (repeats p s kept).map fun (stop, kept) => (stop, front ++ kept) :=
  repeats_congr _ fun limit => loop_append p limit s front kept

theorem attempts_of_error (h : p s = ⟨target, index, .error failure⟩) :
    attempts p s = some [s] := by
  have htraced : traced p s = ⟨target, index, .error failure⟩ := by
    rw [traced, h, State.withResult_error]
  rw [attempts, repeats_of_error htraced]
  rfl

theorem attempts_of_ok (h : p s = ⟨target, index, .ok value⟩) :
    attempts p s =
      if index = s.index then some [s]
      else (attempts p ⟨target, index, .ok ()⟩).map (s :: ·) := by
  have htraced : traced p s = ⟨target, index, .ok s⟩ := by
    rw [traced, h, State.withResult_ok]
  rw [attempts, repeats_of_ok htraced]
  split
  · rfl
  · rw [List.nil_append, ← List.append_nil [s], repeats_append, attempts, Option.map_map,
      Option.map_map]
    rfl

/-! ## Where it stops -/

theorem iterate_of_repeats (h : repeats p s [] = some r) : iterate p s = r := by
  rw [iterate, h]
  rfl

/-- What holds where the loop starts, and behind every success that starts
where it holds, holds where the loop stops. -/
theorem loop_keeps {motive : State Unit → Prop}
    (hstep : ∀ ⦃s t i a⦄, motive s → p s = ⟨t, i, .ok a⟩ → motive ⟨t, i, .ok ()⟩)
    (hs : motive s) (h : loop p limit s kept = some r) : motive r.1 := by
  induction limit generalizing s kept with
  | zero => simp [loop] at h
  | succ limit ih =>
    cases hanswer : p s with
    | mk target index outcome =>
      cases outcome with
      | error failure =>
        rw [loop_of_error hanswer] at h
        obtain rfl := Option.some.inj h
        exact hs
      | ok value =>
        rw [loop_of_ok hanswer] at h
        split at h
        · obtain rfl := Option.some.inj h
          exact hs
        · exact ih (hstep hs hanswer) h

theorem iterate_keeps {motive : State Unit → Prop}
    (hstep : ∀ ⦃s t i a⦄, motive s → p s = ⟨t, i, .ok a⟩ → motive ⟨t, i, .ok ()⟩)
    (hs : motive s) : motive (iterate p s).1 := by
  cases hrepeats : repeats p s [] with
  | none =>
    rw [iterate, hrepeats]
    exact hs
  | some r =>
    obtain ⟨limit, hlimit⟩ := exists_loop_of_repeats hrepeats
    rw [iterate_of_repeats hrepeats]
    exact loop_keeps hstep hs hlimit

end Parser

end Parsing
