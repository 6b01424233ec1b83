/-
Parsing.Proofs.Matching — when a matcher succeeds, and when it fails.

A matcher that stands between `u` and `w` sees nothing but `w`.  So the
conditions are those on `w`: that it starts with the literal, or with an
accepted character.  What is matched is cut off from `w`, and the offset
moves from the end of `u` to the end of what is matched: advancing by
the length of it neither rounds nor clamps.
-/
import Parsing.Proofs.Outcome

namespace Parsing

/-! ## Texts -/

namespace Text

variable {accepts : Char → Bool}

/-- Of two prefixes, the one with fewer bytes is a prefix of the other. -/
theorem exists_append_of_append_eq {u w x y : String} (h : u ++ w = x ++ y)
    (hle : u.utf8ByteSize ≤ x.utf8ByteSize) : ∃ z, x = u ++ z := by
  have hlists : u.toList ++ w.toList = x.toList ++ y.toList := by
    rw [← String.toList_append, h, String.toList_append]
  rcases List.append_eq_append_iff.1 hlists with ⟨z, hx, -⟩ | ⟨z, hu, -⟩
  · exact ⟨String.ofList z, String.toList_inj.1 (by simp [hx])⟩
  · have hux : u = x ++ String.ofList z := String.toList_inj.1 (by simp [hu])
    rw [hux, String.utf8ByteSize_append] at hle
    have hz : String.ofList z = "" := String.utf8ByteSize_eq_zero_iff.1 (by omega)
    exact ⟨"", by rw [hux, hz]; simp⟩

theorem startsWith_iff_exists_append {text expected : String} :
    text.startsWith expected = true ↔ ∃ rest, text = expected ++ rest := by
  rw [String.startsWith_string_iff]
  constructor
  · rintro ⟨rest, hrest⟩
    refine ⟨String.ofList rest, String.toList_inj.1 ?_⟩
    rw [String.toList_append, String.toList_ofList, hrest]
  · rintro ⟨rest, rfl⟩
    exact ⟨rest.toList, by rw [String.toList_append]⟩

/-- The longest run is the one after which no accepted character
comes. -/
theorem leadingRun_eq_iff {text run : String} :
    leadingRun accepts text = run ↔
      ∃ rest, text = run ++ rest ∧ (∀ c ∈ run.toList, accepts c = true) ∧
        ∀ c ∈ rest.toList.head?, accepts c = false := by
  constructor
  · rintro rfl
    refine ⟨_, (leadingRun_append_dropWhile accepts text).symm, ?_, ?_⟩
    · intro c hc
      rw [toList_leadingRun] at hc
      exact List.all_eq_true.1 List.all_takeWhile c hc
    · intro c hc
      have hstop : ((text.dropWhile accepts).copy.toList.head?.any accepts) = false := by
        rw [← String.Slice.startsWith_bool_eq_head?]
        exact String.startsWith_dropWhile
      rw [Option.mem_def.1 hc] at hstop
      exact hstop
  · rintro ⟨rest, rfl, hrun, hrest⟩
    apply String.toList_inj.1
    rw [toList_leadingRun, String.toList_append, List.takeWhile_append_of_pos hrun]
    cases h : rest.toList with
    | nil => simp
    | cons c r => simp [hrest c (by simp [h])]

theorem leadingRun_eq_empty_iff {text : String} :
    leadingRun accepts text = "" ↔ ∀ c ∈ text.toList.head?, accepts c = false := by
  simp [leadingRun_eq_iff]

end Text

/-- Over what follows it, a success advances by as many bytes as that
has. -/
theorem State.advance_append {α β : Type} (u v w : String) (a : α) (value : β) :
    State.advance ⟨u ++ (v ++ w), u.utf8ByteSize, .ok a⟩ v.utf8ByteSize value =
      ⟨u ++ (v ++ w), (u ++ v).utf8ByteSize, .ok value⟩ := by
  have hb := Text.isBoundary_append (u ++ v) w
  rw [String.append_assoc] at hb
  rw [State.advance_ok, ← String.utf8ByteSize_append, Text.ceilBoundary_eq_self hb]

/-! ## Literals -/

namespace Literal

variable {l : Literal} {u w : String} {j : Nat} {e : Failure}

theorem parser_of_startsWith (l : Literal) (u rest : String) :
    l.parser.Succeeds (u ++ (l.expected ++ rest)) u.utf8ByteSize l.expected
      (u ++ l.expected).utf8ByteSize := by
  have hne : l.expected ++ rest ≠ "" := by
    simp [String.append_eq_empty_iff, l.expected_ne_empty]
  have hstarts : (l.expected ++ rest).startsWith l.expected = true :=
    Text.startsWith_iff_exists_append.2 ⟨rest, rfl⟩
  simp only [Parser.Succeeds, parser, State.andThen_ok, State.remaining_append, hne,
    if_false, hstarts, if_true]
  exact State.advance_append u l.expected rest () l.expected

theorem parser_of_not_startsWith (h : ∀ rest, w ≠ l.expected ++ rest) :
    l.parser.FailsWith (u ++ w) u.utf8ByteSize
      (if w = "" then l.endOfInput u.utf8ByteSize else l.mismatch u.utf8ByteSize w) := by
  have hstarts : ¬ w.startsWith l.expected = true := by
    rw [Text.startsWith_iff_exists_append]
    exact fun ⟨rest, hrest⟩ => h rest hrest
  simp only [Parser.FailsWith, parser, State.andThen_ok, State.remaining_append, hstarts]
  split <;> rfl

theorem succeeds_iff {text : String} :
    l.parser.Succeeds (u ++ w) u.utf8ByteSize text j ↔
      ∃ rest, w = l.expected ++ rest ∧ text = l.expected ∧
        j = (u ++ l.expected).utf8ByteSize := by
  constructor
  · intro h
    by_cases hw : ∃ rest, w = l.expected ++ rest
    · obtain ⟨rest, rfl⟩ := hw
      obtain ⟨rfl, rfl⟩ := h.unique (l.parser_of_startsWith u rest)
      exact ⟨rest, rfl, rfl, rfl⟩
    · exact absurd (parser_of_not_startsWith (not_exists.1 hw)) h.not_failsWith
  · rintro ⟨rest, rfl, rfl, rfl⟩
    exact l.parser_of_startsWith u rest

theorem failsWith_iff :
    l.parser.FailsWith (u ++ w) u.utf8ByteSize e ↔
      (∀ rest, w ≠ l.expected ++ rest) ∧
        e = if w = "" then l.endOfInput u.utf8ByteSize
            else l.mismatch u.utf8ByteSize w := by
  constructor
  · intro h
    have hw : ∀ rest, w ≠ l.expected ++ rest := by
      rintro rest rfl
      exact (l.parser_of_startsWith u rest).not_failsWith h
    exact ⟨hw, h.unique (parser_of_not_startsWith hw)⟩
  · rintro ⟨hw, rfl⟩
    exact parser_of_not_startsWith hw

end Literal

/-! ## Character classes -/

namespace CharClass

variable {c : CharClass} {u w : String} {j : Nat} {e : Failure}

theorem parser_of_leadingRun {run : String}
    (hrun : Text.leadingRun c.accepts w = run) (hne : run ≠ "") :
    c.parser.Succeeds (u ++ w) u.utf8ByteSize run (u ++ run).utf8ByteSize := by
  obtain ⟨rest, rfl, -⟩ := Text.leadingRun_eq_iff.1 hrun
  have happend : run ++ rest ≠ "" := by simp [String.append_eq_empty_iff, hne]
  simp only [Parser.Succeeds, parser, State.andThen_ok, State.remaining_append, hrun,
    happend, hne, if_false]
  exact State.advance_append u run rest () run

theorem parser_of_leadingRun_empty (h : Text.leadingRun c.accepts w = "") :
    c.parser.FailsWith (u ++ w) u.utf8ByteSize
      (if w = "" then c.endOfInput u.utf8ByteSize else c.mismatch u.utf8ByteSize) := by
  simp only [Parser.FailsWith, parser, State.andThen_ok, State.remaining_append, h,
    if_true]
  split <;> rfl

theorem succeeds_iff {run : String} :
    c.parser.Succeeds (u ++ w) u.utf8ByteSize run j ↔
      Text.leadingRun c.accepts w = run ∧ run ≠ "" ∧ j = (u ++ run).utf8ByteSize := by
  constructor
  · intro h
    by_cases hempty : Text.leadingRun c.accepts w = ""
    · exact absurd (parser_of_leadingRun_empty hempty) h.not_failsWith
    · obtain ⟨rfl, rfl⟩ := h.unique (parser_of_leadingRun rfl hempty)
      exact ⟨rfl, hempty, rfl⟩
  · rintro ⟨hrun, hne, rfl⟩
    exact parser_of_leadingRun hrun hne

theorem failsWith_iff :
    c.parser.FailsWith (u ++ w) u.utf8ByteSize e ↔
      (∀ ch ∈ w.toList.head?, c.accepts ch = false) ∧
        e = if w = "" then c.endOfInput u.utf8ByteSize
            else c.mismatch u.utf8ByteSize := by
  rw [← Text.leadingRun_eq_empty_iff]
  constructor
  · intro h
    by_cases hempty : Text.leadingRun c.accepts w = ""
    · exact ⟨hempty, h.unique (parser_of_leadingRun_empty hempty)⟩
    · exact absurd h (parser_of_leadingRun rfl hempty).not_failsWith
  · rintro ⟨hempty, rfl⟩
    exact parser_of_leadingRun_empty hempty

end CharClass

end Parsing
