/-
Parsing.Text.Offset — byte offsets into a text.

Offsets count bytes of UTF-8, so only some of them fall between two
characters: those are the boundaries of the text.  A boundary is the
same thing as a way of cutting the text in two (`isBoundary_iff`), and
that is the view in which every fact about offsets is stated: at the
cut `u ++ w` the text from the boundary on is `w`
(`dropBytes_append`), and `ceilBoundary` finds the least boundary at or
after an offset.
-/

namespace Parsing.Text

/-! ## Boundaries -/

/-- The offset falls between two characters of the text, or at one of
its ends. -/
def IsBoundary (text : String) (offset : Nat) : Prop :=
  String.Pos.Raw.IsValid text ⟨offset⟩

instance (text : String) (offset : Nat) : Decidable (IsBoundary text offset) :=
  inferInstanceAs (Decidable (String.Pos.Raw.IsValid text ⟨offset⟩))

/-- A boundary is a way of cutting the text in two. -/
theorem isBoundary_iff {text : String} {offset : Nat} :
    IsBoundary text offset ↔
      ∃ u w : String, text = u ++ w ∧ offset = u.utf8ByteSize := by
  simp [IsBoundary, String.Pos.Raw.isValid_iff_exists_append,
    String.Pos.Raw.ext_iff]

theorem isBoundary_append (u w : String) : IsBoundary (u ++ w) u.utf8ByteSize :=
  isBoundary_iff.2 ⟨u, w, rfl, rfl⟩

theorem isBoundary_zero (text : String) : IsBoundary text 0 :=
  isBoundary_iff.2 ⟨"", text, by simp, by simp⟩

theorem isBoundary_size (text : String) : IsBoundary text text.utf8ByteSize :=
  isBoundary_iff.2 ⟨text, "", by simp, rfl⟩

theorem IsBoundary.le_size {text : String} {offset : Nat}
    (h : IsBoundary text offset) : offset ≤ text.utf8ByteSize := by
  obtain ⟨u, w, rfl, rfl⟩ := isBoundary_iff.1 h
  simp [String.utf8ByteSize_append]

/-- Behind a text, the boundaries are those of what follows it. -/
theorem IsBoundary.shift {w : String} {i : Nat} (h : IsBoundary w i) (u : String) :
    IsBoundary (u ++ w) (u.utf8ByteSize + i) := by
  obtain ⟨v, rest, rfl, rfl⟩ := isBoundary_iff.1 h
  rw [← String.append_assoc, ← String.utf8ByteSize_append]
  exact isBoundary_append (u ++ v) rest

/-! ## The text on either side of a boundary -/

/-- The text from an offset on.  It is empty when the offset is no
boundary: past the end, or inside a character. -/
def dropBytes (text : String) (offset : Nat) : String :=
  if h : IsBoundary text offset then
    (text.sliceFrom (text.pos ⟨offset⟩ h)).copy
  else ""

/-- The text up to an offset.  It is empty when the offset is no
boundary. -/
def takeBytes (text : String) (offset : Nat) : String :=
  if h : IsBoundary text offset then
    (text.sliceTo (text.pos ⟨offset⟩ h)).copy
  else ""

/-- The text between two offsets, if both are boundaries in their right
order. -/
def sliceBytes? (text : String) (start stop : Nat) : Option String :=
  if start ≤ stop ∧ IsBoundary text start ∧ IsBoundary text stop then
    some (dropBytes (takeBytes text stop) start)
  else none

theorem splits_pos_append (u w : String) (h : IsBoundary (u ++ w) u.utf8ByteSize) :
    ((u ++ w).pos ⟨u.utf8ByteSize⟩ h).Splits u w where
  eq_append := rfl
  offset_eq_rawEndPos := String.offset_pos

@[simp]
theorem dropBytes_append (u w : String) :
    dropBytes (u ++ w) u.utf8ByteSize = w := by
  have h := isBoundary_append u w
  rw [dropBytes, dif_pos h]
  exact (splits_pos_append u w h).copy_sliceFrom_eq

@[simp]
theorem takeBytes_append (u w : String) :
    takeBytes (u ++ w) u.utf8ByteSize = u := by
  have h := isBoundary_append u w
  rw [takeBytes, dif_pos h]
  exact (splits_pos_append u w h).copy_sliceTo_eq

theorem sliceBytes?_append (u v w : String) :
    sliceBytes? (u ++ v ++ w) u.utf8ByteSize (u ++ v).utf8ByteSize = some v := by
  have hle : u.utf8ByteSize ≤ (u ++ v).utf8ByteSize := by
    simp [String.utf8ByteSize_append]
  have hu : IsBoundary (u ++ v ++ w) u.utf8ByteSize := by
    rw [String.append_assoc]
    exact isBoundary_append u (v ++ w)
  have huv : IsBoundary (u ++ v ++ w) (u ++ v).utf8ByteSize :=
    isBoundary_append (u ++ v) w
  rw [sliceBytes?, if_pos ⟨hle, hu, huv⟩, takeBytes_append, dropBytes_append]

/-! ## Rounding up to a boundary -/

/-- The least boundary at or after an offset; the end of the text when
the offset is past it. -/
def ceilBoundary (text : String) (offset : Nat) : Nat :=
  if offset < text.utf8ByteSize then
    if IsBoundary text offset then offset else ceilBoundary text (offset + 1)
  else text.utf8ByteSize
termination_by text.utf8ByteSize - offset

theorem isBoundary_ceilBoundary (text : String) (offset : Nat) :
    IsBoundary text (ceilBoundary text offset) := by
  fun_induction ceilBoundary text offset with
  | case1 _ _ h => exact h
  | case2 _ _ _ ih => exact ih
  | case3 => exact isBoundary_size text

theorem min_le_ceilBoundary (text : String) (offset : Nat) :
    min offset text.utf8ByteSize ≤ ceilBoundary text offset := by
  fun_induction ceilBoundary text offset <;> omega

/-- Nothing between the offset and `ceilBoundary` is a boundary. -/
theorem ceilBoundary_le {text : String} {offset stop : Nat}
    (hstop : IsBoundary text stop) (hle : offset ≤ stop) :
    ceilBoundary text offset ≤ stop := by
  fun_induction ceilBoundary text offset with
  | case1 => exact hle
  | case2 offset _ hno ih =>
      refine ih ?_
      rcases Nat.lt_or_eq_of_le hle with hlt | rfl
      · exact hlt
      · exact absurd hstop hno
  | case3 => have := hstop.le_size; omega

theorem ceilBoundary_eq_self {text : String} {offset : Nat}
    (h : IsBoundary text offset) : ceilBoundary text offset = offset := by
  have hmin := min_le_ceilBoundary text offset
  have hle := ceilBoundary_le h (Nat.le_refl offset)
  have hsize := h.le_size
  omega

/-! ## The longest run of accepted characters -/

/-- The longest initial run of characters that the predicate accepts. -/
def leadingRun (accepts : Char → Bool) (text : String) : String :=
  (text.takeWhile accepts).copy

theorem leadingRun_append_dropWhile (accepts : Char → Bool) (text : String) :
    leadingRun accepts text ++ (text.dropWhile accepts).copy = text :=
  String.takeWhile_append_dropWhile

/-- On the characters, the run is the list's own longest initial run. -/
theorem toList_leadingRun (accepts : Char → Bool) (text : String) :
    (leadingRun accepts text).toList = text.toList.takeWhile accepts := by
  have hall : ∀ c ∈ (leadingRun accepts text).toList, accepts c = true := by
    have h : (text.takeWhile accepts).all accepts = true := String.all_takeWhile
    rw [String.Slice.all_bool_eq] at h
    simpa [leadingRun] using h
  have hrest : ((text.dropWhile accepts).copy.toList.head?.any accepts) = false := by
    rw [← String.Slice.startsWith_bool_eq_head?]
    exact String.startsWith_dropWhile
  have happ := congrArg String.toList (leadingRun_append_dropWhile accepts text)
  rw [String.toList_append] at happ
  rw [← happ, List.takeWhile_append_of_pos hall]
  cases hd : (text.dropWhile accepts).copy.toList with
  | nil => simp
  | cons c r =>
      rw [hd] at hrest
      simp only [List.head?_cons, Option.any_some] at hrest
      simp [hrest]

end Parsing.Text
