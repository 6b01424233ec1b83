/-
Parsing.Proofs.JsonText — a JSON text says what it was written from.

No lengths stand in a JSON text, so a value must be told from what follows
it.  All values but numbers are closed by their last character.  A number is
not, but no number is followed by a digit: behind it stand a comma, a bracket
or a brace, or nothing (`Text.NoDigitNext`).  `Json.told_text` carries this
through arrays and objects, and the first character says of which form a
value is (`Json.StartsAs`).

The causes of a failure are left out where there are none.  That loses
nothing, since an object of three fields is not one of four.
-/
import Mathlib
import Parsing.Report
import Parsing.Proofs.PrefixFree

namespace Parsing

/-! ## Numbers and lists -/

namespace Text

variable {α : Type} {code : α → List Char} {a : α} {as bs : List α} {x y : List Char}

/-- What is left does not go on with a digit. -/
def NoDigitNext (rest : List Char) : Prop :=
  ∀ c ∈ rest.head?, c.isDigit = false

theorem noDigitNext_cons {c : Char} (h : c.isDigit = false) (rest : List Char) :
    NoDigitNext (c :: rest) := by
  simpa [NoDigitNext] using h

theorem toDigits_append_inj {m n : Nat} (hx : NoDigitNext x) (hy : NoDigitNext y)
    (h : Nat.toDigits 10 m ++ x = Nat.toDigits 10 n ++ y) : m = n ∧ x = y := by
  have htake : ∀ k rest, NoDigitNext rest →
      (Nat.toDigits 10 k ++ rest).takeWhile Char.isDigit = Nat.toDigits 10 k := by
    intro k rest hrest
    have hdigits : ∀ c ∈ Nat.toDigits 10 k, c.isDigit = true := fun c hc =>
      Nat.isDigit_of_mem_toDigits (by decide) (by decide) hc
    rw [List.takeWhile_append_of_pos hdigits]
    cases rest with
    | nil => simp
    | cons c rest => simp [hrest c rfl]
  have hinj : Function.Injective (Nat.toDigits 10) := toDigits_injective (by decide) (by decide)
  obtain rfl : m = n := hinj (by rw [← htake m x hx, h, htake n y hy])
  exact ⟨rfl, List.append_cancel_left h⟩

/-- What the code writes for `a` can be told from what follows it, if that
does not go on with a digit. -/
def Told (code : α → List Char) (a : α) : Prop :=
  ∀ ⦃b : α⦄ ⦃x y : List Char⦄, NoDigitNext x → NoDigitNext y →
    code a ++ x = code b ++ y → a = b ∧ x = y

/-- Behind an item stands a comma or the character that closes the list. -/
theorem noDigitNext_items {close : Char} (hdigit : close.isDigit = false) (as : List α) :
    NoDigitNext ((as.flatMap fun a => [','] ++ code a) ++ close :: x) := by
  cases as with
  | nil => exact noDigitNext_cons hdigit x
  | cons a as => exact noDigitNext_cons (by decide) _

theorem told_behind_commas {close : Char} (hcomma : close ≠ ',') (hdigit : close.isDigit = false)
    (has : ∀ a ∈ as, Told code a)
    (h : (as.flatMap fun a => [','] ++ code a) ++ close :: x =
      (bs.flatMap fun b => [','] ++ code b) ++ close :: y) : as = bs ∧ x = y := by
  induction as generalizing bs with
  | nil =>
    cases bs with
    | nil => simpa using h
    | cons b bs =>
      obtain rfl : close = ',' := by simp at h; exact h.1
      exact absurd rfl hcomma
  | cons a as ih =>
    obtain ⟨ha, has⟩ := List.forall_mem_cons.1 has
    cases bs with
    | nil =>
      obtain rfl : ',' = close := by simp at h; exact h.1
      exact absurd rfl hcomma
    | cons b bs =>
      simp only [List.flatMap_cons, List.append_assoc, List.append_cancel_left_eq] at h
      obtain ⟨rfl, hrest⟩ := ha (noDigitNext_items hdigit as) (noDigitNext_items hdigit bs) h
      obtain ⟨rfl, hxy⟩ := ih has hrest
      exact ⟨rfl, hxy⟩

/-- A list with commas can be told from what follows it, if its items can
and none of them starts with the character that closes the list. -/
theorem told_between_commas {close : Char} (hcomma : close ≠ ',')
    (hdigit : close.isDigit = false) (hstart : ∀ a x y, code a ++ x ≠ close :: y)
    (has : ∀ a ∈ as, Told code a)
    (h : [','].intercalate (as.map code) ++ close :: x =
      [','].intercalate (bs.map code) ++ close :: y) : as = bs ∧ x = y := by
  cases as with
  | nil =>
    cases bs with
    | nil => simpa using h
    | cons b bs =>
      simp only [intercalate_cons_map, List.map_nil, List.intercalate_nil, List.nil_append,
        List.append_assoc] at h
      exact absurd h.symm (hstart b _ _)
  | cons a as =>
    obtain ⟨ha, has⟩ := List.forall_mem_cons.1 has
    cases bs with
    | nil =>
      simp only [intercalate_cons_map, List.map_nil, List.intercalate_nil, List.nil_append,
        List.append_assoc] at h
      exact absurd h (hstart a _ _)
    | cons b bs =>
      simp only [intercalate_cons_map, List.append_assoc] at h
      obtain ⟨rfl, hrest⟩ := ha (noDigitNext_items hdigit as) (noDigitNext_items hdigit bs) h
      obtain ⟨rfl, hxy⟩ := told_behind_commas hcomma hdigit has hrest
      exact ⟨rfl, hxy⟩

end Text

namespace Json

open Text

/-! ## Strings -/

/-- The code of a character in a JSON string: four hexadecimal digits, of
which the first two are zero. -/
def controlCode (c : Char) : List Char :=
  ['0', '0', Nat.digitChar (c.toNat / 16), Nat.digitChar (c.toNat % 16)]

theorem controlCode_inj {c c' : Char} {x y : List Char} (hc : c.toNat < 0x20)
    (hc' : c'.toNat < 0x20) (h : controlCode c ++ x = controlCode c' ++ y) :
    c = c' ∧ x = y := by
  simp only [controlCode, List.cons_append, List.nil_append, List.cons.injEq, true_and] at h
  obtain ⟨hquot, hrem, hxy⟩ := h
  have hquot' := digitChar_inj (by omega) (by omega) hquot
  have hrem' := digitChar_inj (by omega) (by omega) hrem
  exact ⟨Char.toNat_inj.1 (by omega), hxy⟩

/-- The escapes of JSON strings. -/
def stringStyle : EscapeStyle where
  short := [('"', '"'), ('\\', '\\'), ('\x08', 'b'), ('\x0c', 'f'), ('\n', 'n'), ('\r', 'r'),
    ('\t', 't')]
  coded c := c.toNat < 0x20
  code := controlCode
  short_inj := by decide
  short_ne_u := by decide
  backslash_mem := by decide
  quote_mem := by decide
  code_inj _ _ _ _ hc hc' h := controlCode_inj hc hc' h

theorem escapedChar_writes (c : Char) : stringStyle.Writes c (escapedChar c) := by
  unfold escapedChar
  split
  · exact .short (d := '"') (by decide)
  · exact .short (d := '\\') (by decide)
  · exact .short (d := 'b') (by decide)
  · exact .short (d := 'f') (by decide)
  · exact .short (d := 'n') (by decide)
  · exact .short (d := 'r') (by decide)
  · exact .short (d := 't') (by decide)
  · split
    · rename_i hcontrol
      exact .code hcontrol
    · refine .self ?_
      simp only [stringStyle, List.map_cons, List.map_nil, List.mem_cons, List.not_mem_nil,
        or_false, not_or]
      exact ⟨‹_›, ‹_›, ‹_›, ‹_›, ‹_›, ‹_›, ‹_›⟩

theorem toList_quotedText (text : String) :
    (quotedText text).toList = ['"'] ++ (text.toList.flatMap escapedChar ++ ['"']) := by
  simp [quotedText]

theorem prefixFree_quotedText : PrefixFree fun text => (quotedText text).toList := by
  simp only [toList_quotedText]
  exact EscapeStyle.prefixFree_text escapedChar_writes

/-! ## Values -/

/-- What holds of a value if it holds of all those in it, holds of every
value. -/
@[induction_eliminator]
theorem induction {motive : Json → Prop} (null : motive .null)
    (bool : ∀ value, motive (.bool value)) (num : ∀ value, motive (.num value))
    (str : ∀ value, motive (.str value))
    (arr : ∀ items, (∀ item ∈ items, motive item) → motive (.arr items))
    (obj : ∀ fields, (∀ field ∈ fields, motive field.2) → motive (.obj fields))
    (value : Json) : motive value :=
  @Json.rec motive (fun items => ∀ item ∈ items, motive item)
    (fun fields => ∀ field ∈ fields, motive field.2) (fun field => motive field.2)
    null bool num str arr obj
    (fun _ h => nomatch h) (fun _ _ hitem hitems => List.forall_mem_cons.2 ⟨hitem, hitems⟩)
    (fun _ h => nomatch h) (fun _ _ hfield hfields => List.forall_mem_cons.2 ⟨hfield, hfields⟩)
    (fun _ _ hvalue => hvalue) value

/-- The characters of a field: its key, a colon and its value. -/
def fieldChars (field : String × Json) : List Char :=
  (quotedText field.1).toList ++ ([':'] ++ field.2.text.toList)

theorem toList_text_arr (items : List Json) :
    (arr items).text.toList =
      ['['] ++ ([','].intercalate (items.map fun item => item.text.toList) ++ [']']) := by
  simp [text, bracketed, itemTexts_eq_map, String.toList_intercalate, Function.comp_def]

theorem fieldTexts_eq_map (fields : List (String × Json)) :
    fieldTexts fields = fields.map fun field => String.ofList (fieldChars field) := by
  induction fields with
  | nil => rfl
  | cons field fields ih =>
    obtain ⟨key, value⟩ := field
    have hfield : quotedText key ++ ":" ++ value.text = String.ofList (fieldChars (key, value)) :=
      String.toList_inj.1 (by simp [fieldChars])
    rw [fieldTexts, ih, hfield, List.map_cons]

theorem toList_text_obj (fields : List (String × Json)) :
    (obj fields).text.toList =
      ['\x7b'] ++ ([','].intercalate (fields.map fieldChars) ++ ['\x7d']) := by
  simp [text, braced, fieldTexts_eq_map, String.toList_intercalate, Function.comp_def]

/-- The forms of values. -/
inductive Form where
  | null
  | bool
  | num
  | str
  | arr
  | obj

/-- The form of a value. -/
def form : Json → Form
  | .null => .null
  | .bool _ => .bool
  | .num _ => .num
  | .str _ => .str
  | .arr _ => .arr
  | .obj _ => .obj

/-- The form of the values whose texts start with a character. -/
def Form.ofChar? (c : Char) : Option Form :=
  if c.isDigit then some .num
  else
    match c with
    | 'n' => some .null
    | 't' => some .bool
    | 'f' => some .bool
    | '"' => some .str
    | '[' => some .arr
    | '\x7b' => some .obj
    | _ => none

theorem exists_text_eq_cons (value : Json) :
    ∃ c rest, value.text.toList = c :: rest ∧ Form.ofChar? c = some value.form := by
  cases value with
  | null => exact ⟨_, _, rfl, rfl⟩
  | bool value => cases value <;> exact ⟨_, _, rfl, rfl⟩
  | num n =>
    have hne : Nat.toDigits 10 n ≠ [] := Nat.toDigits_ne_nil
    obtain ⟨c, rest, hdigits⟩ := List.exists_cons_of_ne_nil hne
    have hc : c.isDigit = true :=
      Nat.isDigit_of_mem_toDigits (b := 10) (n := n) (by decide) (by decide) (by simp [hdigits])
    refine ⟨c, rest, ?_, if_pos hc⟩
    simp [text, hdigits]
  | str value => exact ⟨_, _, toList_quotedText value, rfl⟩
  | arr items => exact ⟨_, _, toList_text_arr items, rfl⟩
  | obj fields => exact ⟨_, _, toList_text_obj fields, rfl⟩

theorem form_of_append {value : Json} {c : Char} {x y : List Char}
    (h : value.text.toList ++ x = c :: y) : Form.ofChar? c = some value.form := by
  obtain ⟨c', rest, htext, hc'⟩ := exists_text_eq_cons value
  rw [htext, List.cons_append] at h
  rw [← (List.cons.inj h).1, hc']

/-- The first character tells the form. -/
theorem form_eq_of_append {value value' : Json} {x y : List Char}
    (h : value.text.toList ++ x = value'.text.toList ++ y) : value.form = value'.form := by
  obtain ⟨c, rest, htext, hc⟩ := exists_text_eq_cons value'
  rw [htext, List.cons_append] at h
  exact Option.some.inj ((form_of_append h).symm.trans hc)

/-- No value starts with the bracket that closes an array. -/
theorem text_append_ne (value : Json) (x y : List Char) : value.text.toList ++ x ≠ ']' :: y :=
  fun h => nomatch form_of_append h

/-- The text of a field ends where that of its value does. -/
theorem told_fieldChars {field : String × Json}
    (h : Told (fun value => value.text.toList) field.2) : Told fieldChars field := by
  intro field' x y hx hy heq
  simp only [fieldChars, List.append_assoc] at heq
  obtain ⟨hkey, hvalues⟩ := prefixFree_quotedText heq
  obtain ⟨hvalue, hxy⟩ := h hx hy (List.append_cancel_left hvalues)
  exact ⟨Prod.ext hkey hvalue, hxy⟩

/-- **A value can be told from what follows it.**  By induction on the value;
the other one is of the same form. -/
theorem told_text (value : Json) : Told (fun value => value.text.toList) value := by
  induction value with
  | null =>
    intro value' x y _ _ heq
    have hform := form_eq_of_append heq
    cases value' with
    | null => exact ⟨rfl, List.append_cancel_left heq⟩
    | _ => cases hform
  | bool value =>
    intro value' x y _ _ heq
    have hform := form_eq_of_append heq
    cases value' with
    | bool value' =>
      cases value <;> cases value'
      · exact ⟨rfl, List.append_cancel_left heq⟩
      · simp [text] at heq
      · simp [text] at heq
      · exact ⟨rfl, List.append_cancel_left heq⟩
    | _ => cases hform
  | num n =>
    intro value' x y hx hy heq
    have hform := form_eq_of_append heq
    cases value' with
    | num n' =>
      simp only [text, Nat.toString_eq_ofList_toDigits, String.toList_ofList] at heq
      obtain ⟨rfl, hxy⟩ := toDigits_append_inj hx hy heq
      exact ⟨rfl, hxy⟩
    | _ => cases hform
  | str value =>
    intro value' x y _ _ heq
    have hform := form_eq_of_append heq
    cases value' with
    | str value' =>
      obtain ⟨rfl, hxy⟩ := prefixFree_quotedText heq
      exact ⟨rfl, hxy⟩
    | _ => cases hform
  | arr items ih =>
    intro value' x y _ _ heq
    have hform := form_eq_of_append heq
    cases value' with
    | arr items' =>
      simp only [toList_text_arr, List.append_assoc, List.cons_append, List.nil_append,
        List.cons.injEq, true_and] at heq
      obtain ⟨rfl, hxy⟩ := told_between_commas (by decide) (by decide) text_append_ne ih heq
      exact ⟨rfl, hxy⟩
    | _ => cases hform
  | obj fields ih =>
    intro value' x y _ _ heq
    have hform := form_eq_of_append heq
    cases value' with
    | obj fields' =>
      simp only [toList_text_obj, List.append_assoc, List.cons_append, List.nil_append,
        List.cons.injEq, true_and] at heq
      have hstart : ∀ (field : String × Json) x y, fieldChars field ++ x ≠ '\x7d' :: y := by
        intro field x y h
        simp [fieldChars, toList_quotedText] at h
      obtain ⟨rfl, hxy⟩ := told_between_commas (by decide) (by decide) hstart
        (fun field hfield => told_fieldChars (ih field hfield)) heq
      exact ⟨rfl, hxy⟩
    | _ => cases hform

theorem text_injective : Function.Injective text := by
  intro value value' h
  have hnil : NoDigitNext [] := fun c hc => nomatch hc
  have hchars : value.text.toList ++ [] = value'.text.toList ++ [] := by rw [h]
  exact (told_text value hnil hnil hchars).1

end Json

/-! ## Failures and states -/

namespace Failure

mutual

/-- The JSON form of a failure says what the failure is. -/
theorem json_inj : ∀ {a b : Failure}, a.json = b.json → a = b
  | ⟨kind, index, message, causes⟩, ⟨kind', index', message', causes'⟩, h => by
    simp only [json, Json.obj.injEq, List.cons_append, List.nil_append, List.cons.injEq,
      Prod.mk.injEq, Json.str.injEq, Json.num.injEq, true_and] at h
    obtain ⟨hkind, rfl, rfl, hcauses⟩ := h
    obtain rfl := Kind.name_injective hkind
    have hlists : jsonList causes = jsonList causes' := by
      cases causes <;> cases causes'
      · rfl
      · simp at hcauses
      · simp at hcauses
      · simpa using hcauses
    rw [jsonList_inj hlists]

theorem jsonList_inj : ∀ {as bs : List Failure}, jsonList as = jsonList bs → as = bs
  | [], [], _ => rfl
  | [], _ :: _, h => nomatch h
  | _ :: _, [], h => nomatch h
  | a :: as, b :: bs, h => by
    obtain ⟨ha, has⟩ := List.cons.inj h
    rw [json_inj ha, jsonList_inj has]

end

end Failure

theorem toJson_texts_injective :
    Function.Injective (toJson : List String → Json) := by
  have hitem : Function.Injective (toJson : String → Json) := fun _ _ h => Json.str.inj h
  intro as bs h
  exact hitem.list_map (Json.arr.inj h)

namespace State

variable {α : Type} [ToJson α]

/-- The JSON form of a state says all of the state but the input, if that of
a value says what the value is. -/
theorem json_eq_iff (hinj : Function.Injective (toJson : α → Json)) {s t : State α} :
    s.json = t.json ↔ s.index = t.index ∧ s.outcome = t.outcome := by
  constructor
  · obtain ⟨target, index, failure | value⟩ := s <;>
      obtain ⟨target', index', failure' | value'⟩ := t <;>
      intro h <;>
      simp only [json, Json.obj.injEq, List.cons.injEq, Prod.mk.injEq, Json.num.injEq, true_and,
        and_true] at h
    · exact ⟨h.1, congrArg Except.error (Failure.json_inj h.2.2)⟩
    · simp at h
    · simp at h
    · exact ⟨h.1, congrArg Except.ok (hinj h.2.2)⟩
  · rintro ⟨hindex, houtcome⟩
    simp only [json, isError, failure?, hindex, houtcome]

/-- **Reports as JSON are unambiguous.**  The reports of two states with
lists of texts as values are the same text only if the states stand at the
same offset with the same outcome: the same value, or the same failure with
the same causes, to any depth.  So are the JSON texts of two failures. -/
theorem json_reports_unambiguous :
    (∀ s t : State (List String),
      s.report true = t.report true ↔ s.index = t.index ∧ s.outcome = t.outcome) ∧
    ∀ a b : Failure, a.json.text = b.json.text ↔ a = b := by
  refine ⟨fun s t => ?_, fun a b => ?_⟩
  · rw [← json_eq_iff toJson_texts_injective]
    exact Json.text_injective.eq_iff
  · exact ⟨fun h => Failure.json_inj (Json.text_injective h), fun h => by rw [h]⟩

end State

end Parsing
