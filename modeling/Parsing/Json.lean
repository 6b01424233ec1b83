/-
Parsing.Json — JSON values and their compact text.

The text has no blanks.  In strings a quote, a backslash and every
character below the space are escaped, and nothing else is, so the text
of a value holds no line feed.  Numbers are natural numbers: offsets
and counts are all that is written.
-/

namespace Parsing

/-- A JSON value.  An object is written with its fields in the order in
which they are listed. -/
inductive Json where
  | null
  | bool (value : Bool)
  | num (value : Nat)
  | str (value : String)
  | arr (items : List Json)
  | obj (fields : List (String × Json))
deriving Inhabited

namespace Json

/-! ## Text -/

/-- A character as it stands in a JSON string. -/
def escapedChar (c : Char) : List Char :=
  match c with
  | '"' => ['\\', '"']
  | '\\' => ['\\', '\\']
  | '\x08' => ['\\', 'b']
  | '\x0c' => ['\\', 'f']
  | '\n' => ['\\', 'n']
  | '\r' => ['\\', 'r']
  | '\t' => ['\\', 't']
  | _ =>
      if c.toNat < 0x20 then
        ['\\', 'u', '0', '0', Nat.digitChar (c.toNat / 16),
          Nat.digitChar (c.toNat % 16)]
      else [c]

/-- The JSON string of a text. -/
def quotedText (text : String) : String :=
  String.ofList ('"' :: (text.toList.flatMap escapedChar ++ ['"']))

/-- Items between brackets, with commas between them. -/
def bracketed (items : List String) : String :=
  "[" ++ ",".intercalate items ++ "]"

/-- Fields between braces, with commas between them. -/
def braced (fields : List String) : String :=
  "\x7b" ++ ",".intercalate fields ++ "\x7d"

mutual

/-- The compact text of a value. -/
def text : Json → String
  | .null => "null"
  | .bool value => if value then "true" else "false"
  | .num value => toString value
  | .str value => quotedText value
  | .arr items => bracketed (itemTexts items)
  | .obj fields => braced (fieldTexts fields)

/-- The texts of the items of an array. -/
def itemTexts : List Json → List String
  | [] => []
  | item :: items => item.text :: itemTexts items

/-- The texts of the fields of an object. -/
def fieldTexts : List (String × Json) → List String
  | [] => []
  | (key, value) :: fields =>
      (quotedText key ++ ":" ++ value.text) :: fieldTexts fields

end

theorem itemTexts_eq_map (items : List Json) : itemTexts items = items.map text := by
  induction items with
  | nil => rfl
  | cons item items ih => simp [itemTexts, ih]

end Json

/-! ## Values with a JSON form -/

/-- Types whose values have a JSON form. -/
class ToJson (α : Type) where
  /-- The JSON form of a value. -/
  toJson : α → Json

export ToJson (toJson)

instance : ToJson Unit where
  toJson _ := .null

instance : ToJson Nat where
  toJson := .num

instance : ToJson String where
  toJson := .str

instance {α : Type} [ToJson α] : ToJson (List α) where
  toJson items := .arr (items.map toJson)

/-- A pair is written as an array of two. -/
instance {α β : Type} [ToJson α] [ToJson β] : ToJson (α × β) where
  toJson pair := .arr [toJson pair.1, toJson pair.2]

/-- An alternative is written as an object whose one field names the
side. -/
instance {α β : Type} [ToJson α] [ToJson β] : ToJson (α ⊕ β) where
  toJson
    | .inl a => .obj [("Left", toJson a)]
    | .inr b => .obj [("Right", toJson b)]

end Parsing
