/-
Parsing.Text.Line — bytes as lines of text.

A line ends after a line feed, which belongs to it; what stands after
the last line feed is a line too, unless it is empty.  A line read on
its own is text only if its bytes are UTF-8.
-/

namespace Parsing.Text

/-- The byte of a line feed. -/
def lineFeed : UInt8 := 10

/-- Cuts bytes after every line feed. -/
def cutLines : List UInt8 → List (List UInt8)
  | [] => []
  | byte :: bytes =>
      if byte = lineFeed then [byte] :: cutLines bytes
      else
        match cutLines bytes with
        | [] => [[byte]]
        | line :: lines => (byte :: line) :: lines

/-- The text that bytes write, if they are UTF-8. -/
def decode? (bytes : List UInt8) : Option String :=
  String.fromUTF8? ⟨bytes.toArray⟩

/-- The bytes that write a text. -/
def encode (text : String) : List UInt8 :=
  text.toUTF8.data.toList

/-- What is said of bytes that are no text. -/
def notTextMessage : String := "stream did not contain valid UTF-8"

end Parsing.Text
