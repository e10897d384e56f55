import PathPattern.Text.Blank
import PathPattern.Text.Upper

/-!
# Labels

A label is a text fit for a path: the first letter of every word in upper case, the case of
the others kept, and all white space removed. Words end at white space and at every ASCII
character but letters, digits and the underscore.
-/

namespace PathPattern

open Text (isBlank upper)

namespace Label

/-- A word ends at this character. -/
def endsWord (c : Char) : Bool :=
  if c.toNat < 128 then !(c.isAlphanum || c == '_') else isBlank c

/-- Upper case for each character that follows the end of a word; `previous` is the character
before the text. -/
def titled : Char → List Char → List Char
  | _, [] => []
  | previous, c :: cs => (if endsWord previous then upper c else [c]) ++ titled c cs

/-- The label of a text, as characters. -/
def chars (cs : List Char) : List Char := (titled ' ' cs).filter fun c => !isBlank c

end Label

/-- The label of a text. -/
def label (text : String) : String := String.ofList (Label.chars text.toList)

end PathPattern
