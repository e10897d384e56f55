import PathPattern.Text.Pieces
import PathPattern.Yaml.Window

/-!
# Places in a YAML text

A cursor is the readable rest of the text and where it starts: line and column, which count
characters, and index, which counts bytes, all from zero. A line ends at a line feed, a carriage
return with or without a line feed, or one of three Unicode separators; the first three count as
a line feed. Before characters ahead are looked at, `reach` says how many; where the readable
part ends earlier and more text follows it, that is a fault.
-/

namespace PathPattern.Yaml

/-- A place in a text. -/
structure Cursor where
  rest : List Char
  /-- An unreadable part follows the rest. -/
  broken : Bool
  line : Nat
  column : Nat
  index : Nat
  /-- No fewer steps than any loop from here takes. -/
  limit : Nat

/-- The character ends a line. -/
def isBreak (c : Char) : Bool :=
  c == '\n' || c == '\r' || c.toNat == 0x85 || c.toNat == 0x2028 || c.toNat == 0x2029

/-- The character is a space or a tab. -/
def isSpace (c : Char) : Bool := c == ' ' || c == '\t'

/-- The character is a byte order mark. -/
def isOrderMark (c : Char) : Bool := c.toNat == 0xfeff

/-- A readable rest that has fewer than `n` characters before an unreadable part. -/
def fallsShort (broken : Bool) (n : Nat) (cs : List Char) : Bool :=
  broken && (cs.drop (n - 1)).isEmpty

namespace Cursor

/-- The start of a text. -/
def start (cs : List Char) : Cursor :=
  let (rest, broken) := readable cs
  ⟨rest, broken, 0, 0, 0, rest.length + 2⟩

/-- The next `n` characters can be looked at. -/
def reach (c : Cursor) (n : Nat) : Option Unit :=
  if fallsShort c.broken n c.rest then none else some ()

/-- The character at a distance from the place. -/
def peek? (c : Cursor) (n : Nat) : Option Char := c.rest[n]?

/-- The character at a distance, tested; false at the end of the text. -/
def sees (c : Cursor) (n : Nat) (p : Char → Bool) : Bool := (c.peek? n).any p

/-- White space, or the end of the text, at a distance. -/
def blankAt (c : Cursor) (n : Nat) : Bool := (c.peek? n).all fun d => isSpace d || isBreak d

/-- A line end, or the end of the text. -/
def atLineEnd (c : Cursor) : Bool := (c.peek? 0).all isBreak

/-- The place after some characters of the same line. -/
def skip (c : Cursor) (n : Nat) : Cursor :=
  { c with
    rest := c.rest.drop n, column := c.column + n,
    index := c.index + Text.byteCount (c.rest.take n) }

/-- The characters of a kind, and the place after them. -/
def takeWhile (c : Cursor) (p : Char → Bool) : Option (List Char × Cursor) := do
  let word := c.rest.takeWhile p
  let c := c.skip word.length
  c.reach 1
  return (word, c)

/-- The place after a line end. -/
def nextLine (c : Cursor) : Cursor :=
  let width := match c.rest with
    | '\r' :: '\n' :: _ => 2
    | _ :: _ => 1
    | [] => 0
  if width = 0 then c else { c.skip width with line := c.line + 1, column := 0 }

/-- What a line end reads as. -/
def breakText (c : Cursor) : List Char :=
  match c.rest with
  | [] => []
  | d :: _ => if d.toNat == 0x2028 || d.toNat == 0x2029 then [d] else ['\n']

/-- A document mark: three equal characters at the start of a line, then white space. -/
def documentMark (c : Cursor) (d : Char) : Bool :=
  c.column == 0 && c.rest.take 3 == [d, d, d] && c.blankAt 3

/-- Either kind of document mark. -/
def anyDocumentMark (c : Cursor) : Bool := c.documentMark '-' || c.documentMark '.'

end Cursor

end PathPattern.Yaml
