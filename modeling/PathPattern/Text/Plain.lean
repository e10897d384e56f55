/-!
# Texts without terminal controls

What a message shows of a text that somebody gave: escape sequences, the strings they open, and
controls other than tab, line feed, form feed and carriage return are left out. A sequence starts
with the escape character and ends with a letter that its kind allows; the cancel characters end
any of them. Shown characters come in runs: a control that is shown inside a sequence starts a
run, the sequence waits until the run is over, and a character beyond ASCII in the run ends the
sequence.
-/

namespace PathPattern.Text

/-- What a text is inside of. -/
inductive Control where
  | ground
  | escape
  | escapeIntermediate
  /-- A control sequence. -/
  | sequence
  /-- The start of a device control string, and its parameters. -/
  | device
  | deviceParameter
  | deviceIntermediate
  /-- The body of a device control string, or another string without a reading. -/
  | ignored
  /-- An operating system command. -/
  | command
  deriving DecidableEq, Repr

/-- The controls that are shown. -/
def isLayout (c : Char) : Bool := c == '\t' || c == '\n' || c == Char.ofNat 0xc || c == '\r'

/-- A character from one code point to another. -/
def isIn (first last : Nat) (c : Char) : Bool := first ≤ c.toNat && c.toNat ≤ last

/-- An ASCII character with a mark, or the space. -/
def isMark (c : Char) : Bool := isIn 0x20 0x7e c

namespace Control

/-- What the text is inside of after the letter behind an escape. -/
def opened : Char → Control
  | '[' => sequence
  | ']' => command
  | 'P' => device
  | 'X' => ignored
  | '^' => ignored
  | '_' => ignored
  | _ => ground

/-- What the text is inside of after a character that no run shows. -/
def next (k : Control) (c : Char) : Control :=
  if c.toNat = 0x18 ∨ c.toNat = 0x1a then ground
  else if c.toNat = 0x1b then escape
  else
    match k with
    | ground => ground
    | escape =>
      if isIn 0x20 0x2f c then escapeIntermediate else if isMark c then opened c else escape
    | escapeIntermediate => if isIn 0x30 0x7e c then ground else escapeIntermediate
    | sequence => if isIn 0x40 0x7e c then ground else sequence
    | device =>
      if isIn 0x20 0x2f c then deviceIntermediate
      else if isIn 0x30 0x3f c then deviceParameter
      else if isIn 0x40 0x7e c then ignored
      else device
    | deviceParameter =>
      if isIn 0x20 0x2f c then deviceIntermediate
      else if isIn 0x3c 0x7e c then ignored
      else deviceParameter
    | deviceIntermediate => if isIn 0x30 0x7e c then ignored else deviceIntermediate
    | ignored => if (String.utf8EncodeChar c).contains 0x9c then ground else ignored
    | command => if c.toNat = 7 then ground else command

/-- The character starts a run of shown ones. -/
def shows (k : Control) (c : Char) : Bool :=
  match k with
  | ground => isMark c || isLayout c || 0x80 ≤ c.toNat
  | escape => isLayout c
  | escapeIntermediate => isLayout c
  | sequence => isLayout c
  | _ => false

end Control

/-- The characters that are shown of a text from a place on, inside or outside a run. -/
def plainFrom (inRun : Bool) (k : Control) : List Char → List Char
  | [] => []
  | c :: cs =>
    if inRun && 0x80 ≤ c.toNat then c :: plainFrom true .ground cs
    else if inRun && (isMark c || isLayout c) then c :: plainFrom true k cs
    else if k.shows c then c :: plainFrom true k cs
    else plainFrom false (k.next c) cs

/-- What a message shows of a text. -/
def plain (s : String) : String := String.ofList (plainFrom false .ground s.toList)

end PathPattern.Text
