import PathPattern.Json.Record
import PathPattern.Yaml.Node

/-!
# Records in YAML

A record is a mapping of field names to scalars, or an empty document. Texts are taken as they
stand, quoted or not; the level has to be a plain integer. A document is read from the left, and
the first fault is the answer, by its place alone: the field whose value is at fault, a question
mark where a key should be and the text is at fault, or the whole document where a field comes
twice, the document is no mapping, or something follows it.
-/

namespace PathPattern.Yaml

open Json (Entry)

/-- Where a document is at fault. -/
structure Fault where
  place : String
  deriving DecidableEq, Repr

/-- A fault of the whole document. -/
def atRoot : Fault := ⟨"."⟩

/-- A fault of the text where a key should be, which has no name yet. -/
def atKey : Fault := ⟨"?"⟩

/-- Digits that start with a superfluous zero. -/
def hasLeadingZero (digits : List Char) : Bool :=
  1 < digits.length && digits.head? == some '0' && digits.all Integer.isDigit

/-- A plain integer: a sign, then hexadecimal, octal or binary digits behind their mark, or
decimal digits without a superfluous zero. -/
def integer? (text : List Char) : Option Int64 :=
  let unsigned? (cs : List Char) : Option (List Char) :=
    if cs.head?.any fun c => c == '+' || c == '-' then none else some cs
  let read (radix : Nat) (cs : List Char) : Option Int64 := (Integer.readSigned radix cs).toOption
  let radix? : Char → Option Nat
    | 'x' => some 16
    | 'o' => some 8
    | 'b' => some 2
    | _ => none
  let positive? : Option (List Char) :=
    match text with
    | '+' :: cs => unsigned? cs
    | cs => some cs
  let marked : Option Int64 :=
    match positive?, text with
    | some ('0' :: m :: cs), _ => do read (← radix? m) (← unsigned? cs)
    | _, '-' :: '0' :: m :: cs => do read (← radix? m) ('-' :: cs)
    | _, _ => none
  match marked, positive? with
  | some i, _ => some i
  | none, none => none
  | none, some cs =>
    let digits := match cs with
      | '-' :: ds => ds
      | ds => ds
    if hasLeadingZero digits then none else read 10 cs

/-- The record with an entry set to a scalar, if the entry takes it. -/
def setScalar? (r : Record) (entry : Entry) (plain : Bool) (text : List Char) : Option Record :=
  let value := String.ofList text
  match entry with
  | .source => some { r with source := value }
  | .model => some { r with model := value }
  | .mime => some { r with mime := value }
  | .kind => some { r with kind := value }
  | .file => some { r with file := value }
  | .level => if plain then (integer? text).map fun i => { r with level := i } else none
  | .acquired => (Rfc3339.read text).toOption.map fun t => { r with acquired := t }

/-- What has been read of a mapping: the record so far, and the entries given. -/
structure Progress where
  record : Record
  seen : List Entry

/-- The value of a key taken into account; names of no entry are passed over. -/
def Progress.set (p : Progress) (key : List Char) (value : Head) : Except Fault Progress :=
  let name := String.ofList key
  match Entry.ofKey? name, value with
  | none, _ => .ok p
  | some entry, .scalar plain text =>
    match setScalar? p.record entry plain text with
    | some r => .ok ⟨r, entry :: p.seen⟩
    | none => .error ⟨name⟩
  | some _, .collection => .error ⟨name⟩

/-- A key may be read: it is a scalar and no entry comes twice. -/
def Progress.admits (p : Progress) : Option Head → Except Fault (List Char)
  | some (.scalar _ text) =>
    match Entry.ofKey? (String.ofList text) with
    | some entry => if entry ∈ p.seen then .error atRoot else .ok text
    | none => .ok text
  | _ => .error atKey

/-- The empty plain scalar that stands for a missing node. -/
def missing : Head := .scalar true []

/-- A node, if the tokens hold one, and the tokens behind it, if they hold all of it. -/
abbrev Part := Option Head × Option (List Token)

/-- The node that the tokens start with, or a missing one before any of the given marks. The bound
is no less than the number of tokens. -/
def part (bound : Nat) (position : Position) (marks tokens : List Token) : Part :=
  if tokens.head?.any (marks.contains ·) then (some missing, some tokens)
  else (head? position tokens, skip bound position tokens)

/-- The value behind a key, which may be missing with its mark. -/
def valuePart (bound : Nat) (position : Position) (marks : List Token) : List Token → Part
  | [] => (none, none)
  | .value :: rest => part bound position marks rest
  | rest => (some missing, some rest)

/-- The missing value of a key that has no mark of its own. -/
def noValue (tokens : List Token) : Part :=
  if tokens.isEmpty then (none, none) else (some missing, some tokens)

/-- One member: its key, and its value in the tokens behind the key. -/
def Progress.member (p : Progress) (key : Part) (value : List Token → Part) :
    Except Fault (Progress × List Token) := do
  let name ← p.admits key.1
  let some rest := key.2 | throw atKey
  let place : Fault := ⟨String.ofList name⟩
  let (some head, rest) := value rest | throw place
  let p ← p.set name head
  let some rest := rest | throw place
  return (p, rest)

/-- The members of a block mapping and the tokens behind its end. The steps are more than the
tokens, since every member takes one. -/
def readBlock : Nat → Progress → List Token → Except Fault (Record × List Token)
  | 0, _, _ => .error atRoot
  | steps + 1, p, tokens =>
    let marks : List Token := [.key, .value, .blockEnd]
    match tokens with
    | .blockEnd :: rest => .ok (p.record, rest)
    | .key :: rest => do
      let (p, rest) ← p.member (part steps .mappingValue marks rest)
        (valuePart steps .mappingValue marks)
      readBlock steps p rest
    | _ => .error atKey

/-- The members of a map in brackets and the tokens behind its end. The steps are more than the
tokens. -/
def readFlow : Nat → Bool → Progress → List Token → Except Fault (Record × List Token)
  | 0, _, _, _ => .error atRoot
  | steps + 1, first, p, tokens =>
    let member (tokens : List Token) : Except Fault (Record × List Token) := do
      match tokens with
      | .closeMap :: rest => return (p.record, rest)
      | .key :: rest =>
        let (p, rest) ← p.member (part steps .flow [.value, .comma, .closeMap] rest)
          (valuePart steps .flow [.comma, .closeMap])
        readFlow steps false p rest
      | _ =>
        let (p, rest) ← p.member (part steps .flow [] tokens) noValue
        readFlow steps false p rest
    match tokens with
    | .closeMap :: rest => .ok (p.record, rest)
    | .comma :: rest => if first then .error atKey else member rest
    | rest => if first then member rest else .error atKey

/-- Nothing but ends of documents is left. -/
def isFinished : List Token → Bool
  | [.finish] => true
  | .documentEnd :: rest => isFinished rest
  | _ => false

/-- The token tells a version. -/
def isVersion : Token → Bool
  | .version _ _ => true
  | _ => false

/-- The versions before a document are in order: one at most, and a known one. -/
def knownVersions : List Token → Bool
  | [] => true
  | [.version major minor] => major == 1 && (minor == 1 || minor == 2)
  | _ => false

/-- The record of a document whose content starts here, and the tokens behind it; a document
without content is the blank record. -/
def readContent (tokens : List Token) : Except Fault (Record × List Token) :=
  match tokens with
  | .mappingStart :: rest => readBlock (tokens.length + 1) ⟨.blank, []⟩ rest
  | .openMap :: rest => readFlow (tokens.length + 1) true ⟨.blank, []⟩ rest
  | t :: _ =>
    if isVersion t || [Token.documentStart, .documentEnd, .finish].contains t then
      .ok (.blank, tokens)
    else .error atRoot
  | [] => .error atRoot

/-- The record of the first document, and the tokens behind it. A version calls for a start
mark, and an end mark for a document before it. -/
def readDocument (tokens : List Token) : Except Fault (Record × List Token) :=
  let versions := tokens.takeWhile isVersion
  match tokens.dropWhile isVersion with
  | .documentStart :: rest => if knownVersions versions then readContent rest else .error atRoot
  | .documentEnd :: _ => .error atRoot
  | rest => if versions = [] then readContent rest else .error atRoot

/-- The record of a text that holds one document. -/
def decodeRecord (text : String) : Except Fault Record := do
  let (r, rest) ← readDocument (tokens text)
  if isFinished rest then return r else throw atRoot

end PathPattern.Yaml
