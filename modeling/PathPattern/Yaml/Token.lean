import PathPattern.Yaml.Scalar

/-!
# YAML tokens

Cuts a YAML text into tokens: marks of documents, brackets, scalars, and the structure that
indentation gives. A token that turns out to be a key, because a colon follows it on its line,
gets a key token before it, and a block mapping starts there if it stands deeper than what is
open. Until that is settled the token is a candidate and nobody may read past it: where the
text has a fault, only the tokens before the first candidate count.

Anchors, aliases, tags and block scalars are not covered: they are YAML, but faults here. What is
to hold of other readers as well is stated of any reader (`CommandLine.RecordReader`).
-/

namespace PathPattern.Yaml

/-- A token. -/
inductive Token where
  /-- The version of YAML. -/
  | version (major minor : Nat)
  | documentStart
  | documentEnd
  | sequenceStart
  | mappingStart
  | blockEnd
  | openList
  | closeList
  | openMap
  | closeMap
  | entry
  | comma
  | key
  | value
  | scalar (plain : Bool) (text : List Char)
  | finish
  deriving DecidableEq, Repr

/-- A token that may still turn out to be a key. -/
structure Candidate where
  /-- The number of tokens before it. -/
  token : Nat
  /-- It has to be a key, since it stands at the column of an open mapping. -/
  required : Bool
  line : Nat
  column : Nat
  index : Nat

/-- The state of the cutting. -/
structure Scanner where
  cursor : Cursor
  /-- The tokens so far, the last one first, and their number. -/
  tokens : List Token
  count : Nat
  /-- The column of the innermost open block, and of the blocks around it. -/
  indent : Int
  outer : List Int
  /-- A key may start here. -/
  keyAllowed : Bool
  /-- The candidate outside brackets. -/
  candidate : Option Candidate
  /-- The candidates inside the open brackets, innermost first. -/
  inner : List (Option Candidate)

namespace Scanner

/-- The start of a text. -/
def start (cs : List Char) : Scanner := ⟨.start cs, [], 0, -1, [], true, none, []⟩

/-- Inside brackets, where indentation does not count. -/
def inFlow (s : Scanner) : Bool := !s.inner.isEmpty

/-- The candidate of the innermost level. -/
def current (s : Scanner) : Option Candidate := s.inner.headD s.candidate

/-- The candidate of the innermost level replaced. -/
def setCurrent (s : Scanner) (k : Option Candidate) : Scanner :=
  match s.inner with
  | [] => { s with candidate := k }
  | _ :: levels => { s with inner := k :: levels }

/-- The token put at the end. -/
def push (s : Scanner) (t : Token) : Scanner :=
  { s with tokens := t :: s.tokens, count := s.count + 1 }

/-- The token put behind the first `place` ones. -/
def insert (s : Scanner) (place : Nat) (t : Token) : Scanner :=
  { s with tokens := s.tokens.insertIdx (s.count - place) t, count := s.count + 1 }

/-- The candidate of the innermost level given up; a required one is a fault. -/
def dropCandidate (s : Scanner) : Option Scanner :=
  if s.current.any (·.required) then none else some (s.setCurrent none)

/-- The next token made a candidate, where a key may start. -/
def markCandidate (s : Scanner) : Option Scanner :=
  if s.keyAllowed then do
    let required := !s.inFlow && s.indent == s.cursor.column
    let s ← s.dropCandidate
    return s.setCurrent (some
      ⟨s.count, required, s.cursor.line, s.cursor.column, s.cursor.index⟩)
  else some s

/-- A candidate on an earlier line, or more than 1024 bytes back, is none any more. -/
def isStale (s : Scanner) (k : Candidate) : Bool :=
  k.line < s.cursor.line || k.index + 1024 < s.cursor.index

/-- The stale candidates given up; a required one is a fault. -/
def dropStale (s : Scanner) : Option Scanner :=
  let stale (k : Option Candidate) : Bool := k.any s.isStale
  let keep (k : Option Candidate) : Option Candidate := if stale k then none else k
  if (s.candidate :: s.inner).any fun k => stale k && k.any (·.required) then none
  else some { s with candidate := keep s.candidate, inner := s.inner.map keep }

/-- A block opened at a column, unless one is open there or brackets are. -/
def openBlock (s : Scanner) (column : Nat) (place : Nat) (t : Token) : Scanner :=
  if !s.inFlow && s.indent < column then
    { s with indent := column, outer := s.indent :: s.outer }.insert place t
  else s

/-- The blocks deeper than a column closed. -/
def closeBlocks (s : Scanner) (column : Int) : Scanner :=
  if s.inFlow then s
  else
    let deeper := (s.indent :: s.outer).takeWhile (column < ·)
    let left := (s.indent :: s.outer).dropWhile (column < ·)
    { s with
      indent := left.headD (-1), outer := left.tail,
      tokens := List.replicate deeper.length .blockEnd ++ s.tokens,
      count := s.count + deeper.length }

/-- The place after white space and comments. Tabs count as white space only where no key may
start; a byte order mark does at the start of a line. -/
def skipBlank : Nat → Scanner → Option Scanner
  | 0, s => some s
  | steps + 1, s => do
    let c := s.cursor
    c.reach 1
    if (c.column == 0 && c.sees 0 isOrderMark) || c.sees 0 (· == ' ') ||
        (c.sees 0 (· == '\t') && (s.inFlow || !s.keyAllowed)) then
      skipBlank steps { s with cursor := c.skip 1 }
    else if c.sees 0 (· == '#') then
      let (_, cursor) ← c.takeWhile fun d => !isBreak d
      skipBlank steps { s with cursor }
    else if c.sees 0 isBreak then
      c.reach 2
      skipBlank steps { s with cursor := c.nextLine, keyAllowed := s.keyAllowed || !s.inFlow }
    else return s

/-- The end of the text, which ends a line too. -/
def finish (s : Scanner) : Option Scanner := do
  let c := s.cursor
  let cursor := if c.column = 0 then c else { c with line := c.line + 1, column := 0 }
  let s ← ({ s with cursor }.closeBlocks (-1)).dropCandidate
  return s.push .finish

/-- A character of a directive's name. -/
def isNameChar (c : Char) : Bool := c.isAlphanum || c == '_' || c == '-'

/-- A number of one to nine digits in a version, and the place after it. -/
def versionNumber (c : Cursor) : Option (Nat × Cursor) := do
  let (digits, c) ← c.takeWhile Char.isDigit
  if digits = [] ∨ 9 < digits.length then none
  return (digits.foldl (fun n d => n * 10 + (d.toNat - '0'.toNat)) 0, c)

/-- A line that tells the version of YAML, and the place after it. A comment may end the line. -/
def version (c : Cursor) : Option (Token × Cursor) := do
  let (name, c) ← (c.skip 1).takeWhile isNameChar
  if name ≠ "YAML".toList ∨ !c.blankAt 0 then none
  let (_, c) ← c.takeWhile isSpace
  let (major, c) ← versionNumber c
  if !c.sees 0 (· == '.') then none
  let (minor, c) ← versionNumber (c.skip 1)
  let (_, c) ← c.takeWhile isSpace
  let (_, c) ← if c.sees 0 (· == '#') then c.takeWhile fun d => !isBreak d else some ([], c)
  if !c.atLineEnd then none
  if c.rest ≠ [] then c.reach 2
  return (.version major minor, c.nextLine)

/-- A directive; the only one is the version. -/
def directive (s : Scanner) : Option Scanner := do
  let s ← (s.closeBlocks (-1)).dropCandidate
  let (t, cursor) ← version s.cursor
  return { s with keyAllowed := false, cursor }.push t

/-- A document mark. -/
def document (s : Scanner) (t : Token) : Option Scanner := do
  let s ← (s.closeBlocks (-1)).dropCandidate
  return { s with keyAllowed := false, cursor := s.cursor.skip 3 }.push t

/-- An opening bracket. -/
def openFlow (s : Scanner) (t : Token) : Option Scanner := do
  let s ← s.markCandidate
  return { s with
    inner := none :: s.inner, keyAllowed := true, cursor := s.cursor.skip 1 }.push t

/-- A closing bracket. -/
def closeFlow (s : Scanner) (t : Token) : Option Scanner := do
  let s ← s.dropCandidate
  return { s with
    inner := s.inner.tail, keyAllowed := false, cursor := s.cursor.skip 1 }.push t

/-- A comma. -/
def comma (s : Scanner) : Option Scanner := do
  let s ← s.dropCandidate
  return { s with keyAllowed := true, cursor := s.cursor.skip 1 }.push .comma

/-- The dash of a block sequence. -/
def entry (s : Scanner) : Option Scanner := do
  if !s.inFlow && !s.keyAllowed then none
  let s ← (s.openBlock s.cursor.column s.count .sequenceStart).dropCandidate
  return { s with keyAllowed := true, cursor := s.cursor.skip 1 }.push .entry

/-- The question mark of a key. -/
def explicitKey (s : Scanner) : Option Scanner := do
  if !s.inFlow && !s.keyAllowed then none
  let s ← (s.openBlock s.cursor.column s.count .mappingStart).dropCandidate
  return { s with keyAllowed := !s.inFlow, cursor := s.cursor.skip 1 }.push .key

/-- The colon of a value. -/
def value (s : Scanner) : Option Scanner :=
  match s.current with
  | some k =>
    let s := ((s.insert k.token .key).openBlock k.column k.token .mappingStart).setCurrent none
    some ({ s with keyAllowed := false, cursor := s.cursor.skip 1 }.push .value)
  | none =>
    if !s.inFlow && !s.keyAllowed then none
    else
      let s := s.openBlock s.cursor.column s.count .mappingStart
      some ({ s with keyAllowed := !s.inFlow, cursor := s.cursor.skip 1 }.push .value)

/-- A quoted scalar. -/
def quoted (s : Scanner) (single : Bool) : Option Scanner := do
  let s ← s.markCandidate
  let (text, cursor) ← quotedScalar single s.cursor
  return { s with keyAllowed := false, cursor }.push (.scalar false text)

/-- A plain scalar. -/
def plain (s : Scanner) : Option Scanner := do
  let s ← s.markCandidate
  let (text, broke, cursor) ← plainScalar s.inFlow s.indent s.cursor
  return { s with keyAllowed := broke, cursor }.push (.scalar true text)

/-- A plain scalar may start at the place. -/
def startsPlain (s : Scanner) : Bool :=
  let c := s.cursor
  c.sees 0 fun d =>
    !("-?:,[]\x7b\x7d#&*!|>'\"%@`".toList.contains d || isSpace d || isBreak d) ||
    (d == '-' && !c.sees 1 isSpace) ||
    (!s.inFlow && (d == '?' || d == ':') && !c.blankAt 1)

/-- The token that starts at a place, or several. -/
def token (s : Scanner) : Option Scanner :=
  let c := s.cursor
  let starts (d : Char) : Bool := c.sees 0 (· == d)
  if c.rest.isEmpty then s.finish
  else if c.column == 0 && starts '%' then s.directive
  else if c.documentMark '-' then s.document .documentStart
  else if c.documentMark '.' then s.document .documentEnd
  else if starts '[' then s.openFlow .openList
  else if starts '{' then s.openFlow .openMap
  else if starts ']' then s.closeFlow .closeList
  else if starts '}' then s.closeFlow .closeMap
  else if starts ',' then s.comma
  else if starts '-' && c.blankAt 1 then s.entry
  else if starts '?' && (s.inFlow || c.blankAt 1) then s.explicitKey
  else if starts ':' && (s.inFlow || c.blankAt 1) then s.value
  else if starts '\'' then s.quoted true
  else if starts '"' then s.quoted false
  else if s.startsPlain then s.plain
  else none

/-- The next token, or several. -/
def next (s : Scanner) : Option Scanner := do
  let s ← skipBlank s.cursor.limit s >>= dropStale
  let s := if s.cursor.rest.isEmpty then s else s.closeBlocks s.cursor.column
  s.cursor.reach 4
  s.token

/-- The tokens that may be read when a fault ends the cutting. -/
def settled (s : Scanner) : List Token :=
  let pending := (s.candidate :: s.inner).filterMap (·.map (·.token))
  (s.tokens.drop (s.count - pending.foldl min s.count)).reverse

/-- The tokens from the state on, up to the end of the text or its first fault. -/
def run (s : Scanner) : Nat → List Token
  | 0 => s.settled
  | steps + 1 =>
    match s.next >>= dropStale with
    | none => s.settled
    | some s => if s.tokens.head? == some .finish then s.tokens.reverse else s.run steps

end Scanner

/-- The tokens of a text, `finish` last unless a fault cut them short. -/
def tokens (text : String) : List Token :=
  let s := Scanner.start text.toList
  s.run s.cursor.limit

end PathPattern.Yaml
