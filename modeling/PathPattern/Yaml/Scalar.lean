import PathPattern.Number.Integer
import PathPattern.Yaml.Cursor

/-!
# YAML scalars

Reads plain and quoted scalars. A scalar may run over several lines: a single line end between
its words is a space, more of them are kept but for the first. A plain scalar ends at a comment,
at a colon before white space, at a document mark and, outside brackets, where the text is
indented no deeper than what holds the scalar. Loops take a count of steps, the limit of the
cursor, that they never use up.
-/

namespace PathPattern.Yaml

/-- White space met inside a scalar: spaces, or line ends with the first one apart. -/
structure Gap where
  spaces : List Char
  firstBreak : Option (List Char)
  breaks : List Char

/-- No white space. -/
def Gap.none : Gap := ⟨[], .none, []⟩

/-- What the white space contributes to the scalar. -/
def Gap.folded (g : Gap) : List Char :=
  match g.firstBreak with
  | .none => g.spaces
  | some ['\n'] => if g.breaks = [] then [' '] else g.breaks
  | some first => first ++ g.breaks

/-- The white space at a place. A tab that stands before column `indent` on a later line is a
fault. -/
def readGap (indent : Int) : Nat → Gap → Cursor → Option (Gap × Cursor)
  | 0, g, c => some (g, c)
  | steps + 1, g, c => do
    c.reach 1
    if c.sees 0 isSpace then
      if g.firstBreak.isNone then
        readGap indent steps { g with spaces := g.spaces ++ c.rest.take 1 } (c.skip 1)
      else if c.sees 0 (· == '\t') && (c.column : Int) < indent then .none
      else readGap indent steps g (c.skip 1)
    else if c.sees 0 isBreak then
      c.reach 2
      if g.firstBreak.isNone then
        readGap indent steps ⟨[], some c.breakText, g.breaks⟩ c.nextLine
      else readGap indent steps { g with breaks := g.breaks ++ c.breakText } c.nextLine
    else return (g, c)

/-- The characters of a plain scalar up to white space or its end; inside brackets a colon
before a bracket or comma is a fault. Two characters are looked at, a character and its
neighbour. -/
def plainWord (flow broken : Bool) : List Char → Option (List Char)
  | [] => some []
  | c :: cs =>
    let next := cs.head?
    if isSpace c || isBreak c then some []
    else if flow && c == ':' && next.any fun d => ",?[]\x7b\x7d".toList.contains d then .none
    else if c == ':' && next.all fun d => isSpace d || isBreak d then some []
    else if flow && ",[]\x7b\x7d".toList.contains c then some []
    else if fallsShort broken 2 cs then .none
    else (plainWord flow broken cs).map (c :: ·)

/-- A plain scalar from a word on, after the given white space, which counts only if a word
follows. The result tells the text, whether a line end was passed behind it, and the place. -/
def plainFrom (flow : Bool) (indent : Int) :
    Nat → Gap → Cursor → Option (List Char × Bool × Cursor)
  | 0, g, c => some ([], g.firstBreak.isSome, c)
  | steps + 1, g, c => do
    c.reach 4
    if c.anyDocumentMark || c.sees 0 (· == '#') then return ([], g.firstBreak.isSome, c)
    else
      let word ← plainWord flow c.broken c.rest
      let text := if word = [] then [] else g.folded ++ word
      let g := if word = [] then g else Gap.none
      let c := c.skip word.length
      if c.sees 0 fun d => isSpace d || isBreak d then
        let (g, c) ← readGap indent c.limit g c
        if !flow && (c.column : Int) < indent then return (text, g.firstBreak.isSome, c)
        else
          let (more, broke, c) ← plainFrom flow indent steps g c
          return (text ++ more, broke, c)
      else return (text, g.firstBreak.isSome, c)

/-- A plain scalar; `parentIndent` is the column of what holds it. -/
def plainScalar (flow : Bool) (parentIndent : Int) (c : Cursor) :
    Option (List Char × Bool × Cursor) :=
  plainFrom flow (parentIndent + 1) c.limit .none c

/-- The character of an escape of one letter in double quotes. -/
def letterEscape? : Char → Option Char
  | '0' => some (Char.ofNat 0)
  | 'a' => some (Char.ofNat 7)
  | 'b' => some (Char.ofNat 8)
  | 't' => some '\t'
  | '\t' => some '\t'
  | 'n' => some '\n'
  | 'v' => some (Char.ofNat 11)
  | 'f' => some (Char.ofNat 12)
  | 'r' => some '\r'
  | 'e' => some (Char.ofNat 27)
  | ' ' => some ' '
  | '"' => some '"'
  | '/' => some '/'
  | '\\' => some '\\'
  | 'N' => some (Char.ofNat 0x85)
  | '_' => some (Char.ofNat 0xa0)
  | 'L' => some (Char.ofNat 0x2028)
  | 'P' => some (Char.ofNat 0x2029)
  | _ => none

/-- How many hexadecimal digits follow the letter of an escape. -/
def escapeWidth? : Char → Option Nat
  | 'x' => some 2
  | 'u' => some 4
  | 'U' => some 8
  | _ => none

/-- The character with the code that some hexadecimal digits spell. -/
def codeEscape? (digits : List Char) : Option Char := do
  let values ← digits.mapM (Integer.digitValue? 16)
  let n := values.foldl (fun n d => n * 16 + d) 0
  if (0xd800 ≤ n ∧ n ≤ 0xdfff) ∨ 0x10ffff < n then none else some (Char.ofNat n)

/-- The characters between quotes up to white space or the closing quote, and whether an
escaped line end follows them. -/
def quotedWord (single : Bool) : Nat → Cursor → Option (List Char × Bool × Cursor)
  | 0, c => some ([], false, c)
  | steps + 1, c =>
    let more (d : Char) (n : Nat) : Option (List Char × Bool × Cursor) := do
      let c := c.skip n
      c.reach 2
      let (word, folds, c) ← quotedWord single steps c
      return (d :: word, folds, c)
    match c.rest with
    | [] => some ([], false, c)
    | d :: cs =>
      if isSpace d || isBreak d then some ([], false, c)
      else if single && d == '\'' then
        if cs.head? == some '\'' then more '\'' 2 else some ([], false, c)
      else if !single && d == '"' then some ([], false, c)
      else if !single && d == '\\' then
        match cs with
        | [] => none
        | e :: cs =>
          if isBreak e then (c.reach 3).map fun _ => ([], true, (c.skip 1).nextLine)
          else
            match letterEscape? e, escapeWidth? e with
            | some d, _ => more d 2
            | none, some width => do
              (c.skip 2).reach width
              if cs.length < width then none
              let d ← codeEscape? (cs.take width)
              more d (width + 2)
            | none, none => none
      else more d 1

/-- A quoted scalar from a word on. -/
def quotedFrom (single : Bool) : Nat → Cursor → Option (List Char × Cursor)
  | 0, _ => none
  | steps + 1, c => do
    c.reach 4
    if c.anyDocumentMark || c.rest.isEmpty then none
    else
      let (word, folds, c) ← quotedWord single c.limit c
      c.reach 1
      if c.sees 0 (· == if single then '\'' else '"') then return (word, c.skip 1)
      else
        let g : Gap := if folds then ⟨[], some [], []⟩ else .none
        let (g, c) ← readGap 0 c.limit g c
        let (more, c) ← quotedFrom single steps c
        return (word ++ g.folded ++ more, c)

/-- A quoted scalar; the cursor is at its opening quote. -/
def quotedScalar (single : Bool) (c : Cursor) : Option (List Char × Cursor) :=
  quotedFrom single c.limit (c.skip 1)

end PathPattern.Yaml
