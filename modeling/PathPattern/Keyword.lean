import PathPattern.Field
import PathPattern.Path

/-!
# Keyword placeholders

A keyword placeholder is known by its name. The name addresses a field of the record, or is a
number, which addresses a directory of the name itself read as a path, or means nothing.
-/

namespace PathPattern

/-- What a name in braces stands for. -/
inductive Meaning where
  | field (f : Field)
  /-- The directory of this number, from one, in the name read as a path. -/
  | position (n : Nat)
  | unknown
  deriving DecidableEq, Repr

namespace Keyword

/-- What a name stands for: a field before a number. -/
def meaning (name : String) : Meaning :=
  match Field.lookup name with
  | some f => .field f
  | none =>
    match Integer.readPosition name.toList with
    | .ok n => .position n
    | .error _ => .unknown

/-- The field that a name addresses. -/
def field? (name : String) : Option Field :=
  match meaning name with
  | .field f => some f
  | _ => none

/-- The name neither addresses a field nor is a number. -/
def isUnknown (name : String) : Bool := meaning name == .unknown

/-- The directory of a number counted from one, or the empty text. -/
def nthFromOne (segments : List String) : Nat → String
  | 0 => ""
  | n + 1 => segments.getD n ""

/-- The text that a name stands for, given a record. -/
def resolve (name : String) (r : Record) : String :=
  match meaning name with
  | .field f => f.extract r
  | .position n => nthFromOne (directorySegments name) n
  | .unknown => ""

/-- The name as a diagnostic shows it. -/
def render (name : String) : String := "fragment(" ++ name ++ ")"

end Keyword

end PathPattern
