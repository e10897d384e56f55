import PathPattern.Number.Shown
import PathPattern.Template.Fault
import PathPattern.Text.Quoted
import PathPattern.Time.Rfc3339

/-!
# Faults of JSON texts

A JSON text is read once from the left, and the first fault is the answer: the text ends too
early, it is malformed, or a value is well formed but refused where it stands. A refusal has a
reason and the place of the refused value.
-/

namespace PathPattern.Json

/-- What a refused value turned out to be. -/
inductive Found where
  | null
  | boolean (value : Bool)
  | integer (value : Int)
  /-- A number with a point or an exponent, or one past the 64-bit integers. -/
  | floating (negative : Bool) (size : Binary64)
  | text (value : String)
  | sequence
  | map
  deriving DecidableEq, Repr

/-- What a place calls for. -/
inductive Wanted where
  | text
  | integer
  | time
  | record
  deriving DecidableEq, Repr

/-- Why a well-formed value is refused. -/
inductive Refusal where
  | wrongType (found : Found) (wanted : Wanted)
  | wrongValue (value : Int) (wanted : Wanted)
  | duplicateField (field : String)
  | time (fault : TimeFault)
  | template (fault : TemplateFault)
  deriving DecidableEq, Repr

/-- How a reading of a JSON text fails. -/
inductive Fault where
  | incomplete
  | malformed
  | refused (place : String) (why : Refusal)
  deriving DecidableEq, Repr

/-- The wording for what was found. -/
def Found.message : Found → String
  | .null => "null"
  | .boolean value => "boolean " ++ "`" ++ (if value then "true" else "false") ++ "`"
  | .integer value => "integer `" ++ String.ofList (Integer.signedDecimal value) ++ "`"
  | .floating negative size =>
    "floating point `" ++ (if negative then "-" else "") ++ String.ofList size.shown ++ "`"
  | .text value => "string " ++ Text.quoted value
  | .sequence => "sequence"
  | .map => "map"

/-- The wording for what was called for. -/
def Wanted.message : Wanted → String
  | .text => "a string"
  | .integer => "i64"
  | .time => "an RFC 3339 formatted date and time string"
  | .record => "struct MetadataRecord"

/-- The wording of a refusal. -/
def Refusal.message : Refusal → String
  | .wrongType found wanted => "invalid type: " ++ found.message ++ ", expected " ++ wanted.message
  | .wrongValue value wanted =>
    "invalid value: " ++ (Found.integer value).message ++ ", expected " ++ wanted.message
  | .duplicateField field => "duplicate field `" ++ field ++ "`"
  | .time fault => fault.message
  | .template fault => fault.message

/-- The place of the whole text. -/
def root : String := "."

/-- The fault with the place of a refusal made known. -/
def Fault.within (place : String) : Fault → Fault
  | .refused _ why => .refused place why
  | fault => fault

/-- The value read, and the rest of the text. -/
abbrev Step (α : Type) := Except Fault (α × List Char)

/-- The step with its value changed and the rest kept. -/
def mapValue {α β : Type} (f : α → β) : Step α → Step β
  | .error fault => .error fault
  | .ok (a, rest) => .ok (f a, rest)

/-- Changing the value leaves the rest as it is. -/
theorem mapValue_eq_ok_iff {α β : Type} {f : α → β} {x : Step α} {b : β} {rest : List Char} :
    mapValue f x = .ok (b, rest) ↔ ∃ a, x = .ok (a, rest) ∧ f a = b := by
  cases x with
  | error fault => simp [mapValue]
  | ok p =>
    obtain ⟨a, r⟩ := p
    simp only [mapValue, Except.ok.injEq, Prod.mk.injEq]
    constructor
    · rintro ⟨h₁, h₂⟩
      exact ⟨a, ⟨rfl, h₂⟩, h₁⟩
    · rintro ⟨a', ⟨rfl, h₂⟩, h₁⟩
      exact ⟨h₁, h₂⟩

/-- White space between tokens. -/
def isWhite (c : Char) : Bool := c == ' ' || c == '\t' || c == '\n' || c == '\r'

/-- The text without the white space it starts with. -/
def skipWhite (cs : List Char) : List Char := cs.dropWhile isWhite

theorem skipWhite_length_le (cs : List Char) : (skipWhite cs).length ≤ cs.length :=
  (List.dropWhile_suffix _).length_le

end PathPattern.Json
