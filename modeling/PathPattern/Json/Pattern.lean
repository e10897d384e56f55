import PathPattern.Json.Record
import PathPattern.Pattern

/-!
# Patterns in JSON

A pattern is the JSON string of its template. The template has to compile, and nothing but
white space may follow the string.
-/

namespace PathPattern.Json

/-- The pattern of a text. -/
def decodePattern (text : String) : Except Fault Pattern :=
  match readText text.toList with
  | .error fault => .error fault
  | .ok (template, rest) =>
    match Pattern.ofTemplate template with
    | .error fault => .error (.refused root (.template fault))
    | .ok pattern => if skipWhite rest = [] then .ok pattern else .error .malformed

/-- The text of a pattern. -/
def encodePattern (p : Pattern) : String := String.ofList (string p.template.toList)

end PathPattern.Json
