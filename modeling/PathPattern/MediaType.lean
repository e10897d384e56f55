import PathPattern.Text.Pieces

/-!
# Media types

A media type is `type/subtype`, with parameters after the first semicolon. The subtype starts
after the first slash, unless nothing follows the slash: then the slash belongs to it.
-/

namespace PathPattern

open Text (cutAt)

/-- What follows the first slash, or all of it where nothing does. -/
def afterType (mime : List Char) : List Char :=
  match (cutAt '/' mime).2 with
  | some (c :: cs) => c :: cs
  | _ => mime

/-- The subtype of a media type, without parameters. -/
def subtype (mime : String) : String :=
  String.ofList (cutAt ';' (afterType mime.toList)).1

end PathPattern
