import PathPattern.Label
import PathPattern.MediaType
import PathPattern.Number.Integer
import PathPattern.Record
import PathPattern.Text.Lower

/-!
# Fields of a record that a template can name

Fourteen fields under seventeen keywords; the case of a keyword does not matter. `extract`
gives the text of a field: labels for the texts, fixed widths for the parts of the date, plain
decimal for level, year and timestamp.
-/

namespace PathPattern

open Integer (signedDecimal padded)

/-- A field that a keyword addresses. -/
inductive Field where
  | level
  | source
  | run
  | model
  | mime
  | kind
  | year
  | dayOfYear
  | month
  | day
  | hour
  | minute
  | second
  | timestamp
  deriving DecidableEq, Repr

namespace Field

/-- The keywords, in lower case, and what they address. -/
def keywords : List (String × Field) := [
  ("level", level), ("source", source), ("run", run), ("model", model), ("mime", mime),
  ("format", mime), ("type", kind), ("year", year), ("doy", dayOfYear), ("month", month),
  ("day", day), ("hour", hour), ("minute", minute), ("min", minute), ("second", second),
  ("sec", second), ("timestamp", timestamp)]

/-- The field a keyword addresses, in any mixture of upper and lower case. -/
def lookup (keyword : String) : Option Field :=
  keywords.lookup (String.ofList (Text.lowerAll keyword.toList))

/-- The text of a field. -/
def extract (field : Field) (r : Record) : String :=
  match field with
  | level => Integer.text r.level
  | source => label r.source
  | run => r.source
  | model => label r.model
  | mime => label (subtype r.mime)
  | kind => label r.kind
  | year => String.ofList (signedDecimal r.acquired.year)
  | dayOfYear => String.ofList (padded 3 (Calendar.dayOfYear r.acquired.day))
  | month => String.ofList (padded 2 (Calendar.monthOf r.acquired.day))
  | day => String.ofList (padded 2 (Calendar.dayOfMonth r.acquired.day))
  | hour => String.ofList (padded 2 r.acquired.hour)
  | minute => String.ofList (padded 2 r.acquired.minute)
  | second => String.ofList (padded 2 r.acquired.secondOfMinute)
  | timestamp => String.ofList (signedDecimal r.acquired.second)

end Field

end PathPattern
