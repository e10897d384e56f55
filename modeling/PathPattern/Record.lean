import PathPattern.Time.Instant

/-!
# Metadata records

What is known about one ingested file. Every field has a default, so a sparse description is a
record too: empty texts, level zero, the start of 1970.
-/

namespace PathPattern

/-- The description of one ingested file. -/
structure Record where
  source : String
  model : String
  /-- The media type, `type/subtype` with parameters after `;`. -/
  mime : String
  /-- The product type. -/
  kind : String
  /-- The processing level. -/
  level : Int64
  /-- When the data were acquired. -/
  acquired : Instant
  /-- The path of the file as it was ingested. -/
  file : String
  deriving DecidableEq, Repr

namespace Record

/-- The record of which nothing is known. -/
def blank : Record := ⟨"", "", "", "", 0, .epoch, ""⟩

instance : Inhabited Record := ⟨blank⟩

/-- The record with its time settled. -/
def settled (r : Record) : Record := { r with acquired := r.acquired.settled }

theorem settled_eq_self_iff {r : Record} : r.settled = r ↔ r.acquired.IsSettled := by
  rw [← Instant.settled_eq_self_iff]
  exact ⟨congrArg acquired, fun same => congrArg (fun t => { r with acquired := t }) same⟩

end Record

end PathPattern
