import PathPattern.Text.Pieces

/-!
# Slash-separated paths

`directorySegments` lists the directories on the way to a file: the pieces of the path before
its last slash, empty ones dropped. `glue` joins two paths by a slash unless one of them is
empty, and `joinPath` glues a list; empty paths are its units and leave no trace.
-/

namespace PathPattern

open Text (pieces)

/-- The directories on the way to a file; none for a bare name or a file at the root. -/
def directorySegments (path : String) : List String :=
  ((pieces '/' path.toList).dropLast.filter (· ≠ [])).map String.ofList

/-- Two paths with a slash between them, or the other one where one is empty. -/
def glue (a b : String) : String :=
  if a = "" then b else if b = "" then a else a ++ "/" ++ b

/-- The paths with slashes between them, the empty ones skipped. -/
def joinPath (paths : List String) : String := paths.foldr glue ""

theorem glue_empty_left (a : String) : glue "" a = a := by simp [glue]

theorem glue_empty_right (a : String) : glue a "" = a := by
  by_cases h : a = "" <;> simp [glue, h]

/-- A glued path is empty only if both parts are. -/
theorem glue_eq_empty_iff {a b : String} : glue a b = "" ↔ a = "" ∧ b = "" := by
  by_cases ha : a = "" <;> by_cases hb : b = "" <;> simp [glue, ha, hb]

theorem glue_assoc (a b c : String) : glue (glue a b) c = glue a (glue b c) := by
  by_cases ha : a = ""
  · simp [ha, glue_empty_left]
  by_cases hb : b = ""
  · simp [hb, glue_empty_left, glue_empty_right]
  by_cases hc : c = ""
  · simp [hc, glue_empty_right]
  simp [glue, ha, hb, hc, String.append_assoc]

theorem joinPath_nil : joinPath [] = "" := rfl

theorem joinPath_cons (a : String) (as : List String) :
    joinPath (a :: as) = glue a (joinPath as) := rfl

theorem joinPath_append (as bs : List String) :
    joinPath (as ++ bs) = glue (joinPath as) (joinPath bs) := by
  induction as with
  | nil => simp [joinPath_nil, glue_empty_left]
  | cons a as ih => simp [joinPath_cons, ih, glue_assoc]

end PathPattern
