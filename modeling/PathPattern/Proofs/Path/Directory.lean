import PathPattern.Path
import PathPattern.Proofs.Text.Cut

/-!
# The directories on the way to a file

Every directory of a path is a text without slashes, and not empty. The name of the file, behind
the last slash, does not count (`directorySegments_append_name`), so a path without slashes has no
directories.
-/

namespace PathPattern

open Text (pieces pieces_append_cons pieces_of_not_mem)

variable {path dir name segment : String}

theorem mem_directorySegments_iff :
    segment ∈ directorySegments path ↔
      segment.toList ∈ (pieces '/' path.toList).dropLast ∧ segment ≠ "" := by
  constructor
  · intro mem
    obtain ⟨cs, kept, rfl⟩ := List.mem_map.1 mem
    obtain ⟨piece, nonempty⟩ := List.mem_filter.1 kept
    have some : cs ≠ [] := by simpa using nonempty
    exact ⟨by rwa [String.toList_ofList], mt String.ofList_eq_empty_iff.1 some⟩
  · rintro ⟨piece, nonempty⟩
    have some := mt String.toList_eq_nil_iff.1 nonempty
    refine List.mem_map.2 ⟨segment.toList, List.mem_filter.2 ⟨piece, ?_⟩, String.ofList_toList⟩
    exact decide_eq_true some

theorem slash_not_mem_of_mem_directorySegments (mem : segment ∈ directorySegments path) :
    '/' ∉ segment.toList := by
  have piece := List.dropLast_subset _ (mem_directorySegments_iff.1 mem).1
  exact Text.not_mem_of_mem_pieces piece

theorem ne_empty_of_mem_directorySegments (mem : segment ∈ directorySegments path) :
    segment ≠ "" :=
  (mem_directorySegments_iff.1 mem).2

theorem directorySegments_of_not_mem (free : '/' ∉ path.toList) : directorySegments path = [] := by
  rw [directorySegments, pieces_of_not_mem free]
  rfl

/-- Behind the last slash, nothing of a path counts. -/
theorem directorySegments_append_name (ends : dir = "" ∨ dir.toList.getLast? = some '/')
    (free : '/' ∉ name.toList) : directorySegments (dir ++ name) = directorySegments dir := by
  rcases ends with rfl | ends
  · rw [String.empty_append, directorySegments_of_not_mem free]
    rfl
  · obtain ⟨front, split⟩ := List.getLast?_eq_some_iff.1 ends
    have whole : (dir ++ name).toList = front ++ '/' :: name.toList := by simp [split]
    have alone : pieces '/' dir.toList = pieces '/' front ++ [[]] := by
      rw [split]
      exact pieces_append_cons front []
    rw [directorySegments, directorySegments, whole, pieces_append_cons, pieces_of_not_mem free,
      alone, List.dropLast_concat, List.dropLast_concat]

/-- Paths that are not empty are joined with single slashes between them. -/
theorem joinPath_eq_intercalate {paths : List String} (some : ∀ path ∈ paths, path ≠ "") :
    joinPath paths = "/".intercalate paths := by
  induction paths with
  | nil => rfl
  | cons path paths ih =>
    obtain ⟨first, more⟩ := List.forall_mem_cons.1 some
    rw [joinPath_cons, ih more]
    cases paths with
    | nil => simp [glue_empty_right]
    | cons next paths =>
      have rest : "/".intercalate (next :: paths) ≠ "" := by
        rw [← ih more, joinPath_cons, Ne, glue_eq_empty_iff]
        exact fun both => more next (by simp) both.1
      rw [glue, if_neg first, if_neg rest, String.intercalate_cons_cons]

end PathPattern
