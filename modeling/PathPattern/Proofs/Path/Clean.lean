import PathPattern.Path
import PathPattern.Proofs.Text.Cut

/-!
# Clean paths

A path is clean if it is made of parts that are not empty, with single slashes between them. Clean
paths stay clean when they are put side by side, where the two parts that meet become one, and when
they are glued. A clean path neither starts nor ends with a slash and has no two of them in a row.
-/

namespace PathPattern

open Text (pieces pieces_append_cons)

variable {a b path : String} {paths : List String}

/-- The text is made of these parts, none of them empty, with slashes between them. -/
structure MadeOf (path : String) (parts : List (List Char)) : Prop where
  nonempty : ∀ part ∈ parts, part ≠ []
  free : ∀ part ∈ parts, '/' ∉ part
  joined : path.toList = ['/'].intercalate parts

/-- The path has no empty parts. -/
def IsClean (path : String) : Prop := ∃ parts, MadeOf path parts

/-- Clean are the empty path and those with no empty piece. -/
theorem isClean_iff : IsClean path ↔ path = "" ∨ ∀ piece ∈ pieces '/' path.toList, piece ≠ [] := by
  constructor
  · rintro ⟨parts, nonempty, free, joined⟩
    by_cases none : parts = []
    · rw [none] at joined
      exact .inl (String.toList_eq_nil_iff.1 joined)
    · rw [joined, Text.pieces_intercalate free none]
      exact .inr nonempty
  · rintro (rfl | nonempty)
    · exact ⟨[], by simp, by simp, rfl⟩
    · exact ⟨_, nonempty, fun _ => Text.not_mem_of_mem_pieces,
        (Text.intercalate_pieces '/' path.toList).symm⟩

theorem isClean_empty : IsClean "" := isClean_iff.2 (.inl rfl)

/-- A text without slashes is one part, or none. -/
theorem isClean_of_not_mem (free : '/' ∉ path.toList) : IsClean path := by
  by_cases empty : path = ""
  · exact isClean_iff.2 (.inl empty)
  · have some := mt String.toList_eq_nil_iff.1 empty
    rw [isClean_iff, Text.pieces_of_not_mem free]
    exact .inr (by simpa using some)

namespace IsClean

theorem nonempty_of_mem_pieces (h : IsClean path) (some : path ≠ "") :
    ∀ piece ∈ pieces '/' path.toList, piece ≠ [] :=
  (isClean_iff.1 h).resolve_left some

theorem append (ha : IsClean a) (hb : IsClean b) : IsClean (a ++ b) := by
  by_cases noneA : a = ""
  · rwa [noneA, String.empty_append]
  by_cases noneB : b = ""
  · rwa [noneB, String.append_empty]
  have partsA := ha.nonempty_of_mem_pieces noneA
  have partsB := hb.nonempty_of_mem_pieces noneB
  obtain ⟨front, p, q, back, splitA, splitB, split⟩ :=
    Text.exists_pieces_append_append '/' a.toList b.toList
  rw [splitA, List.forall_mem_append, List.forall_mem_singleton] at partsA
  rw [splitB, List.forall_mem_cons] at partsB
  rw [isClean_iff, String.toList_append, split, List.forall_mem_append, List.forall_mem_cons]
  exact .inr ⟨partsA.1, by simp [partsA.2], partsB.2⟩

theorem glue (ha : IsClean a) (hb : IsClean b) : IsClean (glue a b) := by
  unfold PathPattern.glue
  split
  · exact hb
  next noneA =>
  split
  · exact ha
  next noneB =>
  have chars : (a ++ "/" ++ b).toList = a.toList ++ '/' :: b.toList := by simp
  rw [isClean_iff, chars, pieces_append_cons, List.forall_mem_append]
  exact .inr ⟨ha.nonempty_of_mem_pieces noneA, hb.nonempty_of_mem_pieces noneB⟩

end IsClean

theorem isClean_joinPath (h : ∀ path ∈ paths, IsClean path) : IsClean (joinPath paths) :=
  List.foldrRecOn _ _ isClean_empty fun _ rest path mem => (h path mem).glue rest

/-! ### Slashes in clean paths -/

namespace IsClean

theorem head?_ne_slash (h : IsClean path) : path.toList.head? ≠ some '/' := by
  intro first
  have some : path ≠ "" := by
    rintro rfl
    cases first
  obtain ⟨-, empty⟩ := Text.head?_eq_sep_iff.1 first
  exact h.nonempty_of_mem_pieces some [] (List.mem_of_head? empty) rfl

theorem getLast?_ne_slash (h : IsClean path) : path.toList.getLast? ≠ some '/' := by
  intro last
  have some : path ≠ "" := by
    rintro rfl
    cases last
  obtain ⟨-, empty⟩ := Text.getLast?_eq_sep_iff.1 last
  exact h.nonempty_of_mem_pieces some [] (List.mem_of_getLast? empty) rfl

theorem not_double_slash (h : IsClean path) : ¬['/', '/'] <:+: path.toList := by
  rintro ⟨before, after, same⟩
  have some : path ≠ "" := by
    rintro rfl
    simp at same
  have split : pieces '/' path.toList = pieces '/' before ++ [] :: pieces '/' after := by
    rw [← same, List.append_assoc]
    simp only [List.cons_append, List.nil_append, pieces_append_cons, Text.pieces_cons_self]
  exact h.nonempty_of_mem_pieces some [] (by simp [split]) rfl

end IsClean

end PathPattern
