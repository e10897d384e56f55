import PathPattern.Proofs.Node.Selection
import PathPattern.Template.Reading

/-!
# Spellings of paths

Slashes in front of a path do not count, nor do slashes behind a directory past the first one. A
`Spelling` is a path written out with any number of them: its directories are read off whatever the
numbers are (`Spelling.directorySegments_path`), and every path is one (`Spelling.exists_path_eq`).
A slice of everything writes the directories with single slashes, so it is read to the same
directories again.
-/

namespace PathPattern

open Integer (maxSigned)
open Text (pieces pieces_append_cons pieces_of_not_mem)

variable {name segment : String} {segments : List String}

/-! ### Reading a path from its front and from its end -/

/-- So many slashes. -/
def slashes (n : Nat) : String := String.ofList (List.replicate n '/')

theorem slashes_succ_append (n : Nat) (path : String) :
    slashes (n + 1) ++ path = "/" ++ (slashes n ++ path) := by
  rw [← String.toList_inj]
  simp [slashes, List.replicate_succ]

theorem dropLast_append_pieces (parts : List (List Char)) (cs : List Char) :
    (parts ++ pieces '/' cs).dropLast = parts ++ (pieces '/' cs).dropLast :=
  List.dropLast_append_of_ne_nil (Text.pieces_ne_nil '/' cs)

/-- Slashes in front do not count. -/
theorem directorySegments_slashes_append (n : Nat) (path : String) :
    directorySegments (slashes n ++ path) = directorySegments path := by
  have chars : (slashes n ++ path).toList = List.replicate n '/' ++ path.toList := by simp [slashes]
  rw [directorySegments, chars, Text.pieces_replicate_append, dropLast_append_pieces,
    List.filter_append, List.filter_replicate_of_neg (by simp)]
  rfl

/-- What stands before the first slash is the first directory. -/
theorem directorySegments_cons (nonempty : segment ≠ "") (free : '/' ∉ segment.toList)
    (path : String) :
    directorySegments (segment ++ "/" ++ path) = segment :: directorySegments path := by
  have some := mt String.toList_eq_nil_iff.1 nonempty
  have chars : (segment ++ "/" ++ path).toList = segment.toList ++ '/' :: path.toList := by simp
  rw [directorySegments, chars, pieces_append_cons, pieces_of_not_mem free, dropLast_append_pieces,
    List.filter_append, List.filter_cons_of_pos (by simpa using some), List.filter_nil,
    List.singleton_append, List.map_cons, String.ofList_toList]
  rfl

/-- What stands behind the last slash is the name, and the directories are before it. -/
theorem directorySegments_concat (free : '/' ∉ name.toList) (dir : String) :
    directorySegments (dir ++ "/" ++ name) =
      (((dir.toList.dropWhile (· == '/')).splitOn '/').filter (· ≠ [])).map String.ofList := by
  have front : ∀ c ∈ dir.toList.takeWhile (· == '/'), c = '/' := by
    intro c mem
    simpa using List.mem_takeWhile_imp mem
  have slashes := List.eq_replicate_iff.2 ⟨rfl, front⟩
  have chars : (dir ++ "/" ++ name).toList = dir.toList ++ '/' :: name.toList := by simp
  rw [directorySegments, chars, pieces_append_cons, pieces_of_not_mem free, List.dropLast_concat,
    ← Text.pieces_eq_splitOn]
  conv_lhs => rw [← List.takeWhile_append_dropWhile (p := (· == '/')) (l := dir.toList), slashes]
  rw [Text.pieces_replicate_append, List.filter_append, List.filter_replicate_of_neg (by simp)]
  rfl

/-! ### Spellings -/

/-- A path written out: slashes in front, directories with slashes behind each, and a name. -/
structure Spelling where
  leading : Nat
  /-- The directories, each with the number of slashes behind it past the first. -/
  steps : List (String × Nat)
  name : String
  directory_ne_empty : ∀ step ∈ steps, step.1 ≠ ""
  slash_not_mem_directory : ∀ step ∈ steps, '/' ∉ step.1.toList
  slash_not_mem_name : '/' ∉ name.toList

namespace Spelling

/-- The directories with their slashes, and the name. -/
def body (steps : List (String × Nat)) (name : String) : String :=
  steps.foldr (fun step rest => step.1 ++ "/" ++ (slashes step.2 ++ rest)) name

/-- The path that is written out. -/
def path (s : Spelling) : String := slashes s.leading ++ body s.steps s.name

/-- The directories, from the first to the last. -/
def directories (s : Spelling) : List String := s.steps.map Prod.fst

/-- A path is read to the directories that it spells. -/
theorem directorySegments_path (s : Spelling) : directorySegments s.path = s.directories := by
  obtain ⟨leading, steps, name, nonempty, free, nameFree⟩ := s
  rw [path, directories, directorySegments_slashes_append]
  induction steps with
  | nil => exact directorySegments_of_not_mem nameFree
  | cons step steps ih =>
    obtain ⟨first, nonempty⟩ := List.forall_mem_cons.1 nonempty
    obtain ⟨firstFree, free⟩ := List.forall_mem_cons.1 free
    rw [body, List.foldr_cons, directorySegments_cons first firstFree,
      directorySegments_slashes_append, List.map_cons]
    exact congrArg _ (ih nonempty free)

/-- One more slash in front. -/
def slash (s : Spelling) : Spelling := { s with leading := s.leading + 1 }

theorem path_slash (s : Spelling) : s.slash.path = "/" ++ s.path :=
  slashes_succ_append s.leading _

/-- One more directory in front; the slashes that were there stand behind it. -/
def enter (s : Spelling) (segment : String) (nonempty : segment ≠ "")
    (free : '/' ∉ segment.toList) : Spelling where
  leading := 0
  steps := (segment, s.leading) :: s.steps
  name := s.name
  directory_ne_empty := List.forall_mem_cons.2 ⟨nonempty, s.directory_ne_empty⟩
  slash_not_mem_directory := List.forall_mem_cons.2 ⟨free, s.slash_not_mem_directory⟩
  slash_not_mem_name := s.slash_not_mem_name

theorem path_enter (s : Spelling) (nonempty : segment ≠ "") (free : '/' ∉ segment.toList) :
    (s.enter segment nonempty free).path = segment ++ "/" ++ s.path :=
  String.empty_append

/-- Every path is spelled in some way, as what follows its first slash is. -/
theorem exists_path_eq (path : String) : ∃ s : Spelling, s.path = path := by
  by_cases mem : '/' ∈ path.toList
  · obtain ⟨before, after, split, free⟩ := Text.exists_first_of_mem mem
    have shorter : (String.ofList after).toList.length < path.toList.length := by
      simp only [split, String.toList_ofList, List.length_append, List.length_cons]
      omega
    have whole : path = String.ofList before ++ "/" ++ String.ofList after := by
      rw [← String.toList_inj, split]
      simp
    obtain ⟨s, spells⟩ := exists_path_eq (String.ofList after)
    rw [whole, ← spells]
    by_cases nothing : before = []
    · refine ⟨s.slash, ?_⟩
      rw [path_slash, nothing, String.ofList_nil, String.empty_append]
    · have nonempty := mt String.ofList_eq_empty_iff.1 nothing
      exact ⟨s.enter (String.ofList before) nonempty (by simpa using free), path_enter s _ _⟩
  · exact ⟨⟨0, [], path, by simp, by simp, mem⟩, String.empty_append⟩
termination_by path.toList.length

end Spelling

/-! ### The slice of everything -/

/-- Directories with single slashes between them are read back, whatever the name is. -/
theorem directorySegments_intercalate_append (nonempty : ∀ segment ∈ segments, segment ≠ "")
    (free : ∀ segment ∈ segments, '/' ∉ segment.toList) (nameFree : '/' ∉ name.toList) :
    directorySegments ("/".intercalate segments ++ "/" ++ name) = segments := by
  have last := directorySegments_of_not_mem nameFree
  induction segments with
  | nil =>
    rw [String.intercalate_nil, String.empty_append]
    exact (directorySegments_slashes_append 1 name).trans last
  | cons segment segments ih =>
    obtain ⟨first, nonempty⟩ := List.forall_mem_cons.1 nonempty
    obtain ⟨firstFree, free⟩ := List.forall_mem_cons.1 free
    cases segments with
    | nil => rw [String.intercalate_singleton, directorySegments_cons first firstFree, last]
    | cons next segments =>
      have step := ih nonempty free
      rw [String.intercalate_cons_cons, String.append_assoc, String.append_assoc,
        directorySegments_cons first firstFree, ← String.append_assoc, step]

theorem segmentsBetween_all (directories : ∀ segment ∈ segments, segment ≠ "")
    (few : segments.length ≤ maxSigned) :
    segmentsBetween segments 0 Int64.maxValue = "/".intercalate segments := by
  have selects := selectsExactly directories few
  have begin : Address.bound segments.length (0 : Int64).toInt = 0 := by
    have zero : (0 : Int64).toInt = 0 := rfl
    rw [zero]
    unfold Address.bound Address.position
    omega
  have finish : Address.bound segments.length Int64.maxValue.toInt = segments.length := by
    rw [Int64.toInt_maxValue]
    unfold Address.bound Address.position
    unfold maxSigned at few
    omega
  by_cases none : segments = []
  · subst none
    exact selects.meetingAtEnd _ _ begin finish
  · have count := List.length_pos_iff.2 none
    rw [selects.ordered _ _ (by omega), begin, finish]
    simp

/-- The path of all directories, with a name behind it, is read to the same directories. -/
theorem directorySegments_resolve_all {r : Record}
    (few : (directorySegments r.file).length ≤ maxSigned) :
    directorySegments ((Node.path [.slice 0 Int64.maxValue]).resolve r ++ "/x") =
      directorySegments r.file := by
  have directories : ∀ segment ∈ directorySegments r.file, segment ≠ "" := fun _ =>
    ne_empty_of_mem_directorySegments
  have resolves : (Node.path [.slice 0 Int64.maxValue]).resolve r =
      "/".intercalate (directorySegments r.file) := by
    simp only [Node.resolve, Node.resolveAll, joinPath_cons, joinPath_nil, glue_empty_right,
      segmentsBetween_all directories few]
  have file : "/x" = "/" ++ "x" := by decide
  rw [resolves, file, ← String.append_assoc]
  exact directorySegments_intercalate_append directories
    (fun _ => slash_not_mem_of_mem_directorySegments) (by decide)

/-- The directories of a file are what stands between its slashes, less what is behind the last one
and less what is empty. They are read off every spelling of the path, and every path has one. The
template that slices them all gives a path to the same directories. -/
theorem directorySegments_of_spelling :
    (∀ path : String,
      directorySegments path =
        ((path.toList.splitOn '/').dropLast.filter (· ≠ [])).map String.ofList ∧
      ∀ segment ∈ directorySegments path, segment ≠ "" ∧ '/' ∉ segment.toList) ∧
    (∀ dir name : String, '/' ∉ name.toList →
      directorySegments (dir ++ "/" ++ name) =
        (((dir.toList.dropWhile (· == '/')).splitOn '/').filter (· ≠ [])).map String.ofList) ∧
    (∀ s : Spelling, directorySegments s.path = s.directories) ∧
    (∀ path, ∃ s : Spelling, s.path = path) ∧
    ∃ tree, Template.compile "{0:9223372036854775807}" = .ok tree ∧
      ∀ r : Record, (directorySegments r.file).length ≤ maxSigned →
        directorySegments (tree.resolve r ++ "/x") = directorySegments r.file := by
  have compiles : Template.compile "{0:9223372036854775807}" =
      .ok (.path [.slice 0 Int64.maxValue]) := by decide +kernel
  refine ⟨fun path => ⟨?_, fun segment mem => ?_⟩, fun dir name free =>
    directorySegments_concat free dir, Spelling.directorySegments_path, Spelling.exists_path_eq,
    _, compiles, fun r few => directorySegments_resolve_all few⟩
  · rw [← Text.pieces_eq_splitOn]
    rfl
  · exact ⟨ne_empty_of_mem_directorySegments mem, slash_not_mem_of_mem_directorySegments mem⟩

end PathPattern
