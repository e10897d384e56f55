import PathPattern.Text.Pieces

/-!
# Files by path

A run of the program sees a disk only by what each path leads to: nothing, a directory, or a file
with or without a text in it. `Folder` is a working directory given as a list of its files; paths
into it may hold empty steps, single dots and steps upwards.
-/

namespace PathPattern.CommandLine

open Text (pieces)

/-- What a path leads to. -/
inductive Entry where
  | missing
  /-- A directory, or a file that does not open. -/
  | directory
  /-- A file that is no UTF-8 text. -/
  | binary
  | text (content : String)
  deriving DecidableEq, Repr

/-- The steps of a path, without those that stay in place. -/
def steps (path : String) : List (List Char) :=
  (pieces '/' path.toList).filter fun step => step ≠ [] ∧ step ≠ ['.']

/-- A path ends in a directory by its form: nothing or a dot comes after its last slash. -/
def endsInDirectory (path : String) : Bool :=
  match (pieces '/' path.toList).getLast? with
  | some step => step = [] ∨ step = ['.']
  | none => false

/-- The step to the directory above. -/
def upwards : List Char := ['.', '.']

/-- The files of a working directory by their paths; a directory may be among them. -/
abbrev Folder := List (String × Entry)

namespace Folder

/-- What stands at a place below the working directory; the way to a file leads through
directories. -/
def entryAt (folder : Folder) (place : List (List Char)) : Entry :=
  if place = [] then .directory
  else
    match List.find? (fun (name, _) => steps name = place) folder with
    | some (_, entry) => entry
    | none =>
      if folder.any fun (name, _) => place.isPrefixOf (steps name) then .directory else .missing

/-- What steps lead to from a place. Only a directory is a place to go on from, and outside the
working directory only the directories above it are known. -/
def walk (folder : Folder) : List (List Char) → List (List Char) → Entry
  | place, [] => folder.entryAt place
  | place, step :: rest =>
    if folder.entryAt place ≠ .directory then .missing
    else if step ≠ upwards then folder.walk (place ++ [step]) rest
    else if place ≠ [] then folder.walk place.dropLast rest
    else if rest.all (· = upwards) then .directory
    else .missing

/-- What a path leads to from the working directory. A path that ends in a directory by its form
leads to no file, and an absolute path does not lead into the working directory. -/
def find (folder : Folder) (path : String) : Entry :=
  if path.toList.head? = some '/' then if steps path = [] then .directory else .missing
  else
    let entry := folder.walk [] (steps path)
    if entry ≠ .directory ∧ endsInDirectory path then .missing else entry

end Folder

end PathPattern.CommandLine
