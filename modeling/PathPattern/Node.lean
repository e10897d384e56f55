import PathPattern.Keyword

/-!
# Compiled templates

A template compiles to a tree. Leaves are fixed text, keywords, and addresses of directory
segments of the record's file; a compound concatenates its children and a path joins them by
slashes. `resolve` gives the path for a record and never fails: what an address does not reach
is empty. `render` shows the tree in a diagnostic and `isConstant` says whether a record can
matter.
-/

namespace PathPattern

/-- A compiled template. -/
inductive Node where
  | empty
  | literal (text : String)
  | keyword (name : String)
  /-- The directory segment at an index from zero; a negative one counts from the end. -/
  | index (i : Int64)
  /-- The directory segments from `first` up to but not including `last`. -/
  | slice (first last : Int64)
  | compound (children : List Node)
  | path (children : List Node)
  deriving Repr

instance : Inhabited Node := ⟨.empty⟩

/-! ### Addressing directory segments -/

/-- The number of segments as a 64-bit integer. -/
def segmentCount (segments : List String) : Int64 := Int64.ofNat segments.length

/-- The segment at an index, or the empty text where there is none. -/
def segmentAt (segments : List String) (i : Int64) : String :=
  let position := if i < 0 then i + segmentCount segments else i
  if position < 0 then "" else segments.getD position.toNatClampNeg ""

/-- A bound counted from the start, within the segments. -/
def clampBound (segments : List String) (bound : Int64) : Nat :=
  let shifted := if bound < 0 then bound + segmentCount segments else bound
  (max 0 (min shifted (segmentCount segments))).toNatClampNeg

/-- The segments between two bounds, joined. Bounds that meet select the segment they meet at,
and bounds in the wrong order select nothing. -/
def segmentsBetween (segments : List String) (first last : Int64) : String :=
  let a := clampBound segments first
  let b := clampBound segments last
  if a = b then segments.getD a ""
  else if a < b then joinPath ((segments.drop a).take (b - a))
  else ""

namespace Node

mutual

/-- The path that the template gives for a record. -/
def resolve (r : Record) : Node → String
  | empty => ""
  | literal text => text
  | keyword name => Keyword.resolve name r
  | index i => segmentAt (directorySegments r.file) i
  | slice first last => segmentsBetween (directorySegments r.file) first last
  | compound children => String.join (resolveAll r children)
  | path children => joinPath (resolveAll r children)

/-- The paths that the templates of a list give. -/
def resolveAll (r : Record) : List Node → List String
  | [] => []
  | node :: nodes => resolve r node :: resolveAll r nodes

end

mutual

/-- The tree as a diagnostic shows it; children of a path that show nothing are skipped. -/
def render : Node → String
  | empty => ""
  | literal text => "literal(" ++ text ++ ")"
  | keyword name => Keyword.render name
  | index i => "index(" ++ Integer.text i ++ ")"
  | slice first last => "range(" ++ Integer.text first ++ ":" ++ Integer.text last ++ ")"
  | compound children => "compound(" ++ String.join (renderAll children) ++ ")"
  | path children => "path(" ++ joinPath (renderAll children) ++ ")"

/-- The trees of a list as a diagnostic shows them. -/
def renderAll : List Node → List String
  | [] => []
  | node :: nodes => render node :: renderAll nodes

end

mutual

/-- No leaf reads the record. -/
def isConstant : Node → Bool
  | empty => true
  | literal _ => true
  | keyword name => (Keyword.field? name).isNone
  | index _ => false
  | slice _ _ => false
  | compound children => allConstant children
  | path children => allConstant children

/-- No leaf of a list of trees reads the record. -/
def allConstant : List Node → Bool
  | [] => true
  | node :: nodes => isConstant node && allConstant nodes

end

/-! ### The functions on lists, element by element -/

theorem resolveAll_eq_map (r : Record) (nodes : List Node) :
    resolveAll r nodes = nodes.map (resolve r) := by
  induction nodes with
  | nil => rfl
  | cons node nodes ih => simp [resolveAll, ih]

theorem renderAll_eq_map (nodes : List Node) : renderAll nodes = nodes.map render := by
  induction nodes with
  | nil => rfl
  | cons node nodes ih => simp [renderAll, ih]

theorem allConstant_eq_all (nodes : List Node) : allConstant nodes = nodes.all isConstant := by
  induction nodes with
  | nil => rfl
  | cons node nodes ih => simp [allConstant, ih]

/-! ### Equality -/

mutual

/-- The trees are equal, names and texts compared character by character. -/
def same : Node → Node → Bool
  | empty, empty => true
  | literal s, literal t => s == t
  | keyword s, keyword t => s == t
  | index i, index j => i == j
  | slice i j, slice k l => i == k && j == l
  | compound as, compound bs => sameAll as bs
  | path as, path bs => sameAll as bs
  | _, _ => false

/-- The lists of trees are equal. -/
def sameAll : List Node → List Node → Bool
  | [], [] => true
  | a :: as, b :: bs => same a b && sameAll as bs
  | _, _ => false

end

mutual

theorem same_iff : ∀ {a b : Node}, same a b = true ↔ a = b
  | empty, b => by cases b <;> simp [same]
  | literal s, b => by cases b <;> simp [same]
  | keyword s, b => by cases b <;> simp [same]
  | index i, b => by cases b <;> simp [same]
  | slice i j, b => by cases b <;> simp [same]
  | compound l, b => by cases b <;> simp [same, sameAll_iff (l := l)]
  | path l, b => by cases b <;> simp [same, sameAll_iff (l := l)]

theorem sameAll_iff : ∀ {l m : List Node}, sameAll l m = true ↔ l = m
  | [], m => by cases m <;> simp [sameAll]
  | a :: l, m => by cases m <;> simp [sameAll, same_iff (a := a), sameAll_iff (l := l)]

end

instance : DecidableEq Node := fun _ _ => decidable_of_iff _ same_iff

end Node

end PathPattern
