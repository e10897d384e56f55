import PathPattern.Proofs.Keyword.LetterCase
import PathPattern.Proofs.Node.Leaves

/-!
# Trees that differ in the case of names

A tree with its names in lower case keeps its shape, its texts and its addresses. It gives the same
path for every record and is constant if the tree is, so that trees with one lower case between them
cannot be told apart by what they give.
-/

namespace PathPattern.Node

variable {tree tree' : Node}

mutual

/-- The tree with the ASCII letters of its names in lower case. -/
def lowered : Node → Node
  | empty => empty
  | literal text => literal text
  | keyword name => keyword name.toLower
  | index i => index i
  | slice first last => slice first last
  | compound children => compound (loweredAll children)
  | path children => path (loweredAll children)

/-- The trees of a list with the ASCII letters of their names in lower case. -/
def loweredAll : List Node → List Node
  | [] => []
  | node :: nodes => lowered node :: loweredAll nodes

end

theorem loweredAll_eq_map (nodes : List Node) : loweredAll nodes = nodes.map lowered := by
  induction nodes with
  | nil => rfl
  | cons node nodes ih => rw [loweredAll, ih, List.map_cons]

theorem lowered_tree (j : Joint) (children : List Node) :
    (j.tree children).lowered = j.tree (children.map lowered) := by
  rw [← loweredAll_eq_map]
  cases j with
  | compound | path => rfl

theorem resolve_lowered (r : Record) (tree : Node) : tree.lowered.resolve r = tree.resolve r := by
  induction tree using leaves_induction with
  | atom node atom =>
    cases atom with
    | keyword name => exact Keyword.resolve_toLower name r
    | empty | literal | index | slice => rfl
  | joined j children ih =>
    have each : (children.map lowered).map (resolve r) = children.map (resolve r) := by
      rw [List.map_map]
      exact List.map_congr_left ih
    rw [lowered_tree, j.resolve_tree, each, ← j.resolve_tree]

theorem isConstant_lowered (tree : Node) : tree.lowered.isConstant = tree.isConstant := by
  induction tree using leaves_induction with
  | atom node atom =>
    cases atom with
    | keyword name => exact congrArg Option.isNone (Keyword.field?_toLower name)
    | empty | literal | index | slice => rfl
  | joined j children ih =>
    rw [lowered_tree, j.isConstant_tree, j.isConstant_tree, List.all_map, Bool.eq_iff_iff,
      List.all_eq_true, List.all_eq_true]
    exact forall₂_congr fun child mem => iff_of_eq (congrArg (· = true) (ih child mem))

end PathPattern.Node
