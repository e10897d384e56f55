import Mathlib.Algebra.GroupWithZero.Nat
import PathPattern.Node

/-!
# Leaves of a tree

Compounds and paths only put together what their leaves give, and slashes between. They do so under
the same laws (`Joint`): what is empty leaves no trace, and it does not matter which neighbours are
put together first. `leaves` lists the leaves of a tree from left to right. The path of a tree depends
on the paths of its leaves alone (`resolve_congr`), keeps what they have in common
(`resolve_of_leaves`), and holds every character but the slash as often as they do (`count_resolve`).
-/

namespace PathPattern.Node

variable {children : List Node}

mutual

/-- The leaves of a tree, from left to right. -/
def leaves : Node → List Node
  | empty => [empty]
  | literal text => [literal text]
  | keyword name => [keyword name]
  | index i => [index i]
  | slice first last => [slice first last]
  | compound children => leavesAll children
  | path children => leavesAll children

/-- The leaves of a list of trees. -/
def leavesAll : List Node → List Node
  | [] => []
  | node :: nodes => leaves node ++ leavesAll nodes

end

/-- What is true of the leaves of a list of trees is true of the leaves of each of them. -/
theorem forall_mem_leavesAll {P : Node → Prop} :
    (∀ leaf ∈ leavesAll children, P leaf) ↔
      ∀ child ∈ children, ∀ leaf ∈ child.leaves, P leaf := by
  induction children with
  | nil => simp [leavesAll]
  | cons child children ih =>
    rw [leavesAll, List.forall_mem_append, ih, List.forall_mem_cons]

/-! ### Putting children together -/

theorem join_eq_foldr (texts : List String) : String.join texts = texts.foldr (· ++ ·) "" := by
  induction texts with
  | nil => simp
  | cons text texts ih => rw [String.join_cons, ih, List.foldr_cons]

/-- A kind of tree that puts children together. -/
inductive Joint where
  | compound
  | path

namespace Joint

/-- The tree of this kind with these children. -/
def tree : Joint → List Node → Node
  | compound => Node.compound
  | path => Node.path

/-- Two texts put together, side by side or with a slash between them. -/
def put : Joint → String → String → String
  | compound => (· ++ ·)
  | path => glue

variable (j : Joint) (r : Record)

theorem put_empty_left (s : String) : j.put "" s = s := by
  cases j with
  | compound => exact String.empty_append
  | path => exact glue_empty_left s

theorem put_empty_right (s : String) : j.put s "" = s := by
  cases j with
  | compound => exact String.append_empty
  | path => exact glue_empty_right s

theorem put_assoc (s t u : String) : j.put (j.put s t) u = j.put s (j.put t u) := by
  cases j with
  | compound => exact String.append_assoc
  | path => exact glue_assoc s t u

theorem leaves_tree (children : List Node) : (j.tree children).leaves = leavesAll children := by
  cases j with
  | compound | path => rfl

theorem isConstant_tree (children : List Node) :
    (j.tree children).isConstant = children.all isConstant := by
  cases j with
  | compound | path => exact allConstant_eq_all children

theorem resolve_tree (children : List Node) :
    (j.tree children).resolve r = (children.map (resolve r)).foldr j.put "" := by
  rw [← resolveAll_eq_map]
  cases j with
  | compound => exact join_eq_foldr _
  | path => rfl

theorem resolve_tree_nil : (j.tree []).resolve r = "" := resolve_tree j r []

theorem resolve_tree_cons (child : Node) (children : List Node) :
    (j.tree (child :: children)).resolve r =
      j.put (child.resolve r) ((j.tree children).resolve r) := by
  rw [resolve_tree, resolve_tree, List.map_cons, List.foldr_cons]

/-- The children of two rows are put together as the two rows are. -/
theorem resolve_tree_append (front back : List Node) :
    (j.tree (front ++ back)).resolve r =
      j.put ((j.tree front).resolve r) ((j.tree back).resolve r) := by
  induction front with
  | nil => rw [List.nil_append, resolve_tree_nil, put_empty_left]
  | cons child front ih =>
    rw [List.cons_append, resolve_tree_cons, ih, resolve_tree_cons, put_assoc]

end Joint

/-! ### Single leaves -/

variable {r r' : Record} {node tree : Node}

/-- The tree is a single leaf. -/
inductive IsAtom : Node → Prop where
  | empty : IsAtom empty
  | literal (text : String) : IsAtom (literal text)
  | keyword (name : String) : IsAtom (keyword name)
  | index (i : Int64) : IsAtom (index i)
  | slice (first last : Int64) : IsAtom (slice first last)

theorem IsAtom.leaves_eq (h : IsAtom node) : node.leaves = [node] := by
  cases h <;> rfl

/-- What holds of leaves, and of a tree that puts children together as soon as it holds of all of
them, holds of every tree. -/
@[elab_as_elim]
theorem leaves_induction {motive : Node → Prop}
    (atom : ∀ node, IsAtom node → motive node)
    (joined : ∀ (j : Joint) children, (∀ child ∈ children, motive child) → motive (j.tree children))
    (tree : Node) : motive tree :=
  @Node.rec motive (fun children => ∀ child ∈ children, motive child)
    (atom _ .empty) (fun text => atom _ (.literal text)) (fun name => atom _ (.keyword name))
    (fun i => atom _ (.index i)) (fun first last => atom _ (.slice first last))
    (joined .compound) (joined .path)
    (by simp) (fun _ _ first more => List.forall_mem_cons.2 ⟨first, more⟩) tree

theorem isAtom_of_mem_leaves (tree : Node) : ∀ leaf ∈ tree.leaves, IsAtom leaf := by
  induction tree using leaves_induction with
  | atom node atom => simpa [atom.leaves_eq] using atom
  | joined j children ih =>
    rw [j.leaves_tree]
    exact forall_mem_leavesAll.2 ih

/-! ### Paths and their leaves -/

theorem resolve_compound (r : Record) (children : List Node) :
    resolve r (compound children) = String.join (children.map (resolve r)) := by
  rw [resolve, resolveAll_eq_map]

theorem resolve_path (r : Record) (children : List Node) :
    resolve r (path children) = joinPath (children.map (resolve r)) := by
  rw [resolve, resolveAll_eq_map]

/-- Records that give the same for every leaf give the same for the tree. -/
theorem resolve_congr (same : ∀ leaf ∈ tree.leaves, leaf.resolve r = leaf.resolve r') :
    tree.resolve r = tree.resolve r' := by
  induction tree using leaves_induction with
  | atom node atom => exact same node (by simp [atom.leaves_eq])
  | joined j children ih =>
    rw [j.leaves_tree, forall_mem_leavesAll] at same
    have each : children.map (resolve r) = children.map (resolve r') :=
      List.map_congr_left fun child mem => ih child mem (same child mem)
    rw [j.resolve_tree, each, ← j.resolve_tree]

/-- What is true of the empty text, and of two texts put together in either way as soon as it is
true of both, is true of a path as soon as it is true of what the leaves give. -/
theorem resolve_of_leaves {P : String → Prop} (nothing : P "")
    (append : ∀ a b, P a → P b → P (a ++ b)) (glued : ∀ a b, P a → P b → P (glue a b))
    (h : ∀ leaf ∈ tree.leaves, P (leaf.resolve r)) : P (tree.resolve r) := by
  induction tree using leaves_induction with
  | atom node atom => exact h node (by simp [atom.leaves_eq])
  | joined j children ih =>
    rw [j.leaves_tree, forall_mem_leavesAll] at h
    have each : ∀ text ∈ children.map (resolve r), P text :=
      List.forall_mem_map.2 fun child mem => ih child mem (h child mem)
    have both : ∀ a b, P a → P b → P (j.put a b) := by
      cases j with
      | compound => exact append
      | path => exact glued
    rw [j.resolve_tree]
    exact List.foldrRecOn _ _ nothing fun rest more text mem => both _ _ (each text mem) more

/-! ### Counting characters -/

section Count

variable {c : Char}

/-- Gluing adds slashes only. -/
theorem count_glue (other : c ≠ '/') (a b : String) :
    (glue a b).toList.count c = a.toList.count c + b.toList.count c := by
  unfold glue
  split
  · next empty => simp [empty]
  · split
    · next empty => simp [empty]
    · simp [List.count_cons_of_ne (Ne.symm other)]

theorem Joint.count_put (j : Joint) (other : c ≠ '/') (a b : String) :
    (j.put a b).toList.count c = a.toList.count c + b.toList.count c := by
  cases j with
  | compound => rw [put, String.toList_append, List.count_append]
  | path => exact count_glue other a b

theorem Joint.count_foldr_put (j : Joint) (other : c ≠ '/') (texts : List String) :
    (texts.foldr j.put "").toList.count c = (texts.map fun text => text.toList.count c).sum := by
  induction texts with
  | nil => simp
  | cons text texts ih =>
    rw [List.foldr_cons, j.count_put other, ih, List.map_cons, List.sum_cons]

theorem count_joinPath (other : c ≠ '/') (texts : List String) :
    (joinPath texts).toList.count c = (texts.map fun text => text.toList.count c).sum :=
  Joint.path.count_foldr_put other texts

theorem sum_map_leavesAll (f : Node → Nat) (children : List Node) :
    ((leavesAll children).map f).sum = (children.map fun child => (child.leaves.map f).sum).sum := by
  induction children with
  | nil => rfl
  | cons child children ih =>
    rw [leavesAll, List.map_append, List.sum_append, ih, List.map_cons, List.sum_cons]

/-- A character other than the slash is in a path as often as in what the leaves give. -/
theorem count_resolve (other : c ≠ '/') (r : Record) (tree : Node) :
    (tree.resolve r).toList.count c =
      (tree.leaves.map fun leaf => (leaf.resolve r).toList.count c).sum := by
  induction tree using leaves_induction with
  | atom node atom => simp [atom.leaves_eq]
  | joined j children ih =>
    rw [j.resolve_tree, j.count_foldr_put other, j.leaves_tree, sum_map_leavesAll, List.map_map]
    exact congrArg _ (List.map_congr_left ih)

end Count

/-! ### Constant trees -/

/-- A tree is constant if its leaves are. -/
theorem isConstant_iff_leaves :
    tree.isConstant = true ↔ ∀ leaf ∈ tree.leaves, leaf.isConstant = true := by
  induction tree using leaves_induction with
  | atom node atom => simp [atom.leaves_eq]
  | joined j children ih =>
    rw [j.isConstant_tree, List.all_eq_true, j.leaves_tree, forall_mem_leavesAll]
    exact forall₂_congr ih

end PathPattern.Node
