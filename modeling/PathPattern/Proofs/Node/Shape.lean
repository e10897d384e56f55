import Mathlib.Logic.Relation
import PathPattern.Proofs.Node.Leaves

/-!
# The shape of a tree

Whichever way children are put together, it does not matter where one starts. So neighbours may make
way for others that give the same, in whatever row they stand (`Alike.within`), and a change of shape
far down in a tree does not show at its root (`Reshapes.alike`). Whatever is spliced, dropped,
unwrapped or merged, and however often, the path for every record stays, and so does whether the tree
is constant (`reshaped_gives_same`).
-/

namespace PathPattern.Node

variable {a b c : Node} {as bs cs ds : List Node}

/-! ### Trees that are alike -/

/-- The trees give the same path for every record, and are both constant or both not. -/
structure Alike (a b : Node) : Prop where
  resolve : ∀ r, a.resolve r = b.resolve r
  isConstant : a.isConstant = b.isConstant

namespace Alike

variable {j : Joint}

protected theorem refl (a : Node) : Alike a a := ⟨fun _ => rfl, rfl⟩

protected theorem symm (h : Alike a b) : Alike b a :=
  ⟨fun r => (h.resolve r).symm, h.isConstant.symm⟩

protected theorem trans (h : Alike a b) (h' : Alike b c) : Alike a c :=
  ⟨fun r => (h.resolve r).trans (h'.resolve r), h.isConstant.trans h'.isConstant⟩

theorem append (h : Alike (j.tree as) (j.tree bs)) (h' : Alike (j.tree cs) (j.tree ds)) :
    Alike (j.tree (as ++ cs)) (j.tree (bs ++ ds)) where
  resolve r := by
    rw [j.resolve_tree_append, h.resolve, h'.resolve, ← j.resolve_tree_append]
  isConstant := by
    have front := h.isConstant
    have back := h'.isConstant
    rw [j.isConstant_tree, j.isConstant_tree] at front back ⊢
    rw [List.all_append, front, back, ← List.all_append]

/-- Rows that are alike by themselves are alike between any neighbours. -/
theorem within (h : Alike (j.tree as) (j.tree bs)) (before after : List Node) :
    Alike (j.tree (before ++ as ++ after)) (j.tree (before ++ bs ++ after)) :=
  ((Alike.refl _).append h).append (.refl _)

/-- A tree without children gives nothing. -/
theorem childless (j : Joint) : Alike (j.tree []) empty :=
  ⟨j.resolve_tree_nil, j.isConstant_tree []⟩

/-- A tree with one child gives what the child gives. -/
theorem singleton (j : Joint) (a : Node) : Alike (j.tree [a]) a where
  resolve r := by rw [j.resolve_tree_cons, j.resolve_tree_nil, j.put_empty_right]
  isConstant := by rw [j.isConstant_tree, List.all_cons, List.all_nil, Bool.and_true]

end Alike

/-! ### Changes of shape -/

/-- What neighbouring children of a tree of this kind may be replaced by. -/
inductive Exchange : Joint → List Node → List Node → Prop where
  /-- A child of the same kind makes way for its children. -/
  | splice (j : Joint) (inner : List Node) : Exchange j [j.tree inner] inner
  | dropEmpty (j : Joint) : Exchange j [.empty] []
  | dropText (j : Joint) : Exchange j [.literal ""] []
  /-- Two texts side by side are one. -/
  | merge (s t : String) : Exchange .compound [.literal s, .literal t] [.literal (s ++ t)]

/-- One change of shape, at the root of a tree or anywhere below. -/
inductive Reshapes : Node → Node → Prop where
  | exchange {j : Joint} {as bs : List Node} (before after : List Node) (h : Exchange j as bs) :
    Reshapes (j.tree (before ++ as ++ after)) (j.tree (before ++ bs ++ after))
  /-- A tree with one child makes way for it. -/
  | unwrap (j : Joint) (a : Node) : Reshapes (j.tree [a]) a
  | childless (j : Joint) : Reshapes (j.tree []) .empty
  | inside {a b : Node} (j : Joint) (before after : List Node) (h : Reshapes a b) :
    Reshapes (j.tree (before ++ [a] ++ after)) (j.tree (before ++ [b] ++ after))

theorem Exchange.alike {j : Joint} (h : Exchange j as bs) : Alike (j.tree as) (j.tree bs) := by
  cases h with
  | splice => exact .singleton j _
  | dropEmpty => exact (Alike.singleton j _).trans (Alike.childless j).symm
  | dropText =>
    have nothing : Alike (literal "") empty := ⟨fun _ => rfl, rfl⟩
    exact ((Alike.singleton j _).trans nothing).trans (Alike.childless j).symm
  | merge s t =>
    refine ⟨fun r => ?_, rfl⟩
    rw [Joint.tree, resolve_compound, resolve_compound]
    simp [Node.resolve]

/-- A change of shape does not show: neither where it is made nor further up. -/
theorem Reshapes.alike (h : Reshapes a b) : Alike a b := by
  induction h with
  | exchange before after h => exact h.alike.within before after
  | unwrap j a => exact .singleton j a
  | childless j => exact .childless j
  | @inside a b j before after _ ih =>
    -- By itself a child is a row of one.
    have row : Alike (j.tree [a]) (j.tree [b]) :=
      ((Alike.singleton j a).trans ih).trans (Alike.singleton j b).symm
    exact row.within before after

/-- A tree gives the same path for every record, and is as constant as before, after any number of
changes of its shape: children of a path in a path, or of a compound in a compound, spliced into the
row, empty children and empty texts dropped, a tree with one child or none unwrapped, texts that meet
in a compound merged. -/
theorem reshaped_gives_same (steps : Relation.ReflTransGen Reshapes a b) :
    (∀ r, b.resolve r = a.resolve r) ∧ b.isConstant = a.isConstant := by
  have alike : Alike a b := by
    induction steps with
    | refl => exact .refl a
    | tail _ step ih => exact ih.trans step.alike
  exact ⟨fun r => (alike.resolve r).symm, alike.isConstant.symm⟩

/-- A path in a path and a compound in a compound, with empty children at both levels, reshaped until
only leaves are left in one row. -/
theorem reshaped_gives_same_nested :
    let nested := path [path [literal "a", empty],
      compound [compound [literal "b", literal ""], literal "c"], path [index 0], compound []]
    let flat := path [literal "a", literal "bc", index 0]
    Relation.ReflTransGen Reshapes nested flat ∧
      (∀ r, flat.resolve r = nested.resolve r) ∧ flat.isConstant = nested.isConstant := by
  intro nested flat
  let inner : Node := compound [compound [literal "b", literal ""], literal "c"]
  have innerSteps : Relation.ReflTransGen Reshapes inner (literal "bc") :=
    .head (.exchange [] [literal "c"] (.splice .compound [literal "b", literal ""])) <|
    .head (.exchange [literal "b"] [literal "c"] (.dropText .compound)) <|
    .head (.exchange [] [] (.merge "b" "c")) <|
    .single (.unwrap .compound (literal "bc"))
  have lifted : Relation.ReflTransGen Reshapes
      (path [literal "a", inner, index 0]) (path [literal "a", literal "bc", index 0]) :=
    innerSteps.lift (fun node => path [literal "a", node, index 0])
      fun _ _ => .inside .path [literal "a"] [index 0]
  have steps : Relation.ReflTransGen Reshapes nested flat :=
    .head (.exchange [] [inner, path [index 0], compound []] (.splice .path [literal "a", empty])) <|
    .head (.exchange [literal "a"] [inner, path [index 0], compound []] (.dropEmpty .path)) <|
    .head (.inside .path [literal "a", inner, path [index 0]] [] (.childless .compound)) <|
    .head (.exchange [literal "a", inner, path [index 0]] [] (.dropEmpty .path)) <|
    .head (.inside .path [literal "a", inner] [] (.unwrap .path (index 0))) lifted
  exact ⟨steps, reshaped_gives_same steps⟩

end PathPattern.Node
