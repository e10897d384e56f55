import PathPattern.Proofs.Node.Shape
import PathPattern.Proofs.Template.RoundTrip

/-!
# Components side by side

A layout of one component and a layout of another make a layout of the two side by side: the text at
the end of the one runs on into the text at the start of the other, and all else stays
(`Layout.Nodes.append`). A template without slashes is a single component, so two such templates
compile side by side to the tree of their nodes with the two texts at the seam made one, which
resolves to the one path followed by the other (`compile_append`).
-/

namespace PathPattern.Template

variable {node tree left right : Node} {ns ms : List Node} {l l' : Layout} {s t : String}

/-! ### Nodes side by side -/

/-- Nodes side by side, with a text at the end of the first ones and a text at the start of the second
ones made one. -/
def seam : List Node → List Node → List Node
  | [], ms => ms
  | [.literal s], .literal t :: ms => .literal (s ++ t) :: ms
  | n :: ns, ms => n :: seam ns ms

theorem seam_cons (apart : (∀ text, node ≠ .literal text) ∨ ns ≠ []) (ms : List Node) :
    seam (node :: ns) ms = node :: seam ns ms := by
  rw [seam]
  rintro s t ms' rfl rfl rfl
  rcases apart with fluid | some
  · exact fluid s rfl
  · exact some rfl

theorem seam_literal_cons (fluid : ∀ text, node ≠ .literal text) (text : String) (ms : List Node) :
    seam [.literal text] (node :: ms) = .literal text :: node :: ms := by
  rw [seam, seam]
  intro s t ms' same _ _
  exact fluid t (List.cons.inj same).1

/-- The texts of nodes side by side are put together. -/
theorem join_map_seam (r : Record) (ns ms : List Node) :
    String.join ((seam ns ms).map (Node.resolve r)) =
      String.join (ns.map (Node.resolve r)) ++ String.join (ms.map (Node.resolve r)) := by
  fun_induction seam ns ms with
  | case1 ms => simp
  | case2 s t ms => simp [Node.resolve, String.append_assoc]
  | case3 n ns ms _ ih => simp [ih, String.append_assoc]

theorem all_isConstant_seam (ns ms : List Node) :
    (seam ns ms).all Node.isConstant = (ns.all Node.isConstant && ms.all Node.isConstant) := by
  fun_induction seam ns ms with
  | case1 ms => simp
  | case2 s t ms => simp [Node.isConstant]
  | case3 n ns ms _ ih => simp [ih, Bool.and_assoc]

/-! ### Layouts side by side -/

/-- Placeholders stand for nodes other than fixed texts. -/
theorem Denotes.ne_literal {body : List Char} (h : Denotes body node) :
    ∀ text, node ≠ .literal text := by
  cases h <;> simp

theorem seam_fixedText {text front : List Char} {fixed first : List Node}
    (literal : FixedText text fixed) (next : FixedText front first) :
    FixedText (text ++ front) (seam fixed first) := by
  cases literal with
  | none => exact next
  | some nonempty =>
    cases next with
    | none => simpa [seam] using FixedText.some nonempty
    | some =>
      have whole := FixedText.some (List.append_ne_nil_of_left_ne_nil nonempty front)
      rwa [String.ofList_append] at whole

/-- A text before a layout runs on into the text at its start. -/
theorem Layout.Nodes.seam_prepend {text : List Char} {fixed : List Node}
    (literal : FixedText text fixed) (h : l.Nodes ns) : (l.prepend text).Nodes (seam fixed ns) := by
  cases h with
  | last next => exact .last (seam_fixedText literal next)
  | @span front body rest first more node next denotes rest_nodes =>
    have split : seam fixed (first ++ node :: more) = seam fixed first ++ node :: more := by
      cases literal with
      | none => rfl
      | some nonempty =>
        cases next with
        | none => exact seam_literal_cons denotes.ne_literal _ _
        | some => rfl
    rw [split]
    exact .span (seam_fixedText literal next) denotes rest_nodes

namespace Layout

/-- A layout with another one behind it. -/
def append : Layout → Layout → Layout
  | last text, l => l.prepend text
  | span text body rest, l => span text body (rest.append l)

theorem chars_append (l l' : Layout) : (l.append l').chars = l.chars ++ l'.chars := by
  induction l with
  | last text => exact chars_prepend text l'
  | span text body rest ih => simp [append, chars, ih]

theorem WellFormed.append (h : l.WellFormed) (h' : l'.WellFormed) : (l.append l').WellFormed := by
  induction l with
  | last text => exact h'.prepend h
  | span text body rest ih => exact ⟨h.1, h.2.1, ih h.2.2⟩

theorem Nodes.append (h : l.Nodes ns) (h' : l'.Nodes ms) : (l.append l').Nodes (seam ns ms) := by
  induction h with
  | last literal => exact h'.seam_prepend literal
  | @span text body rest fixed more node literal denotes _ ih =>
    have split : seam (fixed ++ node :: more) ms = fixed ++ node :: seam more ms := by
      cases literal with
      | none => exact seam_cons (.inl denotes.ne_literal) ms
      | some nonempty =>
        rw [List.singleton_append, seam_cons (.inr (by simp)), seam_cons (.inl denotes.ne_literal)]
        rfl
    rw [split]
    exact .span literal denotes ih

end Layout

/-! ### Templates of one component -/

/-- The tree of a template of one component with these nodes; the empty template has none. -/
def treeOf : List Node → Node
  | [] => .empty
  | ns => .path [combine ns]

/-- The nodes of the one component of a tree. -/
def nodesOf : Node → List Node
  | .path [.compound ns] => ns
  | .path [node] => [node]
  | _ => []

theorem treeOf_of_combined (some : ns ≠ []) (h : Combined ns node) : treeOf ns = .path [node] := by
  rw [combined_iff.1 h, treeOf]
  exact some

theorem nodesOf_treeOf (run : IsRun ns) : nodesOf (treeOf ns) = ns := by
  match ns with
  | [] => rfl
  | [node] =>
    have leaf := run.leaves node (by simp)
    cases leaf <;> rfl
  | _ :: _ :: _ => rfl

/-- The tree of a component gives what the compound of its nodes gives. -/
theorem alike_combine (ns : List Node) : (combine ns).Alike (.compound ns) := by
  match ns with
  | [] => exact (Node.Alike.childless .compound).symm
  | [node] => exact (Node.Alike.singleton .compound node).symm
  | _ :: _ :: _ => exact .refl _

theorem alike_treeOf (ns : List Node) : (treeOf ns).Alike (.compound ns) := by
  by_cases none : ns = []
  · subst none
    exact (Node.Alike.childless .compound).symm
  · rw [treeOf]
    · exact (Node.Alike.singleton .path _).trans (alike_combine ns)
    · exact none

theorem resolve_treeOf (r : Record) (ns : List Node) :
    (treeOf ns).resolve r = String.join (ns.map (Node.resolve r)) := by
  rw [(alike_treeOf ns).resolve, Node.resolve_compound]

theorem isConstant_treeOf (ns : List Node) : (treeOf ns).isConstant = ns.all Node.isConstant := by
  rw [(alike_treeOf ns).isConstant, Node.isConstant, Node.allConstant_eq_all]

/-- A template without slashes compiles to the path of its one component. -/
theorem compile_eq_ok_iff_component (nonempty : s ≠ "") (whole : '/' ∉ s.toList) :
    compile s = .ok tree ↔ ∃ node, tree = .path [node] ∧ (component s.toList).outcome = .ok node := by
  have front : s.toList.head? ≠ some '/' := fun first => whole (List.mem_of_head? first)
  have back : s.toList.getLast? ≠ some '/' := fun last => whole (List.mem_of_getLast? last)
  rw [compile_eq_ok_iff nonempty, componentTexts_eq, Text.trimSep_eq_self front back,
    Text.pieces_of_not_mem whole]
  simp only [components_eq_ok_iff, List.forall₂_cons_left_iff, List.forall₂_nil_left_iff]
  constructor
  · rintro ⟨_, rfl, node, _, read, rfl, rfl⟩
    exact ⟨node, rfl, read⟩
  · rintro ⟨node, rfl, read⟩
    exact ⟨[node], rfl, node, [], read, rfl, rfl⟩

/-- That is the tree of the nodes of its layout. -/
theorem compile_eq_ok_iff_layout (whole : '/' ∉ s.toList) :
    compile s = .ok tree ↔
      ∃ l : Layout, l.WellFormed ∧ l.chars = s.toList ∧ ∃ ns, l.Nodes ns ∧ tree = treeOf ns := by
  have isNil {l : Layout} (same : l.chars = s.toList) (h : l.Nodes []) : s = "" :=
    String.toList_eq_nil_iff.1 (same.symm.trans (chars_eq_nil_of_nodes_nil h))
  by_cases empty : s = ""
  · rw [empty, compile_empty, Except.ok.injEq]
    constructor
    · rintro rfl
      exact ⟨.last [], by simp [Layout.WellFormed], rfl, [], .last .none, rfl⟩
    · rintro ⟨l, valid, same, ns, nodes_l, rfl⟩
      have free : (Layout.last []).WellFormed := by simp [Layout.WellFormed]
      rw [Layout.eq_of_chars_eq valid free same] at nodes_l
      cases nodes_l with
      | last literal =>
        cases literal with
        | none => rfl
        | some nonempty => exact absurd rfl nonempty
  · rw [compile_eq_ok_iff_component empty whole]
    simp only [component_eq_ok_iff, Layout.Gives]
    constructor
    · rintro ⟨node, rfl, l, valid, same, ns, nodes_l, combined⟩
      have some : ns ≠ [] := by
        rintro rfl
        exact empty (isNil same nodes_l)
      exact ⟨l, valid, same, ns, nodes_l, (treeOf_of_combined some combined).symm⟩
    · rintro ⟨l, valid, same, ns, nodes_l, rfl⟩
      have some : ns ≠ [] := by
        rintro rfl
        exact empty (isNil same nodes_l)
      exact ⟨combine ns, treeOf_of_combined some (combined_iff.2 rfl), l, valid, same, ns, nodes_l,
        combined_iff.2 rfl⟩

/-- Two templates without slashes that compile, compile side by side: to the nodes of the one and the
nodes of the other, with the texts at the seam made one. The tree is constant if both are, and gives
the two paths one after the other. -/
theorem compile_append (whole : '/' ∉ s.toList) (whole' : '/' ∉ t.toList)
    (first : compile s = .ok left) (second : compile t = .ok right) :
    left = treeOf (nodesOf left) ∧ right = treeOf (nodesOf right) ∧
      ∃ tree, compile (s ++ t) = .ok tree ∧ tree = treeOf (seam (nodesOf left) (nodesOf right)) ∧
        tree.isConstant = (left.isConstant && right.isConstant) ∧
        ∀ r, tree.resolve r = left.resolve r ++ right.resolve r := by
  obtain ⟨l, valid, same, ns, nodes_l, rfl⟩ := (compile_eq_ok_iff_layout whole).1 first
  obtain ⟨l', valid', same', ms, nodes_l', rfl⟩ := (compile_eq_ok_iff_layout whole').1 second
  have run := isRun_of_layout nodes_l valid (same ▸ whole)
  have run' := isRun_of_layout nodes_l' valid' (same' ▸ whole')
  have both : '/' ∉ (s ++ t).toList := by simp [whole, whole']
  have chars : (l.append l').chars = (s ++ t).toList := by
    rw [Layout.chars_append, same, same', String.toList_append]
  rw [nodesOf_treeOf run, nodesOf_treeOf run']
  refine ⟨rfl, rfl, treeOf (seam ns ms), ?_, rfl, ?_, fun r => ?_⟩
  · exact (compile_eq_ok_iff_layout both).2
      ⟨l.append l', valid.append valid', chars, _, nodes_l.append nodes_l', rfl⟩
  · rw [isConstant_treeOf, isConstant_treeOf, isConstant_treeOf, all_isConstant_seam]
  · rw [resolve_treeOf, resolve_treeOf, resolve_treeOf, join_map_seam]

/-- The seam in a fixed text, behind a placeholder and before a stray brace. -/
theorem compile_append_stray_brace :
    compile "{doy}-" = .ok (.path [.compound [.keyword "doy", .literal "-"]]) ∧
      compile "\x7dx{0}" = .ok (.path [.compound [.literal "\x7dx", .index 0]]) ∧
      compile ("{doy}-" ++ "\x7dx{0}") =
        .ok (.path [.compound [.keyword "doy", .literal "-\x7dx", .index 0]]) := by
  have first : compile "{doy}-" = .ok (.path [.compound [.keyword "doy", .literal "-"]]) := by
    decide +kernel
  have second : compile "\x7dx{0}" = .ok (.path [.compound [.literal "\x7dx", .index 0]]) := by
    decide +kernel
  obtain ⟨-, -, tree, compiles, same, -⟩ := compile_append (by decide) (by decide) first second
  rw [same] at compiles
  exact ⟨first, second, compiles⟩

end PathPattern.Template
