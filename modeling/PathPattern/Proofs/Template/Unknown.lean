import PathPattern.Proofs.Node.Leaves
import PathPattern.Proofs.Template.FirstFault

/-!
# The unknown keywords that reading reports

Reading reports the keywords that mean nothing as it meets them. A part that is read to the end has
reported those of its nodes, from left to right; a part that ends in a fault has reported those of the
nodes before it. So a template that compiles reports the unknown names of its tree
(`unknownKeywords_of_ok`), and one that is refused those of the template before its first fault
(`unknownKeywords_of_firstFault`).
-/

namespace PathPattern

namespace Node

/-- The name of a keyword that means nothing. -/
def unknownName? : Node → Option String
  | keyword name => if Keyword.isUnknown name then some name else none
  | _ => none

/-- The names in a tree that mean nothing, from left to right, as often as they are there. -/
def unknownNames (tree : Node) : List String := tree.leaves.filterMap unknownName?

theorem leavesAll_eq_flatMap (children : List Node) : leavesAll children = children.flatMap leaves := by
  induction children with
  | nil => rfl
  | cons child children ih => rw [leavesAll, ih, List.flatMap_cons]

theorem unknownNames_tree (j : Joint) (children : List Node) :
    (j.tree children).unknownNames = children.flatMap unknownNames := by
  rw [unknownNames, j.leaves_tree, leavesAll_eq_flatMap, List.filterMap_flatMap]
  rfl

end Node

namespace Template

open Text (pieces trimSep byteCount)

variable {cs text body before after q rest : List Char} {css css' : List (List Char)}
  {node tree : Node} {ns : List Node} {fault : TemplateFault} {offset : Nat}

/-! ### Placeholders -/

theorem unknown_placeholder_of_ok (h : (placeholder body).outcome = .ok node) :
    (placeholder body).unknown = node.unknownNames := by
  have denotes := placeholder_eq_ok_iff.1 h
  cases denotes with
  | keyword plain =>
    have word := mt any_startsAddress_iff.1 plain
    rw [placeholder, if_neg word]
    simp only [Node.unknownNames, Node.leaves, Node.unknownName?, List.filterMap_cons,
      List.filterMap_nil]
    split <;> rfl
  | index numeric | slice numeric =>
    rw [placeholder, if_pos (any_startsAddress_iff.2 numeric)]
    rfl

/-- Only an address can be at fault, and an address reports nothing. -/
theorem unknown_placeholder_of_error (h : (placeholder body).outcome = .error fault) :
    (placeholder body).unknown = [] := by
  have numeric := (placeholder_eq_error_iff.1 h).1
  rw [placeholder, if_pos (any_startsAddress_iff.2 numeric)]

theorem flatMap_unknownNames_literals (text : List Char) :
    (literals text).flatMap Node.unknownNames = [] := by
  rw [literals]
  split <;> rfl

/-! ### Components -/

/-- A fixed text and a placeholder report what the placeholder does. -/
theorem flatMap_unknownNames_span (text : List Char) (node : Node) (ns : List Node) :
    (literals text ++ node :: ns).flatMap Node.unknownNames =
      node.unknownNames ++ ns.flatMap Node.unknownNames := by
  rw [List.flatMap_append, flatMap_unknownNames_literals, List.nil_append, List.flatMap_cons]

theorem unknown_nodes_of_ok {component : List Char}
    (h : (nodes component offset cs).outcome = .ok ns) :
    (nodes component offset cs).unknown = ns.flatMap Node.unknownNames := by
  induction scan cs generalizing offset ns with
  | @last text free =>
    rw [nodes_last free] at h ⊢
    cases h
    exact (flatMap_unknownNames_literals text).symm
  | unclosed free unclosed =>
    rw [nodes_unclosed free unclosed] at h
    cases h
  | hollow free =>
    rw [nodes_hollow free] at h
    cases h
  | @span text body rest free nonempty closed _ ih =>
    rw [nodes_span free nonempty closed] at h ⊢
    obtain ⟨node, read, h⟩ := Reading.outcome_bind_eq_ok_iff.1 h
    obtain ⟨more, readMore, h⟩ := Reading.outcome_bind_eq_ok_iff.1 h
    cases h
    rw [Reading.unknown_bind_of_ok read, Reading.unknown_bind_of_ok readMore,
      unknown_placeholder_of_ok read, ih readMore, flatMap_unknownNames_span]
    exact congrArg _ (List.append_nil _)

/-- Before a faulty brace, the nodes of the layout behind which it stands are reported. -/
theorem unknown_nodes_of_faultyAt {component : List Char} {l : Layout} (valid : l.WellFormed)
    (nodes_l : l.Nodes ns)
    (faulty : FaultyAt (String.ofList component) (offset + byteCount l.chars) after fault) :
    (nodes component offset (l.chars ++ '{' :: after)).unknown = ns.flatMap Node.unknownNames := by
  induction nodes_l generalizing offset with
  | @last text fixed literal =>
    rw [fixedText_iff.1 literal, flatMap_unknownNames_literals]
    cases faulty with
    | unclosed open_ => rw [Layout.chars, nodes_unclosed valid open_]
    | hollow split => rw [split, Layout.chars, nodes_hollow valid]
    | @operand body rest _ _ split closed numeric bad read =>
      have nonempty : body ≠ [] := by
        rintro rfl
        simp [LooksNumeric] at numeric
      have refused := placeholder_eq_error_iff.2 ⟨numeric, _, _, bad, read, rfl⟩
      rw [split, Layout.chars, nodes_span valid nonempty closed,
        Reading.unknown_bind_of_error refused, unknown_placeholder_of_error refused]
  | @span text body rest fixed more node literal denotes _ ih =>
    obtain ⟨free, isBody, valid⟩ := valid
    have read := placeholder_eq_ok_iff.2 denotes
    rw [byteCount_span] at faulty
    have stops := nodes_of_faultyAt valid faulty
    simp only [Layout.chars, List.append_assoc, List.cons_append]
    rw [nodes_span free isBody.nonempty isBody.closed, Reading.unknown_bind_of_ok read,
      Reading.unknown_bind_of_error stops, unknown_placeholder_of_ok read, ih valid faulty,
      fixedText_iff.1 literal, flatMap_unknownNames_span]

theorem unknownNames_combine (ns : List Node) :
    (combine ns).unknownNames = ns.flatMap Node.unknownNames := by
  match ns with
  | [] => rfl
  | [node] => rw [combine, List.flatMap_singleton]
  | first :: second :: more => exact Node.unknownNames_tree .compound (first :: second :: more)

theorem unknown_component_of_ok (h : (component cs).outcome = .ok node) :
    (component cs).unknown = node.unknownNames := by
  rw [component] at h ⊢
  obtain ⟨ns, read, h⟩ := Reading.outcome_bind_eq_ok_iff.1 h
  cases h
  rw [Reading.unknown_bind_of_ok read, unknown_nodes_of_ok read, unknownNames_combine]
  exact List.append_nil _

/-- A component with a faulty brace has reported what comes before it, a component of its own. -/
theorem unknown_component_of_faultyAt (front : (component before).outcome = .ok node)
    (faulty : FaultyAt (String.ofList (before ++ '{' :: after)) (byteCount before) after fault) :
    (component (before ++ '{' :: after)).unknown = node.unknownNames := by
  obtain ⟨l, valid, rfl, ns, nodes_l, combined⟩ := component_eq_ok_iff.1 front
  rw [← Nat.zero_add (byteCount _)] at faulty
  rw [component, Reading.unknown_bind_of_error (nodes_of_faultyAt valid faulty),
    unknown_nodes_of_faultyAt valid nodes_l faulty, combined_iff.1 combined, unknownNames_combine]

/-! ### Lists of components -/

theorem unknown_components_cons_of_ok (h : (component cs).outcome = .ok node) :
    (components (cs :: css)).unknown = node.unknownNames ++ (components css).unknown := by
  rw [components, Reading.unknown_bind_of_ok h, unknown_component_of_ok h]
  cases more : (components css).outcome with
  | error fault => rw [Reading.unknown_bind_of_error more]
  | ok ns =>
    rw [Reading.unknown_bind_of_ok more]
    exact congrArg _ (List.append_nil _)

theorem unknown_components_cons_of_error (h : (component cs).outcome = .error fault) :
    (components (cs :: css)).unknown = (component cs).unknown := by
  rw [components, Reading.unknown_bind_of_error h]

/-- Behind components without a fault, reading goes on as if they were not there. -/
theorem unknown_components_append_of_ok (h : (components css).outcome = .ok ns) :
    (components (css ++ css')).unknown =
      ns.flatMap Node.unknownNames ++ (components css').unknown := by
  induction components_eq_ok_iff.1 h with
  | nil => rfl
  | cons read parts ih =>
    rw [List.cons_append, unknown_components_cons_of_ok read,
      ih (components_eq_ok_iff.2 parts), List.flatMap_cons, List.append_assoc]

theorem unknown_components_of_ok (h : (components css).outcome = .ok ns) :
    (components css).unknown = ns.flatMap Node.unknownNames := by
  have whole : (components (css ++ [])).unknown = _ := unknown_components_append_of_ok h
  rw [List.append_nil] at whole
  exact whole.trans (List.append_nil _)

/-- Behind components with a fault, nothing is read. -/
theorem unknown_components_append_of_error (h : (components css).outcome = .error fault) :
    (components (css ++ css')).unknown = (components css).unknown := by
  induction css with
  | nil => cases h
  | cons cs css ih =>
    rw [List.cons_append]
    rcases components_cons_eq_error_iff.1 h with bad | ⟨good, later⟩
    · rw [unknown_components_cons_of_error bad, unknown_components_cons_of_error bad]
    · obtain ⟨node, read⟩ := exists_component_iff.2 good
      rw [unknown_components_cons_of_ok read, unknown_components_cons_of_ok read, ih later]

/-- Empty components report nothing. -/
theorem unknown_components_replicate_append (n : Nat) (css : List (List Char)) :
    (components (List.replicate n [] ++ css)).unknown = (components css).unknown := by
  have none : (List.replicate n Node.empty).flatMap Node.unknownNames = [] := by
    rw [List.flatMap_eq_nil_iff]
    intro node mem
    rw [List.eq_of_mem_replicate mem]
    rfl
  rw [unknown_components_append_of_ok (components_replicate_nil n), none, List.nil_append]

theorem unknown_components_append_replicate (css : List (List Char)) (n : Nat) :
    (components (css ++ List.replicate n [])).unknown = (components css).unknown := by
  cases h : (components css).outcome with
  | error fault => exact unknown_components_append_of_error h
  | ok ns =>
    have behind := unknown_components_replicate_append n []
    rw [List.append_nil] at behind
    rw [unknown_components_append_of_ok h, behind, unknown_components_of_ok h]
    exact List.append_nil _

/-! ### Templates -/

/-- The slashes at the ends of a template do not matter for what it reports. -/
theorem unknownKeywords_eq (template : String) :
    unknownKeywords template = (components (pieces '/' template.toList)).unknown := by
  rw [unknownKeywords, read]
  by_cases empty : template.toList = []
  · rw [if_pos empty, empty]
    exact (unknown_components_replicate_append 1 []).symm
  · obtain ⟨m, n, split⟩ := Text.pieces_eq_append_trimSep_append '/' template.toList
    rw [if_neg empty, split, unknown_components_replicate_append,
      unknown_components_append_replicate]
    cases h : (components (pieces '/' (trimSep '/' template.toList))).outcome with
    | error fault => exact Reading.unknown_bind_of_error h
    | ok ns =>
      rw [Reading.unknown_bind_of_ok h]
      exact List.append_nil _

/-- A template that compiles reports the unknown names of its tree. -/
theorem unknownKeywords_of_ok {template : String} (h : compile template = .ok tree) :
    unknownKeywords template = tree.unknownNames := by
  by_cases empty : template = ""
  · rw [empty, compile_empty, Except.ok.injEq] at h
    rw [empty, ← h]
    rfl
  · obtain ⟨children, rfl, parts⟩ := (compile_eq_ok_iff empty).1 h
    have some : template.toList ≠ [] := mt String.toList_eq_nil_iff.1 empty
    rw [componentTexts_eq] at parts
    rw [unknownKeywords, read, if_neg some, Reading.unknown_bind_of_ok parts,
      unknown_components_of_ok parts]
    exact (List.append_nil _).trans (Node.unknownNames_tree .path children).symm

/-- A template that is refused reports the unknown names of what comes before its first fault. -/
theorem unknownKeywords_of_firstFault (first : FirstFault q rest fault)
    (front : compile (String.ofList q) = .ok tree) :
    unknownKeywords (String.ofList (q ++ '{' :: rest)) = tree.unknownNames := by
  have reported := unknownKeywords_of_ok front
  rw [unknownKeywords_eq, String.toList_ofList] at reported
  obtain ⟨pre, whole, around⟩ := Text.exists_pieces_append_cons (show '{' ≠ '/' by decide) q
  obtain ⟨post, -, joined⟩ := around rest
  have good := exists_compile_ofList_iff.1 first.parses
  rw [whole, List.forall_mem_append] at good
  obtain ⟨ns, readPre⟩ := exists_components_iff.2 good.1
  obtain ⟨node, readLast⟩ := exists_component_iff.2 first.starts
  have faulty := first.faulty
  rw [Text.utf8ByteSize_ofList] at faulty
  have told := component_eq_error_iff.2 ⟨_, _, rfl, first.starts, faulty⟩
  rw [← reported, unknownKeywords_eq, String.toList_ofList, joined, whole,
    unknown_components_append_of_ok readPre, unknown_components_append_of_ok readPre,
    unknown_components_cons_of_error told, unknown_component_of_faultyAt readLast faulty,
    unknown_components_cons_of_ok readLast]
  exact congrArg _ (List.append_nil _).symm

/-- A template that is refused has a first fault, which need not be told apart from the slashes at
its ends. -/
theorem exists_firstFault_of_error {template : String} (h : compile template = .error fault) :
    ∃ q rest, template.toList = q ++ '{' :: rest ∧ FirstFault q rest fault :=
  exists_firstFault (compile_eq_error_iff.1 h)

end Template

end PathPattern
