import Mathlib.Data.List.Forall2
import Mathlib.Tactic.Tauto
import PathPattern.Proofs.Template.Component

/-!
# What the reader accepts as a template

A list of components is read one by one, so a template compiles exactly if the grammar allows
each of its components, and to the path of their trees (`compile_iff_grammar`). Whether it
compiles, and the fault if it does not, can be told without removing the slashes at its two
ends: they only add empty components, which are read to nothing.
-/

namespace PathPattern.Template

open Integer (Numeral)
open Text (pieces trimSep)

variable {css : List (List Char)} {ns : List Node} {node : Node} {fault : TemplateFault}

/-! ### Lists of components -/

/-- Components are read one by one. -/
theorem components_eq_ok_iff :
    (components css).outcome = .ok ns ↔
      List.Forall₂ (fun cs node => (component cs).outcome = .ok node) css ns := by
  induction css generalizing ns with
  | nil => simp [components, Reading.outcome_done, eq_comm]
  | cons cs css ih =>
    rw [components, Reading.outcome_bind_eq_ok_iff, List.forall₂_cons_left_iff]
    constructor
    · rintro ⟨node, read, h⟩
      obtain ⟨more, rest_read, h⟩ := Reading.outcome_bind_eq_ok_iff.1 h
      cases h
      exact ⟨node, more, read, ih.1 rest_read, rfl⟩
    · rintro ⟨node, more, read, rest_read, rfl⟩
      exact ⟨node, read, Reading.outcome_bind_eq_ok_iff.2 ⟨more, ih.2 rest_read, rfl⟩⟩

theorem exists_component_of_mem (h : (components css).outcome = .ok ns)
    (mem : node ∈ ns) : ∃ cs ∈ css, (component cs).outcome = .ok node := by
  induction components_eq_ok_iff.1 h with
  | nil => simp at mem
  | cons read parts ih =>
    rcases List.mem_cons.1 mem with rfl | mem
    · exact ⟨_, by simp, read⟩
    · obtain ⟨cs, mem, read⟩ := ih (components_eq_ok_iff.2 parts) mem
      exact ⟨cs, List.mem_cons_of_mem _ mem, read⟩

/-- A list of components is read exactly if each of them is one. -/
theorem exists_components_iff :
    (∃ ns, (components css).outcome = .ok ns) ↔ ∀ cs ∈ css, IsComponent cs := by
  simp only [components_eq_ok_iff, ← exists_component_iff]
  induction css with
  | nil => simp
  | cons cs css ih =>
    simp only [List.forall_mem_cons, ← ih, List.forall₂_cons_left_iff]
    constructor
    · rintro ⟨_, node, more, read, rest_read, -⟩
      exact ⟨⟨node, read⟩, more, rest_read⟩
    · rintro ⟨⟨node, read⟩, more, rest_read⟩
      exact ⟨_, node, more, read, rest_read, rfl⟩

theorem components_cons_eq_error_iff {cs : List Char} :
    (components (cs :: css)).outcome = .error fault ↔ (component cs).outcome = .error fault ∨
      IsComponent cs ∧ (components css).outcome = .error fault := by
  rw [components, Reading.outcome_bind_eq_error_iff, ← exists_component_iff]
  simp only [Reading.outcome_bind_eq_error_iff, Reading.outcome_pure, reduceCtorEq, and_false,
    exists_false, or_false, exists_and_right]

/-- The first fault of two lists of components is in the second only if the first has none. -/
theorem components_append_eq_error_iff {css' : List (List Char)} :
    (components (css ++ css')).outcome = .error fault ↔
      (components css).outcome = .error fault ∨
        (∀ cs ∈ css, IsComponent cs) ∧ (components css').outcome = .error fault := by
  induction css with
  | nil => simp [components, Reading.outcome_done]
  | cons cs css ih =>
    rw [List.cons_append, components_cons_eq_error_iff, components_cons_eq_error_iff, ih,
      List.forall_mem_cons]
    tauto

/-- Empty components are read to nothing. -/
theorem components_replicate_nil (n : Nat) :
    (components (List.replicate n [])).outcome = .ok (List.replicate n .empty) := by
  rw [components_eq_ok_iff]
  induction n with
  | zero => exact .nil
  | succ n ih => exact .cons component_nil ih

/-- For layouts at hand, their components are read to the nodes that they give. -/
theorem components_of_layouts {layouts : List Layout} (valid : ∀ l ∈ layouts, l.WellFormed) :
    List.Forall₂ (fun l node => (component (Layout.chars l)).outcome = .ok node) layouts ns ↔
      List.Forall₂ Layout.Gives layouts ns := by
  induction layouts generalizing ns with
  | nil => simp
  | cons l layouts ih =>
    obtain ⟨first, more⟩ := List.forall_mem_cons.1 valid
    simp only [List.forall₂_cons_left_iff, component_of_layout first, ih more]

/-! ### Templates -/

theorem componentTexts_eq (template : String) :
    componentTexts template = pieces '/' (trimSep '/' template.toList) := by
  rw [Text.pieces_eq_splitOn]
  rfl

/-- A template that is not empty compiles to the path of the trees of its components. -/
theorem compile_eq_ok_iff {template : String} {tree : Node} (nonempty : template ≠ "") :
    compile template = .ok tree ↔ ∃ children, tree = .path children ∧
      (components (componentTexts template)).outcome = .ok children := by
  have some : template.toList ≠ [] := mt String.toList_eq_nil_iff.1 nonempty
  rw [compile, read, if_neg some, Reading.outcome_bind_eq_ok_iff, componentTexts_eq]
  constructor
  · rintro ⟨children, parts, h⟩
    cases h
    exact ⟨children, rfl, parts⟩
  · rintro ⟨children, rfl, parts⟩
    exact ⟨children, parts, rfl⟩

theorem compile_empty : compile "" = .ok .empty := by
  simp [compile, read, Reading.outcome_done]

theorem exists_ok_iff {ε α : Type} {x : Except ε α} : (∃ a, x = .ok a) ↔ ∀ e, x ≠ .error e := by
  cases x <;> simp

/-- The fault of a template is that of its components. -/
theorem compile_eq_error_iff_componentTexts {template : String} :
    compile template = .error fault ↔
      (components (componentTexts template)).outcome = .error fault := by
  rw [compile, read, componentTexts_eq]
  by_cases empty : template.toList = []
  · have none : (components [[]]).outcome = .ok [.empty] := components_replicate_nil 1
    rw [if_pos empty, empty]
    simp [trimSep, pieces, none, Reading.outcome_done]
  · rw [if_neg empty, Reading.outcome_bind_eq_error_iff]
    simp

/-- The slashes at the ends of a template do not matter for its fault. -/
theorem compile_eq_error_iff {template : String} :
    compile template = .error fault ↔
      (components (pieces '/' template.toList)).outcome = .error fault := by
  obtain ⟨m, n, split⟩ := Text.pieces_eq_append_trimSep_append '/' template.toList
  rw [compile_eq_error_iff_componentTexts, componentTexts_eq, split,
    components_append_eq_error_iff, components_append_eq_error_iff,
    and_iff_right fun cs => isComponent_of_mem_replicate]
  simp only [components_replicate_nil, reduceCtorEq, false_or, and_false, or_false]

/-- Nor do they matter for whether it compiles. -/
theorem exists_compile_iff {template : String} :
    (∃ tree, compile template = .ok tree) ↔
      ∀ cs ∈ pieces '/' template.toList, IsComponent cs := by
  rw [← exists_components_iff, exists_ok_iff, exists_ok_iff]
  simp only [ne_eq, compile_eq_error_iff]

/-- A template compiles exactly if every component has a well-formed layout, which is then the
only one, and to the path of the nodes that the layouts give. -/
theorem compile_iff_grammar {template : String} (nonempty : template ≠ "") :
    ((∃ tree, compile template = .ok tree) ↔
      ∀ cs ∈ componentTexts template, ∃ l : Layout, l.WellFormed ∧ l.chars = cs) ∧
    (∀ l l' : Layout, l.WellFormed → l'.WellFormed → l.chars = l'.chars → l = l') ∧
    ∀ layouts : List Layout, (∀ l ∈ layouts, l.WellFormed) →
      layouts.map Layout.chars = componentTexts template →
      ∀ tree, compile template = .ok tree ↔
        ∃ children, tree = .path children ∧ List.Forall₂ Layout.Gives layouts children := by
  refine ⟨?_, fun l l' => Layout.eq_of_chars_eq, ?_⟩
  · refine Iff.trans ?_ exists_components_iff
    simp only [compile_eq_ok_iff nonempty]
    constructor
    · rintro ⟨_, children, -, parts⟩
      exact ⟨children, parts⟩
    · rintro ⟨children, parts⟩
      exact ⟨_, children, rfl, parts⟩
  · intro layouts valid same tree
    simp only [compile_eq_ok_iff nonempty, ← same, components_eq_ok_iff,
      List.forall₂_map_left_iff, components_of_layouts valid]

/-- The grammar at work on a stray brace, a keyword and two operands with signs. -/
theorem compile_of_layouts :
    "/a\x7d/{doy}-{-01:+7}/" ≠ "" ∧ compile "/a\x7d/{doy}-{-01:+7}/" =
      .ok (.path [.literal "a\x7d", .compound [.keyword "doy", .literal "-", .slice (-1) 7]]) := by
  have nonempty : "/a\x7d/{doy}-{-01:+7}/" ≠ "" := by decide
  have begin : Numeral "-01".toList (-1 : Int64).toInt := Integer.read_eq_ok_iff.1 (by decide)
  have finish : Numeral "+7".toList (7 : Int64).toInt := Integer.read_eq_ok_iff.1 (by decide)
  have keyword : Denotes "doy".toList (.keyword "doy") := .keyword (by simp [LooksNumeric])
  have slice := Denotes.slice (by simp [LooksNumeric]) begin finish
  have single : (Layout.last "a\x7d".toList).WellFormed := by simp [Layout.WellFormed]
  have several : (Layout.span [] "doy".toList
      (.span "-".toList ("-01".toList ++ ':' :: "+7".toList) (.last []))).WellFormed :=
    ⟨by simp, keyword.isBody (by simp) (by simp), by simp, slice.isBody (by simp) (by simp),
      by simp [Layout.WellFormed]⟩
  refine ⟨nonempty, ((compile_iff_grammar nonempty).2.2 _
    (List.forall_mem_cons.2 ⟨single, List.forall_mem_singleton.2 several⟩) (by decide) _).2
    ⟨_, rfl, .cons ?_ (.cons ?_ .nil)⟩⟩
  · exact ⟨_, .last (.some (by simp)), .one _⟩
  · exact ⟨_, .span .none keyword (.span (.some (by simp)) slice (.last .none)),
      .several (by simp)⟩

end PathPattern.Template
