import PathPattern.Proofs.Template.Acceptance

/-!
# Templates with a slash between them

The pieces of two templates with a slash between them are the pieces of the one and then those of
the other. A template is its pieces without the empty ones at its ends (`exists_pieces_of_compile`),
and empty pieces are read to trees that leave no trace in a path. So two templates compile together
exactly if they compile apart, the first fault of the two is told, and their paths are glued.
-/

namespace PathPattern.Template

open Text (pieces trimSep)

variable {s t template : String} {tree left right : Node} {fault : TemplateFault}

/-! ### Lists of components -/

theorem components_append_of_ok {css css' : List (List Char)} {ns ns' : List Node}
    (front : (components css).outcome = .ok ns) (back : (components css').outcome = .ok ns') :
    (components (css ++ css')).outcome = .ok (ns ++ ns') := by
  rw [components_eq_ok_iff] at front back ⊢
  exact List.rel_append front back

/-- Trees of empty components leave no trace in a path. -/
theorem joinPath_map_replicate_empty (r : Record) (n : Nat) :
    joinPath ((List.replicate n Node.empty).map (Node.resolve r)) = "" := by
  induction n with
  | zero => rfl
  | succ n ih => rw [List.replicate_succ, List.map_cons, joinPath_cons, ih]; rfl

/-! ### Pieces -/

/-- A template that compiles gives the path of all its pieces, also of those at its ends. -/
theorem exists_pieces_of_compile (h : compile template = .ok tree) :
    ∃ children, (components (pieces '/' template.toList)).outcome = .ok children ∧
      ∀ r, tree.resolve r = joinPath (children.map (Node.resolve r)) := by
  by_cases empty : template = ""
  · rw [empty, compile_empty] at h
    cases h
    exact ⟨[.empty], by rw [empty]; exact components_replicate_nil 1, fun r => rfl⟩
  obtain ⟨children, rfl, read⟩ := (compile_eq_ok_iff empty).1 h
  obtain ⟨m, n, split⟩ := Text.pieces_eq_append_trimSep_append '/' template.toList
  rw [componentTexts_eq] at read
  refine ⟨List.replicate m .empty ++ (children ++ List.replicate n .empty), ?_, fun r => ?_⟩
  · rw [split]
    exact components_append_of_ok (components_replicate_nil m)
      (components_append_of_ok read (components_replicate_nil n))
  · rw [Node.resolve, Node.resolveAll_eq_map, List.map_append, List.map_append, joinPath_append,
      joinPath_append, joinPath_map_replicate_empty, joinPath_map_replicate_empty,
      glue_empty_left, glue_empty_right]

theorem pieces_append_slash (s t : String) :
    pieces '/' (s ++ "/" ++ t).toList = pieces '/' s.toList ++ pieces '/' t.toList := by
  have chars : (s ++ "/" ++ t).toList = s.toList ++ '/' :: t.toList := by simp
  rw [chars, Text.pieces_append_cons]

/-! ### The seam -/

theorem exists_compile_append_slash_iff :
    (∃ tree, compile (s ++ "/" ++ t) = .ok tree) ↔
      (∃ left, compile s = .ok left) ∧ ∃ right, compile t = .ok right := by
  rw [exists_compile_iff, exists_compile_iff, exists_compile_iff, pieces_append_slash,
    List.forall_mem_append]

/-- The fault of the second template is told only if the first has none. -/
theorem compile_append_slash_eq_error_iff :
    compile (s ++ "/" ++ t) = .error fault ↔
      compile s = .error fault ∨ (∃ left, compile s = .ok left) ∧ compile t = .error fault := by
  rw [compile_eq_error_iff, compile_eq_error_iff, compile_eq_error_iff, exists_compile_iff,
    pieces_append_slash, components_append_eq_error_iff]

theorem resolve_append_slash (h : compile (s ++ "/" ++ t) = .ok tree) (first : compile s = .ok left)
    (second : compile t = .ok right) (r : Record) :
    tree.resolve r = glue (left.resolve r) (right.resolve r) := by
  obtain ⟨children, read, path⟩ := exists_pieces_of_compile h
  obtain ⟨front, readFront, pathFront⟩ := exists_pieces_of_compile first
  obtain ⟨back, readBack, pathBack⟩ := exists_pieces_of_compile second
  have parts := components_append_of_ok readFront readBack
  rw [← pieces_append_slash, read, Except.ok.injEq] at parts
  rw [path, pathFront, pathBack, parts, List.map_append, joinPath_append]

/-- Two templates with a slash between them compile exactly if both do, end in the fault of the
first that has one, and give the two paths with a slash between them, or the other path where one
is empty. -/
theorem compile_append_slash (s t : String) :
    ((∃ tree, compile (s ++ "/" ++ t) = .ok tree) ↔
      (∃ left, compile s = .ok left) ∧ ∃ right, compile t = .ok right) ∧
    (∀ fault, compile s = .error fault → compile (s ++ "/" ++ t) = .error fault) ∧
    (∀ left fault, compile s = .ok left → compile t = .error fault →
      compile (s ++ "/" ++ t) = .error fault) ∧
    ∀ left right, compile s = .ok left → compile t = .ok right →
      ∃ tree, compile (s ++ "/" ++ t) = .ok tree ∧ ∀ r,
        (right.resolve r = "" → tree.resolve r = left.resolve r) ∧
        (left.resolve r = "" → tree.resolve r = right.resolve r) ∧
        (left.resolve r ≠ "" → right.resolve r ≠ "" →
          tree.resolve r = left.resolve r ++ "/" ++ right.resolve r) := by
  refine ⟨exists_compile_append_slash_iff, ?_, ?_, ?_⟩
  · intro fault first
    exact compile_append_slash_eq_error_iff.2 (.inl first)
  · intro left fault first second
    exact compile_append_slash_eq_error_iff.2 (.inr ⟨⟨left, first⟩, second⟩)
  · intro left right first second
    obtain ⟨tree, h⟩ := exists_compile_append_slash_iff.2 ⟨⟨left, first⟩, right, second⟩
    refine ⟨tree, h, fun r => ?_⟩
    have path := resolve_append_slash h first second r
    refine ⟨?_, ?_, ?_⟩
    · intro nothing
      rw [path, nothing, glue_empty_right]
    · intro nothing
      rw [path, nothing, glue_empty_left]
    · intro some some'
      rw [path, glue, if_neg some, if_neg some']

end PathPattern.Template
