import PathPattern.Proofs.Keyword.Meaning
import PathPattern.Proofs.Node.Leaves
import PathPattern.Proofs.Path.Clean
import PathPattern.Proofs.Template.RoundTrip
import PathPattern.Proofs.Text.Label

/-!
# Clean paths from templates

Where the texts of a record have no slash, no field has one, and the directories of its file never
have. So every leaf of a compiled tree gives a clean path: fixed texts and keywords a single part
or none, an index one directory or nothing, and a slice directories glued together. Compounds and
paths keep paths clean, whatever comes out empty, and the path of a template is clean.
-/

namespace PathPattern

variable {r : Record} {segments : List String}

/-- No text of the record from which a field is made has a slash. The media type has one, but not
behind the type. -/
structure Record.IsFlat (r : Record) : Prop where
  source : '/' ∉ r.source.toList
  model : '/' ∉ r.model.toList
  kind : '/' ∉ r.kind.toList
  subtype : '/' ∉ (subtype r.mime).toList

/-! ### Fields -/

theorem Field.slash_not_mem_extract (flat : r.IsFlat) (f : Field) :
    '/' ∉ (f.extract r).toList := by
  have decimal (v : Int) : '/' ∉ (String.ofList (Integer.signedDecimal v)).toList := by
    rw [String.toList_ofList]
    exact (Integer.numeral_signedDecimal v).not_mem (by decide)
  have padded (width n : Nat) : '/' ∉ (String.ofList (Integer.padded width n)).toList := by
    rw [String.toList_ofList]
    intro mem
    exact absurd ((Integer.digitRun_padded width n).digits _ mem) (by decide)
  cases f with
  | source => exact slash_not_mem_label flat.source
  | run => exact flat.source
  | model => exact slash_not_mem_label flat.model
  | mime => exact slash_not_mem_label flat.subtype
  | kind => exact slash_not_mem_label flat.kind
  | level | year | timestamp => exact decimal _
  | dayOfYear | month | day | hour | minute | second => exact padded _ _

/-- A name gives one part or none. -/
theorem Keyword.isClean_resolve (flat : r.IsFlat) (name : String) : IsClean (resolve name r) := by
  cases found : Field.lookup name with
  | none =>
    rw [resolve_of_lookup_eq_none found]
    exact isClean_empty
  | some f =>
    rw [resolve_of_lookup_eq_some found]
    exact isClean_of_not_mem (f.slash_not_mem_extract flat)

/-! ### Directories -/

section Directories

variable (clean : ∀ segment ∈ segments, IsClean segment)

include clean

theorem isClean_getD (n : Nat) : IsClean (segments.getD n "") := by
  rw [List.getD_eq_getElem?_getD]
  cases found : segments[n]? with
  | none => exact isClean_empty
  | some segment => exact clean segment (List.mem_of_getElem? found)

theorem isClean_segmentAt (i : Int64) : IsClean (segmentAt segments i) := by
  simp only [segmentAt]
  generalize (if i < 0 then i + segmentCount segments else i) = position
  split
  · exact isClean_empty
  · exact isClean_getD clean _

theorem isClean_segmentsBetween (first last : Int64) :
    IsClean (segmentsBetween segments first last) := by
  simp only [segmentsBetween]
  split
  · exact isClean_getD clean _
  · split
    · apply isClean_joinPath
      intro segment mem
      exact clean segment (List.mem_of_mem_drop (List.mem_of_mem_take mem))
    · exact isClean_empty

end Directories

namespace Template

variable {node tree leaf : Node} {template : String}

/-! ### Leaves of compiled trees -/

theorem IsLeaf.leaves_eq (h : IsLeaf node) : node.leaves = [node] := by
  cases h <;> rfl

theorem IsLeaf.isClean_resolve (h : IsLeaf node) (flat : r.IsFlat) : IsClean (node.resolve r) := by
  have directories : ∀ segment ∈ directorySegments r.file, IsClean segment := fun _ mem =>
    isClean_of_not_mem (slash_not_mem_of_mem_directorySegments mem)
  cases h with
  | literal nonempty slash brace =>
    rw [Node.resolve]
    exact isClean_of_not_mem slash
  | keyword =>
    rw [Node.resolve]
    exact Keyword.isClean_resolve flat _
  | index i =>
    rw [Node.resolve]
    exact isClean_segmentAt directories i
  | slice i j =>
    rw [Node.resolve]
    exact isClean_segmentsBetween directories i j

theorem IsChild.eq_empty_or_isLeaf (h : IsChild node) (mem : leaf ∈ node.leaves) :
    leaf = .empty ∨ IsLeaf leaf := by
  cases h with
  | empty => exact .inl (List.mem_singleton.1 mem)
  | leaf isLeaf =>
    rw [isLeaf.leaves_eq, List.mem_singleton] at mem
    exact .inr (mem ▸ isLeaf)
  | @compound ns several run =>
    have below : ∀ leaf ∈ Node.leavesAll ns, IsLeaf leaf := by
      rw [Node.forall_mem_leavesAll]
      intro child inside leaf mem
      have isLeaf := run.leaves child inside
      rw [isLeaf.leaves_eq, List.mem_singleton] at mem
      exact mem ▸ isLeaf
    exact .inr (below leaf mem)

/-- The leaves of a compiled tree are those of its components. -/
theorem IsCompiled.eq_empty_or_isLeaf (h : IsCompiled tree) :
    ∀ leaf ∈ tree.leaves, leaf = .empty ∨ IsLeaf leaf := by
  cases h with
  | empty => simp [Node.leaves]
  | path nonempty parts ends =>
    rw [Node.leaves, Node.forall_mem_leavesAll]
    intro child inside leaf mem
    exact (parts child inside).eq_empty_or_isLeaf mem

/-! ### Paths of templates -/

theorem IsCompiled.isClean_resolve (h : IsCompiled tree) (flat : r.IsFlat) :
    IsClean (tree.resolve r) := by
  apply Node.resolve_of_leaves isClean_empty (fun _ _ => IsClean.append) fun _ _ => IsClean.glue
  intro leaf mem
  rcases h.eq_empty_or_isLeaf leaf mem with rfl | isLeaf
  · exact isClean_empty
  · exact isLeaf.isClean_resolve flat

/-- A template that compiles gives every record without slashes in its texts a clean path, wherever
its file is and whatever the placeholders leave out: parts that are not empty, with a slash between
any two and no other. -/
theorem isClean_resolve_of_compile (h : compile template = .ok tree) (flat : r.IsFlat) :
    IsClean (tree.resolve r) ∧ (tree.resolve r).toList.head? ≠ some '/' ∧
      (tree.resolve r).toList.getLast? ≠ some '/' ∧
      ¬['/', '/'] <:+: (tree.resolve r).toList := by
  have clean := (isCompiled_of_compile h).isClean_resolve flat
  exact ⟨clean, clean.head?_ne_slash, clean.getLast?_ne_slash, clean.not_double_slash⟩

/-- Doubled slashes in the template and in the file leave no trace, nor does a name for nothing. -/
theorem isClean_resolve_sparse :
    ∃ tree r, compile "//{bogus}/{0:2}{-1}//{source}{8}/" = .ok tree ∧
      r = { Record.blank with
        source := "main unit", mime := "image/x-raw; a=1/2", file := "//a//b/c.dat" } ∧
      r.IsFlat ∧ tree.resolve r = "a/bb/MainUnit" ∧
      IsClean (tree.resolve r) ∧ (tree.resolve r).toList.head? ≠ some '/' ∧
      (tree.resolve r).toList.getLast? ≠ some '/' ∧
      ¬['/', '/'] <:+: (tree.resolve r).toList := by
  have compiles : compile "//{bogus}/{0:2}{-1}//{source}{8}/" = .ok (.path [.keyword "bogus",
      .compound [.slice 0 2, .index (-1)], .empty, .compound [.keyword "source", .index 8]]) := by
    decide +kernel
  refine ⟨_, _, compiles, rfl, ?_, by decide +kernel, isClean_resolve_of_compile compiles ?_⟩
  all_goals exact ⟨by decide +kernel, by decide +kernel, by decide +kernel, by decide +kernel⟩

end Template

end PathPattern
