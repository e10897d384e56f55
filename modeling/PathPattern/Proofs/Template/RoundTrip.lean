import Mathlib.Data.List.Chain
import PathPattern.Proofs.Template.Acceptance
import PathPattern.Template.Writing

/-!
# Trees that templates compile to

`IsCompiled` describes, by the shape of a tree alone, the trees that some template compiles to.
Each of them is read back from its own written form. The two halves meet in the layouts: the
nodes of a component without slashes are leaves with no two fixed texts side by side
(`isRun_of_layout`), and every such run has a layout whose text is its written form
(`exists_layout_of_run`).
-/

namespace PathPattern.Template

open Integer (Numeral signedDecimal)
open Text (pieces trimSep)

variable {node : Node} {ns children : List Node} {cs : List Char} {l : Layout}

/-! ### The shape of compiled trees -/

/-- A leaf whose text cannot be taken for anything else. -/
inductive IsLeaf : Node → Prop where
  | literal {text : String} (nonempty : text ≠ "") (slash : '/' ∉ text.toList)
    (brace : '{' ∉ text.toList) : IsLeaf (.literal text)
  | keyword {name : String} (nonempty : name ≠ "") (slash : '/' ∉ name.toList)
    (brace : '}' ∉ name.toList) (plain : ¬LooksNumeric name.toList) : IsLeaf (.keyword name)
  | index (i : Int64) : IsLeaf (.index i)
  | slice (i j : Int64) : IsLeaf (.slice i j)

/-- Not both of the nodes are fixed texts. -/
def Apart : Node → Node → Prop
  | .literal _, .literal _ => False
  | _, _ => True

/-- Leaves that can stand side by side in a component. -/
structure IsRun (ns : List Node) : Prop where
  leaves : ∀ node ∈ ns, IsLeaf node
  apart : ns.IsChain Apart

/-- The tree of a component: nothing, a leaf, or a compound of several leaves. -/
inductive IsChild : Node → Prop where
  | empty : IsChild .empty
  | leaf {node : Node} (leaf : IsLeaf node) : IsChild node
  | compound {ns : List Node} (several : 2 ≤ ns.length) (run : IsRun ns) : IsChild (.compound ns)

/-- The tree of a template: nothing, or a path of trees of components which, unless there is
only one, neither starts nor ends with nothing. -/
inductive IsCompiled : Node → Prop where
  | empty : IsCompiled .empty
  | path {children : List Node} (nonempty : children ≠ []) (parts : ∀ c ∈ children, IsChild c)
    (ends : 2 ≤ children.length →
      children.head? ≠ some .empty ∧ children.getLast? ≠ some .empty) :
    IsCompiled (.path children)

theorem apart_of_not_literal (h : ∀ text, node ≠ .literal text) (other : Node) :
    Apart node other ∧ Apart other node := by
  cases node with
  | literal text => exact absurd rfl (h text)
  | _ => cases other <;> simp [Apart]

theorem isRun_nil : IsRun [] := ⟨by simp, .nil⟩

theorem isRun_cons_iff :
    IsRun (node :: ns) ↔ IsLeaf node ∧ (∀ next ∈ ns.head?, Apart node next) ∧ IsRun ns := by
  constructor
  · rintro ⟨leaves, apart⟩
    obtain ⟨first, more⟩ := List.forall_mem_cons.1 leaves
    obtain ⟨next, chain⟩ := List.isChain_cons.1 apart
    exact ⟨first, next, more, chain⟩
  · rintro ⟨first, next, more, chain⟩
    exact ⟨List.forall_mem_cons.2 ⟨first, more⟩, List.isChain_cons.2 ⟨next, chain⟩⟩

/-- The trees of components are what runs of leaves combine to. -/
theorem isChild_iff : IsChild node ↔ ∃ ns, IsRun ns ∧ Combined ns node := by
  constructor
  · intro h
    cases h with
    | empty => exact ⟨[], isRun_nil, .none⟩
    | leaf leaf => exact ⟨[node], isRun_cons_iff.2 ⟨leaf, by simp, isRun_nil⟩, .one node⟩
    | compound several run => exact ⟨_, run, .several several⟩
  · rintro ⟨ns, run, combined⟩
    cases combined with
    | none => exact .empty
    | one => exact .leaf (run.leaves node (by simp))
    | several several => exact .compound several run

/-! ### From layouts to runs -/

/-- Placeholders stand for leaves other than fixed texts. -/
theorem Denotes.isLeaf {body : List Char} (h : Denotes body node) (isBody : IsBody body)
    (slash : '/' ∉ body) : IsLeaf node ∧ ∀ text, node ≠ .literal text := by
  cases h with
  | keyword plain =>
    refine ⟨.keyword ?_ ?_ ?_ ?_, by simp⟩
    · exact mt String.ofList_eq_empty_iff.1 isBody.nonempty
    · rwa [String.toList_ofList]
    · rw [String.toList_ofList]
      exact isBody.closed
    · rwa [String.toList_ofList]
  | index => exact ⟨.index _, by simp⟩
  | slice => exact ⟨.slice _ _, by simp⟩

theorem FixedText.isRun_append {text : List Char} {fixed : List Node} (h : FixedText text fixed)
    (slash : '/' ∉ text) (brace : '{' ∉ text) (run : IsRun ns)
    (next : ∀ node ∈ ns.head?, ∀ text, node ≠ .literal text) : IsRun (fixed ++ ns) := by
  cases h with
  | none => exact run
  | some nonempty =>
    refine isRun_cons_iff.2 ⟨.literal ?_ ?_ ?_, ?_, run⟩
    · exact mt String.ofList_eq_empty_iff.1 nonempty
    · rwa [String.toList_ofList]
    · rwa [String.toList_ofList]
    · exact fun node mem => (apart_of_not_literal (next node mem) _).2

/-- The nodes of a component without slashes make a run. -/
theorem isRun_of_layout (nodes_l : l.Nodes ns) (valid : l.WellFormed) (slash : '/' ∉ l.chars) :
    IsRun ns := by
  induction nodes_l with
  | last literal =>
    have run := literal.isRun_append slash valid isRun_nil (by simp)
    rwa [List.append_nil] at run
  | span literal denotes _ ih =>
    obtain ⟨free, isBody, more⟩ := valid
    simp only [Layout.chars, List.mem_append, List.mem_cons, not_or] at slash
    obtain ⟨before, -, inside, -, behind⟩ := slash
    obtain ⟨leaf, fluid⟩ := denotes.isLeaf isBody inside
    refine literal.isRun_append before free ?_ (by simpa using fluid)
    exact isRun_cons_iff.2 ⟨leaf, fun next _ => (apart_of_not_literal fluid next).1,
      ih more behind⟩

/-! ### From runs to layouts -/

theorem looksNumeric_signedDecimal (v : Int) (rest : List Char) :
    LooksNumeric (signedDecimal v ++ rest) := by
  obtain ⟨c, cs, first, start⟩ := Integer.signedDecimal_eq_cons v
  exact ⟨c, by simp [first], start⟩

/-- A leaf other than a fixed text is written as a body between braces. -/
theorem IsLeaf.exists_body (h : IsLeaf node) (fluid : ∀ text, node ≠ .literal text) :
    ∃ body, write node = '{' :: (body ++ ['}']) ∧ IsBody body ∧ Denotes body node ∧
      '/' ∉ body := by
  have decimal (i : Int64) := Integer.numeral_signedDecimal i.toInt
  cases h with
  | literal => exact absurd rfl (fluid _)
  | @keyword name nonempty slash brace plain =>
    have denotes : Denotes name.toList (.keyword name) := by
      conv => arg 2; rw [← String.ofList_toList (s := name)]
      exact .keyword plain
    exact ⟨name.toList, rfl,
      denotes.isBody (mt String.toList_eq_nil_iff.1 nonempty) brace, denotes, slash⟩
  | index i =>
    have numeric := looksNumeric_signedDecimal i.toInt []
    rw [List.append_nil] at numeric
    have denotes := Denotes.index numeric (decimal i)
    exact ⟨_, rfl, denotes.isBody (decimal i).nonempty ((decimal i).not_mem (by decide)), denotes,
      (decimal i).not_mem (by decide)⟩
  | slice i j =>
    have denotes :=
      Denotes.slice (looksNumeric_signedDecimal i.toInt _) (decimal i) (decimal j)
    have free (c : Char) (other : ¬(c.isDigit = true ∨ c = '+' ∨ c = '-')) (colon : c ≠ ':') :
        c ∉ signedDecimal i.toInt ++ ':' :: signedDecimal j.toInt := by
      simp [(decimal i).not_mem other, (decimal j).not_mem other, colon]
    exact ⟨_, by simp [write], denotes.isBody (by simp) (free _ (by decide) (by decide)), denotes,
      free _ (by decide) (by decide)⟩

namespace Layout

/-- The layout with a text put before it. -/
def prepend (text : List Char) : Layout → Layout
  | last first => last (text ++ first)
  | span first body rest => span (text ++ first) body rest

theorem chars_prepend (text : List Char) (l : Layout) :
    (l.prepend text).chars = text ++ l.chars := by
  cases l <;> simp [prepend, chars]

theorem WellFormed.prepend {text : List Char} (h : l.WellFormed) (free : '{' ∉ text) :
    (l.prepend text).WellFormed := by
  cases l with
  | last first => simpa [Layout.prepend, WellFormed, free] using h
  | span first body rest => simpa [Layout.prepend, WellFormed, free] using h

/-- A text before a layout that does not start with one becomes a node of its own. -/
theorem Nodes.prepend {text : List Char} (h : l.Nodes ns)
    (fluid : ∀ node ∈ ns.head?, ∀ text, node ≠ .literal text) (nonempty : text ≠ []) :
    (l.prepend text).Nodes (.literal (String.ofList text) :: ns) := by
  cases h with
  | last literal =>
    cases literal with
    | none =>
      rw [Layout.prepend, List.append_nil]
      exact .last (.some nonempty)
    | some => exact absurd rfl (fluid _ rfl _)
  | span literal denotes rest_nodes =>
    cases literal with
    | none =>
      rw [Layout.prepend, List.append_nil]
      exact .span (.some nonempty) denotes rest_nodes
    | some => exact absurd rfl (fluid _ rfl _)

end Layout

/-- A run has a layout, which divides its written form. -/
theorem exists_layout_of_run (run : IsRun ns) :
    ∃ l : Layout, l.WellFormed ∧ l.Nodes ns ∧ l.chars = (ns.map write).flatten ∧
      '/' ∉ l.chars := by
  induction ns with
  | nil => exact ⟨.last [], by simp [Layout.WellFormed], .last .none, rfl, by simp [Layout.chars]⟩
  | cons node ns ih =>
    obtain ⟨leaf, next, more⟩ := isRun_cons_iff.1 run
    obtain ⟨l, valid, nodes_l, same, slash⟩ := ih more
    by_cases fixed : ∃ text, node = .literal text
    · obtain ⟨text, rfl⟩ := fixed
      cases leaf with
      | literal nonempty free brace =>
        have fluid : ∀ node ∈ ns.head?, ∀ text, node ≠ .literal text := by
          rintro node mem text rfl
          exact next _ mem
        have some := mt String.toList_eq_nil_iff.1 nonempty
        refine ⟨l.prepend text.toList, valid.prepend brace, ?_, ?_, ?_⟩
        · simpa using nodes_l.prepend fluid some
        · simp [Layout.chars_prepend, same, write]
        · simp [Layout.chars_prepend, slash, free]
    · have fluid : ∀ text, node ≠ .literal text := fun text same => fixed ⟨text, same⟩
      obtain ⟨body, written, isBody, denotes, free⟩ := leaf.exists_body fluid
      refine ⟨.span [] body l, ⟨by simp, isBody, valid⟩, .span .none denotes nodes_l, ?_, ?_⟩
      · simp [Layout.chars, written, same]
      · simp [Layout.chars, free, slash]

/-! ### Components -/

/-- Without slashes, a component is read to the tree of a component. -/
theorem isChild_of_component (h : (component cs).outcome = .ok node) (slash : '/' ∉ cs) :
    IsChild node := by
  obtain ⟨l, valid, rfl, ns, nodes_l, combined⟩ := component_eq_ok_iff.1 h
  exact isChild_iff.2 ⟨ns, isRun_of_layout nodes_l valid slash, combined⟩

theorem write_of_combined (h : Combined ns node) : write node = (ns.map write).flatten := by
  cases h with
  | none => rfl
  | one => simp
  | several => rw [write, writeAll_eq_map]

/-- The tree of a component is read back from its written form, which has no slash. -/
theorem component_write (h : IsChild node) :
    (component (write node)).outcome = .ok node ∧ '/' ∉ write node := by
  obtain ⟨ns, run, combined⟩ := isChild_iff.1 h
  obtain ⟨l, valid, nodes_l, same, slash⟩ := exists_layout_of_run run
  rw [write_of_combined combined, ← same]
  exact ⟨(component_of_layout valid).2 ⟨ns, nodes_l, combined⟩, slash⟩

theorem chars_eq_nil_of_nodes_nil (h : l.Nodes []) : l.chars = [] := by
  generalize same : [] = ns at h
  cases h with
  | last literal =>
    cases literal with
    | none => rfl
    | some => cases same
  | span => simp at same

/-- Only the empty component is read to nothing. -/
theorem component_eq_empty_iff (slash : '/' ∉ cs) (h : (component cs).outcome = .ok node) :
    node = .empty ↔ cs = [] := by
  constructor
  · rintro rfl
    obtain ⟨l, valid, rfl, ns, nodes_l, combined⟩ := component_eq_ok_iff.1 h
    have run := isRun_of_layout nodes_l valid slash
    cases combined with
    | none => exact chars_eq_nil_of_nodes_nil nodes_l
    | one => nomatch run.leaves .empty (by simp)
  · rintro rfl
    rw [component_nil] at h
    cases h
    rfl

/-! ### Templates -/

section Components

variable {css : List (List Char)}

/-- Nothing stands first or last in a path where an empty component does in the template. -/
theorem ends_iff (slash : ∀ cs ∈ css, '/' ∉ cs) (read : (components css).outcome = .ok children) :
    (children.head? = some .empty ↔ css.head? = some []) ∧
      (children.getLast? = some .empty ↔ css.getLast? = some []) := by
  have parts := components_eq_ok_iff.1 read
  have first {css : List (List Char)} {children : List Node} (slash : ∀ cs ∈ css, '/' ∉ cs)
      (parts : List.Forall₂ (fun cs node => (component cs).outcome = .ok node) css children) :
      children.head? = some .empty ↔ css.head? = some [] := by
    cases parts with
    | nil => simp
    | cons read => simpa using component_eq_empty_iff (slash _ (by simp)) read
  refine ⟨first slash parts, ?_⟩
  rw [← List.head?_reverse, ← List.head?_reverse]
  exact first (by simpa using slash) (List.forall₂_reverse_iff.2 parts)

/-- The components of a template are those of a text exactly if the text neither starts nor ends
with a slash. -/
theorem componentTexts_ofList (front : cs.head? ≠ some '/') (back : cs.getLast? ≠ some '/') :
    componentTexts (String.ofList cs) = pieces '/' cs := by
  rw [componentTexts_eq, String.toList_ofList, Text.trimSep_eq_self front back]

/-- What a template compiles to has the shape of a compiled tree. -/
theorem isCompiled_of_compile {template : String} {tree : Node}
    (h : compile template = .ok tree) : IsCompiled tree := by
  by_cases nonempty : template = ""
  · rw [nonempty, compile_empty] at h
    cases h
    exact .empty
  obtain ⟨children, rfl, read⟩ := (compile_eq_ok_iff nonempty).1 h
  rw [componentTexts_eq] at read
  have slash : ∀ cs ∈ pieces '/' (trimSep '/' template.toList), '/' ∉ cs := fun cs mem =>
    Text.not_mem_of_mem_pieces mem
  have parts := components_eq_ok_iff.1 read
  have ends := ends_iff slash read
  refine .path ?_ ?_ ?_
  · rintro rfl
    exact Text.pieces_ne_nil _ _ (List.forall₂_nil_right_iff.1 parts)
  · intro node mem
    obtain ⟨cs, mem, read⟩ := exists_component_of_mem read mem
    exact isChild_of_component read (slash cs mem)
  · intro several
    rw [← parts.length_eq] at several
    exact ⟨fun first => Text.head?_trimSep '/' _ (Text.head?_eq_sep_iff.2 ⟨several, ends.1.1 first⟩),
      fun last => Text.getLast?_trimSep '/' _ (Text.getLast?_eq_sep_iff.2 ⟨several, ends.2.1 last⟩)⟩

end Components

theorem write_eq_nil_iff (h : IsChild node) : write node = [] ↔ node = .empty := by
  obtain ⟨read, slash⟩ := component_write h
  exact (component_eq_empty_iff slash read).symm

theorem write_path (parts : ∀ c ∈ children, IsChild c) (some : children ≠ [.empty]) :
    write (.path children) = ['/'].intercalate (children.map write) := by
  rw [write, writeAll_eq_map]
  split
  · next alone =>
    obtain ⟨c, rfl, nothing⟩ := List.map_eq_singleton_iff.1 alone
    exact absurd (congrArg ([·]) ((write_eq_nil_iff (parts c (by simp))).1 nothing)) some
  · rfl

theorem components_map_write (parts : ∀ c ∈ children, IsChild c) :
    (components (children.map write)).outcome = .ok children := by
  rw [components_eq_ok_iff, List.forall₂_map_left_iff, List.forall₂_same]
  exact fun c mem => (component_write (parts c mem)).1

theorem components_nil : (components (pieces '/' [])).outcome = .ok [.empty] :=
  components_replicate_nil 1

theorem compile_slash : compile (String.ofList ['/']) = .ok (.path [.empty]) := by
  refine (compile_eq_ok_iff (by simp)).2 ⟨_, rfl, ?_⟩
  rw [componentTexts_eq, String.toList_ofList]
  exact components_nil

/-- A tree of the shape of a compiled one is what its written form compiles to. -/
theorem compile_write {tree : Node} (h : IsCompiled tree) :
    compile (String.ofList (write tree)) = .ok tree := by
  cases h with
  | empty => exact compile_empty
  | @path children nonempty parts ends =>
    by_cases alone : children = [.empty]
    · rw [alone]
      exact compile_slash
    have slash : ∀ cs ∈ children.map write, '/' ∉ cs := by
      simpa using fun c mem => (component_write (parts c mem)).2
    have split := Text.pieces_intercalate slash (by simpa using nonempty)
    have read := components_map_write parts
    rw [write_path parts alone]
    generalize ['/'].intercalate (children.map write) = cs at split
    rw [← split] at read slash
    have count : (pieces '/' cs).length = children.length := by rw [split, List.length_map]
    have both := ends_iff slash read
    have front : cs.head? ≠ some '/' := fun first => by
      obtain ⟨several, first⟩ := Text.head?_eq_sep_iff.1 first
      exact (ends (count ▸ several)).1 (both.1.2 first)
    have back : cs.getLast? ≠ some '/' := fun last => by
      obtain ⟨several, last⟩ := Text.getLast?_eq_sep_iff.1 last
      exact (ends (count ▸ several)).2 (both.2.2 last)
    have some : String.ofList cs ≠ "" := by
      intro empty
      rw [String.ofList_eq_empty_iff] at empty
      rw [empty] at read
      cases components_nil.symm.trans read
      exact alone rfl
    exact (compile_eq_ok_iff some).2 ⟨children, rfl, by rwa [componentTexts_ofList front back]⟩

/-- The trees that templates compile to are exactly those of the shape of a compiled tree, and
each of them is what its own written form compiles to. -/
theorem compile_write_iff_isCompiled (tree : Node) :
    ((∃ template, compile template = .ok tree) ↔ IsCompiled tree) ∧
      (IsCompiled tree → compile (String.ofList (write tree)) = .ok tree) :=
  ⟨⟨fun ⟨_, h⟩ => isCompiled_of_compile h, fun h => ⟨_, compile_write h⟩⟩, compile_write⟩

end PathPattern.Template
