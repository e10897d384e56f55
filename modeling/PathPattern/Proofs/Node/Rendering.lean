import PathPattern.Proofs.Node.Shape
import PathPattern.Proofs.Template.RoundTrip

/-!
# What a diagnostic tells of a tree

A diagnostic shows a leaf as a word and its content in parentheses, and an empty child of a path not
at all. The word ends where the first parenthesis opens and, as long as no text or name closes one,
the content ends where the next closes. So what is shown of a child is told from whatever follows it
(`eq_of_render_append_eq`): compounds leaf by leaf, paths child by child. Templates that show the
same compile to the same tree but for the empty children (`render_eq_iff`).
-/

namespace PathPattern

open Integer (signedDecimal)
open Template (IsLeaf IsRun IsChild IsCompiled)

variable {a b node tree : Node} {as bs children : List Node} {xs ys : List Char} {r : Record}

/-- A path of parts that are not empty has a slash before each of them but the first. -/
theorem toList_joinPath_cons {path : String} {paths : List String} (some : path ≠ "")
    (more : ∀ p ∈ paths, p ≠ "") :
    (joinPath (path :: paths)).toList = path.toList ++ paths.flatMap fun p => '/' :: p.toList := by
  induction paths generalizing path with
  | nil => simp [joinPath_cons, joinPath_nil, glue_empty_right]
  | cons next paths ih =>
    obtain ⟨nextSome, more⟩ := List.forall_mem_cons.1 more
    have rest : joinPath (next :: paths) ≠ "" := by
      rw [joinPath_cons, Ne, glue_eq_empty_iff]
      exact fun both => nextSome both.1
    rw [joinPath_cons, glue, if_neg some, if_neg rest, String.toList_append, String.toList_append,
      ih nextSome more]
    simp

namespace Node

/-! ### Empty children -/

/-- The tree without the empty children of its path. -/
def withoutEmpty : Node → Node
  | path children => path (children.filter (· ≠ empty))
  | node => node

theorem joinPath_map_filter_ne_empty {f : Node → String} (nothing : f empty = "")
    (children : List Node) :
    joinPath ((children.filter (· ≠ empty)).map f) = joinPath (children.map f) := by
  induction children with
  | nil => rfl
  | cons child children ih =>
    by_cases none : child = empty
    · simp [none, nothing, joinPath_cons, glue_empty_left, ← ih]
    · simp [none, joinPath_cons, ← ih]

theorem render_path (children : List Node) :
    render (path children) = "path(" ++ joinPath (children.map render) ++ ")" := by
  rw [render, renderAll_eq_map]

theorem render_withoutEmpty (tree : Node) : tree.withoutEmpty.render = tree.render := by
  cases tree with
  | path children =>
    rw [withoutEmpty, render_path, render_path, joinPath_map_filter_ne_empty rfl]
  | _ => rfl

/-- Empty children of a path are dropped one by one. -/
theorem alike_withoutEmpty (tree : Node) : tree.withoutEmpty.Alike tree := by
  cases tree with
  | path children =>
    induction children with
    | nil => exact .refl _
    | cons child children ih =>
      by_cases none : child = empty
      · have dropped : (Joint.path.tree []).Alike (Joint.path.tree [child]) := by
          rw [none]
          exact (Exchange.dropEmpty .path).alike.symm
        rw [withoutEmpty, List.filter_cons_of_neg (by simpa using none)]
        exact dropped.append ih
      · have kept : (Joint.path.tree [child]).Alike (Joint.path.tree [child]) := .refl _
        rw [withoutEmpty, List.filter_cons_of_pos (by simpa using none)]
        exact kept.append ih
  | _ => exact .refl _

theorem resolve_withoutEmpty (tree : Node) (r : Record) :
    tree.withoutEmpty.resolve r = tree.resolve r := (alike_withoutEmpty tree).resolve r

theorem isConstant_withoutEmpty (tree : Node) : tree.withoutEmpty.isConstant = tree.isConstant :=
  (alike_withoutEmpty tree).isConstant

/-! ### Words and contents -/

/-- The word that a diagnostic shows before the parenthesis. -/
def word : Node → String
  | empty => ""
  | literal _ => "literal"
  | keyword _ => "fragment"
  | index _ => "index"
  | slice _ _ => "range"
  | compound _ => "compound"
  | path _ => "path"

/-- What a diagnostic shows in the parentheses of a leaf. -/
def content : Node → List Char
  | literal text => text.toList
  | keyword name => name.toList
  | index i => signedDecimal i.toInt
  | slice first last => signedDecimal first.toInt ++ ':' :: signedDecimal last.toInt
  | _ => []

/-- The text or name of the leaf closes no parenthesis. -/
def ClosesNothing : Node → Prop
  | literal text => ')' ∉ text.toList
  | keyword name => ')' ∉ name.toList
  | _ => True

theorem paren_not_mem_word (node : Node) : '(' ∉ node.word.toList := by
  cases node <;> simp [word]

theorem render_of_isLeaf (leaf : IsLeaf a) :
    a.render.toList = a.word.toList ++ '(' :: (a.content ++ [')']) := by
  cases leaf <;> simp [render, Keyword.render, Integer.text, word, content]

theorem render_compound (children : List Node) :
    (render (compound children)).toList =
      "compound".toList ++ '(' :: (children.flatMap (·.render.toList) ++ [')']) := by
  have joined : (String.join (children.map render)).toList =
      children.flatMap (·.render.toList) := by
    induction children with
    | nil => rfl
    | cons child children ih => simp [String.join_cons, ih]
  rw [render, renderAll_eq_map, String.toList_append, String.toList_append, joined]
  simp

/-- What is not empty shows something, and no closing parenthesis first. -/
theorem exists_cons_render (some : node ≠ empty) :
    ∃ c cs, node.render.toList = c :: cs ∧ c ≠ ')' := by
  cases node with
  | empty => exact absurd rfl some
  | literal | keyword | index | slice | compound | path =>
    simp [render, Keyword.render]

theorem render_ne_empty (some : node ≠ empty) : node.render ≠ "" := by
  obtain ⟨c, cs, shown, -⟩ := exists_cons_render some
  intro nothing
  simp [nothing] at shown

theorem signedDecimal_injective {i j : Int64} (same : signedDecimal i.toInt = signedDecimal j.toInt) :
    i = j := by
  have first := Integer.read_eq_ok_iff.2 (Integer.numeral_signedDecimal i.toInt)
  have second := Integer.read_eq_ok_iff.2 (Integer.numeral_signedDecimal j.toInt)
  rw [same, second, Except.ok.injEq] at first
  exact first.symm

/-- A leaf is told by its word and its content. -/
theorem eq_of_word_content_eq (leafA : IsLeaf a) (leafB : IsLeaf b) (words : a.word = b.word)
    (contents : a.content = b.content) : a = b := by
  have colon (i : Int64) : ':' ∉ signedDecimal i.toInt :=
    Template.colon_not_mem_of_numeral (Integer.numeral_signedDecimal i.toInt)
  cases leafA with
  | literal =>
    cases leafB with
    | literal => exact congrArg literal (String.toList_inj.1 contents)
    | keyword | index | slice => simp [word] at words
  | keyword =>
    cases leafB with
    | keyword => exact congrArg keyword (String.toList_inj.1 contents)
    | literal | index | slice => simp [word] at words
  | index i =>
    cases leafB with
    | index j => exact congrArg index (signedDecimal_injective contents)
    | literal | keyword | slice => simp [word] at words
  | slice i j =>
    cases leafB with
    | slice k l =>
      obtain ⟨first, last⟩ := Text.first_unique (colon i) (colon k) contents
      rw [signedDecimal_injective first, signedDecimal_injective last]
    | literal | keyword | index => simp [word] at words

theorem paren_not_mem_content (leaf : IsLeaf a) (closes : a.ClosesNothing) : ')' ∉ a.content := by
  have decimal (i : Int64) : ')' ∉ signedDecimal i.toInt :=
    (Integer.numeral_signedDecimal i.toInt).not_mem (by decide)
  cases leaf with
  | literal => exact closes
  | keyword => exact closes
  | index i => exact decimal i
  | slice i j => simp [content, decimal i, decimal j]

/-! ### What is shown, and what follows it -/

theorem eq_of_render_append_eq_of_isLeaf (leafA : IsLeaf a) (leafB : IsLeaf b)
    (closesA : a.ClosesNothing) (closesB : b.ClosesNothing)
    (same : a.render.toList ++ xs = b.render.toList ++ ys) : a = b ∧ xs = ys := by
  rw [render_of_isLeaf leafA, render_of_isLeaf leafB] at same
  simp only [List.append_assoc, List.cons_append, List.nil_append] at same
  obtain ⟨words, inner⟩ :=
    Text.first_unique (paren_not_mem_word a) (paren_not_mem_word b) same
  obtain ⟨contents, rest⟩ := Text.first_unique (paren_not_mem_content leafA closesA)
    (paren_not_mem_content leafB closesB) inner
  exact ⟨eq_of_word_content_eq leafA leafB (String.toList_inj.1 words) contents, rest⟩

/-- A closing parenthesis is where the leaves of a compound end. -/
theorem eq_of_flatMap_render_eq (leavesA : ∀ a ∈ as, IsLeaf a ∧ a.ClosesNothing)
    (leavesB : ∀ b ∈ bs, IsLeaf b ∧ b.ClosesNothing)
    (same : as.flatMap (·.render.toList) ++ ')' :: xs = bs.flatMap (·.render.toList) ++ ')' :: ys) :
    as = bs ∧ xs = ys := by
  have starts {a : Node} (leaf : IsLeaf a) : ∃ c cs, a.render.toList = c :: cs ∧ c ≠ ')' :=
    exists_cons_render (by rintro rfl; cases leaf)
  induction as generalizing bs with
  | nil =>
    cases bs with
    | nil => simpa using same
    | cons b bs =>
      obtain ⟨c, cs, shown, other⟩ := starts (leavesB b (by simp)).1
      simp [shown, Ne.symm other] at same
  | cons a as ih =>
    obtain ⟨⟨leafA, closesA⟩, moreA⟩ := List.forall_mem_cons.1 leavesA
    cases bs with
    | nil =>
      obtain ⟨c, cs, shown, other⟩ := starts leafA
      simp [shown, other] at same
    | cons b bs =>
      obtain ⟨⟨leafB, closesB⟩, moreB⟩ := List.forall_mem_cons.1 leavesB
      simp only [List.flatMap_cons, List.append_assoc] at same
      obtain ⟨rfl, rest⟩ := eq_of_render_append_eq_of_isLeaf leafA leafB closesA closesB same
      obtain ⟨rfl, tail⟩ := ih moreA moreB rest
      exact ⟨rfl, tail⟩

theorem closesNothing_of_mem (run : IsRun as) (closes : ∀ leaf ∈ leavesAll as, leaf.ClosesNothing) :
    ∀ a ∈ as, IsLeaf a ∧ a.ClosesNothing := by
  intro a mem
  have leaf := run.leaves a mem
  have atom : a.leaves = [a] := by cases leaf <;> rfl
  exact ⟨leaf, forall_mem_leavesAll.1 closes a mem a (by simp [atom])⟩

theorem IsLeaf.word_ne_compound (leaf : IsLeaf a) : a.word ≠ "compound" := by
  cases leaf <;> simp [word]

/-- What is shown of a child is told from whatever follows it. -/
theorem eq_of_render_append_eq (childA : IsChild a) (childB : IsChild b) (someA : a ≠ empty)
    (someB : b ≠ empty) (closesA : ∀ leaf ∈ a.leaves, leaf.ClosesNothing)
    (closesB : ∀ leaf ∈ b.leaves, leaf.ClosesNothing)
    (same : a.render.toList ++ xs = b.render.toList ++ ys) : a = b ∧ xs = ys := by
  have single {a : Node} (leaf : IsLeaf a) (closes : ∀ leaf ∈ a.leaves, leaf.ClosesNothing) :
      a.ClosesNothing := closes a (by cases leaf <;> simp [leaves])
  -- A leaf and a compound differ in the word before the first parenthesis.
  have apart {a : Node} {bs : List Node} {xs ys : List Char} (leaf : IsLeaf a) :
      a.render.toList ++ xs ≠ (render (compound bs)).toList ++ ys := by
    intro same
    rw [render_of_isLeaf leaf, render_compound] at same
    simp only [List.append_assoc, List.cons_append, List.nil_append] at same
    have words := (Text.first_unique (paren_not_mem_word a)
      (paren_not_mem_word (compound bs)) same).1
    exact IsLeaf.word_ne_compound leaf (String.toList_inj.1 words)
  cases childA with
  | empty => exact absurd rfl someA
  | leaf leafA =>
    cases childB with
    | empty => exact absurd rfl someB
    | leaf leafB =>
      exact eq_of_render_append_eq_of_isLeaf leafA leafB (single leafA closesA)
        (single leafB closesB) same
    | compound => exact absurd same (apart leafA)
  | compound severalA runA =>
    cases childB with
    | empty => exact absurd rfl someB
    | leaf leafB => exact absurd same.symm (apart leafB)
    | compound severalB runB =>
      rw [render_compound, render_compound] at same
      simp only [List.append_assoc, List.cons_append, List.nil_append, List.append_cancel_left_eq,
        List.cons.injEq, true_and] at same
      obtain ⟨rfl, rest⟩ := eq_of_flatMap_render_eq (closesNothing_of_mem runA closesA)
        (closesNothing_of_mem runB closesB) same
      exact ⟨rfl, rest⟩

/-! ### Paths -/

/-- A child of a path that shows something, and closes no parenthesis in it. -/
structure IsShown (node : Node) : Prop where
  child : IsChild node
  some : node ≠ empty
  closes : ∀ leaf ∈ node.leaves, leaf.ClosesNothing

theorem IsShown.cancel (shownA : IsShown a) (shownB : IsShown b)
    (same : a.render.toList ++ xs = b.render.toList ++ ys) : a = b ∧ xs = ys :=
  eq_of_render_append_eq shownA.child shownB.child shownA.some shownB.some shownA.closes
    shownB.closes same

theorem eq_of_flatMap_slash_eq (shownA : ∀ a ∈ as, IsShown a) (shownB : ∀ b ∈ bs, IsShown b)
    (same : (as.flatMap fun a => '/' :: a.render.toList) ++ [')'] =
      (bs.flatMap fun b => '/' :: b.render.toList) ++ [')']) : as = bs := by
  induction as generalizing bs with
  | nil =>
    cases bs with
    | nil => rfl
    | cons b bs => simp at same
  | cons a as ih =>
    obtain ⟨firstA, moreA⟩ := List.forall_mem_cons.1 shownA
    cases bs with
    | nil => simp at same
    | cons b bs =>
      obtain ⟨firstB, moreB⟩ := List.forall_mem_cons.1 shownB
      simp only [List.flatMap_cons, List.cons_append, List.append_assoc, List.cons.injEq,
        true_and] at same
      obtain ⟨rfl, rest⟩ := firstA.cancel firstB same
      rw [ih moreA moreB rest]

theorem toList_render_path_cons (shown : ∀ node ∈ a :: as, IsShown node) :
    (render (path (a :: as))).toList = "path(".toList ++
      (a.render.toList ++ ((as.flatMap fun node => '/' :: node.render.toList) ++ [')'])) := by
  obtain ⟨first, more⟩ := List.forall_mem_cons.1 shown
  have nonempty : ∀ text ∈ as.map render, text ≠ "" :=
    List.forall_mem_map.2 fun node mem => render_ne_empty (more node mem).some
  rw [render_path, List.map_cons, String.toList_append, String.toList_append,
    toList_joinPath_cons (render_ne_empty first.some) nonempty, List.flatMap_map]
  simp

/-- Paths of children that show something are told by what is shown of them. -/
theorem eq_of_render_path_eq (shownA : ∀ a ∈ as, IsShown a) (shownB : ∀ b ∈ bs, IsShown b)
    (same : (path as).render = (path bs).render) : as = bs := by
  have chars := String.toList_inj.2 same
  -- Behind its opening, a path without children shows a closing parenthesis, and no child does.
  have filled {a : Node} {as : List Node} (shown : ∀ node ∈ a :: as, IsShown node) :
      (render (path (a :: as))).toList ≠ (render (path [])).toList := by
    intro same
    obtain ⟨c, cs, starts, other⟩ := exists_cons_render (shown a (by simp)).some
    rw [toList_render_path_cons shown, starts, render_path] at same
    simp [joinPath_nil, other] at same
  cases as with
  | nil =>
    cases bs with
    | nil => rfl
    | cons b bs => exact absurd chars.symm (filled shownB)
  | cons a as =>
    cases bs with
    | nil => exact absurd chars (filled shownA)
    | cons b bs =>
      rw [toList_render_path_cons shownA, toList_render_path_cons shownB,
        List.append_cancel_left_eq] at chars
      obtain ⟨rfl, rest⟩ := (shownA a (by simp)).cancel (shownB b (by simp)) chars
      obtain ⟨-, moreA⟩ := List.forall_mem_cons.1 shownA
      obtain ⟨-, moreB⟩ := List.forall_mem_cons.1 shownB
      rw [eq_of_flatMap_slash_eq moreA moreB rest]

theorem isShown_of_mem_filter (parts : ∀ child ∈ children, IsChild child)
    (closes : ∀ leaf ∈ leavesAll children, leaf.ClosesNothing) :
    ∀ child ∈ children.filter (· ≠ empty), IsShown child := by
  intro child mem
  obtain ⟨inside, some⟩ := List.mem_filter.1 mem
  exact ⟨parts child inside, by simpa using some, forall_mem_leavesAll.1 closes child inside⟩

/-- A compiled tree is told by what is shown of it, but for its empty children. -/
theorem withoutEmpty_eq_of_render_eq (compiledA : IsCompiled a) (compiledB : IsCompiled b)
    (closesA : ∀ leaf ∈ a.leaves, leaf.ClosesNothing)
    (closesB : ∀ leaf ∈ b.leaves, leaf.ClosesNothing) (same : a.render = b.render) :
    a.withoutEmpty = b.withoutEmpty := by
  have nothing (children : List Node) : render empty ≠ render (path children) :=
    (render_ne_empty (by simp)).symm
  cases compiledA with
  | empty =>
    cases compiledB with
    | empty => rfl
    | path => exact absurd same (nothing _)
  | path _ partsA _ =>
    cases compiledB with
    | empty => exact absurd same.symm (nothing _)
    | path _ partsB _ =>
      rw [← render_withoutEmpty, ← render_withoutEmpty (path _)] at same
      have shownA := isShown_of_mem_filter partsA closesA
      have shownB := isShown_of_mem_filter partsB closesB
      exact congrArg path (eq_of_render_path_eq shownA shownB same)

end Node

namespace Template

variable {s t : String}

/-- Of two templates none of whose texts and names closes a parenthesis, a diagnostic shows the
same exactly if their trees are the same without the empty children of the path. Then they are
constant together and give the same path for every record. -/
theorem render_eq_iff (compilesS : compile s = .ok a) (compilesT : compile t = .ok b)
    (closesA : ∀ leaf ∈ a.leaves, leaf.ClosesNothing)
    (closesB : ∀ leaf ∈ b.leaves, leaf.ClosesNothing) :
    (a.render = b.render ↔ a.withoutEmpty = b.withoutEmpty) ∧
      (a.render = b.render →
        a.isConstant = b.isConstant ∧ ∀ r, a.resolve r = b.resolve r) := by
  have told : a.render = b.render → a.withoutEmpty = b.withoutEmpty :=
    Node.withoutEmpty_eq_of_render_eq (isCompiled_of_compile compilesS)
      (isCompiled_of_compile compilesT) closesA closesB
  refine ⟨⟨told, fun same => ?_⟩, fun same => ⟨?_, fun r => ?_⟩⟩
  · rw [← Node.render_withoutEmpty a, same, Node.render_withoutEmpty]
  · rw [← Node.isConstant_withoutEmpty a, told same, Node.isConstant_withoutEmpty]
  · rw [← Node.resolve_withoutEmpty a, told same, Node.resolve_withoutEmpty]

/-- Slashes that are doubled or at the ends of a template do not show, nor do they matter. -/
theorem render_of_doubled_slash :
    ∃ a b, compile "a(b//x-{-1:3}{Year}/" = .ok a ∧ compile "/a(b/x-{-1:3}{Year}" = .ok b ∧
      a ≠ b ∧ a.render = b.render ∧ a.withoutEmpty = b.withoutEmpty ∧
      a.isConstant = b.isConstant ∧ ∀ r, a.resolve r = b.resolve r := by
  have doubled : compile "a(b//x-{-1:3}{Year}/" = .ok (.path [.literal "a(b", .empty,
      .compound [.literal "x-", .slice (-1) 3, .keyword "Year"]]) := by decide +kernel
  have single : compile "/a(b/x-{-1:3}{Year}" = .ok (.path [.literal "a(b",
      .compound [.literal "x-", .slice (-1) 3, .keyword "Year"]]) := by decide +kernel
  have told := render_eq_iff doubled single
    (by simp [Node.leaves, Node.leavesAll, Node.ClosesNothing])
    (by simp [Node.leaves, Node.leavesAll, Node.ClosesNothing])
  have same : Node.render _ = Node.render _ := told.1.2 (by decide +kernel)
  exact ⟨_, _, doubled, single, by decide +kernel, same, told.1.1 same, told.2 same⟩

/-- A text that closes a parenthesis can pass for the leaves behind it. -/
example : (compile "{z}a{b}c").map Node.render =
    (compile "{z}a)fragment(b)literal(c").map Node.render := by
  decide +kernel

end Template

end PathPattern
