import Mathlib.Data.List.DropRight
import PathPattern.Node
import PathPattern.Proofs.Number.Numeral
import PathPattern.Proofs.Text.Cut

/-!
# The grammar of templates

A component is fixed text with placeholders in braces. A `Layout` is such a division of a
component: `chars` is the component, `WellFormed` says what the grammar asks of the texts and
bodies, and `Gives` relates a layout to the tree that it stands for. Nothing here mentions a
reader. A component has at most one well-formed layout (`Layout.eq_of_chars_eq`), since the
first brace and the first closing one behind it leave no choice.
-/

namespace PathPattern.Template

open Integer (Numeral)

/-- A template without the slashes at its two ends. -/
def stripped (template : String) : List Char :=
  (template.toList.dropWhile (· == '/')).rdropWhile (· == '/')

/-- The components of a template: what stands between its slashes, those at its two ends not
counted. -/
def componentTexts (template : String) : List (List Char) := (stripped template).splitOn '/'

/-! ### Placeholders -/

/-- The text starts with an ASCII digit or a minus sign. -/
def LooksNumeric (text : List Char) : Prop := ∃ c ∈ text.head?, c.isDigit = true ∨ c = '-'

/-- The text is an integer of 64 bits. -/
def IsOperand (text : List Char) : Prop :=
  ∃ v : Int, Numeral text v ∧ Int64.minValue.toInt ≤ v ∧ v ≤ Int64.maxValue.toInt

/-- What may stand between two braces. -/
structure IsBody (body : List Char) : Prop where
  nonempty : body ≠ []
  closed : '}' ∉ body
  operands : LooksNumeric body → IsOperand body ∨
    ∃ first last, body = first ++ ':' :: last ∧ ':' ∉ first ∧ IsOperand first ∧ IsOperand last

/-- The node that a body stands for. -/
inductive Denotes : List Char → Node → Prop where
  | keyword {body : List Char} (plain : ¬LooksNumeric body) :
    Denotes body (.keyword (String.ofList body))
  | index {body : List Char} {i : Int64} (numeric : LooksNumeric body)
    (value : Numeral body i.toInt) : Denotes body (.index i)
  | slice {first last : List Char} {i j : Int64} (numeric : LooksNumeric (first ++ ':' :: last))
    (begin : Numeral first i.toInt) (finish : Numeral last j.toInt) :
    Denotes (first ++ ':' :: last) (.slice i j)

theorem isOperand_iff {text : List Char} : IsOperand text ↔ ∃ i : Int64, Numeral text i.toInt := by
  constructor
  · rintro ⟨v, numeral, low, high⟩
    rw [Int64.toInt_minValue] at low
    rw [Int64.toInt_maxValue] at high
    exact ⟨Int64.ofInt v, by rwa [Int64.toInt_ofInt_of_le low (by omega)]⟩
  · rintro ⟨i, numeral⟩
    exact ⟨i.toInt, numeral, i.minValue_le_toInt, i.toInt_le⟩

theorem colon_not_mem_of_numeral {text : List Char} {v : Int} (h : Numeral text v) :
    ':' ∉ text := h.not_mem (by decide)

/-- A body stands for some node. -/
theorem IsBody.exists_denotes {body : List Char} (h : IsBody body) : ∃ node, Denotes body node := by
  by_cases numeric : LooksNumeric body
  · rcases h.operands numeric with single | ⟨first, last, rfl, -, begin, finish⟩
    · obtain ⟨i, value⟩ := isOperand_iff.1 single
      exact ⟨_, .index numeric value⟩
    · obtain ⟨i, begin⟩ := isOperand_iff.1 begin
      obtain ⟨j, finish⟩ := isOperand_iff.1 finish
      exact ⟨_, .slice numeric begin finish⟩
  · exact ⟨_, .keyword numeric⟩

/-- What stands for a node may stand between braces, if it is not empty and nothing in it closes
the braces. -/
theorem Denotes.isBody {body : List Char} {node : Node} (h : Denotes body node)
    (nonempty : body ≠ []) (closed : '}' ∉ body) : IsBody body := by
  refine ⟨nonempty, closed, fun numeric => ?_⟩
  cases h with
  | keyword plain => exact absurd numeric plain
  | index _ value => exact .inl (isOperand_iff.2 ⟨_, value⟩)
  | slice _ begin finish =>
    exact .inr ⟨_, _, rfl, colon_not_mem_of_numeral begin, isOperand_iff.2 ⟨_, begin⟩,
      isOperand_iff.2 ⟨_, finish⟩⟩

/-! ### Layouts -/

/-- A component divided into fixed texts and the bodies of placeholders by turns. -/
inductive Layout where
  /-- The text behind the last placeholder. -/
  | last (text : List Char)
  /-- A text, the body of the placeholder behind it, and the rest of the component. -/
  | span (text body : List Char) (rest : Layout)
  deriving DecidableEq, Repr

namespace Layout

/-- The component that is divided. -/
def chars : Layout → List Char
  | last text => text
  | span text body rest => text ++ '{' :: (body ++ '}' :: rest.chars)

/-- What the grammar asks: no fixed text opens a brace, and every body is one. -/
def WellFormed : Layout → Prop
  | last text => '{' ∉ text
  | span text body rest => '{' ∉ text ∧ IsBody body ∧ rest.WellFormed

/-- A component has no second well-formed layout. -/
theorem eq_of_chars_eq {l l' : Layout} (h : l.WellFormed) (h' : l'.WellFormed)
    (same : l.chars = l'.chars) : l = l' := by
  induction l generalizing l' with
  | last text =>
    cases l' with
    | last text' => exact congrArg last same
    | span text' body' rest' =>
      simp only [chars] at same
      simp [WellFormed, same] at h
  | span text body rest ih =>
    cases l' with
    | last text' =>
      simp only [chars] at same
      simp [WellFormed, ← same] at h'
    | span text' body' rest' =>
      obtain ⟨free, isBody, more⟩ := h
      obtain ⟨free', isBody', more'⟩ := h'
      obtain ⟨rfl, inner⟩ := Text.first_unique free free' same
      obtain ⟨rfl, tail⟩ := Text.first_unique isBody.closed isBody'.closed inner
      rw [ih more more' tail]

end Layout

/-- The grammar allows the text as a component. -/
def IsComponent (cs : List Char) : Prop := ∃ l : Layout, l.WellFormed ∧ l.chars = cs

theorem isComponent_nil : IsComponent [] := ⟨.last [], by simp [Layout.WellFormed], rfl⟩

theorem isComponent_of_mem_replicate {n : Nat} {cs : List Char}
    (mem : cs ∈ List.replicate n ([] : List Char)) : IsComponent cs := by
  rw [List.eq_of_mem_replicate mem]
  exact isComponent_nil

/-! ### Trees -/

/-- The nodes of a fixed text: none for no text. -/
inductive FixedText : List Char → List Node → Prop where
  | none : FixedText [] []
  | some {text : List Char} (nonempty : text ≠ []) :
    FixedText text [.literal (String.ofList text)]

/-- The node of a component with these nodes. -/
inductive Combined : List Node → Node → Prop where
  | none : Combined [] .empty
  | one (node : Node) : Combined [node] node
  | several {nodes : List Node} (several : 2 ≤ nodes.length) : Combined nodes (.compound nodes)

namespace Layout

/-- The nodes of a layout, in order. -/
inductive Nodes : Layout → List Node → Prop where
  | last {text : List Char} {fixed : List Node} (literal : FixedText text fixed) :
    Nodes (last text) fixed
  | span {text body : List Char} {rest : Layout} {fixed more : List Node} {node : Node}
    (literal : FixedText text fixed) (denotes : Denotes body node) (rest_nodes : Nodes rest more) :
    Nodes (span text body rest) (fixed ++ node :: more)

/-- The layout stands for the node. -/
def Gives (l : Layout) (node : Node) : Prop := ∃ nodes, l.Nodes nodes ∧ Combined nodes node

theorem exists_fixedText (text : List Char) : ∃ fixed, FixedText text fixed := by
  by_cases empty : text = []
  · exact ⟨[], empty ▸ .none⟩
  · exact ⟨_, .some empty⟩

/-- A well-formed layout has nodes. -/
theorem WellFormed.exists_nodes {l : Layout} (h : l.WellFormed) : ∃ nodes, l.Nodes nodes := by
  induction l with
  | last text =>
    obtain ⟨fixed, literal⟩ := exists_fixedText text
    exact ⟨fixed, .last literal⟩
  | span text body rest ih =>
    obtain ⟨-, isBody, more⟩ := h
    obtain ⟨fixed, literal⟩ := exists_fixedText text
    obtain ⟨node, denotes⟩ := isBody.exists_denotes
    obtain ⟨nodes, rest_nodes⟩ := ih more
    exact ⟨fixed ++ node :: nodes, .span literal denotes rest_nodes⟩

end Layout

end PathPattern.Template
