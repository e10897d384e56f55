import PathPattern.Proofs.Template.Layout
import PathPattern.Proofs.Template.Scan

/-!
# What the reader accepts as a component

The reader against the grammar, from the leaves up: an operand is read exactly if it is a
numeral, a body exactly if it stands for a node, and a component exactly if it has a well-formed
layout, to the node that the layout gives.
-/

namespace PathPattern.Template

open Integer (Numeral)
open Text (cutAt_append_cons cutAt_of_not_mem)

variable {cs body : List Char} {node : Node} {ns : List Node}

/-! ### Bodies -/

theorem operand_eq_ok_iff {i : Int64} : operand cs = .ok i ↔ Numeral cs i.toInt := by
  rw [← Integer.read_eq_ok_iff, operand]
  split
  · next read => simp [read]
  · next read => simp [read]

theorem any_startsAddress_iff : body.head?.any startsAddress = true ↔ LooksNumeric body := by
  cases body <;> simp [LooksNumeric, startsAddress, Integer.isDigit_eq]

theorem address_of_not_mem (free : ':' ∉ body) : address body = (operand body).map .index := by
  simp [address, cutAt_of_not_mem free]

theorem address_append_cons {first last : List Char} (free : ':' ∉ first) :
    address (first ++ ':' :: last) = (do
      let i ← operand first
      let j ← operand last
      return .slice i j) := by
  simp [address, cutAt_append_cons free]

/-- An address is one numeral, or two with a colon between them. -/
theorem address_eq_ok_iff (numeric : LooksNumeric body) :
    address body = .ok node ↔ Denotes body node := by
  by_cases colon : ':' ∈ body
  · obtain ⟨first, last, rfl, free⟩ := Text.exists_first_of_mem colon
    rw [address_append_cons free]
    constructor
    · intro h
      cases begin : operand first with
      | error fault => simp [begin, bind, Except.bind] at h
      | ok i =>
        cases finish : operand last with
        | error fault => simp [begin, finish, bind, Except.bind] at h
        | ok j =>
          simp only [begin, finish, bind, Except.bind, pure, Except.pure, Except.ok.injEq] at h
          exact h ▸ .slice numeric (operand_eq_ok_iff.1 begin) (operand_eq_ok_iff.1 finish)
    · intro h
      generalize same : first ++ ':' :: last = body at h
      cases h with
      | keyword plain => exact absurd (same ▸ numeric) plain
      | index _ value => exact absurd (same ▸ colon) (colon_not_mem_of_numeral value)
      | slice _ begin finish =>
        obtain ⟨rfl, rfl⟩ := Text.first_unique free (colon_not_mem_of_numeral begin) same
        rw [operand_eq_ok_iff.2 begin, operand_eq_ok_iff.2 finish]
        rfl
  · rw [address_of_not_mem colon]
    constructor
    · intro h
      cases value : operand body with
      | error fault => simp [value, Except.map] at h
      | ok i =>
        simp only [value, Except.map, Except.ok.injEq] at h
        exact h ▸ .index numeric (operand_eq_ok_iff.1 value)
    · intro h
      cases h with
      | keyword plain => exact absurd numeric plain
      | index _ value => rw [operand_eq_ok_iff.2 value]; rfl
      | slice => exact absurd (by simp) colon

/-- A body is read exactly if it stands for a node. -/
theorem placeholder_eq_ok_iff : (placeholder body).outcome = .ok node ↔ Denotes body node := by
  rw [placeholder]
  split
  · next numeric => exact address_eq_ok_iff (any_startsAddress_iff.1 numeric)
  · next plain =>
    have plain := mt any_startsAddress_iff.2 plain
    constructor
    · intro h
      cases h
      exact .keyword plain
    · intro h
      cases h with
      | keyword => rfl
      | index numeric => exact absurd numeric plain
      | slice numeric => exact absurd numeric plain

/-! ### Components -/

theorem fixedText_iff {text : List Char} {fixed : List Node} :
    FixedText text fixed ↔ fixed = literals text := by
  constructor
  · intro h
    cases h with
    | none => rfl
    | some nonempty => simp [literals, nonempty]
  · rintro rfl
    by_cases empty : text = []
    · simpa [literals, empty] using FixedText.none
    · simpa [literals, empty] using FixedText.some empty

theorem combined_iff : Combined ns node ↔ node = combine ns := by
  constructor
  · intro h
    cases h with
    | none => rfl
    | one => rfl
    | several several =>
      match ns, several with
      | _ :: _ :: _, _ => rfl
  · rintro rfl
    match ns with
    | [] => exact .none
    | [node] => exact .one node
    | _ :: _ :: _ => exact .several (by simp)

/-- Whatever the place in the component, a well-formed rest of it is read to its nodes. -/
theorem nodes_of_layout {l : Layout} (valid : l.WellFormed) (nodes_l : l.Nodes ns)
    (component : List Char) (offset : Nat) :
    (nodes component offset l.chars).outcome = .ok ns := by
  induction nodes_l generalizing offset with
  | last literal =>
    rw [Layout.chars, nodes_last valid, fixedText_iff.1 literal]
    rfl
  | span literal denotes _ ih =>
    obtain ⟨free, isBody, more⟩ := valid
    rw [Layout.chars, nodes_span free isBody.nonempty isBody.closed,
      Reading.outcome_bind_of_ok (placeholder_eq_ok_iff.2 denotes),
      Reading.outcome_bind_of_ok (ih more _), fixedText_iff.1 literal]
    rfl

/-- What is read has a well-formed layout with the nodes that were read. -/
theorem layout_of_nodes {component : List Char} {offset : Nat}
    (h : (nodes component offset cs).outcome = .ok ns) :
    ∃ l : Layout, l.WellFormed ∧ l.chars = cs ∧ l.Nodes ns := by
  induction scan cs generalizing offset ns with
  | @last text free =>
    rw [nodes_last free] at h
    cases h
    exact ⟨.last text, free, rfl, .last (fixedText_iff.2 rfl)⟩
  | unclosed free unclosed =>
    rw [nodes_unclosed free unclosed] at h
    cases h
  | hollow free =>
    rw [nodes_hollow free] at h
    cases h
  | @span text body rest free nonempty closed _ ih =>
    rw [nodes_span free nonempty closed] at h
    obtain ⟨node, read, h⟩ := Reading.outcome_bind_eq_ok_iff.1 h
    obtain ⟨more, rest_read, h⟩ := Reading.outcome_bind_eq_ok_iff.1 h
    cases h
    obtain ⟨l, valid, same, nodes_l⟩ := ih rest_read
    have denotes := placeholder_eq_ok_iff.1 read
    exact ⟨.span text body l, ⟨free, denotes.isBody nonempty closed, valid⟩,
      by rw [Layout.chars, same], .span (fixedText_iff.2 rfl) denotes nodes_l⟩

/-- A component is read exactly if it has a well-formed layout, to the node that it gives. -/
theorem component_eq_ok_iff :
    (component cs).outcome = .ok node ↔
      ∃ l : Layout, l.WellFormed ∧ l.chars = cs ∧ l.Gives node := by
  rw [component, Reading.outcome_bind_eq_ok_iff]
  constructor
  · rintro ⟨ns, read, h⟩
    obtain ⟨l, valid, same, nodes_l⟩ := layout_of_nodes read
    cases h
    exact ⟨l, valid, same, ns, nodes_l, combined_iff.2 rfl⟩
  · rintro ⟨l, valid, rfl, ns, nodes_l, combined⟩
    refine ⟨ns, nodes_of_layout valid nodes_l l.chars 0, ?_⟩
    rw [combined_iff.1 combined]
    rfl

theorem component_nil : (component []).outcome = .ok .empty :=
  component_eq_ok_iff.2 ⟨.last [], by simp [Layout.WellFormed], rfl, [], .last .none, .none⟩

/-- For a layout at hand, the component is read to the node that it gives. -/
theorem component_of_layout {l : Layout} (valid : l.WellFormed) :
    (component l.chars).outcome = .ok node ↔ l.Gives node := by
  rw [component_eq_ok_iff]
  constructor
  · rintro ⟨l', valid', same, gives⟩
    rwa [← Layout.eq_of_chars_eq valid' valid same]
  · exact fun gives => ⟨l, valid, rfl, gives⟩

/-- The reader ends without a fault on components and on nothing else. -/
theorem exists_component_iff : (∃ node, (component cs).outcome = .ok node) ↔ IsComponent cs := by
  simp only [component_eq_ok_iff]
  constructor
  · rintro ⟨-, l, valid, same, -⟩
    exact ⟨l, valid, same⟩
  · rintro ⟨l, valid, same⟩
    obtain ⟨ns, nodes_l⟩ := valid.exists_nodes
    exact ⟨_, l, valid, same, ns, nodes_l, combined_iff.2 rfl⟩

end PathPattern.Template
