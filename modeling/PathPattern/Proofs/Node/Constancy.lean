import Mathlib.Algebra.Order.BigOperators.Group.List
import Mathlib.Algebra.Order.Group.Nat
import PathPattern.Proofs.Keyword.Meaning
import PathPattern.Proofs.Node.Address
import PathPattern.Proofs.Node.Leaves

/-!
# Constant trees

A leaf is constant, or dead, or live. Constant leaves read no record and dead ones are addresses
that reach no directory, so that a tree without live leaves gives one path for all records. A tree
with a live leaf does not: it gives different paths for `unmarked`, of which no field and no
directory has a `1`, and for `marked n`, of which all have one. No leaf gives fewer of them for
`marked n`, and a live leaf gives more if `n` directories are in its reach.
-/

namespace PathPattern.Node

open Address
open Integer (maxSigned)

variable {r r' : Record} {leaf tree : Node} {n : Nat}

/-- The file is in no more directories than an integer of 64 bits can count. -/
def Addressable (r : Record) : Prop := (directorySegments r.file).length ≤ maxSigned

/-- An address that reaches no directory, in however many the file is. -/
inductive IsDead : Node → Prop where
  | index {i : Int64} (extreme : i = Int64.minValue ∨ i = Int64.maxValue) : IsDead (.index i)
  | slice {first last : Int64} (positive : 0 < first)
    (missed : 0 ≤ last ∧ last < first ∨ last < 0 ∧ maxSigned < first.toInt - last.toInt ∨
      first = Int64.maxValue) : IsDead (.slice first last)

theorem isDead_index_iff {i : Int64} :
    IsDead (.index i) ↔ ¬∃ n ≤ maxSigned, IndexReaches n i.toInt := by
  rw [exists_indexReaches_iff, not_and_or, not_not, not_not]
  constructor
  · intro h
    cases h with
    | index extreme => exact extreme
  · exact .index

theorem isDead_slice_iff {first last : Int64} :
    IsDead (.slice first last) ↔ ¬∃ n ≤ maxSigned, SliceReaches n first.toInt last.toInt := by
  rw [exists_sliceReaches_iff, not_not]
  constructor
  · intro h
    cases h with
    | slice positive missed => exact ⟨positive, missed⟩
  · exact fun ⟨positive, missed⟩ => .slice positive missed

/-- A leaf that a record can matter for: the keyword of a field, or an address in reach. -/
inductive IsLive : Node → Prop where
  | keyword {name : String} {f : Field} (known : Field.lookup name = some f) :
    IsLive (.keyword name)
  | index {i : Int64} (alive : ¬IsDead (.index i)) : IsLive (.index i)
  | slice {first last : Int64} (alive : ¬IsDead (.slice first last)) : IsLive (.slice first last)

theorem IsAtom.isConstant_or_isDead_or_isLive (atom : IsAtom leaf) :
    leaf.isConstant = true ∨ IsDead leaf ∨ IsLive leaf := by
  cases atom with
  | empty => exact .inl rfl
  | literal text => exact .inl rfl
  | keyword name =>
    cases found : Field.lookup name with
    | none => exact .inl (by rw [isConstant, Keyword.field?_eq_lookup, found]; rfl)
    | some f => exact .inr (.inr (.keyword found))
  | index i =>
    by_cases dead : IsDead (.index i)
    · exact .inr (.inl dead)
    · exact .inr (.inr (.index dead))
  | slice first last =>
    by_cases dead : IsDead (.slice first last)
    · exact .inr (.inl dead)
    · exact .inr (.inr (.slice dead))

/-! ### Leaves that no record matters for -/

theorem IsAtom.resolve_eq_of_isConstant (atom : IsAtom leaf) (h : leaf.isConstant = true) :
    leaf.resolve r = leaf.resolve r' := by
  cases atom with
  | empty => rfl
  | literal text => rfl
  | keyword name =>
    rw [isConstant, Keyword.field?_eq_lookup, Option.isNone_iff_eq_none] at h
    rw [resolve, resolve, Keyword.resolve_of_lookup_eq_none h, Keyword.resolve_of_lookup_eq_none h]
  | index i => cases h
  | slice first last => cases h

/-- A constant tree reads no record. -/
theorem resolve_eq_of_isConstant (h : tree.isConstant = true) (r r' : Record) :
    tree.resolve r = tree.resolve r' := by
  apply resolve_congr
  intro leaf mem
  have atom := isAtom_of_mem_leaves tree leaf mem
  exact atom.resolve_eq_of_isConstant (isConstant_iff_leaves.1 h leaf mem)

theorem IsDead.resolve_eq_empty (h : IsDead leaf) (few : Addressable r) : leaf.resolve r = "" := by
  cases leaf with
  | index i =>
    have missed := isDead_index_iff.1 h
    rw [resolve]
    exact segmentAt_eq_empty few fun reaches => missed ⟨_, few, reaches⟩
  | slice first last =>
    have missed := isDead_slice_iff.1 h
    rw [resolve]
    exact segmentsBetween_eq_empty few fun reaches => missed ⟨_, few, reaches⟩
  | empty | literal | keyword | compound | path => cases h

theorem isConstant_or_isDead_of_not_isLive (h : ∀ leaf ∈ tree.leaves, ¬IsLive leaf) :
    ∀ leaf ∈ tree.leaves, leaf.isConstant = true ∨ IsDead leaf := by
  intro leaf mem
  have atom := isAtom_of_mem_leaves tree leaf mem
  rcases atom.isConstant_or_isDead_or_isLive with constant | dead | live
  · exact .inl constant
  · exact .inr dead
  · exact absurd live (h leaf mem)

/-- Without live leaves, a tree gives one path. -/
theorem resolve_eq_of_forall_not_isLive (h : ∀ leaf ∈ tree.leaves, ¬IsLive leaf)
    (few : Addressable r) (few' : Addressable r') : tree.resolve r = tree.resolve r' := by
  apply resolve_congr
  intro leaf mem
  rcases isConstant_or_isDead_of_not_isLive h leaf mem with constant | dead
  · exact (isAtom_of_mem_leaves tree leaf mem).resolve_eq_of_isConstant constant
  · rw [dead.resolve_eq_empty few, dead.resolve_eq_empty few']

/-- If it is not constant, one of its leaves is dead. -/
theorem exists_isDead_of_not_isLive (varying : tree.isConstant = false)
    (h : ∀ leaf ∈ tree.leaves, ¬IsLive leaf) : ∃ leaf ∈ tree.leaves, IsDead leaf := by
  by_contra none
  have constant : tree.isConstant = true := by
    rw [isConstant_iff_leaves]
    intro leaf mem
    have settled := isConstant_or_isDead_of_not_isLive h leaf mem
    exact settled.resolve_right fun dead => none ⟨leaf, mem, dead⟩
  rw [constant] at varying
  cases varying

/-! ### Two records to tell live leaves by -/

/-- A record no field of which has a `1`, acquired at 2000-02-02T00:00:00, and no directory. -/
def unmarked : Record :=
  { Record.blank with
    acquired := { Instant.epoch with
      second := 949449600
      first_le := by decide
      le_last := by decide } }

/-- A record each field of which has a `1`, acquired at 2011-11-11T11:11:11, in `n` directories
of that name. -/
def marked (n : Nat) : Record where
  source := "1"
  model := "1"
  mime := "1"
  kind := "1"
  level := 1
  acquired := { Instant.epoch with
    second := 1321009871
    first_le := by decide
    le_last := by decide }
  file := String.ofList (List.replicate n ['1', '/']).flatten

/-- How often a text has a `1`. -/
def marks (text : String) : Nat := text.toList.count '1'

theorem directorySegments_marked (n : Nat) :
    directorySegments (marked n).file = List.replicate n "1" := by
  have split : Text.pieces '/' (List.replicate n ['1', '/']).flatten =
      List.replicate n ['1'] ++ [[]] := by
    induction n with
    | zero => rfl
    | succ n ih => simp [List.replicate_succ, Text.pieces, ih]
  rw [marked, directorySegments, String.toList_ofList, split, List.dropLast_concat,
    List.filter_replicate_of_pos (by decide), List.map_replicate]

theorem directorySegments_unmarked : directorySegments unmarked.file = [] := rfl

theorem addressable_unmarked : Addressable unmarked := by
  rw [Addressable, directorySegments_unmarked]
  exact Nat.zero_le _

theorem addressable_marked (few : n ≤ maxSigned) : Addressable (marked n) := by
  rwa [Addressable, directorySegments_marked, List.length_replicate]

/-! ### Counting marks -/

theorem marks_extract_unmarked (f : Field) : marks (f.extract unmarked) = 0 := by
  cases f <;> decide +kernel

theorem marks_extract_marked (f : Field) (n : Nat) : 0 < marks (f.extract (marked n)) := by
  have same : f.extract (marked n) = f.extract (marked 0) := by cases f <;> rfl
  rw [same]
  cases f <;> decide +kernel

theorem resolve_index_unmarked (i : Int64) : (index i).resolve unmarked = "" := by
  rw [resolve, directorySegments_unmarked]
  refine segmentAt_eq_empty (Nat.zero_le _) fun reaches => ?_
  have := reaches.1
  have := reaches.2
  simp only [List.length_nil] at *
  omega

theorem resolve_slice_unmarked (first last : Int64) :
    (slice first last).resolve unmarked = "" := by
  rw [resolve, directorySegments_unmarked]
  exact segmentsBetween_eq_empty (Nat.zero_le _) fun reaches => Nat.not_lt_zero _ reaches.1

/-- No leaf gives fewer marks for a marked record. -/
theorem IsAtom.marks_unmarked_le (atom : IsAtom leaf) (n : Nat) :
    marks (leaf.resolve unmarked) ≤ marks (leaf.resolve (marked n)) := by
  cases atom with
  | empty => exact Nat.le_refl _
  | literal text => exact Nat.le_refl _
  | keyword name =>
    rw [resolve, resolve]
    cases found : Field.lookup name with
    | none =>
      rw [Keyword.resolve_of_lookup_eq_none found, Keyword.resolve_of_lookup_eq_none found]
    | some f =>
      rw [Keyword.resolve_of_lookup_eq_some found, marks_extract_unmarked]
      exact Nat.zero_le _
  | index i =>
    rw [resolve_index_unmarked]
    exact Nat.zero_le _
  | slice first last =>
    rw [resolve_slice_unmarked]
    exact Nat.zero_le _

theorem marks_joinPath_replicate (k : Nat) : marks (joinPath (List.replicate k "1")) = k := by
  have one : "1".toList.count '1' = 1 := by decide
  rw [marks, count_joinPath (by decide), List.map_replicate, one, List.sum_replicate_nat, Nat.mul_one]

theorem getD_replicate {k : Nat} (inside : k < n) : (List.replicate n "1").getD k "" = "1" := by
  simp [inside]

/-- An index has a mark in every marked record of which it reaches a directory. -/
theorem marks_index_marked {i : Int64} (few : n ≤ maxSigned) (reaches : IndexReaches n i.toInt) :
    0 < marks ((index i).resolve (marked n)) := by
  obtain ⟨low, high⟩ := reaches
  have counted : (List.replicate n "1").length ≤ maxSigned := by rwa [List.length_replicate]
  rw [resolve, directorySegments_marked, segmentAt_eq counted, List.length_replicate,
    if_neg (by omega), getD_replicate (by omega)]
  decide

/-- So has a slice. -/
theorem marks_slice_marked {first last : Int64} (few : n ≤ maxSigned)
    (reaches : SliceReaches n first.toInt last.toInt) :
    0 < marks ((slice first last).resolve (marked n)) := by
  obtain ⟨inside, ordered⟩ := reaches
  have most := bound_le n last.toInt
  have counted : (List.replicate n "1").length ≤ maxSigned := by rwa [List.length_replicate]
  rw [resolve, directorySegments_marked, segmentsBetween_eq counted, List.length_replicate]
  split
  · rw [getD_replicate inside]
    decide
  · rw [if_pos (by omega), List.drop_replicate, List.take_replicate, marks_joinPath_replicate]
    omega

/-- A live leaf gives more marks for some marked record. -/
theorem IsLive.exists_marks_lt (live : IsLive leaf) :
    ∃ n ≤ maxSigned, marks (leaf.resolve unmarked) < marks (leaf.resolve (marked n)) := by
  cases live with
  | keyword known =>
    refine ⟨0, Nat.zero_le _, ?_⟩
    rw [resolve, resolve, Keyword.resolve_of_lookup_eq_some known,
      Keyword.resolve_of_lookup_eq_some known, marks_extract_unmarked]
    exact marks_extract_marked _ 0
  | index alive =>
    rw [isDead_index_iff, not_not] at alive
    obtain ⟨n, few, reaches⟩ := alive
    refine ⟨n, few, ?_⟩
    rw [resolve_index_unmarked]
    exact marks_index_marked few reaches
  | slice alive =>
    rw [isDead_slice_iff, not_not] at alive
    obtain ⟨n, few, reaches⟩ := alive
    refine ⟨n, few, ?_⟩
    rw [resolve_slice_unmarked]
    exact marks_slice_marked few reaches

/-- A live leaf tells two records apart, whatever the other leaves give. -/
theorem IsLive.exists_resolve_ne (live : IsLive leaf) (mem : leaf ∈ tree.leaves) :
    ∃ n ≤ maxSigned, tree.resolve unmarked ≠ tree.resolve (marked n) := by
  obtain ⟨n, few, more⟩ := live.exists_marks_lt
  refine ⟨n, few, fun same => ?_⟩
  have least : ∀ leaf ∈ tree.leaves,
      marks (leaf.resolve unmarked) ≤ marks (leaf.resolve (marked n)) := fun leaf mem =>
    (isAtom_of_mem_leaves tree leaf mem).marks_unmarked_le n
  have total : marks (tree.resolve unmarked) < marks (tree.resolve (marked n)) := by
    unfold marks
    rw [count_resolve (by decide), count_resolve (by decide)]
    exact List.sum_lt_sum _ _ least ⟨leaf, mem, more⟩
  rw [same] at total
  exact Nat.lt_irrefl _ total

theorem not_isLive_of_one_path {text : String} (one : ∀ r, Addressable r → tree.resolve r = text) :
    ∀ leaf ∈ tree.leaves, ¬IsLive leaf := by
  intro leaf mem live
  obtain ⟨n, few, differ⟩ := live.exists_resolve_ne mem
  have same := one _ addressable_unmarked
  rw [← one _ (addressable_marked few)] at same
  exact differ same

/-- A tree gives one path for all records exactly if no leaf of it is live. Trees that are constant
give one path in any case, and a tree that does so without being constant owes it to dead leaves
alone. -/
theorem constant_iff_no_live_leaf (tree : Node) :
    ((∃ text, ∀ r, Addressable r → tree.resolve r = text) ↔ ∀ leaf ∈ tree.leaves, ¬IsLive leaf) ∧
    (tree.isConstant = true → ∀ r r', tree.resolve r = tree.resolve r') ∧
    (tree.isConstant = false → (∃ text, ∀ r, Addressable r → tree.resolve r = text) →
      (∃ leaf ∈ tree.leaves, IsDead leaf) ∧
        ∀ leaf ∈ tree.leaves, leaf.isConstant = true ∨ IsDead leaf) := by
  refine ⟨⟨?_, ?_⟩, resolve_eq_of_isConstant, ?_⟩
  · rintro ⟨text, one⟩
    exact not_isLive_of_one_path one
  · intro h
    exact ⟨tree.resolve unmarked, fun r few =>
      resolve_eq_of_forall_not_isLive h few addressable_unmarked⟩
  · rintro varying ⟨text, one⟩
    have h := not_isLive_of_one_path one
    exact ⟨exists_isDead_of_not_isLive varying h, isConstant_or_isDead_of_not_isLive h⟩

end PathPattern.Node
