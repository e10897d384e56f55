import PathPattern.Proofs.Node.Address
import PathPattern.Proofs.Path.Directory

/-!
# What addresses select

An index selects the segment that it counts to, from the start or from the end, and a slice the
segments between the `bound` of its two ends; `SelectsExactly` says so in integers without a limit.
It follows that an index and a slice with one bound for both ends differ before the first segment
only, which the slice still selects. Addresses of 64 bits select exactly this as long as they can
count the segments (`selectsExactly`), and then nothing that they compute leaves the 64 bits.
-/

namespace PathPattern

open Integer (maxSigned)
open Address (IndexReaches bound position)

variable {segments : List String} {i : Int64}

/-- What indices and slices select of the segments, in exact integers. -/
structure SelectsExactly (segments : List String) (atIndex : Int64 → String)
    (between : Int64 → Int64 → String) : Prop where
  fromStart (i : Int64) : 0 ≤ i.toInt → i.toInt < segments.length →
    segments[i.toInt.toNat]? = some (atIndex i)
  fromEnd (i : Int64) : i.toInt < 0 → -segments.length ≤ i.toInt →
    segments[(segments.length + i.toInt).toNat]? = some (atIndex i)
  outside (i : Int64) : i.toInt < -segments.length ∨ segments.length ≤ i.toInt → atIndex i = ""
  /-- Bounds that meet before the end select the segment behind them. -/
  meeting (first last : Int64) :
    bound segments.length first.toInt = bound segments.length last.toInt →
    bound segments.length first.toInt < segments.length →
    segments[bound segments.length first.toInt]? = some (between first last)
  meetingAtEnd (first last : Int64) : bound segments.length first.toInt = segments.length →
    bound segments.length last.toInt = segments.length → between first last = ""
  reversed (first last : Int64) :
    bound segments.length last.toInt < bound segments.length first.toInt → between first last = ""
  ordered (first last : Int64) :
    bound segments.length first.toInt < bound segments.length last.toInt →
    between first last = "/".intercalate
      (segments.extract (bound segments.length first.toInt) (bound segments.length last.toInt))

/-! ### One bound for both ends -/

namespace SelectsExactly

variable {atIndex : Int64 → String} {between : Int64 → Int64 → String}

/-- A slice of one bound is an index, unless it lies before the first segment. -/
theorem between_self (h : SelectsExactly segments atIndex between)
    (within : -segments.length ≤ i.toInt ∨ segments = []) : between i i = atIndex i := by
  by_cases far : i.toInt < -segments.length ∨ segments.length ≤ i.toInt
  · have past : bound segments.length i.toInt = segments.length := by
      rcases within with within | rfl
      · unfold bound position
        omega
      · exact Nat.le_zero.1 (Address.bound_le 0 _)
    rw [h.outside i far, h.meetingAtEnd i i past past]
  · have inside : bound segments.length i.toInt < segments.length := by
      unfold bound position
      split <;> omega
    have slice := h.meeting i i rfl inside
    by_cases negative : i.toInt < 0
    · have same : bound segments.length i.toInt = (segments.length + i.toInt).toNat := by
        unfold bound position
        rw [if_pos negative]
        omega
      rw [same, h.fromEnd i negative (by omega)] at slice
      exact (Option.some.inj slice).symm
    · have same : bound segments.length i.toInt = i.toInt.toNat := by
        unfold bound position
        rw [if_neg negative]
        omega
      rw [same, h.fromStart i (by omega) (by omega)] at slice
      exact (Option.some.inj slice).symm

/-- What lies before the first segment is taken for it by a slice. -/
theorem head?_between_self (h : SelectsExactly segments atIndex between)
    (before : i.toInt < -segments.length) (some : segments ≠ []) :
    segments.head? = Option.some (between i i) := by
  have count := List.length_pos_iff.2 some
  have start : bound segments.length i.toInt = 0 := by
    unfold bound position
    split <;> omega
  have slice := h.meeting i i rfl (start ▸ count)
  rwa [start, ← List.head?_eq_getElem?] at slice

end SelectsExactly

/-! ### Addresses of 64 bits -/

theorem getElem?_eq_some_getD {n : Nat} (inside : n < segments.length) :
    segments[n]? = some (segments.getD n "") := by
  rw [List.getD_eq_getElem?_getD, List.getElem?_eq_getElem inside, Option.getD_some]

theorem getElem?_of_indexReaches (few : segments.length ≤ maxSigned)
    (reaches : IndexReaches segments.length i.toInt) :
    segments[(position segments.length i.toInt).toNat]? = some (segmentAt segments i) := by
  obtain ⟨low, high⟩ := reaches
  rw [segmentAt_eq few, if_neg (Int.not_lt.2 low)]
  exact getElem?_eq_some_getD (by omega)

theorem selectsExactly (directories : ∀ segment ∈ segments, segment ≠ "")
    (few : segments.length ≤ maxSigned) :
    SelectsExactly segments (segmentAt segments) (segmentsBetween segments) where
  fromStart i low high := by
    have same : position segments.length i.toInt = i.toInt := if_neg (Int.not_lt.2 low)
    have reaches : IndexReaches segments.length i.toInt := by
      rw [IndexReaches, same]
      exact ⟨low, high⟩
    have found := getElem?_of_indexReaches few reaches
    rwa [same] at found
  fromEnd i negative low := by
    have same : position segments.length i.toInt = segments.length + i.toInt := by
      rw [position, if_pos negative, Int.add_comm]
    have reaches : IndexReaches segments.length i.toInt := by
      rw [IndexReaches, same]
      omega
    have found := getElem?_of_indexReaches few reaches
    rwa [same] at found
  outside i far := by
    refine segmentAt_eq_empty few fun ⟨low, high⟩ => ?_
    unfold position at low high
    split at low <;> omega
  meeting first last same inside := by
    rw [segmentsBetween_eq few, if_pos same]
    exact getElem?_eq_some_getD inside
  meetingAtEnd first last begin finish := by
    rw [segmentsBetween_eq few, if_pos (begin.trans finish.symm), begin]
    exact getD_of_length_le (Nat.le_refl _)
  reversed first last wrong := by
    rw [segmentsBetween_eq few, if_neg (by omega), if_neg (by omega)]
  ordered first last right := by
    have named : ∀ segment ∈ segments.extract (bound segments.length first.toInt)
        (bound segments.length last.toInt), segment ≠ "" := fun segment mem =>
      directories segment (List.mem_of_mem_drop (List.mem_of_mem_take mem))
    rw [segmentsBetween_eq few, if_neg (by omega), if_pos right, ← joinPath_eq_intercalate named]

/-- Counting from the end is exact, as the sum stays within 64 bits. -/
theorem toInt_add_segmentCount (few : segments.length ≤ maxSigned) (negative : i < 0) :
    (i + segmentCount segments).toInt = i.toInt + segments.length := by
  have shifted := toInt_shifted few i
  rwa [if_pos negative, position, if_pos (toInt_lt_zero_iff.1 negative)] at shifted

/-- Indices and slices select what they say in exact integers, whatever 64 bits they have, both of a
list of directories and of those of a record's file. A slice of one bound is an index, but selects
the first directory where the index is before it. The number of directories is exact as a 64-bit
integer and so is every sum with it, and the bounds of a slice are within the list. -/
theorem addresses_select_exactly (directories : ∀ segment ∈ segments, segment ≠ "")
    (few : segments.length ≤ maxSigned) :
    SelectsExactly segments (segmentAt segments) (segmentsBetween segments) ∧
    (∀ r : Record, directorySegments r.file = segments →
      SelectsExactly segments (fun i => (Node.index i).resolve r)
        fun first last => (Node.slice first last).resolve r) ∧
    (∀ i : Int64, -segments.length ≤ i.toInt ∨ segments = [] →
      segmentsBetween segments i i = segmentAt segments i) ∧
    (∀ i : Int64, i.toInt < -segments.length → segments ≠ [] →
      segments.head? = some (segmentsBetween segments i i) ∧ segmentAt segments i = "") ∧
    (segmentCount segments).toInt = segments.length ∧
    (∀ i : Int64, i < 0 → (i + segmentCount segments).toInt = i.toInt + segments.length) ∧
    ∀ i : Int64, clampBound segments i ≤ segments.length := by
  have selects := selectsExactly directories few
  refine ⟨selects, ?_, fun i => selects.between_self, ?_, toInt_segmentCount few,
    fun i => toInt_add_segmentCount few, ?_⟩
  · rintro r rfl
    exact selects
  · intro i before some
    exact ⟨selects.head?_between_self before some, selects.outside i (.inl before)⟩
  · intro i
    rw [clampBound_eq few]
    exact Address.bound_le _ _

/-- At the least and the greatest of 64 bits. -/
theorem addresses_select_exactly_extremes :
    (∀ segment ∈ ["a", "b"], segment ≠ "") ∧ ["a", "b"].length ≤ maxSigned ∧
      segmentAt ["a", "b"] Int64.maxValue = "" ∧ segmentAt ["a", "b"] Int64.minValue = "" ∧
      segmentsBetween ["a", "b"] Int64.minValue Int64.minValue = "a" ∧
      segmentsBetween ["a", "b"] Int64.minValue Int64.maxValue = "a/b" := by
  have directories : ∀ segment ∈ ["a", "b"], segment ≠ "" := by decide
  have few : ["a", "b"].length ≤ maxSigned := by decide
  obtain ⟨selects, -, -, singleBefore, -⟩ := addresses_select_exactly directories few
  have before := singleBefore Int64.minValue (by decide) (by decide)
  exact ⟨directories, few, selects.outside _ (.inr (by decide)), before.2,
    (Option.some.inj before.1).symm, selects.ordered _ _ (by decide)⟩

end PathPattern
