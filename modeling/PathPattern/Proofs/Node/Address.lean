import PathPattern.Node

/-!
# Addresses in exact integers

Of as many segments as an integer of 64 bits can count, no address overflows: an index is the
segment at its `position` and a slice lies between the `bound` of its two ends, where both are
computed without a limit. An address that reaches no segment gives nothing, and
`exists_indexReaches_iff` and `exists_sliceReaches_iff` say which addresses reach none, however many
segments there are.
-/

namespace PathPattern

open Integer (maxSigned)

namespace Address

/-- Where an address points in `n` segments: a negative one counts from the end. -/
def position (n : Nat) (i : Int) : Int := if i < 0 then i + n else i

/-- The end of a slice that is nearest to where an address points. -/
def bound (n : Nat) (i : Int) : Nat := (max 0 (min (position n i) n)).toNat

theorem bound_le (n : Nat) (i : Int) : bound n i ≤ n := by
  unfold bound
  omega

/-- An index points at one of `n` segments. -/
def IndexReaches (n : Nat) (i : Int) : Prop := 0 ≤ position n i ∧ position n i < n

/-- A slice starts at one of `n` segments and does not end before it. -/
def SliceReaches (n : Nat) (first last : Int) : Prop :=
  bound n first < n ∧ bound n first ≤ bound n last

theorem toInt_eq_minValue_iff {i : Int64} : i = Int64.minValue ↔ i.toInt = -9223372036854775808 := by
  rw [← Int64.toInt_inj]
  rfl

theorem toInt_eq_maxValue_iff {i : Int64} : i = Int64.maxValue ↔ i.toInt = 9223372036854775807 := by
  rw [← Int64.toInt_inj]
  rfl

/-- Only the two ends of the range of 64 bits are out of reach for an index. -/
theorem exists_indexReaches_iff (i : Int64) :
    (∃ n ≤ maxSigned, IndexReaches n i.toInt) ↔ i ≠ Int64.minValue ∧ i ≠ Int64.maxValue := by
  have low := i.le_toInt
  have high := i.toInt_lt
  rw [Ne, Ne, toInt_eq_minValue_iff, toInt_eq_maxValue_iff]
  unfold IndexReaches position maxSigned
  constructor
  · rintro ⟨n, few, reaches⟩
    split at reaches <;> omega
  · rintro ⟨notLeast, notGreatest⟩
    -- As many segments as take the index to the first one, or to the last.
    by_cases negative : i.toInt < 0
    · refine ⟨i.toInt.natAbs, by omega, ?_⟩
      rw [if_pos negative]
      omega
    · refine ⟨i.toInt.toNat + 1, by omega, ?_⟩
      rw [if_neg negative]
      omega

/-- Out of reach for a slice are the starts behind its end, whatever the number of segments. -/
theorem exists_sliceReaches_iff (first last : Int64) :
    (∃ n ≤ maxSigned, SliceReaches n first.toInt last.toInt) ↔
      ¬(0 < first ∧ (0 ≤ last ∧ last < first ∨
        last < 0 ∧ maxSigned < first.toInt - last.toInt ∨ first = Int64.maxValue)) := by
  have low := last.le_toInt
  have high := first.toInt_lt
  have zero : (0 : Int64).toInt = 0 := rfl
  rw [toInt_eq_maxValue_iff]
  simp only [Int64.lt_iff_toInt_lt, Int64.le_iff_toInt_le, zero]
  unfold SliceReaches bound position maxSigned
  constructor
  · rintro ⟨n, few, reaches⟩
    split at reaches <;> split at reaches <;> omega
  · intro reachable
    by_cases early : first.toInt ≤ 0
    · refine ⟨1, by omega, ?_⟩
      split <;> split <;> omega
    -- As many segments as take the end to the start, or the start to the last of them.
    · have counted : ¬first.toInt < 0 := by omega
      by_cases negative : last.toInt < 0
      · refine ⟨(first.toInt - last.toInt).toNat, by omega, ?_⟩
        rw [if_neg counted, if_pos negative]
        omega
      · refine ⟨first.toInt.toNat + 1, by omega, ?_⟩
        rw [if_neg counted, if_neg negative]
        omega

end Address

open Address

variable {segments : List String} {i first last : Int64}

theorem toInt_segmentCount (few : segments.length ≤ maxSigned) :
    (segmentCount segments).toInt = segments.length :=
  Int64.toInt_ofNat_of_lt (by unfold maxSigned at few; omega)

theorem toInt_lt_zero_iff : i < 0 ↔ i.toInt < 0 := Int64.lt_iff_toInt_lt

/-- Counting from the end stays within 64 bits. -/
theorem toInt_shifted (few : segments.length ≤ maxSigned) (i : Int64) :
    (if i < 0 then i + segmentCount segments else i).toInt = position segments.length i.toInt := by
  have count := toInt_segmentCount few
  have low := i.le_toInt
  unfold maxSigned at few
  unfold position
  by_cases negative : i < 0
  · have below := toInt_lt_zero_iff.1 negative
    rw [if_pos negative, if_pos below, Int64.toInt_add, count]
    exact Int.bmod_eq_of_le (by omega) (by omega)
  · rw [if_neg negative, if_neg (mt toInt_lt_zero_iff.2 negative)]

theorem segmentAt_eq (few : segments.length ≤ maxSigned) (i : Int64) :
    segmentAt segments i = if position segments.length i.toInt < 0 then ""
      else segments.getD (position segments.length i.toInt).toNat "" := by
  simp only [segmentAt, Int64.toNatClampNeg, toInt_lt_zero_iff (i := ite _ _ _),
    toInt_shifted few]

theorem toInt_min (i j : Int64) : (min i j).toInt = min i.toInt j.toInt := by
  change (if i ≤ j then i else j).toInt = _
  rw [Int.min_def]
  simp only [Int64.le_iff_toInt_le, apply_ite Int64.toInt]

theorem toInt_max (i j : Int64) : (max i j).toInt = max i.toInt j.toInt := by
  change (if i ≤ j then j else i).toInt = _
  rw [Int.max_def]
  simp only [Int64.le_iff_toInt_le, apply_ite Int64.toInt]

theorem clampBound_eq (few : segments.length ≤ maxSigned) (i : Int64) :
    clampBound segments i = bound segments.length i.toInt := by
  simp only [clampBound, Int64.toNatClampNeg, toInt_max, toInt_min, toInt_shifted few,
    toInt_segmentCount few]
  rfl

theorem segmentsBetween_eq (few : segments.length ≤ maxSigned) (first last : Int64) :
    segmentsBetween segments first last =
      if bound segments.length first.toInt = bound segments.length last.toInt then
        segments.getD (bound segments.length first.toInt) ""
      else if bound segments.length first.toInt < bound segments.length last.toInt then
        joinPath ((segments.drop (bound segments.length first.toInt)).take
          (bound segments.length last.toInt - bound segments.length first.toInt))
      else "" := by
  simp only [segmentsBetween, clampBound_eq few]

/-! ### Addresses out of reach -/

theorem getD_of_length_le {n : Nat} (past : segments.length ≤ n) : segments.getD n "" = "" := by
  rw [List.getD_eq_getElem?_getD, List.getElem?_eq_none past, Option.getD_none]

theorem segmentAt_eq_empty (few : segments.length ≤ maxSigned)
    (missed : ¬IndexReaches segments.length i.toInt) : segmentAt segments i = "" := by
  unfold IndexReaches at missed
  rw [segmentAt_eq few]
  split
  · rfl
  · exact getD_of_length_le (by omega)

theorem segmentsBetween_eq_empty (few : segments.length ≤ maxSigned)
    (missed : ¬SliceReaches segments.length first.toInt last.toInt) :
    segmentsBetween segments first last = "" := by
  have most := bound_le segments.length last.toInt
  unfold SliceReaches at missed
  rw [segmentsBetween_eq few]
  split
  · exact getD_of_length_le (by omega)
  · split
    · omega
    · rfl

end PathPattern
