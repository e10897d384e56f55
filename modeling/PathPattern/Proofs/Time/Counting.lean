import Mathlib.Algebra.BigOperators.Group.Finset.Basic
import PathPattern.Proofs.Time.Calendar

/-!
# Days counted one by one

The day number of January 1st is the number of days of all the years between it and the start of
1970 (`newYear_eq_daysTo`), and the day of the year is the number of days of all the months before,
and the day of the month (`isDate`). So days are in the order of their years and days of the year, and
of their years, months and days of the month.
-/

namespace PathPattern.Calendar

variable {year day day' : Int}

/-! ### Years -/

/-- The days from the start of 1970 to January 1st of a year, year by year; less than zero for a year
before. One of the two sums is empty. -/
def daysTo (year : Int) : Int :=
  ∑ k ∈ Finset.range (year - 1970).toNat, (yearLength (1970 + k) : Int) -
    ∑ k ∈ Finset.range (1970 - year).toNat, (yearLength (1969 - k) : Int)

theorem newYear_add (n : Nat) :
    newYear (1970 + n) = ∑ k ∈ Finset.range n, (yearLength (1970 + k) : Int) := by
  induction n with
  | zero => rfl
  | succ n ih =>
    have next : (1970 : Int) + (n + 1 : Nat) = 1970 + n + 1 := by omega
    rw [next, newYear_succ, ih, Finset.sum_range_succ]

theorem newYear_sub (n : Nat) :
    newYear (1970 - n) = -∑ k ∈ Finset.range n, (yearLength (1969 - k) : Int) := by
  induction n with
  | zero => rfl
  | succ n ih =>
    have previous : (1970 : Int) - n = 1969 - n + 1 := by omega
    have same : (1970 : Int) - (n + 1 : Nat) = 1969 - n := by omega
    rw [previous, newYear_succ] at ih
    rw [same, Finset.sum_range_succ]
    omega

/-- The first day of a year is as many days after the start of 1970 as the years between have. -/
theorem newYear_eq_daysTo (year : Int) : newYear year = daysTo year := by
  unfold daysTo
  rcases Int.le_total 1970 year with later | earlier
  · obtain ⟨n, rfl⟩ := Int.le.dest later
    have whole : ((1970 : Int) + n - 1970).toNat = n := by omega
    have none : ((1970 : Int) - (1970 + n)).toNat = 0 := by omega
    rw [whole, none, newYear_add, Finset.sum_range_zero, Int.sub_zero]
  · obtain ⟨n, same⟩ := Int.le.dest earlier
    obtain rfl : year = 1970 - n := by omega
    have whole : ((1970 : Int) - (1970 - n)).toNat = n := by omega
    have none : ((1970 : Int) - n - 1970).toNat = 0 := by omega
    rw [whole, none, newYear_sub, Finset.sum_range_zero, Int.zero_sub]

/-! ### Months -/

/-- The day of a year is this day of this month: the days of the months before it, and as many of the
month. -/
structure IsDate (year : Int) (dayOfYear month dayOfMonth : Nat) : Prop where
  month_pos : 1 ≤ month
  day_pos : 1 ≤ dayOfMonth
  day_le : ∃ length ∈ (monthLengths (isLeap year))[month - 1]?, dayOfMonth ≤ length
  count : dayOfYear = ((monthLengths (isLeap year)).take (month - 1)).sum + dayOfMonth

theorem isDate (day : Int) :
    IsDate (yearOf day) (dayOfYear day) (monthOf day) (dayOfMonth day) := by
  obtain ⟨front, length, back, left, split, fits, month, dayInMonth, whole⟩ :=
    dayNumber?_eq_some_iff_exists.1 (dayNumber?_date day)
  obtain ⟨counted, -⟩ := dayOfYear_eq day
  have positive : 1 ≤ dayOfYear day := by
    unfold dayOfYear
    omega
  have before : monthOf day - 1 = front.length := by omega
  refine ⟨by omega, by omega, ⟨length, ?_, by omega⟩, ?_⟩
  · rw [split, before, List.getElem?_append_right (Nat.le_refl _), Nat.sub_self]
    rfl
  · rw [split, before, List.take_left]
    omega

/-! ### Order -/

/-- Days are in the order of their years, and inside a year of their days of the year. -/
theorem yearOf_lt_or_of_lt (less : day < day') :
    yearOf day < yearOf day' ∨ yearOf day = yearOf day' ∧ dayOfYear day < dayOfYear day' := by
  obtain ⟨low, -⟩ := newYear_yearOf day
  obtain ⟨low', high'⟩ := newYear_yearOf day'
  have order : yearOf day < yearOf day' + 1 := newYear_lt_newYear_iff.1 (by omega)
  by_cases same : yearOf day = yearOf day'
  · refine .inr ⟨same, ?_⟩
    rw [← same] at low'
    unfold dayOfYear
    rw [← same]
    omega
  · exact .inl (by omega)

/-- Inside a year, days are in the order of their months, and inside a month of their days. -/
theorem IsDate.lt_or_of_lt {dayOfYear month dayOfMonth dayOfYear' month' dayOfMonth' : Nat}
    (h : IsDate year dayOfYear month dayOfMonth) (h' : IsDate year dayOfYear' month' dayOfMonth')
    (less : dayOfYear < dayOfYear') : month < month' ∨ month = month' ∧ dayOfMonth < dayOfMonth' := by
  rcases Nat.lt_trichotomy month month' with before | rfl | behind
  · exact .inl before
  · have count := h.count
    have count' := h'.count
    exact .inr ⟨rfl, by omega⟩
  · -- The months before the later one hold the whole of the earlier one.
    obtain ⟨length, found, fits⟩ := h'.day_le
    have positive := h'.month_pos
    have prefixed : (monthLengths (isLeap year)).take (month' - 1 + 1) <+:
        (monthLengths (isLeap year)).take (month - 1) := List.take_prefix_take_left (by omega)
    obtain ⟨between, split⟩ := prefixed
    have sums := congrArg List.sum split
    rw [List.take_add_one, Option.mem_def.1 found, Option.toList_some, List.sum_append,
      List.sum_append, List.sum_singleton] at sums
    have count := h.count
    have count' := h'.count
    have day := h.day_pos
    omega

end PathPattern.Calendar
