import Mathlib.Algebra.BigOperators.Group.List.Basic
import Mathlib.Algebra.GroupWithZero.Nat
import Mathlib.Order.Monotone.Basic
import PathPattern.Time.Calendar

/-!
# Laws of the calendar

Years follow each other without gaps (`newYear_succ`), and every day falls in the year between two
January 1sts (`yearOf_eq_iff`). Inside a year a day falls in the month that the months before it do
not fill (`monthAndDay_append`). So the date of a day names that day and no other
(`dayNumber?_eq_some_iff`).
-/

namespace PathPattern.Calendar

variable {year day : Int} {month dayInMonth : Nat}

/-! ### Years -/

/-- The number of days of a year. -/
def yearLength (year : Int) : Nat := if isLeap year then 366 else 365

theorem yearLength_pos (year : Int) : 0 < yearLength year := by
  unfold yearLength
  split <;> omega

theorem yearLength_le (year : Int) : yearLength year ≤ 366 := by
  unfold yearLength
  split <;> omega

theorem newYear_succ (year : Int) : newYear (year + 1) = newYear year + yearLength year := by
  unfold newYear yearLength isLeap
  simp only [Bool.and_eq_true, Bool.or_eq_true, bne_iff_ne, ne_eq, decide_eq_true_eq]
  split <;> omega

theorem newYear_lt_newYear_iff {a b : Int} : newYear a < newYear b ↔ a < b := by
  have mono : StrictMono newYear := by
    apply strictMono_int_of_lt_succ
    intro year
    have length := yearLength_pos year
    rw [newYear_succ]
    omega
  exact mono.lt_iff_lt

/-- The year by mean length is off by one at most. -/
theorem newYear_guess (day : Int) :
    newYear (day * 400 / 146097 + 1970 - 1) ≤ day ∧ day < newYear (day * 400 / 146097 + 1970 + 2) := by
  simp only [newYear]
  omega

theorem newYear_yearOf (day : Int) :
    newYear (yearOf day) ≤ day ∧ day < newYear (yearOf day + 1) := by
  obtain ⟨low, high⟩ := newYear_guess day
  simp only [yearOf]
  generalize day * 400 / 146097 + 1970 = guess at low high
  split
  · next early =>
    rw [show guess - 1 + 1 = guess by omega]
    exact ⟨low, early⟩
  · next notEarly =>
    split
    · next late =>
      rw [show guess + 1 + 1 = guess + 2 by omega]
      exact ⟨late, high⟩
    · next notLate => omega

/-- A day falls in the year whose January 1st it does not precede, but the next one's it does. -/
theorem yearOf_eq_iff : yearOf day = year ↔ newYear year ≤ day ∧ day < newYear (year + 1) := by
  constructor
  · rintro rfl
    exact newYear_yearOf day
  · rintro ⟨low, high⟩
    obtain ⟨low', high'⟩ := newYear_yearOf day
    have before : year < yearOf day + 1 := newYear_lt_newYear_iff.1 (by omega)
    have behind : yearOf day < year + 1 := newYear_lt_newYear_iff.1 (by omega)
    omega

theorem dayOfYear_eq (day : Int) :
    newYear (yearOf day) + ((dayOfYear day - 1 : Nat) : Int) = day ∧
      dayOfYear day - 1 < yearLength (yearOf day) := by
  obtain ⟨low, high⟩ := newYear_yearOf day
  rw [newYear_succ] at high
  unfold dayOfYear
  omega

/-! ### Months -/

theorem sum_monthLengths (year : Int) : (monthLengths (isLeap year)).sum = yearLength year := by
  unfold yearLength
  cases isLeap year <;> rfl

theorem monthAndDay_append {front back : List Nat} {length rest : Nat} (fits : rest < length) :
    monthAndDay (front ++ length :: back) (front.sum + rest) = (front.length + 1, rest + 1) := by
  induction front with
  | nil => simp [monthAndDay, fits]
  | cons first front ih =>
    have past : ¬(first :: front).sum + rest < first := by
      rw [List.sum_cons]
      omega
    have left : (first :: front).sum + rest - first = front.sum + rest := by
      rw [List.sum_cons]
      omega
    rw [List.cons_append, monthAndDay, if_neg past, left, ih, List.length_cons]

/-- A day of the year is in one of its months. -/
theorem exists_month {lengths : List Nat} {rest : Nat} (fits : rest < lengths.sum) :
    ∃ front length back left, lengths = front ++ length :: back ∧ rest = front.sum + left ∧
      left < length := by
  induction lengths generalizing rest with
  | nil => simp at fits
  | cons first lengths ih =>
    by_cases inFirst : rest < first
    · exact ⟨[], first, lengths, rest, rfl, by simp, inFirst⟩
    · rw [List.sum_cons] at fits
      have later : rest - first < lengths.sum := by omega
      obtain ⟨front, length, back, left, rfl, same, short⟩ := ih later
      refine ⟨first :: front, length, back, left, rfl, ?_, short⟩
      rw [List.sum_cons]
      omega

/-! ### Dates -/

/-- The calendar has a date if its day is within the length of its month. -/
theorem dayNumber?_eq_some_iff_exists :
    dayNumber? year month dayInMonth = some day ↔
      ∃ front length back left, monthLengths (isLeap year) = front ++ length :: back ∧
        left < length ∧ month = front.length + 1 ∧ dayInMonth = left + 1 ∧
        day = newYear year + (front.sum + left : Nat) := by
  have total (front : List Nat) : front.foldl (· + ·) 0 = front.sum := List.sum_eq_foldl.symm
  unfold dayNumber?
  constructor
  · intro h
    dsimp only at h
    split at h
    · next length found =>
      split at h
      · next within =>
        obtain ⟨inside, length_eq⟩ := List.getElem?_eq_some_iff.1 found
        have split := List.take_append_drop (month - 1) (monthLengths (isLeap year))
        rw [List.drop_eq_getElem_cons inside, length_eq] at split
        simp only [Option.some.injEq, total] at h
        refine ⟨_, length, _, dayInMonth - 1, split.symm, ?_, ?_, ?_, ?_⟩
        · omega
        · rw [List.length_take]
          omega
        · omega
        · rw [← h]
          push_cast
          omega
      · cases h
    · cases h
  · rintro ⟨front, length, back, left, split, fits, rfl, rfl, rfl⟩
    simp only [split, Nat.add_sub_cancel, List.getElem?_append_right (Nat.le_refl _), Nat.sub_self,
      List.getElem?_cons_zero, List.take_left, total]
    rw [if_pos (by omega)]
    push_cast
    rw [Int.add_assoc]

/-- The date of a day names that day, and no other date does. -/
theorem dayNumber?_eq_some_iff :
    dayNumber? year month dayInMonth = some day ↔
      yearOf day = year ∧ monthOf day = month ∧ dayOfMonth day = dayInMonth := by
  rw [dayNumber?_eq_some_iff_exists]
  constructor
  · rintro ⟨front, length, back, left, split, fits, rfl, rfl, rfl⟩
    have inYear : front.sum + left < yearLength year := by
      rw [← sum_monthLengths, split, List.sum_append, List.sum_cons]
      omega
    have inside : yearOf (newYear year + (front.sum + left : Nat)) = year := by
      rw [yearOf_eq_iff, newYear_succ]
      omega
    have place : dayOfYear (newYear year + (front.sum + left : Nat)) - 1 = front.sum + left := by
      rw [dayOfYear, inside]
      omega
    simp only [monthOf, dayOfMonth, inside, place, split, monthAndDay_append fits, and_self]
  · rintro ⟨rfl, rfl, rfl⟩
    obtain ⟨whole, short⟩ := dayOfYear_eq day
    rw [← sum_monthLengths] at short
    obtain ⟨front, length, back, left, split, same, fits⟩ := exists_month short
    refine ⟨front, length, back, left, split, fits, ?_, ?_, ?_⟩
    · rw [monthOf, same, split, monthAndDay_append fits]
    · rw [dayOfMonth, same, split, monthAndDay_append fits]
    · rw [← same, whole]

theorem dayNumber?_date (day : Int) :
    dayNumber? (yearOf day) (monthOf day) (dayOfMonth day) = some day :=
  dayNumber?_eq_some_iff.2 ⟨rfl, rfl, rfl⟩

/-- Months are counted from one to twelve, and days from one to thirty-one at most. -/
theorem date_bounds (day : Int) :
    1 ≤ monthOf day ∧ monthOf day ≤ 12 ∧ 1 ≤ dayOfMonth day ∧ dayOfMonth day ≤ 31 := by
  have lengths (leap : Bool) : ∀ length ∈ monthLengths leap, length ≤ 31 := by
    cases leap <;> decide
  obtain ⟨front, length, back, left, split, fits, month, dayInMonth, -⟩ :=
    dayNumber?_eq_some_iff_exists.1 (dayNumber?_date day)
  have count : (monthLengths (isLeap (yearOf day))).length = 12 := rfl
  have short := lengths (isLeap (yearOf day)) length (by simp [split])
  rw [split, List.length_append, List.length_cons] at count
  omega

end PathPattern.Calendar
