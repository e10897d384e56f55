import PathPattern.Proofs.Number.Numeral
import PathPattern.Proofs.Time.Calendar
import PathPattern.Time.Rfc3339

/-!
# The canonical text of an instant

Of all the texts that name an instant one is canonical: in UTC, every number as wide as its place
and no wider, a sign only before a year outside of 0 to 9999, and the fewest of 0, 3, 6 or 9 digits
for the nanoseconds. `IsCanonical` says so without a reader or a writer: the text spells parts
(`PartsForm`), and they are a date and a clock of the settled instant (`Parts.IsOf`). What is written
is canonical (`isCanonical_write`), and an instant that is not settled is written as the settled one
(`write_settled`).
-/

namespace PathPattern

namespace Rfc3339

open Integer (DigitRun padded digitRun_padded length_padded)

/-! ### Years -/

/-- The canonical text of a year: four digits, or a sign and as many digits as it takes, but four at
least. -/
inductive YearForm : Int → List Char → Prop where
  | four {n : Nat} {ds : List Char} (run : DigitRun ds n) (width : ds.length = 4) : YearForm n ds
  | negative {n : Nat} {ds : List Char} (below : 0 < n) (run : DigitRun ds n)
    (width : 4 ≤ ds.length) (lean : 4 < ds.length → ds.head? ≠ some '0') :
    YearForm (-n) ('-' :: ds)
  | beyond {n : Nat} {ds : List Char} (above : 9999 < n) (run : DigitRun ds n)
    (lean : ds.head? ≠ some '0') : YearForm n ('+' :: ds)

theorem yearForm_yearText (year : Int) : YearForm year (yearText year) := by
  have run (n : Nat) : DigitRun (padded 4 n) n := digitRun_padded 4 n
  unfold yearText
  split
  · next inside =>
    obtain ⟨n, rfl⟩ := Int.eq_ofNat_of_zero_le inside.1
    exact .four (run n) (length_padded (by omega) (by omega))
  · next outside =>
    by_cases below : year < 0
    · obtain ⟨n, rfl⟩ : ∃ n : Nat, year = -n := ⟨year.natAbs, by omega⟩
      rw [if_pos below, Int.natAbs_neg, Int.natAbs_natCast]
      have positive : 0 < n := by omega
      exact .negative positive (run n) (Integer.le_length_padded 4 n)
        (Integer.head?_padded positive)
    · obtain ⟨n, rfl⟩ : ∃ n : Nat, year = n := ⟨year.natAbs, by omega⟩
      rw [if_neg below, Int.natAbs_natCast]
      have long : 4 < (padded 4 n).length := by
        apply Nat.lt_of_not_le
        rw [Integer.length_padded_le_iff (by omega)]
        omega
      exact .beyond (by omega) (run n) (Integer.head?_padded (by omega) long)

/-! ### Fractions -/

/-- Nanoseconds in the fewest of 0, 3, 6 or 9 digits that lose nothing. -/
inductive FractionForm (nanos : Nat) : List Char → Prop where
  | whole (zero : nanos = 0) : FractionForm nanos []
  | digits {width n : Nat} {ds : List Char} (run : DigitRun ds n) (length : ds.length = width)
    (groups : width ∈ [3, 6, 9]) (value : n * 10 ^ (9 - width) = nanos)
    (fewest : ∀ fewer ∈ [0, 3, 6, 9], fewer < width → ¬10 ^ (9 - fewer) ∣ nanos) :
    FractionForm nanos ('.' :: ds)

theorem fractionForm_padded (width : Nat) {nanos : Nat} (groups : width ∈ [3, 6, 9])
    (below : nanos < 1000000000) (exact : 10 ^ (9 - width) ∣ nanos)
    (fewest : ∀ fewer ∈ [0, 3, 6, 9], fewer < width → ¬10 ^ (9 - fewer) ∣ nanos) :
    FractionForm nanos ('.' :: padded width (nanos / 10 ^ (9 - width))) := by
  have bounds : 0 < width ∧ width ≤ 9 := by
    simp only [List.mem_cons, List.not_mem_nil, or_false] at groups
    omega
  have all : 10 ^ (9 - width) * 10 ^ width = 1000000000 := by
    rw [← Nat.pow_add, Nat.sub_add_cancel bounds.2]
  have fits : nanos / 10 ^ (9 - width) < 10 ^ width := by
    rw [Nat.div_lt_iff_lt_mul (Nat.pow_pos (by omega)), Nat.mul_comm, all]
    exact below
  exact .digits (digitRun_padded width _) (length_padded bounds.1 fits) groups
    (Nat.div_mul_cancel exact) fewest

theorem fractionForm_fractionText {nanos : Nat} (below : nanos < 1000000000) :
    FractionForm nanos (fractionText nanos) := by
  have dvd_iff (d : Nat) : d ∣ nanos ↔ nanos % d = 0 := Nat.dvd_iff_mod_eq_zero
  unfold fractionText
  split
  · next zero => exact .whole zero
  next some =>
  split
  · next milli =>
    apply fractionForm_padded 3 (by simp) below ((dvd_iff _).2 milli)
    simp [dvd_iff]
    omega
  next noMilli =>
  split
  · next micro =>
    apply fractionForm_padded 6 (by simp) below ((dvd_iff _).2 micro)
    simp [dvd_iff]
    omega
  · next noMicro =>
    have nine := fractionForm_padded 9 (by simp) below (by simp) (by simp [dvd_iff]; omega)
    rwa [Nat.sub_self, Nat.pow_zero, Nat.div_one] at nine

/-! ### Parts -/

/-- Two digits. -/
def PairForm (n : Nat) (ds : List Char) : Prop := DigitRun ds n ∧ ds.length = 2

theorem pairForm_padded {n : Nat} (two : n < 100) : PairForm n (padded 2 n) :=
  ⟨digitRun_padded 2 n, length_padded (by omega) two⟩

/-- The parts of a date and time in order, with the marks between them. -/
inductive PartsForm (p : Parts) : List Char → Prop where
  | mk {year month day hour minute second fraction : List Char}
    (year_form : YearForm p.year year) (month_form : PairForm p.month month)
    (day_form : PairForm p.day day) (hour_form : PairForm p.hour hour)
    (minute_form : PairForm p.minute minute) (second_form : PairForm p.second second)
    (fraction_form : FractionForm p.nanos fraction) :
    PartsForm p (year ++ '-' :: month ++ '-' :: day ++ 'T' :: hour ++ ':' :: minute ++
      ':' :: second ++ fraction)

namespace Parts

/-- Each part is a number that its place in a text has room for. -/
structure InRange (p : Parts) : Prop where
  year : -262143 ≤ p.year ∧ p.year ≤ 262142
  month : 1 ≤ p.month ∧ p.month ≤ 12
  day : 1 ≤ p.day ∧ p.day ≤ 31
  hour : p.hour ≤ 23
  minute : p.minute ≤ 59
  second : p.second ≤ 60
  nanos : p.nanos < 1000000000
  offset : p.offset.natAbs < 86400

/-- The parts are a date and a clock of the instant, as far ahead of UTC as their offset says. In a
leap second they have second `60`. -/
structure IsOf (p : Parts) (t : Instant) : Prop where
  inRange : p.InRange
  clock : ∃ day, Calendar.dayNumber? p.year p.month p.day = some day ∧
    day * 86400 + (p.hour * 3600 + p.minute * 60 + min p.second 59 : Nat) - p.offset = t.second
  leap : p.second = 60 ↔ 1000000000 ≤ t.nanos
  nanos : t.nanos = if p.second = 60 then p.nanos + 1000000000 else p.nanos

/-- The text that is written for parts, but for their offset. -/
def text (p : Parts) : List Char :=
  yearText p.year ++ '-' :: padded 2 p.month ++ '-' :: padded 2 p.day ++ 'T' :: padded 2 p.hour ++
    ':' :: padded 2 p.minute ++ ':' :: padded 2 p.second ++ fractionText p.nanos

theorem partsForm_text {p : Parts} (h : p.InRange) : PartsForm p p.text := by
  have month := h.month
  have day := h.day
  have hour := h.hour
  have minute := h.minute
  have second := h.second
  exact .mk (yearForm_yearText p.year) (pairForm_padded (by omega)) (pairForm_padded (by omega))
    (pairForm_padded (by omega)) (pairForm_padded (by omega)) (pairForm_padded (by omega))
    (fractionForm_fractionText h.nanos)

end Parts

/-- The text is the canonical one of the instant; where its second runs on, it is the one of the
next second, unless that is a leap second. -/
def IsCanonical (t : Instant) (text : List Char) : Prop :=
  ∃ p front, Parts.IsOf p t.settled ∧ p.offset = 0 ∧ PartsForm p front ∧ text = front ++ ['Z']

end Rfc3339

/-! ### Instants -/

namespace Instant

open Rfc3339 (Parts)

/-- The parts of an instant in UTC; in a second that runs on they have the next second, and in a leap
second that is `60`. -/
def parts (t : Instant) : Parts where
  year := t.year
  month := Calendar.monthOf t.day
  day := Calendar.dayOfMonth t.day
  hour := t.hour
  minute := t.minute
  second := if 1000000000 ≤ t.nanos then t.secondOfMinute + 1 else t.secondOfMinute
  nanos := if 1000000000 ≤ t.nanos then t.nanos - 1000000000 else t.nanos
  offset := 0

/-- The years of instants. -/
theorem year_bounds (t : Instant) : -262143 ≤ t.year ∧ t.year ≤ 262142 := by
  have first := t.first_le
  have last := t.le_last
  unfold firstSecond at first
  unfold lastSecond at last
  obtain ⟨low, high⟩ := Calendar.newYear_yearOf t.day
  have start : Calendar.newYear (-262143) = -96465292 := by decide
  have finish : Calendar.newYear 262143 = 95026237 := by decide
  have day : t.day = t.second / 86400 := rfl
  have behind : (-262143 : Int) < t.year + 1 :=
    Calendar.newYear_lt_newYear_iff.1 (by unfold year; omega)
  have before : t.year < 262143 := Calendar.newYear_lt_newYear_iff.1 (by unfold year; omega)
  omega

/-- The clock of the day counts its seconds. -/
theorem clock_eq (t : Instant) :
    t.day * 86400 + (t.hour * 3600 + t.minute * 60 + t.secondOfMinute : Nat) = t.second ∧
      t.hour ≤ 23 ∧ t.minute ≤ 59 ∧ t.secondOfMinute ≤ 59 := by
  unfold hour minute secondOfMinute secondOfDay day
  omega

/-- A leap second runs on from second `59`. -/
theorem secondOfMinute_of_leap {t : Instant} (h : t.IsSettled) (leap : 1000000000 ≤ t.nanos) :
    t.secondOfMinute = 59 := by
  have := h leap
  unfold secondOfMinute secondOfDay
  omega

theorem parts_of_leap {t : Instant} (leap : 1000000000 ≤ t.nanos) :
    t.parts.second = t.secondOfMinute + 1 ∧ t.parts.nanos + 1000000000 = t.nanos := by
  have second : t.parts.second = t.secondOfMinute + 1 := if_pos leap
  have nanos : t.parts.nanos = t.nanos - 1000000000 := if_pos leap
  omega

theorem parts_of_not_leap {t : Instant} (noLeap : ¬1000000000 ≤ t.nanos) :
    t.parts.second = t.secondOfMinute ∧ t.parts.nanos = t.nanos :=
  ⟨if_neg noLeap, if_neg noLeap⟩

/-- A second that runs on has the parts of the next one. -/
theorem parts_settled (t : Instant) : t.settled.parts = t.parts := by
  by_cases h : t.IsSettled
  · rw [settled_of_isSettled h]
  obtain ⟨second, nanos⟩ := settled_of_not h
  have below := t.nanos_lt
  unfold IsSettled at h
  -- The minute does not end, since its last second is the one that may run on.
  have day : t.settled.day = t.day := by
    unfold Instant.day
    omega
  have clock : t.settled.hour = t.hour ∧ t.settled.minute = t.minute ∧
      t.settled.secondOfMinute = t.secondOfMinute + 1 := by
    unfold hour minute secondOfMinute secondOfDay
    omega
  obtain ⟨hour, minute, clock⟩ := clock
  have here := parts_of_leap (t := t) (by omega)
  have there := parts_of_not_leap (t := t.settled) (by omega)
  have parts_second : t.settled.parts.second = t.parts.second := by omega
  have parts_nanos : t.settled.parts.nanos = t.parts.nanos := by omega
  unfold parts at parts_second parts_nanos ⊢
  rw [Parts.mk.injEq]
  exact ⟨congrArg Calendar.yearOf day, congrArg Calendar.monthOf day,
    congrArg Calendar.dayOfMonth day, hour, minute, parts_second, parts_nanos, rfl⟩

theorem parts_inRange (t : Instant) : t.parts.InRange := by
  obtain ⟨-, hour, minute, second⟩ := t.clock_eq
  obtain ⟨monthLow, monthHigh, dayLow, dayHigh⟩ := Calendar.date_bounds t.day
  have nanos := t.nanos_lt
  have utc : t.parts.offset = 0 := rfl
  refine ⟨t.year_bounds, ⟨monthLow, monthHigh⟩, ⟨dayLow, dayHigh⟩, hour, minute, ?_, ?_, by omega⟩
  all_goals
    by_cases leap : 1000000000 ≤ t.nanos
    · have parts := parts_of_leap leap
      omega
    · have parts := parts_of_not_leap leap
      omega

/-- The parts that are written are parts of a settled instant. -/
theorem parts_isOf {t : Instant} (h : t.IsSettled) : t.parts.IsOf t := by
  obtain ⟨clock, hour, minute, second⟩ := t.clock_eq
  have date : Calendar.dayNumber? t.parts.year t.parts.month t.parts.day = some t.day :=
    Calendar.dayNumber?_date t.day
  have utc : t.parts.offset = 0 := rfl
  have sameHour : t.parts.hour = t.hour := rfl
  have sameMinute : t.parts.minute = t.minute := rfl
  by_cases leap : 1000000000 ≤ t.nanos
  · have last := secondOfMinute_of_leap h leap
    obtain ⟨next, past⟩ := parts_of_leap leap
    refine ⟨t.parts_inRange, ⟨t.day, date, by omega⟩, by omega, ?_⟩
    rw [if_pos (by omega), past]
  · obtain ⟨same, past⟩ := parts_of_not_leap leap
    refine ⟨t.parts_inRange, ⟨t.day, date, by omega⟩, by omega, ?_⟩
    rw [if_neg (by omega), past]

end Instant

namespace Rfc3339

theorem write_eq (t : Instant) : write t = t.parts.text ++ ['Z'] := rfl

/-- An instant is written as the settled one. -/
theorem write_settled (t : Instant) : write t.settled = write t := by
  rw [write_eq, write_eq, t.parts_settled]

/-- What is written is canonical. -/
theorem isCanonical_write (t : Instant) : IsCanonical t (write t) := by
  rw [← write_settled]
  exact ⟨t.settled.parts, t.settled.parts.text, Instant.parts_isOf t.isSettled_settled, rfl,
    Parts.partsForm_text t.settled.parts_inRange, rfl⟩

end Rfc3339

/-- The last second of all, run on by a leap second. -/
example : String.ofList
    (Rfc3339.write ⟨lastSecond, 1000001000, by decide, by decide, by decide⟩) =
      "+262142-12-31T23:59:60.000001Z" := by
  decide +kernel

end PathPattern
