import PathPattern.Proofs.Keyword.Meaning
import PathPattern.Proofs.Node.Leaves
import PathPattern.Proofs.Number.Stamp
import PathPattern.Proofs.Time.Canonical
import PathPattern.Proofs.Time.Counting
import PathPattern.Template.Reading

/-!
# Date and time in paths

The fields of the calendar and the timestamp are texts of one whole second, and each is told from the
others: year, day of the year and clock count the seconds of the timestamp, and month and day are
those of that day of the year. The parts of a date but the year have fixed widths. So in the years of
four digits a path of the parts in order is a stamp, and such paths are in the order of the
timestamps (`calendar_tells_timestamp`).
-/

namespace PathPattern

open Calendar (IsDate daysTo yearOf dayOfYear monthOf dayOfMonth yearLength)
open Integer (Numeral signedDecimal padded decimal stamp Fits)

variable {r r' : Record} {f : Field} {name template path : String} {width n : Nat}

/-! ### What a template tells of a record -/

namespace Template

/-- The template compiles and gives this path for the record. -/
def LeadsTo (template : String) (r : Record) (path : String) : Prop :=
  ∃ tree, compile template = .ok tree ∧ tree.resolve r = path

/-- The path is a decimal text, and is worth this number and no other. -/
def Tells (template : String) (r : Record) (v : Int) : Prop :=
  ∃ path, LeadsTo template r path ∧ ∀ w, Numeral path.toList w ↔ w = v

theorem LeadsTo.tells {v : Int} (leads : LeadsTo template r path) (numeral : Numeral path.toList v) :
    Tells template r v :=
  ⟨path, leads, fun _ => ⟨fun other => other.unique numeral, fun same => same ▸ numeral⟩⟩

theorem LeadsTo.tells_padded (leads : LeadsTo template r (String.ofList (padded width n))) :
    Tells template r n := by
  refine leads.tells ?_
  rw [String.toList_ofList]
  exact .unsigned (Integer.digitRun_padded width n)

theorem LeadsTo.has_width (leads : LeadsTo template r (String.ofList (padded width n)))
    (some : 0 < width) (small : n < 10 ^ width) :
    ∃ path, LeadsTo template r path ∧ path.length = width := by
  refine ⟨_, leads, ?_⟩
  rw [String.length_ofList]
  exact Integer.length_padded some small

theorem resolve_keyword (mem : (name, f) ∈ Field.keywords) (r : Record) :
    (Node.keyword name).resolve r = f.extract r := by
  have known : ∀ entry ∈ Field.keywords, Field.lookup entry.1 = some entry.2 := by decide +kernel
  rw [Node.resolve, Keyword.resolve_of_lookup_eq_some (known _ mem)]

/-- A keyword alone in braces leads to the text of its field. -/
theorem leadsTo_keyword (mem : (name, f) ∈ Field.keywords) (r : Record) :
    LeadsTo ("\x7b" ++ name ++ "\x7d") r (f.extract r) := by
  have compiles : ∀ entry ∈ Field.keywords,
      compile ("\x7b" ++ entry.1 ++ "\x7d") = .ok (.path [.keyword entry.1]) := by decide +kernel
  have compiled : compile ("\x7b" ++ name ++ "\x7d") = .ok (.path [.keyword name]) :=
    compiles (name, f) mem
  refine ⟨_, compiled, ?_⟩
  rw [Node.resolve_path, List.map_singleton, joinPath_cons, joinPath_nil, glue_empty_right,
    resolve_keyword mem]

end Template

/-! ### The parts of an instant in order -/

namespace Instant

variable {t t' : Instant}

/-- Year and day of the year. -/
def ordinalDate (t : Instant) : List Nat := [t.year.toNat, dayOfYear t.day]

/-- Year, month and day. -/
def calendarDate (t : Instant) : List Nat := [t.year.toNat, monthOf t.day, dayOfMonth t.day]

/-- Hour, minute and second. -/
def clock (t : Instant) : List Nat := [t.hour, t.minute, t.secondOfMinute]

/-- The year has four digits and no sign. -/
def HasShortYear (t : Instant) : Prop := 1000 ≤ t.year ∧ t.year ≤ 9999

theorem ordinalDate_lt (some : 0 ≤ t.year) (less : t.day < t'.day) :
    t.ordinalDate < t'.ordinalDate := by
  have order : t.year < t'.year ∨ t.year = t'.year ∧ dayOfYear t.day < dayOfYear t'.day :=
    Calendar.yearOf_lt_or_of_lt less
  simp only [ordinalDate, List.cons_lt_cons_iff]
  omega

theorem calendarDate_lt (some : 0 ≤ t.year) (less : t.day < t'.day) :
    t.calendarDate < t'.calendarDate := by
  have order : t.year < t'.year ∨ t.year = t'.year ∧ dayOfYear t.day < dayOfYear t'.day :=
    Calendar.yearOf_lt_or_of_lt less
  simp only [calendarDate, List.cons_lt_cons_iff]
  rcases order with before | ⟨same, inside⟩
  · omega
  · have date : IsDate t'.year (dayOfYear t.day) (monthOf t.day) (dayOfMonth t.day) :=
      same ▸ Calendar.isDate t.day
    have dates := date.lt_or_of_lt (Calendar.isDate t'.day) inside
    omega

theorem clock_lt (same : t.day = t'.day) (less : t.second < t'.second) : t.clock < t'.clock := by
  obtain ⟨whole, -, minute, second⟩ := t.clock_eq
  obtain ⟨whole', -, minute', second'⟩ := t'.clock_eq
  simp only [clock, List.cons_lt_cons_iff]
  omega

/-- A date and the clock behind it are in the order of the instants if the dates are in the order of
the days. -/
theorem append_clock_lt {date date' : List Nat} (length : date.length = date'.length)
    (days : t.day < t'.day → date < date') (same : t.day = t'.day → date = date')
    (less : t.second < t'.second) : date ++ t.clock < date' ++ t'.clock := by
  have order : t.day ≤ t'.day := Int.ediv_le_ediv (by decide) (Int.le_of_lt less)
  rcases Int.lt_or_eq_of_le order with before | equal
  · exact Integer.append_lt_append length (days before)
  · rw [same equal]
    exact List.append_left_lt (clock_lt equal less)

end Instant

/-! ### Stamps -/

/-- Year and day of the year as the directories of a path. -/
def ordinalForm : List (Nat × List Char) := [(4, ['/']), (3, ['/'])]

/-- Year, month and day as the directories of a path. -/
def calendarForm : List (Nat × List Char) := [(4, ['/']), (2, ['/']), (2, ['/'])]

/-- Hour, minute and second side by side. -/
def clockForm : List (Nat × List Char) := [(2, []), (2, []), (2, [])]

theorem fits_ordinal (short : r.acquired.HasShortYear) :
    Fits (ordinalForm ++ clockForm) (r.acquired.ordinalDate ++ r.acquired.clock) := by
  obtain ⟨low, high⟩ := short
  obtain ⟨-, hour, minute, second⟩ := r.acquired.clock_eq
  obtain ⟨-, within⟩ := Calendar.dayOfYear_eq r.acquired.day
  have year := Calendar.yearLength_le (yearOf r.acquired.day)
  refine .cons ⟨by decide, ?_⟩ (.cons ⟨by decide, ?_⟩ (.cons ⟨by decide, ?_⟩
    (.cons ⟨by decide, ?_⟩ (.cons ⟨by decide, ?_⟩ .nil))))
  all_goals
    dsimp only
    omega

theorem fits_calendar (short : r.acquired.HasShortYear) :
    Fits (calendarForm ++ clockForm) (r.acquired.calendarDate ++ r.acquired.clock) := by
  obtain ⟨low, high⟩ := short
  obtain ⟨-, hour, minute, second⟩ := r.acquired.clock_eq
  obtain ⟨-, month, -, day⟩ := Calendar.date_bounds r.acquired.day
  refine .cons ⟨by decide, ?_⟩ (.cons ⟨by decide, ?_⟩ (.cons ⟨by decide, ?_⟩ (.cons ⟨by decide, ?_⟩
    (.cons ⟨by decide, ?_⟩ (.cons ⟨by decide, ?_⟩ .nil)))))
  all_goals
    dsimp only
    omega

theorem ofList_padded_ne_empty (width n : Nat) (rest : List Char) :
    String.ofList (padded width n ++ rest) ≠ "" :=
  mt String.ofList_eq_empty_iff.1
    (List.append_ne_nil_of_left_ne_nil (Integer.digitRun_padded width n).nonempty rest)

namespace Template

theorem extract_year (short : r.acquired.HasShortYear) :
    Field.year.extract r = String.ofList (padded 4 r.acquired.year.toNat) := by
  obtain ⟨low, high⟩ := short
  obtain ⟨n, same⟩ := Int.eq_ofNat_of_zero_le (show 0 ≤ r.acquired.year by omega)
  rw [Field.extract, same, Integer.signedDecimal_natCast, Int.toNat_natCast,
    Integer.padded_eq_decimal (show 0 < 3 by decide) (by omega)]

theorem resolve_clock (r : Record) :
    (Node.compound [.keyword "hour", .keyword "min", .keyword "sec"]).resolve r =
      String.ofList (stamp clockForm r.acquired.clock) := by
  have hour := resolve_keyword (show ("hour", Field.hour) ∈ Field.keywords by decide) r
  have minute := resolve_keyword (show ("min", Field.minute) ∈ Field.keywords by decide) r
  have second := resolve_keyword (show ("sec", Field.second) ∈ Field.keywords by decide) r
  rw [Node.resolve_compound, List.map_cons, List.map_cons, List.map_cons, hour, minute, second]
  apply String.toList_inj.1
  simp [Field.extract, clockForm, Instant.clock, stamp]

/-- Padded numbers and the clock behind them are joined with slashes between them. -/
theorem joinPath_padded (dates : List (Nat × Nat)) (r : Record) :
    joinPath (dates.map (fun date => String.ofList (padded date.1 date.2)) ++
        [String.ofList (stamp clockForm r.acquired.clock)]) =
      String.ofList (stamp (dates.map (fun date => (date.1, ['/'])) ++ clockForm)
        (dates.map (·.2) ++ r.acquired.clock)) := by
  induction dates with
  | nil => simp [joinPath_cons, joinPath_nil, glue_empty_right]
  | cons date dates ih =>
    have first : String.ofList (padded date.1 date.2) ≠ "" := by
      simpa using ofList_padded_ne_empty date.1 date.2 []
    have rest : String.ofList (stamp (dates.map (fun date => (date.1, ['/'])) ++ clockForm)
        (dates.map (·.2) ++ r.acquired.clock)) ≠ "" := by
      cases dates <;> exact ofList_padded_ne_empty _ _ _
    rw [List.map_cons, List.cons_append, joinPath_cons, ih, glue, if_neg first, if_neg rest]
    apply String.toList_inj.1
    simp [stamp]

theorem leadsTo_ordinal (short : r.acquired.HasShortYear) :
    LeadsTo "{year}/{doy}/{hour}{min}{sec}" r
      (String.ofList (stamp (ordinalForm ++ clockForm) (r.acquired.ordinalDate ++ r.acquired.clock))) := by
  have compiles : compile "{year}/{doy}/{hour}{min}{sec}" = .ok (.path [.keyword "year",
      .keyword "doy", .compound [.keyword "hour", .keyword "min", .keyword "sec"]]) := by
    decide +kernel
  have year := resolve_keyword (show ("year", Field.year) ∈ Field.keywords by decide) r
  have day := resolve_keyword (show ("doy", Field.dayOfYear) ∈ Field.keywords by decide) r
  refine ⟨_, compiles, ?_⟩
  rw [Node.resolve_path, List.map_cons, List.map_cons, List.map_cons, year, day, resolve_clock,
    extract_year short]
  exact joinPath_padded [(4, r.acquired.year.toNat), (3, dayOfYear r.acquired.day)] r

theorem leadsTo_calendar (short : r.acquired.HasShortYear) :
    LeadsTo "{year}/{month}/{day}/{hour}{min}{sec}" r
      (String.ofList (stamp (calendarForm ++ clockForm) (r.acquired.calendarDate ++ r.acquired.clock))) := by
  have compiles : compile "{year}/{month}/{day}/{hour}{min}{sec}" = .ok (.path [.keyword "year",
      .keyword "month", .keyword "day",
      .compound [.keyword "hour", .keyword "min", .keyword "sec"]]) := by
    decide +kernel
  have year := resolve_keyword (show ("year", Field.year) ∈ Field.keywords by decide) r
  have month := resolve_keyword (show ("month", Field.month) ∈ Field.keywords by decide) r
  have day := resolve_keyword (show ("day", Field.day) ∈ Field.keywords by decide) r
  refine ⟨_, compiles, ?_⟩
  rw [Node.resolve_path, List.map_cons, List.map_cons, List.map_cons, List.map_cons, year, month, day,
    resolve_clock, extract_year short]
  exact joinPath_padded [(4, r.acquired.year.toNat), (2, monthOf r.acquired.day),
    (2, dayOfMonth r.acquired.day)] r

/-- Texts that are in the order of two numbers compare as the numbers do. -/
theorem compare_eq_of_lt {path path' : String} {i j : Int} (less : i < j → path < path')
    (same : i = j → path = path') (more : j < i → path' < path) : compare path path' = compare i j := by
  have unfolded : compare path path' = compareOfLessAndEq path path' := rfl
  rw [unfolded, compareOfLessAndEq]
  rcases Int.lt_trichotomy i j with before | equal | behind
  · rw [if_pos (less before), Int.compare_eq_lt.2 before]
  · have irrefl : ¬path < path' := by
      rw [same equal]
      exact String.lt_irrefl path'
    rw [if_neg irrefl, if_pos (same equal), Int.compare_eq_eq.2 equal]
  · have differ : path ≠ path' := by
      rintro rfl
      exact String.lt_irrefl path (more behind)
    rw [if_neg (String.lt_asymm (more behind)), if_neg differ, Int.compare_eq_gt.2 behind]

/-- Stamps of a date and the clock compare as the instants do. -/
theorem compare_stamp {form : List (Nat × List Char)} {date : Instant → List Nat}
    {t t' : Instant} (fits : Fits (form ++ clockForm) (date t ++ t.clock))
    (fits' : Fits (form ++ clockForm) (date t' ++ t'.clock))
    (length : (date t).length = (date t').length) (same : t.day = t'.day → date t = date t')
    (less : t.day < t'.day → date t < date t') (more : t'.day < t.day → date t' < date t) :
    compare (String.ofList (stamp (form ++ clockForm) (date t ++ t.clock)))
        (String.ofList (stamp (form ++ clockForm) (date t' ++ t'.clock))) =
      compare t.second t'.second := by
  apply compare_eq_of_lt
  · intro before
    rw [String.lt_iff, String.toList_ofList, String.toList_ofList]
    exact Integer.stamp_lt_stamp fits fits' (Instant.append_clock_lt length less same before)
  · intro equal
    have day : t.day = t'.day := by rw [Instant.day, Instant.day, equal]
    have clock : t.clock = t'.clock := by
      simp only [Instant.clock, Instant.hour, Instant.minute, Instant.secondOfMinute,
        Instant.secondOfDay, equal]
    rw [same day, clock]
  · intro behind
    rw [String.lt_iff, String.toList_ofList, String.toList_ofList]
    exact Integer.stamp_lt_stamp fits' fits
      (Instant.append_clock_lt length.symm more (fun equal => (same equal.symm).symm) behind)

/-! ### The fields of the calendar -/

/-- The parts of a date but the year are padded numbers. -/
theorem leadsTo_parts (r : Record) :
    LeadsTo "{doy}" r (String.ofList (padded 3 (dayOfYear r.acquired.day))) ∧
    LeadsTo "{month}" r (String.ofList (padded 2 (monthOf r.acquired.day))) ∧
    LeadsTo "{day}" r (String.ofList (padded 2 (dayOfMonth r.acquired.day))) ∧
    LeadsTo "{hour}" r (String.ofList (padded 2 r.acquired.hour)) ∧
    LeadsTo "{minute}" r (String.ofList (padded 2 r.acquired.minute)) ∧
    LeadsTo "{second}" r (String.ofList (padded 2 r.acquired.secondOfMinute)) :=
  ⟨leadsTo_keyword (show ("doy", Field.dayOfYear) ∈ Field.keywords by decide) r,
    leadsTo_keyword (show ("month", Field.month) ∈ Field.keywords by decide) r,
    leadsTo_keyword (show ("day", Field.day) ∈ Field.keywords by decide) r,
    leadsTo_keyword (show ("hour", Field.hour) ∈ Field.keywords by decide) r,
    leadsTo_keyword (show ("minute", Field.minute) ∈ Field.keywords by decide) r,
    leadsTo_keyword (show ("second", Field.second) ∈ Field.keywords by decide) r⟩

/-- Year, day of the year and clock count the seconds. -/
theorem second_eq_of_parts (t : Instant) :
    t.second = 86400 * (daysTo t.year + dayOfYear t.day - 1) + 3600 * t.hour + 60 * t.minute +
      t.secondOfMinute := by
  have start := Calendar.newYear_eq_daysTo t.year
  have counted : Calendar.newYear t.year + ((dayOfYear t.day - 1 : Nat) : Int) = t.day :=
    (Calendar.dayOfYear_eq t.day).1
  have positive := (Calendar.isDate t.day).day_pos
  have count := (Calendar.isDate t.day).count
  have clock := t.clock_eq.1
  omega

theorem parts_have_widths (r : Record) :
    ∀ part ∈ [("{doy}", 3), ("{month}", 2), ("{day}", 2), ("{hour}", 2), ("{minute}", 2),
      ("{second}", 2)], ∃ path, LeadsTo part.1 r path ∧ path.length = part.2 := by
  obtain ⟨ordinal, month, day, hour, minute, second⟩ := leadsTo_parts r
  obtain ⟨-, hours, minutes, seconds⟩ := r.acquired.clock_eq
  obtain ⟨-, months, -, days⟩ := Calendar.date_bounds r.acquired.day
  have ordinals := (Calendar.dayOfYear_eq r.acquired.day).2
  have length := Calendar.yearLength_le (yearOf r.acquired.day)
  simp only [List.forall_mem_cons]
  exact ⟨ordinal.has_width (by decide) (by omega), month.has_width (by decide) (by omega),
    day.has_width (by decide) (by omega), hour.has_width (by decide) (by omega),
    minute.has_width (by decide) (by omega), second.has_width (by decide) (by omega), by simp⟩

/-- In the years of four digits, paths of the parts in order compare as the timestamps do. -/
theorem compare_of_short (short : r.acquired.HasShortYear) (short' : r'.acquired.HasShortYear) :
    ∀ template ∈ ["{year}/{doy}/{hour}{min}{sec}", "{year}/{month}/{day}/{hour}{min}{sec}"],
      ∃ path path', LeadsTo template r path ∧ LeadsTo template r' path' ∧
        compare path path' = compare r.acquired.second r'.acquired.second := by
  have some : 0 ≤ r.acquired.year := Int.le_trans (by decide) short.1
  have some' : 0 ≤ r'.acquired.year := Int.le_trans (by decide) short'.1
  intro template mem
  rcases List.mem_cons.1 mem with rfl | mem
  · refine ⟨_, _, leadsTo_ordinal short, leadsTo_ordinal short', ?_⟩
    refine compare_stamp (fits_ordinal short) (fits_ordinal short') rfl ?_
      (Instant.ordinalDate_lt some) (Instant.ordinalDate_lt some')
    intro same
    simp only [Instant.ordinalDate, Instant.year, same]
  · rw [List.mem_singleton.1 mem]
    refine ⟨_, _, leadsTo_calendar short, leadsTo_calendar short', ?_⟩
    refine compare_stamp (fits_calendar short) (fits_calendar short') rfl ?_
      (Instant.calendarDate_lt some) (Instant.calendarDate_lt some')
    intro same
    simp only [Instant.calendarDate, Instant.year, same]

/-- The fields of the calendar, read back, count the seconds of the timestamp, and month and day are
those of the day of the year. All but the year have fixed widths, so that for years of four digits
paths of the date and the time are in the order of the timestamps. -/
theorem calendar_tells_timestamp (r : Record) :
    (∃ dayOfYear month day hour minute second : Nat,
      Tells "{year}" r r.acquired.year ∧ Tells "{doy}" r dayOfYear ∧ Tells "{month}" r month ∧
      Tells "{day}" r day ∧ Tells "{hour}" r hour ∧ Tells "{minute}" r minute ∧
      Tells "{second}" r second ∧ IsDate r.acquired.year dayOfYear month day ∧
      LeadsTo "{timestamp}" r (String.ofList (signedDecimal r.acquired.second)) ∧
      r.acquired.second = 86400 * (daysTo r.acquired.year + dayOfYear - 1) + 3600 * hour +
        60 * minute + second) ∧
    (∀ part ∈ [("{doy}", 3), ("{month}", 2), ("{day}", 2), ("{hour}", 2), ("{minute}", 2),
        ("{second}", 2)], ∃ path, LeadsTo part.1 r path ∧ path.length = part.2) ∧
    ∀ r' : Record, r.acquired.HasShortYear → r'.acquired.HasShortYear →
      ∀ template ∈ ["{year}/{doy}/{hour}{min}{sec}", "{year}/{month}/{day}/{hour}{min}{sec}"],
        ∃ path path', LeadsTo template r path ∧ LeadsTo template r' path' ∧
          compare path path' = compare r.acquired.second r'.acquired.second := by
  obtain ⟨ordinal, month, day, hour, minute, second⟩ := leadsTo_parts r
  have year : LeadsTo "{year}" r (Field.year.extract r) :=
    leadsTo_keyword (show ("year", Field.year) ∈ Field.keywords by decide) r
  have timestamp : LeadsTo "{timestamp}" r (Field.timestamp.extract r) :=
    leadsTo_keyword (show ("timestamp", Field.timestamp) ∈ Field.keywords by decide) r
  have written : Numeral (Field.year.extract r).toList r.acquired.year := by
    rw [Field.extract, String.toList_ofList]
    exact Integer.numeral_signedDecimal r.acquired.year
  refine ⟨⟨dayOfYear r.acquired.day, monthOf r.acquired.day, dayOfMonth r.acquired.day,
    r.acquired.hour, r.acquired.minute, r.acquired.secondOfMinute, year.tells written,
    ordinal.tells_padded, month.tells_padded, day.tells_padded, hour.tells_padded,
    minute.tells_padded, second.tells_padded, Calendar.isDate r.acquired.day, timestamp,
    second_eq_of_parts r.acquired⟩, parts_have_widths r, ?_⟩
  intro r' short short'
  exact compare_of_short short short'

/-- Inside the leap second at the end of 1998. -/
def inLeapSecond : Record :=
  { Record.blank with
    acquired := {
      second := 915148799
      nanos := 1500000000
      first_le := by decide
      le_last := by decide
      nanos_lt := by decide } }

/-- The start of 1999. -/
def newYear1999 : Record :=
  { Record.blank with
    acquired := { Instant.epoch with
      second := 915148800
      first_le := by decide
      le_last := by decide } }

/-- The leap second has the path of second 59, before that of the new year. -/
theorem leap_second_before_new_year : inLeapSecond.acquired.HasShortYear ∧
    newYear1999.acquired.HasShortYear ∧
    ∃ path path', LeadsTo "{year}/{doy}/{hour}{min}{sec}" inLeapSecond path ∧
      LeadsTo "{year}/{doy}/{hour}{min}{sec}" newYear1999 path' ∧ compare path path' = .lt := by
  have short : inLeapSecond.acquired.HasShortYear := by
    unfold Instant.HasShortYear
    decide +kernel
  have short' : newYear1999.acquired.HasShortYear := by
    unfold Instant.HasShortYear
    decide +kernel
  exact ⟨short, short', (calendar_tells_timestamp inLeapSecond).2.2 newYear1999 short short' _
    List.mem_cons_self⟩

end Template

end PathPattern
