import PathPattern.Proofs.Time.Canonical

/-!
# Canonical texts are read to their instants

The text of a date and time is read part by part: each number ends where its width or the mark
behind it says. So parts that are spelled one after another before an offset are read to themselves
(`parts_append`), and parts of an instant name it, whatever their offset in whole minutes
(`Parts.IsOf.instant_eq`). A canonical text is read to its settled instant, leap seconds and signed
years included; so is what is written (`read_write`).
-/

namespace PathPattern.Rfc3339

open Integer (DigitRun)
open Text (isBlank trimBlank)

variable {cs ds rest front zone : List Char} {c : Char} {n low high width nanos : Nat} {year : Int}

/-! ### Blanks -/

theorem isBlank_of_isDigit (digit : c.isDigit = true) : isBlank c = false := by
  have bounds := Char.isDigit_iff_toNat.1 digit
  have zero : '0'.toNat = 48 := rfl
  have nine : '9'.toNat = 57 := rfl
  unfold isBlank
  simp only [Bool.or_eq_false_iff, Bool.and_eq_false_iff, decide_eq_false_iff_not, beq_eq_false_iff_ne]
  omega

theorem trimBlank_cons (shown : isBlank c = false) (cs : List Char) :
    trimBlank (c :: cs) = c :: cs := by
  rw [trimBlank, List.dropWhile_cons_of_neg (by simp [shown])]

theorem trimBlank_run (run : DigitRun ds n) (rest : List Char) :
    trimBlank (ds ++ rest) = ds ++ rest := by
  obtain ⟨d, ds, rfl⟩ := List.exists_cons_of_ne_nil run.nonempty
  exact trimBlank_cons (isBlank_of_isDigit run.head_isDigit) _

/-! ### Numbers -/

theorem digitsValue_eq (cs : List Char) : digitsValue cs = Nat.ofDigitChars 10 cs 0 := by
  rw [digitsValue, Nat.ofDigitChars_eq_foldl]
  simp only [Nat.mul_comm 10]

/-- A run of digits is read as far as its width goes, or as there are digits. -/
theorem number_append (run : DigitRun ds n) (narrow : ds.length ≤ width)
    (small : n ≤ Integer.maxSigned)
    (ends : ds.length = width ∨ ∀ c ∈ rest.head?, c.isDigit = false) :
    number width (ds ++ rest) = .ok (n, rest) := by
  have stop : ∀ c ∈ (rest.take (width - ds.length)).head?, c.isDigit = false := by
    rcases ends with full | mark
    · simp [full]
    · intro c mem
      rw [List.head?_take] at mem
      split at mem
      · cases mem
      · exact mark c mem
  have taken : ((ds ++ rest).take width).takeWhile Integer.isDigit = ds := by
    rw [List.take_append, List.take_of_length_le narrow]
    exact Integer.takeWhile_digits run.digits stop
  have value : digitsValue ds = n := (digitsValue_eq ds).trans run.value
  unfold number
  simp only [taken, value, if_neg run.nonempty, if_neg (Nat.not_lt.2 small), List.drop_left]

theorem twoDigits_append (form : PairForm n ds) (low_le : low ≤ n) (le_high : n ≤ high)
    (two : high < 100) (rest : List Char) : twoDigits low high (ds ++ rest) = .ok (n, rest) := by
  obtain ⟨run, wide⟩ := form
  have small : n ≤ Integer.maxSigned := by
    unfold Integer.maxSigned
    omega
  rw [twoDigits, trimBlank_run run, number_append run (by omega) small (.inl wide)]
  simp only [low_le, le_high, and_self, if_true]

/-- A year within 32 bits is read, whether it has a sign or not. -/
theorem yearNumber_append (form : YearForm year ds) (low : -2147483648 ≤ year)
    (high : year ≤ 2147483647) (rest : List Char) :
    yearNumber (ds ++ '-' :: rest) = .ok (year, '-' :: rest) := by
  have dash : ∀ c ∈ ('-' :: rest).head?, c.isDigit = false := by simp
  have small {n : Nat} (bound : n ≤ 2147483648) : n ≤ Integer.maxSigned := by
    unfold Integer.maxSigned
    omega
  -- Behind a sign the digits go on up to the dash.
  have digits {ds : List Char} {n : Nat} (run : DigitRun ds n) (bound : n ≤ 2147483648) :
      number (ds ++ '-' :: rest).length (ds ++ '-' :: rest) = .ok (n, '-' :: rest) :=
    number_append run (by simp) (small bound) (.inr dash)
  cases form with
  | @four n ds run wide =>
    have read : number 4 (ds ++ '-' :: rest) = .ok (n, '-' :: rest) :=
      number_append run (by omega) (small (by omega)) (.inl wide)
    obtain ⟨d, ds, rfl⟩ := List.exists_cons_of_ne_nil run.nonempty
    have digit : d.isDigit = true := run.head_isDigit
    have minus : d ≠ '-' := by
      rintro rfl
      cases digit
    have plus : d ≠ '+' := by
      rintro rfl
      cases digit
    rw [yearNumber, trimBlank_run run]
    rw [List.cons_append] at read ⊢
    split
    · next same => exact absurd (List.cons.inj same).1 minus
    · next same => exact absurd (List.cons.inj same).1 plus
    · simp only [read]
  | @negative n ds below run _ _ =>
    have read := digits run (by omega)
    have back : -1 * (n : Int) = -n := by omega
    simp only [yearNumber, List.cons_append, trimBlank_cons (c := '-') (by decide), read, back, low,
      high, and_self, if_true]
  | @beyond n ds above run _ =>
    have read := digits run (by omega)
    have back : 1 * (n : Int) = n := by omega
    simp only [yearNumber, List.cons_append, trimBlank_cons (c := '+') (by decide), read, back, low,
      high, and_self, if_true]

/-! ### Fractions -/

/-- The digits of a fraction that are left out count as zeros. -/
theorem fraction_append (run : DigitRun ds n) (narrow : ds.length ≤ 9)
    (small : n ≤ Integer.maxSigned) (mark : ∀ c ∈ rest.head?, c.isDigit = false) :
    fraction (ds ++ rest) = .ok (n * 10 ^ (9 - ds.length), rest) := by
  have none : ∀ c ∈ ([] : List Char), c.isDigit = true := by simp
  have rest_eq : rest.dropWhile Integer.isDigit = rest := Integer.dropWhile_digits none mark
  rw [fraction, number_append run narrow small (.inr mark)]
  simp only [rest_eq, List.length_append, Nat.add_sub_cancel]
  rfl

theorem optionalFraction_append (form : FractionForm nanos ds) (below : nanos < 1000000000)
    (mark : ∀ c ∈ rest.head?, c.isDigit = false ∧ c ≠ '.') :
    optionalFraction (ds ++ rest) = .ok (nanos, rest) := by
  have noDigit : ∀ c ∈ rest.head?, c.isDigit = false := fun c mem => (mark c mem).1
  cases form with
  | whole zero =>
    rw [List.nil_append, zero]
    unfold optionalFraction
    split
    · exact absurd rfl (mark '.' (by simp)).2
    · rfl
  | @digits width n ds run length groups value _ =>
    have narrow : ds.length ≤ 9 := by
      simp only [List.mem_cons, List.not_mem_nil, or_false] at groups
      omega
    have small : n ≤ Integer.maxSigned := by
      have le := Nat.le_mul_of_pos_right n (Nat.pow_pos (n := 9 - width) (show 0 < 10 by omega))
      unfold Integer.maxSigned
      omega
    have read := fraction_append run narrow small noDigit
    rwa [length, value] at read

/-! ### Date and time -/

/-- Parts spelled before an offset are read to themselves. -/
theorem parts_append {p : Parts} (form : PartsForm p front) (h : p.InRange)
    (zone_read : offset zone = .ok (p.offset, []))
    (starts : ∀ c ∈ zone.head?, c.isDigit = false ∧ c ≠ '.' ∧ isBlank c = false) :
    parts (front ++ zone) = .ok p := by
  obtain ⟨year, month, day, hour, minute, second, nanos, -⟩ := h
  have dash : isBlank '-' = false := by decide
  have colon : isBlank ':' = false := by decide
  have mark : ∀ c ∈ zone.head?, c.isDigit = false ∧ c ≠ '.' := fun c mem =>
    ⟨(starts c mem).1, (starts c mem).2.1⟩
  have untouched : trimBlank zone = zone := by
    cases zone with
    | nil => rfl
    | cons c zone => exact trimBlank_cons (starts c (by simp)).2.2 zone
  cases form with
  | mk yearForm monthForm dayForm hourForm minuteForm secondForm fractionForm =>
    unfold parts
    simp only [List.append_assoc, List.cons_append,
      yearNumber_append yearForm (by omega) (by omega), trimBlank_cons dash, trimBlank_cons colon,
      Rfc3339.mark, if_true, bind, Except.bind, true_or,
      twoDigits_append monthForm month.1 month.2 (by omega),
      twoDigits_append dayForm day.1 day.2 (by omega),
      twoDigits_append hourForm (Nat.zero_le _) hour (by omega),
      twoDigits_append minuteForm (Nat.zero_le _) minute (by omega),
      twoDigits_append secondForm (Nat.zero_le _) second (by omega),
      optionalFraction_append fractionForm nanos mark, untouched, zone_read]
    simp [trimBlank]

/-- Whole minutes ahead of UTC, a minute ends where it ends in UTC, so only a leap second runs on. -/
theorem Parts.IsOf.isSettled {p : Parts} {t : Instant} (h : p.IsOf t) (whole : p.offset % 60 = 0) :
    t.IsSettled := by
  obtain ⟨day, -, clock⟩ := h.clock
  intro runsOn
  have sixty := h.leap.2 runsOn
  omega

/-- Parts of an instant name it. -/
theorem Parts.IsOf.instant_eq {p : Parts} {t : Instant} (h : p.IsOf t) (whole : p.offset % 60 = 0) :
    p.instant = .ok t := by
  obtain ⟨day, date, clock⟩ := h.clock
  have inRange : ¬(p.year < -262143 ∨ 262142 < p.year ∨ 86400 ≤ p.offset.natAbs) := by
    have year := h.inRange.year
    have offset := h.inRange.offset
    omega
  have self : Instant.ofParts? t.second t.nanos = some t :=
    dif_pos ⟨t.first_le, t.le_last, t.nanos_lt, h.isSettled whole⟩
  unfold instant
  simp only [date, if_neg inRange, clock, ← h.nanos, self]

/-- A canonical text is read to its instant, if that is settled. -/
theorem read_of_isCanonical {t : Instant} (canonical : IsCanonical t cs) :
    read cs = .ok t.settled := by
  obtain ⟨p, front, isOf, utc, form, rfl⟩ := canonical
  have zulu : offset ['Z'] = .ok (p.offset, []) := by
    rw [utc]
    rfl
  rw [read, parts_append form isOf.inRange zulu (by simp; decide)]
  exact isOf.instant_eq (by omega)

/-- What is written is read back. -/
theorem read_write (t : Instant) : read (write t) = .ok t.settled :=
  read_of_isCanonical (isCanonical_write t)

end PathPattern.Rfc3339
