import PathPattern.Proofs.Text.Cut
import PathPattern.Proofs.Time.Rfc3339

/-!
# Texts of an instant in other zones

The clocks of a zone are some minutes ahead of UTC, or behind it, and less than a day either way. So
they show a date and a clock of their own, with the minutes behind them in hours and minutes
(`IsZoned`). Reading takes the minutes off again, so the text of a zone is read to the settled instant
(`read_of_isZoned`), and every zone has one as long as its date is in the years of instants
(`isZoned_zonedText`).
-/

namespace PathPattern

namespace Rfc3339

open Integer (padded)
open Text (isBlank)

variable {ds zone text : List Char} {c : Char} {h m n : Nat} {minutes : Int} {t : Instant}

/-! ### Offsets -/

/-- The text of an offset in minutes: a sign, hours below 24 and minutes below 60. -/
inductive ZoneForm : Int → List Char → Prop where
  | ahead {h m : Nat} {hours minutes : List Char} (hour_form : PairForm h hours)
    (minute_form : PairForm m minutes) (hour_le : h ≤ 23) (minute_le : m ≤ 59) :
    ZoneForm (60 * h + m) ('+' :: hours ++ ':' :: minutes)
  | behind {h m : Nat} {hours minutes : List Char} (hour_form : PairForm h hours)
    (minute_form : PairForm m minutes) (hour_le : h ≤ 23) (minute_le : m ≤ 59) :
    ZoneForm (-(60 * h + m)) ('-' :: hours ++ ':' :: minutes)

/-- The text that is written for an offset. -/
def zoneText (minutes : Int) : List Char :=
  (if 0 ≤ minutes then '+' else '-') :: padded 2 (minutes.natAbs / 60) ++
    ':' :: padded 2 (minutes.natAbs % 60)

theorem zoneForm_zoneText (small : minutes.natAbs < 1440) : ZoneForm minutes (zoneText minutes) := by
  have hour_form : PairForm (minutes.natAbs / 60) (padded 2 (minutes.natAbs / 60)) :=
    pairForm_padded (by omega)
  have minute_form : PairForm (minutes.natAbs % 60) (padded 2 (minutes.natAbs % 60)) :=
    pairForm_padded (by omega)
  unfold zoneText
  by_cases ahead : 0 ≤ minutes
  · have form := ZoneForm.ahead hour_form minute_form (by omega) (by omega)
    have same : 60 * ((minutes.natAbs / 60 : Nat) : Int) + ((minutes.natAbs % 60 : Nat) : Int) =
        minutes := by omega
    rwa [same, ← if_pos (c := 0 ≤ minutes) (t := '+') (e := '-') ahead] at form
  · have form := ZoneForm.behind hour_form minute_form (by omega) (by omega)
    have same : -(60 * ((minutes.natAbs / 60 : Nat) : Int) + ((minutes.natAbs % 60 : Nat) : Int)) =
        minutes := by omega
    rwa [same, ← if_neg (c := 0 ≤ minutes) (t := '+') (e := '-') ahead] at form

/-- Two digits, the first one worth ten times its value. -/
theorem PairForm.exists_digits (form : PairForm n ds) :
    ∃ a b, ds = [a, b] ∧ a.isDigit = true ∧ b.isDigit = true ∧
      (a.toNat - '0'.toNat) * 10 + (b.toNat - '0'.toNat) = n := by
  obtain ⟨run, wide⟩ := form
  obtain ⟨a, b, rfl⟩ := List.length_eq_two.1 wide
  refine ⟨a, b, rfl, run.digits a (by simp), run.digits b (by simp), ?_⟩
  rw [← run.value, ← digitsValue_eq]
  simp [digitsValue]

theorem offsetDigits_append {hours minutes : List Char} (hour_form : PairForm h hours)
    (minute_form : PairForm m minutes) (minute_le : m ≤ 59) :
    offsetDigits (hours ++ ':' :: minutes) = .ok (60 * (60 * h + m), []) := by
  obtain ⟨a, b, rfl, digit_a, digit_b, rfl⟩ := hour_form.exists_digits
  obtain ⟨c, d, rfl, digit_c, digit_d, rfl⟩ := minute_form.exists_digits
  have isDigit {e : Char} (digit : e.isDigit = true) : Integer.isDigit e = true := by
    rwa [Integer.isDigit_eq]
  have long (e f : Char) (more : List Char) : ¬Text.byteCount (e :: f :: more) < 2 := by
    have first := e.utf8Size_pos
    have second := f.utf8Size_pos
    rw [Text.byteCount_cons, Text.byteCount_cons]
    omega
  have noColon : (c == ':') = false := by
    apply beq_eq_false_iff_ne.2
    rintro rfl
    cases digit_c
  have stops : (':' :: c :: d :: []).dropWhile (fun e => e == ':' || isBlank e) = [c, d] := by
    rw [List.dropWhile_cons_of_pos (by simp), List.dropWhile_cons_of_neg]
    simp [noColon, isBlank_of_isDigit digit_c]
  have tens : ¬6 ≤ c.toNat - '0'.toNat := by omega
  unfold offsetDigits
  simp only [List.cons_append, List.nil_append, long, isDigit digit_a, isDigit digit_b,
    isDigit digit_c, isDigit digit_d, stops, tens, decide_false, Bool.false_eq_true, if_false,
    and_self, if_true]
  congr 2
  omega

/-- What starts with a sign is no name of UTC. -/
theorem take_map_toUpper_ne (other : c.toUpper ≠ 'U') (cs : List Char) :
    ¬((c :: cs).take 3).map Char.toUpper = ['U', 'T', 'C'] := by
  intro same
  rw [List.take_succ_cons, List.map_cons] at same
  exact other (List.cons.inj same).1

/-- The text of an offset is read to its seconds. -/
theorem offset_of_zoneForm (form : ZoneForm minutes zone) : offset zone = .ok (60 * minutes, []) := by
  cases form with
  | ahead hour_form minute_form hour_le minute_le =>
    have read := offsetDigits_append hour_form minute_form minute_le
    have noName := take_map_toUpper_ne (c := '+') (by decide)
    rw [List.cons_append, offset]
    simp only [noName, if_false, read, Except.map, if_true, Char.reduceEq, or_self]
    push_cast
    rfl
  | behind hour_form minute_form hour_le minute_le =>
    have read := offsetDigits_append hour_form minute_form minute_le
    have noName := take_map_toUpper_ne (c := '-') (by decide)
    rw [List.cons_append, offset]
    simp only [noName, if_false, read, Except.map, if_true, Char.reduceEq, or_self, true_or]
    push_cast
    rw [Int.mul_neg]

/-- An offset starts with a sign. -/
theorem ZoneForm.starts (form : ZoneForm minutes zone) :
    ∀ c ∈ zone.head?, c.isDigit = false ∧ c ≠ '.' ∧ isBlank c = false := by
  cases form <;> simp <;> decide

/-! ### Texts of a zone -/

/-- The text is that of the instant in a zone so many minutes ahead of UTC: a date and a clock there,
and the minutes. -/
def IsZoned (t : Instant) (minutes : Int) (text : List Char) : Prop :=
  ∃ p front zone, Parts.IsOf p t.settled ∧ p.offset = 60 * minutes ∧ PartsForm p front ∧
    ZoneForm minutes zone ∧ text = front ++ zone

/-- The text of a zone is read to the instant, if that is settled. -/
theorem read_of_isZoned (zoned : IsZoned t minutes text) : read text = .ok t.settled := by
  obtain ⟨p, front, zone, isOf, away, form, zone_form, rfl⟩ := zoned
  have zone_read := offset_of_zoneForm zone_form
  rw [← away] at zone_read
  rw [read, parts_append form isOf.inRange zone_read zone_form.starts]
  exact isOf.instant_eq (by omega)

end Rfc3339

namespace Instant

open Rfc3339 (Parts IsZoned zoneText)

/-- The instant whose clocks in UTC show what those of another instant show so many minutes ahead. -/
def shifted (t : Instant) (minutes : Int) (low : firstSecond ≤ t.second + 60 * minutes)
    (high : t.second + 60 * minutes ≤ lastSecond) : Instant where
  second := t.second + 60 * minutes
  nanos := t.nanos
  first_le := low
  le_last := high
  nanos_lt := t.nanos_lt

variable (t : Instant) {minutes : Int} (low : firstSecond ≤ t.second + 60 * minutes)
  (high : t.second + 60 * minutes ≤ lastSecond)

/-- Whole minutes ahead, a second runs on where it does in UTC. -/
theorem settled_shifted : (t.shifted minutes low high).settled.second = t.settled.second + 60 * minutes ∧
    (t.shifted minutes low high).settled.nanos = t.settled.nanos := by
  have second : (t.shifted minutes low high).second = t.second + 60 * minutes := rfl
  have nanos : (t.shifted minutes low high).nanos = t.nanos := rfl
  have alike : (t.shifted minutes low high).IsSettled ↔ t.IsSettled := by
    unfold IsSettled
    omega
  by_cases h : t.IsSettled
  · rw [settled_of_isSettled (alike.2 h), settled_of_isSettled h]
    exact ⟨second, nanos⟩
  · have here := settled_of_not h
    have there := settled_of_not (mt alike.1 h)
    omega

/-- The parts that are shown so many minutes ahead. -/
def partsAhead : Parts := { (t.shifted minutes low high).parts with offset := 60 * minutes }

theorem partsAhead_isOf (small : minutes.natAbs < 1440) : (t.partsAhead low high).IsOf t.settled := by
  have utc := parts_isOf (t.shifted minutes low high).isSettled_settled
  rw [parts_settled] at utc
  obtain ⟨second, nanos⟩ := t.settled_shifted low high
  obtain ⟨day, date, clock⟩ := utc.clock
  have zero : (t.shifted minutes low high).parts.offset = 0 := rfl
  have away : (t.partsAhead low high).offset = 60 * minutes := rfl
  have clock' : day * 86400 + ((t.shifted minutes low high).parts.hour * 3600 +
      (t.shifted minutes low high).parts.minute * 60 +
      min (t.shifted minutes low high).parts.second 59 : Nat) - 60 * minutes = t.settled.second := by
    omega
  exact ⟨{ utc.inRange with offset := by omega }, ⟨day, date, clock'⟩, nanos ▸ utc.leap,
    nanos ▸ utc.nanos⟩

/-- The text that is written for the instant in a zone so many minutes ahead. -/
def zonedText : List Char := (t.shifted minutes low high).parts.text ++ zoneText minutes

/-- Every zone has a text of the instant, if its date is in the years of instants. -/
theorem isZoned_zonedText (small : minutes.natAbs < 1440) :
    IsZoned t minutes (t.zonedText low high) := by
  refine ⟨t.partsAhead low high, _, _, t.partsAhead_isOf low high small, rfl, ?_,
    Rfc3339.zoneForm_zoneText small, rfl⟩
  exact Parts.partsForm_text (t.partsAhead_isOf low high small).inRange

end Instant

/-- The leap second at the end of 2016. -/
def Instant.leapSecond : Instant :=
  ⟨1483228799, 1000000000, by decide, by decide, by decide⟩

/-- Its text where clocks are ahead of UTC and the next year has begun. -/
theorem Instant.isZoned_leapSecond :
    Rfc3339.IsZoned leapSecond 345 "2017-01-01T05:44:60+05:45".toList := by
  have text : leapSecond.zonedText (show firstSecond ≤ leapSecond.second + 60 * 345 by decide)
      (by decide) = "2017-01-01T05:44:60+05:45".toList := by
    decide +kernel
  rw [← text]
  exact leapSecond.isZoned_zonedText _ _ (by decide)

/-- Its text in UTC. -/
theorem Instant.isCanonical_leapSecond :
    Rfc3339.IsCanonical leapSecond "2016-12-31T23:59:60Z".toList := by
  have text : Rfc3339.write leapSecond = "2016-12-31T23:59:60Z".toList := by decide +kernel
  rw [← text]
  exact Rfc3339.isCanonical_write leapSecond

end PathPattern
