import PathPattern.Time.Calendar

/-!
# Instants

An instant is a whole second of UTC, counted from the start of 1970, and nanoseconds past it, which
may be a second and more: on top of a second `59` they tell a leap second, and on top of any other
they only run on into the next one. A text cannot tell the latter from the next second, so it tells
the settled instant (`settled`). Instants span the years -262143 to 262142; `ofParts?` builds the
settled ones and no others.
-/

namespace PathPattern

/-- The first second of the year -262143. -/
def firstSecond : Int := -8334601228800

/-- The last second of the year 262142. -/
def lastSecond : Int := 8210266876799

/-- A point in time in UTC. -/
@[ext] structure Instant where
  /-- Whole seconds since the start of 1970. -/
  second : Int
  /-- Nanoseconds past the second, from 1000000000 on in a second that runs on. -/
  nanos : Nat
  first_le : firstSecond ≤ second
  le_last : second ≤ lastSecond
  nanos_lt : nanos < 2000000000
  deriving DecidableEq, Repr

namespace Instant

/-- A second runs on only as a leap second does, from second `59`. -/
def IsSettled (t : Instant) : Prop := 1000000000 ≤ t.nanos → t.second % 60 = 59

instance (t : Instant) : Decidable t.IsSettled :=
  inferInstanceAs (Decidable (1000000000 ≤ t.nanos → t.second % 60 = 59))

/-- The instant with the given second and nanoseconds, if there is one that is settled. -/
def ofParts? (second : Int) (nanos : Nat) : Option Instant :=
  if h : firstSecond ≤ second ∧ second ≤ lastSecond ∧ nanos < 2000000000 ∧
      (1000000000 ≤ nanos → second % 60 = 59) then
    some ⟨second, nanos, h.1, h.2.1, h.2.2.1⟩
  else none

/-- The last second of all is a second `59`, so no other runs on past it. -/
theorem second_lt_last {t : Instant} (loose : ¬t.IsSettled) : t.second < lastSecond := by
  have last := t.le_last
  unfold IsSettled at loose
  unfold lastSecond at last ⊢
  omega

theorem nanos_sub_lt (t : Instant) : t.nanos - 1000000000 < 2000000000 := by
  have below := t.nanos_lt
  omega

/-- The instant with a second that runs on, but is no leap second, ended in time. -/
def settled (t : Instant) : Instant :=
  if h : t.IsSettled then t
  else ⟨t.second + 1, t.nanos - 1000000000, Int.le_add_one t.first_le, second_lt_last h, t.nanos_sub_lt⟩

/-- The start of 1970. -/
def epoch : Instant := ⟨0, 0, by decide, by decide, by decide⟩

instance : Inhabited Instant := ⟨epoch⟩

/-- The day number of the instant. -/
def day (t : Instant) : Int := t.second / 86400

/-- The second of the day, from zero. -/
def secondOfDay (t : Instant) : Nat := (t.second % 86400).toNat

/-- The year of the instant. -/
def year (t : Instant) : Int := Calendar.yearOf t.day

/-- The hour of the day. -/
def hour (t : Instant) : Nat := t.secondOfDay / 3600

/-- The minute of the hour. -/
def minute (t : Instant) : Nat := t.secondOfDay / 60 % 60

/-- The second of the minute; `59` throughout a leap second. -/
def secondOfMinute (t : Instant) : Nat := t.secondOfDay % 60

/-! ### Settled instants -/

theorem settled_of_isSettled {t : Instant} (h : t.IsSettled) : t.settled = t := dif_pos h

theorem settled_of_not {t : Instant} (loose : ¬t.IsSettled) :
    t.settled.second = t.second + 1 ∧ t.settled.nanos = t.nanos - 1000000000 := by
  rw [settled, dif_neg loose]
  exact ⟨rfl, rfl⟩

theorem isSettled_settled (t : Instant) : t.settled.IsSettled := by
  by_cases h : t.IsSettled
  · rwa [settled_of_isSettled h]
  · obtain ⟨-, nanos⟩ := settled_of_not h
    have below := t.nanos_lt
    intro leap
    omega

/-- Settling changes those instants only that are not settled. -/
theorem settled_eq_self_iff {t : Instant} : t.settled = t ↔ t.IsSettled := by
  constructor
  · intro same
    rw [← same]
    exact t.isSettled_settled
  · exact settled_of_isSettled

end Instant

end PathPattern
