import PathPattern.Number.Integer
import PathPattern.Text.Blank
import PathPattern.Text.Pieces
import PathPattern.Time.Instant

/-!
# Date and time texts

Reads and writes RFC 3339 texts. Reading is lenient: blanks may stand around the parts, the
date and the time are joined by `T`, `t` or a space, months to seconds may have one digit, a
signed year may have any number of digits, and the offset is `Z`, `UTC` in any case, or hours
and minutes with or without a colon. Digits of a fraction beyond the ninth are dropped, and
second `60` is a leap second. Parts are read from the left, and the first fault counts; whether
the calendar has the date is asked last. Writing gives UTC with the fewest of 0, 3, 6 or 9
digits of a fraction.
-/

namespace PathPattern

/-- Why a text names no instant. -/
inductive TimeFault where
  | invalid
  | tooShort
  | tooLong
  | outOfRange
  | impossible
  deriving DecidableEq, Repr

/-- The wording of a fault. -/
def TimeFault.message : TimeFault → String
  | .invalid => "input contains invalid characters"
  | .tooShort => "premature end of input"
  | .tooLong => "trailing input"
  | .outOfRange => "input is out of range"
  | .impossible => "no possible date and time matching input"

namespace Rfc3339

open Text (isBlank trimBlank)
open Integer (isDigit decimal padded)

/-- The part of the text that was read, and the rest. -/
abbrev Step (α : Type) := Except TimeFault (α × List Char)

/-- The value of a run of decimal digits. -/
def digitsValue (cs : List Char) : Nat :=
  cs.foldl (fun n c => n * 10 + (c.toNat - '0'.toNat)) 0

/-- At most `width` digits and at least one, of a value within 63 bits. -/
def number (width : Nat) (cs : List Char) : Step Nat :=
  let digits := (cs.take width).takeWhile isDigit
  if digits = [] then .error (if cs = [] then .tooShort else .invalid)
  else if Integer.maxSigned < digitsValue digits then .error .outOfRange
  else .ok (digitsValue digits, cs.drop digits.length)

/-- A number of one or two digits within bounds, after blanks. -/
def twoDigits (low high : Nat) (cs : List Char) : Step Nat :=
  match number 2 (trimBlank cs) with
  | .error fault => .error fault
  | .ok (n, rest) => if low ≤ n ∧ n ≤ high then .ok (n, rest) else .error .outOfRange

/-- The year, after blanks: up to four digits, or a sign and any number of digits. -/
def yearNumber (cs : List Char) : Step Int :=
  let signed (sign : Int) (cs : List Char) : Step Int :=
    match number cs.length cs with
    | .error fault => .error fault
    | .ok (n, rest) =>
      if -2147483648 ≤ sign * n ∧ sign * n ≤ 2147483647 then .ok (sign * n, rest)
      else .error .outOfRange
  match trimBlank cs with
  | '-' :: cs => signed (-1) cs
  | '+' :: cs => signed 1 cs
  | cs =>
    match number 4 cs with
    | .error fault => .error fault
    | .ok (n, rest) => .ok (n, rest)

/-- One fixed character. -/
def mark (c : Char) : List Char → Except TimeFault (List Char)
  | [] => .error .tooShort
  | d :: rest => if d = c then .ok rest else .error .invalid

/-- The nanoseconds of a fraction after its point: nine digits count, further ones are skipped. -/
def fraction (cs : List Char) : Step Nat :=
  match number 9 cs with
  | .error fault => .error fault
  | .ok (n, rest) =>
    .ok (n * Nat.pow 10 (9 - (cs.length - rest.length)), rest.dropWhile isDigit)

/-- The optional fraction of a second. -/
def optionalFraction : List Char → Step Nat
  | '.' :: cs => fraction cs
  | cs => .ok (0, cs)

/-- The four digits of an offset without its sign, in seconds. A pair that is cut short is a
text that ends too early even if what there is of it is no digit; blanks count in bytes. -/
def offsetDigits (cs : List Char) : Step Nat :=
  let pair (cs : List Char) : Option (Nat × Nat × List Char) :=
    match cs with
    | a :: b :: rest =>
      if isDigit a ∧ isDigit b then some (a.toNat - '0'.toNat, b.toNat - '0'.toNat, rest) else none
    | _ => none
  let short (cs : List Char) : Bool := Text.byteCount cs < 2
  if short cs then .error .tooShort
  else
    match pair cs with
    | none => .error .invalid
    | some (a, b, rest) =>
      let rest := rest.dropWhile fun c => c == ':' || isBlank c
      if short rest then .error .tooShort
      else
        match pair rest with
        | none => .error .invalid
        | some (c, d, rest) =>
          if 6 ≤ c then .error .outOfRange
          else .ok ((a * 10 + b) * 3600 + (c * 10 + d) * 60, rest)

/-- The offset from UTC in seconds: `UTC`, `Z`, or a sign with hours and minutes. -/
def offset (cs : List Char) : Step Int :=
  match cs with
  | [] => .error .tooShort
  | c :: rest =>
    if (cs.take 3).map Char.toUpper = ['U', 'T', 'C'] then .ok (0, cs.drop 3)
    else if c = 'Z' ∨ c = 'z' then .ok (0, rest)
    else if c = '+' then (offsetDigits rest).map fun (n, rest) => ((n : Int), rest)
    else if c = '-' ∨ c = Char.ofNat 0x2212 then
      (offsetDigits rest).map fun (n, rest) => (-(n : Int), rest)
    else .error .invalid

/-- The parts of a date-time text. -/
structure Parts where
  year : Int
  month : Nat
  day : Nat
  hour : Nat
  minute : Nat
  second : Nat
  nanos : Nat
  offset : Int
  deriving DecidableEq, Repr

/-- The parts that a text spells, the whole text used. -/
def parts (cs : List Char) : Except TimeFault Parts := do
  let (year, cs) ← yearNumber cs
  let cs ← mark '-' (trimBlank cs)
  let (month, cs) ← twoDigits 1 12 cs
  let cs ← mark '-' (trimBlank cs)
  let (day, cs) ← twoDigits 1 31 cs
  let cs ← match cs with
    | [] => .error .tooShort
    | c :: cs => if c = 'T' ∨ c = 't' ∨ c = ' ' then .ok cs else .error .invalid
  let (hour, cs) ← twoDigits 0 23 cs
  let cs ← mark ':' (trimBlank cs)
  let (minute, cs) ← twoDigits 0 59 cs
  let cs ← mark ':' (trimBlank cs)
  let (second, cs) ← twoDigits 0 60 cs
  let (nanos, cs) ← optionalFraction cs
  let (offset, cs) ← offset (trimBlank cs)
  if trimBlank cs = [] then .ok ⟨year, month, day, hour, minute, second, nanos, offset⟩
  else .error .tooLong

/-- The instant that the parts name. The offset stays under a day, the local date and the
instant both stay within the years of instants, and second `60` runs on from second `59`. -/
def Parts.instant (p : Parts) : Except TimeFault Instant :=
  match Calendar.dayNumber? p.year p.month p.day with
  | none => .error .outOfRange
  | some day =>
    if p.year < -262143 ∨ 262142 < p.year ∨ 86400 ≤ p.offset.natAbs then .error .outOfRange
    else
      let clock := p.hour * 3600 + p.minute * 60 + min p.second 59
      let nanos := if p.second = 60 then p.nanos + 1000000000 else p.nanos
      match Instant.ofParts? (day * 86400 + clock - p.offset) nanos with
      | none => .error .impossible
      | some t => .ok t

/-- The instant that a text names. -/
def read (cs : List Char) : Except TimeFault Instant := parts cs >>= Parts.instant

/-- A year of four digits, with a sign if it is negative or has more. -/
def yearText (year : Int) : List Char :=
  if 0 ≤ year ∧ year ≤ 9999 then padded 4 year.toNat
  else (if year < 0 then '-' else '+') :: padded 4 year.natAbs

/-- The fewest of 0, 3, 6 or 9 digits that hold the nanoseconds, with their point. -/
def fractionText (nanos : Nat) : List Char :=
  if nanos = 0 then []
  else if nanos % 1000000 = 0 then '.' :: padded 3 (nanos / 1000000)
  else if nanos % 1000 = 0 then '.' :: padded 6 (nanos / 1000)
  else '.' :: padded 9 nanos

/-- The text of an instant in UTC; a leap second has second `60`. -/
def write (t : Instant) : List Char :=
  let leap := 1000000000 ≤ t.nanos
  yearText t.year ++ '-' :: padded 2 (Calendar.monthOf t.day) ++
    '-' :: padded 2 (Calendar.dayOfMonth t.day) ++
    'T' :: padded 2 t.hour ++ ':' :: padded 2 t.minute ++
    ':' :: padded 2 (if leap then t.secondOfMinute + 1 else t.secondOfMinute) ++
    fractionText (if leap then t.nanos - 1000000000 else t.nanos) ++ ['Z']

end Rfc3339

end PathPattern
