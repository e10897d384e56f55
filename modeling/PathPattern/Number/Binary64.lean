/-!
# Doubles in exact arithmetic

A finite non-negative double is `mantissa * 2 ^ exponent`. `ofRatio` rounds a quotient of
natural numbers to the nearest double, a tie to the even mantissa, and gives nothing where the
quotient is too large for one; products and quotients of doubles are the rounded exact ones.
`shortest` finds the fewest decimal digits that still lie nearer to the double than to any
other, and of those the nearest.
-/

namespace PathPattern

/-- A finite non-negative double. -/
structure Binary64 where
  mantissa : Nat
  exponent : Int
  deriving DecidableEq, Repr

namespace Binary64

/-- The quotient rounded to the nearest integer, a tie to the even one. -/
def roundQuotient (num den : Nat) : Nat :=
  let q := num / den
  let r := num % den
  if 2 * r < den ∨ (2 * r = den ∧ q % 2 = 0) then q else q + 1

/-- The largest `k` with `2 ^ k * den ≤ num`, for positive numbers. -/
def log2Quotient (num den : Nat) : Int :=
  let k : Int := (num.log2 : Int) - (den.log2 : Int)
  if den * Nat.pow 2 k.toNat ≤ num * Nat.pow 2 (-k).toNat then k else k - 1

/-- The double nearest to a quotient; nothing if the quotient rounds past the largest one. -/
def ofRatio (num den : Nat) : Option Binary64 :=
  if num = 0 then some ⟨0, -1074⟩
  else
    let scale := max (-1074) (log2Quotient num den - 52)
    let q := roundQuotient (num * Nat.pow 2 (-scale).toNat) (den * Nat.pow 2 scale.toNat)
    let (m, e) := if q = Nat.pow 2 53 then (Nat.pow 2 52, scale + 1) else (q, scale)
    if e ≤ 971 then some ⟨m, e⟩ else none

/-- The numerator of the value, over `den`. -/
def num (x : Binary64) : Nat := x.mantissa * Nat.pow 2 x.exponent.toNat

/-- The denominator of the value, a power of two. -/
def den (x : Binary64) : Nat := Nat.pow 2 (-x.exponent).toNat

/-- The rounded product. -/
def mul (x y : Binary64) : Option Binary64 := ofRatio (x.num * y.num) (x.den * y.den)

/-- The rounded quotient. -/
def div (x y : Binary64) : Option Binary64 := ofRatio (x.num * y.den) (x.den * y.num)

/-- The double nearest to a power of ten. -/
def tenTo (e : Nat) : Option Binary64 := ofRatio (Nat.pow 10 e) 1

/-- The double times a power of ten within `10 ^ -308` and `10 ^ 308`, by one multiplication or
division. -/
def scaleOnce (x : Binary64) (e : Int) : Option Binary64 :=
  (tenTo e.natAbs).bind fun p => if 0 ≤ e then x.mul p else x.div p

/-- The double times a power of ten, rounded at each step: an exponent below -308 is reached by
divisions by `10 ^ 308`. Nothing if the result is too large. The steps are counted; two of them
take every 64-bit significand to zero, where no further step is taken. -/
def scaleByTen : Nat → Int → Binary64 → Option Binary64
  | 0, _, x => some x
  | steps + 1, e, x =>
    if x.mantissa = 0 then some x
    else if e.natAbs ≤ 308 then x.scaleOnce e
    else if 0 ≤ e then none
    else (x.scaleOnce (-308)).bind (scaleByTen steps (e + 308))

/-- The double that a 64-bit decimal significand and an exponent stand for. -/
def ofDecimal (significand : Nat) (exponent : Int) : Option Binary64 :=
  (ofRatio significand 1).bind (scaleByTen 4 exponent)

/-- The exponent of the leading decimal digit of a positive quotient, searched from `e` down. -/
def leadingFrom (num den : Nat) : Nat → Int → Int
  | 0, e => e
  | fuel + 1, e =>
    if den * Nat.pow 10 e.toNat ≤ num * Nat.pow 10 (-e).toNat then e
    else leadingFrom num den fuel (e - 1)

/-- Shortest digits for a positive double: the first count of digits from `n` on at which one
of the two decimals around the value lies in the interval that rounds to it. The result is the
integer the digits spell and the power of ten of its last digit. -/
def shortestFrom (x : Binary64) (leading : Int) : Nat → Nat → Nat × Int
  | 0, _ => (x.num / x.den, 0)
  | fuel + 1, n =>
    let last : Int := leading - n + 1
    let num := x.num * Nat.pow 10 (-last).toNat
    let den := x.den * Nat.pow 10 last.toNat
    let t := num / den
    -- a quarter unit in the last place of the double, over the same denominator
    let quarter := Nat.pow 2 x.exponent.toNat * Nat.pow 10 (-last).toNat
    let below := if x.mantissa = Nat.pow 2 52 ∧ -1074 < x.exponent then quarter else 2 * quarter
    let above := 2 * quarter
    let even := x.mantissa % 2 = 0
    let lowIn := 4 * (num - t * den) < below ∨ (4 * (num - t * den) = below ∧ even)
    let highIn := 4 * ((t + 1) * den - num) < above ∨ (4 * ((t + 1) * den - num) = above ∧ even)
    if lowIn ∧ 0 < t ∧ (¬ highIn ∨ 2 * (num - t * den) < den ∨
        (2 * (num - t * den) = den ∧ t % 2 = 0)) then (t, last)
    else if highIn then (t + 1, last)
    else shortestFrom x leading fuel (n + 1)

/-- The shortest digits of a positive double and the power of ten of the last one. -/
def shortest (x : Binary64) : Nat × Int :=
  shortestFrom x (leadingFrom x.num x.den 640 310) 17 1

end Binary64

end PathPattern
