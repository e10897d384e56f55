/-!
# Integers in texts

Integers of 64 bits are read digit by digit from the left, and the first thing that goes wrong
decides the fault: a character that is no digit, or the digit that carries the value past the
range. A sign may stand before the digits, but not alone. Integers are written in decimal
with no superfluous zero, or padded with zeros to a width.
-/

namespace PathPattern

/-- Why a text is not an integer of the wanted range. -/
inductive IntegerFault where
  | empty
  | invalidDigit
  | tooLarge
  | tooSmall
  deriving DecidableEq, Repr

/-- The wording of a fault. -/
def IntegerFault.message : IntegerFault → String
  | .empty => "cannot parse integer from empty string"
  | .invalidDigit => "invalid digit found in string"
  | .tooLarge => "number too large to fit in target type"
  | .tooSmall => "number too small to fit in target type"

namespace Integer

/-- The largest 64-bit integer with a sign. -/
def maxSigned : Nat := 9223372036854775807

/-- The largest 64-bit integer without a sign. -/
def maxUnsigned : Nat := 18446744073709551615

/-- The character is an ASCII decimal digit. -/
def isDigit (c : Char) : Bool := '0' ≤ c && c ≤ '9'

/-- The value of a digit; letters of either case stand for ten and more. -/
def digitValue? (radix : Nat) (c : Char) : Option Nat :=
  let value :=
    if isDigit c then c.toNat - '0'.toNat
    else if 'a' ≤ c ∧ c ≤ 'z' then c.toNat - 'a'.toNat + 10
    else if 'A' ≤ c ∧ c ≤ 'Z' then c.toNat - 'A'.toNat + 10
    else radix
  if value < radix then some value else none

/-- The value of a run of digits that continues `value`, unless it passes `limit`. -/
def magnitude (radix limit : Nat) (beyond : IntegerFault) :
    Nat → List Char → Except IntegerFault Nat
  | value, [] => .ok value
  | value, c :: cs =>
    match digitValue? radix c with
    | none => .error .invalidDigit
    | some d =>
      if value * radix + d ≤ limit then magnitude radix limit beyond (value * radix + d) cs
      else .error beyond

/-- A signed 64-bit integer: an optional sign, then digits. -/
def readSigned (radix : Nat) : List Char → Except IntegerFault Int64
  | [] => .error .empty
  | ['+'] => .error .invalidDigit
  | ['-'] => .error .invalidDigit
  | '+' :: cs => (magnitude radix maxSigned .tooLarge 0 cs).map Int64.ofNat
  | '-' :: cs => (magnitude radix (maxSigned + 1) .tooSmall 0 cs).map fun n => Int64.ofInt (-n)
  | cs => (magnitude radix maxSigned .tooLarge 0 cs).map Int64.ofNat

/-- A decimal signed 64-bit integer. -/
def read (cs : List Char) : Except IntegerFault Int64 := readSigned 10 cs

/-- A decimal unsigned 64-bit integer; only `+` is a sign. -/
def readPosition : List Char → Except IntegerFault Nat
  | [] => .error .empty
  | ['+'] => .error .invalidDigit
  | '+' :: cs => magnitude 10 maxUnsigned .tooLarge 0 cs
  | cs => magnitude 10 maxUnsigned .tooLarge 0 cs

/-- The decimal digits of a natural number. -/
def decimal (n : Nat) : List Char := Nat.toDigits 10 n

/-- The decimal text of an integer, with a minus sign when it is negative. -/
def signedDecimal (i : Int) : List Char :=
  if i < 0 then '-' :: decimal i.natAbs else decimal i.natAbs

/-- The decimal digits of a natural number, with zeros before them up to a width. -/
def padded (width n : Nat) : List Char := List.leftpad width '0' (decimal n)

end Integer

/-- The decimal text of a 64-bit integer. -/
def Integer.text (i : Int64) : String := String.ofList (Integer.signedDecimal i.toInt)

end PathPattern
