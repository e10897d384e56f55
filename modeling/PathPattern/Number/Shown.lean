import PathPattern.Number.Binary64
import PathPattern.Number.Integer

/-!
# Doubles in messages

A message shows a double by its shortest digits: positionally, always with a point, when the
leading digit stands for `10 ^ -5` up to `10 ^ 15`, and otherwise in scientific form with the
sign of the exponent and no superfluous digit in it.
-/

namespace PathPattern.Binary64

open Integer (decimal)

/-- The digits with the zeros at their end dropped, and the exponent of the last digit kept. -/
def dropZeros (digits : List Char) (last : Int) : List Char × Int :=
  let kept := (digits.reverse.dropWhile (· == '0')).reverse
  (kept, last + (digits.length - kept.length : Nat))

/-- Positional form of digits whose last one stands for `10 ^ last`. -/
def positional (digits : List Char) (last : Int) : List Char :=
  if 0 ≤ last then digits ++ List.replicate last.toNat '0' ++ ['.', '0']
  else
    let places := (-last).toNat
    let whole := List.leftpad (places + 1) '0' digits
    whole.take (whole.length - places) ++ '.' :: whole.drop (whole.length - places)

/-- Scientific form of digits whose first one stands for `10 ^ leading`. -/
def scientific (digits : List Char) (leading : Int) : List Char :=
  let fraction := match digits with
    | [] => []
    | [d] => [d]
    | d :: ds => d :: '.' :: ds
  fraction ++ 'e' :: (if leading < 0 then '-' else '+') :: decimal leading.natAbs

/-- The shortest text of a double. -/
def shown (x : Binary64) : List Char :=
  if x.mantissa = 0 then ['0', '.', '0']
  else
    let (n, e) := x.shortest
    let (digits, last) := dropZeros (decimal n) e
    let leading : Int := last + (digits.length - 1 : Nat)
    if -5 ≤ leading ∧ leading ≤ 15 then positional digits last else scientific digits leading

end PathPattern.Binary64
