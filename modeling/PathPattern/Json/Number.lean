import PathPattern.Json.Fault

/-!
# JSON numbers

Digits are gathered into a significand of 64 bits. A number without point and exponent whose
digits all fit is an integer; every other number is a double, computed from the significand and
the power of ten, and malformed if it is too large for one. The integer zero with a minus sign
is a double as well. A number that is only skipped is checked for its form alone.
-/

namespace PathPattern.Json

open Integer (isDigit)

/-- How many of the digits a text starts with can be put after a value within 64 bits. -/
def fitting (value : Nat) : List Char → Nat
  | [] => 0
  | c :: cs =>
    let next := value * 10 + (c.toNat - '0'.toNat)
    if isDigit c ∧ next ≤ Integer.maxUnsigned then fitting next cs + 1 else 0

/-- The value with the digits that fit put after it. -/
def gather (value : Nat) (cs : List Char) : Nat :=
  (cs.take (fitting value cs)).foldl (fun n c => n * 10 + (c.toNat - '0'.toNat)) value

/-- The text after the digits it starts with. -/
def dropDigits (cs : List Char) : List Char := cs.dropWhile isDigit

/-- The number of digits the text starts with. -/
def countDigits (cs : List Char) : Nat := (cs.takeWhile isDigit).length

/-- A fault for a missing digit: the text may have ended. -/
def noDigit (cs : List Char) : Fault := if cs = [] then .incomplete else .malformed

/-- The double of a significand and a power of ten. -/
def floating (negative : Bool) (significand : Nat) (exponent : Int) (rest : List Char) :
    Step Found :=
  match Binary64.ofDecimal significand exponent with
  | some x => .ok (.floating negative x, rest)
  | none => .error .malformed

/-- A number from its exponent on, after the `e`. An exponent of 32 bits is applied; a larger
one gives zero, unless it is positive and the significand is not zero. -/
def exponentPart (negative : Bool) (significand : Nat) (exponent : Int) (cs : List Char) :
    Step Found :=
  let (minus, cs) :=
    match cs with
    | '+' :: cs => (false, cs)
    | '-' :: cs => (true, cs)
    | cs => (false, cs)
  if countDigits cs = 0 then .error (noDigit cs)
  else
    let size := Rfc3339.digitsValue (cs.takeWhile isDigit)
    if size ≤ 2147483647 then
      floating negative significand (if minus then exponent - size else exponent + size)
        (dropDigits cs)
    else if significand ≠ 0 ∧ !minus then .error .malformed
    else floating negative 0 0 (dropDigits cs)

/-- A number that is not an integer, from the end of its digits on. -/
def afterDigits (negative : Bool) (significand : Nat) (exponent : Int) :
    List Char → Step Found
  | 'e' :: cs => exponentPart negative significand exponent cs
  | 'E' :: cs => exponentPart negative significand exponent cs
  | cs => floating negative significand exponent cs

/-- A number from its fraction on, after the point. -/
def fractionPart (negative : Bool) (significand : Nat) (exponent : Int) (cs : List Char) :
    Step Found :=
  if countDigits cs = 0 then .error (noDigit cs)
  else
    afterDigits negative (gather significand cs) (exponent - fitting significand cs)
      (dropDigits cs)

/-- The integer of a significand that fits. -/
def whole (negative : Bool) (significand : Nat) (rest : List Char) : Step Found :=
  if !negative then .ok (.integer significand, rest)
  else if significand = 0 ∨ Integer.maxSigned + 1 < significand then floating true significand 0 rest
  else .ok (.integer (-significand), rest)

/-- A number without its minus sign; digits that do not fit only raise the exponent. -/
def unsigned (negative : Bool) (cs : List Char) : Step Found :=
  let significand := gather 0 cs
  let beyond := countDigits cs - fitting 0 cs
  if countDigits cs = 0 then .error (noDigit cs)
  else if cs.head? = some '0' ∧ 1 < countDigits cs then .error .malformed
  else
    match dropDigits cs with
    | '.' :: rest => fractionPart negative significand beyond rest
    | 'e' :: rest => exponentPart negative significand beyond rest
    | 'E' :: rest => exponentPart negative significand beyond rest
    | rest =>
      if beyond = 0 then whole negative significand rest
      else floating negative significand beyond rest

/-- A number. -/
def number : List Char → Step Found
  | '-' :: cs => unsigned true cs
  | cs => unsigned false cs

/-- The rest after the exponent of a number that nobody reads. -/
def skipExponent (cs : List Char) : Except Fault (List Char) :=
  let cs :=
    match cs with
    | '+' :: cs => cs
    | '-' :: cs => cs
    | cs => cs
  if countDigits cs = 0 then .error .malformed else .ok (dropDigits cs)

/-- The rest after what follows the digits before the point, in a number that nobody reads. -/
def skipFraction : List Char → Except Fault (List Char)
  | '.' :: cs =>
    if countDigits cs = 0 then .error .malformed
    else
      match dropDigits cs with
      | 'e' :: cs => skipExponent cs
      | 'E' :: cs => skipExponent cs
      | cs => .ok cs
  | 'e' :: cs => skipExponent cs
  | 'E' :: cs => skipExponent cs
  | cs => .ok cs

/-- The rest after a number that nobody reads, its minus sign left out. Here a missing digit is
malformed also at the end of the text. -/
def skipUnsigned (cs : List Char) : Except Fault (List Char) :=
  if countDigits cs = 0 then .error .malformed
  else if cs.head? = some '0' ∧ 1 < countDigits cs then .error .malformed
  else skipFraction (dropDigits cs)

/-! ### Numbers use up text -/

theorem dropDigits_length_le (cs : List Char) : (dropDigits cs).length ≤ cs.length :=
  (List.dropWhile_suffix _).length_le

theorem dropDigits_length_lt {cs : List Char} (h : countDigits cs ≠ 0) :
    (dropDigits cs).length < cs.length := by
  cases cs with
  | nil => simp [countDigits] at h
  | cons c cs =>
    by_cases hc : isDigit c
    · have := dropDigits_length_le cs
      simp only [dropDigits, List.dropWhile_cons, hc, if_true, List.length_cons] at this ⊢
      omega
    · simp [countDigits, hc] at h

theorem floating_rest {negative : Bool} {significand : Nat} {exponent : Int}
    {cs rest : List Char} {found : Found}
    (h : floating negative significand exponent cs = .ok (found, rest)) : rest = cs := by
  unfold floating at h
  split at h <;> simp_all

theorem exponentPart_length_le {negative : Bool} {significand : Nat} {exponent : Int}
    {cs rest : List Char} {found : Found}
    (h : exponentPart negative significand exponent cs = .ok (found, rest)) :
    rest.length ≤ cs.length := by
  unfold exponentPart at h
  have hd : ∀ ds : List Char, (dropDigits ds).length ≤ ds.length := dropDigits_length_le
  split at h
  next minus ds hds =>
  have hle : ds.length ≤ cs.length := by
    split at hds <;> simp only [Prod.mk.injEq] at hds <;> simp [← hds.2]
  split at h
  · simp at h
  dsimp only at h
  split at h
  · rw [floating_rest h]
    exact Nat.le_trans (hd ds) hle
  split at h
  · simp at h
  · rw [floating_rest h]
    exact Nat.le_trans (hd ds) hle

theorem afterDigits_length_le {negative : Bool} {significand : Nat} {exponent : Int}
    {cs rest : List Char} {found : Found}
    (h : afterDigits negative significand exponent cs = .ok (found, rest)) :
    rest.length ≤ cs.length := by
  unfold afterDigits at h
  split at h
  · exact Nat.le_succ_of_le (exponentPart_length_le h)
  · exact Nat.le_succ_of_le (exponentPart_length_le h)
  · exact Nat.le_of_eq (congrArg List.length (floating_rest h))

theorem fractionPart_length_le {negative : Bool} {significand : Nat} {exponent : Int}
    {cs rest : List Char} {found : Found}
    (h : fractionPart negative significand exponent cs = .ok (found, rest)) :
    rest.length ≤ cs.length := by
  unfold fractionPart at h
  split at h
  · simp at h
  · exact Nat.le_trans (afterDigits_length_le h) (dropDigits_length_le cs)

theorem whole_rest {negative : Bool} {significand : Nat} {cs rest : List Char} {found : Found}
    (h : whole negative significand cs = .ok (found, rest)) : rest = cs := by
  unfold whole at h
  split at h
  · simp_all
  split at h
  · exact floating_rest h
  · simp_all

theorem unsigned_length {negative : Bool} {cs rest : List Char} {found : Found}
    (h : unsigned negative cs = .ok (found, rest)) : rest.length < cs.length := by
  unfold unsigned at h
  dsimp only at h
  split at h
  · simp at h
  next hd =>
  have hlt := dropDigits_length_lt hd
  split at h
  · simp at h
  refine Nat.lt_of_le_of_lt ?_ hlt
  split at h
  next hds => exact hds ▸ Nat.le_succ_of_le (fractionPart_length_le h)
  next hds => exact hds ▸ Nat.le_succ_of_le (exponentPart_length_le h)
  next hds => exact hds ▸ Nat.le_succ_of_le (exponentPart_length_le h)
  · split at h
    · exact Nat.le_of_eq (congrArg List.length (whole_rest h))
    · exact Nat.le_of_eq (congrArg List.length (floating_rest h))

theorem number_length {cs rest : List Char} {found : Found}
    (h : number cs = .ok (found, rest)) : rest.length < cs.length := by
  unfold number at h
  split at h
  · exact Nat.lt_succ_of_lt (unsigned_length h)
  · exact unsigned_length h

theorem skipExponent_length_le {cs rest : List Char} (h : skipExponent cs = .ok rest) :
    rest.length ≤ cs.length := by
  have key : ∀ ds : List Char, ds.length ≤ cs.length →
      (if countDigits ds = 0 then .error .malformed else .ok (dropDigits ds)) =
        (.ok rest : Except Fault (List Char)) → rest.length ≤ cs.length := by
    intro ds hle hds
    split at hds
    · simp at hds
    · simp only [Except.ok.injEq] at hds
      exact hds ▸ Nat.le_trans (dropDigits_length_le ds) hle
  unfold skipExponent at h
  split at h
  · exact key _ (by simp) h
  · exact key _ (by simp) h
  · exact key _ (Nat.le_refl _) h

theorem skipFraction_length_le {cs rest : List Char} (h : skipFraction cs = .ok rest) :
    rest.length ≤ cs.length := by
  unfold skipFraction at h
  split at h
  next ds =>
    split at h
    · simp at h
    have hle := dropDigits_length_le ds
    simp only [List.length_cons]
    split at h
    next hds =>
      have := skipExponent_length_le h
      simp only [hds, List.length_cons] at hle
      omega
    next hds =>
      have := skipExponent_length_le h
      simp only [hds, List.length_cons] at hle
      omega
    · simp only [Except.ok.injEq] at h
      exact h ▸ Nat.le_succ_of_le hle
  · exact Nat.le_succ_of_le (skipExponent_length_le h)
  · exact Nat.le_succ_of_le (skipExponent_length_le h)
  · simp only [Except.ok.injEq] at h
    exact h ▸ Nat.le_refl _

theorem skipUnsigned_length {cs rest : List Char} (h : skipUnsigned cs = .ok rest) :
    rest.length < cs.length := by
  unfold skipUnsigned at h
  split at h
  · simp at h
  next hd =>
  split at h
  · simp at h
  · exact Nat.lt_of_le_of_lt (skipFraction_length_le h) (dropDigits_length_lt hd)

end PathPattern.Json
