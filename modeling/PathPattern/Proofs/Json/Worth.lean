import PathPattern.Proofs.Json.Skipping
import PathPattern.Proofs.Number.Binary64

/-!
# What a number is worth

An integer of 64 bits is worth itself. Every other number stands for a significand of 64 bits and a
power of ten, from which its double is computed: as many digits as fit make the significand
(`Keeps`), those left before the point raise the power and those kept behind it lower it
(`Mantissa`), and the exponent is added unless it is past 32 bits (`scaled`). So it is the text of a
number that says whether it has a double (`Floats`, `Outsized`), and what follows has no part in it
(`number_of_floats`).
-/

namespace PathPattern.Json

open Integer (signedDecimal decimal maxSigned maxUnsigned)

variable {cs ds es ms rest value : List Char} {kept n s : Nat} {e k : Int} {negative : Bool}
  {worth : Option (Nat × Int)}

/-! ### Digits that fit -/

/-- The first `kept` digits put behind a value make `n`, within 64 bits, and one more digit would
not fit. -/
structure Keeps (value : Nat) (ds : List Char) (kept n : Nat) : Prop where
  short : kept ≤ ds.length
  worth : Nat.ofDigitChars 10 (ds.take kept) value = n
  fits : n ≤ maxUnsigned
  full : kept < ds.length → maxUnsigned < Nat.ofDigitChars 10 (ds.take (kept + 1)) value

theorem exists_keeps {value : Nat} (fits : value ≤ maxUnsigned) (ds : List Char) :
    ∃ kept n, Keeps value ds kept n := by
  induction ds generalizing value with
  | nil => exact ⟨0, value, Nat.le_refl _, rfl, fits, fun more => absurd more (Nat.lt_irrefl _)⟩
  | cons c ds ih =>
    by_cases next : 10 * value + (c.toNat - '0'.toNat) ≤ maxUnsigned
    · obtain ⟨kept, n, keeps⟩ := ih next
      refine ⟨kept + 1, n, Nat.succ_le_succ keeps.short, ?_, keeps.fits, fun more => ?_⟩
      · rw [List.take_succ_cons, Nat.ofDigitChars_cons, keeps.worth]
      · rw [List.take_succ_cons, Nat.ofDigitChars_cons]
        exact keeps.full (Nat.lt_of_succ_lt_succ more)
    · refine ⟨0, value, Nat.zero_le _, rfl, fits, fun _ => ?_⟩
      rw [List.take_succ_cons, List.take_zero, Nat.ofDigitChars_cons, Nat.ofDigitChars_nil]
      exact Nat.not_le.1 next

/-- The digits that are gathered are those that fit, whatever stands behind them. -/
theorem Keeps.fitting_append {value : Nat} (keeps : Keeps value ds kept n)
    (digits : ∀ c ∈ ds, c.isDigit = true) (stop : ∀ c ∈ rest.head?, c.isDigit = false) :
    fitting value (ds ++ rest) = kept := by
  induction ds generalizing value kept with
  | nil =>
    obtain rfl : kept = 0 := Nat.le_zero.1 keeps.short
    cases rest with
    | nil => rfl
    | cons c rest =>
      have other : c.isDigit = false := stop c (by simp)
      simp [fitting, Integer.isDigit_eq, other]
  | cons c ds ih =>
    obtain ⟨digit, digits⟩ := List.forall_mem_cons.1 digits
    rw [List.cons_append, fitting, Integer.isDigit_eq, digit, Nat.mul_comm value]
    cases kept with
    | zero =>
      have full := keeps.full (Nat.succ_pos _)
      rw [List.take_succ_cons, List.take_zero, Nat.ofDigitChars_cons, Nat.ofDigitChars_nil] at full
      exact if_neg fun fits => absurd fits.2 (Nat.not_le.2 full)
    | succ kept =>
      have worth := keeps.worth
      have full := keeps.full
      rw [List.take_succ_cons, Nat.ofDigitChars_cons] at worth
      rw [List.take_succ_cons, Nat.ofDigitChars_cons] at full
      have more : Keeps (10 * value + (c.toNat - '0'.toNat)) ds kept n :=
        ⟨Nat.le_of_succ_le_succ keeps.short, worth, keeps.fits,
          fun left => full (Nat.succ_lt_succ left)⟩
      have next : 10 * value + (c.toNat - '0'.toNat) ≤ maxUnsigned :=
        (Integer.le_ofDigitChars _ _).trans (worth.le.trans keeps.fits)
      rw [if_pos ⟨rfl, next⟩, ih more digits]

theorem Keeps.gather_append {value : Nat} (keeps : Keeps value ds kept n)
    (digits : ∀ c ∈ ds, c.isDigit = true) (stop : ∀ c ∈ rest.head?, c.isDigit = false) :
    gather value (ds ++ rest) = n := by
  rw [gather, keeps.fitting_append digits stop, List.take_append_of_le_length keeps.short,
    ← keeps.worth, Nat.ofDigitChars_eq_foldl]
  simp only [Nat.mul_comm 10]

/-! ### Significand, power and exponent -/

/-- The significand and the power of ten of the digits before the exponent. Digits before the point
that do not fit raise the power, digits behind it that fit lower it, and all others count for
nothing. -/
inductive Mantissa : List Char → Nat → Int → Prop where
  | whole {ws : List Char} {kept s : Nat} (form : IsWhole ws) (keeps : Keeps 0 ws kept s) :
    Mantissa ws s (ws.length - kept : Nat)
  | point {ws ds : List Char} {kept s more n : Nat} (form : IsWhole ws) (keeps : Keeps 0 ws kept s)
    (digits : IsDigits ds) (keepsMore : Keeps s ds more n) :
    Mantissa (ws ++ '.' :: ds) n ((ws.length - kept : Nat) - more)

/-- The sign of an exponent, and whether it is a minus sign. -/
inductive IsSign : List Char → Bool → Prop where
  | missing : IsSign [] false
  | plus : IsSign ['+'] false
  | minus : IsSign ['-'] true

/-- The power of ten that an exponent asks for. -/
inductive Power : List Char → Int → Prop where
  | missing : Power [] 0
  | given {mark : Char} {sign ds : List Char} {minus : Bool} (marked : mark = 'e' ∨ mark = 'E')
    (signed : IsSign sign minus) (digits : IsDigits ds) : Power (mark :: (sign ++ ds))
      (if minus then -(Nat.ofDigitChars 10 ds 0 : Int) else Nat.ofDigitChars 10 ds 0)

/-- A significand and a power of ten under an exponent. One past 32 bits is not added: it takes the
number to zero, or past everything. -/
def scaled (s : Nat) (e k : Int) : Option (Nat × Int) :=
  if k.natAbs ≤ 2147483647 then some (s, e + k)
  else if s ≠ 0 ∧ 0 < k then none
  else some (0, 0)

/-- An integer of 64 bits, with or without a sign. -/
structure Fits64 (v : Int) : Prop where
  low : -((maxSigned + 1 : Nat) : Int) ≤ v
  high : v ≤ maxUnsigned

/-- The text with its sign. -/
def signed (negative : Bool) (cs : List Char) : List Char := if negative then '-' :: cs else cs

/-- A number that is no integer of 64 bits, with what its double is computed from; nothing if its
exponent alone is too large. -/
inductive Floats : List Char → Bool → Option (Nat × Int) → Prop where
  | mk {ms es : List Char} {s : Nat} {e k : Int} (negative : Bool) (mantissa : Mantissa ms s e)
    (power : Power es k) (other : ∀ v, Fits64 v → signed negative (ms ++ es) ≠ signedDecimal v) :
    Floats (signed negative (ms ++ es)) negative (scaled s e k)

/-- There is no double for the number. -/
def Outsized : Option (Nat × Int) → Prop
  | none => True
  | some (s, e) => Binary64.TooLarge s e

theorem Mantissa.fits (mantissa : Mantissa ms s e) : s ≤ maxUnsigned := by
  cases mantissa with
  | whole _ keeps => exact keeps.fits
  | point _ _ _ keepsMore => exact keepsMore.fits

theorem Floats.fits (floats : Floats value negative (some (s, e))) : s ≤ maxUnsigned := by
  generalize shape : some (s, e) = worth at floats
  cases floats with
  | mk _ mantissa =>
    unfold scaled at shape
    split at shape
    · cases shape
      exact mantissa.fits
    split at shape
    · cases shape
    · cases shape
      exact Nat.zero_le _

/-- A number that is not outsized has a double. -/
theorem Floats.exists_of_not_outsized (floats : Floats value negative worth)
    (inside : ¬Outsized worth) :
    ∃ s e x, worth = some (s, e) ∧ Binary64.ofDecimal s e = some x := by
  cases worth with
  | none => exact absurd trivial inside
  | some w =>
    obtain ⟨s, e⟩ := w
    have some : Binary64.ofDecimal s e ≠ none :=
      mt (Binary64.ofDecimal_eq_none_iff floats.fits).1 inside
    obtain ⟨x, held⟩ := Option.ne_none_iff_exists'.1 some
    exact ⟨s, e, x, rfl, held⟩

/-! ### The forms of the grammar -/

theorem IsSign.cases {sign : List Char} {minus : Bool} (h : IsSign sign minus) :
    sign = [] ∨ sign = ['+'] ∨ sign = ['-'] := by
  cases h <;> simp

theorem Mantissa.isUnsigned_append (mantissa : Mantissa ms s e) (power : Power es k) :
    IsUnsigned (ms ++ es) := by
  have exponent : IsExponent es := by
    cases power with
    | missing => exact .missing
    | given marked signed digits => exact .power marked signed.cases digits
  cases mantissa with
  | whole form => exact .mk form .missing exponent
  | point form _ digits =>
    rw [List.append_assoc]
    exact .mk form (.point digits) exponent

theorem Floats.isNumber (floats : Floats value negative worth) : IsNumber value := by
  cases floats with
  | mk negative mantissa power =>
    have form := mantissa.isUnsigned_append power
    cases negative with
    | false => exact .plain form
    | true => exact .minus form

theorem IsExponent.exists_power (form : IsExponent es) : ∃ k, Power es k := by
  cases form with
  | missing => exact ⟨_, .missing⟩
  | power marked signed digits =>
    rcases signed with rfl | rfl | rfl
    · exact ⟨_, .given marked .missing digits⟩
    · exact ⟨_, .given marked .plus digits⟩
    · exact ⟨_, .given marked .minus digits⟩

theorem IsUnsigned.exists_parts (form : IsUnsigned value) :
    ∃ ms es s e k, Mantissa ms s e ∧ Power es k ∧ value = ms ++ es := by
  cases form with
  | @mk ws fs es whole fraction exponent =>
    obtain ⟨k, power⟩ := exponent.exists_power
    obtain ⟨kept, s, keeps⟩ := exists_keeps (Nat.zero_le _) ws
    cases fraction with
    | missing => exact ⟨_, _, _, _, _, .whole whole keeps, power, rfl⟩
    | point digits =>
      obtain ⟨more, n, keepsMore⟩ := exists_keeps keeps.fits _
      exact ⟨_, _, _, _, _, .point whole keeps digits keepsMore, power, by simp⟩

/-- A number is an integer of 64 bits, or it is read as a double. -/
theorem IsNumber.cases64 (form : IsNumber value) :
    (∃ v, Fits64 v ∧ value = signedDecimal v) ∨ ∃ negative worth, Floats value negative worth := by
  by_cases integer : ∃ v, Fits64 v ∧ value = signedDecimal v
  · exact .inl integer
  have other (v : Int) (fits : Fits64 v) : value ≠ signedDecimal v :=
    fun same => integer ⟨v, fits, same⟩
  cases form with
  | plain form =>
    obtain ⟨ms, es, s, e, k, mantissa, power, rfl⟩ := form.exists_parts
    exact .inr ⟨false, _, Floats.mk false mantissa power other⟩
  | minus form =>
    obtain ⟨ms, es, s, e, k, mantissa, power, rfl⟩ := form.exists_parts
    exact .inr ⟨true, _, Floats.mk true mantissa power other⟩

/-! ### Reading -/

/-- The double of a significand and a power of ten is what is read. -/
def valued (negative : Bool) (rest : List Char) : Option (Nat × Int) → Step Found
  | some (s, e) => floating negative s e rest
  | none => .error .malformed

/-- An exponent of this size is applied as its sign says. -/
theorem valued_scaled (minus : Bool) (size : Nat) :
    (if size ≤ 2147483647 then
      floating negative s (if minus then e - size else e + size) rest
    else if s ≠ 0 ∧ !minus then .error .malformed
    else floating negative 0 0 rest) =
      valued negative rest (scaled s e (if minus then -size else size)) := by
  cases minus with
  | false =>
    simp only [Bool.false_eq_true, if_false, Bool.not_false, and_true, scaled, Int.natAbs_natCast]
    by_cases near : size ≤ 2147483647
    · rw [if_pos near, if_pos near]
      rfl
    · have raised : 0 < (size : Int) := by omega
      simp only [if_neg near, raised, and_true]
      split <;> rfl
  | true =>
    have lowered : ¬0 < -(size : Int) := by omega
    simp only [if_true, Bool.not_true, Bool.false_eq_true, and_false, if_false, scaled,
      Int.natAbs_neg, Int.natAbs_natCast, lowered]
    split <;> rfl

theorem exponentPart_append {sign : List Char} {minus : Bool} (signed : IsSign sign minus)
    (digits : IsDigits ds) (stop : ∀ c ∈ rest.head?, c.isDigit = false) :
    exponentPart negative s e (sign ++ (ds ++ rest)) = valued negative rest
      (scaled s e (if minus then -(Nat.ofDigitChars 10 ds 0 : Int) else Nat.ofDigitChars 10 ds 0)) := by
  have count : countDigits (ds ++ rest) ≠ 0 := digits.countDigits_ne_zero stop
  have run : (ds ++ rest).takeWhile Integer.isDigit = ds :=
    Integer.takeWhile_digits digits.digits stop
  have drop : dropDigits (ds ++ rest) = rest := dropDigits_append digits.digits stop
  rw [← valued_scaled, ← Rfc3339.digitsValue_eq]
  cases signed with
  | missing =>
    obtain ⟨d, more, rfl⟩ := List.exists_cons_of_ne_nil digits.nonempty
    have digit := digits.digits d (by simp)
    unfold exponentPart
    rw [List.nil_append]
    split
    next minus cs shape =>
    split at shape
    · next same =>
      cases (List.cons.inj same).1
      cases digit
    · next same =>
      cases (List.cons.inj same).1
      cases digit
    · cases shape
      simp only [if_neg count, run, drop]
  | plus | minus =>
    simp only [List.cons_append, List.nil_append, exponentPart, if_neg count, run, drop]

@[simp]
theorem scaled_zero : scaled s e 0 = some (s, e) := by simp [scaled]

/-- What stands behind the digits before the exponent is no digit. -/
theorem Power.stop (power : Power es k) (ends : EndsNumber rest) :
    ∀ c ∈ (es ++ rest).head?, c.isDigit = false := by
  cases power with
  | missing => exact ends.stop
  | given marked =>
    rintro c mem
    obtain rfl := Option.mem_some_iff.1 mem
    rcases marked with rfl | rfl <;> decide

/-- Behind a fraction, an exponent is read if there is one. -/
theorem afterDigits_append (power : Power es k) (ends : EndsNumber rest) :
    afterDigits negative s e (es ++ rest) = valued negative rest (scaled s e k) := by
  cases power with
  | missing =>
    rw [List.nil_append, scaled_zero]
    unfold afterDigits
    split
    · exact absurd rfl (ends 'e' (by simp)).2.2.1
    · exact absurd rfl (ends 'E' (by simp)).2.2.2
    · rfl
  | given marked signed digits =>
    rw [← exponentPart_append signed digits ends.stop, List.cons_append, List.append_assoc]
    rcases marked with rfl | rfl <;> rfl

theorem fractionPart_append (digits : IsDigits ds) (keeps : Keeps s ds kept n)
    (power : Power es k) (ends : EndsNumber rest) :
    fractionPart negative s e (ds ++ (es ++ rest)) =
      valued negative rest (scaled n (e - kept) k) := by
  have stop := power.stop ends
  rw [fractionPart, if_neg (digits.countDigits_ne_zero stop), keeps.gather_append digits.digits stop,
    keeps.fitting_append digits.digits stop, dropDigits_append digits.digits stop,
    afterDigits_append power ends]

/-- How a number goes on behind the digits before its point: so many of them do not fit the
significand. -/
def afterWhole (negative : Bool) (significand beyond : Nat) : List Char → Step Found
  | '.' :: rest => fractionPart negative significand beyond rest
  | 'e' :: rest => exponentPart negative significand beyond rest
  | 'E' :: rest => exponentPart negative significand beyond rest
  | rest =>
    if beyond = 0 then whole negative significand rest
    else floating negative significand beyond rest

theorem unsigned_digits_append (form : IsWhole ds) (keeps : Keeps 0 ds kept s)
    (stop : ∀ c ∈ rest.head?, c.isDigit = false) :
    unsigned negative (ds ++ rest) = afterWhole negative s (ds.length - kept) rest := by
  have count : countDigits (ds ++ rest) = ds.length := countDigits_append form.digits stop
  have nonempty : ds.length ≠ 0 := fun empty => form.nonempty (List.length_eq_zero_iff.1 empty)
  have head : (ds ++ rest).head? = ds.head? := by
    obtain ⟨d, ds, rfl⟩ := List.exists_cons_of_ne_nil form.nonempty
    rfl
  have noZero : ¬(ds.head? = some '0' ∧ 1 < ds.length) := by
    rintro ⟨zero, long⟩
    have := form.noZero zero
    omega
  unfold unsigned
  simp only [count, head, if_neg nonempty, if_neg noZero, keeps.gather_append form.digits stop,
    keeps.fitting_append form.digits stop, dropDigits_append form.digits stop]
  rfl

/-- At its end, a number of digits alone is worth what fits, scaled by the digits that do not. -/
theorem afterWhole_end (ends : EndsNumber rest) (negative : Bool) (significand beyond : Nat) :
    afterWhole negative significand beyond rest =
      if beyond = 0 then whole negative significand rest
      else floating negative significand beyond rest := by
  unfold afterWhole
  split
  · exact absurd rfl (ends '.' (by simp)).2.1
  · exact absurd rfl (ends 'e' (by simp)).2.2.1
  · exact absurd rfl (ends 'E' (by simp)).2.2.2
  · rfl

/-- Digits that all fit are the decimal text of the significand. -/
theorem Keeps.eq_decimal (keeps : Keeps 0 ds kept s) (form : IsWhole ds) (all : ds.length ≤ kept) :
    ds = decimal s := by
  have run : Integer.DigitRun ds s :=
    ⟨form.nonempty, form.digits, by rw [← keeps.worth, List.take_of_length_le all]⟩
  exact run.eq_decimal form.noZero

/-- A number without its sign is read as the double of its parts, unless it is the decimal text of
what fits 64 bits. -/
theorem unsigned_append_parts (mantissa : Mantissa ms s e) (power : Power es k)
    (ends : EndsNumber rest) :
    unsigned negative (ms ++ (es ++ rest)) = valued negative rest (scaled s e k) ∨
      ms ++ es = decimal s ∧ scaled s e k = some (s, 0) ∧
        unsigned negative (ms ++ (es ++ rest)) = whole negative s rest := by
  have stop := power.stop ends
  cases mantissa with
  | @whole _ kept _ form keeps =>
    rw [unsigned_digits_append form keeps stop]
    cases power with
    | missing =>
      rw [List.nil_append, List.append_nil, afterWhole_end ends, scaled_zero]
      by_cases all : ms.length - kept = 0
      · exact .inr ⟨keeps.eq_decimal form (by omega), by rw [all]; rfl, if_pos all⟩
      · exact .inl (if_neg all)
    | given marked signed digits =>
      refine .inl ?_
      rw [← exponentPart_append signed digits ends.stop, List.cons_append, List.append_assoc]
      rcases marked with rfl | rfl <;> rfl
  | @point ws ds kept s more n form keeps digits keepsMore =>
    refine .inl ?_
    have point : ∀ c ∈ ('.' :: (ds ++ (es ++ rest))).head?, c.isDigit = false := by simp
    rw [List.append_assoc, List.cons_append, unsigned_digits_append form keeps point,
      ← fractionPart_append digits keepsMore power ends]
    rfl

/-- A number starts with its minus sign, or else with a digit. -/
theorem number_of_isUnsigned (form : IsUnsigned value) (rest : List Char) :
    number (signed negative value ++ rest) = unsigned negative (value ++ rest) := by
  cases negative with
  | true => rfl
  | false =>
    obtain ⟨d, digit, cs, rfl⟩ : ∃ d, d.isDigit = true ∧ ∃ cs, value = d :: cs := by
      cases form with
      | mk wholePart =>
        obtain ⟨d, ws, rfl⟩ := List.exists_cons_of_ne_nil wholePart.nonempty
        exact ⟨d, wholePart.digits d (by simp), _, rfl⟩
    unfold number
    split
    · next same =>
      cases (List.cons.inj same).1
      cases digit
    · rfl

/-- A number that is no integer of 64 bits is read as the double of its parts, whatever follows. -/
theorem number_of_floats (floats : Floats value negative worth) (ends : EndsNumber rest) :
    number (value ++ rest) = valued negative rest worth := by
  cases floats with
  | @mk ms es s e k negative mantissa power other =>
    rw [number_of_isUnsigned (mantissa.isUnsigned_append power), List.append_assoc]
    rcases unsigned_append_parts mantissa power ends with read | ⟨text, parts, read⟩
    · exact read
    -- An integer of 64 bits is excluded, so it is zero with a minus sign or below the signed range.
    rw [read, parts, whole]
    rw [text] at other
    have fits : (s : Int) ≤ maxUnsigned := Int.ofNat_le.2 mantissa.fits
    cases negative with
    | false =>
      refine absurd ?_ (other s ⟨by omega, fits⟩)
      rw [signed, signedDecimal, if_neg (Int.not_lt.2 (Int.natCast_nonneg s)), Int.natAbs_natCast]
      rfl
    | true =>
      by_cases inside : s = 0 ∨ maxSigned + 1 < s
      · rw [if_pos inside]
        rfl
      · have minus : -(s : Int) < 0 := by omega
        refine absurd ?_ (other (-s) ⟨by omega, by omega⟩)
        rw [signed, signedDecimal, if_pos minus, Int.natAbs_neg, Int.natAbs_natCast]
        rfl

/-- Where it has a double, that is found. -/
theorem Floats.number_append {x : Binary64} (floats : Floats value negative (some (s, e)))
    (held : Binary64.ofDecimal s e = some x) (ends : EndsNumber rest) :
    number (value ++ rest) = .ok (.floating negative x, rest) := by
  rw [number_of_floats floats ends]
  simp only [valued, floating, held]

/-- Where it has none, it is malformed. -/
theorem number_of_outsized (floats : Floats value negative worth) (outsized : Outsized worth)
    (ends : EndsNumber rest) : number (value ++ rest) = .error .malformed := by
  rw [number_of_floats floats ends]
  cases worth with
  | none => rfl
  | some w =>
    have none : Binary64.ofDecimal w.1 w.2 = none :=
      (Binary64.ofDecimal_eq_none_iff floats.fits).2 outsized
    simp only [valued, floating, none]

theorem Fits64.number_append {v : Int} (fits : Fits64 v) (ends : EndsNumber rest) :
    number (signedDecimal v ++ rest) = .ok (.integer v, rest) :=
  number_signedDecimal fits.low fits.high ends

/-- What is read as anything else is no integer of 64 bits. -/
theorem ne_signedDecimal_of_number {outcome : Step Found} (read : number value = outcome)
    (other : ∀ v, outcome ≠ .ok (.integer v, [])) (v : Int) (fits : Fits64 v) :
    value ≠ signedDecimal v := by
  rintro rfl
  have none : EndsNumber [] := by simp [EndsNumber]
  have integer := fits.number_append none
  rw [List.append_nil, read] at integer
  exact other v integer

end PathPattern.Json
