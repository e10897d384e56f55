import Mathlib.Data.List.TakeWhile
import PathPattern.Json.Number
import PathPattern.Proofs.Number.Numeral

/-!
# Written integers are read back

A run of digits that is worth no more than the largest 64-bit integer is gathered whole, and what
follows it is left. So a JSON number that is written in decimal is read as that integer, unless
what follows could go on with it (`EndsNumber`).
-/

namespace PathPattern.Json

open Integer (DigitRun Numeral signedDecimal decimal maxSigned maxUnsigned)

variable {ds rest : List Char} {n value : Nat} {negative : Bool}

/-- No number goes on with this text. -/
def EndsNumber (rest : List Char) : Prop :=
  ∀ c ∈ rest.head?, c.isDigit = false ∧ c ≠ '.' ∧ c ≠ 'e' ∧ c ≠ 'E'

theorem EndsNumber.stop (ends : EndsNumber rest) : ∀ c ∈ rest.head?, c.isDigit = false :=
  fun c mem => (ends c mem).1

theorem endsNumber_of_isWhite {c : Char} (white : isWhite c = true) (cs : List Char) :
    EndsNumber (c :: cs) := by
  simp only [isWhite, Bool.or_eq_true, beq_iff_eq] at white
  rcases white with ((rfl | rfl) | rfl) | rfl <;> simp [EndsNumber]

theorem endsNumber_append {before : List Char} (white : ∀ c ∈ before, isWhite c = true)
    (ends : EndsNumber rest) : EndsNumber (before ++ rest) := by
  cases before with
  | nil => exact ends
  | cons c before => exact endsNumber_of_isWhite (white c (by simp)) _

/-! ### Runs of digits -/

section Digits

variable (digits : ∀ c ∈ ds, c.isDigit = true) (stop : ∀ c ∈ rest.head?, c.isDigit = false)

include digits stop

theorem countDigits_append : countDigits (ds ++ rest) = ds.length := by
  rw [countDigits, Integer.takeWhile_digits digits stop]

theorem dropDigits_append : dropDigits (ds ++ rest) = rest := Integer.dropWhile_digits digits stop

/-- All digits fit if the number that they write does. -/
theorem fitting_append (fits : Nat.ofDigitChars 10 ds value ≤ maxUnsigned) :
    fitting value (ds ++ rest) = ds.length := by
  induction ds generalizing value with
  | nil =>
    cases rest with
    | nil => rfl
    | cons c rest =>
      have other : c.isDigit = false := stop c (by simp)
      simp [fitting, Integer.isDigit_eq, other]
  | cons c ds ih =>
    obtain ⟨digit, more⟩ := List.forall_mem_cons.1 digits
    rw [Nat.ofDigitChars_cons, Nat.mul_comm] at fits
    have next := Integer.le_ofDigitChars ds (value * 10 + (c.toNat - '0'.toNat))
    have step : Integer.isDigit c = true ∧ value * 10 + (c.toNat - '0'.toNat) ≤ maxUnsigned := by
      rw [Integer.isDigit_eq]
      exact ⟨digit, by omega⟩
    rw [List.cons_append, fitting]
    simp only [if_pos step, ih more fits, List.length_cons]

theorem gather_append (fits : Nat.ofDigitChars 10 ds value ≤ maxUnsigned) :
    gather value (ds ++ rest) = Nat.ofDigitChars 10 ds value := by
  rw [gather, fitting_append digits stop fits, List.take_left, Nat.ofDigitChars_eq_foldl]
  simp only [Nat.mul_comm 10]

end Digits

/-! ### Integers -/

/-- Digits with no superfluous zero before them are read as a whole number. -/
theorem unsigned_append (run : DigitRun ds n) (fits : n ≤ maxUnsigned)
    (lean : ds.head? = some '0' → ds.length ≤ 1) (ends : EndsNumber rest) :
    unsigned negative (ds ++ rest) = whole negative n rest := by
  have value := run.value
  have fits' : Nat.ofDigitChars 10 ds 0 ≤ maxUnsigned := by
    rw [value]
    exact fits
  have count : countDigits (ds ++ rest) = ds.length := countDigits_append run.digits ends.stop
  have nonempty : ds.length ≠ 0 := fun empty => run.nonempty (List.length_eq_zero_iff.1 empty)
  have head : (ds ++ rest).head? = ds.head? := by
    obtain ⟨d, ds, rfl⟩ := List.exists_cons_of_ne_nil run.nonempty
    rfl
  have noZero : ¬(ds.head? = some '0' ∧ 1 < ds.length) := by
    rintro ⟨zero, long⟩
    have := lean zero
    omega
  unfold unsigned
  simp only [count, gather_append run.digits ends.stop fits',
    fitting_append run.digits ends.stop fits', value, dropDigits_append run.digits ends.stop, head,
    if_neg nonempty, if_neg noZero, Nat.sub_self]
  split
  · exact absurd rfl (ends '.' (by simp)).2.1
  · exact absurd rfl (ends 'e' (by simp)).2.2.1
  · exact absurd rfl (ends 'E' (by simp)).2.2.2
  · rfl

theorem unsigned_decimal (fits : n ≤ maxUnsigned) (ends : EndsNumber rest) :
    unsigned negative (decimal n ++ rest) = whole negative n rest := by
  refine unsigned_append (Integer.digitRun_decimal n) fits (fun zero => ?_) ends
  by_cases none : n = 0
  · rw [none]
    decide
  · exact absurd zero (Integer.head?_decimal (by omega))

/-- The decimal text of an integer of 64 bits, with or without a sign, is read as that integer. -/
theorem number_signedDecimal {v : Int} (low : -((maxSigned + 1 : Nat) : Int) ≤ v)
    (high : v ≤ maxUnsigned) (ends : EndsNumber rest) :
    number (signedDecimal v ++ rest) = .ok (.integer v, rest) := by
  unfold maxSigned at low
  unfold maxUnsigned at high
  unfold signedDecimal
  split
  · next negative =>
    have fits : v.natAbs ≤ maxUnsigned := by
      unfold maxUnsigned
      omega
    have inRange : ¬(v.natAbs = 0 ∨ maxSigned + 1 < v.natAbs) := by
      unfold maxSigned
      omega
    have back : -(v.natAbs : Int) = v := by omega
    rw [List.cons_append, number, unsigned_decimal fits ends, whole, if_neg inRange, back]
    rfl
  · next positive =>
    have fits : v.natAbs ≤ maxUnsigned := by
      unfold maxUnsigned
      omega
    have back : (v.natAbs : Int) = v := by omega
    have read : unsigned false (decimal v.natAbs ++ rest) = whole false v.natAbs rest :=
      unsigned_decimal fits ends
    have run := Integer.digitRun_decimal v.natAbs
    obtain ⟨d, ds, shape⟩ := List.exists_cons_of_ne_nil run.nonempty
    have digit : d.isDigit = true := run.digits d (by simp [shape])
    rw [shape, List.cons_append] at read ⊢
    unfold number
    split
    · next same =>
      cases (List.cons.inj same).1
      cases digit
    · rw [read, whole, back]
      rfl

/-! ### Only integers are read as integers -/

variable {cs : List Char} {significand : Nat} {exponent v : Int}

theorem floating_ne_integer :
    floating negative significand exponent cs ≠ .ok (.integer v, rest) := by
  unfold floating
  split <;> simp

theorem exponentPart_ne_integer :
    exponentPart negative significand exponent cs ≠ .ok (.integer v, rest) := by
  intro h
  unfold exponentPart at h
  split at h
  next minus ds _ =>
  split at h
  · cases h
  dsimp only at h
  split at h
  · exact floating_ne_integer h
  split at h
  · cases h
  · exact floating_ne_integer h

theorem fractionPart_ne_integer :
    fractionPart negative significand exponent cs ≠ .ok (.integer v, rest) := by
  intro h
  unfold fractionPart afterDigits at h
  split at h
  · cases h
  split at h
  · exact exponentPart_ne_integer h
  · exact exponentPart_ne_integer h
  · exact floating_ne_integer h

theorem fitting_le_countDigits (value : Nat) (cs : List Char) :
    fitting value cs ≤ countDigits cs := by
  induction cs generalizing value with
  | nil => exact Nat.zero_le _
  | cons c cs ih =>
    rw [fitting]
    split
    · next fits =>
      have more := ih (value * 10 + (c.toNat - '0'.toNat))
      simp only [countDigits, List.takeWhile_cons, fits.1, if_true, List.length_cons] at more ⊢
      omega
    · exact Nat.zero_le _

/-- Digits that all fit are gathered to the number that they write. -/
theorem gather_eq (all : countDigits cs ≤ fitting value cs) :
    gather value cs = Nat.ofDigitChars 10 (cs.takeWhile Integer.isDigit) value := by
  have count := Nat.le_antisymm (fitting_le_countDigits value cs) all
  have front : cs.take (countDigits cs) = cs.takeWhile Integer.isDigit :=
    List.prefix_iff_eq_take.1 (List.takeWhile_prefix _) |>.symm
  rw [gather, count, front, Nat.ofDigitChars_eq_foldl]
  simp only [Nat.mul_comm 10]

/-- What is read as an integer without its sign is a decimal text, with no number going on behind. -/
theorem whole_of_unsigned (h : unsigned negative cs = .ok (.integer v, rest)) :
    ∃ n, cs = decimal n ++ rest ∧ EndsNumber rest ∧
      whole negative n rest = .ok (.integer v, rest) := by
  unfold unsigned at h
  dsimp only at h
  split at h
  · cases h
  next given =>
  split at h
  · cases h
  next noZero =>
  split at h
  · exact absurd h fractionPart_ne_integer
  · exact absurd h exponentPart_ne_integer
  · exact absurd h exponentPart_ne_integer
  next noPoint noPower noPower' =>
  split at h
  · next all =>
    obtain rfl := whole_rest h
    have run : DigitRun (cs.takeWhile Integer.isDigit) (gather 0 cs) := by
      refine ⟨fun none => given (List.length_eq_zero_iff.2 none), fun c mem => ?_,
        (gather_eq (by omega)).symm⟩
      rw [← Integer.isDigit_eq]
      exact List.mem_takeWhile_imp mem
    have lean : (cs.takeWhile Integer.isDigit).head? = some '0' →
        (cs.takeWhile Integer.isDigit).length ≤ 1 := by
      intro zero
      refine Nat.not_lt.1 fun long => noZero ⟨?_, long⟩
      rw [← List.takeWhile_append_dropWhile (p := Integer.isDigit) (l := cs), List.head?_append, zero]
      rfl
    have ends : EndsNumber (dropDigits cs) := by
      intro c mem
      obtain ⟨more, start⟩ := List.head?_eq_some_iff.1 mem
      have digit : Integer.isDigit c = false := by
        have stop := List.head?_dropWhile_not Integer.isDigit cs
        rw [← dropDigits, start] at stop
        simpa using stop
      rw [Integer.isDigit_eq] at digit
      exact ⟨digit, fun same => noPoint more (same ▸ start), fun same => noPower more (same ▸ start),
        fun same => noPower' more (same ▸ start)⟩
    refine ⟨gather 0 cs, ?_, ends, h⟩
    rw [← run.eq_decimal lean]
    exact List.takeWhile_append_dropWhile.symm
  · exact absurd h floating_ne_integer

/-- Only the decimal text of an integer is read as that integer, none below the signed range and not
in the middle of a number. -/
theorem eq_signedDecimal_of_number (h : number cs = .ok (.integer v, rest)) :
    cs = signedDecimal v ++ rest ∧ -((maxSigned + 1 : Nat) : Int) ≤ v ∧ EndsNumber rest := by
  unfold number at h
  split at h
  · obtain ⟨n, rfl, ends, value⟩ := whole_of_unsigned h
    unfold whole at value
    split at value
    · next positive => simp at positive
    split at value
    · exact absurd value floating_ne_integer
    · next inRange =>
      simp only [Except.ok.injEq, Prod.mk.injEq, Found.integer.injEq, and_true] at value
      refine ⟨?_, by omega, ends⟩
      rw [← value, signedDecimal, if_pos (by omega), Int.natAbs_neg, Int.natAbs_natCast,
        List.cons_append]
  · obtain ⟨n, rfl, ends, value⟩ := whole_of_unsigned h
    simp only [whole, Bool.not_false, if_true, Except.ok.injEq, Prod.mk.injEq, Found.integer.injEq,
      and_true] at value
    refine ⟨?_, by omega, ends⟩
    rw [← value, signedDecimal, if_neg (by omega), Int.natAbs_natCast]

end PathPattern.Json
