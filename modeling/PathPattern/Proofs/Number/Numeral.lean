import Mathlib.Algebra.Group.Nat.Defs
import PathPattern.Number.Integer

/-!
# Decimal numerals

What a text of an integer is, apart from any reader: a run of ASCII digits, possibly with one
sign before it, worth the number that the digits write. `read` accepts the numerals of the
64-bit integers and no other text, and answers their values; the decimal text of an integer is
one of its numerals.
-/

namespace PathPattern.Integer

variable {cs : List Char} {c : Char}

/-- A text of decimal digits, at least one, and the number that they write. -/
structure DigitRun (cs : List Char) (n : Nat) : Prop where
  nonempty : cs ≠ []
  digits : ∀ c ∈ cs, c.isDigit = true
  value : Nat.ofDigitChars 10 cs 0 = n

/-- A text of an integer: digits, or one sign and digits. -/
inductive Numeral : List Char → Int → Prop where
  | unsigned {cs : List Char} {n : Nat} (run : DigitRun cs n) : Numeral cs n
  | plus {cs : List Char} {n : Nat} (run : DigitRun cs n) : Numeral ('+' :: cs) n
  | minus {cs : List Char} {n : Nat} (run : DigitRun cs n) : Numeral ('-' :: cs) (-n)

/-! ### Digits -/

theorem isDigit_eq (c : Char) : isDigit c = c.isDigit := by
  simp [isDigit, Char.isDigit, Char.le_def]

theorem digitValue?_ten (c : Char) :
    digitValue? 10 c = if c.isDigit then some (c.toNat - '0'.toNat) else none := by
  unfold digitValue?
  rw [isDigit_eq]
  split
  · next digit =>
    have bounds := Char.isDigit_iff_toNat.1 digit
    have zero : '0'.toNat = 48 := rfl
    have nine : '9'.toNat = 57 := rfl
    rw [if_pos (by omega)]
  · next other =>
    split
    · simp
    · split <;> simp

theorem le_ofDigitChars (cs : List Char) (value : Nat) : value ≤ Nat.ofDigitChars 10 cs value := by
  rw [Nat.ofDigitChars_eq_ofDigitChars_zero]
  have := Nat.le_mul_of_pos_left value (Nat.pow_pos (n := cs.length) (show 0 < 10 by omega))
  omega

/-- A run of digits is read to the number it writes, and is in range as soon as that number is. -/
theorem magnitude_eq_ok_iff {limit value n : Nat} {beyond : IntegerFault} (low : value ≤ limit) :
    magnitude 10 limit beyond value cs = .ok n ↔
      (∀ c ∈ cs, c.isDigit = true) ∧ Nat.ofDigitChars 10 cs value = n ∧ n ≤ limit := by
  induction cs generalizing value with
  | nil =>
    simp only [magnitude, Except.ok.injEq, List.not_mem_nil, Nat.ofDigitChars_nil]
    constructor
    · rintro rfl
      exact ⟨by simp, rfl, low⟩
    · exact fun h => h.2.1
  | cons c cs ih =>
    rw [magnitude, digitValue?_ten, Nat.ofDigitChars_cons, Nat.mul_comm 10 value]
    by_cases digit : c.isDigit = true
    · simp only [digit, if_true]
      by_cases fits : value * 10 + (c.toNat - '0'.toNat) ≤ limit
      · rw [if_pos fits, ih fits]
        simp [digit]
      · have grows := le_ofDigitChars cs (value * 10 + (c.toNat - '0'.toNat))
        rw [if_neg fits]
        constructor
        · intro h
          cases h
        · rintro ⟨-, rfl, bound⟩
          omega
    · simp [digit]

/-! ### Runs in texts -/

section Run

variable {ds rest : List Char} (digits : ∀ c ∈ ds, c.isDigit = true)
  (stop : ∀ c ∈ rest.head?, c.isDigit = false)

include digits stop

/-- A run of digits ends at the first other character. -/
theorem takeWhile_digits : (ds ++ rest).takeWhile isDigit = ds := by
  have inside : ∀ c ∈ ds, isDigit c = true := fun c mem => by
    rw [isDigit_eq]
    exact digits c mem
  have stops : rest.takeWhile isDigit = [] := by
    cases rest with
    | nil => rfl
    | cons c rest =>
      have other : c.isDigit = false := stop c (by simp)
      exact List.takeWhile_cons_of_neg (by simp [isDigit_eq, other])
  rw [List.takeWhile_append_of_pos inside, stops, List.append_nil]

theorem dropWhile_digits : (ds ++ rest).dropWhile isDigit = rest := by
  have split := List.takeWhile_append_dropWhile (p := isDigit) (l := ds ++ rest)
  rw [takeWhile_digits digits stop] at split
  exact List.append_cancel_left split

end Run

/-! ### Reading -/

section Read

variable {i : Int64} {n : Nat}

theorem magnitude_map_iff {limit : Nat} {beyond : IntegerFault} {f : Nat → Int64} (some : cs ≠ []) :
    (magnitude 10 limit beyond 0 cs).map f = .ok i ↔ ∃ n, DigitRun cs n ∧ n ≤ limit ∧ f n = i := by
  constructor
  · intro h
    cases run : magnitude 10 limit beyond 0 cs with
    | error fault => simp [run, Except.map] at h
    | ok n =>
      obtain ⟨digits, value, bound⟩ := (magnitude_eq_ok_iff (Nat.zero_le limit)).1 run
      simp only [run, Except.map, Except.ok.injEq] at h
      exact ⟨n, ⟨some, digits, value⟩, bound, h⟩
  · rintro ⟨n, run, bound, rfl⟩
    rw [(magnitude_eq_ok_iff (Nat.zero_le limit)).2 ⟨run.digits, run.value, bound⟩]
    rfl

theorem ofNat_eq_iff : n ≤ maxSigned ∧ Int64.ofNat n = i ↔ i.toInt = n := by
  unfold maxSigned
  constructor
  · rintro ⟨bound, rfl⟩
    exact Int64.toInt_ofNat_of_lt (by omega)
  · intro value
    have := i.toInt_lt
    refine ⟨by omega, Int64.toInt_inj.1 ?_⟩
    rw [value, Int64.toInt_ofNat_of_lt (by omega)]

theorem ofInt_neg_eq_iff : n ≤ maxSigned + 1 ∧ Int64.ofInt (-n) = i ↔ i.toInt = -n := by
  unfold maxSigned
  constructor
  · rintro ⟨bound, rfl⟩
    exact Int64.toInt_ofInt_of_le (by omega) (by omega)
  · intro value
    have := i.le_toInt
    refine ⟨by omega, ?_⟩
    rw [← value, Int64.ofInt_toInt]

theorem map_natCast {x : Except IntegerFault Nat} {f : Int → Int64} :
    (do let n ← x; pure (n : Int) : Except IntegerFault Int).map f =
      x.map fun n : Nat => f n := by
  cases x <;> rfl

/-- No digit is a sign, so the three spellings of a numeral exclude each other. -/
theorem DigitRun.head_isDigit (run : DigitRun (c :: cs) n) : c.isDigit = true :=
  run.digits c (by simp)

theorem numeral_plus_iff {v : Int} : Numeral ('+' :: cs) v ↔ ∃ n : Nat, DigitRun cs n ∧ v = n := by
  constructor
  · intro h
    cases h with
    | unsigned run => exact absurd run.head_isDigit (by decide)
    | plus run => exact ⟨_, run, rfl⟩
  · rintro ⟨n, run, rfl⟩
    exact .plus run

theorem numeral_minus_iff {v : Int} :
    Numeral ('-' :: cs) v ↔ ∃ n : Nat, DigitRun cs n ∧ v = -n := by
  constructor
  · intro h
    cases h with
    | unsigned run => exact absurd run.head_isDigit (by decide)
    | minus run => exact ⟨_, run, rfl⟩
  · rintro ⟨n, run, rfl⟩
    exact .minus run

theorem numeral_unsigned_iff {v : Int} (plus : c ≠ '+') (minus : c ≠ '-') :
    Numeral (c :: cs) v ↔ ∃ n : Nat, DigitRun (c :: cs) n ∧ v = n := by
  constructor
  · intro h
    cases h with
    | unsigned run => exact ⟨_, run, rfl⟩
    | plus run => exact absurd rfl plus
    | minus run => exact absurd rfl minus
  · rintro ⟨n, run, rfl⟩
    exact .unsigned run

theorem not_numeral_nil {v : Int} : ¬Numeral [] v := by
  intro h
  cases h with
  | unsigned run => exact run.nonempty rfl

theorem DigitRun.unique {m : Nat} (run : DigitRun cs n) (run' : DigitRun cs m) : n = m :=
  run.value.symm.trans run'.value

/-- A text is worth one number only. -/
theorem Numeral.unique {v w : Int} (h : Numeral cs v) (h' : Numeral cs w) : v = w := by
  cases h with
  | plus run =>
    obtain ⟨n, run', rfl⟩ := numeral_plus_iff.1 h'
    rw [run.unique run']
  | minus run =>
    obtain ⟨n, run', rfl⟩ := numeral_minus_iff.1 h'
    rw [run.unique run']
  | unsigned run =>
    cases h' with
    | unsigned run' => rw [run.unique run']
    | plus _ => exact absurd run.head_isDigit (by decide)
    | minus _ => exact absurd run.head_isDigit (by decide)

/-- Reading accepts the numerals of the 64-bit integers and answers their values. -/
theorem read_eq_ok_iff : read cs = .ok i ↔ Numeral cs i.toInt := by
  unfold read readSigned
  split
  · simp [not_numeral_nil]
  · rw [numeral_plus_iff]
    constructor
    · intro h
      cases h
    · rintro ⟨n, run, -⟩
      exact absurd rfl run.nonempty
  · rw [numeral_minus_iff]
    constructor
    · intro h
      cases h
    · rintro ⟨n, run, -⟩
      exact absurd rfl run.nonempty
  · next cs alone =>
    rw [numeral_plus_iff, magnitude_map_iff (fun empty => alone empty)]
    simp only [ofNat_eq_iff]
  · next cs alone =>
    rw [numeral_minus_iff, map_natCast, magnitude_map_iff (fun empty => alone empty)]
    simp only [ofInt_neg_eq_iff]
  · next empty _ _ plus minus =>
    rw [magnitude_map_iff empty]
    simp only [ofNat_eq_iff]
    obtain ⟨c, cs, rfl⟩ := List.exists_cons_of_ne_nil empty
    rw [numeral_unsigned_iff (fun h => plus cs (by rw [h])) (fun h => minus cs (by rw [h]))]

/-- What is read without a limit on its sign is a numeral, too. -/
theorem numeral_of_readPosition (h : readPosition cs = .ok n) : Numeral cs n := by
  have digits {cs : List Char} (some : cs ≠ [])
      (run : magnitude 10 maxUnsigned .tooLarge 0 cs = .ok n) : DigitRun cs n := by
    obtain ⟨digits, value, -⟩ := (magnitude_eq_ok_iff (Nat.zero_le _)).1 run
    exact ⟨some, digits, value⟩
  unfold readPosition at h
  split at h
  · cases h
  · cases h
  · next alone => exact .plus (digits (fun empty => alone empty) h)
  · next some _ _ => exact .unsigned (digits some h)

end Read

/-! ### Writing -/

theorem digitRun_decimal (n : Nat) : DigitRun (decimal n) n where
  nonempty := Nat.toDigits_ne_nil
  digits _ mem := Nat.isDigit_of_mem_toDigits (by omega) (by omega) mem
  value := Nat.ofDigitChars_ten_toDigits

/-- The decimal text of an integer is a numeral of it. -/
theorem numeral_signedDecimal (v : Int) : Numeral (signedDecimal v) v := by
  unfold signedDecimal
  split
  · next negative =>
    have size : v = -(v.natAbs : Int) := by omega
    conv => arg 2; rw [size]
    exact .minus (digitRun_decimal _)
  · next negative =>
    have size : v = (v.natAbs : Int) := by omega
    conv => arg 2; rw [size]
    exact .unsigned (digitRun_decimal _)

/-- A written integer starts with a digit or a minus sign. -/
theorem signedDecimal_eq_cons (v : Int) :
    ∃ c cs, signedDecimal v = c :: cs ∧ (c.isDigit = true ∨ c = '-') := by
  unfold signedDecimal
  split
  · exact ⟨'-', _, rfl, .inr rfl⟩
  · have run := digitRun_decimal v.natAbs
    obtain ⟨c, cs, shape⟩ := List.exists_cons_of_ne_nil run.nonempty
    exact ⟨c, cs, shape, .inl (run.digits c (by simp [shape]))⟩

/-- A numeral is made of digits and signs. -/
theorem Numeral.mem {v : Int} (h : Numeral cs v) (mem : c ∈ cs) :
    c.isDigit = true ∨ c = '+' ∨ c = '-' := by
  cases h with
  | unsigned run => exact .inl (run.digits c mem)
  | plus run =>
    rcases List.mem_cons.1 mem with rfl | mem
    · exact .inr (.inl rfl)
    · exact .inl (run.digits c mem)
  | minus run =>
    rcases List.mem_cons.1 mem with rfl | mem
    · exact .inr (.inr rfl)
    · exact .inl (run.digits c mem)

theorem Numeral.not_mem {v : Int} (h : Numeral cs v)
    (other : ¬(c.isDigit = true ∨ c = '+' ∨ c = '-')) : c ∉ cs :=
  fun mem => other (h.mem mem)

theorem Numeral.nonempty {v : Int} (h : Numeral cs v) : cs ≠ [] := by
  rintro rfl
  exact not_numeral_nil h

/-- Only zero is written with a zero first. -/
theorem head?_decimal {n : Nat} (positive : 0 < n) : (decimal n).head? ≠ some '0' := by
  unfold decimal
  induction n using Nat.base_induction 10 (by omega) with
  | single m small =>
    have some : m ≠ 0 := by omega
    simp [Nat.toDigits_of_lt_base small, some]
  | digit m k small some ih =>
    have front := ih some
    rw [← Nat.toDigits_append_toDigits (by omega) some small, List.head?_append,
      List.head?_eq_some_head Nat.toDigits_ne_nil, Option.some_or]
    rwa [List.head?_eq_some_head Nat.toDigits_ne_nil] at front

theorem decimal_digit (digit : c.isDigit = true) :
    c.toNat - '0'.toNat < 10 ∧ decimal (c.toNat - '0'.toNat) = [c] := by
  have bounds := Char.isDigit_iff_toNat.1 digit
  have zero : '0'.toNat = 48 := rfl
  have nine : '9'.toNat = 57 := rfl
  have table : ∀ n < 58, 48 ≤ n → Nat.digitChar (n - 48) = Char.ofNat n := by decide
  have small : c.toNat - '0'.toNat < 10 := by omega
  refine ⟨small, ?_⟩
  rw [decimal, Nat.toDigits_of_lt_base small, zero, table c.toNat (by omega) (by omega),
    Char.ofNat_toNat]

/-- Digits behind the decimal text of a positive number make the text of the longer number. -/
theorem decimal_append {n : Nat} (positive : 0 < n) (digits : ∀ c ∈ cs, c.isDigit = true) :
    decimal (Nat.ofDigitChars 10 cs n) = decimal n ++ cs := by
  induction cs generalizing n with
  | nil => rw [Nat.ofDigitChars_nil, List.append_nil]
  | cons c cs ih =>
    obtain ⟨digit, digits⟩ := List.forall_mem_cons.1 digits
    obtain ⟨small, last⟩ := decimal_digit digit
    calc decimal (Nat.ofDigitChars 10 (c :: cs) n)
        = decimal (10 * n + (c.toNat - '0'.toNat)) ++ cs := by
          rw [Nat.ofDigitChars_cons, ih (by omega) digits]
      _ = decimal n ++ decimal (c.toNat - '0'.toNat) ++ cs := by
          rw [decimal, ← Nat.toDigits_append_toDigits (by omega) positive small]
          rfl
      _ = decimal n ++ c :: cs := by rw [last, List.append_assoc, List.singleton_append]

/-- Digits with no superfluous zero before them are the decimal text of their number. -/
theorem DigitRun.eq_decimal {n : Nat} (run : DigitRun cs n)
    (noZero : cs.head? = some '0' → cs.length ≤ 1) : cs = decimal n := by
  obtain ⟨c, cs, rfl⟩ := List.exists_cons_of_ne_nil run.nonempty
  obtain ⟨digit, digits⟩ := List.forall_mem_cons.1 run.digits
  have value := run.value
  rw [Nat.ofDigitChars_cons, Nat.mul_zero, Nat.zero_add] at value
  by_cases zero : c = '0'
  · have short := noZero (congrArg some zero)
    have none : cs = [] := List.length_eq_zero_iff.1 (by simpa using short)
    subst none zero
    rw [← value]
    decide
  · have positive : 0 < c.toNat - '0'.toNat := by
      rw [Nat.pos_iff_ne_zero]
      intro none
      have last := (decimal_digit digit).2
      rw [none] at last
      exact zero (List.cons.inj last).1.symm
    rw [← value, decimal_append positive digits, (decimal_digit digit).2, List.singleton_append]

/-! ### Padding -/

/-- Zeros before a number do not change what it is worth. -/
theorem digitRun_padded (width n : Nat) : DigitRun (padded width n) n where
  nonempty := by
    intro empty
    simp only [padded, List.leftpad, List.append_eq_nil_iff] at empty
    exact (digitRun_decimal n).nonempty empty.2
  digits c mem := by
    simp only [padded, List.leftpad, List.mem_append] at mem
    rcases mem with zero | digit
    · rw [List.eq_of_mem_replicate zero]
      rfl
    · exact (digitRun_decimal n).digits c digit
  value := by
    rw [padded, List.leftpad, Nat.ofDigitChars_append, Nat.ofDigitChars_replicate_zero]
    exact (digitRun_decimal n).value

theorem length_padded_eq (width n : Nat) :
    (padded width n).length = max width (decimal n).length := by
  rw [padded, List.leftpad, List.length_append, List.length_replicate]
  omega

theorem le_length_padded (width n : Nat) : width ≤ (padded width n).length := by
  rw [length_padded_eq]
  omega

theorem length_padded_le_iff {width n : Nat} (some : 0 < width) :
    (padded width n).length ≤ width ↔ n < 10 ^ width := by
  have fits : (decimal n).length ≤ width ↔ n < 10 ^ width :=
    Nat.length_toDigits_le_iff (by omega) some
  rw [length_padded_eq, ← fits]
  omega

/-- A number that fits in a width is padded to it. -/
theorem length_padded {width n : Nat} (some : 0 < width) (fits : n < 10 ^ width) :
    (padded width n).length = width :=
  Nat.le_antisymm ((length_padded_le_iff some).2 fits) (le_length_padded width n)

/-- A number that does not fit is written without a zero before it. -/
theorem head?_padded {width n : Nat} (positive : 0 < n) (long : width < (padded width n).length) :
    (padded width n).head? ≠ some '0' := by
  rw [length_padded_eq] at long
  have none : width - (decimal n).length = 0 := by omega
  rw [padded, List.leftpad, none, List.replicate_zero, List.nil_append]
  exact head?_decimal positive

end PathPattern.Integer
