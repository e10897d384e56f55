import Mathlib.Data.List.Forall2
import PathPattern.Proofs.Number.Numeral

/-!
# Numbers at fixed widths

Texts of digits of one length are in the order of the numbers that they write. A stamp writes a list
of numbers, each padded to a width and with a mark behind it; where the numbers fit their widths, the
stamps of two lists are in the order of the lists (`stamp_lt_stamp`), so that the first number in
which the lists differ decides.
-/

namespace PathPattern.Integer

variable {ds ds' : List Char} {n n' width : Nat}

/-! ### Digits -/

theorem ofDigitChars_cons_eq (d : Char) (ds : List Char) :
    Nat.ofDigitChars 10 (d :: ds) 0 =
      10 ^ ds.length * (d.toNat - '0'.toNat) + Nat.ofDigitChars 10 ds 0 := by
  rw [Nat.ofDigitChars_cons, Nat.ofDigitChars_eq_ofDigitChars_zero, Nat.mul_zero, Nat.zero_add]

theorem ofDigitChars_lt_pow (digits : ∀ d ∈ ds, d.isDigit = true) :
    Nat.ofDigitChars 10 ds 0 < 10 ^ ds.length := by
  induction ds with
  | nil => simp
  | cons d ds ih =>
    obtain ⟨first, more⟩ := List.forall_mem_cons.1 digits
    have rest := ih more
    have bounds := Char.isDigit_iff_toNat.1 first
    have zero : '0'.toNat = 48 := rfl
    have nine : '9'.toNat = 57 := rfl
    have top : d.toNat - '0'.toNat ≤ 9 := by omega
    have scaled := Nat.mul_le_mul_left (10 ^ ds.length) top
    rw [ofDigitChars_cons_eq, List.length_cons, Nat.pow_succ]
    omega

/-- Of two texts of digits of one length, the one that writes the smaller number comes first. -/
theorem lt_of_ofDigitChars_lt (digits : ∀ d ∈ ds, d.isDigit = true)
    (digits' : ∀ d ∈ ds', d.isDigit = true) (same : ds.length = ds'.length)
    (less : Nat.ofDigitChars 10 ds 0 < Nat.ofDigitChars 10 ds' 0) : ds < ds' := by
  induction ds generalizing ds' with
  | nil =>
    have empty : ds' = [] := List.length_eq_zero_iff.1 same.symm
    simp [empty] at less
  | cons d ds ih =>
    cases ds' with
    | nil => simp at same
    | cons d' ds' =>
      obtain ⟨first, more⟩ := List.forall_mem_cons.1 digits
      obtain ⟨first', more'⟩ := List.forall_mem_cons.1 digits'
      have length : ds.length = ds'.length := by simpa using same
      rw [ofDigitChars_cons_eq, ofDigitChars_cons_eq, ← length] at less
      rw [List.cons_lt_cons_iff]
      rcases Nat.lt_trichotomy d.toNat d'.toNat with before | equal | behind
      · exact .inl (Char.lt_def.2 before)
      · have rest : Nat.ofDigitChars 10 ds 0 < Nat.ofDigitChars 10 ds' 0 := by
          rw [equal] at less
          omega
        exact .inr ⟨Char.toNat_inj.1 equal, ih more more' length rest⟩
      · -- A greater first digit outweighs all that follow.
        have bound := ofDigitChars_lt_pow more'
        rw [← length] at bound
        have low := (Char.isDigit_iff_toNat.1 first').1
        have above : d'.toNat - '0'.toNat + 1 ≤ d.toNat - '0'.toNat := by omega
        have scaled := Nat.mul_le_mul_left (10 ^ ds.length) above
        rw [Nat.mul_add, Nat.mul_one] at scaled
        omega

theorem padded_lt_padded (some : 0 < width) (fits' : n' < 10 ^ width) (less : n < n') :
    padded width n < padded width n' := by
  have run := digitRun_padded width n
  have run' := digitRun_padded width n'
  have same : (padded width n).length = (padded width n').length := by
    rw [length_padded some (Nat.lt_trans less fits'), length_padded some fits']
  exact lt_of_ofDigitChars_lt run.digits run'.digits same (by rw [run.value, run'.value]; exact less)

/-- A number that fills its width is not padded. -/
theorem padded_eq_decimal (some : 0 < width) (long : 10 ^ width ≤ n) :
    padded (width + 1) n = decimal n := by
  have filled : ¬(decimal n).length ≤ width := by
    rw [decimal, Nat.length_toDigits_le_iff (by omega) some]
    omega
  have none : width + 1 - (decimal n).length = 0 := by omega
  rw [padded, List.leftpad, none, List.replicate_zero, List.nil_append]

theorem signedDecimal_natCast (n : Nat) : signedDecimal n = decimal n := by
  rw [signedDecimal, if_neg (by omega), Int.natAbs_natCast]

/-! ### Stamps -/

theorem append_lt_append {α : Type} [LT α] {as bs cs ds : List α} (same : as.length = bs.length)
    (less : as < bs) : as ++ cs < bs ++ ds := by
  induction as generalizing bs with
  | nil =>
    have empty : bs = [] := List.length_eq_zero_iff.1 same.symm
    exact absurd less (by simp [empty])
  | cons a as ih =>
    cases bs with
    | nil => simp at same
    | cons b bs =>
      rw [List.cons_append, List.cons_append, List.cons_lt_cons_iff]
      rcases List.cons_lt_cons_iff.1 less with first | ⟨rfl, rest⟩
      · exact .inl first
      · exact .inr ⟨rfl, ih (by simpa using same) rest⟩

/-- Numbers one after another, each padded to its width and with its mark behind it. -/
def stamp : List (Nat × List Char) → List Nat → List Char
  | (width, mark) :: form, n :: ns => padded width n ++ (mark ++ stamp form ns)
  | _, _ => []

/-- There is one number for each width, which it does not pass. -/
def Fits (form : List (Nat × List Char)) (ns : List Nat) : Prop :=
  List.Forall₂ (fun place n => 0 < place.1 ∧ n < 10 ^ place.1) form ns

variable {form : List (Nat × List Char)} {ns ns' : List Nat}

/-- Where numbers fit their widths, the first one that differs decides the order of the stamps. -/
theorem stamp_lt_stamp (fits : Fits form ns) (fits' : Fits form ns') (less : ns < ns') :
    stamp form ns < stamp form ns' := by
  induction fits generalizing ns' with
  | nil =>
    cases fits'
    exact absurd less (List.lt_irrefl [])
  | @cons place n form ns bound _ ih =>
    obtain ⟨width, mark⟩ := place
    cases fits' with
    | @cons _ n' _ ns' bound' more' =>
      rw [stamp, stamp]
      rcases List.cons_lt_cons_iff.1 less with first | ⟨rfl, rest⟩
      · refine append_lt_append ?_ (padded_lt_padded bound'.1 bound'.2 first)
        rw [length_padded bound.1 bound.2, length_padded bound'.1 bound'.2]
      · exact List.append_left_lt (List.append_left_lt (ih more' rest))

end PathPattern.Integer
