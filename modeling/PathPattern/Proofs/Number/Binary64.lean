import Mathlib.Tactic.Ring
import PathPattern.Number.Binary64
import PathPattern.Number.Integer

/-!
# Which decimals are doubles

A quotient rounds to a double unless it lies half a place or more past the largest one
(`ofRatio_eq_none_iff`). A natural number rounds to 53 significant bits (`round53`). So of a significand
and a power of ten it can be told which pairs have a double: the two are rounded on their own, and their
product must not be too large (`ofDecimal_eq_none_iff`).
-/

namespace PathPattern.Binary64

variable {num den n t : Nat} {x y : Binary64} {e : Int}

/-- Half a place past the largest double; what lies there rounds past it. -/
def bound : Nat := (2 ^ 54 - 1) * 2 ^ 970

/-! ### Rounding quotients -/

/-- A quotient rounds to a number or past it if it lies above the middle below that number, or in the
middle with an even number. -/
theorem le_roundQuotient_iff (den_pos : 0 < den) : t + 1 ≤ roundQuotient num den ↔
    (2 * t + 1) * den < 2 * num ∨ ((2 * t + 1) * den = 2 * num ∧ t % 2 = 1) := by
  have split := Nat.div_add_mod num den
  have below := Nat.mod_lt num den_pos
  have twice : (2 * t + 1) * den = 2 * (den * t) + den := by ring
  unfold roundQuotient
  rw [twice]
  dsimp only
  rcases Nat.lt_trichotomy t (num / den) with less | rfl | more
  · have far : den * (t + 1) ≤ den * (num / den) := Nat.mul_le_mul_left den less
    rw [Nat.mul_add, Nat.mul_one] at far
    split <;> omega
  · split <;> omega
  · have far : den * (num / den + 1) ≤ den * t := Nat.mul_le_mul_left den more
    rw [Nat.mul_add, Nat.mul_one] at far
    split <;> omega

theorem roundQuotient_le (den_pos : 0 < den) (le : num ≤ t * den) : roundQuotient num den ≤ t := by
  apply Nat.not_lt.1
  intro more
  have twice : (2 * t + 1) * den = 2 * (t * den) + den := by ring
  rcases (le_roundQuotient_iff den_pos).1 more with past | ⟨middle, -⟩
  · omega
  · omega

/-- The logarithm of a quotient tells the powers of two up to it. -/
theorem le_log2Quotient_iff (num_pos : 0 < num) (den_pos : 0 < den) :
    (n : Int) ≤ log2Quotient num den ↔ den * 2 ^ n ≤ num := by
  have num_low : 2 ^ num.log2 ≤ num := Nat.log2_self_le (by omega)
  have num_high : num < 2 ^ (num.log2 + 1) := Nat.lt_log2_self
  have den_low : 2 ^ den.log2 ≤ den := Nat.log2_self_le (by omega)
  have den_high : den < 2 ^ (den.log2 + 1) := Nat.lt_log2_self
  unfold log2Quotient
  dsimp only
  rcases Nat.lt_trichotomy num.log2 (den.log2 + n) with less | same | more
  · -- The quotient is below the power.
    have small : num < den * 2 ^ n := by
      calc num < 2 ^ (num.log2 + 1) := num_high
        _ ≤ 2 ^ (den.log2 + n) := Nat.pow_le_pow_right (by decide) less
        _ = 2 ^ den.log2 * 2 ^ n := Nat.pow_add 2 _ _
        _ ≤ den * 2 ^ n := Nat.mul_le_mul_right _ den_low
    split <;> omega
  · have up : ((num.log2 : Int) - den.log2).toNat = n := by omega
    have down : (-((num.log2 : Int) - den.log2)).toNat = 0 := by omega
    simp only [up, down, Nat.pow_eq, Nat.pow_zero, Nat.mul_one]
    split <;> omega
  · -- The quotient is above the power.
    have large : den * 2 ^ n ≤ num := by
      calc den * 2 ^ n ≤ 2 ^ (den.log2 + 1) * 2 ^ n := Nat.mul_le_mul_right _ den_high.le
        _ = 2 ^ (den.log2 + 1 + n) := (Nat.pow_add 2 _ _).symm
        _ ≤ 2 ^ num.log2 := Nat.pow_le_pow_right (by decide) (by omega)
        _ ≤ num := num_low
    split <;> omega

/-! ### Doubles of quotients -/

/-- The exponent of the last place that a double of the size of a quotient has. -/
def place (num den : Nat) : Int := max (-1074) (log2Quotient num den - 52)

/-- The quotient in units of that place. -/
def units (num den : Nat) : Nat :=
  roundQuotient (num * 2 ^ (-place num den).toNat) (den * 2 ^ (place num den).toNat)

/-- The mantissa is the number of units, unless they are rounded up to the next power of two. -/
theorem ofRatio_eq (num_pos : 0 < num) : ofRatio num den =
    if units num den = 2 ^ 53 then
      if place num den + 1 ≤ 971 then some ⟨2 ^ 52, place num den + 1⟩ else none
    else if place num den ≤ 971 then some ⟨units num den, place num den⟩ else none := by
  simp only [ofRatio, Nat.pow_eq, if_neg (by omega : ¬num = 0)]
  unfold units place
  split <;> rfl

/-- At the last exponent, the units are rounded up to the next power of two from the bound on. -/
theorem units_eq_iff_of_last (last : place num den = 971) (den_pos : 0 < den)
    (small : num < den * 2 ^ 1024) : units num den = 2 ^ 53 ↔ den * bound ≤ num := by
  have up_to : (place num den).toNat = 971 := by omega
  have down_to : (-place num den).toNat = 0 := by omega
  have width : (0 : Nat) < 2 ^ 971 := by decide +kernel
  have width_pos : 0 < den * 2 ^ 971 := Nat.mul_pos den_pos width
  have at_most : roundQuotient num (den * 2 ^ 971) ≤ 2 ^ 53 := by
    have split : (2 : Nat) ^ 1024 = 2 ^ 53 * 2 ^ 971 := by decide +kernel
    apply roundQuotient_le width_pos
    calc num ≤ den * 2 ^ 1024 := small.le
      _ = den * (2 ^ 53 * 2 ^ 971) := by rw [split]
      _ = 2 ^ 53 * (den * 2 ^ 971) := Nat.mul_left_comm ..
  have twice : (2 * (2 ^ 53 - 1) + 1) * (den * 2 ^ 971) = 2 * (den * bound) := by
    have double : (2 : Nat) ^ 971 = 2 * 2 ^ 970 := by decide +kernel
    unfold bound
    rw [double]
    generalize (2 : Nat) ^ 970 = w
    ring
  have reach : 2 ^ 53 - 1 + 1 ≤ roundQuotient num (den * 2 ^ 971) ↔ _ :=
    le_roundQuotient_iff width_pos
  rw [twice] at reach
  rw [units, up_to, down_to, Nat.pow_zero, Nat.mul_one]
  omega

/-- No more quotients have a double than lie below the bound. -/
theorem ofRatio_eq_none_iff (num_pos : 0 < num) (den_pos : 0 < den) :
    ofRatio num den = none ↔ bound * den ≤ num := by
  have at_1023 := le_log2Quotient_iff (n := 1023) num_pos den_pos
  have at_1024 := le_log2Quotient_iff (n := 1024) num_pos den_pos
  have low : 2 ^ 1023 ≤ bound := by decide +kernel
  have high : bound ≤ 2 ^ 1024 := by decide +kernel
  have low := Nat.mul_le_mul_left den low
  have high := Nat.mul_le_mul_left den high
  rw [Nat.mul_comm bound, ofRatio_eq num_pos]
  rcases Int.lt_trichotomy (log2Quotient num den) 1023 with less | same | more
  · -- The exponent fits, even if the units are rounded up to the next power of two.
    have small : ¬den * 2 ^ 1023 ≤ num := fun le => absurd (at_1023.2 le) (by omega)
    have fits : place num den + 1 ≤ 971 := by
      unfold place
      omega
    rw [if_pos fits, if_pos (by omega : place num den ≤ 971)]
    have noDouble : ¬den * bound ≤ num := by omega
    by_cases up : units num den = 2 ^ 53
    · simp only [if_pos up, reduceCtorEq, noDouble]
    · simp only [if_neg up, reduceCtorEq, noDouble]
  · -- The exponent is the last one, so it is rounding up that decides.
    have last : place num den = 971 := by
      unfold place
      omega
    have small : num < den * 2 ^ 1024 := Nat.not_le.1 fun le => absurd (at_1024.2 le) (by omega)
    rw [if_neg (by omega : ¬place num den + 1 ≤ 971), if_pos (by omega : place num den ≤ 971),
      ← units_eq_iff_of_last last den_pos small]
    by_cases up : units num den = 2 ^ 53
    · rw [if_pos up]
      simp only [up]
    · rw [if_neg up]
      simp only [up, reduceCtorEq]
  · have large : den * 2 ^ 1024 ≤ num := at_1024.1 (by omega)
    have past : ¬place num den ≤ 971 := by
      unfold place
      omega
    rw [if_neg past, if_neg (by omega : ¬place num den + 1 ≤ 971), ite_self, eq_self, true_iff]
    omega

/-- A quotient below one has a double, and that is not above one. -/
theorem exists_ofRatio_of_lt (less : num < den) :
    ∃ x, ofRatio num den = some x ∧ x.num ≤ x.den := by
  rcases Nat.eq_zero_or_pos num with rfl | num_pos
  · exact ⟨⟨0, -1074⟩, rfl, Nat.zero_le _⟩
  have den_pos : 0 < den := by omega
  have negative : ¬((0 : Nat) : Int) ≤ log2Quotient num den := by
    rw [le_log2Quotient_iff num_pos den_pos]
    omega
  obtain ⟨j, down⟩ : ∃ j : Nat, place num den = -(j + 1 : Nat) := by
    refine ⟨(-place num den - 1).toNat, ?_⟩
    unfold place
    omega
  have at_most : units num den ≤ 2 ^ (j + 1) := by
    have up_to : (place num den).toNat = 0 := by omega
    have down_to : (-place num den).toNat = j + 1 := by omega
    rw [units, up_to, down_to, Nat.pow_zero, Nat.mul_one]
    refine roundQuotient_le den_pos ?_
    rw [Nat.mul_comm]
    exact Nat.mul_le_mul_left _ less.le
  rw [ofRatio_eq num_pos, if_pos (by omega : place num den + 1 ≤ 971),
    if_pos (by omega : place num den ≤ 971)]
  by_cases up : units num den = 2 ^ 53
  · refine ⟨_, if_pos up, ?_⟩
    have half : 2 ^ 52 ≤ 2 ^ j := by
      rw [up, Nat.pow_succ 2 j] at at_most
      omega
    have exponent : (place num den + 1).toNat = 0 ∧ (-(place num den + 1)).toNat = j := by omega
    rw [Binary64.num, Binary64.den, exponent.1, exponent.2]
    simpa using half
  · refine ⟨_, if_neg up, ?_⟩
    have exponent : (place num den).toNat = 0 ∧ (-place num den).toNat = j + 1 := by omega
    rw [Binary64.num, Binary64.den, exponent.1, exponent.2]
    simpa using at_most

/-! ### Doubles of natural numbers -/

/-- The number rounded to 53 significant bits, a tie to the even last bit. -/
def round53 (n : Nat) : Nat :=
  roundQuotient n (2 ^ (n.log2 - 52)) * 2 ^ (n.log2 - 52)

theorem roundQuotient_one (n : Nat) : roundQuotient n 1 = n := by
  simp [roundQuotient, Nat.mod_one]

theorem le_roundQuotient (den_pos : 0 < den) (le : t * den ≤ num) : t ≤ roundQuotient num den := by
  cases t with
  | zero => exact Nat.zero_le _
  | succ t =>
    refine (le_roundQuotient_iff den_pos).2 (.inl ?_)
    have twice : (2 * t + 1) * den + den = 2 * ((t + 1) * den) := by ring
    omega

/-- Rounding does not leave the powers of two around a number. -/
theorem round53_bounds (n_pos : 0 < n) :
    2 ^ n.log2 ≤ round53 n ∧ round53 n ≤ 2 ^ (n.log2 + 1) := by
  have low : 2 ^ n.log2 ≤ n := Nat.log2_self_le (by omega)
  have high : n < 2 ^ (n.log2 + 1) := Nat.lt_log2_self
  have width : 0 < 2 ^ (n.log2 - 52) := Nat.pow_pos (by decide)
  have split (m : Nat) (le : n.log2 - 52 ≤ m) :
      2 ^ (m - (n.log2 - 52)) * 2 ^ (n.log2 - 52) = 2 ^ m := by
    rw [← Nat.pow_add, Nat.sub_add_cancel le]
  have from_low := split n.log2 (by omega)
  have to_high := split (n.log2 + 1) (by omega)
  constructor
  · rw [← from_low]
    exact Nat.mul_le_mul_right _ (le_roundQuotient width (by omega))
  · rw [← to_high]
    exact Nat.mul_le_mul_right _ (roundQuotient_le width (by omega))

theorem den_pos (x : Binary64) : 0 < x.den := Nat.pow_pos (by decide)

theorem log2Quotient_one (n_pos : 0 < n) : log2Quotient n 1 = n.log2 := by
  have low : 2 ^ n.log2 ≤ n := Nat.log2_self_le (by omega)
  have one : Nat.log2 1 = 0 := by decide
  have exponent : ((n.log2 : Int) - (0 : Nat)).toNat = n.log2 ∧
      (-((n.log2 : Int) - (0 : Nat))).toNat = 0 := by omega
  unfold log2Quotient
  rw [one]
  simp only [exponent, Nat.pow_eq, Nat.one_mul, Nat.pow_zero, Nat.mul_one, if_pos low]
  omega

/-- The double of a natural number is worth the number rounded to 53 bits. -/
theorem num_eq_of_ofRatio (n_pos : 0 < n) (rounded : ofRatio n 1 = some x) :
    x.num = round53 n * x.den := by
  have at_place : place n 1 = n.log2 - 52 := by
    rw [place, log2Quotient_one n_pos]
    omega
  rw [ofRatio_eq n_pos] at rounded
  rcases Nat.le_total 52 n.log2 with long | short
  · obtain ⟨k, size⟩ : ∃ k, n.log2 = k + 52 := ⟨n.log2 - 52, by omega⟩
    have at_k : place n 1 = (k : Nat) := by omega
    have whole : units n 1 = roundQuotient n (2 ^ k) := by
      rw [units, at_k]
      simp
    have value : round53 n = units n 1 * 2 ^ k := by
      rw [round53, whole, size, Nat.add_sub_cancel]
    rw [at_k] at rounded
    by_cases up : units n 1 = 2 ^ 53
    · rw [if_pos up] at rounded
      split at rounded
      · obtain rfl := Option.some.inj rounded
        have exponent : ((k : Int) + 1).toNat = k + 1 ∧ (-((k : Int) + 1)).toNat = 0 := by omega
        simp only [Binary64.num, Binary64.den, exponent, value, up, Nat.pow_eq]
        ring
      · cases rounded
    · rw [if_neg up] at rounded
      split at rounded
      · obtain rfl := Option.some.inj rounded
        have exponent : ((k : Int)).toNat = k ∧ (-(k : Int)).toNat = 0 := by omega
        simp only [Binary64.num, Binary64.den, exponent, value, Nat.pow_eq]
        ring
      · cases rounded
  · obtain ⟨j, size⟩ : ∃ j, n.log2 + j = 52 := ⟨52 - n.log2, by omega⟩
    have at_j : place n 1 = -(j : Nat) := by omega
    have exponent : (-(j : Int)).toNat = 0 ∧ (- -(j : Int)).toNat = j := by omega
    have whole : units n 1 = n * 2 ^ j := by
      rw [units, at_j]
      simp [exponent, roundQuotient_one]
    have value : round53 n = n := by
      rw [round53, Nat.sub_eq_zero_of_le short, Nat.pow_zero, roundQuotient_one, Nat.mul_one]
    have below : units n 1 < 2 ^ 53 := by
      have power : 2 ^ (n.log2 + 1) * 2 ^ j = 2 ^ 53 := by
        rw [← Nat.pow_add]
        congr 1
        omega
      rw [whole, ← power]
      exact Nat.mul_lt_mul_of_pos_right Nat.lt_log2_self (Nat.pow_pos (by decide))
    rw [if_neg (by omega : ¬units n 1 = 2 ^ 53), if_pos (by omega : place n 1 ≤ 971)] at rounded
    obtain rfl := Option.some.inj rounded
    rw [Binary64.num, Binary64.den, at_j, whole, value]
    simp [exponent]

/-! ### Powers of ten -/

theorem exists_tenTo {k : Nat} (small : k ≤ 308) :
    ∃ p, tenTo k = some p ∧ p.num = round53 (10 ^ k) * p.den := by
  have pos : 0 < 10 ^ k := Nat.pow_pos (by decide)
  have below : ¬bound * 1 ≤ 10 ^ k := by
    have most {m : Nat} (le : k ≤ m) : 10 ^ k ≤ 10 ^ m := Nat.pow_le_pow_right (by decide) le
    have last : 10 ^ 308 < bound := by decide +kernel
    rw [Nat.mul_one]
    exact Nat.not_le.2 (lt_of_le_of_lt (most small) last)
  cases rounded : tenTo k with
  | none => exact absurd ((ofRatio_eq_none_iff pos (by decide)).1 rounded) below
  | some p => exact ⟨p, rfl, num_eq_of_ofRatio pos rounded⟩

/-- A power of ten rounds to two or more. -/
theorem two_le_round53_ten {k : Nat} (some : 0 < k) : 2 ≤ round53 (10 ^ k) := by
  have ten : 10 ^ 1 ≤ 10 ^ k := Nat.pow_le_pow_right (by decide) some
  have size : 1 ≤ (10 ^ k).log2 := (Nat.le_log2 (by omega)).2 (by omega)
  calc 2 = 2 ^ 1 := rfl
    _ ≤ 2 ^ (10 ^ k).log2 := Nat.pow_le_pow_right (by decide) size
    _ ≤ round53 (10 ^ k) := (round53_bounds (by omega)).1

section Steps

variable {a b : Nat} (x_worth : x.num = a * x.den) (y_worth : y.num = b * y.den)

include x_worth y_worth

/-- A product is too large for a double if the exact one is. -/
theorem mul_eq_none_iff (a_pos : 0 < a) (b_pos : 0 < b) : x.mul y = none ↔ bound ≤ a * b := by
  have dens : 0 < x.den * y.den := Nat.mul_pos x.den_pos y.den_pos
  have nums : x.num * y.num = a * b * (x.den * y.den) := by
    rw [x_worth, y_worth]
    ring
  rw [mul, nums, ofRatio_eq_none_iff (Nat.mul_pos (Nat.mul_pos a_pos b_pos) dens) dens]
  exact Nat.mul_le_mul_right_iff dens

/-- A quotient of natural numbers is too large only if the dividend is. -/
theorem div_ne_none (a_pos : 0 < a) (b_pos : 0 < b) (small : a < bound) : x.div y ≠ none := by
  intro none
  have dens : 0 < x.den * y.den := Nat.mul_pos x.den_pos y.den_pos
  have top : x.num * y.den = a * (x.den * y.den) := by
    rw [x_worth]
    ring
  have bottom : x.den * y.num = b * (x.den * y.den) := by
    rw [y_worth]
    ring
  rw [div, top, bottom, ofRatio_eq_none_iff (Nat.mul_pos a_pos dens) (Nat.mul_pos b_pos dens),
    ← Nat.mul_assoc, Nat.mul_le_mul_right_iff dens] at none
  have least : bound * 1 ≤ bound * b := Nat.mul_le_mul_left bound b_pos
  omega

/-- A quotient of a number by a larger one is at most one. -/
theorem exists_div_of_lt (less : a < b) : ∃ z, x.div y = some z ∧ z.num ≤ z.den := by
  have dens : 0 < x.den * y.den := Nat.mul_pos x.den_pos y.den_pos
  apply exists_ofRatio_of_lt
  calc x.num * y.den = a * (x.den * y.den) := by rw [x_worth]; ring
    _ < b * (x.den * y.den) := Nat.mul_lt_mul_of_pos_right less dens
    _ = x.den * y.num := by rw [y_worth]; ring

end Steps

/-- Divided by a power of ten, what is at most one stays so. -/
theorem exists_scaleOnce_of_le (le : x.num ≤ x.den) (negative : e < 0) (near : e.natAbs ≤ 308) :
    ∃ z, x.scaleOnce e = some z ∧ z.num ≤ z.den := by
  obtain ⟨p, power, worth⟩ := exists_tenTo near
  have two := two_le_round53_ten (k := e.natAbs) (by omega)
  obtain ⟨z, rounded, small⟩ : ∃ z, x.div p = some z ∧ z.num ≤ z.den := by
    apply exists_ofRatio_of_lt
    have dens : 0 < x.den * p.den := Nat.mul_pos x.den_pos p.den_pos
    calc x.num * p.den ≤ 1 * (x.den * p.den) := by
          rw [Nat.one_mul]
          exact Nat.mul_le_mul_right _ le
      _ < round53 (10 ^ e.natAbs) * (x.den * p.den) := Nat.mul_lt_mul_of_pos_right two dens
      _ = x.den * p.num := by rw [worth]; ring
  refine ⟨z, ?_, small⟩
  rw [scaleOnce, power, Option.bind_some, if_neg (by omega), rounded]

/-- So any negative power of ten is reached. -/
theorem scaleByTen_ne_none (le : x.num ≤ x.den) (negative : e < 0) (steps : Nat) :
    scaleByTen steps e x ≠ none := by
  induction steps generalizing x e with
  | zero => exact Option.some_ne_none x
  | succ steps ih =>
    rw [scaleByTen]
    split
    · exact Option.some_ne_none x
    split
    · next near =>
      obtain ⟨z, once, -⟩ := exists_scaleOnce_of_le le negative near
      simp [once]
    · rw [if_neg (by omega)]
      obtain ⟨z, once, small⟩ := exists_scaleOnce_of_le (e := -308) le (by decide) (by decide)
      rw [once, Option.bind_some]
      exact ih small (by omega)

/-! ### Decimals -/

/-- The significand and the power of ten, each rounded to 53 bits, have a product past the largest
double, or the power is past the largest one that is a double. -/
def TooLarge (significand : Nat) (exponent : Int) : Prop :=
  significand ≠ 0 ∧
    (308 < exponent ∨ 0 ≤ exponent ∧ bound ≤ round53 significand * round53 (10 ^ exponent.toNat))

theorem round53_pos (n_pos : 0 < n) : 0 < round53 n :=
  Nat.lt_of_lt_of_le (Nat.pow_pos (by decide)) (round53_bounds n_pos).1

/-- A 64-bit significand rounds to no more than the next power of two. -/
theorem round53_le (n_pos : 0 < n) (fits : n ≤ Integer.maxUnsigned) : round53 n ≤ 2 ^ 64 := by
  have size : n.log2 < 64 := by
    refine (Nat.log2_lt (by omega)).2 ?_
    unfold Integer.maxUnsigned at fits
    omega
  exact (round53_bounds n_pos).2.trans (Nat.pow_le_pow_right (by decide) size)

theorem scaleByTen_eq_none_iff (worth : x.num = n * x.den) (n_pos : 0 < n) (small : n ≤ 2 ^ 64)
    (steps : Nat) : scaleByTen (steps + 1) e x = none ↔
      308 < e ∨ 0 ≤ e ∧ bound ≤ n * round53 (10 ^ e.toNat) := by
  have some_mantissa : x.mantissa ≠ 0 := by
    intro none
    have nothing : x.num = 0 := by rw [Binary64.num, none, Nat.zero_mul]
    have positive := Nat.mul_pos n_pos x.den_pos
    omega
  rw [scaleByTen, if_neg some_mantissa]
  by_cases near : e.natAbs ≤ 308
  · obtain ⟨p, power, p_worth⟩ := exists_tenTo near
    have p_pos : 0 < round53 (10 ^ e.natAbs) := round53_pos (Nat.pow_pos (by decide))
    rw [if_pos near, scaleOnce, power, Option.bind_some]
    by_cases positive : 0 ≤ e
    · have same : e.natAbs = e.toNat := by omega
      rw [if_pos positive, mul_eq_none_iff worth p_worth n_pos p_pos, same]
      omega
    · have inside : n < bound := by
        have last : 2 ^ 64 < bound := by decide +kernel
        omega
      rw [if_neg positive]
      simp only [div_ne_none worth p_worth n_pos p_pos inside, false_iff]
      omega
  · rw [if_neg near]
    by_cases positive : 0 ≤ e
    · rw [if_pos positive]
      simp only [true_iff]
      omega
    · -- One division takes the number below one, where it stays.
      obtain ⟨p, power, p_worth⟩ := exists_tenTo (k := 308) (by decide)
      have less : n < round53 (10 ^ 308) := by
        have last : 2 ^ 64 < round53 (10 ^ 308) := by decide +kernel
        omega
      obtain ⟨z, divided, below⟩ := exists_div_of_lt worth p_worth less
      have once : x.scaleOnce (-308) = some z := by
        rw [scaleOnce]
        show (tenTo 308).bind (fun p => x.div p) = some z
        rw [power, Option.bind_some, divided]
      rw [if_neg positive, once, Option.bind_some]
      simp only [scaleByTen_ne_none below (e := e + 308) (by omega) steps, false_iff]
      omega

/-- Exactly the decimals that are too large have no double. -/
theorem ofDecimal_eq_none_iff (fits : n ≤ Integer.maxUnsigned) :
    ofDecimal n e = none ↔ TooLarge n e := by
  rcases Nat.eq_zero_or_pos n with rfl | n_pos
  · have zero : ofDecimal 0 e = some ⟨0, -1074⟩ := rfl
    simp [zero, TooLarge]
  cases rounded : ofRatio n 1 with
  | none =>
    have past := (ofRatio_eq_none_iff n_pos (by decide)).1 rounded
    have last : 2 ^ 64 < bound := by decide +kernel
    unfold Integer.maxUnsigned at fits
    omega
  | some x =>
    have worth := num_eq_of_ofRatio n_pos rounded
    rw [ofDecimal, rounded, Option.bind_some,
      scaleByTen_eq_none_iff worth (round53_pos n_pos) (round53_le n_pos fits) 3, TooLarge,
      and_iff_right (a := n ≠ 0) (by omega)]

end PathPattern.Binary64
