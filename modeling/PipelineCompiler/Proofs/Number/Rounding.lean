import Mathlib.Algebra.Order.Field.Power
import Mathlib.Data.Rat.Cast.Order
import Mathlib.Tactic.Linarith
import Mathlib.Tactic.NormNum
import Mathlib.Tactic.Positivity
import Mathlib.Tactic.Ring
import PipelineCompiler.Number.Binary64

/-!
# Rounding errors

Every operation on binary floating point numbers is the exact one, rounded once. A rounding moves a number
by no more than half a unit in its last place, which is `roundoff` of the number, or of the `least` number
above which that is so (`nearest?_error`). `Near` adds such errors up over a computation.
-/

namespace PipelineCompiler

/-! ## Rounding a quotient -/

/-- The rounded quotient times the denominator misses the numerator by no more than half the denominator. -/
theorem roundQuotient_mul (num : Nat) {den : Nat} (hden : 0 < den) :
    2 * (roundQuotient num den * den) ≤ 2 * num + den
      ∧ 2 * num ≤ 2 * (roundQuotient num den * den) + den := by
  have hsplit : num / den * den + num % den = num := Nat.div_add_mod' num den
  have hrest : num % den < den := Nat.mod_lt num hden
  have hup : (num / den + 1) * den = num / den * den + den := Nat.succ_mul _ _
  rw [roundQuotient]
  split
  · omega
  · split
    · omega
    · -- a tie goes one way or the other
      rcases Nat.mod_two_eq_zero_or_one (num / den) with heven | hodd
      · rw [heven, Nat.add_zero]
        omega
      · rw [hodd]
        omega

theorem roundQuotient_error (num : Nat) {den : Nat} (hden : 0 < den) :
    |(roundQuotient num den : ℚ) - num / den| ≤ 1 / 2 := by
  obtain ⟨hle, hge⟩ := roundQuotient_mul num hden
  have hpos : (0 : ℚ) < den := by exact_mod_cast hden
  have hleQ : 2 * ((roundQuotient num den : ℚ) * den) ≤ 2 * num + den := by exact_mod_cast hle
  have hgeQ : 2 * (num : ℚ) ≤ 2 * (roundQuotient num den * den) + den := by exact_mod_cast hge
  rw [abs_sub_le_iff]
  constructor
  · rw [sub_le_iff_le_add', ← sub_le_iff_le_add, le_div_iff₀ hpos]
    linarith
  · rw [sub_le_iff_le_add', div_le_iff₀ hpos]
    linarith

/-! ## Rounding to a floating point number -/

namespace Magnitude

/-- The number that is held. -/
def value (x : Magnitude) : ℚ := x.mant * 2 ^ x.exp

/-- What a rounding may add to a number for each unit of it. -/
def roundoff : ℚ := 2 ^ (-53 : Int)

/-- The number below which roundings become no finer. -/
def least : ℚ := 2 ^ (-1022 : Int)

theorem roundoff_pos : 0 < roundoff := zpow_pos two_pos _

theorem least_pos : 0 < least := zpow_pos two_pos _

theorem value_nonneg (x : Magnitude) : 0 ≤ x.value :=
  mul_nonneg (Nat.cast_nonneg _) (zpow_nonneg zero_le_two _)

/-- An integer power of two, by the natural powers that computations use. -/
theorem two_zpow_of_nonneg {e : Int} (h : 0 ≤ e) : (2 : ℚ) ^ e = ((Nat.pow 2 e.toNat : Nat) : ℚ) := by
  obtain ⟨n, rfl⟩ := Int.eq_ofNat_of_zero_le h
  simp

theorem two_zpow_of_neg {e : Int} (h : ¬ 0 ≤ e) :
    (2 : ℚ) ^ e = ((Nat.pow 2 (-e).toNat : Nat) : ℚ)⁻¹ := by
  rw [← two_zpow_of_nonneg (by omega : 0 ≤ -e), ← zpow_neg, neg_neg]

theorem fraction_den_pos (x : Magnitude) : 0 < x.fraction.2 := by
  rw [fraction]
  split
  · exact Nat.one_pos
  · exact Nat.two_pow_pos _

theorem fraction_div (x : Magnitude) : (x.fraction.1 : ℚ) / x.fraction.2 = x.value := by
  rw [fraction, value]
  split
  · next h => rw [two_zpow_of_nonneg h, Nat.cast_mul, Nat.cast_one, div_one]
  · next h => rw [two_zpow_of_neg h, div_eq_mul_inv]

theorem scaled_den_pos (num : Nat) {den : Nat} (hden : 0 < den) (e : Int) : 0 < (scaled num den e).2 := by
  rw [scaled]
  split
  · exact Nat.mul_pos hden (Nat.two_pow_pos _)
  · exact hden

theorem scaled_div (num den : Nat) (e : Int) :
    ((scaled num den e).1 : ℚ) / (scaled num den e).2 = num / den / 2 ^ e := by
  rw [scaled]
  split
  · next h => rw [two_zpow_of_nonneg h, Nat.cast_mul, div_div]
  · next h => rw [two_zpow_of_neg h, Nat.cast_mul, div_inv_eq_mul, mul_div_right_comm]

/-- At the exponent that is tried first a quotient has 53 bits before the point, or one more. -/
theorem le_of_log2 {num den : Nat} (hnum : num ≠ 0) (hden : 0 < den) :
    (2 : ℚ) ^ ((num.log2 : Int) - (den.log2 : Int) - 53 + 52) ≤ num / den := by
  have hlow : ((2 ^ num.log2 : Nat) : ℚ) ≤ num := by exact_mod_cast Nat.log2_self_le hnum
  have hhigh : (den : ℚ) ≤ ((2 ^ (den.log2 + 1) : Nat) : ℚ) := by
    exact_mod_cast Nat.lt_log2_self.le
  have hpos : (0 : ℚ) < den := by exact_mod_cast hden
  have hexp : (num.log2 : Int) - (den.log2 : Int) - 53 + 52 = num.log2 - ((den.log2 + 1 : Nat) : Int) := by
    omega
  rw [hexp, zpow_sub₀ two_ne_zero, zpow_natCast, zpow_natCast]
  push_cast at hlow hhigh
  exact div_le_div₀ (Nat.cast_nonneg _) hlow hpos hhigh

/-- At the exponent of its last place a quotient has 53 bits before the point, unless numbers become no
finer. -/
theorem unitExponent_spec {num den : Nat} (hnum : num ≠ 0) (hden : 0 < den) :
    unitExponent num den = -1074 ∨ (2 : ℚ) ^ (unitExponent num den + 52) ≤ num / den := by
  -- the exponent that is tried first, and the one that is chosen after a look at the quotient there
  obtain ⟨first, hfirst⟩ : ∃ e : Int, e = (num.log2 : Int) - (den.log2 : Int) - 53 := ⟨_, rfl⟩
  obtain ⟨chosen, hchosen⟩ : ∃ e, e =
      if (scaled num den first).2 * Nat.pow 2 53 ≤ (scaled num den first).1 then first + 1 else first :=
    ⟨_, rfl⟩
  have hexponent : unitExponent num den = max chosen (-1074) := by
    rw [hchosen, hfirst]
    rfl
  have htried : (2 : ℚ) ^ (first + 52) ≤ num / den := hfirst ▸ le_of_log2 hnum hden
  have hbits : (2 : ℚ) ^ (chosen + 52) ≤ num / den := by
    split at hchosen
    · next hmany =>
        have hpos : (0 : ℚ) < (scaled num den first).2 := by exact_mod_cast scaled_den_pos num hden first
        have hmanyQ : (2 : ℚ) ^ 53 ≤ num / den / 2 ^ first := by
          rw [← scaled_div, le_div_iff₀ hpos, mul_comm]
          exact_mod_cast hmany
        rw [le_div_iff₀ (zpow_pos two_pos first), ← zpow_natCast, ← zpow_add₀ two_ne_zero] at hmanyQ
        have hsame : chosen + 52 = ((53 : Nat) : Int) + first := by omega
        rwa [hsame]
    · rwa [hchosen]
  rw [hexponent]
  rcases le_total chosen (-1074) with hleast | hleast
  · exact .inl (max_eq_right hleast)
  · rw [max_eq_left hleast]
    exact .inr hbits

theorem value_carried (m : Nat) (e : Int) : (carried m e).value = m * 2 ^ e := by
  rw [carried]
  split
  · next hcarry =>
      have hdouble : Nat.pow 2 53 = Nat.pow 2 52 * 2 := rfl
      rw [value, hcarry, hdouble, zpow_add_one₀ two_ne_zero, Nat.cast_mul, Nat.cast_two, mul_assoc,
        mul_comm (2 : ℚ)]
  · rfl

/-- Rounding at an exponent moves a number by no more than half a unit there. -/
theorem roundedAt_error (num : Nat) {den : Nat} (hden : 0 < den) (e : Int) :
    |(roundedAt num den e).value - num / den| ≤ 1 / 2 * 2 ^ e := by
  have hunit : (0 : ℚ) < 2 ^ e := zpow_pos two_pos e
  have herror := roundQuotient_error (scaled num den e).1 (scaled_den_pos num hden e)
  rw [scaled_div] at herror
  calc |(roundedAt num den e).value - num / den|
      = |(roundQuotient (scaled num den e).1 (scaled num den e).2 : ℚ) - num / den / 2 ^ e| * 2 ^ e := by
        rw [roundedAt, value_carried, ← abs_of_pos hunit, ← abs_mul, abs_of_pos hunit, sub_mul,
          div_mul_cancel₀ _ hunit.ne']
    _ ≤ 1 / 2 * 2 ^ e := mul_le_mul_of_nonneg_right herror hunit.le

/-- Rounding moves a number by no more than `roundoff` of it, or of `least`. -/
theorem nearest?_error {num den : Nat} (hden : 0 < den) {x : Magnitude} (h : nearest? num den = some x) :
    |x.value - num / den| ≤ roundoff * max ((num : ℚ) / den) least := by
  rw [nearest?] at h
  split at h
  · next hzero =>
      obtain rfl := Option.some.inj h
      have hbound : 0 ≤ roundoff * max 0 least := mul_nonneg roundoff_pos.le (le_max_left _ _)
      simpa [value, hzero] using hbound
  next hnum =>
  obtain ⟨-, h⟩ := Option.ite_none_right_eq_some.1 h
  obtain rfl := Option.some.inj h
  refine (roundedAt_error num hden _).trans ?_
  rcases unitExponent_spec hnum hden with hleast | hbits
  · -- numbers are as close together as they get
    have hunderflow : 1 / 2 * (2 : ℚ) ^ unitExponent num den = roundoff * least := by
      rw [hleast, roundoff, least, ← zpow_add₀ two_ne_zero, one_div, ← zpow_neg_one,
        ← zpow_add₀ two_ne_zero]
      norm_num
    rw [hunderflow]
    exact mul_le_mul_of_nonneg_left (le_max_right _ _) roundoff_pos.le
  · have hrelative : 1 / 2 * (2 : ℚ) ^ unitExponent num den
        = roundoff * 2 ^ (unitExponent num den + 52) := by
      rw [roundoff, one_div, ← zpow_neg_one, ← zpow_add₀ two_ne_zero, ← zpow_add₀ two_ne_zero]
      congr 1
      ring
    rw [hrelative]
    exact mul_le_mul_of_nonneg_left (hbits.trans (le_max_left _ _)) roundoff_pos.le

theorem mul?_error {x y z : Magnitude} (h : x.mul? y = some z) :
    |z.value - x.value * y.value| ≤ roundoff * max (x.value * y.value) least := by
  have herror := nearest?_error (Nat.mul_pos x.fraction_den_pos y.fraction_den_pos) h
  rwa [Nat.cast_mul, Nat.cast_mul, mul_div_mul_comm, fraction_div, fraction_div] at herror

/-! ## Numbers that can be held -/

/-- The number from which on roundings may find none that is near. -/
def limit : ℚ := 2 ^ (1023 : Int)

theorem exp_roundedAt_le (num den : Nat) (e : Int) : (roundedAt num den e).exp ≤ e + 1 := by
  have hcarried (m : Nat) : (carried m e).exp ≤ e + 1 := by
    rw [carried]
    split
    · exact le_rfl
    · exact (lt_add_one e).le
  rw [roundedAt]
  exact hcarried _

/-- There is a nearest number to a quotient below the limit. -/
theorem exists_nearest? {num den : Nat} (hden : 0 < den) (h : (num : ℚ) / den < limit) :
    ∃ x, nearest? num den = some x := by
  rw [limit] at h
  rw [nearest?]
  split
  · exact ⟨_, rfl⟩
  next hnum =>
  have hexponent : unitExponent num den ≤ 970 := by
    rcases unitExponent_spec hnum hden with hleast | hbits
    · omega
    · have hlt := (zpow_lt_zpow_iff_right₀ one_lt_two).1 (hbits.trans_lt h)
      omega
  have hexp : (roundedAt num den (unitExponent num den)).exp ≤ 971 :=
    (exp_roundedAt_le num den _).trans (by omega)
  exact ⟨_, if_pos hexp⟩

theorem exists_mul? {x y : Magnitude} (h : x.value * y.value < limit) : ∃ z, x.mul? y = some z := by
  refine exists_nearest? (Nat.mul_pos x.fraction_den_pos y.fraction_den_pos) ?_
  rwa [Nat.cast_mul, Nat.cast_mul, mul_div_mul_comm, fraction_div, fraction_div]

/-- Numerators that are brought to one denominator add up to the sum. -/
theorem sum_div (x y : Magnitude) :
    ((x.fraction.1 * y.fraction.2 + y.fraction.1 * x.fraction.2 : Nat) : ℚ)
      / ((x.fraction.2 * y.fraction.2 : Nat) : ℚ) = x.value + y.value := by
  have hx : (x.fraction.2 : ℚ) ≠ 0 := by exact_mod_cast x.fraction_den_pos.ne'
  have hy : (y.fraction.2 : ℚ) ≠ 0 := by exact_mod_cast y.fraction_den_pos.ne'
  rw [← fraction_div x, ← fraction_div y, div_add_div _ _ hx hy]
  push_cast
  ring

theorem exists_add? {x y : Magnitude} (h : x.value + y.value < limit) : ∃ z, x.add? y = some z := by
  refine exists_nearest? (Nat.mul_pos x.fraction_den_pos y.fraction_den_pos) ?_
  rwa [sum_div]

theorem add?_error {x y z : Magnitude} (h : x.add? y = some z) :
    |z.value - (x.value + y.value)| ≤ roundoff * max (x.value + y.value) least := by
  have herror := nearest?_error (Nat.mul_pos x.fraction_den_pos y.fraction_den_pos) h
  rwa [sum_div] at herror

end Magnitude

/-! ## Errors of a computation -/

/-- After `k` roundings the number `x` stands for the number `q`. What is lost is relative to `q` and to a
tiny number, below which roundings may lose everything. -/
def Near (k : Nat) (tiny x q : ℚ) : Prop := |x - q| ≤ ((1 + Magnitude.roundoff) ^ k - 1) * (q + tiny)

namespace Near

open Magnitude (roundoff roundoff_pos least least_pos)

variable {k : Nat} {tiny x q : ℚ}

theorem factor_nonneg (k : Nat) : 0 ≤ (1 + roundoff) ^ k - 1 :=
  sub_nonneg.2 (one_le_pow₀ (le_add_of_nonneg_right roundoff_pos.le))

/-- A few roundings lose no more than twice `roundoff` each. -/
theorem factor_le {k : Nat} (hk : k ≤ 2 ^ 52) : (1 + roundoff) ^ k - 1 ≤ 2 * k * roundoff := by
  induction k with
  | zero => simp
  | succ k ih =>
      have hbefore : (1 + roundoff) ^ k ≤ 1 + 2 * k * roundoff := by linarith [ih (by omega)]
      have hfew : 2 * (k : ℚ) * roundoff ≤ 1 := by
        have hk' : (k : ℚ) ≤ 2 ^ 52 := by exact_mod_cast (by omega : k ≤ 2 ^ 52)
        rw [roundoff]
        norm_num
        linarith
      have hproduct : 2 * (k : ℚ) * roundoff * roundoff ≤ 1 * roundoff :=
        mul_le_mul_of_nonneg_right hfew roundoff_pos.le
      calc (1 + roundoff) ^ (k + 1) - 1 = (1 + roundoff) ^ k * (1 + roundoff) - 1 := by rw [pow_succ]
        _ ≤ (1 + 2 * k * roundoff) * (1 + roundoff) - 1 :=
            sub_le_sub_right (mul_le_mul_of_nonneg_right hbefore (by linarith [roundoff_pos])) 1
        _ ≤ 2 * ((k + 1 : Nat) : ℚ) * roundoff := by
            push_cast
            linarith

theorem exact (k : Nat) (hq : 0 ≤ q) (htiny : 0 ≤ tiny) : Near k tiny q q := by
  rw [Near, sub_self, abs_zero]
  exact mul_nonneg (factor_nonneg k) (add_nonneg hq htiny)

theorem mono {n : Nat} {larger : ℚ} (h : Near k tiny x q) (hk : k ≤ n) (htiny : tiny ≤ larger)
    (hq : 0 ≤ q + tiny) : Near n larger x q := by
  have hfactor : (1 + roundoff) ^ k - 1 ≤ (1 + roundoff) ^ n - 1 :=
    sub_le_sub_right (pow_le_pow_right₀ (le_add_of_nonneg_right roundoff_pos.le) hk) 1
  exact h.trans (mul_le_mul hfactor (by linarith) hq (factor_nonneg n))

theorem add_tiny_le (h : Near k tiny x q) : x + tiny ≤ (1 + roundoff) ^ k * (q + tiny) := by
  rw [Near] at h
  linarith [(abs_le.1 h).2]

/-- One more rounding. -/
theorem round {y : ℚ} (h : Near k tiny x q) (hx : 0 ≤ x) (htiny : least ≤ tiny)
    (hy : |y - x| ≤ roundoff * max x least) : Near (k + 1) tiny y q := by
  have hmax : max x least ≤ (1 + roundoff) ^ k * (q + tiny) := by
    have hlarger : max x least ≤ x + least :=
      max_le (le_add_of_nonneg_right least_pos.le) (le_add_of_nonneg_left hx)
    linarith [h.add_tiny_le]
  rw [Near] at h ⊢
  calc |y - q| ≤ |y - x| + |x - q| := abs_sub_le y x q
    _ ≤ roundoff * ((1 + roundoff) ^ k * (q + tiny)) + ((1 + roundoff) ^ k - 1) * (q + tiny) :=
        add_le_add (hy.trans (mul_le_mul_of_nonneg_left hmax roundoff_pos.le)) h
    _ = ((1 + roundoff) ^ (k + 1) - 1) * (q + tiny) := by ring

/-- Errors of factors grow with each other. -/
theorem mul {n : Nat} {y r : ℚ} (hx : Near k tiny x q) (hy : Near n 0 y r) (hq : 0 ≤ q)
    (htiny : 0 ≤ tiny) (hy0 : 0 ≤ y) : Near (k + n) (tiny * r) (x * y) (q * r) := by
  rw [Near, add_zero] at hy
  rw [Near] at hx ⊢
  have hylarge : y ≤ (1 + roundoff) ^ n * r := by linarith [(abs_le.1 hy).2]
  have hfirst : |x - q| * y ≤ ((1 + roundoff) ^ k - 1) * (q + tiny) * ((1 + roundoff) ^ n * r) :=
    mul_le_mul hx hylarge hy0 (mul_nonneg (factor_nonneg k) (add_nonneg hq htiny))
  have hsecond : q * |y - r| ≤ (q + tiny) * (((1 + roundoff) ^ n - 1) * r) :=
    mul_le_mul (le_add_of_nonneg_right htiny) hy (abs_nonneg _) (add_nonneg hq htiny)
  calc |x * y - q * r| = |(x - q) * y + q * (y - r)| := by ring_nf
    _ ≤ |(x - q) * y| + |q * (y - r)| := abs_add_le _ _
    _ = |x - q| * y + q * |y - r| := by rw [abs_mul, abs_mul, abs_of_nonneg hy0, abs_of_nonneg hq]
    _ ≤ ((1 + roundoff) ^ k - 1) * (q + tiny) * ((1 + roundoff) ^ n * r)
          + (q + tiny) * (((1 + roundoff) ^ n - 1) * r) := add_le_add hfirst hsecond
    _ = ((1 + roundoff) ^ (k + n) - 1) * (q * r + tiny * r) := by ring

/-- Errors of what is added add up. -/
theorem add {y r small : ℚ} (hx : Near k tiny x q) (hy : Near k small y r) :
    Near k (tiny + small) (x + y) (q + r) := by
  calc |x + y - (q + r)| = |(x - q) + (y - r)| := by ring_nf
    _ ≤ |x - q| + |y - r| := abs_add_le _ _
    _ ≤ ((1 + roundoff) ^ k - 1) * (q + tiny) + ((1 + roundoff) ^ k - 1) * (r + small) := add_le_add hx hy
    _ = ((1 + roundoff) ^ k - 1) * (q + r + (tiny + small)) := by ring

end Near

end PipelineCompiler
