import PipelineCompiler.Proofs.Duration

/-!
# Durations that are too long

Roundings add to a sum of amounts no more than its `slack`. Where sum and slack together are fewer than
`2 ^ 64` seconds, no rounding on the way runs out of numbers, and the sum is a span that can be held
(`fits_of_lt`). A sum that can be held is not longer than that, its slack aside (`lt_of_fits`).
-/

namespace PipelineCompiler.Duration

open Magnitude (roundoff roundoff_pos least least_pos limit)

/-- The sum of the amounts, as it is rounded, is fewer than `2 ^ 64` seconds. -/
def Fits (as : List Amount) : Prop := ∃ x, sum? ⟨0, 0⟩ as = some x ∧ x.value < 2 ^ 64

theorem exists_ofSeconds?_iff {x : Magnitude} : (∃ d, ofSeconds? x = some d) ↔ x.value < 2 ^ 64 := by
  have hden : (0 : ℚ) < x.fraction.2 := by exact_mod_cast x.fraction_den_pos
  have hlt : x.fraction.1 < UInt64.size * x.fraction.2 ↔ x.value < 2 ^ 64 := by
    rw [← Magnitude.fraction_div, div_lt_iff₀ hden]
    have hsize : ((UInt64.size : Nat) : ℚ) = 2 ^ 64 := by norm_num [UInt64.size]
    rw [← hsize]
    exact_mod_cast Iff.rfl
  rw [← hlt]
  constructor
  · rintro ⟨d, hd⟩
    exact (Option.ite_none_right_eq_some.1 hd).1
  · intro h
    exact ⟨_, if_pos h⟩

/-- A list of amounts has a total just if its rounded sum can be held. -/
theorem isSome_total?_iff {as : List Amount} : (total? as).isSome = true ↔ Fits as := by
  rw [Option.isSome_iff_exists]
  constructor
  · rintro ⟨d, hd⟩
    obtain ⟨x, hx, hd⟩ := Option.bind_eq_some_iff.1 hd
    exact ⟨x, hx, exists_ofSeconds?_iff.1 ⟨d, hd⟩⟩
  · rintro ⟨x, hx, hlt⟩
    obtain ⟨d, hd⟩ := exists_ofSeconds?_iff.2 hlt
    exact ⟨d, Option.bind_eq_some_iff.2 ⟨x, hx, hd⟩⟩

/-! ## Sums that are found -/

theorem two_pow_le_limit {n : Nat} (h : n ≤ 1023) : (2 : ℚ) ^ n ≤ limit := by
  rw [limit, ← zpow_natCast]
  exact zpow_le_zpow_right₀ one_le_two (by exact_mod_cast h)

/-- A rounding no more than doubles a number and a second. -/
theorem nearest?_le {num den : Nat} (hden : 0 < den) {x : Magnitude}
    (h : Magnitude.nearest? num den = some x) : x.value ≤ 2 * (num / den) + 1 := by
  have hroundoff : roundoff ≤ 1 := by norm_num [roundoff]
  have hleast : least ≤ 1 := by
    rw [least]
    exact zpow_le_one_of_nonpos₀ one_le_two (by norm_num)
  have hq : (0 : ℚ) ≤ num / den := div_nonneg (Nat.cast_nonneg _) (Nat.cast_nonneg _)
  have herror := (abs_le.1 (Magnitude.nearest?_error hden h)).2
  revert hq herror
  generalize (num : ℚ) / den = q
  intro hq herror
  have hmax : max q least ≤ q + 1 :=
    max_le (le_add_of_nonneg_right zero_le_one) (le_trans hleast (le_add_of_nonneg_left hq))
  have hrounding : roundoff * max q least ≤ 1 * (q + 1) :=
    mul_le_mul hroundoff hmax (hq.trans (le_max_left _ _)) zero_le_one
  linarith

/-- An amount that is not too long can be rounded. -/
theorem exists_seconds? {a : Amount} (h : 2 ^ 24 * a.exact ≤ limit) : ∃ x, a.seconds? = some x := by
  have hlimit : (2 : ℚ) ^ 24 ≤ limit := two_pow_le_limit (by norm_num)
  have hten : 0 < Nat.pow 10 a.places := Nat.pow_pos (by norm_num)
  have hq : (0 : ℚ) ≤ a.digits / (Nat.pow 10 a.places : Nat) :=
    div_nonneg (Nat.cast_nonneg _) (Nat.cast_nonneg _)
  -- a number is no more than a thousand times as large as a number of milliseconds
  have hnumber : (a.digits : ℚ) / (Nat.pow 10 a.places : Nat) ≤ 1000 * a.exact := by
    have hthousand : 1 ≤ 1000 * a.scale.exact := by linarith [a.scale.exact_bounds.1]
    have hexact : 1000 * a.exact
        = (a.digits : ℚ) / (Nat.pow 10 a.places : Nat) * (1000 * a.scale.exact) := by
      rw [a.exact_eq, Nat.pow_eq, Nat.cast_pow, Nat.cast_ofNat, mul_left_comm]
    rw [hexact]
    exact le_mul_of_one_le_right hq hthousand
  have hscale : (a.scale.fraction.1 : ℚ) / a.scale.fraction.2 ≤ 3600 := a.scale.exact_bounds.2
  have hshort : 1000 * a.exact < limit := by linarith
  obtain ⟨number, hnumber?⟩ := Magnitude.exists_nearest? hten (hnumber.trans_lt hshort)
  obtain ⟨unit, hunit?⟩ := Magnitude.exists_nearest? a.scale.fraction_den_pos
    (hscale.trans_lt (by linarith))
  have hproduct : number.value * unit.value < limit := by
    have hnumberle : number.value ≤ 2 * (1000 * a.exact) + 1 :=
      (nearest?_le hten hnumber?).trans (by gcongr)
    have hunitle : unit.value ≤ 2 * 3600 + 1 :=
      (nearest?_le a.scale.fraction_den_pos hunit?).trans (by gcongr)
    calc number.value * unit.value
        ≤ (2 * (1000 * a.exact) + 1) * (2 * 3600 + 1) :=
          mul_le_mul hnumberle hunitle unit.value_nonneg (number.value_nonneg.trans hnumberle)
      _ < limit := by linarith
  obtain ⟨x, hx⟩ := Magnitude.exists_mul? hproduct
  exact ⟨x, Option.bind_eq_some_iff.2 ⟨number, hnumber?, Option.bind_eq_some_iff.2 ⟨unit, hunit?, hx⟩⟩⟩

/-- Amounts whose sum is not too long can be added up. -/
theorem exists_sum? {as : List Amount} {k : Nat} {tiny q : ℚ} {total : Magnitude} (hk : 3 ≤ k)
    (htiny : 0 ≤ tiny) (hq : 0 ≤ q) (htotal : Near k tiny total.value q)
    (hbound : 2 ^ 24 * ((1 + roundoff) ^ (k + as.length)
      * (q + exact as + (tiny + as.length * (3600 * least)))) ≤ limit) :
    ∃ x, sum? total as = some x := by
  induction as generalizing k tiny q total with
  | nil => exact ⟨total, rfl⟩
  | cons a as ih =>
      have hthousands : 0 ≤ 3600 * least := by linarith [least_pos]
      have hrest : 0 ≤ exact as + as.length * (3600 * least) :=
        add_nonneg (exact_nonneg as) (mul_nonneg (Nat.cast_nonneg _) hthousands)
      have hlength : k + (a :: as).length = k + 1 + as.length := by
        rw [List.length_cons]
        omega
      have hgrows : 1 ≤ 1 + roundoff := le_add_of_nonneg_right roundoff_pos.le
      rw [hlength, tiny_cons, exact_cons, ← add_assoc q] at hbound
      -- what is added up so far is a part of the whole
      have hpart : (1 + roundoff) ^ k * (q + a.exact + (tiny + 3600 * least))
          ≤ (1 + roundoff) ^ (k + 1 + as.length)
            * (q + a.exact + exact as + (tiny + 3600 * least + as.length * (3600 * least))) := by
        refine mul_le_mul (pow_le_pow_right₀ hgrows (by omega)) (by linarith) ?_ ?_
        · linarith [a.exact_nonneg]
        · positivity [roundoff_pos]
      have hsingle : a.exact ≤ (1 + roundoff) ^ k * (q + a.exact + (tiny + 3600 * least)) := by
        refine le_trans ?_ (le_mul_of_one_le_left ?_ (one_le_pow₀ hgrows))
        · linarith
        · linarith [a.exact_nonneg]
      obtain ⟨seconds, hseconds⟩ := exists_seconds? (a := a) (by linarith)
      have hsum : total.value + seconds.value < limit := by
        have hlimit : (2 : ℚ) ^ 24 ≤ limit := two_pow_le_limit (by norm_num)
        linarith [(near_added hseconds hk htotal).add_tiny_le]
      obtain ⟨next, hnext⟩ := Magnitude.exists_add? hsum
      obtain ⟨x, hx⟩ := ih (by omega) (add_nonneg htiny hthousands) (add_nonneg hq a.exact_nonneg)
        (near_step hseconds hnext hk htiny htotal) hbound
      exact ⟨x, Option.bind_eq_some_iff.2 ⟨seconds, hseconds, Option.bind_eq_some_iff.2 ⟨next, hnext, hx⟩⟩⟩

/-- Where the exact sum leaves room for its slack, the rounded sum can be held. -/
theorem fits_of_lt {as : List Amount} (h : exact as + slack as < 2 ^ 64) : Fits as := by
  have htiny : 0 ≤ (as.length : ℚ) * (3600 * least) :=
    mul_nonneg (Nat.cast_nonneg _) (by linarith [least_pos])
  have hexact := exact_nonneg as
  have hgrows : 1 ≤ 1 + roundoff := le_add_of_nonneg_right roundoff_pos.le
  -- slack counts at least one rounding, so that a sum with little of it has few tiny parts
  have hslack : roundoff * (as.length * (3600 * least)) ≤ slack as := by
    rw [slack]
    refine mul_le_mul ?_ (by linarith) htiny (Near.factor_nonneg _)
    have hpow := pow_le_pow_right₀ hgrows (by omega : 1 ≤ 3 + as.length)
    linarith
  have hfew : (as.length : ℚ) * (3600 * least) ≤ 2 ^ 53 * 2 ^ 64 := by
    have hroundoff : (2 : ℚ) ^ 53 * roundoff = 1 := by norm_num [roundoff]
    have hscaled := mul_le_mul_of_nonneg_left (hslack.trans (by linarith : slack as ≤ 2 ^ 64))
      (by norm_num : (0 : ℚ) ≤ 2 ^ 53)
    rwa [← mul_assoc, hroundoff, one_mul] at hscaled
  have hbound : 2 ^ 24 * ((1 + roundoff) ^ (3 + as.length)
      * (0 + exact as + (0 + as.length * (3600 * least)))) ≤ limit := by
    have hlimit : (2 : ℚ) ^ 200 ≤ limit := two_pow_le_limit (by norm_num)
    rw [zero_add, zero_add]
    rw [slack] at h
    linarith
  obtain ⟨x, hx⟩ := exists_sum? le_rfl le_rfl le_rfl near_zero hbound
  exact ⟨x, hx, by linarith [(abs_le.1 (sum?_error hx)).2]⟩

theorem lt_of_fits {as : List Amount} (h : Fits as) : exact as < 2 ^ 64 + slack as := by
  obtain ⟨x, hx, hlt⟩ := h
  linarith [(abs_le.1 (sum?_error hx)).1]

end PipelineCompiler.Duration
