import Mathlib.Algebra.BigOperators.Group.List.Basic
import Mathlib.Algebra.Order.BigOperators.Group.List
import Mathlib.Algebra.Order.Floor.Semifield
import Mathlib.Data.Rat.Floor
import PipelineCompiler.Duration
import PipelineCompiler.Proofs.Number.Rounding

/-!
# Durations and what they stand for

The amounts of a duration stand for an exact number of seconds (`exact`). Reading a duration rounds every
amount three times and every sum once, and takes the nearest nanosecond in the end, so that the span that
is read misses the exact one by half a nanosecond and the `slack` of its amounts (`total?_error`). A whole
number of nanoseconds is read as it stands up to a length of some days (`total?_exact`).
-/

namespace PipelineCompiler.Duration

open Magnitude (roundoff least least_pos)

/-! ## Exact values -/

/-- Length of a span in seconds. -/
def inSeconds (d : Duration) : ℚ := d.nanos / nanosPerSecond

/-- Length of a unit in seconds. -/
def Scale.exact (s : Scale) : ℚ := s.fraction.1 / s.fraction.2

/-- Length of an amount in seconds. -/
def Amount.exact (a : Amount) : ℚ := a.fraction.1 / a.fraction.2

/-- Length of amounts in seconds. -/
def exact (as : List Amount) : ℚ := (as.map Amount.exact).sum

theorem Scale.exact_bounds (s : Scale) : 1 / 1000 ≤ s.exact ∧ s.exact ≤ 3600 := by
  cases s <;> norm_num [Scale.exact, Scale.fraction]

theorem Scale.exact_nonneg (s : Scale) : 0 ≤ s.exact :=
  le_trans (by norm_num) s.exact_bounds.1

/-- An amount is a decimal number of its unit. -/
theorem Amount.exact_eq (a : Amount) : a.exact = a.digits / 10 ^ a.places * a.scale.exact := by
  rw [Amount.exact, Amount.fraction, Scale.exact, Nat.cast_mul, Nat.cast_mul, Nat.pow_eq, Nat.cast_pow,
    Nat.cast_ofNat, mul_div_mul_comm]

theorem Amount.exact_nonneg (a : Amount) : 0 ≤ a.exact :=
  div_nonneg (Nat.cast_nonneg _) (Nat.cast_nonneg _)

theorem exact_nonneg (as : List Amount) : 0 ≤ exact as := by
  refine List.sum_nonneg fun x hx => ?_
  obtain ⟨a, -, rfl⟩ := List.mem_map.1 hx
  exact a.exact_nonneg

theorem exact_cons (a : Amount) (as : List Amount) : exact (a :: as) = a.exact + exact as := by
  rw [exact, List.map_cons, List.sum_cons]
  rfl

/-! ## Rounding amounts -/

theorem Scale.fraction_den_pos (s : Scale) : 0 < s.fraction.2 := by
  cases s <;> exact Nat.succ_pos _

/-- A unit is far from the numbers that lose more than `roundoff` of them. -/
theorem near_unit {s : Scale} {x : Magnitude}
    (h : Magnitude.nearest? s.fraction.1 s.fraction.2 = some x) : Near 1 0 x.value s.exact := by
  have hleast : least ≤ s.exact := by
    refine le_trans ?_ s.exact_bounds.1
    calc least ≤ 2 ^ (-10 : Int) := zpow_le_zpow_right₀ one_le_two (by norm_num)
      _ ≤ 1 / 1000 := by norm_num
  have herror := Magnitude.nearest?_error s.fraction_den_pos h
  rw [← Scale.exact, max_eq_left hleast] at herror
  simpa [Near] using herror

/-- An amount is the result of three roundings. -/
theorem near_amount {a : Amount} {x : Magnitude} (h : a.seconds? = some x) :
    Near 3 (3600 * least) x.value a.exact := by
  obtain ⟨number, hnumber, h⟩ := Option.bind_eq_some_iff.1 h
  obtain ⟨unit, hunit, h⟩ := Option.bind_eq_some_iff.1 h
  have hq : (0 : ℚ) ≤ a.digits / 10 ^ a.places := div_nonneg (Nat.cast_nonneg _) (by positivity)
  have hread : Near 1 least number.value (a.digits / 10 ^ a.places) := by
    have herror := Magnitude.nearest?_error (Nat.pow_pos (n := a.places) (by norm_num : 0 < 10)) hnumber
    rw [Nat.cast_pow, Nat.cast_ofNat] at herror
    exact (Near.exact 0 hq least_pos.le).round hq le_rfl herror
  have hproduct := hread.mul (near_unit hunit) hq least_pos.le unit.value_nonneg
  have hlarger : least * a.scale.exact ≤ 3600 * least := by
    rw [mul_comm]
    exact mul_le_mul_of_nonneg_right a.scale.exact_bounds.2 least_pos.le
  have hwide : Near 2 (3600 * least) (number.value * unit.value) a.exact :=
    a.exact_eq ▸ hproduct.mono le_rfl hlarger
      (add_nonneg (a.exact_eq ▸ a.exact_nonneg) (mul_nonneg least_pos.le a.scale.exact_nonneg))
  refine hwide.round (mul_nonneg number.value_nonneg unit.value_nonneg) ?_ (Magnitude.mul?_error h)
  linarith [least_pos]

section Step

variable {a : Amount} {k : Nat} {tiny q : ℚ} {total seconds next : Magnitude}

/-- An amount is as near to its length as a sum to which it is added. -/
theorem near_added (hseconds : a.seconds? = some seconds) (hk : 3 ≤ k)
    (htotal : Near k tiny total.value q) :
    Near k (tiny + 3600 * least) (total.value + seconds.value) (q + a.exact) := by
  have hthousands : 0 ≤ 3600 * least := by linarith [least_pos]
  exact htotal.add ((near_amount hseconds).mono hk le_rfl (add_nonneg a.exact_nonneg hthousands))

/-- Adding an amount takes one more rounding. -/
theorem near_step (hseconds : a.seconds? = some seconds) (hnext : total.add? seconds = some next)
    (hk : 3 ≤ k) (htiny : 0 ≤ tiny) (htotal : Near k tiny total.value q) :
    Near (k + 1) (tiny + 3600 * least) next.value (q + a.exact) := by
  refine (near_added hseconds hk htotal).round (add_nonneg total.value_nonneg seconds.value_nonneg) ?_
    (Magnitude.add?_error hnext)
  linarith [least_pos]

end Step

/-- What is tiny about a sum grows with every amount. -/
theorem tiny_cons (tiny : ℚ) (a : Amount) (as : List Amount) :
    tiny + ((a :: as).length : ℚ) * (3600 * least)
      = tiny + 3600 * least + as.length * (3600 * least) := by
  rw [List.length_cons]
  push_cast
  ring

/-- A sum is the result of one more rounding for each amount. -/
theorem near_sum {as : List Amount} {k : Nat} {tiny q : ℚ} {total x : Magnitude}
    (h : sum? total as = some x) (hk : 3 ≤ k) (htiny : 0 ≤ tiny) (hq : 0 ≤ q)
    (htotal : Near k tiny total.value q) :
    Near (k + as.length) (tiny + as.length * (3600 * least)) x.value (q + exact as) := by
  induction as generalizing k tiny q total with
  | nil =>
      obtain rfl := Option.some.inj h
      simpa [exact] using htotal
  | cons a as ih =>
      obtain ⟨seconds, hseconds, h⟩ := Option.bind_eq_some_iff.1 h
      obtain ⟨next, hnext, h⟩ := Option.bind_eq_some_iff.1 h
      have hthousands : 0 ≤ 3600 * least := by linarith [least_pos]
      have hstep := near_step hseconds hnext hk htiny htotal
      have hrest := ih h (by omega) (add_nonneg htiny hthousands) (add_nonneg hq a.exact_nonneg) hstep
      have hlength : k + (a :: as).length = k + 1 + as.length := by
        rw [List.length_cons]
        omega
      rw [hlength, tiny_cons, exact_cons, ← add_assoc]
      exact hrest

/-! ## The span that is read -/

/-- How far roundings may move the sum of amounts, in seconds. -/
def slack (as : List Amount) : ℚ :=
  ((1 + roundoff) ^ (3 + as.length) - 1) * (exact as + as.length * (3600 * least))

theorem ofSeconds?_error {x : Magnitude} {d : Duration} (h : ofSeconds? x = some d) :
    |d.inSeconds - x.value| ≤ 1 / 2 / nanosPerSecond := by
  obtain ⟨-, h⟩ := Option.ite_none_right_eq_some.1 h
  obtain rfl := Option.some.inj h
  have hnanos : (0 : ℚ) < nanosPerSecond := by norm_num [nanosPerSecond]
  have herror := roundQuotient_error (x.fraction.1 * nanosPerSecond) x.fraction_den_pos
  rw [Nat.cast_mul, mul_div_right_comm, Magnitude.fraction_div] at herror
  rw [inSeconds, le_div_iff₀ hnanos, ← abs_of_pos hnanos, ← abs_mul, abs_of_pos hnanos, sub_mul,
    div_mul_cancel₀ _ hnanos.ne']
  exact herror

theorem near_zero : Near 3 0 (Magnitude.mk 0 0).value 0 := by
  have hzero : (Magnitude.mk 0 0).value = 0 := by rw [Magnitude.value, Nat.cast_zero, zero_mul]
  rw [hzero]
  exact Near.exact 3 le_rfl le_rfl

theorem sum?_error {as : List Amount} {x : Magnitude} (h : sum? ⟨0, 0⟩ as = some x) :
    |x.value - exact as| ≤ slack as := by
  have hsum := near_sum h le_rfl le_rfl le_rfl near_zero
  rwa [zero_add, zero_add] at hsum

/-- A list of amounts is read as its exact length, up to half a nanosecond and its slack. -/
theorem total?_error {as : List Amount} {d : Duration} (h : total? as = some d) :
    |d.inSeconds - exact as| ≤ 1 / 2 / nanosPerSecond + slack as := by
  obtain ⟨x, hx, h⟩ := Option.bind_eq_some_iff.1 h
  exact (abs_sub_le _ _ _).trans (add_le_add (ofSeconds?_error h) (sum?_error hx))

/-- Amounts of a few days have less than half a nanosecond of slack: a single one of six days, or two of
them of four. -/
theorem slack_lt {as : List Amount} (h : (3 + as.length : ℚ) * (exact as + 1) ≤ 2 ^ 21) :
    slack as < 1 / 2 / nanosPerSecond := by
  have hexact := exact_nonneg as
  have hfew : (3 + as.length : ℚ) ≤ 2 ^ 21 :=
    (le_mul_of_one_le_right (by positivity) (by linarith)).trans h
  have hlength : 3 + as.length ≤ 2 ^ 52 := by
    have hfewNat : 3 + as.length ≤ 2 ^ 21 := by exact_mod_cast hfew
    omega
  have htiny : as.length * (3600 * least) ≤ 1 := by
    have hleast : least ≤ 2 ^ (-33 : Int) := zpow_le_zpow_right₀ one_le_two (by norm_num)
    calc as.length * (3600 * least) ≤ 2 ^ 21 * (3600 * 2 ^ (-33 : Int)) :=
          mul_le_mul (by linarith) (mul_le_mul_of_nonneg_left hleast (by norm_num))
            (mul_nonneg (by norm_num) least_pos.le) (by norm_num)
      _ ≤ 1 := by norm_num
  calc slack as ≤ 2 * ((3 + as.length : Nat) : ℚ) * roundoff * (exact as + 1) := by
        refine mul_le_mul (Near.factor_le hlength) (by linarith) ?_ (by positivity [Magnitude.roundoff_pos])
        exact add_nonneg hexact (mul_nonneg (Nat.cast_nonneg _) (mul_nonneg (by norm_num) least_pos.le))
    _ = 2 * roundoff * ((3 + as.length) * (exact as + 1)) := by
        push_cast
        ring
    _ ≤ 2 * roundoff * 2 ^ 21 := mul_le_mul_of_nonneg_left h (by positivity [Magnitude.roundoff_pos])
    _ < 1 / 2 / nanosPerSecond := by norm_num [roundoff, nanosPerSecond]

/-- A whole number of nanoseconds is read exactly if it is no more than a few days. -/
theorem total?_exact {as : List Amount} {d : Duration} (h : total? as = some d) {n : Nat}
    (hwhole : exact as = n / nanosPerSecond) (hdays : (3 + as.length : ℚ) * (exact as + 1) ≤ 2 ^ 21) :
    d.inSeconds = exact as := by
  have hnanos : (0 : ℚ) < nanosPerSecond := by norm_num [nanosPerSecond]
  have herror := (total?_error h).trans_lt (add_lt_add_right (slack_lt hdays) _)
  rw [hwhole, inSeconds, ← sub_div, abs_div, abs_of_pos hnanos, ← add_div, add_halves,
    div_lt_div_iff_of_pos_right hnanos] at herror
  have hclose : |((d.nanos : Int) - n)| < 1 := by exact_mod_cast herror
  have hsame : d.nanos = n := by
    rw [Int.abs_lt_one_iff, sub_eq_zero] at hclose
    exact_mod_cast hclose
  rw [hwhole, inSeconds, hsame]

/-! ## Texts -/

/-- The text is read as a number of seconds: the length of the amounts in it, roundings aside. -/
structure ReadsAs (text : String) (as : List Amount) (seconds : ℚ) : Prop where
  amounts : amounts? (Text.trimChars text.toList) = some as
  close : |seconds - exact as| ≤ 1 / 2 / nanosPerSecond + slack as
  whole : ∀ n : Nat, exact as = n / nanosPerSecond → (3 + as.length : ℚ) * (exact as + 1) ≤ 2 ^ 21 →
    seconds = exact as

theorem exists_readsAs {text : String} {d : Duration} (h : parse? text = some d) :
    ∃ as, ReadsAs text as d.inSeconds := by
  obtain ⟨as, has, htotal⟩ := Option.bind_eq_some_iff.1 h
  exact ⟨as, has, total?_error htotal, fun _ hwhole hdays => total?_exact htotal hwhole hdays⟩

/-- Minutes are counted from the whole seconds of a span, which makes no difference. -/
theorem floor_minutes (d : Duration) : ⌊d.inSeconds / 60⌋₊ = d.seconds / 60 := by
  rw [inSeconds, seconds, Nat.floor_div_ofNat, Nat.floor_div_eq_div]

theorem minutes?_eq_some {text : String} {d : Duration} (h : parse? text = some d) :
    minutes? text = some ⌊d.inSeconds / 60⌋₊ := by
  rw [minutes?, h, Option.map_some, floor_minutes]

end PipelineCompiler.Duration
