import Mathlib.Data.List.SplitBy
import Mathlib.Data.Nat.Digits.Defs
import PipelineCompiler.Proofs.Duration.Range
import PipelineCompiler.Proofs.Text

/-!
# The grammar of durations

A duration is written as pairs of a number and a unit, one behind the other (`written`). Reading takes off
one pair after the other (`turn?`), each time as much as belongs to a number and then as much as belongs to
none. A text is cut into pairs in this way just if it is some pairs that are written down
(`amounts?_eq_some`), since what belongs to a number and what belongs to a unit do not overlap.
-/

namespace PipelineCompiler.Duration

/-! ## Numbers -/

/-- A number is written with digits and no more than one point, and has a digit at least. -/
def IsNumber (cs : List Char) : Prop :=
  (∀ c ∈ cs, c.isDigit = true ∨ c = '.') ∧ cs.count '.' ≤ 1 ∧ ∃ c ∈ cs, c.isDigit = true

instance (cs : List Char) : Decidable (IsNumber cs) :=
  decidable_of_iff
    (cs.all (fun c => c.isDigit || c == '.') = true ∧ cs.count '.' ≤ 1 ∧ cs.any Char.isDigit = true)
    (by simp [IsNumber])

/-- The number that digits stand for. -/
def wholeValue (digits : List Char) : Nat :=
  Nat.ofDigits 10 (digits.reverse.map fun c => c.toNat - '0'.toNat)

/-- The number that is written: what stands in front of the point, and what stands behind it as a fraction. -/
def numberValue (cs : List Char) : ℚ :=
  match Text.cutFirst '.' cs with
  | none => wholeValue cs
  | some (digits, places) => wholeValue digits + wholeValue places / 10 ^ places.length

theorem digitsValue_eq_wholeValue (digits : List Char) : digitsValue digits = wholeValue digits := by
  induction digits using List.reverseRecOn with
  | nil => rfl
  | append_singleton digits c ih =>
      rw [wholeValue, List.reverse_append, List.reverse_singleton, List.singleton_append, List.map_cons,
        Nat.ofDigits_cons, ← wholeValue, ← ih, digitsValue, List.foldl_append, Nat.add_comm]
      rfl

theorem wholeValue_append (digits places : List Char) :
    wholeValue (digits ++ places) = wholeValue digits * 10 ^ places.length + wholeValue places := by
  rw [wholeValue, List.reverse_append, List.map_append, Nat.ofDigits_append, List.length_map,
    List.length_reverse, ← wholeValue, ← wholeValue, Nat.add_comm, Nat.mul_comm]

theorem point_not_mem {digits : List Char} (h : ∀ c ∈ digits, c.isDigit = true) : '.' ∉ digits :=
  fun hmem => absurd (h '.' hmem) (by decide)

theorem isNumber_digits {digits : List Char} (hne : digits ≠ []) (h : ∀ c ∈ digits, c.isDigit = true) :
    IsNumber digits := by
  obtain ⟨c, hc⟩ := List.exists_mem_of_ne_nil digits hne
  have hcount : digits.count '.' = 0 := List.count_eq_zero.2 (point_not_mem h)
  exact ⟨fun c hc => .inl (h c hc), hcount.le.trans zero_le_one, c, hc, h c hc⟩

theorem isNumber_point {digits places : List Char} (hne : digits ++ places ≠ [])
    (hdigits : ∀ c ∈ digits, c.isDigit = true) (hplaces : ∀ c ∈ places, c.isDigit = true) :
    IsNumber (digits ++ '.' :: places) := by
  have hmem (c : Char) : c ∈ digits ++ '.' :: places ↔ c ∈ digits ++ places ∨ c = '.' := by
    rw [List.mem_append, List.mem_append, List.mem_cons, or_comm (a := c = '.'), or_assoc]
  have hall : ∀ c ∈ digits ++ places, c.isDigit = true := List.forall_mem_append.2 ⟨hdigits, hplaces⟩
  obtain ⟨c, hc⟩ := List.exists_mem_of_ne_nil _ hne
  refine ⟨fun c hc => ((hmem c).1 hc).imp_left (hall c), ?_, c, (hmem c).2 (.inl hc), hall c hc⟩
  rw [List.count_append, List.count_cons_self, List.count_eq_zero.2 (point_not_mem hdigits),
    List.count_eq_zero.2 (point_not_mem hplaces)]

/-- A number is written with digits, or with digits around a point. -/
theorem isNumber_cases {cs : List Char} (h : IsNumber cs) :
    (cs ≠ [] ∧ ∀ c ∈ cs, c.isDigit = true)
      ∨ ∃ digits places, cs = digits ++ '.' :: places ∧ digits ++ places ≠ []
          ∧ (∀ c ∈ digits, c.isDigit = true) ∧ ∀ c ∈ places, c.isDigit = true := by
  obtain ⟨hchars, hpoint, c, hc, hdigit⟩ := h
  have hdigits {ds : List Char} (hsub : ∀ d ∈ ds, d ∈ cs) (hnone : '.' ∉ ds) :
      ∀ d ∈ ds, d.isDigit = true := by
    intro d hd
    refine (hchars d (hsub d hd)).resolve_right ?_
    rintro rfl
    exact hnone hd
  by_cases hmem : '.' ∈ cs
  · obtain ⟨digits, places, rfl, hbefore⟩ := List.eq_append_cons_of_mem hmem
    have hbehind : '.' ∉ places := by
      intro h
      rw [List.count_append, List.count_cons_self] at hpoint
      have := List.count_pos_iff.2 h
      omega
    refine .inr ⟨digits, places, rfl, ?_, hdigits (fun d hd => by simp [hd]) hbefore,
      hdigits (fun d hd => by simp [hd]) hbehind⟩
    intro hnil
    obtain ⟨rfl, rfl⟩ := List.append_eq_nil_iff.1 hnil
    obtain rfl := List.mem_singleton.1 hc
    exact absurd hdigit (by decide)
  · exact .inl ⟨List.ne_nil_of_mem hc, hdigits (fun d hd => hd) hmem⟩

theorem numberValue_digits {digits : List Char} (h : ∀ c ∈ digits, c.isDigit = true) :
    numberValue digits = wholeValue digits := by
  rw [numberValue, Text.cutFirst_eq_none.2 (point_not_mem h)]

theorem numberValue_point {digits : List Char} (places : List Char)
    (h : ∀ c ∈ digits, c.isDigit = true) :
    numberValue (digits ++ '.' :: places) = wholeValue (digits ++ places) / 10 ^ places.length := by
  have hcut : numberValue (digits ++ '.' :: places)
      = wholeValue digits + wholeValue places / 10 ^ places.length := by
    rw [numberValue, Text.cutFirst_eq_some.2 ⟨rfl, point_not_mem h⟩]
  rw [hcut, wholeValue_append, Nat.cast_add, Nat.cast_mul, Nat.cast_pow, Nat.cast_ofNat, add_div,
    mul_div_cancel_right₀ _ (by positivity)]

theorem decimal?_digits {digits : List Char} (hne : digits ≠ []) (h : ∀ c ∈ digits, c.isDigit = true) :
    decimal? digits = some (wholeValue digits, 0) := by
  have htake : digits.takeWhile Char.isDigit = digits := List.takeWhile_eq_self_iff.2 h
  have hdrop : digits.dropWhile Char.isDigit = [] := List.dropWhile_eq_nil_iff.2 h
  rw [decimal?, hdrop, htake]
  simp [hne, digitsValue_eq_wholeValue]

theorem decimal?_point {digits places : List Char} (hne : digits ++ places ≠ [])
    (hdigits : ∀ c ∈ digits, c.isDigit = true) (hplaces : ∀ c ∈ places, c.isDigit = true) :
    decimal? (digits ++ '.' :: places) = some (wholeValue (digits ++ places), places.length) := by
  have hstops : ∀ c ∈ ('.' :: places).head?, c.isDigit = false := by simp
  rw [decimal?, Text.takeWhile_run hdigits hstops, Text.dropWhile_run hdigits hstops,
    ← digitsValue_eq_wholeValue]
  exact if_pos ⟨rfl, List.all_eq_true.2 hplaces, by simpa using hne⟩

/-- A number is read as the fraction that it stands for. -/
theorem exists_decimal? {cs : List Char} (h : IsNumber cs) :
    ∃ n k, decimal? cs = some (n, k) ∧ (n : ℚ) / 10 ^ k = numberValue cs := by
  obtain ⟨hne, hdigits⟩ | ⟨digits, places, rfl, hne, hdigits, hplaces⟩ := isNumber_cases h
  · refine ⟨_, _, decimal?_digits hne hdigits, ?_⟩
    rw [numberValue_digits hdigits, pow_zero, div_one]
  · exact ⟨_, _, decimal?_point hne hdigits hplaces, (numberValue_point places hdigits).symm⟩

/-- Nothing but a number is read as one. -/
theorem isNumber_of_decimal? {cs : List Char} {r : Nat × Nat} (h : decimal? cs = some r) :
    IsNumber cs := by
  have hcs := (List.takeWhile_append_dropWhile (p := Char.isDigit) (l := cs)).symm
  have hdigits : ∀ c ∈ cs.takeWhile Char.isDigit, c.isDigit = true := fun c hc =>
    List.mem_takeWhile_imp hc
  rw [decimal?] at h
  generalize cs.takeWhile Char.isDigit = digits at h hcs hdigits
  split at h
  · next hdrop =>
      obtain ⟨hne, -⟩ := Option.ite_none_left_eq_some.1 h
      rw [hdrop, List.append_nil] at hcs
      exact hcs ▸ isNumber_digits (by simpa using hne) hdigits
  · next point places hdrop =>
      obtain ⟨⟨rfl, hplaces, hne⟩, -⟩ := Option.ite_none_right_eq_some.1 h
      rw [hdrop] at hcs
      exact hcs ▸ isNumber_point (by simpa using hne) hdigits (List.all_eq_true.1 hplaces)

/-! ## Pairs of a number and a unit -/

/-- How a unit is written. -/
def Scale.chars : Scale → List Char
  | .milliseconds => ['m', 's']
  | .seconds => ['s']
  | .minutes => ['m']
  | .hours => ['h']

theorem Scale.chars_ne_nil (s : Scale) : s.chars ≠ [] := by
  cases s <;> exact List.cons_ne_nil _ _

theorem Scale.ofChars?_eq_some {cs : List Char} {s : Scale} : ofChars? cs = some s ↔ cs = s.chars := by
  constructor
  · intro h
    revert h
    rw [ofChars?.eq_def]
    split <;> rintro ⟨⟩ <;> rfl
  · rintro rfl
    cases s <;> rfl

/-- A number and its unit. -/
structure Pair where
  number : List Char
  isNumber : IsNumber number
  scale : Scale

namespace Pair

/-- How a pair is written. -/
def text (p : Pair) : List Char := p.number ++ p.scale.chars

/-- Length of a pair in seconds. -/
def seconds (p : Pair) : ℚ := numberValue p.number * p.scale.exact

/-- The amount that a pair is read as. -/
def amount (p : Pair) : Amount :=
  let (digits, places) := (decimal? p.number).getD (0, 0)
  ⟨digits, places, p.scale⟩

theorem number_ne_nil (p : Pair) : p.number ≠ [] := by
  obtain ⟨-, -, c, hc, -⟩ := p.isNumber
  exact List.ne_nil_of_mem hc

theorem text_ne_nil (p : Pair) : p.text ≠ [] := List.append_ne_nil_of_left_ne_nil p.number_ne_nil _

theorem decimal?_number (p : Pair) : decimal? p.number = some (p.amount.digits, p.amount.places) := by
  obtain ⟨n, k, h, -⟩ := exists_decimal? p.isNumber
  rw [amount, h, Option.getD_some]

theorem exact_amount (p : Pair) : p.amount.exact = p.seconds := by
  obtain ⟨n, k, h, hvalue⟩ := exists_decimal? p.isNumber
  rw [Amount.exact_eq, amount, h, Option.getD_some, seconds, ← hvalue]

end Pair

/-- Pairs that are written one behind the other. -/
def written (ps : List Pair) : List Char := ps.flatMap Pair.text

/-- Length of pairs in seconds. -/
def length (ps : List Pair) : ℚ := (ps.map Pair.seconds).sum

theorem exact_amounts (ps : List Pair) : exact (ps.map Pair.amount) = length ps := by
  rw [exact, length, List.map_map]
  exact congrArg List.sum (List.map_congr_left fun p _ => p.exact_amount)

/-! ## Runs -/

theorem isNumberChar_of_isNumber {cs : List Char} (h : IsNumber cs) :
    ∀ c ∈ cs, isNumberChar c = true := fun c hc => by
  simpa [isNumberChar] using h.1 c hc

theorem isNumberChar_of_mem_chars (s : Scale) : ∀ c ∈ s.chars, isNumberChar c = false := by
  have hnone : (s.chars.any isNumberChar) = false := by
    cases s <;> decide
  simpa using hnone

/-- Characters of one class in front of characters of the other are a run. -/
theorem runs_append {run rest : List Char} {b : Bool} (hne : run ≠ [])
    (hrun : ∀ c ∈ run, isNumberChar c = b) (hrest : ∀ c ∈ rest.head?, isNumberChar c = !b) :
    runs (run ++ rest) = run :: runs rest := by
  have hseam : ∀ c ∈ run.getLast?, ∀ d ∈ rest.head?, (isNumberChar c == isNumberChar d) = false := by
    intro c hc d hd
    rw [hrun c (List.mem_of_getLast? hc), hrest d hd]
    cases b <;> rfl
  have hone : run.Pairwise fun c d => (isNumberChar c == isNumberChar d) = true :=
    List.pairwise_of_forall_mem_list fun c hc d hd => by rw [hrun c hc, hrun d hd, beq_self_eq_true]
  rw [runs, List.splitBy_append hseam, List.splitBy_of_isChain hne hone.isChain]
  rfl

/-! ## Turns -/

/-- Take an amount off: as much as belongs to a number, then as much as belongs to none. -/
def turn? (cs : List Char) : Option (Amount × List Char) := do
  let (digits, places) ← decimal? (cs.takeWhile isNumberChar)
  let behind := cs.dropWhile isNumberChar
  let scale ← Scale.ofChars? (behind.takeWhile fun c => !isNumberChar c)
  return (⟨digits, places, scale⟩, behind.dropWhile fun c => !isNumberChar c)

/-- Where a turn cuts a text: the characters of a number, those of none, and what follows them. -/
structure CutsAt (number unit rest : List Char) : Prop where
  inNumber : ∀ c ∈ number, isNumberChar c = true
  stops : ∀ c ∈ (unit ++ rest).head?, isNumberChar c = false
  inUnit : ∀ c ∈ unit, isNumberChar c = false
  goesOn : ∀ c ∈ rest.head?, isNumberChar c = true

/-- Nothing follows a number that has no unit. -/
theorem CutsAt.rest_eq_nil {number rest : List Char} (h : CutsAt number [] rest) : rest = [] := by
  cases rest with
  | nil => rfl
  | cons c rest => exact absurd ((h.stops c rfl).symm.trans (h.goesOn c rfl)) Bool.false_ne_true

theorem exists_cutsAt (cs : List Char) :
    ∃ number unit rest, cs = number ++ (unit ++ rest) ∧ CutsAt number unit rest := by
  let behind := cs.dropWhile isNumberChar
  have hbehind : behind = behind.takeWhile (fun c => !isNumberChar c)
      ++ behind.dropWhile fun c => !isNumberChar c := List.takeWhile_append_dropWhile.symm
  refine ⟨cs.takeWhile isNumberChar, behind.takeWhile fun c => !isNumberChar c,
    behind.dropWhile fun c => !isNumberChar c, ?_, fun c hc => List.mem_takeWhile_imp hc,
    fun c hc => ?_, fun c hc => by simpa using List.mem_takeWhile_imp hc, fun c hc => ?_⟩
  · rw [← hbehind, List.takeWhile_append_dropWhile]
  · rw [← hbehind] at hc
    have hstop := List.head?_dropWhile_not isNumberChar cs
    rw [Option.mem_def.1 hc] at hstop
    simpa using hstop
  · have hstop := List.head?_dropWhile_not (fun c => !isNumberChar c) behind
    rw [Option.mem_def.1 hc] at hstop
    simpa using hstop

theorem CutsAt.turn?_eq {number unit rest : List Char} (h : CutsAt number unit rest) :
    turn? (number ++ (unit ++ rest))
      = (decimal? number).bind fun (digits, places) =>
          (Scale.ofChars? unit).map fun scale => (⟨digits, places, scale⟩, rest) := by
  have hunit : ∀ c ∈ unit, (!isNumberChar c) = true := fun c hc => by rw [h.inUnit c hc]; rfl
  have hrest : ∀ c ∈ rest.head?, (!isNumberChar c) = false := fun c hc => by rw [h.goesOn c hc]; rfl
  rw [turn?, Text.takeWhile_run h.inNumber h.stops, Text.dropWhile_run h.inNumber h.stops]
  simp only [Text.takeWhile_run hunit hrest, Text.dropWhile_run hunit hrest, Option.bind_eq_bind,
    Option.pure_def, Option.map_eq_bind]
  rfl

/-- What is read in one turn. -/
theorem turn?_eq_some {cs rest : List Char} {a : Amount} :
    turn? cs = some (a, rest)
      ↔ ∃ p : Pair, a = p.amount ∧ cs = p.text ++ rest ∧ ∀ c ∈ rest.head?, isNumberChar c = true := by
  constructor
  · intro h
    obtain ⟨number, unit, rest', rfl, hcut⟩ := exists_cutsAt cs
    rw [hcut.turn?_eq] at h
    obtain ⟨⟨digits, places⟩, hdecimal, h⟩ := Option.bind_eq_some_iff.1 h
    obtain ⟨scale, hscale, heq⟩ := Option.map_eq_some_iff.1 h
    obtain ⟨rfl, rfl⟩ := Prod.mk.inj heq
    refine ⟨⟨number, isNumber_of_decimal? hdecimal, scale⟩, ?_, ?_, hcut.goesOn⟩
    · rw [Pair.amount, hdecimal, Option.getD_some]
    · rw [Pair.text, Scale.ofChars?_eq_some.1 hscale, List.append_assoc]
  · rintro ⟨p, rfl, rfl, hrest⟩
    have hstops : ∀ c ∈ (p.scale.chars ++ rest).head?, isNumberChar c = false := by
      intro c hc
      rw [List.head?_append_of_ne_nil _ p.scale.chars_ne_nil] at hc
      exact isNumberChar_of_mem_chars p.scale c (List.mem_of_mem_head? hc)
    have hcut : CutsAt p.number p.scale.chars rest :=
      ⟨isNumberChar_of_isNumber p.isNumber, hstops, isNumberChar_of_mem_chars p.scale, hrest⟩
    rw [Pair.text, List.append_assoc, hcut.turn?_eq, p.decimal?_number, Scale.ofChars?_eq_some.2 rfl]
    rfl

/-- A number is more than nothing, and holds no characters of units. -/
theorem decimal?_eq_none {cs : List Char} (h : ∀ c ∈ cs, isNumberChar c = false) : decimal? cs = none := by
  rw [Option.eq_none_iff_forall_ne_some]
  intro r hr
  obtain ⟨-, -, c, hc, hdigit⟩ := isNumber_of_decimal? hr
  simpa [isNumberChar, hdigit] using h c hc

/-- The runs of a text are read turn by turn. -/
theorem amountsOfRuns?_turn {cs : List Char} (hne : cs ≠ []) :
    amountsOfRuns? (runs cs)
      = (turn? cs).bind fun (a, rest) => (amountsOfRuns? (runs rest)).map (a :: ·) := by
  obtain ⟨number, unit, rest, rfl, hcut⟩ := exists_cutsAt cs
  have hunits (hunit : unit ≠ []) : runs (unit ++ rest) = unit :: runs rest :=
    runs_append hunit hcut.inUnit hcut.goesOn
  rw [hcut.turn?_eq]
  by_cases hnumber : number = []
  · -- the first run stands where a number belongs, and is none
    subst hnumber
    have hunit : unit ≠ [] := by
      rintro rfl
      exact hne hcut.rest_eq_nil
    rw [List.nil_append, hunits hunit, decimal?_eq_none (by simp), Option.bind_none, Option.bind_none]
    cases hruns : runs rest with
    | nil => rfl
    | cons run more => rw [amountsOfRuns?, decimal?_eq_none hcut.inUnit]; rfl
  · rw [runs_append hnumber hcut.inNumber hcut.stops]
    by_cases hunit : unit = []
    · subst hunit
      rw [hcut.rest_eq_nil, List.append_nil]
      cases decimal? number <;> rfl
    · rw [hunits hunit, amountsOfRuns?]
      simp only [Option.bind_eq_bind, Option.pure_def, Option.map_eq_bind, Option.bind_assoc,
        Option.bind_some, Function.comp_def]

theorem length_lt_of_turn? {cs rest : List Char} {a : Amount} (h : turn? cs = some (a, rest)) :
    rest.length < cs.length := by
  obtain ⟨p, -, rfl, -⟩ := turn?_eq_some.1 h
  rw [List.length_append]
  exact Nat.lt_add_of_pos_left (List.length_pos_of_ne_nil p.text_ne_nil)

/-- Every turn leaves less of a text, so that there is a last one. -/
theorem wellFounded_turn : WellFounded fun rest cs => ∃ a, turn? cs = some (a, rest) :=
  Subrelation.wf (fun ⟨_, h⟩ => length_lt_of_turn? h) (measure List.length).wf

/-! ## Texts -/

theorem isNumberChar_of_head? {ps : List Pair} : ∀ c ∈ (written ps).head?, isNumberChar c = true := by
  cases ps with
  | nil => simp [written]
  | cons p ps =>
      intro c hc
      rw [written, List.flatMap_cons, Pair.text, List.append_assoc,
        List.head?_append_of_ne_nil _ p.number_ne_nil] at hc
      exact isNumberChar_of_isNumber p.isNumber c (List.mem_of_mem_head? hc)

/-- The runs of a text are read just if it is pairs that are written down. -/
theorem amountsOfRuns?_eq_some {cs : List Char} {as : List Amount} :
    amountsOfRuns? (runs cs) = some as ↔ ∃ ps : List Pair, cs = written ps ∧ as = ps.map Pair.amount := by
  constructor
  · induction cs using wellFounded_turn.induction generalizing as with
    | _ cs ih =>
        intro h
        by_cases hnil : cs = []
        · subst hnil
          exact ⟨[], rfl, (Option.some.inj h).symm⟩
        · rw [amountsOfRuns?_turn hnil] at h
          obtain ⟨⟨a, rest⟩, hturn, h⟩ := Option.bind_eq_some_iff.1 h
          obtain ⟨more, hmore, rfl⟩ := Option.map_eq_some_iff.1 h
          obtain ⟨ps, rfl, rfl⟩ := ih rest ⟨a, hturn⟩ hmore
          obtain ⟨p, rfl, hcs, -⟩ := turn?_eq_some.1 hturn
          exact ⟨p :: ps, hcs, rfl⟩
  · rintro ⟨ps, rfl, rfl⟩
    induction ps with
    | nil => rfl
    | cons p ps ih =>
        have hturn : turn? (written (p :: ps)) = some (p.amount, written ps) :=
          turn?_eq_some.2 ⟨p, rfl, rfl, isNumberChar_of_head?⟩
        have hne : written (p :: ps) ≠ [] := List.append_ne_nil_of_left_ne_nil p.text_ne_nil _
        rw [amountsOfRuns?_turn hne, hturn, Option.bind_some]
        exact congrArg (Option.map (p.amount :: ·)) ih

theorem amounts?_eq_some {cs : List Char} {as : List Amount} :
    amounts? cs = some as ↔ ∃ ps : List Pair, ps ≠ [] ∧ cs = written ps ∧ as = ps.map Pair.amount := by
  have hruns : amounts? cs = some as ↔ amountsOfRuns? (runs cs) = some as ∧ as ≠ [] := by
    rw [amounts?]
    split
    · next h => simp [h, eq_comm]
    · next h => 
      refine ⟨fun has => ⟨has, ?_⟩, And.left⟩
      rintro rfl
      exact h has
  rw [hruns, amountsOfRuns?_eq_some]
  constructor
  · rintro ⟨⟨ps, hcs, rfl⟩, hne⟩
    exact ⟨ps, fun h => hne (by rw [h]; rfl), hcs, rfl⟩
  · rintro ⟨ps, hne, hcs, rfl⟩
    exact ⟨⟨ps, hcs, rfl⟩, fun h => hne (List.map_eq_nil_iff.1 h)⟩

theorem isBlank_eq_false {c : Char} (h : isNumberChar c = true) : Text.isBlank c = false := by
  rw [isNumberChar, Bool.or_eq_true, beq_iff_eq] at h
  obtain hdigit | rfl := h
  · have hrange : 48 ≤ c.toNat ∧ c.toNat ≤ 57 := by
      simpa [Char.isDigit, UInt32.le_iff_toNat_le] using hdigit
    simp [Text.isBlank]
    omega
  · decide

theorem trimChars_written (ps : List Pair) : Text.trimChars (written ps) = written ps := by
  have hunit (s : Scale) : ∀ c ∈ s.chars, Text.isBlank c = false := by
    have hnone : (s.chars.any Text.isBlank) = false := by
      cases s <;> decide
    simpa using hnone
  have hnone : ∀ c ∈ written ps, Text.isBlank c = false := by
    intro c hc
    obtain ⟨p, -, hc⟩ := List.mem_flatMap.1 hc
    rcases List.mem_append.1 hc with hc | hc
    · exact isBlank_eq_false (isNumberChar_of_isNumber p.isNumber c hc)
    · exact hunit p.scale c hc
  exact Text.trimChars_eq_self (fun c hc => hnone c (List.mem_of_head? hc))
    fun c hc => hnone c (List.mem_of_getLast? hc)

end PipelineCompiler.Duration
