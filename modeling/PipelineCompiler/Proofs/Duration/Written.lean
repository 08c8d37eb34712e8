import PipelineCompiler.Proofs.Duration.Grammar

/-!
# Durations that are written down

A text is read as a duration just if it is some pairs of a number and a unit, blanks around them aside,
whose length can be held, and then as that length (`Sums`). Texts that are written one behind the other are
the pairs of the one and those of the other, so that their durations add up (`Joins`).
-/

namespace PipelineCompiler.Duration

open Magnitude (roundoff roundoff_pos least least_pos)

/-! ## One text -/

theorem written_append (ps qs : List Pair) : written (ps ++ qs) = written ps ++ written qs :=
  List.flatMap_append

theorem length_append (ps qs : List Pair) : length (ps ++ qs) = length ps + length qs := by
  rw [length, List.map_append, List.sum_append, length, length]

theorem length_nonneg (ps : List Pair) : 0 ≤ length ps := by
  rw [← exact_amounts]
  exact exact_nonneg _

/-- A span is the length of pairs, roundings aside. -/
structure Sums (ps : List Pair) (d : Duration) : Prop where
  close : |d.inSeconds - length ps| ≤ 1 / 2 / nanosPerSecond + slack (ps.map Pair.amount)
  whole : ∀ n : Nat, length ps = n / nanosPerSecond → (3 + ps.length : ℚ) * (length ps + 1) ≤ 2 ^ 21 →
    d.inSeconds = length ps

theorem parse?_of_written {s : String} {ps : List Pair} (hne : ps ≠ [])
    (hs : Text.trimChars s.toList = written ps) : parse? s = total? (ps.map Pair.amount) := by
  rw [parse?, hs, amounts?_eq_some.2 ⟨ps, hne, rfl, rfl⟩]
  rfl

theorem isSome_parse?_of_written {s : String} {ps : List Pair} (hne : ps ≠ [])
    (hs : Text.trimChars s.toList = written ps) :
    (parse? s).isSome = true ↔ Fits (ps.map Pair.amount) := by
  rw [parse?_of_written hne hs, isSome_total?_iff]

theorem isSome_parse?_iff {s : String} :
    (parse? s).isSome = true
      ↔ ∃ ps, ps ≠ [] ∧ Text.trimChars s.toList = written ps ∧ Fits (ps.map Pair.amount) := by
  constructor
  · intro h
    obtain ⟨d, hd⟩ := Option.isSome_iff_exists.1 h
    obtain ⟨as, has, -⟩ := Option.bind_eq_some_iff.1 hd
    obtain ⟨ps, hne, hs, rfl⟩ := amounts?_eq_some.1 has
    exact ⟨ps, hne, hs, (isSome_parse?_of_written hne hs).1 h⟩
  · rintro ⟨ps, hne, hs, hfits⟩
    exact (isSome_parse?_of_written hne hs).2 hfits

theorem ne_nil_of_parse? {s : String} {ps : List Pair} {d : Duration}
    (hs : Text.trimChars s.toList = written ps) (h : parse? s = some d) : ps ≠ [] := by
  rintro rfl
  rw [parse?, hs] at h
  exact absurd h (by simp [written, amounts?, runs, amountsOfRuns?])

/-- A text is read as the length of its pairs. -/
theorem sums_of_parse? {s : String} {ps : List Pair} {d : Duration}
    (hs : Text.trimChars s.toList = written ps) (h : parse? s = some d) : Sums ps d := by
  rw [parse?_of_written (ne_nil_of_parse? hs h) hs] at h
  have hclose := total?_error h
  have hwhole {n : Nat} := total?_exact h (n := n)
  rw [exact_amounts] at hclose hwhole
  rw [List.length_map] at hwhole
  exact ⟨hclose, fun n => hwhole⟩

/-! ## Two texts -/

theorem exact_append (as bs : List Amount) : exact (as ++ bs) = exact as + exact bs := by
  rw [exact, List.map_append, List.sum_append, exact, exact]

/-- Amounts that are added up together have more slack than apart. -/
theorem slack_append_le (as bs : List Amount) : slack as + slack bs ≤ slack (as ++ bs) := by
  have hpart {cs : List Amount} (hcs : cs.length ≤ (as ++ bs).length) :
      slack cs ≤ ((1 + roundoff) ^ (3 + (as ++ bs).length) - 1)
        * (exact cs + cs.length * (3600 * least)) := by
    refine mul_le_mul_of_nonneg_right ?_ ?_
    · gcongr
      exact le_add_of_nonneg_right roundoff_pos.le
    · exact add_nonneg (exact_nonneg cs)
        (mul_nonneg (Nat.cast_nonneg _) (mul_nonneg (by norm_num) least_pos.le))
  refine (add_le_add (hpart (by simp)) (hpart (by simp))).trans_eq ?_
  rw [slack, exact_append, List.length_append]
  push_cast
  ring

section Sums

variable {ps qs : List Pair} {d e f : Duration}

theorem slack_pairs_le (ps qs : List Pair) :
    slack (ps.map Pair.amount) + slack (qs.map Pair.amount) ≤ slack ((ps ++ qs).map Pair.amount) := by
  rw [List.map_append]
  exact slack_append_le _ _

/-- Pairs can be held together where the spans that they are apart leave room for their slack. -/
theorem Sums.fits (hd : Sums ps d) (he : Sums qs e)
    (h : d.inSeconds + e.inSeconds
      + (1 / nanosPerSecond + 2 * slack ((ps ++ qs).map Pair.amount)) < 2 ^ 64) :
    Fits ((ps ++ qs).map Pair.amount) := by
  refine fits_of_lt ?_
  have hslack := slack_pairs_le ps qs
  have hdle := (abs_le.1 hd.close).1
  have hele := (abs_le.1 he.close).1
  have hhalves : (1 : ℚ) / nanosPerSecond = 1 / 2 / nanosPerSecond + 1 / 2 / nanosPerSecond := by ring
  rw [exact_amounts, length_append]
  linarith

theorem Sums.add (hd : Sums ps d) (he : Sums qs e) (hf : Sums (ps ++ qs) f) :
    |f.inSeconds - (d.inSeconds + e.inSeconds)|
      ≤ 3 / 2 / nanosPerSecond + 2 * slack ((ps ++ qs).map Pair.amount) := by
  have hslack := slack_pairs_le ps qs
  have hclose := abs_le.1 hf.close
  rw [length_append] at hclose
  obtain ⟨hdlow, hdhigh⟩ := abs_le.1 hd.close
  obtain ⟨helow, hehigh⟩ := abs_le.1 he.close
  have hhalves : (3 : ℚ) / 2 / nanosPerSecond = 3 * (1 / 2 / nanosPerSecond) := by ring
  rw [abs_le]
  constructor <;> linarith

theorem Sums.add_whole (hd : Sums ps d) (he : Sums qs e) (hf : Sums (ps ++ qs) f) {n m : Nat}
    (hn : length ps = n / nanosPerSecond) (hm : length qs = m / nanosPerSecond)
    (hdays : (3 + (ps ++ qs).length : ℚ) * (length (ps ++ qs) + 1) ≤ 2 ^ 21) :
    f.inSeconds = d.inSeconds + e.inSeconds := by
  have hwhole : length (ps ++ qs) = (n + m : Nat) / nanosPerSecond := by
    rw [length_append, hn, hm, Nat.cast_add, add_div]
  have hpart {rs : List Pair} (hlength : rs.length ≤ (ps ++ qs).length)
      (hle : length rs ≤ length (ps ++ qs)) : (3 + rs.length : ℚ) * (length rs + 1) ≤ 2 ^ 21 := by
    have hrs := length_nonneg rs
    refine le_trans ?_ hdays
    gcongr
  have hps : length ps ≤ length (ps ++ qs) := by
    rw [length_append]
    exact le_add_of_nonneg_right (length_nonneg qs)
  have hqs : length qs ≤ length (ps ++ qs) := by
    rw [length_append]
    exact le_add_of_nonneg_left (length_nonneg ps)
  rw [hf.whole _ hwhole hdays, hd.whole n hn (hpart (by simp) hps), he.whole m hm (hpart (by simp) hqs),
    length_append]

end Sums

/-- The durations of two texts add up where the one text is written behind the other, as far as the sum can
be held. -/
structure Joins (s t : String) (d e : Duration) (ps qs : List Pair) : Prop where
  accepted : (parse? (s ++ t)).isSome = true ↔ Fits ((ps ++ qs).map Pair.amount)
  fits : d.inSeconds + e.inSeconds
      + (1 / nanosPerSecond + 2 * slack ((ps ++ qs).map Pair.amount)) < 2 ^ 64 →
    Fits ((ps ++ qs).map Pair.amount)
  close : ∀ f, parse? (s ++ t) = some f → |f.inSeconds - (d.inSeconds + e.inSeconds)|
    ≤ 3 / 2 / nanosPerSecond + 2 * slack ((ps ++ qs).map Pair.amount)
  whole : ∀ f, parse? (s ++ t) = some f → ∀ n m : Nat,
    length ps = n / nanosPerSecond → length qs = m / nanosPerSecond →
    (3 + (ps ++ qs).length : ℚ) * (length (ps ++ qs) + 1) ≤ 2 ^ 21 → f.inSeconds = d.inSeconds + e.inSeconds

theorem joins {s t : String} {d e : Duration} {ps qs : List Pair} (hs : s.toList = written ps)
    (ht : t.toList = written qs) (hd : parse? s = some d) (he : parse? t = some e) :
    Joins s t d e ps qs := by
  have htrim : Text.trimChars s.toList = written ps := by rw [hs, trimChars_written]
  have hfirst := sums_of_parse? htrim hd
  have hsecond := sums_of_parse? (by rw [ht, trimChars_written]) he
  have hboth : Text.trimChars (s ++ t).toList = written (ps ++ qs) := by
    rw [String.toList_append, hs, ht, ← written_append, trimChars_written]
  exact
    { accepted := isSome_parse?_of_written
        (List.append_ne_nil_of_left_ne_nil (ne_nil_of_parse? htrim hd) qs) hboth
      fits := hfirst.fits hsecond
      close := fun f hf => hfirst.add hsecond (sums_of_parse? hboth hf)
      whole := fun f hf n m hn hm => hfirst.add_whole hsecond (sums_of_parse? hboth hf) hn hm }

/-! ## All texts -/

/-- Which texts are read as a duration, and as what; how long the durations are that can be held; that reading
goes turn by turn and comes to an end; and that durations add up. -/
theorem parse?_written :
    (∀ s, (parse? s).isSome = true
        ↔ ∃ ps, ps ≠ [] ∧ Text.trimChars s.toList = written ps ∧ Fits (ps.map Pair.amount))
      ∧ (∀ s ps d, Text.trimChars s.toList = written ps → parse? s = some d → Sums ps d)
      ∧ (∀ ps, (length ps + slack (ps.map Pair.amount) < 2 ^ 64 → Fits (ps.map Pair.amount))
        ∧ (Fits (ps.map Pair.amount) → length ps < 2 ^ 64 + slack (ps.map Pair.amount)))
      ∧ (∀ cs, cs ≠ [] → amountsOfRuns? (runs cs)
        = (turn? cs).bind fun (a, rest) => (amountsOfRuns? (runs rest)).map (a :: ·))
      ∧ (WellFounded fun rest cs => ∃ a, turn? cs = some (a, rest))
      ∧ ∀ s t d e, parse? s = some d → parse? t = some e → Text.trimChars s.toList = s.toList →
        Text.trimChars t.toList = t.toList →
        (∃ ps, s.toList = written ps) ∧ (∃ qs, t.toList = written qs)
          ∧ ∀ ps qs, s.toList = written ps → t.toList = written qs → Joins s t d e ps qs := by
  refine ⟨fun s => isSome_parse?_iff, fun s ps d => sums_of_parse?, fun ps => ?_,
    fun cs => amountsOfRuns?_turn, wellFounded_turn, fun s t d e hd he hs ht => ?_⟩
  · rw [← exact_amounts]
    exact ⟨fits_of_lt, lt_of_fits⟩
  · obtain ⟨ps, -, hps, -⟩ := isSome_parse?_iff.1 (Option.isSome_of_eq_some hd)
    obtain ⟨qs, -, hqs, -⟩ := isSome_parse?_iff.1 (Option.isSome_of_eq_some he)
    exact ⟨⟨ps, hs.symm.trans hps⟩, ⟨qs, ht.symm.trans hqs⟩, fun ps qs hps hqs => joins hps hqs hd he⟩

/-- An hour and a half with half an hour behind it makes up two hours. -/
theorem twoHours_joined :
    (parse? "1.5h" = some ⟨5400000000000⟩ ∧ parse? "30m" = some ⟨1800000000000⟩
        ∧ Text.trimChars "1.5h".toList = "1.5h".toList ∧ Text.trimChars "30m".toList = "30m".toList)
      ∧ Sums [⟨['1', '.', '5'], by decide, .hours⟩] ⟨5400000000000⟩
      ∧ Joins "1.5h" "30m" ⟨5400000000000⟩ ⟨1800000000000⟩
        [⟨['1', '.', '5'], by decide, .hours⟩] [⟨['3', '0'], by decide, .minutes⟩]
      ∧ parse? ("1.5h" ++ "30m") = some ⟨7200000000000⟩
      ∧ (⟨7200000000000⟩ : Duration).inSeconds
        = (⟨5400000000000⟩ : Duration).inSeconds + (⟨1800000000000⟩ : Duration).inSeconds := by
  obtain ⟨-, hsums, -, -, -, hjoins⟩ := parse?_written
  have hd : parse? "1.5h" = some ⟨5400000000000⟩ := by decide +kernel
  have he : parse? "30m" = some ⟨1800000000000⟩ := by decide +kernel
  have hf : parse? ("1.5h" ++ "30m") = some ⟨7200000000000⟩ := by decide +kernel
  have hs : Text.trimChars "1.5h".toList = "1.5h".toList := by decide
  have ht : Text.trimChars "30m".toList = "30m".toList := by decide
  have hjoined := (hjoins _ _ _ _ hd he hs ht).2.2 [⟨['1', '.', '5'], by decide, .hours⟩]
    [⟨['3', '0'], by decide, .minutes⟩] rfl rfl
  have hfirst : length [⟨['1', '.', '5'], by decide, .hours⟩] = 5400 := by decide +kernel
  have hsecond : length [⟨['3', '0'], by decide, .minutes⟩] = 1800 := by decide +kernel
  refine ⟨⟨hd, he, hs, ht⟩, hsums _ _ _ hs hd, hjoined, hf,
    hjoined.whole _ hf 5400000000000 1800000000000 ?_ ?_ ?_⟩
  · rw [hfirst]
    norm_num [nanosPerSecond]
  · rw [hsecond]
    norm_num [nanosPerSecond]
  · rw [length_append, hfirst, hsecond]
    norm_num

end PipelineCompiler.Duration
