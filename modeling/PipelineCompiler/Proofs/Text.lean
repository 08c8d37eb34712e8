import Mathlib.Data.List.DropRight
import PipelineCompiler.Text.Cut
import PipelineCompiler.Text.Identifier

/-!
# Texts that are cut and put together

Cutting a text at a class of characters is the split of the library, so that its lemmas on putting the
parts together again apply.
-/

namespace PipelineCompiler.Text

theorem splitWhen_eq_splitOnP (p : Char → Bool) (cs : List Char) : splitWhen p cs = cs.splitOnP p := by
  induction cs with
  | nil => rw [splitWhen, List.splitOnP_nil]
  | cons c cs ih =>
      rw [splitWhen, List.splitOnP_cons_eq_if_modifyHead, ih]
      split
      · rfl
      · cases hsplit : cs.splitOnP p with
        | nil => exact absurd hsplit (List.splitOnP_ne_nil p cs)
        | cons w ws => rfl

/-- The parts of a text hold no character that it was cut at. -/
theorem not_of_mem_splitWhen {p : Char → Bool} {cs w : List Char} (hw : w ∈ splitWhen p cs) {c : Char}
    (hc : c ∈ w) : p c = false := by
  induction cs generalizing w with
  | nil =>
      rw [splitWhen, List.mem_singleton] at hw
      subst hw
      exact absurd hc List.not_mem_nil
  | cons d cs ih =>
      rw [splitWhen] at hw
      split at hw
      · rcases List.mem_cons.1 hw with rfl | hw
        · exact absurd hc List.not_mem_nil
        · exact ih hw hc
      · next hd =>
          split at hw
          · rw [List.mem_singleton] at hw
            subst hw
            rw [List.mem_singleton.1 hc]
            simpa using hd
          · next v vs hsplit =>
              rcases List.mem_cons.1 hw with rfl | hw
              · rcases List.mem_cons.1 hc with rfl | hc
                · simpa using hd
                · exact ih (hsplit ▸ List.mem_cons_self) hc
              · exact ih (hsplit ▸ List.mem_cons_of_mem v hw) hc

/-- Parts that are put together begin like the first of them. -/
theorem head?_intercalate (sep : List Char) {w : List Char} (hw : w ≠ []) (ws : List (List Char)) :
    (sep.intercalate (w :: ws)).head? = w.head? := by
  obtain ⟨c, w, rfl⟩ := List.exists_cons_of_ne_nil hw
  cases ws with
  | nil => simp [List.intercalate]
  | cons v vs => simp [List.intercalate]

/-- What stands in parts that are put together stands in one of them, or between two. -/
theorem mem_or_mem_of_mem_intercalate {sep : List Char} {ws : List (List Char)} {c : Char}
    (h : c ∈ sep.intercalate ws) : c ∈ sep ∨ ∃ w ∈ ws, c ∈ w := by
  induction ws with
  | nil => simp at h
  | cons w ws ih =>
      by_cases hws : ws = []
      · subst hws
        rw [List.intercalate_singleton] at h
        exact .inr ⟨w, List.mem_singleton_self w, h⟩
      · rw [List.intercalate_cons_of_ne_nil hws, List.append_assoc, List.mem_append, List.mem_append] at h
        rcases h with h | h | h
        · exact .inr ⟨w, List.mem_cons_self, h⟩
        · exact .inl h
        · exact (ih h).imp_right fun ⟨v, hv, hc⟩ => ⟨v, List.mem_cons_of_mem w hv, hc⟩

/-- What stands in a part stands in the parts that are put together. -/
theorem mem_intercalate {ws : List (List Char)} {w : List Char} {c : Char} (hw : w ∈ ws) (hc : c ∈ w)
    (sep : List Char) : c ∈ sep.intercalate ws := by
  induction ws with
  | nil => exact absurd hw List.not_mem_nil
  | cons v ws ih =>
      by_cases hws : ws = []
      · subst hws
        rwa [List.intercalate_singleton, ← List.mem_singleton.1 hw]
      · rw [List.intercalate_cons_of_ne_nil hws]
        rcases List.mem_cons.1 hw with rfl | hw
        · exact List.mem_append_left _ (List.mem_append_left _ hc)
        · exact List.mem_append_right _ (ih hw)

/-- An identifier begins like the text that it is made from, in lower case, if that may begin one. -/
theorem head?_identifier {c : Char} {s : String} (hlower : (lowerChars s.toList).head? = some c)
    (hc : isIdentifierChar c = true) (hblank : isBlank c = false) :
    (identifier s).toList.head? = some c := by
  obtain ⟨rest, hrest⟩ := List.head?_eq_some_iff.1 hlower
  rw [identifier, hrest, List.map_cons, if_pos hc, wordsOf, splitWhen, if_neg (by simp [hblank]),
    String.toList_ofList]
  split
  · rfl
  · next w ws hsplit =>
      rw [List.filter_cons_of_pos (by simp), head?_intercalate _ (List.cons_ne_nil c w)]
      rfl

/-- The parts of a text stand in it. -/
theorem infix_of_mem_splitWhen {p : Char → Bool} {cs w : List Char} (hw : w ∈ splitWhen p cs) :
    w <:+: cs := by
  -- the first part stands at the start, which is what the part that a character is added to needs
  suffices h : (∀ v, (splitWhen p cs).head? = some v → v <+: cs) ∧ ∀ v ∈ splitWhen p cs, v <:+: cs from
    h.2 w hw
  clear hw
  induction cs with
  | nil => simp [splitWhen]
  | cons c cs ih =>
      obtain ⟨hfirst, hparts⟩ := ih
      rw [splitWhen]
      split
      · refine ⟨fun v hv => ?_, fun v hv => ?_⟩
        · obtain rfl := Option.some.inj hv
          exact List.nil_prefix
        · rcases List.mem_cons.1 hv with rfl | hv
          · exact List.nil_infix
          · exact List.infix_cons (hparts v hv)
      · split
        · refine ⟨fun v hv => ?_, fun v hv => ?_⟩
          · obtain rfl := Option.some.inj hv
            exact List.prefix_append [c] cs
          · obtain rfl := List.mem_singleton.1 hv
            exact (List.prefix_append [c] cs).isInfix
        · next u us hsplit =>
            rw [hsplit] at hfirst hparts
            have hu : c :: u <+: c :: cs := List.prefix_cons_inj c |>.2 (hfirst u rfl)
            refine ⟨fun v hv => ?_, fun v hv => ?_⟩
            · obtain rfl := Option.some.inj hv
              exact hu
            · rcases List.mem_cons.1 hv with rfl | hv
              · exact hu.isInfix
              · exact List.infix_cons (hparts v (List.mem_cons_of_mem u hv))

/-! ## Ends and cuts -/

/-- A text begins with another just if it is that text and what follows it. -/
theorem afterStart?_eq_some {start cs rest : List Char} :
    afterStart? start cs = some rest ↔ cs = start ++ rest := by
  induction start generalizing cs with
  | nil => simp [afterStart?]
  | cons p ps ih =>
      cases cs with
      | nil => simp [afterStart?]
      | cons c cs =>
          by_cases hc : p = c
          · simp [afterStart?, hc, ih]
          · simp [afterStart?, hc, Ne.symm hc]

theorem afterStart?_eq_none {start cs : List Char} : afterStart? start cs = none ↔ ¬ start <+: cs := by
  rw [Option.eq_none_iff_forall_ne_some, List.prefix_iff_exists_append_eq, not_exists]
  exact forall_congr' fun rest => not_congr (afterStart?_eq_some.trans eq_comm)

theorem dropStart?_eq_some {s start rest : String} : dropStart? s start = some rest ↔ s = start ++ rest := by
  rw [dropStart?, Option.map_eq_some_iff, ← String.toList_inj, String.toList_append]
  constructor
  · rintro ⟨cs, hcs, rfl⟩
    rw [String.toList_ofList]
    exact afterStart?_eq_some.1 hcs
  · intro hs
    exact ⟨rest.toList, afterStart?_eq_some.2 hs, String.ofList_toList⟩

theorem dropStart?_eq_none {s start : String} :
    dropStart? s start = none ↔ ¬ start.toList <+: s.toList := by
  rw [dropStart?, Option.map_eq_none_iff, afterStart?_eq_none]

/-- A text ends with another just if it is what precedes it and that text. -/
theorem beforeEnd?_eq_some {stop cs rest : List Char} :
    beforeEnd? stop cs = some rest ↔ cs = rest ++ stop := by
  rw [beforeEnd?, Option.map_eq_some_iff]
  constructor
  · rintro ⟨back, hback, rfl⟩
    rw [afterStart?_eq_some] at hback
    rw [← List.reverse_inj, hback, List.reverse_append, List.reverse_reverse]
  · rintro rfl
    exact ⟨rest.reverse, afterStart?_eq_some.2 List.reverse_append, List.reverse_reverse rest⟩

/-- A text is cut where the separator first stands. -/
theorem cutFirst_eq_some {sep : Char} {cs before after : List Char} :
    cutFirst sep cs = some (before, after) ↔ cs = before ++ sep :: after ∧ sep ∉ before := by
  induction cs generalizing before with
  | nil => simp [cutFirst]
  | cons c cs ih =>
      rw [cutFirst]
      by_cases hc : c = sep
      · subst hc
        cases before with
        | nil => simp
        | cons d before => simp +contextual
      · rw [if_neg hc, Option.map_eq_some_iff]
        constructor
        · rintro ⟨⟨before', after'⟩, hcut, heq⟩
          obtain ⟨rfl, rfl⟩ := Prod.mk.inj heq
          obtain ⟨rfl, hsep⟩ := ih.1 hcut
          exact ⟨rfl, by simpa [Ne.symm hc] using hsep⟩
        · rintro ⟨heq, hsep⟩
          cases before with
          | nil => exact absurd (List.cons.inj heq).1 hc
          | cons d before =>
              obtain ⟨rfl, rfl⟩ := List.cons.inj heq
              exact ⟨(before, after), ih.2 ⟨rfl, fun h => hsep (List.mem_cons_of_mem c h)⟩, rfl⟩

theorem cutFirst_eq_none {sep : Char} {cs : List Char} : cutFirst sep cs = none ↔ sep ∉ cs := by
  induction cs with
  | nil => simp [cutFirst]
  | cons c cs ih =>
      rw [cutFirst]
      by_cases hc : c = sep
      · simp [hc]
      · simp [hc, Ne.symm hc, ih]

/-- A text is cut where the separator last stands. -/
theorem cutLast_eq_some {sep : Char} {cs before after : List Char} :
    cutLast sep cs = some (before, after) ↔ cs = before ++ sep :: after ∧ sep ∉ after := by
  rw [cutLast, Option.map_eq_some_iff]
  constructor
  · rintro ⟨⟨back, front⟩, hcut, heq⟩
    obtain ⟨rfl, rfl⟩ := Prod.mk.inj heq
    obtain ⟨hcs, hsep⟩ := cutFirst_eq_some.1 hcut
    exact ⟨by simpa using congrArg List.reverse hcs, by simpa using hsep⟩
  · rintro ⟨rfl, hsep⟩
    refine ⟨(after.reverse, before.reverse), cutFirst_eq_some.2 ⟨?_, by simpa using hsep⟩, ?_⟩
    · simp
    · simp

theorem cutLast_eq_none {sep : Char} {cs : List Char} : cutLast sep cs = none ↔ sep ∉ cs := by
  rw [cutLast, Option.map_eq_none_iff, cutFirst_eq_none, List.mem_reverse]

/-- A character is taken off the start of a text until another one stands there. -/
theorem dropStarts_singleton (c : Char) (cs : List Char) :
    dropStarts [c] cs = cs.dropWhile (· == c) := by
  induction cs with
  | nil => rw [dropStarts]; rfl
  | cons d cs ih =>
      rw [dropStarts, dif_neg (List.cons_ne_nil c [])]
      split
      · next hnone =>
          have hd : d ≠ c := by
            rintro rfl
            simp [afterStart?] at hnone
          rw [List.dropWhile_cons_of_neg (by simpa using hd)]
      · next rest hrest =>
          obtain ⟨rfl, rfl⟩ := List.cons.inj (afterStart?_eq_some.1 hrest)
          rw [List.dropWhile_cons_of_pos (by simp)]
          exact ih

/-- A character is taken off the end of a text until another one stands there. -/
theorem exists_dropEnds_singleton (c : Char) (cs : List Char) :
    (∃ n, cs = dropEnds [c] cs ++ List.replicate n c) ∧ (dropEnds [c] cs).getLast? ≠ some c := by
  have hrest : dropEnds [c] cs = cs.rdropWhile (· == c) := by
    rw [dropEnds, List.reverse_singleton, dropStarts_singleton, List.rdropWhile]
  have htaken : cs.rtakeWhile (· == c) = List.replicate (cs.rtakeWhile (· == c)).length c :=
    List.eq_replicate_of_mem fun d hd => by simpa using List.mem_rtakeWhile_imp hd
  rw [hrest]
  refine ⟨⟨(cs.rtakeWhile (· == c)).length, ?_⟩, fun hlast => ?_⟩
  · rw [← htaken, List.rdropWhile_append_rtakeWhile]
  · have hne : cs.rdropWhile (· == c) ≠ [] := by
      intro hnil
      simp [hnil] at hlast
    rw [List.getLast?_eq_getLast_of_ne_nil hne, Option.some.injEq] at hlast
    have hother := List.rdropWhile_last_not _ _ hne
    simp [hlast] at hother

section Run

variable {p : Char → Bool} {run rest : List Char}

/-- A run of a class of characters goes on to the first character that is not of the class. -/
theorem takeWhile_run (hrun : ∀ c ∈ run, p c = true) (hrest : ∀ c ∈ rest.head?, p c = false) :
    (run ++ rest).takeWhile p = run := by
  rw [List.takeWhile_append_of_pos hrun]
  cases rest with
  | nil => rw [List.takeWhile_nil, List.append_nil]
  | cons c rest => rw [List.takeWhile_cons_of_neg (by simp [hrest c rfl]), List.append_nil]

theorem dropWhile_run (hrun : ∀ c ∈ run, p c = true) (hrest : ∀ c ∈ rest.head?, p c = false) :
    (run ++ rest).dropWhile p = rest := by
  rw [List.dropWhile_append_of_pos hrun]
  cases rest with
  | nil => rw [List.dropWhile_nil]
  | cons c rest => rw [List.dropWhile_cons_of_neg (by simp [hrest c rfl])]

end Run

/-- A text is what is left of it, with blanks around. -/
theorem exists_trimChars (cs : List Char) :
    ∃ before after, cs = before ++ trimChars cs ++ after ∧ (∀ c ∈ before, isBlank c = true)
      ∧ ∀ c ∈ after, isBlank c = true := by
  refine ⟨cs.takeWhile isBlank, (cs.dropWhile isBlank).rtakeWhile isBlank, ?_,
    fun c hc => List.mem_takeWhile_imp hc, fun c hc => List.mem_rtakeWhile_imp hc⟩
  have hend : trimChars cs ++ (cs.dropWhile isBlank).rtakeWhile isBlank = cs.dropWhile isBlank :=
    List.rdropWhile_append_rtakeWhile
  rw [List.append_assoc, hend, List.takeWhile_append_dropWhile]

/-- The blanks around a text that has none at its own ends are dropped. -/
theorem trimChars_append {before cs after : List Char} (hne : cs ≠ [])
    (hbefore : ∀ c ∈ before, isBlank c = true) (hafter : ∀ c ∈ after, isBlank c = true)
    (hfirst : ∀ c, cs.head? = some c → isBlank c = false)
    (hlast : ∀ c, cs.getLast? = some c → isBlank c = false) :
    trimChars (before ++ cs ++ after) = cs := by
  have hstart : (before ++ (cs ++ after)).dropWhile isBlank = cs ++ after := by
    refine dropWhile_run hbefore fun c hc => hfirst c ?_
    rwa [List.head?_append_of_ne_nil cs hne] at hc
  have hend : (after.reverse ++ cs.reverse).dropWhile isBlank = cs.reverse := by
    refine dropWhile_run (by simpa using hafter) fun c hc => hlast c ?_
    rwa [List.head?_reverse] at hc
  rw [List.append_assoc, trimChars, hstart, dropEndWhile, List.reverse_append, hend,
    List.reverse_reverse]

/-- A text without blanks at its ends is not trimmed. -/
theorem trimChars_eq_self {cs : List Char} (hfirst : ∀ c, cs.head? = some c → isBlank c = false)
    (hlast : ∀ c, cs.getLast? = some c → isBlank c = false) : trimChars cs = cs := by
  by_cases hne : cs = []
  · subst hne
    rfl
  · have hnone : ∀ c ∈ [], isBlank c = true := List.forall_mem_nil _
    simpa using trimChars_append hne hnone hnone hfirst hlast

/-! ## Words -/

/-- A blank at the start of a text is not part of its words. -/
theorem wordsOf_cons_of_blank {c : Char} (hc : isBlank c = true) (cs : List Char) :
    wordsOf (c :: cs) = wordsOf cs := by
  rw [wordsOf, splitWhen, if_pos hc, List.filter_cons_of_neg (by simp), wordsOf]

/-- The first word of a text goes on to the first blank. -/
theorem wordsOf_append {w rest : List Char} (hne : w ≠ []) (hword : ∀ c ∈ w, isBlank c = false)
    (hrest : ∀ c, rest.head? = some c → isBlank c = true) : wordsOf (w ++ rest) = w :: wordsOf rest := by
  cases rest with
  | nil =>
      rw [List.append_nil, wordsOf, splitWhen_eq_splitOnP, List.splitOnP_eq_singleton hword,
        List.filter_cons_of_pos (by simpa using hne)]
      rfl
  | cons c rest =>
      have hc : isBlank c = true := hrest c rfl
      rw [wordsOf_cons_of_blank hc, wordsOf, splitWhen_eq_splitOnP,
        List.splitOnP_append_cons_of_forall_mem hword c hc,
        List.filter_cons_of_pos (by simpa using hne), wordsOf, splitWhen_eq_splitOnP]

theorem head?_words {s : String} {w rest : List Char} (hs : s.toList = w ++ rest) (hne : w ≠ [])
    (hword : ∀ c ∈ w, isBlank c = false) (hrest : ∀ c, rest.head? = some c → isBlank c = true) :
    (words s).head? = some (String.ofList w) := by
  rw [words, hs, wordsOf_append hne hword hrest]
  rfl

/-- A text that does not begin with a blank is its first word and the rest. -/
theorem exists_of_head?_words {s word : String} (h : (words s).head? = some word)
    (hstart : ∀ c, s.toList.head? = some c → isBlank c = false) :
    ∃ rest, s.toList = word.toList ++ rest ∧ word.toList ≠ [] ∧ (∀ c ∈ word.toList, isBlank c = false)
      ∧ ∀ c, rest.head? = some c → isBlank c = true := by
  have hs := (List.takeWhile_append_dropWhile (p := fun c => !isBlank c) (l := s.toList)).symm
  have hword : ∀ c ∈ s.toList.takeWhile fun c => !isBlank c, isBlank c = false := fun c hc => by
    simpa using List.mem_takeWhile_imp hc
  have hrest : ∀ c, (s.toList.dropWhile fun c => !isBlank c).head? = some c → isBlank c = true := by
    intro c hc
    have hstop := List.head?_dropWhile_not (fun c => !isBlank c) s.toList
    rw [hc] at hstop
    simpa using hstop
  have hne : (s.toList.takeWhile fun c => !isBlank c) ≠ [] := by
    intro hnil
    cases hcs : s.toList with
    | nil => simp [words, hcs, wordsOf, splitWhen] at h
    | cons c cs =>
        have hc := hstart c (by rw [hcs]; rfl)
        simp [hcs, hc] at hnil
  rw [head?_words hs hne hword hrest, Option.some.injEq] at h
  rw [← h, String.toList_ofList]
  exact ⟨_, hs, hne, hword, hrest⟩

/-! ## Patterns -/

/-- A pattern at the start of a text is found there. -/
theorem cutAt_append (pattern rest : List Char) : cutAt pattern (pattern ++ rest) = some ([], rest) := by
  have hstart : afterStart? pattern (pattern ++ rest) = some rest := afterStart?_eq_some.2 rfl
  cases hcs : pattern ++ rest with
  | nil =>
      obtain ⟨rfl, rfl⟩ := List.append_eq_nil_iff.1 hcs
      rfl
  | cons c cs =>
      rw [hcs] at hstart
      rw [cutAt, hstart]

/-- Around a pattern that is found there stands the rest of the text. -/
theorem eq_of_cutAt {pattern cs before after : List Char} (h : cutAt pattern cs = some (before, after)) :
    cs = before ++ pattern ++ after := by
  induction cs generalizing before with
  | nil =>
      obtain ⟨rest, hrest, heq⟩ := Option.map_eq_some_iff.1 h
      obtain ⟨rfl, rfl⟩ := Prod.mk.inj heq
      exact afterStart?_eq_some.1 hrest
  | cons c cs ih =>
      rw [cutAt] at h
      split at h
      · next rest hrest =>
          obtain ⟨rfl, rfl⟩ := Prod.mk.inj (Option.some.inj h)
          exact afterStart?_eq_some.1 hrest
      · obtain ⟨⟨before', after'⟩, hcut, heq⟩ := Option.map_eq_some_iff.1 h
        obtain ⟨rfl, rfl⟩ := Prod.mk.inj heq
        rw [ih hcut]
        rfl

/-- A pattern is found in a text just if it stands somewhere in it. -/
theorem cutAt_eq_none {pattern cs : List Char} : cutAt pattern cs = none ↔ ¬ pattern <:+: cs := by
  induction cs with
  | nil =>
      rw [cutAt, Option.map_eq_none_iff, List.infix_nil]
      cases pattern with
      | nil => simp [afterStart?]
      | cons c pattern => simp [afterStart?]
  | cons c cs ih =>
      rw [cutAt, List.infix_cons_iff, not_or, ← ih]
      cases hstart : afterStart? pattern (c :: cs) with
      | none => simp [afterStart?_eq_none.1 hstart]
      | some rest =>
          have hstands : pattern <+: c :: cs := ⟨rest, (afterStart?_eq_some.1 hstart).symm⟩
          simp [hstands]

end PipelineCompiler.Text
