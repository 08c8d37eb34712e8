import PipelineCompiler.Proofs.Text

/-!
# Identifiers of free texts

An identifier holds nothing but the characters of identifiers, and what else stands in the text ends up as
dashes between the words that are left. Where no word is left there is nothing to put a dash between, so
that the identifier of such a text is empty (`identifier_eq_empty`). A text of identifier characters alone
is kept as it is (`identifier_eq_self`), so that making an identifier of an identifier changes nothing.
-/

namespace PipelineCompiler.Text

/-! ## Characters of identifiers -/

theorem isIdentifierChar_iff {c : Char} :
    isIdentifierChar c = true ↔
      (97 ≤ c.toNat ∧ c.toNat ≤ 122) ∨ (48 ≤ c.toNat ∧ c.toNat ≤ 57) ∨ c = '-' ∨ c = '.' := by
  unfold isIdentifierChar isLowerAlnum Char.isLower Char.isDigit
  simp [UInt32.le_iff_toNat_le, ← Char.toNat_val, or_assoc]

/-- The characters of identifiers are ASCII characters and no capitals, so that they stay as they are in
lower case. -/
theorem isUpper_of_isIdentifierChar {c : Char} (h : isIdentifierChar c = true) :
    c.toNat < 0x80 ∧ c.isUpper = false := by
  have hcapital : c.isUpper = true ↔ 65 ≤ c.toNat ∧ c.toNat ≤ 90 := by
    unfold Char.isUpper
    simp [UInt32.le_iff_toNat_le, ← Char.toNat_val]
  rw [← Bool.not_eq_true, hcapital]
  rcases isIdentifierChar_iff.1 h with hrange | hrange | rfl | rfl
  · omega
  · omega
  · decide
  · decide

theorem isBlank_of_isIdentifierChar {c : Char} (h : isIdentifierChar c = true) : isBlank c = false := by
  rcases isIdentifierChar_iff.1 h with hrange | hrange | rfl | rfl
  · simp [isBlank]
    omega
  · simp [isBlank]
    omega
  · decide
  · decide

/-! ## Words of a text -/

/-- The characters of a word stand in the text, and none of them is a blank. -/
theorem mem_of_mem_wordsOf {cs w : List Char} (hw : w ∈ wordsOf cs) {c : Char} (hc : c ∈ w) :
    c ∈ cs ∧ isBlank c = false := by
  obtain ⟨hw, -⟩ := List.mem_filter.1 hw
  exact ⟨(infix_of_mem_splitWhen hw).subset hc, not_of_mem_splitWhen hw hc⟩

theorem ne_nil_of_mem_wordsOf {cs w : List Char} (hw : w ∈ wordsOf cs) : w ≠ [] := by
  simpa using (List.mem_filter.1 hw).2

/-- A text has no words just if it is blank. -/
theorem wordsOf_eq_nil_iff {cs : List Char} : wordsOf cs = [] ↔ ∀ c ∈ cs, isBlank c = true := by
  induction cs with
  | nil => simp [wordsOf, splitWhen]
  | cons c cs ih =>
      by_cases hc : isBlank c = true
      · rw [wordsOf_cons_of_blank hc, ih, List.forall_mem_cons]
        exact (and_iff_right hc).symm
      · rw [List.forall_mem_cons, wordsOf, splitWhen, if_neg hc]
        refine iff_of_false ?_ fun h => hc h.1
        split
        · simp
        · simp

/-! ## Identifiers -/

/-- The text holds a character of identifiers, once it is lower case. -/
def hasIdentifier (s : String) : Bool := (lowerChars s.toList).any isIdentifierChar

/-- An identifier holds nothing but the characters of identifiers. -/
theorem isIdentifierChar_of_mem_identifier {s : String} {c : Char} (hc : c ∈ (identifier s).toList) :
    isIdentifierChar c = true := by
  rw [identifier, String.toList_ofList] at hc
  rcases mem_or_mem_of_mem_intercalate hc with hdash | ⟨w, hw, hc⟩
  · rw [List.mem_singleton.1 hdash]
    decide
  · obtain ⟨hmem, hblank⟩ := mem_of_mem_wordsOf hw hc
    obtain ⟨d, -, rfl⟩ := List.mem_map.1 hmem
    by_cases hd : isIdentifierChar d = true
    · rwa [if_pos hd]
    · rw [if_neg hd] at hblank
      exact absurd hblank (by decide)

/-- An identifier is empty just if the text holds no character of identifiers. -/
theorem identifier_eq_empty {s : String} : identifier s = "" ↔ hasIdentifier s = false := by
  have hjoin (ws : List (List Char)) (hws : ∀ w ∈ ws, w ≠ []) :
      ['-'].intercalate ws = [] ↔ ws = [] := by
    cases ws with
    | nil => simp
    | cons w ws =>
        refine iff_of_false (fun hnil => ?_) (List.cons_ne_nil w ws)
        have hhead := head?_intercalate ['-'] (hws w List.mem_cons_self) ws
        rw [hnil] at hhead
        exact hws w List.mem_cons_self (List.head?_eq_none_iff.1 hhead.symm)
  rw [identifier, ← String.toList_inj, String.toList_ofList, String.toList_empty,
    hjoin _ fun _ => ne_nil_of_mem_wordsOf, wordsOf_eq_nil_iff, List.forall_mem_map, hasIdentifier,
    List.any_eq_false]
  refine forall₂_congr fun c _ => ?_
  by_cases hc : isIdentifierChar c = true
  · simp [hc, isBlank_of_isIdentifierChar hc]
  · rw [if_neg hc]
    exact iff_of_true (by decide) hc

/-- A text of identifier characters alone is kept as it is. -/
theorem identifier_eq_self {s : String} (h : ∀ c ∈ s.toList, isIdentifierChar c = true) :
    identifier s = s := by
  have hlower : lowerChars s.toList = s.toList :=
    lowerChars_eq_self fun c hc => isUpper_of_isIdentifierChar (h c hc)
  have hkept : (s.toList.map fun c => if isIdentifierChar c then c else ' ') = s.toList :=
    (List.map_congr_left fun c hc => if_pos (h c hc)).trans (List.map_id' s.toList)
  rw [identifier, hlower, hkept]
  by_cases hnil : s.toList = []
  · rw [← String.toList_inj, hnil]
    rfl
  · have hwords : wordsOf s.toList = [s.toList] := by
      have hword : wordsOf (s.toList ++ []) = s.toList :: wordsOf [] :=
        wordsOf_append hnil (fun c hc => isBlank_of_isIdentifierChar (h c hc)) (by simp)
      rwa [List.append_nil] at hword
    rw [hwords, List.intercalate_singleton, String.ofList_toList]

/-- Making an identifier of an identifier changes nothing. -/
theorem identifier_identifier (s : String) : identifier (identifier s) = identifier s :=
  identifier_eq_self fun _ => isIdentifierChar_of_mem_identifier

end PipelineCompiler.Text
