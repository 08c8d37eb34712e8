import PipelineCompiler.Actions.Runner
import PipelineCompiler.Proofs.Secret

/-!
# How references are read

A secret is read for more values than the rules take for references: blanks may stand around them, and their
names may hold any characters but blanks and parentheses. Whatever these are, the name that the secret is
kept under consists of upper case letters, digits and underscores, and so a value that has been read is not
one to be read again (`readSecret_resolves`).
-/

namespace PipelineCompiler.Actions

open Secret

/-! ## Names of secrets -/

/-- The characters of the names that secrets are kept under. -/
def isSecretChar (c : Char) : Bool := c.isUpper || c.isDigit || c == '_'

theorem isUpper_toUpper {c : Char} (h : c.isLower = true) : c.toUpper.isUpper = true := by
  unfold Char.isLower at h
  have hlower : c.val ≥ 'a'.val ∧ c.val ≤ 'z'.val := by simpa using h
  have hupper : c.toUpper.val = c.val + ('A'.val - 'a'.val) := by
    unfold Char.toUpper
    rw [dif_pos hlower]
  have hge : 97 ≤ c.val.toNat := hlower.1
  have hle : c.val.toNat ≤ 122 := hlower.2
  -- the code of a lower case letter goes down by 32, which is written as adding its complement
  have hval : c.toUpper.val.toNat = (c.val.toNat + 4294967264) % 4294967296 := by
    simp [hupper, UInt32.toNat_add]
  unfold Char.isUpper
  simp only [decide_eq_true_eq, ge_iff_le, UInt32.le_iff_toNat_le, hval]
  show 65 ≤ _ ∧ _ ≤ 90
  omega

theorem toUpper_eq_self {c : Char} (h : c.isLower = false) : c.toUpper = c := by
  unfold Char.isLower at h
  unfold Char.toUpper
  rw [dif_neg (by simpa using h)]

theorem isSecretChar_secretNameChar (c : Char) : isSecretChar (secretNameChar c) = true := by
  unfold secretNameChar
  split
  · next halnum =>
      cases hlower : c.isLower with
      | true => simp [isSecretChar, isUpper_toUpper hlower]
      | false =>
          unfold Char.isAlphanum Char.isAlpha at halnum
          have hother : c.isUpper = true ∨ c.isDigit = true := by simpa [hlower] using halnum
          simpa [isSecretChar, toUpper_eq_self hlower] using Or.inl hother
  · decide

/-- The text reads a secret of a name with `EE_` in front of upper case letters, digits and underscores. -/
def ReadsSecret (text : String) : Prop :=
  ∃ name : List Char, text = expression ("secrets.EE_" ++ String.ofList name) ∧ name ≠ []
    ∧ ∀ c ∈ name, isSecretChar c = true

theorem readsSecret_secretName (map key : List Char) :
    ReadsSecret (expression ("secrets." ++ secretName map key)) := by
  refine ⟨(map ++ '_' :: key).map secretNameChar, ?_, by simp, fun c hc => ?_⟩
  · rw [secretName, ← String.append_assoc]
    rfl
  · obtain ⟨d, -, rfl⟩ := List.mem_map.1 hc
    exact isSecretChar_secretNameChar d

/-! ## Values with a secret -/

/-- A secret is read for a value that names a map and a key in parentheses, with nothing but blanks around.
The first dot ends the name of the map. -/
theorem referenceParts?_eq_some {v : String} {map key : List Char} :
    referenceParts? v = some (map, key) ↔
      (∃ before after, v.toList = before ++ (['(', '('] ++ (map ++ '.' :: key) ++ [')', ')']) ++ after
          ∧ (∀ c ∈ before, Text.isBlank c = true) ∧ ∀ c ∈ after, Text.isBlank c = true)
        ∧ map ≠ [] ∧ key ≠ [] ∧ '.' ∉ map ∧ ∀ c ∈ map ++ '.' :: key, c ≠ '(' ∧ c ≠ ')' ∧ c ≠ ' ' := by
  simp only [referenceParts?, bind, Option.bind_eq_some_iff, inner?_eq_some]
  constructor
  · rintro ⟨inner, htrim, ⟨map', key'⟩, hcut, hparts⟩
    obtain ⟨rfl, hdot⟩ := Text.cutFirst_eq_some.1 hcut
    dsimp only at hparts
    split at hparts
    · simp at hparts
    · next hgood =>
        obtain ⟨rfl, rfl⟩ := Prod.mk.inj (Option.some.inj hparts)
        obtain ⟨before, after, hv, hbefore, hafter⟩ := Text.exists_trimChars v.toList
        rw [htrim] at hv
        simp only [Bool.or_eq_true, not_or, List.isEmpty_iff, List.any_eq_true, not_exists,
          not_and, beq_iff_eq] at hgood
        obtain ⟨⟨hmap, hkey⟩, hplain⟩ := hgood
        exact ⟨⟨before, after, hv, hbefore, hafter⟩, hmap, hkey, hdot, fun c hc => by
          simpa [and_assoc] using hplain c hc⟩
  · rintro ⟨⟨before, after, hv, hbefore, hafter⟩, hmap, hkey, hdot, hplain⟩
    have htrim : Text.trimChars v.toList = ['(', '('] ++ (map ++ '.' :: key) ++ [')', ')'] := by
      rw [hv]
      refine Text.trimChars_append (by simp) hbefore hafter (fun c hc => ?_) fun c hc => ?_
      · obtain rfl : '(' = c := Option.some.inj hc
        decide
      · rw [List.getLast?_append] at hc
        obtain rfl : ')' = c := Option.some.inj hc
        decide
    have hany : (map ++ '.' :: key).any (fun c => c == '(' || c == ')' || c == ' ') = false := by
      rw [List.any_eq_false]
      intro c hc
      simpa [and_assoc] using hplain c hc
    refine ⟨_, htrim, (map, key), Text.cutFirst_eq_some.2 ⟨rfl, hdot⟩, ?_⟩
    simp [hmap, hkey, hany]

/-- The secret of a reference is read under the names of the reference. -/
theorem referenceParts?_of_parts? {v : String} {map key : List Char}
    (h : parts? v.toList = some (map, key)) : referenceParts? v = some (map, key) := by
  obtain ⟨hv, hmap, hkey, hmapChars, hkeyChars⟩ := parts?_eq_some.1 h
  have hdot : '.' ∉ map := fun hmem => absurd (hmapChars _ hmem) (by decide)
  refine referenceParts?_eq_some.2 ⟨⟨[], [], by simpa using hv, by simp, by simp⟩, hmap, hkey, hdot, ?_⟩
  intro c hc
  have hname : isNameChar c = true ∨ c = '.' := by
    rcases List.mem_append.1 hc with hc | hc
    · exact .inl (hmapChars c hc)
    · rcases List.mem_cons.1 hc with hc | hc
      · exact .inr hc
      · exact .inl (hkeyChars c hc)
  -- names hold none of the characters that only secrets refuse
  refine ⟨?_, ?_, ?_⟩
  all_goals
    rintro rfl
    exact absurd hname (by decide)

/-- An expression is no reference, since it begins with a dollar sign. -/
theorem referenceParts?_expression (text : String) : referenceParts? (expression text) = none := by
  rw [Option.eq_none_iff_forall_ne_some]
  rintro ⟨map, key⟩ hparts
  obtain ⟨⟨before, after, heq, hbefore, -⟩, -⟩ := referenceParts?_eq_some.1 hparts
  have hhead : (expression text).toList.head? = some '$' := by
    rw [expression, String.append_assoc, String.toList_append]
    rfl
  rw [heq] at hhead
  cases before with
  | nil => exact absurd hhead (by simp)
  | cons c before =>
      obtain rfl : c = '$' := Option.some.inj hhead
      exact absurd (hbefore '$' List.mem_cons_self) (by decide)

/-- The value of a reference is read as the secret that is kept under its names, which upper case letters,
digits and underscores make up. A value that does not come to read a secret stays as it is, and one that has
been read stays so too. -/
theorem readSecret_resolves (v : String) :
    (∀ map key, parts? v.toList = some (map, key) →
        readSecret v = expression ("secrets." ++ secretName map key))
      ∧ (isReference v = true → ReadsSecret (readSecret v))
      ∧ (¬ReadsSecret (readSecret v) → readSecret v = v)
      ∧ readSecret (readSecret v) = readSecret v := by
  have hread {map key : List Char} (h : referenceParts? v = some (map, key)) :
      readSecret v = expression ("secrets." ++ secretName map key) := by
    rw [readSecret, h]
  refine ⟨fun map key h => hread (referenceParts?_of_parts? h), fun h => ?_, ?_⟩
  · obtain ⟨⟨map, key⟩, hparts⟩ := Option.isSome_iff_exists.1 h
    rw [hread (referenceParts?_of_parts? hparts)]
    exact readsSecret_secretName map key
  · rcases hparts : referenceParts? v with _ | ⟨map, key⟩
    · have hsame : readSecret v = v := by rw [readSecret, hparts]
      exact ⟨fun _ => hsame, by rw [hsame, hsame]⟩
    · rw [hread hparts]
      refine ⟨fun h => absurd (readsSecret_secretName map key) h, ?_⟩
      rw [readSecret, referenceParts?_expression]

/-- The key of a service in a map whose name has a hyphen. -/
theorem readSecret_teamKey :
    isReference "((team-a.api-key))" = true
      ∧ readSecret "((team-a.api-key))" = "$\x7b\x7b secrets.EE_TEAM_A_API_KEY \x7d\x7d"
      ∧ ReadsSecret (readSecret "((team-a.api-key))") := by
  have href : isReference "((team-a.api-key))" = true := by decide
  obtain ⟨-, hreads, -⟩ := readSecret_resolves "((team-a.api-key))"
  exact ⟨href, by decide, hreads href⟩

end PipelineCompiler.Actions
