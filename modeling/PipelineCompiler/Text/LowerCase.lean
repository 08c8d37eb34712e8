import PipelineCompiler.Text.CaseTable

/-!
# Lower case

Full lower-casing of a text. Every character has one lower-case character, with two exceptions: the
dotted capital I becomes an i with a combining dot, and a capital sigma that ends a word becomes the
final sigma.
-/

namespace PipelineCompiler.Text

private def inRanges (ranges : List (Nat × Nat)) (c : Char) : Bool :=
  ranges.any fun (first, last) => first ≤ c.toNat && c.toNat ≤ last

/-- The character has case. -/
def isCased (c : Char) : Bool := inRanges casedRanges c

/-- The character is passed over when the case of its neighbours is looked up. -/
def isCaseIgnorable (c : Char) : Bool := inRanges caseIgnorableRanges c

/-- The lower-case partner of a single character. -/
def lowerChar (c : Char) : Char :=
  if c.toNat < 0x80 then c.toLower
  else
    match lowerRuns.find? fun (first, last, step, _) =>
        first ≤ c.toNat && c.toNat ≤ last && (c.toNat - first) % step == 0 with
    | some (_, _, _, distance) => Char.ofNat ((c.toNat : Int) + distance).toNat
    | none => c

/-- A cased character is the nearest one that counts. -/
private def casedNext (cs : List Char) : Bool :=
  match cs.dropWhile isCaseIgnorable with
  | [] => false
  | c :: _ => isCased c

/-- Lower-case a text, given what stands before it in reverse order. -/
private def lowerFrom (before : List Char) : List Char → List Char
  | [] => []
  | c :: cs =>
    let lowered :=
      if c = '\u03A3' then
        if casedNext before && !casedNext cs then ['\u03C2'] else ['\u03C3']
      else if c = '\u0130' then ['i', '\u0307']
      else [lowerChar c]
    lowered ++ lowerFrom (c :: before) cs

/-- Lower-case a text. -/
def lowerChars (cs : List Char) : List Char := lowerFrom [] cs

private theorem lowerFrom_eq_self {cs : List Char} (h : ∀ c ∈ cs, c.toNat < 0x80 ∧ c.isUpper = false)
    (before : List Char) : lowerFrom before cs = cs := by
  induction cs generalizing before with
  | nil => rfl
  | cons c cs ih =>
      obtain ⟨hascii, hupper⟩ := h c List.mem_cons_self
      have hsigma : c ≠ '\u03A3' := by
        rintro rfl
        exact absurd hascii (by decide)
      have hdotted : c ≠ '\u0130' := by
        rintro rfl
        exact absurd hascii (by decide)
      have hlower : lowerChar c = c := by
        rw [lowerChar, if_pos hascii]
        unfold Char.isUpper at hupper
        unfold Char.toLower
        rw [dif_neg (by simpa using hupper)]
      rw [lowerFrom, if_neg hsigma, if_neg hdotted, hlower,
        ih (fun d hd => h d (List.mem_cons_of_mem c hd))]
      rfl

/-- A text of ASCII characters that are no capitals is lower case as it stands. -/
theorem lowerChars_eq_self {cs : List Char} (h : ∀ c ∈ cs, c.toNat < 0x80 ∧ c.isUpper = false) :
    lowerChars cs = cs :=
  lowerFrom_eq_self h []

/-- Lower-case a string. -/
def lower (s : String) : String := String.ofList (lowerChars s.toList)

end PipelineCompiler.Text
