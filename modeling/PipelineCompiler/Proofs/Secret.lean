import Mathlib.Data.List.Infix
import PipelineCompiler.Proofs.Path
import PipelineCompiler.Secret

/-!
# References in texts

A text is free of a reference if the reference stands nowhere in it. References consist of few kinds of
characters, begin with parentheses and end with some, so that none comes about where texts are put together
with something between them that is not made of such characters, or next to one without parentheses. Free
texts therefore make up free texts in most of the ways in which texts are made up.
-/

namespace PipelineCompiler

/-! ## Runs of a list -/

section Runs

variable {α : Type} {r xs ys : List α} {c : α}

/-- A run without some item stands on one side of it. -/
theorem infix_append_cons (hc : c ∉ r) : r <:+: xs ++ c :: ys → r <:+: xs ∨ r <:+: ys := by
  rintro ⟨s, t, h⟩
  rcases List.append_eq_append_iff.1 h with ⟨zs, hxs, ht⟩ | ⟨zs, hs, hys⟩
  · exact .inl ⟨s, zs, hxs.symm⟩
  · cases zs with
    | nil => exact .inl ⟨s, [], by simpa using hs⟩
    | cons z zs =>
        rw [List.cons_append, List.cons.injEq] at hys
        obtain ⟨rfl, rfl⟩ := hys
        -- the run ends after the item, and so it begins after it
        rcases List.append_eq_append_iff.1 hs with ⟨ws, hxs, hr⟩ | ⟨ws, hs', hr⟩
        · exact absurd (hr ▸ List.mem_append_right ws List.mem_cons_self) hc
        · cases ws with
          | nil =>
              obtain rfl : c :: zs = r := hr
              exact absurd List.mem_cons_self hc
          | cons w ws =>
              rw [List.cons_append, List.cons.injEq] at hr
              obtain ⟨rfl, rfl⟩ := hr
              exact .inr ⟨ws, t, rfl⟩

/-- A run does not begin in a list that lacks its first item. -/
theorem infix_of_append_left (hr : r.head? = some c) (hxs : c ∉ xs) (h : r <:+: xs ++ ys) :
    r <:+: ys := by
  induction xs with
  | nil => exact h
  | cons x xs ih =>
      rcases List.infix_cons_iff.1 h with hprefix | hinfix
      · obtain ⟨t, ht⟩ := hprefix
        have hx : r.head? = some x := by
          cases r with
          | nil => simp at hr
          | cons d r => simp_all
        exact absurd (Option.some.inj (hr.symm.trans hx)) (List.ne_of_not_mem_cons hxs)
      · exact ih (fun hc => hxs (List.mem_cons_of_mem x hc)) hinfix

/-- A run does not end in a list that lacks its last item. -/
theorem infix_of_append_right (hr : r.getLast? = some c) (hys : c ∉ ys) (h : r <:+: xs ++ ys) :
    r <:+: xs := by
  rw [← List.reverse_infix, List.reverse_append] at h
  rw [← List.reverse_infix]
  exact infix_of_append_left (by rwa [List.head?_reverse]) (by simpa using hys) h

end Runs

namespace Secret

/-! ## References -/

/-- A character that references consist of. -/
def isReferenceChar (c : Char) : Bool := isNameChar c || c == '(' || c == ')' || c == '.'

/-- The reference stands somewhere in the text. -/
def StandsIn (reference text : String) : Prop := reference.toList <:+: text.toList

instance (reference text : String) : Decidable (StandsIn reference text) := by
  unfold StandsIn; infer_instance

/-- The reference stands nowhere in the text. -/
def Free (reference text : String) : Prop := ¬ StandsIn reference text

instance (reference text : String) : Decidable (Free reference text) := by
  unfold Free; infer_instance

/-- Texts that are kept apart by the text cannot make up a reference: it holds a character that no reference
holds, and nothing that one begins or ends with. -/
def isBar (s : String) : Bool :=
  s.toList.any (fun c => !isReferenceChar c) && s.toList.all fun c => c != '(' && c != ')'

/-- The text between the parentheses of a value is what stands there. -/
theorem inner?_eq_some {value inner : List Char} :
    inner? value = some inner ↔ value = ['(', '('] ++ inner ++ [')', ')'] := by
  simp only [inner?, bind, Option.bind_eq_some_iff, Text.afterStart?_eq_some, Text.beforeEnd?_eq_some]
  constructor
  · rintro ⟨rest, rfl, rfl⟩
    rw [List.append_assoc]
  · rintro rfl
    exact ⟨inner ++ [')', ')'], List.append_assoc .., rfl⟩

/-- Map and key of a reference, which is made of them with a dot between them, in parentheses. -/
theorem parts?_eq_some {value map key : List Char} :
    parts? value = some (map, key) ↔ value = ['(', '('] ++ (map ++ '.' :: key) ++ [')', ')']
      ∧ map ≠ [] ∧ key ≠ [] ∧ (∀ c ∈ map, isNameChar c = true) ∧ ∀ c ∈ key, isNameChar c = true := by
  simp only [parts?, bind, Option.bind_eq_some_iff, inner?_eq_some]
  constructor
  · rintro ⟨inner, rfl, ⟨map', key'⟩, hcut, hnames⟩
    obtain ⟨rfl, -⟩ := Text.cutFirst_eq_some.1 hcut
    dsimp only at hnames
    split at hnames
    · simp at hnames
    · next hgood =>
        obtain ⟨rfl, rfl⟩ := Prod.mk.inj (Option.some.inj hnames)
        simp only [Bool.or_eq_true, Bool.not_eq_true', not_or, Bool.not_eq_false, List.all_eq_true,
          List.isEmpty_iff] at hgood
        obtain ⟨⟨⟨hmap, hkey⟩, hmapChars⟩, hkeyChars⟩ := hgood
        exact ⟨rfl, hmap, hkey, hmapChars, hkeyChars⟩
  · rintro ⟨rfl, hmap, hkey, hmapChars, hkeyChars⟩
    have hdot : '.' ∉ map := fun hmem => absurd (hmapChars _ hmem) (by decide)
    refine ⟨_, rfl, (map, key), Text.cutFirst_eq_some.2 ⟨rfl, hdot⟩, ?_⟩
    simp [hmap, hkey, List.all_eq_true.2 hmapChars, List.all_eq_true.2 hkeyChars]

/-- A reference in parts: a map and a key with a dot between them, in parentheses. -/
theorem exists_of_isReference {reference : String} (h : isReference reference = true) :
    ∃ map key : List Char, reference.toList = ['(', '('] ++ (map ++ '.' :: key) ++ [')', ')']
      ∧ map ≠ [] ∧ key ≠ [] ∧ (∀ c ∈ map, isNameChar c = true) ∧ ∀ c ∈ key, isNameChar c = true := by
  obtain ⟨⟨map, key⟩, hparts⟩ := Option.isSome_iff_exists.1 h
  exact ⟨map, key, parts?_eq_some.1 hparts⟩

section Free

variable {r : String} (hr : isReference r = true)
include hr

theorem parens_prefix_reference : ['(', '('] <+: r.toList := by
  obtain ⟨map, key, heq, -⟩ := exists_of_isReference hr
  rw [heq, List.append_assoc]
  exact List.prefix_append _ _

theorem head?_reference : r.toList.head? = some '(' := by
  obtain ⟨rest, hrest⟩ := parens_prefix_reference hr
  rw [← hrest]
  rfl

theorem getLast?_reference : r.toList.getLast? = some ')' := by
  obtain ⟨map, key, heq, -⟩ := exists_of_isReference hr
  rw [heq, List.getLast?_append]
  rfl

theorem not_mem_reference {c : Char} (hc : isReferenceChar c = false) : c ∉ r.toList := by
  obtain ⟨map, key, heq, -, -, hmap, hkey⟩ := exists_of_isReference hr
  simp only [isReferenceChar, Bool.or_eq_false_iff, beq_eq_false_iff_ne] at hc
  obtain ⟨⟨⟨hname, hopen⟩, hclose⟩, hdot⟩ := hc
  have hnotName {cs : List Char} (hcs : ∀ d ∈ cs, isNameChar d = true) : c ∉ cs := by
    intro hmem
    simp [hcs c hmem] at hname
  rw [heq]
  simp [hnotName hmap, hnotName hkey, hopen, hclose, hdot]

/-! ## Texts that are free -/

theorem free_of_const {t : String} (h : ¬ ['(', '('] <:+: t.toList) : Free r t :=
  fun hin => h ((parens_prefix_reference hr).isInfix.trans hin)

theorem free_of_not_mem {t : String} (h : '(' ∉ t.toList) : Free r t :=
  fun hin => h (hin.subset (List.mem_of_head? (head?_reference hr)))

omit hr in
theorem Free.of_infix {t u : String} (ht : Free r t) (hu : u.toList <:+: t.toList) : Free r u :=
  fun hin => ht (hin.trans hu)

theorem free_append_left {a b : String} (ha : '(' ∉ a.toList) (hb : Free r b) : Free r (a ++ b) := by
  intro hin
  rw [StandsIn, String.toList_append] at hin
  exact hb (infix_of_append_left (head?_reference hr) ha hin)

theorem free_append_right {a b : String} (ha : Free r a) (hb : ')' ∉ b.toList) : Free r (a ++ b) := by
  intro hin
  rw [StandsIn, String.toList_append] at hin
  exact ha (infix_of_append_right (getLast?_reference hr) hb hin)

/-- No reference comes about across a character that no reference holds. -/
theorem free_of_cons {t : String} {xs ys : List Char} {c : Char} (ht : t.toList = xs ++ c :: ys)
    (hc : isReferenceChar c = false) (hxs : ¬ r.toList <:+: xs) (hys : ¬ r.toList <:+: ys) : Free r t := by
  intro hin
  rw [StandsIn, ht] at hin
  rcases infix_append_cons (not_mem_reference hr hc) hin with h | h
  · exact hxs h
  · exact hys h

/-- No reference comes about across a bar. -/
theorem free_append_bar {a s b : String} (hs : isBar s = true) (ha : Free r a) (hb : Free r b) :
    Free r (a ++ s ++ b) := by
  obtain ⟨hchar, hparens⟩ := Bool.and_eq_true_iff.1 hs
  obtain ⟨c, hmem, hc⟩ := List.any_eq_true.1 hchar
  obtain ⟨xs, ys, hcut⟩ := List.append_of_mem hmem
  have hno {d : Char} (hd : d ∈ s.toList) : d ≠ '(' ∧ d ≠ ')' := by
    simpa using List.all_eq_true.1 hparens d hd
  have hleft : ')' ∉ xs := by
    intro hmem
    exact (hno (hcut ▸ List.mem_append_left _ hmem)).2 rfl
  have hright : '(' ∉ ys := by
    intro hmem
    exact (hno (hcut ▸ List.mem_append_right _ (List.mem_cons_of_mem c hmem))).1 rfl
  have htext : (a ++ s ++ b).toList = (a.toList ++ xs) ++ c :: (ys ++ b.toList) := by
    simp [hcut]
  refine free_of_cons hr htext (by simpa using hc) (fun h => ?_) fun h => ?_
  · exact ha (infix_of_append_right (getLast?_reference hr) hleft h)
  · exact hb (infix_of_append_left (head?_reference hr) hright h)

/-- Texts that are put together with bars between them. -/
theorem free_intercalate {sep : String} (hsep : isBar sep = true) {ts : List String}
    (h : ∀ t ∈ ts, Free r t) : Free r (sep.intercalate ts) := by
  induction ts with
  | nil => exact free_of_not_mem hr (by simp)
  | cons t ts ih =>
      have ht := h t List.mem_cons_self
      cases ts with
      | nil => rwa [String.intercalate_singleton]
      | cons u ts =>
          rw [String.intercalate_cons_cons]
          exact free_append_bar hr hsep ht (ih fun v hv => h v (List.mem_cons_of_mem t hv))

/-- A character that no reference holds may be replaced by a text of such characters. -/
theorem free_replaceChar {c : Char} {replacement t : String} (hc : isReferenceChar c = false)
    (hne : replacement.toList ≠ []) (hreplacement : replacement.toList.any isReferenceChar = false)
    (ht : Free r t) : Free r (Text.replaceChar c replacement t) := by
  obtain ⟨d, ds, hds⟩ := List.exists_cons_of_ne_nil hne
  rw [hds, List.any_cons, Bool.or_eq_false_iff, List.any_eq_false] at hreplacement
  obtain ⟨hd, hreplacement⟩ := hreplacement
  have hopen : '(' ∉ ds := fun hmem => absurd (hreplacement '(' hmem) (by decide)
  -- what stands before the characters that are still to be replaced is kept as it is
  suffices h : ∀ cs pre : List Char, ¬ r.toList <:+: pre ++ cs →
      ¬ r.toList <:+: pre ++ cs.flatMap fun e => if e = c then d :: ds else [e] by
    intro hin
    rw [StandsIn, Text.replaceChar, String.toList_ofList, hds] at hin
    exact h t.toList [] ht hin
  intro cs
  induction cs with
  | nil =>
      intro pre h
      exact h
  | cons e cs ih =>
      intro pre h hin
      rw [List.flatMap_cons] at hin
      by_cases he : e = c
      · subst he
        have hpre : ¬ r.toList <:+: pre := fun hpre => h (hpre.trans (List.prefix_append _ _).isInfix)
        have hcs : ¬ r.toList <:+: [] ++ cs := by
          intro hcs
          exact h (hcs.trans ((List.suffix_cons e cs).trans (List.suffix_append _ _)).isInfix)
        rw [if_pos rfl, List.cons_append] at hin
        rcases infix_append_cons (not_mem_reference hr hd) hin with h | h
        · exact hpre h
        · exact ih [] hcs (infix_of_append_left (head?_reference hr) hopen h)
      · rw [if_neg he, ← List.append_assoc] at hin
        exact ih (pre ++ [e]) (by rwa [List.append_assoc]) hin

/-- A path is free if the segments are from which it is written. -/
theorem free_pathText {segments : List Path.Segment} (h : ∀ s ∈ segments, Free r (String.ofList s)) :
    Free r (String.ofList (Path.text segments)) := by
  rw [Path.ofList_text]
  refine free_intercalate hr (by decide) fun t ht => ?_
  obtain ⟨s, hs, rfl⟩ := List.mem_map.1 ht
  exact h s hs

end Free

end Secret

end PipelineCompiler
