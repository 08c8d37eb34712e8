import PipelineCompiler.Proofs.Distinct
import PipelineCompiler.Proofs.Text
import PipelineCompiler.Template

/-!
# Templates are filled in one pass

A text has one cut at its leftmost placeholders (`exists_leftmost`, `pieces_of_leftmost`). Filling the text
puts values into that cut and nowhere else, so that a placeholder in a value stays as it is, and what is
refused are just the names in the cut that have no value (`fill_cut`).
-/

namespace PipelineCompiler.Template

/-! ## Placeholders -/

/-- The name of a placeholder: one character at least, and only those that names are made of. -/
def IsName (name : List Char) : Prop := name ≠ [] ∧ ∀ c ∈ name, isNameChar c = true

instance (name : List Char) : Decidable (IsName name) :=
  decidable_of_iff (name ≠ [] ∧ name.all isNameChar = true) (by simp [IsName])

/-- A placeholder as it is written. -/
def placeholder (name : List Char) : List Char := ['(', '('] ++ name ++ [')', ')']

/-- A name ends where the closing parentheses begin. -/
theorem takeWhile_name {name : List Char} (h : ∀ c ∈ name, isNameChar c = true) (rest : List Char) :
    (name ++ ([')', ')'] ++ rest)).takeWhile isNameChar = name := by
  have hclose : isNameChar ')' = false := by decide +kernel
  rw [List.takeWhile_append_of_pos h, List.cons_append, List.takeWhile_cons_of_neg (by simp [hclose]),
    List.append_nil]

/-- A text begins with a placeholder just if it is that placeholder and what follows it. -/
theorem hole?_eq_some {cs name : List Char} :
    hole? cs = some name ↔ IsName name ∧ ∃ rest, cs = placeholder name ++ rest := by
  constructor
  · intro h
    obtain ⟨rest, hrest, h⟩ := Option.bind_eq_some_iff.1 h
    dsimp only at h
    split at h
    · cases h
    next hne =>
    obtain ⟨after, hafter, hname⟩ := Option.bind_eq_some_iff.1 h
    obtain rfl := Option.some.inj hname
    rw [Text.afterStart?_eq_some] at hrest hafter
    refine ⟨⟨by simpa using hne, fun c hc => List.mem_takeWhile_imp hc⟩, after, ?_⟩
    have hparts := List.prefix_iff_eq_append.1 (List.takeWhile_prefix isNameChar (l := rest))
    rw [hafter] at hparts
    rw [hrest, placeholder, List.append_assoc, List.append_assoc, hparts]
  · rintro ⟨⟨hne, hname⟩, rest, rfl⟩
    have hopen : Text.afterStart? ['(', '('] (placeholder name ++ rest)
        = some (name ++ ([')', ')'] ++ rest)) := by
      rw [Text.afterStart?_eq_some, placeholder, List.append_assoc, List.append_assoc]
    have hclose : Text.afterStart? [')', ')'] ([')', ')'] ++ rest) = some rest :=
      Text.afterStart?_eq_some.2 rfl
    rw [hole?, hopen, Option.bind_eq_bind, Option.bind_some, takeWhile_name hname]
    dsimp only
    rw [if_neg (by simpa using hne), List.drop_left, hclose]
    rfl

theorem hole?_placeholder {name : List Char} (h : IsName name) (rest : List Char) :
    hole? (placeholder name ++ rest) = some name := hole?_eq_some.2 ⟨h, rest, rfl⟩

/-! ## Cuts -/

/-- A placeholder and the text in front of it. -/
structure Slot where
  front : List Char
  name : List Char
  isName : IsName name

/-- A text that is cut at placeholders. -/
structure Cut where
  slots : List Slot
  rest : List Char

/-- The text with something in place of each placeholder. -/
def Cut.replace (value : List Char → List Char) (cut : Cut) : List Char :=
  (cut.slots.flatMap fun s => s.front ++ value s.name) ++ cut.rest

/-- The text that is cut. -/
def Cut.source (cut : Cut) : List Char := cut.replace placeholder

/-- The names of the placeholders in their order. -/
def Cut.names (cut : Cut) : List String := cut.slots.map fun s => String.ofList s.name

/-- No placeholder begins in the first characters of a text. -/
def NoneWithin (count : Nat) (cs : List Char) : Prop :=
  ∀ before name after, IsName name → cs = before ++ placeholder name ++ after → count ≤ before.length

/-- Every cut is made at the first placeholder of what is left of the text, until no placeholder is left. -/
def LeftmostSlots (rest : List Char) : List Slot → Prop
  | [] => NoneWithin rest.length rest
  | s :: slots => NoneWithin s.front.length (Cut.source ⟨s :: slots, rest⟩) ∧ LeftmostSlots rest slots

/-- The text is cut at its leftmost placeholders that do not overlap. -/
def Cut.IsLeftmost (cut : Cut) (cs : List Char) : Prop :=
  cut.source = cs ∧ LeftmostSlots cut.rest cut.slots

theorem Cut.replace_cons (value : List Char → List Char) (s : Slot) (slots : List Slot) (rest : List Char) :
    Cut.replace value ⟨s :: slots, rest⟩ = s.front ++ (value s.name ++ Cut.replace value ⟨slots, rest⟩) := by
  simp [Cut.replace]

theorem noneWithin_zero (cs : List Char) : NoneWithin 0 cs := fun _ _ _ _ _ => Nat.zero_le _

/-- No placeholder begins in the first characters just if none begins with the first of them and none in the
others. -/
theorem noneWithin_cons {count : Nat} {c : Char} {cs : List Char} :
    NoneWithin (count + 1) (c :: cs) ↔ hole? (c :: cs) = none ∧ NoneWithin count cs := by
  constructor
  · intro h
    refine ⟨?_, fun before name after hname hcs => ?_⟩
    · rw [Option.eq_none_iff_forall_ne_some]
      intro name hhole
      obtain ⟨hname, after, hcs⟩ := hole?_eq_some.1 hhole
      exact absurd (h [] name after hname hcs) (Nat.not_succ_le_zero count)
    · have hbefore := h (c :: before) name after hname (by rw [hcs]; rfl)
      exact Nat.le_of_succ_le_succ hbefore
  · rintro ⟨hhole, h⟩ before name after hname hcs
    cases before with
    | nil =>
        have hstarts := hole?_eq_some.2 ⟨hname, after, hcs⟩
        rw [hhole] at hstarts
        cases hstarts
    | cons d before => exact Nat.succ_le_succ (h before name after hname (List.cons.inj hcs).2)

/-! ## Pieces -/

theorem piecesFrom_drop (skip : Nat) (cs : List Char) : piecesFrom skip cs = piecesFrom 0 (cs.drop skip) := by
  induction cs generalizing skip with
  | nil => rw [List.drop_nil, piecesFrom, piecesFrom]
  | cons c cs ih =>
      cases skip with
      | zero => rfl
      | succ skip => rw [piecesFrom, if_pos skip.succ_ne_zero, ih, List.drop_succ_cons, Nat.add_sub_cancel]

theorem piecesFrom_placeholder {name : List Char} (hname : IsName name) (rest : List Char) :
    piecesFrom 0 (placeholder name ++ rest) = .hole name :: piecesFrom 0 rest := by
  have hhole := hole?_placeholder hname rest
  have hcs : placeholder name ++ rest = '(' :: ('(' :: name ++ [')', ')'] ++ rest) := rfl
  have hlength : name.length + 3 = ('(' :: name ++ [')', ')']).length := by simp
  rw [hcs] at hhole ⊢
  rw [piecesFrom, if_neg (by simp), hhole]
  dsimp only
  rw [piecesFrom_drop, hlength, List.drop_left]

/-- Text in which no placeholder begins stays. -/
theorem piecesFrom_front {front : List Char} (cs : List Char) (h : NoneWithin front.length (front ++ cs)) :
    piecesFrom 0 (front ++ cs) = front.map Piece.char ++ piecesFrom 0 cs := by
  induction front with
  | nil => rfl
  | cons c front ih =>
      rw [List.cons_append] at h ⊢
      obtain ⟨hhole, hfront⟩ := noneWithin_cons.1 h
      rw [piecesFrom, if_neg (by simp), hhole]
      dsimp only
      rw [ih hfront]
      rfl

/-- The pieces of a text that is cut. -/
def Cut.pieces (cut : Cut) : List Piece :=
  (cut.slots.flatMap fun s => s.front.map Piece.char ++ [.hole s.name]) ++ cut.rest.map Piece.char

/-- The pieces of a text are those of its cut at the leftmost placeholders. -/
theorem pieces_of_leftmost {rest : List Char} {slots : List Slot} (h : LeftmostSlots rest slots) :
    piecesFrom 0 (Cut.source ⟨slots, rest⟩) = Cut.pieces ⟨slots, rest⟩ := by
  induction slots with
  | nil =>
      have hrest : rest ++ [] = rest := List.append_nil rest
      have hnone : NoneWithin rest.length (rest ++ []) := by rwa [hrest]
      have hfront := piecesFrom_front [] hnone
      rw [hrest] at hfront
      rw [piecesFrom, List.append_nil] at hfront
      exact hfront
  | cons s slots ih =>
      obtain ⟨hfront, hslots⟩ := h
      rw [Cut.source, Cut.replace_cons] at hfront ⊢
      rw [piecesFrom_front _ hfront, piecesFrom_placeholder s.isName, ← Cut.source, ih hslots]
      simp [Cut.pieces]

/-- Every text has a cut at its leftmost placeholders. -/
theorem exists_leftmost (cs : List Char) : ∃ cut : Cut, cut.IsLeftmost cs := by
  induction hlength : cs.length using Nat.strong_induction_on generalizing cs with
  | _ n ih =>
  subst hlength
  cases cs with
  | nil => exact ⟨⟨[], []⟩, rfl, noneWithin_zero []⟩
  | cons c cs =>
      cases hhole : hole? (c :: cs) with
      | some name =>
          -- a placeholder begins with the first character
          obtain ⟨hname, rest, hcs⟩ := hole?_eq_some.1 hhole
          have hshorter : rest.length < (c :: cs).length := by
            rw [hcs, placeholder]
            simp only [List.length_append, List.length_cons]
            omega
          obtain ⟨cut, hsource, hcut⟩ := ih _ hshorter rest rfl
          refine ⟨⟨⟨[], name, hname⟩ :: cut.slots, cut.rest⟩, ?_, noneWithin_zero _, hcut⟩
          rw [Cut.source, Cut.replace_cons, List.nil_append, ← Cut.source, hsource, hcs]
      | none =>
          -- the first character belongs to the text in front of the next placeholder
          obtain ⟨cut, hsource, hcut⟩ := ih _ (Nat.lt_succ_self _) cs rfl
          obtain ⟨slots, rest⟩ := cut
          cases slots with
          | nil =>
              obtain rfl : rest = cs := hsource
              exact ⟨⟨[], c :: rest⟩, rfl, noneWithin_cons.2 ⟨hhole, hcut⟩⟩
          | cons s slots =>
              have hsource' : Cut.source ⟨⟨c :: s.front, s.name, s.isName⟩ :: slots, rest⟩ = c :: cs := by
                rw [← hsource, Cut.source, Cut.source, Cut.replace_cons, Cut.replace_cons]
                rfl
              refine ⟨⟨⟨c :: s.front, s.name, s.isName⟩ :: slots, rest⟩, hsource', ?_, hcut.2⟩
              rw [hsource']
              exact noneWithin_cons.2 ⟨hhole, hsource ▸ hcut.1⟩

/-- In a text that is cut a placeholder begins behind the text in front of the first one. -/
theorem NoneWithin.le_front {count : Nat} {s : Slot} {slots : List Slot} {rest : List Char}
    (h : NoneWithin count (Cut.source ⟨s :: slots, rest⟩)) : count ≤ s.front.length := by
  refine h s.front s.name (Cut.source ⟨slots, rest⟩) s.isName ?_
  rw [Cut.source, Cut.source, Cut.replace_cons, List.append_assoc]

/-- Where no placeholder is left, the text is not that of another cut with a placeholder. -/
theorem NoneWithin.ne_source {rest : List Char} (h : NoneWithin rest.length rest) (s : Slot)
    (slots : List Slot) (rest' : List Char) : rest ≠ Cut.source ⟨s :: slots, rest'⟩ := by
  rintro rfl
  have hlength := h.le_front
  rw [Cut.source, Cut.replace_cons, placeholder] at hlength
  simp only [List.length_append, List.length_cons] at hlength
  omega

/-- A text has no more than one cut at its leftmost placeholders. -/
theorem leftmost_unique {slots slots' : List Slot} {rest rest' : List Char} (h : LeftmostSlots rest slots)
    (h' : LeftmostSlots rest' slots') (hsource : Cut.source ⟨slots, rest⟩ = Cut.source ⟨slots', rest'⟩) :
    Cut.mk slots rest = ⟨slots', rest'⟩ := by
  induction slots generalizing slots' with
  | nil =>
      cases slots' with
      | nil =>
          obtain rfl : rest = rest' := hsource
          rfl
      | cons s' slots' => exact absurd hsource (h.ne_source s' slots' rest')
  | cons s slots ih =>
      cases slots' with
      | nil => exact absurd hsource.symm (h'.ne_source s slots rest)
      | cons s' slots' =>
          have hlength : s.front.length = s'.front.length :=
            Nat.le_antisymm (hsource ▸ h.1).le_front (hsource ▸ h'.1).le_front
          rw [Cut.source, Cut.source, Cut.replace_cons, Cut.replace_cons] at hsource
          obtain ⟨hfront, hsource⟩ := List.append_inj hsource hlength
          have hname : s.name = s'.name := by
            have hhole := hole?_placeholder s.isName (Cut.source ⟨slots, rest⟩)
            rw [Cut.source, hsource, hole?_placeholder s'.isName] at hhole
            exact (Option.some.inj hhole).symm
          rw [hname, List.append_cancel_left_eq] at hsource
          obtain ⟨rfl, rfl⟩ := Cut.mk.inj (ih h.2 h'.2 hsource)
          obtain ⟨front, name, hisName⟩ := s
          obtain ⟨front', name', hisName'⟩ := s'
          obtain rfl : front = front' := hfront
          obtain rfl : name = name' := hname
          rfl

/-! ## Filling -/

/-- The value of a name, and nothing if there is none. -/
def valueOf (vars : Vars) (name : List Char) : List Char := ((vars.get? (String.ofList name)).getD "").toList

theorem names_of_pieces (cut : Cut) : cut.pieces.filterMap Piece.name? = cut.names := by
  obtain ⟨slots, rest⟩ := cut
  have hchars (cs : List Char) : (cs.map Piece.char).filterMap Piece.name? = [] := by
    simp [List.filterMap_map, Function.comp_def, Piece.name?]
  rw [Cut.pieces, Cut.names, List.filterMap_append, hchars, List.append_nil, List.filterMap_flatMap,
    List.map_eq_flatMap]
  refine congrArg (slots.flatMap ·) (funext fun s => ?_)
  rw [List.filterMap_append, hchars]
  rfl

/-- If all names have values, the pieces are filled with them. -/
theorem fill_pieces {vars : Vars} {cut : Cut} (h : ∀ name ∈ cut.names, (vars.get? name).isSome) :
    cut.pieces.flatMap (Piece.fill vars) = cut.replace (valueOf vars) := by
  obtain ⟨slots, rest⟩ := cut
  have hchars (cs : List Char) : (cs.map Piece.char).flatMap (Piece.fill vars) = cs := by
    simp [List.flatMap_map, Piece.fill]
  rw [Cut.pieces, Cut.replace, List.flatMap_append, hchars, List.flatMap_assoc]
  refine congrArg (· ++ rest) (List.flatMap_congr fun s hs => ?_)
  obtain ⟨value, hvalue⟩ := Option.isSome_iff_exists.1 (h _ (List.mem_map_of_mem hs))
  rw [List.flatMap_append, hchars, List.flatMap_singleton, Piece.fill, valueOf, hvalue]
  rfl

section Leftmost

variable {vars : Vars} {source : String} {cut : Cut}

theorem pieces_eq (h : cut.IsLeftmost source.toList) : pieces source = cut.pieces := by
  rw [pieces, ← h.1, pieces_of_leftmost h.2]

theorem missing_eq (h : cut.IsLeftmost source.toList) :
    missing vars (pieces source) = distinct (cut.names.filter fun name => (vars.get? name).isNone) := by
  rw [missing, pieces_eq h, names_of_pieces]

theorem mem_missing (h : cut.IsLeftmost source.toList) {name : String} :
    name ∈ missing vars (pieces source) ↔ name ∈ cut.names ∧ vars.get? name = none := by
  rw [missing_eq h, (firstOccurrences_distinct _).mem, List.mem_filter, Option.isNone_iff_eq_none]

theorem missing_eq_nil (h : cut.IsLeftmost source.toList) :
    missing vars (pieces source) = [] ↔ ∀ name ∈ cut.names, (vars.get? name).isSome := by
  rw [List.eq_nil_iff_forall_not_mem]
  refine forall_congr' fun name => ?_
  rw [mem_missing h, not_and, Option.isSome_iff_ne_none]

theorem fill_eq_ok (h : cut.IsLeftmost source.toList) {text : String} :
    fill vars source = .ok text
      ↔ (∀ name ∈ cut.names, (vars.get? name).isSome) ∧ text.toList = cut.replace (valueOf vars) := by
  rw [← missing_eq_nil h, fill]
  split
  case h_1 hnil =>
    rw [and_iff_right hnil, pieces_eq h, fill_pieces ((missing_eq_nil h).1 hnil), Except.ok.injEq,
      ← String.toList_inj, String.toList_ofList, eq_comm]
  case h_2 hne => exact iff_of_false (by simp) fun hnil => hne hnil.1

theorem fill_eq_error (h : cut.IsLeftmost source.toList) {names : List String} :
    fill vars source = .error names
      ↔ (∃ name ∈ cut.names, vars.get? name = none)
        ∧ FirstOccurrences (cut.names.filter fun name => (vars.get? name).isNone) names := by
  have hlacking : (∃ name ∈ cut.names, vars.get? name = none) ↔ missing vars (pieces source) ≠ [] := by
    rw [Ne, List.eq_nil_iff_forall_not_mem, not_forall_not]
    exact exists_congr fun name => (mem_missing h).symm
  rw [hlacking, firstOccurrences_iff, ← missing_eq h, fill]
  split
  case h_1 hnil => simp [hnil]
  case h_2 hne => rw [Except.error.injEq, and_iff_right hne, eq_comm]

end Leftmost

/-- A text has just one cut at its leftmost placeholders that do not overlap. If all names in it have values,
the text is filled with them, and is the text with each placeholder replaced by the value of its name.
Otherwise it is refused, with the names that have no value: each of them once, in the order in which they
stand first. -/
theorem fill_cut (vars : Vars) (source : String) :
    ∃ cut : Cut, (∀ other : Cut, other.IsLeftmost source.toList ↔ other = cut)
      ∧ (∀ text, fill vars source = .ok text ↔
          (∀ name ∈ cut.names, (vars.get? name).isSome)
            ∧ text.toList = cut.replace (valueOf vars))
      ∧ ∀ names, fill vars source = .error names ↔
          (∃ name ∈ cut.names, vars.get? name = none)
            ∧ FirstOccurrences (cut.names.filter fun name => (vars.get? name).isNone) names := by
  obtain ⟨cut, hcut⟩ := exists_leftmost source.toList
  refine ⟨cut, fun other => ⟨fun hother => ?_, fun hother => hother ▸ hcut⟩, fun _ => fill_eq_ok hcut,
    fun _ => fill_eq_error hcut⟩
  exact leftmost_unique hother.2 hcut.2 (hother.1.trans hcut.1.symm)

example : fill (Vars.ofList [("a", "((b))")]) "(((a)) ((a)))" = .ok "(((b)) ((b)))" := by decide +kernel

end PipelineCompiler.Template
