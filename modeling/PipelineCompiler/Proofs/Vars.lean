import PipelineCompiler.Setting
import PipelineCompiler.Vars

/-!
# Looking up variables

Setting a name changes its value and that of no other name, wherever the name falls in the order. Of the
entries that are set one after the other the last one for a name counts (`get?_setAll`), and of defaults the
first one, if the name has no value yet (`get?_foldl_setDefault`).
-/

namespace PipelineCompiler

variable {α : Type}

theorem named?_append (xs ys : List (String × α)) (name : String) :
    named? (xs ++ ys) name = (named? xs name).or (named? ys name) := by
  rw [named?, List.find?_append, Option.map_or]
  rfl

theorem named?_eq_none {es : List (String × α)} {name : String} :
    named? es name = none ↔ name ∉ es.map Prod.fst := by
  rw [named?, Option.map_eq_none_iff, List.find?_eq_none]
  constructor
  · intro h hmem
    obtain ⟨e, he, rfl⟩ := List.mem_map.1 hmem
    exact h e he (decide_eq_true rfl)
  · intro h e he hname
    exact h (List.mem_map.2 ⟨e, he, of_decide_eq_true hname⟩)

theorem named?_cons (n : String) (v : α) (rest : List (String × α)) (name : String) :
    named? ((n, v) :: rest) name = if n = name then some v else named? rest name := by
  by_cases h : n = name <;> simp [named?, h]

/-- Where no name stands twice, the order of the entries does not matter. -/
theorem named?_reverse {es : List (String × α)} (h : (es.map Prod.fst).Nodup) (name : String) :
    named? es.reverse name = named? es name := by
  induction es with
  | nil => rfl
  | cons e rest ih =>
      obtain ⟨n, v⟩ := e
      obtain ⟨hn, hrest⟩ := List.nodup_cons.1 h
      rw [List.reverse_cons, named?_append, ih hrest, named?_cons, named?_cons]
      by_cases hname : n = name
      · subst hname
        rw [named?_eq_none.2 hn, if_pos rfl, if_pos rfl, Option.none_or]
      · rw [if_neg hname, if_neg hname]
        exact Option.or_none

namespace Vars

theorem named?_setEntry (name value other : String) (es : List (String × String)) :
    named? (setEntry name value es) other = if name = other then some value else named? es other := by
  induction es with
  | nil => exact named?_cons name value [] other
  | cons e rest ih =>
      obtain ⟨n, v⟩ := e
      rw [setEntry]
      split
      case isTrue => rw [named?_cons name]
      case isFalse =>
        split
        case isTrue heq =>
          subst heq
          rw [named?_cons, named?_cons]
          by_cases hother : name = other <;> simp only [hother, if_true, if_false]
        case isFalse hne =>
          rw [named?_cons, named?_cons, ih]
          by_cases hother : n = other
          · subst hother
            rw [if_pos rfl, if_neg hne, if_pos rfl]
          · rw [if_neg hother, if_neg hother]

/-- A name that is set has the value that it is set to, and the others keep theirs. -/
theorem get?_set (vars : Vars) (name value other : String) :
    (vars.set name value).get? other = if name = other then some value else vars.get? other :=
  named?_setEntry name value other vars.entries

/-- Of entries that are set one after the other, the last one for a name counts. -/
theorem get?_setAll (vars : Vars) (entries : List (String × String)) (name : String) :
    (vars.setAll entries).get? name = (named? entries.reverse name).or (vars.get? name) := by
  induction entries generalizing vars with
  | nil => rfl
  | cons e rest ih =>
      obtain ⟨n, v⟩ := e
      have hfirst : (vars.set n v).get? name = (named? [(n, v)] name).or (vars.get? name) := by
        rw [get?_set, named?_cons]
        by_cases h : n = name
        · rw [if_pos h, if_pos h, Option.some_or]
        · rw [if_neg h, if_neg h]
          exact (Option.none_or).symm
      have hrest : (vars.setAll ((n, v) :: rest)).get? name
          = (named? rest.reverse name).or ((vars.set n v).get? name) := ih (vars.set n v)
      rw [hrest, hfirst, List.reverse_cons, named?_append, Option.or_assoc]

/-- A default counts for a name that has no value. -/
theorem get?_setDefault (vars : Vars) (name value other : String) :
    (vars.setDefault name value).get? other
      = (vars.get? other).or (if name = other then some value else none) := by
  rw [setDefault]
  split
  case isTrue hset =>
    by_cases h : name = other
    · subst h
      obtain ⟨own, hown⟩ := Option.isSome_iff_exists.1 hset
      rw [hown, Option.some_or]
    · rw [if_neg h, Option.or_none]
  case isFalse hset =>
    rw [get?_set]
    by_cases h : name = other
    · subst h
      rw [Option.not_isSome_iff_eq_none] at hset
      rw [if_pos rfl, hset, Option.none_or, if_pos rfl]
    · rw [if_neg h, if_neg h, Option.or_none]

/-- Of defaults that are set one after the other, the first one for a name counts. -/
theorem get?_foldl_setDefault (vars : Vars) (entries : List (String × String)) (name : String) :
    (entries.foldl (fun vs (n, v) => vs.setDefault n v) vars).get? name
      = (vars.get? name).or (named? entries name) := by
  induction entries generalizing vars with
  | nil => exact Option.or_none.symm
  | cons e rest ih =>
      obtain ⟨n, v⟩ := e
      have hcons : named? ((n, v) :: rest) name
          = (if n = name then some v else none).or (named? rest name) := by
        rw [named?_cons]
        split
        · rfl
        · rfl
      rw [List.foldl_cons, ih, get?_setDefault, hcons, Option.or_assoc]

end Vars

end PipelineCompiler
