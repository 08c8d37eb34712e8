/-!
# Variables

Environment variables of a task, sorted by name and with one value each.
-/

namespace PipelineCompiler

/-- Named values in the order of their names, without a name that stands twice. -/
structure Vars where
  entries : List (String × String)
  sorted : entries.Pairwise (fun a b => a.1 < b.1)
deriving DecidableEq, Repr

namespace Vars

/-- No variables. -/
def empty : Vars := ⟨[], List.Pairwise.nil⟩

instance : Inhabited Vars := ⟨empty⟩

/-- Set a name in a sorted list. -/
def setEntry (name value : String) : List (String × String) → List (String × String)
  | [] => [(name, value)]
  | (n, v) :: rest =>
    if name < n then (name, value) :: (n, v) :: rest
    else if name = n then (name, value) :: rest
    else (n, v) :: setEntry name value rest

private theorem mem_setEntry {name value : String} {es : List (String × String)}
    {e : String × String} (h : e ∈ setEntry name value es) : e = (name, value) ∨ e ∈ es := by
  induction es with
  | nil => simpa [setEntry] using h
  | cons f rest ih =>
    obtain ⟨n, v⟩ := f
    simp only [setEntry] at h
    split at h
    · simpa using h
    · split at h
      · rcases List.mem_cons.1 h with h | h
        · exact .inl h
        · exact .inr (List.mem_cons_of_mem _ h)
      · rcases List.mem_cons.1 h with h | h
        · exact .inr (h ▸ List.mem_cons_self)
        · exact (ih h).imp_right (List.mem_cons_of_mem _)

/-- Setting a name keeps a list sorted. -/
theorem setEntry_sorted (name value : String) {es : List (String × String)}
    (h : es.Pairwise (fun a b => a.1 < b.1)) :
    (setEntry name value es).Pairwise (fun a b => a.1 < b.1) := by
  induction es with
  | nil => simp [setEntry]
  | cons f rest ih =>
    obtain ⟨n, v⟩ := f
    rw [List.pairwise_cons] at h
    simp only [setEntry]
    split
    case isTrue hlt =>
      refine List.pairwise_cons.2 ⟨fun e he => ?_, List.pairwise_cons.2 h⟩
      rcases List.mem_cons.1 he with rfl | he
      · exact hlt
      · exact String.lt_trans hlt (h.1 e he)
    case isFalse hlt =>
      split
      case isTrue heq =>
        exact List.pairwise_cons.2 ⟨fun e he => heq ▸ h.1 e he, h.2⟩
      case isFalse hne =>
        refine List.pairwise_cons.2 ⟨fun e he => ?_, ih h.2⟩
        rcases mem_setEntry he with rfl | he
        · exact Decidable.byContradiction fun hnot =>
            hne (String.le_antisymm (String.not_lt.1 hnot) (String.not_lt.1 hlt))
        · exact h.1 e he

/-- Set a name to a value, in place of any value it had. -/
def set (vars : Vars) (name value : String) : Vars where
  entries := setEntry name value vars.entries
  sorted := setEntry_sorted name value vars.sorted

/-- The value of a name. -/
def get? (vars : Vars) (name : String) : Option String :=
  (vars.entries.find? fun e => e.1 = name).map Prod.snd

/-- Set a name that has no value yet. -/
def setDefault (vars : Vars) (name value : String) : Vars :=
  if (vars.get? name).isSome then vars else vars.set name value

/-- Set names one after the other. -/
def setAll (vars : Vars) (entries : List (String × String)) : Vars :=
  entries.foldl (fun vs (n, v) => vs.set n v) vars

/-- The variables of a list; of two values for one name the later one counts. -/
def ofList (entries : List (String × String)) : Vars := empty.setAll entries

/-- The names in their order. -/
def names (vars : Vars) : List String := vars.entries.map Prod.fst

/-- There is no variable. -/
def isEmpty (vars : Vars) : Bool := vars.entries.isEmpty

end Vars

end PipelineCompiler
