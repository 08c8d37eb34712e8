import PipelineCompiler.Proofs.Task.Waiting

/-!
# Positions that are listed and positions that are followed

Job names, dependencies and the positions of findings come from three functions: one that lists the
leaves, one that follows a position, and one that collects what a position waits for. Here the three are
shown to speak of the same positions.

`leaves_unique` says that nothing is left to choose about the list: it is the only one that stands in
the order of positions and holds what positions lead to. What a position waits for is taken from it,
also for positions that lead to no leaf (`passedPaths_sublist_leafPaths`), so that no name is lost on
the way from a dependency to the name of its job.
-/

namespace PipelineCompiler

namespace Task

/-! ## Positions in range -/

/-- Every index of a position is one of the tasks that it is taken from: those of the list, and then
those of the group that the indices before it lead to. -/
inductive InRange : List Task → TaskPath → Prop
  | nil (tasks : List Task) : InRange tasks []
  | cons {tasks : List Task} {i : Nat} {rest : TaskPath} (hi : i < tasks.length)
      (hrest : InRange tasks[i].children rest) : InRange tasks (i :: rest)

theorem inRange_cons {tasks : List Task} {i : Nat} {rest : TaskPath} :
    InRange tasks (i :: rest) ↔ ∃ t, tasks[i]? = some t ∧ InRange t.children rest := by
  constructor
  · rintro (_ | ⟨hi, hrest⟩)
    exact ⟨tasks[i], List.getElem?_eq_getElem hi, hrest⟩
  · rintro ⟨t, ht, hrest⟩
    obtain ⟨hi, rfl⟩ := List.getElem?_eq_some_iff.1 ht
    exact .cons hi hrest

/-- A position leads from a task to another just if its indices are in range. -/
theorem isSome_below?_iff {t : Task} {path : TaskPath} :
    (t.below? path).isSome ↔ InRange t.children path := by
  induction path generalizing t with
  | nil => exact ⟨fun _ => .nil t.children, fun _ => rfl⟩
  | cons i rest ih =>
      rw [inRange_cons, below?_cons]
      cases hu : t.children[i]? with
      | none => simp
      | some u => simp [ih]

/-- A position leads to a task of a list just if it is not empty and its indices are in range. -/
theorem isSome_at?_iff {tasks : List Task} {path : TaskPath} :
    (at? tasks path).isSome ↔ path ≠ [] ∧ InRange tasks path := by
  cases path with
  | nil => simp [at?]
  | cons i rest =>
      rw [at?_eq_below? tasks (List.cons_ne_nil i rest), isSome_below?_iff]
      exact ⟨fun h => ⟨List.cons_ne_nil i rest, h⟩, And.right⟩

/-! ## The list of leaves -/

/-- The list of leaves is the only one in the order of positions that holds what positions lead to. -/
theorem leaves_unique {tasks : List Task} {entries : List (TaskPath × Leaf)} :
    entries = leaves tasks ↔
      entries.Pairwise (fun a b => a.1 < b.1) ∧
        ∀ path l, (path, l) ∈ entries ↔ leafAt? tasks path = some l := by
  constructor
  · rintro rfl
    exact ⟨leaves_sorted tasks, fun _ _ => mem_leaves⟩
  · rintro ⟨hsorted, hmem⟩
    have hirrefl : Std.Irrefl fun a b : TaskPath × Leaf => a.1 < b.1 :=
      ⟨fun a => List.lt_irrefl a.1⟩
    have hantisymm : Std.Antisymm fun a b : TaskPath × Leaf => a.1 < b.1 :=
      ⟨fun a _ hab hba => absurd (List.lt_trans hab hba) (List.lt_irrefl a.1)⟩
    exact hsorted.eq_of_mem_iff (leaves_sorted tasks) fun ⟨path, l⟩ =>
      (hmem path l).trans mem_leaves.symm

/-- A position that leads to a leaf has one place in the list. -/
theorem existsUnique_leaves_iff {tasks : List Task} {path : TaskPath} {l : Leaf} :
    (∃! i : Nat, (leaves tasks)[i]? = some (path, l)) ↔ leafAt? tasks path = some l := by
  have hnodup : (leaves tasks).Nodup := List.Nodup.of_map Prod.fst (leafPaths_nodup tasks)
  rw [← mem_leaves, List.mem_iff_getElem?]
  constructor
  · exact ExistsUnique.exists
  · rintro ⟨i, hi⟩
    obtain ⟨hlt, -⟩ := List.getElem?_eq_some_iff.1 hi
    exact ⟨i, hi, fun j hj => ((List.getElem?_inj hlt hnodup).1 (hi.trans hj.symm)).symm⟩

/-! ## What a position waits for -/

/-- Nothing stands at an index that a list does not have, and it waits for nothing. -/
theorem passedFrom_of_getElem?_eq_none {tasks : List Task} {i : Nat} (hi : tasks[i]? = none)
    (place : TaskPath) (entry : List TaskPath) (isParallel : Bool) (rest : TaskPath) :
    passedFrom tasks place entry isParallel (i :: rest) = [] := by
  rw [passedFrom, hi]

/-- A position below a leaf waits for what the leaf waits for, and any other position that is out of
range for nothing. -/
theorem passedWithin_of_out_of_range {t : Task} {place : TaskPath} {entry : List TaskPath}
    {path : TaskPath} (h : t.below? path = none) :
    t.passedWithin place entry path = [] ∨
      ∃ above l, t.below? above = some (.leaf l) ∧
        t.passedWithin place entry path = t.passedWithin place entry above := by
  induction path generalizing t place entry with
  | nil => simp at h
  | cons i rest ih =>
      cases hu : t.children[i]? with
      | none =>
          cases t with
          | leaf l => exact .inr ⟨[], l, rfl, rfl⟩
          | sequence tasks => exact .inl (passedFrom_of_getElem?_eq_none hu place entry false rest)
          | parallel tasks => exact .inl (passedFrom_of_getElem?_eq_none hu place entry true rest)
      | some u =>
          rw [below?_cons, hu, Option.bind_some] at h
          rw [passedWithin_cons hu]
          obtain hnil | ⟨above, l, habove, heq⟩ := @ih u (place ++ [i]) (t.entryAt place entry i) h
          · exact .inl hnil
          · refine .inr ⟨i :: above, l, below?_cons_eq_some.2 ⟨u, hu, habove⟩, ?_⟩
            rw [heq, passedWithin_cons hu]

/-- What any position waits for stands in the order of the leaves. -/
theorem passedPaths_sublist_leafPaths (tasks : List Task) (path : TaskPath) :
    (passedPaths tasks path).Sublist (leafPaths tasks) := by
  have hin {above : TaskPath} {u : Task} (habove : (Task.sequence tasks).below? above = some u) :
      ((Task.sequence tasks).passedWithin [] [] above).Sublist (leafPaths tasks) := by
    refine passedWithin_sublist (List.nil_sublist _) ?_ habove
    rw [leavesAt]
    exact List.Sublist.refl _
  rw [show passedPaths tasks path = (Task.sequence tasks).passedWithin [] [] path from rfl]
  cases hbelow : (Task.sequence tasks).below? path with
  | some u => exact hin hbelow
  | none =>
      obtain hnil | ⟨above, l, habove, heq⟩ := passedWithin_of_out_of_range hbelow
      · rw [hnil]
        exact List.nil_sublist _
      · rw [heq]
        exact hin habove

/-- Positions of leaves have a name each. -/
theorem forall₂_filterMap_leafAt? {tasks : List Task} {nameOf : TaskPath → Leaf → String}
    {paths : List TaskPath} (h : ∀ p ∈ paths, p ∈ leafPaths tasks) :
    List.Forall₂ (fun p name => ∃ l, (p, l) ∈ leaves tasks ∧ name = nameOf p l) paths
      (paths.filterMap fun p => (leafAt? tasks p).map (nameOf p)) := by
  induction paths with
  | nil => exact .nil
  | cons p paths ih =>
      obtain ⟨l, hl⟩ := mem_leafPaths.1 (h p List.mem_cons_self)
      rw [List.filterMap_cons, hl, Option.map_some]
      exact .cons ⟨l, mem_leaves.2 hl, rfl⟩ (ih fun q hq => h q (List.mem_cons_of_mem p hq))

/-- The leaves are listed once each, in strictly increasing lexicographic order of their positions. A
position is listed with a leaf just if it leads to the leaf, and a position leads to a task just if it
is not empty and its indices are in range at every level. What a position waits for is listed, and has
one name for each. -/
theorem leaves_agree_with_positions (tasks : List Task) :
    (∀ path l, (∃! i : Nat, (leaves tasks)[i]? = some (path, l)) ↔ leafAt? tasks path = some l)
      ∧ (leafPaths tasks).Nodup
      ∧ (leafPaths tasks).Pairwise (· < ·)
      ∧ (∀ path l, (path, l) ∈ leaves tasks ↔ leafAt? tasks path = some l)
      ∧ (∀ path, (at? tasks path).isSome ↔ path ≠ [] ∧ InRange tasks path)
      ∧ (∀ path, (passedPaths tasks path).Sublist (leafPaths tasks))
      ∧ ∀ nameOf path,
          List.Forall₂ (fun p name => ∃ l, (p, l) ∈ leaves tasks ∧ name = nameOf p l)
            (passedPaths tasks path) (passedNames tasks nameOf path) :=
  ⟨fun _ _ => existsUnique_leaves_iff, leafPaths_nodup tasks, leafPaths_sorted tasks,
    fun _ _ => mem_leaves, fun _ => isSome_at?_iff, passedPaths_sublist_leafPaths tasks,
    fun _ path => forall₂_filterMap_leafAt? fun _ hp =>
      (passedPaths_sublist_leafPaths tasks path).subset hp⟩

end Task

end PipelineCompiler
