import PipelineCompiler.Proofs.Naming
import PipelineCompiler.Proofs.Task.Waiting
import PipelineCompiler.Proofs.Traversal

/-!
# Graphs of jobs

What is left of a pipeline or a workflow if only the order of its jobs is looked at: their names, and the
names each job waits for. A graph orders a list of tasks if its jobs wait for each other as the leaves
do. Any graph whose names come from a job index does so (`orders_of_index`), whatever the leaves are
called, so that two graphs for one list of tasks have the same edges.
-/

namespace PipelineCompiler

/-- The leaf at index `k` of the leaves of a list waits for the one at index `i`. -/
def Task.Awaits (tasks : List Task) (i k : Nat) : Prop :=
  ∃ a b : TaskPath, (leafPaths tasks)[i]? = some a ∧ (leafPaths tasks)[k]? = some b ∧ a ∈ passedPaths tasks b

/-- The jobs of a pipeline in their order, each with its name and the names that it waits for. -/
abbrev JobGraph := List (String × List String)

namespace JobGraph

/-- The job at index `k` waits for the job at index `i`. -/
def Waits (g : JobGraph) (i k : Nat) : Prop :=
  ∃ a b : String × List String, g[i]? = some a ∧ g[k]? = some b ∧ a.1 ∈ b.2

/-- The jobs stand for the leaves of a list of tasks and wait for each other like these. -/
structure Orders (g : JobGraph) (tasks : List Task) : Prop where
  length : g.length = (Task.leaves tasks).length
  distinct : (g.map Prod.fst).Nodup
  earlier : ∀ (k : Nat) (b : String × List String), g[k]? = some b → ∀ name ∈ b.2,
    ∃ (i : Nat) (a : String × List String), i < k ∧ g[i]? = some a ∧ a.1 = name
  waits : ∀ i k, g.Waits i k ↔ Task.Awaits tasks i k
  acyclic : ∀ i, ¬ Relation.TransGen g.Waits i i

/-- A job of the graph carries the name of its leaf in the index and waits for the names that the index
gives. -/
def FromIndex (tasks : List Task) (nameOf : Leaf → String) (e : TaskPath × Leaf)
    (a : String × List String) : Prop :=
  (JobIndex.ofTasks tasks nameOf).name? e.1 = some a.1
    ∧ ∀ name, name ∈ a.2 ↔ name ∈ (JobIndex.ofTasks tasks nameOf).passed tasks e.1

/-! ## Order of leaves -/

/-- A leaf waits for leaves that are listed before it. -/
theorem lt_of_awaits {tasks : List Task} (hfill : Task.allFilled tasks = true) {i k : Nat}
    (h : Task.Awaits tasks i k) : i < k := by
  obtain ⟨a, b, ha, hb, hpassed⟩ := h
  have hlt : a < b := by
    obtain ⟨-, -, hprecedes, -⟩ :=
      (Task.mem_passedPaths hfill (List.mem_of_getElem? hb)).1 hpassed
    exact hprecedes.lt
  obtain ⟨hi, rfl⟩ := List.getElem?_eq_some_iff.1 ha
  obtain ⟨hk, rfl⟩ := List.getElem?_eq_some_iff.1 hb
  rcases Nat.lt_trichotomy i k with hik | rfl | hki
  · exact hik
  · exact absurd hlt (List.lt_irrefl _)
  · exact absurd (List.pairwise_iff_getElem.1 (Task.leafPaths_sorted tasks) k i hk hi hki)
      (fun hgt => List.lt_irrefl _ (List.lt_trans hlt hgt))

/-- Where every edge leads to a later index there is no cycle. -/
theorem acyclic_of_lt {r : Nat → Nat → Prop} (h : ∀ i k, r i k → i < k) (i : Nat) :
    ¬ Relation.TransGen r i i := by
  have hlt {j : Nat} (hj : Relation.TransGen r i j) : i < j := by
    induction hj with
    | single hik => exact h _ _ hik
    | tail _ hjk ih => exact Nat.lt_trans ih (h _ _ hjk)
  exact fun hcycle => Nat.lt_irrefl i (hlt hcycle)

/-! ## Graphs of an index -/

/-- Jobs that look up their names in an index, and what they wait for, have a graph of that index. What a
job would be called without a name in the index does not matter, since every leaf has one. -/
theorem fromIndex_map {α : Type} {tasks : List Task} {nameOf : Leaf → String}
    {R : TaskPath × Leaf → α → Prop} {js : List α} {f : α → String × List String}
    (hjobs : List.Forall₂ R (Task.leaves tasks) js)
    (h : ∀ e j, R e j → ∃ other, (f j).1 = ((JobIndex.ofTasks tasks nameOf).name? e.1).getD other
      ∧ ∀ name, name ∈ (f j).2 ↔ name ∈ (JobIndex.ofTasks tasks nameOf).passed tasks e.1) :
    List.Forall₂ (FromIndex tasks nameOf) (Task.leaves tasks) (js.map f) := by
  rw [List.forall₂_map_right_iff, List.forall₂_iff_get]
  refine ⟨hjobs.length_eq, fun i hi hj => ?_⟩
  obtain ⟨other, hother, hpassed⟩ := h _ _ ((List.forall₂_iff_get.1 hjobs).2 i hi hj)
  obtain ⟨name, hname⟩ := JobIndex.exists_name? nameOf (List.get_mem (Task.leaves tasks) ⟨i, hi⟩)
  refine ⟨?_, hpassed⟩
  rw [hother, hname, Option.getD_some]

section Index

variable {tasks : List Task} {nameOf : Leaf → String} {g : JobGraph}
  (h : List.Forall₂ (FromIndex tasks nameOf) (Task.leaves tasks) g)
include h

/-- A job stands for the leaf at its index, under the name that was handed out for that leaf. -/
theorem exists_leaf {k : Nat} {a : String × List String} (ha : g[k]? = some a) :
    ∃ path l, (Task.leaves tasks)[k]? = some (path, l) ∧ (JobIndex.names tasks nameOf)[k]? = some a.1
      ∧ ∀ name, name ∈ a.2 ↔ name ∈ (JobIndex.ofTasks tasks nameOf).passed tasks path := by
  obtain ⟨hk, -⟩ := List.getElem?_eq_some_iff.1 ha
  obtain ⟨⟨path, l⟩, hleaf⟩ : ∃ e, (Task.leaves tasks)[k]? = some e :=
    ⟨_, List.getElem?_eq_getElem (h.length_eq ▸ hk)⟩
  have hname : (JobIndex.names tasks nameOf)[k]? = some _ :=
    List.getElem?_eq_getElem (by rwa [JobIndex.names_length, h.length_eq])
  obtain ⟨hname', hpassed⟩ := rel_of_getElem? h hleaf ha
  rw [JobIndex.name?_of_getElem? hleaf hname] at hname'
  exact ⟨_, _, hleaf, hname.trans hname', hpassed⟩

/-- Every leaf has a job at its index. -/
theorem exists_job {k : Nat} {e : TaskPath × Leaf} (he : (Task.leaves tasks)[k]? = some e) :
    ∃ a, g[k]? = some a := by
  obtain ⟨hk, -⟩ := List.getElem?_eq_some_iff.1 he
  exact ⟨_, List.getElem?_eq_getElem (h.length_eq ▸ hk)⟩

/-- The names of the jobs are those that were handed out. -/
theorem map_fst_eq_names : g.map Prod.fst = JobIndex.names tasks nameOf := by
  refine List.ext_getElem? fun k => ?_
  rw [List.getElem?_map]
  cases hk : g[k]? with
  | none =>
      rw [List.getElem?_eq_none_iff, ← h.length_eq, ← JobIndex.names_length tasks nameOf] at hk
      rw [List.getElem?_eq_none hk, Option.map_none]
  | some a =>
      obtain ⟨-, -, -, hname, -⟩ := exists_leaf h hk
      rw [hname, Option.map_some]

/-- Jobs wait for each other like the leaves they stand for, since their names are distinct. -/
theorem waits_iff {i k : Nat} : g.Waits i k ↔ Task.Awaits tasks i k := by
  have hpath {n : Nat} {path : TaskPath} : (Task.leafPaths tasks)[n]? = some path ↔
      ∃ l, (Task.leaves tasks)[n]? = some (path, l) := by
    rw [Task.leafPaths, List.getElem?_map, Option.map_eq_some_iff]
    constructor
    · rintro ⟨⟨p, l⟩, hl, rfl⟩
      exact ⟨l, hl⟩
    · rintro ⟨l, hl⟩
      exact ⟨(path, l), hl, rfl⟩
  constructor
  · rintro ⟨a, b, ha, hb, hmem⟩
    obtain ⟨p, l, hleaf, hname, -⟩ := exists_leaf h ha
    obtain ⟨q, l', hleaf', -, hpassed⟩ := exists_leaf h hb
    obtain ⟨i', p', l'', hi', hname', hp'⟩ := JobIndex.mem_passed.1 ((hpassed a.1).1 hmem)
    obtain ⟨hlt, -⟩ := List.getElem?_eq_some_iff.1 hname
    obtain rfl : i = i' :=
      (List.getElem?_inj hlt (JobIndex.names_nodup tasks nameOf)).1 (hname.trans hname'.symm)
    exact ⟨p', q, hpath.2 ⟨l'', hi'⟩, hpath.2 ⟨l', hleaf'⟩, hp'⟩
  · rintro ⟨p, q, hp, hq, hpassed⟩
    obtain ⟨l, hl⟩ := hpath.1 hp
    obtain ⟨l', hl'⟩ := hpath.1 hq
    obtain ⟨a, ha⟩ := exists_job h hl
    obtain ⟨b, hb⟩ := exists_job h hl'
    obtain ⟨p', m, hleaf, hname, -⟩ := exists_leaf h ha
    obtain ⟨q', m', hleaf', -, hiff⟩ := exists_leaf h hb
    obtain ⟨rfl, -⟩ := Prod.mk.inj (Option.some.inj (hl'.symm.trans hleaf'))
    exact ⟨a, b, ha, hb, (hiff a.1).2 (JobIndex.mem_passed.2 ⟨i, p, l, hl, hname, hpassed⟩)⟩

/-- A graph whose names come from an index orders the tasks of the index. -/
theorem orders_of_index (hfill : Task.allFilled tasks = true) : g.Orders tasks := by
  have hlt : ∀ i k, g.Waits i k → i < k := fun i k hik => lt_of_awaits hfill ((waits_iff h).1 hik)
  refine ⟨h.length_eq.symm, ?distinct, fun k b hb name hname => ?earlier, fun i k => waits_iff h,
    acyclic_of_lt hlt⟩
  case distinct =>
    rw [map_fst_eq_names h]
    exact JobIndex.names_nodup tasks nameOf
  case earlier =>
    obtain ⟨q, l, -, -, hpassed⟩ := exists_leaf h hb
    obtain ⟨i, p, l', hi, hname', -⟩ := JobIndex.mem_passed.1 ((hpassed name).1 hname)
    obtain ⟨a, ha⟩ := exists_job h hi
    obtain ⟨-, -, -, hname'', -⟩ := exists_leaf h ha
    have heq : a.1 = name := Option.some.inj (hname''.symm.trans hname')
    exact ⟨i, a, hlt i k ⟨a, b, ha, hb, heq ▸ hname⟩, ha, heq⟩

end Index

end JobGraph

end PipelineCompiler
