import PipelineCompiler.Proofs.Lint.Accepted
import PipelineCompiler.Proofs.Task.Branches
import PipelineCompiler.Proofs.Task.Waiting

/-!
# Order of accepted tasks

The rules that depend on order go over the leaves as they are listed and remember whether one of them
saved artifacts. What they leave is an update that stands first (`update_first`) and, for every leaf that
restores artifacts, a leaf listed before it that saves some (`exists_save_listed_before`).

Leaves do not run in the order in which they are listed: the branches of a parallel group run beside each
other. `restored_after_saved` says for which leaves the rule is enough, and `restored_beside_saved` is an
accepted list of tasks for which it is not.
-/

namespace PipelineCompiler.Lint

open Findings

variable {m : Manifest} {files : FileProbe}

/-! ## What the rules leave -/

/-- Leaves that restore artifacts come behind one that saves some, or some were saved before all of them. -/
def SavedFirst : (saved : Bool) → List Leaf → Prop
  | _, [] => True
  | saved, l :: rest =>
    (l.readsArtifacts = true → saved = true) ∧ SavedFirst (saved || l.savesArtifacts) rest

theorem SavedFirst.exists_save {saved : Bool} {before after : List Leaf} {l : Leaf}
    (h : SavedFirst saved (before ++ l :: after)) (hreads : l.readsArtifacts = true) :
    saved = true ∨ ∃ f ∈ before, f.savesArtifacts = true := by
  induction before generalizing saved with
  | nil => exact .inl (h.1 hreads)
  | cons f before ih =>
      rcases ih h.2 with hsaved | ⟨g, hg, hsaves⟩
      · rcases Bool.or_eq_true_iff.1 hsaved with hsaved | hsaves
        · exact .inl hsaved
        · exact .inr ⟨f, List.mem_cons_self, hsaves⟩
      · exact .inr ⟨g, List.mem_cons_of_mem f hg, hsaves⟩

section Kinds

variable {P : Fault → Prop} {saved : Bool}

/-- At a leaf the second pass keeps to errors of a kind, of which an early restore may be one and a late
update is none, if it finds nothing else. -/
theorem orderFindingsAt_only (hlate : ∀ reason, ¬ P (.invalid "type" reason)) {path : TaskPath} {l : Leaf} :
    (orderFindingsAt m saved path l).Only P
      ↔ ((l.readsArtifacts = true → saved = true) ∨ P restoreFault)
        ∧ (l.isUpdate = true → path = [0]) := by
  have hloop : (loopFindings m l).Only P := by
    unfold loopFindings
    split
    · dsimp only
      split <;> simp
    · exact only_empty
  rw [orderFindingsAt, only_under, only_append, only_append, and_iff_left hloop]
  refine and_congr ?restore ?first
  case restore => cases l.readsArtifacts <;> cases saved <;> simp
  case first => cases l.isUpdate <;> by_cases hpath : path = [0] <;> simp [hpath, hlate]

/-- The second pass keeps to such errors just if all restores come behind a leaf that saves artifacts,
unless early ones are let pass, and no update stands behind other tasks. -/
theorem orderFindings_only (hlate : ∀ reason, ¬ P (.invalid "type" reason))
    {es : List (TaskPath × Leaf)} :
    (orderFindings m saved es).Only P
      ↔ (SavedFirst saved (es.map Prod.snd) ∨ P restoreFault)
        ∧ ∀ e ∈ es, e.2.isUpdate = true → e.1 = [0] := by
  induction es generalizing saved with
  | nil => simp [orderFindings, SavedFirst]
  | cons e es ih =>
      obtain ⟨path, l⟩ := e
      rw [orderFindings, only_append, orderFindingsAt_only hlate, ih, List.map_cons, SavedFirst,
        List.forall_mem_cons, and_and_and_comm, ← and_or_right]

end Kinds

/-- The second pass finds early restores only if no update among the leaves stands behind other tasks,
whatever was saved before it. -/
theorem orderFindings_only_restore {saved : Bool} {es : List (TaskPath × Leaf)} :
    (orderFindings m saved es).Only (· = restoreFault)
      ↔ ∀ e ∈ es, e.2.isUpdate = true → e.1 = [0] := by
  rw [orderFindings_only (by simp [restoreFault]), and_iff_right (.inr rfl)]

/-- The second pass finds no error just if all restores come behind a leaf that saves artifacts and no
update stands behind other tasks. -/
theorem orderFindings_clean_iff {saved : Bool} {es : List (TaskPath × Leaf)} :
    (orderFindings m saved es).Clean
      ↔ SavedFirst saved (es.map Prod.snd) ∧ ∀ e ∈ es, e.2.isUpdate = true → e.1 = [0] := by
  rw [clean_iff_only, orderFindings_only fun _ => id, or_false]

/-- The leaves of a manifest whose tasks have no errors are in order. -/
theorem order_of_clean (h : (tasksFindings m files).Clean) :
    SavedFirst false (Task.flatten m.tasks)
      ∧ ∀ e ∈ Task.leaves m.tasks, e.2.isUpdate = true → e.1 = [0] := by
  rw [tasksFindings] at h
  split at h
  · simp at h
  · exact orderFindings_clean_iff.1 (clean_append.1 h).2

/-- The update stands first. -/
theorem update_first (h : (tasksFindings m files).Clean) {e : TaskPath × Leaf}
    (he : e ∈ Task.leaves m.tasks) (hupdate : e.2.isUpdate = true) : e.1 = [0] :=
  (order_of_clean h).2 e he hupdate

/-- A leaf that restores artifacts is listed after one that saves some. -/
theorem exists_save_listed_before (h : (tasksFindings m files).Clean) {e : TaskPath × Leaf}
    (he : e ∈ Task.leaves m.tasks) (hreads : e.2.readsArtifacts = true) :
    ∃ f ∈ Task.leaves m.tasks, f.2.savesArtifacts = true ∧ f.1 < e.1 := by
  obtain ⟨before, after, hsplit⟩ := List.append_of_mem he
  have hsaved := (order_of_clean h).1
  rw [Task.flatten, hsplit, List.map_append, List.map_cons] at hsaved
  rcases hsaved.exists_save hreads with hfalse | ⟨l, hl, hsaves⟩
  · simp at hfalse
  · obtain ⟨f, hf, rfl⟩ := List.mem_map.1 hl
    have hsorted := Task.leaves_sorted m.tasks
    rw [hsplit, List.pairwise_append] at hsorted
    obtain ⟨-, -, hbefore⟩ := hsorted
    refine ⟨f, ?_, hsaves, hbefore f hf e List.mem_cons_self⟩
    rw [hsplit]
    exact List.mem_append_left _ hf

/-! ## Saved before it is restored -/

/-- Along the edges of the tree, a leaf is reached from a leaf listed before it just if the two do not
run beside each other. -/
theorem reached_iff_not_beside (h : (tasksFindings m files).Clean) {e f : TaskPath × Leaf}
    (he : e ∈ Task.leaves m.tasks) (hf : f ∈ Task.leaves m.tasks) (hlt : f.1 < e.1) :
    Relation.TransGen (fun p q => p ∈ Task.passedPaths m.tasks q) f.1 e.1
      ↔ ¬ Task.Beside m.tasks f.1 e.1 := by
  have hleaf {e : TaskPath × Leaf} (he : e ∈ Task.leaves m.tasks) :
      ∃ l, Task.leafAt? m.tasks e.1 = some l := ⟨e.2, Task.mem_leaves.1 he⟩
  have hpath {e : TaskPath × Leaf} (he : e ∈ Task.leaves m.tasks) : e.1 ∈ Task.leafPaths m.tasks :=
    List.mem_map_of_mem he
  rw [← Task.comesBefore_iff_not_beside (hleaf hf) (hleaf he) hlt]
  exact Task.LeafPosition.transGen_passedPaths (allFilled_of_clean h) ⟨f.1, hpath hf⟩ ⟨e.1, hpath he⟩

/-- What is reached along the edges of the tree is listed later. -/
theorem lt_of_reached (h : (tasksFindings m files).Clean) {e f : TaskPath × Leaf}
    (he : e ∈ Task.leaves m.tasks) (hf : f ∈ Task.leaves m.tasks)
    (hreached : Relation.TransGen (fun p q => p ∈ Task.passedPaths m.tasks q) f.1 e.1) : f.1 < e.1 := by
  have hbefore : Task.ComesBefore m.tasks f.1 e.1 :=
    (Task.LeafPosition.transGen_passedPaths (allFilled_of_clean h) ⟨f.1, List.mem_map_of_mem hf⟩
      ⟨e.1, List.mem_map_of_mem he⟩).1 hreached
  exact (Task.comesBefore_iff.1 hbefore).lt

/-- A leaf that restores artifacts is listed after one that saves some. It waits for such a leaf, so that
the artifacts are there when it runs, just if not all of them stand in other branches of a parallel
group. -/
theorem restored_after_saved (m : Manifest) (files : FileProbe)
    (h : (tasksFindings m files).errors = []) (path : TaskPath) (l : Leaf)
    (hl : (path, l) ∈ Task.leaves m.tasks) (hreads : l.readsArtifacts = true) :
    (∃ e ∈ Task.leaves m.tasks, e.2.savesArtifacts = true ∧ e.1 < path)
      ∧ ((∃ e ∈ Task.leaves m.tasks, e.2.savesArtifacts = true
            ∧ Relation.TransGen (fun p q => p ∈ Task.passedPaths m.tasks q) e.1 path)
          ↔ ∃ e ∈ Task.leaves m.tasks, e.2.savesArtifacts = true ∧ e.1 < path
            ∧ ¬ Task.Beside m.tasks e.1 path) := by
  refine ⟨exists_save_listed_before h hl hreads, ?_⟩
  constructor
  · rintro ⟨e, he, hsaves, hreached⟩
    have hlt := lt_of_reached h hl he hreached
    exact ⟨e, he, hsaves, hlt, (reached_iff_not_beside h hl he hlt).1 hreached⟩
  · rintro ⟨e, he, hsaves, hlt, hbeside⟩
    exact ⟨e, he, hsaves, (reached_iff_not_beside h hl he hlt).2 hbeside⟩

/-- A leaf that runs a script and saves artifacts. -/
def savingScript (name : String) : Leaf :=
  { attributes := { name, saveArtifacts := ["out"] }
    action := .run { script := "./" ++ name, docker := { image := "alpine" } } }

/-- A leaf that runs a script on restored artifacts. -/
def restoringScript (name : String) : Leaf :=
  { attributes := { name, restoreArtifacts := true }
    action := .run { script := "./" ++ name, docker := { image := "alpine" } } }

/-- Artifacts that are saved ahead of a parallel group and restored in a branch of it. -/
def savedAhead : Manifest where
  tasks :=
    [.leaf (savingScript "build"),
      .parallel [.leaf (savingScript "lint"), .sequence [.leaf (restoringScript "test")]]]

theorem savedAhead_restored :
    (tasksFindings savedAhead sampleSurroundings.files).errors = []
      ∧ ([1, 1, 0], restoringScript "test") ∈ Task.leaves savedAhead.tasks
      ∧ (restoringScript "test").readsArtifacts = true
      ∧ ∃ e ∈ Task.leaves savedAhead.tasks, e.2.savesArtifacts = true
          ∧ Relation.TransGen (fun p q => p ∈ Task.passedPaths savedAhead.tasks q) e.1 [1, 1, 0] := by
  have hclean : (tasksFindings savedAhead sampleSurroundings.files).errors = [] := by decide +kernel
  have hl : ([1, 1, 0], restoringScript "test") ∈ Task.leaves savedAhead.tasks :=
    List.mem_of_getElem? (i := 2) rfl
  have hsave : ([0], savingScript "build") ∈ Task.leaves savedAhead.tasks :=
    List.mem_of_getElem? (i := 0) rfl
  have hbeside : ¬ Task.Beside savedAhead.tasks [0] [1, 1, 0] := by
    rintro ⟨place, i, j, p, q, ha, -, -, group, hgroup⟩
    obtain rfl : place = [] := by
      cases place with
      | nil => rfl
      | cons k place => simp at ha
    simp [Task.at?] at hgroup
  obtain ⟨-, hreached⟩ := restored_after_saved savedAhead _ hclean [1, 1, 0] _ hl rfl
  exact ⟨hclean, hl, rfl, hreached.2 ⟨_, hsave, rfl, by decide, hbeside⟩⟩

/-- Artifacts that are saved in one branch of a parallel group and restored in another. -/
def savedBeside : Manifest where
  tasks := [.parallel [.leaf (savingScript "build"), .leaf (restoringScript "test")]]

/-- What one branch saves is accepted as saved for the next, which does not wait for it. -/
theorem restored_beside_saved :
    (tasksFindings savedBeside sampleSurroundings.files).errors = []
      ∧ ([0, 1], restoringScript "test") ∈ Task.leaves savedBeside.tasks
      ∧ (restoringScript "test").readsArtifacts = true
      ∧ ¬ ∃ e ∈ Task.leaves savedBeside.tasks, e.2.savesArtifacts = true
          ∧ Relation.TransGen (fun p q => p ∈ Task.passedPaths savedBeside.tasks q) e.1 [0, 1] := by
  refine ⟨by decide +kernel, List.mem_of_getElem? (i := 1) rfl, rfl, ?_⟩
  rintro ⟨e, -, -, hreached⟩
  -- the last edge of a way to the leaf would come from a leaf that it waits for
  obtain ⟨p, -, hp⟩ := Relation.TransGen.tail'_iff.1 hreached
  have hnone : Task.passedPaths savedBeside.tasks [0, 1] = [] := rfl
  rw [hnone] at hp
  exact absurd hp List.not_mem_nil

end PipelineCompiler.Lint
