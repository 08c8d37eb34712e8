import PipelineCompiler.Proofs.Manifest.Renderable

/-!
# The update stands first

Filling in notifications leaves every task where it is. The update task is put ahead of all others, but
only into a manifest that has no update of its own. So where the update is the first task it still is
with the defaults filled in (`UpdateFirst.withDefaults`), whether it was written or put there.
-/

namespace PipelineCompiler

namespace NotificationDefaults

/-- Tasks with the defaults filled in list their leaves, with the defaults filled in, where they listed
them before. -/
theorem leavesFrom_map {d : NotificationDefaults} {path : TaskPath} {i : Nat} {tasks : List Task}
    (h : ∀ t ∈ tasks, ∀ path,
      (d.applyToTask t).leavesAt path = (t.leavesAt path).map fun e => (e.1, d.onLeaf e.2)) :
    Task.leavesFrom path i (tasks.map d.applyToTask)
      = (Task.leavesFrom path i tasks).map fun e => (e.1, d.onLeaf e.2) := by
  induction tasks generalizing i with
  | nil => rw [List.map_nil, Task.leavesFrom, List.map_nil]
  | cons t rest ih =>
      rw [List.map_cons, Task.leavesFrom, Task.leavesFrom, List.map_append,
        h t List.mem_cons_self, ih fun u hu => h u (List.mem_cons_of_mem _ hu)]

/-- Leaves stay where they are. -/
theorem leavesAt_applyToTask (d : NotificationDefaults) (t : Task) (path : TaskPath) :
    (d.applyToTask t).leavesAt path = (t.leavesAt path).map fun e => (e.1, d.onLeaf e.2) := by
  induction t using Task.tree_induction generalizing path with
  | leaf l => rw [applyToTask_leaf, Task.leavesAt, Task.leavesAt, List.map_singleton]
  | group t hgroup ih =>
      obtain ⟨hleaf, hchildren⟩ := d.applyToTask_group hgroup
      rw [Task.leavesAt_group hleaf, Task.leavesAt_group hgroup, hchildren]
      exact leavesFrom_map ih

end NotificationDefaults

namespace Manifest

variable {m : Manifest}

/-- Only the first task updates the pipeline. -/
def UpdateFirst (m : Manifest) : Prop :=
  ∀ e ∈ Task.leaves m.tasks, e.2.isUpdate = true → e.1 = [0]

/-- The leaves of a manifest with its defaults stand where they stood once the update was there. -/
theorem leaves_withDefaults (m : Manifest) :
    Task.leaves m.withDefaults.tasks
      = (Task.leaves m.withUpdateTask.tasks).map fun e => (e.1, m.notificationDefaults.onLeaf e.2) := by
  rw [withDefaults_eq]
  exact NotificationDefaults.leavesFrom_map fun t _ =>
    NotificationDefaults.leavesAt_applyToTask m.notificationDefaults t

/-- Behind a task that is put first, the leaves of a list stand one further on. -/
theorem mem_leaves_cons {t : Task} {tasks : List Task} {path : TaskPath} {l : Leaf}
    (h : (path, l) ∈ Task.leaves (t :: tasks)) :
    (∃ rest, path = 0 :: rest ∧ t.below? rest = some (.leaf l))
      ∨ ∃ i rest, path = (i + 1) :: rest ∧ (i :: rest, l) ∈ Task.leaves tasks := by
  simp only [Task.mem_leaves, Task.leafAt?_eq_some] at h ⊢
  cases path with
  | nil => simp at h
  | cons i rest =>
      obtain ⟨u, hu, hl⟩ := Task.below?_cons_eq_some.1 h
      cases i with
      | zero =>
          obtain rfl : t = u := by simpa [Task.children] using hu
          exact .inl ⟨rest, rfl, hl⟩
      | succ i =>
          have hu' : (Task.sequence tasks).children[i]? = some u := by simpa [Task.children] using hu
          exact .inr ⟨i, rest, rfl, Task.below?_cons_eq_some.2 ⟨u, hu', hl⟩⟩

/-- The update that is put into a manifest stands first, and there is no other. -/
theorem UpdateFirst.withUpdateTask (h : m.UpdateFirst) : m.withUpdateTask.UpdateFirst := by
  rw [Manifest.withUpdateTask]
  split
  · next hinserted =>
      rw [Bool.and_eq_true_iff, Bool.not_eq_true'] at hinserted
      rintro ⟨path, l⟩ he hupdate
      rcases mem_leaves_cons he with ⟨rest, rfl, hl⟩ | ⟨i, rest, rfl, hl⟩
      · obtain ⟨rfl, -⟩ := Task.below?_leaf hl
        rfl
      · have hnone := List.any_eq_false.1 hinserted.2 l (List.mem_map_of_mem (f := Prod.snd) hl)
        exact absurd hupdate hnone
  · exact h

/-- The defaults leave the update where it is, first of all tasks. -/
theorem UpdateFirst.withDefaults (h : m.UpdateFirst) : m.withDefaults.UpdateFirst := by
  rintro e he hupdate
  rw [leaves_withDefaults] at he
  obtain ⟨e', he', rfl⟩ := List.mem_map.1 he
  exact h.withUpdateTask e' he' hupdate

end Manifest

end PipelineCompiler
