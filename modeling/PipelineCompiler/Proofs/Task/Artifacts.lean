import PipelineCompiler.Proofs.Task.Positions
import PipelineCompiler.Task.Artifacts

/-!
# What a leaf calls for

Whether a manifest needs a store of artifacts or a channel for messages is asked of the whole tree. A
group passes the question on to its tasks, so that the answer is yes just if one leaf says so
(`Asks.any_iff`).
-/

namespace PipelineCompiler

namespace Task

/-- A question about tasks that is one about leaves: a group passes it on to its tasks. -/
structure Asks (f : Task → Bool) (g : Leaf → Bool) : Prop where
  leaf : ∀ l, f (.leaf l) = g l
  group : ∀ t : Task, t.leaf? = none → f t = t.children.any f

section Asks

variable {f : Task → Bool} {g : Leaf → Bool}

/-- The answer for a task is yes if a leaf in it says so. -/
theorem Asks.iff_exists_holds (h : Asks f g) {t : Task} : f t = true ↔ ∃ l, t.Holds l ∧ g l = true := by
  induction t using tree_induction with
  | leaf l =>
      rw [h.leaf]
      constructor
      · exact fun hl => ⟨l, holds_leaf.2 rfl, hl⟩
      · rintro ⟨l', hl', hg⟩
        rwa [holds_leaf.1 hl']
  | group t hgroup ih =>
      rw [h.group t hgroup, List.any_eq_true]
      constructor
      · rintro ⟨u, hu, hf⟩
        obtain ⟨l, hl, hg⟩ := (ih u hu).1 hf
        exact ⟨l, (holds_group hgroup).2 ⟨u, hu, hl⟩, hg⟩
      · rintro ⟨l, hl, hg⟩
        obtain ⟨u, hu, hl⟩ := (holds_group hgroup).1 hl
        exact ⟨u, hu, (ih u hu).2 ⟨l, hl, hg⟩⟩

/-- The answer for a list of tasks is yes if a leaf of the list says so. -/
theorem Asks.any_iff (h : Asks f g) {tasks : List Task} :
    tasks.any f = true ↔ ∃ l ∈ flatten tasks, g l = true := by
  rw [List.any_eq_true]
  constructor
  · rintro ⟨t, ht, hf⟩
    obtain ⟨l, hl, hg⟩ := h.iff_exists_holds.1 hf
    exact ⟨l, mem_flatten.2 ⟨t, ht, hl⟩, hg⟩
  · rintro ⟨l, hl, hg⟩
    obtain ⟨t, ht, hl⟩ := mem_flatten.1 hl
    exact ⟨t, ht, h.iff_exists_holds.2 ⟨l, hl, hg⟩⟩

end Asks

/-! ## Questions of a pipeline -/

theorem anySavesArtifacts_eq (tasks : List Task) :
    anySavesArtifacts tasks = tasks.any savesArtifacts := by
  induction tasks with
  | nil => rw [anySavesArtifacts, List.any_nil]
  | cons t rest ih => rw [anySavesArtifacts, List.any_cons, ih]

theorem anySavesArtifactsOnFailure_eq (tasks : List Task) :
    anySavesArtifactsOnFailure tasks = tasks.any savesArtifactsOnFailure := by
  induction tasks with
  | nil => rw [anySavesArtifactsOnFailure, List.any_nil]
  | cons t rest ih => rw [anySavesArtifactsOnFailure, List.any_cons, ih]

theorem anyReadsArtifacts_eq (tasks : List Task) :
    anyReadsArtifacts tasks = tasks.any readsArtifacts := by
  induction tasks with
  | nil => rw [anyReadsArtifacts, List.any_nil]
  | cons t rest ih => rw [anyReadsArtifacts, List.any_cons, ih]

theorem anyUsesNotifications_eq (tasks : List Task) :
    anyUsesNotifications tasks = tasks.any usesNotifications := by
  induction tasks with
  | nil => rw [anyUsesNotifications, List.any_nil]
  | cons t rest ih => rw [anyUsesNotifications, List.any_cons, ih]

theorem asks_savesArtifacts : Asks savesArtifacts LeafOf.savesArtifacts := by
  refine ⟨fun l => by rw [savesArtifacts], fun t ht => ?_⟩
  cases t with
  | leaf l => simp [leaf?] at ht
  | sequence tasks => rw [savesArtifacts, anySavesArtifacts_eq, children]
  | parallel tasks => rw [savesArtifacts, anySavesArtifacts_eq, children]

theorem asks_savesArtifactsOnFailure : Asks savesArtifactsOnFailure LeafOf.savesArtifactsOnFailure := by
  refine ⟨fun l => by rw [savesArtifactsOnFailure], fun t ht => ?_⟩
  cases t with
  | leaf l => simp [leaf?] at ht
  | sequence tasks => rw [savesArtifactsOnFailure, anySavesArtifactsOnFailure_eq, children]
  | parallel tasks => rw [savesArtifactsOnFailure, anySavesArtifactsOnFailure_eq, children]

theorem asks_readsArtifacts : Asks readsArtifacts LeafOf.readsArtifacts := by
  refine ⟨fun l => by rw [readsArtifacts], fun t ht => ?_⟩
  cases t with
  | leaf l => simp [leaf?] at ht
  | sequence tasks => rw [readsArtifacts, anyReadsArtifacts_eq, children]
  | parallel tasks => rw [readsArtifacts, anyReadsArtifacts_eq, children]

theorem asks_usesNotifications : Asks usesNotifications LeafOf.usesNotifications := by
  refine ⟨fun l => by rw [usesNotifications], fun t ht => ?_⟩
  cases t with
  | leaf l => simp [leaf?] at ht
  | sequence tasks => rw [usesNotifications, anyUsesNotifications_eq, children]
  | parallel tasks => rw [usesNotifications, anyUsesNotifications_eq, children]

variable {tasks : List Task}

/-- A pipeline saves artifacts if a leaf of it does. -/
theorem anySavesArtifacts_iff :
    anySavesArtifacts tasks = true ↔ ∃ l ∈ flatten tasks, l.savesArtifacts = true := by
  rw [anySavesArtifacts_eq]
  exact asks_savesArtifacts.any_iff

/-- A pipeline saves artifacts on failure if a leaf of it does. -/
theorem anySavesArtifactsOnFailure_iff :
    anySavesArtifactsOnFailure tasks = true
      ↔ ∃ l ∈ flatten tasks, l.savesArtifactsOnFailure = true := by
  rw [anySavesArtifactsOnFailure_eq]
  exact asks_savesArtifactsOnFailure.any_iff

/-- A pipeline restores artifacts if a leaf of it does. -/
theorem anyReadsArtifacts_iff :
    anyReadsArtifacts tasks = true ↔ ∃ l ∈ flatten tasks, l.readsArtifacts = true := by
  rw [anyReadsArtifacts_eq]
  exact asks_readsArtifacts.any_iff

/-- A pipeline sends messages if a leaf of it does. -/
theorem anyUsesNotifications_iff :
    anyUsesNotifications tasks = true ↔ ∃ l ∈ flatten tasks, l.usesNotifications = true := by
  rw [anyUsesNotifications_eq]
  exact asks_usesNotifications.any_iff

end Task

end PipelineCompiler
