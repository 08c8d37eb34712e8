import PipelineCompiler.Manifest.Defaults
import PipelineCompiler.Proofs.Task.Precedence
import PipelineCompiler.Task.Shape

/-!
# Manifests that can be rendered

What a manifest has to be like for both build servers to have a pipeline for it. `Renderable` says this
of a manifest whatever became of it before, so that it can be read off the rules of the linters and then
carried over to the manifest with its defaults (`Renderable.withDefaults`), which is the one rendered.
-/

namespace PipelineCompiler

/-- A property of the items of a list is one of the items with their indices. -/
theorem forall_mem_zipIdx {α : Type} {l : List α} {P : α → Prop} :
    (∀ e ∈ l.zipIdx, P e.1) ↔ ∀ a ∈ l, P a := by
  constructor
  · intro h a ha
    obtain ⟨i, hi⟩ := List.mem_iff_getElem?.1 ha
    exact h (a, i) (List.mk_mem_zipIdx_iff_getElem?.2 hi)
  · intro h e he
    exact h e.1 (List.fst_mem_of_mem_zipIdx he)

/-! ## Misplaced groups -/

namespace Task

/-- The task may stand in a parallel group. -/
def isBranch : Task → Bool
  | .leaf _ => true
  | .sequence tasks => tasks.all fun t => t.leaf?.isSome
  | .parallel _ => false

/-- The task may stand in the list of the pipeline. -/
def isStage : Task → Bool
  | .leaf _ => true
  | .sequence _ => false
  | .parallel tasks => tasks.all isBranch

theorem childFault?_eq_none {i j : Nat} {t : Task} : childFault? i j t = none ↔ t.isBranch = true := by
  cases t with
  | leaf l => simp [childFault?, isBranch]
  | sequence tasks => simp [childFault?, isBranch, List.findIdx?_eq_none_iff, Option.isSome_iff_ne_none]
  | parallel tasks => simp [childFault?, isBranch]

theorem topFault?_eq_none {i : Nat} {t : Task} : topFault? i t = none ↔ t.isStage = true := by
  cases t with
  | leaf l => simp [topFault?, isStage]
  | sequence tasks => simp [topFault?, isStage]
  | parallel tasks =>
      rw [topFault?, isStage, List.findSome?_eq_none_iff, List.all_eq_true]
      simp only [childFault?_eq_none]
      exact forall_mem_zipIdx (P := fun t : Task => t.isBranch = true)

/-- A tree without a fault is one of tasks that may stand in the list of the pipeline. -/
theorem checkShape_eq_ok {tasks : List Task} :
    checkShape tasks = .ok () ↔ ∀ t ∈ tasks, t.isStage = true := by
  have hnone : shapeFault? tasks = none ↔ ∀ t ∈ tasks, t.isStage = true := by
    rw [shapeFault?, List.findSome?_eq_none_iff]
    simp only [topFault?_eq_none]
    exact forall_mem_zipIdx (P := fun t : Task => t.isStage = true)
  rw [← hnone, checkShape]
  cases shapeFault? tasks with
  | none => simp
  | some fault => simp

/-- The task may check a candidate. -/
def isCheck : Task → Bool
  | .leaf ⟨_, .run _⟩ | .leaf ⟨_, .consumerTest _⟩ => true
  | _ => false

end Task

/-! ## The conditions -/

namespace Manifest

/-- The manifest has what a job for the leaf needs. -/
def Admits (m : Manifest) (l : Leaf) : Prop :=
  match l.action with
  | .deployCf _ prePromote => ∀ t ∈ prePromote, t.isCheck = true
  | .update _ => m.updatesPipeline = true
  | _ => True

/-- Number of triggers of a kind. -/
def triggerCount (m : Manifest) (kind : String) : Nat :=
  (m.triggers.filter fun t => t.kind = kind).length

/-- Both build servers have a pipeline for the manifest. -/
structure Renderable (m : Manifest) : Prop where
  stages : ∀ t ∈ m.tasks, t.isStage = true
  filled : Task.allFilled m.tasks = true
  leaves : ∀ l ∈ Task.flatten m.tasks, m.Admits l
  git : m.triggerCount "git" = 1
  timer : m.triggerCount "timer" ≤ 1
  docker : m.triggerCount "docker" ≤ 1

end Manifest

/-! ## Filling in notifications -/

namespace NotificationDefaults

/-- A leaf with the defaults filled in. -/
def onLeaf (d : NotificationDefaults) (l : Leaf) : Leaf := l.withNotifications (d.apply l.attributes)

@[simp] theorem onLeaf_action (d : NotificationDefaults) (l : Leaf) : (d.onLeaf l).action = l.action :=
  rfl

theorem applyToTask_leaf (d : NotificationDefaults) (l : Leaf) :
    d.applyToTask (.leaf l) = .leaf (d.onLeaf l) := by
  rw [applyToTask, onLeaf]

theorem applyToTasks_eq_map (d : NotificationDefaults) (tasks : List Task) :
    d.applyToTasks tasks = tasks.map d.applyToTask := by
  induction tasks with
  | nil => rw [applyToTasks, List.map_nil]
  | cons t rest ih => rw [applyToTasks, List.map_cons, ih]

/-- A group stays a group, of the tasks with the defaults filled in. -/
theorem applyToTask_group (d : NotificationDefaults) {t : Task} (h : t.leaf? = none) :
    (d.applyToTask t).leaf? = none ∧ (d.applyToTask t).children = t.children.map d.applyToTask := by
  cases t with
  | leaf l => simp [Task.leaf?] at h
  | sequence tasks => simp [applyToTask, Task.leaf?, Task.children, applyToTasks_eq_map]
  | parallel tasks => simp [applyToTask, Task.leaf?, Task.children, applyToTasks_eq_map]

theorem isSome_leaf?_applyToTask (d : NotificationDefaults) (t : Task) :
    (d.applyToTask t).leaf?.isSome = t.leaf?.isSome := by
  cases t <;> simp [applyToTask, Task.leaf?]

theorem isBranch_applyToTask (d : NotificationDefaults) (t : Task) :
    (d.applyToTask t).isBranch = t.isBranch := by
  cases t with
  | leaf l => simp [applyToTask, Task.isBranch]
  | sequence tasks =>
      simp [applyToTask, Task.isBranch, applyToTasks_eq_map, List.all_map, Function.comp_def,
        isSome_leaf?_applyToTask]
  | parallel tasks => simp [applyToTask, Task.isBranch]

/-- Groups stay where they are. -/
theorem isStage_applyToTask (d : NotificationDefaults) (t : Task) :
    (d.applyToTask t).isStage = t.isStage := by
  cases t with
  | leaf l => simp [applyToTask, Task.isStage]
  | sequence tasks => simp [applyToTask, Task.isStage]
  | parallel tasks =>
      simp [applyToTask, Task.isStage, applyToTasks_eq_map, List.all_map, Function.comp_def,
        isBranch_applyToTask]

/-- Groups that have tasks keep them. -/
theorem isFilled_applyToTask (d : NotificationDefaults) {t : Task} (h : t.isFilled = true) :
    (d.applyToTask t).isFilled = true := by
  induction t using Task.tree_induction with
  | leaf l => rw [applyToTask_leaf, Task.isFilled]
  | group t hgroup ih =>
      obtain ⟨hleaf, hchildren⟩ := d.applyToTask_group hgroup
      obtain ⟨hne, hall⟩ := (Task.isFilled_group hgroup).1 h
      rw [Task.isFilled_group hleaf, hchildren]
      refine ⟨by simpa using hne, fun u hu => ?_⟩
      obtain ⟨v, hv, rfl⟩ := List.mem_map.1 hu
      exact ih v hv (hall v hv)

/-- The leaves of a task with the defaults filled in are its leaves with the defaults filled in. -/
theorem holds_applyToTask (d : NotificationDefaults) {t : Task} {l : Leaf}
    (h : (d.applyToTask t).Holds l) : ∃ l', t.Holds l' ∧ d.onLeaf l' = l := by
  induction t using Task.tree_induction with
  | leaf l' =>
      rw [applyToTask_leaf, Task.holds_leaf] at h
      exact ⟨l', Task.holds_leaf.2 rfl, h⟩
  | group t hgroup ih =>
      obtain ⟨hleaf, hchildren⟩ := d.applyToTask_group hgroup
      rw [Task.holds_group hleaf, hchildren] at h
      obtain ⟨u, hu, hl⟩ := h
      obtain ⟨v, hv, rfl⟩ := List.mem_map.1 hu
      obtain ⟨l', hl', rfl⟩ := ih v hv hl
      exact ⟨l', (Task.holds_group hgroup).2 ⟨v, hv, hl'⟩, rfl⟩

end NotificationDefaults

/-! ## Filling in all defaults -/

namespace Manifest

/-- The tasks of a manifest with the update task that it may lack. -/
theorem mem_withUpdateTask {m : Manifest} {t : Task} (h : t ∈ m.withUpdateTask.tasks) :
    t ∈ m.tasks ∨ (t = updateTask ∧ m.updatesPipeline = true) := by
  rw [withUpdateTask] at h
  split at h
  · next hupdates =>
      rcases List.mem_cons.1 h with rfl | h
      · exact .inr ⟨rfl, (Bool.and_eq_true_iff.1 hupdates).1⟩
      · exact .inl h
  · exact .inl h

/-- Apart from its tasks a manifest is left as it is. -/
theorem withDefaults_eq (m : Manifest) :
    m.withDefaults =
      { m with tasks := m.withUpdateTask.tasks.map m.notificationDefaults.applyToTask } := by
  rw [withDefaults, withNotificationDefaults, NotificationDefaults.applyToTasks_eq_map, withUpdateTask]
  split <;> rfl

/-- The tasks of a manifest with its defaults are its own and the update task that it may lack. -/
theorem mem_withDefaults {m : Manifest} {t : Task} (h : t ∈ m.withDefaults.tasks) :
    ∃ u, m.notificationDefaults.applyToTask u = t
      ∧ (u ∈ m.tasks ∨ (u = updateTask ∧ m.updatesPipeline = true)) := by
  rw [withDefaults_eq] at h
  obtain ⟨u, hu, rfl⟩ := List.mem_map.1 h
  exact ⟨u, rfl, mem_withUpdateTask hu⟩

/-- The leaves of a manifest with its defaults are its own and the update that it may lack, with the
notifications filled in. -/
theorem mem_flatten_withDefaults {m : Manifest} {l : Leaf} (h : l ∈ Task.flatten m.withDefaults.tasks) :
    ∃ l', m.notificationDefaults.onLeaf l' = l
      ∧ (l' ∈ Task.flatten m.tasks ∨ (.leaf l' = updateTask ∧ m.updatesPipeline = true)) := by
  obtain ⟨t, ht, hl⟩ := Task.mem_flatten.1 h
  obtain ⟨u, rfl, hu⟩ := mem_withDefaults ht
  obtain ⟨l', hl', rfl⟩ := NotificationDefaults.holds_applyToTask _ hl
  refine ⟨l', rfl, ?_⟩
  rcases hu with hu | ⟨rfl, hupdates⟩
  · exact .inl (Task.mem_flatten.2 ⟨u, hu, hl'⟩)
  · rw [updateTask, Task.holds_leaf] at hl'
    exact .inr ⟨by rw [updateTask, hl'], hupdates⟩

/-- There is a repository. -/
theorem Renderable.exists_git {m : Manifest} (h : m.Renderable) : ∃ g, Trigger.git g ∈ m.triggers := by
  have hpos : 0 < (m.triggers.filter fun t => t.kind = "git").length :=
    Nat.lt_of_lt_of_eq Nat.zero_lt_one h.git.symm
  obtain ⟨t, ht⟩ := List.exists_mem_of_length_pos hpos
  obtain ⟨ht, hkind⟩ := List.mem_filter.1 ht
  cases t with
  | git g => exact ⟨g, ht⟩
  | _ => simp [Trigger.kind] at hkind

/-- A single repository is the one that counts. -/
theorem firstGit?_eq_some {ts : List Trigger} {g : GitTrigger}
    (hcount : (ts.filter fun t => t.kind = "git").length = 1) (hg : Trigger.git g ∈ ts) :
    Trigger.firstGit? ts = some g := by
  obtain ⟨t, ht⟩ := List.length_eq_one_iff.1 hcount
  have honly : ∀ g', Trigger.git g' ∈ ts → t = .git g' := by
    intro g' hg'
    have hmem : Trigger.git g' ∈ ts.filter fun t => t.kind = "git" :=
      List.mem_filter.2 ⟨hg', by simp [Trigger.kind]⟩
    rw [ht] at hmem
    exact (List.mem_singleton.1 hmem).symm
  rw [Trigger.firstGit?]
  cases hfirst : ts.findSome? Trigger.git? with
  | none => simpa [Trigger.git?] using List.findSome?_eq_none_iff.1 hfirst _ hg
  | some g' =>
      obtain ⟨t', ht', hgit⟩ := List.exists_of_findSome?_eq_some hfirst
      cases t' with
      | git g'' =>
          obtain rfl : g'' = g' := Option.some.inj hgit
          have heq := (honly g'' ht').symm.trans (honly g hg)
          rw [Trigger.git.inj heq]
      | _ => simp [Trigger.git?] at hgit

/-- The pipeline waits for someone to start it if its repository does. -/
theorem Renderable.gitIsManual_eq {m : Manifest} (h : m.Renderable) {g : GitTrigger}
    (hg : Trigger.git g ∈ m.triggers) : m.gitIsManual = g.manualTrigger := by
  rw [gitIsManual, git?, firstGit?_eq_some h.git hg, Option.any_some]

/-- What a leaf needs is a matter of its action and of the toggles. -/
theorem Admits.congr {m m' : Manifest} {l l' : Leaf} (h : m.Admits l) (haction : l'.action = l.action)
    (htoggles : m'.featureToggles = m.featureToggles) : m'.Admits l' := by
  unfold Admits updatesPipeline at *
  rwa [haction, htoggles]

/-- Defaults leave a manifest that can be rendered one. -/
theorem Renderable.withDefaults {m : Manifest} (h : m.Renderable) : m.withDefaults.Renderable := by
  have htriggers : m.withDefaults.triggers = m.triggers := by rw [withDefaults_eq]
  have hcount (kind : String) : m.withDefaults.triggerCount kind = m.triggerCount kind := by
    rw [triggerCount, triggerCount, htriggers]
  refine ⟨?stages, ?filled, ?leaves, hcount _ ▸ h.git, hcount _ ▸ h.timer, hcount _ ▸ h.docker⟩
  case stages =>
    intro t ht
    obtain ⟨u, rfl, hu | ⟨rfl, -⟩⟩ := mem_withDefaults ht
    · rw [NotificationDefaults.isStage_applyToTask]
      exact h.stages u hu
    · rw [NotificationDefaults.isStage_applyToTask]
      rfl
  case filled =>
    refine Task.allFilled_iff.2 fun t ht => ?_
    obtain ⟨u, rfl, hu | ⟨rfl, -⟩⟩ := mem_withDefaults ht
    · exact NotificationDefaults.isFilled_applyToTask _ (Task.allFilled_iff.1 h.filled u hu)
    · exact NotificationDefaults.isFilled_applyToTask _ rfl
  case leaves =>
    intro l hl
    obtain ⟨l', rfl, hl'⟩ := mem_flatten_withDefaults hl
    have hadmits : m.Admits l' := by
      rcases hl' with hl' | ⟨hl', hupdates⟩
      · exact h.leaves l' hl'
      · obtain rfl := Task.leaf.inj hl'
        exact hupdates
    exact hadmits.congr rfl (by rw [withDefaults_eq])

end Manifest

end PipelineCompiler
