import PipelineCompiler.Proofs.Lint.Groups
import PipelineCompiler.Proofs.Lint.Order

/-!
# What the rules for tasks ask for

The linter goes down the task tree, but not everywhere: it leaves out parallel groups in a parallel group
and groups in a sequence, and looks at the order of the leaves in a second pass over all of them. What it
asks for can be said without the way it takes: `WellFormed` speaks of the tree position by position.
`tasksFindings_iff_wellFormed` says that the two agree. A part of the tree that is left out is paid for
with an error above it, so that no leaf of an accepted tree is missed.

That artifacts are restored before any were saved is the one fault that `WellFormed` is silent about. Of
all rules for tasks only the second pass finds it, which is why the first part of this module goes
through the rules for leaves.
-/

namespace PipelineCompiler.Lint

open Findings

/-! ## Rules that do not look at what was saved -/

section Restore

@[simp] theorem missing_ne_restoreFault (field : String) : Fault.missing field ≠ restoreFault := nofun

@[simp] theorem file_ne_restoreFault (path reason : String) :
    Fault.file path reason ≠ restoreFault := nofun

@[simp] theorem invalid_ne_restoreFault {field reason : String} (h : field ≠ "restore_artifacts") :
    Fault.invalid field reason ≠ restoreFault := by
  intro heq
  exact h (Fault.invalid.inj heq).1

variable {m : Manifest} {files : FileProbe}

@[simp] theorem missingFaults_ne_restore (fields : List (String × String)) :
    (ofErrors (missingFaults fields)).Only (· ≠ restoreFault) := by
  rw [only_ofErrors, missingFaults, List.forall_mem_map]
  exact fun f _ => missing_ne_restoreFault f.1

@[simp] theorem attributeFaults_ne_restore (a : Attributes) :
    (ofErrors (attributeFaults a)).Only (· ≠ restoreFault) := by
  simp [attributeFaults]

@[simp] theorem fileFaults_ne_restore (path : String) (executable : Bool) :
    (ofErrors (fileFaults files path executable)).Only (· ≠ restoreFault) := by
  unfold fileFaults
  cases files.check path executable <;> simp

@[simp] theorem requiredFileFaults_ne_restore (field path : String) :
    (ofErrors (requiredFileFaults files field path)).Only (· ≠ restoreFault) := by
  simp [requiredFileFaults]

@[simp] theorem tagFaults_ne_restore (tag : String) :
    (ofErrors (tagFaults tag m)).Only (· ≠ restoreFault) := by
  simp [tagFaults]

@[simp] theorem dockerFaults_ne_restore (d : Docker) :
    (ofErrors (dockerFaults d)).Only (· ≠ restoreFault) := by
  simp [dockerFaults]

@[simp] theorem runFindings_ne_restore (r : Run) : (runFindings r files).Only (· ≠ restoreFault) := by
  unfold runFindings
  refine only_append.2 ⟨?_, dockerFaults_ne_restore r.docker⟩
  split
  · simp
  · split <;> simp

@[simp] theorem consumerTestFindings_ne_restore (t : ConsumerTest) (checksCandidate : Bool) :
    (consumerTestFindings t checksCandidate).Only (· ≠ restoreFault) := by
  simp [consumerTestFindings]

theorem prePromoteFindings_ne_restore (t : Task) :
    (prePromoteFindings files t).Only (· ≠ restoreFault) := by
  unfold prePromoteFindings
  split
  · split <;> simp
  · simp

@[simp] theorem deployCfFindings_ne_restore (d : DeployCf) (prePromote : List Task) :
    (deployCfFindings d prePromote files).Only (· ≠ restoreFault) := by
  refine only_append.2 ⟨by simp, only_concat_of_forall fun t _ j => ?_⟩
  exact only_under.2 (prePromoteFindings_ne_restore t)

/-- The rules for a leaf do not look at what was saved. -/
theorem leafFindings_ne_restore (m : Manifest) (files : FileProbe) (l : Leaf) :
    (leafFindings m files l).Only (· ≠ restoreFault) := by
  refine only_append.2 ⟨?_, attributeFaults_ne_restore l.attributes⟩
  cases l.action <;>
    simp [actionFindings, dockerPushFindings, dockerComposeFindings, deployMlZipFindings,
      deployMlModulesFindings, deployKateeFindings, updateFindings]

theorem leafFindingsAt_ne_restore (path : TaskPath) (t : Task) :
    (leafFindingsAt m files path t).Only (· ≠ restoreFault) := by
  cases t with
  | leaf l => exact only_under.2 (leafFindings_ne_restore m files l)
  | sequence tasks => exact only_empty
  | parallel tasks => exact only_empty

theorem sequenceFindings_ne_restore (tasks : List Task) (inParallel : Bool) :
    (sequenceFindings tasks inParallel).Only (· ≠ restoreFault) :=
  sequenceFindings_only (fun _ => invalid_ne_restoreFault (by simp)) (fun _ => nofun)
    fun _ _ _ => invalid_ne_restoreFault (by simp)

theorem parallelFindings_ne_restore (tasks : List Task) :
    (parallelFindings tasks).Only (· ≠ restoreFault) :=
  parallelFindings_only (fun _ => nofun) fun _ _ _ => invalid_ne_restoreFault (by simp)

theorem sequenceFindingsAt_ne_restore (path : TaskPath) (tasks : List Task) (inParallel : Bool) :
    (sequenceFindingsAt m files path tasks inParallel).Only (· ≠ restoreFault) := by
  refine only_append.2 ⟨only_under.2 (sequenceFindings_ne_restore tasks inParallel), ?_⟩
  exact only_concat_of_forall fun t _ j => leafFindingsAt_ne_restore (path ++ [j]) t

theorem branchFindingsAt_ne_restore (path : TaskPath) (t : Task) :
    (branchFindingsAt m files path t).Only (· ≠ restoreFault) := by
  cases t with
  | leaf l => exact leafFindingsAt_ne_restore path (.leaf l)
  | sequence tasks => exact sequenceFindingsAt_ne_restore path tasks true
  | parallel tasks => exact only_empty

/-- The pass over the tree does not look at what was saved. -/
theorem taskFindingsAt_ne_restore (i : Nat) (t : Task) :
    (taskFindingsAt m files i t).Only (· ≠ restoreFault) := by
  cases t with
  | leaf l => exact leafFindingsAt_ne_restore [i] (.leaf l)
  | sequence tasks => exact sequenceFindingsAt_ne_restore [i] tasks false
  | parallel tasks =>
      refine only_append.2 ⟨only_under.2 (parallelFindings_ne_restore tasks), ?_⟩
      exact only_concat_of_forall fun t _ j => branchFindingsAt_ne_restore [i, j] t

end Restore

variable {m : Manifest} {files : FileProbe} {path : TaskPath}

/-! ## The pass over the tree -/

/-- The tasks of a complete group are complete, and there are some. -/
theorem Complete.children {t : Task} (h : Complete m files t) (hgroup : t.leaf? = none) :
    t.children ≠ [] ∧ ∀ u ∈ t.children, Complete m files u := by
  obtain ⟨hfilled, hleaves⟩ := h
  obtain ⟨hne, hchildren⟩ := (Task.isFilled_group hgroup).1 hfilled
  refine ⟨hne, fun u hu => ⟨hchildren u hu, fun l hl => ?_⟩⟩
  exact hleaves l ((Task.holds_group hgroup).2 ⟨u, hu, hl⟩)

/-- Nothing is wrong with a complete leaf, wherever it stands. -/
theorem leafFindingsAt_clean {t : Task} (hleaf : t.leaf?.isSome = true) (h : Complete m files t) :
    (leafFindingsAt m files path t).Clean := by
  cases t with
  | leaf l => exact clean_under.2 (h.2 l (Task.holds_leaf.2 rfl))
  | sequence tasks => exact clean_empty
  | parallel tasks => exact clean_empty

/-- Nothing is wrong with a complete branch of a parallel group. -/
theorem branchFindingsAt_clean {t : Task} (hbranch : t.isBranch = true) (h : Complete m files t) :
    (branchFindingsAt m files path t).Clean := by
  cases t with
  | leaf l => exact leafFindingsAt_clean rfl h
  | parallel tasks => exact clean_empty
  | sequence tasks =>
      have hleaf : ∀ t ∈ tasks, t.leaf?.isSome = true := List.all_eq_true.1 hbranch
      obtain ⟨hne, hchildren⟩ := h.children rfl
      have hshape : (sequenceFindings tasks true).Clean := by
        refine clean_iff_only.2 (sequenceFindings_only nofun hne fun t ht hgroup => ?_)
        simpa [hgroup] using hleaf t ht
      refine clean_append.2 ⟨clean_under.2 hshape, clean_concat_of_forall fun t ht j => ?_⟩
      exact leafFindingsAt_clean (hleaf t ht) (hchildren t ht)

/-- Nothing is wrong with a complete task that may stand in the list of the pipeline. -/
theorem taskFindingsAt_clean {i : Nat} {t : Task} (hstage : t.isStage = true)
    (h : Complete m files t) : (taskFindingsAt m files i t).Clean := by
  cases t with
  | leaf l => exact leafFindingsAt_clean rfl h
  | sequence tasks => simp [Task.isStage] at hstage
  | parallel tasks =>
      have hbranch : ∀ t ∈ tasks, t.isBranch = true := List.all_eq_true.1 hstage
      obtain ⟨hne, hchildren⟩ := h.children rfl
      have hshape : (parallelFindings tasks).Clean := by
        refine clean_iff_only.2 (parallelFindings_only hne fun t ht hparallel => ?_)
        exact not_isParallel_of_isBranch (hbranch t ht) hparallel
      refine clean_append.2 ⟨clean_under.2 hshape, clean_concat_of_forall fun t ht j => ?_⟩
      exact branchFindingsAt_clean (hbranch t ht) (hchildren t ht)

/-- The pass over the tree keeps to errors that it never finds just if the task stands where it may and is
complete. -/
theorem taskFindingsAt_only_restore {i : Nat} {t : Task} :
    (taskFindingsAt m files i t).Only (· = restoreFault) ↔ t.isStage = true ∧ Complete m files t := by
  rw [only_iff_clean (taskFindingsAt_ne_restore i t)]
  exact ⟨stage_of_clean, fun ⟨hstage, hcomplete⟩ => taskFindingsAt_clean hstage hcomplete⟩

/-! ## Well-formed manifests -/

/-- What the rules for tasks ask for, position by position. -/
structure WellFormed (m : Manifest) (files : FileProbe) : Prop where
  nonempty : m.tasks ≠ []
  /-- The pipeline's list holds leaves and parallel groups that have tasks. -/
  stages : ∀ t ∈ m.tasks, (∃ l, t = .leaf l) ∨ ∃ group, group ≠ [] ∧ t = .parallel group
  /-- Parallel groups hold leaves and sequences that have tasks. -/
  branches : ∀ path group, Task.at? m.tasks path = some (.parallel group) →
    ∀ t ∈ group, (∃ l, t = .leaf l) ∨ ∃ inner, inner ≠ [] ∧ t = .sequence inner
  /-- Sequences hold leaves. -/
  steps : ∀ path group, Task.at? m.tasks path = some (.sequence group) → ∀ t ∈ group, ∃ l, t = .leaf l
  /-- An update is the first task. -/
  update : ∀ path l, Task.leafAt? m.tasks path = some l → l.isUpdate = true → path = [0]
  /-- Nothing is wrong with a leaf, wherever it stands. -/
  leaves : ∀ path l, Task.leafAt? m.tasks path = some l → (leafFindings m files l).errors = []

/-- In a tree without a misplaced or an empty group, tasks stand where a well-formed manifest has them. -/
theorem wellFormed_of_complete (hne : m.tasks ≠ [])
    (h : ∀ t ∈ m.tasks, t.isStage = true ∧ Complete m files t)
    (hupdate : ∀ e ∈ Task.leaves m.tasks, e.2.isUpdate = true → e.1 = [0]) : WellFormed m files where
  nonempty := hne
  stages t ht := by
    obtain ⟨hstage, hcomplete⟩ := h t ht
    cases t with
    | leaf l => exact .inl ⟨l, rfl⟩
    | sequence tasks => simp [Task.isStage] at hstage
    | parallel tasks => exact .inr ⟨tasks, (hcomplete.children rfl).1, rfl⟩
  branches path group hgroup t ht := by
    have hbranch := (Task.admits_parallel (Task.admits_of_at? (fun t ht => (h t ht).1) hgroup)).2 t ht
    have hfilled := Task.allFilled_iff_at?.1 (Task.allFilled_iff.2 fun t ht => (h t ht).2.1)
    obtain ⟨i, hi⟩ := Task.exists_at?_of_mem_children hgroup ht
    cases t with
    | leaf l => exact .inl ⟨l, rfl⟩
    | sequence inner => exact .inr ⟨inner, hfilled _ _ hi rfl, rfl⟩
    | parallel inner => simp [Task.isBranch] at hbranch
  steps path group hgroup t ht := by
    have hleaf := (Task.admits_sequence (Task.admits_of_at? (fun t ht => (h t ht).1) hgroup)).2 t ht
    cases t with
    | leaf l => exact ⟨l, rfl⟩
    | sequence inner => simp [Task.leaf?] at hleaf
    | parallel inner => simp [Task.leaf?] at hleaf
  update path l hl := hupdate (path, l) (Task.mem_leaves.2 hl)
  leaves path l hl := by
    have hmem : l ∈ Task.flatten m.tasks := List.mem_map_of_mem (f := Prod.snd) (Task.mem_leaves.2 hl)
    obtain ⟨t, ht, hholds⟩ := Task.mem_flatten.1 hmem
    exact (h t ht).2.2 l hholds

namespace WellFormed

variable (h : WellFormed m files)
include h

/-- The tasks of a parallel group are branches. -/
theorem isBranch {group : List Task} (hgroup : Task.at? m.tasks path = some (.parallel group)) :
    ∀ t ∈ group, t.isBranch = true := by
  intro t ht
  obtain ⟨i, hi⟩ := Task.exists_at?_of_mem_children hgroup ht
  rcases h.branches path group hgroup t ht with ⟨l, rfl⟩ | ⟨inner, -, rfl⟩
  · rfl
  · refine List.all_eq_true.2 fun u hu => ?_
    obtain ⟨l, rfl⟩ := h.steps _ inner hi u hu
    rfl

/-- No group of a well-formed manifest is misplaced. -/
theorem isStage : ∀ t ∈ m.tasks, t.isStage = true := by
  intro t ht
  obtain ⟨i, hi⟩ := List.mem_iff_getElem?.1 ht
  rcases h.stages t ht with ⟨l, rfl⟩ | ⟨group, -, rfl⟩
  · rfl
  · have hgroup : Task.at? m.tasks [i] = some (.parallel group) := by rwa [Task.at?_singleton]
    exact List.all_eq_true.2 (h.isBranch hgroup)

/-- No group of a well-formed manifest is empty. -/
theorem allFilled : Task.allFilled m.tasks = true := by
  refine Task.allFilled_iff_at?.2 fun path t ht hgroup => ?_
  -- a group stands in the list or in another group, and neither of them holds empty ones
  rcases Task.mem_of_at? ht with hmem | ⟨place, u, hu, hmem⟩
  · rcases h.stages t hmem with ⟨l, rfl⟩ | ⟨group, hne, rfl⟩
    · simp [Task.leaf?] at hgroup
    · exact hne
  · cases u with
    | leaf l => simp [Task.children] at hmem
    | parallel group =>
        rcases h.branches place group hu t hmem with ⟨l, rfl⟩ | ⟨inner, hne, rfl⟩
        · simp [Task.leaf?] at hgroup
        · exact hne
    | sequence group =>
        obtain ⟨l, rfl⟩ := h.steps place group hu t hmem
        simp [Task.leaf?] at hgroup

/-- The tasks of a well-formed manifest are complete. -/
theorem complete : ∀ t ∈ m.tasks, Complete m files t := by
  intro t ht
  refine ⟨Task.allFilled_iff.1 h.allFilled t ht, fun l hl => ?_⟩
  obtain ⟨⟨path, l'⟩, hmem, rfl⟩ := List.mem_map.1 (Task.mem_flatten.2 ⟨t, ht, hl⟩)
  exact h.leaves path l' (Task.mem_leaves.1 hmem)

end WellFormed

/-- Apart from artifacts that are restored before any were saved, the rules for tasks find no error just
if the manifest is well-formed. -/
theorem tasksFindings_iff_wellFormed (m : Manifest) (files : FileProbe) :
    (∀ e ∈ (tasksFindings m files).errors, e.fault = restoreFault) ↔ WellFormed m files := by
  change (tasksFindings m files).Only (· = restoreFault) ↔ _
  by_cases hne : m.tasks = []
  · have hempty : ¬ WellFormed m files := fun h => h.nonempty hne
    simp [tasksFindings, hne, hempty]
  · rw [tasksFindings, if_neg (by simpa using hne), only_append, orderFindings_only_restore]
    constructor
    · rintro ⟨htasks, hupdate⟩
      refine wellFormed_of_complete hne (fun t ht => ?_) hupdate
      obtain ⟨i, hi⟩ := exists_only_of_concat htasks ht
      exact taskFindingsAt_only_restore.1 hi
    · intro h
      refine ⟨only_concat_of_forall fun t ht i => ?_, ?_⟩
      · exact taskFindingsAt_only_restore.2 ⟨h.isStage t ht, h.complete t ht⟩
      · rintro ⟨path, l⟩ he
        exact h.update path l (Task.mem_leaves.1 he)

end PipelineCompiler.Lint
