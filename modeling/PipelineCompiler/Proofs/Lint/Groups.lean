import PipelineCompiler.Proofs.Lint.Accepted
import PipelineCompiler.Proofs.Task.Placement

/-!
# Misplaced groups and empty groups

The shape of the task tree is judged twice: the renderers refuse a tree with a misplaced group, and the
linter has a rule for the groups of either kind. Read at every position of the tree (`groupFindingsAt`),
the rules find a group that is misplaced or that is empty. The renderers look for the former only:
`refused_iff_misplaced` says that they refuse what the rules have against a tree apart from its empty
groups, and that they do so where the linter reports an error. `emptyParallel_passes` is a tree that the
rules have something against and that is rendered all the same.
-/

namespace PipelineCompiler

namespace Lint

open Findings

/-! ## The rules for groups -/

/-- The fault of a group without tasks. -/
def emptyFault : Fault := .missing "tasks"

/-- The fault of a parallel group in a parallel group. -/
def nestedFault : Fault := .invalid "type" "a parallel cannot contain another parallel"

/-- The fault of a sequence outside of a parallel group. -/
def strayFault : Fault := .invalid "type" "a sequence can only be used directly inside a parallel"

/-- The fault of a group in a sequence. -/
def innerFault (t : Task) : Fault :=
  .invalid "tasks" s!"a sequence can only contain plain tasks, found '{t.kind}'"

/-- A field that is missing is not one that is there. -/
theorem invalid_ne_emptyFault (field reason : String) : Fault.invalid field reason ≠ emptyFault := by
  simp [emptyFault]

/-- Branches of a parallel group are no parallel groups. -/
theorem not_isParallel_of_isBranch {t : Task} (h : t.isBranch = true) : ¬ isParallel t = true := by
  cases t with
  | leaf l => simp [isParallel]
  | sequence tasks => simp [isParallel]
  | parallel tasks => simp [Task.isBranch] at h

section Rules

variable {P : Fault → Prop} {group : List Task}

/-- A parallel group can be empty or hold parallel groups; no other error is found in it. -/
theorem parallelFindings_only (hsize : group = [] → P emptyFault)
    (hnested : ∀ t ∈ group, isParallel t = true → P nestedFault) : (parallelFindings group).Only P := by
  simp only [parallelFindings, only_append]
  refine ⟨⟨⟨?size, only_concat_of_forall fun t ht j => ?nested⟩, ?saves⟩, ?savesOnFailure⟩
  case size =>
    cases group with
    | nil => exact only_ofErrors_singleton.2 (hsize rfl)
    | cons t rest =>
        cases rest with
        | nil => exact only_ofWarnings
        | cons u rest => exact only_empty
  case nested =>
    cases hparallel : isParallel t with
    | false => exact only_empty
    | true => exact only_under.2 (only_ofErrors_singleton.2 (hnested t ht hparallel))
  case saves => split <;> simp
  case savesOnFailure => split <;> simp

/-- A sequence can stand in the wrong list, be empty or hold groups; no other error is found in it. -/
theorem sequenceFindings_only {inParallel : Bool} (hplace : inParallel = false → P strayFault)
    (hsize : group = [] → P emptyFault) (hnested : ∀ t ∈ group, t.leaf? = none → P (innerFault t)) :
    (sequenceFindings group inParallel).Only P := by
  refine only_append.2 ⟨only_append.2 ⟨?place, ?size⟩, only_concat_of_forall fun t ht j => ?nested⟩
  case place =>
    cases inParallel with
    | false => exact only_ofErrors_singleton.2 (hplace rfl)
    | true => exact only_empty
  case size =>
    cases group with
    | nil => exact only_ofErrors_singleton.2 (hsize rfl)
    | cons t rest => exact only_empty
  case nested =>
    cases hleaf : t.leaf? with
    | some l => simp [hleaf]
    | none => simpa [hleaf, innerFault] using hnested t ht hleaf

end Rules

/-! ## The rules at a position -/

/-- What the rules for groups say of the task at a position. -/
def groupFindingsAt (tasks : List Task) (path : TaskPath) : Findings :=
  match Task.at? tasks path with
  | some (.parallel group) => parallelFindings group
  | some (.sequence group) => sequenceFindings group (Task.enclosure tasks path = .parallel)
  | _ => {}

variable {tasks : List Task} {path : TaskPath}

theorem groupFindingsAt_parallel {group : List Task} (h : Task.at? tasks path = some (.parallel group)) :
    groupFindingsAt tasks path = parallelFindings group := by
  rw [groupFindingsAt, h]

theorem groupFindingsAt_sequence {group : List Task} (h : Task.at? tasks path = some (.sequence group)) :
    groupFindingsAt tasks path = sequenceFindings group (Task.enclosure tasks path = .parallel) := by
  rw [groupFindingsAt, h]

/-- Of a group that has tasks the rules do not say that it is empty. -/
theorem groupFindingsAt_ne_empty
    (h : ∀ t, Task.at? tasks path = some t → t.leaf? = none → t.children ≠ []) :
    (groupFindingsAt tasks path).Only (· ≠ emptyFault) := by
  unfold groupFindingsAt
  split
  · next group hgroup =>
      have hne : group ≠ [] := h _ hgroup rfl
      exact parallelFindings_only (fun hempty => absurd hempty hne)
        fun _ _ _ => invalid_ne_emptyFault _ _
  · next group hgroup =>
      have hne : group ≠ [] := h _ hgroup rfl
      exact sequenceFindings_only (fun _ => invalid_ne_emptyFault _ _)
        (fun hempty => absurd hempty hne) fun _ _ _ => invalid_ne_emptyFault _ _
  · exact only_empty

/-- Of a group without tasks the rules say that it is empty. -/
theorem mem_groupFindingsAt_of_empty {t : Task} (ht : Task.at? tasks path = some t)
    (hgroup : t.leaf? = none) (hempty : t.children = []) :
    { fault := emptyFault } ∈ (groupFindingsAt tasks path).errors := by
  cases t with
  | leaf l => simp [Task.leaf?] at hgroup
  | sequence group =>
      obtain rfl : group = [] := hempty
      rw [groupFindingsAt_sequence ht]
      exact mem_errors_append.2 (.inl (mem_errors_append.2 (.inr List.mem_cons_self)))
  | parallel group =>
      obtain rfl : group = [] := hempty
      rw [groupFindingsAt_parallel ht]
      exact List.mem_cons_self

/-- Where no group is misplaced, the rules say of groups that they are empty or nothing. -/
theorem groupFindingsAt_only_empty (h : ∀ t ∈ tasks, t.isStage = true) (path : TaskPath) :
    (groupFindingsAt tasks path).Only (· = emptyFault) := by
  unfold groupFindingsAt
  split
  · next group hgroup =>
      obtain ⟨-, hbranch⟩ := Task.admits_parallel (Task.admits_of_at? h hgroup)
      refine parallelFindings_only (fun _ => rfl) fun t ht hparallel => ?_
      exact absurd hparallel (not_isParallel_of_isBranch (hbranch t ht))
  · next group hgroup =>
      obtain ⟨hplace, hleaf⟩ := Task.admits_sequence (Task.admits_of_at? h hgroup)
      refine sequenceFindings_only (fun hstray => ?_) (fun _ => rfl) fun t ht hgroup => ?_
      · simp [hplace] at hstray
      · have ht := hleaf t ht
        simp [hgroup] at ht
  · exact only_empty

/-! ## What the linter reports -/

variable {m : Manifest} {files : FileProbe} {e : Finding}

/-- What the rules find at a task of the pipeline is reported. -/
theorem mem_tasksFindings {i : Nat} {t : Task} (ht : Task.at? m.tasks [i] = some t)
    (he : e ∈ (taskFindingsAt m files i t).errors) : e ∈ (tasksFindings m files).errors := by
  rw [Task.at?_singleton] at ht
  have hne : m.tasks.isEmpty = false :=
    List.isEmpty_eq_false_iff.2 (List.ne_nil_of_mem (List.mem_of_getElem? ht))
  rw [tasksFindings, hne]
  exact mem_errors_append.2 (.inl (mem_errors_concat_zipIdx.2 ⟨i, t, ht, he⟩))

/-- The linter comes to every group of the pipeline's list. -/
theorem reported_in_list {i : Nat} (he : e ∈ (groupFindingsAt m.tasks [i]).errors) :
    e.under (taskPosition [i]) ∈ (tasksFindings m files).errors := by
  cases ht : Task.at? m.tasks [i] with
  | none => simp [groupFindingsAt, ht] at he
  | some t =>
      refine mem_tasksFindings ht ?_
      cases t with
      | leaf l => simp [groupFindingsAt, ht] at he
      | sequence group =>
          rw [groupFindingsAt_sequence ht, Task.enclosure_singleton] at he
          exact mem_errors_append.2 (.inl (mem_errors_under.2 ⟨e, he, rfl⟩))
      | parallel group =>
          rw [groupFindingsAt_parallel ht] at he
          exact mem_errors_append.2 (.inl (mem_errors_under.2 ⟨e, he, rfl⟩))

/-- The linter comes to every sequence of a parallel group of the pipeline's list. -/
theorem reported_in_parallel {i j : Nat} {group inner : List Task}
    (hi : Task.at? m.tasks [i] = some (.parallel group)) (hj : group[j]? = some (.sequence inner))
    (he : e ∈ (groupFindingsAt m.tasks [i, j]).errors) :
    e.under (taskPosition [i, j]) ∈ (tasksFindings m files).errors := by
  have hij : Task.at? m.tasks [i, j] = some (.sequence inner) := by
    rw [Task.at?_pair, ← Task.at?_singleton, hi]
    exact hj
  have hplace : Task.enclosure m.tasks [i, j] = .parallel := Task.enclosure_of_parallel hi j
  rw [groupFindingsAt_sequence hij, hplace] at he
  refine mem_tasksFindings hi (mem_errors_append.2 (.inr ?_))
  refine mem_errors_concat_zipIdx.2 ⟨j, .sequence inner, hj, ?_⟩
  exact mem_errors_append.2 (.inl (mem_errors_under.2 ⟨e, he, rfl⟩))

/-- For a misplaced group a rule finds an error that is not about an empty group, and the linter reports
it at the position of the group. -/
theorem exists_misplaced {fault : ShapeFault} (h : fault.In m.tasks) (files : FileProbe) :
    ∃ path, ∃ e ∈ (groupFindingsAt m.tasks path).errors, e.fault ≠ emptyFault
      ∧ e.under (taskPosition path) ∈ (tasksFindings m files).errors
      ∧ (e.under (taskPosition path)).position = some (taskPosition fault.path) := by
  cases h with
  | @sequenceOutsideParallel i group hi =>
      have he : { fault := strayFault } ∈ (groupFindingsAt m.tasks [i]).errors := by
        rw [groupFindingsAt_sequence hi, Task.enclosure_singleton]
        exact mem_errors_append.2 (.inl (mem_errors_append.2 (.inl List.mem_cons_self)))
      exact ⟨[i], _, he, invalid_ne_emptyFault _ _, reported_in_list he, rfl⟩
  | @parallelInParallel i j group inner hi hj =>
      have he : { fault := nestedFault, position := some (taskPosition [j]) : Finding }
          ∈ (groupFindingsAt m.tasks [i]).errors := by
        rw [groupFindingsAt_parallel hi]
        simp only [parallelFindings, mem_errors_append]
        refine .inl (.inl (.inr (mem_errors_concat_zipIdx.2 ⟨j, _, hj, ?_⟩)))
        exact List.mem_cons_self
      exact ⟨[i], _, he, invalid_ne_emptyFault _ _, reported_in_list he, rfl⟩
  | @groupInSequence i j k group inner t hi hj hk hgroup =>
      have hij : Task.at? m.tasks [i, j] = some (.sequence inner) := by
        rw [Task.at?_pair, ← Task.at?_singleton, hi]
        exact hj
      have he : { fault := innerFault t, position := some (taskPosition [k]) : Finding }
          ∈ (groupFindingsAt m.tasks [i, j]).errors := by
        rw [groupFindingsAt_sequence hij]
        refine mem_errors_append.2 (.inr (mem_errors_concat_zipIdx.2 ⟨k, t, hk, ?_⟩))
        simp only [hgroup]
        exact List.mem_cons_self
      exact ⟨[i, j], _, he, invalid_ne_emptyFault _ _, reported_in_parallel hi hj he, rfl⟩

/-! ## What is refused -/

theorem checkShape_eq_error {fault : ShapeFault} :
    Task.checkShape tasks = .error (.shape fault) ↔ Task.shapeFault? tasks = some fault := by
  unfold Task.checkShape
  cases Task.shapeFault? tasks <;> simp

/-- A tree is refused just if some task may not stand in the list of the pipeline. -/
theorem exists_refusal_iff :
    (∃ fault, Task.checkShape tasks = .error (.shape fault)) ↔ ¬ ∀ t ∈ tasks, t.isStage = true := by
  rw [← Task.checkShape_eq_ok, Task.checkShape]
  cases Task.shapeFault? tasks <;> simp

/-- The renderers refuse a tree just if some rule for groups has something against it other than that a
group is empty. What the rules have against a tree that is not refused is that groups are empty. Where a
group is refused the linter reports an error at its position. -/
theorem refused_iff_misplaced (m : Manifest) (files : FileProbe) :
    ((∃ fault, Task.checkShape m.tasks = .error (.shape fault))
        ↔ ∃ path, ∃ e ∈ (groupFindingsAt m.tasks path).errors, e.fault ≠ emptyFault)
      ∧ ((∃ path, (groupFindingsAt m.tasks path).errors ≠ [])
        ↔ (∃ fault, Task.checkShape m.tasks = .error (.shape fault))
          ∨ ∃ path t, Task.at? m.tasks path = some t ∧ t.leaf? = none ∧ t.children = [])
      ∧ ∀ fault, Task.checkShape m.tasks = .error (.shape fault) →
        ∃ e ∈ (tasksFindings m files).errors,
          e.position = some (taskPosition fault.path) ∧ e.fault ≠ emptyFault := by
  have hrefused : (∃ fault, Task.checkShape m.tasks = .error (.shape fault))
      ↔ ∃ path, ∃ e ∈ (groupFindingsAt m.tasks path).errors, e.fault ≠ emptyFault := by
    constructor
    · rintro ⟨fault, hfault⟩
      obtain ⟨path, e, he, hne, -⟩ :=
        exists_misplaced (Task.in_of_shapeFault? (checkShape_eq_error.1 hfault)) files
      exact ⟨path, e, he, hne⟩
    · rintro ⟨path, e, he, hne⟩
      rw [exists_refusal_iff]
      intro hstages
      exact hne (groupFindingsAt_only_empty hstages path e he)
  refine ⟨hrefused, ?_, ?_⟩
  · rw [hrefused]
    constructor
    · rintro ⟨path, herrors⟩
      obtain ⟨e, he⟩ := List.exists_mem_of_ne_nil _ herrors
      by_cases hempty : e.fault = emptyFault
      · right
        by_contra hfilled
        refine groupFindingsAt_ne_empty (fun t ht hgroup hchildren => ?_) e he hempty
        exact hfilled ⟨path, t, ht, hgroup, hchildren⟩
      · exact .inl ⟨path, e, he, hempty⟩
    · rintro (⟨path, e, he, -⟩ | ⟨path, t, ht, hgroup, hempty⟩)
      · exact ⟨path, List.ne_nil_of_mem he⟩
      · exact ⟨path, List.ne_nil_of_mem (mem_groupFindingsAt_of_empty ht hgroup hempty)⟩
  · intro fault hfault
    obtain ⟨path, e, -, hne, hreported, hposition⟩ :=
      exists_misplaced (Task.in_of_shapeFault? (checkShape_eq_error.1 hfault)) files
    exact ⟨_, hreported, hposition, hne⟩

/-- A sequence in the list of the pipeline. -/
def straySequence : Manifest where
  tasks := [.sequence [sampleScript "build"]]

/-- The sequence is refused and reported. -/
theorem straySequence_reported :
    Task.checkShape straySequence.tasks = .error (.shape (.sequenceOutsideParallel 0))
      ∧ ∃ e ∈ (tasksFindings straySequence sampleSurroundings.files).errors,
          e.position = some (taskPosition [0]) ∧ e.fault ≠ emptyFault := by
  have hrefused : Task.checkShape straySequence.tasks = .error (.shape (.sequenceOutsideParallel 0)) := rfl
  obtain ⟨-, -, hreported⟩ := refused_iff_misplaced straySequence sampleSurroundings.files
  exact ⟨hrefused, hreported _ hrefused⟩

/-- A parallel group without tasks. -/
def emptyParallel : List Task := [.parallel []]

/-- A rule has something against the group, and the tree is not refused. -/
theorem emptyParallel_passes :
    (∃ path, (groupFindingsAt emptyParallel path).errors ≠ [])
      ∧ Task.checkShape emptyParallel = .ok () :=
  ⟨⟨[0], List.cons_ne_nil _ _⟩, rfl⟩

end Lint

end PipelineCompiler
