import PipelineCompiler.Lint.Standard
import PipelineCompiler.Proofs.Lint.Findings
import PipelineCompiler.Proofs.Manifest.Renderable

/-!
# Accepted manifests can be rendered

Every condition of a manifest that can be rendered is what some rule of the linters leaves if it finds
no error. The rules are written one place of the tree at a time, so that the proof follows the tree from
the list of the pipeline through parallel groups and sequences to the leaves.
-/

namespace PipelineCompiler.Lint

/-! ## Leaves -/

theorem isCheck_of_clean {files : FileProbe} {t : Task} (h : (prePromoteFindings files t).Clean) :
    t.isCheck = true := by
  cases t with
  | leaf l =>
      obtain ⟨attributes, action⟩ := l
      cases action <;> simp_all [prePromoteFindings, Task.isCheck]
  | sequence tasks => simp [prePromoteFindings] at h
  | parallel tasks => simp [prePromoteFindings] at h

/-- A leaf without errors finds what it needs in its manifest. -/
theorem admits_of_clean {m : Manifest} {files : FileProbe} {l : Leaf}
    (h : (leafFindings m files l).Clean) : m.Admits l := by
  obtain ⟨attributes, action⟩ := l
  rw [leafFindings, Findings.clean_append] at h
  obtain ⟨haction, -⟩ := h
  cases action with
  | deployCf d prePromote =>
      intro t ht
      rw [actionFindings, deployCfFindings, Findings.clean_append] at haction
      obtain ⟨j, hj⟩ := Findings.exists_clean_of_concat haction.2 ht
      exact isCheck_of_clean (Findings.clean_under.1 hj)
  | update u =>
      show m.updatesPipeline = true
      by_contra hupdates
      simp [actionFindings, updateFindings, hupdates] at haction
  | _ => trivial

/-- A rolling deployment without errors has no checks. -/
theorem prePromote_eq_nil_of_clean {m : Manifest} {files : FileProbe} {l : Leaf}
    (h : (leafFindings m files l).Clean) {d : DeployCf} {prePromote : List Task}
    (haction : l.action = .deployCf d prePromote) (hrolling : d.rolling = true) : prePromote = [] := by
  rw [leafFindings, haction, actionFindings, deployCfFindings, Findings.clean_append,
    Findings.clean_append, Findings.clean_ofErrors, List.append_eq_nil_iff] at h
  obtain ⟨⟨⟨-, hchecks⟩, -⟩, -⟩ := h
  by_contra hne
  simp [hrolling, hne] at hchecks

/-! ## The task tree -/

/-- What the rules for a task say of it if they find no error: groups in it have tasks, and its leaves
follow the rules for leaves. -/
def Complete (m : Manifest) (files : FileProbe) (t : Task) : Prop :=
  t.isFilled = true ∧ ∀ l, t.Holds l → (leafFindings m files l).Clean

variable {m : Manifest} {files : FileProbe} {path : TaskPath}

theorem complete_leaf {l : Leaf} (h : (leafFindingsAt m files path (.leaf l)).Clean) :
    Complete m files (.leaf l) := by
  refine ⟨rfl, fun l' hl' => ?_⟩
  obtain rfl := Task.holds_leaf.1 hl'
  exact Findings.clean_under.1 h

/-- A group is complete if it has tasks, which are. -/
theorem complete_group {t : Task} (hgroup : t.leaf? = none) (hne : t.children ≠ [])
    (h : ∀ u ∈ t.children, Complete m files u) : Complete m files t := by
  refine ⟨(Task.isFilled_group hgroup).2 ⟨hne, fun u hu => (h u hu).1⟩, fun l hl => ?_⟩
  obtain ⟨u, hu, hl⟩ := (Task.holds_group hgroup).1 hl
  exact (h u hu).2 l hl

/-- A sequence without errors holds leaves only. -/
theorem branch_of_clean_sequence {tasks : List Task} {inParallel : Bool}
    (h : (sequenceFindingsAt m files path tasks inParallel).Clean) :
    (Task.sequence tasks).isBranch = true ∧ Complete m files (.sequence tasks) := by
  simp only [sequenceFindingsAt, sequenceFindings, Findings.clean_append, Findings.clean_under] at h
  obtain ⟨⟨⟨-, hsize⟩, hnested⟩, hleaves⟩ := h
  have hleaf : ∀ t ∈ tasks, t.leaf?.isSome = true := by
    intro t ht
    obtain ⟨j, hj⟩ := Findings.exists_clean_of_concat hnested ht
    by_contra hgroup
    simp [hgroup] at hj
  refine ⟨List.all_eq_true.2 hleaf, complete_group rfl ?_ fun t ht => ?_⟩
  · rintro (rfl : tasks = [])
    simp at hsize
  · obtain ⟨j, hj⟩ := Findings.exists_clean_of_concat hleaves ht
    have hgroup := hleaf t ht
    cases t with
    | leaf l => exact complete_leaf hj
    | sequence inner => simp [Task.leaf?] at hgroup
    | parallel inner => simp [Task.leaf?] at hgroup

/-- A task of a parallel group without errors is a leaf or a sequence of leaves. -/
theorem branch_of_clean {t : Task} (h : (branchFindingsAt m files path t).Clean)
    (hparallel : isParallel t = false) : t.isBranch = true ∧ Complete m files t := by
  cases t with
  | leaf l => exact ⟨rfl, complete_leaf h⟩
  | sequence tasks => exact branch_of_clean_sequence h
  | parallel tasks => simp [isParallel] at hparallel

/-- A task of the pipeline without errors is a leaf or a parallel group of such tasks. -/
theorem stage_of_clean {i : Nat} {t : Task} (h : (taskFindingsAt m files i t).Clean) :
    t.isStage = true ∧ Complete m files t := by
  cases t with
  | leaf l => exact ⟨rfl, complete_leaf h⟩
  | sequence tasks => simp [taskFindingsAt, sequenceFindingsAt, sequenceFindings] at h
  | parallel tasks =>
      simp only [taskFindingsAt, parallelFindings, Findings.clean_append, Findings.clean_under] at h
      obtain ⟨⟨⟨⟨hsize, hnested⟩, -⟩, -⟩, hbranches⟩ := h
      have hbranch : ∀ t ∈ tasks, t.isBranch = true ∧ Complete m files t := by
        intro t ht
        obtain ⟨j, hj⟩ := Findings.exists_clean_of_concat hbranches ht
        obtain ⟨k, hk⟩ := Findings.exists_clean_of_concat hnested ht
        refine branch_of_clean hj ?_
        by_contra hparallel
        rw [Bool.not_eq_false] at hparallel
        simp [hparallel] at hk
      refine ⟨List.all_eq_true.2 fun t ht => (hbranch t ht).1, complete_group rfl ?_ fun t ht =>
        (hbranch t ht).2⟩
      rintro (rfl : tasks = [])
      simp at hsize

/-! ## The manifest -/

theorem triggerCountFault?_eq_none {kind : String} {least : Nat} :
    triggerCountFault? m kind least = none ↔
      least ≤ m.triggerCount kind ∧ m.triggerCount kind ≤ 1 := by
  unfold triggerCountFault?
  by_cases h : least ≤ m.triggerCount kind ∧ m.triggerCount kind ≤ 1
  · exact iff_of_true (if_pos h) h
  · refine iff_of_false ?_ h
    intro hnone
    have hsome := (if_neg h).symm.trans hnone
    simp at hsome

/-- The number of triggers of a kind is what it may be. -/
theorem triggerCount_of_clean {s : Surroundings} (h : (triggersFindings m s).Clean) :
    ∀ e ∈ [("git", 1), ("timer", 0), ("docker", 0)],
      e.2 ≤ m.triggerCount e.1 ∧ m.triggerCount e.1 ≤ 1 := by
  rintro ⟨kind, least⟩ he
  rw [triggersFindings, Findings.clean_append, Findings.clean_ofErrors, List.filterMap_eq_nil_iff] at h
  exact triggerCountFault?_eq_none.1 (h.1 _ he)

/-- Tasks without errors stand where they may and are complete. -/
theorem complete_of_clean (h : (tasksFindings m files).Clean) :
    ∀ t ∈ m.tasks, t.isStage = true ∧ Complete m files t := by
  intro t ht
  rw [tasksFindings] at h
  split at h
  · simp at h
  · obtain ⟨i, hi⟩ := Findings.exists_clean_of_concat (Findings.clean_append.1 h).1 ht
    exact stage_of_clean hi

/-- No group of a manifest whose tasks have no errors is empty. -/
theorem allFilled_of_clean (h : (tasksFindings m files).Clean) : Task.allFilled m.tasks = true :=
  Task.allFilled_iff.2 fun t ht => (complete_of_clean h t ht).2.1

/-- Every leaf of a manifest whose tasks have no errors follows the rules for leaves. -/
theorem leafFindings_clean (h : (tasksFindings m files).Clean) {l : Leaf}
    (hl : l ∈ Task.flatten m.tasks) : (leafFindings m files l).Clean := by
  obtain ⟨t, ht, hl⟩ := Task.mem_flatten.1 hl
  exact (complete_of_clean h t ht).2.2 l hl

/-- The reports on a manifest without lint errors hold none. -/
theorem clean_of_accepted {c : Config} {s : Surroundings} (h : hasErrors (run c s m) = false) :
    ∀ r ∈ run c s m, r.findings.Clean := by
  intro r hr
  have hreport := List.any_eq_false.1 h r hr
  simpa [Report.hasErrors, Findings.Clean] using hreport

/-- A manifest whose reports hold no errors has no lint errors. -/
theorem accepted_of_clean {c : Config} {s : Surroundings} (h : ∀ r ∈ run c s m, r.findings.Clean) :
    hasErrors (run c s m) = false := by
  refine List.any_eq_false.2 fun r hr => ?_
  simpa [Report.hasErrors, Findings.Clean] using h r hr

/-- The tasks of a manifest without lint errors have none. -/
theorem tasksFindings_clean {c : Config} {s : Surroundings} (h : hasErrors (run c s m) = false) :
    (tasksFindings m s.files).Clean :=
  clean_of_accepted h (tasksReport c m s) (by simp [run])

/-- A manifest without lint errors can be rendered. -/
theorem renderable_of_accepted {c : Config} {s : Surroundings}
    (h : hasErrors (run c s m) = false) : m.Renderable := by
  have htasks := tasksFindings_clean h
  have hcount := triggerCount_of_clean (clean_of_accepted h (triggersReport c m s) (by simp [run]))
  refine ⟨fun t ht => (complete_of_clean htasks t ht).1, allFilled_of_clean htasks, ?_, ?_, ?_, ?_⟩
  · exact fun l hl => admits_of_clean (leafFindings_clean htasks hl)
  · obtain ⟨hleast, hmost⟩ := hcount ("git", 1) (by simp)
    exact Nat.le_antisymm hmost hleast
  · exact (hcount ("timer", 0) (by simp)).2
  · exact (hcount ("docker", 0) (by simp)).2

/-! ## An accepted manifest -/

/-- A project in which every file is there, and an inventory with a space for its team. -/
def sampleSurroundings : Surroundings where
  files := ⟨fun _ _ => none, fun _ => true⟩
  git := { origin := .ok "git@github.com:acme/app" }
  inventory := fun _ _ _ => .ok [{ name := "app", routes := ["app.example.com"] }]

/-- A leaf that runs a script of its own name. -/
def sampleScript (name : String) : Task :=
  .leaf
    { attributes := { name, saveArtifacts := ["out"] }
      action := .run { script := "./" ++ name, docker := { image := "alpine" } } }

/-- The same project, its working copy on a branch. -/
def surroundingsOn (branch : String) : Surroundings :=
  { sampleSurroundings with git := { sampleSurroundings.git with branch := .ok branch } }

/-- A pipeline whose repository names a branch, or none if that is blank. -/
def pipelineOn (pipeline branch : String) : Manifest where
  team := "acme"
  pipeline
  triggers := [.git { uri := "git@github.com:acme/app", branch, privateKey := "((deploy.key))" }]
  tasks := [sampleScript "test"]

/-- A manifest that calls for most of what a pipeline can have: triggers of three kinds, the update of
the pipeline, artifacts, messages, branches with names that collide, and a deployment with a check. -/
def sampleManifest : Manifest where
  team := "acme"
  pipeline := "app"
  slackChannel := "#acme"
  featureToggles := [updatePipelineToggle]
  triggers :=
    [.git { uri := "git@github.com:acme/app", privateKey := "((deploy.key))" },
      .timer { cron := "0 0 * * *" }, .pipeline { team := "acme", pipeline := "base", job := "build" }]
  tasks :=
    [sampleScript "test", .parallel [sampleScript "test", .sequence [sampleScript "test-1"]],
      .leaf
        { attributes := { name := "deploy" }
          action := .deployCf { api := "api", org := "acme", space := "live" } [sampleScript "smoke"] }]

theorem sample_accepted : hasErrors (run {} sampleSurroundings sampleManifest) = false := by
  decide +kernel

end PipelineCompiler.Lint
