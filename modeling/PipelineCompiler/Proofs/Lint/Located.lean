import PipelineCompiler.Proofs.Lint.Locations

/-!
# Where findings are

`located_of_run` says of every finding of the standard linters that carries a place: the manifest has that
place, and it is the place of what the finding is about (`About`, one case for each of the rules). The
exception is the rule for the secrets in checks. It counts the leaves of the checks and not the checks, so
that once a group stands among them its findings are put at a check that they are not about, or at none
(`groupedChecks_astray`).
-/

namespace PipelineCompiler.Lint

open Findings

/-! ## Rules that know no place -/

namespace Findings

variable {a b fs : Findings} {faults : List Fault}

/-- No finding carries a place. -/
def Unplaced (fs : Findings) : Prop := fs.Every fun e => e.position = none

@[simp] theorem unplaced_empty : Unplaced {} := every_empty

@[simp] theorem unplaced_append : (a ++ b).Unplaced ↔ a.Unplaced ∧ b.Unplaced := every_append

@[simp] theorem unplaced_ofErrors : (ofErrors faults).Unplaced := every_ofErrors.2 fun _ _ => rfl

@[simp] theorem unplaced_ofWarnings : (ofWarnings faults).Unplaced := every_ofWarnings.2 fun _ _ => rfl

/-- What is found without a place is the fault alone. -/
theorem Unplaced.eq (h : fs.Unplaced) {e : Finding} (he : fs.Has e) : e = { fault := e.fault } := by
  have hnone : e.position = none := h e he
  rw [← hnone]

end Findings

theorem unplaced_manifestFindings (m : Manifest) : (manifestFindings m).Unplaced := by
  unfold manifestFindings
  repeat' split
  all_goals simp

theorem unplaced_uriFindings (g : GitTrigger) (git : GitState) : (uriFindings g git).Unplaced := by
  unfold uriFindings
  repeat' split
  all_goals simp

theorem unplaced_gitFindings (g : GitTrigger) (files : FileProbe) (git : GitState) :
    (gitFindings g files git).Unplaced := by
  simp only [gitFindings, unplaced_append, watchedPathFindings, unplaced_ofErrors, and_true]
  refine ⟨⟨unplaced_uriFindings g git, ?cryptKey⟩, ?branch⟩
  case cryptKey => split <;> simp
  case branch => split <;> simp

theorem unplaced_triggerFindings (m : Manifest) (s : Surroundings) (t : Trigger) :
    (triggerFindings m s t).Unplaced := by
  cases t with
  | git g => exact unplaced_gitFindings g s.files s.git
  | timer t =>
      rw [triggerFindings, timerFindings]
      repeat' split
      all_goals simp
  | docker d => exact unplaced_ofErrors
  | pipeline p => exact unplaced_ofErrors

theorem unplaced_runFindings (r : Run) (files : FileProbe) : (runFindings r files).Unplaced := by
  unfold runFindings
  repeat' split
  all_goals simp

/-- Only a deployment has rules for parts of itself. -/
theorem unplaced_actionFindings {action : Action Task} (h : ∀ d checks, action ≠ .deployCf d checks)
    (m : Manifest) (files : FileProbe) : (actionFindings m files action).Unplaced := by
  cases action with
  | run r => exact unplaced_runFindings r files
  | deployCf d checks => exact absurd rfl (h d checks)
  | dockerPush p => exact unplaced_ofErrors
  | dockerCompose c => exact unplaced_ofErrors
  | deployMlZip d => exact unplaced_ofErrors
  | deployMlModules d => exact unplaced_ofErrors
  | consumerTest t => exact unplaced_ofErrors
  | deployKatee d => exact unplaced_ofErrors
  | update u => exact unplaced_ofErrors

theorem unplaced_prePromoteFindings (files : FileProbe) (t : Task) :
    (prePromoteFindings files t).Unplaced := by
  unfold prePromoteFindings
  repeat' split
  all_goals simp [unplaced_runFindings, consumerTestFindings]

theorem unplaced_loopFindings (m : Manifest) (l : Leaf) : (loopFindings m l).Unplaced := by
  unfold loopFindings
  split
  · dsimp only
    split
    · exact unplaced_ofWarnings
    · exact unplaced_empty
  · exact unplaced_empty

theorem unplaced_deployManifestFindings (c : Config) (inventory : Inventory) (vars : Vars)
    (d : DeployCf) : (deployManifestFindings c inventory vars d).Unplaced := by
  unfold deployManifestFindings
  repeat' split
  all_goals simp [applicationFindings]

/-! ## Rules that know parts of a task -/

/-- A leaf is reported on without a place, and the checks of its candidate under their indices. -/
theorem leafFindings_placed (m : Manifest) (files : FileProbe) (l : Leaf) :
    (leafFindings m files l).Every fun e => e.position = none ∨
      ∃ d checks k t, l.action = .deployCf d checks ∧ checks[k]? = some t
        ∧ (prePromoteFindings files t).Has { fault := e.fault }
        ∧ e.position = some (prePromotePosition k) := by
  refine every_append.2 ⟨?_, every_ofErrors.2 fun _ _ => .inl rfl⟩
  by_cases hdeploy : ∃ d checks, l.action = .deployCf d checks
  · obtain ⟨d, checks, haction⟩ := hdeploy
    rw [haction]
    refine every_append.2 ⟨every_ofErrors.2 fun _ _ => .inl rfl, every_concat_zipIdx.2 fun k t ht => ?_⟩
    refine every_under.2 fun e he => ?_
    have heq := (unplaced_prePromoteFindings files t).eq he
    rw [heq] at he ⊢
    exact .inr ⟨d, checks, k, t, rfl, ht, he, rfl⟩
  · have hother : ∀ d checks, l.action ≠ .deployCf d checks :=
      fun d checks haction => hdeploy ⟨d, checks, haction⟩
    exact (unplaced_actionFindings hother m files).imp fun _ => .inl

/-- A parallel group is reported on without a place, and the parallel groups in it under their indices. -/
theorem parallelFindings_placed (group : List Task) :
    (parallelFindings group).Every fun e => e.position = none ∨
      ∃ j inner, group[j]? = some (.parallel inner)
        ∧ e = { fault := nestedFault, position := some (taskPosition [j]) } := by
  have hnone {fs : Findings} (h : fs.Unplaced) : fs.Every fun e => e.position = none ∨
      ∃ j inner, group[j]? = some (.parallel inner)
        ∧ e = { fault := nestedFault, position := some (taskPosition [j]) } := h.imp fun _ => .inl
  simp only [parallelFindings, every_append]
  refine ⟨⟨⟨hnone ?size, every_concat_zipIdx.2 fun j t ht => ?nested⟩, hnone ?saves⟩,
    hnone ?savesOnFailure⟩
  case size => split <;> simp
  case nested =>
    cases t with
    | leaf l => exact every_empty
    | sequence inner => exact every_empty
    | parallel inner =>
        refine every_under.2 (every_ofErrors.2 fun fault hfault => .inr ⟨j, inner, ht, ?_⟩)
        obtain rfl := List.mem_singleton.1 hfault
        rfl
  case saves => split <;> simp
  case savesOnFailure => split <;> simp

/-- A sequence is reported on without a place, and the groups in it under their indices. -/
theorem sequenceFindings_placed (group : List Task) (inParallel : Bool) :
    (sequenceFindings group inParallel).Every fun e => e.position = none ∨
      ∃ j t, group[j]? = some t ∧ t.leaf? = none
        ∧ e = { fault := innerFault t, position := some (taskPosition [j]) } := by
  have hnone {fs : Findings} (h : fs.Unplaced) : fs.Every fun e => e.position = none ∨
      ∃ j t, group[j]? = some t ∧ t.leaf? = none
        ∧ e = { fault := innerFault t, position := some (taskPosition [j]) } := h.imp fun _ => .inl
  simp only [sequenceFindings, every_append]
  refine ⟨⟨hnone ?place, hnone ?size⟩, every_concat_zipIdx.2 fun j t ht => ?nested⟩
  case place => split <;> simp
  case size => split <;> simp
  case nested =>
    cases hleaf : t.leaf? with
    | some l => simp
    | none =>
        rw [Option.isSome_none, if_neg Bool.false_ne_true]
        refine every_under.2 (every_ofErrors.2 fun fault hfault => .inr ⟨j, t, ht, hleaf, ?_⟩)
        obtain rfl := List.mem_singleton.1 hfault
        rfl

/-! ## What findings are about -/

/-- A rule has a fault against what is at a place. -/
inductive About (c : Config) (s : Surroundings) (m : Manifest) : Location → Fault → Prop where
  | trigger {i : Nat} {t : Trigger} {fault : Fault} (ht : m.triggers[i]? = some t)
      (h : (triggerFindings m s t).Has { fault }) : About c s m (.trigger i) fault
  | ignoredTrigger {i : Nat} {t : Trigger} {fault : Fault} (ht : m.triggers[i]? = some t)
      (h : (ignoredFindings (ignoredTriggerFeatures t)).Has { fault }) : About c s m (.trigger i) fault
  | leaf {path : TaskPath} {l : Leaf} {fault : Fault} (hl : Task.at? m.tasks path = some (.leaf l))
      (h : (leafFindings m s.files l).Has { fault }) : About c s m (.task path) fault
  | check {path : TaskPath} {l : Leaf} {d : DeployCf} {checks : List Task} {k : Nat} {t : Task}
      {fault : Fault} (hl : Task.at? m.tasks path = some (.leaf l))
      (haction : l.action = .deployCf d checks) (ht : checks[k]? = some t)
      (h : (prePromoteFindings s.files t).Has { fault }) : About c s m (.check path k) fault
  | parallel {path : TaskPath} {group : List Task} {fault : Fault}
      (hgroup : Task.at? m.tasks path = some (.parallel group))
      (h : (parallelFindings group).Has { fault }) : About c s m (.task path) fault
  | nested {path : TaskPath} {group inner : List Task} {j : Nat}
      (hgroup : Task.at? m.tasks path = some (.parallel group))
      (hj : group[j]? = some (.parallel inner)) : About c s m (.task (path ++ [j])) nestedFault
  | sequence {path : TaskPath} {group : List Task} {inParallel : Bool} {fault : Fault}
      (hgroup : Task.at? m.tasks path = some (.sequence group))
      (h : (sequenceFindings group inParallel).Has { fault }) : About c s m (.task path) fault
  | inner {path : TaskPath} {group : List Task} {j : Nat} {t : Task}
      (hgroup : Task.at? m.tasks path = some (.sequence group)) (hj : group[j]? = some t)
      (hleaf : t.leaf? = none) : About c s m (.task (path ++ [j])) (innerFault t)
  | restore {path : TaskPath} {l : Leaf} (hl : Task.at? m.tasks path = some (.leaf l))
      (h : l.readsArtifacts = true) : About c s m (.task path) restoreFault
  | update {path : TaskPath} {l : Leaf} (hl : Task.at? m.tasks path = some (.leaf l))
      (h : l.isUpdate = true) (hpath : path ≠ [0]) :
      About c s m (.task path) (.invalid "type" "the update task must be the first task")
  | loop {path : TaskPath} {l : Leaf} {fault : Fault} (hl : Task.at? m.tasks path = some (.leaf l))
      (h : (loopFindings m l).Has { fault }) : About c s m (.task path) fault
  | vars {path : TaskPath} {l : Leaf} {fault : Fault} (hl : Task.at? m.tasks path = some (.leaf l))
      (h : fault ∈ varsFaults l.attributes.vars) : About c s m (.task path) fault
  | checkVars {path : TaskPath} {l check : Leaf} {d : DeployCf} {checks : List Task} {k : Nat}
      {fault : Fault} (hl : Task.at? m.tasks path = some (.leaf l))
      (haction : l.action = .deployCf d checks) (ht : checks[k]? = some (.leaf check))
      (h : fault ∈ varsFaults check.attributes.vars) : About c s m (.check path k) fault
  | application {path : TaskPath} {l : Leaf} {d : DeployCf} {checks : List Task} {fault : Fault}
      (hl : Task.at? m.tasks path = some (.leaf l)) (haction : l.action = .deployCf d checks)
      (h : (deployManifestFindings c s.inventory l.attributes.vars d).Has { fault }) :
      About c s m (.task path) fault
  | ignoredLeaf {path : TaskPath} {l : Leaf} {fault : Fault}
      (hl : Task.at? m.tasks path = some (.leaf l))
      (h : (ignoredFindings (ignoredLeafFeatures l)).Has { fault }) : About c s m (.task path) fault

section Tree

variable {c : Config} {s : Surroundings} {m : Manifest}

/-- What a finding is about is in the manifest. -/
theorem About.isIn {place : Location} {fault : Fault} (h : About c s m place fault) : place.In m := by
  cases h with
  | trigger ht => exact .trigger ht
  | ignoredTrigger ht => exact .trigger ht
  | leaf hl => exact .task hl
  | check hl haction ht => exact .check hl haction ht
  | parallel hgroup => exact .task hgroup
  | nested hgroup hj => exact .task ((at?_child hgroup _).trans hj)
  | sequence hgroup => exact .task hgroup
  | inner hgroup hj => exact .task ((at?_child hgroup _).trans hj)
  | restore hl => exact .task hl
  | update hl => exact .task hl
  | loop hl => exact .task hl
  | vars hl => exact .task hl
  | checkVars hl haction ht => exact .check hl haction ht
  | application hl => exact .task hl
  | ignoredLeaf hl => exact .task hl

/-- The place that a finding carries is that of what it is about. -/
def Located (c : Config) (s : Surroundings) (m : Manifest) (e : Finding) : Prop :=
  ∀ text, e.position = some text → ∃ place : Location, About c s m place e.fault ∧ place.text = text

/-- What is found without a place may be put at the place that it is about. -/
theorem located_under (place : Location) {fs : Findings} (hfs : fs.Unplaced)
    (habout : ∀ fault, fs.Has { fault } → About c s m place fault) :
    (fs.under place.text).Every (Located c s m) := by
  refine every_under.2 fun e he => ?_
  have heq := hfs.eq he
  rw [heq] at he ⊢
  intro text htext
  exact ⟨place, habout e.fault he, Option.some.inj htext⟩

theorem located_of_unplaced {fs : Findings} (hfs : fs.Unplaced) : fs.Every (Located c s m) := by
  intro e he text htext
  have hnone : e.position = none := hfs e he
  simp [hnone] at htext

/-! ## The rules for tasks -/

variable {path : TaskPath}

theorem located_leafFindingsAt {t : Task} (ht : Task.at? m.tasks path = some t) :
    (leafFindingsAt m s.files path t).Every (Located c s m) := by
  cases t with
  | sequence tasks => exact every_empty
  | parallel tasks => exact every_empty
  | leaf l =>
      refine every_under.2 fun e he text htext => ?_
      rcases leafFindings_placed m s.files l e he with hnone | ⟨d, checks, k, t, haction, hk, hcheck, hk'⟩
      · obtain ⟨fault, position⟩ := e
        obtain rfl : position = none := hnone
        exact ⟨.task path, .leaf ht he, Option.some.inj htext⟩
      · obtain ⟨fault, position⟩ := e
        obtain rfl : position = some (prePromotePosition k) := hk'
        exact ⟨.check path k, .check ht haction hk hcheck, Option.some.inj htext⟩

theorem located_sequenceFindingsAt {tasks : List Task}
    (htasks : Task.at? m.tasks path = some (.sequence tasks)) (inParallel : Bool) :
    (sequenceFindingsAt m s.files path tasks inParallel).Every (Located c s m) := by
  refine every_append.2 ⟨every_under.2 fun e he text htext => ?group, every_concat_zipIdx.2 ?leaves⟩
  case group =>
    rcases sequenceFindings_placed tasks inParallel e he with hnone | ⟨j, t, hj, hleaf, rfl⟩
    · obtain ⟨fault, position⟩ := e
      obtain rfl : position = none := hnone
      exact ⟨.task path, .sequence htasks he, Option.some.inj htext⟩
    · refine ⟨.task (path ++ [j]), .inner htasks hj hleaf, ?_⟩
      exact (taskPosition_concat (ne_nil_of_at? htasks) j).trans (Option.some.inj htext)
  case leaves =>
    intro j t hj
    exact located_leafFindingsAt ((at?_child htasks j).trans hj)

theorem located_branchFindingsAt {t : Task} (ht : Task.at? m.tasks path = some t) :
    (branchFindingsAt m s.files path t).Every (Located c s m) := by
  cases t with
  | leaf l => exact located_leafFindingsAt ht
  | sequence tasks => exact located_sequenceFindingsAt ht true
  | parallel tasks => exact every_empty

theorem located_taskFindingsAt {i : Nat} {t : Task} (ht : m.tasks[i]? = some t) :
    (taskFindingsAt m s.files i t).Every (Located c s m) := by
  have hat : Task.at? m.tasks [i] = some t := (Task.at?_singleton i).trans ht
  cases t with
  | leaf l => exact located_leafFindingsAt hat
  | sequence tasks => exact located_sequenceFindingsAt hat false
  | parallel tasks =>
      refine every_append.2 ⟨every_under.2 fun e he text htext => ?group, every_concat_zipIdx.2 ?branches⟩
      case group =>
        rcases parallelFindings_placed tasks e he with hnone | ⟨j, inner, hj, rfl⟩
        · obtain ⟨fault, position⟩ := e
          obtain rfl : position = none := hnone
          exact ⟨.task [i], .parallel hat he, Option.some.inj htext⟩
        · refine ⟨.task ([i] ++ [j]), .nested hat hj, ?_⟩
          exact (taskPosition_concat (ne_nil_of_at? hat) j).trans (Option.some.inj htext)
      case branches =>
        intro j t hj
        exact located_branchFindingsAt ((at?_child hat j).trans hj)

theorem located_orderFindingsAt {l : Leaf} (hl : Task.at? m.tasks path = some (.leaf l)) (saved : Bool) :
    (orderFindingsAt m saved path l).Every (Located c s m) := by
  have hplace {fs : Findings} (hfs : fs.Unplaced)
      (habout : ∀ fault, fs.Has { fault } → About c s m (.task path) fault) :
      fs.Every fun e => Located c s m (e.under (taskPosition path)) :=
    every_under.1 (located_under (.task path) hfs habout)
  refine every_under.2 (every_append.2 ⟨every_append.2 ⟨?restore, ?first⟩, ?loop⟩)
  case restore =>
    by_cases hreads : (l.readsArtifacts && !saved) = true
    · rw [if_pos hreads]
      refine hplace unplaced_ofErrors fun fault h => ?_
      obtain rfl := List.mem_singleton.1 (has_ofErrors.1 h)
      exact .restore hl (Bool.and_eq_true_iff.1 hreads).1
    · rw [if_neg hreads]
      exact every_empty
  case first =>
    by_cases hfirst : (l.isUpdate && decide (path ≠ [0])) = true
    · rw [if_pos hfirst]
      refine hplace unplaced_ofErrors fun fault h => ?_
      obtain rfl := List.mem_singleton.1 (has_ofErrors.1 h)
      obtain ⟨hupdate, hpath⟩ := Bool.and_eq_true_iff.1 hfirst
      exact .update hl hupdate (of_decide_eq_true hpath)
    · rw [if_neg hfirst]
      exact every_empty
  case loop => exact hplace (unplaced_loopFindings m l) fun fault h => .loop hl h

/-- The pass over the leaves reports on each of them at its position. -/
theorem located_orderFindings (saved : Bool) {entries : List (TaskPath × Leaf)}
    (h : ∀ e ∈ entries, Task.at? m.tasks e.1 = some (.leaf e.2)) :
    (orderFindings m saved entries).Every (Located c s m) := by
  induction entries generalizing saved with
  | nil => exact every_empty
  | cons e rest ih =>
      have he := h e List.mem_cons_self
      refine every_append.2 ⟨located_orderFindingsAt he saved, ih _ fun e' he' => ?_⟩
      exact h e' (List.mem_cons_of_mem e he')

theorem located_tasksFindings : (tasksFindings m s.files).Every (Located c s m) := by
  unfold tasksFindings
  by_cases hempty : m.tasks.isEmpty = true
  · rw [if_pos hempty]
    exact located_of_unplaced unplaced_ofErrors
  · rw [if_neg hempty]
    refine every_append.2 ⟨every_concat_zipIdx.2 fun i t ht => located_taskFindingsAt ht, ?_⟩
    exact located_orderFindings false fun e he => at?_of_mem_leaves he

/-! ## The other linters -/

theorem located_triggersFindings : (triggersFindings m s).Every (Located c s m) := by
  refine every_append.2 ⟨located_of_unplaced unplaced_ofErrors, every_concat_zipIdx.2 fun i t ht => ?_⟩
  exact located_under (.trigger i) (unplaced_triggerFindings m s t) fun fault h => .trigger ht h

theorem located_deployManifestReport :
    (deployManifestReport c m s).findings.Every (Located c s m) := by
  refine every_concat.2 fun e he => ?_
  obtain ⟨path, l⟩ := e
  have hl := at?_of_mem_leaves he
  dsimp only
  split
  · next d checks haction =>
      refine located_under (.task path) (unplaced_deployManifestFindings _ _ _ d) fun fault h => ?_
      exact .application hl haction h
  · exact every_empty

theorem located_actionsReport : (actionsReport m).findings.Every (Located c s m) := by
  unfold actionsReport
  dsimp only
  by_cases hplatform : m.platform = .actions
  · rw [if_pos hplatform]
    refine every_append.2 ⟨every_concat.2 fun e he => ?leaf, every_concat_zipIdx.2 fun i t ht => ?trigger⟩
    case leaf =>
      have hl := at?_of_mem_leaves he
      exact located_under (.task e.1) unplaced_ofWarnings fun fault h => .ignoredLeaf hl h
    case trigger =>
      exact located_under (.trigger i) unplaced_ofWarnings fun fault h => .ignoredTrigger ht h
  · rw [if_neg hplatform]
    exact every_empty

/-! ## Secrets in checks -/

/-- The finding is about a leaf of the checks of a deployment, and what stands at its place is another
check or none. -/
inductive Astray (m : Manifest) : Finding → Prop where
  | intro {path : TaskPath} {l check : Leaf} {d : DeployCf} {checks : List Task} {k : Nat} {fault : Fault}
      (hl : Task.at? m.tasks path = some (.leaf l)) (haction : l.action = .deployCf d checks)
      (hk : (Task.flatten checks)[k]? = some check) (hother : checks[k]? ≠ some (.leaf check))
      (h : fault ∈ varsFaults check.attributes.vars) :
      Astray m { fault, position := some (Location.check path k).text }

/-- A list of leaves is what it flattens to. -/
theorem map_leaf_flatten {tasks : List Task} (h : ∀ t ∈ tasks, t.leaf? ≠ none) :
    (Task.flatten tasks).map Task.leaf = tasks := by
  suffices hfrom : ∀ i, ((Task.leavesFrom [] i tasks).map Prod.snd).map Task.leaf = tasks from hfrom 0
  induction tasks with
  | nil =>
      intro i
      rw [Task.leavesFrom, List.map_nil, List.map_nil]
  | cons t rest ih =>
      intro i
      have hrest := ih (fun u hu => h u (List.mem_cons_of_mem t hu)) (i + 1)
      cases t with
      | leaf l => simp [Task.leavesFrom, Task.leavesAt, hrest]
      | sequence tasks => exact absurd rfl (h _ List.mem_cons_self)
      | parallel tasks => exact absurd rfl (h _ List.mem_cons_self)

/-- Findings go astray only where a group stands among the checks. -/
theorem Astray.exists_group {e : Finding} (h : Astray m e) :
    ∃ path l d checks t, Task.at? m.tasks path = some (.leaf l) ∧ l.action = .deployCf d checks
      ∧ t ∈ checks ∧ t.leaf? = none := by
  cases h with
  | @intro path l check d checks k fault hl haction hk hother h =>
      by_contra hnone
      have hleaves : ∀ t ∈ checks, t.leaf? ≠ none :=
        fun t ht hleaf => hnone ⟨path, l, d, checks, t, hl, haction, ht, hleaf⟩
      refine hother ?_
      rw [← map_leaf_flatten hleaves, List.getElem?_map, hk, Option.map_some]

theorem located_secretFindingsAt {l : Leaf} (hl : Task.at? m.tasks path = some (.leaf l)) :
    (secretFindingsAt path l).Every fun e => Located c s m e ∨ Astray m e := by
  refine every_under.2 (every_append.2 ⟨every_ofErrors.2 fun fault h => .inl ?own, ?checks⟩)
  case own =>
    intro text htext
    exact ⟨.task path, .vars hl h, Option.some.inj htext⟩
  case checks =>
    split
    · next d checks haction =>
        refine every_concat_zipIdx.2 fun k check hk => every_under.2 (every_ofErrors.2 fun fault h => ?_)
        -- `k` counts leaves here, and checks in the place that is reported
        by_cases hleaf : checks[k]? = some (.leaf check)
        · refine .inl fun text htext => ?_
          exact ⟨.check path k, .checkVars hl haction hleaf h, Option.some.inj htext⟩
        · exact .inr (.intro hl haction hk hleaf h)
    · exact every_empty

end Tree

/-! ## All linters -/

/-- A finding of the standard linters that carries a place is about what the manifest has there and
nowhere else, unless it goes astray among the checks of a deployment. -/
theorem located_of_run (c : Config) (s : Surroundings) (m : Manifest) :
    ∀ r ∈ run c s m, r.findings.Every fun e =>
      (∀ text, e.position = some text → ∃ place : Location, place.In m ∧ About c s m place e.fault
        ∧ ∀ other : Location, other.In m → (other.text = text ↔ other = place))
      ∨ Astray m e := by
  have hplaced {e : Finding} (he : Located c s m e) : ∀ text, e.position = some text →
      ∃ place : Location, place.In m ∧ About c s m place e.fault
        ∧ ∀ other : Location, other.In m → (other.text = text ↔ other = place) := by
    intro text htext
    obtain ⟨place, habout, rfl⟩ := he text htext
    exact ⟨place, habout.isIn, habout, fun other hother => Location.text_inj hother habout.isIn⟩
  have hlocated {fs : Findings} (h : fs.Every (Located c s m)) : fs.Every fun e =>
      Located c s m e ∨ Astray m e := h.imp fun _ => .inl
  intro r hr
  suffices h : r.findings.Every fun e => Located c s m e ∨ Astray m e from
    h.imp fun e => Or.imp_left hplaced
  simp only [run, List.mem_cons, List.not_mem_nil, or_false] at hr
  rcases hr with rfl | rfl | rfl | rfl | rfl | rfl | rfl
  case inl => exact hlocated (located_of_unplaced (unplaced_manifestFindings m))
  case inr.inl => exact hlocated (located_of_unplaced unplaced_ofErrors)
  case inr.inr.inl => exact hlocated located_triggersFindings
  case inr.inr.inr.inl => exact hlocated located_tasksFindings
  case inr.inr.inr.inr.inl =>
    refine every_concat.2 fun e he => ?_
    exact located_secretFindingsAt (at?_of_mem_leaves he)
  case inr.inr.inr.inr.inr.inl => exact hlocated located_deployManifestReport
  case inr.inr.inr.inr.inr.inr => exact hlocated located_actionsReport

/-- A script with a variable of its own name, whose reference names no key. -/
def keylessScript (name script : String) : Task :=
  .leaf
    { attributes := { name, vars := Vars.ofList [(name, "((token))")] }
      action := .run { script, docker := { image := "alpine" } } }

/-- The fault of the reference. -/
def keylessFault (name : String) : Fault :=
  .invalid ("vars." ++ name) "'((token))' must be of the form '((map_name.key_name))'"

/-- A deployment with checks. -/
def checkedManifest (checks : List Task) : Manifest where
  team := "acme"
  pipeline := "app"
  triggers := [.git { uri := "git@github.com:acme/app", privateKey := "((deploy.key))" }]
  tasks := [.leaf
    { attributes := { name := "deploy" }
      action := .deployCf { api := "api", org := "acme", space := "live" } checks }]

/-- Nothing goes astray where all checks are leaves. -/
theorem not_astray_of_leaves {checks : List Task} (h : ∀ t ∈ checks, t.leaf? ≠ none) (e : Finding) :
    ¬ Astray (checkedManifest checks) e := by
  intro hastray
  obtain ⟨path, l, d, checks', t, hl, haction, ht, hgroup⟩ := hastray.exists_group
  obtain ⟨i, rest, u, rfl, hu, hbelow⟩ := Task.at?_eq_some.1 hl
  obtain rfl := List.mem_singleton.1 (List.mem_of_getElem? hu)
  obtain ⟨-, hleaf⟩ := Task.below?_leaf hbelow
  obtain rfl := Task.leaf.inj hleaf
  obtain ⟨-, rfl⟩ := Action.deployCf.inj haction
  exact h t ht hgroup

/-- The finding in the only check of a deployment is at this check. -/
theorem keylessCheck_located :
    let m := checkedManifest [keylessScript "TOKEN" "./test"]
    secretsReport {} m ∈ run {} sampleSurroundings m
      ∧ (secretsReport {} m).findings.Has
        { fault := keylessFault "TOKEN", position := some "tasks[0].pre_promote[0]" }
      ∧ ∃ place : Location, place.In m ∧ About {} sampleSurroundings m place (keylessFault "TOKEN")
        ∧ ∀ other : Location, other.In m → (other.text = "tasks[0].pre_promote[0]" ↔ other = place) := by
  intro m
  have hreport : secretsReport {} m ∈ run {} sampleSurroundings m := by
    simp [run]
  have hhas : (secretsReport {} m).findings.Has
      { fault := keylessFault "TOKEN", position := some "tasks[0].pre_promote[0]" } := by
    refine .inl ?_
    decide +kernel
  have hleaves : ∀ t ∈ [keylessScript "TOKEN" "./test"], t.leaf? ≠ none := by
    intro t ht
    obtain rfl := List.mem_singleton.1 ht
    exact Option.some_ne_none _
  rcases located_of_run {} sampleSurroundings m _ hreport _ hhas with hplaced | hastray
  · exact ⟨hreport, hhas, hplaced _ rfl⟩
  · exact absurd hastray (not_astray_of_leaves hleaves _)

/-- A deployment with two checks, the first of which is a group of two scripts. -/
def groupedChecks : Manifest :=
  checkedManifest
    [.parallel [keylessScript "FIRST" "./first", keylessScript "SECOND" "./second"],
      keylessScript "THIRD" ""]

/-- The finding in the second script of the group is where the second check has one, and the finding in
that check is where there is none. -/
theorem groupedChecks_astray :
    (secretsReport {} groupedChecks).findings.errors =
        [{ fault := keylessFault "FIRST", position := some (Location.check [0] 0).text },
          { fault := keylessFault "SECOND", position := some (Location.check [0] 1).text },
          { fault := keylessFault "THIRD", position := some (Location.check [0] 2).text }]
      ∧ { fault := .missing "script", position := some (Location.check [0] 1).text }
          ∈ (tasksReport {} groupedChecks sampleSurroundings).findings.errors
      ∧ ¬ (Location.check [0] 2).In groupedChecks := by
  refine ⟨by decide +kernel, by decide +kernel, ?_⟩
  intro h
  cases h with
  | check hl haction hk =>
      obtain rfl := Task.leaf.inj (Option.some.inj hl)
      obtain ⟨-, rfl⟩ := Action.deployCf.inj haction
      exact absurd hk (by simp)

end PipelineCompiler.Lint
