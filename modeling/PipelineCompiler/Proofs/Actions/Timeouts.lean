import PipelineCompiler.Proofs.Actions.Jobs
import PipelineCompiler.Proofs.Duration
import PipelineCompiler.Proofs.Lint.Limits

/-!
# Time limits of a workflow

A workflow counts time limits in whole minutes, so that what a leaf asks for is rounded down. The linters
see to it that the limit can be read as a duration and not to how long it is: limits of less than a minute
become none at all (`timesOut_of_accepted`).
-/

namespace PipelineCompiler.Actions

/-- The job has the time limit of its leaf in whole minutes, rounded down, or one of an hour if the leaf has
none. It has a minute at least just if the limit is as long. -/
structure TimesOut (l : Leaf) (j : Job) : Prop where
  unset : l.attributes.timeout = "" → j.timeoutMinutes = 60
  set : l.attributes.timeout ≠ "" → ∃ amounts seconds,
    Duration.ReadsAs l.attributes.timeout amounts seconds
      ∧ j.timeoutMinutes = ⌊seconds / 60⌋₊ ∧ (1 ≤ j.timeoutMinutes ↔ 60 ≤ seconds)

section Jobs

variable {c : Config} {m : Manifest} {l : Leaf} {id : String} {needs : List String} {j : Job}

theorem timeoutMinutes_of_job (h : job c m id l needs = .ok j) :
    j.timeoutMinutes = timeoutMinutes l.timeout := by
  obtain ⟨steps, -, hj⟩ := bind_eq_ok.1 h
  rw [← Except.ok.inj hj]

theorem timesOut_of_job (h : job c m id l needs = .ok j) (hl : Lint.Bounded l) : TimesOut l j := by
  have hminutes := timeoutMinutes_of_job h
  constructor
  · intro hunset
    rw [hminutes, LeafOf.timeout, hunset]
    decide +kernel
  · intro hset
    have hown : l.timeout = l.attributes.timeout := by
      rw [LeafOf.timeout, orElse, if_neg (by simpa using hset)]
    obtain ⟨d, hd⟩ := Option.isSome_iff_exists.1 hl.timeout
    rw [hown] at hd hminutes
    obtain ⟨amounts, hreads⟩ := Duration.exists_readsAs hd
    rw [timeoutMinutes, Duration.minutes?_eq_some hd, Option.getD_some] at hminutes
    refine ⟨amounts, d.inSeconds, hreads, hminutes, ?_⟩
    rw [hminutes, Nat.one_le_floor_iff, le_div_iff₀ (by norm_num), one_mul]

end Jobs

/-- In the workflow of a manifest without lint errors, its defaults filled in, every job has the time limit
of its leaf in whole minutes, rounded down, and sixty if the leaf has none. Roundings aside, that is at least
one minute just for leaves that ask for sixty seconds or more. -/
theorem timesOut_of_accepted (c : Config) (s : Surroundings) (m : Manifest)
    (h : Lint.hasErrors (Lint.run c s m) = false) :
    ∃ w, render c m.withDefaults = .ok w
      ∧ List.Forall₂ (fun e j => TimesOut e.2 j) (Task.leaves m.withDefaults.tasks) w.jobs := by
  have hrenderable := (Lint.renderable_of_accepted h).withDefaults
  obtain ⟨w, hrender, hjobs⟩ := render_eq_ok c hrenderable
  refine ⟨w, hrender, forall₂_imp_mem hjobs fun e he j _ hj => ?_⟩
  exact timesOut_of_job hj (Lint.bounded_of_accepted h he e.2 List.mem_cons_self)

/-- A workflow with a script that has a time limit, and one that has none. -/
def timedWorkflow (timeout : String) : Manifest where
  team := "acme"
  pipeline := "app"
  platform := .actions
  triggers := [.git { uri := "https://github.com/acme/app" }]
  tasks :=
    [.leaf
        { attributes := { name := "test", timeout }
          action := .run { script := "./test", docker := { image := "alpine" } } },
      .leaf
        { attributes := { name := "build" }
          action := .run { script := "./build", docker := { image := "alpine" } } }]

theorem timedWorkflow_timesOut :
    Lint.hasErrors (Lint.run {} Lint.sampleSurroundings (timedWorkflow "1.5h30s")) = false
      ∧ ∃ w, render {} (timedWorkflow "1.5h30s").withDefaults = .ok w
        ∧ List.Forall₂ (fun e j => TimesOut e.2 j)
          (Task.leaves (timedWorkflow "1.5h30s").withDefaults.tasks) w.jobs := by
  have haccepted : Lint.hasErrors
      (Lint.run {} Lint.sampleSurroundings (timedWorkflow "1.5h30s")) = false := by
    decide +kernel
  exact ⟨haccepted, timesOut_of_accepted {} _ _ haccepted⟩

/-- Half a minute is accepted, and is no time at all. -/
theorem halfMinute_lost :
    Lint.hasErrors (Lint.run {} Lint.sampleSurroundings (timedWorkflow "30s")) = false
      ∧ ∃ w, render {} (timedWorkflow "30s").withDefaults = .ok w
        ∧ ∃ j ∈ w.jobs, j.timeoutMinutes = 0 := by
  have haccepted : Lint.hasErrors (Lint.run {} Lint.sampleSurroundings (timedWorkflow "30s")) = false := by
    decide +kernel
  obtain ⟨w, hrender, hjobs⟩ := render_eq_ok {} (Lint.renderable_of_accepted haccepted).withDefaults
  obtain ⟨e, he, htimeout⟩ :
      ∃ e ∈ Task.leaves (timedWorkflow "30s").withDefaults.tasks, e.2.timeout = "30s" :=
    ⟨_, List.mem_of_getElem? (i := 0) rfl, rfl⟩
  obtain ⟨j, hj, hjob⟩ := exists_of_mem_left hjobs he
  have hminutes : timeoutMinutes "30s" = 0 := by decide +kernel
  exact ⟨haccepted, w, hrender, j, hj, by rw [timeoutMinutes_of_job hjob, htimeout, hminutes]⟩

end PipelineCompiler.Actions
