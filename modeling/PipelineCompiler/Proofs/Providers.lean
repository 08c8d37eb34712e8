import PipelineCompiler.Proofs.Actions.Jobs
import PipelineCompiler.Proofs.Concourse.Uploads

/-!
# Providers of consumer tests

A consumer test finds the host of its provider in its environment. One that checks a candidate may leave
the host out, as if the candidate were its provider; but every test is told just the host that it names.
`providers_of_accepted` says for which leaves this makes a difference, and that it is the same leaves on
both build servers.
-/

namespace PipelineCompiler

/-- The environment has the host of a provider. -/
def NamesProvider (env : Env) : Prop := ∃ host, named? env "PROVIDER_HOST" = some host ∧ host ≠ ""

/-- Every consumer test that runs for a leaf is run, and is told the host of its provider wherever it is.
`Runs s env` says that the script is run in the environment. -/
def TellsProviders (c : Config) (m : Manifest) (l : Leaf) (Runs : Script → Env → Prop) : Prop :=
  ∀ runner ∈ Script.runners l, ∀ t, runner.action = .consumerTest t →
    ∃ s, Script.ofLeaf? c m runner = some s ∧ (∃ env, Runs s env)
      ∧ ∀ env, Runs s env → NamesProvider env

/-- The leaf names its provider if it is a consumer test. -/
def namesProvider (l : Leaf) : Bool :=
  match l.action with
  | .consumerTest t => !t.providerHost.isEmpty
  | _ => true

/-- Consumer tests that check the candidate of a leaf name their providers. -/
def checksNameProviders (l : Leaf) : Bool := (Script.checksOf l).all namesProvider

/-! ## What a test is told -/

section Tests

variable {c : Config} {m : Manifest} {l : Leaf}

/-- A test names its provider unless the host is blank. -/
theorem namesProvider_consumerTest {t : ConsumerTest} (haction : l.action = .consumerTest t) :
    namesProvider l = true ↔ t.providerHost ≠ "" := by
  rw [namesProvider, haction, Bool.not_eq_true', ← Bool.not_eq_true, String.isEmpty_iff]

/-- The rules ask every leaf of the pipeline for its provider. -/
theorem namesProvider_of_clean {files : FileProbe} (h : (Lint.leafFindings m files l).Clean) :
    namesProvider l = true := by
  cases haction : l.action with
  | consumerTest t =>
      rw [Lint.leafFindings, haction, Lint.actionFindings, Lint.consumerTestFindings,
        Lint.Findings.clean_append, Lint.Findings.clean_ofErrors, List.append_eq_nil_iff] at h
      obtain ⟨⟨-, hhost⟩, -⟩ := h
      rw [namesProvider_consumerTest haction]
      intro hblank
      simp [hblank] at hhost
  | _ => rw [namesProvider, haction]

/-- What runs for a leaf without errors names its provider just if the checks of the candidate do. -/
theorem runners_name_iff (h : namesProvider l = true) :
    (∀ runner ∈ Script.runners l, namesProvider runner = true) ↔ checksNameProviders l = true := by
  rw [checksNameProviders, List.all_eq_true, Script.runners]
  split
  · next hscript =>
      have hchecks : Script.checksOf l = [] := by
        rw [Script.checksOf]
        cases haction : l.action <;> simp_all [Action.isScript]
      rw [hchecks]
      exact iff_of_true (List.forall_mem_singleton.2 h) (List.forall_mem_nil _)
  · exact Iff.rfl

/-- Tests are told their providers just if they name them, where scripts are run in environments that
have their variables. -/
theorem tellsProviders_iff {Runs : Script → Env → Prop}
    (hruns : ∀ runner ∈ Script.runners l, ∀ s, Script.ofLeaf? c m runner = some s → ∃ env, Runs s env)
    (henv : ∀ s env, Runs s env → (NamesProvider env ↔ NamesProvider s.attributes.vars.entries)) :
    TellsProviders c m l Runs ↔ ∀ runner ∈ Script.runners l, namesProvider runner = true := by
  -- what a test is told is what it names
  have htold : ∀ runner s t, runner.action = .consumerTest t → Script.ofLeaf? c m runner = some s →
      (NamesProvider s.attributes.vars.entries ↔ namesProvider runner = true) := by
    intro runner s t haction hs
    have hhost : named? s.attributes.vars.entries "PROVIDER_HOST" = some t.providerHost :=
      Script.providerHost_ofLeaf? haction hs
    simp [NamesProvider, hhost, namesProvider_consumerTest haction]
  constructor
  · intro htells runner hrunner
    cases haction : runner.action with
    | consumerTest t =>
        obtain ⟨s, hs, ⟨env, hrun⟩, hnames⟩ := htells runner hrunner t haction
        exact (htold runner s t haction hs).1 ((henv s env hrun).1 (hnames env hrun))
    | _ => rw [namesProvider, haction]
  · intro hnames runner hrunner t haction
    obtain ⟨s, hs⟩ := Script.exists_ofLeaf? c m (l := runner) (by rw [haction, Action.isScript])
    refine ⟨s, hs, hruns runner hrunner s hs, fun env hrun => (henv s env hrun).2 ?_⟩
    exact (htold runner s t haction hs).2 (hnames runner hrunner)

end Tests

/-! ## Jobs of a pipeline -/

namespace Concourse

variable {c : Config} {m : Manifest} {l : Leaf} {j : Job} {s : Script} {env : Env}

/-- A container of the plan runs the script in the environment. -/
def Job.Runs (m : Manifest) (j : Job) (s : Script) (env : Env) : Prop :=
  ∃ t ∈ Step.collect Step.task? j.plan, t.container = ScriptStep.container m s ∧ t.container.env = env

/-- The job of a leaf runs every script that is to run. -/
theorem exists_runs_of_consists {resources : ResourceSet} {passed : List String} {steps : List Step}
    (h : Consists c m resources l passed j steps) (hunchecked : RollsUnchecked l) {runner : Leaf}
    (hrunner : runner ∈ Script.runners l) (hs : Script.ofLeaf? c m runner = some s) :
    ∃ env, j.Runs m s env := by
  suffices hsteps : ∃ t ∈ Step.collect Step.task? steps, t.container = ScriptStep.container m s by
    obtain ⟨t, ht, hcontainer⟩ := hsteps
    refine ⟨_, t, ?_, hcontainer, rfl⟩
    rw [h.plan, Step.collect_append]
    exact List.mem_append_right _ ht
  have hwork := h.work
  generalize j.ensure = ensure at hwork
  cases hwork with
  | script s' hs' =>
      rw [Script.runners_of_isScript (Script.isScript_of_ofLeaf? hs'), List.mem_singleton] at hrunner
      subst hrunner
      obtain rfl := Option.some.inj (hs'.symm.trans hs)
      obtain ⟨t, ht, hcontainer⟩ := exists_scriptTask m s'
      exact ⟨t, ht ▸ List.mem_singleton_self t, hcontainer⟩
  | rolling d prePromote r haction hr hrolling =>
      obtain rfl := hunchecked d prePromote haction hrolling
      rw [Script.runners_deployCf haction] at hrunner
      exact absurd hrunner List.not_mem_nil
  | stages d prePromote r scripts haction hr hrolling hscripts =>
      rw [Script.runners_deployCf haction] at hrunner
      obtain ⟨s', hs', hscript⟩ := exists_of_mem_left hscripts hrunner
      obtain rfl := Option.some.inj (hscript.symm.trans hs)
      obtain ⟨t, ht, hcontainer⟩ := exists_scriptTask m s'
      refine ⟨t, ?_, hcontainer⟩
      rw [tasks_stageSteps, Step.mem_collect_flatMap]
      exact ⟨s', hs', ht ▸ List.mem_singleton_self t⟩
  | imageBuild p haction | katee d haction | update u haction =>
      rw [Script.runners, Script.checksOf, haction] at hrunner
      exact absurd hrunner List.not_mem_nil

/-- The environment of a container has the variables of its script. -/
theorem namesProvider_of_runs (h : j.Runs m s env) :
    NamesProvider env ↔ NamesProvider s.attributes.vars.entries := by
  obtain ⟨t, -, hcontainer, rfl⟩ := h
  rw [hcontainer]
  exact Iff.rfl

theorem tellsProviders_of_consists {resources : ResourceSet} {passed : List String} {steps : List Step}
    (h : Consists c m resources l passed j steps) (hunchecked : RollsUnchecked l) :
    TellsProviders c m l (j.Runs m) ↔ ∀ runner ∈ Script.runners l, namesProvider runner = true :=
  tellsProviders_iff (fun _ hrunner _ hs => exists_runs_of_consists h hunchecked hrunner hs)
    fun _ _ hruns => namesProvider_of_runs hruns

end Concourse

/-! ## Jobs of a workflow -/

namespace Actions

variable {c : Config} {m : Manifest} {l : Leaf} {j : Job} {s : Script} {env : Env}

/-- A step of the job runs the script in the environment. -/
def Job.Runs (basePath : String) (j : Job) (s : Script) (env : Env) : Prop :=
  ∃ step ∈ j.steps, step.Runs basePath s ∧ step.env = env

theorem named?_secretEnv (vars : Vars) (name : String) :
    named? (secretEnv vars) name = (vars.get? name).map readSecret := by
  rw [named?, secretEnv, List.find?_map, Vars.get?, Option.map_map, Option.map_map]
  rfl

/-- Reading secrets leaves no value blank that was not, and the blank one as it was. -/
theorem readSecret_eq_empty {v : String} : readSecret v = "" ↔ v = "" := by
  constructor
  · intro h
    rw [readSecret] at h
    split at h
    · simp [expression] at h
    · exact h
  · rintro rfl
    decide

/-- The environment of a step has the variables of its script, with secrets read. -/
theorem namesProvider_of_runs (h : j.Runs m.basePath s env) :
    NamesProvider env ↔ NamesProvider s.attributes.vars.entries := by
  obtain ⟨step, -, ⟨name, rfl⟩, rfl⟩ := h
  have hlookup : named? (scriptStep m.basePath s).env "PROVIDER_HOST"
      = (named? s.attributes.vars.entries "PROVIDER_HOST").map readSecret :=
    named?_secretEnv s.attributes.vars "PROVIDER_HOST"
  simp [NamesProvider, hlookup, readSecret_eq_empty]

theorem tellsProviders_of_job {id : String} {needs : List String} (h : job c m id l needs = .ok j) :
    TellsProviders c m l (j.Runs m.basePath)
      ↔ ∀ runner ∈ Script.runners l, namesProvider runner = true := by
  refine tellsProviders_iff (fun runner hrunner s hs => ?_) fun _ _ hruns => namesProvider_of_runs hruns
  obtain ⟨step, hstep, hruns⟩ := exists_runs_of_job h hrunner hs
  exact ⟨step.env, step, hstep, hruns, rfl⟩

end Actions

/-! ## The jobs of an accepted manifest -/

/-- The leaves of a manifest without errors name their providers, their defaults filled in or not. -/
theorem namesProvider_withDefaults {m : Manifest} {files : FileProbe}
    (h : (Lint.tasksFindings m files).Clean) {l : Leaf} (hl : l ∈ Task.flatten m.withDefaults.tasks) :
    namesProvider l = true := by
  obtain ⟨l', rfl, hl' | ⟨hl', -⟩⟩ := Manifest.mem_flatten_withDefaults hl
  · exact namesProvider_of_clean (l := l') (Lint.leafFindings_clean h hl')
  · obtain rfl := Task.leaf.inj hl'
    rfl

/-- For a manifest without lint errors, its defaults filled in, the jobs in which every consumer test is
told the host of its provider are, on both build servers, those of the leaves whose checks name theirs. -/
theorem providers_of_accepted (c : Config) (s : Surroundings) (m : Manifest)
    (h : Lint.hasErrors (Lint.run c s m) = false) :
    ∃ p w, Concourse.render c m.withDefaults = .ok p ∧ Actions.render c m.withDefaults = .ok w
      ∧ List.Forall₂
        (fun e j => TellsProviders c m.withDefaults e.2 (j.Runs m.withDefaults)
          ↔ checksNameProviders e.2 = true)
        (Task.leaves m.withDefaults.tasks) p.jobs
      ∧ List.Forall₂
        (fun e j => TellsProviders c m.withDefaults e.2 (j.Runs m.withDefaults.basePath)
          ↔ checksNameProviders e.2 = true)
        (Task.leaves m.withDefaults.tasks) w.jobs := by
  have hrenderable := (Lint.renderable_of_accepted h).withDefaults
  have hclean := Lint.tasksFindings_clean h
  obtain ⟨js, hp, hjobs⟩ := Concourse.render_eq_ok c hrenderable
  obtain ⟨w, hw, hjobs'⟩ := Actions.render_eq_ok c hrenderable
  refine ⟨_, w, hp, hw, forall₂_imp_mem hjobs fun e he j _ hj => ?pipeline,
    forall₂_imp_mem hjobs' fun e he j _ hj => ?workflow⟩
  case pipeline =>
    have hl : e.2 ∈ Task.flatten m.withDefaults.tasks := List.mem_map_of_mem he
    obtain ⟨steps, hconsists⟩ := Concourse.consists_of_renderable hrenderable he hj
    rw [Concourse.tellsProviders_of_consists hconsists (Concourse.rollsUnchecked_of_clean hclean hl)]
    exact runners_name_iff (namesProvider_withDefaults hclean hl)
  case workflow =>
    have hl : e.2 ∈ Task.flatten m.withDefaults.tasks := List.mem_map_of_mem he
    rw [Actions.tellsProviders_of_job hj]
    exact runners_name_iff (namesProvider_withDefaults hclean hl)

/-- A consumer test that names a host for its provider, which may be blank. -/
def consumerTestOf (name providerHost : String) : Task :=
  .leaf
    { attributes := { name }
      action := .consumerTest
        { consumer := "shop/contract"
          consumerHost := "shop.example.com"
          providerHost
          script := "ci/contract" } }

/-- A deployment whose candidate is tested under a host. -/
def testedDeployment (candidateHost : String) : Task :=
  .leaf
    { attributes := { name := "deploy" }
      action := .deployCf
        { api := "api", org := "acme", space := "live", testDomain := "test.example.com" }
        [consumerTestOf "candidate" candidateHost] }

/-- A pipeline that tests what is deployed and every candidate, all of them named. -/
def namedProviders : Manifest where
  team := "acme"
  pipeline := "app"
  triggers := [.git { uri := "git@github.com:acme/app", privateKey := "((deploy.key))" }]
  tasks :=
    [consumerTestOf "contract" "app.example.com",
      testedDeployment "app-live-CANDIDATE.test.example.com"]

theorem namedProviders_told :
    Lint.hasErrors (Lint.run {} Lint.sampleSurroundings namedProviders) = false
      ∧ ∃ p w, Concourse.render {} namedProviders.withDefaults = .ok p
        ∧ Actions.render {} namedProviders.withDefaults = .ok w
        ∧ List.Forall₂
          (fun e j => TellsProviders {} namedProviders.withDefaults e.2
            (j.Runs namedProviders.withDefaults) ↔ checksNameProviders e.2 = true)
          (Task.leaves namedProviders.withDefaults.tasks) p.jobs
        ∧ List.Forall₂
          (fun e j => TellsProviders {} namedProviders.withDefaults e.2
            (j.Runs namedProviders.withDefaults.basePath) ↔ checksNameProviders e.2 = true)
          (Task.leaves namedProviders.withDefaults.tasks) w.jobs := by
  have haccepted : Lint.hasErrors (Lint.run {} Lint.sampleSurroundings namedProviders) = false := by
    decide +kernel
  exact ⟨haccepted, providers_of_accepted {} _ _ haccepted⟩

/-- A pipeline whose candidate is to be tested without being named. -/
def unnamedCandidate : Manifest :=
  { namedProviders with tasks := [testedDeployment ""] }

/-- On both build servers the test of the candidate is told no host. -/
theorem unnamedCandidate_untold :
    Lint.hasErrors (Lint.run {} Lint.sampleSurroundings unnamedCandidate) = false
      ∧ ∃ p w, Concourse.render {} unnamedCandidate.withDefaults = .ok p
        ∧ Actions.render {} unnamedCandidate.withDefaults = .ok w
        ∧ p.jobs.length = 1 ∧ w.jobs.length = 1
        ∧ List.Forall₂
          (fun e j => ¬ TellsProviders {} unnamedCandidate.withDefaults e.2
            (j.Runs unnamedCandidate.withDefaults))
          (Task.leaves unnamedCandidate.withDefaults.tasks) p.jobs
        ∧ List.Forall₂
          (fun e j => ¬ TellsProviders {} unnamedCandidate.withDefaults e.2
            (j.Runs unnamedCandidate.withDefaults.basePath))
          (Task.leaves unnamedCandidate.withDefaults.tasks) w.jobs := by
  have haccepted : Lint.hasErrors (Lint.run {} Lint.sampleSurroundings unnamedCandidate) = false := by
    decide +kernel
  have hunnamed : ∀ e ∈ Task.leaves unnamedCandidate.withDefaults.tasks,
      ∃ runner ∈ Script.runners e.2, namesProvider runner = false := by
    decide +kernel
  have hnot : ∀ e ∈ Task.leaves unnamedCandidate.withDefaults.tasks,
      ¬ ∀ runner ∈ Script.runners e.2, namesProvider runner = true := by
    intro e he hnames
    obtain ⟨runner, hrunner, hblank⟩ := hunnamed e he
    exact absurd (hblank.symm.trans (hnames runner hrunner)) Bool.false_ne_true
  have hrenderable := (Lint.renderable_of_accepted haccepted).withDefaults
  obtain ⟨js, hp, hjobs⟩ := Concourse.render_eq_ok {} hrenderable
  obtain ⟨w, hw, hjobs'⟩ := Actions.render_eq_ok {} hrenderable
  refine ⟨haccepted, _, w, hp, hw, hjobs.length_eq.symm.trans (by decide),
    hjobs'.length_eq.symm.trans (by decide), forall₂_imp_mem hjobs fun e he j _ hj => ?pipeline,
    forall₂_imp_mem hjobs' fun e he j _ hj => ?workflow⟩
  case pipeline =>
    have hunchecked := Concourse.rollsUnchecked_of_clean (Lint.tasksFindings_clean haccepted)
      (List.mem_map_of_mem he)
    obtain ⟨steps, hconsists⟩ := Concourse.consists_of_renderable hrenderable he hj
    rw [Concourse.tellsProviders_of_consists hconsists hunchecked]
    exact hnot e he
  case workflow =>
    rw [Actions.tellsProviders_of_job hj]
    exact hnot e he

end PipelineCompiler
