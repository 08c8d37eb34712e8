import PipelineCompiler.Proofs.Script

/-!
# What a script keeps of its leaf

Both build servers run the script that a leaf stands for, and take the limits, artifacts and name of the
leaf now from the one and now from the other. `StandsFor` says that it makes no difference: the script has
every attribute of the leaf, and of its variables all but those that a script of the kind sets itself.
Three variables of a deployment of modules are set for authors only who leave them out.
-/

namespace PipelineCompiler.Script

/-! ## Variables of a kind -/

/-- The names that a deployment to MarkLogic sets. -/
def marklogicNames : List String :=
  ["APP_NAME", "APP_VERSION", "MARKLOGIC_HOST", "MARKLOGIC_USERNAME", "MARKLOGIC_PASSWORD",
    "USE_BUILD_VERSION"]

/-- The names that the script of an action sets, whatever the author sets them to. -/
def setNames {τ : Type} : Action τ → List String
  | .dockerCompose _ => ["GCR_PRIVATE_KEY"]
  | .consumerTest _ =>
    ["CONSUMER_GIT_URI", "CONSUMER_PATH", "CONSUMER_SCRIPT", "CONSUMER_GIT_KEY", "CONSUMER_HOST",
      "PROVIDER_NAME", "PROVIDER_HOST", "DOCKER_COMPOSE_SERVICE", "GIT_CLONE_OPTIONS", "USE_COVENANT",
      "GCR_PRIVATE_KEY", "DOCKER_REGISTRY_HOST"]
  | .deployMlZip _ => marklogicNames ++ ["DEPLOY_ZIP"]
  | .deployMlModules _ => marklogicNames ++ ["ML_MODULES_VERSION"]
  | .run _ | .dockerPush _ | .deployCf _ _ | .deployKatee _ | .update _ => []

/-- What it sets them to. -/
def setVars {τ : Type} (c : Config) (m : Manifest) : Action τ → List (String × String)
  | .dockerCompose _ => [(registryKeyName, registryKey)]
  | .consumerTest t => consumerVars c m t
  | .deployMlZip d =>
    marklogicVars m d.appName d.appVersion d.targets d.useBuildVersion ++ [("DEPLOY_ZIP", d.deployZip)]
  | .deployMlModules d =>
    marklogicVars m d.appName d.appVersion d.targets d.useBuildVersion
      ++ [("ML_MODULES_VERSION", d.mlModulesVersion)]
  | .run _ | .dockerPush _ | .deployCf _ _ | .deployKatee _ | .update _ => []

/-- What it fills in for authors who leave it out. -/
def fallbackVars {τ : Type} : Action τ → List (String × String)
  | .deployMlModules _ => artifactoryVars
  | _ => []

theorem names_setVars {τ : Type} (c : Config) (m : Manifest) (action : Action τ) :
    (setVars c m action).map Prod.fst = setNames action := by
  cases action <;> rfl

theorem nodup_setNames {τ : Type} (action : Action τ) : (setNames action).Nodup := by
  cases action <;> simp [setNames, marklogicNames]

/-- A name that is filled in is not set. -/
theorem not_mem_setNames_of_fallback {τ : Type} (action : Action τ) :
    ∀ e ∈ fallbackVars action, e.1 ∉ setNames action := by
  cases action <;> simp [fallbackVars, artifactoryVars, setNames, marklogicNames]

/-! ## Scripts that stand for a leaf -/

/-- The script runs as the leaf would: under its name, within its limits, telling the same channels, and
with its artifacts. A variable has the value that scripts of the kind set it to, else the author's, else
the one that is filled in. -/
structure StandsFor (c : Config) (m : Manifest) (s : Script) (l : Leaf) : Prop where
  name : s.leaf.name = l.name
  timeout : s.leaf.timeout = l.timeout
  attempts : s.leaf.attempts = l.attempts
  notifications : s.attributes.notifications = l.attributes.notifications
  notifyOnSuccess : s.attributes.notifyOnSuccess = l.attributes.notifyOnSuccess
  manualTrigger : s.attributes.manualTrigger = l.attributes.manualTrigger
  buildHistory : s.attributes.buildHistory = l.attributes.buildHistory
  saved : s.attributes.saveArtifacts = l.attributes.saveArtifacts
  savedOnFailure : s.attributes.saveArtifactsOnFailure = l.attributes.saveArtifactsOnFailure
  saves : s.leaf.savesArtifacts = l.savesArtifacts
  savesOnFailure : s.leaf.savesArtifactsOnFailure = l.savesArtifactsOnFailure
  reads : s.leaf.readsArtifacts = l.readsArtifacts
  set : ∀ n ∈ setNames l.action, s.attributes.vars.get? n = named? (setVars c m l.action) n
  kept : ∀ n ∉ setNames l.action, ∀ value, l.attributes.vars.get? n = some value →
    s.attributes.vars.get? n = some value
  filled : ∀ n ∉ setNames l.action, l.attributes.vars.get? n = none →
    s.attributes.vars.get? n = named? (fallbackVars l.action) n
  preferred : ∀ e ∈ fallbackVars l.action, ∀ value, l.attributes.vars.get? e.1 = some value →
    s.attributes.vars.get? e.1 = some value

section Lowering

variable {c : Config} {m : Manifest} {l : Leaf} {s : Script}

/-- A name of its own is the display name of a leaf. -/
theorem name_eq_own (h : l.attributes.name ≠ "") : l.name = l.attributes.name := by
  rw [LeafOf.name, orElse, if_neg (by simpa using h)]

/-- A leaf that is no script of the author's has a display name: its own, or that of its kind. -/
theorem name_ne_empty (h : ∀ r, l.action ≠ .run r) : l.name ≠ "" := by
  rw [LeafOf.name, orElse]
  split
  · cases haction : l.action with
    | run r => exact absurd haction (h r)
    | _ => exact ne_of_beq_false rfl
  · next hname => simpa using hname

/-- The script that is made for a leaf is named as the leaf is. -/
theorem name_ofLeaf? (h : ofLeaf? c m l = some s) : s.leaf.name = l.name := by
  obtain ⟨attributes, action⟩ := l
  cases action with
  | run r =>
      obtain rfl := Option.some.inj h
      rfl
  | dockerCompose _ | consumerTest _ | deployMlZip _ | deployMlModules _ =>
      obtain rfl := Option.some.inj h
      exact name_eq_own (name_ne_empty (by simp))
  | dockerPush _ | deployCf _ _ | deployKatee _ | update _ => exact absurd h nofun

/-- A script is run as often as its leaf, and for as long. -/
theorem limits_ofLeaf? (h : ofLeaf? c m l = some s) :
    s.leaf.timeout = l.timeout ∧ s.leaf.attempts = l.attempts := by
  obtain ⟨name, vars, hattributes⟩ := attributes_ofLeaf? h
  rw [LeafOf.timeout, LeafOf.attempts, leaf, hattributes]
  exact ⟨rfl, rfl⟩

/-- The variables of a script are those of its leaf, with what the kind sets put over them and what it
fills in put behind them. -/
theorem vars_ofLeaf? (h : ofLeaf? c m l = some s) :
    s.attributes.vars = (fallbackVars l.action).foldl (fun vs (n, v) => vs.setDefault n v)
      (l.attributes.vars.setAll (setVars c m l.action)) := by
  obtain ⟨attributes, action⟩ := l
  cases action with
  | run _ | dockerCompose _ | consumerTest _ | deployMlZip _ | deployMlModules _ =>
      obtain rfl := Option.some.inj h
      rfl
  | dockerPush _ | deployCf _ _ | deployKatee _ | update _ => exact absurd h nofun

theorem get?_vars_ofLeaf? (h : ofLeaf? c m l = some s) (name : String) :
    s.attributes.vars.get? name
      = (named? (setVars c m l.action) name).or
        ((l.attributes.vars.get? name).or (named? (fallbackVars l.action) name)) := by
  have hnodup : ((setVars c m l.action).map Prod.fst).Nodup :=
    names_setVars c m l.action ▸ nodup_setNames l.action
  rw [vars_ofLeaf? h, Vars.get?_foldl_setDefault, Vars.get?_setAll, named?_reverse hnodup, Option.or_assoc]

theorem standsFor_ofLeaf? (h : ofLeaf? c m l = some s) : StandsFor c m s l := by
  obtain ⟨name, vars, hattributes⟩ := attributes_ofLeaf? h
  obtain ⟨htimeout, hattempts⟩ := limits_ofLeaf? h
  obtain ⟨hsaves, honFailure, hreads⟩ := artifacts_ofLeaf? h
  have hunset {n : String} (hn : n ∉ setNames l.action) : named? (setVars c m l.action) n = none :=
    named?_eq_none.2 (names_setVars c m l.action ▸ hn)
  have hkept {n : String} (hn : n ∉ setNames l.action) {value : String}
      (hvalue : l.attributes.vars.get? n = some value) : s.attributes.vars.get? n = some value := by
    rw [get?_vars_ofLeaf? h, hunset hn, hvalue, Option.none_or, Option.some_or]
  refine
    { name := name_ofLeaf? h
      timeout := htimeout
      attempts := hattempts
      notifications := by rw [hattributes]
      notifyOnSuccess := by rw [hattributes]
      manualTrigger := by rw [hattributes]
      buildHistory := by rw [hattributes]
      saved := by rw [hattributes]
      savedOnFailure := by rw [hattributes]
      saves := hsaves
      savesOnFailure := honFailure
      reads := hreads
      set := fun n hn => ?set
      kept := fun n hn value hvalue => hkept hn hvalue
      filled := fun n hn hvalue => ?filled
      preferred := fun e he value hvalue => hkept (not_mem_setNames_of_fallback l.action e he) hvalue }
  case set =>
    rw [← names_setVars c m, ← not_not (a := n ∈ _), ← named?_eq_none, ← ne_eq,
      Option.ne_none_iff_exists'] at hn
    obtain ⟨value, hvalue⟩ := hn
    rw [get?_vars_ofLeaf? h, hvalue, Option.some_or]
  case filled => rw [get?_vars_ofLeaf? h, hunset hn, hvalue, Option.none_or, Option.none_or]

end Lowering

/-- The kinds of leaves that run as scripts. -/
def scriptKinds : List String :=
  ["run", "docker-compose", "consumer-integration-test", "deploy-ml-zip", "deploy-ml-modules"]

theorem kind_mem_scriptKinds {τ : Type} (action : Action τ) :
    action.kind ∈ scriptKinds ↔ action.isScript = true := by
  cases action <;> simp [Action.kind, Action.isScript, scriptKinds]

/-- A leaf runs as a script just if its kind is one of the five that do, and that script stands for it. -/
theorem ofLeaf?_standsFor (c : Config) (m : Manifest) (l : Leaf) :
    (l.kind ∉ scriptKinds ∧ ofLeaf? c m l = none)
      ∨ (l.kind ∈ scriptKinds ∧ ∃ s, ofLeaf? c m l = some s ∧ StandsFor c m s l) := by
  rw [LeafOf.kind, kind_mem_scriptKinds]
  by_cases hscript : l.action.isScript = true
  · obtain ⟨s, hs⟩ := exists_ofLeaf? c m hscript
    exact .inr ⟨hscript, s, hs, standsFor_ofLeaf? hs⟩
  · refine .inl ⟨hscript, Option.eq_none_iff_forall_ne_some.2 fun s hs => ?_⟩
    exact hscript (isScript_of_ofLeaf? hs)

end PipelineCompiler.Script
