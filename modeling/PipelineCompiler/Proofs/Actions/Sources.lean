import PipelineCompiler.Proofs.Actions.Jobs
import PipelineCompiler.Proofs.Actions.Runner

/-!
# Where the texts of a workflow come from

The texts that environments and inputs of steps hold are made from texts of the manifest. Some of these are
handed on as they stand or as a part of another text, for some a secret is read if they are a reference, and
the names of users and the domains for tests are credentials that are handed on as they stand (`Sources`).
The texts of a job are free of a reference if its sources are (`free_job`).
-/

namespace PipelineCompiler.Actions

open Secret

/-! ## Sources -/

/-- Texts of a manifest by what becomes of them. -/
structure Sources where
  /-- Handed on as they stand or as a part of another text. -/
  plain : List String := []
  /-- A secret is read for those that are a reference. -/
  read : List String := []
  /-- Credentials that are handed on as they stand. -/
  raw : List String := []

namespace Sources

instance : Append Sources where
  append a b := ⟨a.plain ++ b.plain, a.read ++ b.read, a.raw ++ b.raw⟩

@[simp] theorem raw_append (a b : Sources) : (a ++ b).raw = a.raw ++ b.raw := rfl

/-- The sources of several parts. -/
def concat (parts : List Sources) : Sources :=
  ⟨parts.flatMap plain, parts.flatMap read, parts.flatMap raw⟩

/-- The sources that are neither a credential handed on as it stands nor a reference that a secret is read
for. -/
def others (s : Sources) : List String := s.plain ++ s.read.filter fun v => !isReference v

end Sources

/-- The sources of a login to the registry of an image. -/
def loginSources (image username password : String) : Sources :=
  { plain := [image], read := [password], raw := [username] }

/-- The sources of the step that runs a script. -/
def runSources (s : Script) : Sources :=
  { plain := [s.run.script], read := varValues s.attributes.vars }

/-- The sources of all steps of a script. -/
def scriptSources (s : Script) : Sources :=
  let docker := s.run.docker
  let login :=
    if s.privileged || docker.image.isEmpty || docker.username.isEmpty then {}
    else loginSources docker.image docker.username docker.password
  runSources s ++ login ++ { plain := s.attributes.saveArtifacts ++ s.attributes.saveArtifactsOnFailure }

/-- The sources of an image build. -/
def imageSources (l : Leaf) (p : DockerPush) : Sources :=
  loginSources p.image p.username p.password
    ++ { plain := [p.buildPath, p.dockerfilePath] ++ p.platforms ++ l.attributes.vars.names
         read := varValues l.attributes.vars }

/-- The sources of the stages of a deployment. -/
def stageSources (l : Leaf) (d : DeployCf) : Sources where
  plain := [d.manifest, d.deployArtifact, l.timeout] ++ d.varsFiles
  read := [d.api, d.org, d.space, d.username, d.password] ++ varValues l.attributes.vars
  raw := if d.testDomain.isEmpty then [] else [d.testDomain]

/-- The sources of a deployment and of its checks. -/
def deploymentSources (c : Config) (m : Manifest) (l : Leaf) (d : DeployCf) (prePromote : List Task) :
    Sources :=
  stageSources l d ++ .concat (((Task.flatten prePromote).filterMap (Script.ofLeaf? c m)).map runSources)

/-- The sources of a deployment to Katee. -/
def kateeSources (m : Manifest) (l : Leaf) (d : DeployKatee) : Sources :=
  let space := d.spaceFor m.team
  { plain := [d.image, d.applicationName, d.velaManifest, space]
    read := ("((" ++ space ++ "-service-account-prod.key))") :: varValues l.attributes.vars }

/-- The sources of the messages of a leaf. -/
def messageSources (l : Leaf) : Sources :=
  match l.attributes.notifications with
  | some n => { plain := n.onFailure ++ n.onSuccess ++ [n.onFailureMessage, n.onSuccessMessage] }
  | none => {}

/-- The sources of what a leaf is for. -/
def bodySources (c : Config) (m : Manifest) (l : Leaf) : Sources :=
  match l.action with
  | .dockerPush p => imageSources l p
  | .deployCf d prePromote => deploymentSources c m l d prePromote
  | .deployKatee d => kateeSources m l d
  | _ => ((Script.ofLeaf? c m l).map scriptSources).getD {}

/-- The sources of a workflow. -/
def sources (c : Config) (m : Manifest) : Sources :=
  { plain := [m.basePath] }
    ++ .concat ((Task.flatten m.tasks).map fun l => bodySources c m l ++ messageSources l)

/-- What a manifest says is free of a reference once secrets have been read. -/
structure Sources.IsFree (r : String) (s : Sources) : Prop where
  plain : ∀ t ∈ s.plain, Free r t
  read : ∀ v ∈ s.read, Free r (readSecret v)
  raw : ∀ u ∈ s.raw, Free r u

section Lists

variable {r : String}

theorem isFree_append {a b : Sources} : (a ++ b).IsFree r ↔ a.IsFree r ∧ b.IsFree r := by
  constructor
  · rintro ⟨hplain, hread, hraw⟩
    obtain ⟨hplain, hplain'⟩ := List.forall_mem_append.1 hplain
    obtain ⟨hread, hread'⟩ := List.forall_mem_append.1 hread
    obtain ⟨hraw, hraw'⟩ := List.forall_mem_append.1 hraw
    exact ⟨⟨hplain, hread, hraw⟩, hplain', hread', hraw'⟩
  · rintro ⟨ha, hb⟩
    exact ⟨List.forall_mem_append.2 ⟨ha.plain, hb.plain⟩, List.forall_mem_append.2 ⟨ha.read, hb.read⟩,
      List.forall_mem_append.2 ⟨ha.raw, hb.raw⟩⟩

theorem Sources.IsFree.of_mem {parts : List Sources} (h : (Sources.concat parts).IsFree r) {a : Sources}
    (ha : a ∈ parts) : a.IsFree r where
  plain t ht := h.plain t (List.mem_flatMap.2 ⟨a, ha, ht⟩)
  read v hv := h.read v (List.mem_flatMap.2 ⟨a, ha, hv⟩)
  raw u hu := h.raw u (List.mem_flatMap.2 ⟨a, ha, hu⟩)

end Lists

/-! ## Steps -/

section Steps

variable {r : String} (hr : isReference r = true) {basePath : String} (hbase : Free r basePath)
include hr

omit hr in
theorem free_useStep (name action : String) {inputs : Settings} (h : InputsFree r inputs) :
    (useStep name action inputs).IsFree r := ⟨envFree_nil, h⟩

omit hr in
theorem free_loginStep {image username password : String}
    (h : (loginSources image username password).IsFree r) :
    (loginStep image username password).IsFree r := by
  have himage : Free r image := h.plain image List.mem_cons_self
  have hpassword : Free r (readSecret password) := h.read password List.mem_cons_self
  have huser : Free r username := h.raw username List.mem_cons_self
  refine free_useStep _ _ ?_
  rw [inputsFree_ofTexts, envFree_append]
  refine ⟨?_, by simp [huser, hpassword]⟩
  split
  · next host hhost => simpa using free_registryHost himage hhost
  · exact envFree_nil

include hbase

theorem free_shellStep (name image : String) {command : String} (hcommand : Free r command)
    {shell : String} (hshell : Free r shell) :
    (shellStep name image basePath command shell).IsFree r := by
  refine free_useStep _ _ ?_
  rw [inputsFree_ofTexts]
  simp [hshell, free_shellArgs hr hbase hcommand]

theorem free_prepareSteps (l : Leaf) : StepsFree r (prepareSteps basePath l) := by
  have hname : Free r savedName := free_of_const hr (by decide)
  have hpath : Free r (repoPath basePath restoredDir) :=
    free_repoPath hr hbase (free_of_const hr (by decide))
  rw [prepareSteps, stepsFree_append, stepsFree_cons]
  refine ⟨⟨free_useStep _ _ inputsFree_nil, stepsFree_nil⟩, ?_⟩
  refine stepsFree_ite (fun _ => ?_) fun _ => stepsFree_nil
  rw [stepsFree_cons]
  exact ⟨free_useStep _ _ (by simp [hname, hpath]), stepsFree_nil⟩

theorem free_uploadStep (stepName : String) {name : String} (hname : Free r name)
    {artifacts : List String} (h : ∀ a ∈ artifacts, Free r a) :
    (uploadStep basePath stepName name artifacts).IsFree r := by
  have hpaths : Free r ("\n".intercalate (artifacts.map (repoPath basePath))) := by
    refine free_intercalate hr (by decide) fun t ht => ?_
    obtain ⟨a, ha, rfl⟩ := List.mem_map.1 ht
    exact free_repoPath hr hbase (h a ha)
  exact free_useStep _ _ (by simp [hname, hpaths])

theorem free_saveSteps {a : Attributes}
    (h : ∀ t ∈ a.saveArtifacts ++ a.saveArtifactsOnFailure, Free r t) :
    StepsFree r (saveSteps basePath a) := by
  obtain ⟨hsaved, hfailed⟩ := List.forall_mem_append.1 h
  have hname : Free r savedName := free_of_const hr (by decide)
  have hname' : Free r savedOnFailureName := free_of_const hr (by decide)
  rw [saveSteps, stepsFree_append]
  refine ⟨stepsFree_ite (fun _ => stepsFree_nil) fun _ => ?_,
    stepsFree_ite (fun _ => stepsFree_nil) fun _ => ?_⟩
  · rw [stepsFree_cons]
    exact ⟨free_uploadStep hr hbase _ hname hsaved, stepsFree_nil⟩
  · rw [stepsFree_cons]
    -- the condition that is put on the step is no text of its environment or inputs
    have hstep := free_uploadStep hr hbase "Package artifacts (failure)" hname' hfailed
    exact ⟨⟨hstep.env, hstep.inputs⟩, stepsFree_nil⟩

theorem free_scriptStep {s : Script} (h : (runSources s).IsFree r) : (scriptStep basePath s).IsFree r := by
  have hcommand : Free r (Script.command s.run.script) :=
    free_command hr (h.plain _ List.mem_cons_self)
  have henv : EnvFree r (secretEnv s.attributes.vars) := envFree_secretEnv h.read
  refine ⟨henv, ?_⟩
  simp only [scriptStep]
  split
  · exact inputsFree_nil
  · exact (free_shellStep hr hbase _ _ hcommand (free_of_const hr (by decide))).inputs

theorem free_scriptSteps {s : Script} (h : (scriptSources s).IsFree r) :
    StepsFree r (scriptSteps basePath s) := by
  simp only [scriptSources, isFree_append] at h
  obtain ⟨⟨hrun, hlogin⟩, hsave⟩ := h
  simp only [scriptSteps, stepsFree_append, stepsFree_cons]
  refine ⟨⟨⟨free_prepareSteps hr hbase s.leaf, ?login⟩, free_scriptStep hr hbase hrun, stepsFree_nil⟩,
    free_saveSteps hr hbase hsave.plain⟩
  case login =>
    refine stepsFree_ite (fun _ => stepsFree_nil) fun hprivileged => ?_
    refine stepsFree_ite (fun _ => stepsFree_nil) fun hblank => ?_
    rw [if_neg (by simp_all)] at hlogin
    rw [stepsFree_cons]
    exact ⟨free_loginStep hlogin, stepsFree_nil⟩

omit hbase in
theorem free_buildArgs {vars : Vars} (h : ∀ name ∈ vars.names, Free r name) :
    InputsFree r (ImageBuild.buildArgs vars) := by
  unfold ImageBuild.buildArgs
  split
  · exact inputsFree_nil
  · rw [inputsFree_ofTexts, envFree_cons]
    refine ⟨free_intercalate hr (by decide) fun t ht => ?_, envFree_nil⟩
    obtain ⟨name, hname, rfl⟩ := List.mem_map.1 ht
    have hvalue : Free r (expression ("env." ++ name)) :=
      free_expression hr (free_append_left hr (by decide) (h name hname))
    exact free_append_bar hr (by decide) (h name hname) hvalue

theorem free_imageBuild {l : Leaf} {p : DockerPush} (h : (imageSources l p).IsFree r) :
    StepsFree r (ImageBuild.steps basePath l p) := by
  obtain ⟨hlogin, hbuild⟩ := isFree_append.1 h
  obtain ⟨hpaths, hnames⟩ := List.forall_mem_append.1 hbuild.plain
  obtain ⟨hpaths, hplatforms⟩ := List.forall_mem_append.1 hpaths
  have himage : Free r p.image := hlogin.plain _ List.mem_cons_self
  have hplace : InputsFree r (.ofTexts [("context", repoPath basePath p.buildPath),
      ("file", repoPath basePath p.dockerfilePath)]) := by
    have hcontext := free_repoPath hr hbase (hpaths _ List.mem_cons_self)
    have hfile := free_repoPath hr hbase (hpaths _ (List.mem_cons_of_mem _ List.mem_cons_self))
    simp [hcontext, hfile]
  -- a colon is a bar, so that an image can be followed by any free tag
  have htag {tag : String} (ht : Free r tag) : Free r (p.image ++ ":" ++ tag) :=
    free_append_bar hr (by decide) himage ht
  have hcandidate : Free r (p.image ++ ":" ++ gitRevision) := htag (free_of_const hr (by decide))
  have htags : Free r (ImageBuild.tags p) := by
    have hrevision : Free r (if p.tag = "gitref" then gitRevision else buildVersion) := by
      split
      · exact free_of_const hr (by decide)
      · exact free_of_const hr (by decide)
    refine free_append_right hr ?_ (by decide)
    refine free_append_bar hr (by decide) ?_ hrevision
    exact free_append_bar hr (by decide) himage himage
  have hlayers : Free r ("type=registry,ref=" ++ p.image ++ ":buildcache") :=
    free_append_right hr (free_append_left hr (by decide) himage) (by decide)
  have hcache : Free r ("type=registry,ref=" ++ p.image ++ ":buildcache" ++ ",mode=max") :=
    free_append_right hr hlayers (by decide)
  have hargs := free_buildArgs hr hnames
  simp only [ImageBuild.steps, stepsFree_append, stepsFree_cons]
  refine ⟨free_prepareSteps hr hbase l, free_useStep _ _ inputsFree_nil, free_loginStep hlogin,
    free_useStep _ _ ?build, free_useStep _ _ ?scan, free_useStep _ _ ?push, free_useStep _ _ ?dispatch,
    stepsFree_nil⟩
  case build => simp [hplace, hcandidate, hargs]
  case scan =>
    have htimeout : Free r (toString p.scanTimeout.toNat ++ "m") :=
      free_append_right hr (free_toString hr _) (by decide)
    simp only [inputsFree_text, inputsFree_flag]
    exact ⟨hcandidate, free_of_const hr (by decide), free_of_const hr (by decide), htimeout, inputsFree_nil⟩
  case push =>
    have hjoined : Free r (",".intercalate p.platforms) := free_intercalate hr (by decide) hplatforms
    rw [inputsFree_append, inputsFree_append, inputsFree_append]
    refine ⟨⟨⟨hplace, by simp [hjoined, htags]⟩, ?_⟩, hargs⟩
    split
    · simp [hlayers, hcache]
    · exact inputsFree_nil
  case dispatch =>
    have hevent : Free r (ImageBuild.event p.image) := free_append_left hr (by decide) himage
    have htoken : Free r (expression "secrets.EE_REPO_ACCESS_TOKEN") := free_of_const hr (by decide)
    simp [hevent, htoken]

end Steps

/-! ## Deployments -/

section Deployments

variable {r : String} (hr : isReference r = true) {c : Config} {m : Manifest} (hm : Free r m.basePath)
  {l : Leaf}
include hr hm

theorem free_targetEnv {d : DeployCf} (h : (stageSources l d).IsFree r) :
    EnvFree r (CloudFoundry.targetEnv m l d) := by
  obtain ⟨hplain, -⟩ := List.forall_mem_append.1 h.plain
  obtain ⟨hread, -⟩ := List.forall_mem_append.1 h.read
  simp only [List.forall_mem_cons] at hplain hread
  obtain ⟨hmanifest, -, htimeout, -⟩ := hplain
  obtain ⟨hapi, horg, hspace, husername, hpassword, -⟩ := hread
  have hversion : Free r (if m.featureToggles.contains "cf-v7" then "cf7" else "cf6") := by
    split
    · exact free_of_const hr (by decide)
    · exact free_of_const hr (by decide)
  simp only [CloudFoundry.targetEnv, envFree_cons]
  exact ⟨hapi, horg, hspace, husername, hpassword, hversion, free_repoPath hr hm hmanifest, htimeout,
    envFree_nil⟩

theorem free_applicationEnv {d : DeployCf} (h : (stageSources l d).IsFree r) :
    EnvFree r (CloudFoundry.applicationEnv m d) := by
  obtain ⟨hplain, hfiles⟩ := List.forall_mem_append.1 h.plain
  simp only [List.forall_mem_cons] at hplain
  obtain ⟨-, hartifact, -⟩ := hplain
  rw [CloudFoundry.applicationEnv, envFree_append, envFree_cons]
  refine ⟨⟨free_repoPath hr hm hartifact, envFree_nil⟩, ?_⟩
  split
  · exact envFree_nil
  · rw [envFree_cons]
    refine ⟨free_intercalate hr (by decide) fun t ht => ?_, envFree_nil⟩
    obtain ⟨file, hfile, rfl⟩ := List.mem_map.1 ht
    exact free_repoPath hr hm (hfiles file hfile)

theorem free_stageStep {d : DeployCf} (h : (stageSources l d).IsFree r) (stage : CloudFoundry.Stage) :
    (CloudFoundry.stageStep c m l d stage).IsFree r := by
  have htarget := free_targetEnv hr hm h
  have hvars : EnvFree r (secretEnv l.attributes.vars) :=
    envFree_secretEnv (List.forall_mem_append.1 h.read).2
  have henv : EnvFree r (if stage = .push then
      putAll (putAll (CloudFoundry.targetEnv m l d) (CloudFoundry.applicationEnv m d))
        (secretEnv l.attributes.vars)
      else CloudFoundry.targetEnv m l d) := by
    split
    · exact (htarget.putAll (free_applicationEnv hr hm h)).putAll hvars
    · exact htarget
  refine ⟨?env, ?inputs⟩
  case env =>
    -- the domain for tests goes on top, and to every stage but the last
    show EnvFree r (CloudFoundry.stageEnv m l d stage)
    by_cases hblank : (d.testDomain.isEmpty || decide (stage = .cleanup)) = true
    · rw [CloudFoundry.stageEnv, if_pos hblank]
      exact henv
    · rw [CloudFoundry.stageEnv, if_neg hblank]
      have hraw : d.testDomain ∈ (stageSources l d).raw := by
        simp only [Bool.or_eq_true, not_or] at hblank
        simp [stageSources, hblank.1]
      exact henv.put (h.raw _ hraw)
  case inputs =>
    have hcommand : Free r stage.command := by
      cases stage <;> exact free_of_const hr (by decide)
    show InputsFree r (.ofTexts [("args", stage.command)])
    simp [hcommand]

theorem free_deploymentSteps {d : DeployCf} {prePromote : List Task} {checks : List Step}
    (hchecks : List.Forall₂ (fun check step => ∃ s, Script.ofLeaf? c m check = some s
        ∧ step = { scriptStep m.basePath s with name := some check.name })
      (Task.flatten prePromote) checks)
    (h : (deploymentSources c m l d prePromote).IsFree r) :
    StepsFree r (deploymentSteps c m l d checks) := by
  obtain ⟨hstages, hscripts⟩ := isFree_append.1 h
  have hstage := free_stageStep hr hm (c := c) hstages
  have hrun : StepsFree r checks := by
    intro step hstep
    obtain ⟨check, hcheck, s, hs, rfl⟩ := exists_of_mem_right hchecks hstep
    have hmem : runSources s ∈ ((Task.flatten prePromote).filterMap (Script.ofLeaf? c m)).map runSources :=
      List.mem_map_of_mem (List.mem_filterMap.2 ⟨check, hcheck, hs⟩)
    have hscript := free_scriptStep hr hm (hscripts.of_mem hmem)
    exact ⟨hscript.env, hscript.inputs⟩
  simp only [deploymentSteps, stepsFree_append, stepsFree_cons]
  exact ⟨⟨⟨free_prepareSteps hr hm l, hstage _, stepsFree_nil⟩, hrun⟩,
    hstage _, hstage _, hstage _, stepsFree_nil⟩

omit hr hm in
theorem free_teamFor {d : DeployKatee} {team : String} (h : Free r (d.spaceFor team)) :
    Free r (d.teamFor team) := by
  -- the team is what the space is called behind the prefix, or the space itself
  rw [DeployKatee.teamFor]
  cases hdrop : Text.dropStart? (d.spaceFor team) "katee-" with
  | none => exact h
  | some rest =>
      obtain ⟨chars, hchars, rfl⟩ := Option.map_eq_some_iff.1 hdrop
      refine h.of_infix ?_
      rw [Option.getD_some, String.toList_ofList, Text.afterStart?_eq_some.1 hchars]
      exact (List.suffix_append _ chars).isInfix

theorem free_kateeSteps {d : DeployKatee} (h : (kateeSources m l d).IsFree r) :
    StepsFree r (kateeSteps c m l d) := by
  have hplain := h.plain
  simp only [kateeSources, List.forall_mem_cons] at hplain
  obtain ⟨himage, hname, hfile, hspace, -⟩ := hplain
  obtain ⟨hcredentials, hread⟩ := List.forall_mem_cons.1 h.read
  have hvars : EnvFree r (secretEnv l.attributes.vars) := envFree_secretEnv hread
  have hteam := free_teamFor hspace
  have hshell : Free r "/bin/sh" := free_of_const hr (by decide)
  have htag : Free r (if d.tag = "version" then buildVersion else gitRevision) := by
    split
    · exact free_of_const hr (by decide)
    · exact free_of_const hr (by decide)
  have hstatus : Free r ("/exe deployment-status " ++ d.spaceFor m.team ++ " " ++ d.applicationName
      ++ " $PUBLISHED_VERSION") := by
    refine free_append_right hr ?_ (by decide)
    exact free_append_bar hr (by decide) (free_append_left hr (by decide) hspace) hname
  have hup : Free r "/exe vela up -f $KATEE_APPFILE --publish-version $DOCKER_TAG" :=
    free_of_const hr (by decide)
  have hdeploy := free_shellStep hr hm "Deploy to Katee" (c.registryImage "ee-katee-vela-cli:latest")
    hup hshell
  have hwait := free_shellStep hr hm "Check Deployment Status"
    (c.registryImage "ee-katee-vela-cli:latest") hstatus hshell
  simp only [kateeSteps, stepsFree_append, stepsFree_cons]
  refine ⟨free_prepareSteps hr hm l, ⟨?deploy, hdeploy.inputs⟩, ⟨?wait, hwait.inputs⟩, stepsFree_nil⟩
  case deploy =>
    refine EnvFree.putAll ?_ hvars
    simp only [envFree_cons]
    exact ⟨free_of_const hr (by decide), free_of_const hr (by decide), htag,
      free_append_bar hr (by decide) himage htag, hname, hfile, hcredentials, hteam, envFree_nil⟩
  case wait =>
    simp only [envFree_cons]
    exact ⟨hcredentials, hteam, htag, free_toString hr _, free_toString hr _, envFree_nil⟩

theorem free_updateSteps (u : Update) : StepsFree r (updateSteps c m l u) := by
  have hcommand : Free r "update-actions-workflow" := free_of_const hr (by decide)
  have hshell : Free r "/bin/bash" := free_of_const hr (by decide)
  have hsync := free_shellStep hr hm "Sync workflow with halfpipe manifest"
    (c.registryImage "halfpipe-auto-update") hcommand hshell
  have hfile : Free r (repoPath m.basePath manifestFile) :=
    free_repoPath hr hm (free_of_const hr (by decide))
  simp only [updateSteps, stepsFree_append, stepsFree_cons]
  refine ⟨⟨free_prepareSteps hr hm l, ⟨by simp [hfile], hsync.inputs⟩, stepsFree_nil⟩, ?_⟩
  refine stepsFree_ite (fun _ => ?_) fun _ => stepsFree_nil
  rw [stepsFree_cons]
  exact ⟨⟨envFree_nil, inputsFree_nil⟩, stepsFree_nil⟩

end Deployments

/-! ## Jobs -/

section Jobs

variable {r : String} (hr : isReference r = true) {c : Config} {m : Manifest} {l : Leaf}

/-- A leaf that runs as a script has the sources of its script. -/
theorem bodySources_of_script {s : Script} (hs : Script.ofLeaf? c m l = some s) :
    bodySources c m l = scriptSources s := by
  have hscript := Script.isScript_of_ofLeaf? hs
  unfold bodySources
  cases haction : l.action <;> simp_all [Action.isScript]

include hr

theorem free_messageSteps (h : (messageSources l).IsFree r) : StepsFree r (messageSteps l) := by
  unfold messageSteps
  unfold messageSources at h
  cases hn : l.attributes.notifications with
  | none => exact stepsFree_nil
  | some n =>
      rw [hn] at h
      have hplain := h.plain
      dsimp only at hplain
      obtain ⟨hchannels, htexts⟩ := List.forall_mem_append.1 hplain
      obtain ⟨hfailure, hsuccess⟩ := List.forall_mem_append.1 hchannels
      have htext {text fallback : String} (ht : Free r text) (hf : Free r fallback) :
          Free r (orElse text fallback) := by
        unfold orElse
        split
        · exact hf
        · exact ht
      have hstep (outcome : String) {text channel : String} (ht : Free r text) (hc : Free r channel) :
          (messageStep text outcome channel).IsFree r := by
        have hstatus : Free r (expression "job.status") := free_of_const hr (by decide)
        have htoken : Free r (expression "secrets.EE_SLACK_TOKEN") := free_of_const hr (by decide)
        exact free_useStep _ _ (by simp [hstatus, htoken, ht, hc])
      have hfailed : Free r (n.failureMessageOr failureMessage) :=
        htext (htexts _ List.mem_cons_self) (free_of_const hr (by decide +kernel))
      have hsucceeded : Free r (n.successMessageOr successMessage) :=
        htext (htexts _ (List.mem_cons_of_mem _ List.mem_cons_self))
          (free_of_const hr (by decide +kernel))
      refine stepsFree_append.2 ⟨fun s hs => ?_, fun s hs => ?_⟩
      · obtain ⟨channel, hchannel, rfl⟩ := List.mem_map.1 hs
        have hmessage := hstep "failure" hfailed (hfailure channel hchannel)
        exact ⟨hmessage.env, hmessage.inputs⟩
      · obtain ⟨channel, hchannel, rfl⟩ := List.mem_map.1 hs
        exact hstep _ hsucceeded (hsuccess channel hchannel)

theorem free_body (hm : Free r m.basePath) {steps : List Step} (hbody : Body c m l steps)
    (h : (bodySources c m l).IsFree r) : StepsFree r steps := by
  cases hbody with
  | script s hs =>
      rw [bodySources_of_script hs] at h
      exact free_scriptSteps hr hm h
  | imageBuild p haction =>
      rw [bodySources, haction] at h
      exact free_imageBuild hr hm h
  | deployment d prePromote checks haction hchecks =>
      rw [bodySources, haction] at h
      exact free_deploymentSteps hr hm hchecks h
  | katee d haction =>
      rw [bodySources, haction] at h
      exact free_kateeSteps hr hm h
  | update u haction => exact free_updateSteps hr hm u

omit hr in
theorem free_jobEnv (h : (bodySources c m l).IsFree r) : EnvFree r (jobEnv l) := by
  unfold jobEnv
  cases haction : l.action with
  | dockerPush p =>
      rw [bodySources, haction] at h
      exact envFree_secretEnv (List.forall_mem_append.1 h.read).2
  | _ => exact envFree_nil

/-- The texts of a job are free if what the manifest says is. -/
theorem free_job (hm : Free r m.basePath) {id : String} {needs : List String} {j : Job}
    (hj : job c m id l needs = .ok j) (h : (bodySources c m l ++ messageSources l).IsFree r) :
    ∀ t ∈ j.texts, Free r t := by
  obtain ⟨hbody, hmessages⟩ := isFree_append.1 h
  obtain ⟨steps, hsteps, hj⟩ := bind_eq_ok.1 hj
  obtain rfl := Except.ok.inj hj
  have hall : StepsFree r (steps ++ messageSteps l) :=
    stepsFree_append.2 ⟨free_body hr hm (Body.of_eq_ok hsteps) hbody, free_messageSteps hr hmessages⟩
  intro t ht
  rcases List.mem_append.1 ht with ht | ht
  · obtain ⟨e, he, rfl⟩ := List.mem_map.1 ht
    exact free_jobEnv hbody e he
  · obtain ⟨s, hs, ht⟩ := List.mem_flatMap.1 ht
    exact (hall s hs).texts t ht

end Jobs

end PipelineCompiler.Actions
