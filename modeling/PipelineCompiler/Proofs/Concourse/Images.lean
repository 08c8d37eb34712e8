import PipelineCompiler.Proofs.Concourse.Inputs
import PipelineCompiler.Proofs.Image
import PipelineCompiler.Proofs.Providers

/-!
# Images of a pipeline

A pipeline names images where it declares types of resources, where an image starts it, and where it runs
containers. Those of the installation and of scripts are split into a repository and a tag; the one that
starts the pipeline is handed on as it stands, and with its tag if it has one. `images_of_accepted` says that
this and the names with more than one colon are all that leaves a tag in a repository.
-/

namespace PipelineCompiler

/-- The text under a name, if one is set. -/
def Settings.text? (settings : Settings) (name : String) : Option String :=
  (named? settings name).bind Setting.text?

theorem Settings.text?_ofTexts (entries : List (String × String)) (name : String) :
    (Settings.ofTexts entries).text? name = named? entries name := by
  induction entries with
  | nil => rfl
  | cons e entries ih =>
      obtain ⟨n, text⟩ := e
      rw [named?_cons, ← ih, text?, Settings.ofTexts, List.map_cons, named?_cons]
      split
      · rfl
      · rfl

theorem Settings.text?_eq_none {settings : Settings} {name : String} (h : name ∉ settings.map Prod.fst) :
    settings.text? name = none := by
  rw [text?, named?_eq_none.2 h]
  rfl

namespace Concourse

/-! ## Images that are named -/

/-- The containers that a job runs. -/
def Job.containers (j : Job) : List Container :=
  (Step.collect Step.task? (j.plan ++ j.hooks)).map TaskStep.container

/-- Where types, resources and containers come from. -/
def Pipeline.sources (p : Pipeline) : List Settings :=
  p.types.map ResourceType.source ++ p.resources.map Resource.source
    ++ p.jobs.flatMap fun j => j.containers.map Container.image

/-- The repositories that a pipeline names. -/
def Pipeline.repositories (p : Pipeline) : List String := p.sources.filterMap (·.text? "repository")

/-- The source is the image: its repository is what is in front of the tag, and the tag stands beside it. -/
def NamesImage (source : Settings) (image : String) : Prop :=
  ∃ repository tag, source.text? "repository" = some repository ∧ source.text? "tag" = some tag
    ∧ if Image.Tagged image then
        image = repository ++ ":" ++ tag ∧ ':' ∉ tag.toList ∧ '/' ∉ tag.toList
      else repository = image ∧ tag = "latest"

/-- The images that the author gave the scripts that run for a leaf. -/
def scriptImages (l : Leaf) : List String :=
  (Script.runners l).filterMap fun runner =>
    match runner.action with
    | .run r => some r.docker.image
    | _ => none

/-- The images that start the pipeline. -/
def triggerImages (m : Manifest) : List String :=
  m.triggers.filterMap fun
    | .docker d => some d.image
    | _ => none

/-- The source names no repository that has a tag. -/
def Untagged (source : Settings) : Prop :=
  ∀ repository, source.text? "repository" = some repository → ¬Image.Tagged repository

theorem mem_scriptImages {l : Leaf} {image : String} :
    image ∈ scriptImages l ↔ ∃ runner ∈ Script.runners l, ∃ r, runner.action = .run r
      ∧ r.docker.image = image := by
  rw [scriptImages, List.mem_filterMap]
  refine exists_congr fun runner => and_congr_right fun _ => ?_
  cases runner.action <;> simp

theorem mem_triggerImages {m : Manifest} {image : String} :
    image ∈ triggerImages m ↔ ∃ d, Trigger.docker d ∈ m.triggers ∧ d.image = image := by
  rw [triggerImages, List.mem_filterMap]
  constructor
  · rintro ⟨t, ht, himage⟩
    cases t with
    | docker d => exact ⟨d, ht, Option.some.inj himage⟩
    | _ => exact absurd himage nofun
  · rintro ⟨d, hd, rfl⟩
    exact ⟨.docker d, hd, rfl⟩

theorem untagged_of_not_mem {source : Settings} (h : "repository" ∉ source.map Prod.fst) :
    Untagged source := by
  intro repository hrepository
  rw [Settings.text?_eq_none h] at hrepository
  exact absurd hrepository nofun

theorem untagged_of_eq {source : Settings} (repository : String)
    (h : source.text? "repository" = some repository) (htag : ¬Image.Tagged repository) :
    Untagged source := by
  intro other hother
  obtain rfl := Option.some.inj (h.symm.trans hother)
  exact htag

theorem repository_imageSource (d : Docker) :
    (imageSource d).text? "repository" = some (Image.split d.image).1 := by
  rw [imageSource, Settings.text?_ofTexts]
  rfl

theorem tag_imageSource (d : Docker) :
    (imageSource d).text? "tag" = some (Image.split d.image).2 := by
  rw [imageSource, Settings.text?_ofTexts]
  rfl

/-- An image of the author is split into its repository and its tag. -/
theorem namesImage_imageSource (d : Docker) : NamesImage (imageSource d) d.image := by
  refine ⟨_, _, repository_imageSource d, tag_imageSource d, ?_⟩
  split
  · next htagged =>
      obtain ⟨hwhole, hplain⟩ := Image.split_of_tagged htagged
      exact ⟨hwhole.symm, hplain⟩
  · next htagged =>
      rw [Image.split_of_not_tagged htagged]
      exact ⟨rfl, rfl⟩

/-! ## Images of the installation -/

section Installation

variable {c : Config} (hslash : c.dockerRegistry.toList.getLast? = some '/')
include hslash

/-- The name of an image of the installation is what follows its registry. -/
theorem splitName_registryImage {name : String} (hname : '/' ∉ name.toList) :
    Image.splitName (c.registryImage name).toList = (c.dockerRegistry.toList, name.toList) := by
  rw [Config.registryImage, String.toList_append]
  exact Image.splitName_eq_iff.2 ⟨rfl, hname, .inr hslash⟩

theorem untagged_installationSource {name : String} (hname : '/' ∉ name.toList) (hcolon : ':' ∉ name.toList)
    (tag : String) : Untagged (installationSource c name tag) := by
  refine untagged_of_eq (c.registryImage name) ?_ ?_
  · rw [installationSource, Settings.text?_ofTexts]
    rfl
  · rwa [Image.tagged_iff_mem (splitName_registryImage hslash hname)]

/-- A script has the image that the author gave it, or one of the installation. -/
theorem not_tagged_script {m : Manifest} {l : Leaf} {s : Script} (hs : Script.ofLeaf? c m l = some s)
    (himage : ∀ r, l.action = .run r → ¬Image.Tagged (Image.split r.docker.image).1) :
    ¬Image.Tagged (Image.split s.run.docker.image).1 := by
  have hown {name : String} (hname : '/' ∉ name.toList) (hcolon : name.toList.count ':' ≤ 1) :
      ¬Image.Tagged (Image.split (c.registryImage name)).1 := by
    rw [Image.tagged_split_iff_count (splitName_registryImage hslash hname)]
    omega
  obtain ⟨attributes, action⟩ := l
  cases action with
  | run r =>
      obtain rfl := Option.some.inj hs
      exact himage r rfl
  | dockerCompose _ | consumerTest _ | deployMlZip _ | deployMlModules _ =>
      obtain rfl := Option.some.inj hs
      exact hown (by decide) (by decide)
  | dockerPush _ | deployCf _ _ | deployKatee _ | update _ => exact absurd hs nofun

end Installation

/-! ## Declarations -/

namespace ResourceSet

/-- The types and resources of the set come from sources of some form. -/
structure ComesFrom (P : Settings → Prop) (s : ResourceSet) : Prop where
  types : ∀ t ∈ s.types, P t.source
  resources : ∀ r ∈ s.resources, P r.source

section ComesFrom

variable {P : Settings → Prop} {s : ResourceSet} {t : ResourceType} {r : Resource}

theorem ComesFrom.addType (h : s.ComesFrom P) (ht : P t.source) : (s.addType t).ComesFrom P := by
  rw [ResourceSet.addType]
  split
  · exact h
  · exact ⟨List.forall_mem_append.2 ⟨h.types, List.forall_mem_singleton.2 ht⟩, h.resources⟩

theorem ComesFrom.add (h : s.ComesFrom P) (hr : P r.source) : (s.add r).2.ComesFrom P := by
  rw [add_eq]
  exact ⟨h.types, List.forall_mem_append.2 ⟨h.resources, List.forall_mem_singleton.2 hr⟩⟩

theorem ComesFrom.addTrigger (h : s.ComesFrom P) (i : Nat) (hr : P r.source) :
    (s.addTrigger i r).ComesFrom P :=
  ⟨(h.add hr).types, (h.add hr).resources⟩

theorem ComesFrom.addTypeIf (h : s.ComesFrom P) (needed : Bool) (ht : P t.source) :
    (s.addTypeIf needed t).ComesFrom P := by
  rw [ResourceSet.addTypeIf]
  split
  · exact h.addType ht
  · exact h

theorem ComesFrom.addIf (h : s.ComesFrom P) (needed : Bool) (hr : P r.source) :
    (s.addIf needed r).ComesFrom P := by
  rw [ResourceSet.addIf]
  split
  · exact h.add hr
  · exact h

end ComesFrom

/-! ### Repositories of declarations -/

theorem untagged_gitResource (g : GitTrigger) : Untagged (gitResource g).source := by
  refine untagged_of_not_mem ?_
  simp only [gitResource, Settings.textUnlessBlank, List.map_append, List.mem_append, not_or]
  refine ⟨⟨⟨⟨⟨by simp, ?_⟩, ?_⟩, ?_⟩, ?_⟩, by simp⟩
  all_goals split <;> simp

/-- The image that starts a pipeline is the repository of its resource, which has no tag. -/
theorem text?_dockerResource (d : DockerTrigger) :
    (dockerResource d).source.text? "repository" = some d.image
      ∧ (dockerResource d).source.text? "tag" = none := by
  refine ⟨rfl, Settings.text?_eq_none ?_⟩
  simp only [dockerResource, Settings.textUnlessBlank, List.map_append, List.mem_append, not_or]
  refine ⟨⟨by simp, ?_⟩, ?_⟩
  all_goals split <;> simp

section Declared

variable {c : Config} {m : Manifest} {s : ResourceSet} (hs : s.ComesFrom Untagged)
include hs

/-- Of the triggers that start the pipeline by themselves, only images name a repository. -/
theorem untagged_addOwnTrigger {e : Trigger × Nat}
    (hdocker : ∀ d, e.1 = .docker d → ¬Image.Tagged d.image) : (s.addOwnTrigger e).ComesFrom Untagged := by
  obtain ⟨t, i⟩ := e
  cases t with
  | git g => exact hs.addTrigger i (untagged_gitResource g)
  | timer t =>
      have htype : Untagged cronResourceType.source :=
        untagged_of_eq "cftoolsmiths/cron-resource" rfl (by decide)
      exact (hs.addType htype).addTrigger i (untagged_of_not_mem (by simp [cronResource]))
  | docker d =>
      exact hs.addTrigger i (untagged_of_eq d.image (text?_dockerResource d).1 (hdocker d rfl))
  | pipeline p => exact hs

variable (hslash : c.dockerRegistry.toList.getLast? = some '/')
include hslash

theorem untagged_addPipelineTrigger (e : Trigger × Nat) :
    (s.addPipelineTrigger c e).ComesFrom Untagged := by
  obtain ⟨t, i⟩ := e
  cases t with
  | pipeline p =>
      have htype : Untagged (pipelineWatchResourceType c).source :=
        untagged_installationSource hslash (by decide) (by decide) "latest"
      have hresource : Untagged (pipelineWatchResource p).source :=
        untagged_of_not_mem (by simp [pipelineWatchResource, Settings.ofTexts])
      exact (hs.addType htype).addTrigger i hresource
  | _ => exact hs

theorem untagged_addLeaf (toggles : List String) (l : Leaf) :
    (s.addLeaf c toggles l).ComesFrom Untagged := by
  rw [addLeaf]
  split
  · rw [addDeploy]
    split
    · exact hs
    · refine (hs.addType (t := deployResourceType c toggles) ?_).add
        (untagged_of_not_mem (by simp [deployResource, deploySource, Settings.ofTexts]))
      rw [deployResourceType]
      split
      · exact untagged_installationSource hslash (by decide) (by decide) "stable"
      · exact untagged_installationSource hslash (by decide) (by decide) "stable"
  · exact hs

end Declared

/-- Nothing that a manifest declares comes from a repository with a tag, unless an image that starts the
pipeline does. -/
theorem untagged_ofManifest {c : Config} {m : Manifest}
    (hslash : c.dockerRegistry.toList.getLast? = some '/')
    (htriggers : ∀ image ∈ triggerImages m, ¬Image.Tagged image) :
    (ofManifest c m).ComesFrom Untagged := by
  have hafterTriggers : (afterTriggers m).ComesFrom Untagged := by
    refine List.foldlRecOn _ _ ⟨by simp, by simp⟩ fun s hs e he => untagged_addOwnTrigger hs fun d hd => ?_
    exact htriggers _ (mem_triggerImages.2 ⟨d, hd ▸ List.fst_mem_of_mem_zipIdx he, rfl⟩)
  have hslackType : Untagged slackResourceType.source :=
    untagged_of_eq "cfcommunity/slack-notification-resource" rfl (by decide)
  have hslack : Untagged (slackResource c).source :=
    untagged_of_not_mem (by simp [slackResource, Settings.ofTexts])
  have hstoreType : Untagged (storeResourceType c).source :=
    untagged_installationSource hslash (by decide) (by decide) "stable"
  have hstore (name : String) : Untagged (storeResource c m name).source :=
    untagged_of_not_mem (by simp [storeResource, Settings.ofTexts])
  have hversion : Untagged (versionResource c m).source :=
    untagged_of_not_mem (by simp [versionResource, Settings.ofTexts])
  have hafterVersion : (afterVersion c m).ComesFrom Untagged :=
    (((((hafterTriggers.addTypeIf _ hslackType).addIf _ hslack).addTypeIf _ hstoreType).addIf _
      (hstore _)).addIf _ (hstore _)).addIf _ hversion
  have hafterTargets : (afterTargets c m).ComesFrom Untagged :=
    List.foldlRecOn _ _ hafterVersion fun s hs l _ => untagged_addLeaf hs hslash m.featureToggles l
  rw [ofManifest_eq]
  exact List.foldlRecOn _ _ hafterTargets fun s hs e _ => untagged_addPipelineTrigger hs hslash e

/-- An image that starts the pipeline is a repository as it stands, with no tag beside it. -/
theorem exists_triggerSource (c : Config) {m : Manifest} (h : m.Renderable) {image : String}
    (himage : image ∈ triggerImages m) : ∃ r ∈ (ofManifest c m).resources,
      r.source.text? "repository" = some image ∧ r.source.text? "tag" = none := by
  obtain ⟨d, hd, rfl⟩ := mem_triggerImages.1 himage
  obtain ⟨i, hi⟩ := List.mem_iff_getElem?.1 hd
  obtain ⟨name, -, hr⟩ := (ofManifest_provides (c := c) h).triggers _ i hi
  exact ⟨_, hr, text?_dockerResource d⟩

end ResourceSet

/-! ## Containers -/

section Work

variable {c : Config} {m : Manifest} {resources : ResourceSet} {l : Leaf} {steps : List Step}
  {ensure : Option Step} (hslash : c.dockerRegistry.toList.getLast? = some '/')
include hslash

/-- The container of a script that runs for a leaf. -/
theorem untagged_script {runner : Leaf} {s : Script} (hrunner : runner ∈ Script.runners l)
    (hs : Script.ofLeaf? c m runner = some s)
    (himages : ∀ image ∈ scriptImages l, ¬Image.Tagged (Image.split image).1) :
    ∀ t ∈ Step.collect Step.task? (ScriptStep.steps m s), Untagged t.container.image := by
  obtain ⟨t, htask, hcontainer⟩ := exists_scriptTask m s
  rw [htask]
  refine List.forall_mem_singleton.2 ?_
  rw [hcontainer]
  refine untagged_of_eq _ (repository_imageSource s.run.docker) (not_tagged_script hslash hs fun r hr => ?_)
  exact himages _ (mem_scriptImages.2 ⟨runner, hrunner, r, hr, rfl⟩)

omit hslash in
theorem untagged_publicImage {image : String} (h : ¬Image.Tagged (Image.split image).1) :
    Untagged (publicImage image) :=
  untagged_of_eq _ (repository_imageSource { image }) h

/-- An image is built with tools of the installation and of others, none of which has more than one tag. -/
theorem untagged_imageBuild (p : DockerPush) :
    ∀ t ∈ Step.collect Step.task? (ImageBuild.steps c m l p), Untagged t.container.image := by
  have halpine : Untagged (publicImage "alpine") := untagged_publicImage (by decide)
  have htrivy : Untagged (publicImage "aquasec/trivy") := untagged_publicImage (by decide)
  have htool : Untagged (buildTool c) :=
    untagged_installationSource hslash (by decide) (by decide) "latest"
  intro t ht
  obtain ⟨step, hstep, ht⟩ := Step.mem_collect.1 ht
  obtain ⟨t', ht', rfl⟩ := List.mem_map.1 hstep
  rw [Step.collect_task?_forLeaf, List.mem_singleton] at ht
  subst ht
  rcases List.mem_append.1 ht' with ht | ht
  · obtain ⟨-, ht⟩ := List.mem_ite_nil_right.1 ht
    exact List.mem_singleton.1 ht ▸ halpine
  · simp only [List.mem_cons, List.not_mem_nil, or_false] at ht
    rcases ht with rfl | rfl | rfl | rfl
    · exact halpine
    · exact htool
    · exact htrivy
    · exact htool

theorem untagged_update (u : Update) :
    ∀ t ∈ Step.collect Step.task? (updateSteps c m l u), Untagged t.container.image := by
  have himage : Untagged (installationSource c "halfpipe-auto-update" "latest") :=
    untagged_installationSource hslash (by decide) (by decide) "latest"
  obtain ⟨tagRepo⟩ := u
  cases tagRepo with
  | false => exact List.forall_mem_singleton.2 himage
  | true => exact List.forall_mem_singleton.2 himage

/-- The containers that work for a leaf have no tag in their repositories but what a script's image leaves
there. -/
theorem untagged_work (h : Work c m resources l steps ensure)
    (himages : ∀ image ∈ scriptImages l, ¬Image.Tagged (Image.split image).1) :
    ∀ t ∈ Step.collect Step.task? steps, Untagged t.container.image := by
  cases h with
  | script s hs =>
      refine untagged_script hslash ?_ hs himages
      rw [Script.runners_of_isScript (Script.isScript_of_ofLeaf? hs)]
      exact List.mem_singleton_self l
  | imageBuild p haction => exact untagged_imageBuild hslash p
  | rolling d prePromote r haction hr hrolling => exact List.forall_mem_nil _
  | stages d prePromote r scripts haction hr hrolling hscripts =>
      intro t ht
      rw [tasks_stageSteps, Step.mem_collect_flatMap] at ht
      obtain ⟨s, hs, ht⟩ := ht
      obtain ⟨check, hcheck, hscript⟩ := exists_of_mem_right hscripts hs
      rw [← Script.runners_deployCf haction] at hcheck
      exact untagged_script hslash hcheck hscript himages t ht
  | katee d haction =>
      exact List.forall_mem_singleton.2
        (untagged_installationSource hslash (by decide) (by decide) "latest")
  | update u haction => exact untagged_update hslash u

/-- The containers of a job, which are those of its plan. -/
theorem untagged_containers {passed : List String} {j : Job} (h : Consists c m resources l passed j steps)
    (himages : ∀ image ∈ scriptImages l, ¬Image.Tagged (Image.split image).1) :
    ∀ k ∈ j.containers, Untagged k.image := by
  have hrestore : ∀ t ∈ Step.collect Step.task? [restoreStep c m], Untagged t.container.image :=
    List.forall_mem_singleton.2 (untagged_installationSource hslash (by decide) (by decide) "stable")
  intro k hk
  obtain ⟨t, ht, rfl⟩ := List.mem_map.1 hk
  rw [Step.collect_append, h.tasks_hooks, List.append_nil, h.plan, initialPlan_eq, Step.collect_append,
    Step.collect_append, tasks_fetchSteps, List.nil_append] at ht
  rcases List.mem_append.1 ht with ht | ht
  · split at ht
    · exact hrestore t ht
    · exact absurd ht List.not_mem_nil
  · exact untagged_work hslash h.work himages t ht

end Work

/-- The image of a script that runs for a leaf is that of a container, with its tag beside it. -/
theorem exists_container {c : Config} {m : Manifest} {resources : ResourceSet} {l : Leaf}
    {passed : List String} {j : Job} {steps : List Step} (h : Consists c m resources l passed j steps)
    (hunchecked : RollsUnchecked l) {image : String} (himage : image ∈ scriptImages l) :
    ∃ k ∈ j.containers, NamesImage k.image image
      ∧ k.image.text? "repository" = some (Image.split image).1 := by
  obtain ⟨runner, hrunner, r, haction, rfl⟩ := mem_scriptImages.1 himage
  have hs : Script.ofLeaf? c m runner = some { attributes := runner.attributes, run := r } := by
    rw [Script.ofLeaf?, haction]
  obtain ⟨env, t, ht, hcontainer, -⟩ := exists_runs_of_consists h hunchecked hrunner hs
  have hmem : t ∈ Step.collect Step.task? (j.plan ++ j.hooks) := by
    rw [Step.collect_append]
    exact List.mem_append_left _ ht
  refine ⟨t.container, List.mem_map_of_mem hmem, ?_⟩
  rw [hcontainer]
  exact ⟨namesImage_imageSource r.docker, repository_imageSource r.docker⟩

/-! ## Accepted manifests -/

theorem mem_sources {p : Pipeline} {source : Settings} :
    source ∈ p.sources ↔ (∃ t ∈ p.types, t.source = source) ∨ (∃ r ∈ p.resources, r.source = source)
      ∨ ∃ j ∈ p.jobs, ∃ k ∈ j.containers, k.image = source := by
  simp [Pipeline.sources]

theorem mem_repositories {p : Pipeline} {repository : String} :
    repository ∈ p.repositories ↔ ∃ source ∈ p.sources, source.text? "repository" = some repository :=
  List.mem_filterMap

theorem untagged_sources_iff {p : Pipeline} :
    (∀ repository ∈ p.repositories, ¬Image.Tagged repository) ↔ ∀ source ∈ p.sources, Untagged source := by
  constructor
  · intro h source hsource repository hrepository
    exact h repository (mem_repositories.2 ⟨source, hsource, hrepository⟩)
  · intro h repository hrepository
    obtain ⟨source, hsource, hrepository⟩ := mem_repositories.1 hrepository
    exact h source hsource repository hrepository

/-- In the pipeline of a manifest without lint errors, its defaults filled in, no repository has a tag just
if no image that starts the pipeline has one, and no image of a script has more than one. Every image of a
script is that of a container, with its tag beside it; an image that starts the pipeline is a repository as
it stands, with no tag beside it. -/
theorem images_of_accepted (c : Config) (s : Surroundings) (m : Manifest)
    (hslash : c.dockerRegistry.toList.getLast? = some '/')
    (h : Lint.hasErrors (Lint.run c s m) = false) :
    ∃ p, render c m.withDefaults = .ok p
      ∧ ((∀ repository ∈ p.repositories, ¬Image.Tagged repository) ↔
        (∀ image ∈ triggerImages m.withDefaults, ¬Image.Tagged image)
          ∧ ∀ e ∈ Task.leaves m.withDefaults.tasks, ∀ image ∈ scriptImages e.2,
            ¬Image.Tagged (Image.split image).1)
      ∧ List.Forall₂
        (fun e j => ∀ image ∈ scriptImages e.2, ∃ k ∈ j.containers, NamesImage k.image image)
        (Task.leaves m.withDefaults.tasks) p.jobs
      ∧ ∀ image ∈ triggerImages m.withDefaults, ∃ r ∈ p.resources,
        r.source.text? "repository" = some image ∧ r.source.text? "tag" = none := by
  have hrenderable := (Lint.renderable_of_accepted h).withDefaults
  obtain ⟨js, hp, hjobs⟩ := render_eq_ok c hrenderable
  have hresource : ∀ image ∈ triggerImages m.withDefaults,
      ∃ r ∈ (ResourceSet.ofManifest c m.withDefaults).resources,
        r.source.text? "repository" = some image ∧ r.source.text? "tag" = none :=
    fun image => ResourceSet.exists_triggerSource c hrenderable
  have hcontainers := forall₂_imp_mem
    (S := fun e j => (∀ image ∈ scriptImages e.2, ∃ k ∈ j.containers,
        NamesImage k.image image ∧ k.image.text? "repository" = some (Image.split image).1)
      ∧ ((∀ image ∈ scriptImages e.2, ¬Image.Tagged (Image.split image).1) →
        ∀ k ∈ j.containers, Untagged k.image)) hjobs fun e he j _ hj => by
    have hunchecked := rollsUnchecked_of_clean (Lint.tasksFindings_clean h) (List.mem_map_of_mem he)
    obtain ⟨steps, hconsists⟩ := consists_of_renderable hrenderable he hj
    exact ⟨fun image => exists_container hconsists hunchecked, untagged_containers hslash hconsists⟩
  refine ⟨_, hp, ?tags, hcontainers.imp fun e j hej image himage => ?containers, hresource⟩
  case containers =>
    obtain ⟨k, hk, hnames, -⟩ := hej.1 image himage
    exact ⟨k, hk, hnames⟩
  case tags =>
    rw [untagged_sources_iff]
    constructor
    · intro hall
      refine ⟨fun image himage => ?_, fun e he image himage => ?_⟩
      · obtain ⟨r, hr, hrepository, -⟩ := hresource image himage
        exact hall r.source (mem_sources.2 (.inr (.inl ⟨r, hr, rfl⟩))) _ hrepository
      · obtain ⟨j, hj, hej⟩ := exists_of_mem_left hcontainers he
        obtain ⟨k, hk, -, hrepository⟩ := hej.1 image himage
        exact hall k.image (mem_sources.2 (.inr (.inr ⟨j, hj, k, hk, rfl⟩))) _ hrepository
    · rintro ⟨htriggers, hscripts⟩ source hsource
      have hdeclared := ResourceSet.untagged_ofManifest hslash htriggers
      rcases mem_sources.1 hsource with ⟨t, ht, rfl⟩ | ⟨r, hr, rfl⟩ | ⟨j, hj, k, hk, rfl⟩
      · exact hdeclared.types t ht
      · exact hdeclared.resources r hr
      · obtain ⟨e, he, hej⟩ := exists_of_mem_right hcontainers hj
        exact hej.2 (hscripts e he) k hk

/-- A pipeline that an image starts, and that runs a script in another. -/
def imagePipeline (trigger script : String) : Manifest where
  team := "acme"
  pipeline := "app"
  triggers :=
    [.git { uri := "git@github.com:acme/app", privateKey := "((deploy.key))" }, .docker { image := trigger }]
  tasks :=
    [.leaf
      { attributes := { name := "build" }
        action := .run { script := "./build", docker := { image := script } } }]

/-- The port of a registry is no tag, and the tag of the script's image stands beside its repository. -/
theorem imagePipeline_untagged :
    ({} : Config).dockerRegistry.toList.getLast? = some '/'
      ∧ Lint.hasErrors (Lint.run {} Lint.sampleSurroundings
          (imagePipeline "localhost:5000/base" "alpine:3.20")) = false
      ∧ ∃ p, render {} (imagePipeline "localhost:5000/base" "alpine:3.20").withDefaults = .ok p
        ∧ (∀ repository ∈ p.repositories, ¬Image.Tagged repository)
        ∧ ∃ j ∈ p.jobs, ∃ k ∈ j.containers, NamesImage k.image "alpine:3.20" := by
  have hslash : ({} : Config).dockerRegistry.toList.getLast? = some '/' := by decide
  have haccepted : Lint.hasErrors (Lint.run {} Lint.sampleSurroundings
      (imagePipeline "localhost:5000/base" "alpine:3.20")) = false := by
    decide +kernel
  have htriggers : ∀ image ∈ triggerImages
      (imagePipeline "localhost:5000/base" "alpine:3.20").withDefaults, ¬Image.Tagged image := by
    decide +kernel
  have hscripts : ∀ e ∈ Task.leaves (imagePipeline "localhost:5000/base" "alpine:3.20").withDefaults.tasks,
      scriptImages e.2 = ["alpine:3.20"] := by
    decide +kernel
  obtain ⟨p, hp, htags, hcontainers, -⟩ := images_of_accepted {} _ _ hslash haccepted
  refine ⟨hslash, haccepted, p, hp, htags.2 ⟨htriggers, fun e he image himage => ?_⟩, ?_⟩
  · rw [hscripts e he, List.mem_singleton] at himage
    subst himage
    decide
  · obtain ⟨e, he⟩ :
        ∃ e, e ∈ Task.leaves (imagePipeline "localhost:5000/base" "alpine:3.20").withDefaults.tasks :=
      ⟨_, List.mem_of_getElem? (i := 0) rfl⟩
    obtain ⟨j, hj, hej⟩ := exists_of_mem_left hcontainers he
    exact ⟨j, hj, hej _ (hscripts e he ▸ List.mem_singleton_self _)⟩

/-- A tag of the image that starts the pipeline stays in the repository. -/
theorem triggerTag_kept :
    Lint.hasErrors (Lint.run {} Lint.sampleSurroundings (imagePipeline "alpine:3.20" "alpine")) = false
      ∧ ∃ p, render {} (imagePipeline "alpine:3.20" "alpine").withDefaults = .ok p
        ∧ (∃ r ∈ p.resources, r.source.text? "repository" = some "alpine:3.20"
          ∧ r.source.text? "tag" = none)
        ∧ ∃ repository ∈ p.repositories, Image.Tagged repository := by
  have haccepted : Lint.hasErrors
      (Lint.run {} Lint.sampleSurroundings (imagePipeline "alpine:3.20" "alpine")) = false := by
    decide +kernel
  have hrenderable := (Lint.renderable_of_accepted haccepted).withDefaults
  obtain ⟨js, hp, -⟩ := render_eq_ok {} hrenderable
  have himage : "alpine:3.20" ∈ triggerImages (imagePipeline "alpine:3.20" "alpine").withDefaults := by
    decide +kernel
  obtain ⟨r, hr, hrepository, htag⟩ := ResourceSet.exists_triggerSource {} hrenderable himage
  refine ⟨haccepted, _, hp, ⟨r, hr, hrepository, htag⟩, "alpine:3.20", ?_, by decide⟩
  exact mem_repositories.2 ⟨r.source, mem_sources.2 (.inr (.inl ⟨r, hr, rfl⟩)), hrepository⟩

end Concourse

end PipelineCompiler
