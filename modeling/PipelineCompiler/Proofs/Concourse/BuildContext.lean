import PipelineCompiler.Proofs.Concourse.Plans
import PipelineCompiler.Proofs.Lint.Order
import PipelineCompiler.Proofs.Path.Resolution

/-!
# What images are built from

The container that builds an image is given the working copy, or a copy of it that restored artifacts were
put into, and is told two places below the manifest in it: that of the context and that of the Dockerfile.
Both may climb. Out of the base path they climb into the rest of the copy, and out of the copy to the
directories beside it, of which the container has a few only. `builds_of_accepted` says which places it
has. A path into `../artifacts/` is not among them if the manifest lies at the root of its repository,
although what it names was restored.
-/

namespace PipelineCompiler.Concourse

open PipelineCompiler.Path (join)

/-! ## Directories of a container -/

/-- The path begins with a directory that the container is given. -/
def Container.Mounts (k : Container) (path : String) : Prop :=
  ∃ dir ∈ k.inputs, (Path.segments path.toList).head? = some dir.toList

/-- Seen from one of the directories, the place is in one of them: it does not climb, or it climbs once and
leads down into one of them again. -/
def Reaches (dirs : List String) (place : List Path.Segment) : Prop :=
  place.head? ≠ some Path.up ∨ ∃ dir ∈ dirs, [Path.up, dir.toList] <+: place

instance (dirs : List String) (place : List Path.Segment) : Decidable (Reaches dirs place) := by
  unfold Reaches
  infer_instance

/-- Which places below a directory that it is given a container has. -/
theorem mounts_join_iff {k : Container} (hnames : ∀ dir ∈ k.inputs, Path.IsName dir) {root : String}
    (hroot : root ∈ k.inputs) (paths : List String) :
    k.Mounts (join (root :: paths)) ↔ Reaches k.inputs (Path.resolve (paths.map String.toList)) := by
  have hdir {dir : String} (h : dir ∈ k.inputs) :
      (Path.segments (join (root :: paths)).toList).head? = some dir.toList
        ↔ (dir = root ∧ (Path.resolve (paths.map String.toList)).head? ≠ some Path.up)
          ∨ [Path.up, dir.toList] <+: Path.resolve (paths.map String.toList) := by
    rw [Path.head?_segments_join (hnames dir h), Path.inside_join_beside_iff (hnames root hroot) (hnames dir h)]
  constructor
  · rintro ⟨dir, hmem, hhead⟩
    rcases (hdir hmem).1 hhead with ⟨-, hstays⟩ | hback
    · exact .inl hstays
    · exact .inr ⟨dir, hmem, hback⟩
  · rintro (hstays | ⟨dir, hmem, hback⟩)
    · exact ⟨root, hroot, (hdir hroot).2 (.inl ⟨rfl, hstays⟩)⟩
    · exact ⟨dir, hmem, (hdir hmem).2 (.inr hback)⟩

/-! ## The container of a build -/

namespace ImageBuild

/-- The tree that an image is built in: the working copy, or what it was copied to. -/
def treeDir (l : Leaf) : String := if l.attributes.restoreArtifacts then buildDir else gitDir

/-- The directories that the container of a build is given. -/
def buildInputs (l : Leaf) : List String :=
  [gitDir, tagsDir] ++ (if l.attributes.restoreArtifacts then [buildDir] else [])

/-- The paths of an image that a build is told, under their names. -/
def buildPaths (p : DockerPush) : List (String × String) :=
  [("CONTEXT", p.buildPath), ("DOCKERFILE", p.dockerfilePath)]

/-- Where a path of an image is in the tree. -/
def toldPath (basePath : String) (l : Leaf) (path : String) : String := join [treeDir l, basePath, path]

theorem treeDir_mem_buildInputs (l : Leaf) : treeDir l ∈ buildInputs l := by
  rw [treeDir, buildInputs]
  split
  · exact List.mem_append_right _ (List.mem_singleton_self _)
  · exact List.mem_append_left _ List.mem_cons_self

theorem isName_of_mem_buildInputs {l : Leaf} : ∀ dir ∈ buildInputs l, Path.IsName dir := by
  intro dir hdir
  rw [buildInputs, List.mem_append, List.mem_pair, List.mem_ite_nil_right, List.mem_singleton] at hdir
  rcases hdir with (rfl | rfl) | ⟨-, rfl⟩
  · decide
  · decide
  · decide

/-- Paths are told below the directory of the manifest in the tree. -/
theorem named?_buildEnv {p : DockerPush} {e : String × String} (he : e ∈ buildPaths p) (vars : Vars)
    (base : String) (l : Leaf) :
    named? (buildEnv p vars (rootDir base l.attributes)) e.1 = some (toldPath base l e.2) := by
  have hjoin : join [rootDir base l.attributes, e.2] = toldPath base l e.2 :=
    Path.join_append_join [] [treeDir l, base] [e.2]
  rw [← hjoin]
  rcases List.mem_pair.1 he with rfl | rfl
  · rfl
  · rfl

end ImageBuild

/-! ## Jobs -/

/-- The containers of steps that build images. -/
def buildsOf (steps : List Step) : List TaskStep :=
  (Step.collect Step.task? steps).filter fun t => t.name = "build"

theorem buildsOf_append (xs ys : List Step) : buildsOf (xs ++ ys) = buildsOf xs ++ buildsOf ys := by
  rw [buildsOf, Step.collect_append, List.filter_append]
  rfl

/-- The job builds the image in a single container, which is told the places of the context and of the
Dockerfile in the tree, and which has those of them that `Reaches` describes. -/
def Job.Builds (basePath : String) (j : Job) (l : Leaf) (p : DockerPush) : Prop :=
  ∃ t, buildsOf j.plan = [t] ∧ t.container.inputs = ImageBuild.buildInputs l
    ∧ ∀ e ∈ ImageBuild.buildPaths p,
      named? t.container.env e.1 = some (ImageBuild.toldPath basePath l e.2)
      ∧ (t.container.Mounts (ImageBuild.toldPath basePath l e.2)
        ↔ Reaches (ImageBuild.buildInputs l) (Path.resolve [basePath.toList, e.2.toList]))

section Jobs

variable {c : Config} {m : Manifest} {resources : ResourceSet} {l : Leaf} {passed : List String} {j : Job}
  {steps : List Step} {p : DockerPush}

/-- An image is built in one container; the others prepare for it or make use of it. -/
theorem buildsOf_imageBuild (c : Config) (m : Manifest) (p : DockerPush) :
    buildsOf (ImageBuild.steps c m l p)
      = [ImageBuild.buildStep c p l.attributes.vars (ImageBuild.rootDir m.basePath l.attributes)
          l.readsArtifacts] := by
  rw [ImageBuild.steps]
  split
  · rfl
  · rfl

/-- Nothing is built before the work begins. -/
theorem buildsOf_initialPlan (c : Config) (m : Manifest) (resources : ResourceSet) (l : Leaf)
    (passed : List String) : buildsOf (initialPlan c m resources l passed) = [] := by
  rw [initialPlan_eq, buildsOf_append, buildsOf, tasks_fetchSteps, List.filter_nil, List.nil_append]
  split
  · rfl
  · rfl

theorem builds_of_consists (h : Consists c m resources l passed j steps)
    (haction : l.action = .dockerPush p) : j.Builds m.basePath l p := by
  have hreads : l.readsArtifacts = l.attributes.restoreArtifacts := by
    obtain ⟨attributes, action⟩ := l
    obtain rfl : action = .dockerPush p := haction
    rw [LeafOf.readsArtifacts, Action.readsArtifacts, Bool.or_false]
  have hbuilds : buildsOf j.plan
      = [ImageBuild.buildStep c p l.attributes.vars (ImageBuild.rootDir m.basePath l.attributes)
          l.readsArtifacts] := by
    rw [h.plan, h.work.eq_imageBuild haction, buildsOf_append, buildsOf_initialPlan,
      buildsOf_imageBuild, List.nil_append]
  have hinputs : (ImageBuild.buildStep c p l.attributes.vars
      (ImageBuild.rootDir m.basePath l.attributes) l.readsArtifacts).container.inputs
        = ImageBuild.buildInputs l := by
    rw [hreads]
    rfl
  refine ⟨_, hbuilds, hinputs, fun e he => ⟨ImageBuild.named?_buildEnv he _ _ l, ?_⟩⟩
  rw [ImageBuild.toldPath, mounts_join_iff (hinputs ▸ ImageBuild.isName_of_mem_buildInputs)
    (hinputs ▸ ImageBuild.treeDir_mem_buildInputs l), hinputs]
  rfl

end Jobs

/-! ## The pipeline of an accepted manifest -/

/-- In the pipeline of a manifest without lint errors, its defaults filled in, the container that builds an
image is told where the context and the Dockerfile are in the tree, and either is in a directory that the
container is given just if its path, followed from the base path, does not climb out of the tree, or leads
out of it straight into another directory that the container is given. -/
theorem builds_of_accepted (c : Config) (s : Surroundings) (m : Manifest)
    (h : Lint.hasErrors (Lint.run c s m) = false) :
    ∃ p, render c m.withDefaults = .ok p
      ∧ List.Forall₂
        (fun e j => ∀ image, e.2.action = .dockerPush image → j.Builds m.basePath e.2 image)
        (Task.leaves m.withDefaults.tasks) p.jobs := by
  have hrenderable := (Lint.renderable_of_accepted h).withDefaults
  have hbase : m.withDefaults.basePath = m.basePath := by
    rw [Manifest.withDefaults_eq]
    rfl
  obtain ⟨js, hrender, hjobs⟩ := render_eq_ok c hrenderable
  refine ⟨_, hrender, forall₂_imp_mem hjobs fun e he j _ hj image haction => ?_⟩
  obtain ⟨steps, hconsists⟩ := consists_of_renderable hrenderable he hj
  exact hbase ▸ builds_of_consists hconsists haction

/-- An image that is built from restored artifacts alone. -/
def packagedImage : DockerPush :=
  { image := "acme/app", buildPath := "../artifacts/out"
    dockerfilePath := "../artifacts/out/Dockerfile" }

/-- The leaf that restores the artifacts and builds the image. -/
def packagingLeaf : Leaf :=
  ⟨{ name := "package", restoreArtifacts := true }, .dockerPush packagedImage⟩

/-- A manifest at a path of its repository that packages what a script saved. -/
def packagedAt (base : String) : Manifest where
  team := "acme"
  pipeline := "app"
  triggers :=
    [.git { uri := "git@github.com:acme/app", privateKey := "((deploy.key))", basePath := base }]
  tasks := [.leaf (Lint.savingScript "build"), .leaf packagingLeaf]

/-- Below the root of the repository the climb ends in the tree. -/
theorem packagedAt_nested :
    Lint.hasErrors (Lint.run {} Lint.sampleSurroundings (packagedAt "apps/web")) = false
      ∧ (∀ e ∈ ImageBuild.buildPaths packagedImage, Reaches (ImageBuild.buildInputs packagingLeaf)
        (Path.resolve ["apps/web".toList, e.2.toList]))
      ∧ ∃ p, render {} (packagedAt "apps/web").withDefaults = .ok p
        ∧ List.Forall₂
          (fun e j => ∀ image, e.2.action = .dockerPush image → j.Builds "apps/web" e.2 image)
          (Task.leaves (packagedAt "apps/web").withDefaults.tasks) p.jobs := by
  have haccepted : Lint.hasErrors (Lint.run {} Lint.sampleSurroundings (packagedAt "apps/web")) = false := by
    decide +kernel
  have hreaches : ∀ e ∈ ImageBuild.buildPaths packagedImage,
      Reaches (ImageBuild.buildInputs packagingLeaf)
        (Path.resolve ["apps/web".toList, e.2.toList]) := by
    decide +kernel
  exact ⟨haccepted, hreaches, builds_of_accepted {} _ _ haccepted⟩

/-- At the root it ends beside the tree, where the container does not have what was restored. -/
theorem packagedAt_root_astray :
    Lint.hasErrors (Lint.run {} Lint.sampleSurroundings (packagedAt "")) = false
      ∧ Path.Descends (packagedAt "").basePath.toList
      ∧ ∃ p, render {} (packagedAt "").withDefaults = .ok p
        ∧ ∃ j ∈ p.jobs, ∃ t ∈ buildsOf j.plan, t.container.inputs = [gitDir, tagsDir, buildDir]
          ∧ ∀ e ∈ [("CONTEXT", "artifacts/out"), ("DOCKERFILE", "artifacts/out/Dockerfile")],
            named? t.container.env e.1 = some e.2 ∧ ¬ t.container.Mounts e.2 := by
  have haccepted : Lint.hasErrors (Lint.run {} Lint.sampleSurroundings (packagedAt "")) = false := by
    decide +kernel
  have hrenderable := (Lint.renderable_of_accepted haccepted).withDefaults
  have he : ([1], packagingLeaf) ∈ Task.leaves (packagedAt "").withDefaults.tasks :=
    List.mem_of_getElem? (i := 1) rfl
  have htoldPaths : [("CONTEXT", "artifacts/out"), ("DOCKERFILE", "artifacts/out/Dockerfile")]
      = (ImageBuild.buildPaths packagedImage).map fun e =>
        (e.1, ImageBuild.toldPath "" packagingLeaf e.2) := by
    decide +kernel
  have hastray : ∀ e ∈ ImageBuild.buildPaths packagedImage,
      ¬ Reaches (ImageBuild.buildInputs packagingLeaf) (Path.resolve ["".toList, e.2.toList]) := by
    decide +kernel
  obtain ⟨js, hrender, hjobs⟩ := render_eq_ok {} hrenderable
  obtain ⟨j, hj, hrealises⟩ := exists_of_mem_left hjobs he
  obtain ⟨steps, hconsists⟩ := consists_of_renderable hrenderable he hrealises
  obtain ⟨t, ht, hinputs, htold⟩ := builds_of_consists hconsists (p := packagedImage) rfl
  refine ⟨haccepted, by decide, _, hrender, j, hj, t, ht ▸ List.mem_singleton_self t, hinputs, ?_⟩
  rw [htoldPaths, List.forall_mem_map]
  intro e he
  obtain ⟨henv, hmounts⟩ := htold e he
  exact ⟨henv, fun hin => hastray e he (hmounts.1 hin)⟩

end PipelineCompiler.Concourse
