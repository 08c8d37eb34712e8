import Mathlib.Data.List.Induction
import PipelineCompiler.Proofs.Concourse.Declarations
import PipelineCompiler.Proofs.Text

/-!
# Names of resources by kind

Steps refer to some resources by names that are fixed. The repository is one of them: its resource is
named `git` and not numbered, since there is one repository and its name is free when it is declared
(`trigger?_git`). Deployment targets take their names from the author's text, but never one of the fixed
ones, from which they differ in the first character (`head?_deployName`).
-/

namespace PipelineCompiler.Concourse.ResourceSet

/-! ## Names that a kind bears -/

/-- Every resource of a kind bears a name of some form. -/
def Bears (kind : String) (P : String → Prop) (s : ResourceSet) : Prop :=
  ∀ r ∈ s.resources, r.kind = kind → P r.name

section Bears

variable {kind : String} {P : String → Prop} {s : ResourceSet} {r : Resource}

theorem Bears.addType (h : s.Bears kind P) (t : ResourceType) : (s.addType t).Bears kind P := by
  rw [ResourceSet.addType]
  split
  · exact h
  · exact h

theorem Bears.add (h : s.Bears kind P) (hr : r.kind = kind → P (uniqueName r.name s.names.used)) :
    (s.add r).2.Bears kind P := by
  rw [add_eq]
  intro q hq hkind
  rcases List.mem_append.1 hq with hq | hq
  · exact h q hq hkind
  · rw [List.mem_singleton.1 hq] at hkind ⊢
    exact hr hkind

/-- A resource of another kind may bear any name. -/
theorem Bears.add_of_ne (h : s.Bears kind P) (hr : r.kind ≠ kind) : (s.add r).2.Bears kind P :=
  h.add fun hkind => absurd hkind hr

theorem Bears.addTypeIf (h : s.Bears kind P) (needed : Bool) (t : ResourceType) :
    (s.addTypeIf needed t).Bears kind P := by
  rw [ResourceSet.addTypeIf]
  split
  · exact h.addType t
  · exact h

theorem Bears.addIf_of_ne (h : s.Bears kind P) (needed : Bool) (hr : r.kind ≠ kind) :
    (s.addIf needed r).Bears kind P := by
  rw [ResourceSet.addIf]
  split
  · exact h.add_of_ne hr
  · exact h

/-- Deployment targets bear names of the form, or are of another kind. -/
theorem Bears.addLeaf (h : s.Bears kind P) (c : Config) (toggles : List String) (l : Leaf)
    (htarget : deployType = kind → ∀ d used, P (uniqueName (deployName d) used)) :
    (s.addLeaf c toggles l).Bears kind P := by
  rw [ResourceSet.addLeaf]
  split
  · next d prePromote haction =>
      rw [addDeploy]
      split
      · exact h
      · exact (h.addType _).add fun hkind => htarget hkind d _
  · exact h

theorem Bears.addPipelineTrigger (h : s.Bears kind P) (c : Config) (e : Trigger × Nat)
    (hkind : pipelineWatchType ≠ kind) : (s.addPipelineTrigger c e).Bears kind P := by
  obtain ⟨t, i⟩ := e
  cases t with
  | pipeline p => exact (h.addType _).add_of_ne hkind
  | _ => exact h

/-- What is declared after the triggers keeps the names of a kind in their form if that of deployment
targets does. -/
theorem Bears.ofManifest {c : Config} {m : Manifest} (h : (afterTriggers m).Bears kind P)
    (hkind : kind ∉ [slackName, storeType, "semver", pipelineWatchType])
    (htarget : deployType = kind → ∀ d used, P (uniqueName (deployName d) used)) :
    (ofManifest c m).Bears kind P := by
  have hne {other : String} (hmem : other ∈ [slackName, storeType, "semver", pipelineWatchType]) :
      other ≠ kind := fun heq => hkind (heq ▸ hmem)
  have hmessages : (afterMessages c m).Bears kind P :=
    (h.addTypeIf _ _).addIf_of_ne _ (r := slackResource c) (hne (by simp [slackResource]))
  have hsaved : (afterSaved c m).Bears kind P :=
    (hmessages.addTypeIf _ _).addIf_of_ne _ (r := storeResource c m savedName)
      (hne (by simp [storeResource]))
  have hstores : (afterStores c m).Bears kind P :=
    hsaved.addIf_of_ne _ (r := storeResource c m savedOnFailureName) (hne (by simp [storeResource]))
  have hversion : (afterVersion c m).Bears kind P :=
    hstores.addIf_of_ne _ (r := versionResource c m) (hne (by simp [versionResource]))
  have htargets : (afterTargets c m).Bears kind P :=
    List.foldlRecOn _ _ hversion fun s hs l _ => hs.addLeaf c m.featureToggles l htarget
  rw [ofManifest_eq]
  exact List.foldlRecOn _ _ htargets fun s hs e _ =>
    hs.addPipelineTrigger c e (hne (by simp))

end Bears

/-! ## The repository -/

/-- Triggers whose names are free leave the repository the name `git`. -/
theorem bears_addOwnTrigger {s : ResourceSet} {e : Trigger × Nat} (h : s.Bears "git" (· = gitName))
    (hfree : ∀ name, ownName? e.1 = some name → name ∉ s.names.used) :
    (s.addOwnTrigger e).Bears "git" (· = gitName) := by
  obtain ⟨t, i⟩ := e
  cases t with
  | git g => exact h.add fun _ => uniqueName_of_not_mem (hfree gitName rfl)
  | timer t => exact (h.addType _).add_of_ne (r := cronResource t) (by simp [cronResource, cronType])
  | docker d => exact h.add_of_ne (r := dockerResource d) (by simp [dockerResource])
  | pipeline p => exact h

theorem bears_foldl_addOwnTrigger {s : ResourceSet} {l : List (Trigger × Nat)}
    (hs : s.Bears "git" (· = gitName))
    (h : (l.filterMap (fun e => ownName? e.1) ++ s.names.used).Nodup) :
    (l.foldl addOwnTrigger s).Bears "git" (· = gitName) := by
  induction l generalizing s with
  | nil => exact hs
  | cons e l ih =>
      obtain ⟨hfree, hperm⟩ := ownName_free h
      rw [List.foldl_cons]
      exact ih (bears_addOwnTrigger hs hfree) (hperm.nodup_iff.2 h)

/-- No repository bears another name than the plain one. -/
theorem bears_git (c : Config) {m : Manifest} (h : m.Renderable) :
    (ofManifest c m).Bears "git" (· = gitName) := by
  have hown : (m.triggers.zipIdx.filterMap (fun e => ownName? e.1)
      ++ ({} : ResourceSet).names.used).Nodup := by
    simpa [filterMap_zipIdx_ownName] using nodup_ownNames h
  have htriggers : (afterTriggers m).Bears "git" (· = gitName) :=
    bears_foldl_addOwnTrigger (fun r hr => absurd hr List.not_mem_nil) hown
  exact htriggers.ofManifest (by decide) fun hkind => absurd hkind (by decide)

/-- The repository is fetched under its plain name. -/
theorem trigger?_git (c : Config) {m : Manifest} (h : m.Renderable) {g : GitTrigger} {i : Nat}
    (hg : m.triggers[i]? = some (.git g)) : (ofManifest c m).trigger? i = some gitName := by
  obtain ⟨name, hname, hr⟩ := (ofManifest_provides (c := c) h).triggers _ i hg
  rw [hname, ← bears_git c h _ hr rfl]
  rfl

/-! ## Deployment targets -/

/-- A deployment target is named for what it is, and then for the place. -/
theorem head?_deployName (d : DeployCf) : (deployName d).toList.head? = some 'c' := by
  have hlower (rest : List Char) : (Text.lowerChars ('c' :: rest)).head? = some 'c' := rfl
  rw [deployName]
  refine Text.head?_identifier ?_ (by decide) (by decide)
  simp only [String.toList_append]
  exact hlower _

/-- The resource of a deployment target does not bear a name of another kind. -/
theorem head?_of_deploy? {c : Config} {m : Manifest} {d : DeployCf} {r : Resource}
    (hr : (ofManifest c m).deploy? d = some r) : r.name.toList.head? = some 'c' := by
  have htriggers : (afterTriggers m).Bears deployType fun name => name.toList.head? = some 'c' := by
    refine List.foldlRecOn _ _ (fun r hr => absurd hr List.not_mem_nil) fun s hs e _ => ?_
    obtain ⟨t, i⟩ := e
    cases t with
    | git g => exact hs.add_of_ne (r := gitResource g) (by simp [gitResource, deployType])
    | timer t =>
        exact (hs.addType _).add_of_ne (r := cronResource t)
          (by simp [cronResource, cronType, deployType])
    | docker d => exact hs.add_of_ne (r := dockerResource d) (by simp [dockerResource, deployType])
    | pipeline p => exact hs
  have hbears : (ofManifest c m).Bears deployType fun name => name.toList.head? = some 'c' :=
    htriggers.ofManifest (by decide) fun _ d used => head?_uniqueName (head?_deployName d) used
  have hmatch := List.find?_some hr
  rw [Bool.and_eq_true_iff, decide_eq_true_iff] at hmatch
  exact hbears r (List.mem_of_find?_eq_some hr) hmatch.1

end PipelineCompiler.Concourse.ResourceSet
