import PipelineCompiler.Proofs.Concourse.Names
import PipelineCompiler.Proofs.Task.Checks

/-!
# Resources that jobs share

Chat messages and the two stores of artifacts are declared once for a pipeline, if anything in its tree
calls for them. What the tree calls for is what its leaves call for one by one, and the declarations hold
a shared resource just if some leaf needs it, under the name that its steps refer to (`shared_ofManifest`).

No assumption is made about the manifest. However many triggers of one kind it has, their names begin
differently from those of the shared resources, which are therefore free.
-/

namespace PipelineCompiler.Concourse

/-- Jobs share the resource: it is for chat messages or for artifacts. -/
def Resource.isShared (r : Resource) : Bool := r.kind ∈ [slackName, storeType]

/-- What leaves need to share, each for itself: the channel of messages, the store of artifacts, and
that of artifacts that are saved on failure. -/
def sharedResources (c : Config) (m : Manifest) (leaves : List Leaf) : List Resource :=
  (if leaves.any LeafOf.usesNotifications then [slackResource c] else [])
    ++ (if leaves.any fun l => l.savesArtifacts || l.readsArtifacts then
      [storeResource c m savedName] else [])
    ++ (if leaves.any LeafOf.savesArtifactsOnFailure then
      [storeResource c m savedOnFailureName] else [])

namespace ResourceSet

variable {s : ResourceSet} {r : Resource}

/-- The shared resources of a set. -/
def shared (s : ResourceSet) : List Resource := s.resources.filter Resource.isShared

/-! ## Declarations that jobs do not share -/

@[simp] theorem shared_addType (s : ResourceSet) (t : ResourceType) :
    (s.addType t).shared = s.shared := by
  rw [addType]
  split <;> rfl

@[simp] theorem shared_addTypeIf (needed : Bool) (t : ResourceType) (s : ResourceSet) :
    (s.addTypeIf needed t).shared = s.shared := by
  rw [addTypeIf]
  split
  · exact shared_addType s t
  · rfl

theorem shared_add_of_not (h : r.isShared = false) : (s.add r).2.shared = s.shared := by
  have hrenamed : (r.renamed (uniqueName r.name s.names.used)).isShared = false := h
  rw [add_eq, shared, shared, List.filter_append, List.filter_singleton, hrenamed, cond_false,
    List.append_nil]

theorem shared_addIf_of_not (h : r.isShared = false) (needed : Bool) :
    (s.addIf needed r).shared = s.shared := by
  rw [addIf]
  split
  · exact shared_add_of_not h
  · rfl

theorem shared_addTrigger (h : r.isShared = false) (i : Nat) :
    (s.addTrigger i r).shared = s.shared :=
  shared_add_of_not h

theorem shared_addOwnTrigger (s : ResourceSet) (e : Trigger × Nat) :
    (s.addOwnTrigger e).shared = s.shared := by
  obtain ⟨t, i⟩ := e
  cases t with
  | git g => exact shared_addTrigger (r := gitResource g) rfl i
  | timer t =>
      have htype := shared_addType s cronResourceType
      exact (shared_addTrigger (r := cronResource t) rfl i).trans htype
  | docker d => exact shared_addTrigger (r := dockerResource d) rfl i
  | pipeline p => rfl

theorem shared_addPipelineTrigger (c : Config) (s : ResourceSet) (e : Trigger × Nat) :
    (s.addPipelineTrigger c e).shared = s.shared := by
  obtain ⟨t, i⟩ := e
  cases t with
  | pipeline p =>
      have htype := shared_addType s (pipelineWatchResourceType c)
      exact (shared_addTrigger (r := pipelineWatchResource p) rfl i).trans htype
  | _ => rfl

theorem shared_addLeaf (c : Config) (toggles : List String) (s : ResourceSet) (l : Leaf) :
    (s.addLeaf c toggles l).shared = s.shared := by
  rw [addLeaf]
  split
  · rw [addDeploy]
    split
    · rfl
    · rw [shared_add_of_not (r := deployResource _) rfl, shared_addType]
  · rfl

/-- Steps that leave the shared resources as they are do so one after the other. -/
theorem shared_foldl {α : Type} {f : ResourceSet → α → ResourceSet}
    (h : ∀ s a, (f s a).shared = s.shared) (l : List α) (s : ResourceSet) :
    (l.foldl f s).shared = s.shared := by
  induction l generalizing s with
  | nil => rfl
  | cons a l ih => rw [List.foldl_cons, ih, h]

/-! ## Declarations that jobs share -/

/-- A shared resource that is needed is declared under its own name if that is free. -/
theorem shared_addIf (h : r.isShared = true) (hfree : r.name ∉ s.names.used) (needed : Bool) :
    (s.addIf needed r).shared = s.shared ++ if needed then [r] else [] := by
  rw [addIf]
  split
  · rw [add_eq, uniqueName_of_not_mem hfree, shared, shared, List.filter_append, List.filter_singleton]
    have hrenamed : (r.renamed r.name).isShared = true := h
    rw [hrenamed, cond_true]
    rfl
  · rw [List.append_nil]

/-- A trigger takes its name or a numbered one, and so no name that begins differently. -/
theorem not_mem_used_addTrigger {name : String} {initial : Char} (hs : name ∉ s.names.used)
    (hr : r.name.toList.head? = some initial) (hname : name.toList.head? ≠ some initial) (i : Nat) :
    name ∉ (s.addTrigger i r).names.used := by
  rw [addTrigger, add_eq]
  refine fun hmem => (List.mem_cons.1 hmem).elim (fun heq => hname ?_) hs
  rw [heq]
  exact head?_uniqueName hr s.names.used

/-- Triggers leave a name free that begins differently from theirs. -/
theorem not_mem_used_afterTriggers (m : Manifest) {name : String}
    (h : name.toList.head? ∉ [some 'g', some 'c', some 'd']) :
    name ∉ (afterTriggers m).names.used := by
  obtain ⟨hgit, hcron, hdocker⟩ : name.toList.head? ≠ some 'g' ∧ name.toList.head? ≠ some 'c'
      ∧ name.toList.head? ≠ some 'd' := by simpa using h
  refine List.foldlRecOn (motive := fun s : ResourceSet => name ∉ s.names.used) m.triggers.zipIdx
    addOwnTrigger (b := {}) List.not_mem_nil fun s hs e _ => ?_
  obtain ⟨t, i⟩ := e
  cases t with
  | git g =>
      have hg : (gitResource g).name.toList.head? = some 'g' := by simp [gitResource, gitName]
      exact not_mem_used_addTrigger hs hg hgit i
  | timer t =>
      have hs' : name ∉ (s.addType cronResourceType).names.used := by rwa [addType_names]
      have ht : (cronResource t).name.toList.head? = some 'c' := by simp [cronResource, Trigger.name]
      exact not_mem_used_addTrigger hs' ht hcron i
  | docker d =>
      have hd : (dockerResource d).name.toList.head? = some 'd' := by
        simp [dockerResource, Trigger.name]
      exact not_mem_used_addTrigger hs hd hdocker i
  | pipeline p => exact hs

/-- The names of shared resources are free where they are declared. -/
theorem sharedNames_free (c : Config) (m : Manifest) :
    slackName ∉ (afterTriggers m).names.used ∧ savedName ∉ (afterStoreType c m).names.used
      ∧ savedOnFailureName ∉ (afterSaved c m).names.used := by
  have hslack : slackName ∉ (afterTriggers m).names.used :=
    not_mem_used_afterTriggers m (by decide)
  have hmessages : (afterStoreType c m).names.used ⊆ slackName :: (afterTriggers m).names.used := by
    rw [afterStoreType, addTypeIf_names, afterMessages]
    exact used_addIf (r := slackResource c) (by rw [addTypeIf_names]; exact List.Subset.refl _) hslack
  have hsaved : savedName ∉ slackName :: (afterTriggers m).names.used :=
    List.not_mem_cons_of_ne_of_not_mem (by decide) (not_mem_used_afterTriggers m (by decide))
  have hstore : (afterSaved c m).names.used
      ⊆ savedName :: slackName :: (afterTriggers m).names.used :=
    used_addIf (r := storeResource c m savedName) hmessages hsaved
  have honFailure : savedOnFailureName ∉ savedName :: slackName :: (afterTriggers m).names.used :=
    List.not_mem_cons_of_ne_of_not_mem (by decide)
      (List.not_mem_cons_of_ne_of_not_mem (by decide) (not_mem_used_afterTriggers m (by decide)))
  exact ⟨hslack, fun h => hsaved (hmessages h), fun h => honFailure (hstore h)⟩

theorem anyUsesNotifications_flatten (tasks : List Task) :
    Task.anyUsesNotifications tasks = (Task.flatten tasks).any LeafOf.usesNotifications :=
  Bool.eq_iff_iff.2 (Task.anyUsesNotifications_iff.trans List.any_eq_true.symm)

theorem anySavesArtifactsOnFailure_flatten (tasks : List Task) :
    Task.anySavesArtifactsOnFailure tasks = (Task.flatten tasks).any LeafOf.savesArtifactsOnFailure :=
  Bool.eq_iff_iff.2 (Task.anySavesArtifactsOnFailure_iff.trans List.any_eq_true.symm)

theorem usesStore_flatten (m : Manifest) :
    usesStore m = (Task.flatten m.tasks).any fun l => l.savesArtifacts || l.readsArtifacts := by
  rw [Bool.eq_iff_iff, usesStore, Bool.or_eq_true_iff, Task.anySavesArtifacts_iff,
    Task.anyReadsArtifacts_iff, List.any_eq_true, ← exists_or]
  simp only [Bool.or_eq_true_iff, ← and_or_left]

/-- The shared resources of a manifest are those that its leaves need, whatever else it declares. -/
theorem shared_ofManifest (c : Config) (m : Manifest) :
    (ofManifest c m).shared = sharedResources c m (Task.flatten m.tasks) := by
  obtain ⟨hslack, hsaved, honFailure⟩ := sharedNames_free c m
  have htriggers : (afterTriggers m).shared = [] := shared_foldl shared_addOwnTrigger _ {}
  have hmessages : (afterMessages c m).shared
      = if Task.anyUsesNotifications m.tasks then [slackResource c] else [] := by
    rw [afterMessages, shared_addIf rfl (by rwa [addTypeIf_names]), shared_addTypeIf, htriggers,
      List.nil_append]
  have hstores : (afterStores c m).shared = (afterMessages c m).shared
      ++ (if usesStore m then [storeResource c m savedName] else [])
      ++ if Task.anySavesArtifactsOnFailure m.tasks then [storeResource c m savedOnFailureName]
        else [] := by
    rw [afterStores, shared_addIf rfl honFailure, afterSaved, shared_addIf rfl hsaved, afterStoreType,
      shared_addTypeIf]
  rw [ofManifest_eq, shared_foldl (shared_addPipelineTrigger c), afterTargets,
    shared_foldl (shared_addLeaf c m.featureToggles), afterVersion, shared_addIf_of_not rfl, hstores,
    hmessages, sharedResources, anyUsesNotifications_flatten, usesStore_flatten,
    anySavesArtifactsOnFailure_flatten]

/-- What a list of tasks calls for is what its leaves call for one by one. For artifacts a leaf counts
every part of it, down to the checks of its checks; for notifications it counts nothing but its own
attributes. The resources that the jobs of the list share are those that the leaves need. -/
theorem needs_of_leaves (tasks : List Task) :
    (Task.anyReadsArtifacts tasks = true ↔ ∃ l ∈ Task.flatten tasks, l.readsArtifacts = true)
      ∧ (Task.anySavesArtifacts tasks = true ↔ ∃ l ∈ Task.flatten tasks, l.savesArtifacts = true)
      ∧ (Task.anySavesArtifactsOnFailure tasks = true
          ↔ ∃ l ∈ Task.flatten tasks, l.savesArtifactsOnFailure = true)
      ∧ (Task.anyUsesNotifications tasks = true
          ↔ ∃ l ∈ Task.flatten tasks, l.usesNotifications = true)
      ∧ (∀ l : Leaf, l.readsArtifacts = true ↔ ∃ part : Leaf, part.IsPartOf l ∧ part.RestoresItself)
      ∧ (∀ l : Leaf, l.savesArtifacts = true
          ↔ ∃ part : Leaf, part.IsPartOf l ∧ part.attributes.saveArtifacts ≠ [])
      ∧ (∀ l : Leaf, l.savesArtifactsOnFailure = true
          ↔ ∃ part : Leaf, part.IsPartOf l ∧ part.attributes.saveArtifactsOnFailure ≠ [])
      ∧ (∀ (l : Leaf) (action : Action Task),
          LeafOf.usesNotifications { l with action } = l.usesNotifications)
      ∧ ∀ (c : Config) (m : Manifest),
          (ofManifest c { m with tasks }).shared = sharedResources c m (Task.flatten tasks) :=
  ⟨Task.anyReadsArtifacts_iff, Task.anySavesArtifacts_iff, Task.anySavesArtifactsOnFailure_iff,
    Task.anyUsesNotifications_iff, fun _ => LeafOf.involves_readsArtifacts.iff_exists_isPartOf,
    fun _ => LeafOf.involves_savesArtifacts.iff_exists_isPartOf,
    fun _ => LeafOf.involves_savesArtifactsOnFailure.iff_exists_isPartOf, fun _ _ => rfl,
    fun c m => shared_ofManifest c { m with tasks }⟩

end ResourceSet

end PipelineCompiler.Concourse
