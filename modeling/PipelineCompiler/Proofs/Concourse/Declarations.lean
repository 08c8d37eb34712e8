import PipelineCompiler.Proofs.Concourse.Resources

/-!
# What a manifest declares

The declarations of a manifest are made in stages, each of which lets the set grow. Up to the version
they bear fixed names, which nothing has taken before: the triggers that a manifest may have differ in
name. `ofManifest_provides` lists what is there in the end for the steps of jobs to refer to.
-/

namespace PipelineCompiler.Concourse.ResourceSet

variable {s : ResourceSet} {r : Resource}

/-! ## Names of the triggers -/

/-- The name of a trigger that starts the pipeline by itself. -/
def ownName? : Trigger → Option String
  | .pipeline _ => none
  | t => some t.name

/-- The names that triggers may take. -/
def triggerNames : List String := [gitName, "cron", "docker-trigger"]

theorem mem_triggerNames {t : Trigger} {name : String} (h : ownName? t = some name) :
    name ∈ triggerNames := by
  cases t <;> simp_all [ownName?, Trigger.name, triggerNames, gitName, eq_comm]

theorem used_addTrigger {i : Nat} (hfree : r.name ∉ s.names.used) :
    (s.addTrigger i r).names.used = r.name :: s.names.used := by
  rw [addTrigger, add_eq, uniqueName_of_not_mem hfree]

/-- A trigger whose name is free takes it. -/
theorem used_addOwnTrigger {e : Trigger × Nat}
    (hfree : ∀ name, ownName? e.1 = some name → name ∉ s.names.used) :
    (s.addOwnTrigger e).names.used = (ownName? e.1).toList ++ s.names.used := by
  obtain ⟨t, i⟩ := e
  cases t with
  | git g =>
      rw [addOwnTrigger]
      exact used_addTrigger (r := gitResource g) (hfree _ rfl)
  | timer t =>
      rw [addOwnTrigger, used_addTrigger, addType_names]
      · rfl
      · rw [addType_names]
        exact hfree _ rfl
  | docker d =>
      rw [addOwnTrigger]
      exact used_addTrigger (r := dockerResource d) (hfree _ rfl)
  | pipeline p => rfl

/-- Where the names of triggers differ and are free, the first trigger finds its name free, and so will
the others. -/
theorem ownName_free {e : Trigger × Nat} {l : List (Trigger × Nat)}
    (h : ((e :: l).filterMap (fun e => ownName? e.1) ++ s.names.used).Nodup) :
    (∀ name, ownName? e.1 = some name → name ∉ s.names.used)
      ∧ (l.filterMap (fun e => ownName? e.1) ++ (s.addOwnTrigger e).names.used).Perm
          ((e :: l).filterMap (fun e => ownName? e.1) ++ s.names.used) := by
  have hfree : ∀ name, ownName? e.1 = some name → name ∉ s.names.used := by
    intro name hname hmem
    rw [List.filterMap_cons, hname, List.cons_append, List.nodup_cons] at h
    exact h.1 (List.mem_append_right _ hmem)
  refine ⟨hfree, ?_⟩
  rw [used_addOwnTrigger hfree, List.filterMap_cons]
  cases ownName? e.1 with
  | none => exact .refl _
  | some name => exact List.perm_middle

/-- Triggers whose names differ and are free take them. -/
theorem used_foldl_addOwnTrigger {l : List (Trigger × Nat)}
    (h : (l.filterMap (fun e => ownName? e.1) ++ s.names.used).Nodup) :
    (l.foldl addOwnTrigger s).names.used.Perm (l.filterMap (fun e => ownName? e.1) ++ s.names.used) := by
  induction l generalizing s with
  | nil => exact .refl _
  | cons e l ih =>
      obtain ⟨-, hperm⟩ := ownName_free h
      rw [List.foldl_cons]
      exact (ih (hperm.nodup_iff.2 h)).trans hperm

/-- With as many triggers of each kind as there may be, their names differ. -/
theorem nodup_ownNames {m : Manifest} (h : m.Renderable) :
    (m.triggers.filterMap ownName?).Nodup := by
  rw [List.nodup_iff_count_le_one]
  intro name
  -- the name belongs to triggers of one kind
  have hcount (kind : String) (hone : m.triggerCount kind ≤ 1)
      (hkind : ∀ t, ownName? t = some name → t.kind = kind) :
      (m.triggers.filterMap ownName?).count name ≤ 1 := by
    refine Nat.le_trans ?_ hone
    rw [List.count, List.countP_filterMap, Manifest.triggerCount, ← List.countP_eq_length_filter]
    refine List.countP_mono_left fun t _ ht => ?_
    refine decide_eq_true (hkind t ?_)
    cases hname : ownName? t with
    | none => simp [hname] at ht
    | some name' => simpa [hname] using ht
  by_cases hgit : name = gitName
  · refine hcount "git" (Nat.le_of_eq h.git) fun t ht => ?_
    cases t <;> simp_all [ownName?, Trigger.name, Trigger.kind, gitName]
  by_cases htimer : name = "cron"
  · refine hcount "timer" h.timer fun t ht => ?_
    cases t <;> simp_all [ownName?, Trigger.name, Trigger.kind, gitName]
  · refine hcount "docker" h.docker fun t ht => ?_
    cases t <;> simp_all [ownName?, Trigger.name, Trigger.kind, gitName]

/-! ## Stages -/

/-- The declarations for the triggers that start the pipeline by themselves. -/
def afterTriggers (m : Manifest) : ResourceSet := m.triggers.zipIdx.foldl addOwnTrigger {}

/-- With those for chat messages. -/
def afterMessages (c : Config) (m : Manifest) : ResourceSet :=
  addIf (Task.anyUsesNotifications m.tasks) (slackResource c)
    (addTypeIf (Task.anyUsesNotifications m.tasks) slackResourceType (afterTriggers m))

/-- Some task saves or restores artifacts. -/
def usesStore (m : Manifest) : Bool :=
  Task.anySavesArtifacts m.tasks || Task.anyReadsArtifacts m.tasks

/-- With the type of artifact stores. -/
def afterStoreType (c : Config) (m : Manifest) : ResourceSet :=
  addTypeIf (usesStore m || Task.anySavesArtifactsOnFailure m.tasks) (storeResourceType c)
    (afterMessages c m)

/-- With the store of artifacts. -/
def afterSaved (c : Config) (m : Manifest) : ResourceSet :=
  addIf (usesStore m) (storeResource c m savedName) (afterStoreType c m)

/-- With the store of artifacts that are saved on failure. -/
def afterStores (c : Config) (m : Manifest) : ResourceSet :=
  addIf (Task.anySavesArtifactsOnFailure m.tasks) (storeResource c m savedOnFailureName)
    (afterSaved c m)

/-- With the version. -/
def afterVersion (c : Config) (m : Manifest) : ResourceSet :=
  addIf m.isVersioned (versionResource c m) (afterStores c m)

/-- With the deployment targets. -/
def afterTargets (c : Config) (m : Manifest) : ResourceSet :=
  (Task.flatten m.tasks).foldl (addLeaf c m.featureToggles) (afterVersion c m)

/-- The triggers by other pipelines come last. -/
theorem ofManifest_eq (c : Config) (m : Manifest) :
    ofManifest c m = m.triggers.zipIdx.foldl (addPipelineTrigger c) (afterTargets c m) := by
  have hmessages : afterMessages c m =
      if Task.anyUsesNotifications m.tasks then
        (((afterTriggers m).addType slackResourceType).add (slackResource c)).2
      else afterTriggers m := by
    rw [afterMessages, addIf, addTypeIf]
    split <;> rfl
  have hstores : afterStores c m = (afterMessages c m).addStores c m := rfl
  rw [afterTargets, afterVersion, hstores, hmessages]
  rfl

/-! ## Growth from stage to stage -/

theorem afterTriggers_coherent (m : Manifest) : (afterTriggers m).Coherent m.triggers :=
  (foldl_grows (fun _ _ he => addOwnTrigger_grows he) _).coherent (coherent_empty m.triggers)

theorem afterMessages_grows (c : Config) (m : Manifest) :
    Grows m.triggers (afterTriggers m) (afterMessages c m) :=
  (addTypeIf_grows _ _ _ _).trans
    (addIf_grows _ fun h => knows_addTypeIf h slackResourceType (afterTriggers m))

theorem afterStoreType_grows (c : Config) (m : Manifest) :
    Grows m.triggers (afterMessages c m) (afterStoreType c m) :=
  addTypeIf_grows _ _ _ _

/-- The type of artifact stores is there if one of the two stores is needed. -/
theorem knows_afterStoreType {c : Config} {m : Manifest}
    (h : usesStore m = true ∨ Task.anySavesArtifactsOnFailure m.tasks = true) :
    (afterStoreType c m).Knows storeType :=
  knows_addTypeIf (Bool.or_eq_true_iff.2 h) (storeResourceType c) (afterMessages c m)

theorem afterSaved_grows (c : Config) (m : Manifest) :
    Grows m.triggers (afterStoreType c m) (afterSaved c m) :=
  addIf_grows _ fun h => knows_afterStoreType (.inl h)

theorem afterStores_grows (c : Config) (m : Manifest) :
    Grows m.triggers (afterSaved c m) (afterStores c m) :=
  addIf_grows _ fun h => (afterSaved_grows c m).knows (knows_afterStoreType (.inr h))

theorem afterVersion_grows (c : Config) (m : Manifest) :
    Grows m.triggers (afterStores c m) (afterVersion c m) :=
  addIf_grows _ fun _ => .inl (by simp [versionResource, builtInKinds])

theorem afterTargets_grows (c : Config) (m : Manifest) :
    Grows m.triggers (afterVersion c m) (afterTargets c m) :=
  foldl_grows (fun s l _ => addLeaf_grows _ c m.featureToggles s l) _

theorem ofManifest_grows (c : Config) (m : Manifest) :
    Grows m.triggers (afterTargets c m) (ofManifest c m) := by
  rw [ofManifest_eq]
  exact foldl_grows (fun _ _ he => addPipelineTrigger_grows he) _

/-- A set that is coherent and part of what is declared in the end. -/
structure Stage (c : Config) (m : Manifest) (s : ResourceSet) : Prop where
  coherent : s.Coherent m.triggers
  grows : Grows m.triggers s (ofManifest c m)

/-- A name that is in use at a stage is declared in the end. -/
theorem Stage.declares {c : Config} {m : Manifest} (h : Stage c m s) {name : String}
    (hname : name ∈ s.names.used) : (ofManifest c m).Declares name :=
  h.grows.declares ((h.coherent.used name).1 hname)

/-- From one stage to a later one. -/
theorem Stage.next {c : Config} {m : Manifest} {s' : ResourceSet} (h : Stage c m s)
    (hgrows : Grows m.triggers s s') (hrest : Grows m.triggers s' (ofManifest c m)) : Stage c m s' :=
  ⟨hgrows.coherent h.coherent, hrest⟩

theorem stages (c : Config) (m : Manifest) :
    Stage c m (afterTriggers m) ∧ Stage c m (afterMessages c m) ∧ Stage c m (afterSaved c m)
      ∧ Stage c m (afterStores c m) ∧ Stage c m (afterVersion c m) := by
  -- what is still to come after a stage, from the last one back to the first
  have hversion := (afterTargets_grows c m).trans (ofManifest_grows c m)
  have hstores := (afterVersion_grows c m).trans hversion
  have hsaved := (afterStores_grows c m).trans hstores
  have hstore := (afterStoreType_grows c m).trans (afterSaved_grows c m)
  have hmessages := hstore.trans hsaved
  have htriggers := (afterMessages_grows c m).trans hmessages
  have h₁ : Stage c m (afterTriggers m) := ⟨afterTriggers_coherent m, htriggers⟩
  have h₂ := h₁.next (afterMessages_grows c m) hmessages
  have h₃ := h₂.next hstore hsaved
  have h₄ := h₃.next (afterStores_grows c m) hstores
  exact ⟨h₁, h₂, h₃, h₄, h₄.next (afterVersion_grows c m) hversion⟩

/-- The declarations of a manifest are coherent. -/
theorem ofManifest_coherent (c : Config) (m : Manifest) : (ofManifest c m).Coherent m.triggers :=
  (stages c m).1.grows.coherent (afterTriggers_coherent m)

/-! ## Reserved names -/

theorem filterMap_zipIdx_ownName (ts : List Trigger) :
    ts.zipIdx.filterMap (fun e => ownName? e.1) = ts.filterMap ownName? := by
  rw [show (fun e : Trigger × Nat => ownName? e.1) = ownName? ∘ Prod.fst from rfl,
    ← List.filterMap_map, List.zipIdx_map_fst]

/-- The triggers take names of their own, the repository `git`. -/
theorem used_afterTriggers {m : Manifest} (h : m.Renderable) :
    (afterTriggers m).names.used ⊆ triggerNames ∧ gitName ∈ (afterTriggers m).names.used := by
  have hperm := used_foldl_addOwnTrigger (s := {}) (l := m.triggers.zipIdx)
    (by simpa [filterMap_zipIdx_ownName] using nodup_ownNames h)
  rw [filterMap_zipIdx_ownName, List.append_nil] at hperm
  refine ⟨fun name hname => ?_, ?_⟩
  · obtain ⟨t, -, ht⟩ := List.mem_filterMap.1 (hperm.subset hname)
    exact mem_triggerNames ht
  · obtain ⟨g, hg⟩ := h.exists_git
    exact hperm.symm.subset (List.mem_filterMap.2 ⟨.git g, hg, rfl⟩)

theorem slackName_free : slackName ∉ triggerNames := by decide

theorem savedName_free : savedName ∉ slackName :: triggerNames := by decide

theorem savedOnFailureName_free : savedOnFailureName ∉ savedName :: slackName :: triggerNames := by
  decide

theorem versionName_free :
    versionName ∉ savedOnFailureName :: savedName :: slackName :: triggerNames := by
  decide

section Reserved

variable {c : Config} {m : Manifest} (h : m.Renderable)
include h

theorem used_afterMessages : (afterMessages c m).names.used ⊆ slackName :: triggerNames := by
  refine used_addIf (r := slackResource c) ?_ slackName_free
  rw [addTypeIf_names]
  exact (used_afterTriggers h).1

theorem used_afterStoreType : (afterStoreType c m).names.used ⊆ slackName :: triggerNames := by
  rw [afterStoreType, addTypeIf_names]
  exact used_afterMessages h

theorem used_afterSaved :
    (afterSaved c m).names.used ⊆ savedName :: slackName :: triggerNames :=
  used_addIf (r := storeResource c m savedName) (used_afterStoreType h) savedName_free

theorem used_afterStores :
    (afterStores c m).names.used ⊆ savedOnFailureName :: savedName :: slackName :: triggerNames :=
  used_addIf (r := storeResource c m savedOnFailureName) (used_afterSaved h) savedOnFailureName_free

end Reserved

/-! ## What there is to refer to -/

/-- What the steps of jobs refer to is declared if the manifest calls for it. -/
structure Provides (m : Manifest) (s : ResourceSet) : Prop where
  git : s.Declares gitName
  messages : Task.anyUsesNotifications m.tasks = true → s.Declares slackName
  saved : Task.anySavesArtifacts m.tasks = true → s.Declares savedName
  savedOnFailure : Task.anySavesArtifactsOnFailure m.tasks = true → s.Declares savedOnFailureName
  version : m.isVersioned = true → s.Declares versionName
  triggers : ∀ (t : Trigger) (i : Nat), m.triggers[i]? = some t →
    ∃ name, s.trigger? i = some name ∧ (triggerResource t).renamed name ∈ s.resources
  targets : ∀ l ∈ Task.flatten m.tasks, ∀ (d : DeployCf) (prePromote : List Task),
    l.action = .deployCf d prePromote → (s.deploy? d).isSome = true

/-- A trigger has a resource in the end: one that starts the pipeline by itself from the first stage on,
one by another pipeline from the last. -/
theorem exists_mem_triggers {c : Config} {m : Manifest} {t : Trigger} {i : Nat}
    (ht : m.triggers[i]? = some t) : ∃ name, (i, name) ∈ (ofManifest c m).triggers := by
  have hmem := List.mk_mem_zipIdx_iff_getElem?.2 ht
  have hkeep (s s' : ResourceSet) (hgrows : Grows m.triggers s s')
      (h : ∃ name, (i, name) ∈ s.triggers) : ∃ name, (i, name) ∈ s'.triggers :=
    h.imp fun _ hname => hgrows.triggers hname
  have hown (h : ∀ s : ResourceSet, ∃ name, (i, name) ∈ (s.addOwnTrigger (t, i)).triggers) :
      ∃ name, (i, name) ∈ (ofManifest c m).triggers :=
    hkeep _ _ (stages c m).1.grows
      (foldl_reaches (fun _ _ he => addOwnTrigger_grows he) hkeep hmem h _)
  cases t with
  | pipeline p =>
      rw [ofManifest_eq]
      exact foldl_reaches (fun _ _ he => addPipelineTrigger_grows he) hkeep hmem
        (fun s => exists_mem_addTrigger _ i _) _
  | _ => exact hown fun s => exists_mem_addTrigger _ i _

/-- The resource that a coherent set has for a trigger is built from that trigger. -/
theorem Coherent.trigger? {ts : List Trigger} (hs : s.Coherent ts) {t : Trigger} {i : Nat}
    (ht : ts[i]? = some t) {name : String} (hmem : (i, name) ∈ s.triggers) :
    ∃ name, s.trigger? i = some name ∧ (triggerResource t).renamed name ∈ s.resources := by
  have hsome : (s.triggers.find? fun e => e.1 = i).isSome := by
    rw [List.find?_isSome]
    exact ⟨(i, name), hmem, by simp⟩
  obtain ⟨e, he⟩ := Option.isSome_iff_exists.1 hsome
  have hi : e.1 = i := by simpa using List.find?_some he
  obtain ⟨t', ht', hr⟩ := hs.triggers e (List.mem_of_find?_eq_some he)
  obtain rfl : t' = t := Option.some.inj (by rw [← ht', hi, ht])
  exact ⟨e.2, by rw [ResourceSet.trigger?, he, Option.map_some], hr⟩

/-- The declarations of a manifest that can be rendered hold what its jobs refer to. -/
theorem ofManifest_provides {c : Config} {m : Manifest} (h : m.Renderable) :
    (ofManifest c m).Provides m := by
  obtain ⟨htriggers, hmessages, hsaved, hstores, hversion⟩ := stages c m
  constructor
  case git => exact htriggers.declares (used_afterTriggers h).2
  case messages =>
    intro hneeded
    have hused : (addTypeIf (Task.anyUsesNotifications m.tasks) slackResourceType
        (afterTriggers m)).names.used ⊆ triggerNames := by
      rw [addTypeIf_names]
      exact (used_afterTriggers h).1
    exact hmessages.declares (mem_used_addIf (r := slackResource c) hused slackName_free hneeded)
  case saved =>
    intro hneeded
    have hstore : usesStore m = true := by rw [usesStore, hneeded, Bool.true_or]
    exact hsaved.declares (mem_used_addIf (r := storeResource c m savedName)
      (used_afterStoreType h) savedName_free hstore)
  case savedOnFailure =>
    intro hneeded
    exact hstores.declares (mem_used_addIf (r := storeResource c m savedOnFailureName)
      (used_afterSaved h) savedOnFailureName_free hneeded)
  case version =>
    intro hneeded
    exact hversion.declares (mem_used_addIf (r := versionResource c m) (used_afterStores h)
      versionName_free hneeded)
  case triggers =>
    intro t i ht
    obtain ⟨name, hname⟩ := exists_mem_triggers (c := c) ht
    exact (ofManifest_coherent c m).trigger? ht hname
  case targets =>
    intro l hl d prePromote haction
    have hkeep (s s' : ResourceSet) (hgrows : Grows m.triggers s s')
        (hsome : (s.deploy? d).isSome = true) : (s'.deploy? d).isSome = true := by
      obtain ⟨r, hr, hmatch⟩ := isSome_deploy?.1 hsome
      exact isSome_deploy?.2 ⟨r, hgrows.resources hr, hmatch⟩
    have hstep (s : ResourceSet) : ((s.addLeaf c m.featureToggles l).deploy? d).isSome = true := by
      rw [addLeaf, haction]
      exact isSome_deploy?_addDeploy c m.featureToggles s d
    have htarget : ((afterTargets c m).deploy? d).isSome = true :=
      foldl_reaches (P := fun s => (s.deploy? d).isSome = true)
        (fun s l _ => addLeaf_grows m.triggers c m.featureToggles s l) hkeep hl hstep _
    exact hkeep _ _ (ofManifest_grows c m) htarget

end PipelineCompiler.Concourse.ResourceSet
