import PipelineCompiler.Concourse.Resources
import PipelineCompiler.Proofs.Manifest.Renderable
import PipelineCompiler.Proofs.Naming

/-!
# Declaring resources

Resources are declared in steps that only ever add to the set. `Grows` collects what every step keeps:
nothing that is declared gets lost, and the declarations stay coherent, so that names are distinct, types
are there and the resources of triggers are the ones built from them.
-/

namespace PipelineCompiler.Concourse

/-- The kinds of resources that the build server brings along. -/
def builtInKinds : List String := ["git", "docker-image", "semver"]

/-- The resource under another name. -/
def Resource.renamed (r : Resource) (name : String) : Resource := { r with name }

@[simp] theorem Resource.renamed_name (r : Resource) (name : String) : (r.renamed name).name = name :=
  rfl

/-- The resource that a trigger becomes, up to its name. -/
def triggerResource : Trigger → Resource
  | .git g => gitResource g
  | .timer t => cronResource t
  | .docker d => dockerResource d
  | .pipeline p => pipelineWatchResource p

namespace ResourceSet

/-! ## Coherent declarations -/

/-- A resource of the name is declared. -/
def Declares (s : ResourceSet) (name : String) : Prop := ∃ r ∈ s.resources, r.name = name

/-- The kind of a resource is brought along or declared. -/
def Knows (s : ResourceSet) (kind : String) : Prop :=
  kind ∈ builtInKinds ∨ kind ∈ s.types.map ResourceType.name

/-- The declarations agree with each other and with the triggers they are made for. -/
structure Coherent (ts : List Trigger) (s : ResourceSet) : Prop where
  used : ∀ name, name ∈ s.names.used ↔ s.Declares name
  names : (s.resources.map Resource.name).Nodup
  types : (s.types.map ResourceType.name).Nodup
  kinds : ∀ r ∈ s.resources, s.Knows r.kind
  triggers : ∀ e ∈ s.triggers, ∃ t, ts[e.1]? = some t
    ∧ (triggerResource t).renamed e.2 ∈ s.resources
  owners : (s.triggers.map Prod.snd).Nodup

/-- Declarations are added to a set, and the set stays coherent. -/
structure Grows (ts : List Trigger) (s s' : ResourceSet) : Prop where
  types : s.types ⊆ s'.types
  resources : s.resources ⊆ s'.resources
  triggers : s.triggers ⊆ s'.triggers
  coherent : s.Coherent ts → s'.Coherent ts

variable {ts : List Trigger} {s s' s'' : ResourceSet}

theorem coherent_empty (ts : List Trigger) : ({} : ResourceSet).Coherent ts := by
  constructor <;> simp [Declares]

theorem Grows.refl (ts : List Trigger) (s : ResourceSet) : Grows ts s s :=
  ⟨List.Subset.refl _, List.Subset.refl _, List.Subset.refl _, id⟩

theorem Grows.trans (h : Grows ts s s') (h' : Grows ts s' s'') : Grows ts s s'' :=
  ⟨List.Subset.trans h.types h'.types, List.Subset.trans h.resources h'.resources,
    List.Subset.trans h.triggers h'.triggers, h'.coherent ∘ h.coherent⟩

theorem Grows.declares (h : Grows ts s s') {name : String} : s.Declares name → s'.Declares name
  | ⟨r, hr, hname⟩ => ⟨r, h.resources hr, hname⟩

theorem Grows.knows (h : Grows ts s s') {kind : String} : s.Knows kind → s'.Knows kind :=
  Or.imp id fun hkind => List.map_subset _ h.types hkind

theorem Grows.ite {P : Prop} [Decidable P] (h : P → Grows ts s s') :
    Grows ts s (if P then s' else s) := by
  split
  · exact h ‹P›
  · exact .refl ts s

/-- Steps that all let a set grow do so one after the other. -/
theorem foldl_grows {α : Type} {f : ResourceSet → α → ResourceSet} {l : List α}
    (h : ∀ s, ∀ a ∈ l, Grows ts s (f s a)) (s : ResourceSet) : Grows ts s (l.foldl f s) := by
  induction l generalizing s with
  | nil => exact .refl ts s
  | cons a l ih =>
      rw [List.foldl_cons]
      exact (h s a List.mem_cons_self).trans (ih (fun s b hb => h s b (List.mem_cons_of_mem a hb)) _)

/-- What the step for an item establishes and growth keeps is so after the steps for all items. -/
theorem foldl_reaches {α : Type} {f : ResourceSet → α → ResourceSet} {l : List α}
    {P : ResourceSet → Prop} (hgrows : ∀ s, ∀ a ∈ l, Grows ts s (f s a))
    (hkeep : ∀ s s', Grows ts s s' → P s → P s') {a : α} (ha : a ∈ l) (hstep : ∀ s, P (f s a))
    (s : ResourceSet) : P (l.foldl f s) := by
  obtain ⟨before, after, rfl⟩ := List.append_of_mem ha
  rw [List.foldl_append, List.foldl_cons]
  refine hkeep _ _ (foldl_grows (fun s b hb => hgrows s b ?_) _) (hstep _)
  exact List.mem_append_right _ (List.mem_cons_of_mem a hb)

/-! ## Single declarations -/

@[simp] theorem addType_names (s : ResourceSet) (t : ResourceType) :
    (s.addType t).names = s.names := by
  rw [addType]
  split <;> rfl

/-- A type that is declared is there. -/
theorem knows_addType (s : ResourceSet) (t : ResourceType) : (s.addType t).Knows t.name := by
  refine .inr ?_
  rw [addType]
  split
  · next h =>
      obtain ⟨u, hu, hname⟩ := List.any_eq_true.1 h
      exact List.mem_map.2 ⟨u, hu, of_decide_eq_true hname⟩
  · simp

theorem addType_grows (ts : List Trigger) (s : ResourceSet) (t : ResourceType) :
    Grows ts s (s.addType t) := by
  rw [addType]
  split
  · exact .refl ts s
  · next h =>
      refine ⟨List.subset_append_left _ _, List.Subset.refl _, List.Subset.refl _, fun hs => ?_⟩
      refine ⟨hs.used, hs.names, ?types, fun r hr => ?kinds, hs.triggers, hs.owners⟩
      case types =>
        rw [List.map_append, List.nodup_append]
        refine ⟨hs.types, by simp, ?_⟩
        rintro _ hu _ hv rfl
        obtain ⟨u, hu, hname⟩ := List.mem_map.1 hu
        exact h (List.any_eq_true.2 ⟨u, hu, by simpa [hname] using hv⟩)
      case kinds =>
        refine (hs.kinds r hr).imp id fun hkind => ?_
        exact List.map_subset _ (List.subset_append_left _ _) hkind

theorem add_eq (s : ResourceSet) (r : Resource) :
    s.add r = (uniqueName r.name s.names.used,
      { s with
        names := ⟨uniqueName r.name s.names.used :: s.names.used⟩
        resources := s.resources ++ [r.renamed (uniqueName r.name s.names.used)] }) := by
  rw [add, NameRegistry.claim_eq]
  rfl

/-- The resource that is declared is there under the name that is handed out. -/
theorem renamed_mem_add (s : ResourceSet) (r : Resource) :
    r.renamed (s.add r).1 ∈ (s.add r).2.resources := by
  rw [add_eq]
  simp

theorem add_grows (ts : List Trigger) {r : Resource} (hkind : s.Knows r.kind) :
    Grows ts s (s.add r).2 := by
  rw [add_eq]
  have hfree := uniqueName_not_mem r.name s.names.used
  refine ⟨List.Subset.refl _, List.subset_append_left _ _, List.Subset.refl _, fun hs => ?_⟩
  refine ⟨fun name => ?used, ?names, hs.types, fun q hq => ?kinds, fun e he => ?triggers, hs.owners⟩
  case used =>
    simp only [Declares, List.mem_cons, List.mem_append, or_and_right, exists_or]
    rw [hs.used name, Declares, or_comm]
    simp [eq_comm]
  case names =>
    rw [List.map_append, List.nodup_append]
    refine ⟨hs.names, by simp, ?_⟩
    rintro _ hq _ hr rfl
    obtain ⟨q, hq, hname⟩ := List.mem_map.1 hq
    refine hfree ((hs.used _).2 ⟨q, hq, ?_⟩)
    rw [hname]
    simpa using hr
  case kinds =>
    rcases List.mem_append.1 hq with hq | hq
    · exact hs.kinds q hq
    · obtain rfl := List.mem_singleton.1 hq
      exact hkind
  case triggers =>
    obtain ⟨t, ht, hmem⟩ := hs.triggers e he
    exact ⟨t, ht, List.mem_append_left _ hmem⟩

/-- A resource for a trigger is declared in its place. -/
theorem addTrigger_grows {i : Nat} {t : Trigger} (ht : ts[i]? = some t)
    (hkind : s.Knows (triggerResource t).kind) : Grows ts s (s.addTrigger i (triggerResource t)) := by
  have hadd := add_grows ts hkind
  refine ⟨hadd.types, hadd.resources, List.Subset.trans hadd.triggers (List.subset_append_left _ _),
    fun hs => ?_⟩
  obtain ⟨hused, hnames, htypes, hkinds, htriggers, howners⟩ := hadd.coherent hs
  refine ⟨hused, hnames, htypes, hkinds, fun e he => ?triggers, ?owners⟩
  case triggers =>
    rcases List.mem_append.1 he with he | he
    · exact htriggers e he
    · obtain rfl := List.mem_singleton.1 he
      exact ⟨t, ht, renamed_mem_add s (triggerResource t)⟩
  case owners =>
    rw [addTrigger, List.map_append, List.nodup_append]
    refine ⟨howners, by simp, ?_⟩
    -- the name that is handed out is free, and triggers have names that are in use
    rintro _ he _ hnew rfl
    obtain ⟨e, he, hname⟩ := List.mem_map.1 he
    obtain ⟨u, -, hu⟩ := hs.triggers e he
    refine uniqueName_not_mem (triggerResource t).name s.names.used ((hs.used _).2 ⟨_, hu, ?_⟩)
    rw [add_eq] at hnew
    rw [Resource.renamed_name, hname]
    simpa using hnew

/-- A resource for a trigger is found by its index. -/
theorem exists_mem_addTrigger (s : ResourceSet) (i : Nat) (r : Resource) :
    ∃ name, (i, name) ∈ (s.addTrigger i r).triggers :=
  ⟨(s.add r).1, List.mem_append_right _ (List.mem_singleton.2 rfl)⟩

/-! ## Steps of a manifest -/

/-- A type that was just declared is known, so that a resource of it may follow. -/
theorem addType_addTrigger_grows {i : Nat} {t : Trigger} {type : ResourceType} (ht : ts[i]? = some t)
    (hkind : (triggerResource t).kind = type.name) :
    Grows ts s ((s.addType type).addTrigger i (triggerResource t)) :=
  (addType_grows ts s type).trans (addTrigger_grows ht (hkind ▸ knows_addType s type))

theorem addOwnTrigger_grows {e : Trigger × Nat} (he : e ∈ ts.zipIdx) :
    Grows ts s (s.addOwnTrigger e) := by
  obtain ⟨t, i⟩ := e
  have ht : ts[i]? = some t := List.mk_mem_zipIdx_iff_getElem?.1 he
  cases t with
  | git g => exact addTrigger_grows ht (.inl (by simp [triggerResource, gitResource, builtInKinds]))
  | timer t =>
      have hkind : (triggerResource (.timer t)).kind = cronResourceType.name := rfl
      have hgrows := addType_addTrigger_grows (s := s) ht hkind
      exact hgrows
  | docker d =>
      exact addTrigger_grows ht (.inl (by simp [triggerResource, dockerResource, builtInKinds]))
  | pipeline p => exact .refl ts s

theorem addPipelineTrigger_grows {c : Config} {e : Trigger × Nat} (he : e ∈ ts.zipIdx) :
    Grows ts s (s.addPipelineTrigger c e) := by
  obtain ⟨t, i⟩ := e
  have ht : ts[i]? = some t := List.mk_mem_zipIdx_iff_getElem?.1 he
  cases t with
  | pipeline p =>
      have hkind : (triggerResource (.pipeline p)).kind = (pipelineWatchResourceType c).name := rfl
      have hgrows := addType_addTrigger_grows (s := s) ht hkind
      exact hgrows
  | _ => exact .refl ts s

/-- A deployment target that is there is not declared again. -/
theorem addDeploy_of_deploy? {c : Config} {toggles : List String} {d : DeployCf} {r : Resource}
    (h : s.deploy? d = some r) : s.addDeploy c toggles d = (r.name, s) := by
  rw [addDeploy, h]

theorem addDeploy_grows (ts : List Trigger) (c : Config) (toggles : List String) (s : ResourceSet)
    (d : DeployCf) : Grows ts s (s.addDeploy c toggles d).2 := by
  rw [addDeploy]
  split
  · exact .refl ts s
  · exact (addType_grows ts s _).trans (add_grows ts (knows_addType s (deployResourceType c toggles)))

theorem isSome_deploy? {d : DeployCf} :
    (s.deploy? d).isSome ↔ ∃ r ∈ s.resources, r.kind = deployType ∧ r.source = deploySource d := by
  simp [deploy?, List.find?_isSome]

/-- A deployment target is there once it is declared. -/
theorem isSome_deploy?_addDeploy (c : Config) (toggles : List String) (s : ResourceSet) (d : DeployCf) :
    ((s.addDeploy c toggles d).2.deploy? d).isSome := by
  rw [addDeploy]
  split
  · next r h => exact Option.isSome_iff_exists.2 ⟨r, h⟩
  · exact isSome_deploy?.2 ⟨_, renamed_mem_add _ (deployResource d), rfl, rfl⟩

theorem addLeaf_grows (ts : List Trigger) (c : Config) (toggles : List String) (s : ResourceSet)
    (l : Leaf) : Grows ts s (s.addLeaf c toggles l) := by
  rw [addLeaf]
  split
  · exact addDeploy_grows ts c toggles s _
  · exact .refl ts s

/-! ## Resources that are declared where they are needed -/

/-- Declare a type if it is needed. -/
def addTypeIf (needed : Bool) (t : ResourceType) (s : ResourceSet) : ResourceSet :=
  if needed then s.addType t else s

/-- Declare a resource if it is needed. -/
def addIf (needed : Bool) (r : Resource) (s : ResourceSet) : ResourceSet :=
  if needed then (s.add r).2 else s

@[simp] theorem addTypeIf_names (needed : Bool) (t : ResourceType) (s : ResourceSet) :
    (s.addTypeIf needed t).names = s.names := by
  rw [addTypeIf]
  split
  · exact addType_names s t
  · rfl

theorem addTypeIf_grows (ts : List Trigger) (needed : Bool) (t : ResourceType) (s : ResourceSet) :
    Grows ts s (s.addTypeIf needed t) :=
  .ite fun _ => addType_grows ts s t

theorem knows_addTypeIf {needed : Bool} (h : needed = true) (t : ResourceType) (s : ResourceSet) :
    (s.addTypeIf needed t).Knows t.name := by
  rw [addTypeIf, if_pos h]
  exact knows_addType s t

theorem addIf_grows (ts : List Trigger) {needed : Bool} {r : Resource}
    (hkind : needed = true → s.Knows r.kind) : Grows ts s (s.addIf needed r) :=
  .ite fun h => add_grows ts (hkind h)

variable {names : List String} {needed : Bool} {r : Resource}

/-- The names in use are among those that were reserved, the new one included. -/
theorem used_addIf (hused : s.names.used ⊆ names) (hfree : r.name ∉ names) :
    (s.addIf needed r).names.used ⊆ r.name :: names := by
  rw [addIf]
  split
  · rw [add_eq, uniqueName_of_not_mem fun h => hfree (hused h)]
    exact List.cons_subset_cons _ hused
  · exact List.Subset.trans hused (List.subset_cons_self _ _)

/-- A resource whose name is not reserved yet gets just that name. -/
theorem mem_used_addIf (hused : s.names.used ⊆ names) (hfree : r.name ∉ names)
    (hneeded : needed = true) : r.name ∈ (s.addIf needed r).names.used := by
  rw [addIf, if_pos hneeded, add_eq, uniqueName_of_not_mem fun h => hfree (hused h)]
  exact List.mem_cons_self

end ResourceSet

end PipelineCompiler.Concourse
