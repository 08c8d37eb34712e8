import PipelineCompiler.Manifest.Reading
import PipelineCompiler.Manifest.Writing
import PipelineCompiler.Proofs.Value.Fields

/-!
# Fields that are read back

A leaf is written field by field, and a field may be left out while it says what it would say by default.
No two fields of a leaf share a name, so that its attributes find their fields among those of its action
(`attributes?_fields`), and every action finds its own among those of the attributes.
-/

namespace PipelineCompiler

/-! ## Fields that may be left out -/

namespace Fields

attribute [simp] Fields.text? Fields.texts? Fields.flag?

section Optional

variable {name key : String}

@[simp] theorem lacks_textField (h : key ≠ name) (s : String) : Lacks (textField key s) name :=
  lacks_ite h _

@[simp] theorem lacks_listField (h : key ≠ name) (items : List String) :
    Lacks (listField key items) name :=
  lacks_ite h _

@[simp] theorem lacks_flagField (h : key ≠ name) (b : Bool) : Lacks (flagField key b) name := by
  cases b with
  | false => exact lacks_nil
  | true => exact lacks_cons.2 ⟨h, lacks_nil⟩

/-- A text that is left out when it is blank comes back as its default then. -/
@[simp] theorem get?_textField (s default : String) :
    get? (textField name s) name Value.text? default = some (orElse s default) := by
  refine get?_ite (fun hfilled => ?_) fun hblank => ?_
  · rw [Value.text?_str, orElse, if_neg hfilled]
  · rw [orElse, if_pos hblank]

@[simp] theorem get?_listField (items : List String) :
    get? (listField name items) name Value.texts? [] = some items := by
  refine get?_ite (fun _ => Value.texts?_texts items) fun hempty => ?_
  exact (List.isEmpty_iff.1 hempty).symm

@[simp] theorem get?_flagField (b : Bool) :
    get? (flagField name b) name Value.flag? false = some b := by
  cases b with
  | false => exact get?_of_lacks lacks_nil
  | true => exact get?_cons_self lacks_nil

end Optional

end Fields

/-- A blank default leaves a text as it is. -/
@[simp] theorem orElse_blank (s : String) : orElse s "" = s := by
  rw [orElse]
  split
  · next hblank => exact (String.isEmpty_iff.1 hblank).symm
  · rfl

/-- Any other default leaves a text as it is just if the text is not blank. -/
theorem orElse_eq_self {s default : String} (hdefault : default ≠ "") :
    orElse s default = s ↔ s ≠ "" := by
  rw [orElse]
  split
  · next hblank =>
      rw [String.isEmpty_iff.1 hblank]
      exact iff_of_false hdefault (not_not_intro rfl)
  · next hfilled =>
      exact iff_of_true rfl fun hblank => hfilled (String.isEmpty_iff.2 hblank)

/-! ## Variables -/

namespace Vars

/-- A name behind all others goes to the end. -/
theorem setEntry_of_lt {name value : String} {es : List (String × String)}
    (h : ∀ e ∈ es, e.1 < name) : setEntry name value es = es ++ [(name, value)] := by
  induction es with
  | nil => rfl
  | cons e es ih =>
      obtain ⟨n, v⟩ := e
      have hlt : n < name := h (n, v) List.mem_cons_self
      have hnot : ¬ name < n := fun hgt => String.lt_irrefl n (String.lt_trans hlt hgt)
      have hne : name ≠ n := fun heq => String.lt_irrefl n (heq ▸ hlt)
      rw [setEntry, if_neg hnot, if_neg hne, ih fun e he => h e (List.mem_cons_of_mem _ he)]
      rfl

/-- Sorted entries behind all others are appended. -/
theorem entries_setAll (vars : Vars) {es : List (String × String)}
    (h : (vars.entries ++ es).Pairwise fun a b => a.1 < b.1) :
    (vars.setAll es).entries = vars.entries ++ es := by
  -- what was appended already is among the variables that the rest is appended to
  induction es generalizing vars with
  | nil => exact (List.append_nil _).symm
  | cons e es ih =>
      obtain ⟨n, v⟩ := e
      have hbefore : ∀ e ∈ vars.entries, e.1 < n :=
        fun e he => (List.pairwise_append.1 h).2.2 e he (n, v) List.mem_cons_self
      have hset : (vars.set n v).entries = vars.entries ++ [(n, v)] := setEntry_of_lt hbefore
      have hall : ((vars.set n v).setAll es).entries = (vars.set n v).entries ++ es := by
        refine ih _ ?_
        rwa [hset, List.append_assoc]
      rw [hset, List.append_assoc] at hall
      exact hall

theorem eq_empty {vars : Vars} (h : vars.isEmpty = true) : vars = empty := by
  obtain ⟨entries, sorted⟩ := vars
  obtain rfl : entries = [] := List.isEmpty_iff.1 h
  rfl

/-- Variables are made of their entries. -/
theorem ofList_entries (vars : Vars) : ofList vars.entries = vars := by
  have hentries : (ofList vars.entries).entries = vars.entries := entries_setAll empty vars.sorted
  obtain ⟨entries, sorted⟩ := vars
  exact (Vars.mk.injEq ..).mpr hentries

end Vars

theorem Value.textEntries?_texts (entries : List (String × String)) :
    Value.textEntries? (entries.map fun e => (.str e.1, .str e.2)) = some entries := by
  induction entries with
  | nil => rfl
  | cons e entries ih =>
      rw [List.map_cons, Value.textEntries?, ih]
      rfl

@[simp] theorem Vars.vars?_toValue (vars : Vars) : vars.toValue.vars? = some vars := by
  have hentries := Value.textEntries?_texts vars.entries
  rw [Vars.toValue, Value.record, Value.vars?, List.map_map]
  exact (congrArg (Option.map Vars.ofList) hentries).trans (congrArg some vars.ofList_entries)

/-! ## Leaves -/

@[simp] theorem Notifications.notifications?_toValue (n : Notifications) :
    n.toValue.notifications? = some n := by
  simp [Value.notifications?, Notifications.toValue]

@[simp] theorem Docker.docker?_toValue (d : Docker) : d.toValue.docker? = some d := by
  simp [Value.docker?, Docker.toValue]

/-- The names of the fields that every leaf has. -/
def attributeNames : List String :=
  ["name", "timeout", "retries", "notifications", "notify_on_success", "manual_trigger",
    "build_history", "save_artifacts", "save_artifacts_on_failure", "restore_artifacts", "vars"]

namespace Attributes

/-- The fields of the attributes bear these names only. -/
@[simp] theorem lacks_fields (a : Attributes) {name : String} (h : name ∉ attributeNames) :
    Fields.Lacks a.fields name := by
  simp only [attributeNames, List.mem_cons, List.not_mem_nil, not_or, or_false, ← ne_eq,
    eq_comm (a := name)] at h
  rw [fields]
  cases a.notifications <;> cases a.buildHistory <;> simp [h]

/-- The attributes are read back among fields of other names. -/
theorem attributes?_fields (a : Attributes) {own : Fields}
    (h : ∀ name ∈ attributeNames, own.Lacks name) : Fields.attributes? (a.fields ++ own) = some a := by
  obtain ⟨name, timeout, retries, notifications, notifyOnSuccess, manualTrigger, buildHistory,
    saveArtifacts, saveArtifactsOnFailure, restoreArtifacts, vars⟩ := a
  have hretries : Fields.get? (if retries = 0 then [] else [("retries", .int retries.toInt)])
      "retries" Value.int32? 0 = some retries :=
    Fields.get?_ite (fun _ => Value.int32?_toInt retries) Eq.symm
  have hvars : Fields.get? (if vars.isEmpty then [] else [("vars", vars.toValue)])
      "vars" Value.vars? .empty = some vars :=
    Fields.get?_ite (fun _ => vars.vars?_toValue) fun hempty => (Vars.eq_empty hempty).symm
  have hnotifications (n : Notifications) :
      Value.orNull? Value.notifications? n.toValue = some (some n) :=
    congrArg (Option.map some) n.notifications?_toValue
  have hhistory (n : UInt32) : Value.orNull? Value.uint32? (.nat n.toNat) = some (some n) :=
    congrArg (Option.map some) (Value.uint32?_toNat n)
  simp only [attributeNames, List.forall_mem_cons] at h
  -- the two blocks that may be unset are there or not
  cases notifications <;> cases buildHistory <;>
    simp [Fields.attributes?, fields, h, hretries, hvars, hnotifications, hhistory]

end Attributes

/-! ## Actions -/

section Actions

variable (a : Attributes)

theorem Run.run?_fields (r : Run) : Fields.run? (a.fields ++ r.fields) = some r := by
  simp [Fields.run?, fields, attributeNames]

theorem DockerPush.dockerPush?_fields (p : DockerPush) :
    Fields.dockerPush? (a.fields ++ p.fields) = some p := by
  simp [Fields.dockerPush?, fields, attributeNames]

theorem DockerCompose.dockerCompose?_fields (d : DockerCompose) :
    Fields.dockerCompose? (a.fields ++ d.fields) = some d := by
  simp [Fields.dockerCompose?, fields, attributeNames]

/-- A deployment to Cloud Foundry is read back whatever its checks are. -/
theorem DeployCf.deployCf?_fields (d : DeployCf) (p : Prop) [Decidable p] (checks : Value) :
    Fields.deployCf? (a.fields ++ (d.fields ++ if p then [] else [("pre_promote", checks)]))
      = some d := by
  simp [Fields.deployCf?, fields, attributeNames]

theorem DeployMlZip.deployMlZip?_fields (d : DeployMlZip) :
    Fields.deployMlZip? (a.fields ++ d.fields) = some d := by
  simp [Fields.deployMlZip?, fields, attributeNames]

theorem DeployMlModules.deployMlModules?_fields (d : DeployMlModules) :
    Fields.deployMlModules? (a.fields ++ d.fields) = some d := by
  simp [Fields.deployMlModules?, fields, attributeNames]

theorem ConsumerTest.consumerTest?_fields (t : ConsumerTest) :
    Fields.consumerTest? (a.fields ++ t.fields) = some t := by
  simp [Fields.consumerTest?, fields, attributeNames]

theorem DeployKatee.deployKatee?_fields (d : DeployKatee) :
    Fields.deployKatee? (a.fields ++ d.fields) = some d := by
  simp [Fields.deployKatee?, fields, attributeNames]

theorem Update.update?_fields (u : Update) : Fields.update? (a.fields ++ u.fields) = some u := by
  simp [Fields.update?, fields, attributeNames]

end Actions

/-- The fields of an action are not named like an attribute or the tag of the kind. -/
theorem Action.lacks_ownFields (action : Action Task) :
    ∀ name ∈ "type" :: attributeNames, Fields.Lacks (Action.ownFields action) name := by
  cases action <;>
    simp [Action.ownFields, attributeNames, Run.fields, DockerPush.fields, DockerCompose.fields,
      DeployCf.fields, DeployMlZip.fields, DeployMlModules.fields, ConsumerTest.fields,
      DeployKatee.fields, Update.fields]

end PipelineCompiler
