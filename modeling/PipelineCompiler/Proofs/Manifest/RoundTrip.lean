import PipelineCompiler.Proofs.Manifest.Fields

/-!
# Manifests that are read back

What a manifest is written as, it is read back from. Tasks hold tasks, in groups and as checks of a
candidate, and are read with as many levels as their document form has: the proof goes down these levels,
through groups and leaves alike.

Two things are not written. The directory of a manifest in its repository is found out anew, and a login
to another pipeline is left out when it is blank. Its default is not blank, so that the login comes back
filled in. `Trigger.reread` says this, and `Manifest.ofValue?_toValue` that everything else comes back as
it was.
-/

namespace PipelineCompiler

/-! ## Tasks -/

namespace Value

/-- The kind of a record and its other fields are told apart. -/
theorem tagged?_record {kinds : List String} {kind : String} {numbered : Bool} {fs : Fields}
    (hkind : kind ∈ kinds) (h : fs.Lacks "type") :
    (record (("type", .str kind) :: fs)).tagged? kinds numbered = some (kind, record fs) := by
  have hother : ∀ e ∈ fs.map fun f => (Value.str f.1, f.2), e.1.isText "type" = false := by
    intro e he
    obtain ⟨f, hf, rfl⟩ := List.mem_map.1 he
    exact decide_eq_false (h f hf)
  rw [record_eq, record_eq, List.map_cons]
  generalize fs.map (fun f => (Value.str f.1, f.2)) = entries at hother
  -- the kind is the only field that goes by the name, and taking it out leaves the others
  have htag : (((Value.str "type", Value.str kind) :: entries).filter fun e => e.1.isText "type")
      = [(.str "type", .str kind)] := by
    rw [List.filter_cons_of_pos (by simp [isText]), List.cons_inj_right, List.filter_eq_nil_iff]
    exact fun e he => Bool.not_eq_true _ ▸ hother e he
  have hrest : (((Value.str "type", Value.str kind) :: entries).filter fun e => !e.1.isText "type")
      = entries := by
    rw [List.filter_cons_of_neg (by simp [isText]), List.filter_eq_self]
    exact fun e he => by rw [hother e he, Bool.not_false]
  have hread : (Value.str kind).kind? kinds numbered = some kind := by
    rw [kind?, if_pos (List.contains_iff_mem.2 hkind)]
  rw [tagged?, htag]
  simp only [hread, hrest]
  rfl

end Value

namespace Task

variable {depth : Nat}

theorem toValues_eq_map (tasks : List Task) : toValues tasks = tasks.map toValue := by
  induction tasks with
  | nil => rw [toValues, List.map_nil]
  | cons t tasks ih => rw [toValues, List.map_cons, ih]

/-- Tasks that are each read back are read back as a list. -/
theorem list?_toValues {tasks : List Task}
    (h : ∀ t ∈ tasks, ofValueAux? true t.toValue depth = some t) :
    Value.list? (fun v => ofValueAux? true v depth) (.seq (toValues tasks)) = some tasks := by
  rw [toValues_eq_map]
  exact Value.list?_map h

theorem groupAux?_record {tasks : List Task}
    (h : ∀ t ∈ tasks, ofValueAux? true t.toValue depth = some t) :
    groupAux? (.record [("tasks", .seq (toValues tasks))]) depth = some tasks := by
  rw [groupAux?, Value.fields?_record, Option.bind_eq_bind, Option.bind_some,
    Fields.get?_cons_self Fields.lacks_nil]
  exact list?_toValues h

/-- The tasks that check the candidate of an action. -/
def checks : Action Task → List Task
  | .deployCf _ prePromote => prePromote
  | _ => []

/-- An action is read back if its checks are. -/
theorem actionAux?_ownFields (a : Attributes) (action : Action Task)
    (h : ∀ t ∈ checks action, ofValueAux? true t.toValue depth = some t) :
    actionAux? action.kind (a.fields ++ Action.ownFields action) depth = some action := by
  cases action with
  | run r => rw [Action.kind, Action.ownFields, actionAux?, r.run?_fields a, Option.map_some]
  | dockerPush p =>
      rw [Action.kind, Action.ownFields, actionAux?, p.dockerPush?_fields a, Option.map_some]
  | dockerCompose d =>
      rw [Action.kind, Action.ownFields, actionAux?, d.dockerCompose?_fields a, Option.map_some]
  | deployCf d prePromote =>
      have hchecks : Fields.get?
          (if prePromote.isEmpty then [] else [("pre_promote", .seq (toValues prePromote))])
          "pre_promote" (Value.list? fun v => ofValueAux? true v depth) [] = some prePromote :=
        Fields.get?_ite (fun _ => list?_toValues h) fun hempty => (List.isEmpty_iff.1 hempty).symm
      have hattributes : Fields.Lacks a.fields "pre_promote" := a.lacks_fields (by decide)
      have hfields : Fields.Lacks d.fields "pre_promote" := by simp [DeployCf.fields]
      rw [Action.kind, Action.ownFields, actionAux?, d.deployCf?_fields a,
        Fields.get?_append_right hattributes, Fields.get?_append_right hfields, hchecks]
      rfl
  | deployMlZip d =>
      rw [Action.kind, Action.ownFields, actionAux?, d.deployMlZip?_fields a, Option.map_some]
  | deployMlModules d =>
      rw [Action.kind, Action.ownFields, actionAux?, d.deployMlModules?_fields a, Option.map_some]
  | consumerTest t =>
      rw [Action.kind, Action.ownFields, actionAux?, t.consumerTest?_fields a, Option.map_some]
  | deployKatee d =>
      rw [Action.kind, Action.ownFields, actionAux?, d.deployKatee?_fields a, Option.map_some]
  | update u => rw [Action.kind, Action.ownFields, actionAux?, u.update?_fields a, Option.map_some]

/-- Tasks have fewer levels than what holds them in a field. -/
theorem depth_lt_of_field {fs : Fields} {name : String} {tasks : List Task} {t : Task}
    (hfield : (name, .seq (toValues tasks)) ∈ fs) (ht : t ∈ tasks) :
    t.toValue.depth < (Value.record fs).depth := by
  have hmem : t.toValue ∈ toValues tasks := by
    rw [toValues_eq_map]
    exact List.mem_map_of_mem ht
  exact Nat.lt_trans (Value.depth_lt_seq hmem) (Value.depth_lt_record hfield)

theorem depth_child_lt {kind : String} {tasks : List Task} {t : Task} (h : t ∈ tasks) :
    t.toValue.depth
      < (Value.record [("type", .str kind), ("tasks", .seq (toValues tasks))]).depth :=
  depth_lt_of_field (List.mem_cons_of_mem _ (List.mem_singleton.2 rfl)) h

/-- The tasks that check a candidate have fewer levels than its leaf. -/
theorem depth_check_lt {a : Attributes} {action : Action Task} {t : Task} (h : t ∈ checks action) :
    t.toValue.depth < (toValue (.leaf ⟨a, action⟩)).depth := by
  cases action with
  | deployCf d prePromote =>
      have hne : ¬ prePromote.isEmpty = true := by
        rw [List.isEmpty_iff]
        exact List.ne_nil_of_mem h
      have hfield : ("pre_promote", Value.seq (toValues prePromote))
          ∈ Action.ownFields (.deployCf d prePromote) := by
        rw [Action.ownFields, if_neg hne]
        exact List.mem_append_right _ (List.mem_singleton.2 rfl)
      rw [toValue, LeafOf.toValue]
      exact depth_lt_of_field (List.mem_cons_of_mem _ (List.mem_append_right _ hfield)) h
  | _ => exact absurd h List.not_mem_nil

/-- A group is read back if its tasks are. -/
theorem ofValueAux?_group {numbered : Bool} {kind : String} {tasks : List Task}
    {group : List Task → Task}
    (hkind : (kind, group) ∈ [("sequence", sequence), ("parallel", parallel)])
    (h : ∀ t ∈ tasks, ofValueAux? true t.toValue depth = some t) :
    ofValueAux? numbered (.record [("type", .str kind), ("tasks", .seq (toValues tasks))]) (depth + 1)
      = some (group tasks) := by
  have hbody := groupAux?_record h
  rcases List.mem_cons.1 hkind with heq | hkind
  · obtain ⟨rfl, rfl⟩ := Prod.mk.inj heq
    rw [ofValueAux?, Value.tagged?_record (by decide) (by simp), Option.bind_eq_bind, Option.bind_some]
    simp only [hbody]
    rfl
  · obtain ⟨rfl, rfl⟩ := Prod.mk.inj (List.mem_singleton.1 hkind)
    rw [ofValueAux?, Value.tagged?_record (by decide) (by simp), Option.bind_eq_bind, Option.bind_some]
    simp only [hbody]
    rfl

/-- A leaf is read back if its checks are. -/
theorem ofValueAux?_leaf {numbered : Bool} {a : Attributes} {action : Action Task}
    (h : ∀ t ∈ checks action, ofValueAux? true t.toValue depth = some t) :
    ofValueAux? numbered (toValue (.leaf ⟨a, action⟩)) (depth + 1) = some (.leaf ⟨a, action⟩) := by
  have hown := Action.lacks_ownFields action
  rw [List.forall_mem_cons] at hown
  have hkind : action.kind ∈ taskKinds := by
    cases action <;> simp [Action.kind, taskKinds]
  have hplain : action.kind ≠ "sequence" ∧ action.kind ≠ "parallel" := by
    cases action <;> simp [Action.kind]
  have htag : Fields.Lacks (a.fields ++ Action.ownFields action) "type" :=
    Fields.lacks_append.2 ⟨a.lacks_fields (by decide), hown.1⟩
  have haction := actionAux?_ownFields a action h
  have hattributes := a.attributes?_fields hown.2
  rw [toValue, LeafOf.toValue, ofValueAux?, Value.tagged?_record hkind htag, Option.bind_eq_bind,
    Option.bind_some]
  dsimp only
  split
  · next hsequence => exact absurd hsequence hplain.1
  · next hparallel => exact absurd hparallel hplain.2
  · simp only [Value.openFields?_record, Option.bind_eq_bind, Option.bind_some, haction, hattributes]
    rfl

/-- A task is read back with as many levels as its document form has. -/
theorem ofValueAux?_toValue (numbered : Bool) (t : Task) (h : t.toValue.depth ≤ depth) :
    ofValueAux? numbered t.toValue depth = some t := by
  induction depth generalizing numbered t with
  | zero => exact absurd h (Nat.not_le_of_lt t.toValue.depth_pos)
  | succ depth ih =>
      -- one level is for the task itself, and what it holds has fewer
      have hread {tasks : List Task} (hlt : ∀ u ∈ tasks, u.toValue.depth < t.toValue.depth) :
          ∀ u ∈ tasks, ofValueAux? true u.toValue depth = some u :=
        fun u hu => ih true u (Nat.le_of_lt_succ (Nat.lt_of_lt_of_le (hlt u hu) h))
      cases t with
      | leaf l => exact ofValueAux?_leaf (hread fun u hu => depth_check_lt hu)
      | sequence tasks =>
          rw [toValue] at hread ⊢
          exact ofValueAux?_group (by simp) (hread fun u hu => depth_child_lt hu)
      | parallel tasks =>
          rw [toValue] at hread ⊢
          exact ofValueAux?_group (by simp) (hread fun u hu => depth_child_lt hu)

/-- Tasks come back as they were. -/
theorem ofValue?_toValue (t : Task) : ofValue? t.toValue = some t :=
  ofValueAux?_toValue false t (Nat.le_refl _)

end Task

/-! ## Triggers -/

namespace Trigger

/-- What comes back of a trigger: the directory in the repository is left out, and what a trigger by
another pipeline does not say about the build server is filled in. -/
def reread : Trigger → Trigger
  | .git g => .git { g with basePath := "" }
  | .pipeline p =>
    let unset : PipelineTrigger := {}
    .pipeline
      { p with
        concourseUrl := orElse p.concourseUrl unset.concourseUrl
        username := orElse p.username unset.username
        password := orElse p.password unset.password }
  | t => t

theorem ofValue?_toValue (t : Trigger) : ofValue? t.toValue = some t.reread := by
  have hkind : t.kind ∈ triggerKinds := by
    cases t <;> simp [kind, triggerKinds]
  have htag : Fields.Lacks t.fields "type" := by
    cases t <;> simp [fields]
  rw [ofValue?, toValue, Value.tagged?_record hkind htag, Option.bind_eq_bind, Option.bind_some]
  cases t with
  | git g => simp [kind, fields, gitOfFields?, reread]
  | timer d => simp [kind, fields, reread]
  | docker d => simp [kind, fields, reread, Value.docker?]
  | pipeline p => simp [kind, fields, pipelineOfFields?, reread]

/-- Nothing that the trigger says is lost: it names no directory in the repository, and its login to
another pipeline is not blank. -/
def Written : Trigger → Prop
  | .git g => g.basePath = ""
  | .pipeline p => p.concourseUrl ≠ "" ∧ p.username ≠ "" ∧ p.password ≠ ""
  | .timer _ | .docker _ => True

/-- A trigger comes back as it was just if nothing of it is lost. -/
theorem reread_eq_self {t : Trigger} : t.reread = t ↔ t.Written := by
  cases t with
  | git g =>
      obtain ⟨uri, branch, privateKey, gitCryptKey, watchedPaths, ignoredPaths, shallow, manualTrigger,
        basePath⟩ := g
      simp [reread, Written, eq_comm]
  | pipeline p =>
      obtain ⟨concourseUrl, username, password, team, pipeline, job, status⟩ := p
      have hdefaults : "((concourse.url))" ≠ "" ∧ "((concourse.username))" ≠ ""
          ∧ "((concourse.password))" ≠ "" := by
        decide
      simp [reread, Written, orElse_eq_self hdefaults.1, orElse_eq_self hdefaults.2.1,
        orElse_eq_self hdefaults.2.2]
  | timer d => exact iff_of_true rfl trivial
  | docker d => exact iff_of_true rfl trivial

end Trigger

/-! ## Manifests -/

namespace Manifest

/-- What comes back of a manifest. -/
def reread (m : Manifest) : Manifest := { m with triggers := m.triggers.map Trigger.reread }

theorem reread_eq_self {m : Manifest} : m.reread = m ↔ ∀ t ∈ m.triggers, t.Written := by
  have htriggers : m.reread = m ↔ m.triggers.map Trigger.reread = m.triggers := by
    constructor
    · exact fun h => congrArg Manifest.triggers h
    · intro h
      rw [reread, h]
  have hmap : m.triggers.map Trigger.reread = m.triggers ↔ ∀ t ∈ m.triggers, t.reread = t := by
    have hid : m.triggers.map Trigger.reread = m.triggers.map id ↔ ∀ t ∈ m.triggers, t.reread = id t :=
      List.map_inj_left
    rwa [List.map_id] at hid
  rw [htriggers, hmap]
  exact forall₂_congr fun t _ => Trigger.reread_eq_self

theorem platformOfValue?_name (p : Platform) : platformOfValue? (.str p.name) = some p := by
  cases p with
  | concourse => rfl
  | actions => rfl

theorem artifactConfigOfValue?_record (a : ArtifactConfig) :
    artifactConfigOfValue? (.record (textField "bucket" a.bucket ++ textField "json_key" a.jsonKey))
      = some a := by
  simp [artifactConfigOfValue?]

/-- A manifest comes back as `reread` says. -/
theorem ofValue?_toValue (m : Manifest) : ofValue? m.toValue = some m.reread := by
  have hconfig : Fields.get?
      (if m.artifactConfig = {} then []
        else
          [("artifact_config", .record <|
            textField "bucket" m.artifactConfig.bucket
              ++ textField "json_key" m.artifactConfig.jsonKey)])
      "artifact_config" artifactConfigOfValue? {} = some m.artifactConfig :=
    Fields.get?_ite (fun _ => artifactConfigOfValue?_record m.artifactConfig) Eq.symm
  have htriggers : Value.list? Trigger.ofValue? (.seq (m.triggers.map Trigger.toValue))
      = some (m.triggers.map Trigger.reread) :=
    Value.mapM_map_eq_some fun t _ => t.ofValue?_toValue
  have htasks : Value.list? Task.ofValue? (.seq (Task.toValues m.tasks)) = some m.tasks := by
    rw [Task.toValues_eq_map]
    exact Value.list?_map fun t _ => t.ofValue?_toValue
  simp [ofValue?, toValue, hconfig, htriggers, htasks, platformOfValue?_name, reread]

/-- Every manifest is read back from its document form. It comes back as it was but for the directories
of its repositories and the blank logins of triggers by other pipelines, and so just as it was if it has
none of these. -/
theorem read_back (m : Manifest) :
    ofValue? m.toValue = some m.reread
      ∧ (ofValue? m.toValue = some m ↔ ∀ t ∈ m.triggers, t.Written) := by
  refine ⟨m.ofValue?_toValue, ?_⟩
  rw [m.ofValue?_toValue, Option.some_inj]
  exact reread_eq_self

/-- A manifest that starts after another pipeline and leaves its login to that one blank. -/
def blankLogin : Manifest where
  team := "acme"
  pipeline := "app"
  triggers :=
    [.pipeline
      { concourseUrl := "", username := "", password := "", team := "acme", pipeline := "base"
        job := "build" }]

/-- The login is left out when the manifest is written, and comes back filled in. -/
theorem blankLogin_filled :
    (∀ g, Trigger.git g ∈ blankLogin.triggers → g.basePath = "")
      ∧ ofValue? blankLogin.toValue ≠ some blankLogin
      ∧ ofValue? blankLogin.toValue
        = some
          { blankLogin with
            triggers := [.pipeline { team := "acme", pipeline := "base", job := "build" }] } := by
  have hread := blankLogin.ofValue?_toValue
  refine ⟨fun g hg => ?_, fun hself => ?_, hread⟩
  · exact absurd (List.mem_singleton.1 hg) nofun
  · rw [hread, Option.some_inj, reread_eq_self] at hself
    exact (hself _ (List.mem_singleton.2 rfl)).1 rfl

end Manifest

end PipelineCompiler
