import PipelineCompiler.Proofs.Concourse.Uploads
import PipelineCompiler.Proofs.Manifest.Messages

/-!
# Messages of a Concourse pipeline

A message is a push to the resource of the chat. Jobs push to it after their plan only: after a failure
for the channels that hear of failures, and after a success for those that hear of successes. What a job
does for its leaf pushes to other resources (`resource_of_work`), checks of a candidate included, so that
no message stands in a plan or behind one whatever the outcome.
-/

namespace PipelineCompiler.Concourse

/-! ## Pushes that are messages -/

/-- The text of a setting of a push. -/
def Put.param? (q : Put) (name : String) : Option String := (named? q.params name).bind Setting.text?

/-- The message that a push sends. -/
def Put.message? (q : Put) : Option Message :=
  if q.resource = slackName then
    match q.param? "channel", q.param? "text" with
    | some channel, some text => some { channel, text }
    | _, _ => none
  else none

/-- The messages that steps send, those inside of others included, in their order. -/
def Step.messages (steps : List Step) : List Message :=
  (Step.collect Step.put? steps).filterMap Put.message?

/-- The job sends the messages of a leaf after its plan, and no others. -/
structure Job.Tells (m : Manifest) (l : Leaf) (j : Job) : Prop where
  failure : Step.messages j.onFailure.toList = m.messages .failure failureMessage l
  success : Step.messages j.onSuccess.toList = m.messages .success successMessage l
  elsewhere : Step.messages (j.plan ++ j.ensure.toList) = []

section Messages

variable {xs ys : List Step} {l : Leaf}

theorem messages_append : Step.messages (xs ++ ys) = Step.messages xs ++ Step.messages ys := by
  rw [Step.messages, Step.collect_append, List.filterMap_append]
  rfl

theorem messages_hook (s : Option Step) :
    Step.messages (s.map Step.asTransfer).toList = Step.messages s.toList := by
  rw [Step.messages, Step.collect_map_asTransfer Step.blind_put?]
  rfl

theorem messages_together (xs : List Step) :
    Step.messages (Step.together? xs).toList = Step.messages xs := by
  rw [Step.messages, Step.collect_together Step.blind_put?]
  rfl

/-- Steps that do not push to the resource of the chat send no messages. -/
theorem messages_eq_nil (h : ∀ q ∈ Step.collect Step.put? xs, q.resource ≠ slackName) :
    Step.messages xs = [] :=
  List.filterMap_eq_nil_iff.2 fun q hq => if_neg (h q hq)

/-- A step for each channel sends a message to each. -/
theorem messages_messageSteps (channels : List String) (text status : String) :
    Step.messages (channels.map (messageStep text status))
      = channels.map fun channel => { channel, text } := by
  induction channels with
  | nil => rfl
  | cons channel channels ih =>
      rw [List.map_cons, ← List.singleton_append, messages_append, ih]
      rfl

/-! ## What follows a plan -/

/-- After a failure a leaf sends the messages that it asks for. -/
theorem messages_onFailure (l : Leaf) :
    Step.messages (onFailure l).toList = Ending.failure.sent failureMessage l := by
  have hsaves : Step.messages (if l.savesArtifactsOnFailure then [saveOnFailureStep] else []) = [] := by
    split
    · rfl
    · rfl
  rw [onFailure, messages_hook, messages_together, messages_append, hsaves, List.nil_append, Ending.sent]
  cases l.attributes.notifications with
  | none => rfl
  | some n => exact messages_messageSteps _ _ _

/-- After a success a leaf sends the messages that it asks for. -/
theorem messages_onSuccess (l : Leaf) :
    Step.messages (onSuccess l).toList = Ending.success.sent successMessage l := by
  rw [onSuccess, Ending.sent]
  cases l.attributes.notifications with
  | none => rfl
  | some n =>
      rw [messages_hook, messages_together]
      exact messages_messageSteps _ _ _

end Messages

/-! ## What a leaf is for -/

section Work

variable {c : Config} {m : Manifest} {l : Leaf} {steps : List Step} {ensure : Option Step} {q : Put}

/-- A script pushes to the store of artifacts, if it pushes at all. -/
theorem resource_of_script {s : Script} (hq : q ∈ Step.collect Step.put? (ScriptStep.steps m s)) :
    q.resource = savedName := by
  rw [puts_script] at hq
  split at hq
  · obtain rfl := List.mem_singleton.1 hq
    rfl
  · exact absurd hq List.not_mem_nil

/-- What a job does for its leaf pushes to the store of artifacts, the version, the repository, or the
target of a deployment, which begins with its kind. -/
theorem resource_of_work (h : Work c m (ResourceSet.ofManifest c m) l steps ensure)
    (hq : q ∈ Step.collect Step.put? (steps ++ ensure.toList)) :
    q.resource ∈ [savedName, versionName, gitName] ∨ q.resource.toList.head? = some 'c' := by
  cases h with
  | script s hs =>
      rw [Option.toList_none, List.append_nil] at hq
      exact .inl (resource_of_script hq ▸ List.mem_cons_self)
  | imageBuild p haction =>
      rw [Option.toList_none, List.append_nil] at hq
      obtain ⟨step, hstep, hq⟩ := Step.mem_collect.1 hq
      obtain ⟨t, -, rfl⟩ := List.mem_map.1 hstep
      exact absurd hq List.not_mem_nil
  | rolling d prePromote r haction hr hrolling =>
      rw [Option.toList_none, List.append_nil] at hq
      exact .inr (resource_stagePut hq ▸ ResourceSet.head?_of_deploy? hr)
  | stages d prePromote r scripts haction hr hrolling hscripts =>
      have hstage (stage : CloudFoundry.Stage) (params : Settings)
          (hq : q ∈ Step.collect Step.put? [CloudFoundry.stageStep l r.name stage params]) :
          q.resource.toList.head? = some 'c' := resource_stagePut hq ▸ ResourceSet.head?_of_deploy? hr
      rw [stageSteps, Step.collect_append, Step.collect_append, Step.collect_append,
        Step.collect_together Step.blind_put?] at hq
      simp only [List.mem_append] at hq
      -- all stages push to the target, and the checks between them are scripts
      rcases hq with ((hq | hq) | hq) | hq
      · exact .inr (hstage _ _ hq)
      · obtain ⟨s, -, hq⟩ := Step.mem_collect_flatMap.1 hq
        exact .inl (resource_of_script hq ▸ List.mem_cons_self)
      · obtain ⟨step, hstep, hq⟩ := Step.mem_collect.1 hq
        rcases List.mem_cons.1 hstep with rfl | hstep
        · exact .inr (hstage _ _ hq)
        · obtain rfl := List.mem_singleton.1 hstep
          exact .inr (hstage _ _ hq)
      · exact .inr (hstage _ _ hq)
  | katee d haction => exact absurd hq List.not_mem_nil
  | update u haction =>
      rw [Option.toList_none, List.append_nil] at hq
      have hresource := List.mem_map_of_mem (f := Put.resource) hq
      rw [puts_updateSteps] at hresource
      refine .inl (List.mem_cons_of_mem _ ?_)
      rcases List.mem_cons.1 hresource with hversion | htag
      · exact hversion ▸ List.mem_cons_self
      · rw [List.mem_singleton.1 (List.mem_ite_nil_right.1 htag).2]
        exact List.mem_cons_of_mem _ List.mem_cons_self

/-- What a job does for its leaf sends no messages. -/
theorem messages_work_eq_nil (h : Work c m (ResourceSet.ofManifest c m) l steps ensure) :
    Step.messages (steps ++ ensure.toList) = [] := by
  refine messages_eq_nil fun q hq hslack => ?_
  have hresource := resource_of_work h hq
  rw [hslack] at hresource
  exact absurd hresource (by decide)

end Work

/-! ## Jobs -/

/-- The job of a leaf with its defaults sends the messages that the manifest has for the leaf. -/
theorem tells_of_consists {c : Config} {m m' : Manifest} {l : Leaf} {passed : List String} {j : Job}
    {steps : List Step}
    (h : Consists c m' (ResourceSet.ofManifest c m') (m.notificationDefaults.onLeaf l) passed j steps) :
    j.Tells m l where
  failure := by rw [h.onFailure, messages_onFailure, sent_onLeaf]
  success := by rw [h.onSuccess, messages_onSuccess, sent_onLeaf]
  elsewhere := by
    have hinitial : Step.messages (initialPlan c m' (ResourceSet.ofManifest c m')
        (m.notificationDefaults.onLeaf l) passed) = [] := by
      rw [Step.messages, puts_initialPlan, List.filterMap_nil]
    rw [h.plan, List.append_assoc, messages_append, hinitial, List.nil_append]
    exact messages_work_eq_nil h.work

/-- The jobs of a pipeline, its manifest with its defaults filled in, send the messages that the manifest
has for their leaves. -/
theorem tells_of_renderable (c : Config) {m : Manifest} (h : m.withDefaults.Renderable) :
    ∃ p, render c m.withDefaults = .ok p
      ∧ List.Forall₂ (fun e j => j.Tells m e.2) (Task.leaves m.withUpdateTask.tasks) p.jobs := by
  obtain ⟨js, hrender, hjobs⟩ := render_eq_ok c h
  have htells : List.Forall₂ (fun e j => ∀ l, e.2 = m.notificationDefaults.onLeaf l → j.Tells m l)
      (Task.leaves m.withDefaults.tasks) js := by
    refine forall₂_imp_mem hjobs fun e he j _ hj l hl => ?_
    obtain ⟨steps, hconsists⟩ := consists_of_renderable h he hj
    rw [hl] at hconsists
    exact tells_of_consists hconsists
  rw [Manifest.leaves_withDefaults, List.forall₂_map_left_iff] at htells
  exact ⟨_, hrender, htells.imp fun e j hj => hj e.2 rfl⟩

end PipelineCompiler.Concourse
