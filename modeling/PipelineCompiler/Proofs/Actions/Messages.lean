import PipelineCompiler.Proofs.Actions.Uploads
import PipelineCompiler.Proofs.Manifest.Messages

/-!
# Messages of a workflow

A message is a step with an action of its own. The steps of a job end with its messages: those on failure
under a condition, then those on success, which run like any step if none before them failed. What a job
does for its leaf does not use the action, checks of a candidate included.
-/

namespace PipelineCompiler.Actions

/-! ## Steps that are messages -/

/-- The action that sends messages. -/
def messageAction : String := "yukin01/slack-bot-action"

/-- The message that a step sends. -/
def Step.message? (s : Step) : Option Message :=
  if s.action?.map bareAction = some messageAction then
    match s.input? "channel", s.input? "text" with
    | some channel, some text => some { channel, text }
    | _, _ => none
  else none

/-- The messages that a job sends under a condition, in their order. -/
def Job.messagesIf (j : Job) (condition? : Option String) : List Message :=
  (j.steps.filter fun s => s.condition = condition?).filterMap Step.message?

/-- The job sends the messages of a leaf, each kind under its condition, and no others. -/
structure Job.Tells (m : Manifest) (l : Leaf) (j : Job) : Prop where
  failure : j.messagesIf (some onFailureCondition) = m.messages .failure failureMessage l
  success : j.messagesIf none = m.messages .success successMessage l
  others : j.steps.filterMap Step.message?
    = m.messages .failure failureMessage l ++ m.messages .success successMessage l

section Messages

variable {steps : List Step}

theorem isSpecial_messageAction : IsSpecial messageAction := ⟨by decide, by decide⟩

/-- Steps that do not use the action send no messages. -/
theorem filterMap_message?_eq_nil (h : Without messageAction steps) :
    steps.filterMap Step.message? = [] :=
  List.filterMap_eq_nil_iff.2 fun s hs => if_neg (h s hs)

/-- Saving artifacts is done by another action. -/
theorem without_saveSteps (basePath : String) (a : Attributes) :
    Without messageAction (saveSteps basePath a) := by
  have hupload {s : Step} (hwork : s.work = .uses "actions/upload-artifact@v2") :
      ¬ s.Uses messageAction := fun huses => absurd ((uses_iff hwork).1 huses) (by decide)
  refine without_append.2 ⟨?_, ?_⟩
  · exact without_ite (fun _ => without_nil) fun _ => without_singleton.2 (hupload rfl)
  · exact without_ite (fun _ => without_nil) fun _ => without_singleton.2 (hupload rfl)

/-- What a job does for its leaf sends no messages. -/
theorem without_messages_body {c : Config} {m : Manifest} {l : Leaf} (hbody : Body c m l steps) :
    Without messageAction steps :=
  without_body isSpecial_messageAction hbody fun s _ => without_saveSteps m.basePath s.attributes

/-- A step of the action sends the message that it is handed. -/
theorem message?_of_uses {s : Step} (huses : s.Uses messageAction) {channel text : String}
    (hchannel : s.input? "channel" = some channel) (htext : s.input? "text" = some text) :
    s.message? = some { channel, text } := by
  rw [Step.Uses] at huses
  rw [Step.message?, if_pos huses, hchannel, htext]

/-- A step for each channel sends a message to each. -/
theorem messages_map {step : String → Step} {text : String}
    (h : ∀ channel, (step channel).message? = some { channel, text }) (channels : List String) :
    (channels.map step).filterMap Step.message? = channels.map fun channel => { channel, text } := by
  induction channels with
  | nil => rfl
  | cons channel channels ih =>
      rw [List.map_cons, List.map_cons, ← ih]
      exact List.filterMap_cons_some (h channel)

end Messages

/-! ## The end of a job -/

/-- The condition of messages on how a leaf ended. -/
def endingCondition? : Ending → Option String
  | .success => none
  | .failure => some onFailureCondition

/-- Their text where the author and the pipeline give none. -/
def endingText : Ending → String
  | .success => successMessage
  | .failure => failureMessage

/-- The word for it in the names of their steps. -/
def endingWord : Ending → String
  | .success => "success"
  | .failure => "failure"

/-- The messages on one way to end. -/
def endingSteps (ending : Ending) (l : Leaf) : List Step :=
  match l.attributes.notifications with
  | some n => (ending.channels n).map fun channel =>
      { messageStep (orElse (ending.message n) (endingText ending)) (endingWord ending) channel with
        condition := endingCondition? ending }
  | none => []

section End

variable (ending : Ending) (l : Leaf)

/-- A job ends with the messages on failure and those on success. -/
theorem messageSteps_eq : messageSteps l = endingSteps .failure l ++ endingSteps .success l := by
  rw [messageSteps, endingSteps, endingSteps]
  cases l.attributes.notifications with
  | none => rfl
  | some n => rfl

theorem messages_endingSteps :
    (endingSteps ending l).filterMap Step.message? = ending.sent (endingText ending) l := by
  rw [endingSteps, Ending.sent]
  cases l.attributes.notifications with
  | none => rfl
  | some n =>
      exact messages_map (fun channel => message?_of_uses ((uses_iff rfl).2 (by decide)) rfl rfl) _

theorem condition_endingSteps : ∀ s ∈ endingSteps ending l, s.condition = endingCondition? ending := by
  intro s hs
  rw [endingSteps] at hs
  cases hn : l.attributes.notifications with
  | none => simp [hn] at hs
  | some n =>
      rw [hn] at hs
      obtain ⟨channel, -, rfl⟩ := List.mem_map.1 hs
      rfl

/-- The condition tells the messages on one way to end from those on the other. -/
theorem filter_endingSteps (ending' : Ending) :
    (endingSteps ending' l).filter (fun s => s.condition = endingCondition? ending)
      = if ending' = ending then endingSteps ending' l else [] := by
  have hcondition := condition_endingSteps ending' l
  split
  · next hsame =>
      refine List.filter_eq_self.2 fun s hs => ?_
      rw [hcondition s hs, hsame, decide_eq_true_iff]
  · next hother =>
      refine List.filter_eq_nil_iff.2 fun s hs => ?_
      rw [hcondition s hs]
      cases ending <;> cases ending' <;> simp_all [endingCondition?]

end End

/-! ## Jobs -/

section Jobs

variable {c : Config} {m : Manifest} {l : Leaf} {id : String} {needs : List String} {j : Job}

/-- Under the condition of an ending a job sends the messages that its leaf asks for. -/
theorem messagesIf_eq (h : job c m id l needs = .ok j) (ending : Ending) :
    j.messagesIf (endingCondition? ending) = ending.sent (endingText ending) l := by
  obtain ⟨steps, hbody, hj⟩ := body_of_job h
  -- what stands ahead of the messages sends none, whatever condition is asked for
  have hwithout : Without messageAction (steps.filter fun s => s.condition = endingCondition? ending) :=
    fun s hs => without_messages_body hbody s (List.mem_of_mem_filter hs)
  rw [Job.messagesIf, hj, List.filter_append, List.filterMap_append,
    filterMap_message?_eq_nil hwithout, List.nil_append, messageSteps_eq, List.filter_append,
    filter_endingSteps, filter_endingSteps, ← messages_endingSteps]
  cases ending with
  | success => simp
  | failure => simp

/-- A job sends no other messages. -/
theorem messages_eq (h : job c m id l needs = .ok j) :
    j.steps.filterMap Step.message?
      = Ending.failure.sent failureMessage l ++ Ending.success.sent successMessage l := by
  obtain ⟨steps, hbody, hj⟩ := body_of_job h
  rw [hj, List.filterMap_append, filterMap_message?_eq_nil (without_messages_body hbody),
    List.nil_append, messageSteps_eq, List.filterMap_append, messages_endingSteps,
    messages_endingSteps]
  rfl

/-- The job of a leaf with its defaults sends the messages that the manifest has for the leaf. -/
theorem tells_of_job {m' : Manifest} (h : job c m' id (m.notificationDefaults.onLeaf l) needs = .ok j) :
    j.Tells m l where
  failure := (messagesIf_eq h .failure).trans (sent_onLeaf m .failure failureMessage l)
  success := (messagesIf_eq h .success).trans (sent_onLeaf m .success successMessage l)
  others := by rw [messages_eq h, sent_onLeaf, sent_onLeaf]

end Jobs

/-- The jobs of a workflow, its manifest with its defaults filled in, send the messages that the manifest
has for their leaves. -/
theorem tells_of_renderable (c : Config) {m : Manifest} (h : m.withDefaults.Renderable) :
    ∃ w, render c m.withDefaults = .ok w
      ∧ List.Forall₂ (fun e j => j.Tells m e.2) (Task.leaves m.withUpdateTask.tasks) w.jobs := by
  obtain ⟨w, hrender, hjobs⟩ := render_eq_ok c h
  rw [Manifest.leaves_withDefaults, List.forall₂_map_left_iff] at hjobs
  exact ⟨w, hrender, hjobs.imp fun e j hj => tells_of_job hj⟩

end PipelineCompiler.Actions
