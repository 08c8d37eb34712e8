import PipelineCompiler.Notifications
import PipelineCompiler.Proofs.Manifest.UpdateFirst

/-!
# Who is told what

When a leaf has ended, messages go to the channels that its author names, and otherwise to the channel of
the pipeline. Their text is the author's, or the one of the pipeline, or one that the build server has
for all of them. `Manifest.messages` says this of the manifest as it was written. What is rendered is the
manifest with its defaults, where the settings of the pipeline stand in the leaves and only the text of
the build server is missing; `sent_onLeaf` says that nothing gets lost on the way.
-/

namespace PipelineCompiler

/-- A message to a channel. -/
structure Message where
  channel : String
  text : String
deriving DecidableEq, Repr

/-- How a leaf ends. -/
inductive Ending where
  | success
  | failure
deriving DecidableEq, Repr

namespace Ending

/-- The channels that are told. -/
def channels : Ending → Notifications → List String
  | .success => Notifications.onSuccess
  | .failure => Notifications.onFailure

/-- What they are told; it may be blank. -/
def message : Ending → Notifications → String
  | .success => Notifications.onSuccessMessage
  | .failure => Notifications.onFailureMessage

/-- What the pipeline has its channels told; it may be blank. -/
def sharedMessage : Ending → Manifest → String
  | .success => Manifest.slackSuccessMessage
  | .failure => Manifest.slackFailureMessage

/-- The channel of the pipeline is told, if the author of the leaf names none. -/
def isShared : Ending → Attributes → Bool
  | .success => Attributes.notifyOnSuccess
  | .failure => fun _ => true

end Ending

namespace Manifest

/-- The channels that are told how a leaf ended: those that its author names if there are settings of the
author's, and otherwise the channel of the pipeline if it has one. -/
def channels (m : Manifest) (ending : Ending) (a : Attributes) : List String :=
  match a.notifications with
  | some n => ending.channels n
  | none => if m.slackChannel ≠ "" ∧ ending.isShared a = true then [m.slackChannel] else []

/-- What they are told: the first text that is not blank of the author's, the pipeline's, and the one
that the build server has. -/
def messageText (m : Manifest) (ending : Ending) (builtIn : String) (a : Attributes) : String :=
  let own := (a.notifications.map ending.message).getD ""
  orElse own (orElse (ending.sharedMessage m) builtIn)

/-- The messages that say how a leaf ended, in the order of the channels. -/
def messages (m : Manifest) (ending : Ending) (builtIn : String) (l : Leaf) : List Message :=
  (m.channels ending l.attributes).map fun channel =>
    { channel, text := m.messageText ending builtIn l.attributes }

/-- Settings of the author's that name no channel are not the same as none. -/
example (l : Leaf) :
    let m : Manifest := { slackChannel := "#acme" }
    m.messages .failure "failed" (l.withNotifications (some {})) = []
      ∧ m.messages .failure "failed" (l.withNotifications none) = [⟨"#acme", "failed"⟩] :=
  ⟨rfl, rfl⟩

end Manifest

/-! ## What leaves with their defaults send -/

/-- The messages that a leaf asks for if its settings are all there is to go by. -/
def Ending.sent (ending : Ending) (builtIn : String) (l : Leaf) : List Message :=
  match l.attributes.notifications with
  | some n => (ending.channels n).map fun channel => { channel, text := orElse (ending.message n) builtIn }
  | none => []

theorem orElse_assoc (a b c : String) : orElse (orElse a b) c = orElse a (orElse b c) := by
  by_cases ha : a.isEmpty = true
  · simp only [orElse, if_pos ha]
  · simp only [orElse, if_neg ha]

theorem orElse_blank_left (text : String) : orElse "" text = text := rfl

section Defaults

variable (m : Manifest) (ending : Ending) (builtIn : String) (l : Leaf)

/-- Settings of the author's keep their channels, and blank texts are filled. -/
theorem channels_fill (n : Notifications) :
    ending.channels (m.notificationDefaults.fill n) = ending.channels n := by
  cases ending with
  | success => rfl
  | failure => rfl

theorem message_fill (n : Notifications) :
    ending.message (m.notificationDefaults.fill n) = orElse (ending.message n) (ending.sharedMessage m) := by
  cases ending with
  | success => rfl
  | failure => rfl

/-- Where the author has no settings, the channel of the pipeline is told. -/
theorem channels_unwritten {a : Attributes} (h : a.notifications = none) :
    ending.channels (m.notificationDefaults.unwritten a.notifyOnSuccess) = m.channels ending a := by
  rw [Manifest.channels, h]
  cases ending with
  | success =>
      by_cases hchannel : m.slackChannel = "" <;> cases hshared : a.notifyOnSuccess <;>
        simp [Ending.channels, Ending.isShared, NotificationDefaults.unwritten,
          Manifest.notificationDefaults, hchannel, hshared]
  | failure =>
      by_cases hchannel : m.slackChannel = "" <;>
        simp [Ending.channels, Ending.isShared, NotificationDefaults.unwritten,
          Manifest.notificationDefaults, hchannel]

theorem message_unwritten (notifyOnSuccess : Bool) :
    ending.message (m.notificationDefaults.unwritten notifyOnSuccess) = ending.sharedMessage m := by
  cases ending with
  | success => rfl
  | failure => rfl

/-- A leaf with its defaults asks for the messages that its manifest has sent. -/
theorem sent_onLeaf :
    ending.sent builtIn (m.notificationDefaults.onLeaf l) = m.messages ending builtIn l := by
  have hattributes : (m.notificationDefaults.onLeaf l).attributes.notifications
      = m.notificationDefaults.apply l.attributes := rfl
  rw [Ending.sent, hattributes, NotificationDefaults.apply, Manifest.messages, Manifest.messageText]
  cases hn : l.attributes.notifications with
  | some n =>
      simp only [channels_fill, message_fill, Manifest.channels, hn, orElse_assoc, Option.map_some,
        Option.getD_some]
  | none =>
      have hchannels := channels_unwritten m ending hn
      by_cases hblank : m.notificationDefaults.unwritten l.attributes.notifyOnSuccess = {}
      · -- settings that say nothing stay unset, and name no channel
        have hnone : m.channels ending l.attributes = [] := by
          rw [← hchannels, hblank]
          cases ending with
          | success => rfl
          | failure => rfl
        simp only [hblank, hnone, List.map_nil, if_true]
      · simp only [hblank, if_false, hchannels, message_unwritten, Option.map_none, Option.getD_none,
          orElse_blank_left]

end Defaults

end PipelineCompiler
