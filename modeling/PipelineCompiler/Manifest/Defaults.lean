import PipelineCompiler.Manifest
import PipelineCompiler.Task.Tree

/-!
# Defaults

Settings of the pipeline that its tasks take over, and the task that updates the pipeline. Both steps
map a manifest to a manifest and leave everything else as it is. Tasks that check a candidate take
over nothing.
-/

namespace PipelineCompiler

/-- What a leaf takes over from its pipeline. -/
structure NotificationDefaults where
  channel : String
  successMessage : String
  failureMessage : String
deriving DecidableEq, Repr

/-- The defaults that a manifest sets. -/
def Manifest.notificationDefaults (m : Manifest) : NotificationDefaults :=
  ⟨m.slackChannel, m.slackSuccessMessage, m.slackFailureMessage⟩

namespace NotificationDefaults

/-- Fill the blank messages of notifications that the author wrote. -/
def fill (d : NotificationDefaults) (n : Notifications) : Notifications :=
  { n with
    onFailureMessage := orElse n.onFailureMessage d.failureMessage
    onSuccessMessage := orElse n.onSuccessMessage d.successMessage }

/-- Notifications of a leaf whose author wrote none: the channel hears about failure, and about
success where the leaf asks for it. -/
def unwritten (d : NotificationDefaults) (notifyOnSuccess : Bool) : Notifications :=
  { onFailureMessage := d.failureMessage
    onSuccessMessage := d.successMessage
    onFailure := if d.channel.isEmpty then [] else [d.channel]
    onSuccess := if d.channel.isEmpty || !notifyOnSuccess then [] else [d.channel] }

/-- The notifications of a leaf with the defaults filled in; they stay unset if nothing is said. -/
def apply (d : NotificationDefaults) (a : Attributes) : Option Notifications :=
  match a.notifications with
  | some n => some (d.fill n)
  | none =>
    let n := d.unwritten a.notifyOnSuccess
    if n = {} then none else some n

mutual

/-- Fill in the defaults at every leaf of a task. -/
def applyToTask (d : NotificationDefaults) : Task → Task
  | .leaf l => .leaf (l.withNotifications (d.apply l.attributes))
  | .sequence tasks => .sequence (d.applyToTasks tasks)
  | .parallel tasks => .parallel (d.applyToTasks tasks)

/-- Fill in the defaults at every leaf of a list of tasks. -/
def applyToTasks (d : NotificationDefaults) : List Task → List Task
  | [] => []
  | t :: rest => d.applyToTask t :: d.applyToTasks rest

end

end NotificationDefaults

namespace Manifest

/-- Fill in the notification defaults. -/
def withNotificationDefaults (m : Manifest) : Manifest :=
  { m with tasks := m.notificationDefaults.applyToTasks m.tasks }

/-- The task that updates the pipeline. -/
def updateTask : Task := .leaf { action := .update {} }

/-- Put the update task first in a pipeline that updates itself and has no such task yet. -/
def withUpdateTask (m : Manifest) : Manifest :=
  if m.updatesPipeline && !Task.hasUpdate m.tasks then { m with tasks := updateTask :: m.tasks }
  else m

/-- Fill in every default: the update task first, so that it takes over the notifications too. -/
def withDefaults (m : Manifest) : Manifest := m.withUpdateTask.withNotificationDefaults

end Manifest

end PipelineCompiler
