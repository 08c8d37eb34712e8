import PipelineCompiler.Proofs.Manifest.Messages

/-!
# What defaults change

Filling in notifications leaves every task at its position, and of a leaf it changes nothing but its
notifications: the checks of a candidate are part of its deployment and stay as they are. `TakesOver` says
what the leaf is given, and `withNotificationDefaults_frame` that nothing else happens to the manifest.

A leaf that has taken over the settings of its pipeline has nothing left to take over, and a pipeline that
is to update itself then has an update. So one pass fills in all there is, and a second one changes nothing
(`withDefaults_withDefaults`).
-/

namespace PipelineCompiler

/-! ## What a leaf takes over -/

namespace Manifest

/-- Notifications that the author wrote, filled in: they keep their channels and every text that is not
blank. -/
structure Fills (m : Manifest) (n filled : Notifications) : Prop where
  channels (ending : Ending) : ending.channels filled = ending.channels n
  kept (ending : Ending) : ending.message n ≠ "" → ending.message filled = ending.message n
  blank (ending : Ending) : ending.message n = "" → ending.message filled = ending.sharedMessage m

/-- Notifications that nobody wrote: they have the channel and the texts of the pipeline. -/
structure Shares (m : Manifest) (a : Attributes) (n : Notifications) : Prop where
  channels (ending : Ending) : ending.channels n = m.channels ending a
  message (ending : Ending) : ending.message n = ending.sharedMessage m

/-- The notifications of a leaf with the defaults filled in. If the author wrote none, they stay unset just
if the pipeline has neither a channel nor a text. -/
def Gives (m : Manifest) (a : Attributes) (result : Option Notifications) : Prop :=
  match a.notifications with
  | some n => ∃ filled, result = some filled ∧ m.Fills n filled
  | none =>
    (result = none ↔ m.slackChannel = "" ∧ m.slackSuccessMessage = "" ∧ m.slackFailureMessage = "")
      ∧ ∀ n, result = some n → m.Shares a n

/-- The tasks at one position before and after: a group is of the same kind and size, and a leaf is the same
up to its notifications. -/
inductive TakesOver (m : Manifest) : Task → Task → Prop where
  | leaf (l : Leaf) (n : Option Notifications) (hn : m.Gives l.attributes n) :
      TakesOver m (.leaf l)
        (.leaf { l with attributes := { l.attributes with notifications := n } })
  | sequence (tasks tasks' : List Task) (hlength : tasks'.length = tasks.length) :
      TakesOver m (.sequence tasks) (.sequence tasks')
  | parallel (tasks tasks' : List Task) (hlength : tasks'.length = tasks.length) :
      TakesOver m (.parallel tasks) (.parallel tasks')

section Leaves

variable (m : Manifest)

theorem fills_fill (n : Notifications) : m.Fills n (m.notificationDefaults.fill n) where
  channels ending := channels_fill m ending n
  kept ending h := by rw [message_fill, orElse, if_neg (by simpa using h)]
  blank ending h := by rw [message_fill, h, orElse_blank_left]

/-- Nothing is said of a leaf just if the pipeline says nothing. -/
theorem unwritten_eq_empty (notifyOnSuccess : Bool) :
    m.notificationDefaults.unwritten notifyOnSuccess = {}
      ↔ m.slackChannel = "" ∧ m.slackSuccessMessage = "" ∧ m.slackFailureMessage = "" := by
  rw [NotificationDefaults.unwritten, notificationDefaults]
  by_cases hchannel : m.slackChannel = ""
  · simp [hchannel]
  · simp [hchannel]

theorem gives_apply (a : Attributes) : m.Gives a (m.notificationDefaults.apply a) := by
  rw [Gives, NotificationDefaults.apply]
  cases hn : a.notifications with
  | some n => exact ⟨_, rfl, m.fills_fill n⟩
  | none =>
      have hempty := m.unwritten_eq_empty a.notifyOnSuccess
      by_cases hsilent : m.notificationDefaults.unwritten a.notifyOnSuccess = {}
      · refine ⟨iff_of_true (if_pos hsilent) (hempty.1 hsilent), fun n h => ?_⟩
        simp [hsilent] at h
      · refine ⟨iff_of_false (by simp [hsilent]) (hsilent ∘ hempty.2), fun n h => ?_⟩
        obtain rfl := Option.some.inj ((if_neg hsilent).symm.trans h)
        exact ⟨fun ending => channels_unwritten m ending hn, fun ending => message_unwritten m ending _⟩

theorem takesOver_applyToTask (t : Task) : m.TakesOver t (m.notificationDefaults.applyToTask t) := by
  cases t with
  | leaf l =>
      rw [NotificationDefaults.applyToTask_leaf]
      exact .leaf l _ (m.gives_apply l.attributes)
  | sequence tasks =>
      rw [NotificationDefaults.applyToTask, NotificationDefaults.applyToTasks_eq_map]
      exact .sequence _ _ (List.length_map _)
  | parallel tasks =>
      rw [NotificationDefaults.applyToTask, NotificationDefaults.applyToTasks_eq_map]
      exact .parallel _ _ (List.length_map _)

end Leaves

end Manifest

/-! ## Positions -/

namespace NotificationDefaults

theorem children_applyToTask (d : NotificationDefaults) (t : Task) :
    (d.applyToTask t).children = t.children.map d.applyToTask := by
  cases t with
  | leaf l => rw [applyToTask_leaf, Task.children, Task.children, List.map_nil]
  | sequence tasks => exact (d.applyToTask_group rfl).2
  | parallel tasks => exact (d.applyToTask_group rfl).2

/-- What stands below a task still stands there, with the defaults filled in. -/
theorem below?_applyToTask (d : NotificationDefaults) (t : Task) (path : TaskPath) :
    (d.applyToTask t).below? path = (t.below? path).map d.applyToTask := by
  induction path generalizing t with
  | nil => rw [Task.below?_nil, Task.below?_nil, Option.map_some]
  | cons i path ih =>
      rw [Task.below?_cons, Task.below?_cons, children_applyToTask, List.getElem?_map, Option.bind_map,
        Option.map_bind]
      exact congrArg _ (funext ih)

theorem at?_map_applyToTask (d : NotificationDefaults) (tasks : List Task) (path : TaskPath) :
    Task.at? (tasks.map d.applyToTask) path = (Task.at? tasks path).map d.applyToTask := by
  cases path with
  | nil => rw [Task.at?, Task.at?, Option.map_none]
  | cons i path =>
      have hcons := List.cons_ne_nil i path
      have hgroup : d.applyToTask (.sequence tasks) = .sequence (tasks.map d.applyToTask) := by
        rw [applyToTask, applyToTasks_eq_map]
      rw [Task.at?_eq_below? _ hcons, Task.at?_eq_below? _ hcons, ← hgroup, below?_applyToTask]

end NotificationDefaults

namespace Manifest

/-- Filling in the notifications of a manifest leaves all of it but its tasks as it is. At every position
stands the task that stood there before, and a leaf has only taken over notifications. -/
theorem withNotificationDefaults_frame (m : Manifest) :
    m.withNotificationDefaults = { m with tasks := m.withNotificationDefaults.tasks }
      ∧ ∀ path, Option.Rel m.TakesOver (Task.at? m.tasks path)
        (Task.at? m.withNotificationDefaults.tasks path) := by
  refine ⟨rfl, fun path => ?_⟩
  rw [withNotificationDefaults, NotificationDefaults.applyToTasks_eq_map,
    NotificationDefaults.at?_map_applyToTask]
  cases Task.at? m.tasks path with
  | none => exact .none
  | some t => exact .some (m.takesOver_applyToTask t)

end Manifest

/-! ## A second pass -/

theorem orElse_self (text : String) : orElse text text = text := by
  rw [orElse, ite_self]

theorem orElse_orElse_self (a b : String) : orElse (orElse a b) b = orElse a b := by
  rw [orElse_assoc, orElse_self]

namespace NotificationDefaults

variable (d : NotificationDefaults)

theorem fill_fill (n : Notifications) : d.fill (d.fill n) = d.fill n := by
  simp only [fill, orElse_orElse_self]

/-- The texts of the pipeline are not blank, or there is nothing to fill them with. -/
theorem fill_unwritten (notifyOnSuccess : Bool) :
    d.fill (d.unwritten notifyOnSuccess) = d.unwritten notifyOnSuccess := by
  simp only [fill, unwritten, orElse_self]

/-- A leaf that has taken over the settings of its pipeline takes over no more. -/
theorem onLeaf_onLeaf (l : Leaf) : d.onLeaf (d.onLeaf l) = d.onLeaf l := by
  have hsettled : d.apply (d.onLeaf l).attributes = d.apply l.attributes := by
    have hn : (d.onLeaf l).attributes.notifications = d.apply l.attributes := rfl
    have hsuccess : (d.onLeaf l).attributes.notifyOnSuccess = l.attributes.notifyOnSuccess := rfl
    rw [apply, hn, hsuccess, apply]
    cases l.attributes.notifications with
    | some n => exact congrArg some (d.fill_fill n)
    | none =>
        by_cases hsilent : d.unwritten l.attributes.notifyOnSuccess = {}
        · simp only [hsilent, if_true]
        · simp only [hsilent, if_false, fill_unwritten]
  rw [onLeaf, hsettled]
  rfl

theorem applyToTask_applyToTask (t : Task) : d.applyToTask (d.applyToTask t) = d.applyToTask t := by
  induction t using Task.tree_induction with
  | leaf l => rw [applyToTask_leaf, applyToTask_leaf, onLeaf_onLeaf]
  | group t hgroup ih =>
      cases t with
      | leaf l => simp [Task.leaf?] at hgroup
      | sequence tasks =>
          simp only [applyToTask, applyToTasks_eq_map, List.map_map, Task.sequence.injEq]
          exact List.map_congr_left ih
      | parallel tasks =>
          simp only [applyToTask, applyToTasks_eq_map, List.map_map, Task.parallel.injEq]
          exact List.map_congr_left ih

end NotificationDefaults

namespace Manifest

variable (m : Manifest)

theorem withNotificationDefaults_withNotificationDefaults :
    m.withNotificationDefaults.withNotificationDefaults = m.withNotificationDefaults := by
  have htasks : m.notificationDefaults.applyToTasks (m.notificationDefaults.applyToTasks m.tasks)
      = m.notificationDefaults.applyToTasks m.tasks := by
    simp only [NotificationDefaults.applyToTasks_eq_map, List.map_map]
    exact List.map_congr_left fun t _ => m.notificationDefaults.applyToTask_applyToTask t
  exact congrArg (fun tasks => { m with tasks }) htasks

/-- Notifications make no leaf an update. -/
theorem hasUpdate_withDefaults :
    Task.hasUpdate m.withDefaults.tasks = Task.hasUpdate m.withUpdateTask.tasks := by
  simp only [Task.hasUpdate, Task.flatten, leaves_withDefaults, List.any_map]
  rfl

/-- A pipeline that updates itself has an update once that has been put into it. -/
theorem hasUpdate_withUpdateTask (h : m.updatesPipeline = true) :
    Task.hasUpdate m.withUpdateTask.tasks = true := by
  rw [withUpdateTask, h, Bool.true_and]
  split
  · simp [Task.hasUpdate, Task.flatten, Task.leaves, Task.leavesFrom, updateTask, Task.leavesAt,
      LeafOf.isUpdate]
  · next hpresent => simpa using hpresent

theorem withUpdateTask_withDefaults : m.withDefaults.withUpdateTask = m.withDefaults := by
  rw [withUpdateTask, if_neg]
  rw [Bool.and_eq_true, Bool.not_eq_true', not_and, Bool.not_eq_false]
  intro hupdates
  have hupdates' : m.updatesPipeline = true := by
    rw [withDefaults_eq] at hupdates
    exact hupdates
  rw [hasUpdate_withDefaults]
  exact m.hasUpdate_withUpdateTask hupdates'

/-- The defaults of a manifest with its defaults are those that it has. -/
theorem withDefaults_withDefaults : m.withDefaults.withDefaults = m.withDefaults := by
  rw [withDefaults, withUpdateTask_withDefaults, withDefaults,
    withNotificationDefaults_withNotificationDefaults]

end Manifest

end PipelineCompiler
