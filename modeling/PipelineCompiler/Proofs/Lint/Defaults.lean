import PipelineCompiler.Proofs.Lint.WellFormed
import PipelineCompiler.Proofs.Manifest.UpdateFirst

/-!
# Defaults leave nothing to report

The manifest that is rendered has its defaults filled in, and no linter has seen it. It still follows every
rule that the manifest followed before (`accepted_withDefaults`). No rule looks at the notifications of a
leaf, and apart from its tasks a manifest is what it was. The update that is put in follows the rules for
leaves by itself. It stands first, where an update has to stand, and it neither saves nor restores
artifacts, so that behind it everything is saved before it is restored as it was without it.
-/

namespace PipelineCompiler

/-! ## Leaves with notifications -/

namespace NotificationDefaults

variable (d : NotificationDefaults) (l : Leaf)

theorem readsArtifacts_onLeaf : (d.onLeaf l).readsArtifacts = l.readsArtifacts := by
  obtain ⟨attributes, action⟩ := l
  simp only [onLeaf, LeafOf.withNotifications, LeafOf.readsArtifacts]

theorem savesArtifacts_onLeaf : (d.onLeaf l).savesArtifacts = l.savesArtifacts := by
  obtain ⟨attributes, action⟩ := l
  simp only [onLeaf, LeafOf.withNotifications, LeafOf.savesArtifacts]

end NotificationDefaults

/-- The leaves of a manifest with its defaults are its own with their defaults, behind the update that it may
have lacked. -/
theorem Manifest.flatten_withDefaults (m : Manifest) :
    Task.flatten m.withDefaults.tasks
      = (Task.flatten m.withUpdateTask.tasks).map m.notificationDefaults.onLeaf := by
  rw [Task.flatten, leaves_withDefaults, List.map_map, Task.flatten, List.map_map]
  rfl

namespace Lint

open Findings

variable {m : Manifest} {files : FileProbe}

/-! ## Rules for leaves -/

/-- What is found at a leaf with its defaults was found there before. -/
theorem leafFindings_onLeaf (l : Leaf) :
    leafFindings m.withDefaults files (m.notificationDefaults.onLeaf l) = leafFindings m files l := by
  rw [Manifest.withDefaults_eq]
  rfl

/-- A complete task is complete with its defaults. -/
theorem Complete.withDefaults {t : Task} (h : Complete m files t) :
    Complete m.withDefaults files (m.notificationDefaults.applyToTask t) := by
  obtain ⟨hfilled, hleaves⟩ := h
  refine ⟨NotificationDefaults.isFilled_applyToTask _ hfilled, fun l hl => ?_⟩
  obtain ⟨l', hl', rfl⟩ := NotificationDefaults.holds_applyToTask _ hl
  rw [leafFindings_onLeaf]
  exact hleaves l' hl'

/-- Nothing is wrong with the update of a pipeline that is to update itself. -/
theorem complete_updateTask (h : m.updatesPipeline = true) : Complete m files Manifest.updateTask := by
  refine ⟨rfl, fun l hl => ?_⟩
  obtain rfl := Task.holds_leaf.1 hl
  simp [leafFindings, actionFindings, updateFindings, h, attributeFaults]

/-- The tasks of a manifest with its defaults stand where they may and are complete if its own do and are. -/
theorem complete_withDefaults (h : ∀ t ∈ m.tasks, t.isStage = true ∧ Complete m files t) :
    ∀ t ∈ m.withDefaults.tasks, t.isStage = true ∧ Complete m.withDefaults files t := by
  intro t ht
  obtain ⟨u, rfl, hu | ⟨rfl, hupdates⟩⟩ := Manifest.mem_withDefaults ht
  · obtain ⟨hstage, hcomplete⟩ := h u hu
    rw [NotificationDefaults.isStage_applyToTask]
    exact ⟨hstage, hcomplete.withDefaults⟩
  · rw [NotificationDefaults.isStage_applyToTask]
    exact ⟨rfl, (complete_updateTask hupdates).withDefaults⟩

/-! ## Rules on order -/

/-- The rules for tasks find no error just if there are tasks, all of them complete and where they may stand,
and the order of their leaves is right. -/
theorem tasksFindings_clean_iff :
    (tasksFindings m files).Clean
      ↔ m.tasks ≠ [] ∧ (∀ t ∈ m.tasks, t.isStage = true ∧ Complete m files t)
        ∧ SavedFirst false (Task.flatten m.tasks) ∧ m.UpdateFirst := by
  constructor
  · intro h
    refine ⟨?_, complete_of_clean h, order_of_clean h⟩
    intro hnil
    simp [tasksFindings, hnil] at h
  · rintro ⟨hne, htasks, horder⟩
    rw [tasksFindings, if_neg (by simpa using hne), clean_append, orderFindings_clean_iff]
    exact ⟨clean_concat_of_forall fun t ht i => taskFindingsAt_clean (htasks t ht).1 (htasks t ht).2,
      horder⟩

theorem savedFirst_onLeaf (d : NotificationDefaults) {saved : Bool} {ls : List Leaf} :
    SavedFirst saved (ls.map d.onLeaf) ↔ SavedFirst saved ls := by
  induction ls generalizing saved with
  | nil => rw [List.map_nil]
  | cons l ls ih =>
      rw [List.map_cons, SavedFirst, SavedFirst, ih, d.readsArtifacts_onLeaf, d.savesArtifacts_onLeaf]

/-- The update restores nothing, and it saves nothing that could be restored behind it. -/
theorem savedFirst_withUpdateTask (h : SavedFirst false (Task.flatten m.tasks)) :
    SavedFirst false (Task.flatten m.withUpdateTask.tasks) := by
  rw [Manifest.withUpdateTask]
  split
  · rw [Manifest.updateTask, Task.flatten_leaf_cons, SavedFirst]
    refine ⟨?_, ?_⟩
    · simp [LeafOf.readsArtifacts, Action.readsArtifacts]
    · simpa [LeafOf.savesArtifacts, Action.savesArtifacts] using h
  · exact h

/-- The rules for tasks find no error once the defaults are filled in. -/
theorem tasksFindings_withDefaults (h : (tasksFindings m files).Clean) :
    (tasksFindings m.withDefaults files).Clean := by
  obtain ⟨hne, htasks, hsaved, hupdate⟩ := tasksFindings_clean_iff.1 h
  refine tasksFindings_clean_iff.2 ⟨?_, complete_withDefaults htasks, ?_, hupdate.withDefaults⟩
  · rw [Manifest.withDefaults_eq, Manifest.withUpdateTask]
    split <;> simp [hne]
  · rw [Manifest.flatten_withDefaults, savedFirst_onLeaf]
    exact savedFirst_withUpdateTask hsaved

/-! ## Rules that go from leaf to leaf -/

/-- Rules that go from leaf to leaf find no error once the defaults are filled in, if none of them looks at
where a leaf stands or at its notifications, and they find none at an update. -/
theorem concat_leaves_withDefaults {rule : TaskPath × Leaf → Findings}
    (hfill : ∀ path path' l, (rule (path, l)).Clean →
      (rule (path', m.notificationDefaults.onLeaf l)).Clean)
    (hupdate : ∀ path l, Task.leaf l = Manifest.updateTask → (rule (path, l)).Clean)
    (h : (concat ((Task.leaves m.tasks).map rule)).Clean) :
    (concat ((Task.leaves m.withDefaults.tasks).map rule)).Clean := by
  refine clean_concat.2 fun fs hfs => ?_
  obtain ⟨⟨path, l⟩, hl, rfl⟩ := List.mem_map.1 hfs
  obtain ⟨l', rfl, hl' | ⟨hl', -⟩⟩ :=
    Manifest.mem_flatten_withDefaults (List.mem_map_of_mem (f := Prod.snd) hl)
  · obtain ⟨⟨path', l'⟩, hmem, rfl⟩ := List.mem_map.1 hl'
    exact hfill path' path l' (clean_concat.1 h _ (List.mem_map_of_mem hmem))
  · exact hfill path path l' (hupdate path l' hl')

theorem secretsReport_withDefaults {c : Config} (h : (secretsReport c m).findings.Clean) :
    (secretsReport c m.withDefaults).findings.Clean := by
  refine concat_leaves_withDefaults (fun path path' l hl => ?_) (fun path l hl => ?_) h
  · exact clean_under.2 (clean_under.1 hl)
  · obtain rfl := Task.leaf.inj hl
    exact clean_under.2 (clean_append.2 ⟨clean_ofErrors.2 rfl, clean_empty⟩)

theorem deployManifestReport_withDefaults {c : Config} {s : Surroundings}
    (h : (deployManifestReport c m s).findings.Clean) :
    (deployManifestReport c m.withDefaults s).findings.Clean := by
  refine concat_leaves_withDefaults (fun path path' l hl => ?_) (fun path l hl => ?_) h
  · obtain ⟨attributes, action⟩ := l
    cases action with
    | deployCf d checks => exact clean_under.2 (clean_under.1 hl)
    | _ => exact clean_empty
  · obtain rfl := Task.leaf.inj hl
    exact clean_empty

/-! ## All linters -/

/-- Nothing that a build server ignores is an error. -/
theorem actionsReport_clean : (actionsReport m).findings.Clean := by
  rw [actionsReport]
  dsimp only
  split
  · refine clean_append.2 ⟨clean_concat.2 fun fs hfs => ?_, clean_concat.2 fun fs hfs => ?_⟩
    · obtain ⟨e, -, rfl⟩ := List.mem_map.1 hfs
      exact clean_under.2 clean_ofWarnings
    · obtain ⟨e, -, rfl⟩ := List.mem_map.1 hfs
      exact clean_under.2 clean_ofWarnings
  · exact clean_empty

/-- A manifest without lint errors has none once its defaults are filled in. -/
theorem accepted_withDefaults (c : Config) (s : Surroundings) (m : Manifest)
    (h : hasErrors (run c s m) = false) : hasErrors (run c s m.withDefaults) = false := by
  have hclean := clean_of_accepted h
  simp only [run, List.forall_mem_cons] at hclean
  obtain ⟨hmanifest, htoggles, htriggers, htasks, hsecrets, hdeploy, -⟩ := hclean
  refine accepted_of_clean ?_
  simp only [run, List.forall_mem_cons]
  refine ⟨?_, ?_, ?_, tasksFindings_withDefaults htasks, secretsReport_withDefaults hsecrets,
    deployManifestReport_withDefaults hdeploy, actionsReport_clean, List.forall_mem_nil _⟩
  -- the other rules look at what the defaults leave alone
  · rw [Manifest.withDefaults_eq]
    exact hmanifest
  · rw [Manifest.withDefaults_eq]
    exact htoggles
  · rw [Manifest.withDefaults_eq]
    exact htriggers

theorem sample_accepted_withDefaults :
    hasErrors (run {} sampleSurroundings sampleManifest) = false
      ∧ hasErrors (run {} sampleSurroundings sampleManifest.withDefaults) = false :=
  ⟨sample_accepted, accepted_withDefaults {} sampleSurroundings sampleManifest sample_accepted⟩

end Lint

end PipelineCompiler
