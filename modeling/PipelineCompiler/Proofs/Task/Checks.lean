import Mathlib.Logic.Relation
import PipelineCompiler.Proofs.Script
import PipelineCompiler.Proofs.Task.Artifacts

/-!
# What checks of a candidate count for

Tasks that check a candidate are no nodes of the tree, so that `flatten` leaves them out, and yet their
artifacts are a matter of the leaf that they belong to. A question about artifacts is put to the leaf
itself and to its checks in turn (`Involves`), which comes to one question about every leaf that
`IsPartOf` it, at whatever depth checks have checks of their own. Notifications are put to the leaf alone.
-/

namespace PipelineCompiler

/-! ## Leaves inside of a leaf -/

/-- The leaf is the other one or checks a candidate for it, itself or for one of its checks. -/
def LeafOf.IsPartOf (part l : Leaf) : Prop :=
  Relation.ReflTransGen (fun l check => check ∈ Script.checksOf l) l part

namespace Task

/-- A task of a group is smaller than the group. -/
theorem sizeOf_lt_of_mem_children {t u : Task} (hu : u ∈ t.children) : sizeOf u < sizeOf t := by
  have hlt := List.sizeOf_lt_of_mem hu
  cases t with
  | leaf l => exact absurd hu List.not_mem_nil
  | sequence tasks | parallel tasks =>
      rw [children] at hlt
      simp only [sequence.sizeOf_spec, parallel.sizeOf_spec]
      omega

/-- A leaf is no larger than a task that holds it. -/
theorem Holds.sizeOf_le {t : Task} {l : Leaf} (h : t.Holds l) : sizeOf l ≤ sizeOf t := by
  induction t using tree_induction with
  | leaf l' =>
      obtain rfl := holds_leaf.1 h
      simp
  | group t hgroup ih =>
      obtain ⟨u, hu, hl⟩ := (holds_group hgroup).1 h
      exact Nat.le_of_lt (Nat.lt_of_le_of_lt (ih u hu hl) (sizeOf_lt_of_mem_children hu))

end Task

/-- What checks a candidate is smaller than the leaf that it belongs to. -/
theorem Script.sizeOf_lt_of_mem_checksOf {l check : Leaf} (h : check ∈ Script.checksOf l) :
    sizeOf check < sizeOf l := by
  obtain ⟨attributes, action⟩ := l
  cases action with
  | deployCf d prePromote =>
      obtain ⟨t, ht, hcheck⟩ := Task.mem_flatten.1 (show check ∈ Task.flatten prePromote from h)
      have hle := hcheck.sizeOf_le
      have hlt := List.sizeOf_lt_of_mem ht
      simp only [LeafOf.mk.sizeOf_spec, Action.deployCf.sizeOf_spec]
      omega
  | _ => simp [Script.checksOf] at h

namespace LeafOf

/-- Checks of checks come to an end. -/
theorem wellFounded_checks : WellFounded fun check l : Leaf => check ∈ Script.checksOf l :=
  Subrelation.wf Script.sizeOf_lt_of_mem_checksOf (measure sizeOf).wf

/-- A question about leaves that is put to the leaf itself and to its checks in turn. -/
def Involves (f : Leaf → Bool) (own : Leaf → Prop) : Prop :=
  ∀ l, f l = true ↔ own l ∨ ∃ check ∈ Script.checksOf l, f check = true

/-- The answer for a leaf is yes if one of its parts says so of itself. -/
theorem Involves.iff_exists_isPartOf {f : Leaf → Bool} {own : Leaf → Prop} (h : Involves f own)
    {l : Leaf} : f l = true ↔ ∃ part : Leaf, part.IsPartOf l ∧ own part := by
  constructor
  · intro hf
    induction l using wellFounded_checks.induction with
    | _ l ih =>
        obtain hown | ⟨check, hcheck, hf⟩ := (h l).1 hf
        · exact ⟨l, .refl, hown⟩
        · obtain ⟨part, hpart, hown⟩ := ih check hcheck hf
          exact ⟨part, hpart.head hcheck, hown⟩
  · rintro ⟨part, hpart, hown⟩
    induction hpart using Relation.ReflTransGen.head_induction_on with
    | refl => exact (h part).2 (.inl hown)
    | head hcheck _ ih => exact (h _).2 (.inr ⟨_, hcheck, ih⟩)

/-! ## Artifacts -/

/-- The leaf restores artifacts for itself, whatever checks its candidate. -/
def RestoresItself (l : Leaf) : Prop :=
  l.attributes.restoreArtifacts = true ∨
    ∃ d prePromote, l.action = .deployCf d prePromote ∧
      (inArtifacts d.manifest = true ∨ inArtifacts d.deployArtifact = true)

theorem involves_savesArtifacts :
    Involves savesArtifacts fun l => l.attributes.saveArtifacts ≠ [] := by
  rintro ⟨attributes, action⟩
  rw [savesArtifacts]
  cases action <;>
    simp [Action.savesArtifacts, Script.checksOf, Task.anySavesArtifacts_iff]

theorem involves_savesArtifactsOnFailure :
    Involves savesArtifactsOnFailure fun l => l.attributes.saveArtifactsOnFailure ≠ [] := by
  rintro ⟨attributes, action⟩
  rw [savesArtifactsOnFailure]
  cases action <;>
    simp [Action.savesArtifactsOnFailure, Script.checksOf, Task.anySavesArtifactsOnFailure_iff]

theorem involves_readsArtifacts : Involves readsArtifacts RestoresItself := by
  rintro ⟨attributes, action⟩
  rw [readsArtifacts]
  cases action <;>
    simp [Action.readsArtifacts, Script.checksOf, RestoresItself, Task.anyReadsArtifacts_iff, or_assoc]

end LeafOf

end PipelineCompiler
