import PipelineCompiler.Proofs.Lint.Defaults
import PipelineCompiler.Proofs.Script

/-!
# Limits of leaves

A leaf may be retried, and its time limit is a text that is to be read as a duration. The rules for
attributes see to both, for the leaves of the pipeline and for those that check a candidate.
-/

namespace PipelineCompiler.Lint

/-- The time limit of the leaf can be read, and it is tried at most six times. -/
structure Bounded (l : Leaf) : Prop where
  timeout : (Duration.parse? l.timeout).isSome = true
  attempts : l.attempts ≤ 6

/-- The rules for attributes leave room for five retries, and for timeouts that can be read. -/
theorem bounded_of_attributeFaults {l : Leaf} (h : attributeFaults l.attributes = []) :
    Bounded l := by
  rw [attributeFaults, List.append_eq_nil_iff] at h
  obtain ⟨hretries, htimeout⟩ := h
  constructor
  · rw [LeafOf.timeout, orElse]
    split
    · decide +kernel
    · next hown =>
        by_contra hnone
        simp [hown, Option.not_isSome_iff_eq_none.1 hnone] at htimeout
  · have hbound : l.attributes.retries.toInt ≤ 5 := by
      by_contra hmany
      simp [hmany] at hretries
    rw [LeafOf.attempts]
    omega

/-- A check of a candidate without errors is bounded: it follows the rules for attributes, too. -/
theorem bounded_of_check {files : FileProbe} {l : Leaf}
    (h : (prePromoteFindings files (.leaf l)).Clean) : Bounded l := by
  refine bounded_of_attributeFaults ?_
  rw [prePromoteFindings] at h
  cases haction : l.action with
  | run r =>
      simp only [haction, Findings.clean_append, Findings.clean_ofErrors] at h
      exact h.2
  | consumerTest t =>
      simp only [haction, Findings.clean_append, Findings.clean_ofErrors] at h
      exact h.2
  | _ => simp [haction] at h

/-- A leaf without errors is bounded, and so is whatever checks its candidate. -/
theorem bounded_of_clean {m : Manifest} {files : FileProbe} {l : Leaf}
    (h : (leafFindings m files l).Clean) : ∀ runner ∈ l :: Script.checksOf l, Bounded runner := by
  have hadmits := admits_of_clean h
  rw [leafFindings, Findings.clean_append, Findings.clean_ofErrors] at h
  obtain ⟨haction, hattributes⟩ := h
  refine List.forall_mem_cons.2 ⟨bounded_of_attributeFaults hattributes, fun check hcheck => ?_⟩
  rw [Script.checksOf] at hcheck
  rw [Manifest.Admits] at hadmits
  cases hkind : l.action with
  | deployCf d prePromote =>
      rw [hkind] at hcheck hadmits
      rw [hkind, actionFindings, deployCfFindings, Findings.clean_append] at haction
      obtain ⟨t, ht, hholds⟩ := Task.mem_flatten.1 hcheck
      obtain ⟨j, hj⟩ := Findings.exists_clean_of_concat haction.2 ht
      cases t with
      | leaf l' =>
          obtain rfl := Task.holds_leaf.1 hholds
          exact bounded_of_check (Findings.clean_under.1 hj)
      | sequence tasks => simpa [Task.isCheck] using hadmits _ ht
      | parallel tasks => simpa [Task.isCheck] using hadmits _ ht
  | _ =>
      rw [hkind] at hcheck
      exact absurd hcheck List.not_mem_nil

/-- Every leaf of a manifest without lint errors, its defaults filled in, is bounded with its checks. -/
theorem bounded_of_accepted {c : Config} {s : Surroundings} {m : Manifest}
    (h : hasErrors (run c s m) = false) {e : TaskPath × Leaf} (he : e ∈ Task.leaves m.withDefaults.tasks) :
    ∀ runner ∈ e.2 :: Script.checksOf e.2, Bounded runner := by
  have hclean := tasksFindings_withDefaults (tasksFindings_clean h)
  exact bounded_of_clean (leafFindings_clean hclean (List.mem_map_of_mem he))

end PipelineCompiler.Lint
