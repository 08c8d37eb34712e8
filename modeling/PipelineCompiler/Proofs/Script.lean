import PipelineCompiler.Proofs.Manifest.Renderable
import PipelineCompiler.Proofs.Traversal
import PipelineCompiler.Proofs.Vars
import PipelineCompiler.Script
import PipelineCompiler.Task.Artifacts

/-!
# Scripts of leaves

Every leaf whose action runs as a script has one, and so has every check of a candidate. The script of a
leaf saves and restores what the leaf does. Scripts that the job of a leaf runs are those of its runners,
which are the leaf itself or the checks of its candidate.
-/

namespace PipelineCompiler

/-- The action runs as a script. -/
def Action.isScript {τ : Type} : Action τ → Bool
  | .run _ | .dockerCompose _ | .deployMlZip _ | .deployMlModules _ | .consumerTest _ => true
  | .dockerPush _ | .deployCf _ _ | .deployKatee _ | .update _ => false

namespace Script

variable {c : Config} {m : Manifest} {l : Leaf} {s : Script}

theorem exists_ofLeaf? (c : Config) (m : Manifest) (h : l.action.isScript = true) :
    ∃ s, ofLeaf? c m l = some s := by
  obtain ⟨attributes, action⟩ := l
  cases action <;> simp_all [Action.isScript, ofLeaf?]

/-- The script of a leaf differs from it in its name and its variables only. -/
theorem attributes_ofLeaf? (h : ofLeaf? c m l = some s) :
    ∃ name vars, s.attributes = { l.attributes with name, vars } := by
  obtain ⟨attributes, action⟩ := l
  cases action <;> simp only [ofLeaf?, Option.some.injEq, reduceCtorEq] at h <;> subst h <;>
    exact ⟨_, _, rfl⟩

theorem isScript_of_ofLeaf? (h : ofLeaf? c m l = some s) : l.action.isScript = true := by
  obtain ⟨attributes, action⟩ := l
  cases action <;> simp_all [Action.isScript, ofLeaf?]

/-- No script updates the pipeline. -/
theorem isUpdate_of_isScript (h : l.action.isScript = true) : l.isUpdate = false := by
  rw [LeafOf.isUpdate]
  cases haction : l.action <;> simp_all [Action.isScript]

/-- What a leaf that runs as a script does with artifacts is a matter of its attributes. -/
theorem artifacts_of_isScript (h : l.action.isScript = true) :
    l.savesArtifacts = !l.attributes.saveArtifacts.isEmpty
      ∧ l.savesArtifactsOnFailure = !l.attributes.saveArtifactsOnFailure.isEmpty
      ∧ l.readsArtifacts = l.attributes.restoreArtifacts := by
  obtain ⟨attributes, action⟩ := l
  rw [LeafOf.savesArtifacts, LeafOf.savesArtifactsOnFailure, LeafOf.readsArtifacts]
  cases action <;> simp_all [Action.isScript, Action.savesArtifacts, Action.savesArtifactsOnFailure,
    Action.readsArtifacts]

/-- The script of a leaf does with artifacts what the leaf does. -/
theorem artifacts_ofLeaf? (h : ofLeaf? c m l = some s) :
    s.leaf.savesArtifacts = l.savesArtifacts
      ∧ s.leaf.savesArtifactsOnFailure = l.savesArtifactsOnFailure
      ∧ s.leaf.readsArtifacts = l.readsArtifacts := by
  obtain ⟨name, vars, hattributes⟩ := attributes_ofLeaf? h
  obtain ⟨hsaves, honFailure, hreads⟩ := artifacts_of_isScript (isScript_of_ofLeaf? h)
  obtain ⟨hsaves', honFailure', hreads'⟩ := artifacts_of_isScript (l := s.leaf) rfl
  rw [hsaves, honFailure, hreads, hsaves', honFailure', hreads', leaf, hattributes]
  exact ⟨rfl, rfl, rfl⟩

/-- Whatever checks a candidate is a script of the author or a consumer test. -/
theorem action_of_isCheck {prePromote : List Task} (h : ∀ t ∈ prePromote, t.isCheck = true)
    (hl : l ∈ Task.flatten prePromote) :
    (∃ r, l.action = .run r) ∨ ∃ t, l.action = .consumerTest t := by
  obtain ⟨t, ht, hl⟩ := Task.mem_flatten.1 hl
  have hcheck := h t ht
  cases t with
  | leaf l' =>
      obtain rfl := Task.holds_leaf.1 hl
      obtain ⟨attributes, action⟩ := l'
      cases action <;> simp_all [Task.isCheck]
  | sequence tasks => simp [Task.isCheck] at hcheck
  | parallel tasks => simp [Task.isCheck] at hcheck

/-- Whatever checks a candidate runs as a script. -/
theorem isScript_of_isCheck {prePromote : List Task} (h : ∀ t ∈ prePromote, t.isCheck = true)
    (hl : l ∈ Task.flatten prePromote) : l.action.isScript = true := by
  rcases action_of_isCheck h hl with ⟨r, haction⟩ | ⟨t, haction⟩
  · rw [haction, Action.isScript]
  · rw [haction, Action.isScript]

/-! ## What runs for a leaf -/

/-- The leaves that check the candidate of a leaf. -/
def checksOf (l : Leaf) : List Leaf :=
  match l.action with
  | .deployCf _ prePromote => Task.flatten prePromote
  | _ => []

/-- The leaves that run as scripts in the job of a leaf: the leaf itself, or else what checks its
candidate. -/
def runners (l : Leaf) : List Leaf := if l.action.isScript then [l] else checksOf l

theorem runners_of_isScript (h : l.action.isScript = true) : runners l = [l] := if_pos h

theorem checksOf_deployCf {d : DeployCf} {prePromote : List Task}
    (h : l.action = .deployCf d prePromote) : checksOf l = Task.flatten prePromote := by
  rw [checksOf, h]

theorem runners_deployCf {d : DeployCf} {prePromote : List Task}
    (h : l.action = .deployCf d prePromote) : runners l = Task.flatten prePromote := by
  rw [runners, h]
  exact checksOf_deployCf h

/-- Whatever runs for a leaf that the manifest has all for runs as a script. -/
theorem isScript_of_mem_runners {runner : Leaf} (hadmits : m.Admits l) (h : runner ∈ runners l) :
    runner.action.isScript = true := by
  by_cases hscript : l.action.isScript = true
  · rw [runners_of_isScript hscript, List.mem_singleton] at h
    rwa [h]
  · rw [runners, if_neg hscript] at h
    rw [Manifest.Admits] at hadmits
    cases haction : l.action with
    | deployCf d prePromote =>
        rw [haction] at hadmits
        rw [checksOf_deployCf haction] at h
        exact isScript_of_isCheck hadmits h
    | _ =>
        rw [checksOf, haction] at h
        exact absurd h List.not_mem_nil

/-- The script of a consumer test is told the host of its provider that the test names. -/
theorem providerHost_ofLeaf? {t : ConsumerTest} (haction : l.action = .consumerTest t)
    (hs : ofLeaf? c m l = some s) : s.attributes.vars.get? "PROVIDER_HOST" = some t.providerHost := by
  rw [ofLeaf?, haction] at hs
  obtain rfl := Option.some.inj hs
  rw [withVars, Vars.get?_setAll]
  rfl

end Script

end PipelineCompiler
