import Mathlib.Data.List.Basic
import PipelineCompiler.Concourse.Resources
import PipelineCompiler.Proofs.Lint.Accepted

/-!
# Names that pipelines go by

The name that a pipeline is deployed under, the key of its version and the folder of its artifacts are
made from its team, its own name and its branch. Other pipelines should not get the same ones. The parts
are joined with dashes, which they may hold themselves, so that the same name comes about whenever it can
be cut in two ways (`IsCutApart`). The branches of one pipeline are not cut in two ways, and never share a
name (`pipelineName_ne_of_branch`). Folders drop what they do not hold, so that pipelines may share one that
share no name. `keys_ne_of_isApart` says that keys are shared in no other way.
-/

namespace PipelineCompiler

/-! ## Texts that are joined with a dash -/

/-- The first two texts and the other two are the same text, cut at an earlier and at a later dash. -/
def CutEarlier (a b a' b' : String) : Prop := ∃ x, a' = a ++ "-" ++ x ∧ b = x ++ "-" ++ b'

/-- Texts on both sides of a character are the same, or are cut at different places. -/
theorem append_cons_eq_iff {α : Type} {c : α} {xs ys xs' ys' : List α} :
    xs ++ c :: ys = xs' ++ c :: ys' ↔ (xs = xs' ∧ ys = ys')
      ∨ (∃ zs, xs' = xs ++ c :: zs ∧ ys = zs ++ c :: ys')
      ∨ (∃ zs, xs = xs' ++ c :: zs ∧ ys' = zs ++ c :: ys) := by
  constructor
  · intro h
    -- the shorter first part ends at the character, or further ahead at another one
    rcases List.append_eq_append_iff.1 h with ⟨zs, hxs, hys⟩ | ⟨zs, hxs, hys⟩
    · cases zs with
      | nil => exact .inl ⟨by simpa using hxs.symm, by simpa using hys⟩
      | cons z zs =>
          simp only [List.cons_append, List.cons.injEq] at hys
          obtain ⟨rfl, hys⟩ := hys
          exact .inr (.inl ⟨zs, hxs, hys⟩)
    · cases zs with
      | nil => exact .inl ⟨by simpa using hxs, by simpa using hys.symm⟩
      | cons z zs =>
          simp only [List.cons_append, List.cons.injEq] at hys
          obtain ⟨rfl, hys⟩ := hys
          exact .inr (.inr ⟨zs, hxs, hys⟩)
  · rintro (⟨rfl, rfl⟩ | ⟨zs, rfl, rfl⟩ | ⟨zs, rfl, rfl⟩)
    · rfl
    · simp
    · simp

theorem cutEarlier_iff {a b a' b' : String} :
    CutEarlier a b a' b'
      ↔ ∃ zs, a'.toList = a.toList ++ '-' :: zs ∧ b.toList = zs ++ '-' :: b'.toList := by
  constructor
  · rintro ⟨x, rfl, rfl⟩
    exact ⟨x.toList, by simp, by simp⟩
  · rintro ⟨zs, ha, hb⟩
    exact ⟨String.ofList zs, String.toList_inj.1 (by simp [ha]), String.toList_inj.1 (by simp [hb])⟩

/-- Joined texts are the same just if their parts are, or the text is cut at two places. -/
theorem append_dash_eq_iff {a b a' b' : String} :
    a ++ "-" ++ b = a' ++ "-" ++ b'
      ↔ (a = a' ∧ b = b') ∨ CutEarlier a b a' b' ∨ CutEarlier a' b' a b := by
  have hlist (s t : String) : (s ++ "-" ++ t).toList = s.toList ++ '-' :: t.toList := by simp
  rw [← String.toList_inj, hlist, hlist, append_cons_eq_iff, String.toList_inj, String.toList_inj,
    cutEarlier_iff, cutEarlier_iff]

theorem ne_append_dash (a x : String) : a ≠ a ++ "-" ++ x := by
  intro h
  have hlength := congrArg String.length h
  rw [String.length_append, String.length_append] at hlength
  have hdash : "-".length = 1 := rfl
  omega

theorem CutEarlier.ne {a b a' b' : String} (h : CutEarlier a b a' b') : a ≠ a' := by
  obtain ⟨x, rfl, -⟩ := h
  exact ne_append_dash a x

/-! ## The name of a pipeline -/

namespace Manifest

/-- The branch that a pipeline has to itself: the one that its repository names, unless that is one of
the branches whose pipelines carry the plain name. -/
def ownBranch? (m : Manifest) : Option String :=
  m.git?.bind fun g =>
    if g.branch.isEmpty || defaultBranches.contains g.branch then none else some g.branch

/-- What a branch adds to the name of its pipeline. -/
def branchSuffix : Option String → String
  | some branch => "-" ++ branch
  | none => ""

/-- The pipelines are not the same: their teams, their names or the branches that they have to themselves
are not. -/
def IsApart (m m' : Manifest) : Prop :=
  m.team ≠ m'.team ∨ m.pipeline ≠ m'.pipeline ∨ m.ownBranch? ≠ m'.ownBranch?

instance (m m' : Manifest) : Decidable (m.IsApart m') := by unfold IsApart; infer_instance

/-- The branch of the first pipeline begins with what its name lacks to the name of the second. -/
def Reaches (m m' : Manifest) : Prop :=
  ∃ x, m'.pipeline = m.pipeline ++ "-" ++ x ∧ m.ownBranch? = some (x ++ branchSuffix m'.ownBranch?)

theorem pipelineName_eq (m : Manifest) : m.pipelineName = m.pipeline ++ branchSuffix m.ownBranch? := by
  unfold pipelineName ownBranch?
  cases m.git? with
  | none => simp [branchSuffix]
  | some g =>
      by_cases hdefault : (g.branch.isEmpty || defaultBranches.contains g.branch) = true
      · simp only [Option.bind_some, if_pos hdefault, branchSuffix, String.append_empty]
      · simp only [Option.bind_some, if_neg hdefault, branchSuffix, String.append_assoc]

/-- Two pipelines have one name just if they are called the same and have the same branch, or the branch of
one makes up for what its name lacks to that of the other. -/
theorem pipelineName_eq_iff {m m' : Manifest} :
    m.pipelineName = m'.pipelineName
      ↔ (m.pipeline = m'.pipeline ∧ m.ownBranch? = m'.ownBranch?) ∨ m.Reaches m' ∨ m'.Reaches m := by
  rw [pipelineName_eq, pipelineName_eq, Reaches, Reaches]
  cases hb : m.ownBranch? with
  | none =>
      cases hb' : m'.ownBranch? with
      | none => simp [branchSuffix]
      | some branch' => simp [branchSuffix, String.append_assoc]
  | some branch =>
      cases hb' : m'.ownBranch? with
      | none =>
          simp only [branchSuffix, String.append_empty, String.append_assoc, Option.some.injEq]
          simpa using eq_comm
      | some branch' =>
          have hcut : m.pipeline ++ "-" ++ branch = m'.pipeline ++ "-" ++ branch' ↔ _ :=
            append_dash_eq_iff
          simpa [branchSuffix, CutEarlier, String.append_assoc] using hcut

theorem Reaches.ne {m m' : Manifest} (h : m.Reaches m') : m.pipeline ≠ m'.pipeline := by
  obtain ⟨x, hx, -⟩ := h
  rw [hx]
  exact ne_append_dash m.pipeline x

/-- The branches of one pipeline do not share a name. -/
theorem pipelineName_ne_of_branch {m m' : Manifest} (hpipeline : m.pipeline = m'.pipeline)
    (hbranch : m.ownBranch? ≠ m'.ownBranch?) : m.pipelineName ≠ m'.pipelineName := by
  intro hname
  rcases pipelineName_eq_iff.1 hname with ⟨-, heq⟩ | hreaches | hreaches
  · exact hbranch heq
  · exact hreaches.ne hpipeline
  · exact hreaches.ne hpipeline.symm

end Manifest

/-! ## Keys made from the name -/

namespace Concourse

/-- A version is kept under the team and the name of its pipeline. -/
theorem versionKey_eq (m : Manifest) : versionKey m = m.team ++ "-" ++ m.pipelineName := by
  unfold versionKey Manifest.pipelineName
  cases m.git? with
  | none => rfl
  | some g =>
      show (if _ then _ else _) = _
      split
      · next hdefault => simp only [if_pos hdefault]
      · next hdefault => simp only [if_neg hdefault, String.append_assoc]

theorem slash_not_mem_folderName (s : String) : '/' ∉ (Text.folderName s).toList := by
  rw [Text.folderName, String.toList_ofList]
  intro hslash
  have hkept := (List.mem_filter.1 hslash).2
  exact absurd hkept (by decide)

/-- Artifacts are in one folder just if nothing but what folders do not hold tells the teams and the names
apart. -/
theorem artifactsFolder_eq_iff {m m' : Manifest} :
    artifactsFolder m = artifactsFolder m' ↔ Text.folderName m.team = Text.folderName m'.team
      ∧ Text.folderName m.pipelineName = Text.folderName m'.pipelineName := by
  have hlist (s t : String) : (s ++ "/" ++ t).toList = s.toList ++ '/' :: t.toList := by simp
  have hnot {zs : List Char} {s t : String} (h : (Text.folderName s).toList = t.toList ++ '/' :: zs) :
      False := slash_not_mem_folderName s (by simp [h])
  rw [artifactsFolder, artifactsFolder, ← String.toList_inj, hlist, hlist, append_cons_eq_iff,
    String.toList_inj, String.toList_inj]
  constructor
  · rintro (h | ⟨zs, h, -⟩ | ⟨zs, h, -⟩)
    · exact h
    · exact (hnot h).elim
    · exact (hnot h).elim
  · exact .inl

end Concourse

/-! ## Which pipelines share what -/

namespace Manifest

/-- Two pipelines join one text from different parts: those of one team a name, those of two teams the key
of a version. -/
def IsCutApart (m m' : Manifest) : Prop :=
  (m.team = m'.team ∧ (m.Reaches m' ∨ m'.Reaches m))
    ∨ CutEarlier m.team m.pipelineName m'.team m'.pipelineName
    ∨ CutEarlier m'.team m'.pipelineName m.team m.pipelineName

/-- Of two pipelines of one team that are not the same, the branch of one has to make up for what its name
lacks to that of the other if they share a name. -/
theorem IsApart.pipelineName_eq_iff {m m' : Manifest} (h : m.IsApart m') (hteam : m.team = m'.team) :
    m.pipelineName = m'.pipelineName ↔ m.Reaches m' ∨ m'.Reaches m := by
  have hother : ¬ (m.pipeline = m'.pipeline ∧ m.ownBranch? = m'.ownBranch?) := by
    rintro ⟨hpipeline, hbranch⟩
    rcases h with hteam' | hpipeline' | hbranch'
    · exact hteam' hteam
    · exact hpipeline' hpipeline
    · exact hbranch' hbranch
  rw [Manifest.pipelineName_eq_iff, or_iff_right hother]

/-- Pipelines that are not the same share the key of their version just if it is cut at two places. -/
theorem IsApart.versionKey_eq_iff {m m' : Manifest} (h : m.IsApart m') :
    Concourse.versionKey m = Concourse.versionKey m' ↔ m.IsCutApart m' := by
  rw [Concourse.versionKey_eq, Concourse.versionKey_eq, append_dash_eq_iff]
  exact or_congr_left (and_congr_right h.pipelineName_eq_iff)

/-- The branches of one pipeline do not join one text from different parts. -/
theorem not_isCutApart_of_pipeline {m m' : Manifest} (hteam : m.team = m'.team)
    (hpipeline : m.pipeline = m'.pipeline) : ¬ m.IsCutApart m' := by
  rintro (⟨-, hreaches | hreaches⟩ | hcut | hcut)
  · exact hreaches.ne hpipeline
  · exact hreaches.ne hpipeline.symm
  · exact hcut.ne hteam
  · exact hcut.ne hteam.symm

end Manifest

/-- Pipelines that are not the same, and do not join one text from different parts, do not share the key of
their version, nor a name if they are of one team. They share a folder just if their teams and their names
come down to the same folders. -/
theorem keys_ne_of_isApart (m m' : Manifest) (h : m.IsApart m') (hcut : ¬ m.IsCutApart m') :
    (m.team = m'.team → m.pipelineName ≠ m'.pipelineName)
      ∧ Concourse.versionKey m ≠ Concourse.versionKey m'
      ∧ (Concourse.artifactsFolder m = Concourse.artifactsFolder m'
        ↔ Text.folderName m.team = Text.folderName m'.team
          ∧ Text.folderName m.pipelineName = Text.folderName m'.pipelineName) := by
  refine ⟨fun hteam hname => hcut ?_, mt h.versionKey_eq_iff.1 hcut, Concourse.artifactsFolder_eq_iff⟩
  exact .inl ⟨hteam, (h.pipelineName_eq_iff hteam).1 hname⟩

theorem twoBranches_keys :
    let m := Lint.pipelineOn "app" "red"
    let m' := Lint.pipelineOn "app" "blue"
    m.IsApart m' ∧ ¬ m.IsCutApart m' ∧ m.pipelineName ≠ m'.pipelineName
      ∧ Concourse.versionKey m ≠ Concourse.versionKey m'
      ∧ Concourse.artifactsFolder m ≠ Concourse.artifactsFolder m' := by
  intro m m'
  have hapart : m.IsApart m' := by decide
  have hcut : ¬ m.IsCutApart m' := Manifest.not_isCutApart_of_pipeline rfl rfl
  obtain ⟨hname, hkey, hfolder⟩ := keys_ne_of_isApart m m' hapart hcut
  exact ⟨hapart, hcut, hname rfl, hkey, mt hfolder.1 (by decide)⟩

/-- Pipelines of one team that are not the same and have no lint errors on their branches share the folder
of their artifacts where folders hold nothing that tells them apart, and their name and the key of their
version as well where these are cut at two places. -/
theorem keys_shared :
    (let m := Lint.pipelineOn "my_app" ""
      let m' := Lint.pipelineOn "myapp" ""
      Lint.hasErrors (Lint.run {} (Lint.surroundingsOn "master") m) = false
        ∧ Lint.hasErrors (Lint.run {} (Lint.surroundingsOn "master") m') = false
        ∧ m.team = m'.team ∧ m.IsApart m'
        ∧ Concourse.artifactsFolder m = Concourse.artifactsFolder m')
      ∧ let m := Lint.pipelineOn "app" "x-y"
        let m' := Lint.pipelineOn "app-x" "y"
        Lint.hasErrors (Lint.run {} (Lint.surroundingsOn "x-y") m) = false
          ∧ Lint.hasErrors (Lint.run {} (Lint.surroundingsOn "y") m') = false
          ∧ m.team = m'.team ∧ m.IsApart m'
          ∧ m.pipelineName = m'.pipelineName
          ∧ Concourse.versionKey m = Concourse.versionKey m'
          ∧ Concourse.artifactsFolder m = Concourse.artifactsFolder m' := by
  decide +kernel

end PipelineCompiler
