import PipelineCompiler.Proofs.Actions.Jobs
import PipelineCompiler.Proofs.Concourse.Names
import PipelineCompiler.Proofs.Concourse.References
import PipelineCompiler.Proofs.Lint.Accepted

/-!
# The branch that is followed

A manifest is accepted on the branch that its repository names, and both build servers follow that one
branch. A repository that names none is accepted on `master` and on `main`, but `master` is what is
followed. `tracks_of_accepted` says that this is the only way to follow a branch other than the current
one, and `unnamedBranch_lost` that it happens.
-/

namespace PipelineCompiler

/-! ## What the rules let pass -/

namespace Lint

/-- A branch that the rules let pass is the one that is followed, but for `main` where none is named. -/
theorem branchOrDefault_eq_iff {g : GitTrigger} {current : String}
    (h : branchFault? g.branch current = none) :
    g.branchOrDefault = current ↔ ¬ (g.branch = "" ∧ current = "main") := by
  unfold branchFault? at h
  unfold GitTrigger.branchOrDefault
  by_cases hblank : g.branch = ""
  · have hdefault : current = "master" ∨ current = "main" := by
      by_contra hother
      simp_all [Manifest.defaultBranches]
    rcases hdefault with rfl | rfl
    · simp [hblank]
    · simp [hblank]
  · have hnamed : g.branch = current := by
      by_contra hother
      simp [hblank, hother] at h
    rw [if_neg (by simpa using hblank)]
    exact iff_of_true hnamed fun hunset => hblank hunset.1

/-- The repository of a manifest without lint errors passes the rule for its branch. -/
theorem branchFault?_eq_none_of_accepted {c : Config} {s : Surroundings} {m : Manifest}
    (h : hasErrors (run c s m) = false) {g : GitTrigger} (hg : .git g ∈ m.triggers) {current : String}
    (hcurrent : s.git.branch = .ok current) : branchFault? g.branch current = none := by
  have htriggers : (triggersFindings m s).Clean :=
    clean_of_accepted h (triggersReport c m s) (by simp [run])
  rw [triggersFindings, Findings.clean_append] at htriggers
  obtain ⟨i, hi⟩ := Findings.exists_clean_of_concat htriggers.2 hg
  have hgit : (gitFindings g s.files s.git).Clean := Findings.clean_under.1 hi
  simp only [gitFindings, Findings.clean_append, hcurrent, Findings.clean_ofErrors] at hgit
  exact Option.toList_eq_nil_iff.1 hgit.2

end Lint

namespace Manifest

/-- A manifest that can be rendered has one repository and no other. -/
theorem Renderable.filterMap_git? {m : Manifest} (h : m.Renderable) {g : GitTrigger}
    (hg : .git g ∈ m.triggers) : m.triggers.filterMap Trigger.git? = [g] := by
  have hlength (ts : List Trigger) :
      (ts.filterMap Trigger.git?).length = (ts.filter fun t => t.kind = "git").length := by
    rw [List.length_filterMap_eq_countP, ← List.countP_eq_length_filter]
    refine List.countP_congr fun t _ => ?_
    cases t <;> simp [Trigger.git?, Trigger.kind]
  have hone : (m.triggers.filterMap Trigger.git?).length = 1 := (hlength m.triggers).trans h.git
  obtain ⟨g', hg'⟩ := List.length_eq_one_iff.1 hone
  have hmem : g ∈ m.triggers.filterMap Trigger.git? := List.mem_filterMap.2 ⟨.git g, hg, rfl⟩
  rw [hg', List.mem_singleton] at hmem
  rw [hg', hmem]

end Manifest

/-! ## Pipelines -/

namespace Concourse

/-- The branch that a resource is set to. -/
def Resource.branch? (r : Resource) : Option String := (named? r.source "branch").bind Setting.text?

/-- The pipeline has a repository, and follows one branch of it. -/
structure Pipeline.Tracks (p : Pipeline) (branch : String) : Prop where
  declared : ∃ r ∈ p.resources, r.kind = "git"
  branch : ∀ r ∈ p.resources, r.kind = "git" → r.branch? = some branch

theorem branch?_gitResource (g : GitTrigger) : (gitResource g).branch? = some g.branchOrDefault := by
  have hlast (entries : Settings) (h : ∀ e ∈ entries, e.1 ≠ "branch") (v : Setting) :
      named? (entries ++ [("branch", v)]) "branch" = some v := by
    have hnone : entries.find? (fun e => e.1 = "branch") = none :=
      List.find?_eq_none.2 fun e he => by simpa using h e he
    simp [named?, List.find?_append, hnone]
  rw [Resource.branch?, gitResource, hlast]
  · rfl
  · intro e he
    simp only [List.mem_append, List.mem_singleton, Settings.textUnlessBlank, List.mem_ite_nil_left]
      at he
    rcases he with (((rfl | ⟨-, rfl⟩) | ⟨-, rfl⟩) | ⟨-, rfl⟩) | ⟨-, rfl⟩ <;> simp

variable {c : Config} {m : Manifest}

/-- The pipeline of a manifest that can be rendered follows the branch of its repository. -/
theorem tracks_of_renderable (c : Config) (h : m.Renderable) {g : GitTrigger} (hg : .git g ∈ m.triggers) :
    ∃ p, render c m = .ok p ∧ p.Tracks g.branchOrDefault := by
  obtain ⟨js, hrender, -⟩ := render_eq_ok c h
  obtain ⟨i, hi⟩ := List.mem_iff_getElem?.1 hg
  have hcoherent := ResourceSet.ofManifest_coherent c m
  obtain ⟨name, hname, hmem⟩ := (ResourceSet.ofManifest_provides (c := c) h).triggers _ i hi
  rw [ResourceSet.trigger?_git c h hi, Option.some.injEq] at hname
  subst hname
  refine ⟨_, hrender, ⟨_, hmem, rfl⟩, fun r hr hkind => ?_⟩
  -- both resources bear the name of the repository, which only one can
  have hr' : r = (triggerResource (.git g)).renamed gitName :=
    List.inj_on_of_nodup_map hcoherent.names hr hmem (ResourceSet.bears_git c h r hr hkind)
  rw [hr']
  exact branch?_gitResource g

end Concourse

/-! ## Workflows -/

namespace Actions

/-- Of the triggers only repositories decide which commits start a workflow. -/
theorem push_foldl_add (e : Events) (ts : List Trigger) :
    (ts.foldl Events.add e).push = (ts.filterMap Trigger.git?).foldl
      (fun push g => if g.manualTrigger then push
        else some ⟨[g.branchOrDefault], g.watchedPaths, g.ignoredPaths⟩) e.push := by
  induction ts generalizing e with
  | nil => rfl
  | cons t ts ih =>
      rw [List.foldl_cons, ih]
      cases t with
      | git g =>
          have hgit : Trigger.git? (.git g) = some g := rfl
          rw [List.filterMap_cons_some hgit, List.foldl_cons, Events.add]
          split <;> rfl
      | _ => rfl

/-- The workflow of a manifest that can be rendered follows the branch of its repository, unless someone
has to start it. -/
theorem push_of_renderable (c : Config) {m : Manifest} (h : m.Renderable) {g : GitTrigger}
    (hg : .git g ∈ m.triggers) :
    ∃ w, render c m = .ok w
      ∧ w.on.push.map Push.branches = if g.manualTrigger then none else some [g.branchOrDefault] := by
  obtain ⟨w, hrender, -⟩ := render_eq_ok c h
  have hon : w.on = Events.ofManifest m := by
    obtain ⟨-, -, hjobs⟩ := bind_eq_ok.1 hrender
    obtain ⟨js, -, hw⟩ := bind_eq_ok.1 hjobs
    rw [← Except.ok.inj hw]
  refine ⟨w, hrender, ?_⟩
  rw [hon, Events.ofManifest, push_foldl_add, h.filterMap_git? hg]
  cases hmanual : g.manualTrigger with
  | true => simp [hmanual]
  | false => simp [hmanual]

end Actions

/-! ## Accepted manifests -/

/-- For a manifest without lint errors, its defaults filled in, both build servers follow the branch of its
repository, the workflow only if nobody has to start it. That is the current branch of the working copy,
unless the repository names no branch and the current one is `main`. -/
theorem tracks_of_accepted (c : Config) (s : Surroundings) (m : Manifest) (current : String)
    (h : Lint.hasErrors (Lint.run c s m) = false) (hcurrent : s.git.branch = .ok current) :
    ∃ g p w, m.git? = some g
      ∧ Concourse.render c m.withDefaults = .ok p ∧ p.Tracks g.branchOrDefault
      ∧ Actions.render c m.withDefaults = .ok w
      ∧ w.on.push.map Actions.Push.branches
        = (if g.manualTrigger then none else some [g.branchOrDefault])
      ∧ (g.branchOrDefault = current ↔ ¬ (g.branch = "" ∧ current = "main")) := by
  have hrenderable := Lint.renderable_of_accepted h
  obtain ⟨g, hg⟩ := hrenderable.exists_git
  have hg' : .git g ∈ m.withDefaults.triggers := by rwa [Manifest.withDefaults_eq]
  obtain ⟨p, hp, htracks⟩ := Concourse.tracks_of_renderable c hrenderable.withDefaults hg'
  obtain ⟨w, hw, hpush⟩ := Actions.push_of_renderable c hrenderable.withDefaults hg'
  exact ⟨g, p, w, Manifest.firstGit?_eq_some hrenderable.git hg, hp, htracks, hw, hpush,
    Lint.branchOrDefault_eq_iff (Lint.branchFault?_eq_none_of_accepted h hg hcurrent)⟩

theorem featureBranch_tracked :
    Lint.hasErrors (Lint.run {} (Lint.surroundingsOn "feature") (Lint.pipelineOn "app" "feature"))
        = false
      ∧ (Lint.surroundingsOn "feature").git.branch = .ok "feature"
      ∧ ∃ g p w, (Lint.pipelineOn "app" "feature").git? = some g
        ∧ Concourse.render {} (Lint.pipelineOn "app" "feature").withDefaults = .ok p
        ∧ p.Tracks g.branchOrDefault
        ∧ Actions.render {} (Lint.pipelineOn "app" "feature").withDefaults = .ok w
        ∧ w.on.push.map Actions.Push.branches
          = (if g.manualTrigger then none else some [g.branchOrDefault])
        ∧ (g.branchOrDefault = "feature" ↔ ¬ (g.branch = "" ∧ "feature" = "main")) := by
  have haccepted : Lint.hasErrors
      (Lint.run {} (Lint.surroundingsOn "feature") (Lint.pipelineOn "app" "feature")) = false := by
    decide +kernel
  exact ⟨haccepted, rfl, tracks_of_accepted {} _ _ "feature" haccepted rfl⟩

/-- On `main`, a manifest whose repository names no branch has no lint error, and neither build server
follows `main`. -/
theorem unnamedBranch_lost :
    Lint.hasErrors (Lint.run {} Lint.sampleSurroundings (Lint.pipelineOn "app" "")) = false
      ∧ Lint.sampleSurroundings.git.branch = .ok "main"
      ∧ ∃ p w, Concourse.render {} (Lint.pipelineOn "app" "").withDefaults = .ok p ∧ ¬ p.Tracks "main"
        ∧ Actions.render {} (Lint.pipelineOn "app" "").withDefaults = .ok w
        ∧ w.on.push.map Actions.Push.branches = some ["master"] := by
  have haccepted :
      Lint.hasErrors (Lint.run {} Lint.sampleSurroundings (Lint.pipelineOn "app" "")) = false := by
    decide +kernel
  have hrenderable := (Lint.renderable_of_accepted haccepted).withDefaults
  obtain ⟨p, hp, htracks⟩ := Concourse.tracks_of_renderable {} hrenderable List.mem_cons_self
  obtain ⟨w, hw, hpush⟩ := Actions.push_of_renderable {} hrenderable List.mem_cons_self
  refine ⟨haccepted, rfl, p, w, hp, fun hmain => ?_, hw, hpush⟩
  obtain ⟨r, hr, hkind⟩ := htracks.declared
  have hbranch := (hmain.branch r hr hkind).symm.trans (htracks.branch r hr hkind)
  exact absurd hbranch (by decide)

end PipelineCompiler
