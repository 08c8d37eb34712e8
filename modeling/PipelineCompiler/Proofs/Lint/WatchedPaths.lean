import PipelineCompiler.Lint.TriggerRules
import PipelineCompiler.Proofs.Surroundings.Memory

/-!
# Watched paths start at the root of the repository

A base path leads down from the root of the repository to the directory of the manifest, and what the rule
for watched paths puts in front of one leads back up again (`resolve_fromRoot`). A probe that resolves paths
by their text therefore gives the same findings wherever it is asked from (`watchedPathFindings_fromRoot`).
-/

namespace PipelineCompiler

namespace Path

/-- Steps to the parent directory as they are written in front of a path are segments of their own. -/
theorem segments_parents (levels : Nat) (path : String) :
    segments (String.join (List.replicate levels "../") ++ path).toList
      = List.replicate levels up ++ segments path.toList := by
  induction levels with
  | zero => simp
  | succ levels ih =>
      have hfirst : (String.join (List.replicate (levels + 1) "../") ++ path).toList
          = up ++ '/' :: (String.join (List.replicate levels "../") ++ path).toList := by
        simp [List.replicate_succ, up]
      have hup : segments up = [up] := by decide
      rw [hfirst, segments_append_slash, ih, hup, List.replicate_succ]
      rfl

/-- A path that leads down is as deep as it has segments that lead anywhere. -/
theorem Descends.length_resolve {path : List Char} (h : Descends path) :
    (resolve [path]).length = ((segments path).filter fun s => s ≠ [] ∧ s ≠ here).length := by
  have hsame : ∀ s ∈ segments path, decide (IsOrdinary s) = decide (s ≠ [] ∧ s ≠ here) := by
    intro s hs
    refine decide_eq_decide.2 ⟨fun hordinary => ⟨hordinary.1, hordinary.2.1⟩, fun hleads => ?_⟩
    rcases h s hs with hordinary | hblank | hhere
    · exact hordinary
    · exact absurd hblank hleads.1
    · exact absurd hhere hleads.2
  rw [resolve, List.flatMap_singleton, foldl_follow_of_descending h, List.append_nil, List.reverse_reverse,
    List.filter_congr hsame]

end Path

namespace Lint

open PipelineCompiler.Path

/-- Seen from the directory that a base path leads down to, a path behind as many steps up leads to where it
leads from the root. -/
theorem resolve_fromRoot {base : String} (h : Descends base.toList) (path : String) :
    resolve [base.toList, (String.join (List.replicate (baseDepth base) "../") ++ path).toList]
      = resolve [path.toList] := by
  have hdown : ∀ s ∈ (resolve [base.toList]).reverse, IsOrdinary s := fun s hs =>
    h.isOrdinary s (List.mem_reverse.1 hs)
  have hdepth : baseDepth base = (resolve [base.toList]).reverse.length := by
    rw [List.length_reverse, h.length_resolve, baseDepth]
  rw [resolve, List.flatMap_cons, List.flatMap_singleton, segments_parents, List.foldl_append,
    List.foldl_append, h.foldl_follow, hdepth, foldl_follow_replicate_up hdown, resolve,
    List.flatMap_singleton]

/-- The probe is rooted at a directory of a tree and resolves paths by their text: something stands at a path
if it stands at the place of the tree that the path leads to from the directory. -/
def ResolvesFrom (dir : String) (stands : List Segment → Bool) (files : FileProbe) : Prop :=
  ∀ path, files.exists? path = stands (resolve [dir.toList, path.toList])

/-- Files held in memory, seen from a directory among them. -/
def seenFrom (dir : String) (m : MemoryFiles) : FileProbe where
  check path executable := m.check (join [dir, path]) executable
  exists? path := m.exists? (join [dir, path])

/-- Something stands at a place of files held in memory. -/
def standsIn (m : MemoryFiles) (place : List Segment) : Bool := m.exists? (String.ofList (text place))

theorem resolvesFrom_seenFrom (dir : String) (m : MemoryFiles) :
    ResolvesFrom dir (standsIn m) (seenFrom dir m) := fun _ => rfl

/-- Seen from their own directory, files held in memory are found as they are. -/
theorem resolvesFrom_probe (m : MemoryFiles) : ResolvesFrom "" (standsIn m) m.probe := by
  intro path
  have hnormal : normalize (join ["", path]) = normalize path := by
    rw [normalize_eq_join, normalize_eq_join]
    exact join_append_join [] ["", path] []
  exact (MemoryFiles.answers_eq_of_normalize hnormal).1.symm

section Rooted

variable {base : String} {stands : List Segment → Bool} {inner outer : FileProbe}

theorem watchedPathFault?_fromRoot (hbase : Descends base.toList) (hinner : ResolvesFrom base stands inner)
    (houter : ResolvesFrom "" stands outer) (watched : String) :
    watchedPathFault? base inner watched = watchedPathFault? "" outer watched := by
  have hroot : Descends "".toList := by decide
  have hstands (path : String) :
      inner.exists? (String.join (List.replicate (baseDepth base) "../") ++ path)
        = outer.exists? (String.join (List.replicate (baseDepth "") "../") ++ path) := by
    rw [hinner, houter, resolve_fromRoot hbase, resolve_fromRoot hroot]
  rw [watchedPathFault?, watchedPathFault?]
  simp only [hstands]

/-- Watched paths are judged from the root of the repository wherever the manifest lives: a probe rooted at
the directory of the manifest, with its base path, gives the findings of a probe of the same tree that is
rooted at the root of the repository. -/
theorem watchedPathFindings_fromRoot (hbase : Descends base.toList) (hinner : ResolvesFrom base stands inner)
    (houter : ResolvesFrom "" stands outer) (g : GitTrigger) :
    watchedPathFindings { g with basePath := base } inner
      = watchedPathFindings { g with basePath := "" } outer := by
  rw [watchedPathFindings, watchedPathFindings]
  refine congrArg Findings.ofErrors (List.filterMap_congr fun watched _ => ?_)
  exact watchedPathFault?_fromRoot hbase hinner houter watched

end Rooted

/-- Two applications and something they share. -/
def twoApplications : MemoryFiles :=
  MemoryFiles.ofAdditions
    [("apps/web/src/main.rs", .file "x" false), ("apps/api/go.mod", .file "x" false), ("lib", .directory)]

/-- A trigger that watches an application, another one beside it, what they share, and what is not there. -/
def watchingTrigger : GitTrigger where
  watchedPaths := ["apps/web/src/*.rs", "./apps//web/../api", "../app/lib", "lib/**", "docs/[", "/apps/db/*"]

theorem twoApplications_watched :
    Descends "./apps/web".toList
      ∧ ResolvesFrom "./apps/web" (standsIn twoApplications) (seenFrom "./apps/web" twoApplications)
      ∧ ResolvesFrom "" (standsIn twoApplications) twoApplications.probe
      ∧ (watchedPathFindings { watchingTrigger with basePath := "" } twoApplications.probe).errors.length = 3
      ∧ watchedPathFindings { watchingTrigger with basePath := "./apps/web" }
            (seenFrom "./apps/web" twoApplications)
          = watchedPathFindings { watchingTrigger with basePath := "" } twoApplications.probe := by
  have hbase : Descends "./apps/web".toList := by decide +kernel
  have hinner := resolvesFrom_seenFrom "./apps/web" twoApplications
  have houter := resolvesFrom_probe twoApplications
  exact ⟨hbase, hinner, houter, by decide +kernel,
    watchedPathFindings_fromRoot hbase hinner houter watchingTrigger⟩

end Lint

end PipelineCompiler
