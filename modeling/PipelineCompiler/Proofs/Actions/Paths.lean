import PipelineCompiler.Proofs.ArtifactPaths
import PipelineCompiler.Proofs.Path.Resolution

/-!
# Paths in the working copy

A path of the manifest is taken from the base path, and whatever of it would climb out of the working copy
is left out. What remains are ordinary segments, so that no path leads out (`repoPath_inside`). Restored
artifacts are kept beside the directory of the manifest, or inside of the working copy where there is no
directory beside it; a path into them goes on from there by its own segments.
-/

namespace PipelineCompiler.Actions

open PipelineCompiler.Path (Segment IsOrdinary up)

/-- The path is the working copy, or leads into it by one or more ordinary segments. -/
def StaysInside (path : String) : Prop :=
  path = "." ∨ ∃ place : List Segment,
    place ≠ [] ∧ (∀ s ∈ place, IsOrdinary s ∧ '/' ∉ s) ∧ path = String.ofList (Path.text place)

/-- The step downloads artifacts to a directory. -/
def Step.DownloadsTo (s : Step) (dir : String) : Prop :=
  s.action?.map bareAction = some downloadAction ∧ s.input? "path" = some dir

/-! ## Climbing that is left out -/

/-- The way down from the root of the working copy. -/
def wayIn (base path : String) : List Segment :=
  (Path.resolve [base.toList, path.toList]).dropWhile (· = up)

theorem repoPath_eq (base path : String) :
    repoPath base path
      = if wayIn base path = [] then "." else String.ofList (Path.text (wayIn base path)) := by
  have hdef : repoPath base path
      = if (wayIn base path).isEmpty then "." else String.ofList (Path.text (wayIn base path)) := rfl
  rw [hdef]
  cases wayIn base path with
  | nil => rfl
  | cons s rest => rfl

/-- All the climbing of a place stands in front of the ordinary segments. -/
theorem dropWhile_climb {down : List Segment} (h : ∀ s ∈ down, IsOrdinary s) (levels : Nat) :
    (List.replicate levels up ++ down).dropWhile (· = up) = down := by
  rw [List.dropWhile_append_of_pos fun s hs => decide_eq_true (List.eq_of_mem_replicate hs)]
  cases down with
  | nil => rfl
  | cons s down =>
      have hs : s ≠ up := (h s List.mem_cons_self).2.2
      rw [List.dropWhile_cons_of_neg (by simpa using hs)]

theorem isOrdinary_of_mem_wayIn {base path : String} {s : Segment} (hs : s ∈ wayIn base path) :
    IsOrdinary s := by
  obtain ⟨levels, down, hplace, hdown⟩ := Path.isNormal_resolve [base.toList, path.toList]
  rw [wayIn, hplace, dropWhile_climb hdown] at hs
  exact hdown s hs

theorem slash_not_mem_of_mem_wayIn {base path : String} {s : Segment} (hs : s ∈ wayIn base path) :
    '/' ∉ s := by
  apply Path.slash_not_mem_resolve
  exact (List.dropWhile_sublist _).subset hs

theorem repoPath_staysInside (base path : String) : StaysInside (repoPath base path) := by
  rw [repoPath_eq]
  by_cases hway : wayIn base path = []
  · rw [if_pos hway]
    exact .inl rfl
  · rw [if_neg hway]
    refine .inr ⟨_, hway, fun s hs => ?_, rfl⟩
    exact ⟨isOrdinary_of_mem_wayIn hs, slash_not_mem_of_mem_wayIn hs⟩

/-! ## Restored artifacts -/

/-- The directory of restored artifacts stands in place of the last segment of the base path, or in the root
if there is none. -/
def artifactsPlace (base : String) : List Segment :=
  (Path.resolve [base.toList]).dropLast ++ ["artifacts".toList]

theorem artifactsPlace_ne_nil (base : String) : artifactsPlace base ≠ [] :=
  List.append_ne_nil_of_right_ne_nil _ (List.cons_ne_nil _ [])

section Restored

variable {base : String} (hbase : Path.Descends base.toList)
include hbase

theorem artifactsPlace_ordinary (ss : List Segment) :
    ∀ s ∈ artifactsPlace base ++ ss.filter fun s => IsOrdinary s, IsOrdinary s := by
  intro s hs
  rcases List.mem_append.1 hs with hs | hs
  · rcases List.mem_append.1 hs with hs | hs
    · exact hbase.isOrdinary s ((List.dropLast_sublist _).subset hs)
    · rw [List.mem_singleton.1 hs]
      decide
  · exact of_decide_eq_true (List.mem_filter.1 hs).2

/-- A path into restored artifacts leads there and on by its own segments. -/
theorem wayIn_restored {path : String} {ss : List Segment}
    (hpath : Path.segments path.toList = up :: "artifacts".toList :: ss)
    (hss : ∀ s ∈ ss, IsOrdinary s ∨ s = [] ∨ s = Path.here) :
    wayIn base path = artifactsPlace base ++ ss.filter fun s => IsOrdinary s := by
  have hreached : Path.resolve [base.toList, path.toList]
      = (Path.follow (Path.resolve [base.toList]).reverse up).reverse
        ++ ("artifacts".toList :: ss.filter fun s => IsOrdinary s) := by
    have hbased : (Path.segments base.toList).foldl Path.follow [] = (Path.resolve [base.toList]).reverse := by
      rw [hbase.foldl_follow, List.append_nil]
    rw [Path.resolve, List.flatMap_cons, List.flatMap_singleton, hpath, List.foldl_append, hbased,
      List.foldl_cons, List.foldl_cons, Path.follow_ordinary _ (by decide),
      Path.foldl_follow_of_descending hss, List.reverse_append, List.reverse_reverse, List.reverse_cons,
      List.append_assoc, List.singleton_append]
  have hdown := artifactsPlace_ordinary hbase ss
  rw [artifactsPlace, List.append_assoc, List.singleton_append] at hdown ⊢
  rw [wayIn, hreached]
  -- the climb takes back the last segment of the base path, and is left out where there is none
  rcases List.eq_nil_or_concat (Path.resolve [base.toList]) with hroot | ⟨rest, last, hnested⟩
  · rw [hroot] at hdown ⊢
    exact dropWhile_climb hdown 1
  · rw [List.concat_eq_append] at hnested
    have hlast : IsOrdinary last := hbase.isOrdinary last (by simp [hnested])
    rw [hnested, List.dropLast_concat] at hdown ⊢
    rw [List.reverse_append, List.reverse_singleton, List.singleton_append,
      Path.follow_back _ hlast.2.2, List.reverse_reverse]
    exact dropWhile_climb hdown 0

/-- The directory of restored artifacts, and what there is below it. -/
theorem repoPath_restored {path : String} {ss : List Segment}
    (hpath : Path.segments path.toList = up :: "artifacts".toList :: ss)
    (hss : ∀ s ∈ ss, IsOrdinary s ∨ s = [] ∨ s = Path.here) :
    repoPath base path
      = String.ofList (Path.text (artifactsPlace base ++ ss.filter fun s => IsOrdinary s)) := by
  rw [repoPath_eq, wayIn_restored hbase hpath hss, if_neg]
  exact List.append_ne_nil_of_left_ne_nil (artifactsPlace_ne_nil base) _

end Restored

/-- A path into restored artifacts begins with their directory. -/
theorem segments_restored (rest : String) :
    Path.segments (artifactsPrefix ++ rest).toList
      = up :: "artifacts".toList :: Path.segments rest.toList := by
  have hchars : (artifactsPrefix ++ rest).toList = "../artifacts".toList ++ '/' :: rest.toList := by
    rw [String.toList_append, ← List.singleton_append, ← List.append_assoc]
    rfl
  rw [hchars, Path.segments_append_slash]
  rfl

/-- Artifacts are downloaded to one directory, beside that of the manifest unless there is nothing beside
it, and paths into artifacts lead into that directory by their own segments. -/
structure ServesArtifacts (base : String) : Prop where
  directory : repoPath base restoredDir = String.ofList (Path.text (artifactsPlace base))
  download : ∀ l : Leaf, l.readsArtifacts = true →
    ∃ step ∈ prepareSteps base l, step.DownloadsTo (repoPath base restoredDir)
  path : ∀ rest : String, Path.Descends rest.toList →
    repoPath base (artifactsPrefix ++ rest)
      = String.ofList (Path.text
        (artifactsPlace base ++ (Path.segments rest.toList).filter fun s => IsOrdinary s))
  inside : ∀ rest : String, Path.Descends rest.toList →
    Path.Inside (repoPath base restoredDir) (repoPath base (artifactsPrefix ++ rest))

theorem servesArtifacts {base : String} (hbase : Path.Descends base.toList) : ServesArtifacts base := by
  have hroot : repoPath base restoredDir = String.ofList (Path.text (artifactsPlace base)) := by
    have hdir : Path.segments restoredDir.toList = [up, "artifacts".toList] := by decide
    have hempty := repoPath_restored hbase hdir (List.forall_mem_nil _)
    rwa [List.filter_nil, List.append_nil] at hempty
  have hpath (rest : String) (hrest : Path.Descends rest.toList) :=
    repoPath_restored hbase (segments_restored rest) hrest
  refine ⟨hroot, fun l hreads => ?download, hpath, fun rest hrest => ?inside⟩
  case download =>
    rw [prepareSteps, if_pos hreads]
    refine ⟨_, List.mem_append_right _ (List.mem_singleton_self _), ?_, rfl⟩
    exact congrArg some (by decide)
  case inside =>
    rw [hroot, hpath rest hrest]
    apply Path.inside_text (artifactsPlace_ne_nil base)
    intro s hs
    have hway : s ∈ wayIn base (artifactsPrefix ++ rest) := by
      rwa [wayIn_restored hbase (segments_restored rest) hrest]
    exact ⟨isOrdinary_of_mem_wayIn hway, slash_not_mem_of_mem_wayIn hway⟩

/-- No path of a manifest leads out of the working copy, and a path into artifacts that does not climb
leads into the directory that they are downloaded to. -/
theorem repoPath_inside (base : String) :
    (∀ path, StaysInside (repoPath base path))
      ∧ (Path.Descends base.toList → ServesArtifacts base) :=
  ⟨repoPath_staysInside base, servesArtifacts⟩

theorem nested_repoPath_inside :
    StaysInside (repoPath "apps//web/" "../../../x") ∧ Path.Descends "apps//web/".toList
      ∧ (∃ l : Leaf, l.readsArtifacts = true ∧ ∃ step ∈ prepareSteps "apps//web/" l,
        step.DownloadsTo (repoPath "apps//web/" restoredDir))
      ∧ Path.Descends "lib/./app.jar".toList
      ∧ repoPath "apps//web/" (artifactsPrefix ++ "lib/./app.jar") = "apps/artifacts/lib/app.jar"
      ∧ Path.Inside (repoPath "apps//web/" restoredDir)
        (repoPath "apps//web/" (artifactsPrefix ++ "lib/./app.jar")) := by
  have hbase : Path.Descends "apps//web/".toList := by decide
  have hrest : Path.Descends "lib/./app.jar".toList := by decide
  obtain ⟨hinside, hserves⟩ := repoPath_inside "apps//web/"
  have hreads : ({ attributes := { restoreArtifacts := true }, action := .update {} } : Leaf).readsArtifacts
      = true := by
    decide
  exact ⟨hinside "../../../x", hbase, ⟨_, hreads, (hserves hbase).download _ hreads⟩, hrest,
    ((hserves hbase).path _ hrest).trans (by decide), (hserves hbase).inside _ hrest⟩

end PipelineCompiler.Actions
