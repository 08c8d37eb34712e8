import PipelineCompiler.Concourse.Container
import PipelineCompiler.Proofs.Path.Resolution

/-!
# Ways out of the working directory

A script runs in the directory of the manifest inside of the working copy. What it is given stands beside
the working copy, so that a path to it climbs from the one directory to the other first. Such a path is
right if it leads, followed from the working directory, to the place that is meant: the climb takes back
all that the base path leads down (`Path.join_climb`), however that is spelled.
-/

namespace PipelineCompiler.Concourse

open PipelineCompiler.Path (join)

/-! ## The directory of an artifact -/

/-- The directory part of a path. Slashes at the end of the path do not count, and a path with no other
slash has none. -/
inductive IsParent : (path parent : List Char) → Prop where
  | name (name : List Char) (slashes : Nat) (h : '/' ∉ name) :
      IsParent (name ++ List.replicate slashes '/') []
  | below (parent name : List Char) (slashes : Nat) (hne : name ≠ []) (h : '/' ∉ name) :
      IsParent (parent ++ '/' :: name ++ List.replicate slashes '/') parent

theorem isParent_parentDir (path : String) : IsParent path.toList (parentDir path).toList := by
  obtain ⟨⟨slashes, hpath⟩, hlast⟩ := Text.exists_dropEnds_singleton '/' path.toList
  have htrim : (Text.trimEnds path "/").toList = Text.dropEnds ['/'] path.toList := String.toList_ofList
  rw [parentDir, Text.splitLast?, htrim]
  cases hcut : Text.cutLast '/' (Text.dropEnds ['/'] path.toList) with
  | none =>
      rw [hpath]
      exact .name _ slashes (Text.cutLast_eq_none.1 hcut)
  | some parts =>
      obtain ⟨parent, name⟩ := parts
      obtain ⟨hparts, hname⟩ := Text.cutLast_eq_some.1 hcut
      have hne : name ≠ [] := by
        rintro rfl
        exact hlast (by rw [hparts, List.getLast?_concat])
      rw [hpath, hparts]
      simpa using IsParent.below parent name slashes hne hname

/-! ## Paths from the working directory -/

section WorkingDir

variable {git base : String}

theorem join_revisionPath (hbase : Path.Descends base.toList) :
    join [git, base, revisionPath base] = join [git, ".git/ref"] :=
  (Path.join_append_join [git, base] _ []).trans (Path.join_climb [git] _ hbase)

theorem join_versionPath (hbase : Path.Descends base.toList) :
    join [git, base, versionPath base] = join [git, "../version/version"] :=
  (Path.join_append_join [git, base] _ []).trans (Path.join_climb [git] _ hbase)

/-- The climb to an artifact takes back the working copy as well as the base path. -/
theorem join_artifactDestination (hgit : Path.IsName git) (hbase : Path.Descends base.toList)
    (output artifact : String) :
    join [git, base, artifactDestination git base output artifact]
      = join [output, base, parentDir artifact] := by
  have hdown : Path.Descends (join [git, base]).toList :=
    Path.Descends.join (by simpa using ⟨hgit.descends, hbase⟩)
  calc join [git, base, artifactDestination git base output artifact]
      = join [git, base, Path.climb (Path.depth (join [git, base])), output, base, parentDir artifact] :=
        Path.join_append_join [git, base] _ []
    _ = join [join [git, base], Path.climb (Path.depth (join [git, base])), output, base,
          parentDir artifact] := (Path.join_append_join [] [git, base] _).symm
    _ = join [output, base, parentDir artifact] := Path.join_climb [] _ hdown

theorem join_name_ref (hgit : Path.IsName git) : join [git, ".git/ref"] = git ++ "/.git/ref" := by
  have hplace : Path.resolve ([git, ".git/ref"].map String.toList)
      = [git.toList, ".git".toList, "ref".toList] := by
    rw [List.map_cons, hgit.resolve_cons]
    rfl
  rw [join, hplace, ← String.toList_inj]
  simp [Path.text, List.intercalate]

theorem join_name_version (hgit : Path.IsName git) :
    join [git, "../version/version"] = "version/version" := by
  have hfile : ["../version/version".toList].flatMap Path.segments
      = [Path.up, "version".toList, "version".toList] := by decide
  have hplace : Path.resolve ([git, "../version/version"].map String.toList)
      = ["version".toList, "version".toList] := by
    rw [List.map_cons, hgit.resolve_cons, List.map_singleton, hfile, List.foldl_cons,
      Path.follow_back _ hgit.2.2.2]
    decide
  rw [join, hplace]
  decide

/-- Paths that are written for a script in the working directory lead from there to what they are for. -/
theorem paths_lead_out (git base output artifact : String) (hgit : Path.IsName git)
    (hbase : Path.Descends base.toList) :
    join [git, base, revisionPath base] = git ++ "/.git/ref"
      ∧ join [git, base, versionPath base] = "version/version"
      ∧ IsParent artifact.toList (parentDir artifact).toList
      ∧ join [git, base, artifactDestination git base output artifact]
          = join [output, base, parentDir artifact] :=
  ⟨(join_revisionPath hbase).trans (join_name_ref hgit),
    (join_versionPath hbase).trans (join_name_version hgit), isParent_parentDir artifact,
    join_artifactDestination hgit hbase output artifact⟩

theorem nested_paths_lead_out :
    join ["git", "./apps//web/", revisionPath "./apps//web/"] = "git/.git/ref"
      ∧ join ["git", "./apps//web/", versionPath "./apps//web/"] = "version/version"
      ∧ IsParent "target/../app.jar//".toList (parentDir "target/../app.jar//").toList
      ∧ join ["git", "./apps//web/",
            artifactDestination "git" "./apps//web/" "artifacts-out" "target/../app.jar//"]
          = join ["artifacts-out", "./apps//web/", parentDir "target/../app.jar//"] :=
  paths_lead_out "git" "./apps//web/" "artifacts-out" "target/../app.jar//" (by decide) (by decide)

end WorkingDir

end PipelineCompiler.Concourse
