import PipelineCompiler.Concourse.ImageBuild
import PipelineCompiler.Proofs.Lint.Accepted
import PipelineCompiler.Proofs.Text

/-!
# Cache repositories

An image is pushed to a cache repository, is scanned there and is published from there. The repository is
named for the image, without the registry of the installation if the image belongs to it. So an image of the
installation may come by the name that the image of another registry keeps (`Shadows`), and what one build
pushes is then published by the other. `cacheImage_eq_iff` says that cache repositories are shared in no
other way.
-/

namespace PipelineCompiler.Concourse.ImageBuild

/-- The name of a repository behind the registry of the installation, or all of it. -/
def cacheName (c : Config) (repository : String) : String :=
  (Text.dropStart? repository c.dockerRegistry).getD repository

/-- The image belongs to the installation, and behind its registry stands all of the other image, which does
not belong to it. -/
def Shadows (c : Config) (image other : String) : Prop :=
  (Image.split image).1 = c.dockerRegistry ++ (Image.split other).1
    ∧ ¬ c.dockerRegistry.toList <+: (Image.split other).1.toList

instance (c : Config) (image other : String) : Decidable (Shadows c image other) := by
  unfold Shadows
  infer_instance

section Names

variable {c : Config}

theorem cacheName_own (name : String) : cacheName c (c.dockerRegistry ++ name) = name := by
  rw [cacheName, Text.dropStart?_eq_some.2 rfl]
  rfl

theorem cacheName_foreign {repository : String} (h : ¬ c.dockerRegistry.toList <+: repository.toList) :
    cacheName c repository = repository := by
  rw [cacheName, Text.dropStart?_eq_none.2 h]
  rfl

/-- A repository of the installation is its registry and a name. -/
theorem exists_name {repository : String} (h : c.dockerRegistry.toList <+: repository.toList) :
    ∃ name, repository = c.dockerRegistry ++ name := by
  obtain ⟨name, hname⟩ := h
  refine ⟨String.ofList name, ?_⟩
  rw [← String.toList_inj, String.toList_append, String.toList_ofList, hname]

theorem prefix_own (name : String) : c.dockerRegistry.toList <+: (c.dockerRegistry ++ name).toList := by
  rw [String.toList_append]
  exact List.prefix_append _ _

theorem ne_own {repository : String} (h : ¬ c.dockerRegistry.toList <+: repository.toList) (name : String) :
    repository ≠ c.dockerRegistry ++ name := by
  rintro rfl
  exact h (prefix_own name)

/-- A name is used twice if one of the repositories is the registry and all of the other, which is foreign. -/
theorem cacheName_eq_iff {a b : String} :
    cacheName c a = cacheName c b ↔ a = b
      ∨ (a = c.dockerRegistry ++ b ∧ ¬ c.dockerRegistry.toList <+: b.toList)
      ∨ (b = c.dockerRegistry ++ a ∧ ¬ c.dockerRegistry.toList <+: a.toList) := by
  by_cases ha : c.dockerRegistry.toList <+: a.toList
  · obtain ⟨a, rfl⟩ := exists_name ha
    rw [cacheName_own]
    by_cases hb : c.dockerRegistry.toList <+: b.toList
    · obtain ⟨b, rfl⟩ := exists_name hb
      rw [cacheName_own]
      simp
    · rw [cacheName_foreign hb]
      simp [hb, (ne_own hb a).symm]
  · rw [cacheName_foreign ha]
    by_cases hb : c.dockerRegistry.toList <+: b.toList
    · obtain ⟨b, rfl⟩ := exists_name hb
      rw [cacheName_own]
      simp [ha, ne_own ha b, eq_comm]
    · rw [cacheName_foreign hb]
      simp [ne_own ha b, ne_own hb a]

end Names

/-- Two images have one cache repository if they have one repository, or if one of them belongs to the
installation by the name of the other. -/
theorem cacheImage_eq_iff (c : Config) (image other : String) :
    cacheImage c image = cacheImage c other
      ↔ (Image.split image).1 = (Image.split other).1 ∨ Shadows c image other ∨ Shadows c other image := by
  have hname (image : String) :
      cacheImage c image = c.dockerRegistry ++ ("cache/" ++ cacheName c (Image.split image).1) := rfl
  rw [hname, hname, String.append_right_inj, String.append_right_inj]
  exact cacheName_eq_iff

/-- A manifest that builds two images at the same time. -/
def twoImages (image other : String) : Manifest where
  team := "acme"
  pipeline := "app"
  triggers := [.git { uri := "git@github.com:acme/app", privateKey := "((deploy.key))" }]
  tasks :=
    [.parallel
        [.leaf { attributes := { name := "one" }, action := .dockerPush { image } },
          .leaf { attributes := { name := "other" }, action := .dockerPush { image := other } }]]

/-- An image of another registry is built under the name of one of the installation. -/
theorem shadowed_overwritten :
    Lint.hasErrors (Lint.run {} Lint.sampleSurroundings (twoImages "acme/app" "eu.gcr.io/halfpipe-io/acme/app"))
        = false
      ∧ (Image.split "acme/app").1 ≠ (Image.split "eu.gcr.io/halfpipe-io/acme/app").1
      ∧ cacheImage {} "acme/app" = cacheImage {} "eu.gcr.io/halfpipe-io/acme/app"
      ∧ buildCommand {} { image := "acme/app" }
        = buildCommand {} { image := "eu.gcr.io/halfpipe-io/acme/app" } := by
  refine ⟨by decide +kernel, by decide, by decide, by decide⟩

end PipelineCompiler.Concourse.ImageBuild
