import PipelineCompiler.Image
import PipelineCompiler.Proofs.Text

/-!
# Tags of images

A reference carries a tag if a colon stands behind its last slash. What is in front of a tag may carry one
itself, as in `app:1.0@sha256:0a`, whose name holds two colons. The rules for images take off all of them and
the pipeline only the last one, so that they agree just where there is no more than one
(`untagged_eq_split_iff`).
-/

namespace PipelineCompiler.Image

/-- The reference carries a tag: a colon stands in it with no slash behind. -/
def Tagged (image : String) : Prop :=
  ∃ before after, image.toList = before ++ ':' :: after ∧ '/' ∉ after

/-! ## Names -/

/-- The name is what follows the last slash. -/
theorem splitName_eq_iff {cs place name : List Char} :
    splitName cs = (place, name) ↔ cs = place ++ name ∧ '/' ∉ name
      ∧ (place = [] ∨ place.getLast? = some '/') := by
  rw [splitName]
  constructor
  · intro h
    split at h
    · next hnone =>
        obtain ⟨rfl, rfl⟩ := Prod.mk.inj h
        exact ⟨rfl, Text.cutLast_eq_none.1 hnone, .inl rfl⟩
    · next before after hcut =>
        obtain ⟨rfl, rfl⟩ := Prod.mk.inj h
        obtain ⟨rfl, hslash⟩ := Text.cutLast_eq_some.1 hcut
        exact ⟨by simp, hslash, .inr List.getLast?_concat⟩
  · rintro ⟨rfl, hname, rfl | hplace⟩
    · rw [List.nil_append, Text.cutLast_eq_none.2 hname]
    · obtain ⟨before, rfl⟩ := List.getLast?_eq_some_iff.1 hplace
      rw [List.append_assoc, List.singleton_append, Text.cutLast_eq_some.2 ⟨rfl, hname⟩]

section Cuts

variable {image : String} {place name : List Char} (hcut : splitName image.toList = (place, name))
include hcut

/-- Whether there is a tag is told by the name alone. -/
theorem tagged_iff_mem : Tagged image ↔ ':' ∈ name := by
  obtain ⟨himage, hname, hplace⟩ := splitName_eq_iff.1 hcut
  constructor
  · rintro ⟨before, after, hcolon, hslash⟩
    rw [himage] at hcolon
    rcases List.append_eq_append_iff.1 hcolon with ⟨rest, -, rfl⟩ | ⟨rest, rfl, hafter⟩
    · exact List.mem_append_right _ List.mem_cons_self
    · cases rest with
      | nil =>
          obtain rfl : ':' :: after = name := hafter
          exact List.mem_cons_self
      | cons c rest =>
          obtain ⟨rfl, rfl⟩ := List.cons.inj hafter
          -- a colon in front of the name has a slash behind it, the one that the name follows
          have hlast : (':' :: rest).getLast? = some '/' := by simpa using hplace
          have hmem : '/' ∈ rest := by simpa using List.mem_of_getLast? hlast
          exact absurd (List.mem_append_left _ hmem) hslash
  · intro hcolon
    obtain ⟨bare, tag, rfl⟩ := List.append_of_mem hcolon
    refine ⟨place ++ bare, tag, by rw [himage, List.append_assoc], fun hmem => hname ?_⟩
    exact List.mem_append_right _ (List.mem_cons_of_mem _ hmem)

theorem split_eq_self (h : ':' ∉ name) : split image = (image, "latest") := by
  simp only [split, hcut, Text.cutLast_eq_none.2 h]

theorem untagged_eq_self (h : ':' ∉ name) : untagged image = image := by
  simp only [untagged, hcut, Text.cutFirst_eq_none.2 h]

theorem split_eq_cut {bare tag : List Char} (hbare : name = bare ++ ':' :: tag) (htag : ':' ∉ tag) :
    split image = (String.ofList (place ++ bare), String.ofList tag) := by
  simp only [split, hcut, Text.cutLast_eq_some.2 ⟨hbare, htag⟩]

theorem untagged_eq_cut {bare tag : List Char} (hname : name = bare ++ ':' :: tag) (hbare : ':' ∉ bare) :
    untagged image = String.ofList (place ++ bare) := by
  simp only [untagged, hcut, Text.cutFirst_eq_some.2 ⟨hname, hbare⟩]

/-- The place of a name is that of every start of the name. -/
theorem splitName_start {bare rest : List Char} (hname : name = bare ++ rest) :
    splitName (String.ofList (place ++ bare)).toList = (place, bare) := by
  obtain ⟨-, hslash, hplace⟩ := splitName_eq_iff.1 hcut
  rw [hname, List.mem_append, not_or] at hslash
  rw [String.toList_ofList]
  exact splitName_eq_iff.2 ⟨rfl, hslash.1, hplace⟩

/-- A repository is left a tag just if the name has more than one colon. -/
theorem tagged_split_iff_count : Tagged (split image).1 ↔ 1 < name.count ':' := by
  rcases hlast : Text.cutLast ':' name with _ | ⟨bare, tag⟩
  · have hcolon : ':' ∉ name := Text.cutLast_eq_none.1 hlast
    rw [split_eq_self hcut hcolon, tagged_iff_mem hcut, List.count_eq_zero_of_not_mem hcolon]
    exact iff_of_false hcolon (by omega)
  · obtain ⟨hname, htag⟩ := Text.cutLast_eq_some.1 hlast
    rw [split_eq_cut hcut hname htag, tagged_iff_mem (splitName_start hcut hname), hname,
      List.count_append, List.count_cons_self, List.count_eq_zero_of_not_mem htag, ← List.count_pos_iff]
    omega

end Cuts

theorem tagged_iff {image : String} : Tagged image ↔ ':' ∈ (splitName image.toList).2 :=
  tagged_iff_mem rfl

instance (image : String) : Decidable (Tagged image) := decidable_of_iff _ tagged_iff.symm

/-! ## Taking off a tag -/

/-- A reference without a tag is its own repository, and the tag is `latest`. -/
theorem split_of_not_tagged {image : String} (h : ¬Tagged image) : split image = (image, "latest") :=
  split_eq_self rfl (mt tagged_iff.2 h)

theorem untagged_of_not_tagged {image : String} (h : ¬Tagged image) : untagged image = image :=
  untagged_eq_self rfl (mt tagged_iff.2 h)

/-- A reference with a tag is cut at its last colon, which the rest of it does not change. -/
theorem split_of_tagged {image : String} (h : Tagged image) :
    (split image).1 ++ ":" ++ (split image).2 = image ∧ ':' ∉ (split image).2.toList
      ∧ '/' ∉ (split image).2.toList := by
  obtain ⟨place, name, hcut⟩ : ∃ place name, splitName image.toList = (place, name) := ⟨_, _, rfl⟩
  obtain ⟨himage, hslash, -⟩ := splitName_eq_iff.1 hcut
  rcases hlast : Text.cutLast ':' name with _ | ⟨bare, tag⟩
  · exact absurd ((tagged_iff_mem hcut).1 h) (Text.cutLast_eq_none.1 hlast)
  · obtain ⟨hname, htag⟩ := Text.cutLast_eq_some.1 hlast
    rw [split_eq_cut hcut hname htag]
    refine ⟨?_, by simpa using htag, fun hmem => hslash ?_⟩
    · apply String.toList_inj.1
      simp [himage, hname]
    · rw [String.toList_ofList] at hmem
      exact hname ▸ List.mem_append_right _ (List.mem_cons_of_mem _ hmem)

/-- All colons of the name go, so that what is left has no tag. -/
theorem not_tagged_untagged (image : String) : ¬Tagged (untagged image) := by
  obtain ⟨place, name, hcut⟩ : ∃ place name, splitName image.toList = (place, name) := ⟨_, _, rfl⟩
  rcases hfirst : Text.cutFirst ':' name with _ | ⟨bare, rest⟩
  · have hcolon : ':' ∉ name := Text.cutFirst_eq_none.1 hfirst
    rwa [untagged_eq_self hcut hcolon, tagged_iff_mem hcut]
  · obtain ⟨hname, hbare⟩ := Text.cutFirst_eq_some.1 hfirst
    rwa [untagged_eq_cut hcut hname hbare, tagged_iff_mem (splitName_start hcut hname)]

/-- The colon of the tag is not the first of the name if there are more, so that it makes no difference
whether the tag has been cut off before. -/
theorem untagged_split (image : String) : untagged (split image).1 = untagged image := by
  obtain ⟨place, name, hcut⟩ : ∃ place name, splitName image.toList = (place, name) := ⟨_, _, rfl⟩
  rcases hlast : Text.cutLast ':' name with _ | ⟨bare, tag⟩
  · rw [split_eq_self hcut (Text.cutLast_eq_none.1 hlast)]
  · obtain ⟨hname, htag⟩ := Text.cutLast_eq_some.1 hlast
    rw [split_eq_cut hcut hname htag]
    have hbare := splitName_start hcut hname
    rcases hfirst : Text.cutFirst ':' bare with _ | ⟨start, rest⟩
    · have hcolon : ':' ∉ bare := Text.cutFirst_eq_none.1 hfirst
      rw [untagged_eq_self hbare hcolon, untagged_eq_cut hcut hname hcolon]
    · obtain ⟨rfl, hstart⟩ := Text.cutFirst_eq_some.1 hfirst
      rw [untagged_eq_cut hbare rfl hstart, untagged_eq_cut hcut (by simpa using hname) hstart]

/-- The rules and the pipeline agree on a reference just if it has no tag left once one is cut off, and on one
with more tags than that the rules go on cutting. A reference without a tag is left as it is; of one with a
tag, repository and tag make up all of it. -/
theorem untagged_eq_split_iff (image : String) :
    (untagged image = (split image).1 ↔ ¬Tagged (split image).1)
      ∧ untagged image = untagged (split image).1
      ∧ (if Tagged image then (split image).1 ++ ":" ++ (split image).2 = image
          else split image = (image, "latest"))
      ∧ ':' ∉ (split image).2.toList ∧ '/' ∉ (split image).2.toList := by
  refine ⟨⟨fun h => h ▸ not_tagged_untagged image, fun h => ?_⟩, (untagged_split image).symm, ?_⟩
  · rw [← untagged_split, untagged_of_not_tagged h]
  · by_cases h : Tagged image
    · rw [if_pos h]
      exact split_of_tagged h
    · rw [if_neg h, split_of_not_tagged h]
      have hlatest : ':' ∉ "latest".toList ∧ '/' ∉ "latest".toList := by decide
      exact ⟨rfl, hlatest⟩

/-- An image with both a tag and a digest keeps the tag in its repository, which the rules take off. -/
theorem untagged_ne_split_of_digest :
    untagged "app:1.0@sha256:9f86d081884c7d659a2feaa0c55ad015a3bf4f1b2b0b822cd15d6c15b0f00a08" = "app"
      ∧ split "app:1.0@sha256:9f86d081884c7d659a2feaa0c55ad015a3bf4f1b2b0b822cd15d6c15b0f00a08"
        = ("app:1.0@sha256", "9f86d081884c7d659a2feaa0c55ad015a3bf4f1b2b0b822cd15d6c15b0f00a08") := by
  decide +kernel

end PipelineCompiler.Image
