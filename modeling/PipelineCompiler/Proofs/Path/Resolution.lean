import Mathlib.Data.List.Induction
import Mathlib.Logic.Relation
import PipelineCompiler.Proofs.Path

/-!
# Resolving a path is shortening it

`Shortens` says what may be left out of a path without changing where it leads: segments that lead nowhere,
and a segment together with the `..` that undoes it. Following a path takes all of that out: it arrives at
the place in normal form that the path shortens to. Paths of which one shortens to the other lead to the
same place from anywhere (`foldl_follow_of_shortens`). So it does not matter which detours are cut off
first, and parts of a path may be resolved ahead of the whole (`join_append_join`).
-/

namespace PipelineCompiler.Path

open Relation

/-! ## Detours -/

/-- One detour less. -/
inductive Shortens : List Segment → List Segment → Prop where
  | stay (before after : List Segment) {s : Segment} (h : s = [] ∨ s = here) :
      Shortens (before ++ s :: after) (before ++ after)
  | back (before after : List Segment) {s : Segment} (h : IsOrdinary s) :
      Shortens (before ++ s :: up :: after) (before ++ after)

/-- What comes behind a detour does not matter to it. -/
theorem Shortens.append {ss short : List Segment} (h : Shortens ss short) (rest : List Segment) :
    Shortens (ss ++ rest) (short ++ rest) := by
  cases h with
  | stay before after h =>
      rw [List.append_assoc, List.append_assoc, List.cons_append]
      exact .stay before (after ++ rest) h
  | back before after h =>
      rw [List.append_assoc, List.append_assoc, List.cons_append, List.cons_append]
      exact .back before (after ++ rest) h

/-- Without a detour a path leads to the same place. -/
theorem Shortens.foldl_follow {ss short : List Segment} (h : Shortens ss short) (place : List Segment) :
    ss.foldl follow place = short.foldl follow place := by
  cases h with
  | stay before after h =>
      rw [List.foldl_append, List.foldl_append, List.foldl_cons, follow_stay _ h]
  | back before after h =>
      rw [List.foldl_append, List.foldl_append, List.foldl_cons, List.foldl_cons, follow_ordinary _ h,
        follow_back _ h.2.2]

/-- However many detours are cut off, a path leads to the same place. -/
theorem foldl_follow_of_shortens {ss short : List Segment} (h : ReflTransGen Shortens ss short)
    (place : List Segment) : ss.foldl follow place = short.foldl follow place := by
  induction h with
  | refl => rfl
  | tail _ hstep ih => rw [ih, hstep.foldl_follow]

/-! ## Normal forms -/

/-- The place climbs first and then leads down through ordinary segments. -/
def IsNormal (place : List Segment) : Prop :=
  ∃ levels down, place = List.replicate levels up ++ down ∧ ∀ s ∈ down, IsOrdinary s

theorem isNormal_nil : IsNormal [] := ⟨0, [], rfl, nofun⟩

/-- From a place in normal form one more segment leads to another, which is what is left of the way there
and that segment. -/
theorem isNormal_follow {place : List Segment} (h : IsNormal place.reverse) (s : Segment) :
    IsNormal (follow place s).reverse
      ∧ ReflTransGen Shortens (place.reverse ++ [s]) (follow place s).reverse := by
  rcases segment_cases s with hs | hs | rfl
  · rw [follow_stay place hs]
    have hstep := Shortens.stay place.reverse [] hs
    rw [List.append_nil] at hstep
    exact ⟨h, .single hstep⟩
  · rw [follow_ordinary place hs, List.reverse_cons]
    obtain ⟨levels, down, hplace, hdown⟩ := h
    refine ⟨⟨levels, down ++ [s], by rw [hplace, List.append_assoc], ?_⟩, .refl⟩
    exact List.forall_mem_append.2 ⟨hdown, List.forall_mem_singleton.2 hs⟩
  · obtain ⟨levels, down, hplace, hdown⟩ := h
    -- what is undone is the last of the ordinary segments, if there is one
    rcases List.eq_nil_or_concat down with rfl | ⟨rest, last, rfl⟩
    · rw [List.append_nil, List.reverse_eq_iff, List.reverse_replicate] at hplace
      rw [hplace, follow_climb, List.reverse_replicate, List.reverse_replicate, ← List.replicate_succ']
      exact ⟨⟨levels + 1, [], (List.append_nil _).symm, nofun⟩, .refl⟩
    · have hlast : IsOrdinary last := hdown last (by simp)
      have hrest : place = last :: (List.replicate levels up ++ rest).reverse := by
        rw [← List.reverse_inj, hplace]
        simp
      rw [hrest, follow_back _ hlast.2.2, List.reverse_reverse, List.reverse_cons, List.reverse_reverse]
      refine ⟨⟨levels, rest, rfl, fun s hs => hdown s (by simp [hs])⟩, ?_⟩
      have hstep := Shortens.back (List.replicate levels up ++ rest) [] hlast
      rw [List.append_nil] at hstep
      simpa using ReflTransGen.single hstep

/-- Following segments leads to a place in normal form, which is what is left of them without their
detours. -/
theorem isNormal_foldl_follow (ss : List Segment) :
    IsNormal (ss.foldl follow []).reverse
      ∧ ReflTransGen Shortens ss (ss.foldl follow []).reverse := by
  induction ss using List.reverseRecOn with
  | nil => exact ⟨isNormal_nil, .refl⟩
  | append_singleton ss s ih =>
      obtain ⟨hnormal, hshort⟩ := ih
      obtain ⟨hnext, hstep⟩ := isNormal_follow hnormal s
      rw [List.foldl_append, List.foldl_cons, List.foldl_nil]
      refine ⟨hnext, ReflTransGen.trans ?_ hstep⟩
      exact hshort.lift (· ++ [s]) fun _ _ h => h.append [s]

/-- The place that is reached leads from anywhere to where the segments lead. -/
theorem foldl_follow_reverse (ss place : List Segment) :
    (ss.foldl follow []).reverse.foldl follow place = ss.foldl follow place :=
  (foldl_follow_of_shortens (isNormal_foldl_follow ss).2 place).symm

theorem isNormal_resolve (paths : List (List Char)) : IsNormal (resolve paths) :=
  (isNormal_foldl_follow _).1

theorem shortens_resolve (paths : List (List Char)) :
    ReflTransGen Shortens (paths.flatMap segments) (resolve paths) :=
  (isNormal_foldl_follow _).2

/-- A place in normal form is reached by its own segments. -/
theorem foldl_follow_of_isNormal {place : List Segment} (h : IsNormal place) :
    place.foldl follow [] = place.reverse := by
  obtain ⟨levels, down, rfl, hdown⟩ := h
  rw [List.foldl_append, foldl_follow_climb, foldl_follow_of_ordinary hdown, List.reverse_append,
    List.reverse_replicate]

/-- Whichever detours are cut off first, there is only one normal form to arrive at. -/
theorem eq_resolve_of_shortens {paths : List (List Char)} {place : List Segment} (hnormal : IsNormal place)
    (hshort : ReflTransGen Shortens (paths.flatMap segments) place) : place = resolve paths := by
  rw [resolve, foldl_follow_of_shortens hshort, foldl_follow_of_isNormal hnormal, List.reverse_reverse]

/-- The segments of the place that paths lead to hold no slash. -/
theorem slash_not_mem_resolve {paths : List (List Char)} {s : Segment} (h : s ∈ resolve paths) :
    '/' ∉ s := by
  obtain ⟨path, -, hs⟩ := exists_of_mem_resolve h
  exact slash_not_mem hs

/-! ## Joining -/

/-- The text of a place leads to where its segments lead. -/
theorem foldl_follow_text {ss : List Segment} (h : ∀ s ∈ ss, '/' ∉ s) (place : List Segment) :
    (segments (text ss)).foldl follow place = ss.foldl follow place := by
  by_cases hne : ss = []
  · subst hne
    exact follow_stay place (.inl rfl)
  · rw [segments_text hne h]

theorem toList_join (paths : List String) : (join paths).toList = text (resolve (paths.map String.toList)) :=
  String.toList_ofList

/-- A joined path is split into the segments of the place that it leads to, if there are any. -/
theorem segments_join (paths : List String) :
    resolve (paths.map String.toList) = [] ∧ join paths = ""
      ∨ resolve (paths.map String.toList) ≠ []
        ∧ segments (join paths).toList = resolve (paths.map String.toList) := by
  by_cases hplace : resolve (paths.map String.toList) = []
  · refine .inl ⟨hplace, ?_⟩
    rw [join, hplace]
    rfl
  · refine .inr ⟨hplace, ?_⟩
    rw [toList_join, segments_text hplace fun s hs => slash_not_mem_resolve hs]

/-- A joined path leads to where its parts lead one after the other. -/
theorem foldl_follow_join (paths : List String) (place : List Segment) :
    (segments (join paths).toList).foldl follow place
      = ((paths.map String.toList).flatMap segments).foldl follow place := by
  rw [toList_join, foldl_follow_text fun s hs => slash_not_mem_resolve hs, resolve, foldl_follow_reverse]

/-- A part that was joined may as well be taken apart. -/
theorem join_append_join (before parts after : List String) :
    join (before ++ join parts :: after) = join (before ++ (parts ++ after)) := by
  have hplace : resolve ((before ++ join parts :: after).map String.toList)
      = resolve ((before ++ (parts ++ after)).map String.toList) := by
    simp only [resolve, List.map_append, List.map_cons, List.flatMap_append, List.flatMap_cons,
      List.foldl_append, foldl_follow_join]
  rw [join, hplace, join]

/-- A single path is normalized the way it is joined. -/
theorem normalize_eq_join (path : String) : normalize path = join [path] := by
  rw [normalize, join, resolve, List.map_singleton, List.flatMap_singleton]

/-- Paths are joined to a normal form, which is some climbing and then ordinary segments: the only one that
is left of the paths, one after the other, when detours are cut off. Splitting the joined path gives the
segments of the normal form back, and without any the path is blank. A path that was joined stays as it
is, paths may be joined in parts, and files are looked up under the join of a single path. -/
theorem join_normalizes :
    (∀ paths : List String, ∃ place, IsNormal place ∧ (∀ s ∈ place, '/' ∉ s)
        ∧ (join paths).toList = text place
        ∧ (place = [] ∧ join paths = "" ∨ place ≠ [] ∧ segments (join paths).toList = place)
        ∧ ∀ short, IsNormal short
            ∧ ReflTransGen Shortens ((paths.map String.toList).flatMap segments) short ↔ short = place)
      ∧ (∀ paths : List String, join [join paths] = join paths)
      ∧ (∀ before after : List String, join (before ++ after) = join [join before, join after])
      ∧ ∀ path : String, normalize path = join [path] := by
  refine ⟨fun paths => ?_, fun paths => ?_, fun before after => ?_, normalize_eq_join⟩
  · refine ⟨_, isNormal_resolve _, fun s hs => slash_not_mem_resolve hs, toList_join paths,
      segments_join paths, fun short => ?_⟩
    constructor
    · rintro ⟨hnormal, hshort⟩
      exact eq_resolve_of_shortens hnormal hshort
    · rintro rfl
      exact ⟨isNormal_resolve _, shortens_resolve _⟩
  · have hparts := join_append_join [] paths []
    rwa [List.append_nil] at hparts
  · have hparts := join_append_join [join before] after []
    rw [List.append_nil] at hparts
    exact (hparts.trans (join_append_join [] before after)).symm

example : join ["a/./b//..", "../../c"] = "../c" := by decide

/-! ## Out of a directory and back -/

theorem resolve_join (paths : List String) :
    resolve [(join paths).toList] = resolve (paths.map String.toList) := by
  rw [resolve, List.flatMap_singleton, foldl_follow_join, resolve]

/-- A joined path is relative. -/
theorem head?_join (paths : List String) : (join paths).toList.head? ≠ some '/' := by
  rw [toList_join]
  cases hplace : resolve (paths.map String.toList) with
  | nil => exact nofun
  | cons s rest =>
      have hs : s ∈ resolve (paths.map String.toList) := hplace ▸ List.mem_cons_self
      have hne : s ≠ [] := by
        obtain ⟨levels, down, hnormal, hdown⟩ := isNormal_resolve (paths.map String.toList)
        rw [hnormal, List.mem_append, List.mem_replicate] at hs
        rcases hs with ⟨-, rfl⟩ | hs
        · decide
        · exact (hdown s hs).1
      rw [text, Text.head?_intercalate _ hne]
      exact fun hhead => slash_not_mem_resolve hs (List.mem_of_head? hhead)

theorem inside_join_iff {dir : String} {paths : List String} :
    Inside dir (join paths) ↔ resolve [dir.toList] <+: resolve (paths.map String.toList) := by
  rw [Inside, and_iff_right (head?_join paths), resolve_join]

/-- Followed from a directory of the name, the place is inside of that directory: it does not climb, or it
climbs out of the directory and comes straight back. -/
def Returns (dir : String) (place : List Segment) : Prop :=
  place.head? ≠ some up ∨ [up, dir.toList] <+: place

instance (dir : String) (place : List Segment) : Decidable (Returns dir place) := by
  unfold Returns
  infer_instance

/-- Paths that are followed from a directory lead to another one beside it, or into it, just if they climb
once and go down into the other one; they stay in the directory, too, if they do not climb at all. -/
theorem inside_join_beside_iff {root dir : String} (hroot : IsName root) (hdir : IsName dir)
    (paths : List String) :
    Inside dir (join (root :: paths))
      ↔ (dir = root ∧ (resolve (paths.map String.toList)).head? ≠ some up)
        ∨ [up, dir.toList] <+: resolve (paths.map String.toList) := by
  obtain ⟨levels, down, hplace, hdown⟩ := isNormal_resolve (paths.map String.toList)
  have hreached : resolve ((root :: paths).map String.toList)
      = ((List.replicate levels up ++ down).foldl follow [root.toList]).reverse := by
    rw [List.map_cons, hroot.resolve_cons, ← foldl_follow_reverse, ← hplace, resolve]
  rw [inside_join_iff, hreached, hdir.resolve, hplace]
  rcases levels with _ | _ | levels
  · -- nothing climbs
    have hhead : down.head? ≠ some up := fun hup => (hdown up (List.mem_of_head? hup)).2.2 rfl
    have hprefix : ¬ [up, dir.toList] <+: down := by
      rintro ⟨rest, rfl⟩
      exact hhead rfl
    rw [List.replicate_zero, List.nil_append, foldl_follow_of_ordinary hdown, List.reverse_append,
      List.reverse_reverse]
    simp [hhead, hprefix, String.toList_inj]
  · -- the directory is left, and what follows may begin with a name
    rw [List.replicate_succ, List.replicate_zero, List.singleton_append, List.foldl_cons,
      follow_back _ hroot.2.2.2, foldl_follow_of_ordinary hdown, List.append_nil, List.reverse_reverse]
    simp
  · -- there is no way back
    rw [List.replicate_succ, List.cons_append, List.foldl_cons, follow_back _ hroot.2.2.2,
      List.foldl_append, foldl_follow_climb, foldl_follow_of_ordinary hdown, List.reverse_append,
      List.reverse_reverse, List.reverse_replicate, List.replicate_succ]
    simp [hdir.2.2.2]

/-- Paths that are followed from a directory stay inside of it just if they return to it. -/
theorem inside_join_cons_iff {dir : String} (hdir : IsName dir) (paths : List String) :
    Inside dir (join (dir :: paths)) ↔ Returns dir (resolve (paths.map String.toList)) := by
  rw [inside_join_beside_iff hdir hdir, Returns, and_iff_right rfl]

/-- A joined path is inside of a directory just if it begins with the name of the directory. -/
theorem head?_segments_join {dir : String} (hdir : IsName dir) (paths : List String) :
    (segments (join paths).toList).head? = some dir.toList ↔ Inside dir (join paths) := by
  rw [inside_join_iff, hdir.resolve]
  rcases segments_join paths with ⟨hplace, hjoin⟩ | ⟨-, hsegments⟩
  · have hblank : (segments "".toList).head? = some [] := rfl
    rw [hplace, hjoin, hblank]
    simp [Ne.symm hdir.2.1]
  · rw [hsegments]
    cases resolve (paths.map String.toList) with
    | nil => simp
    | cons s rest => simp [eq_comm]

/-! ## Down and up again -/

/-- The path leads down: its segments are ordinary, apart from blank ones and those that stay. -/
def Descends (path : List Char) : Prop := ∀ s ∈ segments path, IsOrdinary s ∨ s = [] ∨ s = here

instance (path : List Char) : Decidable (Descends path) := by unfold Descends; infer_instance

theorem IsName.descends {dir : String} (h : IsName dir) : Descends dir.toList := by
  intro s hs
  rw [h.1, List.mem_singleton] at hs
  exact .inl (hs ▸ h.2)

/-- Segments that lead down do so one after the other, less those that lead nowhere. -/
theorem foldl_follow_of_descending {ss : List Segment} (h : ∀ s ∈ ss, IsOrdinary s ∨ s = [] ∨ s = here)
    (place : List Segment) : ss.foldl follow place = (ss.filter fun s => IsOrdinary s).reverse ++ place := by
  induction ss generalizing place with
  | nil => rfl
  | cons s ss ih =>
      obtain ⟨hs, hrest⟩ := List.forall_mem_cons.1 h
      rw [List.foldl_cons, ih hrest]
      rcases hs with hs | hs
      · rw [follow_ordinary place hs, List.filter_cons_of_pos (by simpa using hs), List.reverse_cons,
          List.append_assoc, List.singleton_append]
      · have hother : ¬ IsOrdinary s := by
          rintro ⟨hne, hhere, -⟩
          rcases hs with rfl | rfl
          · exact hne rfl
          · exact hhere rfl
        rw [follow_stay place hs, List.filter_cons_of_neg (by simpa using hother)]

/-- A path that leads down resolves to ordinary segments. -/
theorem Descends.isOrdinary {path : List Char} (h : Descends path) :
    ∀ s ∈ resolve [path], IsOrdinary s := by
  intro s hs
  obtain ⟨source, hsource, hsegment⟩ := exists_of_mem_resolve hs
  rw [List.mem_singleton] at hsource
  rw [hsource] at hsegment
  obtain ⟨levels, down, hplace, hdown⟩ := isNormal_resolve [path]
  rw [hplace, List.mem_append, List.mem_replicate] at hs
  rcases hs with ⟨-, rfl⟩ | hs
  · exact absurd (h up hsegment) (by decide)
  · exact hdown s hs

/-- A path that leads down does so from anywhere. -/
theorem Descends.foldl_follow {path : List Char} (h : Descends path) (place : List Segment) :
    (segments path).foldl follow place = (resolve [path]).reverse ++ place := by
  rw [← foldl_follow_reverse, ← foldl_follow_of_ordinary h.isOrdinary, resolve, List.flatMap_singleton]

/-- Paths that lead down still do when they are joined. -/
theorem Descends.join {paths : List String} (h : ∀ path ∈ paths, Descends path.toList) :
    Descends (join paths).toList := by
  intro s hs
  rcases segments_join paths with ⟨-, hjoin⟩ | ⟨-, hsegments⟩
  · rw [hjoin] at hs
    exact .inr (.inl (List.mem_singleton.1 hs))
  · rw [hsegments] at hs
    obtain ⟨source, hsource, hs⟩ := exists_of_mem_resolve hs
    obtain ⟨path, hpath, rfl⟩ := List.mem_map.1 hsource
    exact h path hpath s hs

/-- Climbing as far as ordinary segments led down leads back. -/
theorem foldl_follow_replicate_up {down : List Segment} (h : ∀ s ∈ down, IsOrdinary s)
    (place : List Segment) : (List.replicate down.length up).foldl follow (down ++ place) = place := by
  induction down with
  | nil => rfl
  | cons s down ih =>
      obtain ⟨hs, hdown⟩ := List.forall_mem_cons.1 h
      rw [List.length_cons, List.replicate_succ, List.cons_append, List.foldl_cons, follow_back _ hs.2.2,
        ih hdown]

/-- Climbing the depth of a path leads back to where it led down from. -/
theorem join_climb (before after : List String) {path : String} (h : Descends path.toList) :
    join (before ++ path :: climb (depth path) :: after) = join (before ++ after) := by
  have hback (place : List Segment) :
      (segments (climb (depth path)).toList).foldl follow ((segments path.toList).foldl follow place)
        = place := by
    rw [climb, String.toList_ofList, foldl_follow_text, h.foldl_follow, depth, ← List.length_reverse]
    · exact foldl_follow_replicate_up (fun s hs => h.isOrdinary s (List.mem_reverse.1 hs)) place
    · intro s hs
      rw [List.eq_of_mem_replicate hs]
      decide
  have hplace : resolve ((before ++ path :: climb (depth path) :: after).map String.toList)
      = resolve ((before ++ after).map String.toList) := by
    simp only [resolve, List.map_append, List.map_cons, List.flatMap_append, List.flatMap_cons,
      List.foldl_append, hback]
  rw [Path.join, hplace, Path.join]

end PipelineCompiler.Path
