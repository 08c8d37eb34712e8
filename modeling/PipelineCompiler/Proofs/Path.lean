import Mathlib.Data.List.Basic
import PipelineCompiler.Path
import PipelineCompiler.Proofs.Text

/-!
# Paths without detours

A path whose segments are ordinary resolves to its own segments, less the blank ones. Joining it to the
name of a directory therefore leads to a place inside of that directory (`inside_join`), which is where a
path with `..` in it may lead out of.
-/

namespace PipelineCompiler.Path

/-! ## Segments -/

theorem segments_eq_splitOn (path : List Char) : segments path = path.splitOn '/' := by
  rw [segments, Text.splitWhen_eq_splitOnP, List.splitOn_eq_splitOnP]

theorem segments_append_slash (before after : List Char) :
    segments (before ++ '/' :: after) = segments before ++ segments after := by
  simp only [segments_eq_splitOn, List.splitOn_append_cons_self]

/-- No segment holds a slash. -/
theorem slash_not_mem {path : List Char} {s : Segment} (h : s ∈ segments path) : '/' ∉ s := by
  intro hslash
  have hno := Text.not_of_mem_splitWhen h hslash
  simp at hno

/-- The segments of a place are found again in its text. -/
theorem segments_text {place : List Segment} (hne : place ≠ []) (h : ∀ s ∈ place, '/' ∉ s) :
    segments (text place) = place := by
  rw [segments_eq_splitOn, text]
  exact List.splitOn_intercalate '/' h hne

/-- The text of a place as a text of its segments. -/
theorem ofList_text (place : List Segment) :
    String.ofList (text place) = "/".intercalate (place.map String.ofList) := by
  have hid : (String.toList ∘ String.ofList : List Char → List Char) = id :=
    funext fun cs => String.toList_ofList
  rw [← String.toList_inj, String.toList_ofList, String.toList_intercalate, List.map_map, hid,
    List.map_id]
  rfl

/-! ## Resolving -/

/-- The segments of the path are ordinary, apart from blank ones, which lead nowhere. -/
def IsPlain (path : List Char) : Prop := ∀ s ∈ segments path, s ≠ [] → IsOrdinary s

instance (path : List Char) : Decidable (IsPlain path) := by unfold IsPlain; infer_instance

theorem segment_cases (s : Segment) : (s = [] ∨ s = here) ∨ IsOrdinary s ∨ s = up := by
  by_cases hstay : s = [] ∨ s = here
  · exact .inl hstay
  · obtain ⟨hne, hhere⟩ := not_or.1 hstay
    by_cases hup : s = up
    · exact .inr (.inr hup)
    · exact .inr (.inl ⟨hne, hhere, hup⟩)

/-- Blank segments and those that stay lead nowhere. -/
theorem follow_stay (place : List Segment) {s : Segment} (h : s = [] ∨ s = here) :
    follow place s = place := by
  unfold follow
  rw [if_pos h]

theorem follow_ordinary (place : List Segment) {s : Segment} (h : IsOrdinary s) :
    follow place s = s :: place := by
  obtain ⟨hne, hhere, hup⟩ := h
  unfold follow
  rw [if_neg (not_or.2 ⟨hne, hhere⟩), if_neg hup]

/-- A directory is left the way it was entered. -/
theorem follow_back (place : List Segment) {last : Segment} (h : last ≠ up) :
    follow (last :: place) up = place := by
  unfold follow
  rw [if_neg (by decide), if_pos rfl]
  exact if_neg h

/-- Where there is nothing left to leave, the path climbs. -/
theorem follow_climb (levels : Nat) :
    follow (List.replicate levels up) up = List.replicate (levels + 1) up := by
  cases levels with
  | zero => rfl
  | succ levels =>
      unfold follow
      rw [if_neg (by decide), if_pos rfl]
      exact if_pos rfl

/-- Ordinary segments lead on one after the other. -/
theorem foldl_follow {ss : List Segment} (h : ∀ s ∈ ss, s ≠ [] → IsOrdinary s) (place : List Segment) :
    ss.foldl follow place = (ss.filter fun s => s ≠ []).reverse ++ place := by
  induction ss generalizing place with
  | nil => rfl
  | cons s ss ih =>
      have hrest : ∀ s ∈ ss, s ≠ [] → IsOrdinary s := fun u hu => h u (List.mem_cons_of_mem s hu)
      rw [List.foldl_cons]
      by_cases hblank : s = []
      · subst hblank
        rw [follow_stay place (.inl rfl), ih hrest, List.filter_cons_of_neg (by simp)]
      · rw [follow_ordinary place (h s List.mem_cons_self hblank), ih hrest,
          List.filter_cons_of_pos (by simpa using hblank), List.reverse_cons, List.append_assoc]
        rfl

theorem foldl_follow_of_ordinary {ss : List Segment} (h : ∀ s ∈ ss, IsOrdinary s) (place : List Segment) :
    ss.foldl follow place = ss.reverse ++ place := by
  rw [foldl_follow (fun s hs _ => h s hs), List.filter_eq_self.2 fun s hs => decide_eq_true (h s hs).1]

/-- The way up from where paths are followed from. -/
theorem foldl_follow_climb (levels : Nat) :
    (List.replicate levels up).foldl follow [] = List.replicate levels up := by
  induction levels with
  | zero => rfl
  | succ levels ih =>
      rw [List.replicate_succ', List.foldl_append, ih, List.foldl_cons, follow_climb, List.foldl_nil,
        List.replicate_succ']

/-- A place of ordinary segments is found again by its text. -/
theorem resolve_text {place : List Segment} (hne : place ≠ [])
    (h : ∀ s ∈ place, IsOrdinary s ∧ '/' ∉ s) : resolve [text place] = place := by
  rw [resolve, List.flatMap_singleton, segments_text hne fun s hs => (h s hs).2,
    foldl_follow_of_ordinary fun s hs => (h s hs).1, List.append_nil, List.reverse_reverse]

/-- A segment that is followed is added to the place or changes it to an earlier one. -/
theorem mem_of_mem_follow {place : List Segment} {s u : Segment} (h : u ∈ follow place s) :
    u = s ∨ u ∈ place := by
  unfold follow at h
  split at h
  · exact .inr h
  · split at h
    · cases place with
      | nil => exact .inl (List.mem_singleton.1 h)
      | cons last rest =>
          dsimp only at h
          split at h
          · exact List.mem_cons.1 h
          · exact .inr (List.mem_cons_of_mem last h)
    · exact List.mem_cons.1 h

/-- The place that paths lead to has no segments but theirs. -/
theorem exists_of_mem_resolve {paths : List (List Char)} {u : Segment} (h : u ∈ resolve paths) :
    ∃ path ∈ paths, u ∈ segments path := by
  have hfold : ∀ (ss place : List Segment), u ∈ ss.foldl follow place → u ∈ place ∨ u ∈ ss := by
    intro ss
    induction ss with
    | nil =>
        intro place hu
        exact .inl hu
    | cons s ss ih =>
        intro place hu
        rcases ih _ hu with hu | hu
        · rcases mem_of_mem_follow hu with rfl | hu
          · exact .inr List.mem_cons_self
          · exact .inl hu
        · exact .inr (List.mem_cons_of_mem s hu)
  rcases hfold _ _ (List.mem_reverse.1 h) with hnil | hu
  · exact absurd hnil List.not_mem_nil
  · exact List.mem_flatMap.1 hu

/-! ## Inside of a directory -/

/-- The path is relative and leads to the directory or to a place inside of it. -/
def Inside (dir path : String) : Prop :=
  path.toList.head? ≠ some '/' ∧ resolve [dir.toList] <+: resolve [path.toList]

/-- The text is the name of a directory. -/
def IsName (dir : String) : Prop := segments dir.toList = [dir.toList] ∧ IsOrdinary dir.toList

instance (dir : String) : Decidable (IsName dir) := by unfold IsName; infer_instance

/-- What is followed after the name of a directory is followed from there. -/
theorem IsName.resolve_cons {dir : String} (h : IsName dir) (paths : List (List Char)) :
    resolve (dir.toList :: paths) = ((paths.flatMap segments).foldl follow [dir.toList]).reverse := by
  rw [resolve, List.flatMap_cons, h.1, List.foldl_append, List.foldl_cons, List.foldl_nil,
    follow_ordinary _ h.2]

theorem IsName.resolve {dir : String} (h : IsName dir) : resolve [dir.toList] = [dir.toList] :=
  h.resolve_cons []

theorem IsName.slash_not_mem {dir : String} (h : IsName dir) : '/' ∉ dir.toList := by
  have hsegment : dir.toList ∈ segments dir.toList := h.1 ▸ List.mem_singleton.2 rfl
  exact Path.slash_not_mem hsegment

/-- A directory is inside of itself. -/
theorem inside_self {dir : String} (h : IsName dir) : Inside dir dir := by
  refine ⟨fun hslash => ?_, List.prefix_refl _⟩
  exact h.slash_not_mem (List.mem_of_head? hslash)

/-- A place of ordinary segments is inside of the ones on the way to it. -/
theorem inside_text {place rest : List Segment} (hne : place ≠ [])
    (h : ∀ s ∈ place ++ rest, IsOrdinary s ∧ '/' ∉ s) :
    Inside (String.ofList (text place)) (String.ofList (text (place ++ rest))) := by
  obtain ⟨first, more, rfl⟩ := List.exists_cons_of_ne_nil hne
  obtain ⟨hfirst, hslash⟩ := h first (by simp)
  refine ⟨?_, ?_⟩
  · rw [String.toList_ofList, text, List.cons_append, Text.head?_intercalate _ hfirst.1]
    exact fun hhead => hslash (List.mem_of_head? hhead)
  · rw [String.toList_ofList, String.toList_ofList, resolve_text hne fun s hs => h s (List.mem_append_left rest hs),
      resolve_text (List.append_ne_nil_of_left_ne_nil hne rest) h]
    exact List.prefix_append _ rest

/-- Plain segments lead from a directory to a place inside of it. -/
theorem inside_join {dir path : String} (hdir : IsName dir) (hpath : IsPlain path.toList) :
    Inside dir (join [dir, path]) := by
  have hplace : Path.resolve ([dir, path].map String.toList)
      = [dir.toList] ++ (segments path.toList).filter fun s => s ≠ [] := by
    rw [List.map_cons, hdir.resolve_cons, List.map_singleton, List.flatMap_singleton,
      foldl_follow hpath, List.reverse_append, List.reverse_reverse]
    rfl
  have hordinary : ∀ s ∈ [dir.toList] ++ (segments path.toList).filter fun s => s ≠ [],
      IsOrdinary s ∧ '/' ∉ s := by
    refine List.forall_mem_append.2 ⟨?_, fun s hs => ?_⟩
    · exact List.forall_mem_singleton.2 ⟨hdir.2, hdir.slash_not_mem⟩
    · obtain ⟨hs, hblank⟩ := List.mem_filter.1 hs
      exact ⟨hpath s hs (of_decide_eq_true hblank), slash_not_mem hs⟩
  have hdirText : String.ofList (text [dir.toList]) = dir := by
    rw [text, List.intercalate_singleton, String.ofList_toList]
  have hinside := inside_text (List.cons_ne_nil dir.toList []) hordinary
  rwa [hdirText, ← hplace] at hinside

end PipelineCompiler.Path
