import PipelineCompiler.Proofs.Path.Resolution
import PipelineCompiler.Surroundings.Memory

/-!
# Files held in memory

Files are kept under the texts of the places that their paths lead to, so that a text with a slash behind
it begins another one just if its place leads on to the other place (`startsWith_text`). The one directory
that is missed in this way is the one that paths are seen from, whose place has no text (`mirrors_iff`).
-/

namespace PipelineCompiler

namespace Path

/-- The place that a path leads to. -/
def place (path : String) : List Segment := resolve [path.toList]

/-- The directory is on the way to a place. From the directory that paths are seen from the way begins, unless
it climbs. -/
def OnTheWay (dir place : List Segment) : Prop :=
  dir <+: place ∧ dir ≠ place ∧ (dir = [] → place.head? ≠ some up)

instance (dir place : List Segment) : Decidable (OnTheWay dir place) := by unfold OnTheWay; infer_instance

theorem toList_normalize (path : String) : (normalize path).toList = text (place path) := by
  rw [normalize_eq_join, toList_join]
  rfl

theorem place_normalize (path : String) : place (normalize path) = place path := by
  rw [normalize_eq_join, place, resolve_join]
  rfl

/-- Paths have one normal form just if they lead to one place. -/
theorem normalize_eq_iff {path path' : String} :
    normalize path = normalize path' ↔ place path = place path' := by
  constructor
  · intro h
    rw [← place_normalize path, h, place_normalize]
  · intro h
    rw [← String.toList_inj, toList_normalize, toList_normalize, h]

theorem slash_not_mem_place {path : String} {s : Segment} (h : s ∈ place path) : '/' ∉ s :=
  slash_not_mem_resolve h

theorem text_segments (path : List Char) : text (segments path) = path := by
  rw [segments_eq_splitOn, text, List.intercalate_splitOn]

/-- A text is cut at a slash just if its segments are those on both sides. -/
theorem text_append {before after : List Segment} (hbefore : before ≠ []) (hafter : after ≠ [])
    (h : ∀ s ∈ before ++ after, '/' ∉ s) : text (before ++ after) = text before ++ '/' :: text after := by
  rw [← text_segments (text before ++ '/' :: text after), segments_append_slash,
    segments_text hbefore fun s hs => h s (List.mem_append_left after hs),
    segments_text hafter fun s hs => h s (List.mem_append_right before hs)]

/-- The text of a place is that of a directory, a slash and more just if the directory is on the way to it and
is not the one that paths are seen from. -/
theorem startsWith_text {dir path : String} :
    Text.startsWith (normalize path) (normalize dir ++ "/") = true ↔
      place dir ≠ [] ∧ OnTheWay (place dir) (place path) := by
  have hstart : Text.startsWith (normalize path) (normalize dir ++ "/") = true ↔
      ∃ rest, text (place path) = text (place dir) ++ '/' :: rest := by
    rw [Text.startsWith, Option.isSome_iff_exists, String.toList_append, toList_normalize, toList_normalize]
    simp only [Text.afterStart?_eq_some, List.append_assoc]
    rfl
  rw [hstart]
  constructor
  · rintro ⟨rest, hrest⟩
    have hdir : place dir ≠ [] := by
      intro hnil
      have hhead := head?_join [path]
      rw [toList_join, List.map_singleton, ← place, hrest, hnil] at hhead
      exact hhead rfl
    have hpath : place path ≠ [] := by
      intro hnil
      rw [hnil] at hrest
      simp [text] at hrest
    have hsegments := congrArg segments hrest
    rw [segments_append_slash, segments_text hdir fun s => slash_not_mem_place,
      segments_text hpath fun s => slash_not_mem_place] at hsegments
    refine ⟨hdir, hsegments ▸ List.prefix_append _ _, fun heq => ?_, fun hnil => absurd hnil hdir⟩
    rw [heq, List.self_eq_append_right, segments_eq_splitOn] at hsegments
    exact List.splitOn_ne_nil _ _ hsegments
  · rintro ⟨hdir, ⟨after, hafter⟩, hne, -⟩
    have hrest : after ≠ [] := by
      rintro rfl
      exact hne (by simpa using hafter)
    refine ⟨text after, ?_⟩
    rw [← hafter, text_append hdir hrest fun s hs => slash_not_mem_place (hafter ▸ hs)]

end Path

/-! ## One addition after the other -/

namespace MemoryFiles

open PipelineCompiler.Path (place OnTheWay)

/-- The files after additions, each of them a path and what is put there. -/
def ofAdditions (adds : List (String × FileEntry)) : MemoryFiles :=
  adds.foldl (fun m a => m.add a.1 a.2) {}

theorem ofAdditions_append (adds : List (String × FileEntry)) (path : String) (entry : FileEntry) :
    ofAdditions (adds ++ [(path, entry)]) = (ofAdditions adds).add path entry := by
  rw [ofAdditions, List.foldl_append]
  rfl

/-- The texts that files are kept under. -/
def keys (m : MemoryFiles) : List String := m.entries.map Prod.fst

theorem mem_keys_add {m : MemoryFiles} {path key : String} {entry : FileEntry} :
    key ∈ (m.add path entry).keys ↔ key = Path.normalize path ∨ key ∈ m.keys := by
  rw [keys, add, putEntry, List.map_cons, List.mem_cons]
  by_cases hkey : key = Path.normalize path
  · simp [hkey]
  · simp [hkey, keys]

/-- Files are kept under the normal forms of the paths that were added. -/
theorem mem_keys_ofAdditions {adds : List (String × FileEntry)} {key : String} :
    key ∈ (ofAdditions adds).keys ↔ ∃ a ∈ adds, key = Path.normalize a.1 := by
  induction adds using List.reverseRecOn with
  | nil => simp [ofAdditions, keys]
  | append_singleton adds a ih =>
      rw [ofAdditions_append, mem_keys_add, ih]
      simp [or_comm, or_and_right, exists_or]

theorem exists?_iff_key {m : MemoryFiles} {path : String} :
    m.exists? path = true ↔ ∃ key ∈ m.keys,
      key = Path.normalize path ∨ Text.startsWith key (Path.normalize path ++ "/") = true := by
  simp [exists?, keys]

/-- The place was added itself, or it is on the way to one that was, and not the directory that paths are seen
from. -/
theorem exists?_iff {adds : List (String × FileEntry)} {path : String} :
    (ofAdditions adds).exists? path = true ↔ (∃ a ∈ adds, place a.1 = place path)
      ∨ place path ≠ [] ∧ ∃ a ∈ adds, OnTheWay (place path) (place a.1) := by
  rw [exists?_iff_key]
  simp only [mem_keys_ofAdditions]
  constructor
  · rintro ⟨key, ⟨a, ha, rfl⟩, hkey | hkey⟩
    · exact .inl ⟨a, ha, Path.normalize_eq_iff.1 hkey⟩
    · obtain ⟨hne, hway⟩ := Path.startsWith_text.1 hkey
      exact .inr ⟨hne, a, ha, hway⟩
  · rintro (⟨a, ha, hplace⟩ | ⟨hne, a, ha, hway⟩)
    · exact ⟨_, ⟨a, ha, rfl⟩, .inl (Path.normalize_eq_iff.2 hplace)⟩
    · exact ⟨_, ⟨a, ha, rfl⟩, .inr (Path.startsWith_text.2 ⟨hne, hway⟩)⟩

theorem valueAt?_add (m : MemoryFiles) (path key : String) (entry : FileEntry) :
    valueAt? key (m.add path entry).entries
      = if Path.normalize path = key then some entry else valueAt? key m.entries := by
  rw [add, putEntry, valueAt?, List.find?_cons]
  split
  case h_1 hkey =>
    rw [if_pos (of_decide_eq_true hkey)]
    rfl
  case h_2 hkey =>
    have hother : Path.normalize path ≠ key := of_decide_eq_false hkey
    rw [if_neg hother, valueAt?, List.find?_filter]
    refine congrArg (Option.map Prod.snd) (congrArg (List.find? · m.entries) (funext fun e => ?_))
    by_cases he : e.1 = key
    · simp [he, hother.symm]
    · simp [he]

/-- At a place the last addition counts. -/
theorem valueAt?_last {before after : List (String × FileEntry)} {path : String} {a : String × FileEntry}
    (hplace : place a.1 = place path) (hlast : ∀ b ∈ after, place b.1 ≠ place path) :
    valueAt? (Path.normalize path) (ofAdditions (before ++ a :: after)).entries = some a.2 := by
  induction after using List.reverseRecOn with
  | nil => rw [ofAdditions_append, valueAt?_add, if_pos (Path.normalize_eq_iff.2 hplace)]
  | append_singleton after b ih =>
      obtain ⟨hafter, hb⟩ := List.forall_mem_append.1 hlast
      have hother : Path.normalize b.1 ≠ Path.normalize path := fun h =>
        hb b (List.mem_singleton.2 rfl) (Path.normalize_eq_iff.1 h)
      rw [← List.cons_append, ← List.append_assoc, ofAdditions_append, valueAt?_add, if_neg hother, ih hafter]

theorem valueAt?_eq_none {adds : List (String × FileEntry)} {path : String}
    (h : ∀ a ∈ adds, place a.1 ≠ place path) :
    valueAt? (Path.normalize path) (ofAdditions adds).entries = none := by
  rw [valueAt?, Option.map_eq_none_iff, List.find?_eq_none]
  intro e he hkey
  obtain ⟨a, ha, hname⟩ := mem_keys_ofAdditions.1 (List.mem_map_of_mem he)
  exact h a ha (Path.normalize_eq_iff.1 (hname.symm.trans (of_decide_eq_true hkey)))

theorem check_eq_none {m : MemoryFiles} {path : String} (h : valueAt? (Path.normalize path) m.entries = none)
    (executable : Bool) :
    m.check path executable = some (if m.exists? path = true then .isDirectory else .notFound) := by
  rw [check, h]

/-! ## What is found -/

/-- The files are found at a path as they were added. -/
structure Mirrors (adds : List (String × FileEntry)) (path : String) : Prop where
  /-- Something stands at the places that were added and at the directories on the way to them. -/
  exists_iff : (ofAdditions adds).exists? path = true ↔
    (∃ a ∈ adds, place a.1 = place path) ∨ ∃ a ∈ adds, OnTheWay (place path) (place a.1)
  /-- The last addition at a place tells what stands there. -/
  added : ∀ before a after, adds = before ++ a :: after → place a.1 = place path →
    (∀ b ∈ after, place b.1 ≠ place path) →
    ∀ executable, (ofAdditions adds).check path executable = a.2.issue? executable
  /-- A directory on the way to what was added is one. -/
  onTheWay : (∀ a ∈ adds, place a.1 ≠ place path) → (∃ a ∈ adds, OnTheWay (place path) (place a.1)) →
    ∀ executable, (ofAdditions adds).check path executable = some .isDirectory
  /-- Nothing stands anywhere else. -/
  nowhere : (∀ a ∈ adds, place a.1 ≠ place path) → (∀ a ∈ adds, ¬ OnTheWay (place path) (place a.1)) →
    ∀ executable, (ofAdditions adds).check path executable = some .notFound

/-- The path leads to the directory that paths are seen from, which is on the way to something that was added
and was not added itself. -/
def Overlooked (adds : List (String × FileEntry)) (path : String) : Prop :=
  place path = [] ∧ (∀ a ∈ adds, place a.1 ≠ []) ∧ ∃ a ∈ adds, OnTheWay [] (place a.1)

instance (adds : List (String × FileEntry)) (path : String) : Decidable (Overlooked adds path) := by
  unfold Overlooked
  infer_instance

/-- The answers at a path are those of the place it leads to. -/
theorem answers_eq_of_normalize {m : MemoryFiles} {path path' : String}
    (h : Path.normalize path' = Path.normalize path) :
    m.exists? path' = m.exists? path ∧ ∀ executable, m.check path' executable = m.check path executable := by
  have hexists : m.exists? path' = m.exists? path := by rw [exists?, exists?, h]
  refine ⟨hexists, fun executable => ?_⟩
  rw [check, check, h, hexists]

theorem Overlooked.exists? {adds : List (String × FileEntry)} {path : String} (h : Overlooked adds path) :
    (ofAdditions adds).exists? path = false := by
  obtain ⟨hroot, hnone, -⟩ := h
  rw [Bool.eq_false_iff, Ne, exists?_iff, not_or, hroot]
  exact ⟨fun ⟨a, ha, hplace⟩ => hnone a ha hplace, fun hway => hway.1 rfl⟩

theorem Overlooked.check {adds : List (String × FileEntry)} {path : String} (h : Overlooked adds path)
    (executable : Bool) : (ofAdditions adds).check path executable = some .notFound := by
  rw [check_eq_none (valueAt?_eq_none (h.1.symm ▸ h.2.1)), if_neg (Bool.eq_false_iff.1 h.exists?)]

theorem mirrors_of_not_overlooked {adds : List (String × FileEntry)} {path : String}
    (h : ¬ Overlooked adds path) : Mirrors adds path := by
  have hexists : (ofAdditions adds).exists? path = true ↔
      (∃ a ∈ adds, place a.1 = place path) ∨ ∃ a ∈ adds, OnTheWay (place path) (place a.1) := by
    rw [exists?_iff]
    by_cases hadded : ∃ a ∈ adds, place a.1 = place path
    · exact iff_of_true (.inl hadded) (.inl hadded)
    · refine or_congr_right (and_iff_right_of_imp fun hway hroot => h ⟨hroot, fun a ha hplace => ?_, ?_⟩)
      · exact hadded ⟨a, ha, hplace.trans hroot.symm⟩
      · rwa [hroot] at hway
  refine ⟨hexists, ?_, fun hnone hway executable => ?_, fun hnone hway executable => ?_⟩
  · rintro before a after rfl hplace hlast executable
    rw [check, valueAt?_last hplace hlast]
  · rw [check_eq_none (valueAt?_eq_none hnone), if_pos (hexists.2 (.inr hway))]
  · have hnowhere : ¬ (ofAdditions adds).exists? path = true := by
      rw [hexists]
      rintro (⟨a, ha, hplace⟩ | ⟨a, ha, hon⟩)
      · exact hnone a ha hplace
      · exact hway a ha hon
    rw [check_eq_none (valueAt?_eq_none hnone), if_neg hnowhere]

/-- Files that were added one after the other are found at all paths just as they were added, but for one
directory: the one that paths are seen from is not found if it was not added itself. Two paths with one normal
form get the same answers. -/
theorem mirrors_iff (adds : List (String × FileEntry)) (path : String) :
    (Mirrors adds path ↔ ¬ Overlooked adds path)
      ∧ (Overlooked adds path → (ofAdditions adds).exists? path = false
          ∧ ∀ executable, (ofAdditions adds).check path executable = some .notFound)
      ∧ ∀ path', Path.normalize path' = Path.normalize path →
          (ofAdditions adds).exists? path' = (ofAdditions adds).exists? path
            ∧ ∀ executable, (ofAdditions adds).check path' executable
              = (ofAdditions adds).check path executable := by
  refine ⟨⟨fun hmirrors hover => ?_, mirrors_of_not_overlooked⟩, fun hover => ⟨hover.exists?, hover.check⟩,
    fun path' => answers_eq_of_normalize⟩
  obtain ⟨hroot, -, hway⟩ := id hover
  have hfound := hmirrors.exists_iff.2 (.inr (hroot.symm ▸ hway))
  rw [hover.exists?] at hfound
  cases hfound

/-- A file that is replaced by an empty one, a directory in which it stands, and another one beside the
directory that paths are seen from. -/
def replacedFile : List (String × FileEntry) :=
  [("./a/b/c.txt", .file "x" true), ("../outside", .directory), ("a/x/../b/c.txt", .file "" false)]

theorem replacedFile_mirrored :
    ¬ Overlooked replacedFile "a//b/."
      ∧ Mirrors replacedFile "a//b/."
      ∧ Path.normalize "a/b" = Path.normalize "a//b/."
      ∧ (ofAdditions replacedFile).exists? "a/b" = (ofAdditions replacedFile).exists? "a//b/." := by
  have hover : ¬ Overlooked replacedFile "a//b/." := by decide +kernel
  have hpath : Path.normalize "a/b" = Path.normalize "a//b/." := by decide +kernel
  obtain ⟨hmirrors, -, hsame⟩ := mirrors_iff replacedFile "a//b/."
  exact ⟨hover, hmirrors.2 hover, hpath, (hsame "a/b" hpath).1⟩

/-- The directory that paths are seen from holds a file, and is not found. -/
theorem ownDirectory_overlooked :
    OnTheWay (place ".") (place "a/b")
      ∧ (ofAdditions [("a/b", .file "x" false)]).exists? "." = false
      ∧ (ofAdditions [("a/b", .file "x" false)]).check "." false = some .notFound
      ∧ ¬ Mirrors [("a/b", .file "x" false)] "." := by
  have hway : OnTheWay (place ".") (place "a/b") := by decide +kernel
  have hexists : (ofAdditions [("a/b", .file "x" false)]).exists? "." = false := by decide +kernel
  refine ⟨hway, hexists, by decide +kernel, fun hmirrors => ?_⟩
  have hfound := hmirrors.exists_iff.2 (.inr ⟨_, List.mem_singleton.2 rfl, hway⟩)
  rw [hexists] at hfound
  cases hfound

end MemoryFiles

end PipelineCompiler
