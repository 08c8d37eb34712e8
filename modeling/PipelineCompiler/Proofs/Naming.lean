import Mathlib.Data.List.Perm.Subperm
import Std.Data.String.ToNat
import PipelineCompiler.Naming
import PipelineCompiler.Proofs.Task.Positions

/-!
# Names of jobs are distinct

A name that is handed out is the one due to its candidate (`FirstFree`). There is one: of the numbered
names that are tried there is one more than there are used names. So names that are claimed one after the
other are distinct, and the registry knows just them (`NameRegistry.claimAll_handsOut`).

The jobs of an index therefore carry distinct names, and the name at the position of a leaf is the one that
was handed out for it (`name?_of_getElem?`). The names that a leaf waits for are those at the positions it
waits for (`mem_passed`), whatever the leaves are called.
-/

namespace PipelineCompiler

/-! ## Free names -/

/-- Numbered names of one candidate differ. -/
theorem numbered_injective (candidate : String) :
    Function.Injective fun i : Nat => candidate ++ "-" ++ toString (i + 1) := by
  intro i j h
  have hrepr : toString (i + 1) = toString (j + 1) := (String.append_right_inj _).1 h
  exact Nat.succ.inj (Nat.repr_injective hrepr)

/-- One of the numbered names that are tried is free. -/
theorem exists_numbered_not_mem (candidate : String) (used : List String) :
    ∃ name ∈ (List.range (used.length + 1)).map fun i => candidate ++ "-" ++ toString (i + 1),
      name ∉ used := by
  by_contra h
  have hsubset : ((List.range (used.length + 1)).map fun i =>
      candidate ++ "-" ++ toString (i + 1)) ⊆ used := by
    intro name hname
    by_contra hused
    exact h ⟨name, hname, hused⟩
  have hnodup := List.nodup_range (n := used.length + 1) |>.map (numbered_injective candidate)
  have hle := (hnodup.subperm hsubset).length_le
  rw [List.length_map, List.length_range] at hle
  omega

/-- The name due to a candidate where some names are used. It is the candidate if that is free, and
otherwise the candidate with the least number that makes it free; one more number than there are used names
is enough. -/
inductive FirstFree (used : List String) (candidate : String) : String → Prop where
  | itself (hfree : candidate ∉ used) : FirstFree used candidate candidate
  | numbered (k : Nat) (hused : candidate ∈ used) (hpos : 1 ≤ k) (hbound : k ≤ used.length + 1)
      (hfree : candidate ++ "-" ++ toString k ∉ used)
      (hleast : ∀ j, 1 ≤ j → j < k → candidate ++ "-" ++ toString j ∈ used) :
      FirstFree used candidate (candidate ++ "-" ++ toString k)

theorem FirstFree.not_mem {used : List String} {candidate name : String}
    (h : FirstFree used candidate name) : name ∉ used := by
  cases h with
  | itself hfree => exact hfree
  | numbered k _ _ _ hfree _ => exact hfree

/-- The order in which names were used does not matter. -/
theorem FirstFree.perm {used used' : List String} {candidate name : String}
    (h : FirstFree used candidate name) (hperm : used.Perm used') : FirstFree used' candidate name := by
  cases h with
  | itself hfree => exact .itself (hfree ∘ hperm.mem_iff.2)
  | numbered k hused hpos hbound hfree hleast =>
      exact .numbered k (hperm.mem_iff.1 hused) hpos (hperm.length_eq ▸ hbound) (hfree ∘ hperm.mem_iff.2)
        fun j hj hlt => hperm.mem_iff.1 (hleast j hj hlt)

/-- A candidate that is free is handed out as it is. -/
theorem uniqueName_of_not_mem {candidate : String} {used : List String} (h : candidate ∉ used) :
    uniqueName candidate used = candidate := by
  rw [uniqueName, if_neg (by simpa using h)]

/-- The search for a number ends with the least one that makes the candidate free. -/
theorem exists_find?_numbered (candidate : String) (used : List String) :
    ∃ i, ((List.range (used.length + 1)).map fun i => candidate ++ "-" ++ toString (i + 1)).find?
        (fun name => !used.contains name) = some (candidate ++ "-" ++ toString (i + 1))
      ∧ i ≤ used.length ∧ candidate ++ "-" ++ toString (i + 1) ∉ used
      ∧ ∀ j < i, candidate ++ "-" ++ toString (j + 1) ∈ used := by
  obtain ⟨name, hname, hfree⟩ := exists_numbered_not_mem candidate used
  have hsome : (((List.range (used.length + 1)).map fun i =>
      candidate ++ "-" ++ toString (i + 1)).find? fun name => !used.contains name).isSome = true :=
    List.find?_isSome.2 ⟨name, hname, by simpa using hfree⟩
  obtain ⟨found, hfound⟩ := Option.isSome_iff_exists.1 hsome
  rw [List.find?_map, Option.map_eq_some_iff] at hfound
  obtain ⟨i, hi, rfl⟩ := hfound
  refine ⟨i, by rw [List.find?_map, hi, Option.map_some], ?_⟩
  obtain ⟨hfree, hmem, hleast⟩ := List.find?_range_eq_some.1 hi
  exact ⟨Nat.le_of_lt_succ (List.mem_range.1 hmem), by simpa using hfree,
    fun j hlt => by simpa using hleast j hlt⟩

/-- The name that is handed out is the one that is due. -/
theorem firstFree_uniqueName (candidate : String) (used : List String) :
    FirstFree used candidate (uniqueName candidate used) := by
  by_cases hused : candidate ∈ used
  · obtain ⟨i, hfound, hbound, hfree, hleast⟩ := exists_find?_numbered candidate used
    rw [uniqueName, if_pos (by simpa using hused), hfound, Option.getD_some]
    refine .numbered (i + 1) hused (Nat.le_add_left 1 i) (Nat.succ_le_succ hbound) hfree ?_
    intro j hpos hlt
    obtain ⟨j, rfl⟩ := Nat.exists_eq_add_of_le' hpos
    exact hleast j (Nat.lt_of_succ_lt_succ hlt)
  · rw [uniqueName_of_not_mem hused]
    exact .itself hused

/-- The name that is handed out is free. -/
theorem uniqueName_not_mem (candidate : String) (used : List String) :
    uniqueName candidate used ∉ used :=
  (firstFree_uniqueName candidate used).not_mem

/-- A name that is handed out is the candidate or the candidate with a number appended. -/
theorem uniqueName_cases (candidate : String) (used : List String) :
    uniqueName candidate used = candidate
      ∨ ∃ k : Nat, uniqueName candidate used = candidate ++ "-" ++ toString k := by
  have hdue := firstFree_uniqueName candidate used
  generalize uniqueName candidate used = name at hdue ⊢
  cases hdue with
  | itself _ => exact .inl rfl
  | numbered k _ _ _ _ _ => exact .inr ⟨k, rfl⟩

/-- A number that is appended leaves the beginning of a name as it is. -/
theorem head?_uniqueName {candidate : String} {c : Char} (h : candidate.toList.head? = some c)
    (used : List String) : (uniqueName candidate used).toList.head? = some c := by
  rcases uniqueName_cases candidate used with heq | ⟨i, heq⟩
  · rw [heq, h]
  · rw [heq, String.toList_append, String.toList_append, List.append_assoc, List.head?_append, h]
    rfl

/-! ## The registry -/

namespace NameRegistry

/-- A claim adds the name that it hands out. -/
theorem claim_eq (r : NameRegistry) (candidate : String) :
    r.claim candidate = (uniqueName candidate r.used, ⟨uniqueName candidate r.used :: r.used⟩) := by
  have hfree := uniqueName_not_mem candidate r.used
  simp [claim, hfree]

/-- There is one name for each candidate. -/
theorem claimAll_length (r : NameRegistry) (candidates : List String) :
    (r.claimAll candidates).1.length = candidates.length := by
  induction candidates generalizing r with
  | nil => rfl
  | cons candidate rest ih =>
      simp only [claimAll, List.length_cons]
      rw [ih]

/-- The names that are handed out are added to those that were used, the latest first. -/
theorem claimAll_used (r : NameRegistry) (candidates : List String) :
    (r.claimAll candidates).2.used = (r.claimAll candidates).1.reverse ++ r.used := by
  induction candidates generalizing r with
  | nil => rfl
  | cons candidate rest ih =>
      simp only [claimAll, claim_eq]
      rw [ih, List.reverse_cons, List.append_assoc]
      rfl

/-- Every candidate is given the name that is due to it, given those that were handed out before. -/
theorem claimAll_firstFree (r : NameRegistry) {candidates : List String} {i : Nat} {candidate name : String}
    (hcandidate : candidates[i]? = some candidate)
    (hname : (r.claimAll candidates).1[i]? = some name) :
    FirstFree (((r.claimAll candidates).1.take i).reverse ++ r.used) candidate name := by
  induction candidates generalizing r i with
  | nil => simp at hcandidate
  | cons first rest ih =>
      simp only [claimAll, claim_eq] at hname ⊢
      cases i with
      | zero =>
          obtain rfl : first = candidate := by simpa using hcandidate
          obtain rfl : uniqueName first r.used = name := by simpa using hname
          exact firstFree_uniqueName first r.used
      | succ i =>
          have hdue := ih _ hcandidate hname
          rwa [List.take_succ_cons, List.reverse_cons, List.append_assoc]

/-- Names that are handed out are distinct, and none was used before. -/
theorem claimAll_nodup (r : NameRegistry) (candidates : List String) :
    (r.claimAll candidates).1.Nodup ∧ ∀ name ∈ (r.claimAll candidates).1, name ∉ r.used := by
  induction candidates generalizing r with
  | nil => simp [claimAll]
  | cons candidate rest ih =>
      simp only [claimAll, claim_eq]
      obtain ⟨hnodup, hfree⟩ := ih ⟨uniqueName candidate r.used :: r.used⟩
      refine ⟨List.nodup_cons.2 ⟨fun h => hfree _ h List.mem_cons_self, hnodup⟩, ?_⟩
      intro name hname
      rcases List.mem_cons.1 hname with rfl | hname
      · exact uniqueName_not_mem candidate r.used
      · exact fun h => hfree name hname (List.mem_cons_of_mem _ h)

/-- What a new registry makes of candidates that are claimed one after the other: the names that it hands
out, and what it knows afterwards. -/
structure HandsOut (candidates names : List String) (after : NameRegistry) : Prop where
  length : names.length = candidates.length
  nodup : names.Nodup
  contains (name : String) : after.contains name = true ↔ name ∈ names
  size : after.size = candidates.length
  firstFree (i : Nat) (candidate name : String) : candidates[i]? = some candidate → names[i]? = some name →
    FirstFree (names.take i) candidate name

/-- Candidates are given names that are free in the order of the claims, and the registry knows those names
and no others. -/
theorem claimAll_handsOut (candidates : List String) :
    HandsOut candidates (({} : NameRegistry).claimAll candidates).1
      (({} : NameRegistry).claimAll candidates).2 where
  length := claimAll_length _ _
  nodup := (claimAll_nodup _ _).1
  contains name := by
    rw [NameRegistry.contains, claimAll_used]
    simp
  size := by
    rw [NameRegistry.size, claimAll_used]
    simp [claimAll_length]
  firstFree i candidate name hcandidate hname := by
    have hdue := claimAll_firstFree _ hcandidate hname
    rw [List.append_nil] at hdue
    exact hdue.perm (List.reverse_perm _)

/-- A candidate that looks like a numbered one takes its number away. -/
example : (({} : NameRegistry).claimAll ["a", "a-1", "a", "a"]).1 = ["a", "a-1", "a-2", "a-3"] := by
  decide

end NameRegistry

/-! ## The index of jobs -/

namespace JobIndex

/-- The names of the jobs of a list of tasks, in the order in which the leaves run. -/
def names (tasks : List Task) (nameOf : Leaf → String) : List String :=
  (({} : NameRegistry).claimAll ((Task.leaves tasks).map fun e => nameOf e.2)).1

theorem names_length (tasks : List Task) (nameOf : Leaf → String) :
    (names tasks nameOf).length = (Task.leaves tasks).length := by
  rw [names, NameRegistry.claimAll_length, List.length_map]

/-- No two jobs carry one name. -/
theorem names_nodup (tasks : List Task) (nameOf : Leaf → String) : (names tasks nameOf).Nodup :=
  (NameRegistry.claimAll_nodup _ _).1

/-- Looking up a key of an association list of distinct keys finds the value that was put beside it. -/
theorem find?_zip {α β : Type} [DecidableEq α] {keys : List α} {values : List β}
    (hnodup : keys.Nodup) {k : Nat} {key : α} {value : β} (hkey : keys[k]? = some key)
    (hvalue : values[k]? = some value) :
    ((keys.zip values).find? fun e => e.1 = key).map Prod.snd = some value := by
  induction keys generalizing values k with
  | nil => simp at hkey
  | cons a keys ih =>
      obtain ⟨ha, hnodup⟩ := List.nodup_cons.1 hnodup
      cases values with
      | nil => simp at hvalue
      | cons b values =>
          cases k with
          | zero =>
              obtain rfl : a = key := by simpa using hkey
              obtain rfl : b = value := by simpa using hvalue
              simp
          | succ k =>
              have hkey' : keys[k]? = some key := by simpa using hkey
              have hne : a ≠ key := fun h => ha (h ▸ List.mem_of_getElem? hkey')
              rw [List.zip_cons_cons, List.find?_cons_of_neg (by simpa using hne)]
              exact ih hnodup hkey' (by simpa using hvalue)

/-- The job of a leaf has the name that was handed out for the leaf. -/
theorem name?_of_getElem? {tasks : List Task} {nameOf : Leaf → String} {k : Nat} {path : TaskPath}
    {l : Leaf} {name : String} (hk : (Task.leaves tasks)[k]? = some (path, l))
    (hname : (names tasks nameOf)[k]? = some name) :
    (ofTasks tasks nameOf).name? path = some name := by
  refine find?_zip (Task.leafPaths_nodup tasks) (k := k) ?_ hname
  rw [Task.leafPaths, List.getElem?_map, hk]
  rfl

/-- Every leaf has a job. -/
theorem exists_name? {tasks : List Task} (nameOf : Leaf → String) {e : TaskPath × Leaf}
    (he : e ∈ Task.leaves tasks) : ∃ name, (ofTasks tasks nameOf).name? e.1 = some name := by
  obtain ⟨k, hk⟩ := List.mem_iff_getElem?.1 he
  obtain ⟨hlt, -⟩ := List.getElem?_eq_some_iff.1 hk
  rw [← names_length tasks nameOf] at hlt
  exact ⟨_, name?_of_getElem? hk (List.getElem?_eq_getElem hlt)⟩

/-- A leaf waits for the jobs at the positions that it waits for. -/
theorem mem_passed {tasks : List Task} {nameOf : Leaf → String} {path : TaskPath} {name : String} :
    name ∈ (ofTasks tasks nameOf).passed tasks path ↔
      ∃ (i : Nat) (a : TaskPath) (l : Leaf), (Task.leaves tasks)[i]? = some (a, l)
        ∧ (names tasks nameOf)[i]? = some name ∧ a ∈ Task.passedPaths tasks path := by
  have hname {i : Nat} {a : TaskPath} {l : Leaf} (hi : (Task.leaves tasks)[i]? = some (a, l)) :
      ∃ name, (names tasks nameOf)[i]? = some name
        ∧ ((ofTasks tasks nameOf).name? a).getD l.name = name := by
    obtain ⟨hlt, -⟩ := List.getElem?_eq_some_iff.1 hi
    rw [← names_length tasks nameOf] at hlt
    refine ⟨_, List.getElem?_eq_getElem hlt, ?_⟩
    rw [name?_of_getElem? hi (List.getElem?_eq_getElem hlt), Option.getD_some]
  rw [passed, Task.passedNames, List.mem_filterMap]
  constructor
  · rintro ⟨a, ha, hmap⟩
    obtain ⟨l, hl, hmap⟩ := Option.map_eq_some_iff.1 hmap
    obtain ⟨i, hi⟩ := List.mem_iff_getElem?.1 (Task.mem_leaves.2 hl)
    obtain ⟨name', hname', heq⟩ := hname hi
    exact ⟨i, a, l, hi, by rw [hname', ← hmap, heq], ha⟩
  · rintro ⟨i, a, l, hi, hn, ha⟩
    obtain ⟨name', hname', heq⟩ := hname hi
    refine ⟨a, ha, Option.map_eq_some_iff.2 ⟨l, Task.mem_leaves.1 (List.mem_of_getElem? hi), ?_⟩⟩
    exact heq.trans (Option.some.inj (hname'.symm.trans hn))

end JobIndex

end PipelineCompiler
