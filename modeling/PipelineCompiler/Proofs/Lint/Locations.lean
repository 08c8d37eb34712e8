import Std.Data.String.ToNat
import PipelineCompiler.Proofs.Lint.Groups

/-!
# Locations

What a finding can be about: a trigger, a task, or a check of a deployment. Its place is told by a text
that every group and every deployment adds a part of its own to. A dot stands between two parts and in
none, and a part names the kind of what is counted, so that no two places of a manifest have one text
(`Location.text_inj`).
-/

namespace PipelineCompiler.Lint

/-! ## Texts with an index -/

/-- A name and an index in brackets. -/
def indexed (name : String) (i : Nat) : String := name ++ "[" ++ toString i ++ "]"

theorem triggerPosition_eq (i : Nat) : triggerPosition i = indexed "triggers" i := by
  simp only [triggerPosition, indexed, String.append_assoc]
  rfl

theorem prePromotePosition_eq (k : Nat) : prePromotePosition k = indexed "pre_promote" k := by
  simp only [prePromotePosition, indexed, String.append_assoc]
  rfl

theorem taskPosition_eq (path : TaskPath) :
    taskPosition path = ".".intercalate (path.map (indexed "tasks")) := by
  unfold taskPosition indexed
  simp only [String.append_assoc]
  rfl

theorem toList_indexed (name : String) (i : Nat) :
    (indexed name i).toList = name.toList ++ '[' :: (Nat.toDigits 10 i ++ [']']) := by
  simp [indexed]

theorem indexed_injective (name : String) : Function.Injective (indexed name) := by
  intro i j h
  have hrepr : toString i = toString j := by simpa [indexed] using h
  exact Nat.repr_injective hrepr

/-- Texts with an index have the same name up to the bracket. -/
theorem name_eq_of_indexed {a b : String} {i j : Nat} (ha : '[' ∉ a.toList) (hb : '[' ∉ b.toList)
    (h : indexed a i = indexed b j) : a = b := by
  have hname {s : String} {k : Nat} (hs : '[' ∉ s.toList) :
      (indexed s k).toList.takeWhile (· != '[') = s.toList := by
    rw [toList_indexed, List.takeWhile_append_of_pos]
    · simp
    · intro c hc
      simp only [bne_iff_ne, ne_eq]
      rintro rfl
      exact hs hc
  rw [← String.toList_inj, ← hname ha, ← hname hb, h]

theorem dot_not_mem_indexed {name : String} (hname : '.' ∉ name.toList) (i : Nat) :
    '.' ∉ (indexed name i).toList := by
  intro hdot
  rw [toList_indexed] at hdot
  rcases List.mem_append.1 hdot with hdot | hdot
  · exact hname hdot
  · rcases List.mem_cons.1 hdot with hdot | hdot
    · exact absurd hdot (by decide)
    · rcases List.mem_append.1 hdot with hdot | hdot
      · exact absurd (Nat.isDigit_of_mem_toDigits (by omega) (by omega) hdot) (by decide)
      · exact absurd (List.mem_singleton.1 hdot) (by decide)

theorem intercalate_concat (sep s : String) {parts : List String} (h : parts ≠ []) :
    sep.intercalate (parts ++ [s]) = sep.intercalate parts ++ sep ++ s := by
  induction parts with
  | nil => exact absurd rfl h
  | cons part parts ih =>
      cases parts with
      | nil => simp [String.intercalate_cons_cons]
      | cons next parts =>
          have htail := ih (List.cons_ne_nil next parts)
          rw [List.cons_append, List.cons_append, String.intercalate_cons_cons, ← List.cons_append, htail,
            String.intercalate_cons_cons]
          simp only [String.append_assoc]

/-- The place of a task in a group. -/
theorem taskPosition_concat {path : TaskPath} (h : path ≠ []) (i : Nat) :
    taskPosition (path ++ [i]) = taskPosition path ++ "." ++ taskPosition [i] := by
  have hne : path.map (indexed "tasks") ≠ [] := by simpa using h
  rw [taskPosition_eq, List.map_append, List.map_singleton, intercalate_concat _ _ hne, ← taskPosition_eq,
    taskPosition_eq [i], List.map_singleton, String.intercalate_singleton]

/-! ## Locations -/

theorem ne_nil_of_at? {tasks : List Task} {path : TaskPath} {t : Task}
    (h : Task.at? tasks path = some t) : path ≠ [] := by
  rintro rfl
  simp at h

/-- The position of a task in a group. -/
theorem at?_child {tasks : List Task} {path : TaskPath} {t : Task} (h : Task.at? tasks path = some t)
    (j : Nat) : Task.at? tasks (path ++ [j]) = t.children[j]? := by
  rw [Task.at?_concat (ne_nil_of_at? h), h, Option.bind_some]

/-- The position that a leaf is listed with leads to it. -/
theorem at?_of_mem_leaves {tasks : List Task} {path : TaskPath} {l : Leaf}
    (h : (path, l) ∈ Task.leaves tasks) : Task.at? tasks path = some (.leaf l) := by
  obtain ⟨t, ht, hl⟩ := Option.bind_eq_some_iff.1 (Task.mem_leaves.1 h)
  cases t with
  | leaf l' =>
      obtain rfl : l' = l := Option.some.inj hl
      exact ht
  | sequence tasks => exact absurd hl (by simp [Task.leaf?])
  | parallel tasks => exact absurd hl (by simp [Task.leaf?])

/-- What a finding can be about, by where it is. -/
inductive Location where
  | trigger (i : Nat)
  | task (path : TaskPath)
  /-- A check of the deployment at a position. -/
  | check (path : TaskPath) (k : Nat)
deriving DecidableEq, Repr

namespace Location

/-- The text for a place. -/
def text : Location → String
  | .trigger i => triggerPosition i
  | .task path => taskPosition path
  | .check path k => taskPosition path ++ "." ++ prePromotePosition k

/-- The manifest has the place. -/
inductive In (m : Manifest) : Location → Prop where
  | trigger {i : Nat} {t : Trigger} (ht : m.triggers[i]? = some t) : In m (.trigger i)
  | task {path : TaskPath} {t : Task} (ht : Task.at? m.tasks path = some t) : In m (.task path)
  | check {path : TaskPath} {l : Leaf} {d : DeployCf} {checks : List Task} {k : Nat} {t : Task}
      (hl : Task.at? m.tasks path = some (.leaf l)) (haction : l.action = .deployCf d checks)
      (hk : checks[k]? = some t) : In m (.check path k)

/-- The parts of the text, between which there are dots. -/
def parts : Location → List String
  | .trigger i => [indexed "triggers" i]
  | .task path => path.map (indexed "tasks")
  | .check path k => path.map (indexed "tasks") ++ [indexed "pre_promote" k]

/-- A place of a manifest has parts, which make up its text. -/
theorem In.parts_ne_nil {m : Manifest} {place : Location} (h : place.In m) :
    place.parts ≠ [] ∧ place.text = ".".intercalate place.parts := by
  cases h with
  | @trigger i _ ht =>
      refine ⟨List.cons_ne_nil _ _, ?_⟩
      rw [text, parts, String.intercalate_singleton, triggerPosition_eq]
  | @task path _ ht =>
      have hne : path.map (indexed "tasks") ≠ [] := by simpa using ne_nil_of_at? ht
      exact ⟨hne, taskPosition_eq path⟩
  | @check path _ _ _ k _ hl haction hk =>
      have hne : path.map (indexed "tasks") ≠ [] := by simpa using ne_nil_of_at? hl
      refine ⟨by simp [parts], ?_⟩
      rw [text, parts, intercalate_concat _ _ hne, taskPosition_eq, prePromotePosition_eq]

theorem dot_not_mem_parts {place : Location} {part : String} (h : part ∈ place.parts) :
    '.' ∉ part.toList := by
  have htask {path : TaskPath} (h : part ∈ path.map (indexed "tasks")) : '.' ∉ part.toList := by
    obtain ⟨i, -, rfl⟩ := List.mem_map.1 h
    exact dot_not_mem_indexed (by decide) i
  cases place with
  | trigger i =>
      obtain rfl := List.mem_singleton.1 h
      exact dot_not_mem_indexed (by decide) i
  | task path => exact htask h
  | check path k =>
      rcases List.mem_append.1 h with h | h
      · exact htask h
      · obtain rfl := List.mem_singleton.1 h
        exact dot_not_mem_indexed (by decide) k

/-- The parts of a text are what stands between its dots. -/
theorem splitOn_text {m : Manifest} {place : Location} (h : place.In m) :
    place.text.toList.splitOn '.' = place.parts.map String.toList := by
  obtain ⟨hne, htext⟩ := h.parts_ne_nil
  rw [htext, String.toList_intercalate]
  refine List.splitOn_intercalate '.' ?_ (by simpa using hne)
  intro cs hcs
  obtain ⟨part, hpart, rfl⟩ := List.mem_map.1 hcs
  exact dot_not_mem_parts hpart

/-- The name of the last part tells what kind of place it is. -/
def lastName : Location → String
  | .trigger _ => "triggers"
  | .task _ => "tasks"
  | .check _ _ => "pre_promote"

theorem bracket_not_mem_lastName (place : Location) : '[' ∉ place.lastName.toList := by
  cases place with
  | trigger i => simp [lastName]
  | task path => simp [lastName]
  | check path k => simp [lastName]

theorem exists_getLast?_parts {m : Manifest} {place : Location} (h : place.In m) :
    ∃ i, place.parts.getLast? = some (indexed place.lastName i) := by
  cases h with
  | @trigger i _ ht => exact ⟨i, rfl⟩
  | @task path _ ht =>
      rw [parts, List.getLast?_map, List.getLast?_eq_some_getLast (ne_nil_of_at? ht)]
      exact ⟨_, rfl⟩
  | @check path _ _ _ k _ hl haction hk =>
      refine ⟨k, ?_⟩
      rw [parts, List.getLast?_concat]
      rfl

theorem eq_of_parts {m : Manifest} {p q : Location} (hp : p.In m) (hq : q.In m) (h : p.parts = q.parts) :
    p = q := by
  -- the last parts tell the kinds apart, and for one kind all parts tell the indices
  have hname : p.lastName = q.lastName := by
    obtain ⟨i, hi⟩ := exists_getLast?_parts hp
    obtain ⟨j, hj⟩ := exists_getLast?_parts hq
    have hlast := Option.some.inj (hi.symm.trans ((congrArg List.getLast? h).trans hj))
    exact name_eq_of_indexed p.bracket_not_mem_lastName q.bracket_not_mem_lastName hlast
  have htasks {path path' : TaskPath}
      (h : path.map (indexed "tasks") = path'.map (indexed "tasks")) : path = path' :=
    List.map_injective_iff.2 (indexed_injective "tasks") h
  cases p with
  | trigger i =>
      cases q with
      | trigger j => rw [indexed_injective "triggers" (List.singleton_inj.1 h)]
      | task path => simp [lastName] at hname
      | check path k => simp [lastName] at hname
  | task path =>
      cases q with
      | trigger j => simp [lastName] at hname
      | task path' => rw [htasks h]
      | check path' k => simp [lastName] at hname
  | check path k =>
      cases q with
      | trigger j => simp [lastName] at hname
      | task path' => simp [lastName] at hname
      | check path' k' =>
          obtain ⟨hpath, hk⟩ := List.append_inj' h rfl
          rw [htasks hpath, indexed_injective "pre_promote" (List.singleton_inj.1 hk)]

/-- The places of a manifest have different texts. -/
theorem text_inj {m : Manifest} {p q : Location} (hp : p.In m) (hq : q.In m) :
    p.text = q.text ↔ p = q := by
  constructor
  · intro h
    refine eq_of_parts hp hq (List.map_injective_iff.2 (fun _ _ => String.toList_injective) ?_)
    rw [← splitOn_text hp, ← splitOn_text hq, h]
  · intro h
    rw [h]

end Location

end PipelineCompiler.Lint
