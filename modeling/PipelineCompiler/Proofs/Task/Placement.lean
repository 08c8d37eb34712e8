import Mathlib.Data.List.Induction
import PipelineCompiler.Proofs.Manifest.Renderable

/-!
# Where groups stand

`isStage` judges a task of the pipeline's list with all that is below it. Here the judgement is carried
to the positions of the tree: what stands at one of them may stand in the list or the group that encloses
it (`admits_of_at?`). So the group at a position is known by its kind alone: a parallel group stands in
the pipeline's list and holds branches, a sequence stands in a parallel group and holds leaves.
-/

namespace PipelineCompiler

/-- What a task stands in. -/
inductive Enclosure where
  | pipeline
  | parallel
  | sequence
deriving DecidableEq, Repr

/-- The task may stand there. -/
def Enclosure.admits : Enclosure → Task → Bool
  | .pipeline, t => t.isStage
  | .parallel, t => t.isBranch
  | .sequence, t => t.leaf?.isSome

namespace Task

variable {tasks : List Task} {path : TaskPath}

/-! ## Positions step by step -/

/-- A position starts at a task of the list and goes on below it. -/
theorem at?_eq_some {t : Task} :
    at? tasks path = some t ↔
      ∃ i rest u, path = i :: rest ∧ tasks[i]? = some u ∧ u.below? rest = some t := by
  cases path with
  | nil => simp [at?]
  | cons i rest =>
      rw [at?_eq_below? tasks (List.cons_ne_nil i rest), below?_cons_eq_some]
      constructor
      · rintro ⟨u, hu, ht⟩
        exact ⟨i, rest, u, rfl, hu, ht⟩
      · rintro ⟨_, _, u, ⟨rfl, rfl⟩, hu, ht⟩
        exact ⟨u, hu, ht⟩

@[simp] theorem at?_nil : at? tasks [] = none := by rw [at?]

@[simp] theorem at?_singleton (i : Nat) : at? tasks [i] = tasks[i]? := by rw [at?]

theorem below?_concat (t : Task) (path : TaskPath) (i : Nat) :
    t.below? (path ++ [i]) = (t.below? path).bind fun u => u.children[i]? := by
  induction path generalizing t with
  | nil => simp [below?_cons]
  | cons j path ih =>
      rw [List.cons_append, below?_cons, below?_cons, Option.bind_assoc]
      exact congrArg _ (funext ih)

/-- The last index of a position leads into the group at the position before it. -/
theorem at?_concat (hpath : path ≠ []) (i : Nat) :
    at? tasks (path ++ [i]) = (at? tasks path).bind fun t => t.children[i]? := by
  rw [at?_eq_below? tasks (by simp), at?_eq_below? tasks hpath, below?_concat]

theorem at?_pair (i j : Nat) : at? tasks [i, j] = tasks[i]?.bind fun t => t.children[j]? := by
  rw [← at?_singleton, ← at?_concat (List.cons_ne_nil i []), List.singleton_append]

/-- A task stands in the list or is a task of a group at another position. -/
theorem mem_of_at? {t : Task} (h : at? tasks path = some t) :
    t ∈ tasks ∨ ∃ place group, at? tasks place = some group ∧ t ∈ group.children := by
  rcases List.eq_nil_or_concat' path with rfl | ⟨place, i, rfl⟩
  · simp at h
  · by_cases hplace : place = []
    · subst hplace
      rw [List.nil_append, at?_singleton] at h
      exact .inl (List.mem_of_getElem? h)
    · rw [at?_concat hplace, Option.bind_eq_some_iff] at h
      obtain ⟨group, hgroup, ht⟩ := h
      exact .inr ⟨place, group, hgroup, List.mem_of_getElem? ht⟩

/-- A task of a group has a position of its own. -/
theorem exists_at?_of_mem_children {t group : Task} (hgroup : at? tasks path = some group)
    (ht : t ∈ group.children) : ∃ i, at? tasks (path ++ [i]) = some t := by
  have hpath : path ≠ [] := by
    rintro rfl
    simp at hgroup
  obtain ⟨i, hi⟩ := List.mem_iff_getElem?.1 ht
  exact ⟨i, by rw [at?_concat hpath, hgroup, Option.bind_some, hi]⟩

/-! ## Enclosures -/

/-- What the task at a position stands in. -/
def enclosure (tasks : List Task) (path : TaskPath) : Enclosure :=
  match at? tasks path.dropLast with
  | some (.parallel _) => .parallel
  | some (.sequence _) => .sequence
  | _ => .pipeline

@[simp] theorem enclosure_singleton (i : Nat) : enclosure tasks [i] = .pipeline := by
  simp [enclosure]

theorem enclosure_of_parallel {group : List Task} (h : at? tasks path = some (.parallel group))
    (i : Nat) : enclosure tasks (path ++ [i]) = .parallel := by
  rw [enclosure, List.dropLast_concat, h]

theorem enclosure_of_sequence {group : List Task} (h : at? tasks path = some (.sequence group))
    (i : Nat) : enclosure tasks (path ++ [i]) = .sequence := by
  rw [enclosure, List.dropLast_concat, h]

/-- Only lists of pipelines have room for a parallel group, and its tasks are branches. -/
theorem admits_parallel {e : Enclosure} {group : List Task} (h : e.admits (.parallel group) = true) :
    e = .pipeline ∧ ∀ t ∈ group, t.isBranch = true := by
  cases e with
  | pipeline => exact ⟨rfl, List.all_eq_true.1 h⟩
  | parallel => simp [Enclosure.admits, isBranch] at h
  | sequence => simp [Enclosure.admits, leaf?] at h

/-- Only parallel groups have room for a sequence, and its tasks are leaves. -/
theorem admits_sequence {e : Enclosure} {group : List Task} (h : e.admits (.sequence group) = true) :
    e = .parallel ∧ ∀ t ∈ group, t.leaf?.isSome = true := by
  cases e with
  | pipeline => simp [Enclosure.admits, isStage] at h
  | parallel => exact ⟨rfl, List.all_eq_true.1 h⟩
  | sequence => simp [Enclosure.admits, leaf?] at h

/-- In a tree without a misplaced group every task stands where it may. -/
theorem admits_of_at? (h : ∀ t ∈ tasks, t.isStage = true) {t : Task} (ht : at? tasks path = some t) :
    (enclosure tasks path).admits t = true := by
  induction path using List.reverseRecOn generalizing t with
  | nil => simp at ht
  | append_singleton path i ih =>
      by_cases hpath : path = []
      · subst hpath
        rw [List.nil_append, at?_singleton] at ht
        rw [List.nil_append, enclosure_singleton]
        exact h t (List.mem_of_getElem? ht)
      · rw [at?_concat hpath, Option.bind_eq_some_iff] at ht
        obtain ⟨u, hu, ht⟩ := ht
        -- the enclosing group stands where it may, which says what it holds
        have hadmits := ih hu
        cases u with
        | leaf l => simp [children] at ht
        | parallel group =>
            rw [enclosure_of_parallel hu]
            exact (admits_parallel hadmits).2 t (List.mem_of_getElem? ht)
        | sequence group =>
            rw [enclosure_of_sequence hu]
            exact (admits_sequence hadmits).2 t (List.mem_of_getElem? ht)

/-! ## Refused trees -/

end Task

/-- The position of a misplaced group. -/
def ShapeFault.path : ShapeFault → TaskPath
  | .sequenceOutsideParallel i => [i]
  | .parallelInParallel i j => [i, j]
  | .groupInSequence i j k => [i, j, k]

/-- The group that a fault names is in the tree and stands where it must not. -/
inductive ShapeFault.In (tasks : List Task) : ShapeFault → Prop where
  | sequenceOutsideParallel {i : Nat} {group : List Task}
      (hi : Task.at? tasks [i] = some (.sequence group)) : In tasks (.sequenceOutsideParallel i)
  | parallelInParallel {i j : Nat} {group inner : List Task}
      (hi : Task.at? tasks [i] = some (.parallel group)) (hj : group[j]? = some (.parallel inner)) :
      In tasks (.parallelInParallel i j)
  | groupInSequence {i j k : Nat} {group inner : List Task} {t : Task}
      (hi : Task.at? tasks [i] = some (.parallel group)) (hj : group[j]? = some (.sequence inner))
      (hk : inner[k]? = some t) (hgroup : t.leaf? = none) : In tasks (.groupInSequence i j k)

namespace Task

variable {tasks : List Task} {path : TaskPath}

/-- A tree is refused for a group that is there. -/
theorem in_of_shapeFault? {fault : ShapeFault} (h : shapeFault? tasks = some fault) :
    fault.In tasks := by
  obtain ⟨⟨t, i⟩, hmem, hfault⟩ := List.exists_of_findSome?_eq_some h
  have hi : at? tasks [i] = some t := by
    rw [at?_singleton]
    exact List.mk_mem_zipIdx_iff_getElem?.1 hmem
  cases t with
  | leaf l => simp [topFault?] at hfault
  | sequence group =>
      obtain rfl : _ = fault := Option.some.inj hfault
      exact .sequenceOutsideParallel hi
  | parallel group =>
      obtain ⟨⟨u, j⟩, hmem, hfault⟩ := List.exists_of_findSome?_eq_some hfault
      have hj : group[j]? = some u := List.mk_mem_zipIdx_iff_getElem?.1 hmem
      cases u with
      | leaf l => simp [childFault?] at hfault
      | parallel inner =>
          obtain rfl : _ = fault := Option.some.inj hfault
          exact .parallelInParallel hi hj
      | sequence inner =>
          obtain ⟨k, hk, rfl⟩ := Option.map_eq_some_iff.1 hfault
          obtain ⟨hlt, hgroup, -⟩ := List.findIdx?_eq_some_iff_getElem.1 hk
          exact .groupInSequence hi hj (List.getElem?_eq_getElem hlt) (Option.isNone_iff_eq_none.1 hgroup)

/-! ## Filled groups -/

/-- Below a filled task every task is filled. -/
theorem isFilled_of_below? {t u : Task} (h : t.isFilled = true) (hu : t.below? path = some u) :
    u.isFilled = true := by
  induction path generalizing t with
  | nil =>
      obtain rfl : t = u := by simpa using hu
      exact h
  | cons i path ih =>
      obtain ⟨v, hv, hu⟩ := below?_cons_eq_some.1 hu
      exact ih (isFilled_child h hv) hu

/-- No group is empty just if the one at each position has tasks. -/
theorem allFilled_iff_at? :
    allFilled tasks = true ↔
      ∀ path t, at? tasks path = some t → t.leaf? = none → t.children ≠ [] := by
  constructor
  · intro h path t ht hgroup
    obtain ⟨i, rest, u, -, hu, ht⟩ := at?_eq_some.1 ht
    have hfilled := isFilled_of_below? (allFilled_iff.1 h u (List.mem_of_getElem? hu)) ht
    exact ((isFilled_group hgroup).1 hfilled).1
  · intro h
    refine allFilled_iff.2 fun t ht => ?_
    obtain ⟨i, hi⟩ := List.mem_iff_getElem?.1 ht
    -- the induction is on the task, so that positions have to be counted from it
    have hbelow : ∀ path u, t.below? path = some u → u.leaf? = none → u.children ≠ [] :=
      fun path u hu => h (i :: path) u (at?_eq_some.2 ⟨i, path, t, rfl, hi, hu⟩)
    clear h ht hi
    induction t using tree_induction with
    | leaf l => rfl
    | group t hgroup ih =>
        rw [isFilled_group hgroup]
        refine ⟨hbelow [] t rfl hgroup, fun u hu => ?_⟩
        obtain ⟨j, hj⟩ := List.mem_iff_getElem?.1 hu
        exact ih u hu fun path v hv => hbelow (j :: path) v (below?_cons_eq_some.2 ⟨u, hj, hv⟩)

end Task

end PipelineCompiler
