import Mathlib.Data.List.Nodup
import PipelineCompiler.Task.Tree

/-!
# Positions in the task tree

`leaves` lists the leaves by recursion and `leafAt?` follows a position by its indices. Both speak of
the same leaves: `mem_leaves` says so, and `leaves_sorted` adds that the list is in lexicographic order
of positions, so that no position stands in it twice.

A list of tasks is looked at as the list of a sequence, which leaves one kind of tree to argue about.
-/

namespace PipelineCompiler

namespace Task

/-- Induction over the task tree. Both kinds of groups are treated alike, and the tasks that check a
candidate are no nodes of the tree. -/
@[elab_as_elim]
theorem tree_induction {motive : Task → Prop} (leaf : ∀ l, motive (.leaf l))
    (group : ∀ t : Task, t.leaf? = none → (∀ u ∈ t.children, motive u) → motive t) : ∀ t, motive t
  | .leaf l => leaf l
  | .sequence tasks =>
      group (.sequence tasks) rfl fun u (_ : u ∈ tasks) => tree_induction leaf group u
  | .parallel tasks =>
      group (.parallel tasks) rfl fun u (_ : u ∈ tasks) => tree_induction leaf group u

/-- What has a task inside of it is a group. -/
theorem leaf?_eq_none {t u : Task} {i : Nat} (hu : t.children[i]? = some u) : t.leaf? = none := by
  cases t with
  | leaf l => simp [children] at hu
  | sequence tasks => rfl
  | parallel tasks => rfl

/-! ## Following a position -/

/-- The task that a position leads to from a task. -/
def below? : Task → TaskPath → Option Task
  | t, [] => some t
  | t, i :: rest => t.children[i]?.bind fun u => u.below? rest

@[simp] theorem below?_nil (t : Task) : t.below? [] = some t := by
  simp only [below?]

theorem below?_cons (t : Task) (i : Nat) (rest : TaskPath) :
    t.below? (i :: rest) = t.children[i]?.bind fun u => u.below? rest := by
  simp only [below?]

/-- A step into a group goes to one of its tasks. -/
theorem below?_cons_eq_some {t u : Task} {i : Nat} {rest : TaskPath} :
    t.below? (i :: rest) = some u ↔ ∃ v, t.children[i]? = some v ∧ v.below? rest = some u := by
  rw [below?_cons, Option.bind_eq_some_iff]

/-- Nothing stands below a leaf. -/
theorem below?_leaf {l : Leaf} {p : TaskPath} {u : Task} (h : (Task.leaf l).below? p = some u) :
    p = [] ∧ u = .leaf l := by
  cases p with
  | nil => exact ⟨rfl, (Option.some.inj h).symm⟩
  | cons i p => simp [below?_cons, children] at h

/-- A position in a list of tasks is one below the sequence of these tasks. -/
theorem at?_eq_below? (tasks : List Task) {path : TaskPath} (h : path ≠ []) :
    at? tasks path = (Task.sequence tasks).below? path := by
  match path, h with
  | [i], _ =>
      rw [below?_cons, at?, children]
      simp
  | i :: j :: rest, _ =>
      rw [below?_cons, at?, children]
      · refine congrArg (tasks[i]?.bind ·) (funext fun t => ?_)
        rw [at?_eq_below? t.children (List.cons_ne_nil j rest), below?_cons, below?_cons, children]
      · exact List.cons_ne_nil j rest

/-- A position leads to a leaf of a list just if it leads there from the sequence of the list. -/
theorem leafAt?_eq_some {tasks : List Task} {path : TaskPath} {l : Leaf} :
    leafAt? tasks path = some l ↔ (Task.sequence tasks).below? path = some (.leaf l) := by
  cases path with
  | nil => simp [leafAt?, at?]
  | cons i rest =>
      rw [leafAt?, at?_eq_below? tasks (List.cons_ne_nil i rest), Option.bind_eq_some_iff]
      constructor
      · rintro ⟨t, ht, hl⟩
        cases t with
        | leaf l' =>
            obtain rfl : l' = l := by simpa [leaf?] using hl
            exact ht
        | sequence _ => simp [leaf?] at hl
        | parallel _ => simp [leaf?] at hl
      · intro h
        exact ⟨.leaf l, h, rfl⟩

/-! ## Leaves -/

/-- A group lists the leaves of its tasks. -/
theorem leavesAt_group {t : Task} (h : t.leaf? = none) (path : TaskPath) :
    t.leavesAt path = leavesFrom path 0 t.children := by
  cases t with
  | leaf l => simp [leaf?] at h
  | sequence tasks => simp only [leavesAt, children]
  | parallel tasks => simp only [leavesAt, children]

/-- A task stands beside its index, counted from the one that the list starts with. -/
theorem mem_zipIdx_add {tasks : List Task} {t : Task} {j : Nat} (ht : tasks[j]? = some t) (i : Nat) :
    (t, i + j) ∈ tasks.zipIdx i := by
  refine List.mk_mem_zipIdx_iff_le_and_getElem?_sub.2 ⟨Nat.le_add_right i j, ?_⟩
  rwa [Nat.add_sub_cancel_left]

/-- What is listed for the tasks of a list, each under its index, is listed for one of them. -/
theorem mem_flatMap_zipIdx {α : Type} {f : Task → TaskPath → List α} {path : TaskPath} {i : Nat}
    {tasks : List Task} {x : α} :
    x ∈ (tasks.zipIdx i).flatMap (fun e => f e.1 (path ++ [e.2])) ↔
      ∃ (j : Nat) (t : Task), tasks[j]? = some t ∧ x ∈ f t (path ++ [i + j]) := by
  rw [List.mem_flatMap]
  constructor
  · rintro ⟨⟨t, k⟩, ht, hx⟩
    obtain ⟨hle, ht⟩ := List.mk_mem_zipIdx_iff_le_and_getElem?_sub.1 ht
    exact ⟨k - i, t, ht, by rwa [Nat.add_sub_cancel' hle]⟩
  · rintro ⟨j, t, ht, hx⟩
    exact ⟨(t, i + j), mem_zipIdx_add ht i, hx⟩

theorem leavesFrom_eq_flatMap (path : TaskPath) (i : Nat) (tasks : List Task) :
    leavesFrom path i tasks = (tasks.zipIdx i).flatMap fun e => e.1.leavesAt (path ++ [e.2]) := by
  induction tasks generalizing i with
  | nil => rw [leavesFrom, List.zipIdx_nil, List.flatMap_nil]
  | cons t rest ih => rw [leavesFrom, List.zipIdx_cons, List.flatMap_cons, ih]

/-- What a list of tasks lists comes from one of them. -/
theorem mem_leavesFrom {path : TaskPath} {i : Nat} {tasks : List Task} {e : TaskPath × Leaf} :
    e ∈ leavesFrom path i tasks ↔
      ∃ (j : Nat) (t : Task), tasks[j]? = some t ∧ e ∈ t.leavesAt (path ++ [i + j]) := by
  rw [leavesFrom_eq_flatMap]
  exact mem_flatMap_zipIdx (f := fun t path => t.leavesAt path)

/-- The leaves of a task of a list are listed in one run. -/
theorem leavesAt_sublist_leavesFrom {tasks : List Task} {t : Task} {j : Nat}
    (ht : tasks[j]? = some t) (path : TaskPath) (i : Nat) :
    (t.leavesAt (path ++ [i + j])).Sublist (leavesFrom path i tasks) := by
  rw [leavesFrom_eq_flatMap, List.flatMap_def]
  exact List.sublist_flatten_of_mem (List.mem_map.2 ⟨_, mem_zipIdx_add ht i, rfl⟩)

/-- The leaves of a task of a group are listed among those of the group. -/
theorem leavesAt_child_sublist {t u : Task} {j : Nat} (hu : t.children[j]? = some u)
    (path : TaskPath) : (u.leavesAt (path ++ [j])).Sublist (t.leavesAt path) := by
  rw [leavesAt_group (leaf?_eq_none hu)]
  simpa using leavesAt_sublist_leavesFrom hu path 0

/-- The leaves of a task are what its positions lead to. -/
theorem mem_leavesAt {t : Task} {path q : TaskPath} {l : Leaf} :
    (q, l) ∈ t.leavesAt path ↔ ∃ p, q = path ++ p ∧ t.below? p = some (.leaf l) := by
  induction t using tree_induction generalizing path q with
  | leaf l' =>
      rw [leavesAt, List.mem_singleton, Prod.mk.injEq]
      constructor
      · rintro ⟨rfl, rfl⟩
        exact ⟨[], by simp, rfl⟩
      · rintro ⟨p, rfl, hp⟩
        obtain ⟨rfl, hl⟩ := below?_leaf hp
        exact ⟨by simp, by simpa using hl⟩
  | group t hgroup ih =>
      rw [leavesAt_group hgroup, mem_leavesFrom]
      constructor
      · rintro ⟨j, u, hu, h⟩
        obtain ⟨p, rfl, hp⟩ := (ih u (List.mem_of_getElem? hu)).1 h
        exact ⟨j :: p, by simp, below?_cons_eq_some.2 ⟨u, hu, hp⟩⟩
      · rintro ⟨p, rfl, hp⟩
        cases p with
        | nil =>
            obtain rfl : t = .leaf l := by simpa using hp
            simp [leaf?] at hgroup
        | cons j p =>
            obtain ⟨u, hu, hp⟩ := below?_cons_eq_some.1 hp
            exact ⟨j, u, hu, (ih u (List.mem_of_getElem? hu)).2 ⟨p, by simp, hp⟩⟩

/-- A leaf is listed with a position just if the position leads to it. -/
theorem mem_leaves {tasks : List Task} {path : TaskPath} {l : Leaf} :
    (path, l) ∈ leaves tasks ↔ leafAt? tasks path = some l := by
  rw [leafAt?_eq_some, leaves, show leavesFrom [] 0 tasks = (Task.sequence tasks).leavesAt [] by
    simp only [leavesAt], mem_leavesAt]
  simp

/-! ## Leaves whatever their position -/

/-- The leaf stands somewhere in the task. -/
def Holds (t : Task) (l : Leaf) : Prop := ∃ p, t.below? p = some (.leaf l)

theorem holds_leaf {l l' : Leaf} : (Task.leaf l).Holds l' ↔ l = l' := by
  constructor
  · rintro ⟨p, hp⟩
    obtain ⟨-, hl⟩ := below?_leaf hp
    exact (Task.leaf.inj hl).symm
  · rintro rfl
    exact ⟨[], rfl⟩

/-- A group holds the leaves of its tasks. -/
theorem holds_group {t : Task} (h : t.leaf? = none) {l : Leaf} :
    t.Holds l ↔ ∃ u ∈ t.children, u.Holds l := by
  constructor
  · rintro ⟨p, hp⟩
    cases p with
    | nil =>
        obtain rfl : t = .leaf l := by simpa using hp
        simp [leaf?] at h
    | cons i p =>
        obtain ⟨u, hu, hp⟩ := below?_cons_eq_some.1 hp
        exact ⟨u, List.mem_of_getElem? hu, p, hp⟩
  · rintro ⟨u, hu, p, hp⟩
    obtain ⟨i, hi⟩ := List.mem_iff_getElem?.1 hu
    exact ⟨i :: p, below?_cons_eq_some.2 ⟨u, hi, hp⟩⟩

/-- The leaves of a list are those of its tasks. -/
theorem mem_flatten {tasks : List Task} {l : Leaf} :
    l ∈ flatten tasks ↔ ∃ t ∈ tasks, t.Holds l := by
  have hgroup : (Task.sequence tasks).Holds l ↔ ∃ t ∈ tasks, t.Holds l :=
    holds_group (t := .sequence tasks) rfl
  rw [← hgroup]
  simp only [flatten, List.mem_map, Prod.exists, exists_eq_right, mem_leaves, leafAt?_eq_some, Holds]

/-- Tasks further on hold the same leaves in the same order, if each of them does. -/
theorem map_snd_leavesFrom {tasks : List Task}
    (h : ∀ t ∈ tasks, ∀ path path',
      (t.leavesAt path).map Prod.snd = (t.leavesAt path').map Prod.snd) (path path' : TaskPath) (i j : Nat) :
    (leavesFrom path i tasks).map Prod.snd = (leavesFrom path' j tasks).map Prod.snd := by
  induction tasks generalizing i j with
  | nil => rw [leavesFrom, leavesFrom]
  | cons t rest ih =>
      rw [leavesFrom, leavesFrom, List.map_append, List.map_append,
        h t List.mem_cons_self (path ++ [i]) (path' ++ [j]),
        ih (fun u hu => h u (List.mem_cons_of_mem t hu)) (i + 1) (j + 1)]

/-- A task holds the same leaves in the same order wherever it stands. -/
theorem map_snd_leavesAt (t : Task) (path path' : TaskPath) :
    (t.leavesAt path).map Prod.snd = (t.leavesAt path').map Prod.snd := by
  induction t using tree_induction generalizing path path' with
  | leaf l => rw [leavesAt, leavesAt, List.map_singleton, List.map_singleton]
  | group t hgroup ih =>
      rw [leavesAt_group hgroup, leavesAt_group hgroup]
      exact map_snd_leavesFrom ih path path' 0 0

theorem flatten_leaf_cons (l : Leaf) (tasks : List Task) :
    flatten (.leaf l :: tasks) = l :: flatten tasks := by
  rw [flatten, leaves, leavesFrom, leavesAt, List.map_append, List.map_singleton, List.singleton_append,
    flatten, leaves, map_snd_leavesFrom fun t _ => map_snd_leavesAt t]

/-! ## Order of positions -/

/-- Positions that part at an index are ordered by it. -/
theorem append_cons_lt (path : TaskPath) {i j : Nat} (h : i < j) (p q : TaskPath) :
    path ++ i :: p < path ++ j :: q := by
  induction path with
  | nil => exact List.Lex.rel h
  | cons k path ih => exact List.Lex.cons ih

/-- Leaves that a list of tasks lists stand at an index of it. -/
theorem exists_of_mem_leavesFrom {path : TaskPath} {i : Nat} {tasks : List Task}
    {e : TaskPath × Leaf} (h : e ∈ leavesFrom path i tasks) :
    ∃ k p, i ≤ k ∧ e.1 = path ++ k :: p := by
  obtain ⟨q, l⟩ := e
  obtain ⟨j, t, -, h⟩ := mem_leavesFrom.1 h
  obtain ⟨p, rfl, -⟩ := mem_leavesAt.1 h
  exact ⟨i + j, p, by omega, by simp⟩

/-- The leaves of tasks are listed in the order of their positions if those of each task are. -/
theorem leavesFrom_sorted {path : TaskPath} {i : Nat} {tasks : List Task}
    (h : ∀ t ∈ tasks, ∀ path, (t.leavesAt path).Pairwise fun a b => a.1 < b.1) :
    (leavesFrom path i tasks).Pairwise fun a b => a.1 < b.1 := by
  induction tasks generalizing i with
  | nil => simp [leavesFrom]
  | cons t rest ih =>
      rw [leavesFrom, List.pairwise_append]
      refine ⟨h t List.mem_cons_self _, ih fun u hu => h u (List.mem_cons_of_mem _ hu), ?_⟩
      rintro ⟨a, l⟩ ha b hb
      obtain ⟨p, rfl, -⟩ := mem_leavesAt.1 ha
      obtain ⟨k, q, hk, hb⟩ := exists_of_mem_leavesFrom hb
      rw [hb, List.append_assoc, List.singleton_append]
      exact append_cons_lt path (by omega) p q

/-- The leaves of a task are listed in the order of their positions. -/
theorem leavesAt_sorted (t : Task) (path : TaskPath) :
    (t.leavesAt path).Pairwise fun a b => a.1 < b.1 := by
  induction t using tree_induction generalizing path with
  | leaf l => simp [leavesAt]
  | group t hgroup ih =>
      rw [leavesAt_group hgroup]
      exact leavesFrom_sorted ih

/-- Leaves are listed in the lexicographic order of their positions. -/
theorem leaves_sorted (tasks : List Task) : (leaves tasks).Pairwise fun a b => a.1 < b.1 :=
  leavesFrom_sorted fun t _ => leavesAt_sorted t

/-- The positions of the leaves of a list, in the order in which they run. -/
def leafPaths (tasks : List Task) : List TaskPath := (leaves tasks).map Prod.fst

theorem mem_leafPaths {tasks : List Task} {path : TaskPath} :
    path ∈ leafPaths tasks ↔ ∃ l, leafAt? tasks path = some l := by
  simp only [leafPaths, List.mem_map, ← mem_leaves]
  constructor
  · rintro ⟨⟨q, l⟩, h, rfl⟩
    exact ⟨l, h⟩
  · rintro ⟨l, h⟩
    exact ⟨(path, l), h, rfl⟩

/-- The positions of leaves are listed in lexicographic order. -/
theorem leafPaths_sorted (tasks : List Task) : (leafPaths tasks).Pairwise (· < ·) :=
  List.pairwise_map.2 (leaves_sorted tasks)

/-- No position of a leaf is listed twice. -/
theorem leafPaths_nodup (tasks : List Task) : (leafPaths tasks).Nodup := by
  refine (leafPaths_sorted tasks).imp ?_
  rintro a _ h rfl
  exact List.lt_irrefl a h

end Task

end PipelineCompiler
