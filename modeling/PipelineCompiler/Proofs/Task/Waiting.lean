import Mathlib.Order.Interval.Finset.Basic
import PipelineCompiler.Proofs.Task.Precedence
import PipelineCompiler.Task.Order

/-!
# What a leaf waits for

The walk down to a leaf hands on what the tasks around it wait for, while the exits of a task are
collected upwards from its last leaves. The two meet in `mem_passedWithin`: a first leaf of a task waits
for what the task waits for, and any other leaf for the leaves that it covers in the order of the task.

For a whole pipeline this makes the leaves a finite partial order, of which `passedPaths` lists the
covers. The edges therefore generate the order and nothing else.
-/

namespace PipelineCompiler

namespace Task

/-! ## Exits -/

theorem exitsOfAll_eq_flatMap (path : TaskPath) (i : Nat) (tasks : List Task) :
    exitsOfAll path i tasks = (tasks.zipIdx i).flatMap fun e => e.1.exits (path ++ [e.2]) := by
  induction tasks generalizing i with
  | nil => rw [exitsOfAll, List.zipIdx_nil, List.flatMap_nil]
  | cons t rest ih => rw [exitsOfAll, List.zipIdx_cons, List.flatMap_cons, ih]

/-- The exits of all tasks of a list are those of each. -/
theorem mem_exitsOfAll {path x : TaskPath} {i : Nat} {tasks : List Task} :
    x ∈ exitsOfAll path i tasks ↔
      ∃ (j : Nat) (t : Task), tasks[j]? = some t ∧ x ∈ t.exits (path ++ [i + j]) := by
  rw [exitsOfAll_eq_flatMap]
  exact mem_flatMap_zipIdx (f := fun t path => t.exits path)

/-- The exits of the last task of a list are those of the task that none follows. -/
theorem mem_exitsOfLast {path x : TaskPath} {i : Nat} {tasks : List Task} :
    x ∈ exitsOfLast path i tasks ↔
      ∃ (j : Nat) (t : Task), tasks[j]? = some t ∧ j + 1 = tasks.length
        ∧ x ∈ t.exits (path ++ [i + j]) := by
  induction tasks generalizing i with
  | nil => simp [exitsOfLast]
  | cons t rest ih =>
      cases rest with
      | nil =>
          rw [exitsOfLast]
          constructor
          · intro h
            exact ⟨0, t, rfl, rfl, h⟩
          · rintro ⟨j, u, hu, hj, h⟩
            obtain rfl : j = 0 := by simpa using hj
            obtain rfl : t = u := by simpa using hu
            exact h
      | cons u rest =>
          rw [exitsOfLast, ih]
          constructor
          · rintro ⟨j, v, hv, hj, h⟩
            refine ⟨j + 1, v, hv, by simpa using hj, ?_⟩
            rwa [show i + (j + 1) = i + 1 + j by omega]
          · rintro ⟨j, v, hv, hj, h⟩
            cases j with
            | zero => simp at hj
            | succ j =>
                refine ⟨j, v, by simpa using hv, by simpa using hj, ?_⟩
                rwa [show i + 1 + j = i + (j + 1) by omega]

/-- The exits of a group are those of its tasks, or of the last one if they are run in order. -/
theorem mem_exits_group {t : Task} {path x : TaskPath} (hgroup : t.leaf? = none) :
    x ∈ t.exits path ↔
      ∃ (j : Nat) (u : Task), t.children[j]? = some u ∧ (t.IsSequence → j + 1 = t.children.length)
        ∧ x ∈ u.exits (path ++ [j]) := by
  cases t with
  | leaf l => simp [leaf?] at hgroup
  | sequence tasks =>
      rw [exits, mem_exitsOfLast]
      simp [children, IsSequence]
  | parallel tasks =>
      rw [exits, mem_exitsOfAll]
      simp [children, IsSequence]

/-- The exits of a task are its last leaves. -/
theorem mem_exits {t : Task} {path x : TaskPath} (hfill : t.isFilled = true) :
    x ∈ t.exits path ↔ ∃ a, x = path ++ a ∧ t.HasLeaf a ∧ t.IsLast a := by
  induction t using tree_induction generalizing path with
  | leaf l =>
      rw [exits, List.mem_singleton]
      constructor
      · rintro rfl
        refine ⟨[], by simp, ⟨l, rfl⟩, fun c hc => not_nil_precedes⟩
      · rintro ⟨a, rfl, ⟨l', ha⟩, -⟩
        obtain ⟨rfl, -⟩ := below?_leaf ha
        simp
  | group t hgroup ih =>
      rw [mem_exits_group hgroup]
      constructor
      · rintro ⟨j, u, hu, hj, hx⟩
        have hufill := isFilled_child hfill hu
        obtain ⟨a, rfl, ha, hlast⟩ := (ih u (List.mem_of_getElem? hu) hufill).1 hx
        exact ⟨j :: a, by simp, (hasLeaf_child hu).2 ha, (isLast_cons hfill hu).2 ⟨hlast, hj⟩⟩
      · rintro ⟨a, rfl, ha, hlast⟩
        cases a with
        | nil =>
            obtain ⟨l, hl⟩ := ha
            obtain rfl : t = .leaf l := by simpa using hl
            simp [leaf?] at hgroup
        | cons j a =>
            obtain ⟨u, hu, ha⟩ := hasLeaf_cons.1 ha
            obtain ⟨hlast, hj⟩ := (isLast_cons hfill hu).1 hlast
            refine ⟨j, u, hu, hj, (ih u (List.mem_of_getElem? hu) (isFilled_child hfill hu)).2 ?_⟩
            exact ⟨a, by simp, ha, hlast⟩

/-- The exits of the last task are among those of all. -/
theorem exitsOfLast_sublist (path : TaskPath) (i : Nat) (tasks : List Task) :
    (exitsOfLast path i tasks).Sublist (exitsOfAll path i tasks) := by
  induction tasks generalizing i with
  | nil => simp [exitsOfLast]
  | cons t rest ih =>
      cases rest with
      | nil => simp [exitsOfLast, exitsOfAll]
      | cons u rest =>
          rw [exitsOfLast, exitsOfAll]
          exact (ih (i + 1)).trans (List.sublist_append_right _ _)

/-- The exits of tasks stand in the order of their leaves if those of each task do. -/
theorem exitsOfAll_sublist {tasks : List Task} {path : TaskPath} (i : Nat)
    (h : ∀ t ∈ tasks, ∀ path, (t.exits path).Sublist ((t.leavesAt path).map Prod.fst)) :
    (exitsOfAll path i tasks).Sublist ((leavesFrom path i tasks).map Prod.fst) := by
  induction tasks generalizing i with
  | nil => simp [exitsOfAll]
  | cons t rest ih =>
      rw [exitsOfAll, leavesFrom, List.map_append]
      exact (h t List.mem_cons_self _).append (ih (i + 1) fun u hu => h u (List.mem_cons_of_mem _ hu))

/-- The exits of a task stand in the order of its leaves. -/
theorem exits_sublist (t : Task) (path : TaskPath) :
    (t.exits path).Sublist ((t.leavesAt path).map Prod.fst) := by
  induction t using tree_induction generalizing path with
  | leaf l => simp [exits, leavesAt]
  | group t hgroup ih =>
      rw [leavesAt_group hgroup]
      cases t with
      | leaf l => simp [leaf?] at hgroup
      | sequence tasks =>
          rw [exits]
          exact (exitsOfLast_sublist path 0 tasks).trans (exitsOfAll_sublist 0 ih)
      | parallel tasks =>
          rw [exits]
          exact exitsOfAll_sublist 0 ih

/-! ## What a leaf waits for -/

/-- What the task at an index of a task waits for, given what the task itself waits for. -/
def entryAt (t : Task) (place : TaskPath) (entry : List TaskPath) (i : Nat) : List TaskPath :=
  match t with
  | .leaf _ => entry
  | .sequence tasks => entryOf tasks place entry false i
  | .parallel tasks => entryOf tasks place entry true i

/-- Follow a path below a task that stands at `place` and waits for `entry`. -/
def passedWithin (t : Task) (place : TaskPath) (entry : List TaskPath) (path : TaskPath) :
    List TaskPath :=
  match t with
  | .leaf _ => entry
  | .sequence tasks => passedFrom tasks place entry false path
  | .parallel tasks => passedFrom tasks place entry true path

@[simp] theorem passedWithin_nil (t : Task) (place : TaskPath) (entry : List TaskPath) :
    t.passedWithin place entry [] = entry := by
  cases t <;> simp only [passedWithin, passedFrom]

/-- One step down a path. -/
theorem passedWithin_cons {t u : Task} {i : Nat} (hu : t.children[i]? = some u) (place : TaskPath)
    (entry : List TaskPath) (rest : TaskPath) :
    t.passedWithin place entry (i :: rest)
      = u.passedWithin (place ++ [i]) (t.entryAt place entry i) rest := by
  have step (tasks : List Task) (isParallel : Bool) (hu : tasks[i]? = some u) :
      passedFrom tasks place entry isParallel (i :: rest)
        = u.passedWithin (place ++ [i]) (entryOf tasks place entry isParallel i) rest := by
    rw [passedFrom, hu]
    cases rest with
    | nil => simp
    | cons j rest => cases u <;> rfl
  cases t with
  | leaf l => simp [children] at hu
  | sequence tasks => exact step tasks false hu
  | parallel tasks => exact step tasks true hu

/-- A first task, and every task of a parallel group, waits for what its group waits for. -/
theorem entryAt_eq_entry {t : Task} {i : Nat} (h : t.IsSequence → i = 0) (place : TaskPath)
    (entry : List TaskPath) : t.entryAt place entry i = entry := by
  cases t with
  | leaf l => rfl
  | sequence tasks =>
      obtain rfl := h ⟨tasks, rfl⟩
      simp [entryAt, entryOf]
  | parallel tasks => simp [entryAt, entryOf]

/-- Any other task has one before it in a sequence, and waits for the exits of that one. -/
theorem entryAt_eq_exits {t u : Task} {i : Nat} (hu : t.children[i]? = some u)
    (h : ¬ (t.IsSequence → i = 0)) :
    ∃ (k : Nat) (v : Task), t.IsSequence ∧ k + 1 = i ∧ t.children[k]? = some v
      ∧ ∀ place entry, t.entryAt place entry i = v.exits (place ++ [k]) := by
  obtain ⟨hseq, hi⟩ := Classical.not_imp.1 h
  obtain ⟨k, rfl⟩ := Nat.exists_eq_succ_of_ne_zero hi
  obtain ⟨hk, -⟩ := List.getElem?_eq_some_iff.1 hu
  have hv : t.children[k]? = some t.children[k] := List.getElem?_eq_getElem (by omega)
  refine ⟨k, t.children[k], hseq, rfl, hv, fun place entry => ?_⟩
  obtain ⟨tasks, rfl⟩ := hseq
  simp only [children] at hv
  simp only [entryAt, entryOf, children, Nat.succ_eq_add_one, Nat.add_sub_cancel, hv]
  simp

/-- A leaf waits for what its task waits for if it is a first leaf of it, and otherwise for the leaves
of the task that it covers. -/
theorem mem_passedWithin {t : Task} {place b x : TaskPath} {entry : List TaskPath}
    (hfill : t.isFilled = true) (hb : t.HasLeaf b) :
    x ∈ t.passedWithin place entry b ↔
      (t.IsFirst b ∧ x ∈ entry) ∨ ∃ a, x = place ++ a ∧ t.Covers a b := by
  induction b generalizing t place entry with
  | nil =>
      rw [passedWithin_nil]
      constructor
      · intro hx
        exact .inl ⟨fun c _ => not_precedes_nil, hx⟩
      · rintro (⟨-, hx⟩ | ⟨a, -, -, -, hab, -⟩)
        · exact hx
        · exact absurd hab not_precedes_nil
  | cons i b ih =>
      obtain ⟨u, hu, hub⟩ := hasLeaf_cons.1 hb
      rw [passedWithin_cons hu, ih (isFilled_child hfill hu) hub, isFirst_cons hfill hu]
      constructor
      · rintro (⟨hfirst, hx⟩ | ⟨a, rfl, hab⟩)
        · by_cases hi : t.IsSequence → i = 0
          · rw [entryAt_eq_entry hi] at hx
            exact .inl ⟨⟨hfirst, hi⟩, hx⟩
          · -- the entry comes from the task before this one in a sequence
            obtain ⟨k, v, hseq, rfl, hv, hentry⟩ := entryAt_eq_exits hu hi
            rw [hentry, mem_exits (isFilled_child hfill hv)] at hx
            obtain ⟨a, rfl, ha, hlast⟩ := hx
            refine .inr ⟨k :: a, by simp, ?_⟩
            exact (covers_across hfill (by omega) hv hu hub).2 ⟨hseq, rfl, ha, hlast, hfirst⟩
        · exact .inr ⟨i :: a, by simp, (covers_child hu).2 hab⟩
      · rintro (⟨⟨hfirst, hi⟩, hx⟩ | ⟨a, rfl, hab⟩)
        · exact .inl ⟨hfirst, by rwa [entryAt_eq_entry hi]⟩
        · cases a with
          | nil => exact absurd hab.2.2.1 not_nil_precedes
          | cons k a =>
              by_cases hki : k = i
              · subst hki
                exact .inr ⟨a, by simp, (covers_child hu).1 hab⟩
              · obtain ⟨v, hv, -⟩ := hasLeaf_cons.1 hab.1
                obtain ⟨hseq, rfl, ha, hlast, hfirst⟩ := (covers_across hfill hki hv hu hub).1 hab
                obtain ⟨m, w, -, hm, hw, hentry⟩ :=
                  entryAt_eq_exits hu fun h => Nat.succ_ne_zero k (h hseq)
                obtain rfl : m = k := Nat.succ.inj hm
                obtain rfl : w = v := Option.some.inj (hw.symm.trans hv)
                refine .inl ⟨hfirst, ?_⟩
                rw [hentry, mem_exits (isFilled_child hfill hw)]
                exact ⟨a, by simp, ha, hlast⟩

/-- What a leaf waits for stands in the order of leaves, if what its task waits for does. -/
theorem passedWithin_sublist {t : Task} {place : TaskPath} {entry paths : List TaskPath}
    (hentry : entry.Sublist paths) (hleaves : ((t.leavesAt place).map Prod.fst).Sublist paths)
    {b : TaskPath} {u : Task} (hb : t.below? b = some u) :
    (t.passedWithin place entry b).Sublist paths := by
  induction b generalizing t place entry with
  | nil => rwa [passedWithin_nil]
  | cons i b ih =>
      obtain ⟨v, hv, hb⟩ := below?_cons_eq_some.1 hb
      have hsub {j : Nat} {w : Task} (hw : t.children[j]? = some w) :
          ((w.leavesAt (place ++ [j])).map Prod.fst).Sublist paths :=
        ((leavesAt_child_sublist hw place).map Prod.fst).trans hleaves
      rw [passedWithin_cons hv]
      refine ih ?_ (hsub hv) hb
      by_cases hi : t.IsSequence → i = 0
      · rwa [entryAt_eq_entry hi]
      · obtain ⟨k, w, -, rfl, hw, hentry⟩ := entryAt_eq_exits hv hi
        rw [hentry]
        exact (exits_sublist _ _).trans (hsub hw)

/-! ## The leaves of a pipeline -/

theorem hasLeaf_iff {tasks : List Task} {p : TaskPath} :
    (Task.sequence tasks).HasLeaf p ↔ p ∈ leafPaths tasks := by
  rw [mem_leafPaths]
  simp only [HasLeaf, leafAt?_eq_some]

/-- A pipeline with a leaf has tasks, so that it is filled if they are. -/
theorem isFilled_sequence {tasks : List Task} {b : TaskPath} (hfill : allFilled tasks = true)
    (hb : b ∈ leafPaths tasks) : (Task.sequence tasks).isFilled = true := by
  refine (isFilled_group rfl).2 ⟨?_, allFilled_iff.1 hfill⟩
  rintro (rfl : tasks = [])
  simp [leafPaths, leaves, leavesFrom] at hb

/-- A leaf of a pipeline waits for the leaves that it covers. -/
theorem mem_passedPaths {tasks : List Task} {a b : TaskPath} (hfill : allFilled tasks = true)
    (hb : b ∈ leafPaths tasks) :
    a ∈ passedPaths tasks b ↔ (Task.sequence tasks).Covers a b := by
  rw [show passedPaths tasks b = (Task.sequence tasks).passedWithin [] [] b from rfl,
    mem_passedWithin (isFilled_sequence hfill hb) (hasLeaf_iff.2 hb)]
  simp

/-- What a leaf waits for stands in the order of the leaves. -/
theorem passedPaths_sublist {tasks : List Task} {b : TaskPath} (hb : b ∈ leafPaths tasks) :
    (passedPaths tasks b).Sublist (leafPaths tasks) := by
  obtain ⟨l, hl⟩ := hasLeaf_iff.2 hb
  refine passedWithin_sublist (t := .sequence tasks) (List.nil_sublist _) ?_ hl
  rw [leavesAt]
  exact List.Sublist.refl _

/-! ## The edges generate the order -/

/-- The position of a leaf of a pipeline. -/
def LeafPosition (tasks : List Task) : Type := {p : TaskPath // p ∈ leafPaths tasks}

namespace LeafPosition

variable {tasks : List Task}

instance : IsStrictOrder (LeafPosition tasks) fun a b => ComesBefore tasks a.1 b.1 where
  irrefl a h := List.lt_irrefl a.1 (comesBefore_iff.1 h).lt
  trans _ _ _ hab hbc := comesBefore_iff.2 ((comesBefore_iff.1 hab).trans (comesBefore_iff.1 hbc))

instance : PartialOrder (LeafPosition tasks) :=
  partialOrderOfSO fun a b => ComesBefore tasks a.1 b.1

instance : Finite (LeafPosition tasks) := List.finite_toSet (leafPaths tasks)

noncomputable instance : LocallyFiniteOrder (LeafPosition tasks) :=
  LocallyFiniteOrder.ofFiniteIcc fun _ _ => Set.toFinite _

/-- The edges of a pipeline are the covers of the order of its leaves. -/
theorem covBy_iff (hfill : allFilled tasks = true) {a b : LeafPosition tasks} :
    a ⋖ b ↔ a.1 ∈ passedPaths tasks b.1 := by
  rw [mem_passedPaths hfill b.2, Covers, hasLeaf_iff, hasLeaf_iff, ← comesBefore_iff]
  constructor
  · rintro ⟨hab, hbetween⟩
    refine ⟨a.2, b.2, hab, fun c hc h => ?_⟩
    rw [← comesBefore_iff, ← comesBefore_iff] at h
    exact hbetween (c := ⟨c, hasLeaf_iff.1 hc⟩) h.1 h.2
  · rintro ⟨-, -, hab, hbetween⟩
    refine ⟨hab, fun c hac hcb => hbetween c.1 (hasLeaf_iff.2 c.2) ?_⟩
    exact ⟨comesBefore_iff.1 hac, comesBefore_iff.1 hcb⟩

/-- One leaf is reached from another along the edges just if it comes later. -/
theorem transGen_passedPaths (hfill : allFilled tasks = true) (a b : LeafPosition tasks) :
    Relation.TransGen (fun p q => p ∈ passedPaths tasks q) a.1 b.1 ↔ a < b := by
  constructor
  · intro h
    -- every position on the way is one of a leaf, since a leaf waits for leaves only
    suffices ∃ c : LeafPosition tasks, c.1 = a.1 ∧ c < b by
      obtain ⟨c, hc, hlt⟩ := this
      rwa [← Subtype.ext hc]
    refine Relation.TransGen.head_induction_on (motive := fun p _ => ∃ c : LeafPosition tasks,
      c.1 = p ∧ c < b) h ?_ ?_
    · intro p hp
      let c : LeafPosition tasks := ⟨p, (passedPaths_sublist b.2).subset hp⟩
      exact ⟨c, rfl, ((covBy_iff hfill (a := c)).2 hp).lt⟩
    · rintro p q hp - ⟨d, rfl, hd⟩
      let c : LeafPosition tasks := ⟨p, (passedPaths_sublist d.2).subset hp⟩
      exact ⟨c, rfl, ((covBy_iff hfill (a := c)).2 hp).lt.trans hd⟩
  · intro h
    exact (transGen_covBy_of_lt h).lift Subtype.val fun _ _ hcov => (covBy_iff hfill).1 hcov

end LeafPosition

/-- A leaf waits for exactly the leaves that come before it with no third leaf between. They are listed
in the order in which they run and without repetition, and the leaves that it is reached from along
these edges are those that come before it. -/
theorem passedPaths_generate_order (tasks : List Task) (hfill : allFilled tasks = true)
    (b : TaskPath) (hb : b ∈ leafPaths tasks) :
    (passedPaths tasks b).Sublist (leafPaths tasks)
      ∧ (passedPaths tasks b).Nodup
      ∧ (∀ a, a ∈ passedPaths tasks b ↔
          a ∈ leafPaths tasks ∧ ComesBefore tasks a b
            ∧ ¬ ∃ c ∈ leafPaths tasks, ComesBefore tasks a c ∧ ComesBefore tasks c b)
      ∧ ∀ a ∈ leafPaths tasks,
          Relation.TransGen (fun p q => p ∈ passedPaths tasks q) a b ↔ ComesBefore tasks a b := by
  refine ⟨passedPaths_sublist hb, (leafPaths_nodup tasks).sublist (passedPaths_sublist hb),
    fun a => ?_, fun a ha => LeafPosition.transGen_passedPaths hfill ⟨a, ha⟩ ⟨b, hb⟩⟩
  rw [mem_passedPaths hfill hb, Covers, hasLeaf_iff, hasLeaf_iff]
  simp only [hasLeaf_iff, ← comesBefore_iff]
  constructor
  · rintro ⟨ha, -, hab, hbetween⟩
    refine ⟨ha, hab, ?_⟩
    rintro ⟨c, hc, h⟩
    exact hbetween c hc h
  · rintro ⟨ha, hab, hbetween⟩
    exact ⟨ha, hb, hab, fun c hc h => hbetween ⟨c, hc, h⟩⟩

/-- A leaf, a leaf beside a sequence of two, and a leaf after both. -/
def fanOutAndIn : List Task :=
  [.leaf default, .parallel [.leaf default, .sequence [.leaf default, .leaf default]], .leaf default]

/-- The last leaf waits for both branches, and is reached from the start of the longer one. -/
theorem fanOutAndIn_waits :
    allFilled fanOutAndIn = true ∧ [2] ∈ leafPaths fanOutAndIn
      ∧ passedPaths fanOutAndIn [2] = [[1, 0], [1, 1, 1]]
      ∧ Relation.TransGen (fun p q => p ∈ passedPaths fanOutAndIn q) [1, 1, 0] [2] := by
  have hfill : allFilled fanOutAndIn = true := by decide
  have hb : [2] ∈ leafPaths fanOutAndIn := by decide
  have hbefore : ComesBefore fanOutAndIn [1, 1, 0] [2] :=
    ⟨[], 1, 2, [1, 0], [], rfl, rfl, by decide, .inl rfl⟩
  obtain ⟨-, -, -, hreach⟩ := passedPaths_generate_order fanOutAndIn hfill [2] hb
  exact ⟨hfill, hb, by decide, (hreach [1, 1, 0] (by decide)).2 hbefore⟩

end Task

end PipelineCompiler
