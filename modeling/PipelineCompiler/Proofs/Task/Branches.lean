import PipelineCompiler.Proofs.Task.Precedence

/-!
# Leaves that run beside each other

Two leaves of a tree part in the innermost list that holds both (`exists_parting`). If the list is run in
order, the leaf under the smaller index comes before the other one. If it is the list of a parallel group,
the leaves stand in different branches of it, and neither waits for the other although one of them is
listed first. There is no third case, and the two exclude each other (`comesBefore_iff_not_beside`).
-/

namespace PipelineCompiler

namespace Task

/-- The innermost list that holds both positions is the one of a parallel group. -/
def Beside (tasks : List Task) (a b : TaskPath) : Prop :=
  ∃ (place : TaskPath) (i j : Nat) (p q : TaskPath),
    a = place ++ i :: p ∧ b = place ++ j :: q ∧ i ≠ j
      ∧ ∃ group, at? tasks place = some (.parallel group)

/-! ## Where positions part -/

/-- Two leaves of a task part in a group of it. -/
theorem exists_parting {t : Task} {a b : TaskPath} (ha : t.HasLeaf a) (hb : t.HasLeaf b) (h : a < b) :
    ∃ (place : TaskPath) (i j : Nat) (p q : TaskPath) (u : Task),
      a = place ++ i :: p ∧ b = place ++ j :: q ∧ i < j ∧ t.below? place = some u ∧ u.leaf? = none := by
  induction a generalizing t b with
  | nil =>
      -- nothing stands below a leaf, so that there is no second position
      obtain ⟨l, hl⟩ := ha
      obtain rfl : t = .leaf l := by simpa using hl
      obtain ⟨l', hl'⟩ := hb
      obtain ⟨rfl, -⟩ := below?_leaf hl'
      exact absurd h (List.lt_irrefl [])
  | cons i a ih =>
      cases b with
      | nil => exact absurd h (List.not_lt_nil _)
      | cons j b =>
          obtain ⟨u, hu, ha⟩ := hasLeaf_cons.1 ha
          rcases List.cons_lt_cons_iff.1 h with hij | ⟨rfl, hab⟩
          · exact ⟨[], i, j, a, b, t, rfl, rfl, hij, rfl, leaf?_eq_none hu⟩
          · rw [hasLeaf_child hu] at hb
            obtain ⟨place, k, m, p, q, v, rfl, rfl, hkm, hv, hgroup⟩ := ih ha hb hab
            exact ⟨i :: place, k, m, p, q, v, rfl, rfl, hkm, below?_cons_eq_some.2 ⟨u, hu, hv⟩, hgroup⟩

/-- Positions part in one place only. -/
theorem parting_unique {place place' p p' q q' : TaskPath} {i i' j j' : Nat}
    (ha : place ++ i :: p = place' ++ i' :: p') (hb : place ++ j :: q = place' ++ j' :: q')
    (hij : i ≠ j) (hij' : i' ≠ j') : place = place' := by
  induction place generalizing place' with
  | nil =>
      cases place' with
      | nil => rfl
      | cons k place' =>
          simp only [List.nil_append, List.cons_append, List.cons.injEq] at ha hb
          exact absurd (ha.1.trans hb.1.symm) hij
  | cons k place ih =>
      cases place' with
      | nil =>
          simp only [List.nil_append, List.cons_append, List.cons.injEq] at ha hb
          exact absurd (ha.1.symm.trans hb.1) hij'
      | cons k' place' =>
          simp only [List.cons_append, List.cons.injEq] at ha hb
          rw [ha.1, ih ha.2 hb.2]

/-! ## Order and branches -/

/-- Of two leaves of a pipeline, the one that is listed first comes before the other just if they do not
stand in different branches of a parallel group. -/
theorem comesBefore_iff_not_beside {tasks : List Task} {a b : TaskPath}
    (ha : ∃ l, leafAt? tasks a = some l) (hb : ∃ l, leafAt? tasks b = some l) (h : a < b) :
    ComesBefore tasks a b ↔ ¬ Beside tasks a b := by
  constructor
  · rintro ⟨place, i, j, p, q, rfl, rfl, hij, horder⟩ ⟨place', i', j', p', q', hp, hq, hij', group, hgroup⟩
    obtain rfl := parting_unique hp hq (Nat.ne_of_lt hij) hij'
    rcases horder with rfl | ⟨group', hgroup'⟩
    · simp [at?] at hgroup
    · rw [hgroup] at hgroup'
      simp at hgroup'
  · intro hbeside
    simp only [leafAt?_eq_some] at ha hb
    obtain ⟨place, i, j, p, q, u, rfl, rfl, hij, hu, hgroup⟩ := exists_parting ha hb h
    refine comesBefore_iff.2 ⟨place, i, j, p, q, u, rfl, rfl, hij, hu, ?_⟩
    cases u with
    | leaf l => simp [leaf?] at hgroup
    | sequence group => exact ⟨group, rfl⟩
    | parallel group =>
        have hplace : place ≠ [] := by
          rintro rfl
          simp at hu
        exact absurd ⟨place, i, j, p, q, rfl, rfl, Nat.ne_of_lt hij, group,
          (at?_eq_below? tasks hplace).trans hu⟩ hbeside

end Task

end PipelineCompiler
