import Mathlib.Tactic.ByContra
import PipelineCompiler.Proofs.Task.Positions

/-!
# Which leaf runs before which

A leaf comes before another if the innermost list that holds both is run in order, and it stands under
the smaller index there. `ComesBefore` says this of the list of a pipeline and `Precedes` of a single
task, where it can be followed down the tree: `precedes_cons` reads the order of a group off its tasks.

The covers of the order are the steps between two leaves with no third between them. In a group they
lie inside of one task, or lead from the last leaves of a task of a sequence to the first leaves of the
next (`covers_child`, `covers_across`). Empty groups would let a step skip them.
-/

namespace PipelineCompiler

namespace Task

/-! ## The order -/

/-- The innermost list that holds both positions is the pipeline's own or a sequence's, and the first
position lies under a smaller index of it. -/
def ComesBefore (tasks : List Task) (a b : TaskPath) : Prop :=
  ∃ (place : TaskPath) (i j : Nat) (p q : TaskPath),
    a = place ++ i :: p ∧ b = place ++ j :: q ∧ i < j
      ∧ (place = [] ∨ ∃ group, at? tasks place = some (.sequence group))

mutual

/-- No group of the tree is empty. -/
def isFilled : Task → Bool
  | .leaf _ => true
  | .sequence tasks => !tasks.isEmpty && allFilled tasks
  | .parallel tasks => !tasks.isEmpty && allFilled tasks

/-- No group of the trees is empty. -/
def allFilled : List Task → Bool
  | [] => true
  | t :: rest => t.isFilled && allFilled rest

end

theorem allFilled_iff {tasks : List Task} : allFilled tasks = true ↔ ∀ t ∈ tasks, t.isFilled = true := by
  induction tasks with
  | nil => simp [allFilled]
  | cons t rest ih => simp [allFilled, ih]

/-- A group is filled if it has tasks, which are filled. -/
theorem isFilled_group {t : Task} (h : t.leaf? = none) :
    t.isFilled = true ↔ t.children ≠ [] ∧ ∀ u ∈ t.children, u.isFilled = true := by
  cases t with
  | leaf l => simp [leaf?] at h
  | sequence tasks => simp [isFilled, children, allFilled_iff]
  | parallel tasks => simp [isFilled, children, allFilled_iff]

/-- The tasks of a filled group are filled. -/
theorem isFilled_child {t u : Task} {i : Nat} (h : t.isFilled = true) (hu : t.children[i]? = some u) :
    u.isFilled = true :=
  ((isFilled_group (leaf?_eq_none hu)).1 h).2 u (List.mem_of_getElem? hu)

/-- The position leads to a leaf of the task. -/
def HasLeaf (t : Task) (p : TaskPath) : Prop := ∃ l, t.below? p = some (.leaf l)

theorem hasLeaf_cons {t : Task} {i : Nat} {p : TaskPath} :
    t.HasLeaf (i :: p) ↔ ∃ u, t.children[i]? = some u ∧ u.HasLeaf p := by
  simp only [HasLeaf, below?_cons_eq_some]
  constructor
  · rintro ⟨l, u, hu, hl⟩
    exact ⟨u, hu, l, hl⟩
  · rintro ⟨u, hu, l, hl⟩
    exact ⟨l, u, hu, hl⟩

theorem hasLeaf_child {t u : Task} {i : Nat} {p : TaskPath} (hu : t.children[i]? = some u) :
    t.HasLeaf (i :: p) ↔ u.HasLeaf p := by
  rw [hasLeaf_cons]
  constructor
  · rintro ⟨v, hv, hp⟩
    rwa [Option.some.inj (hu.symm.trans hv)]
  · intro hp
    exact ⟨u, hu, hp⟩

/-- A filled task has a leaf. -/
theorem exists_hasLeaf {t : Task} (h : t.isFilled = true) : ∃ p, t.HasLeaf p := by
  induction t using tree_induction with
  | leaf l => exact ⟨[], l, rfl⟩
  | group t hgroup ih =>
      obtain ⟨hne, hfill⟩ := (isFilled_group hgroup).1 h
      obtain ⟨u, rest, hu⟩ := List.exists_cons_of_ne_nil hne
      have hmem : u ∈ t.children := hu ▸ List.mem_cons_self
      obtain ⟨p, hp⟩ := ih u hmem (hfill u hmem)
      exact ⟨0 :: p, hasLeaf_cons.2 ⟨u, by rw [hu]; rfl, hp⟩⟩

/-! ## Precedence below a task -/

/-- The task runs its tasks in order. -/
def IsSequence (t : Task) : Prop := ∃ group, t = .sequence group

/-- The innermost group that holds both positions below a task is a sequence, and the first position
lies under a smaller index of it. -/
def Precedes (t : Task) (a b : TaskPath) : Prop :=
  ∃ (place : TaskPath) (i j : Nat) (p q : TaskPath) (u : Task),
    a = place ++ i :: p ∧ b = place ++ j :: q ∧ i < j ∧ t.below? place = some u ∧ u.IsSequence

/-- The list of a pipeline is run like a sequence. -/
theorem comesBefore_iff {tasks : List Task} {a b : TaskPath} :
    ComesBefore tasks a b ↔ (Task.sequence tasks).Precedes a b := by
  constructor
  · rintro ⟨place, i, j, p, q, ha, hb, hij, rfl | ⟨group, hgroup⟩⟩
    · exact ⟨[], i, j, p, q, .sequence tasks, ha, hb, hij, rfl, tasks, rfl⟩
    · have hplace : place ≠ [] := by
        rintro rfl
        simp [at?] at hgroup
      rw [at?_eq_below? tasks hplace] at hgroup
      exact ⟨place, i, j, p, q, _, ha, hb, hij, hgroup, group, rfl⟩
  · rintro ⟨place, i, j, p, q, u, ha, hb, hij, hu, group, rfl⟩
    refine ⟨place, i, j, p, q, ha, hb, hij, ?_⟩
    by_cases hplace : place = []
    · exact .inl hplace
    · exact .inr ⟨group, by rwa [at?_eq_below? tasks hplace]⟩

theorem not_precedes_nil {t : Task} {a : TaskPath} : ¬ t.Precedes a [] := by
  rintro ⟨place, i, j, p, q, u, -, hb, -⟩
  simp at hb

theorem not_nil_precedes {t : Task} {b : TaskPath} : ¬ t.Precedes [] b := by
  rintro ⟨place, i, j, p, q, u, ha, -⟩
  simp at ha

/-- Positions in a group are ordered by their indices if it is a sequence, and otherwise inside of one
of its tasks only. -/
theorem precedes_cons {t : Task} {i j : Nat} {a b : TaskPath} :
    t.Precedes (i :: a) (j :: b) ↔
      (i < j ∧ t.IsSequence) ∨ (i = j ∧ ∃ u, t.children[i]? = some u ∧ u.Precedes a b) := by
  constructor
  · rintro ⟨place, i', j', p, q, u, ha, hb, hij, hu, hseq⟩
    cases place with
    | nil =>
        simp only [List.nil_append, List.cons.injEq] at ha hb
        obtain rfl : t = u := by simpa using hu
        exact .inl ⟨by omega, hseq⟩
    | cons k place =>
        simp only [List.cons_append, List.cons.injEq] at ha hb
        obtain ⟨⟨rfl, rfl⟩, rfl, rfl⟩ := And.intro ha hb
        obtain ⟨v, hv, hu⟩ := below?_cons_eq_some.1 hu
        exact .inr ⟨rfl, v, hv, place, i', j', p, q, u, rfl, rfl, hij, hu, hseq⟩
  · rintro (⟨hij, hseq⟩ | ⟨rfl, v, hv, place, i', j', p, q, u, rfl, rfl, hij, hu, hseq⟩)
    · exact ⟨[], i, j, a, b, t, rfl, rfl, hij, rfl, hseq⟩
    · exact ⟨i :: place, i', j', p, q, u, rfl, rfl, hij, below?_cons_eq_some.2 ⟨v, hv, hu⟩, hseq⟩

/-- Positions in one task of a group are ordered there. -/
theorem precedes_child {t u : Task} {i : Nat} {a b : TaskPath} (hu : t.children[i]? = some u) :
    t.Precedes (i :: a) (i :: b) ↔ u.Precedes a b := by
  rw [precedes_cons]
  constructor
  · rintro (⟨hlt, -⟩ | ⟨-, v, hv, hab⟩)
    · exact absurd hlt (Nat.lt_irrefl i)
    · rwa [Option.some.inj (hu.symm.trans hv)]
  · intro hab
    exact .inr ⟨rfl, u, hu, hab⟩

/-- Positions in two tasks of a sequence are ordered like the tasks. -/
theorem precedes_across {t : Task} {i j : Nat} {a b : TaskPath} (hseq : t.IsSequence) (hij : i < j) :
    t.Precedes (i :: a) (j :: b) := precedes_cons.2 (.inl ⟨hij, hseq⟩)

/-- What comes first is listed first. -/
theorem Precedes.lt {t : Task} {a b : TaskPath} (h : t.Precedes a b) : a < b := by
  obtain ⟨place, i, j, p, q, u, rfl, rfl, hij, -⟩ := h
  exact append_cons_lt place hij p q

theorem Precedes.trans {t : Task} {a b c : TaskPath} (hab : t.Precedes a b) (hbc : t.Precedes b c) :
    t.Precedes a c := by
  induction b generalizing t a c with
  | nil => exact absurd hab not_precedes_nil
  | cons j b ih =>
      cases a with
      | nil => exact absurd hab not_nil_precedes
      | cons i a =>
          cases c with
          | nil => exact absurd hbc not_precedes_nil
          | cons k c =>
              rw [precedes_cons] at hab hbc ⊢
              rcases hab with ⟨hij, hseq⟩ | ⟨rfl, u, hu, hab⟩
              · exact .inl ⟨by rcases hbc with ⟨hjk, -⟩ | ⟨rfl, -⟩ <;> omega, hseq⟩
              · rcases hbc with ⟨hik, hseq⟩ | ⟨rfl, v, hv, hbc⟩
                · exact .inl ⟨hik, hseq⟩
                · obtain rfl : u = v := Option.some.inj (hu.symm.trans hv)
                  exact .inr ⟨rfl, u, hu, ih hab hbc⟩

/-! ## First and last leaves, and covers -/

/-- No leaf of the task comes before the position. -/
def IsFirst (t : Task) (b : TaskPath) : Prop := ∀ c, t.HasLeaf c → ¬ t.Precedes c b

/-- No leaf of the task comes after the position. -/
def IsLast (t : Task) (a : TaskPath) : Prop := ∀ c, t.HasLeaf c → ¬ t.Precedes a c

/-- Two leaves of the task of which the first comes before the second, without a third between them. -/
def Covers (t : Task) (a b : TaskPath) : Prop :=
  t.HasLeaf a ∧ t.HasLeaf b ∧ t.Precedes a b ∧ ∀ c, t.HasLeaf c → ¬ (t.Precedes a c ∧ t.Precedes c b)

/-- A last leaf of a group is a last leaf of one of its tasks, which is the last one of a sequence. -/
theorem isLast_cons {t u : Task} {i : Nat} {a : TaskPath} (hfill : t.isFilled = true)
    (hu : t.children[i]? = some u) :
    t.IsLast (i :: a) ↔ u.IsLast a ∧ (t.IsSequence → i + 1 = t.children.length) := by
  obtain ⟨hi, -⟩ := List.getElem?_eq_some_iff.1 hu
  constructor
  · intro h
    refine ⟨fun c hc hac => ?_, fun hseq => ?_⟩
    · exact h (i :: c) ((hasLeaf_child hu).2 hc) ((precedes_child hu).2 hac)
    · by_contra hne
      -- the task after this one has a leaf, which comes later
      have hv : t.children[i + 1]? = some t.children[i + 1] := List.getElem?_eq_getElem (by omega)
      obtain ⟨c, hc⟩ := exists_hasLeaf (isFilled_child hfill hv)
      exact h ((i + 1) :: c) ((hasLeaf_child hv).2 hc) (precedes_across hseq (by omega))
  · rintro ⟨h, hlast⟩ c hc hac
    cases c with
    | nil => exact not_precedes_nil hac
    | cons k c =>
        rcases precedes_cons.1 hac with ⟨hik, hseq⟩ | ⟨rfl, -⟩
        · obtain ⟨v, hv, -⟩ := hasLeaf_cons.1 hc
          obtain ⟨hk, -⟩ := List.getElem?_eq_some_iff.1 hv
          have := hlast hseq
          omega
        · exact h c ((hasLeaf_child hu).1 hc) ((precedes_child hu).1 hac)

/-- A first leaf of a group is a first leaf of one of its tasks, which is the first one of a sequence. -/
theorem isFirst_cons {t u : Task} {i : Nat} {b : TaskPath} (hfill : t.isFilled = true)
    (hu : t.children[i]? = some u) :
    t.IsFirst (i :: b) ↔ u.IsFirst b ∧ (t.IsSequence → i = 0) := by
  obtain ⟨hi, -⟩ := List.getElem?_eq_some_iff.1 hu
  constructor
  · intro h
    refine ⟨fun c hc hcb => ?_, fun hseq => ?_⟩
    · exact h (i :: c) ((hasLeaf_child hu).2 hc) ((precedes_child hu).2 hcb)
    · by_contra hne
      have hv : t.children[0]? = some t.children[0] := List.getElem?_eq_getElem (by omega)
      obtain ⟨c, hc⟩ := exists_hasLeaf (isFilled_child hfill hv)
      exact h (0 :: c) ((hasLeaf_child hv).2 hc) (precedes_across hseq (by omega))
  · rintro ⟨h, hfirst⟩ c hc hcb
    cases c with
    | nil => exact not_nil_precedes hcb
    | cons k c =>
        rcases precedes_cons.1 hcb with ⟨hki, hseq⟩ | ⟨rfl, -⟩
        · have := hfirst hseq
          omega
        · exact h c ((hasLeaf_child hu).1 hc) ((precedes_child hu).1 hcb)

/-- Inside of one task of a group a leaf covers what it covers there. -/
theorem covers_child {t u : Task} {i : Nat} {a b : TaskPath} (hu : t.children[i]? = some u) :
    t.Covers (i :: a) (i :: b) ↔ u.Covers a b := by
  rw [Covers, Covers, hasLeaf_child hu, hasLeaf_child hu, precedes_child hu]
  refine and_congr_right fun _ => and_congr_right fun _ => and_congr_right fun _ => ?_
  constructor
  · intro h c hc hbetween
    exact h (i :: c) ((hasLeaf_child hu).2 hc)
      ⟨(precedes_child hu).2 hbetween.1, (precedes_child hu).2 hbetween.2⟩
  · rintro h c hc ⟨hac, hcb⟩
    cases c with
    | nil => exact not_precedes_nil hac
    | cons m c =>
        -- a leaf between two leaves of one task stands in this task
        obtain rfl : i = m := by
          rcases precedes_cons.1 hac with ⟨him, -⟩ | ⟨rfl, -⟩
          · rcases precedes_cons.1 hcb with ⟨hmi, -⟩ | ⟨rfl, -⟩
            · omega
            · rfl
          · rfl
        exact h c ((hasLeaf_child hu).1 hc) ⟨(precedes_child hu).1 hac, (precedes_child hu).1 hcb⟩

/-- From one task of a group to another, the last leaves of a task of a sequence cover the first leaves
of the next. -/
theorem covers_across {t u v : Task} {k i : Nat} {a b : TaskPath} (hfill : t.isFilled = true)
    (hki : k ≠ i) (hv : t.children[k]? = some v) (hu : t.children[i]? = some u) (hb : u.HasLeaf b) :
    t.Covers (k :: a) (i :: b) ↔
      t.IsSequence ∧ k + 1 = i ∧ v.HasLeaf a ∧ v.IsLast a ∧ u.IsFirst b := by
  constructor
  · rintro ⟨ha, -, hab, hbetween⟩
    rcases precedes_cons.1 hab with ⟨hlt, hseq⟩ | ⟨heq, -⟩
    · refine ⟨hseq, ?_, (hasLeaf_child hv).1 ha, fun c hc hac => ?_, fun c hc hcb => ?_⟩
      · by_contra hne
        -- a leaf of the task after the first one stands between the two
        obtain ⟨hi, -⟩ := List.getElem?_eq_some_iff.1 hu
        have hw : t.children[k + 1]? = some t.children[k + 1] := List.getElem?_eq_getElem (by omega)
        obtain ⟨c, hc⟩ := exists_hasLeaf (isFilled_child hfill hw)
        exact hbetween _ ((hasLeaf_child hw).2 hc)
          ⟨precedes_across hseq (by omega), precedes_across hseq (by omega)⟩
      · exact hbetween _ ((hasLeaf_child hv).2 hc)
          ⟨(precedes_child hv).2 hac, precedes_across hseq hlt⟩
      · exact hbetween _ ((hasLeaf_child hu).2 hc)
          ⟨precedes_across hseq hlt, (precedes_child hu).2 hcb⟩
    · exact absurd heq hki
  · rintro ⟨hseq, rfl, ha, hlast, hfirst⟩
    refine ⟨(hasLeaf_child hv).2 ha, (hasLeaf_child hu).2 hb, precedes_across hseq (by omega), ?_⟩
    rintro c hc ⟨hac, hcb⟩
    cases c with
    | nil => exact not_precedes_nil hac
    | cons m c =>
        rcases precedes_cons.1 hac with ⟨hkm, -⟩ | ⟨rfl, -⟩
        · rcases precedes_cons.1 hcb with ⟨hmk, -⟩ | ⟨rfl, -⟩
          · omega
          · exact hfirst c ((hasLeaf_child hu).1 hc) ((precedes_child hu).1 hcb)
        · exact hlast c ((hasLeaf_child hv).1 hc) ((precedes_child hv).1 hac)

end Task

end PipelineCompiler
