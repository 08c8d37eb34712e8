import Mathlib.Data.List.Forall2

/-!
# Working off lists

A list whose items may each fail is worked off item by item. Results stand beside the items that they
are results for.
-/

namespace PipelineCompiler

section Pairs

variable {α β : Type} {R : α → β → Prop} {xs : List α} {ys : List β}

/-- Everything on the right is paired with something on the left. -/
theorem exists_of_mem_right (h : List.Forall₂ R xs ys) {y : β} (hy : y ∈ ys) : ∃ x ∈ xs, R x y := by
  induction h with
  | nil => simp at hy
  | cons hx _ ih =>
      rcases List.mem_cons.1 hy with rfl | hy
      · exact ⟨_, List.mem_cons_self, hx⟩
      · obtain ⟨x, hx, hy⟩ := ih hy
        exact ⟨x, List.mem_cons_of_mem _ hx, hy⟩

/-- Everything on the left is paired with something on the right. -/
theorem exists_of_mem_left (h : List.Forall₂ R xs ys) {x : α} (hx : x ∈ xs) : ∃ y ∈ ys, R x y :=
  exists_of_mem_right h.flip hx

/-- What follows for pairs of items of the lists holds of all pairs. -/
theorem forall₂_imp_mem {S : α → β → Prop} (h : List.Forall₂ R xs ys)
    (himp : ∀ x ∈ xs, ∀ y ∈ ys, R x y → S x y) : List.Forall₂ S xs ys := by
  induction h with
  | nil => exact .nil
  | cons hx _ ih =>
      refine .cons (himp _ List.mem_cons_self _ List.mem_cons_self hx) (ih fun x hx y hy => ?_)
      exact himp x (List.mem_cons_of_mem _ hx) y (List.mem_cons_of_mem _ hy)

/-- There is something on the left just if there is something on the right that it is paired with. -/
theorem exists_mem_congr {P : α → Prop} {Q : β → Prop} (h : List.Forall₂ R xs ys)
    (hPQ : ∀ x y, R x y → (P x ↔ Q y)) : (∃ x ∈ xs, P x) ↔ ∃ y ∈ ys, Q y := by
  constructor
  · rintro ⟨x, hx, hP⟩
    obtain ⟨y, hy, hR⟩ := exists_of_mem_left h hx
    exact ⟨y, hy, (hPQ x y hR).1 hP⟩
  · rintro ⟨y, hy, hQ⟩
    obtain ⟨x, hx, hR⟩ := exists_of_mem_right h hy
    exact ⟨x, hx, (hPQ x y hR).2 hQ⟩

/-- What stands at one index is paired. -/
theorem rel_of_getElem? (h : List.Forall₂ R xs ys) {k : Nat} {x : α} {y : β} (hx : xs[k]? = some x)
    (hy : ys[k]? = some y) : R x y := by
  obtain ⟨hlx, rfl⟩ := List.getElem?_eq_some_iff.1 hx
  obtain ⟨hly, rfl⟩ := List.getElem?_eq_some_iff.1 hy
  exact (List.forall₂_iff_get.1 h).2 k hlx hly

end Pairs

section Results

variable {α β ε : Type}

/-- Two steps give a result if the first gives one from which the second does. -/
theorem bind_eq_ok {x : Except ε α} {f : α → Except ε β} {b : β} :
    x >>= f = .ok b ↔ ∃ a, x = .ok a ∧ f a = .ok b := by
  cases x with
  | error e => exact ⟨nofun, nofun⟩
  | ok a =>
      refine ⟨fun h => ⟨a, rfl, h⟩, ?_⟩
      rintro ⟨a', ha, h⟩
      exact Except.ok.inj ha ▸ h

/-- Two steps fail if the first does, or the second from what the first gives. -/
theorem bind_eq_error {x : Except ε α} {f : α → Except ε β} {e : ε} :
    x >>= f = .error e ↔ x = .error e ∨ ∃ a, x = .ok a ∧ f a = .error e := by
  cases x with
  | error e' =>
      refine ⟨fun h => .inl (congrArg _ (Except.error.inj h)), ?_⟩
      rintro (h | ⟨a, ha, -⟩)
      · exact congrArg _ (Except.error.inj h)
      · simp at ha
  | ok a =>
      refine ⟨fun h => .inr ⟨a, rfl, h⟩, ?_⟩
      rintro (h | ⟨b, hb, h⟩)
      · simp at h
      · exact Except.ok.inj hb ▸ h

theorem mapError_eq_error {δ : Type} {x : Except δ α} {f : δ → ε} {e : ε} :
    x.mapError f = .error e ↔ ∃ d, x = .error d ∧ f d = e := by
  cases x <;> simp [Except.mapError]

/-- A list is worked off without error just if each of its items is. -/
theorem mapM_eq_ok {f : α → Except ε β} {xs : List α} {ys : List β} :
    xs.mapM f = .ok ys ↔ List.Forall₂ (fun x y => f x = .ok y) xs ys := by
  induction xs generalizing ys with
  | nil =>
      rw [List.mapM_nil, List.forall₂_nil_left_iff]
      exact ⟨fun h => (Except.ok.inj h).symm, fun h => congrArg Except.ok h.symm⟩
  | cons x xs ih =>
      rw [List.mapM_cons, List.forall₂_cons_left_iff]
      simp only [bind_eq_ok, ih]
      constructor
      · rintro ⟨y, hy, zs, hzs, h⟩
        exact ⟨y, zs, hy, hzs, (Except.ok.inj h).symm⟩
      · rintro ⟨y, zs, hy, hzs, rfl⟩
        exact ⟨y, hy, zs, hzs, rfl⟩

/-- A list is worked off without error if each of its items can be. -/
theorem exists_mapM_eq_ok {f : α → Except ε β} {xs : List α} (h : ∀ x ∈ xs, ∃ y, f x = .ok y) :
    ∃ ys, xs.mapM f = .ok ys := by
  induction xs with
  | nil => exact ⟨[], rfl⟩
  | cons x xs ih =>
      obtain ⟨y, hy⟩ := h x List.mem_cons_self
      obtain ⟨ys, hys⟩ := ih fun z hz => h z (List.mem_cons_of_mem x hz)
      exact ⟨y :: ys, mapM_eq_ok.2 (.cons hy (mapM_eq_ok.1 hys))⟩

end Results

end PipelineCompiler
