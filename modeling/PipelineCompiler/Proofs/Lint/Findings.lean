import PipelineCompiler.Lint.Finding

/-!
# Errors among findings

Rules are put together from smaller ones, and so are statements on the errors that they find: that there
are none (`Clean`), that all of them are of a kind (`Only`), or that a given one is among them.
-/

namespace PipelineCompiler.Lint

namespace Findings

variable {a b fs : Findings} {position : String} {faults : List Fault}

/-! ## No errors -/

/-- No error was found. -/
def Clean (fs : Findings) : Prop := fs.errors = []

instance (fs : Findings) : Decidable fs.Clean := by unfold Clean; infer_instance

@[simp] theorem clean_empty : Clean {} := rfl

@[simp] theorem clean_append : (a ++ b).Clean ↔ a.Clean ∧ b.Clean :=
  List.append_eq_nil_iff

@[simp] theorem clean_concat {fs : List Findings} : (concat fs).Clean ↔ ∀ f ∈ fs, f.Clean :=
  List.flatMap_eq_nil_iff

@[simp] theorem clean_under : (fs.under position).Clean ↔ fs.Clean :=
  List.map_eq_nil_iff

@[simp] theorem clean_ofErrors : (ofErrors faults).Clean ↔ faults = [] :=
  List.map_eq_nil_iff

@[simp] theorem clean_ofWarnings : (ofWarnings faults).Clean := rfl

/-! ## Errors of a kind -/

/-- Every error is of a kind. -/
def Only (P : Fault → Prop) (fs : Findings) : Prop := ∀ e ∈ fs.errors, P e.fault

variable {P : Fault → Prop}

@[simp] theorem only_empty : Only P {} := nofun

@[simp] theorem only_append : (a ++ b).Only P ↔ a.Only P ∧ b.Only P :=
  List.forall_mem_append

@[simp] theorem only_concat {fs : List Findings} : (concat fs).Only P ↔ ∀ f ∈ fs, f.Only P :=
  List.forall_mem_flatMap

@[simp] theorem only_under : (fs.under position).Only P ↔ fs.Only P :=
  List.forall_mem_map

@[simp] theorem only_ofWarnings : (ofWarnings faults).Only P := nofun

theorem only_ofErrors : (ofErrors faults).Only P ↔ ∀ fault ∈ faults, P fault :=
  List.forall_mem_map

@[simp] theorem only_ofErrors_nil : (ofErrors []).Only P := nofun

@[simp] theorem only_ofErrors_singleton {fault : Fault} : (ofErrors [fault]).Only P ↔ P fault :=
  only_ofErrors.trans List.forall_mem_singleton

@[simp] theorem only_ofErrors_append {xs ys : List Fault} :
    (ofErrors (xs ++ ys)).Only P ↔ (ofErrors xs).Only P ∧ (ofErrors ys).Only P := by
  simp only [only_ofErrors, List.forall_mem_append]

@[simp] theorem only_ofErrors_ite {c : Prop} [Decidable c] {xs ys : List Fault} :
    (ofErrors (if c then xs else ys)).Only P
      ↔ (c → (ofErrors xs).Only P) ∧ (¬ c → (ofErrors ys).Only P) := by
  by_cases h : c <;> simp [h]

/-- Rules that keep to a kind of error at each item of a list keep to it over the list. -/
theorem only_concat_of_forall {α : Type} {l : List α} {f : α × Nat → Findings}
    (h : ∀ a ∈ l, ∀ i, (f (a, i)).Only P) : (concat (l.zipIdx.map f)).Only P := by
  refine only_concat.2 fun fs hfs => ?_
  obtain ⟨⟨a, i⟩, hmem, rfl⟩ := List.mem_map.1 hfs
  exact h a (List.fst_mem_of_mem_zipIdx hmem) i

/-- Rules that keep to a kind of error over a list keep to it at each item. -/
theorem exists_only_of_concat {α : Type} {l : List α} {f : α × Nat → Findings}
    (h : (concat (l.zipIdx.map f)).Only P) {a : α} (ha : a ∈ l) : ∃ i, (f (a, i)).Only P := by
  obtain ⟨i, hi⟩ := List.mem_iff_getElem?.1 ha
  rw [only_concat] at h
  exact ⟨i, h _ (List.mem_map_of_mem (List.mk_mem_zipIdx_iff_getElem?.2 hi))⟩

/-- To find no error is to find errors of no kind. -/
theorem clean_iff_only : fs.Clean ↔ fs.Only fun _ => False :=
  List.eq_nil_iff_forall_not_mem

/-- Rules that are clean at each item of a list are clean over the list. -/
theorem clean_concat_of_forall {α : Type} {l : List α} {f : α × Nat → Findings}
    (h : ∀ a ∈ l, ∀ i, (f (a, i)).Clean) : (concat (l.zipIdx.map f)).Clean := by
  simp only [clean_iff_only] at h ⊢
  exact only_concat_of_forall h

/-- Rules that are clean over a list are clean at each item. -/
theorem exists_clean_of_concat {α : Type} {l : List α} {f : α × Nat → Findings}
    (h : (concat (l.zipIdx.map f)).Clean) {a : α} (ha : a ∈ l) : ∃ i, (f (a, i)).Clean := by
  simp only [clean_iff_only] at h ⊢
  exact exists_only_of_concat h ha

/-- Where there are no errors all of them are of any kind. -/
theorem Clean.only (h : fs.Clean) : fs.Only P := by
  intro e he
  rw [Clean] at h
  simp [h] at he

/-- Rules that never find an error of some kind find such errors only if they find none. -/
theorem only_iff_clean {P : Fault → Prop} (h : fs.Only fun fault => ¬ P fault) :
    fs.Only P ↔ fs.Clean := by
  constructor
  · intro honly
    refine List.eq_nil_iff_forall_not_mem.2 fun e he => ?_
    exact h e he (honly e he)
  · exact Clean.only

/-! ## A given error -/

theorem mem_errors_append {e : Finding} : e ∈ (a ++ b).errors ↔ e ∈ a.errors ∨ e ∈ b.errors :=
  List.mem_append

theorem mem_errors_under {e : Finding} :
    e ∈ (fs.under position).errors ↔ ∃ f ∈ fs.errors, f.under position = e :=
  List.mem_map

/-- What rules find at the items of a list is found at one of them. -/
theorem mem_errors_concat_zipIdx {α : Type} {l : List α} {f : α × Nat → Findings} {e : Finding} :
    e ∈ (concat (l.zipIdx.map f)).errors ↔ ∃ i a, l[i]? = some a ∧ e ∈ (f (a, i)).errors := by
  rw [concat, List.mem_flatMap]
  constructor
  · rintro ⟨fs, hfs, he⟩
    obtain ⟨⟨a, i⟩, hmem, rfl⟩ := List.mem_map.1 hfs
    exact ⟨i, a, List.mk_mem_zipIdx_iff_getElem?.1 hmem, he⟩
  · rintro ⟨i, a, ha, he⟩
    exact ⟨_, List.mem_map_of_mem (List.mk_mem_zipIdx_iff_getElem?.2 ha), he⟩

/-! ## Errors and warnings alike -/

theorem warnings_append : (a ++ b).warnings = a.warnings ++ b.warnings := rfl

/-- The finding is an error or a warning. -/
def Has (fs : Findings) (e : Finding) : Prop := e ∈ fs.errors ∨ e ∈ fs.warnings

theorem has_append {e : Finding} : (a ++ b).Has e ↔ a.Has e ∨ b.Has e := by
  have herrors : e ∈ (a ++ b).errors ↔ e ∈ a.errors ∨ e ∈ b.errors := mem_errors_append
  rw [Has, Has, Has, herrors, warnings_append, List.mem_append, or_or_or_comm]

theorem has_under {e : Finding} :
    (fs.under position).Has e ↔ ∃ f, fs.Has f ∧ f.under position = e := by
  simp only [Has, under, List.mem_map, or_and_right, exists_or]

theorem has_ofErrors {fault : Fault} : (ofErrors faults).Has { fault } ↔ fault ∈ faults := by
  simp [Has, ofErrors]

/-- What is found in one of a number of lists. -/
theorem has_concat {fs : List Findings} {e : Finding} :
    (concat fs).Has e ↔ ∃ f ∈ fs, f.Has e := by
  simp only [Has, concat, List.mem_flatMap, and_or_left, exists_or]

/-- Every error and every warning is of a kind. -/
def Every (Q : Finding → Prop) (fs : Findings) : Prop := ∀ e, fs.Has e → Q e

variable {Q : Finding → Prop}

@[simp] theorem every_empty : Every Q {} := by
  rintro e (he | he)
  · exact absurd he List.not_mem_nil
  · exact absurd he List.not_mem_nil

@[simp] theorem every_append : (a ++ b).Every Q ↔ a.Every Q ∧ b.Every Q := by
  simp only [Every, has_append, or_imp, forall_and]

theorem every_under : (fs.under position).Every Q ↔ fs.Every fun e => Q (e.under position) := by
  simp only [Every, has_under, forall_exists_index, and_imp, forall_apply_eq_imp_iff₂]

theorem every_ofErrors : (ofErrors faults).Every Q ↔ ∀ fault ∈ faults, Q { fault } := by
  simp [Every, Has, ofErrors]

theorem every_ofWarnings : (ofWarnings faults).Every Q ↔ ∀ fault ∈ faults, Q { fault } := by
  simp [Every, Has, ofWarnings]

theorem every_concat {α : Type} {l : List α} {f : α → Findings} :
    (concat (l.map f)).Every Q ↔ ∀ a ∈ l, (f a).Every Q := by
  constructor
  · intro h a ha e he
    exact h e (has_concat.2 ⟨f a, List.mem_map_of_mem ha, he⟩)
  · intro h e he
    obtain ⟨fs, hfs, he⟩ := has_concat.1 he
    obtain ⟨a, ha, rfl⟩ := List.mem_map.1 hfs
    exact h a ha e he

/-- Rules that are of a kind at each item of a list, whose index they know, are so over the list. -/
theorem every_concat_zipIdx {α : Type} {l : List α} {f : α × Nat → Findings} :
    (concat (l.zipIdx.map f)).Every Q ↔ ∀ i a, l[i]? = some a → (f (a, i)).Every Q := by
  rw [every_concat]
  constructor
  · intro h i a ha
    exact h (a, i) (List.mk_mem_zipIdx_iff_getElem?.2 ha)
  · rintro h ⟨a, i⟩ hmem
    exact h i a (List.mk_mem_zipIdx_iff_getElem?.1 hmem)

theorem Every.imp {R : Finding → Prop} (h : fs.Every Q) (himp : ∀ e, Q e → R e) : fs.Every R :=
  fun e he => himp e (h e he)

end Findings

end PipelineCompiler.Lint
