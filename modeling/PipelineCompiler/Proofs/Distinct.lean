import Mathlib.Data.List.Induction
import Mathlib.Data.List.Perm.Basic
import PipelineCompiler.Distinct

/-!
# Each item where it stands first

`distinct` leaves out what is repeated. The list it gives is the only one that holds just the items, each of
them once, in the order in which they stand first (`firstOccurrences_iff`).
-/

namespace PipelineCompiler

variable {α : Type} [DecidableEq α]

/-- The list holds just the items, each of them once, in the order in which they stand first. -/
structure FirstOccurrences (items firsts : List α) : Prop where
  nodup : firsts.Nodup
  mem : ∀ a, a ∈ firsts ↔ a ∈ items
  order : firsts.Pairwise fun a b => items.idxOf a < items.idxOf b

theorem distinct_append_singleton (items : List α) (a : α) :
    distinct (items ++ [a]) = if a ∈ distinct items then distinct items else distinct items ++ [a] := by
  rw [distinct, List.foldl_append]
  rfl

/-- What was listed stays listed in its order when an item follows. -/
theorem FirstOccurrences.pairwise_append {items firsts : List α} (h : FirstOccurrences items firsts)
    (rest : List α) :
    firsts.Pairwise fun a b => (items ++ rest).idxOf a < (items ++ rest).idxOf b := by
  refine h.order.imp_of_mem fun {a b} ha hb hab => ?_
  rwa [List.idxOf_append_of_mem ((h.mem a).1 ha), List.idxOf_append_of_mem ((h.mem b).1 hb)]

theorem firstOccurrences_distinct (items : List α) : FirstOccurrences items (distinct items) := by
  induction items using List.reverseRecOn with
  | nil => exact ⟨List.nodup_nil, fun _ => Iff.rfl, List.Pairwise.nil⟩
  | append_singleton items a ih =>
      rw [distinct_append_singleton]
      split
      case isTrue hseen =>
        refine ⟨ih.nodup, fun b => ?_, ih.pairwise_append [a]⟩
        rw [ih.mem, List.mem_append, List.mem_singleton]
        have hold : b = a → b ∈ items := fun hb => hb ▸ (ih.mem a).1 hseen
        exact ⟨.inl, fun hb => hb.elim id hold⟩
      case isFalse hnew =>
        refine ⟨?_, fun b => ?_, ?_⟩
        · exact (List.perm_append_singleton a _).nodup_iff.2 (List.nodup_cons.2 ⟨hnew, ih.nodup⟩)
        · rw [List.mem_append, List.mem_append, ih.mem]
        · refine List.pairwise_append.2 ⟨ih.pairwise_append [a], List.pairwise_singleton _ a, ?_⟩
          intro b hb c hc
          obtain rfl := List.mem_singleton.1 hc
          have hb' := (ih.mem b).1 hb
          have hc' : c ∉ items := fun h => hnew ((ih.mem c).2 h)
          rw [List.idxOf_append_of_mem hb', List.idxOf_append_of_notMem hc']
          exact Nat.lt_add_right _ (List.idxOf_lt_length_iff.2 hb')

/-- There is only one list of first occurrences. -/
theorem firstOccurrences_iff {items firsts : List α} :
    FirstOccurrences items firsts ↔ firsts = distinct items := by
  constructor
  · intro h
    have hd := firstOccurrences_distinct items
    have hperm : firsts.Perm (distinct items) :=
      (List.perm_ext_iff_of_nodup h.nodup hd.nodup).2 fun a => (h.mem a).trans (hd.mem a).symm
    exact hperm.eq_of_pairwise (fun a b _ _ hab hba => absurd hab (Nat.lt_asymm hba)) h.order hd.order
  · rintro rfl
    exact firstOccurrences_distinct items

end PipelineCompiler
