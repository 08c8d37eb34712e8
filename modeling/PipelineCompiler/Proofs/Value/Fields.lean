import PipelineCompiler.Value.Fields

/-!
# Reading what was written

A record that is written as a mapping is read back field by field. What stands under other names does
not matter to a field (`get?_append_right`, `get?_append_left`), so that it is found among others just as
it was written, if no other bears its name.
-/

namespace PipelineCompiler

/-! ## Fields among others -/

namespace Fields

/-- No field bears the name. -/
def Lacks (fs : Fields) (name : String) : Prop := ∀ f ∈ fs, f.1 ≠ name

section Lacks

variable {xs ys : Fields} {name key : String} {v : Value}

@[simp] theorem lacks_nil : Lacks [] name := nofun

@[simp] theorem lacks_cons {f : String × Value} : Lacks (f :: xs) name ↔ f.1 ≠ name ∧ Lacks xs name :=
  List.forall_mem_cons

@[simp] theorem lacks_append : Lacks (xs ++ ys) name ↔ Lacks xs name ∧ Lacks ys name :=
  List.forall_mem_append

theorem Lacks.filter_eq_nil (h : xs.Lacks name) : (xs.filter fun f => f.1 = name) = [] := by
  rw [List.filter_eq_nil_iff]
  intro f hf
  simpa using h f hf

/-- A field of another name may be left out or not. -/
@[simp] theorem lacks_ite (h : key ≠ name) (p : Prop) [Decidable p] :
    Lacks (if p then [] else [(key, v)]) name := by
  split
  · exact lacks_nil
  · exact lacks_cons.2 ⟨h, lacks_nil⟩

end Lacks

section Get

variable {α : Type} {xs ys : Fields} {name : String} {read : Value → Option α} {default : α} {v : Value}

/-- A field is not looked for among fields of other names. -/
@[simp] theorem get?_append_right (h : xs.Lacks name) :
    (xs ++ ys).get? name read default = ys.get? name read default := by
  rw [get?, List.filter_append, h.filter_eq_nil, List.nil_append, get?]

@[simp] theorem get?_append_left (h : ys.Lacks name) :
    (xs ++ ys).get? name read default = xs.get? name read default := by
  rw [get?, List.filter_append, h.filter_eq_nil, List.append_nil, get?]

@[simp] theorem get?_cons_of_ne {key : String} (h : key ≠ name) :
    get? ((key, v) :: xs) name read default = xs.get? name read default := by
  have hother : Lacks [(key, v)] name := lacks_cons.2 ⟨h, lacks_nil⟩
  rw [← List.singleton_append, get?_append_right hother]

/-- A field that is given once is read. -/
@[simp] theorem get?_cons_self (h : xs.Lacks name) :
    get? ((name, v) :: xs) name read default = read v := by
  rw [get?, List.filter_cons_of_pos (by simp), h.filter_eq_nil]

/-- A field that is missing takes its default. -/
@[simp] theorem get?_of_lacks (h : xs.Lacks name) : xs.get? name read default = some default := by
  rw [get?, h.filter_eq_nil]

/-- A field may be left out if what it says is the default. -/
theorem get?_ite {p : Prop} [Decidable p] {x : α} (hread : ¬ p → read v = some x)
    (hdefault : p → default = x) :
    get? (if p then [] else [(name, v)]) name read default = some x := by
  split
  · next hp => rw [get?_of_lacks lacks_nil, hdefault hp]
  · next hp => rw [get?_cons_self lacks_nil, hread hp]

end Get

end Fields

/-! ## Records -/

namespace Value

theorem record_eq (fs : Fields) : record fs = .map (fs.map fun f => (.str f.1, f.2)) := rfl

theorem nameEntries?_texts (names : List String) (fs : Fields) :
    nameEntries? names (fs.map fun f => (.str f.1, f.2)) = some fs := by
  induction fs with
  | nil => rfl
  | cons f fs ih =>
      rw [List.map_cons, nameEntries?, ih]
      rfl

/-- The fields of a record are those that it was made of. -/
@[simp] theorem fields?_record (names : List String) (fs : Fields) :
    (record fs).fields? names = some fs :=
  nameEntries?_texts names fs

@[simp] theorem openFields?_record (fs : Fields) : (record fs).openFields? = some fs :=
  nameEntries?_texts [] fs

/-! ## Scalars and lists -/

theorem mapM_map_eq_some {α β γ : Type} {read : β → Option γ} {write : α → β} {f : α → γ} {xs : List α}
    (h : ∀ x ∈ xs, read (write x) = some (f x)) : (xs.map write).mapM read = some (xs.map f) := by
  induction xs with
  | nil => rfl
  | cons x xs ih =>
      have hx := h x List.mem_cons_self
      have hxs := ih fun y hy => h y (List.mem_cons_of_mem x hy)
      rw [List.map_cons, List.mapM_cons, hx, hxs]
      rfl

/-- A sequence of things that are each read back is read back. -/
theorem list?_map {α : Type} {read : Value → Option α} {write : α → Value} {xs : List α}
    (h : ∀ x ∈ xs, read (write x) = some x) : list? read (.seq (xs.map write)) = some xs := by
  have hlist : (xs.map write).mapM read = some (xs.map id) := mapM_map_eq_some h
  rwa [List.map_id] at hlist

@[simp] theorem text?_str (s : String) : text? (.str s) = some s := rfl

@[simp] theorem flag?_bool (b : Bool) : flag? (.bool b) = some b := rfl

@[simp] theorem texts?_texts (items : List String) : texts? (texts items) = some items :=
  list?_map fun s _ => text?_str s

/-- A whole number with a sign is in bounds. -/
@[simp] theorem int32?_toInt (n : Int32) : int32? (.int n.toInt) = some n := by
  rw [int32?, if_pos ⟨Int32.minValue_le_toInt n, Int32.toInt_le n⟩, Int32.ofInt_toInt]

@[simp] theorem uint32?_toNat (n : UInt32) : uint32? (.nat n.toNat) = some n := by
  have hbound : n.toNat < UInt32.size := n.toNat_lt
  rw [nat, uint32?, Int.toNat_natCast, if_pos ⟨Int.natCast_nonneg _, hbound⟩, UInt32.ofNat_toNat]

/-! ## Levels -/

theorem depth_pos (v : Value) : 0 < v.depth := by
  cases v <;> simp [depth]

theorem depth_le_depthOfItems {items : List Value} {v : Value} (h : v ∈ items) :
    v.depth ≤ depthOfItems items := by
  induction items with
  | nil => exact absurd h List.not_mem_nil
  | cons w items ih =>
      rw [depthOfItems]
      rcases List.mem_cons.1 h with rfl | h
      · exact Nat.le_max_left _ _
      · exact Nat.le_trans (ih h) (Nat.le_max_right _ _)

/-- What a sequence holds has fewer levels. -/
theorem depth_lt_seq {items : List Value} {v : Value} (h : v ∈ items) :
    v.depth < (Value.seq items).depth := by
  rw [depth]
  exact Nat.lt_succ_of_le (depth_le_depthOfItems h)

theorem depth_le_depthOfEntries {entries : List (Value × Value)} {k v : Value} (h : (k, v) ∈ entries) :
    v.depth ≤ depthOfEntries entries := by
  induction entries with
  | nil => exact absurd h List.not_mem_nil
  | cons e entries ih =>
      obtain ⟨k', w⟩ := e
      rw [depthOfEntries]
      rcases List.mem_cons.1 h with heq | h
      · obtain ⟨-, rfl⟩ := Prod.mk.inj heq
        exact Nat.le_max_left _ _
      · exact Nat.le_trans (ih h) (Nat.le_max_right _ _)

/-- What a record holds has fewer levels. -/
theorem depth_lt_record {fs : Fields} {name : String} {v : Value} (h : (name, v) ∈ fs) :
    v.depth < (record fs).depth := by
  rw [record, depth]
  exact Nat.lt_succ_of_le (depth_le_depthOfEntries (List.mem_map_of_mem h))

end Value

end PipelineCompiler
