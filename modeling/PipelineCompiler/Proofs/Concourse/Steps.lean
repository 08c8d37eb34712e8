import PipelineCompiler.Concourse.Rendering
import PipelineCompiler.Proofs.Script
import PipelineCompiler.Proofs.Task.Artifacts

/-!
# What steps fetch and push

A plan nests steps that run together, under limits that say nothing about what they refer to. `collect`
gathers what is referred to at any depth. `Pushes` lists every reason that a job has to push to a
resource; apart from what they fetch for triggers, the steps of a job fetch nothing and push for these
reasons only (`Works`).
-/

namespace PipelineCompiler.Concourse

/-! ## Gathering -/

namespace Step

variable {α : Type} {f : Step → Option α}

/-- What there is in steps and in those inside of them. -/
def collect (f : Step → Option α) (steps : List Step) : List α := (allOf steps).filterMap f

theorem allOf_eq_flatMap (steps : List Step) : allOf steps = steps.flatMap all := by
  induction steps with
  | nil => rw [allOf, List.flatMap_nil]
  | cons s rest ih => rw [allOf, List.flatMap_cons, ih]

theorem collect_append (f : Step → Option α) (xs ys : List Step) :
    collect f (xs ++ ys) = collect f xs ++ collect f ys := by
  simp only [collect, allOf_eq_flatMap, List.flatMap_append, List.filterMap_append]

theorem collect_eq_flatMap (f : Step → Option α) (steps : List Step) :
    collect f steps = steps.flatMap fun s => collect f [s] := by
  induction steps with
  | nil => simp [collect, allOf]
  | cons s rest ih =>
      have hcons := collect_append f [s] rest
      rw [List.singleton_append] at hcons
      rw [hcons, ih, List.flatMap_cons]

/-- The function looks at what single steps refer to, and not at their limits. -/
structure Blind (f : Step → Option α) : Prop where
  limits : ∀ s l, f (withLimits l s) = f s
  group : ∀ steps l, f (.parallel steps l) = none

theorem blind_get? : Blind get? :=
  ⟨fun s _ => by cases s <;> rfl, fun _ _ => rfl⟩

theorem blind_put? : Blind put? :=
  ⟨fun s _ => by cases s <;> rfl, fun _ _ => rfl⟩

theorem blind_task? : Blind task? :=
  ⟨fun s _ => by cases s <;> rfl, fun _ _ => rfl⟩

theorem collect_parallel (hf : Blind f) (steps : List Step) (l : Limits) :
    collect f [.parallel steps l] = collect f steps := by
  simp [collect, allOf, all, hf.group]

theorem collect_withLimits (hf : Blind f) (l : Limits) (s : Step) :
    collect f [withLimits l s] = collect f [s] := by
  have hlimits := hf.limits s l
  cases s with
  | parallel steps l' => rw [withLimits, collect_parallel hf, collect_parallel hf]
  | _ =>
      simp only [collect, allOf, all, withLimits, List.append_nil] at hlimits ⊢
      rw [List.filterMap_cons, List.filterMap_cons, hlimits]

theorem collect_together (hf : Blind f) (steps : List Step) :
    collect f (together? steps).toList = collect f steps := by
  match steps with
  | [] => rfl
  | [s] => rfl
  | s :: t :: rest => exact collect_parallel hf _ _

theorem collect_map_withLimits (hf : Blind f) (l : Limits) (s : Option Step) :
    collect f (s.map (withLimits l)).toList = collect f s.toList := by
  cases s with
  | none => rfl
  | some s => exact collect_withLimits hf l s

theorem collect_map_asTransfer (hf : Blind f) (s : Option Step) :
    collect f (s.map asTransfer).toList = collect f s.toList :=
  collect_map_withLimits hf _ s

end Step

/-! ## Reasons to push -/

/-- Why the job of a leaf pushes to a resource. -/
inductive Pushes (resources : ResourceSet) (l : Leaf) : Put → Prop where
  | artifacts (params : Settings) (h : l.savesArtifacts = true) :
      Pushes resources l { name := savedName, params }
  | artifactsOnFailure (params : Settings) (h : l.savesArtifactsOnFailure = true) :
      Pushes resources l { name := savedOnFailureName, params }
  | message (params : Settings) (h : l.usesNotifications = true) :
      Pushes resources l { name := slackName, params }
  | version (params : Settings) (h : l.isUpdate = true) :
      Pushes resources l { name := versionName, params }
  | tag (params : Settings) (h : l.isUpdate = true) :
      Pushes resources l { name := gitName, params }
  | stage (stage : CloudFoundry.Stage) (params : Settings) (d : DeployCf) (prePromote : List Task)
      (r : Resource) (haction : l.action = .deployCf d prePromote)
      (hr : resources.deploy? d = some r) :
      Pushes resources l { name := stage.name, target := some r.name, params }

/-- The steps fetch nothing, and push for the reasons of the leaf only. -/
structure Works (resources : ResourceSet) (l : Leaf) (steps : List Step) : Prop where
  gets : Step.collect Step.get? steps = []
  puts : ∀ q ∈ Step.collect Step.put? steps, Pushes resources l q

namespace Works

variable {resources : ResourceSet} {l : Leaf} {xs ys : List Step}

theorem nil : Works resources l [] := ⟨rfl, nofun⟩

theorem append (hx : Works resources l xs) (hy : Works resources l ys) :
    Works resources l (xs ++ ys) := by
  constructor
  · rw [Step.collect_append, hx.gets, hy.gets, List.append_nil]
  · intro q hq
    rw [Step.collect_append] at hq
    exact (List.mem_append.1 hq).elim (hx.puts q) (hy.puts q)

theorem of_forall (h : ∀ s ∈ xs, Works resources l [s]) : Works resources l xs := by
  constructor
  · rw [Step.collect_eq_flatMap, List.flatMap_eq_nil_iff]
    exact fun s hs => (h s hs).gets
  · intro q hq
    rw [Step.collect_eq_flatMap] at hq
    obtain ⟨s, hs, hq⟩ := List.mem_flatMap.1 hq
    exact (h s hs).puts q hq

theorem of_mem {s : Step} (h : Works resources l xs) (hs : s ∈ xs) : Works resources l [s] := by
  obtain ⟨hgets, hputs⟩ := h
  rw [Step.collect_eq_flatMap] at hgets hputs
  exact ⟨List.flatMap_eq_nil_iff.1 hgets s hs, fun q hq => hputs q (List.mem_flatMap.2 ⟨s, hs, hq⟩)⟩

theorem ite {P : Prop} [Decidable P] (h : P → Works resources l xs) :
    Works resources l (if P then xs else []) := by
  split
  · exact h ‹P›
  · exact nil

theorem task {t : TaskStep} {limits : Limits} : Works resources l [.task t limits] :=
  ⟨rfl, nofun⟩

theorem put {q : Put} {limits : Limits} (h : Pushes resources l q) :
    Works resources l [.put q limits] := by
  refine ⟨rfl, fun p hp => ?_⟩
  obtain rfl : p = q := by simpa [Step.collect, Step.allOf, Step.all, Step.put?] using hp
  exact h

theorem withLimits {s : Step} {limits : Limits} (h : Works resources l [s]) :
    Works resources l [s.withLimits limits] := by
  constructor
  · rw [Step.collect_withLimits Step.blind_get?, h.gets]
  · rw [Step.collect_withLimits Step.blind_put?]
    exact h.puts

theorem asTransfer {s : Step} (h : Works resources l [s]) : Works resources l [s.asTransfer] :=
  h.withLimits

theorem forLeaf {s : Step} {l' : Leaf} (h : Works resources l [s]) :
    Works resources l [s.forLeaf l'] :=
  h.withLimits

theorem map_forLeaf {l' : Leaf} (h : Works resources l xs) :
    Works resources l (xs.map fun s => s.forLeaf l') := by
  refine of_forall fun s hs => ?_
  obtain ⟨t, ht, rfl⟩ := List.mem_map.1 hs
  exact (h.of_mem ht).forLeaf

theorem flatMap {α : Type} {f : α → List Step} {as : List α} (h : ∀ a ∈ as, Works resources l (f a)) :
    Works resources l (as.flatMap f) := by
  refine of_forall fun s hs => ?_
  obtain ⟨a, ha, hs⟩ := List.mem_flatMap.1 hs
  exact (h a ha).of_mem hs

theorem together (h : Works resources l xs) : Works resources l (Step.together? xs).toList := by
  constructor
  · rw [Step.collect_together Step.blind_get?, h.gets]
  · rw [Step.collect_together Step.blind_put?]
    exact h.puts

theorem map_asTransfer {s : Option Step} (h : Works resources l s.toList) :
    Works resources l (s.map Step.asTransfer).toList := by
  cases s with
  | none => exact h
  | some s => exact h.asTransfer

end Works

end PipelineCompiler.Concourse
