import PipelineCompiler.Actions.Rendering
import PipelineCompiler.Proofs.Actions.References

/-!
# References on the runner

How texts of a manifest are put into the environments and the inputs of steps: as paths, as arguments of a
shell, or with their secrets read. What is free of a reference stays free of it, and what is a reference is
so after its secret has been read (`free_readSecret_of_isReference`).
-/

namespace PipelineCompiler

open Secret

/-- The texts in a setting. -/
def Setting.strings : Setting → List String
  | .text s => [s]
  | .texts items => items
  | .table entries => entries.map Prod.snd
  | .flag _ | .number _ => []

namespace Actions

/-! ## Texts of a workflow -/

/-- The values in the environment of a step, and the texts in its inputs. -/
def Step.texts (s : Step) : List String := s.env.map Prod.snd ++ s.inputs.flatMap fun e => e.2.strings

/-- The values in the environment of a job, and the texts of its steps. -/
def Job.texts (j : Job) : List String := j.env.map Prod.snd ++ j.steps.flatMap Step.texts

/-- The values in the environment of a workflow, and the texts of its jobs. -/
def Workflow.texts (w : Workflow) : List String := w.env.map Prod.snd ++ w.jobs.flatMap Job.texts

/-! ## Texts on the runner -/

section Free

variable {r : String} (hr : isReference r = true)
include hr

theorem free_expression {text : String} (h : Free r text) : Free r (expression text) :=
  free_append_right hr (free_append_left hr (by decide) h) (by decide)

theorem free_toString (n : Nat) : Free r (toString n) := by
  refine free_of_not_mem hr fun hmem => ?_
  have hdigit := Nat.isDigit_of_mem_toDigits (by omega) (by omega) (Nat.toList_repr ▸ hmem)
  exact absurd hdigit (by decide)

omit hr in
/-- No name that a secret is kept under has a parenthesis. -/
theorem paren_not_mem_secretName (map key : List Char) : '(' ∉ (secretName map key).toList := by
  rw [secretName, String.toList_append, List.mem_append, not_or]
  refine ⟨by decide, fun hmem => ?_⟩
  rw [String.toList_ofList] at hmem
  obtain ⟨c, -, hc⟩ := List.mem_map.1 hmem
  have hchar := isSecretChar_secretNameChar c
  rw [hc] at hchar
  exact absurd hchar (by decide)

theorem free_secret (map key : List Char) :
    Free r (expression ("secrets." ++ secretName map key)) := by
  refine free_expression hr (free_append_left hr (by decide) ?_)
  exact free_of_not_mem hr (paren_not_mem_secretName map key)

theorem free_repoPath {basePath path : String} (hbase : Free r basePath) (hpath : Free r path) :
    Free r (repoPath basePath path) := by
  unfold repoPath
  dsimp only
  split
  · exact free_of_const hr (by decide)
  · refine free_pathText hr fun s hs => ?_
    obtain ⟨p, hp, hs⟩ := Path.exists_of_mem_resolve ((List.dropWhile_sublist _).subset hs)
    have hinfix := Text.infix_of_mem_splitWhen hs
    simp only [List.mem_cons, List.not_mem_nil, or_false] at hp
    rcases hp with rfl | rfl
    · exact hbase.of_infix (by rwa [String.toList_ofList])
    · exact hpath.of_infix (by rwa [String.toList_ofList])

theorem free_shellArgs {dir command : String} (hdir : Free r dir) (hcommand : Free r command) :
    Free r (shellArgs dir command) := by
  have hquoted : Free r (Text.replaceChar '"' "\\\"" command) :=
    free_replaceChar hr (by decide) (by decide) (by decide) hcommand
  unfold shellArgs
  dsimp only
  split
  · exact free_append_right hr (free_append_left hr (by decide) hquoted) (by decide)
  · refine free_append_right hr (free_append_bar hr (by decide) ?_ hquoted) (by decide)
    exact free_append_left hr (by decide) hdir

theorem free_command {script : String} (h : Free r script) : Free r (Script.command script) := by
  unfold Script.command
  split
  · next c rest heq =>
      split
      · exact h.of_infix (by rw [String.toList_ofList, heq]; exact (List.suffix_cons c rest).isInfix)
      · split
        · exact h
        · exact free_append_left hr (by decide) h
  · exact free_of_const hr (by decide)

omit hr in
theorem free_registryHost {image host : String} (himage : Free r image)
    (h : registryHost? image = some host) : Free r host := by
  simp only [registryHost?, bind, Option.bind_eq_some_iff] at h
  obtain ⟨⟨first, rest⟩, hsplit, h⟩ := h
  dsimp only at h
  split at h
  · simp at h
  · obtain rfl := Option.some.inj h
    obtain ⟨⟨before, after⟩, hcut, heq⟩ := Option.map_eq_some_iff.1 hsplit
    obtain ⟨rfl, -⟩ := Prod.mk.inj heq
    refine himage.of_infix ?_
    rw [String.toList_ofList, (Text.cutFirst_eq_some.1 hcut).1]
    exact (List.prefix_append before _).isInfix

theorem free_readSecret {v : String} (h : Free r v) : Free r (readSecret v) := by
  unfold readSecret
  split
  · next map key hparts => exact free_secret hr map key
  · exact h

theorem free_readSecret_of_isReference {v : String} (h : isReference v = true) :
    Free r (readSecret v) := by
  obtain ⟨⟨map, key⟩, hparts⟩ := Option.isSome_iff_exists.1 h
  rw [readSecret, referenceParts?_of_parts? hparts]
  exact free_secret hr map key

end Free

/-- The values of variables. -/
def varValues (vars : Vars) : List String := vars.entries.map Prod.snd

/-! ## Free environments and inputs -/

/-- The values in the environment are free. -/
def EnvFree (r : String) (env : Env) : Prop := ∀ e ∈ env, Free r e.2

/-- The texts in the inputs are free. -/
def InputsFree (r : String) (inputs : Settings) : Prop := ∀ e ∈ inputs, ∀ t ∈ e.2.strings, Free r t

/-- The texts of the step are free. -/
structure Step.IsFree (r : String) (s : Step) : Prop where
  env : EnvFree r s.env
  inputs : InputsFree r s.inputs

/-- The texts of the steps are free. -/
def StepsFree (r : String) (steps : List Step) : Prop := ∀ s ∈ steps, s.IsFree r

section Lists

variable {r name value : String} {env more : Env} {inputs : Settings} {t : String} {s : Step}
  {steps : List Step}

@[simp] theorem envFree_nil : EnvFree r [] := nofun

@[simp] theorem envFree_cons {e : String × String} :
    EnvFree r (e :: env) ↔ Free r e.2 ∧ EnvFree r env := List.forall_mem_cons

@[simp] theorem envFree_append : EnvFree r (env ++ more) ↔ EnvFree r env ∧ EnvFree r more :=
  List.forall_mem_append

/-- What is put into an environment comes last or goes over what is there. -/
theorem mem_put {e : String × String} (h : e ∈ put env name value) : e ∈ env ∨ e = (name, value) := by
  induction env with
  | nil => exact .inr (List.mem_singleton.1 h)
  | cons f env ih =>
      rw [put] at h
      split at h
      · rcases List.mem_cons.1 h with h | h
        · exact .inr h
        · exact .inl (List.mem_cons_of_mem f h)
      · rcases List.mem_cons.1 h with h | h
        · exact .inl (h ▸ List.mem_cons_self)
        · exact (ih h).imp_left (List.mem_cons_of_mem f)

theorem mem_put_self (env : Env) (name value : String) : (name, value) ∈ put env name value := by
  induction env with
  | nil => exact List.mem_singleton.2 rfl
  | cons f env ih =>
      rw [put]
      split
      · exact List.mem_cons_self
      · exact List.mem_cons_of_mem f ih

theorem EnvFree.put (henv : EnvFree r env) (hvalue : Free r value) : EnvFree r (put env name value) := by
  intro e he
  rcases mem_put he with he | rfl
  · exact henv e he
  · exact hvalue

theorem EnvFree.putAll (henv : EnvFree r env) (hmore : EnvFree r more) : EnvFree r (putAll env more) := by
  induction more generalizing env with
  | nil => exact henv
  | cons e more ih =>
      obtain ⟨hvalue, hmore⟩ := envFree_cons.1 hmore
      exact ih (henv.put hvalue) hmore

@[simp] theorem inputsFree_nil : InputsFree r [] := nofun

@[simp] theorem inputsFree_text :
    InputsFree r ((name, .text t) :: inputs) ↔ Free r t ∧ InputsFree r inputs := by
  simp [InputsFree, Setting.strings]

@[simp] theorem inputsFree_flag {b : Bool} :
    InputsFree r ((name, .flag b) :: inputs) ↔ InputsFree r inputs := by
  simp [InputsFree, Setting.strings]

@[simp] theorem inputsFree_append {xs ys : Settings} :
    InputsFree r (xs ++ ys) ↔ InputsFree r xs ∧ InputsFree r ys := List.forall_mem_append

@[simp] theorem inputsFree_ofTexts : InputsFree r (.ofTexts env) ↔ EnvFree r env := by
  constructor
  · intro h e he
    exact h (e.1, .text e.2) (List.mem_map_of_mem he) e.2 (List.mem_singleton.2 rfl)
  · intro h e he t ht
    obtain ⟨e', he', rfl⟩ := List.mem_map.1 he
    rw [List.mem_singleton.1 ht]
    exact h e' he'

@[simp] theorem stepsFree_nil : StepsFree r [] := nofun

@[simp] theorem stepsFree_cons : StepsFree r (s :: steps) ↔ s.IsFree r ∧ StepsFree r steps :=
  List.forall_mem_cons

@[simp] theorem stepsFree_append {xs ys : List Step} :
    StepsFree r (xs ++ ys) ↔ StepsFree r xs ∧ StepsFree r ys := List.forall_mem_append

theorem stepsFree_ite {p : Prop} [Decidable p] {xs ys : List Step} (hx : p → StepsFree r xs)
    (hy : ¬ p → StepsFree r ys) : StepsFree r (if p then xs else ys) := by
  by_cases h : p
  · rw [if_pos h]
    exact hx h
  · rw [if_neg h]
    exact hy h

theorem Step.IsFree.texts (h : s.IsFree r) : ∀ t ∈ s.texts, Free r t := by
  intro t ht
  rcases List.mem_append.1 ht with ht | ht
  · obtain ⟨e, he, rfl⟩ := List.mem_map.1 ht
    exact h.env e he
  · obtain ⟨e, he, ht⟩ := List.mem_flatMap.1 ht
    exact h.inputs e he t ht

theorem envFree_secretEnv {vars : Vars} (h : ∀ v ∈ varValues vars, Free r (readSecret v)) :
    EnvFree r (secretEnv vars) := by
  intro e he
  obtain ⟨⟨name, v⟩, hv, rfl⟩ := List.mem_map.1 he
  exact h v (List.mem_map_of_mem (f := Prod.snd) hv)

end Lists

end Actions

end PipelineCompiler
