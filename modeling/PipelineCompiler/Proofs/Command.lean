import PipelineCompiler.Execution
import PipelineCompiler.Proofs.Agreement

/-!
# No command is refused

Building a pipeline can fail: on a misplaced group, on a leaf that does not run as a script, on a check
of such a kind. The linters see the manifest as it was written and the build servers with its defaults,
so that the rules have to say enough about the one for the other. They do: whatever the manifest, the
command that writes its pipeline has an answer, and ends with the status that the linters lead to.
-/

namespace PipelineCompiler

variable {c : Config} {s : Surroundings} {m : Manifest}

/-! ## Documents -/

/-- Of a pipeline for either build server the one that a manifest asks for, as a value. -/
def Manifest.chosen (m : Manifest) (p : Concourse.Pipeline) (w : Actions.Workflow) : Value :=
  match m.platform with
  | .concourse => p.toValue
  | .actions => w.toValue

/-- A manifest that both build servers render has a document: the header, and the pipeline for the one
that it asks for. -/
theorem Manifest.document?_eq_ok {p : Concourse.Pipeline} {w : Actions.Workflow}
    (hp : Concourse.render c m = .ok p) (hw : Actions.render c m = .ok w) :
    m.document? c = .ok (Config.header c.version ++ "\n" ++ Yaml.render (m.chosen p w)) := by
  have hpipeline : m.pipeline? c = .ok (m.chosen p w) := by
    unfold Manifest.pipeline? Manifest.chosen
    cases m.platform with
    | concourse =>
        rw [hp]
        rfl
    | actions =>
        rw [hw]
        rfl
  rw [Manifest.document?, hpipeline]
  rfl

/-- Defaults do not choose between the build servers. -/
theorem Manifest.chosen_withDefaults (m : Manifest) (p : Concourse.Pipeline) (w : Actions.Workflow) :
    m.withDefaults.chosen p w = m.chosen p w := by
  rw [m.withDefaults_eq]
  rfl

/-- A manifest that can be rendered has a document. -/
theorem Manifest.Renderable.exists_document? (c : Config) (h : m.Renderable) :
    ∃ document, m.document? c = .ok document := by
  obtain ⟨p, w, hp, hw, -⟩ := agree_of_renderable c h
  exact ⟨_, Manifest.document?_eq_ok hp hw⟩

/-! ## Commands -/

/-- Compiling a manifest comes to its reports, and to a document unless the linters found an error. -/
theorem compile_eq_ok (c : Config) (s : Surroundings) (m : Manifest) :
    ∃ document, compile c s m = .ok ⟨Lint.run c s m, document⟩
      ∧ (Lint.hasErrors (Lint.run c s m) = true ∧ document = none
        ∨ Lint.hasErrors (Lint.run c s m) = false
          ∧ ∃ text, m.withDefaults.document? c = .ok text ∧ document = some text) := by
  by_cases h : Lint.hasErrors (Lint.run c s m) = true
  · refine ⟨none, ?_, .inl ⟨h, rfl⟩⟩
    rw [compile, if_pos h]
    rfl
  · rw [Bool.not_eq_true] at h
    obtain ⟨text, htext⟩ := (Lint.renderable_of_accepted h).withDefaults.exists_document? c
    refine ⟨some text, ?_, .inr ⟨h, text, htext, rfl⟩⟩
    rw [compile, if_neg (Bool.eq_false_iff.1 h), htext]
    rfl

/-- Showing reports ends with the status that they lead to, as text or as JSON. -/
theorem run_lint (c : Config) (s : Surroundings) (m : Manifest) (json : Bool) :
    ∃ out, (Command.lint json).run c s m = .ok out ∧ out.exitCode = exitCodeOf (Lint.run c s m) := by
  cases json
  · exact ⟨_, rfl, rfl⟩
  · exact ⟨_, rfl, rfl⟩

/-- Every command has an answer. -/
theorem exists_run_eq_ok (c : Config) (s : Surroundings) (m : Manifest) (command : Command) :
    ∃ out, command.run c s m = .ok out := by
  cases command with
  | lint json =>
      obtain ⟨out, hout, -⟩ := run_lint c s m json
      exact ⟨out, hout⟩
  | render =>
      obtain ⟨document, hcompile, -⟩ := compile_eq_ok c s m
      exact ⟨_, by rw [Command.run, hcompile]; rfl⟩

/-- Writing the pipeline of a manifest ends like the linters do: with its document, or without anything
to read. A manifest without lint errors is refused by neither build server, and its document is the header
and the pipeline for the one that it asks for. -/
theorem run_render (c : Config) (s : Surroundings) (m : Manifest) :
    ∃ out, Command.render.run c s m = .ok out
      ∧ (∀ json, ∃ shown, (Command.lint json).run c s m = .ok shown ∧ shown.exitCode = out.exitCode)
      ∧ (Lint.hasErrors (Lint.run c s m) = true ∧ out.exitCode = 1 ∧ out.stdout = ""
        ∨ Lint.hasErrors (Lint.run c s m) = false ∧ out.exitCode = 0
          ∧ m.withDefaults.document? c = .ok out.stdout
          ∧ Task.checkShape m.withDefaults.tasks = .ok ()
          ∧ ∃ p w, Concourse.render c m.withDefaults = .ok p
            ∧ Actions.render c m.withDefaults = .ok w
            ∧ out.stdout = Config.header c.version ++ "\n" ++ Yaml.render (m.chosen p w)) := by
  obtain ⟨document, hcompile, houtcome⟩ := compile_eq_ok c s m
  have hrun : Command.render.run c s m = .ok (showCompilation c ⟨Lint.run c s m, document⟩) := by
    rw [Command.run, hcompile]
    rfl
  refine ⟨_, hrun, fun json => ?status, ?outcome⟩
  case status =>
    obtain ⟨shown, hshown, hexit⟩ := run_lint c s m json
    refine ⟨shown, hshown, hexit.trans ?_⟩
    rw [exitCodeOf]
    obtain ⟨h, rfl⟩ | ⟨h, text, -, rfl⟩ := houtcome
    · rw [if_pos h]
      rfl
    · rw [if_neg (Bool.eq_false_iff.1 h)]
      rfl
  case outcome =>
    obtain ⟨h, rfl⟩ | ⟨h, text, htext, rfl⟩ := houtcome
    · exact .inl ⟨h, rfl, rfl⟩
    · have hrenderable := (Lint.renderable_of_accepted h).withDefaults
      obtain ⟨p, w, hp, hw, -⟩ := agree_of_renderable c hrenderable
      have hdocument := Except.ok.inj (htext.symm.trans (Manifest.document?_eq_ok hp hw))
      rw [Manifest.chosen_withDefaults] at hdocument
      exact .inr ⟨h, rfl, htext, Task.checkShape_eq_ok.2 hrenderable.stages, p, w, hp, hw, hdocument⟩

/-! ## Invocations -/

section Invocation

variable {i : CommandLine.Invocation} {d : Disk} {cwd : String}

/-- The configuration is put together before any pipeline is asked for. -/
theorem configuration_ne_render (e : RenderError) : i.configuration d cwd ≠ .error (.render e) := by
  intro h
  rw [CommandLine.Invocation.configuration] at h
  cases hconfig : i.config with
  | none =>
      rw [hconfig] at h
      exact absurd h nofun
  | some path =>
      rw [hconfig] at h
      rcases bind_eq_error.1 h with h | ⟨text, -, h⟩
      · simp [mapError_eq_error] at h
      · cases hc : Config.ofText? text with
        | none =>
            rw [hc] at h
            exact absurd h nofun
        | some c =>
            rw [hc] at h
            exact absurd h nofun

/-- An invocation without output was not understood or did not find what it is about: no pipeline that
it asks for is refused. -/
theorem exitCode_of_execute {f : Failure} (h : i.execute d cwd = .error f) : f.exitCode = 2 := by
  cases f with
  | render e =>
      unfold CommandLine.Invocation.execute at h
      rcases bind_eq_error.1 h with h | ⟨c, -, h⟩
      · exact absurd h (configuration_ne_render e)
      rcases bind_eq_error.1 h with h | ⟨path, -, h⟩
      · simp [mapError_eq_error] at h
      rcases bind_eq_error.1 h with h | ⟨m, -, h⟩
      · simp [mapError_eq_error] at h
      rcases bind_eq_error.1 h with h | ⟨project, -, h⟩
      · simp [mapError_eq_error] at h
      obtain ⟨out, hout⟩ := exists_run_eq_ok c (d.surroundings (CommandLine.Invocation.parentOf path))
        (project.applyTo { m with platform := i.platform.getD m.platform }) i.command
      rw [hout] at h
      simp [Except.mapError] at h
  | _ => rfl

end Invocation

end PipelineCompiler
