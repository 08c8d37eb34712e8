import PipelineCompiler.Proofs.Lint.Accepted
import PipelineCompiler.Proofs.Manifest.Messages
import PipelineCompiler.Proofs.Path.Resolution
import PipelineCompiler.Script

/-!
# Readings of a script

The text of a script is read three times. The rules go by its first word, the command that runs it by its
first characters, and a leaf without a name of its own is named for all of it. `readings_of_clean` says for
which of the scripts that the rules have nothing against these readings agree: the first two do not where
the text begins with a blank, and the name is not the script without its leading `./` where a `./` stands
further inside only.
-/

namespace PipelineCompiler

/-! ## The reading of the rules -/

namespace Lint

/-- The word names a command of the image. -/
def namesCommand (word : String) : Bool := (Text.dropStart? word "\\").isSome

/-- How the rules read a script that they have nothing against: by its first word, which names a command
of the image or else a file that can be executed. -/
structure Reads (r : Run) (files : FileProbe) (word : String) : Prop where
  first : (Text.words r.script).head? = some word
  warned : (runFindings r files).warnings ≠ [] ↔ namesCommand word = true
  usable : namesCommand word = false → fileFaults files word true = []

theorem exists_reads {r : Run} {files : FileProbe} (h : (runFindings r files).Clean) :
    ∃ word, Reads r files word := by
  cases hwords : Text.words r.script with
  | nil =>
      rw [runFindings, hwords, Findings.clean_append] at h
      exact absurd (Findings.clean_ofErrors.1 h.1) (List.cons_ne_nil _ _)
  | cons word rest =>
      refine ⟨word, by rw [hwords]; rfl, ?_, ?_⟩
      · rw [runFindings, hwords, namesCommand, Findings.warnings_append]
        cases hmark : Text.dropStart? word "\\" with
        | none => simp [hmark, Findings.ofErrors]
        | some inImage => simp [hmark, Findings.ofWarnings]
      · intro hfile
        rw [namesCommand, Option.isSome_eq_false_iff, Option.isNone_iff_eq_none] at hfile
        rw [runFindings, hwords, Findings.clean_append] at h
        simpa only [hfile, Findings.clean_ofErrors] using h.1

end Lint

/-! ## The reading of the command -/

namespace Script

/-- The script is run as a command of the image: it is the mark and what is run. -/
def IsInline (script : String) : Prop := script = inline (command script)

instance (script : String) : Decidable (IsInline script) := by unfold IsInline; infer_instance

theorem isInline_iff {script : String} : IsInline script ↔ script.toList.head? = some inlineMark := by
  constructor
  · intro h
    rw [IsInline, inline] at h
    rw [h, String.toList_append, String.toList_singleton]
    rfl
  · intro h
    obtain ⟨rest, hrest⟩ := List.head?_eq_some_iff.1 h
    rw [IsInline, ← String.toList_inj, inline, command, hrest]
    simp

/-- A script that is no command of the image is run as the file that it names. -/
theorem command_file {script : String} (h : ¬ IsInline script) :
    command script
      = if ["./", "../", "/"].any (Text.startsWith script) then script else "./" ++ script := by
  rw [isInline_iff] at h
  rw [command]
  cases hcs : script.toList with
  | nil => simp [Text.startsWith, Text.afterStart?, String.toList_eq_nil_iff.1 hcs]
  | cons c rest =>
      rw [hcs, List.head?_cons, Option.some.injEq] at h
      dsimp only
      rw [if_neg h]

/-- A path is the same with `./` ahead of it. -/
theorem join_here (path : String) : Path.join ["./" ++ path] = Path.join [path] := by
  rw [Path.join, Path.join, Path.resolve, Path.resolve]
  simp only [List.map_singleton, List.flatMap_singleton]
  rw [String.toList_append, show "./".toList ++ path.toList = ['.'] ++ '/' :: path.toList from rfl,
    Path.segments_append_slash, List.foldl_append]
  rfl

/-! ## Agreement -/

/-- The text begins with a blank. -/
def beginsBlank (script : String) : Bool := script.toList.head?.any Text.isBlank

/-- The command that runs the script goes by the word as the rules do: both take it for a command of the
image, or the first word of the command leads to the file that the word names. -/
structure ReadAlike (script word : String) : Prop where
  inline : IsInline script ↔ Lint.namesCommand word = true
  file : Lint.namesCommand word = false →
    ∃ first, (Text.words (command script)).head? = some first ∧ Path.join [first] = Path.join [word]

theorem namesCommand_iff {word : String} :
    Lint.namesCommand word = true ↔ word.toList.head? = some inlineMark := by
  rw [Lint.namesCommand, Text.dropStart?, Option.isSome_map, Option.isSome_iff_exists,
    List.head?_eq_some_iff]
  exact exists_congr fun rest => Text.afterStart?_eq_some

theorem not_blank_here : ∀ c ∈ "./".toList, Text.isBlank c = false := by
  rw [show "./".toList = ['.', '/'] from rfl]
  exact List.forall_mem_cons.2 ⟨by decide, List.forall_mem_singleton.2 (by decide)⟩

/-- A script that does not begin with a blank is read alike. -/
theorem readAlike_of_word {script word : String} (hfirst : (Text.words script).head? = some word)
    (hstart : beginsBlank script = false) : ReadAlike script word := by
  obtain ⟨rest, hscript, hne, hword, hrest⟩ := Text.exists_of_head?_words hfirst fun c hc => by
    simpa [beginsBlank, hc] using hstart
  have hinline : IsInline script ↔ Lint.namesCommand word = true := by
    rw [isInline_iff, namesCommand_iff, hscript, List.head?_append_of_ne_nil _ hne]
  refine ⟨hinline, fun hfile => ?_⟩
  rw [command_file fun h => by simp [hinline.1 h] at hfile]
  split
  · exact ⟨word, hfirst, rfl⟩
  · refine ⟨"./" ++ word, ?_, join_here word⟩
    have hcommand : ("./" ++ script).toList = "./".toList ++ word.toList ++ rest := by
      rw [String.toList_append, hscript, List.append_assoc]
    rw [Text.head?_words hcommand (by simp) ?_ hrest, String.ofList_append, String.ofList_toList,
      String.ofList_toList]
    exact List.forall_mem_append.2 ⟨not_blank_here, hword⟩

/-- A script with a blank at its start is run as the file `./`, whatever follows. -/
theorem head?_words_command {script : String} (hstart : beginsBlank script = true) :
    ¬ IsInline script ∧ (Text.words (command script)).head? = some "./" := by
  rw [beginsBlank, Option.any_eq_true_iff_get] at hstart
  obtain ⟨hsome, hblank⟩ := hstart
  obtain ⟨c, rest, hcs⟩ := List.exists_cons_of_ne_nil (List.isSome_head?.1 hsome)
  have hc : Text.isBlank c = true := by simpa [hcs] using hblank
  have hne {d : Char} (hd : Text.isBlank d = false) : d ≠ c := by
    rintro rfl
    rw [hc] at hd
    cases hd
  have hfile : ¬ IsInline script := by
    rw [isInline_iff, hcs, List.head?_cons, Option.some.injEq]
    exact Ne.symm (hne (by decide))
  have hcommand : command script = "./" ++ script := by
    rw [command_file hfile, if_neg]
    simp [Text.startsWith, hcs, Text.afterStart?, hne (d := '.') (by decide), hne (d := '/') (by decide)]
  have hrest : ∀ d, script.toList.head? = some d → Text.isBlank d = true := by
    intro d hd
    rw [hcs, List.head?_cons, Option.some.injEq] at hd
    rwa [← hd]
  have hfirst := Text.head?_words (String.toList_append ..) (by simp) not_blank_here hrest
  rw [String.ofList_toList] at hfirst
  exact ⟨hfile, hcommand ▸ hfirst⟩

/-- A script with a blank at its start is read alike only where the rules look for the directory itself. -/
theorem readAlike_of_blank {script word : String} (hstart : beginsBlank script = true) :
    ReadAlike script word ↔ Lint.namesCommand word = false ∧ Path.join [word] = "" := by
  obtain ⟨hfile, hfirst⟩ := head?_words_command hstart
  constructor
  · intro h
    have hword : Lint.namesCommand word = false := by
      by_contra hcommand
      exact hfile (h.inline.2 (by simpa using hcommand))
    obtain ⟨first, hhead, hjoin⟩ := h.file hword
    rw [hfirst, Option.some.injEq] at hhead
    refine ⟨hword, ?_⟩
    rw [← hjoin, ← hhead]
    decide
  · rintro ⟨hword, hjoin⟩
    refine ⟨iff_of_false hfile (by simp [hword]), fun _ => ⟨"./", hfirst, ?_⟩⟩
    rw [hjoin]
    decide

theorem readAlike_iff {script word : String} (hfirst : (Text.words script).head? = some word) :
    ReadAlike script word
      ↔ beginsBlank script = false ∨ (Lint.namesCommand word = false ∧ Path.join [word] = "") := by
  cases hstart : beginsBlank script with
  | false => simp [readAlike_of_word hfirst hstart]
  | true => simp [readAlike_of_blank hstart]

/-! ## The name -/

/-- The script without a `./` at its start. -/
def withoutHere (script : String) : String := (Text.dropStart? script "./").getD script

/-- The first `./` is the one at the start just if none stands anywhere or one stands there. -/
theorem replaceFirst_here_iff {script : String} :
    Text.replaceFirst "./" "" script = withoutHere script
      ↔ ("./".toList <:+: script.toList → "./".toList <+: script.toList) := by
  cases hdrop : Text.dropStart? script "./" with
  | some rest =>
      obtain rfl := Text.dropStart?_eq_some.1 hdrop
      refine iff_of_true ?_ fun _ => ?_
      · rw [Text.replaceFirst, String.toList_append, Text.cutAt_append, withoutHere, hdrop]
        simp
      · rw [String.toList_append]
        exact List.prefix_append _ _
  | none =>
      rw [withoutHere, hdrop, Option.getD_none, imp_iff_not (Text.dropStart?_eq_none.1 hdrop),
        ← Text.cutAt_eq_none, Text.replaceFirst]
      cases hcut : Text.cutAt "./".toList script.toList with
      | none => exact iff_of_true rfl rfl
      | some parts =>
          obtain ⟨before, after⟩ := parts
          refine iff_of_false (fun heq => ?_) (Option.some_ne_none _)
          have hshorter : (before ++ after).length < script.toList.length := by
            have hpattern : 0 < "./".toList.length := by decide
            rw [Text.eq_of_cutAt hcut]
            simp only [List.length_append]
            omega
          rw [← heq] at hshorter
          simp at hshorter

end Script

/-! ## Scripts that the rules accept -/

namespace Lint

open Script

/-- What runs a script that the rules have nothing against goes by the word that they have looked at, just
if the script does not begin with a blank or the word leads back to the directory that it is looked up in. A
leaf without a name of its own is named for the script without a `./` at its start, just if none stands
further inside only. -/
theorem readings_of_clean (r : Run) (files : FileProbe) (h : (runFindings r files).Clean) :
    ∃ word, Reads r files word
      ∧ (ReadAlike r.script word
        ↔ beginsBlank r.script = false ∨ (namesCommand word = false ∧ Path.join [word] = ""))
      ∧ ∀ a : Attributes, a.name = "" →
        ((⟨a, .run r⟩ : Leaf).name = "run " ++ withoutHere r.script
          ↔ ("./".toList <:+: r.script.toList → "./".toList <+: r.script.toList)) := by
  obtain ⟨word, hreads⟩ := exists_reads h
  refine ⟨word, hreads, readAlike_iff hreads.first, fun a ha => ?_⟩
  rw [LeafOf.name, ha, orElse_blank_left, String.append_right_inj]
  exact replaceFirst_here_iff

/-- A script in an image. -/
def runOf (script : String) : Run := { script, docker := { image := "alpine" } }

/-- The script is read alike and named without its `./`, and the one of the argument stays. -/
theorem argument_read :
    (runFindings (runOf "./build.sh --out ./dist") sampleSurroundings.files).Clean
      ∧ Reads (runOf "./build.sh --out ./dist") sampleSurroundings.files "./build.sh"
      ∧ ReadAlike "./build.sh --out ./dist" "./build.sh"
      ∧ (⟨{}, .run (runOf "./build.sh --out ./dist")⟩ : Leaf).name = "run build.sh --out ./dist" := by
  have hclean : (runFindings (runOf "./build.sh --out ./dist") sampleSurroundings.files).Clean := by
    decide
  obtain ⟨word, hreads, halike, hname⟩ := readings_of_clean _ _ hclean
  have hfirst : (Text.words (runOf "./build.sh --out ./dist").script).head? = some "./build.sh" := by
    decide
  obtain rfl : word = "./build.sh" := Option.some.inj (hreads.first.symm.trans hfirst)
  refine ⟨hclean, hreads, halike.2 (.inl (by decide)), ((hname {} rfl).2 fun _ => by decide).trans ?_⟩
  decide

/-- The rules take an indented command for one of the image, and it is run as a file. A script above the
directory loses its first `./`, in the middle of the name. -/
theorem indented_misread :
    (runFindings (runOf " \\make test") sampleSurroundings.files).Clean
      ∧ Reads (runOf " \\make test") sampleSurroundings.files "\\make"
      ∧ namesCommand "\\make" = true
      ∧ ¬ ReadAlike " \\make test" "\\make"
      ∧ command " \\make test" = "./ \\make test"
      ∧ (runFindings (runOf "../ci/build.sh") sampleSurroundings.files).Clean
      ∧ (⟨{}, .run (runOf "../ci/build.sh")⟩ : Leaf).name = "run .ci/build.sh"
      ∧ "run " ++ withoutHere "../ci/build.sh" = "run ../ci/build.sh" := by
  have hclean : (runFindings (runOf " \\make test") sampleSurroundings.files).Clean := by decide
  obtain ⟨word, hreads⟩ := exists_reads hclean
  have hfirst : (Text.words (runOf " \\make test").script).head? = some "\\make" := by decide
  obtain rfl : word = "\\make" := Option.some.inj (hreads.first.symm.trans hfirst)
  have hcommand : namesCommand "\\make" = true := by decide
  have hfile : ¬ IsInline " \\make test" := by decide
  refine ⟨hclean, hreads, hcommand, fun hread => ?_, by decide, by decide, by decide, by decide⟩
  exact hfile (hread.inline.2 hcommand)

end Lint

end PipelineCompiler
