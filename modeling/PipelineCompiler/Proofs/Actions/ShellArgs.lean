import Mathlib.Algebra.Group.Nat.Even
import PipelineCompiler.Proofs.Actions.Steps
import PipelineCompiler.Proofs.Lint.Accepted
import PipelineCompiler.Proofs.Text

/-!
# Arguments of a shell

The runner splits the arguments of a shell into words at blanks. Quotes keep a word together, and in them a
backslash stands for the character behind it. The arguments have a backslash put before every quote of a
command but before none of its backslashes, so that a command is read back just if it has none
(`read_shellArgs_iff`), and its word goes on to the end of the arguments just if its quotes and its end have
an even number of them in front.
-/

namespace PipelineCompiler.Actions

/-! ## Reading arguments -/

/-- Where the runner is in the arguments. -/
inductive Mode where
  | outside
  | quoted
  /-- Behind a backslash in quotes. -/
  | escaped
deriving DecidableEq, Repr

/-- Where the runner is after one more character. -/
def Mode.next (mode : Mode) (c : Char) : Mode :=
  match mode with
  | .outside => if c = '"' then .quoted else .outside
  | .quoted => if c = '"' then .outside else if c = '\\' then .escaped else .quoted
  | .escaped => .quoted

/-- The runner, reading arguments. -/
structure Reader where
  mode : Mode := .outside
  /-- The words that have been read. -/
  words : List (List Char) := []
  /-- The word that is read, if one has begun. -/
  word : Option (List Char) := none
deriving DecidableEq, Repr

namespace Reader

/-- All words, with the one that is read. -/
def allWords (r : Reader) : List (List Char) := r.words ++ r.word.toList

/-- The word that is read goes on. -/
def goOn (r : Reader) (cs : List Char) : Reader := { r with word := some (r.word.getD [] ++ cs) }

/-- Read one more character. -/
def next (r : Reader) (c : Char) : Reader :=
  let read : Reader :=
    match r.mode with
    | .outside =>
      if c = '"' then r.goOn []
      else if Text.isBlank c then { r with words := r.allWords, word := none }
      else r.goOn [c]
    | .quoted => if c = '"' ∨ c = '\\' then r else r.goOn [c]
    | .escaped => r.goOn [c]
  { read with mode := r.mode.next c }

/-- Read more characters. -/
def run (r : Reader) (cs : List Char) : Reader := cs.foldl next r

end Reader

/-- The words of arguments; there are none where quotes are left open. -/
def readWords? (args : String) : Option (List String) :=
  let r := Reader.run {} args.toList
  if r.mode = .outside then some (r.allWords.map String.ofList) else none

/-- The quotes that open behind `-c` are closed by the last character of the arguments and not before. -/
def QuotedToEnd (args : String) : Prop :=
  ∃ quoted, args.toList = "-c \"".toList ++ quoted ∧ ∀ start, start <+: quoted →
    ((Reader.run {} ("-c \"".toList ++ start)).mode = .outside ↔ start = quoted)

/-! ## What is read -/

/-- The line that a shell is to run: a command, in a directory. -/
def shellLine (dir command : String) : String :=
  if dir.isEmpty then command else "cd " ++ dir ++ "; " ++ command

/-- A text as it is put in quotes. -/
def quoteChars (cs : List Char) : List Char := cs.flatMap fun c => if c = '"' then ['\\', '"'] else [c]

theorem quoteChars_nil : quoteChars [] = [] := rfl

theorem quoteChars_quote (cs : List Char) : quoteChars ('"' :: cs) = '\\' :: '"' :: quoteChars cs := rfl

theorem quoteChars_cons {c : Char} (h : c ≠ '"') (cs : List Char) :
    quoteChars (c :: cs) = c :: quoteChars cs := by
  simp [quoteChars, h]

theorem quoteChars_append (cs ds : List Char) : quoteChars (cs ++ ds) = quoteChars cs ++ quoteChars ds :=
  List.flatMap_append

theorem quoteChars_eq_self {cs : List Char} (h : '"' ∉ cs) : quoteChars cs = cs := by
  induction cs with
  | nil => rfl
  | cons c cs ih =>
      rw [List.mem_cons, not_or] at h
      rw [quoteChars_cons (Ne.symm h.1), ih h.2]

/-- The arguments are the line in quotes. -/
theorem toList_shellArgs {dir : String} (hdir : '"' ∉ dir.toList) (command : String) :
    (shellArgs dir command).toList
      = "-c \"".toList ++ (quoteChars (shellLine dir command).toList ++ ['"']) := by
  have hcommand : (Text.replaceChar '"' "\\\"" command).toList = quoteChars command.toList := by
    rw [Text.replaceChar, String.toList_ofList]
    rfl
  unfold shellArgs shellLine
  dsimp only
  split
  · simp [hcommand]
  · have hcd : quoteChars ("cd " ++ dir ++ "; " ++ command).toList
        = "cd ".toList ++ dir.toList ++ "; ".toList ++ quoteChars command.toList := by
      simp only [String.toList_append, quoteChars_append, quoteChars_eq_self hdir]
      rfl
    rw [hcd]
    simp [hcommand]

namespace Reader

variable {r : Reader} {c : Char} {cs : List Char}

theorem run_cons (r : Reader) (c : Char) (cs : List Char) : r.run (c :: cs) = (r.next c).run cs := rfl

theorem run_append (r : Reader) (cs ds : List Char) : r.run (cs ++ ds) = (r.run cs).run ds :=
  List.foldl_append

theorem mode_next (r : Reader) (c : Char) : (r.next c).mode = r.mode.next c := rfl

theorem mode_run (r : Reader) (cs : List Char) : (r.run cs).mode = cs.foldl Mode.next r.mode := by
  induction cs generalizing r with
  | nil => rfl
  | cons c cs ih => exact ih (r.next c)

theorem goOn_goOn (r : Reader) (cs ds : List Char) : (r.goOn cs).goOn ds = r.goOn (cs ++ ds) := by
  simp [goOn]

/-! ### Lines without backslashes -/

theorem next_of_quoted (hr : r.mode = .quoted) (hquote : c ≠ '"') (hback : c ≠ '\\') :
    r.next c = r.goOn [c] := by
  obtain ⟨mode, words, word⟩ := r
  obtain rfl : mode = .quoted := hr
  simp [next, Mode.next, goOn, hquote, hback]

theorem next_quote (hr : r.mode = .quoted) : (r.next '\\').next '"' = r.goOn ['"'] := by
  obtain ⟨mode, words, word⟩ := r
  obtain rfl : mode = .quoted := hr
  rfl

theorem run_quoteChars (hr : r.mode = .quoted) (hw : r.word.isSome) (hback : '\\' ∉ cs) :
    r.run (quoteChars cs) = r.goOn cs := by
  induction cs generalizing r with
  | nil =>
      obtain ⟨mode, words, word⟩ := r
      obtain ⟨w, rfl⟩ := Option.isSome_iff_exists.1 hw
      simp [run, goOn, quoteChars_nil]
  | cons c cs ih =>
      rw [List.mem_cons, not_or] at hback
      have hstep : r.run (quoteChars (c :: cs)) = (r.goOn [c]).run (quoteChars cs) := by
        by_cases hquote : c = '"'
        · subst hquote
          rw [quoteChars_quote, run_cons, run_cons, next_quote hr]
        · rw [quoteChars_cons hquote, run_cons, next_of_quoted hr hquote (Ne.symm hback.1)]
      rw [hstep, ih (r := r.goOn [c]) hr rfl hback.2, goOn_goOn, List.singleton_append]

/-! ### How much is read -/

/-- The number of characters in the words. -/
def size (r : Reader) : Nat := r.allWords.flatten.length

theorem size_goOn (r : Reader) (cs : List Char) : (r.goOn cs).size = r.size + cs.length := by
  obtain ⟨mode, words, word⟩ := r
  cases word with
  | none => simp [size, allWords, goOn]
  | some w => simp [size, allWords, goOn, Nat.add_assoc]

theorem size_mode (r : Reader) (mode : Mode) : ({ r with mode } : Reader).size = r.size := rfl

/-- A character adds itself to the words, or nothing. -/
theorem size_next_le (r : Reader) (c : Char) : (r.next c).size ≤ r.size + 1 := by
  have hsame : ({ r with words := r.allWords, word := none } : Reader).size = r.size := by
    simp [size, allWords]
  rw [next, size_mode]
  split
  · split
    · simp [size_goOn]
    · split
      · simp [hsame]
      · simp [size_goOn]
  · split
    · omega
    · simp [size_goOn]
  · simp [size_goOn]

/-- A quote adds nothing to the words unless a backslash stands in front. -/
theorem size_next_quote (h : r.mode ≠ .escaped) : (r.next '"').size = r.size := by
  cases hr : r.mode with
  | outside => simp [next, hr, size_mode, size_goOn]
  | quoted => simp [next, hr, size_mode]
  | escaped => exact absurd hr h

/-- The backslash that is put before a quote and the quote together add one character. -/
theorem size_next_next_le (r : Reader) : ((r.next '\\').next '"').size ≤ r.size + 1 := by
  by_cases hr : r.mode = .quoted
  · rw [next_quote hr, size_goOn]
    exact Nat.le_refl _
  · have hmode : (r.next '\\').mode ≠ .escaped := by
      rw [mode_next]
      revert hr
      cases r.mode <;> decide
    rw [size_next_quote hmode]
    exact size_next_le r '\\'

/-- No more is read of a line in quotes than its own characters. -/
theorem size_run_le (h : (r.run (quoteChars cs ++ ['"'])).mode = .outside) :
    (r.run (quoteChars cs ++ ['"'])).size ≤ r.size + cs.length := by
  induction cs generalizing r with
  | nil =>
      have hmode : r.mode ≠ .escaped := by
        rintro hr
        have hnext : (r.next '"').mode = .outside := h
        rw [mode_next, hr] at hnext
        exact absurd hnext (by decide)
      exact (size_next_quote hmode).le
  | cons c cs ih =>
      by_cases hquote : c = '"'
      · subst hquote
        rw [quoteChars_quote, List.cons_append, List.cons_append, run_cons, run_cons] at h ⊢
        calc _ ≤ ((r.next '\\').next '"').size + cs.length := ih h
          _ ≤ r.size + (cs.length + 1) := by
            have := r.size_next_next_le
            omega
      · rw [quoteChars_cons hquote, List.cons_append, run_cons] at h ⊢
        calc _ ≤ (r.next c).size + cs.length := ih h
          _ ≤ r.size + (cs.length + 1) := by
            have := r.size_next_le c
            omega

/-- If all of a line in quotes is read, no backslash of it has stood for the character behind. -/
theorem not_mem_of_le_size (hr : r.mode = .quoted) (h : (r.run (quoteChars cs ++ ['"'])).mode = .outside)
    (hsize : r.size + cs.length ≤ (r.run (quoteChars cs ++ ['"'])).size) : '\\' ∉ cs := by
  induction cs generalizing r with
  | nil => exact List.not_mem_nil
  | cons c cs ih =>
      by_cases hquote : c = '"'
      · subst hquote
        rw [quoteChars_quote, List.cons_append, List.cons_append, run_cons, run_cons,
          next_quote hr] at h hsize
        have hrest : '\\' ∉ cs := by
          refine ih (r := r.goOn ['"']) hr h ?_
          rw [size_goOn]
          simpa [Nat.add_assoc, Nat.add_comm] using hsize
        simp [hrest]
      · rw [quoteChars_cons hquote, List.cons_append, run_cons] at h hsize
        by_cases hback : c = '\\'
        · -- the backslash adds nothing, and what is behind it at most its own characters
          subst hback
          have hsame : (r.next '\\').size = r.size := by
            obtain ⟨mode, words, word⟩ := r
            obtain rfl : mode = .quoted := hr
            rfl
          have hle := size_run_le h
          rw [List.length_cons] at hsize
          omega
        · rw [next_of_quoted hr hquote hback] at h hsize
          have hrest : '\\' ∉ cs := by
            refine ih (r := r.goOn [c]) hr h ?_
            rw [size_goOn]
            simpa [Nat.add_assoc, Nat.add_comm] using hsize
          simp [hrest, Ne.symm hback]

end Reader

/-! ## Where quotes are closed -/

/-- The quotes are closed by the last of the characters and not before. -/
def Mode.ClosesAfter (mode : Mode) (cs : List Char) : Prop :=
  ∀ start, start <+: cs → (start.foldl Mode.next mode = .outside ↔ start = cs)

section Closes

variable {mode : Mode} {c : Char} {cs : List Char}

theorem Mode.closesAfter_nil : mode.ClosesAfter [] ↔ mode = .outside := by
  simp [Mode.ClosesAfter]

theorem Mode.closesAfter_cons (hmode : mode ≠ .outside) :
    mode.ClosesAfter (c :: cs) ↔ (mode.next c).ClosesAfter cs := by
  constructor
  · intro h start hstart
    have hcons := h (c :: start) ((List.prefix_cons_inj c).2 hstart)
    rwa [List.foldl_cons, List.cons_inj_right] at hcons
  · intro h start hstart
    cases start with
    | nil => simp [hmode]
    | cons d start =>
        obtain ⟨rfl, hrest⟩ := List.cons_prefix_cons.1 hstart
        rw [List.foldl_cons, h start hrest, List.cons_inj_right]

theorem Mode.eq_nil_of_closesAfter (h : Mode.outside.ClosesAfter cs) : cs = [] :=
  ((h [] List.nil_prefix).1 rfl).symm

end Closes

/-- The number of backslashes at the end. -/
def backslashesAtEnd (cs : List Char) : Nat := (cs.rtakeWhile (· == '\\')).length

/-- In front of every quote, and at the end, stands an even number of backslashes. -/
def EvenBackslashes (cs : List Char) : Prop :=
  ∀ start rest, cs = start ++ rest → (∀ c ∈ rest.head?, c = '"') → Even (backslashesAtEnd start)

section Even

variable {c : Char} {cs : List Char}

theorem backslashesAtEnd_append_cons (h : c ≠ '\\') (skip : List Char) :
    backslashesAtEnd (skip ++ c :: cs) = backslashesAtEnd cs := by
  have hc : (c :: skip.reverse).takeWhile (· == '\\') = [] :=
    List.takeWhile_cons_of_neg (by simpa using h)
  simp only [backslashesAtEnd, List.rtakeWhile, List.reverse_append, List.reverse_cons,
    List.append_assoc, List.singleton_append, List.takeWhile_append, hc, List.append_nil]
  split
  · next hall => simp only [List.length_reverse, hall]
  · rfl

/-- Two backslashes at the start are both at the end or none of them is. -/
theorem even_backslashesAtEnd_cons_cons :
    Even (backslashesAtEnd ('\\' :: '\\' :: cs)) ↔ Even (backslashesAtEnd cs) := by
  have htwo : ['\\', '\\'].takeWhile (· == '\\') = ['\\', '\\'] := rfl
  simp only [backslashesAtEnd, List.rtakeWhile, List.reverse_cons, List.append_assoc,
    List.takeWhile_append, List.singleton_append, htwo]
  split
  · next hall =>
      simp only [List.length_reverse, List.length_append, hall]
      exact Nat.even_add.trans (iff_true_right (by decide))
  · rfl

theorem evenBackslashes_nil : EvenBackslashes [] := by
  intro start rest h _
  obtain ⟨rfl, -⟩ := List.append_eq_nil_iff.1 h.symm
  exact Even.zero

/-- Characters in front count for nothing if they leave what is behind them an even number as it is, and have
one in front of their own quotes. -/
theorem evenBackslashes_append (skip : List Char)
    (hskip : ∀ start, Even (backslashesAtEnd (skip ++ start)) ↔ Even (backslashesAtEnd start))
    (hquote : ∀ start rest, skip = start ++ '"' :: rest → Even (backslashesAtEnd start)) :
    EvenBackslashes (skip ++ cs) ↔ EvenBackslashes cs := by
  constructor
  · intro h start rest hcs hrest
    rw [← hskip]
    exact h (skip ++ start) rest (by rw [hcs, List.append_assoc]) hrest
  · intro h start rest hcs hrest
    rcases List.append_eq_append_iff.1 hcs with ⟨more, rfl, hmore⟩ | ⟨more, hmore, rfl⟩
    · rw [hskip]
      exact h more rest hmore hrest
    · cases more with
      | nil =>
          rw [List.append_nil] at hmore
          rw [← hmore, ← List.append_nil skip, hskip]
          exact Even.zero
      | cons c more =>
          obtain rfl : c = '"' := hrest c rfl
          exact hquote start more hmore

theorem evenBackslashes_cons (h : c ≠ '\\') : EvenBackslashes (c :: cs) ↔ EvenBackslashes cs := by
  refine evenBackslashes_append [c] (fun start => ?_) fun start rest hskip => ?_
  · rw [List.singleton_append, ← List.nil_append (c :: start), backslashesAtEnd_append_cons h]
  · cases start with
    | nil => exact Even.zero
    | cons d start => simp at hskip

theorem evenBackslashes_append_of_not_mem {skip : List Char} (h : '\\' ∉ skip) :
    EvenBackslashes (skip ++ cs) ↔ EvenBackslashes cs := by
  induction skip with
  | nil => rfl
  | cons c skip ih =>
      rw [List.mem_cons, not_or] at h
      rw [List.cons_append, evenBackslashes_cons (Ne.symm h.1), ih h.2]

/-- A backslash and the character that it stands for count for nothing, if that is no quote. -/
theorem evenBackslashes_cons_cons (h : c ≠ '"') :
    EvenBackslashes ('\\' :: c :: cs) ↔ EvenBackslashes cs := by
  refine evenBackslashes_append ['\\', c] (fun start => ?_) fun start rest hskip => ?_
  · by_cases hback : c = '\\'
    · subst hback
      exact even_backslashesAtEnd_cons_cons
    · rw [List.cons_append, List.singleton_append, ← List.singleton_append,
        backslashesAtEnd_append_cons hback]
  · have hmem : '"' ∈ ['\\', c] := hskip ▸ List.mem_append_right start List.mem_cons_self
    simp [Ne.symm h] at hmem

theorem not_evenBackslashes (h : ∀ c ∈ cs.head?, c = '"') : ¬EvenBackslashes ('\\' :: cs) := fun heven =>
  absurd (heven ['\\'] cs rfl h) (by decide)

end Even

/-- A line in quotes closes them at its end just if it leaves no quote of its own, nor the end, behind a
backslash that stands for it. -/
theorem closesAfter_iff (cs : List Char) :
    (Mode.quoted.ClosesAfter (quoteChars cs ++ ['"']) ↔ EvenBackslashes cs)
      ∧ (Mode.escaped.ClosesAfter (quoteChars cs ++ ['"']) ↔ EvenBackslashes ('\\' :: cs)) := by
  have hquoted : Mode.quoted ≠ .outside := by decide
  have hescaped : Mode.escaped ≠ .outside := by decide
  induction cs with
  | nil =>
      rw [quoteChars_nil, List.nil_append, Mode.closesAfter_cons hquoted, Mode.closesAfter_cons hescaped,
        Mode.closesAfter_nil, Mode.closesAfter_nil]
      exact ⟨iff_of_true rfl evenBackslashes_nil, iff_of_false hquoted (not_evenBackslashes (by simp))⟩
  | cons c cs ih =>
      by_cases hquote : c = '"'
      · subst hquote
        rw [quoteChars_quote, List.cons_append, List.cons_append, Mode.closesAfter_cons hquoted,
          Mode.closesAfter_cons hescaped]
        refine ⟨?_, ?_⟩
        · rw [evenBackslashes_cons (by decide)]
          exact (Mode.closesAfter_cons hescaped).trans ih.1
        · refine iff_of_false (fun h => ?_) (not_evenBackslashes (by simp))
          have hafter : Mode.outside.ClosesAfter (quoteChars cs ++ ['"']) :=
            (Mode.closesAfter_cons hquoted).1 h
          simpa using Mode.eq_nil_of_closesAfter hafter
      · rw [quoteChars_cons hquote, List.cons_append, Mode.closesAfter_cons hquoted,
          Mode.closesAfter_cons hescaped, evenBackslashes_cons_cons hquote]
        refine ⟨?_, ih.1⟩
        by_cases hback : c = '\\'
        · subst hback
          exact ih.2
        · rw [evenBackslashes_cons hback]
          have hnext : Mode.quoted.next c = .quoted := by simp [Mode.next, hquote, hback]
          rw [hnext]
          exact ih.1

/-! ## Arguments -/

/-- The runner behind the option and the first quote. -/
def opened : Reader where
  mode := .quoted
  words := ["-c".toList]
  word := some []

theorem run_option : Reader.run {} "-c \"".toList = opened := by decide

theorem quotedToEnd_iff {args : String} {quoted : List Char} (h : args.toList = "-c \"".toList ++ quoted) :
    QuotedToEnd args ↔ Mode.quoted.ClosesAfter quoted := by
  have hmode (start : List Char) :
      (Reader.run {} ("-c \"".toList ++ start)).mode = start.foldl Mode.next .quoted := by
    rw [Reader.run_append, run_option, Reader.mode_run]
    rfl
  simp only [QuotedToEnd, hmode]
  constructor
  · rintro ⟨quoted', h', hcloses⟩
    obtain rfl := List.append_cancel_left (h.symm.trans h')
    exact hcloses
  · exact fun hcloses => ⟨quoted, h, hcloses⟩

/-- A line in quotes is read back as it is just if there is no backslash in it. -/
theorem readWords?_eq_some_iff {args : String} {line : String}
    (h : args.toList = "-c \"".toList ++ (quoteChars line.toList ++ ['"'])) :
    readWords? args = some ["-c", line] ↔ '\\' ∉ line.toList := by
  have hrun : Reader.run {} args.toList = opened.run (quoteChars line.toList ++ ['"']) := by
    rw [h, Reader.run_append, run_option]
  rw [readWords?, hrun]
  constructor
  · intro hread
    split at hread
    · next hmode =>
        have hwords : (opened.run (quoteChars line.toList ++ ['"'])).allWords
            = ["-c".toList, line.toList] := by
          simpa [Function.comp_def] using congrArg (List.map String.toList) (Option.some.inj hread)
        refine Reader.not_mem_of_le_size rfl hmode ?_
        simp only [Reader.size, hwords]
        simp [opened, Reader.allWords]
        omega
    · exact absurd hread (by simp)
  · intro hback
    have hmode : ((opened.goOn line.toList).run ['"']).mode = .outside := rfl
    have hwords : ((opened.goOn line.toList).run ['"']).allWords = ["-c".toList, line.toList] := rfl
    rw [Reader.run_append, Reader.run_quoteChars (r := opened) rfl rfl hback, if_pos hmode, hwords]
    simp

/-- What the runner reads of the arguments for a command in a directory. It reads the line that the shell is
to run just if the command has no backslash, and one word that goes on to the end of the arguments just if
the quotes of the command, and its end, have an even number of backslashes in front. -/
theorem read_shellArgs_iff {dir : String} (hquote : '"' ∉ dir.toList) (hback : '\\' ∉ dir.toList)
    (command : String) :
    (readWords? (shellArgs dir command) = some ["-c", shellLine dir command] ↔ '\\' ∉ command.toList)
      ∧ (QuotedToEnd (shellArgs dir command) ↔ EvenBackslashes command.toList) := by
  have hargs := toList_shellArgs hquote command
  rw [readWords?_eq_some_iff hargs, quotedToEnd_iff hargs, (closesAfter_iff _).1, shellLine]
  split
  · exact ⟨Iff.rfl, Iff.rfl⟩
  · have hcd : '\\' ∉ "cd ".toList ++ dir.toList ++ "; ".toList := by simp [hback]
    rw [String.toList_append, String.toList_append, String.toList_append, List.mem_append,
      evenBackslashes_append_of_not_mem hcd]
    exact ⟨not_congr (or_iff_right hcd), Iff.rfl⟩

/-- A command with quotes is read back in its directory. -/
theorem read_echo :
    '"' ∉ "apps/web".toList ∧ '\\' ∉ "apps/web".toList
      ∧ readWords? (shellArgs "apps/web" "echo \"hi\"") = some ["-c", "cd apps/web; echo \"hi\""]
      ∧ QuotedToEnd (shellArgs "apps/web" "echo \"hi\"") := by
  have hquote : '"' ∉ "apps/web".toList := by decide
  have hback : '\\' ∉ "apps/web".toList := by decide
  have hcommand : '\\' ∉ "echo \"hi\"".toList := by decide
  obtain ⟨hread, hquoted⟩ := read_shellArgs_iff hquote hback "echo \"hi\""
  refine ⟨hquote, hback, hread.2 hcommand, hquoted.2 ?_⟩
  rw [← List.append_nil "echo \"hi\"".toList, evenBackslashes_append_of_not_mem hcommand]
  exact evenBackslashes_nil

/-- A script that runs in its image is handed to the shell of the image. -/
theorem args_of_runs {basePath : String} {step : Step} {s : Script} (h : step.Runs basePath s)
    (himage : (s.privileged || s.run.docker.image.isEmpty) = false) :
    step.input? "args" = some (shellArgs basePath (Script.command s.run.script)) := by
  obtain ⟨name, rfl⟩ := h
  simp only [scriptStep, himage, Bool.false_eq_true, if_false]
  rfl

/-- A workflow that runs a script in an image. -/
def scriptWorkflow (script : String) : Manifest where
  team := "acme"
  pipeline := "app"
  platform := .actions
  triggers := [.git { uri := "https://github.com/acme/app" }]
  tasks :=
    [.leaf
      { attributes := { name := "build" }
        action := .run { script, docker := { image := "alpine" } } }]

/-- A command that prints quotes, and has backslashes in front of them. -/
def printQuotes : String := "echo \"say \\\"hi\\\"\""

/-- A quote that a command puts a backslash in front of ends the word that the command is handed in. -/
theorem printQuotes_misread :
    Lint.hasErrors (Lint.run {} Lint.sampleSurroundings (scriptWorkflow ("\\" ++ printQuotes))) = false
      ∧ (∃ w, render {} (scriptWorkflow ("\\" ++ printQuotes)).withDefaults = .ok w
        ∧ ∃ j ∈ w.jobs, ∃ step ∈ j.steps, step.input? "args" = some (shellArgs "" printQuotes))
      ∧ readWords? (shellArgs "" printQuotes) = some ["-c", "echo \"say \\hi\\\\\""]
      ∧ ¬QuotedToEnd (shellArgs "" printQuotes) := by
  have haccepted : Lint.hasErrors
      (Lint.run {} Lint.sampleSurroundings (scriptWorkflow ("\\" ++ printQuotes))) = false := by
    decide +kernel
  have hcommand : Script.command ("\\" ++ printQuotes) = printQuotes := by decide +kernel
  refine ⟨haccepted, ?_, by decide +kernel, ?_⟩
  · obtain ⟨w, hrender, hjobs⟩ := render_eq_ok {} (Lint.renderable_of_accepted haccepted).withDefaults
    obtain ⟨e, he, hscript⟩ : ∃ e ∈ Task.leaves (scriptWorkflow ("\\" ++ printQuotes)).withDefaults.tasks,
        e.2.action = .run { script := "\\" ++ printQuotes, docker := { image := "alpine" } } :=
      ⟨_, List.mem_of_getElem? (i := 0) rfl, rfl⟩
    obtain ⟨j, hj, hjob⟩ := exists_of_mem_left hjobs he
    have hs : Script.ofLeaf? {} (scriptWorkflow ("\\" ++ printQuotes)).withDefaults e.2 = some
        { attributes := e.2.attributes
          run := { script := "\\" ++ printQuotes, docker := { image := "alpine" } } } := by
      rw [Script.ofLeaf?, hscript]
    have hrunner : e.2 ∈ Script.runners e.2 := by
      rw [Script.runners_of_isScript (Script.isScript_of_ofLeaf? hs)]
      exact List.mem_cons_self
    obtain ⟨step, hstep, hruns⟩ := exists_runs_of_job hjob hrunner hs
    refine ⟨w, hrender, j, hj, step, hstep, (args_of_runs hruns rfl).trans ?_⟩
    exact congrArg some (congrArg (shellArgs "") hcommand)
  · rw [quotedToEnd_iff (toList_shellArgs (by decide) printQuotes), (closesAfter_iff _).1]
    intro heven
    have hstart : (shellLine "" printQuotes).toList
        = "echo \"say \\".toList ++ "\"hi\\\"\"".toList := by decide +kernel
    exact absurd (heven _ _ hstart (by simp)) (by decide)

end PipelineCompiler.Actions
