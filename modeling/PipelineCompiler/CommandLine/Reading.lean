import PipelineCompiler.CommandLine
import PipelineCompiler.Text.Cut

/-!
# Reading command lines

Arguments are read level by level and from left to right. An option whose value is a word of its own is
left pending: it is checked when the next option or flag is met, or at the end of its level. A value
that is attached to its option is checked at once. The first fault that is met is the one reported.

A level is complete only when everything below it is, so a fault after the name of a command is found
before a pending option in front of it is looked at.
-/

namespace PipelineCompiler.CommandLine

/-- What has been read of a level. -/
structure Progress where
  /-- Options with the values they were given. -/
  given : List (Opt × String) := []
  /-- The option met last, with its value if there was one, before any check. -/
  pending : Option (Opt × Option String) := none
  json : Bool := false
deriving DecidableEq, Repr

namespace Progress

/-- The value that an option was given. -/
def value? (p : Progress) (o : Opt) : Option String := (p.given.find? fun g => g.1 = o).map Prod.snd

/-- Give an option its value. An option is given once, and only a value that it takes. -/
def give (p : Progress) (o : Opt) (value : String) : Except Refusal Progress :=
  if (p.value? o).isSome then .error .argumentConflict
  else if o.accepts value then .ok { p with given := p.given ++ [(o, value)] }
  else .error .invalidValue

/-- Check the option that is pending. -/
def settle (p : Progress) : Except Refusal Progress :=
  match p.pending with
  | none => .ok p
  | some (_, none) => .error .invalidValue
  | some (o, some value) => { p with pending := none }.give o value

/-- Meet an option whose value is yet to come. -/
def meet (p : Progress) (o : Opt) : Except Refusal Progress :=
  p.settle.map fun p => { p with pending := some (o, none) }

/-- Meet an option with its value attached. -/
def meetWith (p : Progress) (o : Opt) (value : String) : Except Refusal Progress :=
  p.settle.bind fun p => p.give o value

/-- The pending option still needs its value. -/
def isWaiting (p : Progress) : Bool :=
  match p.pending with
  | some (_, none) => true
  | _ => false

/-- Take a word as the value of the pending option. -/
def takeValue (p : Progress) (word : String) : Progress :=
  { p with pending := p.pending.map fun (o, _) => (o, some word) }

/-- Meet a flag. -/
def meetFlag (p : Progress) (f : Flag) : Except Refusal Progress := do
  let p ← p.settle
  match f with
  | .help => .error .helpAsked
  | .version => .error .versionAsked
  | .json => if p.json then .error .argumentConflict else .ok { p with json := true }

end Progress

/-! ## Words that begin with a dash -/

/-- Read the part of a word after two dashes. -/
def readLong (level : Level) (p : Progress) (word : String) : Except Refusal Progress :=
  let (name, value) := match Text.splitFirst? '=' word with
    | some (name, value) => (name, some value)
    | none => (word, none)
  match Opt.all.find? fun o => o.name = name with
  | some o => match value with
    | some value => p.meetWith o value
    | none => p.meet o
  | none => match level.flags.find? fun f => f.name = name with
    | some f => if value.isSome then .error .tooManyValues else p.meetFlag f
    | none => .error .unknownArgument

/-- The value attached to a letter. An equals sign between them is dropped. -/
def attachedValue? : List Char → Option String
  | [] => none
  | '=' :: value => some (String.ofList value)
  | value => some (String.ofList value)

/-- Read the letters after one dash: flags, and at most one option, which takes the rest as its value. -/
def readLetters (level : Level) : Progress → List Char → Except Refusal Progress
  | p, [] => .ok p
  | p, c :: rest =>
    match Opt.all.find? fun o => o.letter? = some c with
    | some o => match attachedValue? rest with
      | some value => p.meetWith o value
      | none => p.meet o
    | none => match level.flags.find? fun f => f.letter? = some c with
      | some f => do
        let p ← p.meetFlag f
        readLetters level p rest
      | none => .error .unknownArgument

/-- Read a word with a dash in front, if it is one. -/
def readDashed? (level : Level) (p : Progress) (word : String) : Option (Except Refusal Progress) :=
  match word.toList with
  | '-' :: '-' :: name => some (readLong level p (String.ofList name))
  | '-' :: c :: rest => some (readLetters level p (c :: rest))
  | _ => none

/-! ## Levels -/

/-- What to make of a word that fits nowhere. -/
def strayWord : Level → Refusal
  | .program => .invalidSubcommand
  | _ => .unknownArgument

/-- The word names a command of the level, the one that shows help included. -/
def Level.knows (level : Level) (word : String) : Bool :=
  (level.below? word).isSome || (level == .program && word == "help")

/-- What to make of the first word that may no longer be an option or a command. -/
def literalWord (level : Level) (word : String) : Refusal :=
  if level.knows word then .unknownArgument else strayWord level

/-- What to make of the words after `help`, which name the command that help is asked about. -/
def helpAbout : Level → List String → Refusal
  | _, [] => .helpAsked
  | level, word :: rest =>
    match level.below? word with
    | some below => helpAbout below rest
    | none => if level.knows word && rest.isEmpty then .helpAsked else .invalidSubcommand

/-- Read a level up to its end or to the name of a command, which is answered with the words after
it. -/
def readWords (level : Level) :
    Progress → List String → Except Refusal (Progress × Option (Level × List String))
  | p, [] => .ok (p, none)
  | p, word :: rest =>
    -- no word is the name of a command while an option waits for its value
    match if p.isWaiting then none else level.below? word with
    | some below => .ok (p, some (below, rest))
    | none =>
      if !p.isWaiting && level.knows word then .error (helpAbout level rest)
      else if word = "--" then
        match rest with
        | [] => .ok (p, none)
        | literal :: _ => .error (literalWord level literal)
      else
        match readDashed? level p word with
        | some next => next.bind fun p => readWords level p rest
        | none =>
          if p.isWaiting then readWords level (p.takeValue word) rest
          else .error (strayWord level)

/-! ## The environment -/

/-- Variables of the environment with their values. -/
abbrev Environment := List (String × String)

/-- The value that the environment gives to an option. -/
def fromVariable? (env : Environment) (o : Opt) : Option String :=
  (env.find? fun v => v.1 = o.variableName).map Prod.snd

/-- The environment gives no option of the level a value that it does not take. Options that the level
was given are not looked up. -/
def environmentFits (env : Environment) (p : Progress) : Bool :=
  Opt.all.all fun o =>
    (p.value? o).isSome ||
      match fromVariable? env o with
      | some value => o.accepts value
      | none => true

/-- Complete a level: check what is pending, and then the environment. -/
def complete (env : Environment) (p : Progress) : Except Refusal Progress := do
  let p ← p.settle
  if environmentFits env p then return p else throw .invalidValue

/-! ## The whole command line -/

/-- Read arguments in an environment. An option given after the name of a command wins over one given
before it, and both over the environment. -/
def read (env : Environment) (args : List String) : Except Refusal Invocation := do
  let (outer, below) ← readWords .program {} args
  let (inner, named) ← match below with
    | none => pure (({} : Progress), none)
    | some (level, words) => do
      let (inner, _) ← readWords level {} words
      let inner ← complete env inner
      pure (inner, some (if level = .lint then Command.lint inner.json else .render))
  let outer ← complete env outer
  let value (o : Opt) : Option String :=
    inner.value? o <|> outer.value? o <|> fromVariable? env o
  return {
    named
    manifest := value .manifest
    config := value .config
    platform := (value .platform).bind Platform.ofName?
    dockerRegistry := value .dockerRegistry
    docHost := value .docHost
    slackWebhook := value .slackWebhook
    logLevel := ((value .logLevel).bind LogLevel.ofName?).getD .warn
    logFormat := ((value .logFormat).bind LogFormat.ofName?).getD .pretty
  }

end PipelineCompiler.CommandLine
