import PipelineCompiler.Yaml.Token

/-!
# YAML documents

The tree that a list of tokens stands for. An anchored node is kept under a number, and an alias refers
to that number, so that a document stays as long as its text. A text holds one document.
-/

namespace PipelineCompiler.Yaml

/-- A node of a document. An absent tag is none, and an absent value is a blank plain scalar. -/
inductive Node where
  | scalar (text : String) (plain : Bool) (tag : Option String)
  | seq (items : List Node) (tag : Option String)
  | map (entries : List (Node × Node)) (tag : Option String)
  | alias (number : Nat)
deriving Repr, Inhabited

/-- The value of a key or item that has none. -/
def Node.blank : Node := .scalar "" true none

/-- What is known while a tree is built. -/
structure Builder where
  tokens : List Token
  /-- Expansion of each tag handle. -/
  handles : List (String × String) := []
  /-- Number of each anchor name, the latest first. -/
  numbers : List (String × Nat) := []
  /-- The node of each number, the latest first. -/
  anchored : List (Nat × Node) := []
  /-- Number of nodes, ends of collections included. -/
  events : Nat := 0

namespace Builder

/-- Go past one token. -/
def skip (b : Builder) : Builder := { b with tokens := b.tokens.drop 1 }

/-- Count nodes. -/
def count (b : Builder) (n : Nat) : Builder := { b with events := b.events + n }

/-- Give an anchor the number of names so far, in place of the number it had. -/
def number (b : Builder) (name : String) : Nat × Builder :=
  let n := b.numbers.length
  (n, { b with numbers := (name, n) :: b.numbers.filter fun e => e.1 ≠ name })

/-- The tag that a handle and a suffix stand for. -/
def resolveTag? (b : Builder) (handle suffix : String) : Option String :=
  if handle.isEmpty then some suffix
  else (b.handles.find? fun e => e.1 = handle).map fun e => e.2 ++ suffix

/-- Read the anchor and the tag of a node, in either order. -/
def properties? (b : Builder) : Option (Option String × Option String × Builder) :=
  match b.tokens with
  | .anchor name :: .tag handle suffix :: rest => do
    let tag ← b.resolveTag? handle suffix
    return (some name, some tag, { b with tokens := rest })
  | .tag handle suffix :: .anchor name :: rest => do
    let tag ← b.resolveTag? handle suffix
    return (some name, some tag, { b with tokens := rest })
  | .anchor name :: rest => some (some name, none, { b with tokens := rest })
  | .tag handle suffix :: rest => do
    let tag ← b.resolveTag? handle suffix
    return (none, some tag, { b with tokens := rest })
  | _ => some (none, none, b)

/-- The next token is one of a list. -/
def isAt (b : Builder) (ts : List Token) : Bool :=
  match b.tokens with
  | [] => false
  | t :: _ => ts.contains t

mutual

/-- Read a node. Outside of flow collections it may be a block; after a key the items of a block
sequence need no further indentation. -/
def node? (inBlock indentless : Bool) (b : Builder) : (fuel : Nat) → Option (Node × Builder)
  | 0 => none
  | fuel + 1 =>
    match b.tokens with
    | .alias name :: _ => do
      let n ← b.numbers.find? fun e => e.1 = name
      return (.alias n.2, b.skip.count 1)
    | _ => do
      let (anchor, tag, b) ← b.properties?
      -- a node has its number before its content is read, which may refer to it
      let (n, b) := match anchor with
        | some name => let (n, b) := b.number name; (some n, b)
        | none => (none, b)
      let (node, b) ←
        if indentless && b.isAt [.blockEntry] then do
          let (items, b) ← indentlessItems? b fuel
          pure (Node.seq items tag, b.count 2)
        else
          match b.tokens with
          | .scalar text plain :: _ =>
            pure (Node.scalar text plain tag, b.skip.count 1)
          | .flowSequenceStart :: _ => do
            let (items, b) ← flowItems? true b.skip fuel
            pure (Node.seq items tag, b.count 2)
          | .flowMappingStart :: _ => do
            let (entries, b) ← flowEntries? true b.skip fuel
            pure (Node.map entries tag, b.count 2)
          | .blockSequenceStart :: _ => do
            if !inBlock then none
            let (items, b) ← blockItems? b.skip fuel
            pure (Node.seq items tag, b.count 2)
          | .blockMappingStart :: _ => do
            if !inBlock then none
            let (entries, b) ← blockEntries? b.skip fuel
            pure (Node.map entries tag, b.count 2)
          | _ =>
            if anchor.isSome || tag.isSome then pure (Node.scalar "" true tag, b.count 1) else none
      match n with
      | some n => return (node, { b with anchored := (n, node) :: b.anchored })
      | none => return (node, b)

/-- Read a node unless one of the tokens follows that show its absence. -/
def nodeUnless? (inBlock indentless : Bool) (ends : List Token) (b : Builder) :
    (fuel : Nat) → Option (Node × Builder)
  | 0 => none
  | fuel + 1 =>
    if b.isAt ends then some (.blank, b.count 1) else node? inBlock indentless b fuel

/-- Read the items of a block sequence and its end. -/
def blockItems? (b : Builder) : (fuel : Nat) → Option (List Node × Builder)
  | 0 => none
  | fuel + 1 =>
    match b.tokens with
    | .blockEntry :: _ => do
      let (item, b) ← nodeUnless? true false [.blockEntry, .blockEnd] b.skip fuel
      let (items, b) ← blockItems? b fuel
      return (item :: items, b)
    | .blockEnd :: _ => some ([], b.skip)
    | _ => none

/-- Read the items of a block sequence that is not indented. -/
def indentlessItems? (b : Builder) : (fuel : Nat) → Option (List Node × Builder)
  | 0 => none
  | fuel + 1 =>
    match b.tokens with
    | .blockEntry :: _ => do
      let (item, b) ← nodeUnless? true false [.blockEntry, .key, .value, .blockEnd] b.skip fuel
      let (items, b) ← indentlessItems? b fuel
      return (item :: items, b)
    | _ => some ([], b)

/-- Read the entries of a block mapping and its end. -/
def blockEntries? (b : Builder) : (fuel : Nat) → Option (List (Node × Node) × Builder)
  | 0 => none
  | fuel + 1 =>
    match b.tokens with
    | .key :: _ => do
      let (key, b) ← nodeUnless? true true [.key, .value, .blockEnd] b.skip fuel
      let (value, b) ←
        match b.tokens with
        | .value :: _ => nodeUnless? true true [.key, .value, .blockEnd] b.skip fuel
        | _ => some (.blank, b.count 1)
      let (entries, b) ← blockEntries? b fuel
      return ((key, value) :: entries, b)
    | .blockEnd :: _ => some ([], b.skip)
    | _ => none

/-- Read the items of a flow sequence and its end. A key makes an item a mapping of one entry. -/
def flowItems? (first : Bool) (b : Builder) : (fuel : Nat) → Option (List Node × Builder)
  | 0 => none
  | fuel + 1 =>
    match b.tokens with
    | .flowSequenceEnd :: _ => some ([], b.skip)
    | _ => do
      let b ← if first then some b else if b.isAt [.flowEntry] then some b.skip else none
      match b.tokens with
      | .flowSequenceEnd :: _ => return ([], b.skip)
      | .key :: _ =>
        let b := b.skip
        let (key, b) ←
          if b.isAt [.value, .flowEntry, .flowSequenceEnd] then some (Node.blank, b.skip.count 1)
          else node? false false b fuel
        let (value, b) ←
          match b.tokens with
          | .value :: _ => nodeUnless? false false [.flowEntry, .flowSequenceEnd] b.skip fuel
          | _ => some (.blank, b.count 1)
        let (items, b) ← flowItems? false (b.count 2) fuel
        return (.map [(key, value)] none :: items, b)
      | _ =>
        let (item, b) ← node? false false b fuel
        let (items, b) ← flowItems? false b fuel
        return (item :: items, b)

/-- Read the entries of a flow mapping and its end. -/
def flowEntries? (first : Bool) (b : Builder) : (fuel : Nat) → Option (List (Node × Node) × Builder)
  | 0 => none
  | fuel + 1 =>
    match b.tokens with
    | .flowMappingEnd :: _ => some ([], b.skip)
    | _ => do
      let b ← if first then some b else if b.isAt [.flowEntry] then some b.skip else none
      match b.tokens with
      | .flowMappingEnd :: _ => return ([], b.skip)
      | .key :: _ =>
        let (key, b) ← nodeUnless? false false [.value, .flowEntry, .flowMappingEnd] b.skip fuel
        let (value, b) ←
          match b.tokens with
          | .value :: _ => nodeUnless? false false [.flowEntry, .flowMappingEnd] b.skip fuel
          | _ => some (.blank, b.count 1)
        let (entries, b) ← flowEntries? false b fuel
        return ((key, value) :: entries, b)
      | _ =>
        let (key, b) ← node? false false b fuel
        let (entries, b) ← flowEntries? false (b.count 1) fuel
        return ((key, .blank) :: entries, b)

end

/-- Read the directives ahead of a document. The version is given at most once and each handle as
well. -/
def directives? (b : Builder) (versioned : Bool) : (fuel : Nat) → Option Builder
  | 0 => none
  | fuel + 1 =>
    match b.tokens with
    | .versionDirective major minor :: _ =>
      if versioned || major != 1 || !(minor == 1 || minor == 2) then none
      else directives? b.skip true fuel
    | .tagDirective handle expansion :: _ =>
      if b.handles.any fun e => e.1 = handle then none
      else directives? { b.skip with handles := (handle, expansion) :: b.handles } versioned fuel
    | _ => some b

/-- Handles that have an expansion unless a directive gives them another. -/
def standardHandles : List (String × String) := [("!", "!"), ("!!", "tag:yaml.org,2002:")]

end Builder

/-- A document: its root, the nodes that aliases refer to, and the number of its nodes. -/
structure Document where
  root : Node
  anchored : List (Nat × Node) := []
  events : Nat := 1
deriving Inhabited

/-- Read the only document of a list of tokens. Without any token its root is blank. -/
def Document.ofTokens? (ts : List Token) : Option Document := do
  -- a node of the tree takes at most four steps for each of its tokens
  let fuel := 4 * ts.length + 8
  let b : Builder := { tokens := ts }
  if b.isAt [.streamEnd] then return { root := .blank }
  let explicit := match ts with
    | .versionDirective _ _ :: _ | .tagDirective _ _ :: _ | .documentStart :: _ => true
    | _ => false
  let b ← b.directives? false fuel
  let b ←
    if !explicit then some b
    else if b.isAt [.documentStart] then some b.skip
    else none
  let b : Builder := { b with handles := b.handles ++ Builder.standardHandles }
  let isBlank := match b.tokens with
    | .versionDirective _ _ :: _ | .tagDirective _ _ :: _ | .documentStart :: _ | .documentEnd :: _
    | .streamEnd :: _ => explicit
    | _ => false
  let (root, b) ← if isBlank then some (Node.blank, b.count 1) else b.node? true false fuel
  match b.tokens.dropWhile (· == Token.documentEnd) with
  | [.streamEnd] => return { root, anchored := b.anchored, events := b.events }
  | _ => none

/-- Read the only document of a text. -/
def Document.ofText? (text : String) : Option Document := do
  let ts ← tokens? text
  Document.ofTokens? ts

end PipelineCompiler.Yaml
