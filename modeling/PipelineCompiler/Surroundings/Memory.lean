import PipelineCompiler.Path
import PipelineCompiler.Surroundings
import PipelineCompiler.Text.Cut

/-!
# Surroundings held in memory

Files and application manifests under the normal forms of their paths. What is added later stands in
place of what was there. A directory exists as soon as something stands below it.
-/

namespace PipelineCompiler

/-- Put a value under a key, in place of what was there. -/
def putEntry (key : String) (value : α) (entries : List (String × α)) : List (String × α) :=
  (key, value) :: entries.filter fun e => e.1 ≠ key

/-- The value under a key. -/
def valueAt? (key : String) (entries : List (String × α)) : Option α :=
  (entries.find? fun e => e.1 = key).map Prod.snd

/-- Files under the normal forms of their paths. -/
structure MemoryFiles where
  entries : List (String × FileEntry) := []
deriving DecidableEq, Repr, Inhabited

namespace MemoryFiles

/-- Add an entry at a path. -/
def add (m : MemoryFiles) (path : String) (entry : FileEntry) : MemoryFiles :=
  ⟨putEntry (Path.normalize path) entry m.entries⟩

/-- Something stands at the path or below it. -/
def exists? (m : MemoryFiles) (path : String) : Bool :=
  let path := Path.normalize path
  m.entries.any fun e => e.1 = path || Text.startsWith e.1 (path ++ "/")

/-- What keeps the path from being a file with content, and an executable one if that is asked. -/
def check (m : MemoryFiles) (path : String) (executable : Bool) : Option FileIssue :=
  match valueAt? (Path.normalize path) m.entries with
  | some entry => entry.issue? executable
  | none => some (if m.exists? path then .isDirectory else .notFound)

/-- The files as something that can be asked. -/
def probe (m : MemoryFiles) : FileProbe := ⟨m.check, m.exists?⟩

end MemoryFiles

/-- Application manifests under the normal forms of their paths; a failure is a message. -/
structure MemoryInventory where
  manifests : List (String × Except String (List Application)) := []

namespace MemoryInventory

/-- Add what is read at a path. -/
def add (m : MemoryInventory) (path : String) (answer : Except String (List Application)) :
    MemoryInventory :=
  ⟨putEntry (Path.normalize path) answer m.manifests⟩

/-- What is read at a path. -/
def applications (m : MemoryInventory) : Inventory := fun path _ _ =>
  (valueAt? (Path.normalize path) m.manifests).getD
    (.error ("open " ++ path ++ ": no such file or directory"))

end MemoryInventory

end PipelineCompiler
