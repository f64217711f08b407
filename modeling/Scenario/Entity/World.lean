import Scenario.Entity.Basic
import Scenario.Error
import Scenario.Journal
import Scenario.Lock.Table

/-!
# The world of an engine

Everything that outlives a single run: the resources and their contents, the entities parsed from
them and which of those are kept, the named locks and the journal.
-/

namespace Scenario

/-- What an engine works on. -/
structure World where
  /-- The contents of resources. -/
  storage : Storage := {}
  /-- The registered resources. -/
  locator : Locator := []
  /-- The entities made so far, by key. -/
  entities : Array Entity := #[]
  /-- The entities kept for a path. -/
  cache : List (String × EntityKey) := []
  /-- The entities that are being parsed, outermost first. -/
  progress : List EntityKey := []
  /-- The entities that describing tags referred to, in order. -/
  described : Array EntityKey := #[]
  /-- The named locks. -/
  locks : LockTable := {}
  /-- What happened. -/
  journal : Journal := {}
  deriving Inhabited

namespace World

/-- The entity with a key. -/
def entity? (w : World) (key : EntityKey) : Option Entity := w.entities[key]?

/-- The name of an entity. -/
def entityName (w : World) (key : EntityKey) : String := ((w.entity? key).map Entity.name).getD ""

/-- The path of an entity's resource. -/
def entityPath (w : World) (key : EntityKey) : String := ((w.entity? key).map Entity.path).getD ""

/-- Adds an entity. -/
def addEntity (w : World) (e : Entity) : World × EntityKey :=
  ({ w with entities := w.entities.push e }, w.entities.size)

/-- Gives an entity its program. -/
def complete (w : World) (key : EntityKey) (p : Program) : World :=
  { w with entities := w.entities.modify key fun e => { e with program := some p } }

/-- An entity is being parsed. -/
def start (w : World) (key : EntityKey) : World := { w with progress := w.progress ++ [key] }

/-- The innermost entity is no longer being parsed. -/
def stop (w : World) : World := { w with progress := w.progress.dropLast }

/-- No entity is being parsed. -/
def idle (w : World) : World := { w with progress := [] }

/-- The entity kept for a path. -/
def cached? (w : World) (path : String) : Option EntityKey := List.lookup path w.cache

/-- Takes the entity kept for a path away. -/
def evict (w : World) (path : String) : World :=
  { w with cache := w.cache.filter fun e => e.1 != path }

/-- Keeps an entity for a path, in place of the one kept before. -/
def keep (w : World) (path : String) (key : EntityKey) : World :=
  { w.evict path with cache := (path, key) :: (w.evict path).cache }

/-- Takes all kept entities away. -/
def clearCache (w : World) : World := { w with cache := [] }

/-- Whether the resource of an entity is gone or has been changed since it was parsed. -/
def isModified (w : World) (key : EntityKey) : Bool :=
  ((w.entity? key).map fun e => e.isModified w.storage).getD true

/-- Makes an entry in the journal. -/
def enter (w : World) (e : Entry) : World := { w with journal := w.journal.push e }

/-- Writes a log record. -/
def write (w : World) (r : Record) : World := w.enter (.record r)

/-- Registers a resource. -/
def register (w : World) (r : Resource) : World :=
  { w with locator := w.locator.insert r }.write
    ⟨.debug, "Registered resource", [("name", r.name), ("resource", r.path)], false⟩

/-- Registers a document held in memory. -/
def registerMemory (w : World) (now : Stamp) (name content : String) (cacheable : Bool) : World :=
  let (storage, key) := w.storage.add (.memory (some content) now)
  { w with storage }.register ⟨name, "mem:" ++ name, cacheable, .stored key⟩

/-- Registers a document with a path of its own. -/
def registerCustom (w : World) (name path : String) (cacheable : Bool) (d : Document) : World :=
  let (storage, key) := w.storage.add d
  { w with storage }.register ⟨name, path, cacheable, .stored key⟩

/-- Registers the documents in a directory in the order of their names, and gives their number. -/
def registerDirectory (w : World) (dir : String) : Except DiskError (World × Nat) := do
  let names ← w.storage.disk.filesIn dir
  let found := names.filter fun n => fileExtension? n == some "xml"
  let w := found.foldl (fun w n => w.register (.ofFile (joinPath dir n))) w
  return (w.write ⟨.debug, "Scanned resource directory",
    [("dir", dir), ("count", toString found.length)], false⟩, found.length)

/-- Registers the documents in directories, or gives the text for the first one that cannot be
read. -/
def registerDirectories (w : World) : List String → Except String World
  | [] => .ok w
  | dir :: dirs =>
    match w.registerDirectory dir with
    | .ok (w, _) => w.registerDirectories dirs
    | .error _ => .error s!"Failed to scan resource directory {dir}"

end World

/-- A step of parsing. What it did to the world before a failure stays. -/
abbrev Parse := ExceptT ParseError (StateM World)

namespace Parse

variable {α : Type}

/-- Runs a step and gives its result, whether it succeeds or fails. -/
def attempt (x : Parse α) : Parse (Except ParseError α) := ExceptT.lift x.run

/-- Takes a result, or fails with its error. -/
def ofExcept (r : Except ParseError α) : Parse α := ExceptT.mk (pure r)

/-- Runs a step while an entity is being parsed. Afterwards it no longer is, whatever happened. -/
def inProgress (key : EntityKey) (x : Parse α) : Parse α := do
  modify fun w => w.start key
  let r ← attempt x
  modify World.stop
  ofExcept r

end Parse

end Scenario
