import Scenario.Field.Basic
import Scenario.Log
import Scenario.Scope.Arena

/-!
# Journals

What happens while an engine works, in one sequence: the entries and exits of processes, entities
and instructions, the log records, the calls of beans and their notes, the names that instructions
bind, returns, and what is opened and closed. Each kind of entry has a view of its own.
-/

namespace Scenario

/-- Something that is flushed and closed when the entity that opened it ends. -/
structure Closeable where
  /-- Its name. -/
  name : String
  /-- The text of the failure to flush it. -/
  flushError : Option String := none
  /-- The text of the failure to close it. -/
  closeError : Option String := none
  deriving DecidableEq, Inhabited

/-- A running instruction. -/
structure StackFrame where
  /-- The entity it belongs to. -/
  entity : EntityKey
  /-- Its place there. -/
  node : Nat
  /-- The instruction and the entity as text. -/
  described : String
  deriving DecidableEq

/-- An instruction at the moment when it begins or ends. -/
structure Moment where
  /-- The entity it belongs to. -/
  entity : EntityKey
  /-- Its place there. -/
  node : Nat
  /-- Its name. -/
  tag : String
  /-- The sequence number of the scope it runs in. -/
  scope : Nat
  /-- How many names can be seen from that scope. -/
  visible : Nat
  /-- The scope of the entity, found from that scope. -/
  home : Option ScopeId
  /-- The running instructions, innermost first. -/
  running : List StackFrame
  deriving DecidableEq

/-- An entry or exit. Scopes are given by their sequence number. -/
inductive Event where
  /-- A run begins. -/
  | processStart (scope : Nat)
  /-- A run ends. -/
  | processEnd (scope : Nat)
  /-- An entity begins. -/
  | entityEntry (entity : EntityKey) (name : String) (scope : Nat)
  /-- An entity ends. -/
  | entityExit (entity : EntityKey) (name : String) (scope : Nat)
  /-- An instruction begins. -/
  | tagEntry (m : Moment)
  /-- An instruction ends. -/
  | tagExit (m : Moment)
  deriving DecidableEq

/-- The text of an event. -/
def Event.message : Event → String
  | processStart scope => s!"process start #{scope}"
  | processEnd scope => s!"process end #{scope}"
  | entityEntry _ name scope => s!"enter '{name}' #{scope}"
  | entityExit _ name scope => s!"exit '{name}' #{scope}"
  | tagEntry m => s!"enter <{m.tag}> #{m.scope} ({m.visible})"
  | tagExit m => s!"exit <{m.tag}> #{m.scope} ({m.visible})"

/-- What happens to something that is closed. -/
inductive Closing where
  /-- It is flushed. -/
  | flush (c : Closeable)
  /-- It is closed. -/
  | close (c : Closeable)
  deriving DecidableEq

/-- The text of a closing. -/
def Closing.message : Closing → String
  | flush c => "flush " ++ c.name
  | close c => "close " ++ c.name

/-- Something that happened. -/
inductive Entry where
  /-- A log record was written. -/
  | record (r : Record)
  /-- Something began or ended. -/
  | event (e : Event)
  /-- The action of a bean began. -/
  | call (bean : String) (fields : Fields)
  /-- A bean made a note of its fields. -/
  | note (fields : Fields)
  /-- A data tag with a fallback found no value under its name, looking from a scope. -/
  | vacant (scope : ScopeId) (id : String)
  /-- An instruction bound a name in a scope. -/
  | bound (scope : ScopeId) (b : Binding)
  /-- The entity of a scope returned. -/
  | returned (scope : ScopeId)
  /-- The run was given up, with the scopes as they were then. -/
  | aborted (scopes : Arena)
  /-- Something was opened. -/
  | opened (c : Closeable)
  /-- Something was flushed or closed. -/
  | closing (c : Closing)

/-- What happened, in order. -/
structure Journal where
  /-- The entries. -/
  entries : Array Entry := #[]
  deriving Inhabited

namespace Journal

/-- Adds an entry. -/
def push (j : Journal) (e : Entry) : Journal := ⟨j.entries.push e⟩

/-- The entries, in order. -/
def toList (j : Journal) : List Entry := j.entries.toList

@[simp] theorem toList_push (j : Journal) (e : Entry) : (j.push e).toList = j.toList ++ [e] := by
  simp [push, toList]

/-- The log records. -/
def records (j : Journal) : List Record :=
  j.toList.filterMap fun
    | .record r => some r
    | _ => none

/-- The entries and exits. -/
def events (j : Journal) : List Event :=
  j.toList.filterMap fun
    | .event e => some e
    | _ => none

/-- The calls of beans, with their fields. -/
def calls (j : Journal) : List (String × Fields) :=
  j.toList.filterMap fun
    | .call bean fields => some (bean, fields)
    | _ => none

/-- The fields that beans made a note of. -/
def notes (j : Journal) : List Fields :=
  j.toList.filterMap fun
    | .note fields => some fields
    | _ => none

/-- What was flushed and closed. -/
def closings (j : Journal) : List Closing :=
  j.toList.filterMap fun
    | .closing c => some c
    | _ => none

end Journal

end Scenario
