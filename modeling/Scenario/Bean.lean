import Scenario.Error
import Scenario.Field.Binding
import Scenario.Journal
import Scenario.Output

/-!
# Beans

A bean is an action with declared fields. What the action does is a tree of requests to the run it
is part of: it looks at the run, writes records, leaves a result, and at the end gives a value or
fails. A bean never touches the run by itself.

## Scope

The requests are those of `Action`. A bean sees the scopes, but there is no request for binding a
name in one, for changing its private storage, or for running something in a scope of the bean's
choice. What holds of all beans here holds of those that leave the scopes to the engine. Whatever
else a bean may do, to files or to other threads, is no part of a run.
-/

namespace Scenario

/-- What a bean sees of the run it is part of. -/
structure CallView where
  /-- The live scopes. -/
  scopes : Arena
  /-- The scope of the call. -/
  scope : ScopeId
  /-- The scope of the entity that the call belongs to. -/
  entityScope : ScopeId
  /-- The name of that entity. -/
  entityName : String
  /-- The path of that entity's resource. -/
  entityPath : String
  /-- The running instructions, innermost first. -/
  trace : List String

/-- What the action of a bean does. -/
inductive Action where
  /-- It ends with a value or none. -/
  | done (v : Option Value)
  /-- It fails. -/
  | fail (f : Failure)
  /-- It looks at the run. -/
  | look (next : CallView → Action)
  /-- It writes a log record. -/
  | write (r : Record) (next : Action)
  /-- It makes a note of its fields. -/
  | note (fields : Fields) (next : Action)
  /-- It leaves a result for the entity. -/
  | setResult (v : Option Value) (next : Action)
  /-- It makes the entity return. -/
  | returnEntity (next : Action)
  /-- It gives up the whole run. -/
  | abort (next : Action)
  /-- It opens something that is closed with the entity. -/
  | register (c : Closeable) (next : Action)
  /-- It permits or forbids binding results anew in the entity. -/
  | allowOverwrite (allowed : Bool) (next : Action)
  /-- It runs the children of its tag once more. -/
  | children (next : Except EngineError Children → Action)
  /-- It runs an entity in a scope of its own. -/
  | invoke (name : String) (next : Except EngineError Outcome → Action)

/-- An action with declared fields. -/
structure Bean where
  /-- What dumps call it. -/
  typeName : String
  /-- Its fields. -/
  schema : Schema
  /-- What it does with the values of its fields. -/
  act : Fields → Action

end Scenario
