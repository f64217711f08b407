import Scenario.Scope.Arena

/-!
# Errors

A document can fail to become an entity, a result can be bound twice, and an instruction can fail.
A failure of an instruction is attributed once, to the instruction in which it happened.
-/

namespace Scenario

/-- Why a resource did not become an entity that can be run. -/
inductive ParseError where
  /-- An element could not be made an instruction. -/
  | tag (name : String) (line : Nat) (resource : String) (detail : String)
  /-- The document is malformed. -/
  | xml (resource : String) (detail : String)
  /-- The document cannot be read. -/
  | io (resource : String) (detail : String)
  /-- No resource has this name. -/
  | unknownResource (name : String)
  /-- The resource does not exist or has no known root. -/
  | notExecutable (resource : String)
  /-- Resources refer to each other more deeply than there are resources. -/
  | tooDeep (resource : String)
  deriving DecidableEq

namespace ParseError

/-- The text of a failure to parse. -/
def message : ParseError → String
  | tag name line resource detail =>
    s!"Cannot parse tag <{name}> at line {line}, resource: {resource}: {detail}"
  | xml resource detail => s!"Malformed document {resource}: {detail}"
  | io resource detail => s!"Cannot read resource {resource}: {detail}"
  | unknownResource name => s!"No resource registered under name '{name}'"
  | notExecutable resource => s!"Resource {resource} has no executable root tag"
  | tooDeep resource => s!"Resource {resource} is referred to too deeply"

/-- The line of the element that failed. -/
def line? : ParseError → Option Nat
  | tag _ line _ _ => some line
  | _ => none

/-- The texts of the error and of what caused it. -/
def causes : ParseError → List String
  | e@(io _ detail) => [e.message, detail]
  | e => [e.message]

end ParseError

/-- The text of a failure given by its causes, outermost first. -/
def joinCauses (causes : List String) : String := ": ".intercalate causes

/-- The failure of an instruction. -/
structure RuntimeError where
  /-- The name of the instruction. -/
  tag : String
  /-- Its line. -/
  line : Nat
  /-- The path of its resource. -/
  resource : String
  /-- The sequence number of the scope it ran in. -/
  scope : Nat
  /-- The instructions that were running, innermost first. -/
  trace : List String
  /-- The texts of what went wrong, outermost first. -/
  causes : List String
  deriving DecidableEq

namespace RuntimeError

/-- What went wrong. -/
def detail (e : RuntimeError) : String := joinCauses e.causes

/-- The text of the failure of an instruction. -/
def message (e : RuntimeError) : String :=
  s!"Error executing <{e.tag}> at line {e.line} of {e.resource}: {e.detail}"

end RuntimeError

/-- Why a run failed. -/
inductive EngineError where
  /-- A resource did not become an entity. -/
  | parse (e : ParseError)
  /-- A result was bound twice. -/
  | conflict (c : Conflict)
  /-- An instruction failed. -/
  | runtime (e : RuntimeError)
  /-- Something failed and is not attributed to an instruction yet. -/
  | action (causes : List String)
  /-- Entities invoke each other more deeply than the engine allows. -/
  | tooDeep
  deriving DecidableEq

namespace EngineError

/-- The text of a failed run. -/
def message : EngineError → String
  | parse e => e.message
  | conflict c => c.message
  | runtime e => e.message
  | action causes => joinCauses causes
  | tooDeep => "Invocations nest too deeply"

/-- The texts of the error and of what caused it. -/
def causes : EngineError → List String
  | parse e => e.causes
  | runtime e => e.message :: e.causes
  | e => [e.message]

/-- Whether a result was bound twice. -/
def isConflict : EngineError → Bool
  | conflict _ => true
  | _ => false

/-- Whether an instruction failed. -/
def isRuntime : EngineError → Bool
  | runtime _ => true
  | _ => false

end EngineError

/-- What the action of a bean fails with. -/
inductive Failure where
  /-- A result that was bound twice. -/
  | conflict (c : Conflict)
  /-- A resource that did not become an entity. -/
  | parse (e : ParseError)
  /-- Anything else, by the texts of its causes, outermost first. -/
  | causes (texts : List String)
  deriving DecidableEq

namespace Failure

/-- A failure with one cause. -/
def because (text : String) : Failure := causes [text]

/-- The failure of a bean that gives up because something it started failed. -/
def ofError (e : EngineError) : Failure := causes e.causes

/-- The failure as an error of the run: a conflict and a failure to parse stay what they are. -/
def toError : Failure → EngineError
  | conflict c => .conflict c
  | parse e => .parse e
  | causes texts => .action texts

end Failure

end Scenario
