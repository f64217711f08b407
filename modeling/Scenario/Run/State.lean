import Scenario.Entity.Load
import Scenario.Settings.Basic

/-!
# The state of a run

A run works on a chain: the live scopes, the running instructions, the result left by a return, and
what is still to be closed. A failure leaves the chain as it was when it happened.

## Scope

A run is taken by itself. Between its steps nobody else changes the chain: the flag that gives it up
is set before the run or by a bean in it, not by another thread while an instruction is at work.

A chain has no identifier. Listeners are told one with every event of a process, and no step looks
at it; what they are told besides is kept as the events of the journal. Listeners give nothing back.
-/

namespace Scenario

/-- Where the first failure of a chain happened. -/
structure ErrorOrigin where
  /-- The sequence number of the scope. -/
  scope : Nat
  /-- The path of the resource. -/
  resource : String
  /-- The name of the instruction. -/
  tag : String
  /-- Its line. -/
  line : Nat
  /-- What could be seen there. -/
  consts : Entries

/-- The state that successive runs share. -/
structure Chain where
  /-- The live scopes. -/
  scopes : Arena := {}
  /-- The running instructions, innermost first. -/
  stack : List StackFrame := []
  /-- Whether everything is being given up. -/
  aborting : Bool := false
  /-- The result left by a return. -/
  result : Option Value := none
  /-- What is to be closed, latest first. -/
  closeables : List Closeable := []
  /-- Where the first failure happened. -/
  origin : Option ErrorOrigin := none
  /-- The thread of the chain. -/
  thread : Thread := 0
  /-- Whether a scope was ever left while a later one was still open. -/
  misnested : Bool := false
  deriving Inhabited

namespace Chain

/-- A chain whose root scope holds properties. -/
def ofProperties (ps : List (String × String)) : Chain where
  scopes := ps.foldl
    (fun a p => (a.replace Arena.root p.1 (some "property") (.str p.2)).2) {}

/-- The running instructions as text, innermost first. -/
def trace (c : Chain) : List String := c.stack.map StackFrame.described

end Chain

/-- An engine: how entities are made and how they are run. -/
structure Engine where
  /-- How entities are made. -/
  setup : Setup
  /-- The settings. -/
  settings : Settings := {}

namespace Engine

/-- An engine whose entities are kept as the settings say. -/
def ofSettings (registry : Registry) (evaluator : Evaluator) (settings : Settings) : Engine where
  setup := { registry, evaluator, keeps := settings.cacheEntities }
  settings

/-- A new chain with the properties of the settings. -/
def chain (e : Engine) : Chain := .ofProperties e.settings.properties

end Engine

/-- What a run changes. -/
structure RunState where
  /-- The world of the engine. -/
  world : World
  /-- The chain. -/
  chain : Chain

/-- A step of a run. What it did before a failure stays. -/
abbrev Exec := ExceptT EngineError (StateM RunState)

namespace Exec

variable {α : Type}

/-- Runs a step and gives its result, whether it succeeds or fails. -/
def attempt (x : Exec α) : Exec (Except EngineError α) := ExceptT.lift x.run

/-- Takes a result, or fails with its error. -/
def ofExcept (r : Except EngineError α) : Exec α := ExceptT.mk (pure r)

/-- Takes a result, or fails with a cause. -/
def orFail : Except String α → Exec α
  | .ok a => pure a
  | .error cause => throw (.action [cause])

/-- A step of parsing. -/
def parse (x : Parse α) : Exec α := do
  let st ← get
  let (r, world) := x.run.run st.world
  set { st with world }
  match r with
  | .ok a => return a
  | .error e => throw (.parse e)

/-- The chain. -/
def chain : Exec Chain := do return (← get).chain

/-- The live scopes. -/
def scopes : Exec Arena := do return (← get).chain.scopes

/-- Changes the chain. -/
def modifyChain (f : Chain → Chain) : Exec Unit := modify fun st => { st with chain := f st.chain }

/-- Changes the scopes. -/
def modifyScopes (f : Arena → Arena) : Exec Unit :=
  modifyChain fun c => { c with scopes := f c.scopes }

/-- Changes the world. -/
def modifyWorld (f : World → World) : Exec Unit := modify fun st => { st with world := f st.world }

/-- Writes a log record. -/
def write (level : Level) (message : String) (fields : List (String × String)) : Exec Unit :=
  modifyWorld fun w => w.write ⟨level, message, fields, false⟩

/-- Makes an entry in the journal. -/
def enter (e : Entry) : Exec Unit := modifyWorld fun w => w.enter e

/-- Notes an event. -/
def emit (e : Event) : Exec Unit := enter (.event e)

/-- Binds a name in a scope, whether or not it is bound. -/
def bindName (s : ScopeId) (b : Binding) : Exec Unit := do
  modifyScopes fun a => (a.replace s b.id b.origin b.value).2
  enter (.bound s b)

/-- Opens a scope inside another one. -/
def openScope (s : ScopeId) : Exec ScopeId := do
  let (scopes, child) := (← Exec.scopes).enter s
  modifyScopes fun _ => scopes
  return child

/-- Leaves a scope. -/
def leaveScope (s : ScopeId) : Exec Unit :=
  modifyChain fun c => { c with
    scopes := c.scopes.leave s
    misnested := c.misnested || s + 1 != c.scopes.size }

/-- Runs a step in a new scope inside another one. The scope is left whatever happens. -/
def inChildScope (s : ScopeId) (f : ScopeId → Exec α) : Exec α := do
  let child ← openScope s
  let r ← attempt (f child)
  leaveScope child
  ofExcept r

/-- Reports that something could not be flushed or closed. -/
def reportClosing (message name : String) : Option String → Exec Unit
  | some error => write .debug message [("name", name), ("error", error)]
  | none => pure ()

/-- Flushes and closes something. -/
def close (c : Closeable) : Exec Unit := do
  enter (.closing (.flush c))
  reportClosing "Flush failed" c.name c.flushError
  enter (.closing (.close c))
  reportClosing "Close failed" c.name c.closeError

/-- Flushes and closes several things one after the other. -/
def closeAll : List Closeable → Exec Unit
  | [] => pure ()
  | c :: cs => do
    close c
    closeAll cs

/-- Closes what was opened after the first `mark` closeables, latest first. Failures are only
reported. -/
def closeSince (mark : Nat) : Exec Unit := do
  let all := (← Exec.chain).closeables
  let n := all.length - mark
  modifyChain fun c => { c with closeables := all.drop n }
  closeAll (all.take n)

end Exec

end Scenario
