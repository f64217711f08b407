import Scenario.Entity.Dump
import Scenario.Run.State

/-!
# Running entities

An entity is run by walking its instructions in document order. For every instruction:

1. it is passed over if the run is being given up or its entity has returned;
2. it becomes the innermost running instruction;
3. its condition is tested;
4. its tag is run and its result bound;
5. it stops running, whatever happened.

A return and the giving up of a run travel as signals beside the outputs. A failure is attributed to
the instruction in which it happened.

## Scope

Entities may call each other in circles, and nothing in a document keeps such a run from going on
for ever. A run is given the number of calls that may be inside each other, `Engine.depthLimit` as
a rule, and fails with `EngineError.tooDeep` beyond it; without a limit it would end when the stack
of the machine is used up.

A mutex that another thread holds is not waited for: the wait counts as timed out at once, since no
other thread takes a step during a run. How threads take turns is the subject of
`Scenario.Proofs.Locks` and `Scenario.Proofs.Queues`.
-/

namespace Scenario

/-- What the instructions of one activation share. -/
structure Activation where
  /-- The engine. -/
  engine : Engine
  /-- The entity. -/
  entity : EntityKey
  /-- Its name. -/
  name : String
  /-- The path of its resource. -/
  path : String
  /-- Runs another entity in a scope. -/
  run : EntityKey → ScopeId → Exec Outcome

namespace Activation

/-- The scope of the entity, seen from a scope. -/
def entityScope (act : Activation) (a : Arena) (s : ScopeId) : ScopeId :=
  (a.entityScope? s act.entity).getD s

/-- The signal that keeps an instruction from starting. -/
def blocked? (act : Activation) (c : Chain) (s : ScopeId) : Option Signal :=
  if c.aborting then some .abort
  else if !c.stack.isEmpty &&
      ((c.scopes.entityScope? s act.entity).map c.scopes.returning).getD false
  then some .return
  else none

/-- Binds a value under a result name in the scope of the entity. -/
def bindResult (act : Activation) (i : Instruction) (s : ScopeId) (b : ResultId)
    (v : Option Value) (check : Bool) : Exec Unit := do
  let a ← Exec.scopes
  let key ← Exec.orFail (b.key a s)
  let home := act.entityScope a s
  match a.set home key (some i.name) (v.getD .null) check with
  | .ok _ => Exec.bindName home ⟨key, v.getD .null, some i.name⟩
  | .error c => throw (.conflict c)

/-- Binds a value under a result name; unless the entity permits it the name must be new. -/
def publish (act : Activation) (i : Instruction) (s : ScopeId) (b : ResultId) (v : Option Value) :
    Exec Unit := do
  let a ← Exec.scopes
  act.bindResult i s b v !(a.overwriteAllowed (act.entityScope a s))

/-! ### Tags -/

/-- The private key that tells whether a branch of the current choice has run. -/
def branchKey : String := "tagflow.control.if_ran"

/-- Notes whether a branch has run. -/
def setBranchRan (s : ScopeId) (ran : Bool) : Exec Unit :=
  Exec.modifyScopes fun a => (a.setInternal s branchKey (.bool ran) false).2

/-- Whether a branch has run. -/
def branchRan (a : Arena) (s : ScopeId) : Bool :=
  match a.internal? s branchKey false with
  | some (.bool b) => b
  | _ => false

/-- Runs the children of a branch. -/
def runBranch (s : ScopeId) (children : ScopeId → Exec Children) : Exec Outcome := do
  let cs ← children s
  setBranchRan s true
  return cs.toOutcome

/-- Whether a name has a value that is not empty, seen from a scope. -/
def hasValue (a : Arena) (s : ScopeId) (id : String) : Bool :=
  ((a.get? s id).map fun v => !v.isEmpty).getD false

/-- Whether a fallback gives way to a value under its result name. If there is none, that is
noted. -/
def givesWay (i : Instruction) (s : ScopeId) : Exec Bool :=
  match i.binding with
  | none => return false
  | some b => do
    let a ← Exec.scopes
    let key ← Exec.orFail (b.key a s)
    if hasValue a s key then return true
    Exec.enter (.vacant s key)
    return false

/-- What a data tag does with its children: their outputs are combined and the value is bound. -/
def storeData (act : Activation) (i : Instruction) (s : ScopeId) (name : String) (mode : DataMode)
    (fallback : Bool) (cs : Children) : Exec Outcome := do
  if cs.signal = .abort then return { signal := .abort }
  let v := Output.aggregate cs.results
  match mode with
  | .sub => return ⟨.named name v, cs.signal⟩
  | .parameter => Exec.bindName s ⟨name, v.getD .null, some name⟩
  | .entry =>
    if let some b := i.binding then
      if fallback then act.bindResult i s b v false else act.publish i s b v
  return ⟨.ofOption v, cs.signal⟩

/-- Runs a data tag. The children of a parameter see the scope of the entity, not the parameters
beside it. -/
def runData (act : Activation) (i : Instruction) (s : ScopeId) (name : String) (mode : DataMode)
    (fallback : Bool) (children : ScopeId → Exec Children) : Exec Outcome := do
  if ← (if fallback then givesWay i s else pure false) then return {}
  let a ← Exec.scopes
  let cs ← children (if mode = .parameter then act.entityScope a s else s)
  act.storeData i s name mode fallback cs

/-- The time that a mutex waits, in milliseconds. -/
def mutexTimeout (act : Activation) (timeout : Option Compiled) (a : Arena) (s : ScopeId) :
    Except String Nat := do
  match timeout with
  | none => return act.engine.settings.mutexTimeoutMs
  | some e =>
    let v ← e.eval a s
    if v.isNull then return act.engine.settings.mutexTimeoutMs
    match v.toNumber? with
    | some x =>
      if x.isNaN || (x.isNegative && !x.isZero) then throw (refused v)
      else return if x.isFinite then min x.truncate (Nat.pow 2 64 - 1) else Nat.pow 2 64 - 1
    | none => throw (refused v)
where
  refused (v : Value) : String :=
    s!"Mutex timeout must be a number of milliseconds, got '{v.display}'"

/-- The name of a mutex; without one it is empty. -/
def mutexName (name : Option Compiled) (a : Arena) (s : ScopeId) : Except String String :=
  match name with
  | some e => (e.text? a s).map fun text => text.getD ""
  | none => .ok ""

/-- Runs a section while a lock is held. The lock is given up whatever happens. -/
def runLocked (s : ScopeId) (name : String) (millis : Nat) (children : ScopeId → Exec Children) :
    Exec Outcome := do
  Exec.write .info "Waiting for mutex" [("name", name)]
  let st ← get
  let (locks, acquired) := st.world.locks.acquire st.chain.thread name millis
  Exec.modifyWorld fun w => { w with locks }
  match acquired with
  | .error e => throw (.action [e.message])
  | .ok g =>
    Exec.write .info "Entered mutex" [("name", name)]
    let r ← Exec.attempt (children s)
    Exec.modifyWorld fun w => { w with locks := w.locks.release g }
    Exec.write .info "Exited mutex" [("name", name)]
    let cs ← Exec.ofExcept r
    return cs.toOutcome

/-- Runs a section that one thread at a time may run. -/
def runMutex (act : Activation) (s : ScopeId) (name timeout : Option Compiled)
    (children : ScopeId → Exec Children) : Exec Outcome := do
  let a ← Exec.scopes
  let name ← Exec.orFail (mutexName name a s)
  let millis ← Exec.orFail (act.mutexTimeout timeout a s)
  runLocked s name millis children

/-- Calls the entity of a resource with the parameters that its children bind. A result that was
already left stays what it is. -/
def runInvoke (act : Activation) (s : ScopeId) (target : String)
    (children : ScopeId → Exec Children) : Exec Outcome :=
  Exec.inChildScope s fun child => do
    let cs ← children child
    if cs.signal = .abort then return { signal := .abort }
    let key ← Exec.parse (act.engine.setup.load target)
    let pending := (← Exec.chain).result
    Exec.modifyChain fun c => { c with result := none }
    let r ← Exec.attempt (act.run key child)
    Exec.modifyChain fun c => { c with result := pending }
    Exec.ofExcept r

/-- What a bean sees of the run. -/
def view (act : Activation) (c : Chain) (s : ScopeId) : CallView where
  scopes := c.scopes
  scope := s
  entityScope := act.entityScope c.scopes s
  entityName := act.name
  entityPath := act.path
  trace := c.trace

/-- Does what the action of a bean asks for. -/
def perform (act : Activation) (s : ScopeId) (children : ScopeId → Exec Children) :
    Action → Exec (Option Value)
  | .done v => pure v
  | .fail f => throw f.toError
  | .look next => do perform act s children (next (act.view (← Exec.chain) s))
  | .write r next => do
    Exec.modifyWorld fun w => w.write r
    perform act s children next
  | .note fields next => do
    Exec.enter (.note fields)
    perform act s children next
  | .setResult v next => do
    Exec.modifyChain fun c => { c with result := v }
    perform act s children next
  | .returnEntity next => do
    let home := act.entityScope (← Exec.scopes) s
    Exec.modifyScopes fun a => a.setReturning home true
    Exec.enter (.returned home)
    perform act s children next
  | .abort next => do
    Exec.modifyChain fun c => { c with aborting := true }
    Exec.enter (.aborted (← Exec.scopes))
    perform act s children next
  | .register closeable next => do
    Exec.modifyChain fun c => { c with closeables := closeable :: c.closeables }
    Exec.enter (.opened closeable)
    perform act s children next
  | .allowOverwrite allowed next => do
    Exec.modifyScopes fun a => a.setOverwriteAllowed (act.entityScope a s) allowed
    perform act s children next
  | .children next => do
    let r ← Exec.attempt (children s)
    perform act s children (next r)
  | .invoke name next => do
    let r ← Exec.attempt (Exec.inChildScope s fun child => do
      act.run (← Exec.parse (act.engine.setup.load name)) child)
    perform act s children (next r)

/-- Calls a bean with the parameters that its children bind. -/
def runBean (act : Activation) (i : Instruction) (s : ScopeId) (b : Bean)
    (children : ScopeId → Exec Children) : Exec Outcome :=
  Exec.inChildScope s fun child => do
    let cs ← children child
    if cs.signal ≠ .none then return { signal := cs.signal }
    let ownId := (i.binding.filter fun id => !id.qualified).map ResultId.attr
    let bound := b.schema.bind (← Exec.scopes) child ownId act.engine.settings.strictParameters
    let fs ← Exec.orFail (bound.mapError BindError.message)
    Exec.enter (.call b.typeName fs)
    let v ← act.perform child children (b.act fs)
    let c ← Exec.chain
    let signal := if c.aborting then .abort
      else if c.scopes.returning (act.entityScope c.scopes child) then .return
      else .none
    return ⟨.ofOption v, signal⟩

/-- Runs the tag of an instruction; `children` runs its children in a scope. -/
def runTag (act : Activation) (i : Instruction) (s : ScopeId)
    (children : ScopeId → Exec Children) : Exec Outcome :=
  match i.tag with
  | .scenario => do
    let cs ← children s
    let result := (← Exec.chain).result
    Exec.modifyChain fun c => { c with result := none }
    return ⟨.ofOption result, cs.signal⟩
  | .block _ => do return (← children s).toOutcome
  | .data name mode fallback => act.runData i s name mode fallback children
  | .literal text => return { output := .value (.str text) }
  | .expression e => do
    let v ← Exec.orFail (e.eval (← Exec.scopes) s)
    return if v.isNull then {} else { output := .value v }
  | .conditional => runBranch s children
  | .alternative => do if branchRan (← Exec.scopes) s then return {} else runBranch s children
  | .mutex name timeout => act.runMutex s name timeout children
  | .invoke target => act.runInvoke s target children
  | .bean b => act.runBean i s b children
  | .fixed _ _ v _ => return { output := .value v }

/-- What happens instead when the condition of an instruction does not hold. -/
def skip (i : Instruction) (s : ScopeId) : Exec Unit :=
  match i.tag with
  | .conditional => setBranchRan s false
  | .fixed _ _ _ (some reason) => throw (.action [reason])
  | _ => pure ()

/-! ### Instructions -/

/-- Whether the condition of an instruction holds; without one it does. -/
def allowed (i : Instruction) (a : Arena) (s : ScopeId) : Except String Bool :=
  match i.guard with
  | none => .ok true
  | some g => g.allows a s

/-- Tests the condition of an instruction, runs its tag and binds the result. -/
def runNode (act : Activation) (i : Instruction) (s : ScopeId)
    (children : ScopeId → Exec Children) : Exec Outcome := do
  if !(← Exec.orFail (allowed i (← Exec.scopes) s)) then
    skip i s
    return {}
  let o ← act.runTag i s children
  if let some b := i.binding then
    if i.tag.publishes && o.signal ≠ .abort then
      act.publish i s b o.output.toValue?
  return o

/-- Attributes a failure to an instruction, unless it is attributed already. -/
def blame (act : Activation) (i : Instruction) (s : ScopeId) (e : EngineError) :
    Exec EngineError := do
  let c ← Exec.chain
  if c.origin.isNone then
    let origin : ErrorOrigin := ⟨c.scopes.seq s, act.path, i.name, i.line, c.scopes.visible s⟩
    Exec.modifyChain fun c => { c with origin := some origin }
  match e with
  | .action causes =>
    Exec.write .error ("Action failed: " ++ joinCauses causes)
      [("tag", i.name), ("line", toString i.line), ("resource", act.path)]
    return .runtime ⟨i.name, i.line, act.path, c.scopes.seq s, c.trace, causes⟩
  | e => return e

/-- Attributes a result to an instruction if it is a failure. -/
def ascribe (act : Activation) (i : Instruction) (s : ScopeId) :
    Except EngineError Outcome → Exec (Except EngineError Outcome)
  | .ok o => return .ok o
  | .error e => return .error (← act.blame i s e)

/-- An instruction as it stands in a scope. -/
def moment (act : Activation) (id : NodeId) (i : Instruction) (c : Chain) (s : ScopeId) :
    Moment where
  entity := act.entity
  node := id
  tag := i.name
  scope := c.scopes.seq s
  visible := (c.scopes.visible s).length
  home := c.scopes.entityScope? s act.entity
  running := c.stack

/-- An instruction as it runs. -/
def running (act : Activation) (id : NodeId) (i : Instruction) : StackFrame :=
  ⟨act.entity, id, i.described act.name⟩

/-- Runs an instruction in a scope; `children` runs its children. -/
def step (act : Activation) (id : NodeId) (i : Instruction) (s : ScopeId)
    (children : ScopeId → Exec Children) : Exec Outcome := do
  if let some signal := act.blocked? (← Exec.chain) s then return { signal }
  Exec.modifyChain fun c => { c with stack := act.running id i :: c.stack }
  Exec.emit (.tagEntry (act.moment id i (← Exec.chain) s))
  let r ← act.ascribe i s (← Exec.attempt (act.runNode i s children))
  Exec.modifyChain fun c => { c with stack := c.stack.tail }
  Exec.emit (.tagExit (act.moment id i (← Exec.chain) s))
  Exec.ofExcept r

mutual

/-- Runs a program in a scope. -/
def exec (act : Activation) : Program → ScopeId → Exec Outcome
  | .node (id, i) ts, s => act.step id i s fun s => execAll act ts s

/-- Runs programs one after the other, up to the first signal. -/
def execAll (act : Activation) : List Program → ScopeId → Exec Children
  | [], _ => pure {}
  | t :: ts, s => do
    let o ← exec act t s
    if o.signal ≠ .none then return ⟨[o.output], o.signal⟩
    let rest ← execAll act ts s
    return { rest with results := o.output :: rest.results }

end

/-- Runs the entity in its scope. An entity without a program cannot be run. -/
def execRoot (act : Activation) (p : Option Program) (s : ScopeId) : Exec Outcome := do
  match p with
  | some p => act.exec p s
  | none =>
    if let some signal := act.blocked? (← Exec.chain) s then return { signal }
    throw (.parse (.notExecutable act.path))

end Activation

namespace Engine

/-- The activation of an entity, given how other entities are run. -/
def activation (e : Engine) (run : EntityKey → ScopeId → Exec Outcome) (w : World)
    (key : EntityKey) : Activation where
  engine := e
  entity := key
  name := w.entityName key
  path := w.entityPath key
  run

/-- Runs an entity with a scope as its own; entities may invoke each other `depth` deep. What was
opened meanwhile is closed whatever happens, and a return ends here. -/
def runEntity (e : Engine) : Nat → EntityKey → ScopeId → Exec Outcome
  | 0, _, _ => throw .tooDeep
  | depth + 1, key, s => do
    let w := (← get).world
    let act := e.activation (e.runEntity depth) w key
    Exec.modifyScopes fun a => a.bindEntity s key
    let mark := (← Exec.chain).closeables.length
    Exec.emit (.entityEntry key act.name ((← Exec.scopes).seq s))
    let r ← Exec.attempt (act.execRoot ((w.entity? key).bind Entity.program) s)
    Exec.closeSince mark
    Exec.emit (.entityExit key act.name ((← Exec.scopes).seq s))
    let o ← Exec.ofExcept r
    return if o.signal = .return then { o with signal := .none } else o

/-- How deeply entities may invoke each other. -/
def depthLimit : Nat := 1000

/-- Runs the entity registered under a name with parameters, and gives its value. -/
def run (e : Engine) (depth : Nat) (name : String) (params : List (String × Value)) :
    Exec (Option Value) := do
  let key ← Exec.parse (e.setup.load name)
  Exec.emit (.processStart ((← Exec.scopes).seq Arena.root))
  let r ← Exec.attempt (Exec.inChildScope Arena.root fun s => do
    Exec.modifyScopes fun a => params.foldl (fun a p => (a.replace s p.1 none p.2).2) a
    e.runEntity depth key s)
  Exec.emit (.processEnd ((← Exec.scopes).seq Arena.root))
  let o ← Exec.ofExcept r
  return o.output.toValue?

end Engine

end Scenario
