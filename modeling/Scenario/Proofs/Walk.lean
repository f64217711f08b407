import Scenario.Proofs.Steps
import Mathlib.Logic.Relation

/-!
# Walks

A walk is an execution without the bound on nested entities: `Walk act task s st o st'` says that
the activation `act` can run the task in scope `s` from state `st`, ending as `o` in state `st'`.
The rules of `Walk` say once what an instruction can do to the state, so that whatever holds of
every rule holds of every run.

* `Stir` is a change of the state that binds nothing, `Binds` one that binds a name. A fallback
  looks for a value before and binds without looking again, so it has a rule of its own.
* `Deed` is one request of the action of a bean.
* `Task` tells apart what is run: programs, an instruction that has begun, the action of a bean, the
  root of an entity, another entity.

That every run is a walk is proved in `Scenario.Proofs.Adequacy`.
-/

namespace Scenario

/-- How something that was run ended: with a signal or with an error. -/
abbrev Ending := Except EngineError Signal

/-- What leaves an entity: a return ends there. -/
def Ending.outside (o : Ending) : Ending := o.map fun sig => if sig = .return then .none else sig

/-- What an activation runs. -/
inductive Task where
  /-- Programs one after the other, up to the first signal. -/
  | all (ps : List Program)
  /-- One program. -/
  | one (p : Program)
  /-- An instruction that has begun, with the programs below it. -/
  | body (i : Instruction) (ts : List Program)
  /-- The action of a bean, with the programs below its instruction. -/
  | deed (a : Action) (ts : List Program)
  /-- The root of the entity, if it has one. -/
  | root (p : Option Program)
  /-- Another entity, with the scope as its own. -/
  | entity (key : EntityKey)

/-- Whether a tag runs what is below it in a scope that is there already. -/
def Tag.encloses : Tag → Bool
  | .scenario | .block _ | .data _ _ _ | .conditional | .alternative | .mutex _ _ => true
  | _ => false

/-- Whether a tag calls something, with the parameters below it. -/
def Tag.calls : Tag → Bool
  | .bean _ | .invoke _ => true
  | _ => false

/-- The signals of its parameters that keep a call from being made: any for a bean, for a resource
only that the run is given up. -/
def Tag.haltedBy : Tag → Signal → Bool
  | .bean _, sig => sig != .none
  | .invoke _, sig => sig == .abort
  | _, _ => false

namespace Activation

/-! ### Begin and end -/

/-- The state in which an instruction has begun. -/
def begun (act : Activation) (id : NodeId) (i : Instruction) (s : ScopeId) (st : RunState) :
    RunState :=
  let st := st.withStack (act.running id i :: st.chain.stack)
  st.log [.event (.tagEntry (act.moment id i st.chain s))]

/-- The state in which an instruction has ended. -/
def ended (act : Activation) (id : NodeId) (i : Instruction) (s : ScopeId) (st : RunState) :
    RunState :=
  let st := st.withStack st.chain.stack.tail
  st.log [.event (.tagExit (act.moment id i st.chain s))]

/-- The state in which the entity has a scope as its own. -/
def entered (act : Activation) (s : ScopeId) (st : RunState) : RunState :=
  let st := st.mapScopes fun a => a.bindEntity s act.entity
  st.log [.event (.entityEntry act.entity act.name (st.scopes.seq s))]

/-- The state in which the entity has ended and what it opened is closed. -/
def exited (act : Activation) (s : ScopeId) (mark : Nat) (st : RunState) : RunState :=
  let st := st.closed mark
  st.log [.event (.entityExit act.entity act.name (st.scopes.seq s))]

/-- The signal of a bean whose action has ended. -/
def signalIn (act : Activation) (c : Chain) (s : ScopeId) : Signal :=
  if c.aborting then .abort
  else if c.scopes.returning (act.entityScope c.scopes s) then .return
  else .none

/-- The scope in which the children of an instruction run that makes no call: those of a parameter
run in the scope of the entity. -/
def childScope (act : Activation) (t : Tag) (a : Arena) (s : ScopeId) : ScopeId :=
  match t with
  | .data _ .parameter _ => act.entityScope a s
  | _ => s

/-- The activation that runs an entity of a world. -/
structure Serves (act : Activation) (e : Engine) (key : EntityKey) (w : World) : Prop where
  engine : act.engine = e
  entity : act.entity = key
  name : act.name = w.entityName key
  path : act.path = w.entityPath key

end Activation

/-! ### Changes -/

/-- A change of the state that binds no name: in the journal, the locks, the parsed resources, the
private note that a branch has run, or the place of the first failure. -/
inductive Stir (act : Activation) (s : ScopeId) (st : RunState) : RunState → Prop
  /-- A log record is written. -/
  | record (r : Record) : Stir act s st (st.log [.record r])
  /-- Locks are taken or given up. -/
  | locks (l : LockTable) : Stir act s st (st.withLocks l)
  /-- A resource is asked for. -/
  | load (name : String) : Stir act s st (st.loading act.engine.setup name)
  /-- It is noted that a name has no value. -/
  | vacant (id : String) : Stir act s st (st.log [.vacant s id])
  /-- It is noted whether a branch has run. -/
  | branch (ran : Bool) : Stir act s st
      (st.mapScopes fun a => (a.setInternal s Activation.branchKey (.bool ran) false).2)
  /-- The place of the first failure is noted. -/
  | origin (o : ErrorOrigin) : Stir act s st { st with chain := { st.chain with origin := some o } }

/-- Any number of such changes. -/
abbrev Stirs (act : Activation) (s : ScopeId) : RunState → RunState → Prop :=
  Relation.ReflTransGen (Stir act s)

/-- The value of an instruction is bound. -/
inductive Binds (act : Activation) (i : Instruction) (s : ScopeId) (st : RunState) : RunState → Prop
  /-- As a result, in the scope of the entity: the name is new there, unless the entity permits
  binding anew. -/
  | result (b : Binding) :
      (st.scopes.overwriteAllowed (act.entityScope st.scopes s) = false →
        st.scopes.has (act.entityScope st.scopes s) b.id = false) →
      Binds act i s st (st.bound (act.entityScope st.scopes s) b)
  /-- As a parameter, in the scope that the instruction runs in. -/
  | parameter (b : Binding) {name : String} {fallback : Bool} :
      i.tag = .data name .parameter fallback → Binds act i s st (st.bound s b)

/-- One request of the action of a bean, with what is left of the action. Requests that run
something are rules of `Walk`. -/
inductive Deed (act : Activation) (s : ScopeId) (st : RunState) : Action → Action → RunState → Prop
  /-- It looks at the run. -/
  | look {next : CallView → Action} : Deed act s st (.look next) (next (act.view st.chain s)) st
  /-- It writes a log record. -/
  | write {r : Record} {next : Action} : Deed act s st (.write r next) next (st.log [.record r])
  /-- It makes a note of its fields. -/
  | note {fs : Fields} {next : Action} : Deed act s st (.note fs next) next (st.log [.note fs])
  /-- It leaves a result. -/
  | setResult {v : Option Value} {next : Action} :
      Deed act s st (.setResult v next) next (st.withResult v)
  /-- It makes the entity return. -/
  | returnEntity {next : Action} : Deed act s st (.returnEntity next) next
      ((st.mapScopes fun a => a.setReturning (act.entityScope st.scopes s) true).log
        [.returned (act.entityScope st.scopes s)])
  /-- It gives up the run. -/
  | abort {next : Action} : Deed act s st (.abort next) next
      ({ st with chain := { st.chain with aborting := true } }.log [.aborted st.scopes])
  /-- It opens something. -/
  | register {c : Closeable} {next : Action} : Deed act s st (.register c next) next
      ({ st with chain := { st.chain with closeables := c :: st.chain.closeables } }.log
        [.opened c])
  /-- It permits or forbids binding results anew. -/
  | allowOverwrite {allowed : Bool} {next : Action} :
      Deed act s st (.allowOverwrite allowed next) next
        (st.mapScopes fun a => a.setOverwriteAllowed (act.entityScope a s) allowed)

/-! ### The rules -/

/-- `Walk act task s st o st'`: the activation runs the task in scope `s` from `st`, which ends as
`o` in `st'`. -/
inductive Walk : Activation → Task → ScopeId → RunState → Ending → RunState → Prop
  /-- Nothing is left to run. -/
  | nil {act : Activation} {s : ScopeId} {st : RunState} : Walk act (.all []) s st (.ok .none) st
  /-- A program lets the next ones run. -/
  | next {act : Activation} {p : Program} {ps : List Program} {s : ScopeId} {st st₁ st₂ : RunState}
      {o : Ending} : Walk act (.one p) s st (.ok .none) st₁ → Walk act (.all ps) s st₁ o st₂ →
      Walk act (.all (p :: ps)) s st o st₂
  /-- A program stops the next ones. -/
  | stop {act : Activation} {p : Program} {ps : List Program} {s : ScopeId} {st st₁ : RunState}
      {o : Ending} : Walk act (.one p) s st o st₁ → o ≠ .ok .none →
      Walk act (.all (p :: ps)) s st o st₁
  /-- An instruction is passed over. -/
  | pass {act : Activation} {p : Program} {s : ScopeId} {st : RunState} {sig : Signal} :
      act.blocked? st.chain s = some sig → Walk act (.one p) s st (.ok sig) st
  /-- An instruction begins and ends. -/
  | node {act : Activation} {id : NodeId} {i : Instruction} {ts : List Program} {s : ScopeId}
      {st st₁ : RunState} {sig : Signal} : act.blocked? st.chain s = none →
      Walk act (.body i ts) s (act.begun id i s st) (.ok sig) st₁ →
      Walk act (.one (.node (id, i) ts)) s st (.ok sig) (act.ended id i s st₁)
  /-- An instruction begins and fails. -/
  | blamed {act : Activation} {id : NodeId} {i : Instruction} {ts : List Program} {s : ScopeId}
      {st st₁ st₂ : RunState} {e e' : EngineError} : act.blocked? st.chain s = none →
      Walk act (.body i ts) s (act.begun id i s st) (.error e) st₁ →
      (act.blame i s e).on st₁ = (.ok e', st₂) → Stirs act s st₁ st₂ →
      Walk act (.one (.node (id, i) ts)) s st (.error e') (act.ended id i s st₂)
  /-- An instruction runs nothing below it. -/
  | alone {act : Activation} {i : Instruction} {ts : List Program} {s : ScopeId}
      {st st₁ : RunState} {o : Ending} : Stirs act s st st₁ → (∀ sig, o = .ok sig → sig = .none) →
      Walk act (.body i ts) s st o st₁
  /-- An instruction runs what is below it, in its own scope or in the one of the entity. -/
  | inside {act : Activation} {i : Instruction} {ts : List Program} {s u : ScopeId}
      {st st₁ st₂ : RunState} {o : Ending} : i.tag.encloses = true →
      u = act.childScope i.tag st.scopes s → Stirs act s st st₁ →
      Walk act (.all ts) u st₁ o st₂ → Walk act (.body i ts) s st o st₂
  /-- The usual root takes the result that its children left. -/
  | take {act : Activation} {i : Instruction} {ts : List Program} {s : ScopeId}
      {st st₁ : RunState} {sig : Signal} : i.tag = .scenario →
      Walk act (.all ts) s st (.ok sig) st₁ →
      Walk act (.body i ts) s st (.ok sig) (st₁.withResult none)
  /-- An instruction does something more before it ends. -/
  | settle {act : Activation} {i : Instruction} {ts : List Program} {s : ScopeId}
      {st st₁ st₂ : RunState} {o : Ending} : Walk act (.body i ts) s st o st₁ →
      Stirs act s st₁ st₂ → Walk act (.body i ts) s st o st₂
  /-- The value of an instruction is bound. -/
  | bind {act : Activation} {i : Instruction} {ts : List Program} {s : ScopeId}
      {st st₁ st₂ : RunState} {sig : Signal} : Walk act (.body i ts) s st (.ok sig) st₁ →
      sig ≠ .abort → Binds act i s st₁ st₂ → Walk act (.body i ts) s st (.ok sig) st₂
  /-- The value of an instruction cannot be bound. -/
  | refuse {act : Activation} {i : Instruction} {ts : List Program} {s : ScopeId}
      {st st₁ : RunState} {sig : Signal} {e : EngineError} :
      Walk act (.body i ts) s st (.ok sig) st₁ → sig ≠ .abort →
      Walk act (.body i ts) s st (.error e) st₁
  /-- A fallback finds no value, runs what is below it and binds what that gives, under the name
  that it has by then. -/
  | fallback {act : Activation} {i : Instruction} {ts : List Program} {s : ScopeId}
      {st st₁ : RunState} {name id : String} {sig : Signal} (b : Binding) :
      i.tag = .data name .entry true → Activation.hasValue st.scopes s id = false →
      Walk act (.all ts) s (st.log [.vacant s id]) (.ok sig) st₁ → sig ≠ .abort →
      Walk act (.body i ts) s st (.ok sig) (st₁.bound (act.entityScope st₁.scopes s) b)
  /-- The parameters of a call keep it from being made. -/
  | halt {act : Activation} {i : Instruction} {ts : List Program} {s : ScopeId}
      {st st₁ : RunState} {o : Ending} : i.tag.calls = true →
      Walk act (.all ts) st.scopes.size (st.opened s) o st₁ →
      (∀ sig, o = .ok sig → i.tag.haltedBy sig = true) →
      Walk act (.body i ts) s st o (st₁.left st.scopes.size)
  /-- A call cannot be made with its parameters. -/
  | misfit {act : Activation} {i : Instruction} {ts : List Program} {s : ScopeId}
      {st st₁ st₂ : RunState} {sig : Signal} {e : EngineError} : i.tag.calls = true →
      Walk act (.all ts) st.scopes.size (st.opened s) (.ok sig) st₁ → sig ≠ .abort →
      Stirs act st.scopes.size st₁ st₂ →
      Walk act (.body i ts) s st (.error e) (st₂.left st.scopes.size)
  /-- A bean is called. -/
  | call {act : Activation} {i : Instruction} {ts : List Program} {s : ScopeId}
      {st st₁ st₂ : RunState} {b : Bean} {fs : Fields} {o : Ending} : i.tag = .bean b →
      Walk act (.all ts) st.scopes.size (st.opened s) (.ok .none) st₁ →
      Walk act (.deed (b.act fs) ts) st.scopes.size (st₁.log [.call b.typeName fs]) o st₂ →
      Walk act (.body i ts) s st (o.map fun _ => act.signalIn st₂.chain st.scopes.size)
        (st₂.left st.scopes.size)
  /-- The entity of a resource is called. -/
  | invoke {act : Activation} {i : Instruction} {ts : List Program} {s : ScopeId}
      {st st₁ st₂ : RunState} {target : String} {key : EntityKey} {sig : Signal} {o : Ending} :
      i.tag = .invoke target → Walk act (.all ts) st.scopes.size (st.opened s) (.ok sig) st₁ →
      sig ≠ .abort → ((act.engine.setup.load target).run.run st₁.world).1 = .ok key →
      Walk act (.entity key) st.scopes.size
        ((st₁.loading act.engine.setup target).withResult none) o st₂ →
      Walk act (.body i ts) s st o ((st₂.withResult st₁.chain.result).left st.scopes.size)
  /-- The action of a bean ends. -/
  | done {act : Activation} {v : Option Value} {ts : List Program} {s : ScopeId} {st : RunState} :
      Walk act (.deed (.done v) ts) s st (.ok .none) st
  /-- The action of a bean fails. -/
  | fail {act : Activation} {f : Failure} {ts : List Program} {s : ScopeId} {st : RunState} :
      Walk act (.deed (.fail f) ts) s st (.error f.toError) st
  /-- The action of a bean makes a request. -/
  | deed {act : Activation} {a a' : Action} {ts : List Program} {s : ScopeId}
      {st st₁ st₂ : RunState} {o : Ending} : Deed act s st a a' st₁ →
      Walk act (.deed a' ts) s st₁ o st₂ → Walk act (.deed a ts) s st o st₂
  /-- The action of a bean runs what is below its instruction. -/
  | again {act : Activation} {next : Except EngineError Children → Action} {ts : List Program}
      {s : ScopeId} {st st₁ st₂ : RunState} {r : Except EngineError Children} {o : Ending} :
      Walk act (.all ts) s st (r.map Children.signal) st₁ →
      Walk act (.deed (next r) ts) s st₁ o st₂ → Walk act (.deed (.children next) ts) s st o st₂
  /-- The action of a bean asks for an entity that cannot be had. -/
  | unfound {act : Activation} {name : String} {next : Except EngineError Outcome → Action}
      {ts : List Program} {s : ScopeId} {st st₁ : RunState} {r : Except EngineError Outcome}
      {o : Ending} :
      Walk act (.deed (next r) ts) s
        (((st.opened s).loading act.engine.setup name).left st.scopes.size) o st₁ →
      Walk act (.deed (.invoke name next) ts) s st o st₁
  /-- The action of a bean runs an entity. -/
  | summon {act : Activation} {name : String} {next : Except EngineError Outcome → Action}
      {ts : List Program} {s : ScopeId} {st st₁ st₂ : RunState} {key : EntityKey}
      {r : Except EngineError Outcome} {o : Ending} :
      Walk act (.entity key) st.scopes.size ((st.opened s).loading act.engine.setup name)
        (r.map Outcome.signal) st₁ →
      Walk act (.deed (next r) ts) s (st₁.left st.scopes.size) o st₂ →
      Walk act (.deed (.invoke name next) ts) s st o st₂
  /-- The root of an entity is run as any other instruction. -/
  | root {act : Activation} {p : Program} {s : ScopeId} {st st₁ : RunState} {o : Ending} :
      Walk act (.one p) s st o st₁ → Walk act (.root (some p)) s st o st₁
  /-- An entity without a root is passed over. -/
  | empty {act : Activation} {s : ScopeId} {st : RunState} {sig : Signal} :
      act.blocked? st.chain s = some sig → Walk act (.root none) s st (.ok sig) st
  /-- An entity without a root cannot be run. -/
  | missing {act : Activation} {s : ScopeId} {st : RunState} : act.blocked? st.chain s = none →
      Walk act (.root none) s st (.error (.parse (.notExecutable act.path))) st
  /-- Entities nest too deeply. -/
  | tooDeep {act : Activation} {key : EntityKey} {s : ScopeId} {st : RunState} :
      Walk act (.entity key) s st (.error .tooDeep) st
  /-- An entity is run by an activation of its own. -/
  | activate {act act' : Activation} {key : EntityKey} {s : ScopeId} {st st₁ : RunState}
      {o : Ending} : act'.Serves act.engine key st.world →
      Walk act' (.root ((st.world.entity? key).bind Entity.program)) s (act'.entered s st) o st₁ →
      Walk act (.entity key) s st o.outside (act'.exited s st.chain.closeables.length st₁)

/-! ### Requests of a bean -/

namespace Walk

variable {act : Activation} {ts : List Program} {s : ScopeId} {st st' : RunState} {o : Ending}
  {next : Action}

theorem of_done {v : Option Value} (h : Walk act (.deed (.done v) ts) s st o st') :
    o = .ok .none ∧ st' = st := by
  cases h with
  | done => exact ⟨rfl, rfl⟩
  | deed hd _ => cases hd

theorem of_look {next : CallView → Action} (h : Walk act (.deed (.look next) ts) s st o st') :
    Walk act (.deed (next (act.view st.chain s)) ts) s st o st' := by
  cases h with
  | deed hd hw => cases hd; exact hw

theorem of_write {r : Record} (h : Walk act (.deed (.write r next) ts) s st o st') :
    Walk act (.deed next ts) s (st.log [.record r]) o st' := by
  cases h with
  | deed hd hw => cases hd; exact hw

theorem of_setResult {v : Option Value} (h : Walk act (.deed (.setResult v next) ts) s st o st') :
    Walk act (.deed next ts) s (st.withResult v) o st' := by
  cases h with
  | deed hd hw => cases hd; exact hw

theorem of_returnEntity (h : Walk act (.deed (.returnEntity next) ts) s st o st') :
    Walk act (.deed next ts) s
      ((st.mapScopes fun a => a.setReturning (act.entityScope st.scopes s) true).log
        [.returned (act.entityScope st.scopes s)]) o st' := by
  cases h with
  | deed hd hw => cases hd; exact hw

theorem of_abort (h : Walk act (.deed (.abort next) ts) s st o st') :
    Walk act (.deed next ts) s
      ({ st with chain := { st.chain with aborting := true } }.log [.aborted st.scopes]) o st' := by
  cases h with
  | deed hd hw => cases hd; exact hw

end Walk

end Scenario
