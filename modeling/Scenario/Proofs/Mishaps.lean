import Scenario.Proofs.Walk

/-!
# Where a run goes wrong

An error passes every instruction around the one that raised it, also those of the entities that
called each other. This module says where it comes from.

* `TagFault`, `NodeFault` — an instruction that has begun fails by itself: everything below it, and
  the entity that it calls, has ended well by then or was not run. The rules give the error as it
  was raised and the state at that moment.
* **`Mishap`** finds the instruction of a run that fails by itself, and collects the instructions
  around it, innermost first.
* `Attributed` — the error that leaves a run and the place that the chain remembers are those of
  this instruction, read off the state at that moment.

Beans may do whatever they like to the chain, and fail. What they must not do is run something
themselves, since then they decide what becomes of its errors (`Action.Solo`).
-/

namespace Scenario

/-! ### Beans that run nothing -/

/-- An action that neither runs what is below its instruction nor calls an entity. -/
def Action.Solo : Action → Prop
  | .done _ | .fail _ => True
  | .look next => ∀ v, (next v).Solo
  | .write _ next | .note _ next | .setResult _ next | .returnEntity next | .abort next
  | .register _ next | .allowOverwrite _ next => next.Solo
  | .children _ | .invoke _ _ => False

/-- A tag runs nothing unless the engine does it for it. -/
def Tag.Solo : Tag → Prop
  | .bean b => ∀ fs, (b.act fs).Solo
  | _ => True

/-! ### Where a failure belongs -/

/-- An error that is not attributed to an instruction yet. -/
def EngineError.Raw (e : EngineError) : Prop := ∀ r, e ≠ .runtime r

/-- An instruction of an activation, in the scope in which it runs. -/
structure Culprit where
  act : Activation
  id : NodeId
  instruction : Instruction
  scope : ScopeId

namespace Culprit

/-- The instruction as a running one. -/
def frame (c : Culprit) : StackFrame :=
  ⟨c.act.entity, c.id, c.instruction.described c.act.name⟩

/-- The place of a failure of the instruction, with the names that can be seen there. -/
def origin (c : Culprit) (a : Arena) : ErrorOrigin :=
  ⟨a.seq c.scope, c.act.path, c.instruction.name, c.instruction.line, a.visible c.scope⟩

/-- What becomes of an error that the instruction raises: the failure of an action tells where it
happened and what was running, any other error stays as it is. -/
def verdict (c : Culprit) (u : RunState) : EngineError → EngineError
  | .action causes => .runtime
    ⟨c.instruction.name, c.instruction.line, c.act.path, u.scopes.seq c.scope, u.chain.trace,
      causes⟩
  | e => e

theorem verdict_ne_action (c : Culprit) (u : RunState) (e : EngineError) (causes : List String) :
    c.verdict u e ≠ .action causes := by
  cases e <;> simp [verdict]

end Culprit

/-! ### How an instruction fails by itself -/

namespace Activation

/-- `Descends act i s st v st₁`: the tag of an instruction that has begun in `st` comes to run what
is below it, in the scope `v` and from the state `st₁`. -/
inductive Descends (act : Activation) (i : Instruction) (s : ScopeId) (st : RunState) :
    ScopeId → RunState → Prop
  /-- At once, in the same scope. -/
  | plain : i.tag = .scenario ∨ (∃ typeName, i.tag = .block typeName) ∨ i.tag = .conditional →
      Descends act i s st s st
  /-- Since no branch has run yet. -/
  | alternative : i.tag = .alternative → branchRan st.scopes s = false → Descends act i s st s st
  /-- Since a data tag does not give way. -/
  | data {name : String} {mode : DataMode} {fallback : Bool} {st₁ : RunState} :
      i.tag = .data name mode fallback →
      (if fallback then givesWay i s else pure false).on st = (.ok false, st₁) →
      Descends act i s st (act.childScope i.tag st₁.scopes s) st₁
  /-- When a lock is taken. -/
  | mutex {name timeout : Option Compiled} {text : String} {millis : Nat} {locks : LockTable}
      {g : LockGuard} : i.tag = .mutex name timeout → mutexName name st.scopes s = .ok text →
      act.mutexTimeout timeout st.scopes s = .ok millis →
      st.world.locks.acquire st.chain.thread text millis = (locks, .ok g) →
      Descends act i s st s (st.locked text locks)
  /-- In a scope of its own, for a call. -/
  | call : i.tag.calls = true → Descends act i s st st.scopes.size (st.opened s)

/-- `Calls act i ts s st key st₁`: an instruction that has begun in `st` comes to call the entity
`key`, in a scope of its own and from the state `st₁`. -/
inductive Calls (act : Activation) (i : Instruction) (ts : List Program) (s : ScopeId)
    (st : RunState) : EntityKey → RunState → Prop
  /-- When what is below it has bound the parameters and its resource is there. -/
  | intro {target : String} {cs : Children} {key : EntityKey} {st₁ : RunState} :
      i.tag = .invoke target →
      (act.execAll ts st.scopes.size).on (st.opened s) = (.ok cs, st₁) → cs.signal ≠ .abort →
      ((act.engine.setup.load target).run.run st₁.world).1 = .ok key →
      Calls act i ts s st key ((st₁.loading act.engine.setup target).withResult none)

/-- An entity that the activation calls fails before any of its instructions begins: it has no
program, or would nest too deeply. -/
def Unentered (act : Activation) (key : EntityKey) (st : RunState) (e : EngineError) : Prop :=
  ((st.world.entity? key).bind Entity.program = none ∧
    e = .parse (.notExecutable (st.world.entityPath key))) ∨
  act.run = act.engine.runEntity 0 ∧ e = .tooDeep

/-- The fields of a bean as its parameters give them. -/
def fit (act : Activation) (i : Instruction) (b : Bean) (a : Arena) (child : ScopeId) :
    Except BindError Fields :=
  b.schema.bind a child ((i.binding.filter fun id => !id.qualified).map ResultId.attr)
    act.engine.settings.strictParameters

/-- `TagFault act i ts s st e u`: the tag of an instruction that has begun in `st` raises `e` by
itself, in the state `u`. -/
inductive TagFault (act : Activation) (i : Instruction) (ts : List Program) (s : ScopeId)
    (st : RunState) : EngineError → RunState → Prop
  /-- A fallback has no name. -/
  | name {name : String} {mode : DataMode} {e : EngineError} {u : RunState} :
      i.tag = .data name mode true → (givesWay i s).on st = (.error e, u) →
      TagFault act i ts s st e u
  /-- The value of a data tag cannot be bound. -/
  | value {name : String} {mode : DataMode} {fallback : Bool} {cs : Children} {e : EngineError}
      {st₁ st₂ u : RunState} : i.tag = .data name mode fallback →
      (if fallback then givesWay i s else pure false).on st = (.ok false, st₁) →
      (act.execAll ts (act.childScope i.tag st₁.scopes s)).on st₁ = (.ok cs, st₂) →
      (act.storeData i s name mode fallback cs).on st₂ = (.error e, u) → TagFault act i ts s st e u
  /-- An expression has no value. -/
  | expression {x : Compiled} {cause : String} : i.tag = .expression x →
      x.eval st.scopes s = .error cause → TagFault act i ts s st (.action [cause]) st
  /-- A lock has no name, no time to wait, or cannot be had: the same happens with nothing below. -/
  | mutex {name timeout : Option Compiled} {e : EngineError} {u : RunState} :
      i.tag = .mutex name timeout →
      (act.runMutex s name timeout fun _ => pure {}).on st = (.error e, u) →
      TagFault act i ts s st e u
  /-- The resource that is called cannot be had. -/
  | resource {target : String} {cs : Children} {err : ParseError} {st₁ : RunState} :
      i.tag = .invoke target →
      (act.execAll ts st.scopes.size).on (st.opened s) = (.ok cs, st₁) → cs.signal ≠ .abort →
      ((act.engine.setup.load target).run.run st₁.world).1 = .error err →
      TagFault act i ts s st (.parse err) (st₁.loading act.engine.setup target)
  /-- The entity that is called fails before any of its instructions begins. -/
  | entity {key : EntityKey} {e : EngineError} {st₁ u : RunState} : Calls act i ts s st key st₁ →
      (act.run key st.scopes.size).on st₁ = (.error e, u) → Unentered act key st₁ e →
      TagFault act i ts s st e u
  /-- The parameters of a bean do not fit. -/
  | fields {b : Bean} {cs : Children} {err : BindError} {st₁ : RunState} : i.tag = .bean b →
      (act.execAll ts st.scopes.size).on (st.opened s) = (.ok cs, st₁) → cs.signal = .none →
      act.fit i b st₁.scopes st.scopes.size = .error err →
      TagFault act i ts s st (.action [err.message]) st₁
  /-- The action of a bean fails. -/
  | action {b : Bean} {cs : Children} {fs : Fields} {e : EngineError} {st₁ u : RunState} :
      i.tag = .bean b → (act.execAll ts st.scopes.size).on (st.opened s) = (.ok cs, st₁) →
      cs.signal = .none → act.fit i b st₁.scopes st.scopes.size = .ok fs →
      (act.perform st.scopes.size (act.execAll ts) (b.act fs)).on
        (st₁.log [.call b.typeName fs]) = (.error e, u) →
      TagFault act i ts s st e u

/-- `NodeFault act i ts s st e u`: an instruction that has begun in `st` raises `e` by itself, in
the state `u`. -/
inductive NodeFault (act : Activation) (i : Instruction) (ts : List Program) (s : ScopeId)
    (st : RunState) : EngineError → RunState → Prop
  /-- Its condition has no value. -/
  | condition {cause : String} : allowed i st.scopes s = .error cause →
      NodeFault act i ts s st (.action [cause]) st
  /-- It must not be skipped. -/
  | skipped {e : EngineError} {u : RunState} : allowed i st.scopes s = .ok false →
      (skip i s).on st = (.error e, u) → NodeFault act i ts s st e u
  /-- Its tag fails. -/
  | tag {e : EngineError} {u : RunState} : allowed i st.scopes s = .ok true →
      TagFault act i ts s st e u → NodeFault act i ts s st e u
  /-- Its result cannot be bound. -/
  | result {o : Outcome} {b : ResultId} {e : EngineError} {st₁ u : RunState} :
      allowed i st.scopes s = .ok true →
      (act.runTag i s (act.execAll ts)).on st = (.ok o, st₁) → i.binding = some b →
      i.tag.publishes = true → o.signal ≠ .abort →
      (act.publish i s b o.output.toValue?).on st₁ = (.error e, u) → NodeFault act i ts s st e u

end Activation

/-! ### Where a run goes wrong -/

open Activation in
/-- `Mishap act task s st c fs e u`: the activation runs the task in scope `s` from `st`, and on the
way the instruction `c` raises the error `e` by itself, in the state `u`. The running instructions
of the task are then `fs`, innermost first. -/
inductive Mishap : Activation → Task → ScopeId → RunState → Culprit → List StackFrame →
    EngineError → RunState → Prop
  /-- The instruction itself. -/
  | here {act : Activation} {id : NodeId} {i : Instruction} {ts : List Program} {s : ScopeId}
      {st u : RunState} {e : EngineError} : act.blocked? st.chain s = none →
      NodeFault act i ts s (act.begun id i s st) e u →
      Mishap act (.one (.node (id, i) ts)) s st ⟨act, id, i, s⟩ [Culprit.frame ⟨act, id, i, s⟩] e u
  /-- Inside the instruction. -/
  | inside {act : Activation} {id : NodeId} {i : Instruction} {ts : List Program} {s : ScopeId}
      {st u : RunState} {c : Culprit} {fs : List StackFrame} {e : EngineError} :
      act.blocked? st.chain s = none → Mishap act (.body i ts) s (act.begun id i s st) c fs e u →
      Mishap act (.one (.node (id, i) ts)) s st c (fs ++ [Culprit.frame ⟨act, id, i, s⟩]) e u
  /-- Under an instruction. -/
  | under {act : Activation} {i : Instruction} {ts : List Program} {s v : ScopeId}
      {st st₁ u : RunState} {c : Culprit} {fs : List StackFrame} {e : EngineError} :
      allowed i st.scopes s = .ok true → Descends act i s st v st₁ →
      Mishap act (.all ts) v st₁ c fs e u → Mishap act (.body i ts) s st c fs e u
  /-- In the entity that an instruction calls. -/
  | called {act : Activation} {i : Instruction} {ts : List Program} {s : ScopeId}
      {key : EntityKey} {st st₁ u : RunState} {c : Culprit} {fs : List StackFrame}
      {e : EngineError} : allowed i st.scopes s = .ok true → Calls act i ts s st key st₁ →
      Mishap act (.entity key) st.scopes.size st₁ c fs e u → Mishap act (.body i ts) s st c fs e u
  /-- In the first program. -/
  | first {act : Activation} {t : Program} {ts : List Program} {s : ScopeId} {st u : RunState}
      {c : Culprit} {fs : List StackFrame} {e : EngineError} :
      Mishap act (.one t) s st c fs e u → Mishap act (.all (t :: ts)) s st c fs e u
  /-- After the first program. -/
  | later {act : Activation} {t : Program} {ts : List Program} {s : ScopeId} {o : Outcome}
      {st st₁ u : RunState} {c : Culprit} {fs : List StackFrame} {e : EngineError} :
      (act.exec t s).on st = (.ok o, st₁) → o.signal = .none →
      Mishap act (.all ts) s st₁ c fs e u → Mishap act (.all (t :: ts)) s st c fs e u
  /-- In the program of an entity. -/
  | entity {act : Activation} {depth : Nat} {key : EntityKey} {p : Program} {s : ScopeId}
      {st u : RunState} {c : Culprit} {fs : List StackFrame} {e : EngineError} :
      act.run = act.engine.runEntity (depth + 1) →
      (st.world.entity? key).bind Entity.program = some p →
      Mishap (act.engine.activation (act.engine.runEntity depth) st.world key) (.one p) s
        ((act.engine.activation (act.engine.runEntity depth) st.world key).entered s st) c fs e u →
      Mishap act (.entity key) s st c fs e u

/-- The error `err` that leaves a task belongs to the instruction that raised it. What is known of
the failure is what could be read off when it was raised: the running instructions, this one in
front, the scope and the names visible there. -/
def Attributed (act : Activation) (task : Task) (s : ScopeId) (st : RunState) (err : EngineError)
    (st' : RunState) : Prop :=
  ∃ c fs raw u, Mishap act task s st c fs raw u ∧ raw.Raw ∧ fs.head? = some c.frame ∧
    u.chain.stack = fs ++ st.chain.stack ∧ err = c.verdict u raw ∧
    st'.chain.origin = some (c.origin u.scopes)

theorem Attributed.ne_action {act : Activation} {task : Task} {s : ScopeId} {st st' : RunState}
    {err : EngineError} (h : Attributed act task s st err st') (causes : List String) :
    err ≠ .action causes := by
  obtain ⟨c, fs, raw, u, -, -, -, -, rfl, -⟩ := h
  exact c.verdict_ne_action u raw causes

end Scenario
