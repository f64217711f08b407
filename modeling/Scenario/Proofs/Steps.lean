import Scenario.Run.Exec

/-!
# What the steps of a run give

A step of a run is a function from states to a result and a state. This module computes that
function for the steps that everything else is made of, so that a longer step is opened by
rewriting: `on_bind` passes from one step to the next, and every other lemma here says where a
single step ends.

What a step adds to the journal is written with `RunState.log`. The entries that closing something
leaves behind are listed by `Closeable.farewell`.
-/

namespace Scenario

/-! ### States -/

namespace RunState

/-- The live scopes. -/
def scopes (st : RunState) : Arena := st.chain.scopes

/-- What happened so far, in order. -/
def entries (st : RunState) : List Entry := st.world.journal.toList

/-- The state with other scopes. -/
def mapScopes (st : RunState) (f : Arena → Arena) : RunState :=
  { st with chain := { st.chain with scopes := f st.chain.scopes } }

/-- The state with another result left by a return. -/
def withResult (st : RunState) (v : Option Value) : RunState :=
  { st with chain := { st.chain with result := v } }

/-- The state with other running instructions. -/
def withStack (st : RunState) (fs : List StackFrame) : RunState :=
  { st with chain := { st.chain with stack := fs } }

/-- The state with other locks. -/
def withLocks (st : RunState) (l : LockTable) : RunState :=
  { st with world := { st.world with locks := l } }

/-- The state after some more entries in the journal. -/
def log (st : RunState) (es : List Entry) : RunState :=
  { st with world := es.foldl World.enter st.world }

/-- The state in which a lock is waited for. -/
def awaiting (st : RunState) (name : String) : RunState :=
  st.log [.record ⟨.info, "Waiting for mutex", [("name", name)], false⟩]

/-- The state in which a lock that was waited for is held. -/
def locked (st : RunState) (name : String) (l : LockTable) : RunState :=
  ((st.awaiting name).withLocks l).log
    [.record ⟨.info, "Entered mutex", [("name", name)], false⟩]

/-- The state after a lock was given up. -/
def unlocked (st : RunState) (name : String) (g : LockGuard) : RunState :=
  (st.withLocks (st.world.locks.release g)).log
    [.record ⟨.info, "Exited mutex", [("name", name)], false⟩]

/-- The state after a name was bound in a scope. -/
def bound (st : RunState) (s : ScopeId) (b : Binding) : RunState :=
  (st.mapScopes fun a => (a.replace s b.id b.origin b.value).2).log [.bound s b]

/-- The state after a scope was opened inside another one. -/
def opened (st : RunState) (s : ScopeId) : RunState := st.mapScopes fun a => (a.enter s).1

/-- The state after a scope was left. -/
def left (st : RunState) (s : ScopeId) : RunState :=
  { st with chain := { st.chain with
      scopes := st.chain.scopes.leave s
      misnested := st.chain.misnested || s + 1 != st.chain.scopes.size } }

/-- The state after a resource was asked for. -/
def loading (st : RunState) (setup : Setup) (name : String) : RunState :=
  { st with world := ((setup.load name).run.run st.world).2 }

@[simp] theorem scopes_mapScopes (st : RunState) (f : Arena → Arena) :
    (st.mapScopes f).scopes = f st.scopes := rfl

@[simp] theorem entries_mapScopes (st : RunState) (f : Arena → Arena) :
    (st.mapScopes f).entries = st.entries := rfl

@[simp] theorem scopes_withStack (st : RunState) (fs : List StackFrame) :
    (st.withStack fs).scopes = st.scopes := rfl

@[simp] theorem chain_log (st : RunState) (es : List Entry) : (st.log es).chain = st.chain := rfl

@[simp] theorem scopes_log (st : RunState) (es : List Entry) : (st.log es).scopes = st.scopes := rfl

theorem log_append (st : RunState) (es fs : List Entry) :
    st.log (es ++ fs) = (st.log es).log fs := by
  simp [log]

@[simp] theorem entries_log (st : RunState) (es : List Entry) :
    (st.log es).entries = st.entries ++ es := by
  induction es generalizing st with
  | nil => simp [log]
  | cons e es ih =>
    have h : (st.log [e]).entries = st.entries ++ [e] := Journal.toList_push _ e
    rw [← List.singleton_append, log_append, ih, h, List.append_assoc]

@[simp] theorem scopes_bound (st : RunState) (s : ScopeId) (b : Binding) :
    (st.bound s b).scopes = (st.scopes.replace s b.id b.origin b.value).2 := rfl

@[simp] theorem entries_bound (st : RunState) (s : ScopeId) (b : Binding) :
    (st.bound s b).entries = st.entries ++ [.bound s b] := entries_log _ _

@[simp] theorem entities_log (st : RunState) (es : List Entry) :
    (st.log es).world.entities = st.world.entities := by
  induction es generalizing st with
  | nil => rfl
  | cons e es ih => exact ih (st.log [e])

theorem entities_locked (st : RunState) (name : String) (l : LockTable) :
    (st.locked name l).world.entities = st.world.entities := by
  rw [locked, entities_log]
  exact entities_log st _

@[simp] theorem scopes_opened (st : RunState) (s : ScopeId) :
    (st.opened s).scopes = (st.scopes.enter s).1 := rfl

@[simp] theorem scopes_left (st : RunState) (s : ScopeId) :
    (st.left s).scopes = st.scopes.leave s := rfl

end RunState

/-! ### Closing -/

/-- The log record of a failure to flush or close something. -/
def Closeable.complaint (message name : String) (error : Option String) : List Entry :=
  error.toList.map fun e => .record ⟨.debug, message, [("name", name), ("error", e)], false⟩

/-- The entries that flushing and closing something leaves in the journal. -/
def Closeable.farewell (c : Closeable) : List Entry :=
  .closing (.flush c) :: complaint "Flush failed" c.name c.flushError ++
    .closing (.close c) :: complaint "Close failed" c.name c.closeError

/-- The state after everything opened after the first `mark` closeables was closed. -/
def RunState.closed (st : RunState) (mark : Nat) : RunState :=
  let n := st.chain.closeables.length - mark
  { st with chain := { st.chain with closeables := st.chain.closeables.drop n } }.log
    ((st.chain.closeables.take n).flatMap Closeable.farewell)

namespace Exec

variable {α β : Type}

theorem mapError_ok {ε ε' : Type} (f : ε → ε') (a : α) :
    (.ok a : Except ε α).mapError f = .ok a := rfl

theorem mapError_error {ε ε' : Type} (f : ε → ε') (e : ε) :
    (.error e : Except ε α).mapError f = .error (f e) := rfl

/-! ### Single steps -/

/-- The result of a step and the state in which it ends. -/
def on (x : Exec α) (st : RunState) : Except EngineError α × RunState := x.run.run st

theorem on_bind (x : Exec α) (f : α → Exec β) (st : RunState) :
    (x >>= f).on st = match x.on st with
      | (.ok a, st') => (f a).on st'
      | (.error e, st') => (.error e, st') := by
  have h : (x >>= f).on st = (ExceptT.bindCont f (x.on st).1).run (x.on st).2 := rfl
  rw [h]
  rcases x.on st with ⟨_ | a, st'⟩ <;> rfl

/-- The result of a step and the state in which it ends have a property. -/
def Ends (x : Exec α) (st : RunState) (P : Except EngineError α → RunState → Prop) : Prop :=
  P (x.on st).1 (x.on st).2

theorem ends_bind {x : Exec α} {f : α → Exec β} {st : RunState}
    {P : Except EngineError β → RunState → Prop} :
    (x >>= f).Ends st P ↔ match x.on st with
      | (.ok a, st') => (f a).Ends st' P
      | (.error e, st') => P (.error e) st' := by
  unfold Ends
  rw [on_bind]
  rcases x.on st with ⟨_ | a, st'⟩ <;> rfl

theorem ends_pure {a : α} {st : RunState} {P : Except EngineError α → RunState → Prop} :
    (pure a : Exec α).Ends st P ↔ P (.ok a) st := Iff.rfl

theorem on_pure (a : α) (st : RunState) : (pure a : Exec α).on st = (.ok a, st) := rfl

theorem on_get (st : RunState) : (get : Exec RunState).on st = (.ok st, st) := rfl

theorem on_chain (st : RunState) : Exec.chain.on st = (.ok st.chain, st) := rfl

theorem on_scopes (st : RunState) : Exec.scopes.on st = (.ok st.scopes, st) := rfl

theorem on_modifyChain (f : Chain → Chain) (st : RunState) :
    (modifyChain f).on st = (.ok (), { st with chain := f st.chain }) := rfl

theorem on_setResult (v : Option Value) (st : RunState) :
    (modifyChain fun c => { c with result := v }).on st = (.ok (), st.withResult v) := rfl

theorem on_push (f : StackFrame) (st : RunState) :
    (modifyChain fun c => { c with stack := f :: c.stack }).on st =
      (.ok (), st.withStack (f :: st.chain.stack)) := rfl

theorem on_pop (st : RunState) :
    (modifyChain fun c => { c with stack := c.stack.tail }).on st =
      (.ok (), st.withStack st.chain.stack.tail) := rfl

theorem on_modifyScopes (f : Arena → Arena) (st : RunState) :
    (modifyScopes f).on st = (.ok (), st.mapScopes f) := rfl

theorem on_setLocks (l : LockTable) (st : RunState) :
    (modifyWorld fun w => { w with locks := l }).on st = (.ok (), st.withLocks l) := rfl

theorem on_releaseLock (g : LockGuard) (st : RunState) :
    (modifyWorld fun w => { w with locks := w.locks.release g }).on st =
      (.ok (), st.withLocks (st.world.locks.release g)) := rfl

theorem on_enter (e : Entry) (st : RunState) : (enter e).on st = (.ok (), st.log [e]) := rfl

theorem on_emit (e : Event) (st : RunState) : (emit e).on st = (.ok (), st.log [.event e]) := rfl

theorem on_write (level : Level) (message : String) (fields : List (String × String))
    (st : RunState) :
    (write level message fields).on st =
      (.ok (), st.log [.record ⟨level, message, fields, false⟩]) := rfl

theorem on_bindName (s : ScopeId) (b : Binding) (st : RunState) :
    (bindName s b).on st = (.ok (), st.bound s b) := rfl

theorem on_attempt (x : Exec α) (st : RunState) :
    (attempt x).on st = (.ok (x.on st).1, (x.on st).2) := rfl

theorem on_ofExcept (r : Except EngineError α) (st : RunState) :
    (Exec.ofExcept r).on st = (r, st) := rfl

theorem on_orFail (r : Except String α) (st : RunState) :
    (orFail r).on st = (r.mapError fun cause => .action [cause], st) := by
  cases r <;> rfl

theorem on_load (setup : Setup) (name : String) (st : RunState) :
    (Exec.parse (setup.load name)).on st =
      (((setup.load name).run.run st.world).1.mapError .parse, st.loading setup name) := by
  simp only [Exec.parse, on_bind, on_get, RunState.loading]
  rcases (setup.load name).run.run st.world with ⟨_ | _, w⟩ <;> rfl

/-- A step in a new scope leaves that scope again, with the result that it had there. -/
theorem on_inChildScope (s : ScopeId) (f : ScopeId → Exec α) (st : RunState) :
    (inChildScope s f).on st =
      (((f st.scopes.size).on (st.opened s)).1,
        ((f st.scopes.size).on (st.opened s)).2.left st.scopes.size) := rfl

theorem on_reportClosing (message name : String) (error : Option String) (st : RunState) :
    (reportClosing message name error).on st =
      (.ok (), st.log (Closeable.complaint message name error)) := by
  cases error <;> rfl

theorem on_close (c : Closeable) (st : RunState) :
    (close c).on st = (.ok (), st.log c.farewell) := by
  simp only [close, on_bind, on_enter, on_reportClosing, ← RunState.log_append]
  simp [Closeable.farewell]

theorem on_closeAll (cs : List Closeable) (st : RunState) :
    (closeAll cs).on st = (.ok (), st.log (cs.flatMap Closeable.farewell)) := by
  induction cs generalizing st with
  | nil => rfl
  | cons c cs ih =>
    simp only [closeAll, on_bind, on_close, ih, ← RunState.log_append, List.flatMap_cons]

theorem on_closeSince (mark : Nat) (st : RunState) :
    (closeSince mark).on st = (.ok (), st.closed mark) := by
  simp only [closeSince, on_bind, on_chain, on_modifyChain, on_closeAll]
  rfl

end Exec

end Scenario
