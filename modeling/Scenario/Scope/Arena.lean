import Scenario.Scope.Frame
import Scenario.Value.Accumulator

/-!
# The scopes of a run

The live scopes of one run form a stack whose entries may have any earlier entry as their parent.
Entry `0` is the root and is never left. A handle that is no longer live reads as a scope without
bindings, and writing to it changes nothing.
-/

namespace Scenario

/-- A name was to be bound in a scope that binds it already. -/
structure Conflict where
  /-- The name. -/
  id : String
  /-- The sequence number of the scope. -/
  scope : Nat
  deriving DecidableEq

/-- The text of a conflict. -/
def Conflict.message (c : Conflict) : String :=
  s!"Id '{c.id}' is already bound in scope #{c.scope}"

/-- The live scopes of a run and the storage they share. -/
structure Arena where
  /-- The scopes, oldest first. -/
  frames : Array Frame := #[{}]
  /-- Private storage shared by all scopes. -/
  globals : Entries := []
  deriving Inhabited

namespace Arena

/-- The handle of the root scope. -/
def root : ScopeId := 0

/-- The number of live scopes. -/
def size (a : Arena) : Nat := a.frames.size

/-- Whether a handle is live. -/
def live (a : Arena) (s : ScopeId) : Bool := s < a.size

/-- The scope behind a handle. -/
def frame (a : Arena) (s : ScopeId) : Frame := a.frames[s]?.getD {}

/-- Changes the scope behind a handle. -/
def modifyFrame (a : Arena) (s : ScopeId) (f : Frame → Frame) : Arena :=
  { a with frames := a.frames.modify s f }

/-! ### Opening and leaving scopes -/

/-- Opens a scope inside another one. -/
def enter (a : Arena) (parent : ScopeId) : Arena × ScopeId :=
  ({ a with frames := a.frames.push { parent := some parent, seq := (a.frame parent).seq + 1 } },
    a.size)

/-- Leaves a scope together with everything opened after it; the root stays. -/
def leave (a : Arena) (s : ScopeId) : Arena :=
  if s = root then a else { a with frames := a.frames.take s }

/-- The number of scopes between this one and the root. -/
def seq (a : Arena) (s : ScopeId) : Nat := (a.frame s).seq

/-- A scope and the scopes around it, innermost first. -/
def ancestors (a : Arena) (s : ScopeId) : List ScopeId :=
  match (a.frame s).parent with
  | some p => if _h : p < s then s :: a.ancestors p else [s]
  | none => [s]
termination_by s

/-- The scopes from `s` to the root, as frames. -/
def chain (a : Arena) (s : ScopeId) : List Frame := (a.ancestors s).map a.frame

/-! ### Bindings -/

/-- The value bound to a name in this scope alone. -/
def getHere? (a : Arena) (s : ScopeId) (id : String) : Option Value := (a.frame s).values.get? id

/-- The value of the nearest binding of a name. -/
def get? (a : Arena) (s : ScopeId) (id : String) : Option Value :=
  (a.chain s).findSome? fun f => f.values.get? id

/-- Whether a name is bound in this scope itself. -/
def has (a : Arena) (s : ScopeId) (id : String) : Bool := (a.getHere? s id).isSome

/-- Binds a name in this scope whether or not it is bound, and gives the value it had. -/
def replace (a : Arena) (s : ScopeId) (id : String) (origin : Option String) (v : Value) :
    Option Value × Arena :=
  (a.getHere? s id, a.modifyFrame s fun f => f.bind ⟨id, v, origin⟩)

/-- Binds a name in this scope and gives the value it had. With `check` a bound name is a
conflict and stays as it is. -/
def set (a : Arena) (s : ScopeId) (id : String) (origin : Option String) (v : Value)
    (check : Bool) : Except Conflict (Option Value × Arena) :=
  if check && a.has s id then .error ⟨id, a.seq s⟩ else .ok (a.replace s id origin v)

/-- Binds a name in this scope. With `check` a bound name is a conflict. -/
def add (a : Arena) (s : ScopeId) (id : String) (origin : Option String) (v : Value)
    (check : Bool) : Except Conflict Arena :=
  (a.set s id origin v check).map Prod.snd

/-- Removes the binding of a name from this scope and gives the value it had. -/
def remove (a : Arena) (s : ScopeId) (id : String) : Option Value × Arena :=
  (a.getHere? s id, a.modifyFrame s fun f => f.unbind id)

/-- The name under which a value is bound, nearest scope first and in binding order. With `strict`
the binding has to hold this very value, otherwise an equal one. -/
def findId? (a : Arena) (s : ScopeId) (v : Value) (strict deep : Bool) (excluded : List String) :
    Option String :=
  let frames := if deep then a.chain s else [a.frame s]
  frames.findSome? fun f =>
    (f.values.find? fun e =>
      !excluded.contains e.1 && if strict then e.2.same v else e.2.eqv v).map Prod.fst

/-- Everything visible from a scope: names in the order of their outermost binding, values of the
nearest one. -/
def visible (a : Arena) (s : ScopeId) : Entries :=
  (a.chain s).reverse.foldl
    (fun es f => f.values.foldl (fun es e => Entries.insert es e.1 e.2) es) []

/-- The tag that declared the nearest binding of a name. -/
def origin? (a : Arena) (s : ScopeId) (id : String) : Option String :=
  ((a.chain s).find? fun f => (f.values.get? id).isSome).bind fun f => f.origins.get? id

/-- The declared bindings of a scope as pairs of declaring tag and value. -/
def declared (f : Frame) : List (String × Value) :=
  f.values.filterMap fun e => (f.origins.get? e.1).map fun o => (o, e.2)

/-- The declared values under the names of their tags, outermost scope first. With `merge` the
scopes around count too; the root counts only with `withRoot`. -/
def nameMap (a : Arena) (s : ScopeId) (merge withRoot : Bool) : Entries :=
  let scopes := if merge then a.ancestors s else [s]
  let scopes := if withRoot then scopes else scopes.filter (· != root)
  (Accumulator.ofPairs (scopes.reverse.flatMap fun s => declared (a.frame s))).finish

/-! ### Private storage -/

/-- A private value of this scope, or of the storage that all scopes share. -/
def internal? (a : Arena) (s : ScopeId) (key : String) (global : Bool) : Option Value :=
  if global then a.globals.get? key else (a.frame s).internals.get? key

/-- The private value of the nearest scope that has one. -/
def inherited? (a : Arena) (s : ScopeId) (key : String) : Option Value :=
  (a.chain s).findSome? fun f => f.internals.get? key

/-- Stores a private value and gives the one it replaces. -/
def setInternal (a : Arena) (s : ScopeId) (key : String) (v : Value) (global : Bool) :
    Option Value × Arena :=
  (a.internal? s key global,
    if global then { a with globals := a.globals.insert key v }
    else a.modifyFrame s fun f => { f with internals := f.internals.insert key v })

/-- Removes a private value and gives it. -/
def removeInternal (a : Arena) (s : ScopeId) (key : String) (global : Bool) :
    Option Value × Arena :=
  (a.internal? s key global,
    if global then { a with globals := a.globals.erase key }
    else a.modifyFrame s fun f => { f with internals := f.internals.erase key })

/-- The private key of the permission to bind results anew. -/
def overwriteKey : String := "tagflow.const.overwritable"

/-- Whether results may be bound anew in this scope. -/
def overwriteAllowed (a : Arena) (s : ScopeId) : Bool :=
  ((a.internal? s overwriteKey false).map Value.isTruthy).getD false

/-- Permits or forbids binding results anew in this scope. -/
def setOverwriteAllowed (a : Arena) (s : ScopeId) (allowed : Bool) : Arena :=
  (a.setInternal s overwriteKey (.bool allowed) false).2

/-! ### Entities -/

/-- The entity that a scope belongs to. -/
def entity? (a : Arena) (s : ScopeId) : Option EntityKey := (a.frame s).entity

/-- Hands a scope to an entity. -/
def bindEntity (a : Arena) (s : ScopeId) (e : EntityKey) : Arena :=
  a.modifyFrame s fun f => { f with entity := some e }

/-- The nearest scope that belongs to an entity. -/
def entityScope? (a : Arena) (s : ScopeId) (e : EntityKey) : Option ScopeId :=
  (a.ancestors s).find? fun s => (a.frame s).entity == some e

/-- Whether the entity of a scope has returned. -/
def returning (a : Arena) (s : ScopeId) : Bool := (a.frame s).returning

/-- Notes whether the entity of a scope has returned. -/
def setReturning (a : Arena) (s : ScopeId) (r : Bool) : Arena :=
  a.modifyFrame s fun f => { f with returning := r }

end Arena

end Scenario
