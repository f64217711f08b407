import Scenario.Field.Basic
import Scenario.Scope.Arena

/-!
# Field values of a call

A call starts from a bean's baseline, checks the names bound in its scope, then takes each declared
field from the nearest binding of its name.
-/

namespace Scenario

/-- Why the fields of a call could not be bound. -/
inductive BindError where
  /-- The scope binds names that are no fields. -/
  | unsupported (names allowed : List String)
  /-- A value does not suit its field. -/
  | coercion (e : CoercionError)
  /-- A required field has no value. -/
  | missing (name : String)
  /-- The bean's own check failed. -/
  | refused (reason : String)

/-- The text of a binding failure. -/
def BindError.message : BindError → String
  | unsupported names allowed =>
    "Unsupported parameter(s) passed: " ++ ", ".intercalate names ++
      ", the acceptable parameters are: " ++ ", ".intercalate allowed
  | coercion e => e.message
  | missing name => s!"Missing required parameter '{name}'"
  | refused reason => reason

/-- What binding needs to know of a bean. -/
structure Schema where
  /-- The declared fields. -/
  fields : List Field
  /-- The field values before any binding. -/
  baseline : Fields := []
  /-- Whether names that are no fields are refused. -/
  strict : Bool := true
  /-- The bean's own change of the fields before values are taken. -/
  before : Fields → Except String Fields := .ok
  /-- The bean's own change of the fields after values are taken. -/
  after : Fields → Except String Fields := .ok

namespace Schema

/-- The names bound in a scope that are neither fields nor the name of the result. -/
def unknownNames (sch : Schema) (ids : List String) (ownId : Option String) : List String :=
  ids.filter fun id => some id != ownId && !sch.fields.any fun f => f.name == id

/-- Takes the value of one field from the nearest binding of its name. An unbound field, and a
primitive one bound to null, stays as it is. -/
def takeField (a : Arena) (s : ScopeId) (fs : Fields) (f : Field) : Except BindError Fields :=
  match a.get? s f.name with
  | none => .ok fs
  | some v =>
    if v.isNull && f.kind.isPrimitive then .ok fs
    else match f.kind.coerce f.name v with
      | .ok w => .ok (fs.insert f.name w)
      | .error e => .error (.coercion e)

/-- Takes the values of fields one after the other. -/
def takeFields (a : Arena) (s : ScopeId) : List Field → Fields → Except BindError Fields
  | [], fs => .ok fs
  | f :: rest, fs =>
    match takeField a s fs f with
    | .ok fs => takeFields a s rest fs
    | .error e => .error e

/-- A step of the bean's own. -/
def hook (f : Fields → Except String Fields) (fs : Fields) : Except BindError Fields :=
  (f fs).mapError .refused

/-- The field values of a call that runs in scope `s`. The name of the result, `ownId`, is exempt
from the check of names. -/
def bind (sch : Schema) (a : Arena) (s : ScopeId) (ownId : Option String) (strict : Bool) :
    Except BindError Fields := do
  if strict && sch.strict then
    let unknown := sch.unknownNames (a.frame s).consts.ids ownId
    if !unknown.isEmpty then
      throw (.unsupported unknown (sch.fields.map Field.name))
  let fs ← hook sch.before sch.baseline
  let fs ← takeFields a s sch.fields fs
  match sch.fields.find? fun f => f.required && (fs.value? f.name).isNone with
  | some f => throw (.missing f.name)
  | none => hook sch.after fs

/-- The baseline values that are not null, as text. -/
def declared (sch : Schema) : List (String × String) :=
  (sch.baseline.filter fun e => !e.2.isNull).map fun e => (e.1, e.2.display)

end Schema

end Scenario
