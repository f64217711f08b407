import Scenario.Value.Basic

/-!
# Declared fields

A bean declares the fields it takes. A field has a kind, and a value taken for it is coerced to
that kind or refused.
-/

namespace Scenario

/-- What kind of value a field takes. -/
inductive FieldKind where
  /-- Text. -/
  | text
  /-- A truth value. -/
  | bool
  /-- A number. -/
  | number
  /-- A number without a fractional part. -/
  | integer
  /-- Any value. -/
  | any
  deriving DecidableEq

/-- A value that does not suit the kind of the field it was given for. -/
structure CoercionError where
  /-- The field. -/
  field : String
  /-- Its kind. -/
  kind : FieldKind
  /-- The value. -/
  value : Value

namespace FieldKind

/-- The name of a kind in messages. -/
def name : FieldKind → String
  | text => "Text"
  | bool => "Bool"
  | number => "Number"
  | integer => "Integer"
  | any => "Any"

/-- Kinds without an unset value: a null leaves such a field at its baseline. -/
def isPrimitive : FieldKind → Bool
  | bool | number | integer => true
  | text | any => false

/-- The value coerced to the kind, if it can be. -/
def coerce? : FieldKind → Value → Option Value
  | any, v => some v
  | _, .null => some .null
  | text, v => some (.str v.display)
  | bool, .bool b => some (.bool b)
  | bool, .str s =>
    if Text.trim s = "true" then some (.bool true)
    else if Text.trim s = "false" then some (.bool false)
    else none
  | bool, _ => none
  | number, v => v.toNumber?.map .num
  | integer, v => (v.toNumber?.filter Number.isIntegral).map .num

/-- The value coerced to the kind, or the reason why it cannot be. -/
def coerce (kind : FieldKind) (field : String) (v : Value) : Except CoercionError Value :=
  match kind.coerce? v with
  | some w => .ok w
  | none => .error ⟨field, kind, v⟩

end FieldKind

/-- The text of a refused value. -/
def CoercionError.message (e : CoercionError) : String :=
  s!"Parameter '{e.field}' expects {e.kind.name}, got {e.value.typeName} '{e.value.display}'"

/-- One declared field. -/
structure Field where
  /-- Its name. -/
  name : String
  /-- Its kind. -/
  kind : FieldKind
  /-- Whether a call without it fails. -/
  required : Bool := false
  deriving DecidableEq

/-- The field values of one call, nulls included. -/
abbrev Fields := Entries

namespace Fields

/-- The value of a field, unless it is null. -/
def value? (fs : Fields) (name : String) : Option Value :=
  (Entries.get? fs name).filter fun v => !v.isNull

/-- The text of a text field. -/
def text? (fs : Fields) (name : String) : Option String := (fs.value? name).bind Value.toText?

/-- The truth value of a field that holds one. -/
def bool? (fs : Fields) (name : String) : Option Bool :=
  match fs.value? name with
  | some (.bool b) => some b
  | _ => none

/-- The number that a field denotes. -/
def number? (fs : Fields) (name : String) : Option Number := (fs.value? name).bind Value.toNumber?

end Fields

end Scenario
