import Scenario.Value.Accumulator

/-!
# Outputs and their shape

What an instruction hands to its parent, and how a parent combines the outputs of its children into
one value:

* nothing but nulls gives no value;
* unnamed values alone give the value itself, or the list of them when there are several;
* as soon as one output is named the result is a tree, repeated names gather into lists, and the
  unnamed values gather under `value`.
-/

namespace Scenario

/-- What an instruction hands to its parent. -/
inductive Output where
  /-- Nothing. -/
  | absent
  /-- A value. -/
  | value (v : Value)
  /-- A value, or its absence, under the name of a nested data tag. -/
  | named (name : String) (v : Option Value)
  /-- The outputs of a transparent container. -/
  | nested (items : List Output)
  deriving Inhabited

namespace Output

/-- The output of an optional value. -/
def ofOption : Option Value → Output
  | some v => value v
  | none => absent

mutual

/-- The output with transparent containers opened, at every depth. -/
def leaves : Output → List Output
  | nested items => flatten items
  | o => [o]

/-- Outputs with transparent containers opened in place. -/
def flatten : List Output → List Output
  | [] => []
  | o :: os => leaves o ++ flatten os

end

/-- Whether the output carries a name. -/
def isNamed : Output → Bool
  | named _ _ => true
  | _ => false

/-- The value of an unnamed output, unless it is null. -/
def plainValue? : Output → Option Value
  | value v => if v.isNull then none else some v
  | _ => none

/-- The key under which unnamed values gather in a tree. -/
def defaultName : String := "value"

/-- What an output contributes to a tree: a name and a value that is not null. -/
def entry? : Output → Option (String × Value)
  | value v => if v.isNull then none else some (defaultName, v)
  | named n (some v) => if v.isNull then none else some (n, v)
  | _ => none

/-- Several values as one: none, the only one, or the list of them. -/
def shrink : List Value → Option Value
  | [] => none
  | [v] => some v
  | vs => some (.ofItems vs)

/-- The value that outputs without containers combine to. -/
def combine (items : List Output) : Option Value :=
  if items.any isNamed then
    let acc := Accumulator.ofPairs (items.filterMap entry?)
    if acc.isEmpty then none else some (.ofEntries acc.finish)
  else shrink (items.filterMap plainValue?)

/-- The value that outputs combine to. -/
def aggregate (items : List Output) : Option Value := combine (flatten items)

/-- The value that an output stands for when it is bound to a name. -/
def toValue? : Output → Option Value
  | absent => none
  | value v => some v
  | named _ v => v
  | nested items => aggregate items

theorem flatten_append (xs ys : List Output) : flatten (xs ++ ys) = flatten xs ++ flatten ys := by
  induction xs with
  | nil => simp [flatten]
  | cons x xs ih => simp [flatten, ih]

/-- Opening a container in place changes nothing. -/
theorem flatten_nested (xs ys zs : List Output) :
    flatten (xs ++ nested ys :: zs) = flatten (xs ++ ys ++ zs) := by
  simp [flatten_append, flatten, leaves]

end Output

/-- A request to stop early that travels beside an output. -/
inductive Signal where
  /-- Go on. -/
  | none
  /-- The enclosing entity has returned: stop at its boundary. -/
  | return
  /-- The whole run is being given up. -/
  | abort
  deriving DecidableEq, Inhabited

/-- The output of an instruction and its signal. -/
structure Outcome where
  /-- What is handed to the parent. -/
  output : Output := .absent
  /-- Whether to stop. -/
  signal : Signal := .none
  deriving Inhabited

/-- The outputs of an instruction's children up to the one that stopped the walk. -/
structure Children where
  /-- The outputs, in order. -/
  results : List Output := []
  /-- The signal that stopped the walk. -/
  signal : Signal := .none

/-- The children of a transparent container, handed on as they are. -/
def Children.toOutcome (c : Children) : Outcome := ⟨.nested c.results, c.signal⟩

end Scenario
