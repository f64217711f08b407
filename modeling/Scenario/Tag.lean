import Scenario.Bean
import Scenario.Evaluator
import Scenario.Tree

/-!
# Tags and instructions

An instruction is one element of a parsed document: the tag it runs as, the condition under which it
runs and the name under which its result is bound.
-/

namespace Scenario

/-- The part that a tag plays in a document. -/
inductive TagKind where
  /-- The root of an entity. -/
  | entity
  /-- A step that opens no scope. -/
  | action
  /-- A call with parameters. -/
  | invoker
  /-- A piece of data. -/
  | data
  /-- A transparent container. -/
  | control
  deriving DecidableEq, Inhabited

/-- The name of a part. -/
def TagKind.name : TagKind → String
  | entity => "Entity"
  | action => "Action"
  | invoker => "Invoker"
  | data => "Data"
  | control => "Control"

/-- Where a data tag puts its value. -/
inductive DataMode where
  /-- Under its result name in the entity scope. -/
  | entry
  /-- Under its own name in the value of the data tag around it. -/
  | sub
  /-- Under its own name in the scope it runs in. -/
  | parameter
  deriving DecidableEq, Inhabited

/-- The name of a mode. -/
def DataMode.name : DataMode → String
  | entry => "local"
  | sub => "sub"
  | parameter => "parameter"

/-- The mode of a data tag inside the nearest tag that is no transparent container. -/
def DataMode.inside : TagKind → DataMode
  | .entity => entry
  | .data => sub
  | _ => parameter

/-- A condition. -/
structure Guard where
  /-- What is tested. -/
  test : Compiled
  /-- Whether the test has to fail. -/
  negated : Bool

/-- Whether the condition holds in a scope. -/
def Guard.allows (g : Guard) (a : Arena) (s : ScopeId) : Except String Bool :=
  (g.test.truth a s).map (· != g.negated)

/-- The name under which a result is bound. -/
structure ResultId where
  /-- The text that gives the name. -/
  expr : Compiled
  /-- The attribute it stands in. -/
  attr : String
  /-- Whether that attribute has a namespace. -/
  qualified : Bool

/-- The name under which a result is bound in a scope. -/
def ResultId.key (b : ResultId) (a : Arena) (s : ScopeId) : Except String String := do
  match ← b.expr.text? a s with
  | some key =>
    if Text.isBlankText key then throw s!"Result id '{b.expr.source}' evaluated to an empty name"
    else return Text.trim key
  | none => throw s!"Result id '{b.expr.source}' evaluated to an empty name"

/-- What an instruction does. -/
inductive Tag where
  /-- The usual root: runs its children and gives what they returned. -/
  | scenario
  /-- A root that gives the outputs of its children. -/
  | block (typeName : String)
  /-- A piece of data, with `fallback` only where there is no value yet. -/
  | data (name : String) (mode : DataMode) (fallback : Bool)
  /-- A fixed text. -/
  | literal (text : String)
  /-- The value of an expression. -/
  | expression (e : Compiled)
  /-- A branch with a condition. -/
  | conditional
  /-- A branch that runs if the branches before it did not. -/
  | alternative
  /-- A section that one thread at a time may run. -/
  | mutex (name timeout : Option Compiled)
  /-- A call of the entity of a resource. -/
  | invoke (target : String)
  /-- A call of a bean. -/
  | bean (b : Bean)
  /-- A fixed value. Skipping the tag may be a failure. -/
  | fixed (typeName : String) (kind : TagKind) (v : Value) (whenSkipped : Option String)

namespace Tag

/-- What dumps call a tag. -/
def typeName : Tag → String
  | scenario => "scenario"
  | block t => t
  | data _ _ fallback => if fallback then "default" else "data"
  | literal _ => "literal"
  | expression _ => "expression"
  | conditional => "if"
  | alternative => "else"
  | mutex _ _ => "mutex"
  | invoke _ => "invoke"
  | bean b => b.typeName
  | fixed t _ _ _ => t

/-- The part that a tag plays. -/
def kind : Tag → TagKind
  | scenario | block _ => .entity
  | data _ _ _ => .data
  | literal _ => .action
  | expression _ | invoke _ | bean _ => .invoker
  | conditional | alternative | mutex _ _ => .control
  | fixed _ kind _ _ => kind

/-- Whether the engine binds the result of a tag; a data tag does that itself. -/
def publishes : Tag → Bool
  | data _ _ _ => false
  | _ => true

/-- The source of an expression under a name, if there is one. -/
def sourceField (name : String) (e : Option Compiled) : List (String × String) :=
  (e.map fun e => (name, e.source)).toList

/-- What dumps tell of a tag. -/
def fields : Tag → List (String × String)
  | data name mode _ => [("name", name), ("mode", mode.name)]
  | expression e => [("value", e.source)]
  | mutex name timeout => sourceField "name" name ++ sourceField "timeout" timeout
  | invoke target => [("target", target)]
  | bean b => b.schema.declared
  | _ => []

end Tag

/-- The place of an instruction in its entity, in document order. -/
abbrev NodeId := Nat

/-- One element of a parsed document. -/
structure Instruction where
  /-- The name of the element. -/
  name : String
  /-- Its line. -/
  line : Nat
  /-- The condition under which it runs. -/
  guard : Option Guard := none
  /-- The name under which its result is bound. -/
  binding : Option ResultId := none
  /-- What it does. -/
  tag : Tag

/-- The instructions of an entity, numbered in document order. -/
abbrev Program := Tree (NodeId × Instruction)

end Scenario
