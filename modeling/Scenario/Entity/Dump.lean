import Scenario.Entity.Basic
import Scenario.Json.Text
import Scenario.Listing

/-!
# Dumps

The instructions of an entity as text, one line each, and as an indented JSON object. Both list the
instructions in document order.
-/

namespace Scenario

/-- Two blanks for every level. -/
def indentation (depth : Nat) : String := String.ofList (List.replicate (2 * depth) ' ')

namespace Instruction

/-- An instruction and the entity it belongs to. -/
def described (i : Instruction) (entity : String) : String :=
  s!"<{i.name}> line {i.line} of '{entity}'"

/-- The fields of an instruction in brackets, if it has any. -/
def dumpFields (i : Instruction) : String :=
  let fields := i.tag.fields
  if fields.isEmpty then ""
  else " [" ++ ", ".intercalate (fields.map fun f => f.1 ++ "=" ++ f.2) ++ "]"

/-- The line of an instruction in a dump. -/
def dumpLine (i : Instruction) (entity : String) (depth : Nat) : String :=
  indentation depth ++ s!"<{i.name}> {i.tag.typeName} line {i.line} of '{entity}'" ++ i.dumpFields

end Instruction

/-- The text dump of a program. -/
def Program.dump (p : Program) (entity : String) : String :=
  String.join
    ((Listing.ofTree p).walk.map fun (depth, r) => r.label.2.dumpLine entity depth ++ "\n")

/-- What a dump tells of one instruction. -/
structure DumpNode where
  /-- The name of the element. -/
  tag : String
  /-- What it runs as. -/
  implementation : String
  /-- Its line. -/
  line : Nat
  /-- The name of the entity. -/
  resource : String
  /-- Its fields. -/
  fields : List (String × String)
  deriving DecidableEq

/-- What a dump tells of an instruction. -/
def Instruction.dumpNode (i : Instruction) (entity : String) : DumpNode where
  tag := i.name
  implementation := i.tag.typeName
  line := i.line
  resource := entity
  fields := i.tag.fields

mutual

/-- The dump of a program as a tree. -/
def Program.dumpTree (entity : String) : Program → Tree DumpNode
  | .node (_, i) ts => .node (i.dumpNode entity) (Program.dumpTrees entity ts)

/-- The dumps of several programs as trees. -/
def Program.dumpTrees (entity : String) : List Program → List (Tree DumpNode)
  | [] => []
  | t :: ts => Program.dumpTree entity t :: Program.dumpTrees entity ts

end

namespace DumpNode

/-- A member of an indented JSON object. -/
def member (depth : Nat) (name value : String) : String :=
  indentation depth ++ Json.quote name ++ ": " ++ value

/-- An indented JSON block of lines between brackets. -/
def bracketed (depth : Nat) (opening closing : String) (lines : List String) : String :=
  opening ++ "\n" ++ ",\n".intercalate lines ++ "\n" ++ indentation depth ++ closing

/-- The fields of an instruction as an indented JSON object. -/
def fieldsJson (depth : Nat) (fields : List (String × String)) : String :=
  bracketed depth "\x7b" "\x7d"
    (fields.map fun f => member (depth + 1) f.1 (Json.quote f.2))

/-- The members of an instruction's object that stand in front of its children. -/
def members (n : DumpNode) (depth : Nat) : List String :=
  [member depth "tag" (Json.quote n.tag),
    member depth "implementation" (Json.quote n.implementation),
    member depth "line" (toString n.line), member depth "resource" (Json.quote n.resource)] ++
    if n.fields.isEmpty then [] else [member depth "fields" (fieldsJson depth n.fields)]

mutual

/-- A dump as an indented JSON object. -/
def json (depth : Nat) : Tree DumpNode → String
  | .node n ts =>
    bracketed depth "\x7b" "\x7d" (n.members (depth + 1) ++
      if ts.isEmpty then []
      else [member (depth + 1) "children"
        (bracketed (depth + 1) "[" "]" (jsonItems (depth + 2) ts))])

/-- Several dumps as the items of an indented JSON list. -/
def jsonItems (depth : Nat) : List (Tree DumpNode) → List String
  | [] => []
  | t :: ts => (indentation depth ++ json depth t) :: jsonItems depth ts

end

end DumpNode

namespace Entity

/-- The text dump of an entity. -/
def dump (e : Entity) : String :=
  match e.program with
  | some p => p.dump e.name
  | none => s!"<{e.rootTag}> of '{e.name}' (not parsed)\n"

/-- The JSON dump of an entity. -/
def dumpJson (e : Entity) : String :=
  match e.program with
  | some p => DumpNode.json 0 (Program.dumpTree e.name p)
  | none => "null"

end Entity

end Scenario
