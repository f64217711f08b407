import Scenario.Resource.Basic
import Scenario.Tag
import Scenario.Xml.Element

/-!
# Tag libraries

Which tag an element stands for is decided by its namespace:

| namespace | what is tried, in order |
|---|---|
| none | any library, a resource by name, a data tag |
| blank, or the one of data tags | a data tag |
| the one of commands | any library |
| the one of files | a resource by name |
| any other | the libraries of that namespace, a resource by name |
-/

namespace Scenario

/-- The namespace of the built-in tags. -/
def rootNs : String := "urn:tagflow:root"

/-- The namespace of commands. -/
def commandNs : String := "urn:tagflow:command"

/-- The namespace of resources. -/
def fileNs : String := "urn:tagflow:file"

/-- The attributes that a tag keeps for its result name and its condition. -/
structure TagAttrs where
  /-- The attribute with the result name. -/
  id : Option String := none
  /-- The attribute with a condition that has to hold. -/
  guard : Option String := none
  /-- The attribute with a condition that has to fail. -/
  negatedGuard : Option String := none
  deriving DecidableEq

namespace TagAttrs

/-- The attributes of most tags. -/
def usual : TagAttrs := ⟨some "id", some "if", some "unless"⟩

/-- The attributes of tags that always run. -/
def idOnly : TagAttrs := ⟨some "id", none, none⟩

/-- The attributes of branches. -/
def branch : TagAttrs := ⟨none, some "test", none⟩

/-- Whether an attribute holds a condition. -/
def isGuard (a : TagAttrs) (name : String) : Bool :=
  a.guard == some name || a.negatedGuard == some name

end TagAttrs

/-- The place of an element in a document. -/
structure Site where
  /-- The path of the resource. -/
  path : String
  /-- The part played by the nearest tag around it that is no transparent container. -/
  enclosing : TagKind := .entity
  /-- The instruction in front of it, below the same one. -/
  previous : Option Instruction := none
  /-- The names of all resources. -/
  names : List String := []

/-- How an element becomes a tag. -/
inductive Maker where
  /-- A data tag; with `fallback` one that gives way to a value that is already there. -/
  | data (fallback : Bool)
  /-- The text of the element. -/
  | literal
  /-- The expression in the text of the element. -/
  | expression
  /-- A branch with a condition. -/
  | conditional
  /-- A branch that runs if the ones before it did not. -/
  | alternative
  /-- A section that one thread at a time may run. -/
  | mutex
  /-- A call of a bean. -/
  | bean (b : Bean)
  /-- A call of the entity of a resource. -/
  | invoke
  /-- A fixed value that tells what the resource's entity looks like. -/
  | describe (typeName : String)
  /-- A fixed value; `closed` hides the children of the element. -/
  | fixed (typeName : String) (closed : Bool) (v : Site → Value) (whenSkipped : Option String)

namespace Maker

/-- The part that the tag will play. -/
def kind : Maker → TagKind
  | data _ => .data
  | literal | fixed _ _ _ _ => .action
  | expression | bean _ | invoke | describe _ => .invoker
  | conditional | alternative | mutex => .control

/-- The attributes that the tag keeps for itself. -/
def attrs : Maker → TagAttrs
  | data _ => .idOnly
  | conditional | alternative => .branch
  | _ => .usual

/-- Whether texts in the element stay texts instead of becoming expressions. -/
def keepsText : Maker → Bool
  | literal | expression => true
  | _ => false

end Maker

/-- How the root element of a document becomes a tag. -/
inductive RootMaker where
  /-- The usual root. -/
  | scenario
  /-- A root that gives the outputs of its children. -/
  | block (typeName : String)
  /-- A root that is always refused. -/
  | refused (reason : Xml.Element → String)

/-- Tags by name. -/
structure Library where
  /-- The name of the library. -/
  name : String
  /-- The namespace of its tags. -/
  ns : String
  /-- The tags. -/
  tags : List (String × Maker)

/-- The tag that a library has under a name. -/
def Library.get? (l : Library) (name : String) : Option Maker := List.lookup name l.tags

/-- All tags that documents can use. -/
structure Registry where
  /-- The libraries, in the order in which they are searched. -/
  libraries : List Library
  /-- The root elements. -/
  roots : List (String × RootMaker)
  /-- How an element that names a resource becomes a tag. -/
  reference : Maker := .invoke

/-- The tag that an element stands for. -/
structure Resolved where
  /-- How the element becomes a tag. -/
  maker : Maker
  /-- The resource that it names. -/
  target : Option Resource := none

namespace Registry

/-- The root element with a name. -/
def root? (r : Registry) (name : String) : Option RootMaker := List.lookup name r.roots

/-- A tag of any library. -/
def anyLibrary? (r : Registry) (name : String) : Option Resolved :=
  (r.libraries.findSome? fun l => l.get? name).map fun m => { maker := m }

/-- A tag of a library with a namespace. -/
def namespaceLibrary? (r : Registry) (ns name : String) : Option Resolved :=
  ((r.libraries.filter fun l => l.ns == ns).findSome? fun l => l.get? name).map
    fun m => { maker := m }

/-- A reference to a resource. -/
def reference? (r : Registry) (l : Locator) (name : String) : Option Resolved :=
  (l.get? name).map fun t => { maker := r.reference, target := some t }

/-- A data tag. -/
def dataTag : Resolved := { maker := .data false }

/-- The tag that an element with a namespace and a name stands for. -/
def resolve? (r : Registry) (l : Locator) (ns : Option String) (name : String) :
    Option Resolved :=
  match ns with
  | none => ((r.anyLibrary? name).or (r.reference? l name)).or (some dataTag)
  | some uri =>
    if Text.isBlankText uri || uri = Xml.dataNs then some dataTag
    else if uri = commandNs then r.anyLibrary? name
    else if uri = fileNs then r.reference? l name
    else (r.namespaceLibrary? uri name).or (r.reference? l name)

/-- The text for an element that stands for no tag. -/
def unknownTag (ns : Option String) (name : String) : String :=
  s!"Unknown tag <{name}> in namespace " ++ ns.getD "<none>"

/-- The tag that an element stands for, or the reason why there is none. -/
def resolve (r : Registry) (l : Locator) (ns : Option String) (name : String) :
    Except String Resolved :=
  match r.resolve? l ns name with
  | some t => .ok t
  | none => .error (unknownTag ns name)

end Registry

end Scenario
