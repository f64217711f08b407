import Scenario.Entity.Assembly
import Scenario.Xml.Document

/-!
# Parsing and keeping entities

A resource is parsed when it is needed and the entity is kept for its path until the resource
changes. Resources may refer to each other in circles: one that is already being parsed is not
parsed again.
-/

namespace Scenario

/-- How entities are made. -/
structure Setup where
  /-- The tags. -/
  registry : Registry
  /-- How texts are compiled. -/
  evaluator : Evaluator := .template
  /-- Whether entities are kept. -/
  keeps : Bool := true

namespace Setup

/-- Writes a log record about a resource. -/
def report (level : Level) (message : String) (r : Resource) (more : List (String × String)) :
    Parse Unit :=
  modify fun w => w.write ⟨level, message, ("resource", r.path) :: more, false⟩

/-- The entity of a resource among those being parsed. -/
def inProgress? (w : World) (r : Resource) : Option EntityKey :=
  w.progress.find? fun k => ((w.entity? k).map fun e => e.path == r.path).getD false

/-- The entity that is kept for a resource and still up to date. -/
def fresh? (w : World) (r : Resource) : Option EntityKey :=
  (w.cached? r.path).filter fun k => !w.isModified k

/-- Reads the document of a resource. -/
def readDocument (r : Resource) : Parse Xml.Element := do
  match (← get).storage.read r with
  | .error detail => throw (.io r.path detail)
  | .ok text =>
    match Xml.read text with
    | .error e => throw (.xml r.path e.message)
    | .ok root => return root

/-- Makes the entity of a resource whose root is known. Its program is made by `assemble` while the
entity is in progress; a finished entity is kept if it may be. -/
def make (st : Setup) (assemble : Xml.Element → RootMaker → Parse Program)
    (r : Resource) (timestamp : Option Stamp) (root : Xml.Element) (maker : RootMaker) :
    Parse EntityKey := do
  report .debug "Parsing resource" r [("root", root.head.name)]
  let key ← modifyGet fun w =>
    let (w, key) := w.addEntity { resource := r, rootTag := root.head.name, timestamp }
    (key, w)
  let p ← Parse.inProgress key (assemble root maker)
  modify fun w => w.complete key p
  if st.keeps && r.cacheable && !Text.isBlankText r.name then
    modify fun w => w.keep r.path key
  return key

/-- Parses a resource: gives the entity in progress, the one that is kept, or a new one. A resource
that does not exist or has an unknown root gives none. -/
def parseWith (st : Setup) (assemble : Xml.Element → RootMaker → Parse Program)
    (r : Resource) (force : Bool) : Parse (Option EntityKey) := do
  let w ← get
  if let some key := inProgress? w r then
    report .debug "Resource is already being parsed, reusing it" r []
    return some key
  if let some key := if force then none else fresh? w r then
    report .debug "Using cached entity" r []
    return some key
  if !w.storage.isPresent r then
    report .warn "Resource does not exist" r []
    return none
  let root ← readDocument r
  match st.registry.root? root.head.name with
  | none =>
    report .warn "Unknown root tag, resource ignored" r [("root", root.head.name)]
    return none
  | some maker => return some (← st.make assemble r (w.storage.modified r) root maker)

/-- Parses a resource, maybe while others are in progress; resources referred to may nest `depth`
deep. -/
def parseIn (st : Setup) : Nat → Resource → Bool → Parse (Option EntityKey)
  | 0, r, force => st.parseWith (fun _ _ => throw (.tooDeep r.path)) r force
  | depth + 1, r, force =>
    st.parseWith (fun root maker => do
      let cx : Assembly := {
        registry := st.registry
        evaluator := st.evaluator
        locator := (← get).locator
        path := r.path
        refer := fun target => st.parseIn depth target false }
      cx.document root maker) r force

/-- Parses a resource. Only registered resources are referred to, and one that is in progress is
not parsed again, so no more than all of them nest. -/
def parse (st : Setup) (r : Resource) (force : Bool) : Parse (Option EntityKey) := do
  modify World.idle
  st.parseIn ((← get).locator.length + 1) r force

/-- The entity of the resource registered under a name. -/
def load (st : Setup) (name : String) : Parse EntityKey := do
  match (← get).locator.get? name with
  | none => throw (.unknownResource name)
  | some r =>
    match ← st.parse r false with
    | some key => return key
    | none => throw (.notExecutable r.path)

end Setup

end Scenario
