import Scenario.Entity.Dump
import Scenario.Entity.World
import Scenario.Registry

/-!
# From elements to instructions

The instructions of a document stand in the order of its elements. Three things are instructions
without being elements of the document:

* a text that is not blank is an expression;
* a plain attribute of a data tag or of a call is a data tag in front of the children;
* a child of a call that is itself a call stands inside a parameter named `value`.

An element that cannot become an instruction is reported with its name and line; a failure in a
resource that it refers to is reported as it is.

## Scope

A failure is given its place where it is raised, by `Assembly.refuse`. No trail of the elements
being built is kept, from whose innermost one the place would be read when the failure has come up
to the root: since every refusal in the making of an element is one of that element itself, and what
is below it is made by a call of its own, the element at hand is the innermost one of such a trail.

The element that a text or an attribute stands for is not made. `Assembly.textLeaf` and
`Assembly.attrLeaf` give its instruction at once; that they agree with making the element and
asking the registry is shown in `Scenario.Proofs.Preparation`.
-/

namespace Scenario

/-- What the instructions of a document are made with. -/
structure Assembly where
  /-- The tags. -/
  registry : Registry
  /-- How texts are compiled. -/
  evaluator : Evaluator
  /-- The registered resources. -/
  locator : Locator
  /-- The path of the document. -/
  path : String
  /-- Parses a resource that the document refers to. -/
  refer : Resource → Parse (Option EntityKey)

/-- What an element becomes. -/
structure Plan where
  /-- The tag. -/
  tag : Tag
  /-- The attributes that become data tags in front of the children. -/
  pushed : List Xml.Attr := []
  /-- Whether children that are calls become parameters. -/
  wraps : Bool := false
  /-- Whether the children are left out. -/
  closed : Bool := false

namespace Assembly

/-- The result name of an element. An attribute with the namespace of the built-in tags goes before
one without. -/
def binding (e : Evaluator) (h : Xml.Head) (attrs : TagAttrs) : Except String (Option ResultId) :=
  match attrs.id with
  | none => .ok none
  | some name =>
    let found := match h.attrIn? rootNs name with
      | some source => some (source, true)
      | none => (h.attr? name).map fun source => (source, false)
    match found with
    | none => .ok none
    | some (source, qualified) =>
      if Text.isBlankText source then .error s!"Attribute '{name}' must not be blank"
      else (e.compileNamed source).map fun c => some ⟨c, name, qualified⟩

/-- The condition of an element. -/
def guard (e : Evaluator) (h : Xml.Head) (attrs : TagAttrs) : Except String (Option Guard) :=
  let positive := attrs.guard.bind fun a => (h.attr? a).map fun v => (a, v)
  let negative := attrs.negatedGuard.bind fun a => (h.attr? a).map fun v => (a, v)
  match positive, negative with
  | some (a, _), some (b, _) => .error s!"Attributes '{a}' and '{b}' cannot be used together"
  | some (_, source), none => (e.compileNamed source).map fun c => some ⟨c, false⟩
  | none, some (_, source) => (e.compileNamed source).map fun c => some ⟨c, true⟩
  | none, none => .ok none

/-- The mode of a data tag, or the reason why it cannot stand where it does. -/
def dataMode (name : String) (enclosing : TagKind) (hasId fallback : Bool) :
    Except String DataMode :=
  let mode := DataMode.inside enclosing
  if name.toList.contains '.' then .error s!"Data tag name should not contain dots: <{name}>"
  else if (name.toList.head?.map Char.isDigit).getD false then
    .error s!"Data tag name should not start with a number: <{name}>"
  else if mode = .entry && !hasId then .error s!"Local data tag <{name}> needs an id attribute"
  else if mode ≠ .entry && fallback then
    .error s!"<{name}> is only allowed directly under the entity root"
  else if mode = .parameter && hasId then
    .error s!"Parameter data tag <{name}> cannot carry an id attribute"
  else .ok mode

/-- Whether a branch without a condition of its own may follow an instruction. -/
def opensAlternative (i : Instruction) : Bool :=
  i.tag.typeName == "if" || (i.tag.typeName == "else" && i.guard.isSome)

/-- Refuses an element. -/
def refuse {α : Type} (cx : Assembly) (h : Xml.Head) (detail : String) : Parse α :=
  throw (.tag h.name h.line cx.path detail)

/-- Takes a result, or refuses the element with the reason why there is none. -/
def orRefuse {α : Type} (cx : Assembly) (h : Xml.Head) : Except String α → Parse α
  | .ok a => pure a
  | .error detail => cx.refuse h detail

/-- Whether a child element is a call. -/
def isCall (cx : Assembly) (h : Xml.Head) : Bool :=
  ((cx.registry.resolve? cx.locator h.ns h.name).map fun r => r.maker.kind == .invoker).getD false

/-- Refuses a call with a child element that stands for no tag. -/
def checkChildren (cx : Assembly) (h : Xml.Head) : List Xml.Node → Parse Unit
  | [] => pure ()
  | .text _ _ :: ns => cx.checkChildren h ns
  | .element c _ :: ns => do
    let _ ← cx.orRefuse h (cx.registry.resolve cx.locator c.ns c.name)
    cx.checkChildren h ns

/-- The attributes without namespace. -/
def plainAttrs (h : Xml.Head) : List Xml.Attr := h.attrs.filter fun a => a.ns.isNone

/-- The plan of a call: its attributes, those with conditions apart, are parameters. -/
def callPlan (h : Xml.Head) (attrs : TagAttrs) (tag : Tag) : Plan where
  tag
  pushed := (plainAttrs h).filter fun a => !attrs.isGuard a.name
  wraps := true

/-- What an element becomes. -/
def plan (cx : Assembly) (site : Site) (h : Xml.Head) (children : List Xml.Node) (r : Resolved) :
    Parse Plan := do
  match r.maker with
  | .data fallback =>
    let hasId := (h.attr? "id").isSome || (h.attrIn? rootNs "id").isSome
    let mode ← cx.orRefuse h (dataMode h.name site.enclosing hasId fallback)
    return {
      tag := .data h.name mode fallback
      pushed := (plainAttrs h).filter fun a => mode == .sub || a.name != "id" }
  | .literal => return { tag := .literal (Xml.textOf children), closed := true }
  | .expression =>
    let text := Text.trim (Xml.textOf children)
    if text.isEmpty then cx.refuse h s!"<{h.name}> must have a non-blank text"
    let e ← cx.orRefuse h (cx.evaluator.compileNamed text)
    return { tag := .expression e, closed := true }
  | .conditional =>
    if (h.attr? "test").isNone then cx.refuse h s!"<{h.name}> needs a 'test' attribute"
    return { tag := .conditional }
  | .alternative =>
    if !(site.previous.map opensAlternative).getD false then
      cx.refuse h
        s!"<{h.name}> must follow an <if> or an <else> that has a 'test' attribute"
    return { tag := .alternative }
  | .mutex =>
    let name ← (h.attr? "name").mapM fun s => cx.orRefuse h (cx.evaluator.compileNamed s)
    let timeout ← (h.attr? "timeout").mapM fun s => cx.orRefuse h (cx.evaluator.compileNamed s)
    return { tag := .mutex name timeout }
  | .bean b =>
    cx.checkChildren h children
    return callPlan h r.maker.attrs (.bean b)
  | .invoke =>
    cx.checkChildren h children
    match r.target with
    | none => cx.refuse h s!"<{h.name}> does not name a resource"
    | some target =>
      match ← cx.refer target with
      | none => cx.refuse h s!"Target resource not found: {target.name}"
      | some _ => return callPlan h r.maker.attrs (.invoke target.name)
  | .describe typeName =>
    let found ← match r.target with
      | some target => cx.refer target
      | none => pure none
    let text ← match found with
      | some key => do
        modify fun w => { w with described := w.described.push key }
        pure ((((← get).entity? key).map Entity.dump).getD "")
      | none => pure s!"{h.name} is absent"
    return { tag := .fixed typeName .invoker (.str text) none, closed := true }
  | .fixed typeName closed v whenSkipped =>
    return { tag := .fixed typeName .action (v site) whenSkipped, closed }

/-- The expression of a text. The registry is not asked what an expression is, so this is the
instruction of an expression element only where the name `expression` is found in the built-in
library first. -/
def textLeaf (cx : Assembly) (text : String) (line : Nat) : Parse (Tree Instruction) := do
  let h : Xml.Head := { name := "expression", line }
  let e ← cx.orRefuse h (cx.evaluator.compileNamed (Text.trim text))
  return .node { name := h.name, line, tag := .expression e } []

/-- The data tag of an attribute. -/
def attrLeaf (cx : Assembly) (enclosing : TagKind) (line : Nat) (a : Xml.Attr) :
    Parse (Tree Instruction) := do
  let h : Xml.Head := { name := a.name, line }
  let mode ← cx.orRefuse h (dataMode a.name enclosing false false)
  let children ← if Text.isBlankText a.value then pure []
    else do pure [← cx.textLeaf a.value line]
  return .node { name := a.name, line, tag := .data a.name mode false } children

/-- A call as a parameter named `value`. -/
def wrapped (site : Site) (line : Nat) (t : Tree Instruction) : Tree Instruction :=
  let name := Output.defaultName
  .node { name, line, tag := .data name (DataMode.inside site.enclosing) false } [t]

/-- The place of the children of an instruction. -/
def inside (site : Site) (kind : TagKind) : Site :=
  { site with
    enclosing := if kind = .control then site.enclosing else kind
    previous := none }

mutual

/-- The instruction of a child node; a blank text has none. With `wraps` a call becomes a
parameter. -/
def node (cx : Assembly) (site : Site) (wraps : Bool) : Xml.Node → Parse (Option (Tree Instruction))
  | .text s line => do
    if Text.isBlankText s then return none
    let t ← cx.textLeaf s line
    return some (if wraps then wrapped site line t else t)
  | .element h children => do
    let wrap := wraps && cx.isCall h
    let here := if wrap then inside site .data else site
    let r ← cx.orRefuse h (cx.registry.resolve cx.locator h.ns h.name)
    let id ← cx.orRefuse h (binding cx.evaluator h r.maker.attrs)
    let cond ← cx.orRefuse h (guard cx.evaluator h r.maker.attrs)
    let p ← cx.plan here h children r
    let i : Instruction :=
      { name := h.name, line := h.line, guard := cond, binding := id, tag := p.tag }
    let below := inside here p.tag.kind
    let pushed ← p.pushed.mapM (cx.attrLeaf below.enclosing h.line)
    let rest ← if p.closed then pure []
      else nodes cx { below with previous := pushed.getLast?.map Tree.label } p.wraps children
    let t := Tree.node i (pushed ++ rest)
    return some (if wrap then wrapped site h.line t else t)

/-- The instructions of child nodes. -/
def nodes (cx : Assembly) (site : Site) (wraps : Bool) :
    List Xml.Node → Parse (List (Tree Instruction))
  | [] => pure []
  | n :: ns => do
    match ← node cx site wraps n with
    | none => nodes cx site wraps ns
    | some t => return t :: (← nodes cx { site with previous := some t.label } wraps ns)

end

/-- The instructions of a document. -/
def document (cx : Assembly) (root : Xml.Element) (maker : RootMaker) : Parse Program := do
  let tag ← match maker with
    | .scenario => pure .scenario
    | .block typeName => pure (.block typeName)
    | .refused reason => cx.refuse root.head (reason root)
  let site : Site := { path := cx.path, names := cx.locator.names }
  let children ← cx.nodes site false root.children
  return (Tree.node { name := root.head.name, line := root.head.line, tag } children).number

end Assembly

end Scenario
