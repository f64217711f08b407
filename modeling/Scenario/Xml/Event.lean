import Scenario.Xml.Element
import Scenario.Xml.Entity
import Scenario.Xml.Namespace

/-!
# Events

A document as a sequence of events: elements that open and close, and the texts in them, with names
resolved, references replaced and lines counted. Reading stops at the first fault, which is the
last event.
-/

namespace Scenario.Xml

/-- Why a document cannot be read. -/
inductive Fault where
  /-- The bytes are no text. -/
  | encoding (fault : Text.Utf8Fault)
  /-- The markup is broken. -/
  | markup (fault : MarkupFault)
  /-- An end tag without an open element. -/
  | unmatchedClose (name : String)
  /-- An end tag of another element than the open one. -/
  | mismatchedClose (expected found : String)
  /-- An attribute is broken. -/
  | badAttribute (fault : AttrFault)
  /-- A reserved prefix or namespace is declared. -/
  | reserved (fault : ReservedFault)
  /-- A prefix is not declared. -/
  | unknownPrefix (label : String)
  /-- A character reference is broken. -/
  | reference (fault : EntityFault)
  /-- An element is still open at the end. -/
  | openElement
  /-- There is no element. -/
  | noRoot
  /-- A second element stands outside the first one. -/
  | manyRoots
  deriving DecidableEq

/-- The text of a fault. -/
def Fault.message : Fault → String
  | encoding f => "document is not valid UTF-8: " ++ f.message
  | markup f => f.message
  | unmatchedClose name =>
    s!"ill-formed document: close tag `</{name}>` does not match any open tag"
  | mismatchedClose expected found =>
    s!"ill-formed document: expected `</{expected}>`, but `</{found}>` was found"
  | badAttribute f => f.message
  | reserved f => f.message
  | unknownPrefix label => s!"unknown namespace prefix '{label}'"
  | reference f => f.message
  | openElement => "unexpected end of document"
  | noRoot => "document has no root element"
  | manyRoots => "document has more than one root element"

/-- A fault and the line of the piece in which it was found. -/
structure Error where
  /-- The line. -/
  line : Nat
  /-- The fault. -/
  fault : Fault
  deriving DecidableEq

/-- The text of a fault with its line. -/
def Error.message (e : Error) : String := s!"line {e.line}: {e.fault.message}"

/-- Something that happens in a document. -/
inductive Event where
  /-- An element opens. -/
  | start (head : Head)
  /-- An element without content. -/
  | empty (head : Head)
  /-- The open element closes. -/
  | close (line : Nat)
  /-- A text. -/
  | text (s : String) (line : Nat)
  /-- The document cannot be read further. -/
  | fault (e : Error)
  deriving DecidableEq

namespace Event

/-- The attributes of a tag: names used once, prefixes declared, references replaced, declarations
left out. `seen` holds the names before with their places. -/
def resolveAttrs (ds : Declarations) :
    List (List Char × Nat) → List RawAttr → Except Fault (List Attr)
  | _, [] => .ok []
  | _, .noEquals p :: _ => .error (.badAttribute (.noEquals p))
  | seen, .bad key place f :: _ =>
    match seen.find? fun k => k.1 == key with
    | some k => .error (.badAttribute (.duplicate place k.2))
    | none => .error (.badAttribute f)
  | seen, .good key place value :: rest =>
    match seen.find? fun k => k.1 == key with
    | some k => .error (.badAttribute (.duplicate place k.2))
    | none =>
      let seen := seen ++ [(key, place)]
      if (declaredPrefix? key).isSome then resolveAttrs ds seen rest
      else
        let (label, name) := splitName key
        match ds.resolveAttr label with
        | .error p => .error (.unknownPrefix p)
        | .ok ns =>
          match unescape value with
          | .error e => .error (.reference e)
          | .ok value => (resolveAttrs ds seen rest).map (⟨ns, name, value⟩ :: ·)

/-- What a start tag says, and the declarations in force in its element. -/
def resolveHead (ds : Declarations) (line : Nat) (content : List Char) :
    Except Fault (Head × Declarations) :=
  let attrs := rawAttrs content
  match ds.declareAll attrs with
  | .error e => .error (.reserved e)
  | .ok ds =>
    let (label, name) := splitName (rawName content)
    match ds.resolve label with
    | .error p => .error (.unknownPrefix p)
    | .ok ns => (resolveAttrs ds [] attrs).map fun attrs => ({ ns, name, attrs, line }, ds)

/-- The open elements, innermost first: their written names and declarations. -/
abbrev Opened := List (List Char × Declarations)

/-- The declarations in force inside the open elements. -/
def inForce : Opened → Declarations
  | (_, ds) :: _ => ds
  | [] => .initial

/-- Whether an end tag closes the innermost open element; the error says why not. -/
def checkClose (opened : Opened) (name : List Char) : Except Fault Opened :=
  match opened with
  | [] => .error (.unmatchedClose (String.ofList name))
  | (expected, _) :: outer =>
    if name = expected then .ok outer
    else .error (.mismatchedClose (String.ofList expected) (String.ofList name))

/-- The events of the pieces of a document. -/
def ofMarkup : Opened → List (Nat × Markup) → List Event
  | _, [] => []
  | opened, (line, m) :: rest =>
    match m with
    | .text cs =>
      match unescape cs with
      | .ok s => .text s line :: ofMarkup opened rest
      | .error e => [.fault ⟨line, .reference e⟩]
    | .data cs => .text (String.ofList cs) line :: ofMarkup opened rest
    | .ignorable => ofMarkup opened rest
    | .fault f => [.fault ⟨line, .markup f⟩]
    | .start content =>
      match resolveHead (inForce opened) line content with
      | .ok (head, ds) => .start head :: ofMarkup ((rawName content, ds) :: opened) rest
      | .error f => [.fault ⟨line, f⟩]
    | .empty content =>
      match resolveHead (inForce opened) line content with
      | .ok (head, _) => .empty head :: ofMarkup opened rest
      | .error f => [.fault ⟨line, f⟩]
    | .close name =>
      match checkClose opened name with
      | .ok outer => .close line :: ofMarkup outer rest
      | .error f => [.fault ⟨line, f⟩]

end Event

end Scenario.Xml
