import Scenario.Xml.Attribute

/-!
# Namespaces

The namespace declarations in force at an element, innermost first, and what they say of a prefix.
-/

namespace Scenario.Xml

/-- A declaration: a prefix, or none for the default namespace, and the namespace it stands for.
The empty namespace undoes a declaration. -/
structure Declaration where
  /-- The prefix. -/
  label : Option String
  /-- The namespace. -/
  uri : String
  deriving DecidableEq

/-- The declarations in force, innermost first. -/
abbrev Declarations := List Declaration

/-- The namespace of the prefix `xml`. -/
def xmlUri : String := "http://www.w3.org/XML/1998/namespace"

/-- The namespace of the prefix `xmlns`. -/
def xmlnsUri : String := "http://www.w3.org/2000/xmlns/"

/-- The declarations in force everywhere. -/
def Declarations.initial : Declarations := [⟨some "xmlns", xmlnsUri⟩, ⟨some "xml", xmlUri⟩]

/-- A name split at its first colon: the prefix, if there is one, and the local name. -/
def splitName (cs : List Char) : Option String × String :=
  match cs.dropWhile (· != ':') with
  | _ :: rest => (some (String.ofList (cs.takeWhile (· != ':'))), String.ofList rest)
  | [] => (none, String.ofList cs)

/-- The prefix that an attribute declares, if it is a declaration. -/
def declaredPrefix? (key : List Char) : Option (Option String) :=
  if key = "xmlns".toList then some none
  else if "xmlns:".toList.isPrefixOf key then some (some (String.ofList (key.drop 6)))
  else none

/-- A prefix was to be bound against the rules for the reserved ones. -/
structure ReservedFault where
  /-- The prefix. -/
  label : String
  /-- The namespace. -/
  uri : String
  deriving DecidableEq

/-- A byte of a quoted name: printable ones as they are, the others in hexadecimal. -/
def shownByte (b : UInt8) : String :=
  if b = 34 then "\\\""
  else if 32 ≤ b ∧ b ≤ 126 then String.singleton (Char.ofNat b.toNat)
  else "0x" ++ String.ofList ((Nat.toDigits 16 b.toNat).map Char.toUpper)

/-- A name in double quotes, byte by byte. -/
def shownBytes (s : String) : String :=
  "\"" ++ String.join (s.toUTF8.toList.map shownByte) ++ "\""

/-- The text of a refused declaration. -/
def ReservedFault.message (f : ReservedFault) : String :=
  "The namespace prefix '" ++ shownBytes f.label ++ "' cannot be bound to '" ++ shownBytes f.uri ++
    "'"

namespace Declarations

/-- Adds a declaration. The prefix `xml` keeps its namespace, `xmlns` is never declared, and no
other prefix takes the namespace of one of them. A declaration of the empty prefix counts as one of
the default namespace. -/
def declare (ds : Declarations) (label : Option String) (uri : String) :
    Except ReservedFault Declarations :=
  match label with
  | none => .ok (⟨none, uri⟩ :: ds)
  | some p =>
    if p = "xml" then if uri = xmlUri then .ok ds else .error ⟨p, uri⟩
    else if p = "xmlns" then .error ⟨p, uri⟩
    else if uri = xmlUri ∨ uri = xmlnsUri then .error ⟨p, uri⟩
    else .ok (⟨if p = "" then none else some p, uri⟩ :: ds)

/-- Adds the declarations among attributes, up to the first attribute that cannot be read. -/
def declareAll (ds : Declarations) : List RawAttr → Except ReservedFault Declarations
  | .good key _ value :: rest =>
    match declaredPrefix? key with
    | none => ds.declareAll rest
    | some label =>
      match ds.declare label (String.ofList value) with
      | .ok ds => declareAll ds rest
      | .error e => .error e
  | _ => .ok ds

/-- The namespace of a prefix, or the default namespace; the error is an unknown prefix. -/
def resolve (ds : Declarations) (label : Option String) : Except String (Option String) :=
  match ds.find? fun d => d.label == label with
  | some d =>
    if d.uri = "" then
      match label with
      | none => .ok none
      | some p => .error p
    else .ok (some d.uri)
  | none =>
    match label with
    | none => .ok none
    | some p => .error p

/-- The namespace of an attribute: that of its prefix, and none without a prefix. -/
def resolveAttr (ds : Declarations) (label : Option String) : Except String (Option String) :=
  match label with
  | none => .ok none
  | some _ => ds.resolve label

end Declarations

end Scenario.Xml
