import Scenario.Text.Blank

/-!
# Elements

The tree of a document: elements with their namespace, attributes and source line, and the texts
between them.
-/

namespace Scenario.Xml

/-- An attribute. -/
structure Attr where
  /-- Its namespace; an attribute without a prefix has none. -/
  ns : Option String := none
  /-- Its name without the prefix. -/
  name : String
  /-- Its value. -/
  value : String
  deriving DecidableEq, Inhabited

/-- What a start tag says. -/
structure Head where
  /-- The namespace of the element. -/
  ns : Option String := none
  /-- The name of the element without its prefix. -/
  name : String
  /-- The attributes, in order. -/
  attrs : List Attr := []
  /-- The line on which the tag begins. -/
  line : Nat := 1
  deriving DecidableEq, Inhabited

/-- A child of an element. -/
inductive Node where
  /-- An element. -/
  | element (head : Head) (children : List Node)
  /-- A text and the line on which it begins. -/
  | text (s : String) (line : Nat)
  deriving Inhabited

namespace Node

mutual

/-- Whether two nodes are equal. -/
def decEq : (n m : Node) → Decidable (n = m)
  | .text s line, .text s' line' => decidable_of_iff (s = s' ∧ line = line') (by simp)
  | .element h ns, .element h' ms =>
    match decEqAll ns ms with
    | isTrue hns => decidable_of_iff (h = h') (by simp [hns])
    | isFalse hns => isFalse (by simp [hns])
  | .text _ _, .element _ _ => isFalse (by simp)
  | .element _ _, .text _ _ => isFalse (by simp)

/-- Whether two lists of nodes are equal. -/
def decEqAll : (ns ms : List Node) → Decidable (ns = ms)
  | [], [] => isTrue rfl
  | n :: ns, m :: ms =>
    match decEq n m, decEqAll ns ms with
    | isTrue hn, isTrue hns => isTrue (by simp [hn, hns])
    | isFalse hn, _ => isFalse (by simp [hn])
    | _, isFalse hns => isFalse (by simp [hns])
  | [], _ :: _ => isFalse (by simp)
  | _ :: _, [] => isFalse (by simp)

end

instance : DecidableEq Node := decEq

end Node

/-- An element. -/
structure Element where
  /-- What its start tag says. -/
  head : Head
  /-- Its children, in order. -/
  children : List Node := []
  deriving DecidableEq, Inhabited

namespace Head

/-- The value of an attribute without namespace. -/
def attr? (h : Head) (name : String) : Option String :=
  (h.attrs.find? fun a => a.ns.isNone && a.name == name).map Attr.value

/-- The value of an attribute in a namespace. -/
def attrIn? (h : Head) (ns name : String) : Option String :=
  (h.attrs.find? fun a => a.ns == some ns && a.name == name).map Attr.value

/-- The name of an element with its namespace in braces. -/
def shown (h : Head) : String :=
  match h.ns with
  | some ns => "\x7b" ++ ns ++ "\x7d" ++ h.name
  | none => h.name

end Head

/-- The text of a text child. -/
def Node.text? : Node → Option String
  | .text s _ => some s
  | .element _ _ => none

/-- The element of an element child. -/
def Node.element? : Node → Option Element
  | .element h children => some ⟨h, children⟩
  | .text _ _ => none

/-- An element as a child. -/
def Element.toNode (e : Element) : Node := .element e.head e.children

/-- The texts among children, joined. -/
def textOf (children : List Node) : String := String.join (children.filterMap Node.text?)

/-- Replaces every text that is not blank by the element made of it and its line, and drops the
blank ones. -/
def mapText (make : String → Nat → Node) (children : List Node) : List Node :=
  children.filterMap fun
    | .text s line => if Text.isBlankText s then none else some (make s line)
    | n => some n

/-- The namespace of data tags. -/
def dataNs : String := "urn:tagflow:data"

/-- A data element that holds a text. -/
def dataElement (name : String) (line : Nat) (text : String) : Element :=
  ⟨{ ns := some dataNs, name, line }, [.text text line]⟩

/-- A data element for every attribute without namespace that is kept, in order. -/
def pushedDown (h : Head) (keep : String → Bool) : List Element :=
  (h.attrs.filter fun a => a.ns.isNone && keep a.name).map fun a =>
    dataElement a.name h.line a.value

namespace Element

/-- The texts of the element itself, joined. -/
def text (e : Element) : String := textOf e.children

/-- The elements among the children. -/
def elements (e : Element) : List Element := e.children.filterMap Node.element?

/-- The element with its texts replaced. -/
def mapText (make : String → Nat → Node) (e : Element) : Element :=
  { e with children := Xml.mapText make e.children }

/-- The element with kept attributes as data elements in front of its children. -/
def pushDown (keep : String → Bool) (e : Element) : Element :=
  { e with children := (pushedDown e.head keep).map toNode ++ e.children }

end Element

end Scenario.Xml
