import Scenario.Xml.Event

/-!
# Documents

A document is read by building the tree of its events. It has exactly one root element; texts
outside it are dropped.

Lines are counted along with reading, from one byte offset to the next. A byte order mark at the
front is skipped by offsets but not by the count, so after one every place is taken three bytes
early.
-/

namespace Scenario.Xml

/-! ### Trees from events -/

/-- An element whose end tag has not been seen, with its children so far, latest first. -/
structure Open where
  /-- What its start tag says. -/
  head : Head
  /-- The children so far, latest first. -/
  children : List Node := []

/-- A document that is being built. -/
structure Builder where
  /-- The open elements, innermost first. -/
  opened : List Open := []
  /-- The root element, once it is closed. -/
  root : Option Element := none

namespace Builder

/-- Adds a child to the innermost open element; outside all elements it is dropped. -/
def addChild (b : Builder) (n : Node) : Builder :=
  match b.opened with
  | o :: outer => { b with opened := { o with children := n :: o.children } :: outer }
  | [] => b

/-- Adds a complete element: a child of the innermost open element, or else the root. -/
def attach (b : Builder) (e : Element) : Except Fault Builder :=
  if !b.opened.isEmpty then .ok (b.addChild e.toNode)
  else match b.root with
    | none => .ok { b with root := some e }
    | some _ => .error .manyRoots

/-- Takes in one event. -/
def feed (b : Builder) : Event → Except Error Builder
  | .start head => .ok { b with opened := ⟨head, []⟩ :: b.opened }
  | .empty head => (b.attach ⟨head, []⟩).mapError (⟨head.line, ·⟩)
  | .close line =>
    match b.opened with
    | [] => .error ⟨line, .unmatchedClose ""⟩
    | o :: outer =>
      (attach { b with opened := outer } ⟨o.head, o.children.reverse⟩).mapError (⟨line, ·⟩)
  | .text s line => .ok (b.addChild (.text s line))
  | .fault e => .error e

/-- Takes in events one after the other. -/
def feedAll : Builder → List Event → Except Error Builder
  | b, [] => .ok b
  | b, e :: es =>
    match b.feed e with
    | .ok b => feedAll b es
    | .error e => .error e

/-- The root element at the end of a document whose last line is `line`. -/
def finish (b : Builder) (line : Nat) : Except Error Element :=
  if !b.opened.isEmpty then .error ⟨line, .openElement⟩
  else match b.root with
    | some e => .ok e
    | none => .error ⟨1, .noRoot⟩

end Builder

/-- The root element of a sequence of events that ends on `line`. -/
def ofEvents (events : List Event) (line : Nat) : Except Error Element :=
  match Builder.feedAll {} events with
  | .ok b => b.finish line
  | .error e => .error e

/-! ### Lines -/

/-- A count of lines that has come to some place of a text. -/
structure LineCounter where
  /-- The text from that place on. -/
  ahead : List Char
  /-- The byte offset of the place. -/
  offset : Nat := 0
  /-- Its line. -/
  line : Nat := 1

namespace LineCounter

/-- Passes characters until a byte offset is reached, from the offset and the line of the first
one. -/
def pass (target : Nat) : Nat → Nat → List Char → LineCounter
  | offset, line, [] => ⟨[], offset, line⟩
  | offset, line, c :: cs =>
    if offset < target then
      pass target (offset + c.utf8Size) (if c = '\n' then line + 1 else line) cs
    else ⟨c :: cs, offset, line⟩

/-- Goes on to a byte offset. The count never goes back. -/
def advance (k : LineCounter) (target : Nat) : LineCounter := pass target k.offset k.line k.ahead

/-- Gives the line of every piece in the place of its byte offset. The count after the last one is
the second component. -/
def number (k : LineCounter) : List (Nat × Markup) → List (Nat × Markup) × LineCounter
  | [] => ([], k)
  | (target, m) :: ps =>
    let k := k.advance target
    let r := k.number ps
    ((k.line, m) :: r.1, r.2)

end LineCounter

/-! ### Reading -/

/-- The byte order mark. -/
def byteOrderMark : Char := Char.ofNat 0xFEFF

/-- A text without the byte order mark at its front. -/
def withoutMark : List Char → List Char
  | c :: cs => if c = byteOrderMark then cs else c :: cs
  | [] => []

/-- The pieces of a text with their lines, and the line on which the text ends. -/
def numbered (text : List Char) : List (Nat × Markup) × Nat :=
  let body := withoutMark text
  let size := Text.byteLength body
  let r := LineCounter.number ⟨text, 0, 1⟩ (Markup.scan size body)
  (r.1, (r.2.advance size).line)

/-- The root element of a text. -/
def readChars (text : List Char) : Except Error Element :=
  let (pieces, line) := numbered text
  ofEvents (Event.ofMarkup [] pieces) line

/-- The root element of a text. -/
def read (text : String) : Except Error Element := readChars text.toList

/-- The root element of a text given as bytes. -/
def readBytes (bytes : List UInt8) : Except Error Element :=
  match Text.decodeUtf8 bytes with
  | .ok text => readChars text
  | .error f => .error ⟨1, .encoding f⟩

end Scenario.Xml
