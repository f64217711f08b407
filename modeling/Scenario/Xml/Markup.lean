import Scenario.Text.Unquoted
import Scenario.Text.Utf8

/-!
# Markup

A document as a sequence of texts and tags, before names and references are looked at. A tag ends
at the first `>` outside quotes, a comment at `-->`, a character data section at `]]>`, a processing
instruction at `?>` and a document type declaration at its balanced `>`.
-/

namespace Scenario.Xml

/-- Why a tag cannot be told from what follows it. -/
inductive MarkupFault where
  /-- A tag is not closed. -/
  | openTag
  /-- `<!` is followed by nothing known. -/
  | unknown
  /-- A comment is not closed. -/
  | openComment
  /-- A character data section is not closed. -/
  | openData
  /-- A document type declaration is not closed. -/
  | openDoctype
  /-- A processing instruction is not closed. -/
  | openInstruction
  /-- A document type declaration without a name. -/
  | namelessDoctype
  deriving DecidableEq

/-- The text of a fault in markup. -/
def MarkupFault.message : MarkupFault → String
  | openTag => "syntax error: tag not closed: `>` not found before end of input"
  | unknown => "syntax error: unknown or missed symbol in markup"
  | openComment => "syntax error: comment not closed: `-->` not found before end of input"
  | openData => "syntax error: CDATA not closed: `]]>` not found before end of input"
  | openDoctype => "syntax error: DOCTYPE not closed: `>` not found before end of input"
  | openInstruction =>
    "syntax error: processing instruction or xml declaration not closed: " ++
      "`?>` not found before end of input"
  | namelessDoctype =>
    "ill-formed document: `<!DOCTYPE>` declaration does not contain a name of a document type"

/-- A piece of a document. -/
inductive Markup where
  /-- Characters between tags. -/
  | text (cs : List Char)
  /-- A start tag: what stands between its brackets. -/
  | start (content : List Char)
  /-- The tag of an empty element: what stands between its brackets, without the final slash. -/
  | empty (content : List Char)
  /-- An end tag: its name. -/
  | close (name : List Char)
  /-- A character data section. -/
  | data (cs : List Char)
  /-- A comment, a processing instruction or a document type declaration. -/
  | ignorable
  /-- The place where the document cannot be read further. -/
  | fault (f : MarkupFault)
  deriving DecidableEq

namespace Markup

/-- The blanks of markup. -/
def isSpace (c : Char) : Bool := c = ' ' || c = '\t' || c = '\r' || c = '\n'

/-- Splits at the first `>` whose preceding characters, latest first, satisfy a test. The second
argument holds the characters passed so far, latest first. -/
def splitAtClose (ends : List Char → Bool) : List Char → List Char → Option (List Char × List Char)
  | _, [] => none
  | passed, c :: cs =>
    if c = '>' ∧ ends passed then some (passed.reverse, cs)
    else splitAtClose ends (c :: passed) cs

/-- Splits at the `>` that balances; the first argument counts the `<` that are open. -/
def splitBalanced : Nat → List Char → Option (List Char × List Char)
  | _, [] => none
  | n, c :: cs =>
    if c = '>' ∧ n = 0 then some ([], cs)
    else
      let n := if c = '<' then n + 1 else if c = '>' then n - 1 else n
      (splitBalanced n cs).map fun r => (c :: r.1, r.2)

/-- Whether a comment may end after these characters: two dashes, past its opening. -/
def endsComment (passed : List Char) : Bool := ['-', '-'].isPrefixOf passed && 4 < passed.length

/-- Whether a character data section may end after these characters. -/
def endsData (passed : List Char) : Bool := [']', ']'].isPrefixOf passed

/-- Whether a processing instruction may end after these characters. -/
def endsInstruction (passed : List Char) : Bool := ['?'].isPrefixOf passed

/-- A text without the blanks at its end; a text of blanks alone stays. -/
def trimName (cs : List Char) : List Char :=
  if cs.all isSpace then cs else (cs.reverse.dropWhile isSpace).reverse

/-- The tag of a start or an empty element. -/
def ofContent (content : List Char) : Markup :=
  match content.reverse with
  | '/' :: body => .empty body.reverse
  | _ => .start content

/-- A comment, which begins with `!-`. -/
def readComment (cs : List Char) : Markup × List Char :=
  match splitAtClose endsComment [] cs with
  | some (content, rest) =>
    if ['!', '-', '-'].isPrefixOf content then (.ignorable, rest) else (.fault .openComment, [])
  | none => (.fault .openComment, [])

/-- A character data section, which begins with `![`. -/
def readData (cs : List Char) : Markup × List Char :=
  match splitAtClose endsData [] cs with
  | some (content, rest) =>
    if "![CDATA[".toList.isPrefixOf content then
      (.data ((content.drop 8).take (content.length - 10)), rest)
    else (.fault .openData, [])
  | none => (.fault .openData, [])

/-- A document type declaration, which begins with `!D` in either case. -/
def readDoctype (cs : List Char) : Markup × List Char :=
  match splitBalanced 0 cs with
  | some (content, rest) =>
    if (content.take 8).map Char.toUpper == "!DOCTYPE".toList then
      if (content.drop 8).all isSpace then (.fault .namelessDoctype, []) else (.ignorable, rest)
    else (.fault .openDoctype, [])
  | none => (.fault .openDoctype, [])

/-- A processing instruction, which begins with `?`. -/
def readInstruction (cs : List Char) : Markup × List Char :=
  match splitAtClose endsInstruction [] cs with
  | some (content, rest) =>
    if 1 < content.length then (.ignorable, rest) else (.fault .openInstruction, [])
  | none => (.fault .openInstruction, [])

/-- An end tag, after its slash. -/
def readClose (cs : List Char) : Markup × List Char :=
  match Text.splitUnquoted '>' none cs with
  | some (name, rest) => (.close (trimName name), rest)
  | none => (.fault .openTag, [])

/-- A start tag. -/
def readStart (cs : List Char) : Markup × List Char :=
  match Text.splitUnquoted '>' none cs with
  | some (content, rest) => (ofContent content, rest)
  | none => (.fault .openTag, [])

/-- The tag after a `<`, and what follows it. -/
def readTag (cs : List Char) : Markup × List Char :=
  match cs with
  | [] => (.fault .openTag, [])
  | '!' :: '[' :: _ => readData cs
  | '!' :: '-' :: _ => readComment cs
  | '!' :: 'D' :: _ => readDoctype cs
  | '!' :: 'd' :: _ => readDoctype cs
  | '!' :: _ => (.fault .unknown, [])
  | '/' :: name => readClose name
  | '?' :: _ => readInstruction cs
  | _ => readStart cs

theorem splitAtClose_suffix {ends : List Char → Bool} {passed cs content rest : List Char}
    (h : splitAtClose ends passed cs = some (content, rest)) : rest <:+ cs := by
  induction cs generalizing passed with
  | nil => simp [splitAtClose] at h
  | cons c cs ih =>
    rw [splitAtClose] at h
    split at h
    · simp only [Option.some.injEq, Prod.mk.injEq] at h
      rw [← h.2]
      exact List.suffix_cons c cs
    · exact (ih h).trans (List.suffix_cons c cs)

theorem splitBalanced_suffix {n : Nat} {cs content rest : List Char}
    (h : splitBalanced n cs = some (content, rest)) : rest <:+ cs := by
  induction cs generalizing n content with
  | nil => simp [splitBalanced] at h
  | cons c cs ih =>
    rw [splitBalanced] at h
    split at h
    · simp only [Option.some.injEq, Prod.mk.injEq] at h
      rw [← h.2]
      exact List.suffix_cons c cs
    · simp only [Option.map_eq_some_iff, Prod.mk.injEq] at h
      obtain ⟨r, hr, -, rfl⟩ := h
      exact (ih hr).trans (List.suffix_cons c cs)

theorem readComment_suffix (cs : List Char) : (readComment cs).2 <:+ cs := by
  unfold readComment
  split
  · next h =>
    split
    · exact splitAtClose_suffix h
    · exact List.nil_suffix
  · exact List.nil_suffix

theorem readData_suffix (cs : List Char) : (readData cs).2 <:+ cs := by
  unfold readData
  split
  · next h =>
    split
    · exact splitAtClose_suffix h
    · exact List.nil_suffix
  · exact List.nil_suffix

theorem readDoctype_suffix (cs : List Char) : (readDoctype cs).2 <:+ cs := by
  unfold readDoctype
  split
  · next h =>
    split
    · split
      · exact List.nil_suffix
      · exact splitBalanced_suffix h
    · exact List.nil_suffix
  · exact List.nil_suffix

theorem readInstruction_suffix (cs : List Char) : (readInstruction cs).2 <:+ cs := by
  unfold readInstruction
  split
  · next h =>
    split
    · exact splitAtClose_suffix h
    · exact List.nil_suffix
  · exact List.nil_suffix

theorem readClose_suffix (cs : List Char) : (readClose cs).2 <:+ cs := by
  unfold readClose
  split
  · next h => exact Text.splitUnquoted_suffix h
  · exact List.nil_suffix

theorem readStart_suffix (cs : List Char) : (readStart cs).2 <:+ cs := by
  unfold readStart
  split
  · next h => exact Text.splitUnquoted_suffix h
  · exact List.nil_suffix

/-- A tag takes nothing back: what follows it is the end of what was read. -/
theorem readTag_suffix (cs : List Char) : (readTag cs).2 <:+ cs := by
  unfold readTag
  split
  · exact List.nil_suffix
  · exact readData_suffix _
  · exact readComment_suffix _
  · exact readDoctype_suffix _
  · exact readDoctype_suffix _
  · exact List.nil_suffix
  · exact (readClose_suffix _).trans (List.suffix_cons _ _)
  · exact readInstruction_suffix _
  · exact readStart_suffix _

/-- The pieces of a text of `size` bytes, each with the byte offset at which it begins. Nothing
follows a fault. -/
def scan (size : Nat) : List Char → List (Nat × Markup)
  | [] => []
  | c :: cs =>
    let offset := size - Text.byteLength (c :: cs)
    if c = '<' then
      match _h : readTag cs with
      | (.fault f, _) => [(offset, .fault f)]
      | (m, rest) => (offset, m) :: scan size rest
    else
      (offset, .text (c :: cs.takeWhile (· != '<'))) :: scan size (cs.dropWhile (· != '<'))
termination_by cs => cs.length
decreasing_by
  · have := (readTag_suffix cs).length_le
    simp only [_h, List.length_cons] at this ⊢
    omega
  · have := (List.dropWhile_sublist (l := cs) (· != '<')).length_le
    simp only [List.length_cons]
    omega

end Markup

end Scenario.Xml
