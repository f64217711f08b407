import Scenario.Proofs.Encoding
import Scenario.Proofs.LineCounts
import Scenario.Proofs.Scanning
import Mathlib.Data.List.Forall2

/-!
# Documents written and read

A tree whose names are words and whose texts are not empty and not side by side can be written with
start tags, end tags and double-quoted attributes (`Node.written`), and reading gives it back
(`readBytes_undoes_writing`). Lines are those of the written text: `Node.placed` gives every element
and text one more than the number of line ends that are written before it.

The proof follows the reader through the text. `resume before opened b rest` is the builder at the
end of the text `before ++ rest` of which only `rest` is left to be read. A start tag, an end tag
and a text each move this place on (`resume_opening`, `resume_closing`, `resume_text`); what stands
in quotes cannot end a tag, since the search for its end passes over it
(`Head.Plain.passes_content`). By induction on trees a list of nodes becomes children of the
innermost open element (`readBack`).
-/

namespace Scenario.Xml

/-! ### Writing -/

/-- The name of a character that markup uses. -/
def referenceName? (c : Char) : Option String :=
  if c = '&' then some "amp"
  else if c = '<' then some "lt"
  else if c = '>' then some "gt"
  else if c = '"' then some "quot"
  else if c = '\'' then some "apos"
  else none

/-- A character as it is written: one that markup uses goes by its name. -/
def escapeChar (c : Char) : List Char :=
  match referenceName? c with
  | some name => '&' :: (name.toList ++ [';'])
  | none => [c]

/-- A text as it is written. -/
def escape (s : String) : List Char := s.toList.flatMap escapeChar

/-- An attribute as it is written, in double quotes. -/
def Attr.written (a : Attr) : List Char :=
  ' ' :: (a.name.toList ++ '=' :: '"' :: (escape a.value ++ ['"']))

namespace Head

/-- What stands between the brackets of a start tag. -/
def content (h : Head) : List Char := h.name.toList ++ h.attrs.flatMap Attr.written

/-- The start tag. -/
def opening (h : Head) : List Char := '<' :: (h.content ++ ['>'])

/-- The end tag. -/
def closing (h : Head) : List Char := '<' :: '/' :: (h.name.toList ++ ['>'])

end Head

mutual

/-- A node as it is written. -/
def Node.written : Node → List Char
  | .element head children => head.opening ++ (Node.writtenAll children ++ head.closing)
  | .text s _ => escape s

/-- Nodes as they are written. -/
def Node.writtenAll : List Node → List Char
  | [] => []
  | n :: ns => n.written ++ Node.writtenAll ns

end

/-- The line on which something stands that is written after a text. -/
def lineAfter (before : List Char) : Nat := 1 + before.count '\n'

mutual

/-- A node with the lines that it has when it is written after a text. -/
def Node.placed (before : List Char) : Node → Node
  | .element head children =>
    .element { head with line := lineAfter before }
      (Node.placedAll (before ++ head.opening) children)
  | .text s _ => .text s (lineAfter before)

/-- Nodes with the lines that they have when they are written after a text. -/
def Node.placedAll (before : List Char) : List Node → List Node
  | [] => []
  | n :: ns => n.placed before :: Node.placedAll (before ++ n.written) ns

end

namespace Element

/-- An element as it is written. -/
def written (e : Element) : String := String.ofList e.toNode.written

/-- An element with the lines that it has when it is written after a text. -/
def placed (before : List Char) (e : Element) : Element :=
  ⟨{ e.head with line := lineAfter before }, Node.placedAll (before ++ e.head.opening) e.children⟩

end Element

/-! ### What can be written -/

/-- A character of a word. -/
def isWordChar (c : Char) : Bool := Text.isAlphanumeric c || c = '_'

/-- A word. -/
structure IsWord (s : String) : Prop where
  /-- It has a character. -/
  ne_nil : s.toList ≠ []
  /-- It holds letters, digits and underscores. -/
  chars : ∀ c ∈ s.toList, isWordChar c = true

/-- An attribute that can be written. -/
structure Attr.Plain (a : Attr) : Prop where
  /-- It is in no namespace. -/
  ns : a.ns = none
  /-- Its name is a word. -/
  word : IsWord a.name
  /-- It declares no namespace. -/
  other : a.name ≠ "xmlns"

/-- A start tag that can be written. -/
structure Head.Plain (h : Head) : Prop where
  /-- The element is in no namespace. -/
  ns : h.ns = none
  /-- Its name is a word. -/
  word : IsWord h.name
  /-- The attributes can be written. -/
  attrs : ∀ a ∈ h.attrs, a.Plain
  /-- Their names are distinct. -/
  distinct : (h.attrs.map Attr.name).Nodup

/-- Two nodes are not both texts. -/
def Node.Apart (n m : Node) : Prop := n.text? = none ∨ m.text? = none

mutual

/-- A node that can be written. -/
def Node.Plain : Node → Prop
  | .element head children => head.Plain ∧ children.IsChain Node.Apart ∧ Node.PlainAll children
  | .text s _ => s ≠ ""

/-- Nodes that can be written. -/
def Node.PlainAll : List Node → Prop
  | [] => True
  | n :: ns => n.Plain ∧ Node.PlainAll ns

end

/-! ### References -/

section References

variable {c : Char} {name : String}

theorem namedChar?_referenceName (h : referenceName? c = some name) : namedChar? name = some c := by
  unfold referenceName? at h
  split_ifs at h with hamp hlt hgt hquot hapos <;> cases h <;> subst c <;> decide

/-- The names hold none of the characters that they stand for, and nothing that ends a reference. -/
theorem mem_referenceName (h : referenceName? c = some name) {d : Char} (hd : d ∈ name.toList) :
    d.isLower = true := by
  have hnames : ∀ n ∈ ["amp", "lt", "gt", "quot", "apos"], n.toList.all Char.isLower = true :=
    List.all_eq_true.1 (by decide)
  have hname : name ∈ ["amp", "lt", "gt", "quot", "apos"] := by
    unfold referenceName? at h
    split_ifs at h <;> cases h <;> simp
  exact List.all_eq_true.1 (hnames name hname) d hd

theorem mem_escapeChar {d : Char} (hd : d ∈ escapeChar c) :
    d = '&' ∨ d = ';' ∨ d.isLower = true ∨ referenceName? d = none := by
  unfold escapeChar at hd
  split at hd
  · rename_i name hname
    simp only [List.mem_cons, List.mem_append, List.not_mem_nil, or_false] at hd
    obtain rfl | hd | rfl := hd
    · exact .inl rfl
    · exact .inr (.inr (.inl (mem_referenceName hname hd)))
    · exact .inr (.inl rfl)
  · rename_i hname
    obtain rfl := List.mem_singleton.1 hd
    exact .inr (.inr (.inr hname))

theorem not_mem_escape {d : Char} (hd : d = '<' ∨ d = '"') (s : String) : d ∉ escape s := by
  intro hmem
  obtain ⟨c, -, hc⟩ := List.mem_flatMap.1 hmem
  have hcases := mem_escapeChar hc
  obtain rfl | rfl := hd <;> revert hcases <;> decide

theorem escape_ne_nil {s : String} (h : s ≠ "") : escape s ≠ [] := by
  obtain ⟨c, cs, hs⟩ := List.exists_cons_of_ne_nil (mt String.toList_eq_nil_iff.1 h)
  have hc : escapeChar c ≠ [] := by
    unfold escapeChar
    split <;> simp
  rw [escape, hs, List.flatMap_cons]
  exact List.append_ne_nil_of_left_ne_nil hc _

/-- A named reference is replaced. -/
theorem unescapeFrom_named (h : referenceName? c = some name) (size : Nat) (rest : List Char) :
    unescapeFrom size ('&' :: (name.toList ++ ';' :: rest)) =
      (unescapeFrom size rest).map (c :: ·) := by
  have hchars : ∀ d ∈ name.toList, isEntityChar d = true := by
    intro d hd
    have hlower := mem_referenceName h hd
    rw [isEntityChar, Bool.and_eq_true, bne_iff_ne, bne_iff_ne]
    constructor <;> rintro rfl <;> revert hlower <;> decide
  have hstop : Token.Breaks isEntityChar (';' :: rest) := Token.breaks_cons (by decide) rest
  obtain ⟨htake, hdrop⟩ := hstop.split hchars
  have hentity : ∀ start, entityChar start name.toList = .ok c := by
    intro start
    unfold entityChar
    split
    · rename_i digits hdigits
      have hlower := mem_referenceName h (hdigits ▸ List.mem_cons_self)
      exact absurd hlower (by decide)
    · rw [String.ofList_toList, namedChar?_referenceName h]
  rw [unescapeFrom, if_pos rfl]
  simp only
  split
  · rename_i rest' hrest
    cases hrest.symm.trans hdrop
    rw [htake, hentity]
  · rename_i hnone
    exact absurd hdrop (hnone rest)

theorem unescapeFrom_escapeChar (size : Nat) (c : Char) (rest : List Char) :
    unescapeFrom size (escapeChar c ++ rest) = (unescapeFrom size rest).map (c :: ·) := by
  unfold escapeChar
  split
  · rename_i name hname
    rw [List.cons_append, List.append_assoc, List.singleton_append]
    exact unescapeFrom_named hname size rest
  · rename_i hname
    have hamp : c ≠ '&' := by
      rintro rfl
      cases hname
    rw [List.singleton_append, unescapeFrom, if_neg hamp]

theorem unescapeFrom_flatMap (size : Nat) (cs : List Char) :
    unescapeFrom size (cs.flatMap escapeChar) = .ok cs := by
  induction cs with
  | nil => rw [List.flatMap_nil, unescapeFrom]
  | cons c cs ih =>
    rw [List.flatMap_cons, unescapeFrom_escapeChar, ih]
    rfl

/-- Replacing references undoes writing. -/
theorem unescape_escape (s : String) : unescape (escape s) = .ok s := by
  rw [unescape, escape, unescapeFrom_flatMap]
  exact congrArg Except.ok String.ofList_toList

end References

/-! ### Names -/

section Names

variable {s : String}

theorem ne_of_isWordChar {c d : Char} (hc : isWordChar c = true) (hd : isWordChar d = false) :
    c ≠ d := by
  rintro rfl
  exact Bool.false_ne_true (hd.symm.trans hc)

theorem not_isSpace_of_isWordChar {c : Char} (hc : isWordChar c = true) :
    Markup.isSpace c = false := by
  have hspace : ∀ d, isWordChar d = false → (decide (c = d)) = false :=
    fun d hd => decide_eq_false (ne_of_isWordChar hc hd)
  rw [Markup.isSpace, hspace ' ' (by decide), hspace '\t' (by decide),
    hspace '\r' (by decide), hspace '\n' (by decide)]
  rfl

theorem IsWord.notMem (h : IsWord s) {d : Char} (hd : isWordChar d = false) : d ∉ s.toList :=
  fun hmem => ne_of_isWordChar (h.chars d hmem) hd rfl

/-- A word has no prefix. -/
theorem IsWord.splitName (h : IsWord s) : splitName s.toList = (none, s) := by
  have hdrop : s.toList.dropWhile (· != ':') = [] := by
    rw [List.dropWhile_eq_nil_iff]
    intro c hc
    exact bne_iff_ne.2 (ne_of_isWordChar (h.chars c hc) (by decide))
  rw [Xml.splitName, hdrop]
  exact congrArg (Prod.mk none) String.ofList_toList

theorem IsWord.declaredPrefix? (h : IsWord s) (hs : s ≠ "xmlns") :
    declaredPrefix? s.toList = none := by
  have hcolon : ¬ "xmlns:".toList.isPrefixOf s.toList = true := by
    intro hprefix
    have hmem := (List.isPrefixOf_iff_prefix.1 hprefix).subset (a := ':') (by decide)
    exact h.notMem (by decide) hmem
  rw [Xml.declaredPrefix?, if_neg (mt String.toList_inj.1 hs), if_neg hcolon]

/-- A word is no blank, so nothing of it is cut off. -/
theorem IsWord.trimName (h : IsWord s) : Markup.trimName s.toList = s.toList := by
  have hspace : ∀ c ∈ s.toList.reverse, Markup.isSpace c = false :=
    fun c hc => not_isSpace_of_isWordChar (h.chars c (List.mem_reverse.1 hc))
  have hbreaks : Token.Breaks Markup.isSpace s.toList.reverse :=
    fun c hc => hspace c (List.mem_of_head? hc)
  have hdrop : s.toList.reverse.dropWhile Markup.isSpace = s.toList.reverse :=
    (hbreaks.split (List.forall_mem_nil _)).2
  rw [Markup.trimName]
  split
  · rfl
  · rw [hdrop, List.reverse_reverse]

end Names

/-! ### Attributes -/

namespace RawAttr

/-- The attribute that is read where one is written. -/
def Writes (a : Attr) (r : RawAttr) : Prop :=
  ∃ place, r = .good a.name.toList place (escape a.value)

theorem readAll_good {size place : Nat} {cs rest after key value : List Char} {c : Char}
    (h : cs.dropWhile Markup.isSpace = c :: rest)
    (hone : readOne size c rest = (.good key place value, after)) :
    readAll size cs = .good key place value :: readAll size after := by
  rw [readAll.eq_def]
  split
  · rename_i hnil
    cases hnil.symm.trans h
  · rename_i c' rest' hcons
    cases hcons.symm.trans h
    split
    · rename_i hone'
      cases hone'.symm.trans hone
      rfl
    · rename_i hother hone'
      cases hone'.symm.trans hone
      exact absurd rfl (hother _ _ _)

theorem readAll_nil (size : Nat) : readAll size [] = [] := by
  rw [readAll.eq_def]
  rfl

theorem readOne_written (size : Nat) (c : Char) {cs value : List Char}
    (hcs : ∀ d ∈ cs, isKeyChar d = true) (hvalue : '"' ∉ value) (rest : List Char) :
    ∃ place, readOne size c (cs ++ '=' :: '"' :: (value ++ '"' :: rest)) =
      (.good (c :: cs) place value, rest) := by
  have hkey : Token.Breaks isKeyChar ('=' :: '"' :: (value ++ '"' :: rest)) :=
    Token.breaks_cons (by decide) _
  obtain ⟨hname, heq⟩ := hkey.split hcs
  have hquote : Token.Breaks (· != '"') ('"' :: rest) := Token.breaks_cons (by decide) _
  have hinside : ∀ d ∈ value, (d != '"') = true :=
    fun d hd => bne_iff_ne.2 fun heq => hvalue (heq ▸ hd)
  obtain ⟨htext, hafter⟩ := hquote.split hinside
  refine ⟨size - Text.byteLength (c :: (cs ++ '=' :: '"' :: (value ++ '"' :: rest))), ?_⟩
  simp only [readOne, hname, heq]
  rw [List.dropWhile_cons_of_neg (by decide)]
  simp only [if_true, readValue]
  rw [List.dropWhile_cons_of_neg (by decide)]
  simp [hafter, htext]

theorem isKeyChar_of_isWordChar {c : Char} (hc : isWordChar c = true) : isKeyChar c = true := by
  rw [isKeyChar, not_isSpace_of_isWordChar hc,
    bne_iff_ne.2 (ne_of_isWordChar hc (by decide))]
  rfl

/-- The attributes that are written are read, in order. -/
theorem readAll_written (size : Nat) {attrs : List Attr} (h : ∀ a ∈ attrs, IsWord a.name) :
    List.Forall₂ Writes attrs (readAll size (attrs.flatMap Attr.written)) := by
  induction attrs with
  | nil =>
    rw [List.flatMap_nil, readAll_nil]
    exact .nil
  | cons a attrs ih =>
    have hword := h a List.mem_cons_self
    obtain ⟨c, cs, hname⟩ := List.exists_cons_of_ne_nil hword.ne_nil
    have hchars : ∀ d ∈ c :: cs, isWordChar d = true := hname ▸ hword.chars
    obtain ⟨place, hone⟩ := readOne_written size c
      (fun d hd => isKeyChar_of_isWordChar (hchars d (List.mem_cons_of_mem c hd)))
      (not_mem_escape (.inr rfl) a.value) (attrs.flatMap Attr.written)
    have hwritten : (a :: attrs).flatMap Attr.written = ' ' :: c ::
        (cs ++ '=' :: '"' :: (escape a.value ++ '"' :: attrs.flatMap Attr.written)) := by
      simp [Attr.written, hname]
    have hspace : ¬ Markup.isSpace c = true := by
      rw [not_isSpace_of_isWordChar (hchars c List.mem_cons_self)]
      exact Bool.false_ne_true
    rw [hwritten, readAll_good (by rw [List.dropWhile_cons_of_pos (by decide),
      List.dropWhile_cons_of_neg hspace]) hone]
    exact .cons ⟨place, by rw [hname]⟩ (ih fun b hb => h b (List.mem_cons_of_mem a hb))

end RawAttr

section Resolving

variable {attrs : List Attr} {rs : List RawAttr}

/-- Attributes that can be written declare nothing. -/
theorem declareAll_written (h : List.Forall₂ RawAttr.Writes attrs rs)
    (hplain : ∀ a ∈ attrs, a.Plain) (ds : Declarations) : ds.declareAll rs = .ok ds := by
  induction h with
  | nil => rfl
  | @cons a r attrs rs hr _ ih =>
    obtain ⟨place, rfl⟩ := hr
    have ha := hplain a List.mem_cons_self
    rw [Declarations.declareAll, ha.word.declaredPrefix? ha.other]
    exact ih fun b hb => hplain b (List.mem_cons_of_mem a hb)

/-- They are taken as they were written, if no name was there before. -/
theorem resolveAttrs_written (h : List.Forall₂ RawAttr.Writes attrs rs)
    (hplain : ∀ a ∈ attrs, a.Plain) (hdistinct : (attrs.map Attr.name).Nodup) (ds : Declarations)
    {seen : List (List Char × Nat)} (hseen : ∀ a ∈ attrs, ∀ k ∈ seen, k.1 ≠ a.name.toList) :
    Event.resolveAttrs ds seen rs = .ok attrs := by
  induction h generalizing seen with
  | nil => rfl
  | @cons a r attrs rs hr _ ih =>
    obtain ⟨place, rfl⟩ := hr
    have ha := hplain a List.mem_cons_self
    rw [List.map_cons, List.nodup_cons] at hdistinct
    have hnew : (seen.find? fun k => k.1 == a.name.toList) = none := by
      rw [List.find?_eq_none]
      intro k hk
      simpa using hseen a List.mem_cons_self k hk
    have hmore : Event.resolveAttrs ds (seen ++ [(a.name.toList, place)]) rs = .ok attrs := by
      refine ih (fun b hb => hplain b (List.mem_cons_of_mem a hb)) hdistinct.2 ?_
      intro b hb k hk
      obtain hk | hk := List.mem_append.1 hk
      · exact hseen b (List.mem_cons_of_mem a hb) k hk
      · obtain rfl := List.mem_singleton.1 hk
        intro heq
        exact hdistinct.1 (String.toList_inj.1 heq ▸ List.mem_map_of_mem hb)
    rw [Event.resolveAttrs, hnew]
    simp only [ha.word.declaredPrefix? ha.other, ha.word.splitName, Declarations.resolveAttr,
      unescape_escape, hmore, Option.isSome_none, Bool.false_eq_true, if_false]
    obtain ⟨ns, name, value⟩ := a
    obtain rfl : ns = none := ha.ns
    rfl

end Resolving

namespace Head.Plain

variable {h : Head}

/-- The name of a tag ends at the first attribute. -/
theorem breaks_attrs (attrs : List Attr) :
    Token.Breaks (fun c => !Markup.isSpace c) (attrs.flatMap Attr.written) := by
  cases attrs with
  | nil => exact Token.breaks_nil _
  | cons a attrs => exact Token.breaks_cons (by decide) _

theorem split_content (hplain : h.Plain) :
    rawName h.content = h.name.toList ∧
      h.content.dropWhile (fun c => !Markup.isSpace c) = h.attrs.flatMap Attr.written := by
  refine (breaks_attrs h.attrs).split fun c hc => ?_
  rw [not_isSpace_of_isWordChar (hplain.word.chars c hc)]
  rfl

/-- A start tag that is written says what it said. -/
theorem resolveHead (hplain : h.Plain) (line : Nat) :
    Event.resolveHead .initial line h.content = .ok ({ h with line := line }, .initial) := by
  obtain ⟨hname, hattrs⟩ := hplain.split_content
  have hread := RawAttr.readAll_written (Text.byteLength h.content)
    fun a ha => (hplain.attrs a ha).word
  have hns : Declarations.initial.resolve none = .ok none := by decide
  rw [Event.resolveHead, rawAttrs, hattrs, declareAll_written hread hplain.attrs, hname]
  have htaken : Event.resolveAttrs .initial [] _ = .ok h.attrs :=
    resolveAttrs_written hread hplain.attrs hplain.distinct .initial
      fun _ _ => List.forall_mem_nil _
  simp only [hplain.word.splitName, hns, htaken]
  obtain ⟨ns, name, attrs, line'⟩ := h
  obtain rfl : ns = none := hplain.ns
  rfl

end Head.Plain

/-! ### Tags -/

theorem IsWord.passes {s : String} (h : IsWord s) : Passes '>' s.toList :=
  passes_plain fun c hc => Text.isPlain_of (by decide) (h.chars c hc)

theorem Attr.Plain.passes {a : Attr} (h : a.Plain) : Passes '>' a.written := by
  have hspace : Passes '>' [' '] := passes_plain (List.all_eq_true.1 (by decide))
  have hequals : Passes '>' ['='] := passes_plain (List.all_eq_true.1 (by decide))
  have hvalue : Passes '>' ('"' :: escape a.value ++ ['"']) :=
    passes_quoted (.inr rfl) (by decide) (not_mem_escape (.inr rfl) a.value)
  have hall := (hspace.append h.word.passes).append (hequals.append hvalue)
  simpa [Attr.written] using hall

/-- A tag that begins with a word is a start tag. -/
theorem readTag_word {c : Char} (hc : isWordChar c = true) (cs : List Char) :
    Markup.readTag (c :: cs) = Markup.readStart (c :: cs) := by
  have hbang : c ≠ '!' := ne_of_isWordChar hc (by decide)
  have hslash : c ≠ '/' := ne_of_isWordChar hc (by decide)
  have hmark : c ≠ '?' := ne_of_isWordChar hc (by decide)
  simp [Markup.readTag, hbang, hslash, hmark]

namespace Head.Plain

variable {h : Head}

/-- The end of a tag is found, whatever stands in the quotes. -/
theorem passes_content (hplain : h.Plain) : Passes '>' h.content := by
  have hattrs : ∀ attrs : List Attr, (∀ a ∈ attrs, a.Plain) →
      Passes '>' (attrs.flatMap Attr.written) := by
    intro attrs hattrs
    induction attrs with
    | nil => exact passes_nil
    | cons a attrs ih =>
      rw [List.flatMap_cons]
      exact (hattrs a List.mem_cons_self).passes.append
        (ih fun b hb => hattrs b (List.mem_cons_of_mem a hb))
  exact hplain.word.passes.append (hattrs h.attrs hplain.attrs)

/-- What stands in a start tag ends with the name or with a quote. -/
theorem exists_content_last (hplain : h.Plain) : ∃ cs c, h.content = cs ++ [c] ∧ c ≠ '/' := by
  obtain hnil | ⟨attrs, a, hattrs⟩ := List.eq_nil_or_concat' h.attrs
  · obtain hname | ⟨cs, c, hname⟩ := List.eq_nil_or_concat' h.name.toList
    · exact absurd hname hplain.word.ne_nil
    · have hc : c ∈ h.name.toList := hname ▸ List.mem_append_right cs List.mem_cons_self
      refine ⟨cs, c, by simp [content, hnil, hname], ?_⟩
      exact ne_of_isWordChar (hplain.word.chars c hc) (by decide)
  · refine ⟨h.name.toList ++ attrs.flatMap Attr.written ++
      ' ' :: (a.name.toList ++ '=' :: '"' :: escape a.value), '"', ?_, by decide⟩
    simp [content, hattrs, Attr.written]

theorem readTag_content (hplain : h.Plain) (rest : List Char) :
    Markup.readTag (h.content ++ '>' :: rest) = (.start h.content, rest) := by
  obtain ⟨c, cs, hname⟩ := List.exists_cons_of_ne_nil hplain.word.ne_nil
  have hc : isWordChar c = true := hplain.word.chars c (hname ▸ List.mem_cons_self)
  have hstart : Markup.readTag (h.content ++ '>' :: rest) =
      Markup.readStart (h.content ++ '>' :: rest) := by
    rw [content, hname]
    exact readTag_word hc _
  have hkind : Markup.ofContent h.content = .start h.content := by
    obtain ⟨ds, d, hlast, hd⟩ := hplain.exists_content_last
    rw [Markup.ofContent, hlast, List.reverse_append, List.reverse_singleton, List.singleton_append]
    split
    · rename_i heq
      cases heq
      exact absurd rfl hd
    · rfl
  rw [hstart, Markup.readStart, hplain.passes_content.split]
  simp only [hkind]

theorem readTag_closing (hplain : h.Plain) (rest : List Char) :
    Markup.readTag ('/' :: (h.name.toList ++ '>' :: rest)) = (.close h.name.toList, rest) := by
  rw [Markup.readTag, Markup.readClose, hplain.word.passes.split]
  simp only [hplain.word.trimName]

end Head.Plain

/-! ### The rest of a text -/

theorem lineEnds_append (before rest : List Char) :
    lineEnds (Text.byteLength before) (before ++ rest) = before.count '\n' := by
  induction before with
  | nil => cases rest <;> rfl
  | cons c before ih =>
    have hsize : c.utf8Size + Text.byteLength before ≠ 0 := by
      have := c.utf8Size_pos
      omega
    rw [Text.byteLength_cons, List.cons_append, lineEnds, if_neg hsize, Nat.add_sub_cancel_left, ih,
      List.count_cons]
    by_cases hc : c = '\n'
    · simp [hc, Nat.add_comm]
    · simp [hc]

theorem lineAt_append (before rest : List Char) :
    lineAt (before ++ rest) (Text.byteLength (before ++ rest) - Text.byteLength rest) =
      lineAfter before := by
  rw [Text.byteLength_append, Nat.add_sub_cancel, lineAt, lineEnds_append, lineAfter]

theorem scan_tag {size : Nat} {cs rest : List Char} {m : Markup}
    (h : Markup.readTag cs = (m, rest)) (hm : ∀ f, m ≠ .fault f) :
    Markup.scan size ('<' :: cs) =
      (size - Text.byteLength ('<' :: cs), m) :: Markup.scan size rest := by
  rw [Markup.scan, if_pos rfl]
  split
  · rename_i f _ hfault
    cases hfault.symm.trans h
    exact absurd rfl (hm f)
  · rename_i hread
    cases hread.symm.trans h
    rfl

theorem scan_text {size : Nat} {cs rest : List Char} (hne : cs ≠ []) (hcs : '<' ∉ cs)
    (hrest : Token.Breaks (· != '<') rest) :
    Markup.scan size (cs ++ rest) =
      (size - Text.byteLength (cs ++ rest), .text cs) :: Markup.scan size rest := by
  obtain ⟨c, cs, rfl⟩ := List.exists_cons_of_ne_nil hne
  rw [List.mem_cons, not_or] at hcs
  have hinside : ∀ d ∈ cs, (d != '<') = true :=
    fun d hd => bne_iff_ne.2 fun heq => hcs.2 (heq ▸ hd)
  obtain ⟨htake, hdrop⟩ := hrest.split hinside
  rw [List.cons_append, Markup.scan, if_neg (Ne.symm hcs.1), htake, hdrop]

/-- The builder at the end of a text that begins with `before`. Only the rest is read; `opened` are
the elements that are open where it begins. -/
def resume (before : List Char) (opened : Event.Opened) (b : Builder) (rest : List Char) :
    Except Error Builder :=
  b.feedAll (Event.ofMarkup opened ((Markup.scan (Text.byteLength (before ++ rest)) rest).map
    fun p => (lineAt (before ++ rest) p.1, p.2)))

section Steps

variable {before rest : List Char} {opened : Event.Opened} {b : Builder}

theorem resume_nil : resume before opened b [] = .ok b := by
  rw [resume, Markup.scan]
  rfl

/-- Reading goes on after a piece, with the events that it gives. -/
theorem resume_piece {cs : List Char} {m : Markup}
    (h : Markup.scan (Text.byteLength (before ++ (cs ++ rest))) (cs ++ rest) =
      (Text.byteLength (before ++ (cs ++ rest)) - Text.byteLength (cs ++ rest), m) ::
        Markup.scan (Text.byteLength (before ++ (cs ++ rest))) rest) :
    resume before opened b (cs ++ rest) =
      b.feedAll (Event.ofMarkup opened ((lineAfter before, m) ::
        (Markup.scan (Text.byteLength (before ++ cs ++ rest)) rest).map
          fun p => (lineAt (before ++ cs ++ rest) p.1, p.2))) := by
  rw [resume, h, List.map_cons, lineAt_append, List.append_assoc]

/-- A start tag opens its element. -/
theorem resume_opening {h : Head} (hplain : h.Plain) (hopened : Event.inForce opened = .initial) :
    resume before opened b (h.opening ++ rest) =
      resume (before ++ h.opening) ((h.name.toList, .initial) :: opened)
        { b with opened := ⟨{ h with line := lineAfter before }, []⟩ :: b.opened } rest := by
  have htag : h.opening ++ rest = '<' :: (h.content ++ '>' :: rest) := by
    simp [Head.opening]
  rw [resume_piece (by rw [htag, scan_tag (hplain.readTag_content rest) nofun]), Event.ofMarkup,
    hopened, hplain.resolveHead, hplain.split_content.1]
  rfl

/-- An end tag attaches the innermost open element to what is open around it. -/
theorem resume_closing {h : Head} (hplain : h.Plain) {ds : Declarations} {o : Open}
    {outer : List Open} {b' : Builder} (hopen : b.opened = o :: outer)
    (hattach : Builder.attach { b with opened := outer } ⟨o.head, o.children.reverse⟩ = .ok b') :
    resume before ((h.name.toList, ds) :: opened) b (h.closing ++ rest) =
      resume (before ++ h.closing) opened b' rest := by
  have htag : h.closing ++ rest = '<' :: '/' :: (h.name.toList ++ '>' :: rest) := by
    simp [Head.closing]
  rw [resume_piece (by rw [htag, scan_tag (hplain.readTag_closing rest) nofun]), Event.ofMarkup,
    Event.checkClose, if_pos rfl]
  simp only
  rw [Builder.feedAll, Builder.feed, hopen]
  simp only [hattach]
  rfl

/-- A text runs up to the next tag. -/
theorem resume_text {s : String} (hs : s ≠ "") (hrest : Token.Breaks (· != '<') rest) :
    resume before opened b (escape s ++ rest) =
      resume (before ++ escape s) opened (b.addChild (.text s (lineAfter before))) rest := by
  rw [resume_piece (scan_text (escape_ne_nil hs) (not_mem_escape (.inl rfl) s) hrest),
    Event.ofMarkup, unescape_escape]
  rfl

end Steps

/-! ### Trees -/

namespace Builder

theorem addChild_of_opened {b : Builder} {o : Open} {outer : List Open} (h : b.opened = o :: outer)
    (n : Node) :
    b.addChild n = { b with opened := { o with children := n :: o.children } :: outer } := by
  rw [addChild, h]

theorem addChild_opened_ne_nil {b : Builder} (h : b.opened ≠ []) (n : Node) :
    (b.addChild n).opened ≠ [] := by
  obtain ⟨o, outer, hopened⟩ := List.exists_cons_of_ne_nil h
  rw [addChild_of_opened hopened]
  exact List.cons_ne_nil _ _

theorem foldl_addChild {b : Builder} {o : Open} {outer : List Open} (h : b.opened = o :: outer)
    (ns : List Node) :
    ns.foldl addChild b =
      { b with opened := { o with children := ns.reverse ++ o.children } :: outer } := by
  induction ns generalizing b o with
  | nil => simp [← h]
  | cons n ns ih =>
    rw [List.foldl_cons, addChild_of_opened h, ih rfl]
    simp

end Builder

/-- Nodes as they are written read as children of the innermost open element. -/
def Node.ReadBack (ns : List Node) : Prop :=
  ∀ (before rest : List Char) (opened : Event.Opened) (b : Builder),
    Event.inForce opened = .initial → b.opened ≠ [] → Token.Breaks (· != '<') rest →
    resume before opened b (Node.writtenAll ns ++ rest) =
      resume (before ++ Node.writtenAll ns) opened
        ((Node.placedAll before ns).foldl Builder.addChild b) rest

section Trees

variable {before rest : List Char} {opened : Event.Opened} {b b' : Builder}

/-- An element is read as it was written if its children are. -/
theorem resume_element {e : Element} (hplain : e.head.Plain) (hchildren : Node.ReadBack e.children)
    (hopened : Event.inForce opened = .initial) (hattach : b.attach (e.placed before) = .ok b') :
    resume before opened b (e.toNode.written ++ rest) =
      resume (before ++ e.toNode.written) opened b' rest := by
  have hclosing : Token.Breaks (· != '<') (e.head.closing ++ rest) :=
    Token.breaks_cons (by decide) _
  have hinside := hchildren (before ++ e.head.opening) (e.head.closing ++ rest)
    ((e.head.name.toList, .initial) :: opened)
    { b with opened := ⟨{ e.head with line := lineAfter before }, []⟩ :: b.opened } rfl
    (List.cons_ne_nil _ _) hclosing
  have hattach' : b.attach ⟨{ e.head with line := lineAfter before },
      ((e.placed before).children.reverse ++ []).reverse⟩ = .ok b' := by
    rw [List.append_nil, List.reverse_reverse]
    exact hattach
  rw [Element.toNode, Node.written, List.append_assoc, resume_opening hplain hopened,
    List.append_assoc, hinside, Builder.foldl_addChild rfl, resume_closing hplain rfl hattach']
  simp only [List.append_assoc]

/-- After a text stands a tag. -/
theorem breaks_after_text {s : String} {line : Nat} {ns : List Node}
    (h : (Node.text s line :: ns).IsChain Node.Apart) (hrest : Token.Breaks (· != '<') rest) :
    Token.Breaks (· != '<') (Node.writtenAll ns ++ rest) := by
  cases ns with
  | nil => exact hrest
  | cons n ns =>
    cases n with
    | text s' line' =>
      obtain hno | hno := List.IsChain.rel h <;> cases hno
    | element head children => exact Token.breaks_cons (by decide) _

/-- What can be written is read as it was written. -/
theorem readBack : (ns : List Node) → ns.IsChain Node.Apart → Node.PlainAll ns → Node.ReadBack ns
  | [], _, _ => by
    intro before rest opened b _ _ _
    simp [Node.writtenAll, Node.placedAll]
  | .text s line :: ns, hchain, hplain => by
    intro before rest opened b hopened hb hrest
    have hmore := readBack ns (List.IsChain.of_cons hchain) hplain.2 (before ++ escape s) rest
      opened (b.addChild (.text s (lineAfter before))) hopened
      (Builder.addChild_opened_ne_nil hb _) hrest
    rw [Node.writtenAll, Node.written, List.append_assoc,
      resume_text hplain.1 (breaks_after_text hchain hrest), hmore, List.append_assoc]
    rfl
  | .element head children :: ns, hchain, hplain => by
    intro before rest opened b hopened hb hrest
    obtain ⟨hhead, hapart, hchildren⟩ := hplain.1
    -- The children are read while the element is open; closing it attaches it to what is open
    -- around it, which is `b` again.
    let e : Element := ⟨head, children⟩
    have hattach : b.attach (e.placed before) = .ok (b.addChild (e.placed before).toNode) := by
      simp [Builder.attach, hb]
    have hmore := readBack ns (List.IsChain.of_cons hchain) hplain.2 (before ++ e.toNode.written)
      rest opened (b.addChild (e.placed before).toNode) hopened
      (Builder.addChild_opened_ne_nil hb _) hrest
    have hfirst : resume before opened b (e.toNode.written ++ (Node.writtenAll ns ++ rest)) =
        resume (before ++ e.toNode.written) opened (b.addChild (e.placed before).toNode)
          (Node.writtenAll ns ++ rest) :=
      resume_element hhead (readBack children hapart hchildren) hopened hattach
    rw [Node.writtenAll, List.append_assoc]
    refine (hfirst.trans hmore).trans ?_
    rw [List.append_assoc]
    rfl

end Trees

/-- A written tree is read back. It begins with a tag, so there is no byte order mark. -/
theorem readChars_written {root : Element} (h : root.toNode.Plain) :
    readChars root.toNode.written = .ok (root.placed []) := by
  obtain ⟨hhead, hapart, hchildren⟩ := h
  have hread : resume [] [] {} root.toNode.written = .ok { root := some (root.placed []) } := by
    have hroot : resume [] [] {} (root.toNode.written ++ []) =
        resume ([] ++ root.toNode.written) [] { root := some (root.placed []) } [] :=
      resume_element hhead (readBack root.children hapart hchildren) rfl rfl
    rwa [List.append_nil, resume_nil] at hroot
  have hmark : withoutMark root.toNode.written = root.toNode.written := by
    rw [Element.toNode, Node.written, Head.opening, List.cons_append, withoutMark,
      if_neg (by decide)]
  rw [resume, List.nil_append] at hread
  rw [readChars, numbered_eq, hmark]
  dsimp only
  rw [ofEvents, hread]
  rfl

/-- **Reading undoes writing.** A tree that can be written is read from the bytes of what is
written: with the same names, attributes, texts and children, in the same order, and on every
element and text the line on which it was written. -/
theorem readBytes_undoes_writing {root : Element} (h : root.toNode.Plain) :
    readBytes root.written.toUTF8.data.toList = .ok (root.placed []) := by
  rw [readBytes, Text.decodeUtf8_toUTF8, Element.written]
  simp only [String.toList_ofList]
  exact readChars_written h

/-- Quotes, references and line ends in a value and in texts, and elements side by side. -/
theorem readBytes_undoes_writing_mixed :
    readBytes (String.toUTF8
        "<a k=\"&quot;\n/&gt;\">x\n&amp;<b></b>\n<c_1>é</c_1></a>").data.toList =
      .ok ⟨⟨none, "a", [⟨none, "k", "\"\n/>"⟩], 1⟩,
        [.text "x\n&" 2, .element ⟨none, "b", [], 3⟩ [], .text "\n" 3,
          .element ⟨none, "c_1", [], 4⟩ [.text "é" 4]]⟩ := by
  let root : Element := ⟨⟨none, "a", [⟨none, "k", "\"\n/>"⟩], 0⟩,
    [.text "x\n&" 0, .element ⟨none, "b", [], 0⟩ [], .text "\n" 0,
      .element ⟨none, "c_1", [], 0⟩ [.text "é" 0]]⟩
  have hword : ∀ s ∈ ["a", "k", "b", "c_1"], IsWord s := by
    have hchars : ∀ s ∈ ["a", "k", "b", "c_1"],
        (!s.toList.isEmpty && s.toList.all isWordChar) = true :=
      List.all_eq_true.1 (by decide)
    intro s hs
    have hs := hchars s hs
    rw [Bool.and_eq_true, List.all_eq_true] at hs
    exact ⟨by simpa using hs.1, hs.2⟩
  have hhead : ∀ s ∈ ["a", "k", "b", "c_1"], Head.Plain ⟨none, s, [], 0⟩ :=
    fun s hs => ⟨rfl, hword s hs, List.forall_mem_nil _, List.nodup_nil⟩
  have hplain : root.toNode.Plain := by
    refine ⟨⟨rfl, hword "a" (by decide), ?_, by decide⟩, ?_, ?_⟩
    · intro a ha
      obtain rfl := List.mem_singleton.1 ha
      exact ⟨rfl, hword "k" (by decide), by decide⟩
    · simp [root, Node.Apart, Node.text?]
    · simp [root, Node.PlainAll, Node.Plain, hhead]
  have hwritten : root.written =
      "<a k=\"&quot;\n/&gt;\">x\n&amp;<b></b>\n<c_1>é</c_1></a>" := by decide
  have hplaced : root.placed [] = ⟨⟨none, "a", [⟨none, "k", "\"\n/>"⟩], 1⟩,
      [.text "x\n&" 2, .element ⟨none, "b", [], 3⟩ [], .text "\n" 3,
        .element ⟨none, "c_1", [], 4⟩ [.text "é" 4]]⟩ := by
    simp only [root, Element.placed, Node.placedAll, Node.placed, Element.mk.injEq, Head.mk.injEq,
      Node.text.injEq, Node.element.injEq, List.cons.injEq, and_true, true_and]
    decide
  rw [← hwritten, ← hplaced]
  exact readBytes_undoes_writing hplain

end Scenario.Xml
