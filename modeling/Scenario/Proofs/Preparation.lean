import Mathlib.Data.List.TakeWhile
import Scenario.Library.Builtin
import Scenario.Proofs.Building

/-!
# Texts and attributes as elements

A text that is not blank stands for an expression element, and an attribute that is handed down for
a data element with the attribute's value as its text. The instructions of a document are made
without these elements; making the elements first (`Xml.mapText`, `Xml.Element.pushDown`) and
asking the registry for their tags gives the same instructions and the same failures.

For texts this takes a registry in which the name `expression` stands for expressions. Every
registry that is searched from the built-in library on is one.
-/

namespace Scenario

namespace Text

theorem isEmpty_trim (s : String) : (trim s).isEmpty = isBlankText s := by
  rw [Bool.eq_iff_iff, String.isEmpty_iff, trim, String.ofList_eq_empty_iff, trimChars,
    List.reverse_eq_nil_iff, List.dropWhile_eq_nil_iff, isBlankText, List.all_eq_true]
  simp only [List.mem_reverse]
  refine ⟨fun h c hc => ?_, fun h c hc => h c ((List.dropWhile_sublist isBlank).subset hc)⟩
  rw [← List.takeWhile_append_dropWhile (p := isBlank) (l := s.toList), List.mem_append] at hc
  rcases hc with hc | hc
  · exact List.mem_takeWhile_imp hc
  · exact h c hc

end Text

namespace Xml

/-- The element that a text stands for. -/
def expressionElement (text : String) (line : Nat) : Node :=
  .element { ns := some commandNs, name := "expression", line } [.text text line]

theorem mapText_cons_element (make : String → Nat → Node) (h : Head) (cs ns : List Node) :
    mapText make (.element h cs :: ns) = .element h cs :: mapText make ns := rfl

theorem mapText_cons_text (make : String → Nat → Node) (s : String) (line : Nat)
    (ns : List Node) : mapText make (.text s line :: ns) =
      if Text.isBlankText s then mapText make ns else make s line :: mapText make ns := by
  cases hs : Text.isBlankText s with
  | true => exact List.filterMap_cons_none (if_pos hs)
  | false => exact List.filterMap_cons_some (if_neg (Bool.eq_false_iff.1 hs))

theorem textOf_text (s : String) (line : Nat) : textOf [.text s line] = s := by
  simp [textOf, Node.text?, String.join]

end Xml

namespace Assembly

variable {cx : Assembly} {site : Site} {wraps : Bool}

/-- The name `expression` stands for expressions. -/
def Expresses (cx : Assembly) : Prop :=
  cx.registry.anyLibrary? "expression" = some { maker := .expression }

/-- The built-in library, searched first, gives the name its meaning. -/
theorem expresses_of_builtin {ls : List Library}
    (h : cx.registry.libraries = Builtin.library :: ls) : cx.Expresses := by
  have hget : Builtin.library.get? "expression" = some .expression := by
    simp [Library.get?, Builtin.library, List.lookup_cons]
  rw [Expresses, Registry.anyLibrary?, h, List.findSome?_cons, hget]
  rfl

theorem orRefuse_ok {α : Type} (h : Xml.Head) (a : α) : cx.orRefuse h (.ok a) = pure a := rfl

theorem orRefuse_error_bind {α β : Type} (h : Xml.Head) (detail : String) (f : α → Parse β) :
    (cx.orRefuse h (.error detail) >>= f) = cx.refuse h detail := rfl

/-- A refusal does not show the namespace. -/
theorem orRefuse_ns {α : Type} (ns name : String) (line : Nat) (r : Except String α) :
    cx.orRefuse { ns := some ns, name, line } r = cx.orRefuse { name, line } r := by
  cases r with
  | ok a => rfl
  | error detail => rfl

section Bare

variable {h : Xml.Head}

theorem binding_of_bare (hbare : h.attrs = []) (e : Evaluator) (attrs : TagAttrs) :
    binding e h attrs = .ok none := by
  unfold binding
  split <;> simp [Xml.Head.attr?, Xml.Head.attrIn?, hbare]

theorem guard_of_bare (hbare : h.attrs = []) (e : Evaluator) (attrs : TagAttrs) :
    guard e h attrs = .ok none := by
  simp [guard, Xml.Head.attr?, hbare]

/-- Without attributes an element has neither a result name nor a condition. -/
theorem node_of_bare (hbare : h.attrs = []) {r : Resolved}
    (hr : cx.registry.resolve? cx.locator h.ns h.name = some r) (children : List Xml.Node) :
    cx.node site wraps (.element h children) = (do
      let p ← cx.plan (cx.spot site wraps h) h children r
      let pushed ← p.pushed.mapM
        (cx.attrLeaf (p.tag.around (cx.spot site wraps h).enclosing) h.line)
      let rest ← cx.inner (cx.within site wraps h p pushed) p children
      return some (cx.dressed site wraps h (.node
        { name := h.name, line := h.line, tag := p.tag } (pushed ++ rest)))) := by
  rw [node_element]
  simp only [Registry.resolve, hr, binding_of_bare hbare, guard_of_bare hbare, orRefuse_ok,
    pure_bind]

end Bare

/-! ### Texts -/

theorem resolve_expression (hcx : cx.Expresses) :
    cx.registry.resolve? cx.locator (some commandNs) "expression" =
      some { maker := .expression } := by
  rw [Registry.resolve?, if_neg (by decide), if_pos rfl, hcx]

theorem isCall_expression (hcx : cx.Expresses) (line : Nat) :
    cx.isCall { ns := some commandNs, name := "expression", line } = true := by
  rw [isCall, resolve_expression hcx]
  rfl

theorem plan_expression {h : Xml.Head} {s : String} (hs : Text.isBlankText s = false)
    (line : Nat) :
    cx.plan site h [.text s line] { maker := .expression } = (do
      let e ← cx.orRefuse h (cx.evaluator.compileNamed (Text.trim s))
      return { tag := .expression e, closed := true }) := by
  rw [plan]
  simp only [Xml.textOf_text, Text.isEmpty_trim, hs]
  rfl

/-- The element of a text becomes what the text becomes. -/
theorem node_expressionElement (hcx : cx.Expresses) {s : String}
    (hs : Text.isBlankText s = false) (line : Nat) :
    cx.node site wraps (Xml.expressionElement s line) = cx.node site wraps (.text s line) := by
  rw [Xml.expressionElement, node_of_bare rfl (resolve_expression hcx), plan_expression hs, node]
  simp only [textLeaf, orRefuse_ns, bind_assoc, pure_bind, List.mapM_nil, inner, if_true,
    List.append_nil, hs, Bool.false_eq_true, if_false, dressed, isCall_expression hcx,
    Bool.and_true]

theorem nodes_cons_congr {n m : Xml.Node} {ns ms : List Xml.Node}
    (hn : cx.node site wraps n = cx.node site wraps m)
    (hns : ∀ site, cx.nodes site wraps ns = cx.nodes site wraps ms) :
    cx.nodes site wraps (n :: ns) = cx.nodes site wraps (m :: ms) := by
  rw [nodes, nodes, hn]
  simp only [hns]

/-- Children become the same instructions after their texts have been made elements. -/
theorem nodes_mapText (hcx : cx.Expresses) (ns : List Xml.Node) : ∀ site : Site,
    cx.nodes site wraps (Xml.mapText Xml.expressionElement ns) = cx.nodes site wraps ns := by
  induction ns with
  | nil => exact fun site => rfl
  | cons n ns ih =>
    intro site
    cases n with
    | element h cs => exact nodes_cons_congr rfl ih
    | text s line =>
      rw [Xml.mapText_cons_text]
      cases hs : Text.isBlankText s with
      | true => rw [if_pos rfl, ih, nodes, node, if_pos hs, pure_bind]
      | false =>
        rw [if_neg Bool.false_ne_true]
        exact nodes_cons_congr (node_expressionElement hcx hs line) ih

theorem checkChildren_mapText (hcx : cx.Expresses) (h : Xml.Head) : ∀ ns : List Xml.Node,
    cx.checkChildren h (Xml.mapText Xml.expressionElement ns) = cx.checkChildren h ns
  | [] => rfl
  | .element c cs :: ns => by
    rw [Xml.mapText_cons_element, checkChildren, checkChildren, checkChildren_mapText hcx h ns]
  | .text s line :: ns => by
    rw [Xml.mapText_cons_text, checkChildren]
    split
    · exact checkChildren_mapText hcx h ns
    · rw [Xml.expressionElement, checkChildren, checkChildren_mapText hcx h ns]
      simp only [Registry.resolve, resolve_expression hcx, orRefuse_ok, pure_bind]

theorem plan_mapText (hcx : cx.Expresses) {r : Resolved} (hr : r.maker.keepsText = false)
    (h : Xml.Head) (children : List Xml.Node) :
    cx.plan site h (Xml.mapText Xml.expressionElement children) r =
      cx.plan site h children r := by
  unfold plan
  cases hm : r.maker with
  | literal | expression => exact absurd hr (by rw [hm]; decide)
  | bean b | invoke => simp only [checkChildren_mapText hcx]
  | data fallback | conditional | alternative | mutex => rfl
  | describe typeName => rfl
  | fixed typeName closed v whenSkipped => rfl

/-- An element that does not keep its texts becomes the same instruction after they have been made
elements. -/
theorem node_mapText (hcx : cx.Expresses) {h : Xml.Head}
    (hr : ∀ r, cx.registry.resolve? cx.locator h.ns h.name = some r → r.maker.keepsText = false)
    (children : List Xml.Node) :
    cx.node site wraps (.element h (Xml.mapText Xml.expressionElement children)) =
      cx.node site wraps (.element h children) := by
  rw [node_element, node_element]
  cases hresolve : cx.registry.resolve? cx.locator h.ns h.name with
  | none => simp only [Registry.resolve, hresolve, orRefuse_error_bind]
  | some r =>
    simp only [Registry.resolve, hresolve, orRefuse_ok, pure_bind, plan_mapText hcx (hr r hresolve),
      inner, nodes_mapText hcx]

/-! ### Attributes -/

theorem resolve_data (name : String) :
    cx.registry.resolve? cx.locator (some Xml.dataNs) name = some Registry.dataTag := by
  rw [Registry.resolve?, if_pos (by decide)]

theorem isCall_data (name : String) (line : Nat) :
    cx.isCall { ns := some Xml.dataNs, name, line } = false := by
  rw [isCall, resolve_data]
  rfl

theorem plan_data {h : Xml.Head} (hbare : h.attrs = []) (children : List Xml.Node) :
    cx.plan site h children Registry.dataTag = (do
      let mode ← cx.orRefuse h (dataMode h.name site.enclosing false false)
      return { tag := .data h.name mode false }) := by
  rw [Registry.dataTag, plan]
  simp [Xml.Head.attr?, Xml.Head.attrIn?, plainAttrs, hbare]

theorem nodes_text (s : String) (line : Nat) :
    cx.nodes site false [.text s line] =
      if Text.isBlankText s then pure [] else do return [← cx.textLeaf s line] := by
  rw [nodes, node]
  split
  · rfl
  · simp only [bind_assoc, pure_bind, nodes, Bool.false_eq_true, if_false]

/-- The element of an attribute becomes what the attribute becomes. -/
theorem node_dataElement (a : Xml.Attr) (line : Nat) :
    cx.node site wraps (Xml.dataElement a.name line a.value).toNode = (do
      return some (← cx.attrLeaf site.enclosing line a)) := by
  rw [Xml.dataElement, Xml.Element.toNode, node_of_bare rfl (resolve_data a.name), plan_data rfl]
  simp only [spot, dressed, isCall_data, Bool.and_false, Bool.false_eq_true, if_false, attrLeaf,
    orRefuse_ns, bind_assoc, pure_bind, inner, nodes_text, List.mapM_nil, List.nil_append]
  refine bind_congr fun mode => ?_
  split
  · rfl
  · simp only [bind_assoc, pure_bind]

/-- Attributes that have been made elements in front of the other children become what they become
on their own. -/
theorem nodes_dataElements (line : Nat) (ns : List Xml.Node) : ∀ (as : List Xml.Attr) (site : Site),
    cx.nodes site wraps
        (as.map (fun a => (Xml.dataElement a.name line a.value).toNode) ++ ns) = (do
      let pushed ← as.mapM (cx.attrLeaf site.enclosing line)
      let rest ← cx.nodes
        { site with previous := (pushed.getLast?.map Tree.label).or site.previous } wraps ns
      return pushed ++ rest)
  | [], site => by simp
  | a :: as, site => by
    rw [List.map_cons, List.cons_append, nodes, node_dataElement]
    simp only [bind_assoc, pure_bind, nodes_dataElements line ns as, List.mapM_cons]
    refine bind_congr fun t => bind_congr fun ts => ?_
    rw [List.getLast?_cons]
    cases ts.getLast? with
    | none => rfl
    | some u => rfl

/-- Handing attributes down gives their data tags in front of the instructions of the children. -/
theorem nodes_pushDown (keep : String → Bool) (e : Xml.Element) (hsite : site.previous = none) :
    cx.nodes site wraps (e.pushDown keep).children = (do
      let pushed ← ((plainAttrs e.head).filter fun a => keep a.name).mapM
        (cx.attrLeaf site.enclosing e.head.line)
      let rest ← cx.nodes { site with previous := pushed.getLast?.map Tree.label } wraps e.children
      return pushed ++ rest) := by
  have hattrs : (Xml.pushedDown e.head keep).map Xml.Element.toNode =
      ((plainAttrs e.head).filter fun a => keep a.name).map
        fun a => (Xml.dataElement a.name e.head.line a.value).toNode := by
    simp [Xml.pushedDown, plainAttrs, List.filter_filter, Bool.and_comm, Function.comp_def]
  rw [Xml.Element.pushDown, hattrs, nodes_dataElements]
  simp only [hsite, Option.or_none]

/-- What is below an element that has been prepared in both ways. -/
theorem nodes_prepared (hcx : cx.Expresses) (keep : String → Bool) (e : Xml.Element)
    (hsite : site.previous = none) :
    cx.nodes site wraps ((e.mapText Xml.expressionElement).pushDown keep).children = (do
      let pushed ← ((plainAttrs e.head).filter fun a => keep a.name).mapM
        (cx.attrLeaf site.enclosing e.head.line)
      let rest ← cx.nodes { site with previous := pushed.getLast?.map Tree.label } wraps e.children
      return pushed ++ rest) := by
  rw [nodes_pushDown keep _ hsite]
  simp only [Xml.Element.mapText, nodes_mapText hcx]

end Assembly

end Scenario
