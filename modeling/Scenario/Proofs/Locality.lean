import Scenario.Proofs.Documents
import Scenario.Proofs.Positions

/-!
# What the texts of a document can see

A compiled text is local if its value depends on the scope it is evaluated in and the scopes around
that, but not on any other one. If an evaluator compiles texts to local ones, all expressions and
conditions of a document are local (**`local_of_gives_document`**).

* `Assembly.Covers cx H P`: what is to be shown to know `P` of every instruction of a document whose
  elements all have a head with `H`. An instruction stands for an element, for a text, for an
  attribute, or for a parameter that was added.
* `Covers.document`: the induction over the document.
-/

namespace Scenario

/-- The value depends on the scope and the scopes around it only, and on what all scopes share. -/
def Compiled.Local (c : Compiled) : Prop :=
  ∀ (a a' : Arena) (s : ScopeId), a'.chain s = a.chain s → a'.globals = a.globals →
    c.eval a' s = c.eval a s

/-- All texts compile to local ones. -/
def Evaluator.Local (e : Evaluator) : Prop := ∀ source c, e.compile source = .ok c → c.Local

/-- Templates read bindings that a search finds. -/
theorem Evaluator.template_local : template.Local := by
  intro source c hc a a' s hchain _
  unfold template at hc
  dsimp only at hc
  split at hc
  · cases hc
    have hget : a'.get? s = a.get? s := funext fun id => by rw [Arena.get?, Arena.get?, hchain]
    simp only [Template.evalIn, hget]
  · cases hc

theorem Evaluator.Local.named {e : Evaluator} (he : e.Local) {source : String} {c : Compiled}
    (hc : e.compileNamed source = .ok c) : c.Local := by
  unfold compileNamed at hc
  cases hsource : e.compile source with
  | error reason =>
    rw [hsource] at hc
    cases hc
  | ok c' =>
    rw [hsource] at hc
    cases hc
    exact he source c hsource

/-- An expression and a condition are local, and a data tag always runs; it gives way to a value
only if it is one of the entity. -/
structure Instruction.Local (i : Instruction) : Prop where
  expression : ∀ {e}, i.tag = .expression e → e.Local
  guard : ∀ g ∈ i.guard, g.test.Local
  always : ∀ {name mode fallback}, i.tag = .data name mode fallback → i.guard = none
  fallback : ∀ {name mode}, i.tag = .data name mode true → mode = .entry

namespace Assembly

open Parse

variable {cx : Assembly} {site : Site} {wraps : Bool} {w w' : World} {H : Xml.Head → Prop}
  {P : Instruction → Prop}

/-! ### The instructions of a document -/

/-- A property of the instructions of elements, and of those that are no elements, where the
elements have another one. -/
structure Covers (cx : Assembly) (H : Xml.Head → Prop) (P : Instruction → Prop) : Prop where
  text : ∀ {source line e}, cx.evaluator.compileNamed source = .ok e →
    P { name := "expression", line, tag := .expression e }
  attr : ∀ {h a}, H h → a ∈ h.attrs → ∀ line mode,
    P { name := a.name, line, tag := .data a.name mode false }
  parameter : ∀ line mode,
    P { name := Output.defaultName, line, tag := .data Output.defaultName mode false }
  element : ∀ {site h children r id cond p w w'}, H h →
    cx.registry.resolve? cx.locator h.ns h.name = some r →
    binding cx.evaluator h r.maker.attrs = .ok id →
    guard cx.evaluator h r.maker.attrs = .ok cond → Gives (cx.plan site h children r) w p w' →
    P { name := h.name, line := h.line, guard := cond, binding := id, tag := p.tag }

namespace Covers

theorem textLeaf (hP : cx.Covers H P) {text : String} {line : Nat} {t : Tree Instruction}
    (ht : Gives (cx.textLeaf text line) w t w') : ∀ i ∈ t.labels, P i := by
  obtain ⟨e, w₁, he, ht⟩ := gives_bind.1 ht
  obtain ⟨rfl, -⟩ := gives_pure.1 ht
  simpa [Tree.labels, Tree.labelsAll] using hP.text (gives_orRefuse.1 he).1

theorem attrLeaf (hP : cx.Covers H P) {enclosing : TagKind} {line : Nat} {h : Xml.Head}
    {a : Xml.Attr} (hh : H h) (hmem : a ∈ h.attrs) {t : Tree Instruction}
    (ht : Gives (cx.attrLeaf enclosing line a) w t w') : ∀ i ∈ t.labels, P i := by
  obtain ⟨mode, w₁, -, ht⟩ := gives_bind.1 ht
  split at ht
  · obtain ⟨rfl, -⟩ := gives_pure.1 ht
    simpa [Tree.labels, Tree.labelsAll] using hP.attr hh hmem line mode
  · obtain ⟨u, w₂, hu, ht⟩ := gives_bind.1 ht
    obtain ⟨rfl, -⟩ := gives_pure.1 ht
    rw [Tree.labels, List.forall_mem_cons]
    exact ⟨hP.attr hh hmem line mode, by simpa [Tree.labelsAll] using hP.textLeaf hu⟩

theorem wrapped (hP : cx.Covers H P) (site : Site) (line : Nat) {t : Tree Instruction}
    (ht : ∀ i ∈ t.labels, P i) : ∀ i ∈ (wrapped site line t).labels, P i := by
  rw [Assembly.wrapped, Tree.labels, List.forall_mem_cons]
  exact ⟨hP.parameter line _, by simpa [Tree.labelsAll] using ht⟩

theorem dressed (hP : cx.Covers H P) {h : Xml.Head} {t : Tree Instruction}
    (ht : ∀ i ∈ t.labels, P i) : ∀ i ∈ (cx.dressed site wraps h t).labels, P i := by
  rw [Assembly.dressed]
  split
  · exact hP.wrapped site h.line ht
  · exact ht

mutual

theorem node (hP : cx.Covers H P) {site : Site} {wraps : Bool} :
    ∀ (n : Xml.Node) {t : Tree Instruction} {w w' : World}, (∀ h, .opens h ∈ n.marks → H h) →
      Gives (cx.node site wraps n) w (some t) w' → ∀ i ∈ t.labels, P i
  | .text s line, t, w, w', hn, ht => by
    rw [Assembly.node] at ht
    split at ht
    · cases (gives_pure.1 ht).1
    · obtain ⟨u, w₁, hu, ht⟩ := gives_bind.1 ht
      obtain ⟨heq, -⟩ := gives_pure.1 ht
      cases heq
      split
      · exact hP.wrapped site line (hP.textLeaf hu)
      · exact hP.textLeaf hu
  | .element h children, t, w, w', hn, ht => by
    obtain ⟨r, id, cond, p, pushed, rest, w₁, hr, hid, hcond, hp, hpushed, hrest, heq⟩ :=
      gives_element_iff.1 ht
    cases heq
    simp only [Xml.Node.marks, List.mem_cons, List.mem_append] at hn
    have hh : H h := hn h (.inl rfl)
    have hbelow : ∀ i ∈ Tree.labelsAll (pushed ++ rest), P i := by
      intro i hi
      obtain ⟨u, hu, hi⟩ := Tree.mem_labelsAll.1 hi
      obtain hu | hu := List.mem_append.1 hu
      · obtain ⟨a, hmem, _, _, ha⟩ := exists_of_gives_mapM hpushed u hu
        exact hP.attrLeaf hh ((planned_of_gives hp).pushed hmem) ha i hi
      · rw [inner] at hrest
        split at hrest
        · obtain ⟨rfl, -⟩ := gives_pure.1 hrest
          cases hu
        · refine hP.nodes children (fun h' hh' => hn h' (.inr (.inl hh'))) hrest i ?_
          exact Tree.mem_labelsAll.2 ⟨u, hu, hi⟩
    refine hP.dressed ?_
    rw [Tree.labels, List.forall_mem_cons]
    exact ⟨hP.element hh hr hid hcond hp, hbelow⟩

theorem nodes (hP : cx.Covers H P) {site : Site} {wraps : Bool} :
    ∀ (ns : List Xml.Node) {ts : List (Tree Instruction)} {w w' : World},
      (∀ h, .opens h ∈ Xml.Node.marksAll ns → H h) →
      Gives (cx.nodes site wraps ns) w ts w' → ∀ i ∈ Tree.labelsAll ts, P i
  | [], ts, w, w', _, hts => by
    rw [Assembly.nodes] at hts
    obtain ⟨rfl, -⟩ := gives_pure.1 hts
    simp [Tree.labelsAll]
  | n :: ns, ts, w, w', hns, hts => by
    obtain ⟨t?, us, w₁, ht, hus, rfl⟩ := gives_nodes_cons.1 hts
    simp only [Xml.Node.marksAll, List.mem_append] at hns
    have hrest := hP.nodes ns (fun h hh => hns h (.inr hh)) hus
    cases t? with
    | none => exact hrest
    | some t =>
      intro i hi
      obtain hi | hi := List.mem_append.1 hi
      · exact hP.node n (fun h hh => hns h (.inl hh)) ht i hi
      · exact hrest i hi

end

/-- Everything below the root of a document has the property. -/
theorem document (hP : cx.Covers H P) {root : Xml.Element} {maker : RootMaker} {q : Program}
    (hroot : ∀ h, .opens h ∈ root.marks → H h) (hq : Gives (cx.document root maker) w q w') :
    ∀ x ∈ Tree.labelsAll q.children, P x.2 := by
  obtain ⟨tag, ts, -, hts, rfl⟩ := gives_document.1 hq
  have hbelow : ∀ h, .opens h ∈ Xml.Node.marksAll root.children → H h := by
    intro h hh
    refine hroot h ?_
    rw [Xml.Element.marks, Xml.Element.toNode, Xml.Node.marks]
    exact List.mem_cons_of_mem _ (List.mem_append_left _ hh)
  intro x hx
  refine hP.nodes root.children hbelow hts x.2 ?_
  rw [← Tree.labelsAll_numberAll 1 ts]
  exact List.mem_map_of_mem hx

end Covers

/-! ### Local documents -/

theorem local_of_guard (he : cx.evaluator.Local) {h : Xml.Head} {attrs : TagAttrs}
    {cond : Option Guard} (hcond : guard cx.evaluator h attrs = .ok cond) :
    ∀ g ∈ cond, g.test.Local := by
  have hmap : ∀ {source negated},
      ((cx.evaluator.compileNamed source).map fun c => some (Guard.mk c negated)) = .ok cond →
        ∀ g ∈ cond, g.test.Local := by
    intro source negated hcond g hg
    cases hc : cx.evaluator.compileNamed source with
    | error e =>
      rw [hc] at hcond
      cases hcond
    | ok c =>
      rw [hc] at hcond
      cases hcond
      cases hg
      exact he.named hc
  unfold guard at hcond
  dsimp only at hcond
  split at hcond
  · cases hcond
  · exact hmap hcond
  · exact hmap hcond
  · cases hcond
    simp

/-- What holds of every tag that a maker makes holds of the tag that is planned. -/
theorem tag_of_gives_plan {h : Xml.Head} {children : List Xml.Node} {r : Resolved} {p : Plan}
    {Q : Tag → Prop} (hQ : r.maker.Makes Q) (hp : Gives (cx.plan site h children r) w p w') :
    Q p.tag := by
  have law : StepLaw fun _ _ _ => True := by constructor <;> simp
  have hrefer : ∀ t ∈ r.target, Sat (fun _ _ _ => True) (cx.refer t) fun _ => True :=
    fun _ _ _ => ⟨trivial, fun _ _ => trivial⟩
  exact ((sat_plan law site h children hQ hrefer w).2 p (congrArg Prod.fst hp)).tag

/-- Expressions come from texts only. -/
theorem maker_of_expression {h : Xml.Head} {children : List Xml.Node} {r : Resolved} {p : Plan}
    (hp : Gives (cx.plan site h children r) w p w') {e : Compiled} (htag : p.tag = .expression e) :
    r.maker = .expression := by
  have hmakes : r.maker.Makes fun t => ∀ e, t = .expression e → r.maker = .expression := by
    cases r.maker <;> simp [Maker.Makes]
  exact tag_of_gives_plan hmakes hp e htag

theorem local_of_expression (he : cx.evaluator.Local) {h : Xml.Head} {children : List Xml.Node}
    {r : Resolved} {p : Plan} (hp : Gives (cx.plan site h children r) w p w') {e : Compiled}
    (htag : p.tag = .expression e) : e.Local := by
  have hmaker := maker_of_expression hp htag
  obtain ⟨maker, target⟩ := r
  obtain rfl : maker = .expression := hmaker
  unfold plan at hp
  dsimp only at hp
  split at hp
  · obtain ⟨_, _, hno, -⟩ := gives_bind.1 hp
    exact absurd hno gives_throw
  · obtain ⟨c, w₁, hc, hp⟩ := gives_bind.1 hp
    obtain ⟨rfl, -⟩ := gives_pure.1 hp
    cases htag
    exact he.named (gives_orRefuse.1 hc).1

/-- Elements that become data tags have no condition. -/
theorem guard_of_data {h : Xml.Head} {m : Maker} {cond : Option Guard} (hkind : m.kind = .data)
    (hcond : guard cx.evaluator h m.attrs = .ok cond) : cond = none := by
  cases m with
  | data fallback =>
    cases hcond
    rfl
  | _ => cases hkind

theorem covers_local (he : cx.evaluator.Local) :
    cx.Covers (fun _ => True) Instruction.Local where
  text hc := ⟨by rintro _ ⟨⟩; exact he.named hc, by simp, by simp, by simp⟩
  attr _ _ line mode := ⟨by simp, by simp, by simp, by simp⟩
  parameter line mode := ⟨by simp, by simp, by simp, by simp⟩
  element {site h children r id cond p w w'} _ _ hid hcond hp := by
    have hlaid := laid_of_gives_plan hp
    refine ⟨local_of_expression he hp, local_of_guard he hcond, fun htag => ?_, fun htag => ?_⟩
    · exact guard_of_data (hlaid.kind.symm.trans (congrArg Tag.kind htag)) hcond
    · exact (dataMode_ok (hlaid.data htag).2).2.2 rfl

/-- **A document of local texts.** With a local evaluator every instruction below the root of a
document is local. -/
theorem local_of_gives_document (he : cx.evaluator.Local) {root : Xml.Element} {maker : RootMaker}
    {q : Program} (hq : Gives (cx.document root maker) w q w') :
    ∀ x ∈ Tree.labelsAll q.children, x.2.Local :=
  (covers_local he).document (fun _ _ => trivial) hq

/-- In every document the data tags are in their places. -/
theorem placed_of_gives_document {root : Xml.Element} {maker : RootMaker} {q : Program}
    (hq : Gives (cx.document root maker) w q w') : q.Placed := by
  have law : StepLaw fun _ _ _ => True := by constructor <;> simp
  have hmaker : maker.Makes fun _ => True := by cases maker <;> simp [RootMaker.Makes]
  have hsat := sat_document law (fun {_ t} _ _ => ⟨trivial, fun _ _ => trivial⟩)
    cx.registry.makes_any root hmaker
  exact ((hsat w).2 q (congrArg Prod.fst hq)).placed

end Assembly

end Scenario
