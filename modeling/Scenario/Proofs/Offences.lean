import Scenario.Proofs.Cycles

/-!
# What a failure to parse reports

Making the instructions of a document ends at the first thing that goes wrong. That is an *offence*
of an element (or of a text or an attribute that stands for one), or a reference whose resource
fails in its turn.

* `Offends` lists what can be wrong with an element before its children are made: no tag has its
  name, an attribute is bad, or the element is no good as the tag that it stands for (`Unfit`).
* `Strikes`, `Spoils` find the first thing that goes wrong among nodes and in a document. Everything
  in front of it has become instructions.
* `Leads` follows references from a resource that is asked for to one whose document is at fault.
* **`load_reports`**: a failure to make tags is an offence in a document that references lead to. It
  names the path of that document, whichever documents refer to it, and it names the culprit, with
  one exception: a call looks at its children before they are made, so for a child of a call that
  stands for no tag the call is named.

Texts and attributes become elements of their own, and are named as such (`Concerns`).
-/

namespace Scenario

/-- Whether the children of the element are parameters, which are looked at first. -/
def Maker.takesParameters : Maker → Bool
  | bean _ | invoke => true
  | _ => false

/-- A node stands among others or somewhere below them. -/
inductive Xml.Amid (n : Xml.Node) : List Xml.Node → Prop where
  /-- It is one of them. -/
  | here {ns : List Xml.Node} : n ∈ ns → Amid n ns
  /-- It stands below one of them. -/
  | under {h : Xml.Head} {children ns : List Xml.Node} : .element h children ∈ ns →
      Amid n children → Amid n ns

theorem Xml.Amid.cons {n : Xml.Node} {ns : List Xml.Node} (h : Xml.Amid n ns) (m : Xml.Node) :
    Xml.Amid n (m :: ns) := by
  cases h with
  | here hmem => exact .here (List.mem_cons_of_mem m hmem)
  | under hmem hbelow => exact .under (List.mem_cons_of_mem m hmem) hbelow

namespace Assembly

open Parse

/-! ### Offences -/

/-- What is wrong in a document. -/
structure Offence where
  /-- The element at fault. -/
  culprit : Xml.Head
  /-- The element that is named in its place. -/
  caller : Option Xml.Head := none
  /-- What is wrong. -/
  detail : String

namespace Offence

/-- The element that is named. -/
def reported (o : Offence) : Xml.Head := o.caller.getD o.culprit

/-- The error for an offence in the document with a path. -/
def error (o : Offence) (path : String) : ParseError :=
  .tag o.reported.name o.reported.line path o.detail

end Offence

/-- The first thing that goes wrong. -/
inductive Incident where
  /-- An offence in the document. -/
  | offence (o : Offence)
  /-- A resource is asked for. -/
  | asks (t : Resource) (w : World)

/-- The failure that comes of it: an offence is reported, and the failure of a reference is passed
on as it is. -/
def Incident.Raises (cx : Assembly) : Incident → ParseError → Prop
  | offence o, e => e = o.error cx.path
  | asks t w, e => Fails (cx.refer t) w e

/-- The first child element that stands for no tag. -/
def unknownChild? (cx : Assembly) (children : List Xml.Node) : Option Xml.Head :=
  (children.filterMap fun n => n.element?.map Xml.Element.head).find? fun c =>
    (cx.registry.resolve? cx.locator c.ns c.name).isNone

/-- Why an element is no good as the tag that it stands for. -/
inductive Unfit (cx : Assembly) (site : Site) (h : Xml.Head) (children : List Xml.Node)
    (w : World) : Resolved → String → Prop where
  /-- A data tag that cannot stand where it does. -/
  | data {fallback : Bool} {target : Option Resource} {detail : String} :
      dataMode h.name site.enclosing ((h.attr? "id").isSome || (h.attrIn? rootNs "id").isSome)
        fallback = .error detail → Unfit cx site h children w ⟨.data fallback, target⟩ detail
  /-- An expression without a text. -/
  | blank {target : Option Resource} : (Text.trim (Xml.textOf children)).isEmpty = true →
      Unfit cx site h children w ⟨.expression, target⟩ s!"<{h.name}> must have a non-blank text"
  /-- An expression that does not compile. -/
  | expression {target : Option Resource} {detail : String} :
      (Text.trim (Xml.textOf children)).isEmpty = false →
      cx.evaluator.compileNamed (Text.trim (Xml.textOf children)) = .error detail →
      Unfit cx site h children w ⟨.expression, target⟩ detail
  /-- A branch without a condition. -/
  | untested {target : Option Resource} : h.attr? "test" = none →
      Unfit cx site h children w ⟨.conditional, target⟩ s!"<{h.name}> needs a 'test' attribute"
  /-- An alternative to nothing. -/
  | unopened {target : Option Resource} : (site.previous.map opensAlternative).getD false = false →
      Unfit cx site h children w ⟨.alternative, target⟩
        s!"<{h.name}> must follow an <if> or an <else> that has a 'test' attribute"
  /-- The name of a lock that does not compile. -/
  | lockName {target : Option Resource} {source detail : String} : h.attr? "name" = some source →
      cx.evaluator.compileNamed source = .error detail →
      Unfit cx site h children w ⟨.mutex, target⟩ detail
  /-- The time limit of a lock that does not compile. -/
  | lockTimeout {target : Option Resource} {source detail : String} :
      (∀ s, h.attr? "name" = some s → ∃ c, cx.evaluator.compileNamed s = .ok c) →
      h.attr? "timeout" = some source → cx.evaluator.compileNamed source = .error detail →
      Unfit cx site h children w ⟨.mutex, target⟩ detail
  /-- A call of a resource that names none. -/
  | nameless : cx.unknownChild? children = none →
      Unfit cx site h children w ⟨.invoke, none⟩ s!"<{h.name}> does not name a resource"
  /-- A call of a resource that does not exist or has no known root. -/
  | missing {t : Resource} {w' : World} : cx.unknownChild? children = none →
      Gives (cx.refer t) w none w' →
      Unfit cx site h children w ⟨.invoke, some t⟩ s!"Target resource not found: {t.name}"

/-- What goes wrong when an element is made the tag that it stands for. -/
inductive Misfits (cx : Assembly) (site : Site) (h : Xml.Head) (children : List Xml.Node)
    (w : World) (r : Resolved) : Incident → Prop where
  /-- It is no good. -/
  | unfit {detail : String} : Unfit cx site h children w r detail →
      Misfits cx site h children w r (.offence { culprit := h, detail })
  /-- A parameter stands for no tag, and the call is named for it. -/
  | parameter {c : Xml.Head} : r.maker.takesParameters = true →
      cx.unknownChild? children = some c →
      Misfits cx site h children w r (.offence
        { culprit := c, caller := some h, detail := Registry.unknownTag c.ns c.name })
  /-- The resource that a call names is asked for. -/
  | call {t : Resource} : r = ⟨.invoke, some t⟩ → cx.unknownChild? children = none →
      Misfits cx site h children w r (.asks t w)
  /-- The resource that is to be described is asked for. -/
  | description {t : Resource} {typeName : String} : r = ⟨.describe typeName, some t⟩ →
      Misfits cx site h children w r (.asks t w)

/-- What is wrong with an attribute that becomes a data tag. -/
inductive AttrOffends (cx : Assembly) (enclosing : TagKind) (line : Nat) (a : Xml.Attr) :
    Offence → Prop where
  /-- The data tag cannot stand there. -/
  | name {detail : String} : dataMode a.name enclosing false false = .error detail →
      AttrOffends cx enclosing line a { culprit := { name := a.name, line }, detail }
  /-- Its text is no expression. -/
  | value {mode : DataMode} {detail : String} : dataMode a.name enclosing false false = .ok mode →
      Text.isBlankText a.value = false →
      cx.evaluator.compileNamed (Text.trim a.value) = .error detail →
      AttrOffends cx enclosing line a { culprit := { name := "expression", line }, detail }

/-- The element stands for a tag, and its result name and its condition are good. -/
def Attributed (cx : Assembly) (h : Xml.Head) (r : Resolved) : Prop :=
  cx.registry.resolve? cx.locator h.ns h.name = some r ∧
    (∃ id, binding cx.evaluator h r.maker.attrs = .ok id) ∧
    ∃ cond, guard cx.evaluator h r.maker.attrs = .ok cond

/-- What goes wrong with an element before its children are made. -/
inductive Offends (cx : Assembly) (site : Site) (h : Xml.Head) (children : List Xml.Node)
    (w : World) : Incident → Prop where
  /-- It stands for no tag. -/
  | unknown : cx.registry.resolve? cx.locator h.ns h.name = none →
      Offends cx site h children w
        (.offence { culprit := h, detail := Registry.unknownTag h.ns h.name })
  /-- Its result name is bad. -/
  | binding {r : Resolved} {detail : String} :
      cx.registry.resolve? cx.locator h.ns h.name = some r →
      binding cx.evaluator h r.maker.attrs = .error detail →
      Offends cx site h children w (.offence { culprit := h, detail })
  /-- Its condition is bad. -/
  | guard {r : Resolved} {id : Option ResultId} {detail : String} :
      cx.registry.resolve? cx.locator h.ns h.name = some r →
      Assembly.binding cx.evaluator h r.maker.attrs = .ok id →
      guard cx.evaluator h r.maker.attrs = .error detail →
      Offends cx site h children w (.offence { culprit := h, detail })
  /-- Something goes wrong when the tag is made. -/
  | tag {r : Resolved} {i : Incident} : cx.Attributed h r → Misfits cx site h children w r i →
      Offends cx site h children w i
  /-- The first bad one of the attributes that become data tags. -/
  | pushed {r : Resolved} {p : Plan} {w₁ : World} {front back : List Xml.Attr} {a : Xml.Attr}
      {o : Offence} : cx.Attributed h r → Gives (cx.plan site h children r) w p w₁ →
      p.pushed = front ++ a :: back →
      (∀ b ∈ front, ∀ o, ¬ AttrOffends cx (p.tag.around site.enclosing) h.line b o) →
      AttrOffends cx (p.tag.around site.enclosing) h.line a o →
      Offends cx site h children w (.offence o)

/-- The first thing that goes wrong among nodes. -/
inductive Strikes (cx : Assembly) : Site → Bool → List Xml.Node → World → Incident → Prop where
  /-- The first node is a text and no expression. -/
  | text {site : Site} {wraps : Bool} {s : String} {line : Nat} {ns : List Xml.Node} {w : World}
      {detail : String} : Text.isBlankText s = false →
      cx.evaluator.compileNamed (Text.trim s) = .error detail →
      Strikes cx site wraps (.text s line :: ns) w
        (.offence { culprit := { name := "expression", line }, detail })
  /-- The first node is an element with something wrong about it. -/
  | element {site : Site} {wraps : Bool} {h : Xml.Head} {children ns : List Xml.Node} {w : World}
      {i : Incident} : Offends cx (cx.spot site wraps h) h children w i →
      Strikes cx site wraps (.element h children :: ns) w i
  /-- Something is wrong below the first node. -/
  | deeper {site : Site} {wraps : Bool} {h : Xml.Head} {children ns : List Xml.Node} {w w₁ : World}
      {i : Incident} {r : Resolved} {p : Plan} {pushed : List (Tree Instruction)} :
      cx.Attributed h r → Gives (cx.plan (cx.spot site wraps h) h children r) w p w₁ →
      Gives (p.pushed.mapM
        (cx.attrLeaf (p.tag.around (cx.spot site wraps h).enclosing) h.line)) w₁ pushed w₁ →
      p.closed = false →
      Strikes cx (cx.within site wraps h p pushed) p.wraps children w₁ i →
      Strikes cx site wraps (.element h children :: ns) w i
  /-- The first node is made, and something is wrong behind it. -/
  | later {site : Site} {wraps : Bool} {n : Xml.Node} {ns : List Xml.Node} {w w₁ : World}
      {i : Incident} {t? : Option (Tree Instruction)} :
      Gives (cx.node site wraps n) w t? w₁ →
      Strikes cx { site with previous := (t?.map Tree.label).or site.previous } wraps ns w₁ i →
      Strikes cx site wraps (n :: ns) w i

/-- The first thing that goes wrong in a document. -/
inductive Spoils (cx : Assembly) (root : Xml.Element) (w : World) :
    RootMaker → Incident → Prop where
  /-- The root is refused. -/
  | root {reason : Xml.Element → String} :
      Spoils cx root w (.refused reason) (.offence { culprit := root.head, detail := reason root })
  /-- Something is wrong below the root. -/
  | deeper {maker : RootMaker} {i : Incident} : (∀ reason, maker ≠ .refused reason) →
      Strikes cx cx.top false root.children w i → Spoils cx root w maker i

/-- What is named for an offence at a node. -/
inductive Concerns (reg : Registry) (l : Locator) : Offence → Xml.Node → Prop where
  /-- A text is named as the expression that it becomes. -/
  | text {s : String} {line : Nat} {detail : String} :
      Concerns reg l { culprit := { name := "expression", line }, detail } (.text s line)
  /-- An element that stands for no tag is named itself. -/
  | unknown {h : Xml.Head} {children : List Xml.Node} : reg.resolve? l h.ns h.name = none →
      Concerns reg l { culprit := h, detail := Registry.unknownTag h.ns h.name }
        (.element h children)
  /-- An element that is no good as the tag that it stands for is named itself. -/
  | element {h : Xml.Head} {children : List Xml.Node} {r : Resolved} {detail : String} :
      reg.resolve? l h.ns h.name = some r →
      Concerns reg l { culprit := h, detail } (.element h children)
  /-- A root that is refused is named itself. -/
  | root {root : Xml.Element} {reason : Xml.Element → String} :
      reg.root? root.head.name = some (.refused reason) →
      Concerns reg l { culprit := root.head, detail := reason root } root.toNode
  /-- An attribute is named as the data tag that it becomes, or as the expression in that, at the
  line of its element. -/
  | attribute {h : Xml.Head} {children : List Xml.Node} {a : Xml.Attr} {name detail : String} :
      a ∈ h.attrs → name = a.name ∨ name = "expression" →
      Concerns reg l { culprit := { name, line := h.line }, detail } (.element h children)
  /-- For a child that stands for no tag a call is named. -/
  | parameter {h c : Xml.Head} {children cs : List Xml.Node} {r : Resolved} :
      reg.resolve? l h.ns h.name = some r → r.maker.takesParameters = true →
      .element c cs ∈ children → reg.resolve? l c.ns c.name = none →
      Concerns reg l
        { culprit := c, caller := some h, detail := Registry.unknownTag c.ns c.name }
        (.element h children)

variable {cx : Assembly} {site : Site} {wraps : Bool} {h : Xml.Head} {children : List Xml.Node}
  {w : World} {e : ParseError}

/-! ### Elements -/

/-- A call is refused for its first child that stands for no tag. -/
theorem checkChildren_eq (h : Xml.Head) (children : List Xml.Node) :
    cx.checkChildren h children = (cx.unknownChild? children).elim (pure ())
      fun c => cx.refuse h (Registry.unknownTag c.ns c.name) := by
  induction children with
  | nil => rfl
  | cons n ns ih =>
    cases n with
    | text s line => exact ih
    | element c cs =>
      rw [checkChildren, ih, Registry.resolve]
      cases hc : cx.registry.resolve? cx.locator c.ns c.name with
      | none =>
        have hfound : cx.unknownChild? (.element c cs :: ns) = some c := by
          simp [unknownChild?, Xml.Node.element?, hc]
        rw [hfound]
        rfl
      | some r =>
        have hskip : cx.unknownChild? (.element c cs :: ns) = cx.unknownChild? ns := by
          simp [unknownChild?, Xml.Node.element?, hc]
        rw [hskip]
        rfl

theorem gives_checkChildren (hc : cx.unknownChild? children = none) :
    Gives (cx.checkChildren h children) w () w := by
  rw [checkChildren_eq, hc]
  rfl

theorem fails_checkChildren :
    Fails (cx.checkChildren h children) w e ↔ ∃ c, cx.unknownChild? children = some c ∧
      e = .tag h.name h.line cx.path (Registry.unknownTag c.ns c.name) := by
  rw [checkChildren_eq]
  cases cx.unknownChild? children with
  | none =>
    constructor
    · exact fun he => absurd he fails_pure
    · rintro ⟨c, hc, -⟩
      cases hc
  | some c =>
    rw [Option.elim_some, fails_refuse]
    constructor
    · exact fun he => ⟨c, rfl, he⟩
    · rintro ⟨_, ⟨⟩, he⟩
      exact he

theorem unknownChild?_of_gives {u : World} (hx : Gives (cx.checkChildren h children) w () u) :
    cx.unknownChild? children = none := by
  cases hc : cx.unknownChild? children with
  | none => rfl
  | some c =>
    exact absurd (fails_checkChildren.2 ⟨c, hc, rfl⟩) hx.not_fails

theorem fails_compile {source : Option String} :
    Fails (source.mapM fun s => cx.orRefuse h (cx.evaluator.compileNamed s)) w e ↔
      ∃ s detail, source = some s ∧ cx.evaluator.compileNamed s = .error detail ∧
        e = .tag h.name h.line cx.path detail := by
  cases source with
  | none =>
    constructor
    · exact fun he => absurd he fails_pure
    · rintro ⟨s, detail, hs, -⟩
      cases hs
  | some s =>
    show Fails (cx.orRefuse h (cx.evaluator.compileNamed s) >>= fun c => pure (some c)) w e ↔ _
    rw [fails_bind_pure, fails_orRefuse]
    constructor
    · rintro ⟨detail, hs, he⟩
      exact ⟨s, detail, rfl, hs, he⟩
    · rintro ⟨_, detail, ⟨⟩, hs, he⟩
      exact ⟨detail, hs, he⟩

/-- What goes wrong is why making the tag fails. -/
theorem fails_plan_of_misfits {r : Resolved} {i : Incident}
    (hi : Misfits cx site h children w r i) (he : i.Raises cx e) :
    Fails (cx.plan site h children r) w e := by
  unfold plan
  cases hi with
  | unfit hu =>
    obtain rfl : e = _ := he
    cases hu with
    | data hmode => exact fails_bind.2 (.inl (fails_orRefuse.2 ⟨_, hmode, rfl⟩))
    | blank hblank =>
      dsimp only
      rw [if_pos hblank]
      exact fails_bind.2 (.inl (fails_refuse.2 rfl))
    | expression hblank hcompile =>
      dsimp only
      rw [hblank]
      exact fails_bind.2 (.inl (fails_orRefuse.2 ⟨_, hcompile, rfl⟩))
    | untested htest =>
      dsimp only
      rw [htest]
      exact fails_bind.2 (.inl (fails_refuse.2 rfl))
    | unopened hprevious =>
      dsimp only
      rw [hprevious]
      exact fails_bind.2 (.inl (fails_refuse.2 rfl))
    | lockName hname hcompile =>
      exact fails_bind.2 (.inl (fails_compile.2 ⟨_, _, hname, hcompile, rfl⟩))
    | lockTimeout hgood htimeout hcompile =>
      obtain ⟨name, u, hname⟩ | ⟨e', hname⟩ := gives_or_fails
        ((h.attr? "name").mapM fun s => cx.orRefuse h (cx.evaluator.compileNamed s)) w
      · obtain ⟨hname, rfl⟩ := (steady_compile h _).gives_iff.1 hname
        exact fails_bind.2 (.inr ⟨name, u, hname,
          fails_bind.2 (.inl (fails_compile.2 ⟨_, _, htimeout, hcompile, rfl⟩))⟩)
      · obtain ⟨s, d, hs, hd, -⟩ := fails_compile.1 hname
        obtain ⟨c, hc⟩ := hgood s hs
        cases hd.symm.trans hc
    | nameless hchildren =>
      exact fails_bind.2 (.inr ⟨(), w, gives_checkChildren hchildren, fails_refuse.2 rfl⟩)
    | missing hchildren hnone =>
      exact fails_bind.2 (.inr ⟨(), w, gives_checkChildren hchildren,
        fails_bind.2 (.inr ⟨none, _, hnone, fails_refuse.2 rfl⟩)⟩)
  | @parameter c hcall hc =>
    -- Both kinds of call look at their children first.
    obtain ⟨maker, target⟩ := r
    have hcheck : Fails (cx.checkChildren h children) w e := fails_checkChildren.2 ⟨c, hc, he⟩
    cases maker with
    | bean b => exact fails_bind.2 (.inl hcheck)
    | invoke => exact fails_bind.2 (.inl hcheck)
    | _ => cases hcall
  | call hr hchildren =>
    subst hr
    exact fails_bind.2 (.inr ⟨(), w, gives_checkChildren hchildren, fails_bind.2 (.inl he)⟩)
  | description hr =>
    subst hr
    exact fails_bind.2 (.inl he)

/-- Making the tag fails only for something that goes wrong. -/
theorem misfits_of_fails_plan {r : Resolved} (he : Fails (cx.plan site h children r) w e) :
    ∃ i, Misfits cx site h children w r i ∧ i.Raises cx e := by
  obtain ⟨maker, target⟩ := r
  unfold plan at he
  cases maker with
  | data fallback =>
    obtain he | ⟨mode, u, -, he⟩ := fails_bind.1 he
    · obtain ⟨detail, hmode, rfl⟩ := fails_orRefuse.1 he
      exact ⟨_, .unfit (.data hmode), rfl⟩
    · exact absurd he fails_pure
  | literal => exact absurd he fails_pure
  | expression =>
    dsimp only at he
    split at he
    · rename_i hblank
      obtain he | ⟨_, u, hx, -⟩ := fails_bind.1 he
      · exact ⟨_, .unfit (.blank hblank), fails_refuse.1 he⟩
      · exact absurd hx gives_throw
    · rename_i hblank
      obtain he | ⟨c, u, -, he⟩ := fails_bind.1 he
      · obtain ⟨detail, hcompile, rfl⟩ := fails_orRefuse.1 he
        exact ⟨_, .unfit (.expression (Bool.eq_false_iff.2 hblank) hcompile), rfl⟩
      · exact absurd he fails_pure
  | conditional =>
    dsimp only at he
    split at he
    · rename_i htest
      obtain he | ⟨_, u, hx, -⟩ := fails_bind.1 he
      · exact ⟨_, .unfit (.untested (Option.isNone_iff_eq_none.1 htest)), fails_refuse.1 he⟩
      · exact absurd hx gives_throw
    · exact absurd he fails_pure
  | alternative =>
    dsimp only at he
    split at he
    · rename_i hprevious
      obtain he | ⟨_, u, hx, -⟩ := fails_bind.1 he
      · exact ⟨_, .unfit (.unopened (by simpa using hprevious)), fails_refuse.1 he⟩
      · exact absurd hx gives_throw
    · exact absurd he fails_pure
  | mutex =>
    obtain he | ⟨name, u, hname, he⟩ := fails_bind.1 he
    · obtain ⟨s, detail, hs, hcompile, rfl⟩ := fails_compile.1 he
      exact ⟨_, .unfit (.lockName hs hcompile), rfl⟩
    · obtain he | ⟨timeout, u', -, he⟩ := fails_bind.1 he
      · obtain ⟨s, detail, hs, hcompile, rfl⟩ := fails_compile.1 he
        refine ⟨_, .unfit (.lockTimeout ?_ hs hcompile), rfl⟩
        intro s' hs'
        cases hc : cx.evaluator.compileNamed s' with
        | ok c => exact ⟨c, rfl⟩
        | error d => exact absurd (fails_compile.2 ⟨s', d, hs', hc, rfl⟩) hname.not_fails
      · exact absurd he fails_pure
  | bean b =>
    obtain he | ⟨_, u, -, he⟩ := fails_bind.1 he
    · obtain ⟨c, hc, rfl⟩ := fails_checkChildren.1 he
      exact ⟨_, .parameter rfl hc, rfl⟩
    · exact absurd he fails_pure
  | invoke =>
    obtain hcheck | ⟨_, u, hcheck, hrest⟩ := fails_bind.1 he
    · obtain ⟨c, hc, rfl⟩ := fails_checkChildren.1 hcheck
      exact ⟨_, .parameter rfl hc, rfl⟩
    · obtain ⟨hcheck, rfl⟩ := (steady_checkChildren h children).gives_iff.1 hcheck
      have hchildren := unknownChild?_of_gives hcheck
      cases target with
      | none => exact ⟨_, .unfit (.nameless hchildren), fails_refuse.1 hrest⟩
      | some t =>
        obtain hrefer | ⟨found, u', hfound, hrest⟩ := fails_bind.1 hrest
        · exact ⟨_, .call rfl hchildren, hrefer⟩
        · cases found with
          | none => exact ⟨_, .unfit (.missing hchildren hfound), fails_refuse.1 hrest⟩
          | some key => exact absurd hrest fails_pure
  | describe typeName =>
    cases target with
    | none => exact absurd he fails_pure
    | some t =>
      obtain hrefer | ⟨found, u, -, hrest⟩ := fails_bind.1 he
      · exact ⟨_, .description rfl, hrefer⟩
      · cases found with
        | none => exact absurd hrest fails_pure
        | some key => exact absurd hrest fails_pure
  | fixed typeName closed v whenSkipped => exact absurd he fails_pure

theorem fails_textLeaf {s : String} {line : Nat} :
    Fails (cx.textLeaf s line) w e ↔ ∃ detail,
      cx.evaluator.compileNamed (Text.trim s) = .error detail ∧
        e = .tag "expression" line cx.path detail := by
  unfold textLeaf
  rw [fails_bind_pure, fails_orRefuse]

theorem fails_attrLeaf {enclosing : TagKind} {line : Nat} {a : Xml.Attr} :
    Fails (cx.attrLeaf enclosing line a) w e ↔
      ∃ o, AttrOffends cx enclosing line a o ∧ e = o.error cx.path := by
  unfold attrLeaf
  dsimp only
  constructor
  · intro he
    obtain hfail | ⟨mode, u, hgives, hrest⟩ := fails_bind.1 he
    · obtain ⟨detail, hmode, rfl⟩ := fails_orRefuse.1 hfail
      exact ⟨_, .name hmode, rfl⟩
    · obtain ⟨hmode, rfl⟩ := gives_orRefuse.1 hgives
      by_cases hblank : Text.isBlankText a.value = true
      · rw [if_pos hblank] at hrest
        exact absurd hrest fails_pure
      · rw [if_neg hblank] at hrest
        obtain htext | ⟨t, u', -, hpure⟩ := fails_bind.1 hrest
        · obtain ⟨detail, hcompile, rfl⟩ := fails_textLeaf.1 htext
          exact ⟨_, .value hmode (Bool.eq_false_iff.2 hblank) hcompile, rfl⟩
        · exact absurd hpure fails_pure
  · rintro ⟨o, ho, rfl⟩
    cases ho with
    | name hmode => exact fails_bind.2 (.inl (fails_orRefuse.2 ⟨_, hmode, rfl⟩))
    | value hmode hblank hcompile =>
      rw [fails_bind_of_gives (gives_orRefuse.2 ⟨hmode, rfl⟩), hblank]
      exact fails_bind.2 (.inl (fails_textLeaf.2 ⟨_, hcompile, rfl⟩))

/-- An element whose attributes are good fails as its tag, its attributes or its children do. -/
theorem fails_element_of_attributed {r : Resolved} (hr : cx.Attributed h r) :
    Fails (cx.node site wraps (.element h children)) w e ↔
      Fails (cx.plan (cx.spot site wraps h) h children r) w e ∨
      ∃ p w₁, Gives (cx.plan (cx.spot site wraps h) h children r) w p w₁ ∧
        (Fails (p.pushed.mapM
          (cx.attrLeaf (p.tag.around (cx.spot site wraps h).enclosing) h.line)) w₁ e ∨
        ∃ pushed, Gives (p.pushed.mapM
            (cx.attrLeaf (p.tag.around (cx.spot site wraps h).enclosing) h.line)) w₁ pushed w₁ ∧
          Fails (cx.inner (cx.within site wraps h p pushed) p children) w₁ e) := by
  obtain ⟨hr, ⟨id, hid⟩, cond, hcond⟩ := hr
  rw [node_element, fails_bind_of_gives (gives_orRefuse.2 ⟨Registry.resolve_eq_ok.2 hr, rfl⟩),
    fails_bind_of_gives (gives_orRefuse.2 ⟨hid, rfl⟩),
    fails_bind_of_gives (gives_orRefuse.2 ⟨hcond, rfl⟩), fails_bind]
  refine or_congr_right (exists_congr fun p => exists_congr fun w₁ => and_congr_right fun _ => ?_)
  rw [fails_bind]
  refine or_congr_right (exists_congr fun pushed => ?_)
  have hsteady : Steady (p.pushed.mapM
      (cx.attrLeaf (p.tag.around (cx.spot site wraps h).enclosing) h.line)) :=
    steady_mapM (steady_attrLeaf _ h.line) p.pushed
  constructor
  · rintro ⟨w₂, hpushed, hrest⟩
    obtain ⟨hpushed, rfl⟩ := hsteady.gives_iff.1 hpushed
    exact ⟨hpushed, fails_bind_pure.1 hrest⟩
  · rintro ⟨hpushed, hrest⟩
    exact ⟨w₁, hpushed, fails_bind_pure.2 hrest⟩

/-- An element fails for what is wrong with it or below it. -/
theorem fails_element_iff :
    Fails (cx.node site wraps (.element h children)) w e ↔
      (∃ i, Offends cx (cx.spot site wraps h) h children w i ∧ i.Raises cx e) ∨
      ∃ r p pushed w₁, cx.Attributed h r ∧
        Gives (cx.plan (cx.spot site wraps h) h children r) w p w₁ ∧
        Gives (p.pushed.mapM
          (cx.attrLeaf (p.tag.around (cx.spot site wraps h).enclosing) h.line)) w₁ pushed w₁ ∧
        p.closed = false ∧
        Fails (cx.nodes (cx.within site wraps h p pushed) p.wraps children) w₁ e := by
  constructor
  · intro he
    -- The parts of an element are made in order, and the first that fails is found in this order.
    have hparts := he
    rw [node_element] at hparts
    obtain hfail | ⟨r, w₁, hgives, hnamed⟩ := fails_bind.1 hparts
    · obtain ⟨detail, hresolve, rfl⟩ := fails_orRefuse.1 hfail
      obtain ⟨hnone, rfl⟩ := Registry.resolve_eq_error.1 hresolve
      exact .inl ⟨_, .unknown hnone, rfl⟩
    obtain ⟨hresolve, rfl⟩ := gives_orRefuse.1 hgives
    have hr := Registry.resolve_eq_ok.1 hresolve
    obtain hfail | ⟨id, w₁, hbinding, hbound⟩ := fails_bind.1 hnamed
    · obtain ⟨detail, hid, rfl⟩ := fails_orRefuse.1 hfail
      exact .inl ⟨_, .binding hr hid, rfl⟩
    obtain ⟨hid, rfl⟩ := gives_orRefuse.1 hbinding
    obtain hfail | ⟨cond, w₁, hguard, -⟩ := fails_bind.1 hbound
    · obtain ⟨detail, hcond, rfl⟩ := fails_orRefuse.1 hfail
      exact .inl ⟨_, .guard hr hid hcond, rfl⟩
    obtain ⟨hcond, rfl⟩ := gives_orRefuse.1 hguard
    have hattr : cx.Attributed h r := ⟨hr, ⟨id, hid⟩, cond, hcond⟩
    obtain hplan | ⟨p, w₁, hp, hpushed | ⟨pushed, hpushed, hinner⟩⟩ :=
      (fails_element_of_attributed hattr).1 he
    · obtain ⟨i, hi, hraises⟩ := misfits_of_fails_plan hplan
      exact .inl ⟨i, .tag hattr hi, hraises⟩
    · obtain ⟨front, a, back, heq, hfront, ha⟩ := (fails_mapM (steady_attrLeaf _ h.line)).1 hpushed
      obtain ⟨o, ho, rfl⟩ := fails_attrLeaf.1 ha
      refine .inl ⟨.offence o, .pushed hattr hp heq ?_ ho, rfl⟩
      exact fun b hb o' ho' => hfront b hb _ (fails_attrLeaf.2 ⟨o', ho', rfl⟩)
    · unfold inner at hinner
      split at hinner
      · exact absurd hinner fails_pure
      · rename_i hopen
        exact .inr ⟨r, p, pushed, w₁, hattr, hp, hpushed, Bool.eq_false_iff.2 hopen, hinner⟩
  · rintro (⟨i, hi, hraises⟩ | ⟨r, p, pushed, w₁, hattr, hp, hpushed, hopen, hnodes⟩)
    · cases hi with
      | unknown hr =>
        rw [node_element]
        exact fails_bind.2 (.inl (fails_orRefuse.2
          ⟨_, Registry.resolve_eq_error.2 ⟨hr, rfl⟩, hraises⟩))
      | binding hr hid =>
        rw [node_element,
          fails_bind_of_gives (gives_orRefuse.2 ⟨Registry.resolve_eq_ok.2 hr, rfl⟩)]
        exact fails_bind.2 (.inl (fails_orRefuse.2 ⟨_, hid, hraises⟩))
      | guard hr hid hcond =>
        rw [node_element,
          fails_bind_of_gives (gives_orRefuse.2 ⟨Registry.resolve_eq_ok.2 hr, rfl⟩),
          fails_bind_of_gives (gives_orRefuse.2 ⟨hid, rfl⟩)]
        exact fails_bind.2 (.inl (fails_orRefuse.2 ⟨_, hcond, hraises⟩))
      | tag hattr hi =>
        exact (fails_element_of_attributed hattr).2 (.inl (fails_plan_of_misfits hi hraises))
      | @pushed r p w₁ front back a o hattr hp heq hfront ho =>
        refine (fails_element_of_attributed hattr).2 (.inr ⟨p, w₁, hp, .inl ?_⟩)
        refine (fails_mapM (steady_attrLeaf _ h.line)).2 ⟨front, a, back, heq, ?_, ?_⟩
        · intro b hb e' he'
          obtain ⟨o', ho', -⟩ := fails_attrLeaf.1 he'
          exact hfront b hb o' ho'
        · exact fails_attrLeaf.2 ⟨o, ho, hraises⟩
    · refine (fails_element_of_attributed hattr).2 (.inr ⟨p, w₁, hp, .inr ⟨pushed, hpushed, ?_⟩⟩)
      rw [inner, hopen]
      exact hnodes

/-! ### Documents -/

theorem fails_node_text {s : String} {line : Nat} :
    Fails (cx.node site wraps (.text s line)) w e ↔ Text.isBlankText s = false ∧ ∃ detail,
      cx.evaluator.compileNamed (Text.trim s) = .error detail ∧
        e = .tag "expression" line cx.path detail := by
  rw [node]
  by_cases hblank : Text.isBlankText s = true
  · rw [if_pos hblank, hblank]
    constructor
    · exact fun he => absurd he fails_pure
    · rintro ⟨⟨⟩, -⟩
  · rw [if_neg hblank, fails_bind_pure, fails_textLeaf]
    exact (and_iff_right (Bool.eq_false_iff.2 hblank)).symm

theorem fails_nodes_cons {n : Xml.Node} {ns : List Xml.Node} :
    Fails (cx.nodes site wraps (n :: ns)) w e ↔ Fails (cx.node site wraps n) w e ∨
      ∃ t? w₁, Gives (cx.node site wraps n) w t? w₁ ∧
        Fails (cx.nodes { site with previous := (t?.map Tree.label).or site.previous } wraps ns)
          w₁ e := by
  rw [nodes, fails_bind]
  refine or_congr_right (exists_congr fun t? => exists_congr fun w₁ => and_congr_right fun _ => ?_)
  cases t? with
  | none => exact Iff.rfl
  | some t => exact fails_bind_pure

/-- What strikes is why nodes fail. -/
theorem fails_nodes_of_strikes {ns : List Xml.Node} {i : Incident}
    (hi : Strikes cx site wraps ns w i) (hraises : i.Raises cx e) :
    Fails (cx.nodes site wraps ns) w e := by
  induction hi with
  | text hblank hcompile =>
    exact fails_nodes_cons.2 (.inl (fails_node_text.2 ⟨hblank, _, hcompile, hraises⟩))
  | element ho => exact fails_nodes_cons.2 (.inl (fails_element_iff.2 (.inl ⟨_, ho, hraises⟩)))
  | deeper hattr hp hpushed hopen _ ih =>
    exact fails_nodes_cons.2 (.inl (fails_element_iff.2
      (.inr ⟨_, _, _, _, hattr, hp, hpushed, hopen, ih hraises⟩)))
  | later ht _ ih => exact fails_nodes_cons.2 (.inr ⟨_, _, ht, ih hraises⟩)

mutual

theorem strikes_of_fails_node (site : Site) (wraps : Bool) :
    ∀ (n : Xml.Node) {w : World}, Fails (cx.node site wraps n) w e →
      ∀ ns, ∃ i, Strikes cx site wraps (n :: ns) w i ∧ i.Raises cx e
  | .text s line, w, he, ns => by
    obtain ⟨hblank, detail, hcompile, rfl⟩ := fails_node_text.1 he
    exact ⟨_, .text hblank hcompile, rfl⟩
  | .element h children, w, he, ns => by
    obtain ⟨i, hi, hraises⟩ | ⟨r, p, pushed, w₁, hattr, hp, hpushed, hopen, hbelow⟩ :=
      fails_element_iff.1 he
    · exact ⟨i, .element hi, hraises⟩
    · obtain ⟨i, hi, hraises⟩ := strikes_of_fails_nodes _ _ children hbelow
      exact ⟨i, .deeper hattr hp hpushed hopen hi, hraises⟩

/-- Nodes fail only where something strikes. -/
theorem strikes_of_fails_nodes (site : Site) (wraps : Bool) :
    ∀ (ns : List Xml.Node) {w : World}, Fails (cx.nodes site wraps ns) w e →
      ∃ i, Strikes cx site wraps ns w i ∧ i.Raises cx e
  | [], w, he => by
    rw [nodes] at he
    exact absurd he fails_pure
  | n :: ns, w, he => by
    obtain he | ⟨t?, w₁, ht, he⟩ := fails_nodes_cons.1 he
    · exact strikes_of_fails_node site wraps n he ns
    · obtain ⟨i, hi, hraises⟩ := strikes_of_fails_nodes _ wraps ns he
      exact ⟨i, .later ht hi, hraises⟩

end

/-- **A document fails for the first thing that goes wrong in it.** -/
theorem fails_document_iff {root : Xml.Element} {maker : RootMaker} :
    Fails (cx.document root maker) w e ↔ ∃ i, Spoils cx root w maker i ∧ i.Raises cx e := by
  rw [document_eq, fails_bind]
  constructor
  · rintro (htag | ⟨tag, w₁, htag, hrest⟩)
    · cases maker with
      | scenario => exact absurd htag fails_pure
      | block typeName => exact absurd htag fails_pure
      | refused reason => exact ⟨_, .root, fails_refuse.1 htag⟩
    · obtain ⟨htag, rfl⟩ := (steady_rootTag root maker).gives_iff.1 htag
      obtain ⟨i, hi, hraises⟩ := strikes_of_fails_nodes _ _ _ (fails_bind_pure.1 hrest)
      refine ⟨i, .deeper ?_ hi, hraises⟩
      rintro reason rfl
      exact gives_throw htag
  · rintro ⟨i, hi, hraises⟩
    cases hi with
    | root => exact .inl (fails_refuse.2 hraises)
    | deeper hmaker hi =>
      have hnodes := fails_nodes_of_strikes hi hraises
      cases maker with
      | scenario => exact .inr ⟨_, w, gives_pure.2 ⟨rfl, rfl⟩, fails_bind_pure.2 hnodes⟩
      | block typeName => exact .inr ⟨_, w, gives_pure.2 ⟨rfl, rfl⟩, fails_bind_pure.2 hnodes⟩
      | refused reason => exact absurd rfl (hmaker reason)

/-! ### What offences concern -/

theorem unknownChild?_eq_some {c : Xml.Head} (hc : cx.unknownChild? children = some c) :
    (∃ cs, .element c cs ∈ children) ∧ cx.registry.resolve? cx.locator c.ns c.name = none := by
  unfold unknownChild? at hc
  have hnone := List.find?_some hc
  refine ⟨?_, Option.isNone_iff_eq_none.1 hnone⟩
  obtain ⟨n, hn, heq⟩ := List.mem_filterMap.1 (List.mem_of_find?_eq_some hc)
  cases n with
  | text s line => cases heq
  | element d ds =>
    cases heq
    exact ⟨ds, hn⟩

theorem Offends.concerns {o : Offence} (ho : Offends cx site h children w (.offence o)) :
    Concerns cx.registry cx.locator o (.element h children) := by
  cases ho with
  | unknown hnone => exact .unknown hnone
  | binding hr => exact .element hr
  | guard hr => exact .element hr
  | tag hattr hi =>
    cases hi with
    | unfit => exact .element hattr.1
    | parameter hcall hc =>
      obtain ⟨⟨cs, hmem⟩, hnone⟩ := unknownChild?_eq_some hc
      exact .parameter hattr.1 hcall hmem hnone
  | pushed hattr hp heq _ ha =>
    have hmem := (planned_of_gives hp).pushed (heq ▸ List.mem_append_right _ List.mem_cons_self)
    cases ha with
    | name => exact .attribute hmem (.inl rfl)
    | value => exact .attribute hmem (.inr rfl)

/-- An offence concerns a node of the document. -/
theorem Strikes.concerns {ns : List Xml.Node} {i : Incident}
    (hi : Strikes cx site wraps ns w i) {o : Offence} (ho : i = .offence o) :
    ∃ n, Xml.Amid n ns ∧ Concerns cx.registry cx.locator o n := by
  induction hi with
  | text =>
    cases ho
    exact ⟨_, .here List.mem_cons_self, .text⟩
  | element hi =>
    subst ho
    exact ⟨_, .here List.mem_cons_self, hi.concerns⟩
  | deeper _ _ _ _ _ ih =>
    obtain ⟨n, hn, hconcerns⟩ := ih ho
    exact ⟨n, .under List.mem_cons_self hn, hconcerns⟩
  | later _ _ ih =>
    obtain ⟨n, hn, hconcerns⟩ := ih ho
    exact ⟨n, hn.cons _, hconcerns⟩

theorem Spoils.concerns {root : Xml.Element} {maker : RootMaker} {o : Offence}
    (hi : Spoils cx root w maker (.offence o))
    (hmaker : cx.registry.root? root.head.name = some maker) :
    ∃ n, Xml.Amid n [root.toNode] ∧ Concerns cx.registry cx.locator o n := by
  cases hi with
  | root => exact ⟨root.toNode, .here List.mem_cons_self, .root hmaker⟩
  | deeper _ hi =>
    obtain ⟨n, hn, hconcerns⟩ := hi.concerns rfl
    exact ⟨n, .under List.mem_cons_self hn, hconcerns⟩

/-- A resource that is asked for is one that the nodes refer to. -/
theorem Strikes.mem_targetsAll {ns : List Xml.Node} {i : Incident}
    (hi : Strikes cx site wraps ns w i) {t : Resource} {u : World} (ht : i = .asks t u) :
    t ∈ cx.registry.targetsAll cx.locator ns := by
  induction hi with
  | text => cases ht
  | element hi =>
    subst ht
    cases hi with
    | tag hattr hi =>
      rw [Registry.targetsAll, Registry.targets, hattr.1]
      cases hi with
      | call hr =>
        subst hr
        simp
      | description hr =>
        subst hr
        simp
  | deeper hattr hp _ hopen _ ih =>
    have hcloses := (closed_of_gives_plan hp).symm.trans hopen
    rw [Registry.targetsAll, Registry.targets, hattr.1]
    simp [hcloses, ih ht]
  | later _ _ ih =>
    rw [Registry.targetsAll]
    exact List.mem_append_right _ (ih ht)

/-- What is made before a resource is asked for leaves the resources as they are. -/
theorem Strikes.grows
    (hrefer : ∀ {name t}, cx.locator.get? name = some t →
      Sat (fun _ => World.Grows) (cx.refer t) fun _ => True)
    {ns : List Xml.Node} {i : Incident} (hi : Strikes cx site wraps ns w i) {t : Resource}
    {u : World} (ht : i = .asks t u) : w.Grows u := by
  induction hi with
  | text => cases ht
  | element hi =>
    subst ht
    cases hi with
    | tag _ hi =>
      cases hi with
      | call => exact grows_law.refl _
      | description => exact grows_law.refl _
  | @deeper site wraps h children ns w w₁ i r p pushed hattr hp _ _ _ ih =>
    have hplan := (sat_plan grows_law.steps (cx.spot site wraps h) h children
      (cx.registry.makes_any.tags hattr.1)
      (fun t ht => hrefer (Registry.resolve?_target hattr.1 ht).2) w).1
    rw [hp] at hplan
    exact grows_law.trans hplan (ih ht)
  | @later site wraps n ns w w₁ i t? hn _ ih =>
    have hnode := (sat_node grows_law.steps hrefer cx.registry.makes_any site wraps n w).1
    rw [hn] at hnode
    exact grows_law.trans hnode (ih ht)

end Assembly

/-! ### Resources -/

namespace Setup

open Parse Assembly

variable {st : Setup} {w u : World} {r t : Resource} {depth d : Nat} {e : ParseError}

/-- A resource that is asked for is parsed anew: its document is read and its root is known. -/
structure Begins (st : Setup) (w : World) (r : Resource) (root : Xml.Element) (maker : RootMaker) :
    Prop where
  anew : Anew w r false
  present : w.storage.isPresent r = true
  reads : w.Reads r root
  known : st.registry.root? root.head.name = some maker

/-- The first thing that goes wrong when the document of a resource is made a program. -/
def Spoiled (st : Setup) (depth : Nat) (r : Resource) (w : World) (i : Incident) : Prop :=
  ∃ root maker, st.Begins w r root maker ∧
    Spoils (st.during depth w.locator r) root (w.begun r root) maker i

/-- Asking for a resource in a world leads to asking for another one in another world: each
document on the way is made up to the reference to the next. The numbers say how deep resources may
nest from there on. -/
inductive Leads (st : Setup) : Nat → Resource → World → Nat → Resource → World → Prop where
  /-- There is no reference on the way. -/
  | here (depth : Nat) (r : Resource) (w : World) : Leads st depth r w depth r w
  /-- The first document asks for a resource. -/
  | next {depth d : Nat} {r s t : Resource} {w v u : World} :
      st.Spoiled depth r w (.asks s v) → Leads st depth s v d t u →
      Leads st (depth + 1) r w d t u

/-- Asking for a resource comes upon an offence in the document of another one. -/
def Meets (st : Setup) (depth : Nat) (r : Resource) (w : World) (t : Resource) (o : Offence) :
    Prop :=
  ∃ d u, st.Leads depth r w (d + 1) t u ∧ st.Spoiled d t u (.offence o)

/-- A refusal comes from the document of the resource that is asked for. -/
theorem fails_parseWith_iff {assemble : Xml.Element → RootMaker → Parse Program}
    (he : e.isRefusal = true) :
    Fails (st.parseWith assemble r false) w e ↔ ∃ root maker, st.Begins w r root maker ∧
      Fails (assemble root maker) (w.begun r root) e := by
  rcases hx : (st.parseWith assemble r false).run.run w with ⟨o, v⟩
  have hasked := asked_of_run hx
  rw [Fails, hx]
  constructor
  · rintro rfl
    cases hasked with
    | unread _ _ _ hunread =>
      cases e with
      | tag => cases hunread
      | _ => cases he
    | failed hanew hpresent hreads hknown hp =>
      exact ⟨_, _, ⟨hanew, hpresent, hreads, hknown⟩, congrArg Prod.fst hp⟩
  · rintro ⟨root, maker, hbegins, hfails⟩
    cases hasked with
    | underway hprog => cases hbegins.anew.idle.symm.trans hprog
    | kept _ _ hfresh => cases (hbegins.anew.stale rfl).symm.trans hfresh
    | absent _ habsent => cases hbegins.present.symm.trans habsent
    | unread _ _ hnone => exact absurd hbegins.reads (hnone root)
    | ignored _ _ hreads hnone =>
      obtain rfl := hbegins.reads.unique hreads
      cases hbegins.known.symm.trans hnone
    | made _ _ hreads hknown hp =>
      obtain rfl := hbegins.reads.unique hreads
      obtain rfl := Option.some.inj (hbegins.known.symm.trans hknown)
      exact absurd hfails (Gives.not_fails hp)
    | failed _ _ hreads hknown hp =>
      obtain rfl := hbegins.reads.unique hreads
      obtain rfl := Option.some.inj (hbegins.known.symm.trans hknown)
      rw [Fails, hp] at hfails
      cases hfails
      rfl

theorem fails_parseIn_iff (he : e.isRefusal = true) :
    Fails (st.parseIn (depth + 1) r false) w e ↔
      ∃ i, st.Spoiled depth r w i ∧ i.Raises (st.during depth w.locator r) e := by
  rw [parseIn_succ, fails_parseWith_iff he]
  constructor
  · rintro ⟨root, maker, hbegins, hfails⟩
    obtain ⟨i, hi, hraises⟩ := fails_document_iff.1 (fails_get_bind.1 hfails)
    exact ⟨i, ⟨root, maker, hbegins, hi⟩, hraises⟩
  · rintro ⟨i, ⟨root, maker, hbegins, hi⟩, hraises⟩
    exact ⟨root, maker, hbegins, fails_get_bind.2 (fails_document_iff.2 ⟨i, hi, hraises⟩)⟩

/-- **Asking for a resource is refused exactly for an offence that it comes upon, and with the error
that is the offence's own, however many documents refer to each other on the way.** -/
theorem refused_iff (he : e.isRefusal = true) :
    Fails (st.parseIn depth r false) w e ↔
      ∃ t o, st.Meets depth r w t o ∧ e = o.error t.path := by
  constructor
  · intro hfails
    -- Each reference on the way uses up one level of depth.
    induction depth generalizing r w with
    | zero =>
      obtain ⟨root, maker, -, hfails⟩ := (fails_parseWith_iff he).1 hfails
      cases hfails
      cases he
    | succ depth ih =>
      obtain ⟨i, hi, hraises⟩ := (fails_parseIn_iff he).1 hfails
      cases i with
      | offence o => exact ⟨r, o, ⟨depth, w, .here _ r w, hi⟩, hraises⟩
      | asks s v =>
        obtain ⟨t, o, ⟨d, u, hleads, ho⟩, heq⟩ := ih hraises
        exact ⟨t, o, ⟨d, u, .next hi hleads, ho⟩, heq⟩
  · rintro ⟨t, o, ⟨d, u, hleads, ho⟩, heq⟩
    generalize hd : d + 1 = d' at hleads
    induction hleads with
    | here =>
      subst hd
      exact (fails_parseIn_iff he).2 ⟨.offence o, ho, heq⟩
    | next hi _ ih => exact (fails_parseIn_iff he).2 ⟨_, hi, ih heq ho hd⟩

theorem refused_load_iff {name : String} (he : e.isRefusal = true) :
    Fails (st.load name) w e ↔ ∃ r, w.locator.get? name = some r ∧
      Fails (st.parseIn (w.locator.length + 1) r false) w.idle e := by
  constructor
  · intro hfails
    obtain rfl | ⟨r, hr, rfl | hparse⟩ := fails_load hfails
    · cases he
    · cases he
    · exact ⟨r, hr, hparse⟩
  · rintro ⟨r, hr, hparse⟩
    unfold load parse
    rw [fails_get_bind]
    simp only [hr]
    exact fails_bind.2 (.inl hparse)

theorem refers_congr {v : World} (hstorage : v.storage = w.storage)
    (hlocator : v.locator = w.locator) : st.Refers v = st.Refers w := by
  unfold Refers World.Reads
  rw [hstorage, hlocator]

/-- On the way resources stay as they are, and each document refers to the next. -/
theorem Leads.refers (h : st.Leads depth r w d t u) :
    u.storage = w.storage ∧ u.locator = w.locator ∧
      Relation.ReflTransGen (st.Refers w) r t := by
  induction h with
  | here => exact ⟨rfl, rfl, .refl⟩
  | @next depth d r s t w v u hi _ ih =>
    obtain ⟨root, maker, hbegins, hspoils⟩ := hi
    obtain ⟨hstorage, hlocator, hrefers⟩ := ih
    cases hspoils with
    | deeper _ hstrikes =>
      have hgrows := hstrikes.grows (fun _ u => ⟨st.grows_parseIn depth _ false u, by simp⟩) rfl
      have hstep : st.Refers w r s := ⟨root, hbegins.reads, hstrikes.mem_targetsAll rfl⟩
      rw [refers_congr hgrows.storage hgrows.locator] at hrefers
      exact ⟨hstorage.trans hgrows.storage, hlocator.trans hgrows.locator, .head hstep hrefers⟩

/-- An offence that is come upon concerns a node of a document that references lead to. -/
theorem Meets.concerns {o : Offence} (h : st.Meets depth r w t o) :
    Relation.ReflTransGen (st.Refers w) r t ∧ ∃ root n, w.Reads t root ∧
      Xml.Amid n [root.toNode] ∧ Concerns st.registry w.locator o n := by
  obtain ⟨d, u, hleads, root, maker, hbegins, hspoils⟩ := h
  obtain ⟨hstorage, hlocator, hrefers⟩ := hleads.refers
  obtain ⟨n, hn, hconcerns⟩ := hspoils.concerns hbegins.known
  refine ⟨hrefers, root, n, ?_, hn, hlocator ▸ hconcerns⟩
  have hreads := hbegins.reads
  rwa [World.Reads, hstorage] at hreads

/-- **A failure to make tags is reported where it happened.** Asking for a resource by its name
fails to make tags exactly if it comes upon an offence in some document, which may be any number of
references away; and the error is that of the offence in this document. The document is one that
references lead to, and the error names a node of it as `Concerns` says: the culprit, unless that is
a child of a call and stands for no tag. -/
theorem load_reports (st : Setup) (w : World) (name tag : String) (line : Nat)
    (path detail : String) :
    (Fails (st.load name) w (.tag tag line path detail) ↔ ∃ r, w.locator.get? name = some r ∧
      ∃ t o, st.Meets (w.locator.length + 1) r w.idle t o ∧ path = t.path ∧
        tag = o.reported.name ∧ line = o.reported.line ∧ detail = o.detail) ∧
    ∀ r t o, st.Meets (w.locator.length + 1) r w.idle t o →
      Relation.ReflTransGen (st.Refers w) r t ∧ ∃ root n, w.Reads t root ∧
        Xml.Amid n [root.toNode] ∧ Concerns st.registry w.locator o n := by
  refine ⟨?_, fun r t o h => h.concerns⟩
  rw [refused_load_iff rfl]
  refine exists_congr fun r => and_congr_right fun _ => ?_
  rw [refused_iff rfl]
  refine exists_congr fun t => exists_congr fun o => and_congr_right fun _ => ?_
  rw [Offence.error, ParseError.tag.injEq]
  constructor
  · rintro ⟨htag, hline, hpath, hdetail⟩
    exact ⟨hpath, htag, hline, hdetail⟩
  · rintro ⟨hpath, htag, hline, hdetail⟩
    exact ⟨htag, hline, hpath, hdetail⟩

/-- A document that refers to another one, in which an element stands for no tag. -/
def secondHand : World :=
  (({} : World).registerMemory 0 "outer" "<scenario>\n<log/>\n<inner/>\n</scenario>"
    true).registerMemory 0 "inner"
      "<scenario>\n<nope xmlns='urn:tagflow:command'/>\n</scenario>" true

theorem load_reports_referred :
    let st : Setup := { registry := Builtin.registry }
    let detail := "Unknown tag <nope> in namespace urn:tagflow:command"
    Fails (st.load "outer") secondHand (.tag "nope" 2 "mem:inner" detail) ∧
      ∃ r t o, secondHand.locator.get? "outer" = some r ∧
        st.Meets (secondHand.locator.length + 1) r secondHand.idle t o ∧ t.path = "mem:inner" ∧
        o.reported.name = "nope" ∧ o.reported.line = 2 ∧
        Relation.ReflTransGen (st.Refers secondHand) r t := by
  intro st detail
  have hfails : Fails (st.load "outer") secondHand (.tag "nope" 2 "mem:inner" detail) := by
    decide +kernel
  obtain ⟨hreports, hconcerns⟩ := load_reports st secondHand "outer" "nope" 2 "mem:inner" detail
  obtain ⟨r, hr, t, o, hmeets, hpath, htag, hline, -⟩ := hreports.1 hfails
  exact ⟨hfails, r, t, o, hr, hmeets, hpath.symm, htag.symm, hline.symm,
    (hconcerns r t o hmeets).1⟩

/-- A document in which an element stands for no tag, on the third line, inside of another one. -/
def stray (opening closing : String) : World :=
  ({} : World).registerMemory 0 "main" ("<scenario xmlns:c=\"urn:tagflow:command\">\n" ++ opening ++
    "\n<c:nope/>\n" ++ closing ++ "\n</scenario>") true

/-- Inside of a branch the element is named itself, but inside of a call the call is. -/
theorem load_names_call :
    let st : Setup := { registry := Builtin.registry }
    let detail := "Unknown tag <nope> in namespace urn:tagflow:command"
    Fails (st.load "main") (stray "<if test='a'>" "</if>") (.tag "nope" 3 "mem:main" detail) ∧
      Fails (st.load "main") (stray "<log>" "</log>") (.tag "log" 2 "mem:main" detail) := by
  decide +kernel

end Setup

end Scenario
