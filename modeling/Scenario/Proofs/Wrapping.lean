import Scenario.Proofs.Loading

/-!
# Blocks inside a branch that always runs

Some nodes of a document that stand beside each other are put into an element of their own, an `if`
whose condition is `true`. `Registry.Wrapped` relates the nodes of both documents, `Alike` the
instructions that they become.
-/

namespace Scenario

/-! ### Texts that see bindings only -/

/-- What a compiled text gives in a scope depends on the bindings that can be seen there. -/
def Compiled.Blind (c : Compiled) : Prop :=
  ∀ (a a' : Arena) (s : ScopeId), (∀ id, a'.get? s id = a.get? s id) → c.eval a' s = c.eval a s

/-- Templates see nothing but bindings. -/
theorem Evaluator.blind_of_compile {source : String} {c : Compiled}
    (h : template.compileNamed source = .ok c) : c.Blind := by
  intro a a' s hget
  unfold compileNamed template at h
  dsimp only at h
  cases ht : Template.compile source with
  | error e =>
    rw [ht] at h
    cases h
  | ok t =>
    rw [ht] at h
    cases h
    have henv : a'.get? s = a.get? s := funext hget
    simp only [Template.evalIn, henv]

/-- The text of a condition that always holds. -/
def alwaysTrue : String := "${true}"

/-- Whether a template is the literal `true`. -/
def Template.isTrue (t : Template) : Bool :=
  match t.segments with
  | [.expr (.lit (.bool true))] => true
  | _ => false

theorem Template.eval_of_isTrue {t : Template} (h : t.isTrue = true)
    (env : String → Option Value) : t.eval env = .bool true := by
  unfold isTrue at h
  split at h
  · rename_i hsegments
    simp only [eval, hsegments]
    rfl
  · cases h

theorem Evaluator.compile_alwaysTrue : ∃ c, template.compileNamed alwaysTrue = .ok c ∧
    ∀ a s, c.eval a s = .ok (.bool true) := by
  have h : (Template.compile alwaysTrue).toOption.any Template.isTrue = true := by decide +kernel
  cases ht : Template.compile alwaysTrue with
  | error e =>
    rw [ht] at h
    cases h
  | ok t =>
    rw [ht] at h
    refine ⟨⟨t.source, fun a s => .ok (t.evalIn a s)⟩, ?_, fun a s => ?_⟩
    · simp only [compileNamed, template, ht]
      rfl
    · exact congrArg Except.ok (Template.eval_of_isTrue h _)

/-! ### Instructions -/

/-- The compiled texts of a tag see bindings only. -/
def Tag.Blind : Tag → Prop
  | .expression e => e.Blind
  | .mutex name timeout => (∀ e ∈ name, e.Blind) ∧ ∀ e ∈ timeout, e.Blind
  | _ => True

/-- An instruction below the root of a document that uses the built-in tags and templates only. -/
structure Instruction.Plain (i : Instruction) : Prop where
  inner : Builtin.Inner i.tag
  tag : i.tag.Blind
  guard : ∀ g ∈ i.guard, g.test.Blind
  binding : ∀ b ∈ i.binding, b.expr.Blind

/-- A branch that runs whatever the scopes are. -/
structure Instruction.Always (i : Instruction) : Prop where
  tag : i.tag = .conditional
  binding : i.binding = none
  guard : ∃ g, i.guard = some g ∧ ∀ a s, g.allows a s = .ok true

/-- The second list is the first one with some blocks put into branches that always run. The flag
tells whether an alternative may come first; a block never begins with one and is never followed
by one. -/
inductive Alike {α : Type} (f : α → Instruction) : Bool → List (Tree α) → List (Tree α) → Prop where
  | nil {o : Bool} : Alike f o [] []
  | cons {o : Bool} {x x' : α} {cs cs' ts ts' : List (Tree α)} (hx : f x' = f x)
      (hplain : (f x).Plain) (halt : (f x).tag = .alternative → o = true)
      (hcs : Alike f false cs cs') (hts : Alike f (Assembly.opensAlternative (f x)) ts ts') :
      Alike f o (.node x cs :: ts) (.node x' cs' :: ts')
  | block {o : Bool} {y : α} {bs bs' ts ts' : List (Tree α)} (hy : (f y).Always) (hne : bs ≠ [])
      (hbs : Alike f false bs bs') (hts : Alike f false ts ts') :
      Alike f o (bs ++ ts) (.node y bs' :: ts')

theorem Tree.numberAll_append {α : Type} (n : Nat) (ts us : List (Tree α)) :
    numberAll n (ts ++ us) = numberAll n ts ++ numberAll (n + sizeAll ts) us := by
  induction ts generalizing n with
  | nil => simp [numberAll, sizeAll]
  | cons t ts ih => simp [numberAll, sizeAll, ih, Nat.add_assoc]

/-- Numbering does not matter. -/
theorem Alike.number {α : Type} {f : α → Instruction} {o : Bool} {ts ts' : List (Tree α)}
    (h : Alike f o ts ts') (n n' : Nat) :
    Alike (fun x => f x.2) o (Tree.numberAll n ts) (Tree.numberAll n' ts') := by
  induction h generalizing n n' with
  | nil => exact .nil
  | cons hx hplain halt _ _ ihcs ihts =>
    simp only [Tree.numberAll, Tree.numberFrom]
    exact .cons hx hplain halt (ihcs _ _) (ihts _ _)
  | @block o y bs bs' ts ts' hy hne _ _ ihbs ihts =>
    rw [Tree.numberAll_append]
    simp only [Tree.numberAll, Tree.numberFrom]
    refine .block hy ?_ (ihbs _ _) (ihts _ _)
    cases bs with
    | nil => exact absurd rfl hne
    | cons b bs => simp [Tree.numberAll]

/-! ### Nodes -/

/-- Whether children that are calls become parameters of the tag. -/
def Maker.takesCalls : Maker → Bool
  | bean _ | invoke => true
  | _ => false

namespace Registry

variable (reg : Registry) (l : Locator)

/-- A property of the tag that an element stands for, if it stands for one. -/
def stands (h : Xml.Head) (p : Maker → Bool) : Bool :=
  ((reg.resolve? l h.ns h.name).map fun r => p r.maker).getD false

/-- Whether a tag is an alternative. -/
def isElse : Maker → Bool
  | .alternative => true
  | _ => false

/-- Whether the first node that counts is an alternative. -/
def startsWithElse : List Xml.Node → Bool
  | [] => false
  | .text s _ :: ns => Text.isBlankText s && startsWithElse ns
  | .element h _ :: _ => reg.stands l h isElse

/-- Whether a node counts: blank texts do not. -/
def counts : Xml.Node → Bool
  | .text s _ => !Text.isBlankText s
  | .element _ _ => true

/-- Whether a node would become a parameter if it stood directly inside a call. -/
def isCallNode : Xml.Node → Bool
  | .text s _ => !Text.isBlankText s
  | .element h _ => reg.stands l h fun m => m.kind == .invoker

/-- An `if` whose condition always holds. -/
def IsAlways (h : Xml.Head) : Prop :=
  reg.resolve? l h.ns h.name = some { maker := .conditional } ∧ h.attr? "test" = some alwaysTrue

/-- The second list of nodes is the first one with some blocks put into an `if` that always runs.
A block holds a node that counts; it neither begins with an `else` nor is followed by one; and
directly inside a call, which the flag tells, it holds no call. -/
inductive Wrapped : Bool → List Xml.Node → List Xml.Node → Prop where
  | nil {c : Bool} : Wrapped c [] []
  | text {c : Bool} {s : String} {line : Nat} {ns ns' : List Xml.Node} (hns : Wrapped c ns ns') :
      Wrapped c (.text s line :: ns) (.text s line :: ns')
  | element {c : Bool} {h : Xml.Head} {cs cs' ns ns' : List Xml.Node}
      (hclosed : reg.stands l h Maker.closes = true → cs' = cs)
      (hcs : Wrapped (reg.stands l h Maker.takesCalls) cs cs') (hns : Wrapped c ns ns') :
      Wrapped c (.element h cs :: ns) (.element h cs' :: ns')
  | block {c : Bool} {h : Xml.Head} {bs bs' ns ns' : List Xml.Node} (hh : reg.IsAlways l h)
      (hcounts : bs.any counts = true) (hfirst : reg.startsWithElse l bs = false)
      (hnext : reg.startsWithElse l ns = false)
      (hcalls : c = true → bs.any (reg.isCallNode l) = false)
      (hbs : Wrapped false bs bs') (hns : Wrapped c ns ns') :
      Wrapped c (bs ++ ns) (.element h bs' :: ns')

variable {reg l}

mutual

theorem wrapped_cons_self : ∀ (n : Xml.Node) {c : Bool} {ns ns' : List Xml.Node},
    reg.Wrapped l c ns ns' → reg.Wrapped l c (n :: ns) (n :: ns')
  | .text _ _, _, _, _, h => .text h
  | .element _ cs, _, _, _, h => .element (fun _ => rfl) (wrapped_self cs _) h

/-- Nothing need be wrapped. -/
theorem wrapped_self : ∀ (ns : List Xml.Node) (c : Bool), reg.Wrapped l c ns ns
  | [], _ => .nil
  | n :: ns, c => wrapped_cons_self n (wrapped_self ns c)

end

theorem targetsAll_append (ns ms : List Xml.Node) :
    reg.targetsAll l (ns ++ ms) = reg.targetsAll l ns ++ reg.targetsAll l ms := by
  induction ns with
  | nil => simp [targetsAll]
  | cons n ns ih => simp [targetsAll, ih]

/-- Wrapping changes nothing about the resources that are referred to. -/
theorem Wrapped.targetsAll_eq {c : Bool} {ns ns' : List Xml.Node} (h : reg.Wrapped l c ns ns') :
    reg.targetsAll l ns' = reg.targetsAll l ns := by
  induction h with
  | nil => rfl
  | text _ ih => simp only [targetsAll, targets, ih]
  | @element c h cs cs' ns ns' hclosed _ _ ihcs ihns =>
    simp only [targetsAll, targets, ihns, ihcs]
  | @block c h bs bs' ns ns' hh _ _ _ _ _ _ ihbs ihns =>
    rw [targetsAll_append, targetsAll, targets, hh.1, ihns, ihbs]
    simp [Maker.closes]

end Registry

/-- The place behind an instruction. -/
def Site.after (site : Site) (previous : Option Instruction) : Site := { site with previous }

namespace Assembly

open Parse

variable {cx : Assembly} {site : Site} {wraps : Bool} {w w' : World}

/-! ### Several nodes -/

theorem gives_nodes_append {ns ms : List Xml.Node} {ts : List (Tree Instruction)} :
    Gives (cx.nodes site wraps (ns ++ ms)) w ts w' ↔
      ∃ ts₁ ts₂ w₁, Gives (cx.nodes site wraps ns) w ts₁ w₁ ∧
        Gives (cx.nodes { site with previous := (ts₁.getLast?.map Tree.label).or site.previous }
          wraps ms) w₁ ts₂ w' ∧ ts = ts₁ ++ ts₂ := by
  induction ns generalizing site w ts with
  | nil =>
    rw [List.nil_append]
    constructor
    · intro h
      refine ⟨[], ts, w, ?_, h, rfl⟩
      rw [nodes]
      rfl
    · rintro ⟨ts₁, ts₂, w₁, h₁, h₂, rfl⟩
      rw [nodes] at h₁
      obtain ⟨rfl, rfl⟩ := gives_pure.1 h₁
      exact h₂
  | cons n ns ih =>
    rw [List.cons_append, gives_nodes_cons]
    -- the instruction in front of the second part is the last one of the first part, if any
    have hlast : ∀ (t? : Option (Tree Instruction)) (ts : List (Tree Instruction)),
        ((t?.toList ++ ts).getLast?.map Tree.label).or site.previous =
          (ts.getLast?.map Tree.label).or ((t?.map Tree.label).or site.previous) := by
      intro t? ts
      cases t? with
      | none => simp
      | some t => cases h : ts.getLast? <;> simp [List.getLast?_cons, h]
    constructor
    · rintro ⟨t?, ts', w₁, ht, hts, rfl⟩
      obtain ⟨ts₁, ts₂, w₂, h₁, h₂, rfl⟩ := ih.1 hts
      refine ⟨t?.toList ++ ts₁, ts₂, w₂, gives_nodes_cons.2 ⟨t?, ts₁, w₁, ht, h₁, rfl⟩, ?_,
        (List.append_assoc _ _ _).symm⟩
      rw [hlast]
      exact h₂
    · rintro ⟨ts₁, ts₂, w₂, h₁, h₂, rfl⟩
      obtain ⟨t?, ts', w₁, ht, hts, rfl⟩ := gives_nodes_cons.1 h₁
      rw [hlast] at h₂
      exact ⟨t?, ts' ++ ts₂, w₁, ht, ih.2 ⟨ts', ts₂, w₂, hts, h₂, rfl⟩, List.append_assoc _ _ _⟩

/-- Where nothing is a call, it does not matter whether calls become parameters. -/
theorem nodes_eq_of_no_calls {bs : List Xml.Node}
    (h : bs.any (cx.registry.isCallNode cx.locator) = false) :
    cx.nodes site true bs = cx.nodes site false bs := by
  induction bs generalizing site with
  | nil => rw [nodes, nodes]
  | cons n ns ih =>
    rw [List.any_cons, Bool.or_eq_false_iff] at h
    have hnode : cx.node site true n = cx.node site false n := by
      cases n with
      | text s line =>
        have hblank : Text.isBlankText s = true := by simpa [Registry.isCallNode] using h.1
        rw [node, node]
        simp only [hblank, if_true]
      | element hd cs =>
        have hcall : cx.isCall hd = false := h.1
        rw [node_element, node_element]
        simp only [spot, dressed, within, hcall, Bool.and_false]
    rw [nodes, nodes, hnode]
    refine bind_congr fun t? => ?_
    cases t? with
    | none => exact ih h.2
    | some t => exact congrArg (· >>= _) (ih h.2)

/-- If nodes become instructions, all elements among them stand for tags. -/
theorem gives_checkChildren_of_nodes (h : Xml.Head) {ns : List Xml.Node}
    {ts : List (Tree Instruction)} (hns : Gives (cx.nodes site wraps ns) w ts w') (u : World) :
    Gives (cx.checkChildren h ns) u () u := by
  induction ns generalizing site w ts with
  | nil => rfl
  | cons n ns ih =>
    obtain ⟨t?, ts', w₁, ht, hts, -⟩ := gives_nodes_cons.1 hns
    cases n with
    | text s line => exact ih hts
    | element hd cs =>
      obtain ⟨r, -, -, -, -, -, -, hr, -⟩ := gives_element_iff.1 ht
      exact gives_bind.2 ⟨r, u, gives_orRefuse.2 ⟨Registry.resolve_eq_ok.2 hr, rfl⟩, ih hts⟩

/-! ### What an element becomes -/

/-- Whether an alternative may follow. -/
def opens (previous : Option Instruction) : Bool := (previous.map opensAlternative).getD false

/-- What is to be known of the plan of an element with a built-in tag. -/
structure Settled (previous : Option Instruction) (m : Maker) (p : Plan) : Prop where
  wraps : p.wraps = m.takesCalls
  closed : p.closed = m.closes
  inner : Builtin.Inner p.tag
  blind : p.tag.Blind
  alternative : p.tag = .alternative → m = .alternative ∧ opens previous = true

theorem blind_of_gives_compile (heval : cx.evaluator = .template) {h : Xml.Head}
    {source : Option String} {c? : Option Compiled}
    (hc : Gives (source.mapM fun s => cx.orRefuse h (cx.evaluator.compileNamed s)) w c? w') :
    ∀ c ∈ c?, c.Blind := by
  rw [heval] at hc
  cases source with
  | none =>
    obtain ⟨rfl, -⟩ := gives_pure.1 hc
    simp
  | some s =>
    obtain ⟨c, w₁, hcompile, hpure⟩ := gives_bind.1 hc
    obtain ⟨rfl, -⟩ := gives_pure.1 hpure
    intro c' hc'
    cases hc'
    exact Evaluator.blind_of_compile (gives_orRefuse.1 hcompile).1

theorem settled_of_gives_plan (heval : cx.evaluator = .template) {h : Xml.Head}
    {children : List Xml.Node} {r : Resolved} {p : Plan} (hm : r.maker.Makes Builtin.Inner)
    (hp : Gives (cx.plan site h children r) w p w') : Settled site.previous r.maker p := by
  have hclosed := closed_of_gives_plan hp
  obtain ⟨maker, target⟩ := r
  unfold plan at hp
  cases maker with
  | data fallback =>
    obtain ⟨mode, w₁, -, hp⟩ := gives_bind.1 hp
    obtain ⟨rfl, -⟩ := gives_pure.1 hp
    exact ⟨rfl, hclosed, trivial, trivial, by simp⟩
  | literal =>
    obtain ⟨rfl, -⟩ := gives_pure.1 hp
    exact ⟨rfl, hclosed, trivial, trivial, by simp⟩
  | expression =>
    dsimp only at hp
    split at hp
    · obtain ⟨_, _, hno, -⟩ := gives_bind.1 hp
      exact absurd hno gives_throw
    · obtain ⟨e, w₁, he, hp⟩ := gives_bind.1 hp
      obtain ⟨rfl, -⟩ := gives_pure.1 hp
      rw [heval] at he
      exact ⟨rfl, hclosed, trivial, Evaluator.blind_of_compile (gives_orRefuse.1 he).1, by simp⟩
  | conditional =>
    dsimp only at hp
    split at hp
    · obtain ⟨_, _, hno, -⟩ := gives_bind.1 hp
      exact absurd hno gives_throw
    · obtain ⟨rfl, -⟩ := gives_pure.1 hp
      exact ⟨rfl, hclosed, trivial, trivial, by simp⟩
  | alternative =>
    dsimp only at hp
    split at hp
    · obtain ⟨_, _, hno, -⟩ := gives_bind.1 hp
      exact absurd hno gives_throw
    · rename_i hopens
      obtain ⟨rfl, -⟩ := gives_pure.1 hp
      exact ⟨rfl, hclosed, trivial, trivial, fun _ => ⟨rfl, by simpa [opens] using hopens⟩⟩
  | mutex =>
    obtain ⟨name, w₁, hname, hp⟩ := gives_bind.1 hp
    obtain ⟨timeout, w₂, htimeout, hp⟩ := gives_bind.1 hp
    obtain ⟨rfl, -⟩ := gives_pure.1 hp
    exact ⟨rfl, hclosed, trivial,
      ⟨blind_of_gives_compile heval hname, blind_of_gives_compile heval htimeout⟩, by simp⟩
  | bean b =>
    obtain ⟨_, w₁, -, hp⟩ := gives_bind.1 hp
    obtain ⟨rfl, -⟩ := gives_pure.1 hp
    exact ⟨rfl, hclosed, hm, trivial, by simp [callPlan]⟩
  | invoke =>
    obtain ⟨_, w₁, -, hp⟩ := gives_bind.1 hp
    cases target with
    | none => exact absurd hp gives_throw
    | some t =>
      obtain ⟨found, w₂, -, hp⟩ := gives_bind.1 hp
      cases found with
      | none => exact absurd hp gives_throw
      | some key =>
        obtain ⟨rfl, -⟩ := gives_pure.1 hp
        exact ⟨rfl, hclosed, trivial, trivial, by simp [callPlan]⟩
  | describe typeName => exact absurd (hm default) id
  | fixed typeName closed v whenSkipped => exact absurd (hm default) id

/-- An element with other children becomes the same, if it may stand where it does and its children
count in the same way. -/
theorem gives_plan_of_gives {site' : Site} {h : Xml.Head} {cs cs' : List Xml.Node} {r : Resolved}
    {p : Plan} (hm : r.maker.Makes Builtin.Inner) (hsite : site'.enclosing = site.enclosing)
    (halt : r.maker = .alternative → opens site'.previous = opens site.previous)
    (hclosed : r.maker.closes = true → cs' = cs)
    (hcheck : r.maker.takesCalls = true → Gives (cx.checkChildren h cs') w () w)
    (hp : Gives (cx.plan site h cs r) w p w') : Gives (cx.plan site' h cs' r) w p w' := by
  obtain ⟨maker, target⟩ := r
  unfold plan at hp ⊢
  cases maker with
  | data fallback =>
    dsimp only
    rw [hsite]
    exact hp
  | literal | expression =>
    obtain rfl : cs' = cs := hclosed rfl
    exact hp
  | conditional | mutex => exact hp
  | alternative =>
    have hopens : (site'.previous.map opensAlternative).getD false =
        (site.previous.map opensAlternative).getD false := halt rfl
    dsimp only
    rw [hopens]
    exact hp
  | bean b =>
    obtain ⟨_, -, hrest⟩ := (steady_checkChildren h cs).gives_bind_iff.1 hp
    exact gives_bind.2 ⟨(), w, hcheck rfl, hrest⟩
  | invoke =>
    obtain ⟨_, -, hrest⟩ := (steady_checkChildren h cs).gives_bind_iff.1 hp
    exact gives_bind.2 ⟨(), w, hcheck rfl, hrest⟩
  | describe typeName => exact absurd (hm default) id
  | fixed typeName closed v whenSkipped => exact absurd (hm default) id

/-! ### Instructions that are no elements -/

/-- An instruction that has nothing to do with alternatives. -/
structure Calm (i : Instruction) : Prop where
  plain : i.Plain
  notElse : i.tag ≠ .alternative
  opensNone : opensAlternative i = false

/-- A tree of such an instruction that is alike to itself. -/
def CalmTree (t : Tree Instruction) : Prop :=
  ∃ i cs, t = .node i cs ∧ Calm i ∧ Alike id false cs cs

theorem Calm.alike {i : Instruction} (hi : Calm i) {o : Bool}
    {cs cs' ts ts' : List (Tree Instruction)} (hcs : Alike id false cs cs')
    (hts : Alike id false ts ts') :
    Alike id o (.node i cs :: ts) (.node i cs' :: ts') := by
  refine .cons rfl hi.plain (fun h => absurd h hi.notElse) hcs ?_
  rw [id_eq, hi.opensNone]
  exact hts

theorem calm_data (name elementName : String) (line : Nat) (mode : DataMode) :
    Calm { name := elementName, line, tag := .data name mode false } :=
  ⟨⟨trivial, trivial, by simp, by simp⟩, by simp, rfl⟩

theorem calm_of_textLeaf (heval : cx.evaluator = .template) {text : String} {line : Nat}
    {t : Tree Instruction} (ht : Gives (cx.textLeaf text line) w t w') : CalmTree t := by
  obtain ⟨e, w₁, he, ht⟩ := gives_bind.1 ht
  obtain ⟨rfl, -⟩ := gives_pure.1 ht
  rw [heval] at he
  have hblind := Evaluator.blind_of_compile (gives_orRefuse.1 he).1
  exact ⟨_, [], rfl, ⟨⟨trivial, hblind, by simp, by simp⟩, by simp, rfl⟩, .nil⟩

theorem calm_of_attrLeaf (heval : cx.evaluator = .template) {enclosing : TagKind} {line : Nat}
    {a : Xml.Attr} {t : Tree Instruction} (ht : Gives (cx.attrLeaf enclosing line a) w t w') :
    CalmTree t := by
  obtain ⟨mode, w₁, -, ht⟩ := gives_bind.1 ht
  split at ht
  · obtain ⟨rfl, -⟩ := gives_pure.1 ht
    exact ⟨_, [], rfl, calm_data _ _ _ _, .nil⟩
  · obtain ⟨u, w₂, hu, ht⟩ := gives_bind.1 ht
    obtain ⟨rfl, -⟩ := gives_pure.1 ht
    obtain ⟨i, cs, rfl, hi, hcs⟩ := calm_of_textLeaf heval hu
    exact ⟨_, _, rfl, calm_data _ _ _ _, hi.alike hcs .nil⟩

theorem calm_of_mapM (heval : cx.evaluator = .template) {enclosing : TagKind} {line : Nat}
    {as : List Xml.Attr} {ts : List (Tree Instruction)}
    (hts : Gives (as.mapM (cx.attrLeaf enclosing line)) w ts w') : ∀ t ∈ ts, CalmTree t := by
  intro t ht
  obtain ⟨a, -, u, u', ha⟩ := exists_of_gives_mapM hts t ht
  exact calm_of_attrLeaf heval ha

theorem alike_append_of_calm {us ts ts' : List (Tree Instruction)} (hus : ∀ t ∈ us, CalmTree t)
    (hts : Alike id false ts ts') : Alike id false (us ++ ts) (us ++ ts') := by
  induction us with
  | nil => exact hts
  | cons u us ih =>
    obtain ⟨i, cs, rfl, hi, hcs⟩ := hus u (by simp)
    exact hi.alike hcs (ih fun t ht => hus t (by simp [ht]))

theorem opens_getLast_of_calm {us : List (Tree Instruction)} (hus : ∀ t ∈ us, CalmTree t) :
    opens (us.getLast?.map Tree.label) = false := by
  cases h : us.getLast? with
  | none => rfl
  | some u =>
    obtain ⟨i, cs, rfl, hi, -⟩ := hus u (List.mem_of_getLast? h)
    exact hi.opensNone

/-- An element that becomes a parameter or not. -/
theorem alike_dressed {h : Xml.Head} {i : Instruction} {o : Bool}
    {cs cs' ts ts' : List (Tree Instruction)} (hi : i.Plain)
    (halt : i.tag = .alternative → o = true ∧ (wraps && cx.isCall h) = false)
    (hcs : Alike id false cs cs')
    (hts : Alike id (opensAlternative (cx.dressed site wraps h (.node i cs)).label) ts ts') :
    Alike id o (cx.dressed site wraps h (.node i cs) :: ts)
      (cx.dressed site wraps h (.node i cs') :: ts') := by
  unfold dressed at hts ⊢
  split
  · rename_i hwrap
    rw [if_pos hwrap] at hts
    refine (calm_data _ _ _ _).alike ?_ hts
    exact .cons rfl hi (fun h => absurd hwrap (by simp [(halt h).2])) hcs .nil
  · rename_i hwrap
    rw [if_neg hwrap] at hts
    exact .cons rfl hi (fun h => (halt h).1) hcs hts

/-! ### Elements -/

theorem blind_of_binding (heval : cx.evaluator = .template) {h : Xml.Head} {attrs : TagAttrs}
    {id : Option ResultId} (hid : binding cx.evaluator h attrs = .ok id) :
    ∀ b ∈ id, b.expr.Blind := by
  rw [heval] at hid
  unfold binding at hid
  have hmap : ∀ {source name qualified},
      ((Evaluator.template.compileNamed source).map fun c => some ⟨c, name, qualified⟩) = .ok id →
        ∀ b ∈ id, b.expr.Blind := by
    intro source name qualified hid b hb
    cases hc : Evaluator.template.compileNamed source with
    | error e =>
      rw [hc] at hid
      cases hid
    | ok c =>
      rw [hc] at hid
      cases hid
      cases hb
      exact Evaluator.blind_of_compile hc
  split at hid
  · cases hid
    simp
  · dsimp only at hid
    split at hid
    · cases hid
      simp
    · split at hid
      · cases hid
      · exact hmap hid

theorem blind_of_guard (heval : cx.evaluator = .template) {h : Xml.Head} {attrs : TagAttrs}
    {cond : Option Guard} (hcond : guard cx.evaluator h attrs = .ok cond) :
    ∀ g ∈ cond, g.test.Blind := by
  rw [heval] at hcond
  unfold guard at hcond
  have hmap : ∀ {source negated},
      ((Evaluator.template.compileNamed source).map fun c => some ⟨c, negated⟩) = .ok cond →
        ∀ g ∈ cond, g.test.Blind := by
    intro source negated hcond g hg
    cases hc : Evaluator.template.compileNamed source with
    | error e =>
      rw [hc] at hcond
      cases hcond
    | ok c =>
      rw [hc] at hcond
      cases hcond
      cases hg
      exact Evaluator.blind_of_compile hc
  dsimp only at hcond
  split at hcond
  · cases hcond
  · exact hmap hcond
  · exact hmap hcond
  · cases hcond
    simp

theorem stands_eq {reg : Registry} {l : Locator} {h : Xml.Head} {r : Resolved}
    (hr : reg.resolve? l h.ns h.name = some r) (f : Maker → Bool) :
    reg.stands l h f = f r.maker := by
  rw [Registry.stands, hr]
  rfl

theorem closes_of_takesCalls {m : Maker} (h : m.takesCalls = true) : m.closes = false := by
  cases m with
  | bean _ | invoke => rfl
  | _ => cases h

theorem within_after (cx : Assembly) (site : Site) (pr pr' : Option Instruction) (wraps : Bool)
    (h : Xml.Head) (p : Plan) (us : List (Tree Instruction)) :
    cx.within (site.after pr') wraps h p us = cx.within (site.after pr) wraps h p us := by
  unfold within spot
  split <;> rfl

/-- Documents are made with the built-in tags and templates, and references are taken for
granted. -/
structure Standard (cx : Assembly) : Prop where
  registry : cx.registry = Builtin.registry
  evaluator : cx.evaluator = .template
  assumed : cx.assumed = cx

namespace Standard

theorem reference (hcx : Standard cx) : cx.registry.reference = .invoke := by
  rw [hcx.registry]
  rfl

theorem steady_plan (hcx : Standard cx) (site : Site) {h : Xml.Head} {r : Resolved}
    (hr : cx.registry.resolve? cx.locator h.ns h.name = some r) (cs : List Xml.Node) :
    Steady (cx.plan site h cs r) := by
  rw [← hcx.assumed]
  exact steady_assumed_plan h cs fun t ht =>
    (Registry.resolve?_target hr ht).1.trans hcx.reference

theorem steady_nodes (hcx : Standard cx) (site : Site) (wraps : Bool) (ns : List Xml.Node) :
    Steady (cx.nodes site wraps ns) := by
  rw [← hcx.assumed]
  exact steady_assumed_nodes hcx.reference site wraps ns

theorem steady_node (hcx : Standard cx) (site : Site) (wraps : Bool) (n : Xml.Node) :
    Steady (cx.node site wraps n) := by
  rw [← hcx.assumed]
  exact steady_assumed_node hcx.reference site wraps n

theorem makes (hcx : Standard cx) {h : Xml.Head} {r : Resolved}
    (hr : cx.registry.resolve? cx.locator h.ns h.name = some r) : r.maker.Makes Builtin.Inner := by
  rw [hcx.registry] at hr
  exact Builtin.registry_makes.tags hr

end Standard

/-- If an element becomes an instruction, so does the same element with other children and behind
another instruction; what is known of the children is a relation of their instructions. -/
theorem element_of_element (hcx : Standard cx) {h : Xml.Head} {cs cs' : List Xml.Node}
    {pr pr' : Option Instruction} {t? : Option (Tree Instruction)}
    {S : List (Tree Instruction) → List (Tree Instruction) → Prop}
    (halt : cx.registry.stands cx.locator h Registry.isElse = true → opens pr' = opens pr)
    (hclosed : cx.registry.stands cx.locator h Maker.closes = true → cs' = cs) (hS : S [] [])
    (hcs : ∀ (site : Site) (previous : Option Instruction) (rest : List (Tree Instruction)),
      opens previous = false →
      Gives (cx.nodes (site.after previous)
        (cx.registry.stands cx.locator h Maker.takesCalls) cs) w rest w →
      ∃ rest', Gives (cx.nodes (site.after previous)
        (cx.registry.stands cx.locator h Maker.takesCalls) cs') w rest' w ∧ S rest rest')
    (ht : Gives (cx.node (site.after pr) wraps (.element h cs)) w t? w) :
    ∃ i us rest rest', i.Plain ∧
      (i.tag = .alternative → cx.registry.stands cx.locator h Registry.isElse = true ∧
        opens pr = true ∧ (wraps && cx.isCall h) = false) ∧
      (∀ t ∈ us, CalmTree t) ∧ S rest rest' ∧
      t? = some (cx.dressed site wraps h (.node i (us ++ rest))) ∧
      Gives (cx.node (site.after pr') wraps (.element h cs')) w
        (some (cx.dressed site wraps h (.node i (us ++ rest')))) w := by
  obtain ⟨r, id, cond, p, us, rest, w₁, hr, hid, hcond, hp, hus, hrest, ht⟩ :=
    gives_element_iff.1 ht
  obtain ⟨hp, hw⟩ := (hcx.steady_plan _ hr cs).gives_iff.1 hp
  rw [hw] at hus hrest
  have hsettled := settled_of_gives_plan hcx.evaluator (hcx.makes hr) hp
  have hcalm := calm_of_mapM hcx.evaluator hus
  -- the children
  have hinner : ∃ rest',
      Gives (cx.inner (cx.within (site.after pr') wraps h p us) p cs') w rest' w ∧
        S rest rest' := by
    rw [within_after cx site pr pr' wraps h p us]
    unfold inner at hrest ⊢
    split at hrest
    · rename_i hp
      rw [if_pos hp]
      obtain ⟨rfl, -⟩ := gives_pure.1 hrest
      exact ⟨[], rfl, hS⟩
    · rename_i hp
      rw [if_neg hp]
      rw [hsettled.wraps, ← stands_eq hr Maker.takesCalls] at hrest ⊢
      exact hcs _ _ rest (opens_getLast_of_calm hcalm) hrest
  obtain ⟨rest', hrest', hrel⟩ := hinner
  -- the tag
  have hspot : (cx.spot (site.after pr') wraps h).enclosing =
      (cx.spot (site.after pr) wraps h).enclosing := by
    unfold spot
    split <;> rfl
  have hplan : Gives (cx.plan (cx.spot (site.after pr') wraps h) h cs' r) w p w := by
    refine gives_plan_of_gives (hcx.makes hr) hspot ?_ ?_ ?_ hp
    · intro hmaker
      have helse := halt (by rw [stands_eq hr, hmaker]; rfl)
      unfold spot
      split
      · rfl
      · exact helse
    · intro hcloses
      exact hclosed (by rw [stands_eq hr, hcloses])
    · intro htakes
      have hopen : p.closed = false := hsettled.closed.trans (closes_of_takesCalls htakes)
      unfold inner at hrest'
      rw [hopen] at hrest'
      exact gives_checkChildren_of_nodes h hrest' w
  refine ⟨_, us, rest, rest', ?_, ?_, hcalm, hrel, ht, gives_element_iff.2
    ⟨r, id, cond, p, us, rest', w, hr, hid, hcond, hplan, ?_, hrest', rfl⟩⟩
  · exact ⟨hsettled.inner, hsettled.blind, blind_of_guard hcx.evaluator hcond,
      blind_of_binding hcx.evaluator hid⟩
  · intro htag
    obtain ⟨hmaker, hopens⟩ := hsettled.alternative htag
    unfold spot at hopens
    split at hopens
    · cases hopens
    · rename_i hwrap
      exact ⟨by rw [stands_eq hr, hmaker]; rfl, hopens, by simpa using hwrap⟩
  · rw [hspot]
    exact hus

/-- An `if` whose condition always holds becomes a branch that always runs, around what its children
become. -/
theorem gives_always_iff (hcx : Standard cx) {h : Xml.Head}
    (hh : cx.registry.IsAlways cx.locator h) :
    ∃ i : Instruction, i.Always ∧ ∀ (site : Site) (pr : Option Instruction) (wraps : Bool)
      (bs : List Xml.Node) (t? : Option (Tree Instruction)) (w : World),
      Gives (cx.node (site.after pr) wraps (.element h bs)) w t? w ↔
        ∃ ts, Gives (cx.nodes (site.after none) false bs) w ts w ∧ t? = some (.node i ts) := by
  obtain ⟨hr, htest⟩ := hh
  obtain ⟨c, hc, htrue⟩ := Evaluator.compile_alwaysTrue
  have hguard : guard cx.evaluator h TagAttrs.branch = .ok (some ⟨c, false⟩) := by
    simp [guard, TagAttrs.branch, htest, hcx.evaluator, hc, Except.map]
  have hcall : cx.isCall h = false := by simp [isCall, hr, Maker.kind]
  refine ⟨{ name := h.name, line := h.line, guard := some ⟨c, false⟩, tag := .conditional },
    ⟨rfl, rfl, _, rfl, fun a s => ?_⟩, fun site pr wraps bs t? w => ?_⟩
  · simp [Guard.allows, Compiled.truth, htrue, Except.map, Value.isTruthy]
  have hplan : ∀ {site : Site} {p : Plan} {w' : World},
      Gives (cx.plan site h bs { maker := .conditional }) w p w' ↔
        p = { tag := .conditional } ∧ w' = w := by
    intro site p w'
    unfold plan
    simp only [htest, Option.isNone_some, Bool.false_eq_true, if_false]
    exact gives_pure
  have hspot : cx.spot (site.after pr) wraps h = site.after pr := by
    simp [spot, hcall]
  have hdressed : ∀ t, cx.dressed (site.after pr) wraps h t = t := by
    intro t
    simp [dressed, hcall]
  have hwithin :
      cx.within (site.after pr) wraps h { tag := .conditional } [] = site.after none := by
    rw [within, hspot]
    rfl
  rw [gives_element_iff]
  constructor
  · rintro ⟨r, id, cond, p, us, rest, w₁, hr', hid, hcond, hp, hus, hrest, rfl⟩
    obtain rfl : _ = r := Option.some.inj (hr.symm.trans hr')
    obtain rfl : none = id := Except.ok.inj hid
    obtain rfl : some ⟨c, false⟩ = cond := Except.ok.inj (hguard.symm.trans hcond)
    obtain ⟨rfl, rfl⟩ := hplan.1 hp
    obtain rfl : us = [] := (gives_pure.1 hus).1
    rw [hwithin] at hrest
    exact ⟨rest, hrest, by rw [hdressed]; rfl⟩
  · rintro ⟨ts, hts, rfl⟩
    refine ⟨_, none, _, _, [], ts, w, hr, rfl, hguard, hplan.2 ⟨rfl, rfl⟩, rfl, ?_, ?_⟩
    · rw [hwithin]
      exact hts
    · rw [hdressed]
      rfl

/-! ### Documents -/

/-- The instructions in front of two lists of nodes agree as far as it matters: on whether an
alternative may follow, or no alternative comes first. -/
def Fronts (cx : Assembly) (o : Bool) (pr pr' : Option Instruction) (ns : List Xml.Node) : Prop :=
  (opens pr = o ∧ opens pr' = o) ∨ (cx.registry.startsWithElse cx.locator ns = false ∧ o = false)

/-- Two steps give related results, if they give any. -/
structure Match {α β : Type} (R : α → β → Prop) (w : World) (x : Parse α) (y : Parse β) : Prop where
  right : ∀ a, Gives x w a w → ∃ b, Gives y w b w ∧ R a b
  left : ∀ b, Gives y w b w → ∃ a, Gives x w a w ∧ R a b

theorem gives_cons_iff (hcx : Standard cx) {pr : Option Instruction} {n : Xml.Node}
    {ns : List Xml.Node} {ts : List (Tree Instruction)} :
    Gives (cx.nodes (site.after pr) wraps (n :: ns)) w ts w ↔
      ∃ t? ts', Gives (cx.node (site.after pr) wraps n) w t? w ∧
        Gives (cx.nodes (site.after ((t?.map Tree.label).or pr)) wraps ns) w ts' w ∧
        ts = t?.toList ++ ts' := by
  rw [gives_nodes_cons]
  constructor
  · rintro ⟨t?, ts', w₁, ht, hts, rfl⟩
    obtain ⟨ht, rfl⟩ := (hcx.steady_node _ wraps n).gives_iff.1 ht
    exact ⟨t?, ts', ht, hts, rfl⟩
  · rintro ⟨t?, ts', ht, hts, rfl⟩
    exact ⟨t?, ts', w, ht, hts, rfl⟩

/-- One node after another. -/
theorem match_cons (hcx : Standard cx) {o : Bool} {pr pr' : Option Instruction} {n n' : Xml.Node}
    {ns ns' : List Xml.Node} {R : Option (Tree Instruction) → Option (Tree Instruction) → Prop}
    (hn : Match R w (cx.node (site.after pr) wraps n) (cx.node (site.after pr') wraps n'))
    (hns : ∀ t? t?', R t? t?' → ∃ o',
      Match (Alike id o') w (cx.nodes (site.after ((t?.map Tree.label).or pr)) wraps ns)
        (cx.nodes (site.after ((t?'.map Tree.label).or pr')) wraps ns') ∧
      ∀ ts ts', Alike id o' ts ts' → Alike id o (t?.toList ++ ts) (t?'.toList ++ ts')) :
    Match (Alike id o) w (cx.nodes (site.after pr) wraps (n :: ns))
      (cx.nodes (site.after pr') wraps (n' :: ns')) := by
  constructor
  · intro us hus
    obtain ⟨t?, ts, ht, hts, rfl⟩ := (gives_cons_iff hcx).1 hus
    obtain ⟨t?', ht', hR⟩ := hn.right t? ht
    obtain ⟨o', hmatch, halike⟩ := hns t? t?' hR
    obtain ⟨ts', hts', hS⟩ := hmatch.right ts hts
    exact ⟨_, (gives_cons_iff hcx).2 ⟨t?', ts', ht', hts', rfl⟩, halike ts ts' hS⟩
  · intro us hus
    obtain ⟨t?', ts', ht', hts', rfl⟩ := (gives_cons_iff hcx).1 hus
    obtain ⟨t?, ht, hR⟩ := hn.left t?' ht'
    obtain ⟨o', hmatch, halike⟩ := hns t? t?' hR
    obtain ⟨ts, hts, hS⟩ := hmatch.left ts' hts'
    exact ⟨_, (gives_cons_iff hcx).2 ⟨t?, ts, ht, hts, rfl⟩, halike ts ts' hS⟩

theorem calm_of_text (heval : cx.evaluator = .template) {s : String} {line : Nat}
    {t? : Option (Tree Instruction)} (ht : Gives (cx.node site wraps (.text s line)) w t? w') :
    (t? = none ∧ Text.isBlankText s = true) ∨ ∃ t, t? = some t ∧ CalmTree t := by
  rw [node] at ht
  split at ht
  · exact .inl ⟨(gives_pure.1 ht).1, ‹_›⟩
  · obtain ⟨t, w₁, hleaf, hpure⟩ := gives_bind.1 ht
    obtain ⟨rfl, -⟩ := gives_pure.1 hpure
    have hcalm := calm_of_textLeaf heval hleaf
    refine .inr ⟨_, rfl, ?_⟩
    split
    · obtain ⟨i, cs, rfl, hi, hcs⟩ := hcalm
      exact ⟨_, _, rfl, calm_data _ _ _ _, hi.alike hcs .nil⟩
    · exact hcalm

theorem label_dressed (h : Xml.Head) (i : Instruction) (cs cs' : List (Tree Instruction)) :
    (cx.dressed site wraps h (.node i cs')).label =
      (cx.dressed site wraps h (.node i cs)).label := by
  unfold dressed
  split <;> rfl

/-- A node that counts becomes an instruction. -/
theorem ne_nil_of_counts {ns : List Xml.Node} {ts : List (Tree Instruction)}
    (hns : Gives (cx.nodes site wraps ns) w ts w') (h : ns.any Registry.counts = true) :
    ts ≠ [] := by
  induction ns generalizing site w ts with
  | nil => cases h
  | cons n ns ih =>
    obtain ⟨t?, ts', w₁, ht, hts, rfl⟩ := gives_nodes_cons.1 hns
    cases t? with
    | some t => simp
    | none =>
      have hn : Registry.counts n = false := by
        cases n with
        | text s line =>
          rw [node] at ht
          split at ht
          · simpa [Registry.counts] using ‹_›
          · obtain ⟨t, w₂, -, hpure⟩ := gives_bind.1 ht
            cases (gives_pure.1 hpure).1
        | element hd cs =>
          obtain ⟨_, _, _, _, _, _, _, -, -, -, -, -, -, hnone⟩ := gives_element_iff.1 ht
          cases hnone
      rw [List.any_cons, hn, Bool.false_or] at h
      simpa using ih hts h

/-- A text becomes the same wherever it stands. -/
theorem match_text (heval : cx.evaluator = .template) (site : Site) (pr pr' : Option Instruction)
    (wraps : Bool) (s : String) (line : Nat) (w : World) :
    Match (fun t? t?' => t? = t?' ∧
        ((t? = none ∧ Text.isBlankText s = true) ∨ ∃ t, t? = some t ∧ CalmTree t)) w
      (cx.node (site.after pr) wraps (.text s line))
      (cx.node (site.after pr') wraps (.text s line)) := by
  have hsame : cx.node (site.after pr') wraps (.text s line) =
      cx.node (site.after pr) wraps (.text s line) := by
    rw [node, node]
    rfl
  rw [hsame]
  exact ⟨fun t? ht => ⟨t?, ht, rfl, calm_of_text heval ht⟩,
    fun t? ht => ⟨t?, ht, rfl, calm_of_text heval ht⟩⟩

/-- An element becomes the same instruction around alike children. -/
theorem match_element (hcx : Standard cx) {o : Bool} {pr pr' : Option Instruction} {h : Xml.Head}
    {cs cs' : List Xml.Node}
    (helse : cx.registry.stands cx.locator h Registry.isElse = true →
      opens pr = o ∧ opens pr' = o)
    (hclosed : cx.registry.stands cx.locator h Maker.closes = true → cs' = cs)
    (hchildren : ∀ (site : Site) (previous : Option Instruction), opens previous = false →
      Match (Alike id false) w
        (cx.nodes (site.after previous) (cx.registry.stands cx.locator h Maker.takesCalls) cs)
        (cx.nodes (site.after previous) (cx.registry.stands cx.locator h Maker.takesCalls) cs')) :
    Match (fun t? t?' => ∃ i us us', i.Plain ∧
        (i.tag = .alternative → o = true ∧ (wraps && cx.isCall h) = false) ∧
        Alike id false us us' ∧ t? = some (cx.dressed site wraps h (.node i us)) ∧
        t?' = some (cx.dressed site wraps h (.node i us')))
      w (cx.node (site.after pr) wraps (.element h cs))
      (cx.node (site.after pr') wraps (.element h cs')) := by
  constructor
  · intro t? ht
    obtain ⟨i, us, rest, rest', hi, halt, hus, hrest, rfl, ht'⟩ := element_of_element hcx
      (fun hstands => (helse hstands).2.trans (helse hstands).1.symm) hclosed .nil
      (fun site previous rest hprevious => (hchildren site previous hprevious).right rest) ht
    refine ⟨_, ht', i, us ++ rest, us ++ rest', hi, fun htag => ?_,
      alike_append_of_calm hus hrest, rfl, rfl⟩
    obtain ⟨hstands, hopens, hcall⟩ := halt htag
    exact ⟨(helse hstands).1.symm.trans hopens, hcall⟩
  · intro t? ht
    obtain ⟨i, us, rest, rest', hi, halt, hus, hrest, rfl, ht'⟩ := element_of_element hcx
      (fun hstands => (helse hstands).1.trans (helse hstands).2.symm)
      (fun hstands => (hclosed hstands).symm) (S := fun ts' ts => Alike id false ts ts') .nil
      (fun site previous rest hprevious => (hchildren site previous hprevious).left rest) ht
    refine ⟨_, ht', i, us ++ rest', us ++ rest, hi, fun htag => ?_,
      alike_append_of_calm hus hrest, rfl, rfl⟩
    obtain ⟨hstands, hopens, hcall⟩ := halt htag
    exact ⟨(helse hstands).2.symm.trans hopens, hcall⟩

/-- A block and what follows it, against a branch around the block. -/
theorem match_block (hcx : Standard cx) {o : Bool} {pr pr' : Option Instruction} {h : Xml.Head}
    {bs bs' ns ns' : List Xml.Node} (hh : cx.registry.IsAlways cx.locator h)
    (hcounts : bs.any Registry.counts = true)
    (hcalls : wraps = true → bs.any (cx.registry.isCallNode cx.locator) = false)
    (hblock : Match (Alike id false) w (cx.nodes (site.after pr) false bs)
      (cx.nodes (site.after none) false bs'))
    (hrest : ∀ previous i, Match (Alike id false) w (cx.nodes (site.after previous) wraps ns)
      (cx.nodes (site.after (some i)) wraps ns')) :
    Match (Alike id o) w (cx.nodes (site.after pr) wraps (bs ++ ns))
      (cx.nodes (site.after pr') wraps (.element h bs' :: ns')) := by
  obtain ⟨i, hi, halways⟩ := gives_always_iff hcx hh
  -- no call of the block would become a parameter
  have hbs : cx.nodes (site.after pr) wraps bs = cx.nodes (site.after pr) false bs := by
    cases wraps with
    | false => rfl
    | true => exact nodes_eq_of_no_calls (hcalls rfl)
  constructor
  · intro us hus
    obtain ⟨ts₁, ts₂, w₁, h₁, h₂, rfl⟩ := gives_nodes_append.1 hus
    rw [hbs] at h₁
    obtain ⟨h₁, hw⟩ := (hcx.steady_nodes _ false bs).gives_iff.1 h₁
    rw [hw] at h₂
    obtain ⟨ts₁', h₁', halike₁⟩ := hblock.right ts₁ h₁
    obtain ⟨ts₂', h₂', halike₂⟩ := (hrest _ i).right ts₂ h₂
    refine ⟨.node i ts₁' :: ts₂',
      (gives_cons_iff hcx).2 ⟨some (.node i ts₁'), ts₂', ?_, h₂', rfl⟩,
      .block hi (ne_nil_of_counts h₁ hcounts) halike₁ halike₂⟩
    exact (halways site pr' wraps bs' _ w).2 ⟨ts₁', h₁', rfl⟩
  · intro us hus
    obtain ⟨t?, ts₂', ht, h₂', rfl⟩ := (gives_cons_iff hcx).1 hus
    obtain ⟨ts₁', h₁', rfl⟩ := (halways site pr' wraps bs' t? w).1 ht
    obtain ⟨ts₁, h₁, halike₁⟩ := hblock.left ts₁' h₁'
    obtain ⟨ts₂, h₂, halike₂⟩ := (hrest ((ts₁.getLast?.map Tree.label).or pr) i).left ts₂' h₂'
    refine ⟨ts₁ ++ ts₂, gives_nodes_append.2 ⟨ts₁, ts₂, w, ?_, h₂, rfl⟩,
      .block hi (ne_nil_of_counts h₁ hcounts) halike₁ halike₂⟩
    rw [hbs]
    exact h₁

/-- **Nodes with blocks wrapped become instructions exactly if the nodes themselves do, and then
these are alike.** -/
theorem match_of_wrapped (hcx : Standard cx) {c : Bool} {ns ns' : List Xml.Node}
    (h : cx.registry.Wrapped cx.locator c ns ns') (w : World) {o : Bool} (site : Site)
    {pr pr' : Option Instruction} (hpr : cx.Fronts o pr pr' ns) :
    Match (Alike id o) w (cx.nodes (site.after pr) c ns) (cx.nodes (site.after pr') c ns') := by
  induction h generalizing o site pr pr' with
  | nil =>
    rw [nodes, nodes]
    refine ⟨fun ts hts => ?_, fun ts hts => ?_⟩
    · obtain ⟨rfl, -⟩ := gives_pure.1 hts
      exact ⟨[], rfl, .nil⟩
    · obtain ⟨rfl, -⟩ := gives_pure.1 hts
      exact ⟨[], rfl, .nil⟩
  | @text c s line ns ns' _ ih =>
    refine match_cons hcx (match_text hcx.evaluator site pr pr' c s line w) ?_
    rintro t? _ ⟨rfl, ⟨rfl, hblank⟩ | ⟨t, rfl, i, cs, rfl, hi, hcs⟩⟩
    · -- a blank text leaves everything as it is
      refine ⟨o, ih site ?_, fun ts ts' hts => hts⟩
      refine hpr.imp_right fun hno => ⟨?_, hno.2⟩
      simpa [Registry.startsWithElse, hblank] using hno.1
    · refine ⟨false, ih site (.inl ⟨hi.opensNone, hi.opensNone⟩), fun ts ts' hts => ?_⟩
      exact hi.alike hcs hts
  | @element c h cs cs' ns ns' hclosed _ _ ihcs ihns =>
    have helse : cx.registry.stands cx.locator h Registry.isElse = true →
        opens pr = o ∧ opens pr' = o := by
      intro hstands
      obtain hpr | ⟨hno, -⟩ := hpr
      · exact hpr
      · cases hno.symm.trans hstands
    refine match_cons hcx (match_element hcx helse hclosed fun site previous hprevious =>
      ihcs site (.inl ⟨hprevious, hprevious⟩)) ?_
    rintro _ _ ⟨i, us, us', hi, halt, hus, rfl, rfl⟩
    refine ⟨opensAlternative (cx.dressed site c h (.node i us)).label, ihns site (.inl ⟨rfl, ?_⟩),
      fun ts ts' hts => alike_dressed hi halt hus hts⟩
    exact congrArg opensAlternative (label_dressed h i us us')
  | block hh hcounts hfirst hnext hcalls _ _ ihbs ihns =>
    exact match_block hcx hh hcounts hcalls (ihbs site (.inr ⟨hfirst, rfl⟩))
      fun previous i => ihns site (.inr ⟨hnext, rfl⟩)

end Assembly

/-- Two programs with the same root, which always runs, and alike instructions below it. -/
inductive Program.Alike : Program → Program → Prop where
  | root {x x' : NodeId × Instruction} {ts ts' : List Program} (hx : x'.2 = x.2)
      (htag : x.2.tag = .scenario) (hguard : x.2.guard = none) (hbinding : x.2.binding = none)
      (hts : Scenario.Alike Prod.snd false ts ts') : Alike (.node x ts) (.node x' ts')

/-- Documents with blocks wrapped become alike programs. -/
theorem Assembly.match_document {cx : Assembly} (hcx : Standard cx) {root root' : Xml.Element}
    (hhead : root'.head = root.head)
    (h : cx.registry.Wrapped cx.locator false root.children root'.children) (w : World) :
    Match Program.Alike w (cx.document root .scenario) (cx.document root' .scenario) := by
  have hmatch : Match (Scenario.Alike id false) w (cx.nodes cx.top false root.children)
      (cx.nodes cx.top false root'.children) := match_of_wrapped hcx h w cx.top (.inl ⟨rfl, rfl⟩)
  have hroot : ∀ {ts ts' : List (Tree Instruction)}, Scenario.Alike id false ts ts' →
      Program.Alike
        (Tree.node { name := root.head.name, line := root.head.line, tag := .scenario } ts).number
        (Tree.node { name := root'.head.name, line := root'.head.line, tag := .scenario }
          ts').number := by
    intro ts ts' hts
    rw [hhead]
    exact .root rfl rfl rfl rfl (hts.number 1 1)
  constructor
  · intro p hp
    obtain ⟨tag, ts, htag, hts, rfl⟩ := gives_document.1 hp
    obtain rfl : tag = .scenario := (Parse.gives_pure.1 htag).1
    obtain ⟨ts', hts', halike⟩ := hmatch.right ts hts
    exact ⟨_, gives_document.2 ⟨_, ts', rfl, hts', rfl⟩, hroot halike⟩
  · intro p hp
    obtain ⟨tag, ts', htag, hts', rfl⟩ := gives_document.1 hp
    obtain rfl : tag = .scenario := (Parse.gives_pure.1 htag).1
    obtain ⟨ts, hts, halike⟩ := hmatch.left ts' hts'
    exact ⟨_, gives_document.2 ⟨_, ts, rfl, hts, rfl⟩, hroot halike⟩

end Scenario
