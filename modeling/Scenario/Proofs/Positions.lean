import Scenario.Proofs.Building

/-!
# Where instructions stand

An instruction of a program has instructions above it and, below the same one, instructions in front
of it. **`document_is_disciplined`** says what holds of documents with the built-in tags: the mode
of a data tag goes by the nearest instruction around it that is no transparent container, and its
result name goes by its mode; a call stands inside another one as a parameter only; an alternative
follows a branch that has a condition. `Assembly.Renders` relates the nodes of a document and the
instructions they become.
-/

namespace Scenario

namespace Tree

variable {α : Type}

/-- A tree stands in another one, below the nodes of a path, the nearest one first, and behind other
trees below the same node. -/
inductive Occurs (t : Tree α) : List α → List (Tree α) → Tree α → Prop
  | root : Occurs t [] [] t
  | child {path : List α} {front left right : List (Tree α)} {a : α} {u : Tree α} :
      Occurs t path front (node a (left ++ u :: right)) → Occurs t (a :: path) left u

theorem labels_eq (t : Tree α) : t.labels = t.label :: labelsAll t.children := by
  cases t
  rfl

namespace Occurs

variable {t u v : Tree α} {path : List α} {left : List (Tree α)} {a : α}

/-- A child stands behind the children before it. -/
theorem get {k : Nat} (h : t.Occurs path left v) (hu : v.children[k]? = some u) :
    t.Occurs (v.label :: path) (v.children.take k) u := by
  obtain ⟨b, us⟩ := v
  have hu : us[k]? = some u := hu
  obtain ⟨hk, rfl⟩ := List.getElem?_eq_some_iff.1 hu
  have hsplit : us = us.take k ++ us[k] :: us.drop (k + 1) := by
    rw [← List.drop_eq_getElem_cons hk, List.take_append_drop]
  have h : t.Occurs path left (node b (us.take k ++ us[k] :: us.drop (k + 1))) := by
    rwa [← hsplit]
  exact h.child

/-- What stands in front of a tree stands in the same place. -/
theorem previous (h : t.Occurs path left u) (hv : left.getLast? = some v) :
    ∃ front, t.Occurs path front v := by
  cases h with
  | root => cases hv
  | @child path before _ right a _ h =>
    obtain ⟨front, rfl⟩ := List.getLast?_eq_some_iff.1 hv
    have h : t.Occurs path before (node a (front ++ v :: (u :: right))) := by simpa using h
    exact ⟨front, h.child⟩

/-- The labels of a tree below a node are labels below the root. -/
theorem labels_subset (h : t.Occurs (a :: path) left u) : u.labels ⊆ labelsAll t.children := by
  generalize hpath : a :: path = above at h
  induction h generalizing a path with
  | root => cases hpath
  | @child path' front left right b u h ih =>
    have hsub : u.labels ⊆ labelsAll (left ++ u :: right) := fun x hx =>
      mem_labelsAll.2 ⟨u, by simp, hx⟩
    cases path' with
    | nil =>
      cases h
      exact hsub
    | cons c path' => exact fun x hx => ih rfl (List.mem_cons_of_mem b (hsub hx))

end Occurs

end Tree

namespace Program

/-- The nearest instruction of a path that is no transparent container. -/
def nearest? (path : List (NodeId × Instruction)) : Option (NodeId × Instruction) :=
  path.find? fun x => x.2.tag.kind ≠ .control

/-- What holds of an instruction of a program below a path and behind other instructions. -/
structure Standing (p : Program) (path : List (NodeId × Instruction)) (left : List Program)
    (i : Instruction) : Prop where
  entry : ∀ {name mode fallback}, i.tag = .data name mode fallback →
    (mode = .entry ↔ nearest? path = some p.label)
  sub : ∀ {name mode fallback}, i.tag = .data name mode fallback →
    (mode = .sub ↔ ∃ x, nearest? path = some x ∧ x.2.tag.kind = .data)
  parameter : ∀ {name mode fallback}, i.tag = .data name mode fallback →
    (mode = .parameter ↔ ∃ x, nearest? path = some x ∧ x ≠ p.label ∧ x.2.tag.kind ≠ .data)
  bound : ∀ {name fallback}, i.tag = .data name .entry fallback → i.binding.isSome = true
  unbound : ∀ {name fallback}, i.tag = .data name .parameter fallback → i.binding = none
  fallback : ∀ {name mode}, i.tag = .data name mode true → mode = .entry
  apart : i.tag.kind = .invoker → ∀ x, path.head? = some x → x.2.tag.kind ≠ .invoker
  follows : i.tag = .alternative → ∃ u, left.getLast? = some u ∧
    (u.label.2.tag = .conditional ∨ u.label.2.tag = .alternative ∧ u.label.2.guard.isSome = true)

end Program

/-- What holds of an instruction below and behind others, whatever else is around it. -/
structure Instruction.Stands (parent previous : Option Instruction) (i : Instruction) : Prop where
  bound : ∀ {name fallback}, i.tag = .data name .entry fallback → i.binding.isSome = true
  unbound : ∀ {name fallback}, i.tag = .data name .parameter fallback → i.binding = none
  fallback : ∀ {name mode}, i.tag = .data name mode true → mode = .entry
  apart : i.tag.kind = .invoker → ∀ q, parent = some q → q.tag.kind ≠ .invoker
  follows : i.tag = .alternative → ∃ q, previous = some q ∧ Assembly.opensAlternative q = true

namespace Tree

variable {α : Type}

mutual

/-- Every instruction of a tree stands as it may, the first one below `parent` and behind
`previous`. -/
def Ordered (view : α → Instruction) (parent previous : Option Instruction) : Tree α → Prop
  | node a ts => (view a).Stands parent previous ∧ OrderedAll view (some (view a)) none ts

/-- The same of several trees beside each other. -/
def OrderedAll (view : α → Instruction) (parent previous : Option Instruction) :
    List (Tree α) → Prop
  | [] => True
  | t :: ts => t.Ordered view parent previous ∧ OrderedAll view parent (some (view t.label)) ts

end

mutual

/-- Numbering does not matter. -/
theorem ordered_numberFrom (view : α → Instruction) (parent previous : Option Instruction)
    (n : Nat) : (t : Tree α) → ((t.numberFrom n).Ordered (fun x => view x.2) parent previous ↔
      t.Ordered view parent previous)
  | node a ts => by
    rw [numberFrom, Ordered, Ordered, orderedAll_numberAll view _ none (n + 1) ts]

theorem orderedAll_numberAll (view : α → Instruction) (parent previous : Option Instruction)
    (n : Nat) : (ts : List (Tree α)) →
    (OrderedAll (fun x => view x.2) parent previous (numberAll n ts) ↔
      OrderedAll view parent previous ts)
  | [] => Iff.rfl
  | node a us :: ts => by
    rw [numberAll, OrderedAll, OrderedAll, ordered_numberFrom view parent previous n (node a us),
      ← orderedAll_numberAll view parent _ (n + (node a us).size) ts, numberFrom]
    rfl

end

theorem orderedAll_of_forall {view : α → Instruction} {parent previous : Option Instruction}
    {ts : List (Tree α)} (h : ∀ t ∈ ts, ∀ previous, t.Ordered view parent previous) :
    OrderedAll view parent previous ts := by
  induction ts generalizing previous with
  | nil => trivial
  | cons t ts ih => exact ⟨h t (by simp) previous, ih fun u hu => h u (by simp [hu])⟩

theorem orderedAll_append {view : α → Instruction} {parent previous : Option Instruction}
    {ts us : List (Tree α)} : OrderedAll view parent previous (ts ++ us) ↔
      OrderedAll view parent previous ts ∧
        OrderedAll view parent ((ts.getLast?.map fun t => view t.label).or previous) us := by
  induction ts generalizing previous with
  | nil => simp [OrderedAll]
  | cons t ts ih =>
    rw [List.cons_append, OrderedAll, OrderedAll, ih, and_assoc, List.getLast?_cons]
    cases ts.getLast? <;> simp

/-- Whatever stands in an ordered tree is ordered where it stands. -/
theorem Occurs.ordered {view : α → Instruction} {t u : Tree α} {path : List α}
    {left : List (Tree α)} (ht : t.Ordered view none none) (h : t.Occurs path left u) :
    u.Ordered view (path.head?.map view) (left.getLast?.map fun v => view v.label) := by
  induction h with
  | root => exact ht
  | child h ih =>
    have hright := (orderedAll_append.1 ih.2).2
    rw [Option.or_none] at hright
    exact hright.1

end Tree

namespace Program

variable {p u : Program} {path : List (NodeId × Instruction)} {left : List Program}
  {x : NodeId × Instruction}

theorem nearest?_cons (x : NodeId × Instruction) (path : List (NodeId × Instruction)) :
    nearest? (x :: path) = if x.2.tag.kind = .control then nearest? path else some x := by
  by_cases h : x.2.tag.kind = .control
  · simp [nearest?, h]
  · simp [nearest?, h]

/-- The part that a tag plays for its children is that of the nearest one that is no transparent
container. -/
theorem placed_nearest (hp : p.Placed) (hroot : p.label.2.tag.kind = .entity)
    (h : p.Occurs (x :: path) left u) :
    ∃ y, nearest? (x :: path) = some y ∧ y ∈ p.labels ∧
      Tree.Placed (fun z => z.2.tag) y.2.tag.kind u := by
  generalize hpath : x :: path = above at h
  induction h generalizing x path with
  | root => cases hpath
  | @child path' front left right a u h ih =>
    have hmem : u ∈ left ++ u :: right := by simp
    rw [nearest?_cons]
    cases path' with
    | nil =>
      -- directly below the root
      cases h
      have hbelow := Tree.placedAll_iff.1 hp.2 u hmem
      have hkind : a.2.tag.kind = .entity := hroot
      rw [Tag.around, hkind] at hbelow
      exact ⟨a, by simp [hkind], by simp [Tree.labels], by simpa [hkind] using hbelow⟩
    | cons b path' =>
      obtain ⟨y, hy, hmemy, hplaced⟩ := ih rfl
      have hbelow := Tree.placedAll_iff.1 hplaced.2 u hmem
      rw [Tag.around] at hbelow
      split at hbelow
      · next hcontrol => exact ⟨y, by rw [if_pos hcontrol, hy], hmemy, hbelow⟩
      · next hcontrol =>
        refine ⟨a, by rw [if_neg hcontrol], ?_, hbelow⟩
        rw [Tree.labels_eq p]
        exact List.mem_cons_of_mem _ (h.labels_subset (by simp [Tree.labels]))

end Program

/-- Of the tags of a program, the root alone is one of an entity. -/
theorem Builtin.eq_label_iff {p : Program} (hp : Builtin.Built p) {x : NodeId × Instruction}
    (hx : x ∈ p.labels) : x = p.label ↔ x.2.tag.kind = .entity := by
  constructor
  · rintro rfl
    rw [hp.tag]
    rfl
  · intro hkind
    rw [Tree.labels_eq] at hx
    obtain rfl | hx := List.mem_cons.1 hx
    · rfl
    · have hinner := hp.below x hx
      generalize x.2.tag = tag at hinner hkind
      cases tag with
      | scenario | block | fixed => exact hinner.elim
      | _ => cases hkind

/-- Where calls become parameters, a data tag is a parameter. -/
def Site.Wraps (site : Site) (wraps : Bool) : Prop :=
  wraps = true → DataMode.inside site.enclosing = .parameter

namespace Assembly

open Parse

variable {cx : Assembly} {site : Site} {wraps : Bool} {w w' : World}

/-! ### Making instructions that stand as they may -/

/-- What is checked before a data tag gets its mode. -/
theorem dataMode_ok {name : String} {enclosing : TagKind} {hasId fallback : Bool} {mode : DataMode}
    (h : dataMode name enclosing hasId fallback = .ok mode) :
    (mode = .entry → hasId = true) ∧ (mode = .parameter → hasId = false) ∧
      (fallback = true → mode = .entry) := by
  have hmode := dataMode_eq h
  subst hmode
  unfold dataMode at h
  dsimp only at h
  split at h
  · cases h
  split at h
  · cases h
  split at h
  · cases h
  split at h
  · cases h
  split at h
  · cases h
  next hentry hfallback hparameter =>
    refine ⟨fun hm => ?_, fun hm => ?_, fun hf => ?_⟩
    · simpa [hm] using hentry
    · simpa [hm] using hparameter
    · simpa [hf] using hfallback

/-- Whether an element has an attribute with a result name. -/
def hasId (h : Xml.Head) : Bool := (h.attr? "id").isSome || (h.attrIn? rootNs "id").isSome

/-- An element that looks for its result name gets one exactly if it has one. -/
theorem isSome_binding {e : Evaluator} {h : Xml.Head} {attrs : TagAttrs} {id : Option ResultId}
    (hid : binding e h attrs = .ok id) (hattrs : attrs.id = some "id") :
    id.isSome = hasId h := by
  unfold binding at hid
  rw [hattrs] at hid
  dsimp only at hid
  unfold hasId
  have hmap : ∀ {source qualified},
      ((e.compileNamed source).map fun c => some ⟨c, "id", qualified⟩) = .ok id →
        id.isSome = true := by
    intro source qualified hid
    cases hc : e.compileNamed source with
    | error e =>
      rw [hc] at hid
      cases hid
    | ok c =>
      rw [hc] at hid
      cases hid
      rfl
  cases hin : h.attrIn? rootNs "id" <;> cases hplain : h.attr? "id"
  all_goals simp only [hin, hplain, Option.map_none, Option.map_some] at hid
  · cases hid
    rfl
  all_goals
    split at hid
    · cases hid
    · exact hmap hid

/-- What is said of the plan of an element: the part that its tag plays is known beforehand, and so
is whether calls inside it become parameters; the mode of a data tag goes with its result name, and
an alternative has something to be the alternative of. -/
structure Laid (site : Site) (h : Xml.Head) (m : Maker) (p : Plan) : Prop where
  kind : p.tag.kind = m.kind
  wraps : p.closed = false → p.wraps = decide (m.kind = .invoker)
  data : ∀ {name mode fallback}, p.tag = .data name mode fallback →
    m.attrs.id = some "id" ∧ dataMode h.name site.enclosing (hasId h) fallback = .ok mode
  follows : p.tag = .alternative → ∃ q, site.previous = some q ∧ opensAlternative q = true

theorem laid_callPlan (h : Xml.Head) {m : Maker} {tag : Tag} (hkind : tag.kind = m.kind)
    (hm : m.kind = .invoker) : Laid site h m (callPlan h m.attrs tag) where
  kind := hkind
  wraps _ := by simp [callPlan, hm]
  data := by
    rintro _ _ _ rfl
    rw [hm] at hkind
    cases hkind
  follows := by
    rintro rfl
    rw [hm] at hkind
    cases hkind

theorem laid_of_gives_plan {h : Xml.Head} {children : List Xml.Node} {r : Resolved} {p : Plan}
    (hp : Gives (cx.plan site h children r) w p w') : Laid site h r.maker p := by
  obtain ⟨maker, target⟩ := r
  unfold plan at hp
  cases maker with
  | data fallback =>
    obtain ⟨mode, w₁, hmode, hp⟩ := gives_bind.1 hp
    obtain ⟨rfl, -⟩ := gives_pure.1 hp
    refine ⟨rfl, fun _ => rfl, ?_, by simp⟩
    intro name mode' fallback' htag
    cases htag
    exact ⟨rfl, (gives_orRefuse.1 hmode).1⟩
  | literal =>
    obtain ⟨rfl, -⟩ := gives_pure.1 hp
    exact ⟨rfl, by simp, by simp, by simp⟩
  | expression =>
    dsimp only at hp
    split at hp
    · obtain ⟨_, _, hrefuse, -⟩ := gives_bind.1 hp
      exact absurd hrefuse gives_throw
    · obtain ⟨e, w₁, -, hp⟩ := gives_bind.1 hp
      obtain ⟨rfl, -⟩ := gives_pure.1 hp
      exact ⟨rfl, by simp, by simp, by simp⟩
  | conditional =>
    dsimp only at hp
    split at hp
    · obtain ⟨_, _, hrefuse, -⟩ := gives_bind.1 hp
      exact absurd hrefuse gives_throw
    · obtain ⟨rfl, -⟩ := gives_pure.1 hp
      exact ⟨rfl, fun _ => rfl, by simp, by simp⟩
  | alternative =>
    dsimp only at hp
    split at hp
    · obtain ⟨_, _, hrefuse, -⟩ := gives_bind.1 hp
      exact absurd hrefuse gives_throw
    next hopen =>
      obtain ⟨rfl, -⟩ := gives_pure.1 hp
      refine ⟨rfl, fun _ => rfl, by simp, fun _ => ?_⟩
      cases hprevious : site.previous with
      | none => simp [hprevious] at hopen
      | some q => exact ⟨q, rfl, by simpa [hprevious] using hopen⟩
  | mutex =>
    obtain ⟨_, _, -, hp⟩ := gives_bind.1 hp
    obtain ⟨_, _, -, hp⟩ := gives_bind.1 hp
    obtain ⟨rfl, -⟩ := gives_pure.1 hp
    exact ⟨rfl, fun _ => rfl, by simp, by simp⟩
  | bean b =>
    obtain ⟨_, _, -, hp⟩ := gives_bind.1 hp
    obtain ⟨rfl, -⟩ := gives_pure.1 hp
    exact laid_callPlan h rfl rfl
  | invoke =>
    cases target with
    | none =>
      obtain ⟨_, _, -, hp⟩ := gives_bind.1 hp
      exact absurd hp gives_throw
    | some t =>
      have hp : Gives (cx.plan site h children ⟨.invoke, some t⟩) w p w' := hp
      obtain ⟨-, rfl, -⟩ := gives_plan_invoke.1 hp
      exact laid_callPlan h rfl rfl
  | describe typeName =>
    have hdone : ∀ text, Laid site h (.describe typeName)
        { tag := .fixed typeName .invoker (.str text) none, closed := true } :=
      fun text => ⟨rfl, by simp, by simp, by simp⟩
    cases target with
    | none =>
      obtain ⟨rfl, -⟩ := gives_pure.1 hp
      exact hdone _
    | some t =>
      obtain ⟨found, _, -, hp⟩ := gives_bind.1 hp
      cases found with
      | none =>
        obtain ⟨rfl, -⟩ := gives_pure.1 hp
        exact hdone _
      | some key =>
        obtain ⟨_, _, -, hp⟩ := gives_bind.1 hp
        obtain ⟨_, _, -, hp⟩ := gives_bind.1 hp
        obtain ⟨rfl, -⟩ := gives_pure.1 hp
        exact hdone _
  | fixed typeName closed v whenSkipped =>
    obtain ⟨rfl, -⟩ := gives_pure.1 hp
    exact ⟨rfl, fun _ => rfl, by simp, by simp⟩

/-- The instruction of an element stands as it may below any instruction that is no call, and
a call only there. -/
theorem Laid.stands {h : Xml.Head} {m : Maker} {p : Plan} (hp : Laid site h m p)
    {cond : Option Guard} {id : Option ResultId} (hid : binding cx.evaluator h m.attrs = .ok id)
    {parent : Option Instruction}
    (hparent : m.kind = .invoker → ∀ q, parent = some q → q.tag.kind ≠ .invoker) :
    Instruction.Stands parent site.previous
      { name := h.name, line := h.line, guard := cond, binding := id, tag := p.tag } where
  bound htag := by
    obtain ⟨hattrs, hmode⟩ := hp.data htag
    exact (isSome_binding hid hattrs).trans ((dataMode_ok hmode).1 rfl)
  unbound htag := by
    obtain ⟨hattrs, hmode⟩ := hp.data htag
    simpa [(dataMode_ok hmode).2.1 rfl] using isSome_binding hid hattrs
  fallback htag := (dataMode_ok (hp.data htag).2).2.2 rfl
  apart hkind := hparent (hp.kind.symm.trans hkind)
  follows := hp.follows

theorem ordered_of_textLeaf {text : String} {line : Nat} {t : Tree Instruction}
    (ht : Gives (cx.textLeaf text line) w t w') {parent previous : Option Instruction}
    (hparent : ∀ q, parent = some q → q.tag.kind ≠ .invoker) : t.Ordered id parent previous := by
  obtain ⟨e, w₁, -, ht⟩ := gives_bind.1 ht
  obtain ⟨rfl, -⟩ := gives_pure.1 ht
  exact ⟨⟨by simp, by simp, by simp, fun _ => hparent, by simp⟩, trivial⟩

theorem ordered_of_attrLeaf {enclosing : TagKind} {line : Nat} {a : Xml.Attr}
    {t : Tree Instruction} (ht : Gives (cx.attrLeaf enclosing line a) w t w')
    (parent previous : Option Instruction) : t.Ordered id parent previous := by
  obtain ⟨mode, w₁, hmode, ht⟩ := gives_bind.1 ht
  obtain ⟨hentry, -, -⟩ := dataMode_ok (gives_orRefuse.1 hmode).1
  have hstands : ∀ i : Instruction, i.tag = .data a.name mode false → i.binding = none →
      i.Stands parent previous := by
    intro i htag hnone
    refine ⟨fun h => ?_, fun _ => hnone, fun h => ?_, fun h => ?_, fun h => ?_⟩
    · cases htag.symm.trans h
      cases hentry rfl
    · cases htag.symm.trans h
    · rw [htag] at h
      cases h
    · cases htag.symm.trans h
  split at ht
  · obtain ⟨rfl, -⟩ := gives_pure.1 ht
    exact ⟨hstands _ rfl rfl, trivial⟩
  · obtain ⟨u, w₂, hu, ht⟩ := gives_bind.1 ht
    obtain ⟨rfl, -⟩ := gives_pure.1 ht
    refine ⟨hstands _ rfl rfl, ordered_of_textLeaf hu ?_, trivial⟩
    rintro q ⟨⟩
    simp [Tag.kind]

/-- A parameter around a call. -/
theorem ordered_wrapped (hmode : DataMode.inside site.enclosing = .parameter) {line : Nat}
    {t : Tree Instruction} {parent previous : Option Instruction}
    (ht : ∀ q : Instruction, q.tag.kind = .data → t.Ordered id (some q) none) :
    (wrapped site line t).Ordered id parent previous := by
  refine ⟨⟨fun h => ?_, fun _ => rfl, fun h => ?_, fun h => ?_, fun h => ?_⟩, ht _ rfl, trivial⟩
  · rw [hmode] at h
    cases h
  · cases h
  · cases h
  · cases h

/-- Whether a child element is a call is known from what it resolves to. -/
theorem isCall_eq {h : Xml.Head} {r : Resolved}
    (hr : cx.registry.resolve? cx.locator h.ns h.name = some r) :
    cx.isCall h = decide (r.maker.kind = .invoker) := by
  rw [isCall, hr]
  rfl

/-- The place below an element is one whose calls become parameters if it is a call. -/
theorem Laid.wraps_within {h : Xml.Head} {m : Maker} {p : Plan}
    (hp : Laid (cx.spot site wraps h) h m p) (hopen : p.closed = false)
    (pushed : List (Tree Instruction)) : (cx.within site wraps h p pushed).Wraps p.wraps := by
  intro hwraps
  have hkind : p.tag.kind = .invoker := by
    rw [hp.wraps hopen] at hwraps
    exact hp.kind.trans (of_decide_eq_true hwraps)
  simp [within, inside, hkind, DataMode.inside]

mutual

/-- The instructions of a child node stand as they may. -/
theorem ordered_node {site : Site} {wraps : Bool} {parent : Option Instruction}
    (hsite : site.Wraps wraps)
    (hparent : ∀ q, parent = some q → q.tag.kind = .invoker → wraps = true) :
    ∀ (n : Xml.Node) {t : Tree Instruction} {w w' : World},
      Gives (cx.node site wraps n) w (some t) w' → t.Ordered id parent site.previous
  | .text s line, t, w, w', ht => by
    rw [node] at ht
    split at ht
    · cases (gives_pure.1 ht).1
    · obtain ⟨u, w₁, hu, ht⟩ := gives_bind.1 ht
      obtain ⟨heq, -⟩ := gives_pure.1 ht
      cases heq
      cases hw : wraps with
      | true =>
        refine ordered_wrapped (hsite hw) fun q hq => ordered_of_textLeaf hu ?_
        rintro _ ⟨⟩
        simp [hq]
      | false =>
        refine ordered_of_textLeaf hu fun q hq hkind => ?_
        cases hw.symm.trans (hparent q hq hkind)
  | .element h children, t, w, w', ht => by
    obtain ⟨r, id', cond, p, pushed, rest, w₁, hr, hid, hcond, hp, hpushed, hrest, heq⟩ :=
      gives_element_iff.1 ht
    cases heq
    have hlaid := laid_of_gives_plan hp
    -- what is below the element
    have hbelow : Tree.OrderedAll id
        (some { name := h.name, line := h.line, guard := cond, binding := id', tag := p.tag }) none
        (pushed ++ rest) := by
      refine Tree.orderedAll_append.2 ⟨Tree.orderedAll_of_forall fun u hu previous => ?_, ?_⟩
      · obtain ⟨a, -, _, _, ha⟩ := exists_of_gives_mapM hpushed u hu
        exact ordered_of_attrLeaf ha _ previous
      · rw [inner] at hrest
        split at hrest
        · obtain ⟨rfl, -⟩ := gives_pure.1 hrest
          trivial
        · next hopen =>
          rw [Option.or_none]
          refine ordered_nodes (hlaid.wraps_within (by simpa using hopen) pushed) ?_ children hrest
          rintro q ⟨⟩ hkind
          rw [hlaid.wraps (by simpa using hopen)]
          exact decide_eq_true (hlaid.kind.symm.trans hkind)
    rw [dressed]
    split
    · next hwrap =>
      obtain ⟨hwraps, hcall⟩ := Bool.and_eq_true_iff.1 hwrap
      refine ordered_wrapped (hsite hwraps) fun q hq => ⟨?_, hbelow⟩
      rw [spot, if_pos hwrap] at hlaid
      refine hlaid.stands hid fun _ q' hq' => ?_
      cases hq'
      simp [hq]
    · next hwrap =>
      rw [spot, if_neg hwrap] at hlaid
      refine ⟨hlaid.stands hid fun hkind q hq hq' => hwrap ?_, hbelow⟩
      rw [hparent q hq hq', isCall_eq hr, Bool.true_and]
      exact decide_eq_true hkind

theorem ordered_nodes {site : Site} {wraps : Bool} {parent : Option Instruction}
    (hsite : site.Wraps wraps)
    (hparent : ∀ q, parent = some q → q.tag.kind = .invoker → wraps = true) :
    ∀ (ns : List Xml.Node) {ts : List (Tree Instruction)} {w w' : World},
      Gives (cx.nodes site wraps ns) w ts w' → Tree.OrderedAll id parent site.previous ts
  | [], ts, w, w', hts => by
    rw [nodes] at hts
    obtain ⟨rfl, -⟩ := gives_pure.1 hts
    trivial
  | n :: ns, ts, w, w', hts => by
    obtain ⟨t?, us, w₁, ht, hus, rfl⟩ := gives_nodes_cons.1 hts
    cases t? with
    | none => exact ordered_nodes hsite hparent ns hus
    | some t =>
      have hnext : Site.Wraps { site with previous := some t.label } wraps := hsite
      exact ⟨ordered_node hsite hparent n ht, ordered_nodes hnext hparent ns hus⟩

end

/-! ### Documents and their instructions -/

/-- An instruction, as a parameter named `value` if need be. -/
def asParameter (parameter : Bool) (line : Nat) (t : Tree Instruction) : Tree Instruction :=
  if parameter then .node { name := "value", line, tag := .data "value" .parameter false } [t]
  else t

/-- The instructions that nodes of a document become, inside a call or not: a blank text becomes
nothing, any other text an expression, and an element the tag that it resolves to, with the data
tags of its attributes in front of what its children become. Inside a call, expressions and calls
become parameters. -/
inductive Renders (cx : Assembly) : Bool → List Xml.Node → List (Tree Instruction) → Prop
  | nil {call : Bool} : Renders cx call [] []
  | blank {call : Bool} {s : String} {line : Nat} {ns : List Xml.Node}
      {ts : List (Tree Instruction)} :
      Text.isBlankText s = true → Renders cx call ns ts → Renders cx call (.text s line :: ns) ts
  | text {call : Bool} {s : String} {line : Nat} {ns : List Xml.Node}
      {ts : List (Tree Instruction)} {i : Instruction} {e : Compiled} :
      Text.isBlankText s = false → i.line = line → i.tag = .expression e → Renders cx call ns ts →
      Renders cx call (.text s line :: ns) (asParameter call line (.node i []) :: ts)
  | element {call : Bool} {h : Xml.Head} {children ns : List Xml.Node} {r : Resolved}
      {i : Instruction} {pushed rest ts : List (Tree Instruction)} :
      cx.registry.resolve? cx.locator h.ns h.name = some r →
      i.name = h.name → i.line = h.line → i.tag.kind = r.maker.kind →
      (∀ t ∈ pushed, t.label.tag.kind = .data) →
      (r.maker.closes = true → rest = []) →
      (r.maker.closes = false → Renders cx (decide (i.tag.kind = .invoker)) children rest) →
      Renders cx call ns ts →
      Renders cx call (.element h children :: ns)
        (asParameter (call && decide (i.tag.kind = .invoker)) h.line (.node i (pushed ++ rest)) ::
          ts)

theorem wrapped_eq (hmode : DataMode.inside site.enclosing = .parameter) (line : Nat)
    (t : Tree Instruction) : wrapped site line t = asParameter true line t := by
  rw [wrapped, hmode]
  rfl

theorem kind_of_attrLeaf {enclosing : TagKind} {line : Nat} {a : Xml.Attr} {t : Tree Instruction}
    (ht : Gives (cx.attrLeaf enclosing line a) w t w') : t.label.tag.kind = .data := by
  obtain ⟨mode, w₁, -, ht⟩ := gives_bind.1 ht
  split at ht
  · obtain ⟨rfl, -⟩ := gives_pure.1 ht
    rfl
  · obtain ⟨u, w₂, -, ht⟩ := gives_bind.1 ht
    obtain ⟨rfl, -⟩ := gives_pure.1 ht
    rfl

mutual

/-- A child node becomes what it should, in front of what becomes of the nodes behind it. -/
theorem renders_node {site : Site} {wraps : Bool} (hsite : site.Wraps wraps) :
    ∀ (n : Xml.Node) {t? : Option (Tree Instruction)} {w w' : World},
      Gives (cx.node site wraps n) w t? w' → ∀ {ns : List Xml.Node} {ts : List (Tree Instruction)},
        cx.Renders wraps ns ts → cx.Renders wraps (n :: ns) (t?.toList ++ ts)
  | .text s line, t?, w, w', ht, ns, ts, hts => by
    rw [node] at ht
    split at ht
    · next hblank =>
      obtain ⟨rfl, -⟩ := gives_pure.1 ht
      exact .blank hblank hts
    · next hblank =>
      obtain ⟨u, w₁, hu, ht⟩ := gives_bind.1 ht
      obtain ⟨rfl, -⟩ := gives_pure.1 ht
      obtain ⟨e, w₂, -, hu⟩ := gives_bind.1 hu
      obtain ⟨rfl, -⟩ := gives_pure.1 hu
      have hleaf := Renders.text (by simpa using hblank) rfl rfl hts
        (i := { name := "expression", line, tag := .expression e })
      cases hw : wraps with
      | true => simpa [hw, wrapped_eq (hsite hw)] using hleaf
      | false => simpa [hw, asParameter] using hleaf
  | .element h children, t?, w, w', ht, ns, ts, hts => by
    obtain ⟨r, id, cond, p, pushed, rest, w₁, hr, hid, hcond, hp, hpushed, hrest, rfl⟩ :=
      gives_element_iff.1 ht
    have hlaid := laid_of_gives_plan hp
    have hdressed : ∀ t, cx.dressed site wraps h t =
        asParameter (wraps && decide (p.tag.kind = .invoker)) h.line t := by
      intro t
      rw [dressed, isCall_eq hr, hlaid.kind]
      split
      · next hwrap => rw [hwrap, wrapped_eq (hsite (Bool.and_eq_true_iff.1 hwrap).1)]
      · next hwrap => rw [asParameter, if_neg hwrap]
    rw [Option.toList_some, List.singleton_append, hdressed]
    let i : Instruction :=
      { name := h.name, line := h.line, guard := cond, binding := id, tag := p.tag }
    have hkind : i.tag.kind = r.maker.kind := hlaid.kind
    refine .element hr (rfl : i.name = _) rfl hkind (fun t ht => ?_) (fun hcloses => ?_)
      (fun hcloses => ?_) hts
    · obtain ⟨a, -, _, _, ha⟩ := exists_of_gives_mapM hpushed t ht
      exact kind_of_attrLeaf ha
    · rw [inner, closed_of_gives_plan hp, if_pos hcloses] at hrest
      exact (gives_pure.1 hrest).1
    · have hopen : p.closed = false := (closed_of_gives_plan hp).trans hcloses
      rw [inner, hopen] at hrest
      have hbelow := renders_nodes (hlaid.wraps_within hopen pushed) children hrest
      rwa [hlaid.wraps hopen, ← hkind] at hbelow

theorem renders_nodes {site : Site} {wraps : Bool} (hsite : site.Wraps wraps) :
    ∀ (ns : List Xml.Node) {ts : List (Tree Instruction)} {w w' : World},
      Gives (cx.nodes site wraps ns) w ts w' → cx.Renders wraps ns ts
  | [], ts, w, w', hts => by
    rw [nodes] at hts
    obtain ⟨rfl, -⟩ := gives_pure.1 hts
    exact .nil
  | n :: ns, ts, w, w', hts => by
    obtain ⟨t?, us, w₁, ht, hus, rfl⟩ := gives_nodes_cons.1 hts
    have hnext : Site.Wraps
        { site with previous := (t?.map Tree.label).or site.previous } wraps := hsite
    exact renders_node hsite n ht (renders_nodes hnext ns hus)

end

/-- A program made of the built-in tags, all in their places, whose instructions stand as they may
below and behind each other. -/
theorem standing_of_ordered {p : Program} (hp : Program.Formed (· = .scenario) Builtin.Inner p)
    (hordered : Tree.Ordered Prod.snd none none p) {path : List (NodeId × Instruction)}
    {left : List Program} {u : Program} (hu : Tree.Occurs p path left u) :
    p.Standing path left u.label.2 := by
  obtain ⟨i, ts⟩ := u
  cases hpath : path with
  | nil =>
    -- the root is neither data nor a call nor a branch
    rw [hpath] at hu
    cases hu
    have htag : i.2.tag = .scenario := hp.made.tag
    constructor <;> simp [Tree.label, htag, Tag.kind]
  | cons a above =>
    have hroot : p.label.2.tag.kind = .entity := by
      rw [hp.made.tag]
      rfl
    obtain ⟨x, hx, hmem, hfits, -⟩ := Program.placed_nearest hp.placed hroot (hpath ▸ hu)
    have hstands := (hu.ordered hordered).1
    have hmode : ∀ {name mode fallback}, i.2.tag = .data name mode fallback →
        mode = DataMode.inside x.2.tag.kind := by
      intro name mode fallback htag
      dsimp only at hfits
      rwa [htag] at hfits
    constructor
    case entry =>
      intro name mode fallback htag
      rw [hx, hmode htag, Option.some.injEq, Builtin.eq_label_iff hp.made hmem]
      cases x.2.tag.kind <;> simp [DataMode.inside]
    case sub =>
      intro name mode fallback htag
      rw [hx, hmode htag]
      cases hkind : x.2.tag.kind <;> simp [DataMode.inside, hkind]
    case parameter =>
      intro name mode fallback htag
      have hlabel := Builtin.eq_label_iff hp.made hmem
      rw [hx, hmode htag]
      cases hkind : x.2.tag.kind <;> simp [DataMode.inside, hkind, hlabel]
    case bound => exact hstands.bound
    case unbound => exact hstands.unbound
    case fallback => exact hstands.fallback
    case apart =>
      intro hkind y hy
      exact hstands.apart hkind y.2 (by rw [hpath, hy]; rfl)
    case follows =>
      intro htag
      obtain ⟨q, hq, hopens⟩ := hstands.follows htag
      obtain ⟨v, hv, rfl⟩ := Option.map_eq_some_iff.1 hq
      obtain ⟨front, hbefore⟩ := hu.previous hv
      rw [hpath] at hbefore
      have hinner := hp.made.below v.label (hbefore.labels_subset (by simp [Tree.labels_eq v]))
      exact ⟨v, hv, (Builtin.opensAlternative_iff hinner).1 hopens⟩

/-- The program of a document with the built-in tags is made of them. -/
theorem formed_of_gives {root : Xml.Element} {maker : RootMaker} {p : Program}
    (hreg : cx.registry = Builtin.registry)
    (hmaker : Builtin.registry.root? root.head.name = some maker)
    (h : Gives (cx.document root maker) w p w') :
    Program.Formed (· = .scenario) Builtin.Inner p := by
  have law : StepLaw fun _ _ _ => True := by constructor <;> simp
  have hmakes : cx.registry.Makes (· = .scenario) Builtin.Inner := hreg ▸ Builtin.registry_makes
  have hsat := sat_document law (fun {_ t} _ _ => ⟨trivial, fun _ _ => trivial⟩) hmakes root
    (Builtin.registry_makes.roots hmaker)
  exact (hsat w).2 p (congrArg Prod.fst h)

/-- **The instructions of a document with the built-in tags are disciplined.** A data tag is one of
the entity exactly if the nearest instruction above it that is no transparent container is the root,
one inside another exactly if that is a data tag, and a parameter otherwise; those of the entity
have a result name, parameters have none, and those that give way to a value are of the entity. No
call stands directly below another one, because every expression and every call inside a call became
the only instruction below a parameter named `value`. An alternative directly follows a branch that
has a condition. -/
theorem document_is_disciplined {cx : Assembly} {root : Xml.Element} {maker : RootMaker}
    {w w' : World} {p : Program} (hreg : cx.registry = Builtin.registry)
    (hmaker : Builtin.registry.root? root.head.name = some maker)
    (h : Gives (cx.document root maker) w p w') :
    (∀ {path left u}, Tree.Occurs p path left u → p.Standing path left u.label.2) ∧
    ∃ ts, p = (Tree.node
        { name := root.head.name, line := root.head.line, tag := .scenario } ts).number ∧
      cx.Renders false root.children ts := by
  have hformed := formed_of_gives hreg hmaker h
  obtain ⟨tag, ts, -, hts, rfl⟩ := gives_document.1 h
  have htag : tag = .scenario := hformed.made.tag
  subst htag
  have htop : cx.top.Wraps false := by simp [Site.Wraps]
  refine ⟨standing_of_ordered hformed ?_, ts, rfl, renders_nodes htop _ hts⟩
  refine (Tree.ordered_numberFrom id none none 0 _).2 ⟨⟨by simp, by simp, by simp, ?_, by simp⟩, ?_⟩
  · simp [Tag.kind]
  · refine ordered_nodes htop ?_ _ hts
    rintro q ⟨⟩ hkind
    cases hkind

/-- A data tag with another one inside a branch, one that gives way, and three branches, the second
of which holds a call inside a call. -/
def branchedData : Xml.Element where
  head := { name := "scenario" }
  children := [
    .element { name := "data", attrs := [{ name := "id", value := "x" }] }
      [.element { name := "if", attrs := [{ name := "test", value := "yes" }] }
        [.element { name := "a" } [.text "1" 1]]],
    .element { name := "default", attrs := [{ name := "id", value := "y" }] } [],
    .element { name := "if", attrs := [{ name := "test", value := "no" }] } [],
    .element { name := "else", attrs := [{ name := "test", value := "yes" }] }
      [.element { name := "log" } [.text "hi" 1, .element { name := "return" } []]],
    .element { name := "else" } []]

theorem document_is_disciplined_branched :
    let cx : Assembly := {
      registry := Builtin.registry
      evaluator := .template
      locator := []
      path := "mem:main"
      refer := fun _ => pure none }
    Builtin.registry.root? branchedData.head.name = some .scenario ∧
    ∃ p w', Gives (cx.document branchedData .scenario) {} p w' ∧
      p.labels.map (fun x => (x.1, x.2.name)) =
        [(0, "scenario"), (1, "data"), (2, "if"), (3, "a"), (4, "expression"), (5, "default"),
          (6, "if"), (7, "else"), (8, "log"), (9, "value"), (10, "expression"), (11, "value"),
          (12, "return"), (13, "else")] ∧
      ∀ {path left u}, Tree.Occurs p path left u → p.Standing path left u.label.2 := by
  intro cx
  have htest : (((cx.document branchedData .scenario).run.run {}).1.toOption.any fun p =>
      decide (p.labels.map (fun x => (x.1, x.2.name)) =
        [(0, "scenario"), (1, "data"), (2, "if"), (3, "a"), (4, "expression"), (5, "default"),
          (6, "if"), (7, "else"), (8, "log"), (9, "value"), (10, "expression"), (11, "value"),
          (12, "return"), (13, "else")])) = true := by
    decide +kernel
  have hmaker : Builtin.registry.root? branchedData.head.name = some .scenario := rfl
  rcases hx : (cx.document branchedData .scenario).run.run {} with ⟨e | p, w'⟩
  · rw [hx] at htest
    cases htest
  · rw [hx] at htest
    exact ⟨hmaker, p, w', hx, of_decide_eq_true htest, (document_is_disciplined rfl hmaker hx).1⟩

end Assembly

end Scenario
