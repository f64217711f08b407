import Scenario.Entity.Load
import Scenario.Library.Builtin

/-!
# What parsing leaves behind

Parsing changes the world in a few ways only: it writes log records, adds entities, gives them their
programs and keeps them, and an entity is in progress while its program is made. `ParseLaw` lists
these ways; **`load_sat`** says that a relation of worlds that respects each of them holds of
everything that asking for a resource does, however resources refer to each other. The programs that
are made have the tags that the registry can make.

Making a program by itself only asks for resources, takes note of what is described, and refuses
elements. `StepLaw` lists this, for a relation that may depend on the failure that a step ends with,
and `Assembly.sat_document` says that such a relation holds of making a program.

Four laws are used elsewhere: the journal gets nothing but log records (`load_records`), all
entities stay made from the tags that the registry makes (`load_made`; `load_built` for the built-in
tags), every data tag has the mode that its place asks for (`load_placed`), and branches have no
result names (`load_unnamed`).
-/

namespace Scenario

/-- A program whose instructions have places of their own, whose root has a tag of one kind and
always runs, and whose other instructions have tags of another kind. -/
structure Made (root inner : Tag → Prop) (p : Program) : Prop where
  distinct : (p.labels.map Prod.fst).Nodup
  tag : root p.label.2.tag
  guard : p.label.2.guard = none
  binding : p.label.2.binding = none
  below : ∀ x ∈ Tree.labelsAll p.children, inner x.2.tag

theorem Made.tags {kind : Tag → Prop} {p : Program} (h : Made kind kind p) :
    ∀ x ∈ p.labels, kind x.2.tag := by
  obtain ⟨⟨id, i⟩, ts⟩ := p
  rw [Tree.labels, List.forall_mem_cons]
  exact ⟨h.tag, h.below⟩

/-- The part of the nearest tag around the children of a tag that is no transparent container. -/
def Tag.around (enclosing : TagKind) (t : Tag) : TagKind :=
  if t.kind = .control then enclosing else t.kind

/-- A data tag has the mode that its place asks for, and a root stands inside nothing. -/
def Tag.Fits (enclosing : TagKind) : Tag → Prop
  | .data _ mode _ => mode = DataMode.inside enclosing
  | .scenario | .block _ => enclosing = .entity
  | _ => True

namespace Tree

variable {α β : Type}

mutual

/-- All data tags have the modes that their places ask for. -/
def Placed (tag : α → Tag) (enclosing : TagKind) : Tree α → Prop
  | node a ts => (tag a).Fits enclosing ∧ PlacedAll tag ((tag a).around enclosing) ts

/-- The same of several trees beside each other. -/
def PlacedAll (tag : α → Tag) (enclosing : TagKind) : List (Tree α) → Prop
  | [] => True
  | t :: ts => t.Placed tag enclosing ∧ PlacedAll tag enclosing ts

end

theorem placedAll_iff {tag : α → Tag} {enclosing : TagKind} {ts : List (Tree α)} :
    PlacedAll tag enclosing ts ↔ ∀ t ∈ ts, t.Placed tag enclosing := by
  induction ts with
  | nil => simp [PlacedAll]
  | cons t ts ih => simp [PlacedAll, ih]

mutual

/-- Numbering does not matter. -/
theorem placed_numberFrom (tag : α → Tag) (enclosing : TagKind) (n : Nat) : (t : Tree α) →
    ((t.numberFrom n).Placed (fun x => tag x.2) enclosing ↔ t.Placed tag enclosing)
  | node a ts => by
    rw [numberFrom, Placed, Placed, placedAll_numberAll tag _ (n + 1) ts]

theorem placedAll_numberAll (tag : α → Tag) (enclosing : TagKind) (n : Nat) :
    (ts : List (Tree α)) →
    (PlacedAll (fun x => tag x.2) enclosing (numberAll n ts) ↔ PlacedAll tag enclosing ts)
  | [] => Iff.rfl
  | t :: ts => by
    rw [numberAll, PlacedAll, PlacedAll, placed_numberFrom tag enclosing n t,
      placedAll_numberAll tag enclosing (n + t.size) ts]

end

end Tree

/-- All data tags of a program have the modes that their places ask for. -/
def Program.Placed (p : Program) : Prop := Tree.Placed (fun x => x.2.tag) .entity p

/-- A branch has no result name. -/
def Instruction.Unnamed (i : Instruction) : Prop :=
  i.tag = .conditional ∨ i.tag = .alternative → i.binding = none

/-- No branch of a program has a result name. -/
def Program.Unnamed (p : Program) : Prop := ∀ x ∈ p.labels, x.2.Unnamed

/-- What holds of every program that is made. -/
structure Program.Formed (root inner : Tag → Prop) (p : Program) : Prop where
  made : Made root inner p
  placed : p.Placed
  unnamed : p.Unnamed

/-- The tags that come from a maker. -/
def Maker.Makes (inner : Tag → Prop) : Maker → Prop
  | data fallback => ∀ name mode, inner (.data name mode fallback)
  | literal => ∀ text, inner (.literal text)
  | expression => ∀ e, inner (.expression e)
  | conditional => inner .conditional
  | alternative => inner .alternative
  | mutex => ∀ name timeout, inner (.mutex name timeout)
  | bean b => inner (.bean b)
  | invoke => ∀ target, inner (.invoke target)
  | describe typeName => ∀ v, inner (.fixed typeName .invoker v none)
  | fixed typeName _ _ whenSkipped => ∀ v, inner (.fixed typeName .action v whenSkipped)

/-- Whether the children of an element are left out of the program. -/
def Maker.closes : Maker → Bool
  | literal | expression | describe _ => true
  | fixed _ closed _ _ => closed
  | _ => false

/-- The tags that come from a root. -/
def RootMaker.Makes (root : Tag → Prop) : RootMaker → Prop
  | scenario => root .scenario
  | block typeName => root (.block typeName)
  | refused _ => True

/-- The tags that programs made with a registry can have. -/
structure Registry.Makes (root inner : Tag → Prop) (r : Registry) : Prop where
  tags : ∀ {l ns name res}, r.resolve? l ns name = some res → res.maker.Makes inner
  data : ∀ name mode, inner (.data name mode false)
  expression : ∀ e, inner (.expression e)
  roots : ∀ {name m}, r.root? name = some m → m.Makes root

theorem Maker.Makes.mono {inner inner' : Tag → Prop} (h : ∀ t, inner t → inner' t) {m : Maker}
    (hm : m.Makes inner) : m.Makes inner' := by
  cases m with
  | conditional | alternative | bean _ => exact h _ hm
  | data _ | mutex => exact fun x y => h _ (hm x y)
  | _ => exact fun x => h _ (hm x)

/-- A registry that makes tags of some kinds makes tags of any wider kinds. -/
theorem Registry.Makes.mono {root root' inner inner' : Tag → Prop} {r : Registry}
    (hr : r.Makes root inner) (hroot : ∀ t, root t → root' t) (h : ∀ t, inner t → inner' t) :
    r.Makes root' inner' where
  tags hres := (hr.tags hres).mono h
  data name mode := h _ (hr.data name mode)
  expression e := h _ (hr.expression e)
  roots := by
    intro name m hm
    have hmakes := hr.roots hm
    cases m with
    | scenario | block _ => exact hroot _ hmakes
    | refused _ => trivial

/-- A registry makes the tags of its libraries, data tags, expressions and references. -/
theorem Registry.makes_of_libraries {root inner : Tag → Prop} {r : Registry}
    (htags : ∀ l ∈ r.libraries, ∀ name m, l.get? name = some m → m.Makes inner)
    (hrefer : r.reference.Makes inner) (hdata : ∀ name mode, inner (.data name mode false))
    (hexpr : ∀ e, inner (.expression e)) (hroots : ∀ x ∈ r.roots, x.2.Makes root) :
    r.Makes root inner where
  tags := by
    intro l ns name res h
    have hany : ∀ {res}, r.anyLibrary? name = some res → res.maker.Makes inner := by
      intro res h
      obtain ⟨m, hm, rfl⟩ := Option.map_eq_some_iff.1 h
      obtain ⟨l, hl, hm⟩ := List.exists_of_findSome?_eq_some hm
      exact htags l hl name m hm
    have href : ∀ {res}, r.reference? l name = some res → res.maker.Makes inner := by
      intro res h
      obtain ⟨t, -, rfl⟩ := Option.map_eq_some_iff.1 h
      exact hrefer
    have hns : ∀ {uri res}, r.namespaceLibrary? uri name = some res → res.maker.Makes inner := by
      intro uri res h
      obtain ⟨m, hm, rfl⟩ := Option.map_eq_some_iff.1 h
      obtain ⟨l, hl, hm⟩ := List.exists_of_findSome?_eq_some hm
      exact htags l (List.mem_filter.1 hl).1 name m hm
    unfold resolve? at h
    cases ns with
    | none =>
      simp only [Option.or_eq_some_iff, Option.some.injEq] at h
      obtain (h | ⟨-, h⟩) | ⟨-, rfl⟩ := h
      · exact hany h
      · exact href h
      · exact hdata
    | some uri =>
      dsimp only at h
      split at h
      · cases h
        exact hdata
      · split at h
        · exact hany h
        · split at h
          · exact href h
          · obtain h | ⟨-, h⟩ := Option.or_eq_some_iff.1 h
            · exact hns h
            · exact href h
  data := hdata
  expression := hexpr
  roots := by
    intro name m h
    obtain ⟨_, _, h, -⟩ := List.lookup_eq_some_iff.1 h
    exact hroots (name, m) (by simp [h])

/-- A relation of worlds that respects whatever parsing does to the world. -/
structure ParseLaw (root inner : Tag → Prop) (R : World → World → Prop) : Prop where
  refl : ∀ w, R w w
  trans : ∀ {u v w}, R u v → R v w → R u w
  write : ∀ w r, R w (w.write r)
  describe : ∀ w key, R w { w with described := w.described.push key }
  add : ∀ w (e : Entity), e.program = none → R w (w.addEntity e).1
  within : ∀ {u v} key, R (u.start key) v → R u v.stop
  complete : ∀ w key p, Program.Formed root inner p → R w (w.complete key p)
  keep : ∀ w path key, R w (w.keep path key)

/-- A relation of worlds, which may depend on the failure that a step ends with, that respects
whatever making a program does by itself. -/
structure StepLaw (R : Option ParseError → World → World → Prop) : Prop where
  refl : ∀ w, R none w w
  trans : ∀ {o u v w}, R none u v → R o v w → R o u w
  describe : ∀ w key, R none w { w with described := w.described.push key }
  refuse : ∀ w name line path detail, R (some (.tag name line path detail)) w w

/-- What parsing respects, making a program does. -/
theorem ParseLaw.steps {root inner : Tag → Prop} {R : World → World → Prop}
    (law : ParseLaw root inner R) : StepLaw fun _ => R where
  refl := law.refl
  trans := law.trans
  describe := law.describe
  refuse w _ _ _ _ := law.refl w

namespace Parse

variable {α β : Type} {R : Option ParseError → World → World → Prop} {Q : α → Prop} {Q' : β → Prop}

/-! ### Steps of parsing -/

/-- The failure that a step ended with. -/
def failure? : Except ParseError α → Option ParseError
  | .ok _ => none
  | .error e => some e

/-- A step of parsing respects a relation of worlds, and what it gives has a property. -/
def Sat (R : Option ParseError → World → World → Prop) (x : Parse α) (Q : α → Prop) : Prop :=
  ∀ w, R (failure? (x.run.run w).1) w (x.run.run w).2 ∧ ∀ a, (x.run.run w).1 = .ok a → Q a

theorem sat_pure (law : StepLaw R) {a : α} (h : Q a) : Sat R (pure a) Q := by
  intro w
  refine ⟨law.refl w, fun b hb => ?_⟩
  cases hb
  exact h

theorem sat_throw {e : ParseError} (h : ∀ w, R (some e) w w) : Sat R (throw e) Q := by
  intro w
  refine ⟨h w, fun b hb => ?_⟩
  cases hb

theorem sat_get (law : StepLaw R) : Sat R get fun _ => True :=
  fun w => ⟨law.refl w, fun _ _ => trivial⟩

theorem sat_modify {f : World → World} (h : ∀ w, R none w (f w)) :
    Sat R (modify f : Parse Unit) fun _ => True :=
  fun w => ⟨h w, fun _ _ => trivial⟩

theorem sat_bind (law : StepLaw R) {x : Parse α} {f : α → Parse β} (hx : Sat R x Q)
    (hf : ∀ a, Q a → Sat R (f a) Q') : Sat R (x >>= f) Q' := by
  intro w
  obtain ⟨hR, hQ⟩ := hx w
  have h : (x >>= f).run.run w = (ExceptT.bindCont f (x.run.run w).1).run (x.run.run w).2 := rfl
  rw [h]
  rcases hw : x.run.run w with ⟨e | a, w₁⟩
  · rw [hw] at hR
    refine ⟨hR, fun b hb => ?_⟩
    cases hb
  · rw [hw] at hR hQ
    obtain ⟨hR', hQ'⟩ := hf a (hQ a rfl) w₁
    exact ⟨law.trans hR hR', hQ'⟩

theorem sat_mapM (law : StepLaw R) {f : α → Parse β} (hf : ∀ a, Sat R (f a) Q') :
    ∀ as : List α, Sat R (as.mapM f) fun bs => ∀ b ∈ bs, Q' b
  | [] => by
    rw [List.mapM_nil]
    exact sat_pure law (by simp)
  | a :: as => by
    rw [List.mapM_cons]
    refine sat_bind law (hf a) fun b hb => sat_bind law (sat_mapM law hf as) fun bs hbs => ?_
    refine sat_pure law ?_
    simp only [List.mem_cons, forall_eq_or_imp]
    exact ⟨hb, hbs⟩

/-- A step ends as it does, with its entity no longer in progress. -/
theorem run_inProgress (key : EntityKey) (x : Parse α) (w : World) :
    (inProgress key x).run.run w =
      ((x.run.run (w.start key)).1, (x.run.run (w.start key)).2.stop) := rfl

end Parse

/-- The resource that an element refers to is registered under its name. -/
theorem Registry.resolve?_target {reg : Registry} {l : Locator} {ns : Option String} {name : String}
    {r : Resolved} {t : Resource} (h : reg.resolve? l ns name = some r) (ht : r.target = some t) :
    r.maker = reg.reference ∧ l.get? name = some t := by
  have hany : reg.anyLibrary? name ≠ some r := by
    intro h
    obtain ⟨m, -, rfl⟩ := Option.map_eq_some_iff.1 h
    cases ht
  have hns : ∀ uri, reg.namespaceLibrary? uri name ≠ some r := by
    intro uri h
    obtain ⟨m, -, rfl⟩ := Option.map_eq_some_iff.1 h
    cases ht
  have hdata : some dataTag ≠ some r := by
    rintro ⟨⟩
    cases ht
  have href : reg.reference? l name = some r → r.maker = reg.reference ∧ l.get? name = some t := by
    intro h
    obtain ⟨t', hget, rfl⟩ := Option.map_eq_some_iff.1 h
    cases ht
    exact ⟨rfl, hget⟩
  unfold resolve? at h
  cases ns with
  | none =>
    simp only [Option.or_eq_some_iff] at h
    obtain (h | ⟨-, h⟩) | ⟨-, h⟩ := h
    · exact absurd h hany
    · exact href h
    · exact absurd h hdata
  | some uri =>
    dsimp only at h
    split at h
    · exact absurd h hdata
    · split at h
      · exact absurd h hany
      · split at h
        · exact href h
        · obtain h | ⟨-, h⟩ := Option.or_eq_some_iff.1 h
          · exact absurd h (hns uri)
          · exact href h

theorem Registry.resolve_eq_ok {reg : Registry} {l : Locator} {ns : Option String} {name : String}
    {r : Resolved} : reg.resolve l ns name = .ok r ↔ reg.resolve? l ns name = some r := by
  unfold resolve
  cases reg.resolve? l ns name <;> simp

theorem Registry.resolve_eq_error {reg : Registry} {l : Locator} {ns : Option String}
    {name detail : String} : reg.resolve l ns name = .error detail ↔
      reg.resolve? l ns name = none ∧ detail = unknownTag ns name := by
  unfold resolve
  cases reg.resolve? l ns name with
  | none => simp [eq_comm]
  | some r => simp

namespace Tree

variable {α : Type}

mutual

/-- Numbering keeps the labels in their order. -/
theorem labels_numberFrom (n : Nat) : (t : Tree α) → (t.numberFrom n).labels.map Prod.snd = t.labels
  | node a ts => by simp [numberFrom, labels, labelsAll_numberAll (n + 1) ts]

theorem labelsAll_numberAll (n : Nat) :
    (ts : List (Tree α)) → (labelsAll (numberAll n ts)).map Prod.snd = labelsAll ts
  | [] => rfl
  | t :: ts => by
    simp [numberAll, labelsAll, labels_numberFrom n t, labelsAll_numberAll (n + t.size) ts]

end

mutual

/-- The numbers of a numbered tree are those from the first one on. -/
theorem places_numberFrom (n : Nat) :
    (t : Tree α) → (t.numberFrom n).labels.map Prod.fst = List.range' n t.size
  | node a ts => by
    rw [numberFrom, labels, List.map_cons, placesAll_numberAll (n + 1) ts, size,
      Nat.add_comm 1, List.range'_succ]

theorem placesAll_numberAll (n : Nat) :
    (ts : List (Tree α)) → (labelsAll (numberAll n ts)).map Prod.fst = List.range' n (sizeAll ts)
  | [] => rfl
  | t :: ts => by
    rw [numberAll, labelsAll, List.map_append, places_numberFrom n t,
      placesAll_numberAll (n + t.size) ts, sizeAll, List.range'_append_1]

end

theorem mem_labelsAll {ts : List (Tree α)} {a : α} :
    a ∈ labelsAll ts ↔ ∃ t ∈ ts, a ∈ t.labels := by
  induction ts with
  | nil => simp [labelsAll]
  | cons t ts ih => simp [labelsAll, ih]

end Tree

namespace Assembly

open Parse

variable {root inner : Tag → Prop} {R : Option ParseError → World → World → Prop} {cx : Assembly}

/-! ### Making instructions -/

/-- All instructions of a tree have tags of a kind, its data tags have the modes that their places
ask for, and its branches have no result names. -/
structure Within (inner : Tag → Prop) (enclosing : TagKind) (t : Tree Instruction) : Prop where
  tags : ∀ i ∈ t.labels, inner i.tag ∧ i.Unnamed
  placed : t.Placed Instruction.tag enclosing

theorem within_node {i : Instruction} {ts : List (Tree Instruction)} {enclosing : TagKind}
    (hi : inner i.tag) (hbranch : i.Unnamed) (hfits : i.tag.Fits enclosing)
    (hts : ∀ t ∈ ts, Within inner (i.tag.around enclosing) t) :
    Within inner enclosing (.node i ts) := by
  refine ⟨fun j hj => ?_, hfits, Tree.placedAll_iff.2 fun t ht => (hts t ht).placed⟩
  rw [Tree.labels, List.mem_cons, Tree.mem_labelsAll] at hj
  obtain rfl | ⟨t, ht, hj⟩ := hj
  · exact ⟨hi, hbranch⟩
  · exact (hts t ht).tags j hj

/-- The mode of a data tag is the one that its place asks for. -/
theorem dataMode_eq {name : String} {enclosing : TagKind} {hasId fallback : Bool} {mode : DataMode}
    (h : dataMode name enclosing hasId fallback = .ok mode) : mode = DataMode.inside enclosing := by
  unfold dataMode at h
  dsimp only at h
  split at h
  · cases h
  · split at h
    · cases h
    · split at h
      · cases h
      · split at h
        · cases h
        · split at h
          · cases h
          · cases h
            rfl

theorem sat_refuse {α : Type} {Q : α → Prop} (law : StepLaw R) (h : Xml.Head) (detail : String) :
    Sat R (cx.refuse h detail) Q :=
  sat_throw fun w => law.refuse w _ _ _ _

theorem sat_refuse_bind {α β : Type} {Q : β → Prop} (law : StepLaw R) (h : Xml.Head)
    (detail : String) (f : α → Parse β) : Sat R (cx.refuse h detail >>= f) Q :=
  sat_bind law (sat_refuse law h detail : Sat R _ fun _ => False) fun _ hfalse => hfalse.elim

theorem sat_orRefuse {α : Type} (law : StepLaw R) (h : Xml.Head)
    (r : Except String α) : Sat R (cx.orRefuse h r) fun a => r = .ok a := by
  cases r with
  | ok a => exact sat_pure law rfl
  | error detail => exact sat_refuse law h detail

theorem sat_checkChildren (law : StepLaw R) (h : Xml.Head) :
    ∀ ns : List Xml.Node, Sat R (cx.checkChildren h ns) fun _ => True
  | [] => sat_pure law trivial
  | .text _ _ :: ns => sat_checkChildren law h ns
  | .element _ _ :: ns =>
    sat_bind law (sat_orRefuse law h _) fun _ _ => sat_checkChildren law h ns

theorem sat_compile (law : StepLaw R) (h : Xml.Head) (source : Option String) :
    Sat R (source.mapM fun s => cx.orRefuse h (cx.evaluator.compileNamed s)) fun _ => True := by
  cases source with
  | none => exact sat_pure law trivial
  | some s => exact sat_bind law (sat_orRefuse law h _) fun _ _ => sat_pure law trivial

/-- What is said of the plan of an element: the tag is one that its maker makes, in its place, the
maker says whether children count, a branch has no attribute for a result name, and the data tags in
front are attributes of the element. -/
structure Planned (inner : Tag → Prop) (enclosing : TagKind) (m : Maker) (h : Xml.Head)
    (p : Plan) : Prop where
  tag : inner p.tag
  fits : p.tag.Fits enclosing
  closed : p.closed = m.closes
  unnamed : p.tag = .conditional ∨ p.tag = .alternative → m.attrs.id = none
  pushed : p.pushed ⊆ h.attrs

theorem filter_plainAttrs_subset (h : Xml.Head) (keep : Xml.Attr → Bool) :
    (plainAttrs h).filter keep ⊆ h.attrs :=
  fun _ ha => (List.mem_filter.1 (List.mem_filter.1 ha).1).1

theorem sat_plan (law : StepLaw R) (site : Site) (h : Xml.Head) (children : List Xml.Node)
    {r : Resolved} (hr : r.maker.Makes inner)
    (hrefer : ∀ t ∈ r.target, Sat R (cx.refer t) fun _ => True) :
    Sat R (cx.plan site h children r) (Planned inner site.enclosing r.maker h) := by
  obtain ⟨maker, target⟩ := r
  unfold plan
  cases maker with
  | data fallback =>
    exact sat_bind law (sat_orRefuse law h _) fun mode hm =>
      sat_pure law ⟨hr _ mode, dataMode_eq hm, rfl, by simp, filter_plainAttrs_subset h _⟩
  | literal => exact sat_pure law ⟨hr _, trivial, rfl, by simp, List.nil_subset _⟩
  | expression =>
    dsimp only
    split
    · exact sat_refuse_bind law h _ _
    · exact sat_bind law (sat_orRefuse law h _) fun e _ =>
        sat_pure law ⟨hr e, trivial, rfl, by simp, List.nil_subset _⟩
  | conditional =>
    dsimp only
    split
    · exact sat_refuse_bind law h _ _
    · exact sat_pure law ⟨hr, trivial, rfl, fun _ => rfl, List.nil_subset _⟩
  | alternative =>
    dsimp only
    split
    · exact sat_refuse_bind law h _ _
    · exact sat_pure law ⟨hr, trivial, rfl, fun _ => rfl, List.nil_subset _⟩
  | mutex =>
    exact sat_bind law (sat_compile law h _) fun _ _ =>
      sat_bind law (sat_compile law h _) fun _ _ =>
        sat_pure law ⟨hr _ _, trivial, rfl, by simp, List.nil_subset _⟩
  | bean b =>
    exact sat_bind law (sat_checkChildren law h _) fun _ _ =>
      sat_pure law ⟨hr, trivial, rfl, by simp [callPlan], filter_plainAttrs_subset h _⟩
  | invoke =>
    refine sat_bind law (sat_checkChildren law h _) fun _ _ => ?_
    cases target with
    | none => exact sat_refuse law h _
    | some t =>
      refine sat_bind law (hrefer t rfl) fun found _ => ?_
      cases found with
      | none => exact sat_refuse law h _
      | some key =>
        exact sat_pure law ⟨hr _, trivial, rfl, by simp [callPlan], filter_plainAttrs_subset h _⟩
  | describe typeName =>
    cases target with
    | none => exact sat_pure law ⟨hr _, trivial, rfl, by simp, List.nil_subset _⟩
    | some t =>
      refine sat_bind law (hrefer t rfl) fun found _ => ?_
      cases found with
      | none => exact sat_pure law ⟨hr _, trivial, rfl, by simp, List.nil_subset _⟩
      | some key =>
        exact sat_bind law (sat_modify fun w => law.describe w key) fun _ _ =>
          sat_bind law (sat_get law) fun _ _ =>
            sat_pure law ⟨hr _, trivial, rfl, by simp, List.nil_subset _⟩
  | fixed typeName closed v whenSkipped =>
    exact sat_pure law ⟨hr _, trivial, rfl, by simp, List.nil_subset _⟩

/-- Without an attribute for it there is no result name. -/
theorem binding_eq_none {e : Evaluator} {h : Xml.Head} {attrs : TagAttrs} {id : Option ResultId}
    (hid : binding e h attrs = .ok id) (hattrs : attrs.id = none) : id = none := by
  rw [binding, hattrs] at hid
  cases hid
  rfl

theorem sat_textLeaf (law : StepLaw R) (hreg : cx.registry.Makes root inner)
    (text : String) (line : Nat) :
    Sat R (cx.textLeaf text line) fun t => ∀ enclosing, Within inner enclosing t :=
  sat_bind law (sat_orRefuse law _ _) fun e _ =>
    sat_pure law fun _ => within_node (hreg.expression e) (fun _ => rfl) trivial (by simp)

theorem sat_attrLeaf (law : StepLaw R) (hreg : cx.registry.Makes root inner)
    (enclosing : TagKind) (line : Nat) (a : Xml.Attr) :
    Sat R (cx.attrLeaf enclosing line a) (Within inner enclosing) := by
  refine sat_bind law (sat_orRefuse law _ _) fun mode hm => ?_
  split
  · exact sat_pure law
      (within_node (hreg.data a.name mode) (fun _ => rfl) (dataMode_eq hm) (by simp))
  · exact sat_bind law (sat_textLeaf law hreg a.value line) fun t ht =>
      sat_pure law (within_node (hreg.data a.name mode) (fun _ => rfl) (dataMode_eq hm)
        (by simpa using ht _))

theorem within_wrapped (hreg : cx.registry.Makes root inner) (site : Site) (line : Nat)
    {t : Tree Instruction} (ht : Within inner .data t) :
    Within inner site.enclosing (wrapped site line t) :=
  within_node (hreg.data _ _) (fun _ => rfl) rfl (by simpa [Tag.around, Tag.kind] using ht)

mutual

/-- The instructions of a child node have the tags that the registry makes. -/
theorem sat_node (law : StepLaw R)
    (hrefer : ∀ {name t}, cx.locator.get? name = some t → Sat R (cx.refer t) fun _ => True)
    (hreg : cx.registry.Makes root inner) (site : Site) (wraps : Bool) :
    ∀ n : Xml.Node, Sat R (cx.node site wraps n) fun t? => ∀ t ∈ t?, Within inner site.enclosing t
  | .text s line => by
    rw [node]
    split
    · exact sat_pure law (by simp)
    · refine sat_bind law (sat_textLeaf law hreg s line) fun t ht => sat_pure law ?_
      cases wraps with
      | true => simpa using within_wrapped hreg site line (ht _)
      | false => simpa using ht _
  | .element h children => by
    rw [node]
    refine sat_bind law (sat_orRefuse law h _) fun r hr => ?_
    have hr := Registry.resolve_eq_ok.1 hr
    refine sat_bind law (sat_orRefuse law h _) fun id hid => ?_
    refine sat_bind law (sat_orRefuse law h _) fun cond _ => ?_
    -- a call that becomes a parameter stands inside a data tag
    generalize hhere : (if (wraps && cx.isCall h) = true then inside site .data else site) = here
    refine sat_bind law (sat_plan law here h children (hreg.tags hr) fun t ht =>
      hrefer (Registry.resolve?_target hr ht).2) fun p hp => ?_
    refine sat_bind law (sat_mapM law (fun a => sat_attrLeaf law hreg _ h.line a) _)
      fun pushed hpushed => ?_
    have below : ∀ rest : List (Tree Instruction),
        (∀ t ∈ rest, Within inner (p.tag.around here.enclosing) t) →
        Within inner here.enclosing (.node
          { name := h.name, line := h.line, guard := cond, binding := id, tag := p.tag }
          (pushed ++ rest)) := by
      intro rest hrest
      refine within_node hp.tag (fun hbranch => binding_eq_none hid (hp.unnamed hbranch)) hp.fits
        fun t ht => ?_
      obtain ht | ht := List.mem_append.1 ht
      · exact hpushed t ht
      · exact hrest t ht
    have outer : ∀ t : Tree Instruction, Within inner here.enclosing t →
        ∀ u ∈ (some (if (wraps && cx.isCall h) = true then wrapped site h.line t else t) :
          Option (Tree Instruction)), Within inner site.enclosing u := by
      intro t ht u hu
      cases hu
      subst hhere
      split
      · rw [if_pos ‹_›] at ht
        exact within_wrapped hreg site h.line ht
      · rwa [if_neg ‹_›] at ht
    cases hcl : p.closed with
    | true =>
      simp only [if_true]
      refine sat_pure law ?_
      exact outer _ (below [] (by simp))
    | false =>
      simp only [Bool.false_eq_true, if_false]
      refine sat_bind law (sat_nodes law hrefer hreg _ _ children) fun rest hrest => sat_pure law ?_
      exact outer _ (below rest hrest)

theorem sat_nodes (law : StepLaw R)
    (hrefer : ∀ {name t}, cx.locator.get? name = some t → Sat R (cx.refer t) fun _ => True)
    (hreg : cx.registry.Makes root inner) (site : Site) (wraps : Bool) :
    ∀ ns : List Xml.Node,
      Sat R (cx.nodes site wraps ns) fun ts => ∀ t ∈ ts, Within inner site.enclosing t
  | [] => by
    rw [nodes]
    exact sat_pure law (by simp)
  | n :: ns => by
    rw [nodes]
    refine sat_bind law (sat_node law hrefer hreg site wraps n) fun t? ht => ?_
    cases t? with
    | none => exact sat_nodes law hrefer hreg site wraps ns
    | some t =>
      refine sat_bind law (sat_nodes law hrefer hreg _ wraps ns) fun ts hts => sat_pure law ?_
      simp only [List.mem_cons, forall_eq_or_imp]
      exact ⟨ht t rfl, hts⟩

end

/-- The program of a document has a root that the registry makes, which always runs, and below it
the tags that the registry makes, each in its place. -/
theorem sat_document (law : StepLaw R)
    (hrefer : ∀ {name t}, cx.locator.get? name = some t → Sat R (cx.refer t) fun _ => True)
    (hreg : cx.registry.Makes root inner) (el : Xml.Element) {maker : RootMaker}
    (hm : maker.Makes root) :
    Sat R (cx.document el maker) (Program.Formed root inner) := by
  have build : ∀ tag : Tag, root tag → tag.kind = .entity → tag.Fits .entity → Sat R (do
      let site : Site := { path := cx.path, names := cx.locator.names }
      let children ← cx.nodes site false el.children
      return (Tree.node { name := el.head.name, line := el.head.line, tag } children).number :
        Parse Program) (Program.Formed root inner) := by
    intro tag htag hkind hfits
    refine sat_bind law (sat_nodes law hrefer hreg _ false el.children) fun ts hts => ?_
    -- what is below the root
    have hbelow : ∀ x ∈ Tree.labelsAll (Tree.numberAll 1 ts), inner x.2.tag ∧ x.2.Unnamed := by
      intro x hx
      have hx' : x.2 ∈ Tree.labelsAll ts := by
        rw [← Tree.labelsAll_numberAll 1 ts]
        exact List.mem_map_of_mem hx
      obtain ⟨t, ht, hxt⟩ := Tree.mem_labelsAll.1 hx'
      exact (hts t ht).tags _ hxt
    refine sat_pure law ⟨⟨?_, htag, rfl, rfl, fun x hx => (hbelow x hx).1⟩, ?_, ?_⟩
    · rw [Tree.number, Tree.places_numberFrom]
      exact List.nodup_range'
    · refine (Tree.placed_numberFrom Instruction.tag .entity 0 _).2 ⟨hfits, ?_⟩
      refine Tree.placedAll_iff.2 fun t ht => ?_
      rw [Tag.around, hkind]
      exact (hts t ht).placed
    · intro x hx
      obtain rfl | hx := List.mem_cons.1 hx
      · exact fun _ => rfl
      · exact (hbelow x hx).2
  cases maker with
  | scenario => exact build _ hm rfl rfl
  | block typeName => exact build _ hm rfl rfl
  | refused reason => exact sat_refuse_bind law _ _ _

end Assembly

namespace Setup

open Parse

variable {root inner : Tag → Prop} {R : World → World → Prop} {st : Setup}

/-! ### Entities -/

theorem sat_report (law : ParseLaw root inner R) (level : Level) (message : String) (r : Resource)
    (more : List (String × String)) :
    Sat (fun _ => R) (report level message r more) fun _ => True :=
  sat_modify fun w => law.write w _

theorem sat_readDocument (law : ParseLaw root inner R) (r : Resource) :
    Sat (fun _ => R) (readDocument r) fun _ => True := by
  refine sat_bind law.steps (sat_get law.steps) fun w _ => ?_
  cases w.storage.read r with
  | error detail => exact sat_throw law.refl
  | ok text =>
    dsimp only
    cases Xml.read text with
    | error e => exact sat_throw law.refl
    | ok el => exact sat_pure law.steps trivial

theorem sat_inProgress {α : Type} {Q : α → Prop} (law : ParseLaw root inner R) (key : EntityKey)
    {x : Parse α} (hx : Sat (fun _ => R) x Q) : Sat (fun _ => R) (inProgress key x) Q := by
  intro w
  rw [run_inProgress]
  exact ⟨law.within key (hx _).1, (hx _).2⟩

theorem sat_make (law : ParseLaw root inner R)
    {assemble : Xml.Element → RootMaker → Parse Program} {maker : RootMaker}
    (hassemble : ∀ el, Sat (fun _ => R) (assemble el maker) (Program.Formed root inner))
    (r : Resource) (timestamp : Option Stamp) (el : Xml.Element) :
    Sat (fun _ => R) (st.make assemble r timestamp el maker) fun _ => True := by
  let e : Entity := { resource := r, rootTag := el.head.name, timestamp }
  have add : Sat (fun _ => R) (modifyGet fun w => ((w.addEntity e).2, (w.addEntity e).1) :
      Parse EntityKey) fun _ => True :=
    fun w => ⟨law.add w e rfl, fun _ _ => trivial⟩
  refine sat_bind law.steps (sat_report law _ _ _ _) fun _ _ => ?_
  refine sat_bind law.steps add fun key _ => ?_
  refine sat_bind law.steps (sat_inProgress law key (hassemble el)) fun p hp => ?_
  refine sat_bind law.steps (sat_modify fun w => law.complete w key p hp) fun _ _ => ?_
  split
  · exact sat_bind law.steps (sat_modify fun w => law.keep w r.path key) fun _ _ =>
      sat_pure law.steps trivial
  · exact sat_pure law.steps trivial

theorem sat_parseWith (law : ParseLaw root inner R) (hreg : st.registry.Makes root inner)
    {assemble : Xml.Element → RootMaker → Parse Program} (r : Resource) (force : Bool)
    (hassemble : ∀ el maker, maker.Makes root →
      Sat (fun _ => R) (assemble el maker) (Program.Formed root inner)) :
    Sat (fun _ => R) (st.parseWith assemble r force) fun _ => True := by
  have reports : ∀ (level : Level) (message : String) (more : List (String × String))
      (a : Option EntityKey), Sat (fun _ => R) (report level message r more >>= fun _ => pure a)
        fun _ => True := fun _ _ _ _ =>
    sat_bind law.steps (sat_report law _ _ _ _) fun _ _ => sat_pure law.steps trivial
  refine sat_bind law.steps (sat_get law.steps) fun w _ => ?_
  split
  · exact reports _ _ _ _
  · split
    · exact reports _ _ _ _
    · split
      · exact reports _ _ _ _
      · refine sat_bind law.steps (sat_readDocument law r) fun el _ => ?_
        cases hm : st.registry.root? el.head.name with
        | none => exact reports _ _ _ _
        | some maker =>
          have hmake := fun el => hassemble el maker (hreg.roots hm)
          exact sat_bind law.steps (sat_make law hmake r _ el) fun _ _ => sat_pure law.steps trivial

/-- Parsing respects the law at every depth at which resources refer to each other. -/
theorem sat_parseIn (law : ParseLaw root inner R) (hreg : st.registry.Makes root inner)
    (depth : Nat) (r : Resource) (force : Bool) :
    Sat (fun _ => R) (st.parseIn depth r force) fun _ => True := by
  induction depth generalizing r force with
  | zero => exact sat_parseWith law hreg r force fun _ _ _ => sat_throw law.refl
  | succ depth ih =>
    refine sat_parseWith law hreg r force fun el maker hm => ?_
    exact sat_bind law.steps (sat_get law.steps) fun w _ =>
      Assembly.sat_document law.steps (fun {_ t} _ => ih t false) hreg el hm

/-- **Asking for a resource respects every law of parsing** for which it does not matter what is in
progress. -/
theorem load_sat (law : ParseLaw root inner R) (hidle : ∀ w, R w w.idle)
    (hreg : st.registry.Makes root inner) (name : String) :
    Sat (fun _ => R) (st.load name) fun _ => True := by
  refine sat_bind law.steps (sat_get law.steps) fun w _ => ?_
  split
  · exact sat_throw law.refl
  · refine sat_bind law.steps (sat_bind law.steps (sat_modify hidle) fun _ _ =>
      sat_bind law.steps (sat_get law.steps) fun w _ => sat_parseIn law hreg _ _ false)
      fun found _ => ?_
    cases found with
    | none => exact sat_throw law.refl
    | some key => exact sat_pure law.steps trivial

end Setup

/-! ### The journal -/

/-- The journal of the second world is that of the first with log records added. -/
def World.Recorded (w w' : World) : Prop :=
  ∃ rs : List Record, w'.journal.toList = w.journal.toList ++ rs.map .record

theorem World.Recorded.refl (w : World) : w.Recorded w := ⟨[], by simp⟩

theorem recorded_law : ParseLaw (fun _ => True) (fun _ => True) World.Recorded where
  refl := World.Recorded.refl
  trans := by
    rintro u v w ⟨rs, h⟩ ⟨rs', h'⟩
    exact ⟨rs ++ rs', by rw [h', h, List.map_append, List.append_assoc]⟩
  write w r := ⟨[r], Journal.toList_push _ _⟩
  describe w _ := ⟨[], by simp⟩
  add w _ _ := ⟨[], by simp [World.addEntity]⟩
  within _ h := h
  complete w _ _ _ := ⟨[], by simp [World.complete]⟩
  keep w _ _ := ⟨[], by simp [World.keep, World.evict]⟩

/-- Any registry makes tags. -/
theorem Registry.makes_any (r : Registry) : r.Makes (fun _ => True) fun _ => True where
  tags := by
    intro l ns name res _
    cases res.maker <;> simp [Maker.Makes]
  data _ _ := trivial
  expression _ := trivial
  roots := by
    intro name m _
    cases m <;> simp [RootMaker.Makes]

/-- Asking for a resource adds nothing but log records to the journal. -/
theorem Setup.load_records (st : Setup) (name : String) (w : World) :
    w.Recorded ((st.load name).run.run w).2 :=
  (load_sat recorded_law (fun _ => ⟨[], by simp [World.idle]⟩) st.registry.makes_any name w).1

/-! ### The programs of entities -/

theorem World.entity?_addEntity (w : World) (e : Entity) (key : EntityKey) :
    (w.addEntity e).1.entity? key = if key = w.entities.size then some e else w.entity? key :=
  Array.getElem?_push

theorem World.entity?_complete (w : World) (key : EntityKey) (p : Program) (k : EntityKey) :
    (w.complete key p).entity? k =
      if key = k then (w.entity? k).map fun e => { e with program := some p } else w.entity? k :=
  Array.getElem?_modify

/-- All entities that can be run have programs with a property. -/
def World.Programs (P : Program → Prop) (w : World) : Prop :=
  ∀ key p, (w.entity? key).bind Entity.program = some p → P p

theorem World.programs_of_none {P : Program → Prop} {w : World} (h : w.entities = #[]) :
    w.Programs P := by
  intro key p hp
  simp [World.entity?, h] at hp

/-- What holds of every program that is made stays true of all programs. -/
theorem programs_law {root inner : Tag → Prop} {P : Program → Prop}
    (hP : ∀ p, Program.Formed root inner p → P p) :
    ParseLaw root inner fun w w' => w.Programs P → w'.Programs P where
  refl _ h := h
  trans h h' hu := h' (h hu)
  write _ _ h := h
  describe _ _ h := h
  add w e he h := by
    intro key p hp
    rw [World.entity?_addEntity] at hp
    split at hp
    · simp [he] at hp
    · exact h key p hp
  within _ h := h
  complete w key p hformed h := by
    intro key' p' hp
    rw [World.entity?_complete] at hp
    split at hp
    · obtain ⟨e, he, hp⟩ := Option.bind_eq_some_iff.1 hp
      obtain ⟨e', -, rfl⟩ := Option.map_eq_some_iff.1 he
      cases hp
      exact hP p hformed
    · exact h key' p' hp
  keep _ _ _ h := h

/-- All entities that can be run are made from tags of two kinds, for the root and below it. -/
def World.Made (root inner : Tag → Prop) (w : World) : Prop := w.Programs (Scenario.Made root inner)

/-- Asking for a resource leaves all entities made from the tags of the registry. -/
theorem Setup.load_made {root inner : Tag → Prop} {st : Setup}
    (hreg : st.registry.Makes root inner) (name : String) {w : World} (h : w.Made root inner) :
    World.Made root inner ((st.load name).run.run w).2 :=
  (load_sat (programs_law fun _ hp => hp.made) (fun _ h => h) hreg name w).1 h

/-- Asking for a resource makes programs in which everything is in its place. -/
theorem Setup.load_placed (st : Setup) (name : String) {w : World}
    (h : w.Programs Program.Placed) :
    World.Programs Program.Placed ((st.load name).run.run w).2 :=
  (load_sat (programs_law fun _ hp => hp.placed) (fun _ h => h) st.registry.makes_any name w).1 h

/-- Asking for a resource makes programs in which branches have no result names. -/
theorem Setup.load_unnamed (st : Setup) (name : String) {w : World}
    (h : w.Programs Program.Unnamed) :
    World.Programs Program.Unnamed ((st.load name).run.run w).2 :=
  (load_sat (programs_law fun _ hp => hp.unnamed) (fun _ h => h) st.registry.makes_any name w).1 h

/-! ### The built-in tags -/

namespace Builtin

/-- The tags below the root of a document that uses the built-in tags only. -/
def Inner : Tag → Prop
  | .scenario | .block _ | .fixed _ _ _ _ => False
  | .bean b => b = log ∨ b = «return» ∨ b = exit
  | _ => True

/-- A program made from the built-in tags. -/
abbrev Built (p : Program) : Prop := Made (· = .scenario) Inner p

end Builtin

/-- Of the built-in tags, an alternative may follow a branch that has a condition. -/
theorem Builtin.opensAlternative_iff {i : Instruction} (hi : Inner i.tag) :
    Assembly.opensAlternative i = true ↔
      i.tag = .conditional ∨ i.tag = .alternative ∧ i.guard.isSome = true := by
  unfold Assembly.opensAlternative
  generalize i.tag = tag at hi ⊢
  cases tag with
  | conditional | alternative => simp [Tag.typeName]
  | scenario | block | fixed => exact hi.elim
  | bean b => obtain rfl | rfl | rfl := hi <;> simp [Tag.typeName, log, «return», exit]
  | data name mode fallback => cases fallback <;> simp [Tag.typeName]
  | literal | expression | mutex | invoke => simp [Tag.typeName]

/-- All entities that can be run are made from the built-in tags. -/
def World.Built (w : World) : Prop :=
  ∀ key p, (w.entity? key).bind Entity.program = some p → Builtin.Built p

theorem World.built_of_none {w : World} (h : w.entities = #[]) : w.Built := programs_of_none h

namespace Builtin

theorem library_makes {name : String} {m : Maker} (h : library.get? name = some m) :
    m.Makes Inner := by
  obtain ⟨_, _, h, -⟩ := List.lookup_eq_some_iff.1 h
  have hm : (name, m) ∈ library.tags := by simp [h]
  simp only [library, List.mem_cons, Prod.mk.injEq, List.not_mem_nil, or_false] at hm
  obtain ⟨-, rfl⟩ | ⟨-, rfl⟩ | ⟨-, rfl⟩ | ⟨-, rfl⟩ | ⟨-, rfl⟩ | ⟨-, rfl⟩ | ⟨-, rfl⟩ | ⟨-, rfl⟩ |
    ⟨-, rfl⟩ | ⟨-, rfl⟩ | ⟨-, rfl⟩ := hm <;> simp [Maker.Makes, Inner]

/-- The built-in registry resolves an element to a tag of its library, to a data tag, or to a call
of a resource. -/
theorem registry_makes : registry.Makes (· = .scenario) Inner := by
  refine Registry.makes_of_libraries (fun l hl name m hm => ?_) (fun _ => trivial)
    (fun _ _ => trivial) (fun _ => trivial) fun x hx => ?_
  · obtain rfl : l = library := by simpa [registry] using hl
    exact library_makes hm
  · obtain rfl : x = ("scenario", .scenario) := by simpa [registry] using hx
    rfl

end Builtin

/-- With the built-in tags, asking for a resource leaves all entities made from them. -/
theorem Setup.load_built {st : Setup} (hreg : st.registry = Builtin.registry) (name : String)
    {w : World} (h : w.Built) : World.Built ((st.load name).run.run w).2 :=
  load_made (hreg ▸ Builtin.registry_makes) name h

end Scenario
