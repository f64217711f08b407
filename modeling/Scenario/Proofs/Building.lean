import Scenario.Proofs.Parsing

/-!
# Documents one at a time

While a document is made into instructions, other resources are asked for: those that its elements
refer to. Nothing else about it depends on other documents. `Assembly.assumed` takes every resource
that is referred to for granted, and `targets` lists them. **`gives_document_iff`** says that a
document becomes a program exactly if it does so with its references taken for granted and all of
them are found, one after another; **`fails_document`** that it fails only because an element is
refused or a reference fails.
-/

namespace Scenario

/-- Whether an element was refused. -/
def ParseError.isRefusal : ParseError → Bool
  | tag _ _ _ _ => true
  | _ => false

namespace Registry

mutual

/-- The resources that a node of a document refers to, in order. -/
def targets (reg : Registry) (l : Locator) : Xml.Node → List Resource
  | .text _ _ => []
  | .element h children =>
    match reg.resolve? l h.ns h.name with
    | none => []
    | some r => r.target.toList ++ if r.maker.closes then [] else targetsAll reg l children

/-- The resources that several nodes refer to. -/
def targetsAll (reg : Registry) (l : Locator) : List Xml.Node → List Resource
  | [] => []
  | n :: ns => targets reg l n ++ targetsAll reg l ns

end

mutual

/-- Whatever a document refers to is registered. -/
theorem registered_of_mem_targets {reg : Registry} {l : Locator} {t : Resource} :
    ∀ n : Xml.Node, t ∈ reg.targets l n → ∃ name, l.get? name = some t
  | .text _ _, ht => by
    rw [targets] at ht
    cases ht
  | .element h children, ht => by
    rw [targets] at ht
    cases hr : reg.resolve? l h.ns h.name with
    | none =>
      rw [hr] at ht
      cases ht
    | some r =>
      rw [hr] at ht
      obtain ht | ht := List.mem_append.1 ht
      · exact ⟨h.name, (resolve?_target hr (Option.mem_toList.1 ht)).2⟩
      · split at ht
        · cases ht
        · exact registered_of_mem_targetsAll children ht

theorem registered_of_mem_targetsAll {reg : Registry} {l : Locator} {t : Resource} :
    ∀ ns : List Xml.Node, t ∈ reg.targetsAll l ns → ∃ name, l.get? name = some t
  | [], ht => by
    rw [targetsAll] at ht
    cases ht
  | n :: ns, ht => by
    rw [targetsAll] at ht
    obtain ht | ht := List.mem_append.1 ht
    · exact registered_of_mem_targets n ht
    · exact registered_of_mem_targetsAll ns ht

end

end Registry

namespace Parse

variable {α β : Type} {x : Parse α} {f : α → Parse β} {a : α} {b : β} {w w' : World}
  {e : ParseError}

/-! ### Results of steps -/

/-- From a world, a step gives a result and leads to another world. -/
def Gives (x : Parse α) (w : World) (a : α) (w' : World) : Prop := x.run.run w = (.ok a, w')

/-- From a world, a step fails. -/
def Fails (x : Parse α) (w : World) (e : ParseError) : Prop := (x.run.run w).1 = .error e

theorem run_bind (x : Parse α) (f : α → Parse β) (w : World) :
    (x >>= f).run.run w = (ExceptT.bindCont f (x.run.run w).1).run (x.run.run w).2 := rfl

theorem gives_pure {a' : α} : Gives (pure a) w a' w' ↔ a' = a ∧ w' = w := by
  constructor
  · intro h
    cases h
    exact ⟨rfl, rfl⟩
  · rintro ⟨rfl, rfl⟩
    rfl

theorem gives_throw : ¬ Gives (throw e : Parse α) w a w' := by
  intro h
  cases h

theorem gives_get {u : World} : Gives get w u w' ↔ u = w ∧ w' = w := gives_pure

theorem gives_get_bind {f : World → Parse β} : Gives (get >>= f) w b w' ↔ Gives (f w) w b w' :=
  Iff.rfl

theorem fails_get_bind {f : World → Parse β} : Fails (get >>= f) w e ↔ Fails (f w) w e := Iff.rfl

theorem gives_bind :
    Gives (x >>= f) w b w' ↔ ∃ a w₁, Gives x w a w₁ ∧ Gives (f a) w₁ b w' := by
  unfold Gives
  rw [run_bind]
  rcases x.run.run w with ⟨e | a, w₁⟩
  · constructor
    · intro h
      cases h
    · rintro ⟨a, w₁, h, -⟩
      cases h
  · constructor
    · exact fun h => ⟨a, w₁, rfl, h⟩
    · rintro ⟨a, w₁, h, h'⟩
      cases h
      exact h'

/-- Whatever is given by steps taken one after another is given by one of them. -/
theorem exists_of_gives_mapM {as : List α} {bs : List β} (h : Gives (as.mapM f) w bs w') :
    ∀ b ∈ bs, ∃ a ∈ as, ∃ u u', Gives (f a) u b u' := by
  induction as generalizing w w' bs with
  | nil =>
    rw [List.mapM_nil] at h
    obtain ⟨rfl, -⟩ := gives_pure.1 h
    simp
  | cons a as ih =>
    rw [List.mapM_cons] at h
    obtain ⟨b, w₁, hb, h⟩ := gives_bind.1 h
    obtain ⟨bs', w₂, hbs, h⟩ := gives_bind.1 h
    obtain ⟨rfl, -⟩ := gives_pure.1 h
    refine List.forall_mem_cons.2 ⟨⟨a, List.mem_cons_self, w, w₁, hb⟩, fun b' hb' => ?_⟩
    obtain ⟨a', ha', hgives⟩ := ih hbs b' hb'
    exact ⟨a', List.mem_cons_of_mem a ha', hgives⟩

/-- A step that succeeds goes on where it ended. -/
theorem run_bind_of_gives {w₁ : World} (h : Gives x w a w₁) :
    (x >>= f).run.run w = (f a).run.run w₁ := by
  rw [run_bind, h]
  rfl

/-- A step that fails goes no further. -/
theorem run_bind_of_error {w₁ : World} (h : x.run.run w = (.error e, w₁)) :
    (x >>= f).run.run w = (.error e, w₁) := by
  rw [run_bind, h]
  rfl

theorem fails_pure : ¬ Fails (pure a) w e := by
  intro h
  cases h

theorem fails_bind :
    Fails (x >>= f) w e ↔ Fails x w e ∨ ∃ a w₁, Gives x w a w₁ ∧ Fails (f a) w₁ e := by
  unfold Gives Fails
  rw [run_bind]
  rcases x.run.run w with ⟨e' | a, w₁⟩
  · constructor
    · exact fun h => .inl (by cases h; rfl)
    · rintro (h | ⟨a, w₁, h, -⟩)
      · cases h
        rfl
      · cases h
  · constructor
    · exact fun h => .inr ⟨a, w₁, rfl, h⟩
    · rintro (h | ⟨a, w₁, h, h'⟩)
      · cases h
      · cases h
        exact h'

theorem Gives.unique {a' : α} {w'' : World} (h : Gives x w a w') (h' : Gives x w a' w'') :
    a = a' ∧ w' = w'' := by
  have heq := h.symm.trans h'
  cases heq
  exact ⟨rfl, rfl⟩

theorem Gives.not_fails (h : Gives x w a w') : ¬ Fails x w e := by
  intro he
  have heq := (congrArg Prod.fst h).symm.trans he
  cases heq

/-- A step either gives a result or fails. -/
theorem gives_or_fails (x : Parse α) (w : World) :
    (∃ a w', Gives x w a w') ∨ ∃ e, Fails x w e := by
  rcases h : x.run.run w with ⟨e | a, w'⟩
  · exact .inr ⟨e, congrArg Prod.fst h⟩
  · exact .inl ⟨a, w', h⟩

theorem fails_iff_failure? : Fails x w e ↔ failure? (x.run.run w).1 = some e := by
  unfold Fails
  cases (x.run.run w).1 with
  | ok a => simp [failure?]
  | error e' => simp [failure?]

instance (x : Parse α) (w : World) (e : ParseError) : Decidable (Fails x w e) :=
  decidable_of_iff _ fails_iff_failure?.symm

theorem fails_bind_of_gives {w₁ : World} (h : Gives x w a w₁) :
    Fails (x >>= f) w e ↔ Fails (f a) w₁ e := by
  unfold Fails
  rw [run_bind_of_gives h]

theorem fails_bind_pure {g : α → β} :
    Fails (x >>= fun a => pure (g a)) w e ↔ Fails x w e := by
  rw [fails_bind]
  constructor
  · rintro (h | ⟨a, w₁, -, h⟩)
    · exact h
    · exact absurd h fails_pure
  · exact .inl

/-- A step that neither looks at the world nor changes it, and fails only by refusing an
element. -/
def Steady (x : Parse α) : Prop :=
  ∃ r : Except ParseError α, (∀ w, x.run.run w = (r, w)) ∧ ∀ e, r = .error e → e.isRefusal = true

theorem steady_pure : Steady (pure a : Parse α) :=
  ⟨.ok a, fun _ => rfl, fun _ h => by cases h⟩

theorem steady_bind_of (hx : Steady x) (hf : ∀ a w, Gives x w a w → Steady (f a)) :
    Steady (x >>= f) := by
  obtain ⟨r, hr, he⟩ := hx
  cases r with
  | error e =>
    refine ⟨.error e, fun w => ?_, fun e' h => he e' (by cases h; rfl)⟩
    rw [run_bind, hr]
    rfl
  | ok a =>
    obtain ⟨r', hr', he'⟩ := hf a default (hr default)
    refine ⟨r', fun w => ?_, he'⟩
    rw [run_bind, hr]
    exact hr' w

theorem steady_bind (hx : Steady x) (hf : ∀ a, Steady (f a)) : Steady (x >>= f) :=
  steady_bind_of hx fun a _ _ => hf a

theorem steady_mapM (hf : ∀ a, Steady (f a)) : ∀ as : List α, Steady (as.mapM f)
  | [] => by
    rw [List.mapM_nil]
    exact steady_pure
  | a :: as => by
    rw [List.mapM_cons]
    exact steady_bind (hf a) fun _ => steady_bind (steady_mapM hf as) fun _ => steady_pure

/-- What a steady step gives in one world it gives in any, and the world stays as it is. -/
theorem Steady.gives (h : Steady x) (hx : Gives x w a w') (u : World) : Gives x u a u := by
  obtain ⟨r, hr, -⟩ := h
  unfold Gives at hx ⊢
  rw [hr] at hx ⊢
  cases hx
  rfl

theorem Steady.gives_iff (h : Steady x) : Gives x w a w' ↔ Gives x w a w ∧ w' = w := by
  constructor
  · intro hx
    exact ⟨h.gives hx w, ((h.gives hx w).unique hx).2.symm⟩
  · rintro ⟨hx, rfl⟩
    exact hx

theorem Steady.refusal (h : Steady x) (hx : Fails x w e) : e.isRefusal = true := by
  obtain ⟨r, hr, he⟩ := h
  unfold Fails at hx
  rw [hr] at hx
  exact he e hx

theorem Steady.gives_bind_iff (h : Steady x) :
    Gives (x >>= f) w b w' ↔ ∃ a, Gives x w a w ∧ Gives (f a) w b w' := by
  rw [gives_bind]
  constructor
  · rintro ⟨a, w₁, ha, hb⟩
    obtain ⟨ha, rfl⟩ := h.gives_iff.1 ha
    exact ⟨a, ha, hb⟩
  · rintro ⟨a, ha, hb⟩
    exact ⟨a, w, ha, hb⟩

theorem Steady.fails_bind (h : Steady x) (he : Fails (x >>= f) w e) :
    e.isRefusal = true ∨ ∃ a, Gives x w a w ∧ Fails (f a) w e := by
  obtain hx | ⟨a, w₁, ha, hf⟩ := Parse.fails_bind.1 he
  · exact .inl (h.refusal hx)
  · obtain ⟨ha, rfl⟩ := h.gives_iff.1 ha
    exact .inr ⟨a, ha, hf⟩

/-- Steps that need nothing of the world, taken one after another, fail at the first that does. -/
theorem fails_mapM (hf : ∀ a, Steady (f a)) {as : List α} :
    Fails (as.mapM f) w e ↔ ∃ front a back, as = front ++ a :: back ∧
      (∀ b ∈ front, ∀ e, ¬ Fails (f b) w e) ∧ Fails (f a) w e := by
  induction as with
  | nil =>
    rw [List.mapM_nil]
    constructor
    · exact fun he => absurd he fails_pure
    · rintro ⟨front, a, back, heq, -⟩
      simp at heq
  | cons a as ih =>
    rw [List.mapM_cons, fails_bind]
    constructor
    · rintro (ha | ⟨b, w₁, ha, hrest⟩)
      · exact ⟨[], a, as, rfl, List.forall_mem_nil _, ha⟩
      · obtain ⟨ha, rfl⟩ := (hf a).gives_iff.1 ha
        obtain has | ⟨bs, w₂, -, hrest⟩ := fails_bind.1 hrest
        · obtain ⟨front, c, back, rfl, hfront, hc⟩ := ih.1 has
          exact ⟨a :: front, c, back, rfl,
            List.forall_mem_cons.2 ⟨fun e => ha.not_fails, hfront⟩, hc⟩
        · exact absurd hrest fails_pure
    · rintro ⟨front, c, back, heq, hfront, hc⟩
      cases front with
      | nil =>
        cases heq
        exact .inl hc
      | cons d front =>
        cases heq
        obtain ⟨ha, hfront⟩ := List.forall_mem_cons.1 hfront
        obtain ⟨b, w₁, hb⟩ | ⟨e', he'⟩ := gives_or_fails (f a) w
        · obtain ⟨hb, rfl⟩ := (hf a).gives_iff.1 hb
          exact .inr ⟨b, w₁, hb, fails_bind.2 (.inl (ih.2 ⟨front, c, back, rfl, hfront, hc⟩))⟩
        · exact absurd he' (ha e')

/-! ### Asking for resources -/

/-- Asking for resources one after another finds all of them. -/
def Finds (refer : Resource → Parse (Option EntityKey)) : List Resource → World → World → Prop
  | [], w, w' => w' = w
  | t :: ts, w, w' => ∃ key w₁, Gives (refer t) w (some key) w₁ ∧ Finds refer ts w₁ w'

/-- Asking for resources one after another fails at one of them. -/
def Stops (refer : Resource → Parse (Option EntityKey)) : List Resource → World → ParseError → Prop
  | [], _, _ => False
  | t :: ts, w, e =>
    Fails (refer t) w e ∨ ∃ key w₁, Gives (refer t) w (some key) w₁ ∧ Stops refer ts w₁ e

variable {refer : Resource → Parse (Option EntityKey)} {ts us : List Resource}

theorem finds_append :
    Finds refer (ts ++ us) w w' ↔ ∃ w₁, Finds refer ts w w₁ ∧ Finds refer us w₁ w' := by
  induction ts generalizing w with
  | nil => simp [Finds]
  | cons t ts ih =>
    simp only [List.cons_append, Finds, ih]
    constructor
    · rintro ⟨key, w₁, h, w₂, hts, hus⟩
      exact ⟨w₂, ⟨key, w₁, h, hts⟩, hus⟩
    · rintro ⟨w₂, ⟨key, w₁, h, hts⟩, hus⟩
      exact ⟨key, w₁, h, w₂, hts, hus⟩

theorem stops_append_left (h : Stops refer ts w e) : Stops refer (ts ++ us) w e := by
  induction ts generalizing w with
  | nil => exact h.elim
  | cons t ts ih =>
    obtain h | ⟨key, w₁, hkey, h⟩ := h
    · exact .inl h
    · exact .inr ⟨key, w₁, hkey, ih h⟩

theorem stops_append_right {w₁ : World} (hts : Finds refer ts w w₁) (h : Stops refer us w₁ e) :
    Stops refer (ts ++ us) w e := by
  induction ts generalizing w with
  | nil =>
    obtain rfl : w₁ = w := hts
    exact h
  | cons t ts ih =>
    obtain ⟨key, w₂, hkey, hts⟩ := hts
    exact .inr ⟨key, w₂, hkey, ih hts⟩

end Parse

namespace Assembly

open Parse

variable {cx : Assembly} {site : Site} {wraps : Bool} {w w' : World} {e : ParseError}

/-- The same, with every resource that is referred to taken for granted. -/
def assumed (cx : Assembly) : Assembly := { cx with refer := fun _ => pure (some 0) }

/-! ### Steps without references -/

theorem steady_refuse {α : Type} (h : Xml.Head) (detail : String) :
    Steady (cx.refuse h detail : Parse α) :=
  ⟨.error (.tag h.name h.line cx.path detail), fun _ => rfl, fun e he => by cases he; rfl⟩

theorem steady_orRefuse {α : Type} (h : Xml.Head) (r : Except String α) :
    Steady (cx.orRefuse h r) := by
  cases r with
  | ok a => exact steady_pure
  | error detail => exact steady_refuse h detail

theorem gives_orRefuse {α : Type} {h : Xml.Head} {r : Except String α} {a : α} :
    Gives (cx.orRefuse h r) w a w' ↔ r = .ok a ∧ w' = w := by
  cases r with
  | ok b =>
    rw [orRefuse, gives_pure, Except.ok.injEq, eq_comm]
  | error detail =>
    constructor
    · intro h
      cases h
    · rintro ⟨h, -⟩
      cases h

theorem fails_refuse {α : Type} {h : Xml.Head} {detail : String} :
    Fails (cx.refuse h detail : Parse α) w e ↔ e = .tag h.name h.line cx.path detail := by
  constructor
  · intro he
    cases he
    rfl
  · rintro rfl
    rfl

theorem fails_orRefuse {α : Type} {h : Xml.Head} {r : Except String α} :
    Fails (cx.orRefuse h r) w e ↔
      ∃ detail, r = .error detail ∧ e = .tag h.name h.line cx.path detail := by
  cases r with
  | ok a =>
    constructor
    · exact fun he => absurd he fails_pure
    · rintro ⟨detail, hr, -⟩
      cases hr
  | error detail =>
    rw [orRefuse, fails_refuse]
    constructor
    · exact fun he => ⟨detail, rfl, he⟩
    · rintro ⟨_, ⟨⟩, he⟩
      exact he

theorem steady_checkChildren (h : Xml.Head) :
    ∀ ns : List Xml.Node, Steady (cx.checkChildren h ns)
  | [] => steady_pure
  | .text _ _ :: ns => steady_checkChildren h ns
  | .element _ _ :: ns => steady_bind (steady_orRefuse h _) fun _ => steady_checkChildren h ns

theorem steady_compile (h : Xml.Head) (source : Option String) :
    Steady (source.mapM fun s => cx.orRefuse h (cx.evaluator.compileNamed s)) := by
  cases source with
  | none => exact steady_pure
  | some s => exact steady_bind (steady_orRefuse h _) fun _ => steady_pure

/-- An element that refers to no resource needs nothing of the world. -/
theorem steady_plan (h : Xml.Head) (children : List Xml.Node) {r : Resolved}
    (hr : r.target = none) : Steady (cx.plan site h children r) := by
  obtain ⟨maker, target⟩ := r
  obtain rfl : target = none := hr
  unfold plan
  cases maker with
  | data fallback => exact steady_bind (steady_orRefuse h _) fun _ => steady_pure
  | literal => exact steady_pure
  | expression =>
    dsimp only
    split
    · exact steady_bind (steady_refuse h _) fun _ =>
        steady_bind (steady_orRefuse h _) fun _ => steady_pure
    · exact steady_bind (steady_orRefuse h _) fun _ => steady_pure
  | conditional | alternative =>
    dsimp only
    split
    · exact steady_bind (steady_refuse h _) fun _ => steady_pure
    · exact steady_pure
  | mutex =>
    exact steady_bind (steady_compile h _) fun _ =>
      steady_bind (steady_compile h _) fun _ => steady_pure
  | bean b => exact steady_bind (steady_checkChildren h _) fun _ => steady_pure
  | invoke => exact steady_bind (steady_checkChildren h _) fun _ => steady_refuse h _
  | describe typeName => exact steady_pure
  | fixed typeName closed v whenSkipped => exact steady_pure

theorem steady_textLeaf (text : String) (line : Nat) : Steady (cx.textLeaf text line) :=
  steady_bind (steady_orRefuse _ _) fun _ => steady_pure

theorem steady_attrLeaf (enclosing : TagKind) (line : Nat) (a : Xml.Attr) :
    Steady (cx.attrLeaf enclosing line a) := by
  refine steady_bind (steady_orRefuse _ _) fun mode => ?_
  split
  · exact steady_pure
  · exact steady_bind (steady_textLeaf a.value line) fun _ => steady_pure

/-! ### Elements and their references -/

theorem assumed_checkChildren (h : Xml.Head) :
    ∀ ns : List Xml.Node, cx.assumed.checkChildren h ns = cx.checkChildren h ns
  | [] => rfl
  | .text _ _ :: ns => assumed_checkChildren h ns
  | .element c _ :: ns => by
    rw [checkChildren, checkChildren, assumed_checkChildren h ns]
    rfl

/-- A reference is made a call once its resource is found. -/
theorem gives_plan_invoke {h : Xml.Head} {children : List Xml.Node} {t : Resource} {p : Plan} :
    Gives (cx.plan site h children ⟨.invoke, some t⟩) w p w' ↔
      Gives (cx.checkChildren h children) w () w ∧ p = callPlan h TagAttrs.usual (.invoke t.name) ∧
        ∃ key, Gives (cx.refer t) w (some key) w' := by
  unfold plan
  dsimp only
  rw [gives_bind]
  constructor
  · rintro ⟨u, w₁, hcheck, hrest⟩
    obtain ⟨hcheck, rfl⟩ := (steady_checkChildren h children).gives_iff.1 hcheck
    obtain ⟨found, w₂, hfound, hrest⟩ := gives_bind.1 hrest
    cases found with
    | none => exact absurd hrest gives_throw
    | some key =>
      obtain ⟨rfl, rfl⟩ := gives_pure.1 hrest
      exact ⟨hcheck, rfl, key, hfound⟩
  · rintro ⟨hcheck, rfl, key, hfound⟩
    exact ⟨(), w, hcheck, gives_bind.2 ⟨some key, w', hfound, gives_pure.2 ⟨rfl, rfl⟩⟩⟩

/-- What an element becomes is settled without its reference, which has to be found. -/
theorem gives_plan_iff {h : Xml.Head} {children : List Xml.Node} {r : Resolved} {p : Plan}
    (hr : ∀ t, r.target = some t → r.maker = .invoke) :
    Gives (cx.plan site h children r) w p w' ↔
      Gives (cx.assumed.plan site h children r) w p w ∧ Finds cx.refer r.target.toList w w' := by
  obtain ⟨maker, target⟩ := r
  cases target with
  | none =>
    have heq : cx.assumed.plan site h children ⟨maker, none⟩ =
        cx.plan site h children ⟨maker, none⟩ := by
      unfold plan
      rw [assumed_checkChildren]
      cases maker <;> rfl
    rw [heq]
    exact (steady_plan h children rfl).gives_iff
  | some t =>
    obtain rfl : maker = .invoke := hr t rfl
    rw [gives_plan_invoke, gives_plan_invoke, assumed_checkChildren]
    constructor
    · rintro ⟨hcheck, rfl, key, hkey⟩
      exact ⟨⟨hcheck, rfl, 0, rfl⟩, key, w', hkey, rfl⟩
    · rintro ⟨⟨hcheck, rfl, -⟩, key, w₁, hkey, rfl⟩
      exact ⟨hcheck, rfl, key, hkey⟩

theorem planned_of_gives {h : Xml.Head} {children : List Xml.Node} {r : Resolved} {p : Plan}
    (hp : Gives (cx.plan site h children r) w p w') :
    Planned (fun _ => True) site.enclosing r.maker h p := by
  have law : StepLaw fun _ _ _ => True := by constructor <;> simp
  have hmakes : r.maker.Makes fun _ => True := by cases r.maker <;> simp [Maker.Makes]
  have hrefer : ∀ t ∈ r.target, Sat (fun _ _ _ => True) (cx.refer t) fun _ => True :=
    fun _ _ _ => ⟨trivial, fun _ _ => trivial⟩
  exact (sat_plan law site h children hmakes hrefer w).2 p (congrArg Prod.fst hp)

theorem closed_of_gives_plan {h : Xml.Head} {children : List Xml.Node} {r : Resolved} {p : Plan}
    (hp : Gives (cx.plan site h children r) w p w') : p.closed = r.maker.closes :=
  (planned_of_gives hp).closed

theorem fails_plan {h : Xml.Head} {children : List Xml.Node} {r : Resolved}
    (hr : ∀ t, r.target = some t → r.maker = .invoke)
    (he : Fails (cx.plan site h children r) w e) :
    e.isRefusal = true ∨ Stops cx.refer r.target.toList w e := by
  obtain ⟨maker, target⟩ := r
  cases target with
  | none => exact .inl ((steady_plan h children rfl).refusal he)
  | some t =>
    obtain rfl : maker = .invoke := hr t rfl
    unfold plan at he
    dsimp only at he
    obtain hcheck | ⟨u, w₁, hcheck, hrest⟩ := fails_bind.1 he
    · exact .inl ((steady_checkChildren h children).refusal hcheck)
    · obtain ⟨-, rfl⟩ := (steady_checkChildren h children).gives_iff.1 hcheck
      obtain hrefer | ⟨found, w₂, -, hrest⟩ := fails_bind.1 hrest
      · exact .inr (.inl hrefer)
      · cases found with
        | none => exact .inl ((steady_refuse h _).refusal hrest)
        | some key => exact absurd hrest fails_pure

/-- The place at which an element is made an instruction. -/
def spot (cx : Assembly) (site : Site) (wraps : Bool) (h : Xml.Head) : Site :=
  if wraps && cx.isCall h then inside site .data else site

/-- The instruction of an element, as a parameter if need be. -/
def dressed (cx : Assembly) (site : Site) (wraps : Bool) (h : Xml.Head) (t : Tree Instruction) :
    Tree Instruction :=
  if wraps && cx.isCall h then wrapped site h.line t else t

/-- The place below an element. -/
def within (cx : Assembly) (site : Site) (wraps : Bool) (h : Xml.Head) (p : Plan)
    (pushed : List (Tree Instruction)) : Site :=
  { inside (cx.spot site wraps h) p.tag.kind with previous := pushed.getLast?.map Tree.label }

/-- The instructions below an element. -/
def inner (cx : Assembly) (site : Site) (p : Plan) (children : List Xml.Node) :
    Parse (List (Tree Instruction)) :=
  if p.closed then pure [] else cx.nodes site p.wraps children

theorem node_element (h : Xml.Head) (children : List Xml.Node) :
    cx.node site wraps (.element h children) = (do
      let r ← cx.orRefuse h (cx.registry.resolve cx.locator h.ns h.name)
      let id ← cx.orRefuse h (binding cx.evaluator h r.maker.attrs)
      let cond ← cx.orRefuse h (guard cx.evaluator h r.maker.attrs)
      let p ← cx.plan (cx.spot site wraps h) h children r
      let pushed ← p.pushed.mapM
        (cx.attrLeaf (p.tag.around (cx.spot site wraps h).enclosing) h.line)
      let rest ← cx.inner (cx.within site wraps h p pushed) p children
      return some (cx.dressed site wraps h (.node
        { name := h.name, line := h.line, guard := cond, binding := id, tag := p.tag }
        (pushed ++ rest)))) := by
  rw [node]
  refine bind_congr fun r => bind_congr fun id => bind_congr fun cond => bind_congr fun p => ?_
  refine bind_congr fun pushed => ?_
  unfold inner
  cases p.closed with
  | true => rfl
  | false => rfl

/-- The parts of which the instruction of an element is made. -/
theorem gives_element_iff {h : Xml.Head} {children : List Xml.Node}
    {t? : Option (Tree Instruction)} :
    Gives (cx.node site wraps (.element h children)) w t? w' ↔
      ∃ r id cond p pushed rest w₁,
        cx.registry.resolve? cx.locator h.ns h.name = some r ∧
        binding cx.evaluator h r.maker.attrs = .ok id ∧
        guard cx.evaluator h r.maker.attrs = .ok cond ∧
        Gives (cx.plan (cx.spot site wraps h) h children r) w p w₁ ∧
        Gives (p.pushed.mapM
          (cx.attrLeaf (p.tag.around (cx.spot site wraps h).enclosing) h.line)) w₁ pushed w₁ ∧
        Gives (cx.inner (cx.within site wraps h p pushed) p children) w₁ rest w' ∧
        t? = some (cx.dressed site wraps h (.node
          { name := h.name, line := h.line, guard := cond, binding := id, tag := p.tag }
          (pushed ++ rest))) := by
  rw [node_element]
  constructor
  · intro hx
    obtain ⟨r, hr, hx⟩ := (steady_orRefuse h _).gives_bind_iff.1 hx
    obtain ⟨id, hid, hx⟩ := (steady_orRefuse h _).gives_bind_iff.1 hx
    obtain ⟨cond, hcond, hx⟩ := (steady_orRefuse h _).gives_bind_iff.1 hx
    obtain ⟨p, w₁, hp, hx⟩ := gives_bind.1 hx
    obtain ⟨pushed, hpushed, hx⟩ := (steady_mapM (steady_attrLeaf _ h.line) _).gives_bind_iff.1 hx
    obtain ⟨rest, w₂, hrest, hx⟩ := gives_bind.1 hx
    obtain ⟨rfl, rfl⟩ := gives_pure.1 hx
    exact ⟨r, id, cond, p, pushed, rest, w₁, Registry.resolve_eq_ok.1 (gives_orRefuse.1 hr).1,
      (gives_orRefuse.1 hid).1, (gives_orRefuse.1 hcond).1, hp, hpushed, hrest, rfl⟩
  · rintro ⟨r, id, cond, p, pushed, rest, w₁, hr, hid, hcond, hp, hpushed, hrest, rfl⟩
    refine gives_bind.2 ⟨r, w, gives_orRefuse.2 ⟨Registry.resolve_eq_ok.2 hr, rfl⟩, ?_⟩
    refine gives_bind.2 ⟨id, w, gives_orRefuse.2 ⟨hid, rfl⟩, ?_⟩
    refine gives_bind.2 ⟨cond, w, gives_orRefuse.2 ⟨hcond, rfl⟩, ?_⟩
    refine gives_bind.2 ⟨p, w₁, hp, gives_bind.2 ⟨pushed, w₁, hpushed, ?_⟩⟩
    exact gives_bind.2 ⟨rest, w', hrest, gives_pure.2 ⟨rfl, rfl⟩⟩

/-- An element fails by being refused, or at its reference, or below. -/
theorem fails_element {h : Xml.Head} {children : List Xml.Node}
    (hreg : cx.registry.reference = .invoke)
    (he : Fails (cx.node site wraps (.element h children)) w e) :
    e.isRefusal = true ∨ ∃ r, cx.registry.resolve? cx.locator h.ns h.name = some r ∧
      (Stops cx.refer r.target.toList w e ∨ ∃ w₁, Finds cx.refer r.target.toList w w₁ ∧
        r.maker.closes = false ∧ ∃ site wraps, Fails (cx.nodes site wraps children) w₁ e) := by
  rw [node_element] at he
  obtain he | ⟨r, hr, he⟩ := (steady_orRefuse h _).fails_bind he
  · exact .inl he
  obtain he | ⟨id, -, he⟩ := (steady_orRefuse h _).fails_bind he
  · exact .inl he
  obtain he | ⟨cond, -, he⟩ := (steady_orRefuse h _).fails_bind he
  · exact .inl he
  have hr := Registry.resolve_eq_ok.1 (gives_orRefuse.1 hr).1
  have htarget : ∀ t, r.target = some t → r.maker = .invoke :=
    fun t ht => (Registry.resolve?_target hr ht).1.trans hreg
  obtain he | ⟨p, w₁, hp, he⟩ := fails_bind.1 he
  · obtain he | he := fails_plan htarget he
    · exact .inl he
    · exact .inr ⟨r, hr, .inl he⟩
  obtain he | ⟨pushed, -, he⟩ := (steady_mapM (steady_attrLeaf _ h.line) _).fails_bind he
  · exact .inl he
  obtain he | ⟨rest, w₂, -, he⟩ := fails_bind.1 he
  · have hclosed := closed_of_gives_plan hp
    unfold inner at he
    split at he
    · exact absurd he fails_pure
    · refine .inr ⟨r, hr, .inr ⟨w₁, ((gives_plan_iff htarget).1 hp).2, ?_, _, _, he⟩⟩
      simpa [hclosed] using ‹¬ p.closed = true›
  · exact absurd he fails_pure

/-! ### Documents and their references -/

theorem steady_assumed_plan (h : Xml.Head) (children : List Xml.Node) {r : Resolved}
    (hr : ∀ t, r.target = some t → r.maker = .invoke) :
    Steady (cx.assumed.plan site h children r) := by
  obtain ⟨maker, target⟩ := r
  cases target with
  | none => exact steady_plan h children rfl
  | some t =>
    obtain rfl : maker = .invoke := hr t rfl
    exact steady_bind (steady_checkChildren h children) fun _ => steady_pure

mutual

/-- With its references taken for granted, a document needs nothing of the world. -/
theorem steady_assumed_node (hreg : cx.registry.reference = .invoke) (site : Site) (wraps : Bool) :
    ∀ n : Xml.Node, Steady (cx.assumed.node site wraps n)
  | .text s line => by
    rw [node]
    split
    · exact steady_pure
    · exact steady_bind (steady_textLeaf s line) fun _ => steady_pure
  | .element h children => by
    rw [node_element]
    refine steady_bind_of (steady_orRefuse h _) fun r w hr => ?_
    have hr := Registry.resolve_eq_ok.1 (gives_orRefuse.1 hr).1
    refine steady_bind (steady_orRefuse h _) fun id => ?_
    refine steady_bind (steady_orRefuse h _) fun cond => ?_
    refine steady_bind (steady_assumed_plan h children fun t ht => ?_) fun p => ?_
    · exact (Registry.resolve?_target hr ht).1.trans hreg
    refine steady_bind (steady_mapM (steady_attrLeaf _ h.line) _) fun pushed => ?_
    refine steady_bind ?_ fun rest => steady_pure
    unfold inner
    split
    · exact steady_pure
    · exact steady_assumed_nodes hreg _ _ children

theorem steady_assumed_nodes (hreg : cx.registry.reference = .invoke) (site : Site) (wraps : Bool) :
    ∀ ns : List Xml.Node, Steady (cx.assumed.nodes site wraps ns)
  | [] => by
    rw [nodes]
    exact steady_pure
  | n :: ns => by
    rw [nodes]
    refine steady_bind (steady_assumed_node hreg site wraps n) fun t? => ?_
    cases t? with
    | none => exact steady_assumed_nodes hreg site wraps ns
    | some t => exact steady_bind (steady_assumed_nodes hreg _ wraps ns) fun _ => steady_pure

end

theorem gives_nodes_cons {n : Xml.Node} {ns : List Xml.Node} {ts : List (Tree Instruction)} :
    Gives (cx.nodes site wraps (n :: ns)) w ts w' ↔
      ∃ t? ts' w₁, Gives (cx.node site wraps n) w t? w₁ ∧
        Gives (cx.nodes { site with previous := (t?.map Tree.label).or site.previous } wraps ns)
          w₁ ts' w' ∧ ts = t?.toList ++ ts' := by
  rw [nodes, gives_bind]
  constructor
  · rintro ⟨t?, w₁, ht, hts⟩
    cases t? with
    | none => exact ⟨none, ts, w₁, ht, hts, rfl⟩
    | some t =>
      obtain ⟨ts', w₂, hts, hpure⟩ := gives_bind.1 hts
      obtain ⟨rfl, rfl⟩ := gives_pure.1 hpure
      exact ⟨some t, ts', w₁, ht, hts, rfl⟩
  · rintro ⟨t?, ts', w₁, ht, hts, rfl⟩
    refine ⟨t?, w₁, ht, ?_⟩
    cases t? with
    | none => exact hts
    | some t => exact gives_bind.2 ⟨ts', w', hts, gives_pure.2 ⟨rfl, rfl⟩⟩

/-- An element becomes an instruction exactly if it does so with its references taken for granted
and all of them are found, provided that this is so of its children. -/
theorem gives_element_iff_of_nodes (hreg : cx.registry.reference = .invoke) {h : Xml.Head}
    {children : List Xml.Node} {t? : Option (Tree Instruction)}
    (ih : ∀ (site : Site) (wraps : Bool) {ts : List (Tree Instruction)} {w w' : World},
      Gives (cx.nodes site wraps children) w ts w' ↔
        Gives (cx.assumed.nodes site wraps children) w ts w ∧
          Finds cx.refer (cx.registry.targetsAll cx.locator children) w w') :
    Gives (cx.node site wraps (.element h children)) w t? w' ↔
      Gives (cx.assumed.node site wraps (.element h children)) w t? w ∧
        Finds cx.refer (cx.registry.targets cx.locator (.element h children)) w w' := by
  have hinner : ∀ (site : Site) (p : Plan) {rest : List (Tree Instruction)} {w w' : World},
      Gives (cx.inner site p children) w rest w' ↔
        Gives (cx.assumed.inner site p children) w rest w ∧
          Finds cx.refer (if p.closed then [] else cx.registry.targetsAll cx.locator children)
            w w' := by
    intro site p rest w w'
    unfold inner
    split
    · exact steady_pure.gives_iff
    · exact ih site p.wraps
  have hsteady : ∀ (site : Site) (p : Plan), Steady (cx.assumed.inner site p children) := by
    intro site p
    unfold inner
    split
    · exact steady_pure
    · exact steady_assumed_nodes hreg site p.wraps children
  rw [gives_element_iff, gives_element_iff]
  constructor
  · rintro ⟨r, id, cond, p, pushed, rest, w₁, hr, hid, hcond, hp, hpushed, hrest, rfl⟩
    have htarget : ∀ t, r.target = some t → r.maker = .invoke :=
      fun t ht => (Registry.resolve?_target hr ht).1.trans hreg
    have hclosed := closed_of_gives_plan hp
    obtain ⟨hp, hfound⟩ := (gives_plan_iff htarget).1 hp
    obtain ⟨hrest, hbelow⟩ := (hinner _ p).1 hrest
    refine ⟨⟨r, id, cond, p, pushed, rest, w, hr, hid, hcond, hp, ?_, ?_, rfl⟩, ?_⟩
    · exact (steady_mapM (steady_attrLeaf _ h.line) _).gives hpushed w
    · exact (hsteady _ p).gives hrest w
    · rw [Registry.targets, hr]
      exact finds_append.2 ⟨w₁, hfound, by rwa [hclosed] at hbelow⟩
  · rintro ⟨⟨r, id, cond, p, pushed, rest, w₀, hr, hid, hcond, hp, hpushed, hrest, rfl⟩, hfinds⟩
    have htarget : ∀ t, r.target = some t → r.maker = .invoke :=
      fun t ht => (Registry.resolve?_target hr ht).1.trans hreg
    have hclosed := closed_of_gives_plan hp
    have hr' : cx.registry.resolve? cx.locator h.ns h.name = some r := hr
    rw [Registry.targets, hr'] at hfinds
    obtain ⟨w₁, hfound, hbelow⟩ := finds_append.1 hfinds
    have hp := (steady_assumed_plan h children htarget).gives hp w
    refine ⟨r, id, cond, p, pushed, rest, w₁, hr, hid, hcond,
      (gives_plan_iff htarget).2 ⟨hp, hfound⟩, ?_, (hinner _ p).2 ⟨?_, ?_⟩, rfl⟩
    · exact (steady_mapM (steady_attrLeaf _ h.line) _).gives hpushed w₁
    · exact (hsteady _ p).gives hrest w₁
    · rwa [hclosed]

mutual

/-- A node becomes an instruction exactly if it does so with its references taken for granted and
all of them are found. -/
theorem gives_node_iff (hreg : cx.registry.reference = .invoke) (site : Site) (wraps : Bool) :
    ∀ (n : Xml.Node) {t? : Option (Tree Instruction)} {w w' : World},
      Gives (cx.node site wraps n) w t? w' ↔
        Gives (cx.assumed.node site wraps n) w t? w ∧
          Finds cx.refer (cx.registry.targets cx.locator n) w w'
  | .text s line, t?, w, w' => by
    have hsteady : Steady (cx.node site wraps (.text s line)) := by
      rw [node]
      split
      · exact steady_pure
      · exact steady_bind (steady_textLeaf s line) fun _ => steady_pure
    have heq : cx.assumed.node site wraps (.text s line) = cx.node site wraps (.text s line) := by
      rw [node, node]
      rfl
    rw [heq, Registry.targets]
    exact hsteady.gives_iff
  | .element h children, t?, w, w' =>
    gives_element_iff_of_nodes hreg fun site wraps => gives_nodes_iff hreg site wraps children

theorem gives_nodes_iff (hreg : cx.registry.reference = .invoke) (site : Site) (wraps : Bool) :
    ∀ (ns : List Xml.Node) {ts : List (Tree Instruction)} {w w' : World},
      Gives (cx.nodes site wraps ns) w ts w' ↔
        Gives (cx.assumed.nodes site wraps ns) w ts w ∧
          Finds cx.refer (cx.registry.targetsAll cx.locator ns) w w'
  | [], ts, w, w' => by
    rw [nodes, nodes, gives_pure, gives_pure]
    simp [Registry.targetsAll, Finds]
  | n :: ns, ts, w, w' => by
    rw [gives_nodes_cons, gives_nodes_cons, Registry.targetsAll, finds_append]
    constructor
    · rintro ⟨t?, ts', w₁, ht, hts, rfl⟩
      obtain ⟨ht, hfound⟩ := (gives_node_iff hreg site wraps n).1 ht
      obtain ⟨hts, hrest⟩ := (gives_nodes_iff hreg _ wraps ns).1 hts
      have hts := (steady_assumed_nodes hreg _ wraps ns).gives hts w
      exact ⟨⟨t?, ts', w, ht, hts, rfl⟩, w₁, hfound, hrest⟩
    · rintro ⟨⟨t?, ts', w₀, ht, hts, rfl⟩, w₁, hfound, hrest⟩
      obtain ⟨ht, rfl⟩ := (steady_assumed_node hreg site wraps n).gives_iff.1 ht
      have hts := (steady_assumed_nodes hreg _ wraps ns).gives hts w₁
      exact ⟨t?, ts', w₁, (gives_node_iff hreg site wraps n).2 ⟨ht, hfound⟩,
        (gives_nodes_iff hreg _ wraps ns).2 ⟨hts, hrest⟩, rfl⟩

end

mutual

/-- A node fails only because an element is refused or a reference fails. -/
theorem fails_node (hreg : cx.registry.reference = .invoke) (site : Site) (wraps : Bool) :
    ∀ (n : Xml.Node) {w : World}, Fails (cx.node site wraps n) w e →
      e.isRefusal = true ∨ Stops cx.refer (cx.registry.targets cx.locator n) w e
  | .text s line, w, he => by
    rw [node] at he
    split at he
    · exact absurd he fails_pure
    · obtain he | ⟨t, -, he⟩ := (steady_textLeaf s line).fails_bind he
      · exact .inl he
      · exact absurd he fails_pure
  | .element h children, w, he => by
    obtain he | ⟨r, hr, he | ⟨w₁, hfound, hclosed, site', wraps', he⟩⟩ := fails_element hreg he
    · exact .inl he
    · rw [Registry.targets, hr]
      exact .inr (stops_append_left he)
    · obtain he | he := fails_nodes hreg site' wraps' children he
      · exact .inl he
      · rw [Registry.targets, hr]
        refine .inr (stops_append_right hfound ?_)
        rwa [hclosed]

theorem fails_nodes (hreg : cx.registry.reference = .invoke) (site : Site) (wraps : Bool) :
    ∀ (ns : List Xml.Node) {w : World}, Fails (cx.nodes site wraps ns) w e →
      e.isRefusal = true ∨ Stops cx.refer (cx.registry.targetsAll cx.locator ns) w e
  | [], w, he => by
    rw [nodes] at he
    exact absurd he fails_pure
  | n :: ns, w, he => by
    rw [nodes] at he
    rw [Registry.targetsAll]
    obtain he | ⟨t?, w₁, ht, he⟩ := fails_bind.1 he
    · exact (fails_node hreg site wraps n he).imp_right stops_append_left
    · have hfound := ((gives_node_iff hreg site wraps n).1 ht).2
      cases t? with
      | none => exact (fails_nodes hreg site wraps ns he).imp_right (stops_append_right hfound)
      | some t =>
        obtain he | ⟨ts, w₂, -, he⟩ := fails_bind.1 he
        · exact (fails_nodes hreg _ wraps ns he).imp_right (stops_append_right hfound)
        · exact absurd he fails_pure

end

/-- The place of the children of the root. -/
def top (cx : Assembly) : Site := { path := cx.path, names := cx.locator.names }

/-- The tag of a root. -/
def rootTag (cx : Assembly) (root : Xml.Element) : RootMaker → Parse Tag
  | .scenario => pure .scenario
  | .block typeName => pure (.block typeName)
  | .refused reason => cx.refuse root.head (reason root)

theorem document_eq (root : Xml.Element) (maker : RootMaker) :
    cx.document root maker = (do
      let tag ← cx.rootTag root maker
      let children ← cx.nodes cx.top false root.children
      return (Tree.node
        { name := root.head.name, line := root.head.line, tag } children).number) := by
  cases maker <;> rfl

theorem steady_rootTag (root : Xml.Element) (maker : RootMaker) :
    Steady (cx.rootTag root maker) := by
  cases maker with
  | scenario | block _ => exact steady_pure
  | refused reason => exact steady_refuse root.head _

theorem gives_document {root : Xml.Element} {maker : RootMaker} {p : Program} :
    Gives (cx.document root maker) w p w' ↔ ∃ tag ts, Gives (cx.rootTag root maker) w tag w ∧
      Gives (cx.nodes cx.top false root.children) w ts w' ∧
      p = (Tree.node { name := root.head.name, line := root.head.line, tag } ts).number := by
  rw [document_eq, (steady_rootTag root maker).gives_bind_iff]
  constructor
  · rintro ⟨tag, htag, hx⟩
    obtain ⟨ts, w₁, hts, hx⟩ := gives_bind.1 hx
    obtain ⟨rfl, rfl⟩ := gives_pure.1 hx
    exact ⟨tag, ts, htag, hts, rfl⟩
  · rintro ⟨tag, ts, htag, hts, rfl⟩
    exact ⟨tag, htag, gives_bind.2 ⟨ts, w', hts, gives_pure.2 ⟨rfl, rfl⟩⟩⟩

/-- **A document becomes a program exactly if it does so with its references taken for granted and
all of them are found, one after another.** -/
theorem gives_document_iff (hreg : cx.registry.reference = .invoke) {root : Xml.Element}
    {maker : RootMaker} {p : Program} :
    Gives (cx.document root maker) w p w' ↔ Gives (cx.assumed.document root maker) w p w ∧
      Finds cx.refer (cx.registry.targetsAll cx.locator root.children) w w' := by
  rw [gives_document, gives_document]
  constructor
  · rintro ⟨tag, ts, htag, hts, rfl⟩
    obtain ⟨hts, hfound⟩ := (gives_nodes_iff hreg _ false _).1 hts
    exact ⟨⟨tag, ts, htag, hts, rfl⟩, hfound⟩
  · rintro ⟨⟨tag, ts, htag, hts, rfl⟩, hfound⟩
    exact ⟨tag, ts, htag, (gives_nodes_iff hreg _ false _).2 ⟨hts, hfound⟩, rfl⟩

/-- **A document fails only because an element is refused or a reference fails.** -/
theorem fails_document (hreg : cx.registry.reference = .invoke) {root : Xml.Element}
    {maker : RootMaker} (he : Fails (cx.document root maker) w e) :
    e.isRefusal = true ∨ Stops cx.refer (cx.registry.targetsAll cx.locator root.children) w e := by
  rw [document_eq] at he
  obtain he | ⟨tag, -, he⟩ := (steady_rootTag root maker).fails_bind he
  · exact .inl he
  obtain he | ⟨ts, w₁, -, he⟩ := fails_bind.1 he
  · exact fails_nodes hreg _ false _ he
  · exact absurd he fails_pure

theorem steady_assumed_document (hreg : cx.registry.reference = .invoke) (root : Xml.Element)
    (maker : RootMaker) : Steady (cx.assumed.document root maker) := by
  rw [document_eq]
  exact steady_bind (steady_rootTag root maker) fun tag =>
    steady_bind (steady_assumed_nodes hreg _ false _) fun ts => steady_pure

end Assembly

end Scenario
