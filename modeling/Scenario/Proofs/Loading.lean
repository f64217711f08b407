import Scenario.Proofs.Building

/-!
# Parsing a resource

A resource that is asked for is found at once if it is in progress or kept. Otherwise it is parsed
anew: its document is read, an entity is added, the references of the document are asked for while
that entity is in progress, and the entity gets its program. `Asked` lists what asking for a
resource can come to, whatever its program is made with. **`gives_parseIn_iff`** says exactly when
parsing anew succeeds and what it leaves behind; **`stops_of_fails_parseIn`** says where a failure
of another kind comes from.
-/

namespace Scenario

/-- The path of the resource whose document could not be read. -/
def ParseError.unread? : ParseError → Option String
  | io path _ | xml path _ => some path
  | _ => none

namespace World

/-- The document of a resource can be read and is well formed, with this root. -/
def Reads (w : World) (r : Resource) (root : Xml.Element) : Prop :=
  ∃ text, w.storage.read r = .ok text ∧ Xml.read text = .ok root

theorem Reads.unique {w : World} {r : Resource} {root root' : Xml.Element} (h : w.Reads r root)
    (h' : w.Reads r root') : root = root' := by
  obtain ⟨text, htext, hroot⟩ := h
  obtain ⟨text', htext', hroot'⟩ := h'
  obtain rfl : text = text' := Except.ok.inj (htext.symm.trans htext')
  exact Except.ok.inj (hroot.symm.trans hroot')

/-- The resources of the second world are those of the first, the entities of the first are still
there, and the same ones are in progress. -/
structure Grows (w w' : World) : Prop where
  storage : w'.storage = w.storage
  locator : w'.locator = w.locator
  resource : ∀ {key e}, w.entity? key = some e →
    ∃ e', w'.entity? key = some e' ∧ e'.resource = e.resource
  progress : w'.progress = w.progress

theorem cached?_evict (w : World) {path path' : String} (h : path' ≠ path) :
    (w.evict path).cached? path' = w.cached? path' := by
  unfold evict cached?
  dsimp only
  induction w.cache with
  | nil => rfl
  | cons e cache ih =>
    obtain ⟨p, k⟩ := e
    rw [List.filter_cons, List.lookup_cons]
    by_cases hp : p = path
    · subst hp
      simp [ih, beq_eq_false_iff_ne.2 h]
    · simp [hp, List.lookup_cons, ih]

/-- What is kept for a path is what was kept for it last. -/
theorem cached?_keep (w : World) (path : String) (key : EntityKey) (path' : String) :
    (w.keep path key).cached? path' = if path' = path then some key else w.cached? path' := by
  show List.lookup path' ((path, key) :: (w.evict path).cache) = _
  rw [List.lookup_cons]
  split
  · rw [if_pos (beq_iff_eq.1 ‹_›)]
  · have hne : path' ≠ path := beq_eq_false_iff_ne.1 ‹_›
    rw [if_neg hne]
    exact cached?_evict w hne

/-- A world in which the entity of a resource has been added. -/
def added (w : World) (r : Resource) (root : Xml.Element) : World :=
  ((w.write ⟨.debug, "Parsing resource", [("resource", r.path), ("root", root.head.name)],
    false⟩).addEntity
      { resource := r, rootTag := root.head.name, timestamp := w.storage.modified r }).1

/-- A world in which that entity is in progress. -/
def begun (w : World) (r : Resource) (root : Xml.Element) : World :=
  (w.added r root).start w.entities.size

end World

/-- Parsing keeps resources, entities and what is in progress. -/
theorem grows_law : ParseLaw (fun _ => True) (fun _ => True) World.Grows where
  refl w := ⟨rfl, rfl, fun h => ⟨_, h, rfl⟩, rfl⟩
  trans := by
    intro u v w h h'
    refine ⟨h'.storage.trans h.storage, h'.locator.trans h.locator, fun hu => ?_,
      h'.progress.trans h.progress⟩
    obtain ⟨e, he, hr⟩ := h.resource hu
    obtain ⟨e', he', hr'⟩ := h'.resource he
    exact ⟨e', he', hr'.trans hr⟩
  write w r := ⟨rfl, rfl, fun h => ⟨_, h, rfl⟩, rfl⟩
  describe w key := ⟨rfl, rfl, fun h => ⟨_, h, rfl⟩, rfl⟩
  add w e _ := by
    refine ⟨rfl, rfl, fun {key} e' h => ?_, rfl⟩
    have hlt : key < w.entities.size := (Array.getElem?_eq_some_iff.1 h).1
    exact ⟨e', by rwa [World.entity?_addEntity, if_neg (Nat.ne_of_lt hlt)], rfl⟩
  within key h := ⟨h.storage, h.locator, h.resource, by
    rw [World.stop, h.progress, World.start, List.dropLast_concat]⟩
  complete w key p _ := by
    refine ⟨rfl, rfl, fun {key'} e' h => ?_, rfl⟩
    rw [World.entity?_complete, h]
    split
    · exact ⟨_, rfl, rfl⟩
    · exact ⟨e', rfl, rfl⟩
  keep w path key := ⟨rfl, rfl, fun h => ⟨_, h, rfl⟩, rfl⟩

theorem World.grows_added (w : World) (r : Resource) (root : Xml.Element) :
    w.Grows (w.added r root) :=
  grows_law.trans (grows_law.write w _) (grows_law.add _ _ rfl)

namespace Setup

open Parse

variable {st : Setup} {w w' : World} {r : Resource} {depth : Nat} {e : ParseError}

/-- Whatever comes of asking for a resource, resources and entities are still there, and the same
entities are in progress. -/
theorem grows_parseIn (depth : Nat) (r : Resource) (force : Bool) (w : World) :
    w.Grows ((st.parseIn depth r force).run.run w).2 :=
  (sat_parseIn grows_law st.registry.makes_any depth r force w).1

/-- What the document of a resource is made with if its references are taken for granted. -/
def alone (st : Setup) (l : Locator) (r : Resource) : Assembly where
  registry := st.registry
  evaluator := st.evaluator
  locator := l
  path := r.path
  refer := fun _ => pure (some 0)

/-- Such a document needs nothing of the world. -/
theorem steady_alone (st : Setup) (hreg : st.registry.reference = .invoke) (l : Locator)
    (r : Resource) (root : Xml.Element) (maker : RootMaker) :
    Steady ((st.alone l r).document root maker) := by
  show Steady ((st.alone l r).assumed.document root maker)
  exact Assembly.steady_assumed_document hreg root maker

/-- Whether the entity of a resource is kept. -/
def mayKeep (st : Setup) (r : Resource) : Bool :=
  st.keeps && r.cacheable && !Text.isBlankText r.name

/-- A world in which an entity is no longer in progress and has got its program. -/
def finished (st : Setup) (w : World) (r : Resource) (key : EntityKey) (p : Program) : World :=
  if st.mayKeep r then (w.stop.complete key p).keep r.path key else w.stop.complete key p

section

variable (st : Setup) (w : World) (r : Resource) (key : EntityKey) (p : Program)

theorem finished_same : (st.finished w r key p).storage = w.storage ∧
    (st.finished w r key p).locator = w.locator ∧
    (st.finished w r key p).progress = w.stop.progress := by
  unfold finished
  split
  · exact ⟨rfl, rfl, rfl⟩
  · exact ⟨rfl, rfl, rfl⟩

theorem entity?_finished (k : EntityKey) : (st.finished w r key p).entity? k =
    if key = k then (w.entity? k).map fun e => { e with program := some p } else w.entity? k := by
  rw [← World.entity?_complete]
  unfold finished
  split
  · rfl
  · rfl

theorem cached?_finished (path : String) : (st.finished w r key p).cached? path =
    if st.mayKeep r = true ∧ path = r.path then some key else w.cached? path := by
  unfold finished
  by_cases hkeep : st.mayKeep r = true
  · rw [if_pos hkeep, World.cached?_keep]
    simp only [hkeep, true_and]
    rfl
  · rw [if_neg hkeep, if_neg fun h => hkeep h.1]
    rfl

end

theorem gives_inProgress {α : Type} {x : Parse α} {key : EntityKey} {a : α} :
    Gives (inProgress key x) w a w' ↔ ∃ w₁, Gives x (w.start key) a w₁ ∧ w' = w₁.stop := by
  unfold Gives
  rw [run_inProgress]
  constructor
  · intro h
    obtain ⟨ha, rfl⟩ := Prod.mk.inj h
    exact ⟨_, Prod.ext ha rfl, rfl⟩
  · rintro ⟨w₁, h, rfl⟩
    rw [h]

/-- Reading a document leaves the world as it is. It is read, or its failure names the resource. -/
theorem run_readDocument (r : Resource) (w : World) :
    (∃ root, w.Reads r root ∧ (readDocument r).run.run w = (.ok root, w)) ∨
      ∃ e : ParseError, e.unread? = some r.path ∧
        (∀ root, ¬ w.Reads r root) ∧ (readDocument r).run.run w = (.error e, w) := by
  unfold readDocument
  rw [run_bind_of_gives (gives_get.2 ⟨rfl, rfl⟩)]
  cases htext : w.storage.read r with
  | error detail =>
    refine .inr ⟨.io r.path detail, rfl, ?_, rfl⟩
    rintro root ⟨text, htext', -⟩
    cases htext.symm.trans htext'
  | ok text =>
    dsimp only
    cases hroot : Xml.read text with
    | error e =>
      refine .inr ⟨.xml r.path e.message, rfl, ?_, rfl⟩
      rintro root ⟨text', htext', hroot'⟩
      cases htext.symm.trans htext'
      cases hroot.symm.trans hroot'
    | ok root => exact .inl ⟨root, ⟨text, htext, hroot⟩, rfl⟩

/-! ### What asking for a resource can come to -/

section

variable {assemble : Xml.Element → RootMaker → Parse Program} {root : Xml.Element}
  {maker : RootMaker} {p : Program} {w₁ : World} {force : Bool}

theorem make_of_ok (h : (assemble root maker).run.run (w.begun r root) = (.ok p, w₁)) :
    (st.make assemble r (w.storage.modified r) root maker).run.run w =
      (.ok w.entities.size, st.finished w₁ r w.entities.size p) := by
  have hprog : Gives (inProgress w.entities.size (assemble root maker)) (w.added r root) p
      w₁.stop := gives_inProgress.2 ⟨w₁, h, rfl⟩
  unfold make finished mayKeep
  refine gives_bind.2 ⟨(), _, rfl, gives_bind.2 ⟨w.entities.size, w.added r root, rfl, ?_⟩⟩
  refine gives_bind.2 ⟨p, w₁.stop, hprog, gives_bind.2 ⟨(), _, rfl, ?_⟩⟩
  split
  · exact gives_bind.2 ⟨(), _, rfl, rfl⟩
  · rfl

theorem make_of_error (h : (assemble root maker).run.run (w.begun r root) = (.error e, w₁)) :
    (st.make assemble r (w.storage.modified r) root maker).run.run w = (.error e, w₁.stop) := by
  have hprog : (inProgress w.entities.size (assemble root maker)).run.run (w.added r root) =
      (.error e, w₁.stop) := by
    rw [run_inProgress]
    show (((assemble root maker).run.run (w.begun r root)).1, _) = _
    rw [h]
    show (_, ((assemble root maker).run.run (w.begun r root)).2.stop) = _
    rw [h]
  have hreport : Gives (report .debug "Parsing resource" r [("root", root.head.name)]) w () _ := rfl
  unfold make
  rw [run_bind_of_gives hreport]
  refine (run_bind_of_gives (?_ : Gives _ _ w.entities.size (w.added r root))).trans
    (run_bind_of_error hprog)
  rfl

/-- A resource is not in progress and, unless that is forced, not to be had from what is kept. -/
structure Anew (w : World) (r : Resource) (force : Bool) : Prop where
  idle : inProgress? w r = none
  stale : force = false → fresh? w r = none

/-- **What asking for a resource can come to.** -/
inductive Asked (st : Setup) (assemble : Xml.Element → RootMaker → Parse Program) (r : Resource)
    (force : Bool) (w : World) : Except ParseError (Option EntityKey) → World → Prop where
  /-- It is in progress. -/
  | underway {key : EntityKey} : inProgress? w r = some key →
      Asked st assemble r force w (.ok (some key)) (w.write ⟨.debug,
        "Resource is already being parsed, reusing it", [("resource", r.path)], false⟩)
  /-- It is kept and up to date. -/
  | kept {key : EntityKey} : inProgress? w r = none → force = false → fresh? w r = some key →
      Asked st assemble r force w (.ok (some key))
        (w.write ⟨.debug, "Using cached entity", [("resource", r.path)], false⟩)
  /-- It does not exist. -/
  | absent : Anew w r force → w.storage.isPresent r = false →
      Asked st assemble r force w (.ok none)
        (w.write ⟨.warn, "Resource does not exist", [("resource", r.path)], false⟩)
  /-- It cannot be read. -/
  | unread {e : ParseError} : Anew w r force → w.storage.isPresent r = true →
      (∀ root, ¬ w.Reads r root) → e.unread? = some r.path →
      Asked st assemble r force w (.error e) w
  /-- Its root is not known. -/
  | ignored {root : Xml.Element} : Anew w r force → w.storage.isPresent r = true →
      w.Reads r root → st.registry.root? root.head.name = none →
      Asked st assemble r force w (.ok none) (w.write ⟨.warn, "Unknown root tag, resource ignored",
        [("resource", r.path), ("root", root.head.name)], false⟩)
  /-- Its program is made. -/
  | made {root : Xml.Element} {maker : RootMaker} {p : Program} {w₁ : World} :
      Anew w r force → w.storage.isPresent r = true → w.Reads r root →
      st.registry.root? root.head.name = some maker →
      (assemble root maker).run.run (w.begun r root) = (.ok p, w₁) →
      Asked st assemble r force w (.ok (some w.entities.size))
        (st.finished w₁ r w.entities.size p)
  /-- Its program cannot be made. -/
  | failed {root : Xml.Element} {maker : RootMaker} {e : ParseError} {w₁ : World} :
      Anew w r force → w.storage.isPresent r = true → w.Reads r root →
      st.registry.root? root.head.name = some maker →
      (assemble root maker).run.run (w.begun r root) = (.error e, w₁) →
      Asked st assemble r force w (.error e) w₁.stop

theorem asked (st : Setup) (assemble : Xml.Element → RootMaker → Parse Program) (r : Resource)
    (force : Bool) (w : World) : st.Asked assemble r force w
      ((st.parseWith assemble r force).run.run w).1
      ((st.parseWith assemble r force).run.run w).2 := by
  unfold parseWith
  rw [run_bind_of_gives (gives_get.2 ⟨rfl, rfl⟩)]
  cases hprog : inProgress? w r with
  | some key => exact .underway hprog
  | none =>
    dsimp only
    cases hfresh : if force = true then none else fresh? w r with
    | some key =>
      have hforce : force = false := by
        cases force with
        | true => cases hfresh
        | false => rfl
      subst hforce
      exact .kept hprog rfl hfresh
    | none =>
      have hanew : Anew w r force := ⟨hprog, fun hforce => by simpa [hforce] using hfresh⟩
      cases hpresent : w.storage.isPresent r with
      | false => exact .absent hanew hpresent
      | true =>
        simp only [Bool.not_true, Bool.false_eq_true, if_false]
        obtain ⟨root, hroot, hread⟩ | ⟨e, he, hnone, hread⟩ := run_readDocument r w
        · rw [run_bind_of_gives hread]
          cases hmaker : st.registry.root? root.head.name with
          | none => exact .ignored hanew hpresent hroot hmaker
          | some maker =>
            dsimp only
            rcases hx : (assemble root maker).run.run (w.begun r root) with ⟨e | p, w₁⟩
            · rw [run_bind_of_error (make_of_error hx)]
              exact .failed hanew hpresent hroot hmaker hx
            · rw [run_bind_of_gives (make_of_ok hx)]
              exact .made hanew hpresent hroot hmaker hx
        · rw [run_bind_of_error hread]
          exact .unread hanew hpresent hnone he

theorem asked_of_run {o : Except ParseError (Option EntityKey)}
    (h : (st.parseWith assemble r force).run.run w = (o, w')) :
    st.Asked assemble r force w o w' := by
  have hasked := asked st assemble r force w
  rwa [h] at hasked

theorem gives_parseWith_inProgress {key : EntityKey} (h : inProgress? w r = some key)
    (force : Bool) : Gives (st.parseWith assemble r force) w (some key)
      (w.write ⟨.debug, "Resource is already being parsed, reusing it", [("resource", r.path)],
        false⟩) := by
  unfold parseWith
  refine gives_bind.2 ⟨w, w, gives_get.2 ⟨rfl, rfl⟩, ?_⟩
  rw [h]
  rfl

theorem gives_parseWith_fresh {key : EntityKey} (h : inProgress? w r = none)
    (hfresh : fresh? w r = some key) : Gives (st.parseWith assemble r false) w (some key)
      (w.write ⟨.debug, "Using cached entity", [("resource", r.path)], false⟩) := by
  unfold parseWith
  refine gives_bind.2 ⟨w, w, gives_get.2 ⟨rfl, rfl⟩, ?_⟩
  rw [h]
  simp only [Bool.false_eq_true, if_false, hfresh]
  rfl

theorem gives_parseWith_anew (h : Anew w r false) {key : EntityKey} :
    Gives (st.parseWith assemble r false) w (some key) w' ↔
      w.storage.isPresent r = true ∧ ∃ root maker p w₁, w.Reads r root ∧
        st.registry.root? root.head.name = some maker ∧
        Gives (assemble root maker) (w.begun r root) p w₁ ∧
        key = w.entities.size ∧ w' = st.finished w₁ r w.entities.size p := by
  constructor
  · intro hx
    cases asked_of_run hx with
    | underway hprog => cases h.idle.symm.trans hprog
    | kept _ _ hfresh => cases (h.stale rfl).symm.trans hfresh
    | made _ hpresent hroot hmaker hp =>
      exact ⟨hpresent, _, _, _, _, hroot, hmaker, hp, rfl, rfl⟩
  · rintro ⟨hpresent, root, maker, p, w₁, hroot, hmaker, hp, rfl, rfl⟩
    rcases hx : (st.parseWith assemble r false).run.run w with ⟨o, v⟩
    rw [Gives, hx]
    cases asked_of_run hx with
    | underway hprog => cases h.idle.symm.trans hprog
    | kept _ _ hfresh => cases (h.stale rfl).symm.trans hfresh
    | absent _ habsent => cases hpresent.symm.trans habsent
    | unread _ _ hnone => exact absurd hroot (hnone root)
    | ignored _ _ hroot' hnone =>
      obtain rfl := hroot.unique hroot'
      cases hmaker.symm.trans hnone
    | made _ _ hroot' hmaker' hp' =>
      obtain rfl := hroot.unique hroot'
      obtain rfl := Option.some.inj (hmaker.symm.trans hmaker')
      obtain ⟨hp, rfl⟩ := Prod.mk.inj (hp.symm.trans hp')
      cases hp
      rfl
    | failed _ _ hroot' hmaker' hp' =>
      obtain rfl := hroot.unique hroot'
      obtain rfl := Option.some.inj (hmaker.symm.trans hmaker')
      cases hp.symm.trans hp'

theorem fails_parseWith (h : Fails (st.parseWith assemble r force) w e) :
    e.unread? = some r.path ∨
      ∃ root maker, w.Reads r root ∧ Fails (assemble root maker) (w.begun r root) e := by
  rcases hx : (st.parseWith assemble r force).run.run w with ⟨o, v⟩
  obtain rfl : o = .error e := by rwa [Fails, hx] at h
  cases asked_of_run hx with
  | unread _ _ _ he => exact .inl he
  | failed _ _ hroot _ hp => exact .inr ⟨_, _, hroot, by rw [Fails, hp]⟩

end

/-- What the document of a resource is made with while the resource is in progress. -/
def during (st : Setup) (depth : Nat) (l : Locator) (r : Resource) : Assembly :=
  { st.alone l r with refer := fun t => st.parseIn depth t false }

theorem parseIn_succ (depth : Nat) (r : Resource) (force : Bool) :
    st.parseIn (depth + 1) r force = st.parseWith (fun root maker => get >>= fun u =>
      (st.during depth u.locator r).document root maker) r force :=
  rfl

theorem gives_parseIn_anew (h : Anew w r false) {key : EntityKey} :
    Gives (st.parseIn (depth + 1) r false) w (some key) w' ↔
      w.storage.isPresent r = true ∧ ∃ root maker p w₁, w.Reads r root ∧
        st.registry.root? root.head.name = some maker ∧
        Gives ((st.during depth w.locator r).document root maker) (w.begun r root) p w₁ ∧
        key = w.entities.size ∧ w' = st.finished w₁ r w.entities.size p := by
  rw [parseIn_succ, gives_parseWith_anew h]
  refine and_congr_right fun _ => exists_congr fun root => exists_congr fun maker =>
    exists_congr fun p => exists_congr fun w₁ => ?_
  rw [gives_get_bind]
  rfl

/-- **A resource is parsed anew exactly if its document is well formed, has a known root and becomes
a program with its references taken for granted, and if these are found while it is in
progress.** -/
theorem gives_parseIn_iff (hreg : st.registry.reference = .invoke) (h : Anew w r false)
    {key : EntityKey} :
    Gives (st.parseIn (depth + 1) r false) w (some key) w' ↔
      w.storage.isPresent r = true ∧ ∃ root maker p w₁, w.Reads r root ∧
        st.registry.root? root.head.name = some maker ∧
        Gives ((st.alone w.locator r).document root maker) w p w ∧
        Finds (fun t => st.parseIn depth t false)
          (st.registry.targetsAll w.locator root.children) (w.begun r root) w₁ ∧
        key = w.entities.size ∧ w' = st.finished w₁ r w.entities.size p := by
  rw [gives_parseIn_anew h]
  refine and_congr_right fun _ => exists_congr fun root => exists_congr fun maker =>
    exists_congr fun p => exists_congr fun w₁ => ?_
  rw [Assembly.gives_document_iff hreg, and_assoc]
  refine and_congr_right fun _ => and_congr_right fun _ => and_congr_left fun _ => ?_
  -- the document does not look at the world
  have hsteady := st.steady_alone hreg w.locator r root maker
  exact ⟨fun hp => hsteady.gives hp w, fun hp => hsteady.gives hp (w.begun r root)⟩

/-- If a resource cannot be parsed for a reason other than its own document, this is because one of
its references fails. -/
theorem stops_of_fails_parseIn (hreg : st.registry.reference = .invoke)
    (he : Fails (st.parseIn (depth + 1) r false) w e) (hrefusal : e.isRefusal = false)
    (hread : e.unread? = none) :
    ∃ root, w.Reads r root ∧
      Stops (fun t => st.parseIn depth t false)
        (st.registry.targetsAll w.locator root.children) (w.begun r root) e := by
  rw [parseIn_succ] at he
  obtain he | ⟨root, maker, hroot, he⟩ := fails_parseWith he
  · cases hread.symm.trans he
  · rw [fails_get_bind] at he
    obtain he | he := Assembly.fails_document hreg he
    · rw [hrefusal] at he
      cases he
    · exact ⟨root, hroot, he⟩

theorem grows_of_gives {key? : Option EntityKey}
    (h : Gives (st.parseIn depth r false) w key? w') : w.Grows w' := by
  have hgrows := st.grows_parseIn depth r false w
  rwa [h] at hgrows

/-- Asking for a resource is the same at every depth, apart from how a program is made. -/
theorem exists_parseWith (st : Setup) (depth : Nat) (r : Resource) (force : Bool) :
    ∃ assemble, st.parseIn depth r force = st.parseWith assemble r force := by
  cases depth with
  | zero => exact ⟨_, rfl⟩
  | succ d => exact ⟨_, rfl⟩

/-- Without any depth left nothing is parsed anew. -/
theorem not_gives_parseIn_zero (h : Anew w r false) {key : EntityKey} :
    ¬ Gives (st.parseIn 0 r false) w (some key) w' := by
  intro hx
  obtain ⟨-, root, maker, p, w₁, -, -, hp, -⟩ := (gives_parseWith_anew h).1 hx
  exact gives_throw hp

theorem gives_load {name : String} {key : EntityKey} :
    Gives (st.load name) w key w' ↔ ∃ r, w.locator.get? name = some r ∧
      Gives (st.parseIn (w.locator.length + 1) r false) w.idle (some key) w' := by
  unfold load parse
  rw [gives_get_bind]
  constructor
  · intro hx
    split at hx
    · exact absurd hx gives_throw
    · obtain ⟨key?, w₁, hparse, hx⟩ := gives_bind.1 hx
      cases key? with
      | none => exact absurd hx gives_throw
      | some k =>
        obtain ⟨rfl, rfl⟩ := gives_pure.1 hx
        exact ⟨_, ‹_›, hparse⟩
  · rintro ⟨r, hr, hparse⟩
    simp only [hr]
    exact gives_bind.2 ⟨some key, w', hparse, gives_pure.2 ⟨rfl, rfl⟩⟩

theorem fails_load {name : String} {e : ParseError} (h : Fails (st.load name) w e) :
    e = .unknownResource name ∨ ∃ r, w.locator.get? name = some r ∧
      (e = .notExecutable r.path ∨ Fails (st.parseIn (w.locator.length + 1) r false) w.idle e) := by
  unfold load parse at h
  rw [fails_get_bind] at h
  split at h
  · cases h
    exact .inl rfl
  · refine .inr ⟨_, ‹_›, ?_⟩
    obtain h | ⟨key?, w₁, -, h⟩ := fails_bind.1 h
    · exact .inr h
    · cases key? with
      | none =>
        cases h
        exact .inl rfl
      | some k => exact absurd h fails_pure

end Setup

end Scenario
