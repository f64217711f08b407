import Scenario.Proofs.Loading
import Scenario.Run.Exec

/-!
# What is kept

Entities are shared while they are still in progress, resources that are referred to are kept before
those that refer to them are finished, and a failure ends the parsing of every resource on the way
to it. `Parsed` says what a call that ends with a failure, or with none, may have done to the world:
entities that were there before are untouched, what is kept is complete, and where the making of an
entity failed, what is kept for its path is what was kept before. **`parsed_parseIn`** says that
asking for a resource does nothing else, whatever is in progress.

A `Request` is anything that may happen to a world from outside, and `reached` is the world after
a history of them. Two results are about every history:

* **`Setup.parsing_is_atomic`** — what is handed out is complete and stays so, and a failure leaves
  nothing behind.
* **`Setup.cache_hits_are_fresh`** — what is handed out again is up to date with the handle it was
  parsed from. That handle need not be the one that was passed, as `replaced_handle_is_answered`
  shows.
-/

namespace Scenario

/-- An entity may be kept for a path: it is complete, its resource has this path and a name, and
what is parsed from it may be kept. -/
structure Entity.Keepable (e : Entity) (path : String) : Prop where
  path : e.path = path
  complete : e.program.isSome = true
  cacheable : e.resource.cacheable = true
  named : Text.isBlankText e.name = false

namespace World

/-- An entity of this path is in progress. -/
def Underway (w : World) (path : String) : Prop :=
  ∃ key ∈ w.progress, ∃ e, w.entity? key = some e ∧ e.path = path

/-- An entity is kept for this path and up to date with the handle it was parsed from. -/
def Fresh (w : World) (path : String) : Prop :=
  ∃ key, w.cached? path = some key ∧ ∃ e, w.entity? key = some e ∧ e.isModified w.storage = false

/-- Only what may be kept is kept. -/
def Tidy (w : World) : Prop :=
  ∀ path key, (path, key) ∈ w.cache → ∃ e, w.entity? key = some e ∧ e.Keepable path

/-- The making of an entity of this path failed: its document could not be read, or it was added as
the `n`th or later and has no program. -/
def Broken (w : World) (n : Nat) (err : ParseError) (path : String) : Prop :=
  err.unread? = some path ∨
    ∃ key e, n ≤ key ∧ w.entity? key = some e ∧ e.path = path ∧ e.program = none

/-- The registered resources have a property. -/
def Offers (P : Resource → Prop) (w : World) : Prop :=
  ∀ name t, w.locator.get? name = some t → P t

/-- The entities are made from resources with a property. -/
def Stems (P : Resource → Prop) (w : World) : Prop :=
  ∀ key e, w.entity? key = some e → P e.resource

/-- The resources of the second world are those of the first, and the entities of the first are
still there, untouched. -/
structure Extends (u v : World) : Prop where
  storage : v.storage = u.storage
  locator : v.locator = u.locator
  entity : ∀ {key e}, u.entity? key = some e → v.entity? key = some e

variable {u v w : World} {r : Resource} {path : String}

theorem lt_size_of_entity {key : EntityKey} {e : Entity} (h : w.entity? key = some e) :
    key < w.entities.size :=
  (Array.getElem?_eq_some_iff.1 h).1

theorem inProgress?_eq_none_iff : Setup.inProgress? w r = none ↔ ¬ w.Underway r.path := by
  unfold Setup.inProgress? Underway
  rw [List.find?_eq_none]
  constructor
  · rintro h ⟨key, hkey, e, he, hpath⟩
    refine h key hkey ?_
    rw [he]
    simpa using hpath
  · intro h key hkey hpath
    cases he : w.entity? key with
    | none => simp [he] at hpath
    | some e => exact h ⟨key, hkey, e, he, by simpa [he] using hpath⟩

theorem fresh?_eq_some_iff {key : EntityKey} : Setup.fresh? w r = some key ↔
    w.cached? r.path = some key ∧ ∃ e, w.entity? key = some e ∧ e.isModified w.storage = false := by
  unfold Setup.fresh? isModified
  rw [Option.filter_eq_some_iff]
  refine and_congr_right fun _ => ?_
  cases w.entity? key <;> simp

theorem fresh?_eq_none_iff : Setup.fresh? w r = none ↔ ¬ w.Fresh r.path := by
  constructor
  · rintro h ⟨key, hfresh⟩
    cases h.symm.trans (fresh?_eq_some_iff.2 hfresh)
  · intro h
    cases hkey : Setup.fresh? w r with
    | none => rfl
    | some key => exact absurd ⟨key, fresh?_eq_some_iff.1 hkey⟩ h

/-! ### Worlds that extend each other -/

theorem Extends.trans (h : u.Extends v) (h' : v.Extends w) : u.Extends w :=
  ⟨h'.storage.trans h.storage, h'.locator.trans h.locator, fun he => h'.entity (h.entity he)⟩

theorem Extends.offers (h : u.Extends v) {P : Resource → Prop} (hu : u.Offers P) : v.Offers P := by
  intro name t ht
  rw [h.locator] at ht
  exact hu name t ht

theorem Underway.extends (hu : u.Underway path) (h : u.Extends v)
    (hprog : ∀ key ∈ u.progress, key ∈ v.progress) : v.Underway path := by
  obtain ⟨key, hkey, e, he, hpath⟩ := hu
  exact ⟨key, hprog key hkey, e, h.entity he, hpath⟩

theorem Fresh.extends (hu : u.Fresh path) (h : u.Extends v)
    (hcached : v.cached? path = u.cached? path) : v.Fresh path := by
  obtain ⟨key, hkey, e, he, hmod⟩ := hu
  exact ⟨key, hcached.trans hkey, e, h.entity he, by rwa [h.storage]⟩

theorem Tidy.extends (hu : u.Tidy) (h : u.Extends v)
    (hcache : ∀ x ∈ v.cache, x ∈ u.cache) : v.Tidy := by
  intro path key hkey
  obtain ⟨e, he, hkeep⟩ := hu path key (hcache _ hkey)
  exact ⟨e, h.entity he, hkeep⟩

/-- A complete entity may take the place of the one that was kept. -/
theorem Tidy.keep (h : w.Tidy) {key : EntityKey} {e : Entity} (he : w.entity? key = some e)
    (hkeep : e.Keepable path) : (w.keep path key).Tidy := by
  intro path' key' hmem
  obtain heq | hmem := List.mem_cons.1 hmem
  · cases heq
    exact ⟨e, he, hkeep⟩
  · exact h path' key' ((List.mem_filter.1 hmem).1)

/-- An entity that gets its program may still be kept. -/
theorem Tidy.complete (h : w.Tidy) (key : EntityKey) (p : Program) : (w.complete key p).Tidy := by
  intro path key' hmem
  obtain ⟨e, he, hkeep⟩ := h path key' hmem
  rw [entity?_complete, he]
  split
  · exact ⟨_, rfl, hkeep.path, rfl, hkeep.cacheable, hkeep.named⟩
  · exact ⟨e, rfl, hkeep⟩

/-! ### An entity in progress -/

variable {root : Xml.Element}

theorem entity?_begun (w : World) (r : Resource) (root : Xml.Element) (key : EntityKey) :
    (w.begun r root).entity? key = if key = w.entities.size then
      some { resource := r, rootTag := root.head.name, timestamp := w.storage.modified r }
      else w.entity? key :=
  entity?_addEntity _ _ key

theorem size_begun (w : World) (r : Resource) (root : Xml.Element) :
    (w.begun r root).entities.size = w.entities.size + 1 :=
  Array.size_push _

theorem extends_begun (w : World) (r : Resource) (root : Xml.Element) :
    w.Extends (w.begun r root) :=
  ⟨rfl, rfl, fun he => by
    rwa [entity?_begun, if_neg (Nat.ne_of_lt (lt_size_of_entity he))]⟩

theorem mem_progress_begun (w : World) (r : Resource) (root : Xml.Element) :
    ∀ key ∈ w.progress, key ∈ (w.begun r root).progress :=
  fun _ hkey => List.mem_append_left _ hkey

theorem underway_begun (w : World) (r : Resource) (root : Xml.Element) :
    (w.begun r root).Underway r.path :=
  ⟨w.entities.size, List.mem_append_right _ (List.mem_singleton.2 rfl), _,
    (entity?_begun w r root _).trans (if_pos rfl), rfl⟩

end World

/-- What a call may have done to the world if it ended with this failure, or with none. `force`
tells whether it was asked to parse its resource whatever is kept. -/
structure Parsed (P : Resource → Prop) (force : Bool) (failure : Option ParseError)
    (u v : World) : Prop where
  extended : u.Extends v
  progress : v.progress = u.progress
  /-- What is kept for a path changes only if it is not in progress, and is then up to date. -/
  cached : ∀ path, v.cached? path = u.cached? path ∨ v.Fresh path ∧ ¬ u.Underway path
  /-- What a call begins it completes, unless it fails. -/
  complete : failure = none → ∀ {key e}, u.entities.size ≤ key → v.entity? key = some e →
    e.program.isSome = true
  /-- What a call begins is up to date when the call ends. -/
  timely : ∀ {key e}, u.entities.size ≤ key → v.entity? key = some e →
    e.isModified v.storage = false
  /-- Where it fails, what is kept stays. -/
  atomic : ∀ {err path}, failure = some err → v.Broken u.entities.size err path →
    v.cached? path = u.cached? path ∧ ¬ u.Underway path ∧ (force = false → ¬ u.Fresh path)
  tidy : u.Tidy → v.Tidy
  stems : u.Stems P → v.Stems P

namespace Parsed

open World

variable {P : Resource → Prop} {force : Bool} {failure : Option ParseError} {u v w : World}
  {r : Resource} {root : Xml.Element}

/-- A call that only made entries in the journal did nothing, unless it failed to read a document
that it should not have read. -/
theorem still (u : World) (journal : Journal) (described : Array EntityKey)
    (h : ∀ {err path}, failure = some err → err.unread? = some path →
      ¬ u.Underway path ∧ (force = false → ¬ u.Fresh path)) :
    Parsed P force failure u { u with journal, described } where
  extended := ⟨rfl, rfl, fun he => he⟩
  progress := rfl
  cached _ := .inl rfl
  complete _ _ _ hle he := absurd (lt_size_of_entity he) (Nat.not_lt.2 hle)
  timely hle he := absurd (lt_size_of_entity he) (Nat.not_lt.2 hle)
  atomic hfail hbroken := by
    obtain hread | ⟨key, e, hle, he, -⟩ := hbroken
    · exact ⟨rfl, h hfail hread⟩
    · exact absurd (lt_size_of_entity he) (Nat.not_lt.2 hle)
  tidy hu := hu
  stems hu := hu

theorem underway_of_underway (h : Parsed P force failure u v) {path : String}
    (hu : u.Underway path) : v.Underway path :=
  hu.extends h.extended fun _ hkey => by rwa [h.progress]

theorem fresh_of_fresh (h : Parsed P force failure u v) {path : String} (hu : u.Fresh path) :
    v.Fresh path := by
  obtain hcached | ⟨hfresh, -⟩ := h.cached path
  · exact hu.extends h.extended hcached
  · exact hfresh

/-- What a call has completed stays complete. -/
theorem complete_of_lt (h : Parsed P force none u v) (hvw : v.Extends w) {key : EntityKey}
    {e : Entity} (hle : u.entities.size ≤ key) (hlt : key < v.entities.size)
    (he : w.entity? key = some e) : e.program.isSome = true := by
  have hv : v.entity? key = some v.entities[key] := Array.getElem?_eq_getElem hlt
  cases he.symm.trans (hvw.entity hv)
  exact h.complete rfl hle hv

/-- One call after another. -/
theorem trans (h : Parsed P false none u v) (h' : Parsed P false failure v w) :
    Parsed P false failure u w where
  extended := h.extended.trans h'.extended
  progress := h'.progress.trans h.progress
  cached path := by
    obtain hcached' | ⟨hfresh, hnot⟩ := h'.cached path
    · obtain hcached | ⟨hfresh, hnot⟩ := h.cached path
      · exact .inl (hcached'.trans hcached)
      · exact .inr ⟨hfresh.extends h'.extended hcached', hnot⟩
    · exact .inr ⟨hfresh, fun hu => hnot (h.underway_of_underway hu)⟩
  complete hfail key e hle he := by
    obtain hlt | hle' := Nat.lt_or_ge key v.entities.size
    · exact h.complete_of_lt h'.extended hle hlt he
    · exact h'.complete hfail hle' he
  timely {key e} hle he := by
    obtain hlt | hle' := Nat.lt_or_ge key v.entities.size
    · have hv : v.entity? key = some v.entities[key] := Array.getElem?_eq_getElem hlt
      cases he.symm.trans (h'.extended.entity hv)
      rw [h'.extended.storage]
      exact h.timely hle hv
    · exact h'.timely hle' he
  atomic {err path} hfail hbroken := by
    have hbroken' : w.Broken v.entities.size err path := by
      refine hbroken.imp_right ?_
      rintro ⟨key, e, hle, he, hpath, hprog⟩
      obtain hlt | hle' := Nat.lt_or_ge key v.entities.size
      · -- what the first call began is complete
        have hsome := h.complete_of_lt h'.extended hle hlt he
        rw [hprog] at hsome
        cases hsome
      · exact ⟨key, e, hle', he, hpath, hprog⟩
    obtain ⟨hcached', hunder, hstale⟩ := h'.atomic hfail hbroken'
    refine ⟨?_, fun hu => hunder (h.underway_of_underway hu),
      fun hforce hu => hstale hforce (h.fresh_of_fresh hu)⟩
    obtain hcached | ⟨hfresh, -⟩ := h.cached path
    · exact hcached'.trans hcached
    · exact absurd hfresh (hstale rfl)
  tidy hu := h'.tidy (h.tidy hu)
  stems hu := h'.stems (h.stems hu)

/-- What was kept for the path of a resource is kept while it is in progress. -/
theorem cached_begun (h : Parsed P false failure (w.begun r root) v) :
    v.cached? r.path = w.cached? r.path := by
  obtain hcached | ⟨-, hnot⟩ := h.cached r.path
  · exact hcached
  · exact absurd (underway_begun w r root) hnot

theorem entity_begun (h : Parsed P false failure (w.begun r root) v) :
    v.entity? w.entities.size = some
      { resource := r, rootTag := root.head.name, timestamp := w.storage.modified r } :=
  h.extended.entity ((entity?_begun w r root _).trans (if_pos rfl))

theorem progress_begun (h : Parsed P false failure (w.begun r root) v) :
    v.stop.progress = w.progress := by
  rw [World.stop, h.progress]
  exact List.dropLast_concat

theorem cached_of_begun (h : Parsed P false failure (w.begun r root) v) (path : String) :
    v.cached? path = w.cached? path ∨ v.Fresh path ∧ ¬ w.Underway path := by
  refine (h.cached path).imp_right fun hfresh => ⟨hfresh.1, fun hunder => hfresh.2 ?_⟩
  exact hunder.extends (extends_begun w r root) (mem_progress_begun w r root)

theorem timely_begun (h : Parsed P false failure (w.begun r root) v)
    (hpresent : w.storage.isPresent r = true) {key : EntityKey} {e : Entity}
    (hle : w.entities.size ≤ key) (he : v.entity? key = some e) :
    e.isModified v.storage = false := by
  by_cases hkey : key = w.entities.size
  · subst hkey
    cases h.entity_begun.symm.trans he
    have hsame : v.storage = w.storage := h.extended.storage
    simp [Entity.isModified, hsame, hpresent]
  · refine h.timely ?_ he
    rw [size_begun]
    exact Nat.lt_of_le_of_ne hle (Ne.symm hkey)

theorem stems_begun (h : Parsed P false failure (w.begun r root) v) (hP : P r) (hw : w.Stems P) :
    v.Stems P := by
  refine h.stems fun key e he => ?_
  rw [entity?_begun] at he
  split at he
  · cases he
    exact hP
  · exact hw key e he

theorem tidy_begun (h : Parsed P false failure (w.begun r root) v) (hw : w.Tidy) : v.Tidy :=
  h.tidy (hw.extends (extends_begun w r root) fun _ hx => hx)

/-- The program of a resource cannot be made. -/
theorem failed {e : ParseError} (h : Parsed P false (some e) (w.begun r root) v) (hP : P r)
    (hanew : Setup.Anew w r force) (hpresent : w.storage.isPresent r = true) :
    Parsed P force (some e) w v.stop where
  extended := (extends_begun w r root).trans
    ⟨h.extended.storage, h.extended.locator, h.extended.entity⟩
  progress := h.progress_begun
  cached := h.cached_of_begun
  complete hfail := by cases hfail
  timely := h.timely_begun hpresent
  atomic {err path} hfail hbroken := by
    have hself : v.cached? r.path = w.cached? r.path ∧ ¬ w.Underway r.path ∧
        (force = false → ¬ w.Fresh r.path) :=
      ⟨h.cached_begun, inProgress?_eq_none_iff.1 hanew.idle,
        fun hforce => fresh?_eq_none_iff.1 (hanew.stale hforce)⟩
    -- a failure below the resource
    have hbelow : v.Broken (w.begun r root).entities.size err path →
        v.cached? path = w.cached? path ∧ ¬ w.Underway path ∧ (force = false → ¬ w.Fresh path) := by
      intro hbroken
      obtain ⟨hcached, hunder, hstale⟩ := h.atomic hfail hbroken
      have hext := extends_begun w r root
      exact ⟨hcached, fun hu => hunder (hu.extends hext (mem_progress_begun w r root)),
        fun _ hu => hstale rfl (hu.extends hext rfl)⟩
    obtain hread | ⟨key, e, hle, he, hpath, hprog⟩ := hbroken
    · exact hbelow (.inl hread)
    · by_cases hkey : key = w.entities.size
      · subst hkey
        cases h.entity_begun.symm.trans he
        exact hpath ▸ hself
      · refine hbelow (.inr ⟨key, e, ?_, he, hpath, hprog⟩)
        rw [size_begun]
        omega
  tidy hw := h.tidy_begun hw
  stems := h.stems_begun hP

theorem entity_finished (st : Setup) (h : Parsed P false failure (w.begun r root) v)
    (p : Program) : (st.finished v r w.entities.size p).entity? w.entities.size = some
      { resource := r, rootTag := root.head.name, timestamp := w.storage.modified r,
        program := some p } := by
  rw [Setup.entity?_finished, if_pos rfl, h.entity_begun]
  rfl

/-- What is kept for a path stays, or is up to date. -/
theorem cached_finished (st : Setup) (h : Parsed P false failure (w.begun r root) v)
    (hidle : ¬ w.Underway r.path) (hpresent : w.storage.isPresent r = true) (p : Program)
    (path : String) :
    (st.finished v r w.entities.size p).cached? path = w.cached? path ∨
      (st.finished v r w.entities.size p).Fresh path ∧ ¬ w.Underway path := by
  obtain ⟨hstorage, -, -⟩ := st.finished_same v r w.entities.size p
  rw [Setup.cached?_finished]
  split
  · obtain ⟨hkeep, rfl⟩ := ‹st.mayKeep r = true ∧ path = r.path›
    refine .inr ⟨⟨w.entities.size, ?_, _, h.entity_finished st p, ?_⟩, hidle⟩
    · rw [Setup.cached?_finished, if_pos ⟨hkeep, rfl⟩]
    · have hsame : v.storage = w.storage := h.extended.storage
      simp [Entity.isModified, hstorage, hsame, hpresent]
  · refine (h.cached_of_begun path).imp_right fun hfresh => ⟨?_, hfresh.2⟩
    obtain ⟨key, hkey, e, he, hmod⟩ := hfresh.1
    refine ⟨key, by rwa [Setup.cached?_finished, if_neg ‹_›], ?_⟩
    rw [Setup.entity?_finished, he, hstorage]
    split
    · exact ⟨_, rfl, hmod⟩
    · exact ⟨e, rfl, hmod⟩

theorem tidy_finished (st : Setup) (h : Parsed P false failure (w.begun r root) v)
    (hw : w.Tidy) (p : Program) : (st.finished v r w.entities.size p).Tidy := by
  have hself := h.entity_finished st p
  have hcomplete : (v.stop.complete w.entities.size p).Tidy :=
    (h.tidy_begun hw).complete w.entities.size p
  unfold Setup.finished at hself ⊢
  split
  · have hkeep : st.mayKeep r = true := ‹_›
    rw [if_pos hkeep] at hself
    simp only [Setup.mayKeep, Bool.and_eq_true, Bool.not_eq_true'] at hkeep
    exact hcomplete.keep hself ⟨rfl, rfl, hkeep.1.2, hkeep.2⟩
  · exact hcomplete

/-- The program of a resource is made. -/
theorem made (st : Setup) (h : Parsed P false none (w.begun r root) v) (hP : P r)
    (hanew : Setup.Anew w r force) (hpresent : w.storage.isPresent r = true) (p : Program) :
    Parsed P force none w (st.finished v r w.entities.size p) where
  extended := by
    obtain ⟨hstorage, hlocator, -⟩ := st.finished_same v r w.entities.size p
    have hext : w.Extends v := (extends_begun w r root).trans h.extended
    refine ⟨hstorage.trans hext.storage, hlocator.trans hext.locator, fun {key e} he => ?_⟩
    rw [Setup.entity?_finished, if_neg (Nat.ne_of_gt (lt_size_of_entity he))]
    exact hext.entity he
  progress := (st.finished_same v r w.entities.size p).2.2.trans h.progress_begun
  cached := h.cached_finished st (inProgress?_eq_none_iff.1 hanew.idle) hpresent p
  complete _ key e hle he := by
    rw [Setup.entity?_finished] at he
    split at he
    · obtain ⟨e', -, rfl⟩ := Option.map_eq_some_iff.1 he
      rfl
    · refine h.complete rfl ?_ he
      rw [size_begun]
      exact Nat.lt_of_le_of_ne hle ‹_›
  timely {key e} hle he := by
    rw [(st.finished_same v r w.entities.size p).1]
    rw [Setup.entity?_finished] at he
    split at he
    · obtain ⟨e', he', rfl⟩ := Option.map_eq_some_iff.1 he
      have hold : e'.isModified v.storage = false := h.timely_begun hpresent hle he'
      exact hold
    · exact h.timely_begun hpresent hle he
  atomic hfail := by cases hfail
  tidy hw := h.tidy_finished st hw p
  stems hw key e he := by
    rw [Setup.entity?_finished] at he
    split at he
    · obtain ⟨e', he', rfl⟩ := Option.map_eq_some_iff.1 he
      exact h.stems_begun hP hw key e' he'
    · exact h.stems_begun hP hw key e he

/-- Making a program by itself does nothing. -/
theorem steps (P : Resource → Prop) :
    StepLaw fun failure u v => u.Offers P → Parsed P false failure u v where
  refl w _ := still w w.journal w.described fun h => by cases h
  trans h h' hu := (h hu).trans (h' ((h hu).extended.offers hu))
  describe w key _ := still w w.journal (w.described.push key) fun h => by cases h
  refuse w _ _ _ _ _ := still w w.journal w.described fun h hread => by
    cases h
    cases hread

end Parsed

namespace Setup

open Parse World

variable {P : Resource → Prop} {force : Bool} {w : World} {r : Resource} {st : Setup}

theorem parsed_parseWith {assemble : Xml.Element → RootMaker → Parse Program} (hP : P r)
    (hassemble : ∀ root maker, Parsed P false
      (failure? ((assemble root maker).run.run (w.begun r root)).1) (w.begun r root)
      ((assemble root maker).run.run (w.begun r root)).2) :
    Parsed P force (failure? ((st.parseWith assemble r force).run.run w).1) w
      ((st.parseWith assemble r force).run.run w).2 := by
  rcases hx : (st.parseWith assemble r force).run.run w with ⟨o, v⟩
  have hstill : ∀ record, Parsed P force none w (w.write record) := fun record =>
    .still w (w.journal.push (.record record)) w.described fun h => by cases h
  cases asked_of_run hx with
  | underway _ => exact hstill _
  | kept _ _ _ => exact hstill _
  | absent _ _ => exact hstill _
  | ignored _ _ _ _ => exact hstill _
  | unread hanew _ _ he =>
    refine .still w w.journal w.described fun herr hread => ?_
    cases herr
    cases he.symm.trans hread
    exact ⟨inProgress?_eq_none_iff.1 hanew.idle,
      fun hforce => fresh?_eq_none_iff.1 (hanew.stale hforce)⟩
  | @made root maker p w₁ hanew hpresent _ _ hp =>
    have h := hassemble root maker
    rw [hp] at h
    exact h.made st hP hanew hpresent p
  | @failed root maker e w₁ hanew hpresent _ _ hp =>
    have h := hassemble root maker
    rw [hp] at h
    exact h.failed hP hanew hpresent

/-- Making the program of a resource does what a call may do, at every depth. -/
theorem exists_parsed_assemble (st : Setup) (depth : Nat) (hP : P r) (hw : w.Offers P) :
    ∃ assemble : Xml.Element → RootMaker → Parse Program,
      (∀ force, st.parseIn depth r force = st.parseWith assemble r force) ∧
      ∀ root maker, Parsed P false
        (failure? ((assemble root maker).run.run (w.begun r root)).1) (w.begun r root)
        ((assemble root maker).run.run (w.begun r root)).2 := by
  induction depth generalizing r w with
  | zero =>
    refine ⟨_, fun _ => rfl, fun root maker => .still _ _ _ fun herr hread => ?_⟩
    cases herr
    cases hread
  | succ depth ih =>
    refine ⟨_, fun _ => parseIn_succ depth r _, fun root maker => ?_⟩
    rw [run_bind_of_gives (gives_get.2 ⟨rfl, rfl⟩)]
    have hbegun : (w.begun r root).Offers P := (extends_begun w r root).offers hw
    have hmaker : maker.Makes fun _ => True := by cases maker <;> exact trivial
    have hrefer : ∀ {name t}, w.locator.get? name = some t →
        Sat (fun failure u v => u.Offers P → Parsed P false failure u v)
          (st.parseIn depth t false) fun _ => True := by
      intro name t ht u
      refine ⟨fun hu => ?_, fun _ _ => trivial⟩
      obtain ⟨assemble, hparse, hassemble⟩ := ih (hw name t ht) hu
      rw [hparse]
      exact parsed_parseWith (hw name t ht) hassemble
    exact (Assembly.sat_document (Parsed.steps P) hrefer st.registry.makes_any root hmaker
      (w.begun r root)).1 hbegun

/-- **Asking for a resource does what a call may do, whatever is in progress.** -/
theorem parsed_parseIn (st : Setup) (depth : Nat) (force : Bool) (hP : P r) (hw : w.Offers P) :
    Parsed P force (failure? ((st.parseIn depth r force).run.run w).1) w
      ((st.parseIn depth r force).run.run w).2 := by
  obtain ⟨assemble, hparse, hassemble⟩ := st.exists_parsed_assemble depth hP hw
  rw [hparse]
  exact parsed_parseWith hP hassemble

/-- The entity that is given is in progress, or was kept and is up to date, or is new and complete,
and then kept if it may be. -/
theorem given_parseIn {depth : Nat} {key : EntityKey} {v : World}
    (hx : Gives (st.parseIn depth r force) w (some key) v) :
    w.Underway r.path ∨
    (force = false ∧ fresh? w r = some key ∧ ∃ record, v = w.write record) ∨
    key = w.entities.size ∧ (∃ e p, v.entity? key = some e ∧ e.program = some p) ∧
      (st.mayKeep r = true → v.cached? r.path = some key) := by
  have hoffers : w.Offers fun _ => True := fun _ _ _ => trivial
  obtain ⟨assemble, hparse, hassemble⟩ :=
    st.exists_parsed_assemble (r := r) (w := w) depth trivial hoffers
  rw [hparse] at hx
  cases asked_of_run hx with
  | underway hprog =>
    refine .inl (Classical.byContradiction fun hnot => ?_)
    cases hprog.symm.trans (inProgress?_eq_none_iff.2 hnot)
  | kept _ hforce hfresh => exact .inr (.inl ⟨hforce, hfresh, _, rfl⟩)
  | @made root maker p w₁ _ _ _ _ hp =>
    have h := hassemble root maker
    rw [hp] at h
    refine .inr (.inr ⟨rfl, ⟨_, p, h.entity_finished st p, rfl⟩, fun hkeep => ?_⟩)
    rw [cached?_finished, if_pos ⟨hkeep, rfl⟩]

end Setup

/-! ### Histories -/

/-- What may happen to a world from outside. -/
inductive Request where
  /-- A resource is registered. -/
  | register (r : Resource)
  /-- Contents change: documents are added, edited, touched or deleted. -/
  | change (f : Storage → Storage)
  /-- What is kept for a path is taken away. -/
  | evict (path : String)
  /-- Everything that is kept is taken away. -/
  | clear
  /-- A resource is asked for. -/
  | parse (r : Resource) (force : Bool)
  /-- The resource registered under a name is asked for. -/
  | load (name : String)

namespace Request

/-- The world after a request. -/
def run (st : Setup) (w : World) : Request → World
  | register r => w.register r
  | change f => { w with storage := f w.storage }
  | evict path => w.evict path
  | clear => w.clearCache
  | parse r force => ((st.parse r force).run.run w).2
  | load name => ((st.load name).run.run w).2

/-- The entity that a request hands out. -/
def given? (st : Setup) (w : World) : Request → Option EntityKey
  | parse r force => ((st.parse r force).run.run w).1.toOption.join
  | load name => ((st.load name).run.run w).1.toOption
  | _ => none

/-- The handle that comes with a request. -/
def handle? : Request → Option Resource
  | register r | parse r _ => some r
  | _ => none

end Request

/-- The handles that come with requests. -/
def handles (qs : List Request) : List Resource := qs.filterMap Request.handle?

/-- The world after requests. -/
def World.after (st : Setup) (w : World) (qs : List Request) : World :=
  qs.foldl (fun w q => q.run st w) w

/-- The world after requests to an empty one. -/
def reached (st : Setup) (qs : List Request) : World := World.after st {} qs

/-- Nothing is in progress, only what may be kept is kept, and all handles have a property. -/
structure World.Settled (P : Resource → Prop) (w : World) : Prop where
  idle : w.progress = []
  tidy : w.Tidy
  offers : w.Offers P
  stems : w.Stems P

theorem Locator.get?_insert (l : Locator) (r : Resource) (name : String) :
    (l.insert r).get? name = if name = r.name then some r else l.get? name := by
  induction l with
  | nil =>
    rw [insert, get?, List.lookup_cons]
    split
    · rw [if_pos (beq_iff_eq.1 ‹_›)]
    · rw [if_neg (beq_eq_false_iff_ne.1 ‹_›)]
      rfl
  | cons x l ih =>
    obtain ⟨n, r'⟩ := x
    rw [insert]
    split
    · subst n
      rw [get?, get?, List.lookup_cons, List.lookup_cons]
      split
      · rw [if_pos (beq_iff_eq.1 ‹_›)]
      · rw [if_neg (beq_eq_false_iff_ne.1 ‹_›)]
    · rw [get?, get?, List.lookup_cons, List.lookup_cons]
      split
      · obtain rfl : name = n := beq_iff_eq.1 ‹_›
        rw [if_neg ‹_›]
      · exact ih

namespace World

variable {st : Setup} {P : Resource → Prop} {w v : World}

theorem settled_empty (P : Resource → Prop) : ({} : World).Settled P where
  idle := rfl
  tidy _ _ hmem := by cases hmem
  offers _ _ ht := by cases ht
  stems key e he := by simp [entity?] at he

/-- What may be kept is kept after a call, and nothing is in progress. -/
theorem Settled.parsed {force : Bool} {failure : Option ParseError} (h : w.Settled P)
    (hv : Parsed P force failure w.idle v) : v.Settled P where
  idle := hv.progress
  tidy := hv.tidy h.tidy
  offers := hv.extended.offers h.offers
  stems := hv.stems h.stems

theorem Settled.complete_of_cached (h : w.Settled P) {path : String} {key : EntityKey}
    (hkey : w.cached? path = some key) : ∃ e, w.entity? key = some e ∧ e.Keepable path := by
  obtain ⟨l₁, l₂, hcache, -⟩ := List.lookup_eq_some_iff.1 hkey
  exact h.tidy path key (by simp [hcache])

theorem not_underway_idle (w : World) (path : String) : ¬ w.idle.Underway path := by
  rintro ⟨key, hkey, -⟩
  cases hkey

end World

namespace Request

open Parse World

variable {st : Setup} {P : Resource → Prop} {w : World} {key : EntityKey} {r : Resource}
  {force : Bool}

/-- Asking by name is asking for the resource registered under the name, if there is one. -/
theorem load_cases (st : Setup) (w : World) (name : String) :
    (∃ r, w.locator.get? name = some r ∧ (load name).run st w = (parse r false).run st w ∧
      (load name).given? st w = (parse r false).given? st w) ∨
    (load name).run st w = w ∧ (load name).given? st w = none := by
  have hload : (st.load name).run.run w = _ := run_bind_of_gives (gives_get.2 ⟨rfl, rfl⟩)
  unfold run given?
  dsimp only
  rw [hload]
  cases hr : w.locator.get? name with
  | none => exact .inr ⟨rfl, rfl⟩
  | some r =>
    refine .inl ⟨r, rfl, ?_⟩
    dsimp only
    rcases hx : (st.parse r false).run.run w with ⟨e | key?, v⟩
    · rw [run_bind_of_error hx]
      exact ⟨rfl, rfl⟩
    · rw [run_bind_of_gives hx]
      cases key? with
      | none => exact ⟨rfl, rfl⟩
      | some key => exact ⟨rfl, rfl⟩

theorem gives_of_given (h : (parse r force).given? st w = some key) :
    Gives (st.parse r force) w (some key) ((parse r force).run st w) := by
  unfold given? at h
  dsimp only at h
  unfold run Gives
  dsimp only
  rcases hx : (st.parse r force).run.run w with ⟨e | key?, v⟩
  · rw [hx] at h
    cases h
  · rw [hx] at h
    obtain rfl : key? = some key := h
    rfl

theorem parsed_parse (st : Setup) (force : Bool) (hP : P r) (hw : w.Offers P) :
    Parsed P force (failure? ((st.parse r force).run.run w).1) w.idle ((parse r force).run st w) :=
  Setup.parsed_parseIn st _ force hP hw

/-- What holds of a world between requests holds after each of them. -/
theorem settled (q : Request) (hq : ∀ r, q.handle? = some r → P r) (h : w.Settled P) :
    (q.run st w).Settled P := by
  cases q with
  | register r =>
    refine ⟨h.idle, h.tidy, fun name t ht => ?_, h.stems⟩
    rw [show ((register r).run st w).locator = w.locator.insert r from rfl,
      Locator.get?_insert] at ht
    split at ht
    · cases ht
      exact hq r rfl
    · exact h.offers name t ht
  | change f => exact ⟨h.idle, h.tidy, h.offers, h.stems⟩
  | evict path =>
    exact ⟨h.idle, fun path' key hmem => h.tidy path' key (List.mem_filter.1 hmem).1, h.offers,
      h.stems⟩
  | clear => exact ⟨h.idle, fun _ _ hmem => (List.not_mem_nil hmem).elim, h.offers, h.stems⟩
  | parse r force => exact h.parsed (parsed_parse st force (hq r rfl) h.offers)
  | load name =>
    obtain ⟨r, hr, hrun, -⟩ | ⟨hrun, -⟩ := load_cases st w name
    · rw [hrun]
      exact h.parsed (parsed_parse st false (h.offers name r hr) h.offers)
    · rw [hrun]
      exact h

/-- Entities stay as they are. -/
theorem entity_run (q : Request) {e : Entity} (he : w.entity? key = some e) :
    (q.run st w).entity? key = some e := by
  have hparse : ∀ r force, ((parse r force).run st w).entity? key = some e := fun r force =>
    (parsed_parse (P := fun _ => True) st force trivial fun _ _ _ => trivial).extended.entity he
  cases q with
  | parse r force => exact hparse r force
  | load name =>
    obtain ⟨r, -, hrun, -⟩ | ⟨hrun, -⟩ := load_cases st w name
    · rw [hrun]
      exact hparse r false
    · rw [hrun]
      exact he
  | _ => exact he

/-- What is handed out for a handle is complete, and kept if it may be. -/
theorem complete_of_parse (h : w.Settled P) (hgiven : (parse r force).given? st w = some key) :
    (∃ e p, ((parse r force).run st w).entity? key = some e ∧ e.program = some p) ∧
      (st.mayKeep r = true → ((parse r force).run st w).cached? r.path = some key) := by
  obtain hunder | ⟨-, hfresh, record, hv⟩ | ⟨-, hcomplete, hkept⟩ :=
    Setup.given_parseIn (gives_of_given hgiven)
  · exact absurd hunder (not_underway_idle w r.path)
  · have hcached : w.cached? r.path = some key := (fresh?_eq_some_iff.1 hfresh).1
    obtain ⟨e, he, hkeep⟩ := h.complete_of_cached hcached
    obtain ⟨p, hp⟩ := Option.isSome_iff_exists.1 hkeep.complete
    rw [hv]
    exact ⟨⟨e, p, he, hp⟩, fun _ => hcached⟩
  · exact ⟨hcomplete, hkept⟩

theorem complete_of_given (q : Request) (h : w.Settled P) (hgiven : q.given? st w = some key) :
    ∃ e p, (q.run st w).entity? key = some e ∧ e.program = some p := by
  cases q with
  | parse r force => exact (complete_of_parse h hgiven).1
  | load name =>
    obtain ⟨r, -, hrun, hsame⟩ | ⟨-, hnone⟩ := load_cases st w name
    · rw [hrun]
      exact (complete_of_parse h (hsame.symm.trans hgiven)).1
    · cases hnone.symm.trans hgiven
  | _ => cases hgiven

/-- An entity is handed out again exactly if it is kept and up to date with its own handle. -/
theorem given_again_iff : (parse r false).given? st w = some key ∧ key < w.entities.size ↔
    w.cached? r.path = some key ∧ ∃ e, w.entity? key = some e ∧ e.isModified w.storage = false := by
  rw [← fresh?_eq_some_iff]
  constructor
  · rintro ⟨hgiven, hlt⟩
    obtain hunder | ⟨-, hfresh, -⟩ | ⟨hkey, -⟩ := Setup.given_parseIn (gives_of_given hgiven)
    · exact absurd hunder (not_underway_idle w r.path)
    · exact hfresh
    · exact absurd hlt (Nat.not_lt.2 (Nat.le_of_eq hkey.symm))
  · intro hfresh
    obtain ⟨-, e, he, -⟩ := fresh?_eq_some_iff.1 hfresh
    refine ⟨?_, lt_size_of_entity he⟩
    obtain ⟨assemble, hparse⟩ := st.exists_parseWith (w.locator.length + 1) r false
    have hgives : Gives (st.parseWith assemble r false) w.idle (some key) _ :=
      Setup.gives_parseWith_fresh (inProgress?_eq_none_iff.2 (not_underway_idle w r.path)) hfresh
    show ((st.parseIn (w.locator.length + 1) r false).run.run w.idle).1.toOption.join = some key
    rw [hparse, hgives]
    rfl

end Request

namespace World

variable {st : Setup} {P : Resource → Prop} {w : World} {key : EntityKey}

theorem after_append (st : Setup) (w : World) (qs rest : List Request) :
    w.after st (qs ++ rest) = (w.after st qs).after st rest :=
  List.foldl_append

theorem Settled.after (h : w.Settled P) (qs : List Request) (hqs : ∀ r ∈ handles qs, P r) :
    (w.after st qs).Settled P := by
  induction qs generalizing w with
  | nil => exact h
  | cons q qs ih =>
    refine ih (q.settled (fun r hr => hqs r ?_) h) fun r hr => hqs r ?_
    · exact List.mem_filterMap.2 ⟨q, by simp, hr⟩
    · obtain ⟨q', hq', hr⟩ := List.mem_filterMap.1 hr
      exact List.mem_filterMap.2 ⟨q', by simp [hq'], hr⟩

theorem entity_after {e : Entity} (he : w.entity? key = some e) (qs : List Request) :
    (w.after st qs).entity? key = some e := by
  induction qs generalizing w with
  | nil => exact he
  | cons q qs ih => exact ih (q.entity_run he)

end World

theorem settled_reached (st : Setup) (qs : List Request) :
    (reached st qs).Settled fun r => r ∈ handles qs :=
  (World.settled_empty _).after qs fun _ hr => hr

/-! ### Failures -/

namespace Setup

open Parse World

/-- **A failure leaves nothing behind, and only finished work is kept.** After every call, whatever
was in progress and however it ends, the same entities are in progress, only what may be kept is
kept, and where the making of an entity failed, what is kept for its path is what was kept before.
In every history, what is handed out is complete and stays so: running it never finds its program
missing. It is kept if it may be. -/
theorem parsing_is_atomic (st : Setup) :
    (∀ (depth : Nat) (r : Resource) (force : Bool) (w v : World)
      (o : Except ParseError (Option EntityKey)), (st.parseIn depth r force).run.run w = (o, v) →
      v.progress = w.progress ∧ (w.Tidy → v.Tidy) ∧
      ∀ err path, o = .error err → v.Broken w.entities.size err path →
        v.cached? path = w.cached? path) ∧
    ∀ qs : List Request, (reached st qs).Tidy ∧
      (∀ (q : Request) (key : EntityKey), q.given? st (reached st qs) = some key →
        ∃ p : Program, ∀ rest : List Request,
          ((reached st (qs ++ q :: rest)).entity? key).bind Entity.program = some p ∧
          ∀ (act : Activation) (s : ScopeId), act.execRoot
            (((reached st (qs ++ q :: rest)).entity? key).bind Entity.program) s = act.exec p s) ∧
      ∀ (r : Resource) (force : Bool) (key : EntityKey),
        (Request.parse r force).given? st (reached st qs) = some key → st.mayKeep r = true →
        (reached st (qs ++ [.parse r force])).cached? r.path = some key := by
  refine ⟨fun depth r force w v o hx => ?_, fun qs => ⟨(settled_reached st qs).tidy,
    fun q key hgiven => ?_, fun r force key hgiven hkeep => ?_⟩⟩
  · have hoffers : w.Offers fun _ => True := fun _ _ _ => trivial
    have h := st.parsed_parseIn (r := r) depth force trivial hoffers
    rw [hx] at h
    refine ⟨h.progress, h.tidy, fun err path ho hbroken => ?_⟩
    subst ho
    exact (h.atomic rfl hbroken).1
  · obtain ⟨e, p, he, hp⟩ := q.complete_of_given (settled_reached st qs) hgiven
    refine ⟨p, fun rest => ?_⟩
    have hlater : ((reached st (qs ++ q :: rest)).entity? key).bind Entity.program = some p := by
      rw [reached, after_append]
      exact Option.bind_eq_some_iff.2 ⟨e, entity_after he rest, hp⟩
    refine ⟨hlater, fun act s => ?_⟩
    rw [hlater]
    rfl
  · rw [reached, after_append]
    exact (Request.complete_of_parse (settled_reached st qs) hgiven).2 hkeep

/-- A handle to a document in memory. -/
def inMemory (key : Nat) (name : String) : Resource :=
  ⟨name, "mem:" ++ name, true, .stored key⟩

/-- A document refers to another one and is parsed. Then both change, and the first one gets an
element that is not known. -/
def spoiled : List Request :=
  [.change fun s => (s.add (.memory (some "<scenario><part/></scenario>") 1)).1,
    .change fun s => (s.add (.memory (some "<scenario/>") 1)).1,
    .register (inMemory 0 "main"), .register (inMemory 1 "part"), .load "main",
    .change fun s => s.edit (inMemory 0 "main")
      (.setContent 2 "<scenario><part/><nothing/></scenario>"),
    .change fun s => s.edit (inMemory 1 "part") (.touch 2)]

theorem parsing_is_atomic_spoiled :
    let st : Setup := { registry := Builtin.registry }
    let w := reached st spoiled
    let v := ((st.parseIn 3 (inMemory 0 "main") false).run.run w).2
    (w.cached? "mem:main" = some 0 ∧ w.cached? "mem:part" = some 1) ∧
    (∃ err, Fails (st.parseIn 3 (inMemory 0 "main") false) w err ∧
      v.Broken w.entities.size err "mem:main" ∧
      v.cached? "mem:main" = w.cached? "mem:main" ∧ v.cached? "mem:part" = some 3) ∧
    ∃ p, ((reached st ((spoiled ++ [.load "main"]) ++ .load "part" :: [])).entity? 3).bind
      Entity.program = some p := by
  intro st w v
  refine ⟨by decide +kernel, ?_, ?_⟩
  · have hfail : ((st.parseIn 3 (inMemory 0 "main") false).run.run w).1.toOption.isNone = true := by
      decide +kernel
    have hnone : (v.entity? 2).any (fun e => e.path == "mem:main" && e.program.isNone) = true := by
      decide +kernel
    rcases hx : (st.parseIn 3 (inMemory 0 "main") false).run.run w with ⟨err | key?, u⟩
    · obtain ⟨e, he, htest⟩ := (Option.any_eq_true _ _).1 hnone
      rw [Bool.and_eq_true, beq_iff_eq, Option.isNone_iff_eq_none] at htest
      have hbroken : v.Broken w.entities.size err "mem:main" :=
        .inr ⟨2, e, by decide +kernel, he, htest⟩
      have huv : u = v := by
        show u = ((st.parseIn 3 (inMemory 0 "main") false).run.run w).2
        rw [hx]
      subst huv
      exact ⟨err, by rw [Fails, hx], hbroken,
        ((parsing_is_atomic st).1 3 _ false w _ _ hx).2.2 err "mem:main" rfl hbroken,
        by decide +kernel⟩
    · rw [hx] at hfail
      cases hfail
  · obtain ⟨p, hp⟩ := ((parsing_is_atomic st).2 (spoiled ++ [.load "main"])).2.1 (.load "part") 3
      (by decide +kernel)
    exact ⟨p, (hp []).1⟩

end Setup

/-! ### Entities that are handed out again -/

theorem Storage.isPresent_eq_of_source (s : Storage) {r t : Resource} (h : t.source = r.source) :
    s.isPresent t = s.isPresent r := by
  unfold isPresent
  rw [h]

theorem Storage.modified_eq_of_source (s : Storage) {r t : Resource} (h : t.source = r.source) :
    s.modified t = s.modified r := by
  unfold modified
  rw [h]

theorem Entity.isModified_eq_false_iff {e : Entity} {s : Storage} : e.isModified s = false ↔
    s.isPresent e.resource = true ∧ s.modified e.resource = e.timestamp := by
  simp [isModified]

namespace Setup

open World

/-- **What is handed out again is up to date.** In every history, asking for a resource hands out an
entity that was there before exactly if this entity is kept for the path of the resource and the
handle it was parsed from exists and is unchanged. That handle has the path of the one that was
passed and came with an earlier request. So if all handles with this path lead to one document, the
handle that was passed exists and is unchanged too. -/
theorem cache_hits_are_fresh (st : Setup) (qs : List Request) (r : Resource) (key : EntityKey) :
    (Request.parse r false).given? st (reached st qs) = some key ∧
        key < (reached st qs).entities.size ↔
      (reached st qs).cached? r.path = some key ∧ ∃ e, (reached st qs).entity? key = some e ∧
        e.path = r.path ∧ e.resource ∈ handles qs ∧
        (reached st qs).storage.isPresent e.resource = true ∧
        (reached st qs).storage.modified e.resource = e.timestamp ∧
        ((∀ t ∈ handles qs, t.path = r.path → t.source = r.source) →
          (reached st qs).storage.isPresent r = true ∧
          (reached st qs).storage.modified r = e.timestamp) := by
  rw [Request.given_again_iff]
  refine and_congr_right fun hcached => exists_congr fun e => ?_
  rw [Entity.isModified_eq_false_iff]
  constructor
  · rintro ⟨he, hpresent, hmodified⟩
    have hsettled := settled_reached st qs
    obtain ⟨e', he', hkeep⟩ := hsettled.complete_of_cached hcached
    obtain rfl : e' = e := Option.some.inj (he'.symm.trans he)
    have hhandle : e'.resource ∈ handles qs := hsettled.stems key e' he
    refine ⟨he, hkeep.path, hhandle, hpresent, hmodified, fun hone => ?_⟩
    have hsource : e'.resource.source = r.source := hone e'.resource hhandle hkeep.path
    rw [← Storage.isPresent_eq_of_source _ hsource, ← Storage.modified_eq_of_source _ hsource]
    exact ⟨hpresent, hmodified⟩
  · rintro ⟨he, -, -, hpresent, hmodified, -⟩
    exact ⟨he, hpresent, hmodified⟩

/-- A handle with a path of its own. -/
def custom (key : Nat) (name : String) : Resource := ⟨name, "x:main", true, .stored key⟩

/-- A document is parsed and then registered under a second name. -/
def renamed : List Request :=
  [.change fun s => (s.add (.custom (some "<scenario/>") true (some 1))).1,
    .register (custom 0 "main"), .parse (custom 0 "main") false, .register (custom 0 "alias")]

theorem cache_hits_are_fresh_renamed :
    let st : Setup := { registry := Builtin.registry }
    let w := reached st renamed
    ((Request.parse (custom 0 "alias") false).given? st w = some 0 ∧ 0 < w.entities.size) ∧
    ∃ e, w.entity? 0 = some e ∧ w.storage.isPresent (custom 0 "alias") = true ∧
      w.storage.modified (custom 0 "alias") = e.timestamp := by
  intro st w
  have hgiven : (Request.parse (custom 0 "alias") false).given? st w = some 0 ∧
      0 < w.entities.size := by decide +kernel
  obtain ⟨-, e, he, -, -, -, -, hone⟩ :=
    (cache_hits_are_fresh st renamed (custom 0 "alias") 0).1 hgiven
  exact ⟨hgiven, e, he, hone (by decide)⟩

/-- A document is parsed. Then another one that does not exist takes its path. -/
def replaced : List Request :=
  [.change fun s => (s.add (.custom (some "<scenario/>") true (some 1))).1,
    .register (custom 0 "main"), .parse (custom 0 "main") false,
    .change fun s => (s.add (.custom (some "<scenario/>") false (some 2))).1,
    .register (custom 1 "main")]

/-- Where two documents share a path, what is handed out again may be the wrong one. -/
theorem replaced_handle_is_answered :
    let st : Setup := { registry := Builtin.registry }
    let w := reached st replaced
    (Request.parse (custom 1 "main") false).given? st w = some 0 ∧ 0 < w.entities.size ∧
      w.storage.isPresent (custom 1 "main") = false ∧
      w.storage.modified (custom 1 "main") ≠ (w.entity? 0).bind Entity.timestamp := by
  decide +kernel

end Setup

end Scenario
