import Scenario.Proofs.Loading

/-!
# Two worlds parsed in step

Two worlds have the same resources, but the documents of the second one are related to those of the
first in some way. If related documents become related programs and refer to the same resources,
then asking for a resource does the same in both worlds, and entities with the same keys stay
related: **`load_in_step`**.
-/

namespace Scenario

/-! ### Journals -/

/-- The call that an entry notes. -/
def Entry.call? : Entry → Option (String × Fields)
  | .call bean fields => some (bean, fields)
  | _ => none

theorem Journal.calls_push (j : Journal) (e : Entry) :
    (j.push e).calls = j.calls ++ e.call?.toList := by
  rw [calls, toList_push, List.filterMap_append, ← calls]
  cases e <;> rfl

/-! ### Worlds -/

/-- Two entities of the same resource whose programs are related. -/
structure Entity.Twins (P : Program → Program → Prop) (e e' : Entity) : Prop where
  resource : e'.resource = e.resource
  timestamp : e'.timestamp = e.timestamp
  program : Option.Rel P e.program e'.program

/-- Two worlds with the same resources `l`, related documents and related entities, in which the
same beans were called. -/
structure World.Twins (l : Locator) (D : Xml.Element → Xml.Element → Prop)
    (P : Program → Program → Prop) (w w' : World) : Prop where
  locator : w.locator = l ∧ w'.locator = l
  present : ∀ r, w'.storage.isPresent r = w.storage.isPresent r
  modified : ∀ r, w'.storage.modified r = w.storage.modified r
  reads : ∀ {r root}, w.Reads r root → ∃ root', w'.Reads r root' ∧ D root root'
  readsBack : ∀ {r root'}, w'.Reads r root' → ∃ root, w.Reads r root ∧ D root root'
  size : w'.entities.size = w.entities.size
  entity : ∀ {key e}, w.entity? key = some e → ∃ e', w'.entity? key = some e' ∧ e.Twins P e'
  cache : w'.cache = w.cache
  locks : w'.locks = w.locks
  calls : w'.journal.calls = w.journal.calls

namespace World.Twins

variable {l : Locator} {D : Xml.Element → Xml.Element → Prop} {P : Program → Program → Prop}
  {w w' : World}

/-- A key leads to an entity in both worlds or in neither. -/
theorem entity_cases (h : Twins l D P w w') (key : EntityKey) :
    (w.entity? key = none ∧ w'.entity? key = none) ∨
      ∃ e e', w.entity? key = some e ∧ w'.entity? key = some e' ∧ e.Twins P e' := by
  cases he : w.entity? key with
  | none =>
    refine .inl ⟨rfl, ?_⟩
    rw [entity?, Array.getElem?_eq_none_iff] at he ⊢
    rwa [h.size]
  | some e =>
    obtain ⟨e', he', htwins⟩ := h.entity he
    exact .inr ⟨e, e', rfl, he', htwins⟩

/-- The same the other way round. -/
theorem symm (h : Twins l D P w w') : Twins l (flip D) (flip P) w' w where
  locator := h.locator.symm
  present r := (h.present r).symm
  modified r := (h.modified r).symm
  reads := h.readsBack
  readsBack := h.reads
  size := h.size.symm
  entity := by
    intro key e' he'
    obtain ⟨-, hnone⟩ | ⟨e, e'', he, he'', htwins⟩ := h.entity_cases key
    · cases hnone.symm.trans he'
    · obtain rfl : e'' = e' := Option.some.inj (he''.symm.trans he')
      refine ⟨e, he, htwins.resource.symm, htwins.timestamp.symm, ?_⟩
      have hprogram := htwins.program
      generalize e.program = p, e''.program = p' at hprogram ⊢
      cases hprogram with
      | some hp => exact .some hp
      | none => exact .none
  cache := h.cache.symm
  locks := h.locks.symm
  calls := h.calls.symm

theorem enter (h : Twins l D P w w') {x x' : Entry} (hx : x'.call? = x.call?) :
    Twins l D P (w.enter x) (w'.enter x') :=
  { h with calls := by simp only [World.enter, Journal.calls_push, h.calls, hx] }

/-- An entry that is no call may be made on one side only. -/
theorem enterRight (h : Twins l D P w w') {x : Entry} (hx : x.call? = none) :
    Twins l D P w (w'.enter x) :=
  { h with calls := by simp only [World.enter, Journal.calls_push, h.calls, hx, Option.toList_none,
      List.append_nil] }

theorem withLocks (h : Twins l D P w w') (locks : LockTable) :
    Twins l D P { w with locks } { w' with locks } :=
  { h with locks := rfl }

theorem inProgress?_eq (h : Twins l D P w w') (hprog : w'.progress = w.progress) (r : Resource) :
    Setup.inProgress? w' r = Setup.inProgress? w r := by
  unfold Setup.inProgress?
  rw [hprog]
  congr 1
  funext k
  obtain ⟨he, he'⟩ | ⟨e, e', he, he', htwins⟩ := h.entity_cases k
  · rw [he, he']
  · simp only [he, he', Option.map_some, Entity.path, htwins.resource]

theorem fresh?_eq (h : Twins l D P w w') (r : Resource) : Setup.fresh? w' r = Setup.fresh? w r := by
  have hmodified : ∀ k, w'.isModified k = w.isModified k := by
    intro k
    unfold World.isModified
    obtain ⟨he, he'⟩ | ⟨e, e', he, he', htwins⟩ := h.entity_cases k
    · rw [he, he']
      rfl
    · simp only [he, he', Option.map_some, Entity.isModified, htwins.resource, htwins.timestamp,
        h.present, h.modified]
  simp only [Setup.fresh?, World.cached?, h.cache, hmodified]

theorem addEntity (h : Twins l D P w w') {e e' : Entity} (he : e.Twins P e') :
    Twins l D P (w.addEntity e).1 (w'.addEntity e').1 :=
  { h with
    size := by simp [World.addEntity, h.size]
    entity := by
      intro key x hx
      rw [World.entity?_addEntity] at hx ⊢
      rw [h.size]
      split at hx
      · cases hx
        exact ⟨e', by simp [*], he⟩
      · rw [if_neg ‹_›]
        exact h.entity hx }

theorem complete (h : Twins l D P w w') (key : EntityKey) {p p' : Program} (hp : P p p') :
    Twins l D P (w.complete key p) (w'.complete key p') :=
  { h with
    size := by simp [World.complete, h.size]
    entity := by
      intro k x hx
      rw [World.entity?_complete] at hx ⊢
      split at hx
      · obtain ⟨e, he, rfl⟩ := Option.map_eq_some_iff.1 hx
        obtain ⟨e', he', htwins⟩ := h.entity he
        rw [if_pos ‹_›]
        exact ⟨_, Option.map_eq_some_iff.2 ⟨e', he', rfl⟩, htwins.resource, htwins.timestamp,
          .some hp⟩
      · rw [if_neg ‹_›]
        exact h.entity hx }

theorem begun (h : Twins l D P w w') (r : Resource) {root root' : Xml.Element} :
    Twins l D P (w.begun r root) (w'.begun r root') := by
  have hadded : Twins l D P (w.added r root) (w'.added r root') := by
    refine (h.enter ?_).addEntity ⟨?_, h.modified r, .none⟩
    · rfl
    · rfl
  exact { hadded with }

theorem finished (h : Twins l D P w w') (st : Setup) (r : Resource) (key : EntityKey)
    {p p' : Program} (hp : P p p') :
    Twins l D P (st.finished w r key p) (st.finished w' r key p') := by
  have hstop : Twins l D P w.stop w'.stop := { h with }
  have hcomplete := hstop.complete key hp
  unfold Setup.finished
  split
  · exact { hcomplete with cache := by simp only [World.keep, World.evict, hcomplete.cache] }
  · exact hcomplete

end World.Twins

/-! ### Asking for a resource -/

namespace Setup

open Parse

/-- Related documents have the same head, refer to the same resources and become related programs if
their references are taken for granted. -/
structure Transfers (st : Setup) (l : Locator) (D : Xml.Element → Xml.Element → Prop)
    (P : Program → Program → Prop) : Prop where
  head : ∀ {root root'}, D root root' → root'.head = root.head
  targets : ∀ {root root'}, D root root' →
    st.registry.targetsAll l root'.children = st.registry.targetsAll l root.children
  program : ∀ {root root' r maker p} {w : World}, D root root' →
    st.registry.root? root.head.name = some maker →
    Gives ((st.alone l r).document root maker) w p w →
      ∃ p', Gives ((st.alone l r).document root' maker) w p' w ∧ P p p'

variable {st : Setup} {l : Locator} {D : Xml.Element → Xml.Element → Prop}
  {P : Program → Program → Prop} {w w' w₁ : World} {depth : Nat} {key : EntityKey}

/-- A resource that is found at once in one world is found in the other. -/
theorem found_of_twins (h : World.Twins l D P w w') (hsame : w'.progress = w.progress)
    {r : Resource} (hx : Gives (st.parseIn depth r false) w (some key) w₁) :
    (∃ w₁', Gives (st.parseIn depth r false) w' (some key) w₁' ∧
      World.Twins l D P w₁ w₁') ∨ Anew w r false := by
  obtain ⟨assemble, hparse⟩ := st.exists_parseWith depth r false
  rw [hparse] at hx ⊢
  cases hprog : inProgress? w r with
  | some k =>
    obtain ⟨hkey, rfl⟩ := (gives_parseWith_inProgress hprog false).unique hx
    cases hkey
    have hprog' := (h.inProgress?_eq hsame r).trans hprog
    exact .inl ⟨_, gives_parseWith_inProgress hprog' false, h.enter rfl⟩
  | none =>
    cases hfresh : fresh? w r with
    | some k =>
      obtain ⟨hkey, rfl⟩ := (gives_parseWith_fresh hprog hfresh).unique hx
      cases hkey
      have hprog' := (h.inProgress?_eq hsame r).trans hprog
      have hfresh' := (h.fresh?_eq r).trans hfresh
      exact .inl ⟨_, gives_parseWith_fresh hprog' hfresh', h.enter rfl⟩
    | none => exact .inr ⟨hprog, fun _ => hfresh⟩

/-- What can be had in one world can be had in the other. -/
theorem gives_parseIn_of_twins (hreg : st.registry.reference = .invoke) (ht : st.Transfers l D P)
    (h : World.Twins l D P w w') (hsame : w'.progress = w.progress) {r : Resource}
    (hx : Gives (st.parseIn depth r false) w (some key) w₁) :
    ∃ w₁', Gives (st.parseIn depth r false) w' (some key) w₁' ∧
      World.Twins l D P w₁ w₁' := by
  induction depth generalizing r key w w' w₁ with
  | zero =>
    obtain hfound | hanew := found_of_twins h hsame hx
    · exact hfound
    · exact absurd hx (not_gives_parseIn_zero hanew)
  | succ depth ih =>
    obtain hfound | hanew := found_of_twins h hsame hx
    · exact hfound
    obtain ⟨hpresent, root, maker, p, w₂, hroot, hmaker, hp, hfinds, rfl, rfl⟩ :=
      (gives_parseIn_iff hreg hanew).1 hx
    obtain ⟨root', hroot', hD⟩ := h.reads hroot
    rw [h.locator.1] at hp hfinds
    obtain ⟨p', hp', hP⟩ := ht.program hD hmaker hp
    -- the references are asked for one after another
    have hrefs : ∀ (ts : List Resource) {u u' v : World}, World.Twins l D P u u' →
        u'.progress = u.progress → Finds (fun t => st.parseIn depth t false) ts u v →
        ∃ v', Finds (fun t => st.parseIn depth t false) ts u' v' ∧
          World.Twins l D P v v' := by
      intro ts
      induction ts with
      | nil =>
        rintro u u' v hu - rfl
        exact ⟨u', rfl, hu⟩
      | cons t ts ihts =>
        rintro u u' v hu hsame ⟨k, u₁, hk, hrest⟩
        obtain ⟨u₁', hk', hu₁⟩ := ih hu hsame hk
        have hsame₁ : u₁'.progress = u₁.progress := by
          rw [(grows_of_gives hk').progress, (grows_of_gives hk).progress, hsame]
        obtain ⟨v', hv', hv⟩ := ihts hu₁ hsame₁ hrest
        exact ⟨v', ⟨k, u₁', hk', hv'⟩, hv⟩
    have hbegun : (w'.begun r root').progress = (w.begun r root).progress := by
      show w'.progress ++ [w'.entities.size] = w.progress ++ [w.entities.size]
      rw [hsame, h.size]
    obtain ⟨w₂', hfinds', htwins⟩ := hrefs _ (h.begun r) hbegun hfinds
    have hanew' : Anew w' r false :=
      ⟨(h.inProgress?_eq hsame r).trans hanew.idle,
        fun hforce => (h.fresh?_eq r).trans (hanew.stale hforce)⟩
    refine ⟨st.finished w₂' r w.entities.size p', (gives_parseIn_iff hreg hanew').2
      ⟨?_, root', maker, p', w₂', hroot', ?_, ?_, ?_, h.size.symm, ?_⟩, htwins.finished st r _ hP⟩
    · rw [h.present, hpresent]
    · rw [ht.head hD, hmaker]
    · rw [h.locator.2]
      exact (st.steady_alone hreg l r root' maker).gives hp' w'
    · rw [h.locator.2, ht.targets hD]
      exact hfinds'
    · rw [h.size]

theorem gives_load_of_twins (hreg : st.registry.reference = .invoke) (ht : st.Transfers l D P)
    (h : World.Twins l D P w w') {name : String} (hx : Gives (st.load name) w key w₁) :
    ∃ w₁', Gives (st.load name) w' key w₁' ∧ World.Twins l D P w₁ w₁' := by
  obtain ⟨r, hr, hparse⟩ := gives_load.1 hx
  rw [h.locator.1] at hr hparse
  have hidle : World.Twins l D P w.idle w'.idle := { h with }
  obtain ⟨w₁', hparse', hw₁⟩ := gives_parseIn_of_twins hreg ht hidle rfl hparse
  refine ⟨w₁', gives_load.2 ⟨r, ?_, ?_⟩, hw₁⟩
  · rw [h.locator.2]
    exact hr
  · rw [h.locator.2]
    exact hparse'

/-- **Asking for a resource gives the same key in both worlds, or fails in both.** -/
theorem load_in_step (hreg : st.registry.reference = .invoke) (ht : st.Transfers l D P)
    (ht' : st.Transfers l (flip D) (flip P)) (h : World.Twins l D P w w') (name : String) :
    (∃ key w₁ w₁', Gives (st.load name) w key w₁ ∧ Gives (st.load name) w' key w₁' ∧
      World.Twins l D P w₁ w₁') ∨
    ∃ e e', Fails (st.load name) w e ∧ Fails (st.load name) w' e' := by
  obtain ⟨key, w₁, hx⟩ | ⟨e, he⟩ := gives_or_fails (st.load name) w
  · obtain ⟨w₁', hx', hw₁⟩ := gives_load_of_twins hreg ht h hx
    exact .inl ⟨key, w₁, w₁', hx, hx', hw₁⟩
  · obtain ⟨key, w₁', hx'⟩ | ⟨e', he'⟩ := gives_or_fails (st.load name) w'
    · obtain ⟨w₁, hx, -⟩ := gives_load_of_twins hreg ht' h.symm hx'
      exact absurd he hx.not_fails
    · exact .inr ⟨e, e', he, he'⟩

end Setup

end Scenario
