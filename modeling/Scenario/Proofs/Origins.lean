import Scenario.Proofs.Keeping

/-!
# Where programs come from

Every program of a world was made from a document that was read, with the tags and the evaluator of
the setup, where names stood for resources of that name. This holds in every history, whatever was
asked for, edited or taken away in it (`origin_reached`).
-/

namespace Scenario

/-- A name stands for a resource of that name. -/
def Locator.Keyed (l : Locator) : Prop := ∀ name t, l.get? name = some t → t.name = name

theorem Locator.Keyed.insert {l : Locator} (h : l.Keyed) (r : Resource) : (l.insert r).Keyed := by
  intro name t ht
  rw [get?_insert] at ht
  split at ht
  · cases ht
    exact Eq.symm ‹_›
  · exact h name t ht

/-- How a program was made. -/
structure Setup.Origin (st : Setup) (p : Program) (cx : Assembly) (root : Xml.Element)
    (maker : RootMaker) : Prop where
  registry : cx.registry = st.registry
  evaluator : cx.evaluator = st.evaluator
  keyed : cx.locator.Keyed
  read : ∃ text, Xml.read text = .ok root
  known : st.registry.root? root.head.name = some maker
  given : ∃ w w', Parse.Gives (cx.document root maker) w p w'

/-- Names stand for resources of that name, and all programs are made from documents. -/
structure World.Sourced (st : Setup) (w : World) : Prop where
  keyed : w.locator.Keyed
  programs : w.Programs fun p => ∃ cx root maker, st.Origin p cx root maker

namespace World.Sourced

variable {st : Setup} {w w' : World}

theorem empty (st : Setup) : ({} : World).Sourced st where
  keyed name t ht := by cases ht
  programs := programs_of_none rfl

/-- What neither touches the locator nor the entities. -/
theorem same (h : w.Sourced st) (hlocator : w'.locator = w.locator)
    (hentities : w'.entities = w.entities) : w'.Sourced st where
  keyed := hlocator ▸ h.keyed
  programs key p hp := h.programs key p (by rwa [entity?, hentities] at hp)

theorem begun (h : w.Sourced st) (r : Resource) (root : Xml.Element) :
    (w.begun r root).Sourced st where
  keyed := h.keyed
  programs := by
    intro key p hp
    have hadd := w.entity?_addEntity
      { resource := r, rootTag := root.head.name, timestamp := w.storage.modified r } key
    rw [show (w.begun r root).entity? key = _ from hadd] at hp
    split at hp
    · cases hp
    · exact h.programs key p hp

theorem finished (h : w.Sourced st) (r : Resource) (key : EntityKey) {p : Program} {cx : Assembly}
    {root : Xml.Element} {maker : RootMaker} (hp : st.Origin p cx root maker) :
    (st.finished w r key p).Sourced st where
  keyed := (st.finished_same w r key p).2.1 ▸ h.keyed
  programs := by
    intro k q hq
    rw [Setup.entity?_finished] at hq
    split at hq
    · obtain ⟨e, he, hq⟩ := Option.bind_eq_some_iff.1 hq
      obtain ⟨e', -, rfl⟩ := Option.map_eq_some_iff.1 he
      cases hq
      exact ⟨cx, root, maker, hp⟩
    · exact h.programs k q hq

end World.Sourced

/-- Making a program by itself neither touches the locator nor the entities. -/
theorem sourced_law (st : Setup) : StepLaw fun _ w w' => w.Sourced st → w'.Sourced st where
  refl _ h := h
  trans h h' hu := h' (h hu)
  describe _ _ h := h.same rfl rfl
  refuse _ _ _ _ _ h := h

namespace Setup

open Parse

variable {st : Setup} {w : World} {r : Resource}

theorem sourced_parseWith {assemble : Xml.Element → RootMaker → Parse Program} (force : Bool)
    (h : w.Sourced st)
    (hassemble : ∀ {root maker o v}, (∃ text, Xml.read text = .ok root) →
      st.registry.root? root.head.name = some maker →
      (assemble root maker).run.run (w.begun r root) = (o, v) →
      v.Sourced st ∧ ∀ p, o = .ok p → ∃ cx, st.Origin p cx root maker) :
    World.Sourced st ((st.parseWith assemble r force).run.run w).2 := by
  rcases hx : (st.parseWith assemble r force).run.run w with ⟨o, v⟩
  cases asked_of_run hx with
  | underway _ => exact h.same rfl rfl
  | kept _ _ _ => exact h.same rfl rfl
  | absent _ _ => exact h.same rfl rfl
  | unread _ _ _ _ => exact h
  | ignored _ _ _ _ => exact h.same rfl rfl
  | made _ _ hroot hmaker hp =>
    obtain ⟨text, -, hread⟩ := hroot
    obtain ⟨hv, horigin⟩ := hassemble ⟨text, hread⟩ hmaker hp
    obtain ⟨cx, hcx⟩ := horigin _ rfl
    exact hv.finished r w.entities.size hcx
  | failed _ _ hroot hmaker hp =>
    obtain ⟨text, -, hread⟩ := hroot
    exact (hassemble ⟨text, hread⟩ hmaker hp).1.same rfl rfl

/-- Asking for a resource leaves all programs made from documents, at every depth. -/
theorem sourced_parseIn (st : Setup) (depth : Nat) (r : Resource) (force : Bool)
    (h : w.Sourced st) : World.Sourced st ((st.parseIn depth r force).run.run w).2 := by
  induction depth generalizing r force w with
  | zero =>
    refine sourced_parseWith force h fun {root maker o v} _ _ hx => ?_
    obtain ⟨rfl, rfl⟩ := Prod.mk.inj hx
    exact ⟨h.begun r root, nofun⟩
  | succ depth ih =>
    rw [parseIn_succ]
    refine sourced_parseWith force h fun {root maker o v} hread hmaker hx => ?_
    have hbegun := h.begun r root
    rw [run_bind_of_gives (gives_get.2 ⟨rfl, rfl⟩)] at hx
    have hmakes : maker.Makes fun _ => True := by cases maker <;> exact trivial
    have hsat : Sat (fun _ u u' => u.Sourced st → u'.Sourced st)
        ((st.during depth (w.begun r root).locator r).document root maker)
        (Program.Formed (fun _ => True) fun _ => True) :=
      Assembly.sat_document (sourced_law st)
        (fun {_ t} _ _ => ⟨fun hu => ih t false hu, fun _ _ => trivial⟩)
        st.registry.makes_any root hmakes
    have hv := (hsat (w.begun r root)).1 hbegun
    rw [hx] at hv
    refine ⟨hv, fun p hp => ?_⟩
    subst hp
    exact ⟨_, rfl, rfl, hbegun.keyed, hread, hmaker, _, _, hx⟩

end Setup

theorem Request.sourced (q : Request) {st : Setup} {w : World} (h : w.Sourced st) :
    (q.run st w).Sourced st := by
  have hparse : ∀ r force, ((parse r force).run st w).Sourced st := fun r force =>
    st.sourced_parseIn (w.locator.length + 1) r force (h.same rfl rfl : w.idle.Sourced st)
  cases q with
  | register r => exact ⟨h.keyed.insert r, h.programs⟩
  | parse r force => exact hparse r force
  | load name =>
    obtain ⟨r, -, hrun, -⟩ | ⟨hrun, -⟩ := load_cases st w name
    · rw [hrun]
      exact hparse r false
    · rw [hrun]
      exact h
  | _ => exact h.same rfl rfl

theorem World.Sourced.after {st : Setup} {w : World} (h : w.Sourced st) (qs : List Request) :
    (w.after st qs).Sourced st := by
  induction qs generalizing w with
  | nil => exact h
  | cons q qs ih => exact ih (q.sourced h)

/-- **Programs are made from documents.** In every history, the program of an entity was made from a
document that was read, with the tags and the evaluator of the setup. -/
theorem origin_reached (st : Setup) (qs : List Request) {key : EntityKey} {e : Entity} {p : Program}
    (he : (reached st qs).entity? key = some e) (hp : e.program = some p) :
    ∃ cx root maker, st.Origin p cx root maker := by
  have hsourced : (reached st qs).Sourced st := (World.Sourced.empty st).after qs
  refine hsourced.programs key p ?_
  rw [he]
  exact hp

end Scenario
