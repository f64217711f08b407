import Scenario.Proofs.Keeping

/-!
# Edits of documents in memory

An edit stamps its document with the time on the clock, or with the next stamp if the clock has not
advanced. A deleted document keeps its stamp, and the next content gets a later one. So stamps never
fall, and what was parsed before an edit can be told from the document for good, whatever the clock
shows.

* `Edit` — what can be done to a document in memory.
* `Document.Edited` — a document is gone or has a later stamp than a given one. The first edit after
  that stamp brings this about, and every further edit keeps it.
* **`Setup.edits_are_noticed`** — in every history, an entity is up to date when it is made and
  modified from the first edit of its document on.
-/

namespace Scenario

/-- An edit of a document in memory, at the time that the clock shows. -/
inductive Edit where
  /-- It gets another content. -/
  | setContent (now : Stamp) (content : String)
  /-- It is marked as changed. -/
  | touch (now : Stamp)
  /-- It is deleted. -/
  | delete

namespace Edit

/-- What an edit does to a document. -/
def apply : Edit → Document → Document
  | setContent now content => Document.setContent now content
  | touch now => Document.touch now
  | delete => Document.delete

/-- The request to edit the document behind a handle. -/
def request (r : Resource) (x : Edit) : Request := .change fun s => s.edit r x.apply

end Edit

/-! ### Documents -/

namespace Document

variable {d : Document} {since : Stamp}

theorem lt_nextStamp (previous now : Stamp) : previous < nextStamp previous now := by
  unfold nextStamp
  split
  · assumption
  · exact Int.lt_add_of_pos_right previous (by decide)

/-- A document in memory whose stamp is not before this one. -/
def Dated (since : Stamp) (d : Document) : Prop :=
  ∃ content stamp, d = memory content stamp ∧ since ≤ stamp

/-- A document in memory that is gone, or whose stamp is after this one. -/
def Edited (since : Stamp) (d : Document) : Prop :=
  ∃ content stamp, d = memory content stamp ∧ since ≤ stamp ∧ (content = none ∨ since < stamp)

theorem Edited.dated (h : d.Edited since) : d.Dated since := by
  obtain ⟨content, stamp, hd, hle, -⟩ := h
  exact ⟨content, stamp, hd, hle⟩

/-- Every edit can be seen. -/
theorem Dated.edit (h : d.Dated since) (x : Edit) : (x.apply d).Edited since := by
  obtain ⟨content, stamp, rfl, hle⟩ := h
  cases x with
  | setContent now content' =>
    have hlt := Int.lt_of_le_of_lt hle (lt_nextStamp stamp now)
    exact ⟨some content', nextStamp stamp now, rfl, Int.le_of_lt hlt, .inr hlt⟩
  | touch now =>
    have hlt := Int.lt_of_le_of_lt hle (lt_nextStamp stamp now)
    exact ⟨content, nextStamp stamp now, rfl, Int.le_of_lt hlt, .inr hlt⟩
  | delete => exact ⟨none, stamp, rfl, hle, .inl rfl⟩

theorem Edited.modified_ne (h : d.Edited since) : d.modified ≠ some since := by
  obtain ⟨content, stamp, rfl, -, rfl | hlt⟩ := h
  · simp [modified]
  · intro hsame
    obtain ⟨-, -, heq⟩ := Option.map_eq_some_iff.1 hsame
    exact Int.ne_of_gt hlt heq

end Document

theorem Storage.documents_edit (s : Storage) (r : Resource) (f : Document → Document) (key : Nat) :
    (s.edit r f).documents[key]? =
      if r.source = .stored key then (s.documents[key]?).map f else s.documents[key]? := by
  unfold edit
  cases hr : r.source with
  | stored key' => simp [Array.getElem?_modify]
  | file path => simp

/-! ### Histories -/

namespace Request

variable {st : Setup} {w : World} {key : Nat} {d : Document}

/-- The request changes this document by edits only. -/
def EditsOnly (key : Nat) (q : Request) : Prop :=
  ∀ f, q = .change f → (∃ r x, q = Edit.request r x) ∨
    ∀ s : Storage, key < s.documents.size → (f s).documents[key]? = s.documents[key]?

/-- The document after an edit. -/
theorem document_edit (st : Setup) (w : World) (r : Resource) (x : Edit) (key : Nat) :
    ((Edit.request r x).run st w).storage.documents[key]? =
      if r.source = .stored key then (w.storage.documents[key]?).map x.apply
      else w.storage.documents[key]? :=
  Storage.documents_edit w.storage r x.apply key

/-- Asking for a resource changes no contents, and what is made is up to date. -/
theorem timely_parse (st : Setup) (w : World) (r : Resource) (force : Bool) :
    ((parse r force).run st w).storage = w.storage ∧
      ∀ {key e}, w.entities.size ≤ key → ((parse r force).run st w).entity? key = some e →
        e.isModified w.storage = false := by
  have h := parsed_parse (P := fun _ => True) (r := r) (w := w) st force trivial
    fun _ _ _ => trivial
  have hsame : ((parse r force).run st w).storage = w.storage := h.extended.storage
  exact ⟨hsame, fun hle he => hsame ▸ h.timely hle he⟩

/-- An entity that a request makes is up to date, and the request changes no contents. -/
theorem timely_of_made (q : Request) {key : EntityKey} {e : Entity} (hnew : w.entity? key = none)
    (he : (q.run st w).entity? key = some e) :
    (q.run st w).storage = w.storage ∧ e.isModified w.storage = false := by
  have hold : ∀ {v : World}, v.entities = w.entities → v.entity? key ≠ some e := by
    intro v hv hsome
    rw [World.entity?, hv] at hsome
    cases hnew.symm.trans hsome
  have hle : w.entities.size ≤ key := Array.getElem?_eq_none_iff.1 hnew
  cases q with
  | parse r force =>
    obtain ⟨hsame, htimely⟩ := timely_parse st w r force
    exact ⟨hsame, htimely hle he⟩
  | load name =>
    obtain ⟨r, -, hrun, -⟩ | ⟨hrun, -⟩ := load_cases st w name
    · rw [hrun] at he ⊢
      obtain ⟨hsame, htimely⟩ := timely_parse st w r false
      exact ⟨hsame, htimely hle he⟩
    · rw [hrun] at he
      exact absurd he (hold rfl)
  | _ => exact absurd he (hold rfl)

/-- A document stays as it is or is edited. -/
theorem EditsOnly.document {q : Request} (h : q.EditsOnly key) (st : Setup)
    (hd : w.storage.documents[key]? = some d) :
    ∃ d', (q.run st w).storage.documents[key]? = some d' ∧
      (d' = d ∨ ∃ x : Edit, d' = x.apply d) := by
  have hkeeps : (q.run st w).storage = w.storage →
      ∃ d', (q.run st w).storage.documents[key]? = some d' ∧
        (d' = d ∨ ∃ x : Edit, d' = x.apply d) := by
    intro hsame
    exact ⟨d, by rw [hsame, hd], .inl rfl⟩
  cases q with
  | change f =>
    obtain ⟨r, x, hq⟩ | haside := h f rfl
    · rw [hq, document_edit, hd]
      split
      · exact ⟨_, rfl, .inr ⟨x, rfl⟩⟩
      · exact ⟨d, rfl, .inl rfl⟩
    · have hlt := (Array.getElem?_eq_some_iff.1 hd).1
      exact ⟨d, (haside w.storage hlt).trans hd, .inl rfl⟩
  | parse r force => exact hkeeps (timely_parse st w r force).1
  | load name =>
    obtain ⟨r, -, hrun, -⟩ | ⟨hrun, -⟩ := load_cases st w name
    · exact hkeeps ((congrArg World.storage hrun).trans (timely_parse st w r false).1)
    · exact hkeeps (congrArg World.storage hrun)
  | register r => exact hkeeps rfl
  | evict path => exact hkeeps rfl
  | clear => exact hkeeps rfl

end Request

namespace World

variable {w : World} {key : Nat} {d : Document}

/-- What every edit keeps, a history keeps in which a document is only edited. -/
theorem document_after (st : Setup) {P : Document → Prop}
    (hP : ∀ (x : Edit) (d : Document), P d → P (x.apply d))
    (hd : w.storage.documents[key]? = some d) (h : P d) (qs : List Request)
    (hqs : ∀ q ∈ qs, q.EditsOnly key) :
    ∃ d', (w.after st qs).storage.documents[key]? = some d' ∧ P d' := by
  induction qs generalizing w d with
  | nil => exact ⟨d, hd, h⟩
  | cons q qs ih =>
    obtain ⟨d₁, hd₁, hstep⟩ := (hqs q (by simp)).document st hd
    refine ih hd₁ ?_ fun q' hq' => hqs q' (by simp [hq'])
    rcases hstep with rfl | ⟨x, rfl⟩
    · exact h
    · exact hP x d h

/-- Once a document has been edited, that can be seen from then on. -/
theorem edited_after (st : Setup) {since : Stamp} (hd : w.storage.documents[key]? = some d)
    (h : d.Dated since) {early late : List Request} {r : Resource} (hr : r.source = .stored key)
    (x : Edit) (hqs : ∀ q ∈ early ++ late, q.EditsOnly key) :
    ∃ d', (w.after st (early ++ Edit.request r x :: late)).storage.documents[key]? = some d' ∧
      d'.Edited since := by
  obtain ⟨d₁, hd₁, hdated⟩ := document_after st (fun x _ hd => (hd.edit x).dated) hd h early
    fun q hq => hqs q (List.mem_append_left _ hq)
  have hd₂ : ((Edit.request r x).run st (w.after st early)).storage.documents[key]? =
      some (x.apply d₁) := by
    rw [Request.document_edit, if_pos hr, hd₁, Option.map_some]
  rw [after_append]
  exact document_after st (fun x _ hd => hd.dated.edit x) hd₂ (hdated.edit x) late
    fun q hq => hqs q (List.mem_append_right _ hq)

end World

namespace Setup

open World

/-- **No edit goes unnoticed.** In every history, let a request make an entity from a document in
memory, be it that the document was asked for or referred to. The entity is up to date then. Let
the document be changed by edits only afterwards, through any handles, at any times on the clock and
with any other requests in between. After the first edit the entity is modified, and it stays so:
the stamp that it was made with never comes back. -/
theorem edits_are_noticed (st : Setup) (qs : List Request) (q : Request) {key : EntityKey}
    {e : Entity} {doc : Nat} {content : Option String} {stamp : Stamp}
    (hnew : (reached st qs).entity? key = none)
    (hmade : (reached st (qs ++ [q])).entity? key = some e)
    (hsource : e.resource.source = .stored doc)
    (hdoc : (reached st qs).storage.documents[doc]? = some (.memory content stamp)) :
    (reached st (qs ++ [q])).isModified key = false ∧
    ∀ (early late : List Request) (r : Resource) (x : Edit),
      (∀ p ∈ early ++ late, p.EditsOnly doc) → r.source = e.resource.source →
      let w := reached st (qs ++ q :: (early ++ Edit.request r x :: late))
      w.isModified key = true ∧ w.storage.modified e.resource ≠ e.timestamp := by
  have hafter : ∀ rest, reached st (qs ++ q :: rest) = (q.run st (reached st qs)).after st rest :=
    fun rest => after_append st {} qs (q :: rest)
  have hone : reached st (qs ++ [q]) = q.run st (reached st qs) := hafter []
  rw [hone] at hmade ⊢
  obtain ⟨hsame, htimely⟩ := q.timely_of_made hnew hmade
  constructor
  · rw [World.isModified, hmade, hsame]
    exact htimely
  intro early late r x hedits hr w
  have htimestamp : e.timestamp = some stamp := by
    obtain ⟨hpresent, hmodified⟩ := Entity.isModified_eq_false_iff.1 htimely
    simp only [Storage.isPresent, Storage.modified, hsource, hdoc] at hpresent hmodified
    obtain ⟨text, rfl⟩ := Option.isSome_iff_exists.1 hpresent
    exact hmodified.symm
  obtain ⟨d, hd, hedited⟩ := edited_after st (hsame ▸ hdoc)
    ⟨content, stamp, rfl, Int.le_refl _⟩ (hr.trans hsource) x hedits
  rw [← hafter] at hd
  have hne : w.storage.modified e.resource ≠ e.timestamp := by
    simp only [Storage.modified, hsource, htimestamp, w, hd]
    exact hedited.modified_ne
  refine ⟨?_, hne⟩
  have he : w.entity? key = some e := by
    rw [show w = _ from hafter _]
    exact entity_after hmade _
  rw [World.isModified, he, Option.map_some, Option.getD_some, Entity.isModified, bne_iff_ne.2 hne,
    Bool.or_true]

/-- A document is parsed. Then it is deleted and written again while the clock stands still, and
touched when the clock has gone back. -/
theorem edits_are_noticed_rewritten :
    let st : Setup := { registry := Builtin.registry }
    let qs : List Request := [.change fun s => (s.add (.memory (some "<scenario/>") 5)).1,
      .register (inMemory 0 "main")]
    let w := reached st (qs ++ .load "main" :: ([] ++ Edit.request (inMemory 0 "main") .delete ::
      [Edit.request (inMemory 0 "main") (.setContent 5 "<scenario/>"),
        Edit.request (inMemory 0 "main") (.touch 3)]))
    (reached st (qs ++ [.load "main"])).isModified 0 = false ∧ w.isModified 0 = true := by
  intro st qs w
  have hmade : ((reached st (qs ++ [.load "main"])).entity? 0).any
      (fun e => e.resource.source == .stored 0) = true := by decide +kernel
  obtain ⟨e, he, hsource⟩ := (Option.any_eq_true _ _).1 hmade
  have hnew : (reached st qs).entity? 0 = none := by
    have hnone : ((reached st qs).entity? 0).isNone = true := by decide +kernel
    exact Option.isNone_iff_eq_none.1 hnone
  obtain ⟨hfresh, hnoticed⟩ :=
    edits_are_noticed st qs (.load "main") hnew he (beq_iff_eq.1 hsource) rfl
  refine ⟨hfresh, (hnoticed [] _ (inMemory 0 "main") .delete ?_ (beq_iff_eq.1 hsource).symm).1⟩
  intro p hp f hf
  simp only [List.nil_append, List.mem_cons, List.not_mem_nil, or_false] at hp
  rcases hp with rfl | rfl
  · exact .inl ⟨_, _, rfl⟩
  · exact .inl ⟨_, _, rfl⟩

end Setup

end Scenario
