import Scenario.Proofs.Layers

/-!
# What an activation touches

An activation writes to scopes in several ways: it binds results and parameters, notes which branch
ran and that its entity returned. Where it writes is found by searching the scopes around for its
entity, and an entity that calls itself owns several of them. This module shows that the search
always ends at the scope of the activation itself, and that only this scope is changed.

* `Home e s t a` — from scope `t` the entity `e` is found in scope `s`.
* `OnlyIn s t` — only the contents of the frames `s` and `t` differ; `Confined s` — all other frames
  are the same. An activation with home `s` that works in scope `t` stays within the first relation,
  an entity that is run in a scope within the second.
* **`Walk.tame`** — both by induction on the walk. An entity that is called gets a scope of its own
  at the end, so what it changes is gone when that scope is left (`OnlyIn.child`).
-/

namespace Scenario

namespace Arena

variable {e : EntityKey} {s t u k : ScopeId} {a b c : Arena}

/-! ### Relations of scopes -/

/-- Only the contents of two frames may differ: all scopes are linked as before and belong to the
same entities. -/
structure OnlyIn (s t : ScopeId) (a b : Arena) : Prop where
  size : b.size = a.size
  globals : b.globals = a.globals
  parent : ∀ k, (b.frame k).parent = (a.frame k).parent
  entity : ∀ k, (b.frame k).entity = (a.frame k).entity
  frame : ∀ k, k ≠ s → k ≠ t → b.frame k = a.frame k

/-- All frames but one are the same. -/
structure Confined (s : ScopeId) (a b : Arena) : Prop where
  size : b.size = a.size
  globals : b.globals = a.globals
  frame : ∀ k, k ≠ s → b.frame k = a.frame k

theorem Confined.refl (s : ScopeId) (a : Arena) : Confined s a a := ⟨rfl, rfl, fun _ _ => rfl⟩

theorem confined_bindEntity (a : Arena) (s : ScopeId) (e : EntityKey) :
    Confined s a (a.bindEntity s e) :=
  ⟨size_bindEntity a s e, rfl, fun _ hk => frame_modifyFrame_of_ne _ hk⟩

theorem Confined.trans (h : Confined s a b) (h' : Confined s b c) : Confined s a c where
  size := h'.size.trans h.size
  globals := h'.globals.trans h.globals
  frame k hk := (h'.frame k hk).trans (h.frame k hk)

namespace OnlyIn

theorem refl (s t : ScopeId) (a : Arena) : OnlyIn s t a a :=
  ⟨rfl, rfl, fun _ => rfl, fun _ => rfl, fun _ _ _ => rfl⟩

theorem trans (h : OnlyIn s t a b) (h' : OnlyIn s t b c) : OnlyIn s t a c where
  size := h'.size.trans h.size
  globals := h'.globals.trans h.globals
  parent k := (h'.parent k).trans (h.parent k)
  entity k := (h'.entity k).trans (h.entity k)
  frame k hs ht := (h'.frame k hs ht).trans (h.frame k hs ht)

theorem weaken (h : OnlyIn s u a b) (hu : u = t ∨ u = s) : OnlyIn s t a b := by
  refine ⟨h.size, h.globals, h.parent, h.entity, fun k hs ht => h.frame k hs ?_⟩
  obtain rfl | rfl := hu
  · exact ht
  · exact hs

theorem touched (h : Touched u a b) (hu : u = t ∨ u = s) : OnlyIn s t a b := by
  refine ⟨h.size_eq, h.globals_eq, h.parent_eq, h.entity_eq, fun k hs ht => h.frame_of_ne ?_⟩
  obtain rfl | rfl := hu
  · exact ht
  · exact hs

theorem confined (h : OnlyIn s s a b) : Confined s a b :=
  ⟨h.size, h.globals, fun k hk => h.frame k hk hk⟩

/-- A scope opened at the end and left again: whatever was done with it in between, an entity run in
it included, only the first frame may differ. -/
theorem child (hpos : 0 < a.size) (h : OnlyIn s a.size (a.enter t).1 b) (h' : Confined a.size b c) :
    OnlyIn s t a (c.leave a.size) := by
  have hsize : c.size = a.size + 1 := by rw [h'.size, h.size, size_enter]
  have hleft : (c.leave a.size).size = a.size := size_leave hpos (hsize ▸ Nat.le_succ _)
  have below : ∀ k < a.size, (c.leave a.size).frame k = b.frame k :=
    fun k hk => (frame_leave hk).trans (h'.frame k (Nat.ne_of_lt hk))
  have enter : ∀ k < a.size, (a.enter t).1.frame k = a.frame k :=
    fun k hk => frame_enter (Nat.ne_of_lt hk)
  -- beyond the end there is nothing, before and after
  have beyond : ∀ k, ¬ k < a.size → (c.leave a.size).frame k = a.frame k := by
    intro k hk
    have hk := Nat.le_of_not_lt hk
    rw [frame_of_size_le hk, frame_of_size_le (by rwa [hleft])]
  refine ⟨hleft, ?_, fun k => ?_, fun k => ?_, fun k hs _ => ?_⟩
  · rw [globals_leave, h'.globals, h.globals, globals_enter]
  · by_cases hk : k < a.size
    · rw [below k hk, h.parent k, enter k hk]
    · rw [beyond k hk]
  · by_cases hk : k < a.size
    · rw [below k hk, h.entity k, enter k hk]
    · rw [beyond k hk]
  · by_cases hk : k < a.size
    · rw [below k hk, h.frame k hs (Nat.ne_of_lt hk), enter k hk]
    · rw [beyond k hk]

end OnlyIn

/-! ### Home -/

/-- From a live scope the entity is found in another one. -/
structure Home (e : EntityKey) (s t : ScopeId) (a : Arena) : Prop where
  live : t < a.size
  found : a.entityScope? t e = some s

namespace Home

theorem onlyIn (h : Home e s t a) (hb : OnlyIn s u a b) : Home e s t b where
  live := hb.size ▸ h.live
  found := (entityScope?_congr (fun k _ => hb.parent k) fun k _ => hb.entity k).trans h.found

theorem enter (h : Home e s t a) : Home e s a.size (a.enter t).1 where
  live := by rw [size_enter]; exact Nat.lt_succ_self _
  found := (entityScope?_enter h.live).trans h.found

theorem self (h : Home e s t a) : Home e s s a where
  live := Nat.lt_of_le_of_lt (entityScope?_spec h.found).1 h.live
  found := entityScope?_self (entityScope?_spec h.found).2

theorem bindEntity (h : s < a.size) : Home e s s (a.bindEntity s e) where
  live := by rwa [size_bindEntity]
  found := entityScope?_self (congrArg Frame.entity (frame_modifyFrame_self _ h))

theorem entityScope_eq {act : Activation} (h : Home act.entity s t a) :
    act.entityScope a t = s := by
  rw [Activation.entityScope, h.found, Option.getD_some]

/-- An instruction runs what is below it in its own scope or in the one of the entity. -/
theorem childScope_eq {act : Activation} (h : Home act.entity s t a) (tag : Tag) :
    act.childScope tag a t = t ∨ act.childScope tag a t = s := by
  unfold Activation.childScope
  split
  · exact .inr h.entityScope_eq
  · exact .inl rfl

/-- An instruction runs what is below it where it is still at home. -/
theorem below {act : Activation} (h : Home act.entity s t a) (hb : OnlyIn s t a b) (tag : Tag) :
    Home act.entity s (act.childScope tag a t) b := by
  obtain hu | hu := h.childScope_eq tag
  · rw [hu]
    exact h.onlyIn hb
  · rw [hu]
    exact (h.onlyIn hb).self

end Home

end Arena

/-! ### Walks -/

/-- Where an entry says that an instruction of an entity ran, or that it returned, the scope of the
entity is the given one. -/
def Entry.AtHome (e : EntityKey) (s : ScopeId) : Entry → Prop
  | .event (.tagEntry m) | .event (.tagExit m) => m.entity = e ∧ m.home = some s
  | .returned h => h = s
  | _ => True

theorem Entry.Aside.atHome {x : Entry} (h : x.Aside) (e : EntityKey) (s : ScopeId) :
    x.AtHome e s := by
  cases x with
  | record _ | closing _ | vacant _ _ => trivial
  | _ => exact h.elim

/-- The activation has only touched the two scopes, and everything that it did was at home. -/
structure Tame (act : Activation) (s t : ScopeId) (st st' : RunState) : Prop where
  scopes : Arena.OnlyIn s t st.scopes st'.scopes
  did : ∃ xs, Did 0 st st' xs ∧ ∀ x ∈ xs, x.AtHome act.entity s

namespace Tame

variable {act : Activation} {s t u : ScopeId} {st st₁ st₂ : RunState}

theorem refl (act : Activation) (s t : ScopeId) (st : RunState) : Tame act s t st st :=
  ⟨.refl s t _, [], .refl 0 st, by simp⟩

theorem trans (h : Tame act s t st st₁) (h' : Tame act s t st₁ st₂) : Tame act s t st st₂ := by
  obtain ⟨xs, hx, hin⟩ := h.did
  obtain ⟨ys, hy, hin'⟩ := h'.did
  exact ⟨h.scopes.trans h'.scopes, xs ++ ys, hx.trans hy, List.forall_mem_append.2 ⟨hin, hin'⟩⟩

/-- Nothing happened but in the log, and the scopes are the same. -/
theorem of_aside {xs : List Entry} (hc : st₁.scopes = st.scopes) (h : Did 0 st st₁ xs)
    (ha : ∀ x ∈ xs, x.Aside) : Tame act s t st st₁ :=
  ⟨hc ▸ .refl s t _, xs, h, fun x hx => (ha x hx).atHome act.entity s⟩

/-- The contents of one of the two scopes are changed. -/
theorem touching {f : Arena → Arena} (h : Arena.Touched u st.scopes (f st.scopes))
    (hu : u = t ∨ u = s) : Tame act s t st (st.mapScopes f) :=
  ⟨.touched h hu, [], .of_entries_eq rfl, by simp⟩

theorem log {x : Entry} (hx : x.isEvent = false) (ha : x.AtHome act.entity s) (st : RunState) :
    Tame act s t st (st.log [x]) :=
  ⟨.refl s t _, [x], .log hx st, by simpa using ha⟩

theorem loading (act : Activation) (s t : ScopeId) (st : RunState) (setup : Setup) (name : String) :
    Tame act s t st (st.loading setup name) := by
  obtain ⟨xs, hx, ha⟩ := Did.loading st setup name
  exact of_aside rfl hx ha

theorem weaken (h : Tame act s u st st₁) (hu : u = t ∨ u = s) : Tame act s t st st₁ :=
  ⟨h.scopes.weaken hu, h.did⟩

theorem withResult (act : Activation) (s t : ScopeId) (st : RunState) (v : Option Value) :
    Tame act s t st (st.withResult v) := ⟨.refl s t _, [], .of_entries_eq rfl, by simp⟩

theorem stir (h : Stir act t st st₁) : Tame act s t st st₁ := by
  cases h with
  | record r => exact log rfl (by trivial) st
  | locks l => exact ⟨.refl s t _, [], .of_entries_eq rfl, by simp⟩
  | load name => exact loading act s t st _ name
  | vacant id => exact log rfl (by trivial) st
  | branch ran => exact touching (Arena.touched_setInternal _ t _ _) (.inl rfl)
  | origin o => exact ⟨.refl s t _, [], .of_entries_eq rfl, by simp⟩

theorem stirs (h : Stirs act t st st₁) : Tame act s t st st₁ := by
  induction h with
  | refl => exact refl act s t st
  | tail _ h ih => exact ih.trans (stir h)

/-- A name is bound in one of the two scopes. -/
theorem bound (hu : u = t ∨ u = s) (st : RunState) (b : Binding) :
    Tame act s t st (st.bound u b) := by
  have hscopes : Tame act s t st
      (st.mapScopes fun a => (a.replace u b.id b.origin b.value).2) :=
    touching (Arena.touched_replace _ u b.id b.origin b.value) hu
  exact hscopes.trans (log rfl (by trivial) _)

theorem binds {i : Instruction} (hs : Arena.Home act.entity s t st.scopes)
    (h : Binds act i t st st₁) : Tame act s t st st₁ := by
  cases h with
  | result b _ => exact bound (.inr hs.entityScope_eq) st b
  | parameter b _ => exact bound (.inl rfl) st b

theorem deed {a a' : Action} (hs : Arena.Home act.entity s t st.scopes)
    (h : Deed act t st a a' st₁) : Tame act s t st st₁ := by
  cases h with
  | look => exact refl act s t st
  | write => exact log rfl (by trivial) st
  | note => exact log rfl (by trivial) st
  | setResult => exact withResult act s t st _
  | returnEntity =>
    have hflag : Tame act s t st
        (st.mapScopes fun a => a.setReturning (act.entityScope st.scopes t) true) :=
      touching (Arena.touched_setReturning _ _ true) (.inr hs.entityScope_eq)
    exact hflag.trans (log (x := .returned _) rfl hs.entityScope_eq _)
  | abort => exact ⟨.refl s t _, [.aborted _], .log rfl _, by simp [Entry.AtHome]⟩
  | register => exact ⟨.refl s t _, [.opened _], .log rfl _, by simp [Entry.AtHome]⟩
  | allowOverwrite =>
    exact touching (Arena.touched_setInternal _ _ _ _) (.inr hs.entityScope_eq)

/-- An instruction that has begun and ended at home. -/
theorem tag {id : NodeId} {i : Instruction} (hs : Arena.Home act.entity s t st.scopes)
    (hk : Kept (act.begun id i t st) st₁) (h : Tame act s t (act.begun id i t st) st₁) :
    Tame act s t st (act.ended id i t st₁) := by
  obtain ⟨xs, hx, hin⟩ := h.did
  refine ⟨h.scopes, _, .tag hk hx, ?_⟩
  have hs' : Arena.Home act.entity s t st₁.scopes := hs.onlyIn h.scopes
  simp only [List.cons_append, List.mem_cons, List.mem_append]
  rintro x (rfl | hx | rfl | h)
  · exact ⟨rfl, hs.found⟩
  · exact hin x hx
  · exact ⟨rfl, hs'.found⟩
  · cases h

/-- A scope of one's own. -/
theorem child (hs : Arena.Home act.entity s t st.scopes)
    (h : Tame act s st.scopes.size (st.opened t) st₁) :
    Tame act s t st (st₁.left st.scopes.size) :=
  ⟨h.scopes.child (Nat.zero_lt_of_lt hs.live) (.refl _ _), h.did⟩

/-- A scope of one's own, in which another entity was run. -/
theorem summoned {key : EntityKey} {o : Ending} (hs : Arena.Home act.entity s t st.scopes)
    (h : Tame act s st.scopes.size (st.opened t) st₁)
    (hw : Walk act (.entity key) st.scopes.size st₁ o st₂)
    (hc : Arena.Confined st.scopes.size st₁.scopes st₂.scopes) :
    Tame act s t st (st₂.left st.scopes.size) := by
  have hpos : 0 < st.scopes.size := Nat.zero_lt_of_lt hs.live
  refine ⟨h.scopes.child hpos hc, ?_⟩
  obtain ⟨xs, hx, hin⟩ := h.did
  have hpos₁ : 0 < st₁.scopes.size := by
    rw [h.scopes.size]
    exact RunState.size_opened_pos st t
  obtain ⟨-, hd⟩ | ⟨name, q, q', hd⟩ := hw.did_entity hpos₁
  · exact ⟨_, hx.trans hd, List.forall_mem_append.2 ⟨hin, by simp⟩⟩
  · exact ⟨_, hx.trans hd, List.forall_mem_append.2 ⟨hin, by simp [Entry.AtHome]⟩⟩

end Tame

/-- What a task may touch: an entity only its scope, everything else also the scope that it works
in. -/
def Task.Touches (act : Activation) (t : ScopeId) (st st' : RunState) : Task → Prop
  | .entity _ => t < st.scopes.size → Arena.Confined t st.scopes st'.scopes
  | _ => ∀ s, Arena.Home act.entity s t st.scopes → Tame act s t st st'

theorem Walk.tame {act : Activation} {task : Task} {t : ScopeId} {st st' : RunState} {o : Ending}
    (h : Walk act task t st o st') : task.Touches act t st st' := by
  induction h with
  | nil | pass | done | fail | empty | missing => exact fun s _ => .refl _ s _ _
  | tooDeep => exact fun _ => .refl _ _
  | next _ _ ih ih' =>
    intro s hs
    have h₁ := ih s hs
    exact h₁.trans (ih' s (hs.onlyIn h₁.scopes))
  | stop _ _ ih => exact ih
  | node _ hw ih =>
    intro s hs
    exact .tag hs (hw.kept (Nat.zero_lt_of_lt hs.live)) (ih s hs)
  | blamed _ hw _ hst ih =>
    intro s hs
    have hk := (hw.kept (Nat.zero_lt_of_lt hs.live)).trans (.stirs hst)
    exact .tag hs hk ((ih s hs).trans (.stirs hst))
  | alone hst _ => exact fun s _ => .stirs hst
  | @inside act _ _ t u st st₁ _ _ _ hu hst _ ih =>
    intro s hs
    have h₁ : Tame act s t st st₁ := .stirs hst
    rw [hu] at ih
    have h₂ := ih s (hs.below h₁.scopes _)
    exact h₁.trans (h₂.weaken (hs.childScope_eq _))
  | take _ _ ih => exact fun s hs => (ih s hs).trans (.withResult _ _ _ _ _)
  | settle _ hst ih => exact fun s hs => (ih s hs).trans (.stirs hst)
  | bind _ _ hb ih =>
    intro s hs
    have h₁ := ih s hs
    exact h₁.trans (.binds (hs.onlyIn h₁.scopes) hb)
  | refuse _ _ ih => exact ih
  | @fallback act i ts t st st₁ name id sig b _ _ _ _ ih =>
    intro s hs
    have hlooked : Tame act s t st (st.log [.vacant t id]) := .log rfl (by trivial) st
    have h₁ := hlooked.trans (ih s hs)
    exact h₁.trans (.bound (.inr (hs.onlyIn h₁.scopes).entityScope_eq) st₁ b)
  | halt _ _ _ ih => exact fun s hs => .child hs (ih s hs.enter)
  | misfit _ _ _ hst ih => exact fun s hs => .child hs ((ih s hs.enter).trans (.stirs hst))
  | @call act _ _ t st st₁ _ b fs _ _ _ _ ih ih' =>
    intro s hs
    have hcalled : Tame act s st.scopes.size (st.opened t) (st₁.log [.call b.typeName fs]) :=
      (ih s hs.enter).trans (.log rfl (by trivial) _)
    exact .child hs (hcalled.trans (ih' s (hs.enter.onlyIn hcalled.scopes)))
  | @invoke act _ _ t st st₁ st₂ target _ _ _ _ _ _ _ hw ih ih' =>
    intro s hs
    have hloaded : Tame act s st.scopes.size (st.opened t)
        ((st₁.loading act.engine.setup target).withResult none) :=
      ((ih s hs.enter).trans (.loading _ _ _ _ _ _)).trans (.withResult _ _ _ _ none)
    have hlive := (hs.enter.onlyIn hloaded.scopes).live
    have h₂ := Tame.summoned hs hloaded hw (ih' hlive)
    -- restoring the result changes neither scopes nor journal
    exact ⟨h₂.scopes, h₂.did⟩
  | deed hd _ ih =>
    intro s hs
    have h₁ := Tame.deed hs hd
    exact h₁.trans (ih s (hs.onlyIn h₁.scopes))
  | again _ _ ih ih' =>
    intro s hs
    have h₁ := ih s hs
    exact h₁.trans (ih' s (hs.onlyIn h₁.scopes))
  | @unfound act name _ _ t st _ _ _ _ ih =>
    intro s hs
    have h₁ := Tame.child hs (.loading act s st.scopes.size (st.opened t) act.engine.setup name)
    exact h₁.trans (ih s (hs.onlyIn h₁.scopes))
  | @summon act name _ _ t st _ _ _ _ _ hw _ ih ih' =>
    intro s hs
    have hloaded := Tame.loading act s st.scopes.size (st.opened t) act.engine.setup name
    have hlive := (hs.enter.onlyIn hloaded.scopes).live
    have h₂ := Tame.summoned hs hloaded hw (ih hlive)
    exact h₂.trans (ih' s (hs.onlyIn h₂.scopes))
  | root _ ih => exact ih
  | @activate _ act' _ t _ _ _ _ _ ih =>
    intro hlive
    have hin := ih t (.bindEntity hlive)
    exact (Arena.confined_bindEntity _ t act'.entity).trans hin.scopes.confined

/-- What an entity did itself was at home in its scope. -/
theorem Walk.atHome_entity {act : Activation} {key : EntityKey} {s : ScopeId} {st st' : RunState}
    {o : Ending} (h : Walk act (.entity key) s st o st') (hs : s < st.scopes.size) :
    ∃ xs, Did 1 st st' xs ∧ ∀ x ∈ xs, x.AtHome key s := by
  cases h with
  | tooDeep => exact ⟨[], .refl 1 st, by simp⟩
  | @activate _ act' _ _ _ st₁ _ hserves hw =>
    have hlive : s < (act'.entered s st).scopes.size := by simpa [Activation.entered] using hs
    have hk := hw.kept (Nat.zero_lt_of_lt hlive)
    obtain ⟨xs, hx, hin⟩ := (hw.tame s (.bindEntity hs)).did
    obtain ⟨ys, hy, hi⟩ := Did.inside hk hx
    rw [hserves.entity] at hin
    exact ⟨xs ++ ys, hy, List.forall_mem_append.2 ⟨hin, fun y hm => (hi y hm).atHome key s⟩⟩

namespace Engine

/-- **The frame law of an activation.** An entity is run in any live scope, and it may call itself,
fail or be given up. Every instruction that it runs itself, at any depth of calls and parameters,
finds the scope of the entity, and it is the scope in which the entity was run; the same scope is
the one that returns. Every other scope is afterwards what it was before, and so is the storage
that all scopes share. -/
theorem runEntity_touches_only_its_scope (e : Engine) (depth : Nat) (key : EntityKey) (s : ScopeId)
    (st : RunState) (hs : s < st.scopes.size) :
    (e.runEntity depth key s).Ends st fun _ st' =>
      (∃ xs, Did 1 st st' xs ∧ ∀ x ∈ xs, x.AtHome key s) ∧
      (∀ k, k ≠ s → st'.scopes.frame k = st.scopes.frame k) ∧
      st'.scopes.globals = st.scopes.globals := by
  have hw := e.activation_walk depth st.world key key s st
  have hc : Arena.Confined s st.scopes _ := hw.tame hs
  exact ⟨hw.atHome_entity hs, hc.frame, hc.globals⟩

/-- An entity that calls itself in the parameters of a bean, run in a scope inside the root. -/
theorem runEntity_touches_only_its_scope_self_call :
    let e := Engine.ofSettings Builtin.registry .template {}
    let w : World :=
      ({} : World).registerMemory 0 "main" "<scenario><log><main/></log></scenario>" true
    let st : RunState := (RunState.loading ⟨w, {}⟩ e.setup "main").opened Arena.root
    1 < st.scopes.size ∧ (e.runEntity 10 0 1).Ends st fun _ st' =>
      (∃ xs, Did 1 st st' xs ∧ ∀ x ∈ xs, x.AtHome 0 1) ∧
      (∀ k, k ≠ 1 → st'.scopes.frame k = st.scopes.frame k) ∧
      st'.scopes.globals = st.scopes.globals :=
  ⟨by decide, runEntity_touches_only_its_scope _ 10 0 1 _ (by decide)⟩

end Engine

end Scenario
