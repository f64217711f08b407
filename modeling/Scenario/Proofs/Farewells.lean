import Scenario.Library.Probe
import Scenario.Proofs.Nesting

/-!
# What is opened is closed

Beans open things at any time, in any activation, and all of them are kept in one list. An
activation that ends closes what the list has got since it began. `Released os es` says which
journals that leaves: between the entry and the exit of an activation the things `os` are opened,
activations inside it close their own, and right before the exit all of `os` is flushed and closed,
latest first, each one once, with the complaints about it in between. Nothing is flushed or closed
anywhere else.

* `Owing os st st'` says that a part of a run opened `os`, which is still to be closed on top of
  what was there before.
* **`Walk.owing`** — every walk leaves what it owes to the activation around it, and an entity owes
  nothing, by induction on the walk. The rule with work in it is the one of an activation
  (`Owing.activation`).

Beans are not restricted, and neither is what flushing and closing answer.
-/

namespace Scenario

/-! ### Journals -/

/-- An entry that neither opens nor closes anything, and at which no activation begins or ends. -/
def Entry.Apart : Entry → Prop
  | .opened _ | .closing _ | .event (.entityEntry ..) | .event (.entityExit ..) => False
  | _ => True

/-- What is flushed and closed when an activation ends that opened `os`. -/
def farewells (os : List Closeable) : List Entry := os.reverse.flatMap Closeable.farewell

/-- The entries of an activation in a scope with sequence number `n`, from its begin to its end. -/
def activationEntries (key : EntityKey) (name : String) (n n' : Nat) (os : List Closeable)
    (es : List Entry) : List Entry :=
  .event (.entityEntry key name n) :: es ++ farewells os ++ [.event (.entityExit key name n')]

/-- Entries in which `os` is opened, in this order, and everything else that is opened is closed at
the end of the activation that opened it. -/
inductive Released : List Closeable → List Entry → Prop
  /-- Nothing happened. -/
  | nil : Released [] []
  /-- Something was opened. -/
  | opened (c : Closeable) : Released [c] [.opened c]
  /-- Something happened that is not about opening and closing. -/
  | other {e : Entry} : e.Apart → Released [] [e]
  /-- One thing happened after another. -/
  | append {os os' : List Closeable} {es es' : List Entry} : Released os es → Released os' es' →
      Released (os ++ os') (es ++ es')
  /-- An activation closed what was opened in it. -/
  | activation {key : EntityKey} {name : String} {n n' : Nat} {os : List Closeable}
      {es : List Entry} : Released os es → Released [] (activationEntries key name n n' os es)

theorem released_of_apart {es : List Entry} (h : ∀ e ∈ es, e.Apart) : Released [] es := by
  induction es with
  | nil => exact .nil
  | cons e es ih =>
    rw [List.forall_mem_cons] at h
    exact .append (.other h.1) (ih h.2)

/-- What an entry says was opened. -/
def Entry.opened? : Entry → Option Closeable
  | .opened c => some c
  | _ => none

/-- What an entry says was flushed or closed. -/
def Entry.closing? : Entry → Option Closing
  | .closing c => some c
  | _ => none

/-- Something is flushed and then closed. -/
def Closeable.parting (c : Closeable) : List Closing := [.flush c, .close c]

theorem Entry.Apart.views {e : Entry} (h : e.Apart) : e.opened? = none ∧ e.closing? = none := by
  cases e with
  | opened _ | closing _ => exact h.elim
  | _ => exact ⟨rfl, rfl⟩

/-- A farewell is one flush and one closing, whatever they answer. -/
theorem Closeable.views_farewell (c : Closeable) :
    c.farewell.filterMap Entry.opened? = [] ∧ c.farewell.filterMap Entry.closing? = c.parting := by
  obtain ⟨name, flushError, closeError⟩ := c
  cases flushError <;> cases closeError <;> exact ⟨rfl, rfl⟩

theorem views_farewells (os : List Closeable) :
    (farewells os).filterMap Entry.opened? = [] ∧
      (farewells os).filterMap Entry.closing? = os.reverse.flatMap Closeable.parting := by
  rw [farewells]
  induction os.reverse with
  | nil => exact ⟨rfl, rfl⟩
  | cons c cs ih => simp [c.views_farewell, ih]

/-- Everything that is opened is flushed once and closed once, but for what is still open. -/
theorem Released.perm {os : List Closeable} {es : List Entry} (h : Released os es) :
    (es.filterMap Entry.closing? ++ os.flatMap Closeable.parting).Perm
      ((es.filterMap Entry.opened?).flatMap Closeable.parting) := by
  induction h with
  | nil => exact .refl _
  | opened c => exact .refl _
  | other he => simp [he.views]
  | @append os os' es es' _ _ ih ih' =>
    have hswap := List.perm_append_comm_assoc (es'.filterMap Entry.closing?)
      (os.flatMap Closeable.parting) (os'.flatMap Closeable.parting)
    simp only [List.filterMap_append, List.flatMap_append, List.append_assoc] at ih ih' ⊢
    refine (List.Perm.append_left _ hswap).trans ?_
    rw [← List.append_assoc]
    exact ih.append ih'
  | @activation key name n n' os es _ ih =>
    have hos : (os.reverse.flatMap Closeable.parting).Perm (os.flatMap Closeable.parting) :=
      (List.reverse_perm os).flatMap_right _
    have hviews := views_farewells os
    simp only [activationEntries, List.cons_append, List.filterMap_cons, List.filterMap_append,
      hviews.1, hviews.2, List.flatMap_nil]
    simpa [Entry.opened?, Entry.closing?] using (List.Perm.append_left _ hos).trans ih

/-! ### What is still to be closed -/

/-- Between the two states `os` was opened and is still to be closed, before what was to be closed
already. -/
structure Owing (os : List Closeable) (st st' : RunState) : Prop where
  closeables : st'.chain.closeables = os.reverse ++ st.chain.closeables
  journal : ∃ es, st'.entries = st.entries ++ es ∧ Released os es

namespace Owing

variable {act : Activation} {s : ScopeId} {os os' : List Closeable} {st st₁ st₂ : RunState}

/-- A change that is not about opening and closing. -/
theorem of_apart {es : List Entry} (hc : st₁.chain.closeables = st.chain.closeables)
    (he : st₁.entries = st.entries ++ es) (h : ∀ e ∈ es, e.Apart) : Owing [] st st₁ :=
  ⟨hc, es, he, released_of_apart h⟩

theorem refl (st : RunState) : Owing [] st st := ⟨rfl, [], by simp, .nil⟩

theorem trans (h : Owing os st st₁) (h' : Owing os' st₁ st₂) : Owing (os ++ os') st st₂ := by
  obtain ⟨hc, es, he, hr⟩ := h
  obtain ⟨hc', es', he', hr'⟩ := h'
  refine ⟨?_, es ++ es', ?_, hr.append hr'⟩
  · rw [hc', hc, List.reverse_append, List.append_assoc]
  · rw [he', he, List.append_assoc]

/-- One more entry that is not about opening and closing. -/
theorem log {e : Entry} (h : Owing os st st₁) (he : e.Apart) : Owing os st (st₁.log [e]) := by
  have hlog : Owing [] st₁ (st₁.log [e]) := of_apart rfl (st₁.entries_log [e]) (by simpa using he)
  simpa using h.trans hlog

/-- A change of the chain that adds nothing to the journal and opens nothing. -/
theorem chain (h : Owing os st st₁) (hc : st₂.chain.closeables = st₁.chain.closeables)
    (he : st₂.entries = st₁.entries) : Owing os st st₂ := by
  obtain ⟨hc₁, es, he₁, hr⟩ := h
  exact ⟨hc.trans hc₁, es, he.trans he₁, hr⟩

theorem loading (h : Owing os st st₁) (setup : Setup) (name : String) :
    Owing os st (st₁.loading setup name) := by
  obtain ⟨rs, he⟩ := setup.load_records name st₁.world
  have hload : Owing [] st₁ (st₁.loading setup name) := of_apart rfl he (by simp [Entry.Apart])
  simpa using h.trans hload

theorem stir (h : Owing os st st₁) (hs : Stir act s st₁ st₂) : Owing os st st₂ := by
  cases hs with
  | record r => exact h.log trivial
  | locks l => exact h.chain rfl rfl
  | load name => exact h.loading _ name
  | vacant id => exact h.log trivial
  | branch ran => exact h.chain rfl rfl
  | origin o => exact h.chain rfl rfl

theorem stirs (h : Owing os st st₁) (hs : Stirs act s st₁ st₂) : Owing os st st₂ := by
  induction hs with
  | refl => exact h
  | tail _ hs ih => exact ih.stir hs

theorem bound (h : Owing os st st₁) (s : ScopeId) (b : Binding) : Owing os st (st₁.bound s b) := by
  have hmap : Owing os st (st₁.mapScopes fun a => (a.replace s b.id b.origin b.value).2) :=
    h.chain rfl rfl
  exact hmap.log trivial

theorem binds {i : Instruction} (h : Owing os st st₁) (hb : Binds act i s st₁ st₂) :
    Owing os st st₂ := by
  cases hb with
  | result b _ => exact h.bound _ b
  | parameter b _ => exact h.bound s b

/-- The only request that owes something is the one that opens it. -/
theorem deed {a a' : Action} (h : Deed act s st a a' st₁) : ∃ os, Owing os st st₁ := by
  cases h with
  | look => exact ⟨_, refl st⟩
  | write => exact ⟨_, (refl st).log trivial⟩
  | note => exact ⟨_, (refl st).log trivial⟩
  | @setResult v => exact ⟨_, (refl st).chain rfl rfl⟩
  | returnEntity =>
    have hmap : Owing [] st
        (st.mapScopes fun a => a.setReturning (act.entityScope st.scopes s) true) :=
      (refl st).chain rfl rfl
    exact ⟨_, hmap.log trivial⟩
  | abort =>
    have hset : Owing [] st { st with chain := { st.chain with aborting := true } } :=
      (refl st).chain rfl rfl
    exact ⟨_, hset.log trivial⟩
  | @register c => exact ⟨[c], rfl, [.opened c], RunState.entries_log _ _, .opened c⟩
  | allowOverwrite => exact ⟨_, (refl st).chain rfl rfl⟩

/-- An instruction that has begun and ended owes what was opened in between. -/
theorem bracket {id : NodeId} {i : Instruction} (h : Owing os (act.begun id i s st) st₁) :
    Owing os st (act.ended id i s st₁) := by
  have hpush : Owing [] st (st.withStack (act.running id i :: st.chain.stack)) :=
    (refl st).chain rfl rfl
  have hbegun : Owing [] st (act.begun id i s st) := hpush.log trivial
  have hpop : Owing os st (st₁.withStack st₁.chain.stack.tail) := (hbegun.trans h).chain rfl rfl
  exact hpop.log trivial

/-- So does a scope that was opened and left. -/
theorem child {n : Nat} (h : Owing os (st.opened s) st₁) : Owing os st (st₁.left n) :=
  ⟨h.closeables, h.journal⟩

/-- Closing what came to the list since it was `cs`. -/
theorem closed (cs : List Closeable) (hc : st.chain.closeables = os.reverse ++ cs) :
    (st.closed cs.length).chain.closeables = cs ∧
      (st.closed cs.length).entries = st.entries ++ farewells os := by
  have hn : st.chain.closeables.length - cs.length = os.reverse.length := by
    rw [hc, List.length_append, Nat.add_sub_cancel]
  constructor
  · simp only [RunState.closed, RunState.chain_log, hn]
    rw [hc, List.drop_left]
  · simp only [RunState.closed, RunState.entries_log, hn]
    rw [farewells, hc, List.take_left]
    rfl

/-- An activation that ends closes what it owes and nothing else. -/
theorem activation (h : Owing os (act.entered s st) st₁) :
    (act.exited s st.chain.closeables.length st₁).chain.closeables = st.chain.closeables ∧
    ∃ n n' es, Released os es ∧ (act.exited s st.chain.closeables.length st₁).entries =
      st.entries ++ activationEntries act.entity act.name n n' os es := by
  obtain ⟨hc, es, he, hr⟩ := h
  have hclosed := closed st.chain.closeables hc
  refine ⟨hclosed.1, (act.entered s st).scopes.seq s,
    (st₁.closed st.chain.closeables.length).scopes.seq s, es, hr, ?_⟩
  have hin : (act.entered s st).entries = st.entries ++
      [.event (.entityEntry act.entity act.name ((act.entered s st).scopes.seq s))] :=
    RunState.entries_log _ _
  rw [Activation.exited, RunState.entries_log, hclosed.2, he, hin]
  simp [activationEntries]

end Owing

/-! ### Walks and runs -/

/-- **Every walk leaves what it owes**, for the activation around it to close. -/
theorem Walk.owing {act : Activation} {task : Task} {s : ScopeId} {st st' : RunState} {o : Ending}
    (h : Walk act task s st o st') : ∃ os, Owing os st st' := by
  induction h with
  | nil | pass | done | fail | empty | missing | tooDeep => exact ⟨_, .refl _⟩
  | next _ _ ih ih' =>
    obtain ⟨os, h⟩ := ih
    obtain ⟨os', h'⟩ := ih'
    exact ⟨_, h.trans h'⟩
  | stop _ _ ih => exact ih
  | node _ _ ih =>
    obtain ⟨os, h⟩ := ih
    exact ⟨os, h.bracket⟩
  | blamed _ _ _ hst ih =>
    obtain ⟨os, h⟩ := ih
    exact ⟨os, (h.stirs hst).bracket⟩
  | alone hst _ => exact ⟨_, (Owing.refl _).stirs hst⟩
  | inside _ _ hst _ ih =>
    obtain ⟨os, h⟩ := ih
    exact ⟨_, ((Owing.refl _).stirs hst).trans h⟩
  | take _ _ ih =>
    obtain ⟨os, h⟩ := ih
    exact ⟨os, h.chain rfl rfl⟩
  | settle _ hst ih =>
    obtain ⟨os, h⟩ := ih
    exact ⟨os, h.stirs hst⟩
  | bind _ _ hb ih =>
    obtain ⟨os, h⟩ := ih
    exact ⟨os, h.binds hb⟩
  | refuse _ _ ih => exact ih
  | @fallback act i ts s st st₁ name id sig b _ _ _ _ ih =>
    obtain ⟨os, h⟩ := ih
    have hlooked : Owing [] st (st.log [.vacant s id]) := (Owing.refl st).log trivial
    exact ⟨_, (hlooked.trans h).bound _ b⟩
  | halt _ _ _ ih =>
    obtain ⟨os, h⟩ := ih
    exact ⟨os, h.child⟩
  | misfit _ _ _ hst ih =>
    obtain ⟨os, h⟩ := ih
    exact ⟨os, (h.stirs hst).child⟩
  | @call act i ts s st st₁ st₂ b fs o _ _ _ ih ih' =>
    obtain ⟨os, h⟩ := ih
    obtain ⟨os', h'⟩ := ih'
    have hcalled : Owing os (st.opened s) (st₁.log [.call b.typeName fs]) := h.log trivial
    exact ⟨_, (hcalled.trans h').child⟩
  | @invoke act i ts s st st₁ st₂ target key sig o _ _ _ _ _ ih ih' =>
    obtain ⟨os, h⟩ := ih
    obtain ⟨os', h'⟩ := ih'
    have hloaded : Owing os (st.opened s)
        ((st₁.loading act.engine.setup target).withResult none) :=
      (h.loading _ _).chain rfl rfl
    have hrun : Owing (os ++ os') (st.opened s) (st₂.withResult st₁.chain.result) :=
      (hloaded.trans h').chain rfl rfl
    exact ⟨_, hrun.child⟩
  | deed hd _ ih =>
    obtain ⟨os, h⟩ := Owing.deed hd
    obtain ⟨os', h'⟩ := ih
    exact ⟨_, h.trans h'⟩
  | again _ _ ih ih' =>
    obtain ⟨os, h⟩ := ih
    obtain ⟨os', h'⟩ := ih'
    exact ⟨_, h.trans h'⟩
  | unfound _ ih =>
    obtain ⟨os, h⟩ := ih
    exact ⟨_, ((Owing.refl _).loading _ _).child.trans h⟩
  | summon _ _ ih ih' =>
    obtain ⟨os, h⟩ := ih
    obtain ⟨os', h'⟩ := ih'
    exact ⟨_, (((Owing.refl _).loading _ _).trans h).child.trans h'⟩
  | root _ ih => exact ih
  | activate _ _ ih =>
    obtain ⟨os, h⟩ := ih
    obtain ⟨hc, n, n', es, hr, he⟩ := h.activation
    exact ⟨[], hc, _, he, hr.activation⟩

/-- An entity leaves the entries of one activation, or none where entities nest too deeply. -/
theorem Walk.owing_entity {act : Activation} {key : EntityKey} {s : ScopeId} {st st' : RunState}
    {o : Ending} (h : Walk act (.entity key) s st o st') :
    Owing [] st st' ∧ (o = .error .tooDeep ∧ st' = st ∨ ∃ name n n' os es, Released os es ∧
      st'.entries = st.entries ++ activationEntries key name n n' os es) := by
  cases h with
  | tooDeep => exact ⟨.refl st, .inl ⟨rfl, rfl⟩⟩
  | @activate _ act' _ _ _ _ _ hs hw =>
    obtain ⟨os, h⟩ := hw.owing
    obtain ⟨hc, n, n', es, hr, he⟩ := h.activation
    rw [hs.entity] at he
    exact ⟨⟨hc, _, he, hr.activation⟩, .inr ⟨act'.name, n, n', os, es, hr, he⟩⟩

/-- Between the two states everything that was opened was closed by the activation that opened it,
and flushed and closed once each. What was to be closed before still is. -/
structure Cleared (st st' : RunState) : Prop where
  closeables : st'.chain.closeables = st.chain.closeables
  journal : ∃ es, st'.entries = st.entries ++ es ∧ Released [] es ∧
    (es.filterMap Entry.closing?).Perm ((es.filterMap Entry.opened?).flatMap Closeable.parting)

theorem Owing.cleared {st st' : RunState} (h : Owing [] st st') : Cleared st st' := by
  obtain ⟨hc, es, he, hr⟩ := h
  exact ⟨hc, es, he, hr, by simpa using hr.perm⟩

namespace Engine

/-- The parameters of a run are bound without opening anything. -/
theorem owing_prepared (e : Engine) (name : String) (params : List (String × Value))
    (st : RunState) : Owing [] st (e.prepared name params st) := by
  have hload := (Owing.refl st).loading e.setup name
  have hstart : Owing [] st (e.started name st) := hload.log trivial
  exact hstart.chain rfl rfl

theorem owing_run (e : Engine) (depth : Nat) (name : String) (params : List (String × Value))
    (st : RunState) : (e.run depth name params).Ends st fun _ st' => Owing [] st st' := by
  rcases hl : ((e.setup.load name).run.run st.world).1 with err | key
  · rw [Exec.Ends, run_on_error hl]
    exact (Owing.refl st).loading e.setup name
  · rcases hx : (e.runEntity depth key st.scopes.size).on (e.prepared name params st) with ⟨r, st₁⟩
    rw [Exec.Ends, run_on_ok hl hx]
    have hw := (e.activation_walk depth st.world key key st.scopes.size).walk hx
    have hrun := (e.owing_prepared name params st).trans hw.owing_entity.1
    have hleft : Owing [] st (st₁.left st.scopes.size) := hrun.chain rfl rfl
    exact hleft.log trivial

/-- **What is opened is closed.** However it ends, an activation of an entity flushes and closes
what was opened in it, latest first and each thing once, right before its exit and after the
activations inside it did the same; whatever was to be closed before it began still is, in the same
order. So it is for a whole run. -/
theorem activations_close_what_they_open (e : Engine) (depth : Nat) (st : RunState) :
    (∀ key s, (e.runEntity depth key s).Ends st fun r st' => Cleared st st' ∧
      (r = .error .tooDeep ∧ st' = st ∨ ∃ name n n' os es, Released os es ∧
        st'.entries = st.entries ++ activationEntries key name n n' os es)) ∧
    ∀ name params, (e.run depth name params).Ends st fun _ st' => Cleared st st' := by
  refine ⟨fun key s => ?_, fun name params => ?_⟩
  · rcases hx : (e.runEntity depth key s).on st with ⟨r, st₁⟩
    have hw := (e.activation_walk depth st.world key key s).walk hx
    obtain ⟨howing, hentries⟩ := hw.owing_entity
    rw [Exec.Ends, hx]
    refine ⟨howing.cleared, hentries.imp_left ?_⟩
    rintro ⟨hr, hst⟩
    cases r with
    | error err =>
      obtain rfl : err = .tooDeep := Except.error.inj hr
      exact ⟨rfl, hst⟩
    | ok out => cases hr
  · have hrun := e.owing_run depth name params st
    rw [Exec.Ends] at hrun ⊢
    exact hrun.cleared

/-- The things that an entity and one inside it open, where one of them cannot be closed and the run
fails. -/
example :
    let e := Engine.ofSettings Probe.registry .template {}
    let main := "<scenario><closer name='a'/><inner/>" ++
      "<closer name='b' fail_close='true'/><fail/></scenario>"
    let inner := "<scenario><closer name='c'/></scenario>"
    let w := (({} : World).registerMemory 0 "main" main true).registerMemory 0 "inner" inner true
    ((e.run 10 "main" []).on ⟨w, {}⟩).2.world.journal.closings.map Closing.message =
      ["flush c", "close c", "flush b", "close b", "flush a", "close a"] := by decide +kernel

end Engine

end Scenario
