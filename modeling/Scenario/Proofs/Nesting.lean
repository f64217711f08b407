import Scenario.Proofs.Adequacy
import Scenario.Proofs.Arena
import Scenario.Proofs.Parsing

/-!
# A run leaves what it found

Whatever a run does and however it ends, it takes back what it put on the chain: the instructions it
started have stopped, the scopes it opened are left, innermost first, and every entry event in the
journal has its exit event.

* `Nested` — entries whose events are closed in the reverse of the order in which they were opened.
* `Kept` — the relation of the states before and after: same running instructions, as many live
  scopes with the same sequence numbers, and only nested entries added.
* **`Walk.kept`** — every walk keeps, by induction on the walk. The two rules with work in them are
  those of an instruction (`Kept.bracket`) and of a scope of one's own (`Kept.child`).

Beans are not restricted: whatever their actions ask for, and whether they end or fail.
-/

namespace Scenario

/-! ### Nested entries -/

/-- The second event ends what the first one began: the same run, entity or instruction, in the same
scope. -/
def Event.Pairs : Event → Event → Prop
  | .processStart s, .processEnd s' => s' = s
  | .entityEntry k n s, .entityExit k' n' s' => k' = k ∧ n' = n ∧ s' = s
  | .tagEntry m, .tagExit m' =>
    m'.entity = m.entity ∧ m'.node = m.node ∧ m'.tag = m.tag ∧ m'.scope = m.scope
  | _, _ => False

/-- What pairs are a run, an entity or an instruction. -/
theorem Event.Pairs.kinds {a b : Event} (h : a.Pairs b) :
    (∃ s s', a = .processStart s ∧ b = .processEnd s') ∨
    (∃ k n s k' n' s', a = .entityEntry k n s ∧ b = .entityExit k' n' s') ∨
      ∃ m m', a = .tagEntry m ∧ b = .tagExit m' := by
  cases a with
  | processStart s =>
    cases b with
    | processEnd s' => exact .inl ⟨s, s', rfl, rfl⟩
    | _ => exact h.elim
  | entityEntry k n s =>
    cases b with
    | entityExit k' n' s' => exact .inr (.inl ⟨k, n, s, k', n', s', rfl, rfl⟩)
    | _ => exact h.elim
  | tagEntry m =>
    cases b with
    | tagExit m' => exact .inr (.inr ⟨m, m', rfl, rfl⟩)
    | _ => exact h.elim
  | _ => exact h.elim

/-- Whether an entry of a journal is an event. -/
def Entry.isEvent : Entry → Bool
  | .event _ => true
  | _ => false

/-- Entries in which every event that begins something is closed by the one that ends it. Entries
that are no events stand anywhere. -/
inductive Nested : List Entry → Prop
  /-- Nothing happened. -/
  | nil : Nested []
  /-- Something happened that neither begins nor ends. -/
  | other {e : Entry} : e.isEvent = false → Nested [e]
  /-- Something began, and ended after everything inside it. -/
  | pair {a b : Event} {es : List Entry} : a.Pairs b → Nested es →
      Nested (.event a :: es ++ [.event b])
  /-- One thing happened after another. -/
  | append {es fs : List Entry} : Nested es → Nested fs → Nested (es ++ fs)

theorem nested_of_others {es : List Entry} (h : ∀ e ∈ es, e.isEvent = false) : Nested es := by
  induction es with
  | nil => exact .nil
  | cons e es ih =>
    rw [List.forall_mem_cons] at h
    exact .append (.other h.1) (ih h.2)

/-! ### Log and closing -/

/-- An entry about the log, about closing or about a name that was looked for in vain. -/
def Entry.Aside : Entry → Prop
  | .record _ | .closing _ | .vacant _ _ => True
  | _ => False

/-- The same, or a name was bound: nothing begins, ends, is called or returns. -/
def Entry.Idle : Entry → Prop
  | .record _ | .closing _ | .vacant _ _ | .bound _ _ => True
  | _ => False

theorem Entry.Aside.idle {e : Entry} (h : e.Aside) : e.Idle := by
  cases e with
  | record _ | closing _ | vacant _ _ => trivial
  | _ => exact h.elim

theorem Entry.Aside.isEvent_eq {e : Entry} (h : e.Aside) : e.isEvent = false := by
  cases e with
  | event _ => cases h
  | _ => rfl

theorem aside_records (rs : List Record) : ∀ e ∈ rs.map Entry.record, e.Aside := by
  simp [Entry.Aside]

/-- Closing leaves log records and notes about closing. -/
theorem Closeable.mem_farewells {cs : List Closeable} {e : Entry}
    (he : e ∈ cs.flatMap Closeable.farewell) : (∃ r, e = .record r) ∨ ∃ c, e = .closing c := by
  obtain ⟨c, -, he⟩ := List.mem_flatMap.1 he
  have hc : ∀ {message name error}, e ∈ complaint message name error → ∃ r, e = .record r := by
    intro message name error he
    obtain ⟨x, -, rfl⟩ := List.mem_map.1 he
    exact ⟨_, rfl⟩
  simp only [farewell, List.cons_append, List.mem_cons, List.mem_append] at he
  obtain rfl | he | rfl | he := he
  · exact .inr ⟨_, rfl⟩
  · exact .inl (hc he)
  · exact .inr ⟨_, rfl⟩
  · exact .inl (hc he)

theorem aside_farewells (cs : List Closeable) : ∀ e ∈ cs.flatMap Closeable.farewell, e.Aside := by
  intro e he
  obtain ⟨r, rfl⟩ | ⟨c, rfl⟩ := Closeable.mem_farewells he <;> trivial

theorem nested_of_aside {es : List Entry} (h : ∀ e ∈ es, e.Aside) : Nested es :=
  nested_of_others fun e he => (h e he).isEvent_eq

/-! ### What a run leaves as it was -/

theorem RunState.size_opened_pos (st : RunState) (s : ScopeId) : 0 < (st.opened s).scopes.size := by
  rw [scopes_opened, Arena.size_enter]
  exact Nat.succ_pos _

/-- The second state has the running instructions and the live scopes of the first one, no scope was
left while a later one was open, and what happened in between is nested. -/
structure Kept (st st' : RunState) : Prop where
  stack : st'.chain.stack = st.chain.stack
  size : st'.scopes.size = st.scopes.size
  orderly : st'.chain.misnested = st.chain.misnested
  seq : ∀ k, st'.scopes.seq k = st.scopes.seq k
  journal : ∃ es, st'.entries = st.entries ++ es ∧ Nested es

namespace Kept

variable {act : Activation} {s : ScopeId} {st st₁ st₂ : RunState}

theorem refl (st : RunState) : Kept st st := ⟨rfl, rfl, rfl, fun _ => rfl, [], by simp, .nil⟩

theorem trans (h : Kept st st₁) (h' : Kept st₁ st₂) : Kept st st₂ where
  stack := h'.stack.trans h.stack
  size := h'.size.trans h.size
  orderly := h'.orderly.trans h.orderly
  seq k := (h'.seq k).trans (h.seq k)
  journal := by
    obtain ⟨es, he, hn⟩ := h.journal
    obtain ⟨fs, hf, hm⟩ := h'.journal
    exact ⟨es ++ fs, by rw [hf, he, List.append_assoc], .append hn hm⟩

/-- A change that only adds to the journal. -/
theorem of_entries {es : List Entry} (hc : st₁.chain = st.chain)
    (he : st₁.entries = st.entries ++ es) (hn : Nested es) : Kept st st₁ where
  stack := by rw [hc]
  size := by rw [RunState.scopes, hc]; rfl
  orderly := by rw [hc]
  seq k := by rw [RunState.scopes, hc]; rfl
  journal := ⟨es, he, hn⟩

theorem log {es : List Entry} (hn : Nested es) (st : RunState) : Kept st (st.log es) :=
  of_entries rfl (st.entries_log es) hn

theorem withResult (st : RunState) (v : Option Value) : Kept st (st.withResult v) :=
  ⟨rfl, rfl, rfl, fun _ => rfl, [], by simp [RunState.entries, RunState.withResult], .nil⟩

/-- Asking for a resource writes log records only. -/
theorem loading (st : RunState) (setup : Setup) (name : String) :
    Kept st (st.loading setup name) := by
  obtain ⟨rs, h⟩ := setup.load_records name st.world
  exact of_entries rfl h (nested_of_aside (aside_records rs))

/-- A change of what one scope holds. -/
theorem touching {f : Arena → Arena} (h : Arena.Touched s st.scopes (f st.scopes)) :
    Kept st (st.mapScopes f) where
  stack := rfl
  size := h.size_eq
  orderly := rfl
  seq := h.seq_eq
  journal := ⟨[], by simp, .nil⟩

/-! ### Single changes -/

theorem stir (h : Stir act s st st₁) : Kept st st₁ := by
  cases h with
  | record r => exact log (.other rfl) st
  | locks l => exact of_entries rfl (by simp [RunState.entries, RunState.withLocks]) .nil
  | load name => exact loading st _ name
  | vacant id => exact log (.other rfl) st
  | branch ran => exact touching (Arena.touched_setInternal _ s _ _)
  | origin o => exact ⟨rfl, rfl, rfl, fun _ => rfl, [], by simp [RunState.entries], .nil⟩

theorem stirs (h : Stirs act s st st₁) : Kept st st₁ := by
  induction h with
  | refl => exact refl st
  | tail _ h ih => exact ih.trans (stir h)

theorem bound (st : RunState) (s : ScopeId) (b : Binding) : Kept st (st.bound s b) :=
  (touching (Arena.touched_replace _ s b.id b.origin b.value)).trans (log (.other rfl) _)

theorem binds {i : Instruction} (h : Binds act i s st st₁) : Kept st st₁ := by
  cases h with
  | result b _ => exact bound st _ b
  | parameter b _ => exact bound st s b

theorem deed {a a' : Action} (h : Deed act s st a a' st₁) : Kept st st₁ := by
  cases h with
  | look => exact refl st
  | write => exact log (.other rfl) st
  | note => exact log (.other rfl) st
  | setResult => exact withResult st _
  | returnEntity =>
    exact (touching (Arena.touched_setReturning _ _ true)).trans (log (.other rfl) _)
  | abort => exact ⟨rfl, rfl, rfl, fun _ => rfl, _, RunState.entries_log _ _, .other rfl⟩
  | register => exact ⟨rfl, rfl, rfl, fun _ => rfl, _, RunState.entries_log _ _, .other rfl⟩
  | allowOverwrite => exact touching (Arena.touched_setInternal _ _ _ _)

/-! ### Begin and end -/

/-- Something that has begun and ended. -/
theorem pair {a b : Event} (hab : a.Pairs b) (h : Kept (st.log [.event a]) st₁) :
    Kept st (st₁.log [.event b]) := by
  refine ⟨h.stack, h.size, h.orderly, h.seq, ?_⟩
  obtain ⟨es, he, hn⟩ := h.journal
  refine ⟨_, ?_, .pair hab hn⟩
  rw [RunState.entries_log, he, RunState.entries_log]
  simp

theorem pairs_tag {id : NodeId} {i : Instruction} (h : Kept (act.begun id i s st) st₁) :
    Event.Pairs (.tagEntry (act.moment id i (act.begun id i s st).chain s))
      (.tagExit (act.moment id i (act.ended id i s st₁).chain s)) := ⟨rfl, rfl, rfl, h.seq s⟩

theorem pairs_entity (h : Kept (act.entered s st) st₁) (mark : Nat) :
    Event.Pairs (.entityEntry act.entity act.name ((act.entered s st).scopes.seq s))
      (.entityExit act.entity act.name ((st₁.closed mark).scopes.seq s)) := ⟨rfl, rfl, h.seq s⟩

/-- An instruction that has begun and ended. -/
theorem bracket {id : NodeId} {i : Instruction} (h : Kept (act.begun id i s st) st₁) :
    Kept st (act.ended id i s st₁) := by
  have hpair := pair h.pairs_tag h
  refine ⟨?_, hpair.size, hpair.orderly, hpair.seq, hpair.journal⟩
  have hs : st₁.chain.stack = _ :: st.chain.stack := h.stack
  simp only [Activation.ended, RunState.chain_log, RunState.withStack, hs, List.tail_cons]

/-- A scope that was opened and left. Since what ran in it left nothing open, it was the last
one. -/
theorem child (hpos : 0 < st.scopes.size) (h : Kept (st.opened s) st₁) :
    Kept st (st₁.left st.scopes.size) := by
  have hsize : st₁.scopes.size = st.scopes.size + 1 := by
    rw [h.size, RunState.scopes_opened, Arena.size_enter]
  have hleft : (st₁.left st.scopes.size).scopes.size = st.scopes.size :=
    Arena.size_leave hpos (hsize ▸ Nat.le_succ _)
  refine ⟨h.stack, hleft, ?_, fun k => ?_, h.journal⟩
  · have ho : st₁.chain.misnested = st.chain.misnested := h.orderly
    have hlast : (st.scopes.size + 1 != st₁.chain.scopes.size) = false := by
      rw [RunState.scopes] at hsize
      simp [hsize]
    rw [RunState.left, hlast, Bool.or_false, ho]
  · by_cases hk : k < st.scopes.size
    · have hseq := h.seq k
      simp only [RunState.scopes_opened, Arena.seq, Arena.frame_enter (Nat.ne_of_lt hk)] at hseq
      simpa only [RunState.scopes_left, Arena.seq, Arena.frame_leave hk] using hseq
    · have hk := Nat.le_of_not_lt hk
      have hk' : (st₁.left st.scopes.size).scopes.size ≤ k := by rwa [hleft]
      rw [Arena.seq, Arena.seq, Arena.frame_of_size_le hk, Arena.frame_of_size_le hk']

theorem closed (st : RunState) (mark : Nat) : Kept st (st.closed mark) :=
  ⟨rfl, rfl, rfl, fun _ => rfl, _, RunState.entries_log _ _,
    nested_of_aside (aside_farewells _)⟩

/-- An entity that has begun and ended. -/
theorem activation {mark : Nat} (h : Kept (act.entered s st) st₁) :
    Kept st (act.exited s mark st₁) := by
  have hpair := pair (h.pairs_entity mark) (h.trans (closed st₁ mark))
  refine ⟨hpair.stack, hpair.size.trans (Arena.size_bindEntity _ s _), hpair.orderly, fun k => ?_,
    hpair.journal⟩
  exact (hpair.seq k).trans (Arena.seq_bindEntity _ s _ k)

/-- The parameters of a run are bound in a scope. -/
theorem params (ps : List (String × Value)) (s : ScopeId) (st : RunState) :
    Kept st (st.mapScopes fun a => ps.foldl (fun a p => (a.replace s p.1 none p.2).2) a) := by
  induction ps generalizing st with
  | nil => exact refl st
  | cons p ps ih =>
    have hp : Kept st (st.mapScopes fun a => (a.replace s p.1 none p.2).2) :=
      touching (Arena.touched_replace _ s p.1 none p.2)
    exact hp.trans (ih _)

end Kept

/-! ### Walks and runs -/

/-- **Every walk keeps**, as long as the root scope lives. -/
theorem Walk.kept {act : Activation} {task : Task} {s : ScopeId} {st st' : RunState} {o : Ending}
    (h : Walk act task s st o st') : 0 < st.scopes.size → Kept st st' := by
  -- the root lives on after every part of a walk, since a part keeps the number of scopes
  have onward : ∀ {st st₁ : RunState}, Kept st st₁ → 0 < st.scopes.size → 0 < st₁.scopes.size :=
    fun h hpos => h.size ▸ hpos
  have inner : ∀ {st : RunState} {s : ScopeId}, 0 < (st.opened s).scopes.size :=
    fun {st s} => st.size_opened_pos s
  induction h with
  | nil | pass | done | fail | empty | missing | tooDeep => exact fun _ => .refl _
  | next _ _ ih ih' => exact fun hpos => (ih hpos).trans (ih' (onward (ih hpos) hpos))
  | stop _ _ ih => exact ih
  | node _ _ ih => exact fun hpos => .bracket (ih hpos)
  | blamed _ _ _ hst ih => exact fun hpos => .bracket ((ih hpos).trans (.stirs hst))
  | alone hst _ => exact fun _ => .stirs hst
  | inside _ _ hst _ ih =>
    exact fun hpos => (Kept.stirs hst).trans (ih (onward (.stirs hst) hpos))
  | take _ _ ih => exact fun hpos => (ih hpos).trans (.withResult _ _)
  | settle _ hst ih => exact fun hpos => (ih hpos).trans (.stirs hst)
  | bind _ _ hb ih => exact fun hpos => (ih hpos).trans (.binds hb)
  | refuse _ _ ih => exact ih
  | @fallback act i ts s st st₁ name id sig b _ _ _ _ ih =>
    intro hpos
    have hlooked : Kept st (st.log [.vacant s id]) := .log (.other rfl) st
    exact (hlooked.trans (ih hpos)).trans (.bound st₁ _ b)
  | halt _ _ _ ih => exact fun hpos => .child hpos (ih inner)
  | misfit _ _ _ hst ih => exact fun hpos => .child hpos ((ih inner).trans (.stirs hst))
  | @call _ _ _ s st st₁ _ b fs _ _ _ _ ih ih' =>
    intro hpos
    have hcalled : Kept (st.opened s) (st₁.log [.call b.typeName fs]) :=
      (ih inner).trans (.log (.other rfl) _)
    exact .child hpos (hcalled.trans (ih' (onward hcalled inner)))
  | @invoke act _ _ s st st₁ st₂ target _ _ _ _ _ _ _ _ ih ih' =>
    intro hpos
    have hloaded : Kept (st.opened s) ((st₁.loading act.engine.setup target).withResult none) :=
      ((ih inner).trans (.loading _ _ _)).trans (.withResult _ none)
    have hrun := (hloaded.trans (ih' (onward hloaded inner))).trans (.withResult _ st₁.chain.result)
    exact .child hpos hrun
  | deed hd _ ih => exact fun hpos => (Kept.deed hd).trans (ih (onward (.deed hd) hpos))
  | again _ _ ih ih' => exact fun hpos => (ih hpos).trans (ih' (onward (ih hpos) hpos))
  | @unfound act name _ _ s st _ _ _ _ ih =>
    intro hpos
    have hchild := Kept.child hpos (.loading (st.opened s) act.engine.setup name)
    exact hchild.trans (ih (onward hchild hpos))
  | @summon act name _ _ s st _ _ _ _ _ _ _ ih ih' =>
    intro hpos
    have hloaded := Kept.loading (st.opened s) act.engine.setup name
    have hchild := Kept.child hpos (hloaded.trans (ih (onward hloaded inner)))
    exact hchild.trans (ih' (onward hchild hpos))
  | root _ ih => exact ih
  | activate _ _ ih =>
    intro hpos
    refine .activation (ih ?_)
    rw [Activation.entered, RunState.scopes_log, RunState.scopes_mapScopes, Arena.size_bindEntity]
    exact hpos

/-- A step that is a walk keeps. -/
theorem Activation.Follows.kept {α : Type} {act : Activation} {task : Task} {s : ScopeId}
    {x : Exec α} {sig : α → Signal} {st : RunState} (h : act.Follows task s x sig)
    (hpos : 0 < st.scopes.size) : x.Ends st fun _ st' => Kept st st' :=
  (h st).kept hpos

namespace Engine

theorem kept_runEntity (e : Engine) (depth : Nat) (key : EntityKey) (s : ScopeId) {st : RunState}
    (hpos : 0 < st.scopes.size) : (e.runEntity depth key s).Ends st fun _ st' => Kept st st' :=
  (e.activation_walk depth st.world key key s).kept hpos

theorem size_prepared_pos (e : Engine) (name : String) (params : List (String × Value))
    (st : RunState) : 0 < (e.prepared name params st).scopes.size := by
  have hprep : Kept ((e.started name st).opened Arena.root) (e.prepared name params st) :=
    .params params st.scopes.size _
  rw [hprep.size]
  exact RunState.size_opened_pos _ _

/-- What happens in the scope of a run. -/
theorem kept_started {e : Engine} {depth : Nat} {name : String} {params : List (String × Value)}
    {key : EntityKey} {st st₁ : RunState} {r : Except EngineError Outcome}
    (hpos : 0 < st.scopes.size)
    (hx : (e.runEntity depth key st.scopes.size).on (e.prepared name params st) = (r, st₁)) :
    Kept (e.started name st) (st₁.left st.scopes.size) := by
  have hrun := e.kept_runEntity depth key st.scopes.size (e.size_prepared_pos name params st)
  rw [Exec.Ends, hx] at hrun
  have hprep : Kept ((e.started name st).opened Arena.root) (e.prepared name params st) :=
    .params params st.scopes.size _
  have hchild : Kept (e.started name st) (st₁.left (e.started name st).scopes.size) :=
    .child hpos (hprep.trans hrun)
  exact hchild

theorem kept_run (e : Engine) (depth : Nat) (name : String) (params : List (String × Value))
    {st : RunState} (hpos : 0 < st.scopes.size) :
    (e.run depth name params).Ends st fun _ st' => Kept st st' := by
  have hload := Kept.loading st e.setup name
  rcases hl : ((e.setup.load name).run.run st.world).1 with err | key
  · rw [Exec.Ends, run_on_error hl]
    exact hload
  · rcases hx : (e.runEntity depth key st.scopes.size).on (e.prepared name params st) with ⟨r, st₁⟩
    rw [Exec.Ends, run_on_ok hl hx]
    have hin := kept_started hpos hx
    have hab : Event.Pairs (.processStart ((st.loading e.setup name).scopes.seq Arena.root))
        (.processEnd ((st₁.left st.scopes.size).scopes.seq Arena.root)) := hin.seq Arena.root
    exact hload.trans (.pair hab hin)

/-- **A run leaves what it found.** From any chain whose root scope lives, and however it ends, a
run of a resource, of an entity or of a program in an activation stops what it started, leaves the
scopes it opened in the reverse order, and adds nested entries to the journal. -/
theorem run_leaves_as_found (e : Engine) (depth : Nat) (st : RunState)
    (hpos : 0 < st.scopes.size) :
    (∀ name params, (e.run depth name params).Ends st fun _ st' => Kept st st') ∧
    (∀ key s, (e.runEntity depth key s).Ends st fun _ st' => Kept st st') ∧
    ∀ w key p s, ((e.activation (e.runEntity depth) w key).exec p s).Ends st fun _ st' =>
      Kept st st' := by
  refine ⟨fun name params => e.kept_run depth name params hpos,
    fun key s => e.kept_runEntity depth key s hpos, fun w key p s => ?_⟩
  exact (Activation.exec_walk (e.activation_walk depth w key) p s).kept hpos

/-- An entity that calls itself over and over leaves everything as it was. -/
theorem run_leaves_as_found_self_call :
    let e := Engine.ofSettings Builtin.registry .template {}
    let w : World :=
      ({} : World).registerMemory 0 "main" "<scenario><log><main/></log></scenario>" true
    let st : RunState := ⟨w, {}⟩
    0 < st.scopes.size ∧ (e.run 10 "main" []).Ends st fun _ st' => Kept st st' :=
  ⟨by decide, (run_leaves_as_found _ 10 _ (by decide)).1 "main" []⟩

end Engine

end Scenario
