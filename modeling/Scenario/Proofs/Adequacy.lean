import Scenario.Proofs.Walk

/-!
# Every run is a walk

Each part of an instruction is opened once, by rewriting with what its steps give, and matched with
the rules of `Walk`. The recursion of the engine gives three inductions: on the requests of a bean
(`perform_walk`), on the program (`exec_walk`) and on the depth of nested entities
(**`runEntity_walk`**).
-/

namespace Scenario

namespace Activation

open Exec

variable {act : Activation} {i : Instruction} {s : ScopeId} {ts : List Program}
  {kids : ScopeId → Exec Children} {α : Type}

/-! ### Parts of an instruction -/

/-- A step that runs a task is a walk. -/
def Follows (act : Activation) (task : Task) (s : ScopeId) (x : Exec α) (sig : α → Signal) : Prop :=
  ∀ st, x.Ends st fun r st' => Walk act task s st (r.map sig) st'

theorem Follows.walk {task : Task} {x : Exec α} {sig : α → Signal} {st st' : RunState}
    {r : Except EngineError α} (h : act.Follows task s x sig) (hx : x.on st = (r, st')) :
    Walk act task s st (r.map sig) st' := by
  have := h st
  rwa [Ends, hx] at this

/-- A name is bound, one that is new if that was to be checked, or nothing has changed. -/
theorem bindResult_on (act : Activation) (i : Instruction) (s : ScopeId) (b : ResultId)
    (v : Option Value) (check : Bool) (st : RunState) :
    (∃ b' : Binding, (act.bindResult i s b v check).on st =
        (.ok (), st.bound (act.entityScope st.scopes s) b') ∧
        (check = true → st.scopes.has (act.entityScope st.scopes s) b'.id = false)) ∨
      ∃ e, (act.bindResult i s b v check).on st = (.error e, st) := by
  simp only [bindResult, on_bind, on_scopes, on_orFail]
  cases b.key st.scopes s with
  | error cause => exact .inr ⟨_, rfl⟩
  | ok id =>
    simp only [mapError_ok, Arena.set]
    by_cases hc : (check && st.scopes.has (act.entityScope st.scopes s) id) = true
    · rw [if_pos hc]; exact .inr ⟨_, rfl⟩
    · rw [if_neg hc]
      refine .inl ⟨⟨id, v.getD .null, some i.name⟩, rfl, fun hcheck => ?_⟩
      simpa [hcheck] using hc

theorem publish_on (act : Activation) (i : Instruction) (s : ScopeId) (b : ResultId)
    (v : Option Value) (st : RunState) :
    (∃ st', (act.publish i s b v).on st = (.ok (), st') ∧ Binds act i s st st') ∨
      ∃ e, (act.publish i s b v).on st = (.error e, st) := by
  simp only [publish, on_bind, on_scopes]
  obtain ⟨b', h, hnew⟩ | h := act.bindResult_on i s b v
    (!st.scopes.overwriteAllowed (act.entityScope st.scopes s)) st
  · exact .inl ⟨_, h, .result b' fun hoff => hnew (by simp [hoff])⟩
  · exact .inr h

/-- A fallback fails to get its name, gives way, or finds no value. -/
theorem givesWay_on (i : Instruction) (s : ScopeId) (st : RunState) :
    (∃ e, (givesWay i s).on st = (.error e, st)) ∨ (givesWay i s).on st = (.ok true, st) ∨
      (i.binding = none ∧ (givesWay i s).on st = (.ok false, st)) ∨
      ∃ id, hasValue st.scopes s id = false ∧
        (givesWay i s).on st = (.ok false, st.log [.vacant s id]) := by
  unfold givesWay
  cases i.binding with
  | none => exact .inr (.inr (.inl ⟨rfl, rfl⟩))
  | some b =>
    simp only [on_bind, on_scopes, on_orFail]
    cases b.key st.scopes s with
    | error cause => exact .inl ⟨_, rfl⟩
    | ok id =>
      simp only [mapError_ok]
      by_cases hv : hasValue st.scopes s id = true
      · rw [if_pos hv]; exact .inr (.inl rfl)
      · rw [if_neg hv]; exact .inr (.inr (.inr ⟨id, by simpa using hv, rfl⟩))

theorem blame_on (act : Activation) (i : Instruction) (s : ScopeId) (e : EngineError)
    (st : RunState) :
    ∃ e' st', (act.blame i s e).on st = (.ok e', st') ∧ Stirs act s st st' := by
  by_cases ho : st.chain.origin.isNone
  · have noted : ∀ o, Stirs act s st { st with chain := { st.chain with origin := some o } } :=
      fun o => .single (.origin o)
    simp only [blame, on_bind, on_chain, ho, if_true, on_modifyChain]
    cases e with
    | action causes => exact ⟨_, _, rfl, (noted _).tail (.record _)⟩
    | parse _ | conflict _ | runtime _ | tooDeep => exact ⟨_, _, rfl, noted _⟩
  · simp only [blame, on_bind, on_chain, ho]
    cases e with
    | action causes => exact ⟨_, _, rfl, .single (.record _)⟩
    | parse _ | conflict _ | runtime _ | tooDeep => exact ⟨_, _, rfl, .refl⟩

theorem skip_walk (act : Activation) (i : Instruction) (s : ScopeId) (ts : List Program) :
    act.Follows (.body i ts) s (skip i s) fun _ => .none := by
  intro st
  have quiet : ∀ sig : Signal, (Except.ok Signal.none : Ending) = .ok sig → sig = .none := by
    rintro _ ⟨⟩; rfl
  unfold skip
  split
  · exact .alone (.single (.branch false)) quiet
  · exact .alone .refl (by rintro _ ⟨⟩)
  · exact .alone .refl quiet

theorem runBranch_walk (hi : i.tag.encloses = true)
    (hu : ∀ a, s = act.childScope i.tag a s)
    (hk : ∀ u, act.Follows (.all ts) u (kids u) Children.signal) :
    act.Follows (.body i ts) s (runBranch s kids) Outcome.signal := by
  intro st
  simp only [runBranch, ends_bind]
  rcases hx : (kids s).on st with ⟨e | cs, st₁⟩
  · exact .inside hi (hu _) .refl ((hk s).walk hx)
  · exact .settle (.inside hi (hu _) .refl ((hk s).walk hx)) (.single (.branch true))

/-- A step in a scope of its own, seen from outside. -/
theorem ends_inChildScope {f : ScopeId → Exec α} {st : RunState}
    {P : Except EngineError α → RunState → Prop} :
    (inChildScope s f).Ends st P ↔
      (f st.scopes.size).Ends (st.opened s) fun r st' => P r (st'.left st.scopes.size) := Iff.rfl

/-- What a data tag binds. A fallback binds without a check, which is a rule of its own. -/
theorem storeData_walk {st st₁ : RunState} {cs : Children} {name : String} {mode : DataMode}
    {fallback : Bool} (ht : i.tag = .data name mode fallback)
    (hw : Walk act (.body i ts) s st (.ok cs.signal) st₁)
    (hfall : fallback = true → mode = .entry → i.binding ≠ none → cs.signal ≠ .abort →
      ∀ b, Walk act (.body i ts) s st (.ok cs.signal)
        (st₁.bound (act.entityScope st₁.scopes s) b)) :
    (act.storeData i s name mode fallback cs).Ends st₁ fun r st' =>
      Walk act (.body i ts) s st (r.map Outcome.signal) st' := by
  by_cases hc : cs.signal = .abort
  · simp only [storeData, hc, if_true, ends_pure]
    rw [hc] at hw
    exact hw
  · simp only [storeData, hc, if_false]
    cases mode with
    | sub => exact hw
    | parameter => exact .bind hw hc (.parameter _ ht)
    | entry =>
      cases hb : i.binding with
      | none => exact hw
      | some b =>
        cases fallback with
        | true =>
          simp only [if_true, ends_bind]
          obtain ⟨b', h, -⟩ | ⟨e, h⟩ :=
            act.bindResult_on i s b (Output.aggregate cs.results) false st₁
          · rw [h]; exact hfall rfl rfl (by simp [hb]) hc b'
          · rw [h]; exact .refuse hw hc
        | false =>
          simp only [Bool.false_eq_true, if_false, ends_bind]
          obtain ⟨st', h, hbind⟩ | ⟨e, h⟩ := act.publish_on i s b (Output.aggregate cs.results) st₁
          · rw [h]; exact .bind hw hc hbind
          · rw [h]; exact .refuse hw hc

/-- A data tag that does not give way runs what is below it and stores what that gives. -/
theorem runChildren_walk {st st₁ : RunState} {name : String} {mode : DataMode} {fallback : Bool}
    (ht : i.tag = .data name mode fallback)
    (hk : ∀ u, act.Follows (.all ts) u (kids u) Children.signal) (hst : Stirs act s st st₁)
    (hscopes : st₁.scopes = st.scopes)
    (hfall : fallback = true → i.binding ≠ none → ∃ id, st₁ = st.log [.vacant s id] ∧
      hasValue st.scopes s id = false) :
    (kids (if mode = .parameter then act.entityScope st₁.scopes s else s) >>=
        act.storeData i s name mode fallback).Ends st₁
      fun r st' => Walk act (.body i ts) s st (r.map Outcome.signal) st' := by
  have hi : i.tag.encloses = true := by rw [ht]; rfl
  have hu : (if mode = .parameter then act.entityScope st₁.scopes s else s) =
      act.childScope i.tag st.scopes s := by
    rw [hscopes, ht]
    cases mode <;> rfl
  rw [ends_bind]
  rcases hx : (kids (if mode = .parameter then act.entityScope st₁.scopes s else s)).on st₁ with
    ⟨e | cs, st₂⟩
  · exact .inside hi hu hst ((hk _).walk hx)
  · refine storeData_walk ht (.inside hi hu hst ((hk _).walk hx)) ?_
    rintro rfl rfl hb hc b
    obtain ⟨id, rfl, hv⟩ := hfall rfl hb
    have hw := (hk _).walk hx
    exact .fallback b ht hv hw hc

theorem runData_walk (hk : ∀ u, act.Follows (.all ts) u (kids u) Children.signal) {name : String}
    {mode : DataMode} {fallback : Bool} (ht : i.tag = .data name mode fallback) :
    act.Follows (.body i ts) s (act.runData i s name mode fallback kids) Outcome.signal := by
  intro st
  unfold runData
  rw [ends_bind]
  cases fallback with
  | false =>
    simp only [Bool.false_eq_true, if_false, on_pure, ends_bind, on_scopes]
    exact ends_bind.1 (runChildren_walk ht hk .refl rfl (by rintro ⟨⟩))
  | true =>
    simp only [if_true]
    obtain ⟨e, h⟩ | h | ⟨hb, h⟩ | ⟨id, hv, h⟩ := givesWay_on i s st
    · rw [h]; exact .alone .refl (by rintro _ ⟨⟩)
    · rw [h]; exact .alone .refl (by rintro _ ⟨⟩; rfl)
    · rw [h]
      simp only [Bool.false_eq_true, if_false, ends_bind, on_scopes]
      exact ends_bind.1 (runChildren_walk ht hk .refl rfl fun _ hsome => absurd hb hsome)
    · rw [h]
      simp only [Bool.false_eq_true, if_false, ends_bind, on_scopes]
      exact ends_bind.1 (runChildren_walk ht hk (.single (.vacant id)) rfl fun _ _ => ⟨id, rfl, hv⟩)

theorem runLocked_on_error {name : String} {millis : Nat} {locks : LockTable} {err : LockTimeout}
    {st : RunState} (hq : st.world.locks.acquire st.chain.thread name millis = (locks, .error err))
    (kids : ScopeId → Exec Children) :
    (runLocked s name millis kids).on st =
      (.error (.action [err.message]), (st.awaiting name).withLocks locks) := by
  have hq' : (st.awaiting name).world.locks.acquire (st.awaiting name).chain.thread name millis =
      (locks, .error err) := hq
  rw [RunState.awaiting] at hq' ⊢
  simp only [runLocked, on_bind, on_write, on_get, hq', on_setLocks]
  rfl

theorem runLocked_on_ok {name : String} {millis : Nat} {locks : LockTable} {g : LockGuard}
    {st st₁ : RunState} {r : Except EngineError Children}
    (hq : st.world.locks.acquire st.chain.thread name millis = (locks, .ok g))
    (hx : (kids s).on (st.locked name locks) = (r, st₁)) :
    (runLocked s name millis kids).on st = (r.map Children.toOutcome, st₁.unlocked name g) := by
  have hq' : (st.awaiting name).world.locks.acquire (st.awaiting name).chain.thread name millis =
      (locks, .ok g) := hq
  rw [RunState.locked] at hx
  rw [RunState.awaiting] at hq' hx
  simp only [runLocked, on_bind, on_write, on_get, hq', on_setLocks, on_attempt, hx, on_releaseLock,
    on_ofExcept]
  cases r <;> rfl

/-- A lock was waited for in vain, or not even waited for. -/
def Unlocked (st u : RunState) : Prop := u = st ∨ ∃ name l, u = (st.awaiting name).withLocks l

theorem Unlocked.chain_eq {st u : RunState} (h : Unlocked st u) : u.chain = st.chain := by
  obtain rfl | ⟨name, l, rfl⟩ := h <;> rfl

/-- A mutex fails in front of what is below it, whatever that is, or holds the lock meanwhile. -/
theorem runMutex_on (act : Activation) (s : ScopeId) (name timeout : Option Compiled)
    (st : RunState) :
    (∃ causes u, Unlocked st u ∧
      ∀ kids, (act.runMutex s name timeout kids).on st = (.error (.action causes), u)) ∨
    ∃ text millis locks g, mutexName name st.scopes s = .ok text ∧
      act.mutexTimeout timeout st.scopes s = .ok millis ∧
      st.world.locks.acquire st.chain.thread text millis = (locks, .ok g) ∧
      ∀ {kids r st₁}, (kids s).on (st.locked text locks) = (r, st₁) →
        (act.runMutex s name timeout kids).on st =
          (r.map Children.toOutcome, st₁.unlocked text g) := by
  cases hname : mutexName name st.scopes s with
  | error cause =>
    refine .inl ⟨[cause], st, .inl rfl, fun kids => ?_⟩
    simp only [runMutex, on_bind, on_scopes, on_orFail, hname, mapError_error]
  | ok text =>
    cases htime : act.mutexTimeout timeout st.scopes s with
    | error cause =>
      refine .inl ⟨[cause], st, .inl rfl, fun kids => ?_⟩
      simp only [runMutex, on_bind, on_scopes, on_orFail, hname, htime, mapError_ok, mapError_error]
    | ok millis =>
      have hon : ∀ kids, (act.runMutex s name timeout kids).on st =
          (runLocked s text millis kids).on st := by
        intro kids
        simp only [runMutex, on_bind, on_scopes, on_orFail, hname, htime, mapError_ok]
      rcases hq : st.world.locks.acquire st.chain.thread text millis with ⟨locks, err | g⟩
      · refine .inl ⟨[err.message], _, .inr ⟨text, locks, rfl⟩, fun kids => ?_⟩
        exact (hon kids).trans (runLocked_on_error hq kids)
      · refine .inr ⟨text, millis, locks, g, rfl, rfl, hq, fun {kids r st₁} hx => ?_⟩
        exact (hon kids).trans (runLocked_on_ok hq hx)

/-- A locked section: the locks and the log change before and after what is inside. -/
theorem runMutex_walk (hi : i.tag.encloses = true) (hu : ∀ a, s = act.childScope i.tag a s)
    (hk : ∀ u, act.Follows (.all ts) u (kids u) Children.signal) (name timeout : Option Compiled) :
    act.Follows (.body i ts) s (act.runMutex s name timeout kids) Outcome.signal := by
  intro st
  have waiting : ∀ text l, Stirs act s st ((st.awaiting text).withLocks l) :=
    fun _ l => (Relation.ReflTransGen.single (.record _)).tail (.locks l)
  obtain ⟨causes, u, hun, hon⟩ | ⟨text, millis, locks, g, -, -, -, hon⟩ :=
    act.runMutex_on s name timeout st
  · rw [Ends, hon]
    obtain rfl | ⟨text, l, rfl⟩ := hun
    · exact .alone .refl (by rintro _ ⟨⟩)
    · exact .alone (waiting text l) (by rintro _ ⟨⟩)
  · have holding : Stirs act s st (st.locked text locks) := (waiting text locks).tail (.record _)
    rcases hx : (kids s).on (st.locked text locks) with ⟨r, st₁⟩
    have leaving : Stirs act s st₁ (st₁.unlocked text g) :=
      (Relation.ReflTransGen.single (.locks _)).tail (.record _)
    have hw := Walk.settle (.inside hi (hu _) holding ((hk s).walk hx)) leaving
    rw [Ends, hon hx]
    cases r <;> exact hw

theorem runInvoke_walk (hk : ∀ u, act.Follows (.all ts) u (kids u) Children.signal)
    (hrun : ∀ key u, act.Follows (.entity key) u (act.run key u) Outcome.signal) {target : String}
    (ht : i.tag = .invoke target) :
    act.Follows (.body i ts) s (act.runInvoke s target kids) Outcome.signal := by
  intro st
  have hcalls : i.tag.calls = true := by rw [ht]; rfl
  rw [runInvoke, ends_inChildScope, ends_bind]
  rcases hx : (kids st.scopes.size).on (st.opened s) with ⟨e | cs, st₁⟩
  · exact .halt hcalls ((hk _).walk hx) (by rintro _ ⟨⟩)
  · have hw : Walk act _ _ _ (.ok cs.signal) st₁ := (hk _).walk hx
    by_cases hc : cs.signal = .abort
    · simp only [hc, if_true, ends_pure]
      rw [hc] at hw
      exact .halt hcalls hw (by rintro _ ⟨⟩; simp [ht, Tag.haltedBy])
    · simp only [hc, if_false, ends_bind, on_load, on_chain, on_setResult, on_attempt]
      rcases hl : ((act.engine.setup.load target).run.run st₁.world).1 with e | key
      · exact .misfit hcalls hw hc (.single (.load target))
      · have := Walk.invoke ht hw hc hl (hrun key _ _)
        exact this

theorem runBean_walk (hk : ∀ u, act.Follows (.all ts) u (kids u) Children.signal)
    (hperform : ∀ a u, act.Follows (.deed a ts) u (act.perform u kids a) fun _ => .none) {b : Bean}
    (ht : i.tag = .bean b) :
    act.Follows (.body i ts) s (act.runBean i s b kids) Outcome.signal := by
  intro st
  have hcalls : i.tag.calls = true := by rw [ht]; rfl
  rw [runBean, ends_inChildScope, ends_bind]
  rcases hx : (kids st.scopes.size).on (st.opened s) with ⟨e | cs, st₁⟩
  · exact .halt hcalls ((hk _).walk hx) (by rintro _ ⟨⟩)
  · have hw : Walk act _ _ _ (.ok cs.signal) st₁ := (hk _).walk hx
    by_cases hc : cs.signal = .none
    · rw [hc] at hw
      simp only [hc, ne_eq, not_true, if_false, ends_bind, on_scopes, on_orFail]
      generalize b.schema.bind _ _ _ _ = bound
      rcases bound with m | fs
      · exact .misfit hcalls hw (by decide) .refl
      · simp only [mapError_ok, on_enter]
        rcases hp : (act.perform st.scopes.size kids (b.act fs)).on
          (st₁.log [.call b.typeName fs]) with ⟨e | v, st₂⟩
        · exact .call ht hw ((hperform _ _).walk hp)
        · exact .call ht hw ((hperform _ _).walk hp)
    · simp only [ne_eq, hc, not_false_eq_true, if_true, ends_pure]
      exact .halt hcalls hw (by rintro _ ⟨⟩; simp [ht, Tag.haltedBy, hc])

/-- The action of a bean is a walk: by recursion on the requests that are left of it. -/
theorem perform_walk (hk : ∀ u, act.Follows (.all ts) u (kids u) Children.signal)
    (hrun : ∀ key u, act.Follows (.entity key) u (act.run key u) Outcome.signal) :
    ∀ (a : Action) (u : ScopeId), act.Follows (.deed a ts) u (act.perform u kids a) fun _ => .none
  | .done _, _ => fun _ => .done
  | .fail _, _ => fun _ => .fail
  | .look next, u => fun st => .deed .look (perform_walk hk hrun (next (act.view st.chain u)) u st)
  | .write r next, u => fun st => .deed .write (perform_walk hk hrun next u (st.log [.record r]))
  | .note fs next, u => fun st => .deed .note (perform_walk hk hrun next u (st.log [.note fs]))
  | .setResult _ next, u => fun _ => .deed .setResult (perform_walk hk hrun next u _)
  | .returnEntity next, u => fun _ => .deed .returnEntity (perform_walk hk hrun next u _)
  | .abort next, u => fun _ => .deed .abort (perform_walk hk hrun next u _)
  | .register _ next, u => fun _ => .deed .register (perform_walk hk hrun next u _)
  | .allowOverwrite _ next, u => fun _ => .deed .allowOverwrite (perform_walk hk hrun next u _)
  | .children next, u => fun st =>
    .again ((hk u).walk rfl) (perform_walk hk hrun (next ((kids u).on st).1) u ((kids u).on st).2)
  | .invoke name next, u => by
    intro st
    simp only [perform, ends_bind, on_attempt, on_inChildScope, on_bind, on_load]
    rcases hl : ((act.engine.setup.load name).run.run (st.opened u).world).1 with e | key
    · have := perform_walk hk hrun (next (.error (.parse e))) u
        (((st.opened u).loading act.engine.setup name).left st.scopes.size)
      exact .unfound this
    · rcases hx : (act.run key st.scopes.size).on
        ((st.opened u).loading act.engine.setup name) with ⟨r, st₁⟩
      have := perform_walk hk hrun (next r) u (st₁.left st.scopes.size)
      simp only [mapError_ok, hx]
      exact .summon ((hrun key _).walk hx) this

/-! ### Instructions -/

theorem runTag_walk (hk : ∀ u, act.Follows (.all ts) u (kids u) Children.signal)
    (hrun : ∀ key u, act.Follows (.entity key) u (act.run key u) Outcome.signal) :
    act.Follows (.body i ts) s (act.runTag i s kids) Outcome.signal := by
  intro st
  have quiet : Walk act (.body i ts) s st (.ok .none) st := .alone .refl (by rintro _ ⟨⟩; rfl)
  unfold runTag
  split
  · -- the usual root
    rename_i h
    have hi : i.tag.encloses = true := by rw [h]; rfl
    have hu : s = act.childScope i.tag st.scopes s := by rw [h]; rfl
    simp only [ends_bind]
    rcases hx : (kids s).on st with ⟨e | cs, st₁⟩
    · exact .inside hi hu .refl ((hk s).walk hx)
    · exact .take ‹_› ((hk s).walk hx)
  · rename_i h
    have hi : i.tag.encloses = true := by rw [h]; rfl
    have hu : s = act.childScope i.tag st.scopes s := by rw [h]; rfl
    simp only [ends_bind]
    rcases hx : (kids s).on st with ⟨e | cs, st₁⟩
    · exact .inside hi hu .refl ((hk s).walk hx)
    · exact .inside hi hu .refl ((hk s).walk hx)
  · rename_i h
    exact runData_walk hk h st
  · exact quiet
  · -- the value of an expression
    rename_i e _
    simp only [ends_bind, on_scopes, on_orFail]
    rcases e.eval st.scopes s with c | v
    · exact .alone .refl (by rintro _ ⟨⟩)
    · simp only [mapError_ok]
      by_cases hv : v.isNull = true
      · simp only [hv]; exact quiet
      · simp only [hv]; exact quiet
  · rename_i h
    exact runBranch_walk (by rw [h]; rfl) (fun _ => by rw [h]; rfl) hk st
  · rename_i h
    simp only [ends_bind, on_scopes]
    by_cases hr : branchRan st.scopes s = true
    · simp only [hr, if_true]; exact quiet
    · simp only [hr]; exact runBranch_walk (by rw [h]; rfl) (fun _ => by rw [h]; rfl) hk st
  · rename_i h
    exact runMutex_walk (by rw [h]; rfl) (fun _ => by rw [h]; rfl) hk _ _ st
  · exact runInvoke_walk hk hrun ‹_› st
  · exact runBean_walk hk (perform_walk hk hrun) ‹_› st
  · exact quiet

theorem runNode_walk (hk : ∀ u, act.Follows (.all ts) u (kids u) Children.signal)
    (hrun : ∀ key u, act.Follows (.entity key) u (act.run key u) Outcome.signal) :
    act.Follows (.body i ts) s (act.runNode i s kids) Outcome.signal := by
  intro st
  simp only [runNode, ends_bind, on_scopes, on_orFail]
  rcases allowed i st.scopes s with c | ok
  · exact .alone .refl (by rintro _ ⟨⟩)
  · cases ok with
    | false =>
      simp only [mapError_ok, Bool.not_false, if_true, ends_bind]
      rcases hx : (skip i s).on st with ⟨e | _, st₁⟩
      · exact (act.skip_walk i s ts).walk hx
      · exact (act.skip_walk i s ts).walk hx
    | true =>
      simp only [mapError_ok, Bool.not_true, Bool.false_eq_true, if_false, ends_bind]
      have htag := runTag_walk (i := i) (s := s) hk hrun
      rcases hx : (act.runTag i s kids).on st with ⟨e | o, st₁⟩
      · exact htag.walk hx
      · have hw : Walk act (.body i ts) s st (.ok o.signal) st₁ := htag.walk hx
        cases i.binding with
        | none => exact hw
        | some b =>
          by_cases hp : (i.tag.publishes && decide (o.signal ≠ .abort)) = true
          · have ho : o.signal ≠ .abort := by simpa using (Bool.and_eq_true_iff.1 hp).2
            simp only [hp, if_true, ends_bind]
            obtain ⟨st', h, hb⟩ | ⟨e, h⟩ := act.publish_on i s b o.output.toValue? st₁
            · rw [h]; exact .bind hw ho hb
            · rw [h]; exact .refuse hw ho
          · simp only [hp]; exact hw

theorem runNode_scenario_ok {st st₁ : RunState} {cs : Children} (ht : i.tag = .scenario)
    (hg : i.guard = none) (hb : i.binding = none) (hx : (kids s).on st = (.ok cs, st₁)) :
    (act.runNode i s kids).on st =
      (.ok ⟨.ofOption st₁.chain.result, cs.signal⟩, st₁.withResult none) := by
  simp only [runNode, allowed, hg, on_bind, on_scopes, on_orFail, mapError_ok, Bool.not_true,
    Bool.false_eq_true, if_false, runTag, ht, hx, on_chain, on_setResult, on_pure, hb]

theorem runNode_scenario_error {st st₁ : RunState} {e : EngineError} (ht : i.tag = .scenario)
    (hg : i.guard = none) (hx : (kids s).on st = (.error e, st₁)) :
    (act.runNode i s kids).on st = (.error e, st₁) := by
  simp only [runNode, allowed, hg, on_bind, on_scopes, on_orFail, mapError_ok, Bool.not_true,
    Bool.false_eq_true, if_false, runTag, ht, hx]

theorem blocked?_ne_none (act : Activation) (c : Chain) (s : ScopeId) :
    act.blocked? c s ≠ some .none := by
  unfold blocked?
  split
  · simp
  · split <;> simp

theorem step_on_blocked {id : NodeId} {st : RunState} {sig : Signal}
    (hb : act.blocked? st.chain s = some sig) :
    (act.step id i s kids).on st = (.ok { signal := sig }, st) := by
  simp only [step, on_bind, on_chain, hb]
  rfl

theorem step_on_ok {id : NodeId} {st st₁ : RunState} {o : Outcome}
    (hb : act.blocked? st.chain s = none)
    (hx : (act.runNode i s kids).on (act.begun id i s st) = (.ok o, st₁)) :
    (act.step id i s kids).on st = (.ok o, act.ended id i s st₁) := by
  rw [begun] at hx
  simp only [step, on_bind, on_chain, hb, on_push, on_emit, on_attempt, hx, ascribe, on_pure,
    on_pop, on_ofExcept, ended]

theorem step_on_error {id : NodeId} {st st₁ st₂ : RunState} {e e' : EngineError}
    (hb : act.blocked? st.chain s = none)
    (hx : (act.runNode i s kids).on (act.begun id i s st) = (.error e, st₁))
    (hblame : (act.blame i s e).on st₁ = (.ok e', st₂)) :
    (act.step id i s kids).on st = (.error e', act.ended id i s st₂) := by
  rw [begun] at hx
  simp only [step, on_bind, on_chain, hb, on_push, on_emit, on_attempt, hx, ascribe, hblame,
    on_pure, on_pop, on_ofExcept, ended]

/-- An instruction that ends well was passed over, or began and ended well. -/
theorem of_step_on_ok {id : NodeId} {st st' : RunState} {o : Outcome}
    (hx : (act.step id i s kids).on st = (.ok o, st')) :
    (∃ sig, act.blocked? st.chain s = some sig ∧ o = { signal := sig } ∧ st' = st) ∨
      ∃ u, (act.runNode i s kids).on (act.begun id i s st) = (.ok o, u) ∧
        st' = act.ended id i s u := by
  cases hb : act.blocked? st.chain s with
  | some sig =>
    rw [step_on_blocked hb] at hx
    cases hx
    exact .inl ⟨sig, rfl, rfl, rfl⟩
  | none =>
    rcases hn : (act.runNode i s kids).on (act.begun id i s st) with ⟨e | o', u⟩
    · obtain ⟨e', u', hblame, -⟩ := act.blame_on i s e u
      rw [step_on_error hb hn hblame] at hx
      cases hx
    · rw [step_on_ok hb hn] at hx
      cases hx
      exact .inr ⟨u, rfl, rfl⟩

theorem step_walk (id : NodeId) (hk : ∀ u, act.Follows (.all ts) u (kids u) Children.signal)
    (hrun : ∀ key u, act.Follows (.entity key) u (act.run key u) Outcome.signal) :
    act.Follows (.one (.node (id, i) ts)) s (act.step id i s kids) Outcome.signal := by
  intro st
  rcases hb : act.blocked? st.chain s with _ | sig
  · have hnode := runNode_walk (i := i) (s := s) hk hrun
    rcases hx : (act.runNode i s kids).on (act.begun id i s st) with ⟨e | o, st₁⟩
    · obtain ⟨e', st₂, hblame, hst⟩ := act.blame_on i s e st₁
      rw [Ends, step_on_error hb hx hblame]
      exact .blamed hb (hnode.walk hx) hblame hst
    · rw [Ends, step_on_ok hb hx]
      exact .node hb (hnode.walk hx)
  · simp only [step, ends_bind, on_chain, hb]
    exact .pass hb

mutual

/-- **Every run of a program is a walk.** -/
theorem exec_walk (hrun : ∀ key u, act.Follows (.entity key) u (act.run key u) Outcome.signal) :
    ∀ (p : Program) (s : ScopeId), act.Follows (.one p) s (act.exec p s) Outcome.signal
  | .node (id, _) ts, _ => by
    rw [exec]
    exact step_walk id (execAll_walk hrun ts) hrun

theorem execAll_walk (hrun : ∀ key u, act.Follows (.entity key) u (act.run key u) Outcome.signal) :
    ∀ (ps : List Program) (s : ScopeId), act.Follows (.all ps) s (act.execAll ps s) Children.signal
  | [], _ => fun _ => .nil
  | p :: ps, s => by
    intro st
    simp only [execAll, ends_bind]
    rcases hx : (act.exec p s).on st with ⟨e | o, st₁⟩
    · exact .stop ((exec_walk hrun p s).walk hx) (by rintro ⟨⟩)
    · have hw : Walk act (.one p) s st (.ok o.signal) st₁ := (exec_walk hrun p s).walk hx
      by_cases ho : o.signal = .none
      · simp only [ho, ne_eq, not_true, if_false, ends_bind]
        rw [ho] at hw
        rcases hy : (act.execAll ps s).on st₁ with ⟨e | cs, st₂⟩
        · exact .next hw ((execAll_walk hrun ps s).walk hy)
        · have hrest := (execAll_walk hrun ps s).walk hy
          exact .next hw hrest
      · simp only [ne_eq, ho, not_false_eq_true, if_true, ends_pure]
        exact .stop hw fun h => ho (Except.ok.inj h)

end

theorem execRoot_walk (hrun : ∀ key u, act.Follows (.entity key) u (act.run key u) Outcome.signal)
    (p : Option Program) : act.Follows (.root p) s (act.execRoot p s) Outcome.signal := by
  intro st
  cases p with
  | some p => exact .root (exec_walk hrun p s st)
  | none =>
    simp only [execRoot, ends_bind, on_chain]
    rcases hb : act.blocked? st.chain s with _ | sig
    · exact .missing hb
    · exact .empty hb

end Activation

namespace Engine

open Exec

/-- Running an entity, with what it does in between left open. -/
theorem runEntity_on {e : Engine} {depth : Nat} {key : EntityKey} {s : ScopeId} {st st₁ : RunState}
    {act : Activation} {r : Except EngineError Outcome}
    (ha : act = e.activation (e.runEntity depth) st.world key)
    (hx : (act.execRoot ((st.world.entity? key).bind Entity.program) s).on (act.entered s st) =
      (r, st₁)) :
    (e.runEntity (depth + 1) key s).on st =
      (r.map fun o => if o.signal = .return then { o with signal := .none } else o,
        act.exited s st.chain.closeables.length st₁) := by
  have hk : act.entity = key := by rw [ha]; rfl
  simp only [Activation.entered, hk] at hx
  simp only [runEntity, on_bind, on_get, on_modifyScopes, on_chain, on_scopes, on_emit, on_attempt,
    ← ha, hx, on_closeSince, on_ofExcept, Activation.exited, hk]
  cases r <;> rfl

/-- **Every run of an entity is a walk**, whatever its depth. -/
theorem runEntity_walk (e : Engine) : ∀ (depth : Nat) {act : Activation} (_ : act.engine = e)
    (key : EntityKey) (s : ScopeId),
    act.Follows (.entity key) s (e.runEntity depth key s) Outcome.signal
  | 0, _, _, _, _ => fun _ => .tooDeep
  | depth + 1, act, he, key, s => by
    intro st
    obtain ⟨act', ha⟩ : ∃ a, a = e.activation (e.runEntity depth) st.world key := ⟨_, rfl⟩
    have hrun : ∀ key u, act'.Follows (.entity key) u (act'.run key u) Outcome.signal := by
      intro key u
      rw [ha]
      exact e.runEntity_walk depth rfl key u
    rcases hx : (act'.execRoot ((st.world.entity? key).bind Entity.program) s).on
      (act'.entered s st) with ⟨r, st₁⟩
    rw [Ends, runEntity_on ha hx]
    have hw := (Activation.execRoot_walk hrun ((st.world.entity? key).bind Entity.program)).walk hx
    have hs : act'.Serves act.engine key st.world := by
      rw [ha, he]
      exact ⟨rfl, rfl, rfl, rfl⟩
    have hw' := Walk.activate hs hw
    have ho : Ending.outside (r.map Outcome.signal) =
        (r.map fun o => if o.signal = .return then { o with signal := .none } else o).map
          Outcome.signal := by
      cases r with
      | error e => rfl
      | ok o => by_cases h : o.signal = .return <;> simp [Ending.outside, Except.map, h]
    rw [ho] at hw'
    exact hw'

/-- Whatever an activation of the engine calls is a walk. -/
theorem activation_walk (e : Engine) (depth : Nat) (w : World) (key key' : EntityKey)
    (s : ScopeId) : (e.activation (e.runEntity depth) w key).Follows (.entity key') s
      (e.runEntity depth key' s) Outcome.signal :=
  e.runEntity_walk depth rfl key' s

/-- The state in which a run has begun: its resource is there. -/
def started (e : Engine) (name : String) (st : RunState) : RunState :=
  let st := st.loading e.setup name
  st.log [.event (.processStart (st.scopes.seq Arena.root))]

/-- The state in which the entity of a run starts: a scope inside the root holds the parameters. -/
def prepared (e : Engine) (name : String) (params : List (String × Value)) (st : RunState) :
    RunState :=
  ((e.started name st).opened Arena.root).mapScopes fun a =>
    params.foldl (fun a p => (a.replace st.scopes.size p.1 none p.2).2) a

/-- A run of a resource that cannot be had does not begin. -/
theorem run_on_error {e : Engine} {depth : Nat} {name : String} {params : List (String × Value)}
    {st : RunState} {err : ParseError}
    (hl : ((e.setup.load name).run.run st.world).1 = .error err) :
    (e.run depth name params).on st = (.error (.parse err), st.loading e.setup name) := by
  simp only [run, on_bind, on_load, hl, mapError_error]

theorem run_on_ok {e : Engine} {depth : Nat} {name : String} {params : List (String × Value)}
    {st st₁ : RunState} {key : EntityKey} {r : Except EngineError Outcome}
    (hl : ((e.setup.load name).run.run st.world).1 = .ok key)
    (hx : (e.runEntity depth key st.scopes.size).on (e.prepared name params st) = (r, st₁)) :
    (e.run depth name params).on st = (r.map fun o => o.output.toValue?,
      (st₁.left st.scopes.size).log
        [.event (.processEnd ((st₁.left st.scopes.size).scopes.seq Arena.root))]) := by
  have hsize : (st.loading e.setup name).scopes.size = st.scopes.size := rfl
  simp only [prepared, started] at hx
  simp only [run, on_bind, on_load, hl, mapError_ok, on_scopes, on_emit, on_attempt,
    on_inChildScope, RunState.scopes_log, hsize, on_modifyScopes, hx, on_ofExcept]
  cases r <;> rfl

end Engine

end Scenario
