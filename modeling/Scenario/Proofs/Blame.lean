import Scenario.Proofs.Mishaps
import Scenario.Proofs.Results

/-!
# Who is to blame

Every instruction that an error passes is asked to attribute it. This module says that only the
first one does, and that it is the one that raised it: in between nothing has happened to what an
attribution reads, although the scope of a failed call has been left (`SameSite`).

* `Exec.Steady` — a step that leaves the running instructions and the place of the first failure
  alone, and whose own failures are attributed to nobody. What an instruction does by itself is made
  of such steps.
* `Settles` — how an instruction ends that has begun: it failed by itself and this can still be
  attributed to it, or something inside it failed and that is attributed already.
* **`exec_answers`**, **`runEntity_returns`** — whatever leaves a program or an entity is attributed
  to the instruction that raised it.
-/

namespace Scenario

/-! ### Steps that blame nobody -/

namespace Exec

variable {α β : Type}

theorem Ends.of_on {x : Exec α} {st st' : RunState} {r : Except EngineError α}
    {P : Except EngineError α → RunState → Prop} (h : x.Ends st P) (hx : x.on st = (r, st')) :
    P r st' := by
  rwa [Ends, hx] at h

/-- Whatever a step does, the running instructions and the place of the first failure stay, and its
own failure is attributed to nobody. -/
def Steady (x : Exec α) : Prop :=
  ∀ st, x.Ends st fun r st' => st'.chain.stack = st.chain.stack ∧
    st'.chain.origin = st.chain.origin ∧ ∀ e, r = .error e → e.Raw

theorem Steady.of_ok {x : Exec α} (h : ∀ st, ∃ a st', x.on st = (.ok a, st') ∧
    st'.chain.stack = st.chain.stack ∧ st'.chain.origin = st.chain.origin) : x.Steady := by
  intro st
  obtain ⟨a, st', hx, hstack, horigin⟩ := h st
  rw [Ends, hx]
  exact ⟨hstack, horigin, by rintro _ ⟨⟩⟩

theorem steady_pure (a : α) : (pure a : Exec α).Steady := .of_ok fun _ => ⟨_, _, rfl, rfl, rfl⟩

theorem steady_throw {e : EngineError} (h : e.Raw) : (throw e : Exec α).Steady := by
  intro st
  refine ⟨rfl, rfl, ?_⟩
  rintro _ ⟨⟩
  exact h

theorem steady_bind {x : Exec α} {f : α → Exec β} (hx : x.Steady) (hf : ∀ a, (f a).Steady) :
    (x >>= f).Steady := by
  intro st
  rw [ends_bind]
  obtain ⟨hstack, horigin, hraw⟩ := hx st
  rcases hon : x.on st with ⟨e | a, st₁⟩
  · rw [hon] at hstack horigin hraw
    refine ⟨hstack, horigin, ?_⟩
    rintro _ ⟨⟩
    exact hraw e rfl
  · rw [hon] at hstack horigin
    obtain ⟨hstack', horigin', hraw'⟩ := hf a st₁
    exact ⟨hstack'.trans hstack, horigin'.trans horigin, hraw'⟩

theorem steady_scopes : scopes.Steady := .of_ok fun _ => ⟨_, _, rfl, rfl, rfl⟩

theorem steady_chain : chain.Steady := .of_ok fun _ => ⟨_, _, rfl, rfl, rfl⟩

theorem steady_enter (x : Entry) : (enter x).Steady := .of_ok fun _ => ⟨_, _, rfl, rfl, rfl⟩

theorem steady_modifyWorld (f : World → World) : (modifyWorld f).Steady :=
  .of_ok fun _ => ⟨_, _, rfl, rfl, rfl⟩

theorem steady_modifyScopes (f : Arena → Arena) : (modifyScopes f).Steady :=
  .of_ok fun _ => ⟨_, _, rfl, rfl, rfl⟩

theorem steady_bindName (s : ScopeId) (b : Binding) : (bindName s b).Steady :=
  .of_ok fun _ => ⟨_, _, rfl, rfl, rfl⟩

theorem steady_orFail (r : Except String α) : (orFail r).Steady := by
  cases r with
  | ok a => exact steady_pure a
  | error cause => exact steady_throw (by rintro _ ⟨⟩)

end Exec

theorem Failure.toError_raw (f : Failure) : f.toError.Raw := by
  cases f <;> rintro _ ⟨⟩

namespace Activation

open Exec

variable {act : Activation} {i : Instruction} {s : ScopeId}

theorem bindResult_steady (act : Activation) (i : Instruction) (s : ScopeId) (b : ResultId)
    (v : Option Value) (check : Bool) : (act.bindResult i s b v check).Steady := by
  refine steady_bind steady_scopes fun a => steady_bind (steady_orFail _) fun key => ?_
  dsimp only
  split
  · exact steady_bindName _ _
  · exact steady_throw (by rintro _ ⟨⟩)

theorem publish_steady (act : Activation) (i : Instruction) (s : ScopeId) (b : ResultId)
    (v : Option Value) : (act.publish i s b v).Steady :=
  steady_bind steady_scopes fun _ => bindResult_steady act i s b v _

theorem skip_steady (i : Instruction) (s : ScopeId) : (skip i s).Steady := by
  unfold skip
  split
  · exact steady_modifyScopes _
  · exact steady_throw (by rintro _ ⟨⟩)
  · exact steady_pure _

theorem givesWay_steady (i : Instruction) (s : ScopeId) : (givesWay i s).Steady := by
  unfold givesWay
  split
  · exact steady_pure _
  · refine steady_bind steady_scopes fun a => steady_bind (steady_orFail _) fun key => ?_
    split
    · exact steady_pure _
    · exact steady_bind (steady_enter _) fun _ => steady_pure _

theorem storeData_steady (act : Activation) (i : Instruction) (s : ScopeId) (name : String)
    (mode : DataMode) (fallback : Bool) (cs : Children) :
    (act.storeData i s name mode fallback cs).Steady := by
  unfold storeData
  split
  · exact steady_pure _
  · cases mode with
    | sub => exact steady_pure _
    | parameter => exact steady_bind (steady_bindName _ _) fun _ => steady_pure _
    | entry =>
      dsimp only
      split
      · split
        · exact steady_bind (bindResult_steady _ _ _ _ _ _) fun _ => steady_pure _
        · exact steady_bind (publish_steady _ _ _ _ _) fun _ => steady_pure _
      · exact steady_pure _

/-- The action of a bean that runs nothing, by recursion on the requests that are left of it. -/
theorem perform_steady (act : Activation) (s : ScopeId) (kids : ScopeId → Exec Children) :
    ∀ a : Action, a.Solo → (act.perform s kids a).Steady
  | .done _, _ => steady_pure _
  | .fail f, _ => steady_throw f.toError_raw
  | .look _, h => steady_bind steady_chain fun c => perform_steady act s kids _ (h (act.view c s))
  | .write _ next, h => steady_bind (steady_modifyWorld _) fun _ => perform_steady act s kids next h
  | .note _ next, h => steady_bind (steady_enter _) fun _ => perform_steady act s kids next h
  | .setResult _ next, h =>
    steady_bind (.of_ok fun _ => ⟨_, _, rfl, rfl, rfl⟩) fun _ => perform_steady act s kids next h
  | .returnEntity next, h =>
    steady_bind steady_scopes fun _ => steady_bind (steady_modifyScopes _) fun _ =>
      steady_bind (steady_enter _) fun _ => perform_steady act s kids next h
  | .abort next, h =>
    steady_bind (.of_ok fun _ => ⟨_, _, rfl, rfl, rfl⟩) fun _ => steady_bind steady_scopes fun _ =>
      steady_bind (steady_enter _) fun _ => perform_steady act s kids next h
  | .register _ next, h =>
    steady_bind (.of_ok fun _ => ⟨_, _, rfl, rfl, rfl⟩) fun _ =>
      steady_bind (steady_enter _) fun _ => perform_steady act s kids next h
  | .allowOverwrite _ next, h =>
    steady_bind (steady_modifyScopes _) fun _ => perform_steady act s kids next h

/-! ### Between a failure and its attribution -/

/-- What is read off the second state to attribute a failure in a scope is what it was in the
first one. -/
structure SameSite (s : ScopeId) (u st : RunState) : Prop where
  stack : st.chain.stack = u.chain.stack
  seq : st.scopes.seq s = u.scopes.seq s
  visible : st.scopes.visible s = u.scopes.visible s

theorem SameSite.refl (s : ScopeId) (u : RunState) : SameSite s u u := ⟨rfl, rfl, rfl⟩

/-- A scope that was opened later does not matter. -/
theorem SameSite.left {t : ScopeId} (h : s < t) (u : RunState) : SameSite s u (u.left t) where
  stack := rfl
  seq := congrArg Frame.seq (Arena.frame_leave h)
  visible := Arena.visible_congr fun _ hk => Arena.frame_leave (Nat.lt_of_le_of_lt hk h)

theorem SameSite.withResult_left {t : ScopeId} (h : s < t) (u : RunState) (v : Option Value) :
    SameSite s u ((u.withResult v).left t) where
  stack := rfl
  seq := (SameSite.left h u).seq
  visible := (SameSite.left h u).visible

/-- A state from which something is run in a live scope, on a chain without a failure. -/
structure Fresh (s : ScopeId) (st : RunState) : Prop where
  live : s < st.scopes.size
  clean : st.chain.origin = none
  made : st.world.Made Tag.Solo Tag.Solo

namespace Fresh

variable {st : RunState}

theorem pos (h : Fresh s st) : 0 < st.scopes.size := Nat.zero_lt_of_lt h.live

theorem log (h : Fresh s st) (es : List Entry) : Fresh s (st.log es) :=
  ⟨h.live, h.clean, h.made.of_entities_eq (st.entities_log es)⟩

theorem opened (h : Fresh s st) : Fresh st.scopes.size (st.opened s) := by
  refine ⟨?_, h.clean, h.made⟩
  rw [RunState.scopes_opened, Arena.size_enter]
  exact Nat.lt_succ_self _

theorem locked (h : Fresh s st) (name : String) (l : LockTable) : Fresh s (st.locked name l) :=
  ⟨h.live, h.clean, h.made.of_entities_eq (st.entities_locked name l)⟩

theorem begun (h : Fresh s st) (act : Activation) (id : NodeId) (i : Instruction) :
    Fresh s (act.begun id i s st) :=
  ⟨h.live, h.clean, h.made.of_entities_eq (RunState.entities_log _ _)⟩

theorem entered (h : Fresh s st) (act : Activation) : Fresh s (act.entered s st) := by
  refine ⟨?_, h.clean, h.made.of_entities_eq (RunState.entities_log _ _)⟩
  rw [Activation.entered, RunState.scopes_log, RunState.scopes_mapScopes, Arena.size_bindEntity]
  exact h.live

/-- The scope of the entity lives as long as what is inside it. -/
theorem childScope (h : Fresh s st) (act : Activation) (t : Tag) :
    Fresh (act.childScope t st.scopes s) st := by
  refine ⟨?_, h.clean, h.made⟩
  have hhome : act.entityScope st.scopes s < st.scopes.size := by
    unfold entityScope
    cases hf : st.scopes.entityScope? s act.entity with
    | none => exact h.live
    | some v => exact Nat.lt_of_le_of_lt (Arena.entityScope?_spec hf).1 h.live
  unfold Activation.childScope
  split
  · exact hhome
  · exact h.live

end Fresh

/-- Until something below an instruction is run, nothing has failed and nothing else runs. -/
theorem Descends.fresh {st st₁ : RunState} {v : ScopeId} (h : Descends act i s st v st₁)
    (hst : Fresh s st) : st₁.chain.stack = st.chain.stack ∧ Fresh v st₁ := by
  cases h with
  | plain | alternative => exact ⟨rfl, hst⟩
  | @data name mode fallback st₁ ht hway =>
    obtain rfl | ⟨id, rfl⟩ : st₁ = st ∨ ∃ id, st₁ = st.log [.vacant s id] := by
      cases fallback with
      | false =>
        cases hway
        exact .inl rfl
      | true =>
        simp only [if_true] at hway
        obtain ⟨e, h⟩ | h | ⟨-, h⟩ | ⟨id, -, h⟩ := givesWay_on i s st
        · rw [h] at hway
          cases hway
        · rw [h] at hway
          cases hway
        · rw [h] at hway
          cases hway
          exact .inl rfl
        · rw [h] at hway
          cases hway
          exact .inr ⟨id, rfl⟩
    · exact ⟨rfl, hst.childScope act i.tag⟩
    · exact ⟨rfl, (hst.log _).childScope act i.tag⟩
  | mutex => exact ⟨rfl, hst.locked _ _⟩
  | call => exact ⟨rfl, hst.opened⟩

/-! ### Instructions -/

/-- How a task ends: without a failure to be remembered, or with one that is attributed. -/
def Answers {α : Type} (act : Activation) (task : Task) (s : ScopeId) (st : RunState) :
    Except EngineError α → RunState → Prop
  | .ok _, st' => st'.chain.origin = none
  | .error e, st' => Attributed act task s st e st'

/-- The error that leaves an entity belongs to the instruction that raised it. If none had begun,
there is nothing to be remembered. -/
def Accounted (act : Activation) (key : EntityKey) (s : ScopeId) (st : RunState)
    (err : EngineError) (st' : RunState) : Prop :=
  Attributed act (.entity key) s st err st' ∨ act.Unentered key st err ∧ st'.chain.origin = none

theorem Accounted.ne_action {key : EntityKey} {st st' : RunState} {err : EngineError}
    (h : act.Accounted key s st err st') (causes : List String) : err ≠ .action causes := by
  obtain h | ⟨⟨-, rfl⟩ | ⟨-, rfl⟩, -⟩ := h
  · exact h.ne_action causes
  · rintro ⟨⟩
  · rintro ⟨⟩

/-- How an entity ends that is called. -/
def Returns {α : Type} (act : Activation) (key : EntityKey) (s : ScopeId) (st : RunState) :
    Except EngineError α → RunState → Prop
  | .ok _, st' => st'.chain.origin = none
  | .error e, st' => act.Accounted key s st e st'

/-- How an instruction ends that has begun. Its own failure is still to be attributed, and what is
needed for that is there. -/
def Settles {α : Type} (act : Activation) (i : Instruction) (ts : List Program) (s : ScopeId)
    (st : RunState) : Except EngineError α → RunState → Prop
  | .ok _, st' => st'.chain.origin = none
  | .error e, st' => Attributed act (.body i ts) s st e st' ∨
    ∃ u, NodeFault act i ts s st e u ∧ e.Raw ∧ u.chain.stack = st.chain.stack ∧ SameSite s u st' ∧
      st'.chain.origin = none

/-- An activation whose calls of entities end in this way. -/
structure Accountable (act : Activation) : Prop where
  registry : act.engine.setup.registry.Makes Tag.Solo Tag.Solo
  follows : ∀ key u, act.Follows (.entity key) u (act.run key u) Outcome.signal
  returns : ∀ key u st, Fresh u st → (act.run key u).Ends st (Returns act key u st)

/-- Several programs end in this way, wherever they are run. -/
def Answer (act : Activation) (ts : List Program) : Prop :=
  ∀ v st, Fresh v st → (act.execAll ts v).Ends st (Answers act (.all ts) v st)

section

variable {ts : List Program} {st st₁ st₂ st' : RunState} {e : EngineError} {α : Type}

/-- What is below an instruction failed. -/
theorem settles_under {v : ScopeId} (ha : allowed i st.scopes s = .ok true)
    (hd : Descends act i s st v st₁) (hst : Fresh s st)
    (h : Attributed act (.all ts) v st₁ e st₂) (horigin : st'.chain.origin = st₂.chain.origin) :
    Settles act i ts s st (.error e : Except EngineError α) st' := by
  obtain ⟨c, fs, raw, u, hm, hraw, hhead, hu, he, ho⟩ := h
  rw [(hd.fresh hst).1] at hu
  exact .inl ⟨c, fs, raw, u, .under ha hd hm, hraw, hhead, hu, he, horigin.trans ho⟩

/-- A step of the instruction itself failed. -/
theorem settles_own {β : Type} {x : Exec β} (hx : x.Steady) (hon : x.on st₁ = (.error e, st'))
    (hstack : st₁.chain.stack = st.chain.stack) (horigin : st₁.chain.origin = none)
    (hf : NodeFault act i ts s st e st') :
    Settles act i ts s st (.error e : Except EngineError α) st' := by
  obtain ⟨hs, ho, hraw⟩ := (hx st₁).of_on hon
  exact .inr ⟨st', hf, hraw e rfl, hs.trans hstack, .refl s st', ho.trans horigin⟩

/-- A step of the instruction itself failed in a scope that was opened for it. -/
theorem settles_own_left {t : ScopeId} (hlt : s < t) (hf : NodeFault act i ts s st e st₁)
    (hraw : e.Raw) (hstack : st₁.chain.stack = st.chain.stack) (horigin : st₁.chain.origin = none) :
    Settles act i ts s st (.error e : Except EngineError α) (st₁.left t) :=
  .inr ⟨st₁, hf, hraw, hstack, .left hlt st₁, horigin⟩

/-- What has run leaves the running instructions as they were, and the chain as good as before. -/
theorem Accountable.after (hact : act.Accountable) {task : Task} {o : Ending} {v : ScopeId}
    (hst : Fresh v st) (hw : Walk act task s st o st₁) (horigin : st₁.chain.origin = none) :
    st₁.chain.stack = st.chain.stack ∧ Fresh v st₁ := by
  have hkept := hw.kept hst.pos
  exact ⟨hkept.stack, hkept.size ▸ hst.live, horigin, hw.made hact.registry hst.made⟩

theorem Accountable.after_execAll (hact : act.Accountable) (hk : act.Answer ts) {v : ScopeId}
    {cs : Children} (hst : Fresh v st) (hx : (act.execAll ts v).on st = (.ok cs, st₁)) :
    st₁.chain.stack = st.chain.stack ∧ Fresh v st₁ :=
  hact.after hst ((execAll_walk hact.follows ts v).walk hx) ((hk v st hst).of_on hx)

theorem runBranch_settles (ha : allowed i st.scopes s = .ok true) (hd : Descends act i s st s st)
    (hk : act.Answer ts) (hst : Fresh s st) :
    (runBranch s (act.execAll ts)).Ends st (Settles act i ts s st) := by
  simp only [runBranch, ends_bind]
  have hkids := hk s st hst
  rcases hx : (act.execAll ts s).on st with ⟨e | cs, st₁⟩
  · exact settles_under ha hd hst (hkids.of_on hx) rfl
  · exact hkids.of_on hx

theorem way_steady (i : Instruction) (s : ScopeId) (fallback : Bool) :
    (if fallback then givesWay i s else pure false : Exec Bool).Steady := by
  cases fallback with
  | false => exact steady_pure false
  | true => exact givesWay_steady i s

/-- A data tag that does not give way runs what is below it and stores what that gives. -/
theorem runData_on (act : Activation) (kids : ScopeId → Exec Children) {name : String}
    {mode : DataMode} {fallback : Bool} (ht : i.tag = .data name mode fallback)
    (hway : (if fallback then givesWay i s else pure false).on st = (.ok false, st₁)) :
    (act.runData i s name mode fallback kids).on st =
      (kids (act.childScope i.tag st₁.scopes s) >>=
        act.storeData i s name mode fallback).on st₁ := by
  have hv : act.childScope i.tag st₁.scopes s =
      if mode = .parameter then act.entityScope st₁.scopes s else s := by
    rw [ht]
    cases mode <;> rfl
  rw [runData, on_bind, hway, hv]
  simp only [Bool.false_eq_true, if_false, on_bind, on_scopes]

theorem runData_settles (hact : act.Accountable) (ha : allowed i st.scopes s = .ok true)
    {name : String} {mode : DataMode} {fallback : Bool} (ht : i.tag = .data name mode fallback)
    (hk : act.Answer ts) (hst : Fresh s st) :
    (act.runData i s name mode fallback (act.execAll ts)).Ends st (Settles act i ts s st) := by
  rcases hway : (if fallback then givesWay i s else pure false).on st with ⟨e | gives, st₁⟩
  · have hon : (act.runData i s name mode fallback (act.execAll ts)).on st = (.error e, st₁) := by
      rw [runData, on_bind, hway]
    cases fallback with
    | false => cases hway
    | true =>
      rw [Ends, hon]
      exact settles_own (givesWay_steady i s) hway rfl hst.clean (.tag ha (.name ht hway))
  cases gives with
  | true =>
    have hon : (act.runData i s name mode fallback (act.execAll ts)).on st = (.ok {}, st₁) := by
      rw [runData, on_bind, hway]
      rfl
    rw [Ends, hon]
    exact ((way_steady i s fallback st).of_on hway).2.1.trans hst.clean
  | false =>
    have hd : Descends act i s st (act.childScope i.tag st₁.scopes s) st₁ := .data ht hway
    obtain ⟨hstack, hst₁⟩ := hd.fresh hst
    have hbelow : (act.execAll ts (act.childScope i.tag st₁.scopes s) >>=
        act.storeData i s name mode fallback).Ends st₁ (Settles act i ts s st) := by
      have hkids := hk _ _ hst₁
      rw [ends_bind]
      rcases hx : (act.execAll ts (act.childScope i.tag st₁.scopes s)).on st₁ with ⟨e | cs, st₂⟩
      · exact settles_under ha hd hst (hkids.of_on hx) rfl
      · obtain ⟨hstack₂, hst₂⟩ := hact.after_execAll hk hst₁ hx
        have hstore := act.storeData_steady i s name mode fallback cs
        show (act.storeData i s name mode fallback cs).Ends st₂ _
        rcases hy : (act.storeData i s name mode fallback cs).on st₂ with ⟨e | o, st₃⟩
        · rw [Ends, hy]
          exact settles_own hstore hy (hstack₂.trans hstack) hst₂.clean
            (.tag ha (.value ht hway hx hy))
        · rw [Ends, hy]
          exact ((hstore st₂).of_on hy).2.1.trans hst₂.clean
    rw [Ends, act.runData_on _ ht hway]
    exact hbelow

theorem runMutex_settles (ha : allowed i st.scopes s = .ok true) {name timeout : Option Compiled}
    (ht : i.tag = .mutex name timeout) (hk : act.Answer ts) (hst : Fresh s st) :
    (act.runMutex s name timeout (act.execAll ts)).Ends st (Settles act i ts s st) := by
  obtain ⟨causes, u, hu, hon⟩ | ⟨text, millis, locks, g, hname, htime, hq, hon⟩ :=
    act.runMutex_on s name timeout st
  · rw [Ends, hon]
    have hchain := hu.chain_eq
    refine .inr ⟨u, .tag ha (.mutex ht (hon _)), by rintro _ ⟨⟩, by rw [hchain], .refl s u, ?_⟩
    rw [hchain]
    exact hst.clean
  · have hd : Descends act i s st s (st.locked text locks) := .mutex ht hname htime hq
    have hkids := hk s _ (hd.fresh hst).2
    rcases hx : (act.execAll ts s).on (st.locked text locks) with ⟨e | cs, st₁⟩
    · rw [Ends, hon hx]
      exact settles_under ha hd hst (hkids.of_on hx) rfl
    · rw [Ends, hon hx]
      exact hkids.of_on hx

/-- The call of an entity ends as the entity does. -/
theorem Calls.runTag_on {key : EntityKey} {r : Except EngineError Outcome}
    (h : Calls act i ts s st key st₁) (hx : (act.run key st.scopes.size).on st₁ = (r, st₂)) :
    ∃ v, (act.runTag i s (act.execAll ts)).on st =
      (r, (st₂.withResult v).left st.scopes.size) := by
  cases h with
  | @intro target cs key st₁ ht hkids hc hl =>
    refine ⟨st₁.chain.result, ?_⟩
    rw [runTag, ht]
    simp only [runInvoke, on_inChildScope, on_bind, hkids, hc, if_false, on_load, hl, mapError_ok,
      on_chain, on_setResult, on_attempt, hx, on_ofExcept]
    rfl

theorem Calls.fresh {key : EntityKey} (h : Calls act i ts s st key st₁) (hact : act.Accountable)
    (hk : act.Answer ts) (hst : Fresh s st) :
    st₁.chain.stack = st.chain.stack ∧ Fresh st.scopes.size st₁ := by
  obtain ⟨ht, hkids, hc, hl⟩ := h
  obtain ⟨hstack, hst₂⟩ := hact.after_execAll hk hst.opened hkids
  exact ⟨hstack, hst₂.live, hst₂.clean, Setup.load_made hact.registry _ hst₂.made⟩

theorem runInvoke_settles (hact : act.Accountable) (ha : allowed i st.scopes s = .ok true)
    {target : String} (ht : i.tag = .invoke target) (hk : act.Answer ts) (hst : Fresh s st) :
    (act.runTag i s (act.execAll ts)).Ends st (Settles act i ts s st) := by
  have hcalls : i.tag.calls = true := by rw [ht]; rfl
  have hkids := hk _ _ hst.opened
  rcases hx : (act.execAll ts st.scopes.size).on (st.opened s) with ⟨e | cs, st₁⟩
  · rw [runTag, ht]
    simp only [runInvoke, ends_inChildScope, ends_bind, hx]
    exact settles_under ha (.call hcalls) hst (hkids.of_on hx) rfl
  obtain ⟨hstack, hst₁⟩ := hact.after_execAll hk hst.opened hx
  by_cases hc : cs.signal = .abort
  · rw [runTag, ht]
    simp only [runInvoke, ends_inChildScope, ends_bind, hx, hc, if_true, ends_pure]
    exact hst₁.clean
  cases hl : ((act.engine.setup.load target).run.run st₁.world).1 with
  | error err =>
    rw [runTag, ht]
    simp only [runInvoke, ends_inChildScope, ends_bind, hx, hc, if_false, on_load, hl,
      mapError_error]
    exact settles_own_left hst.live (.tag ha (.resource ht hx hc hl)) (by rintro _ ⟨⟩) hstack
      hst₁.clean
  | ok key =>
    have hcall : Calls act i ts s st key _ := .intro ht hx hc hl
    obtain ⟨hstack₂, hst₂⟩ := hcall.fresh hact hk hst
    have hret := hact.returns key st.scopes.size _ hst₂
    have hkept := (hact.follows key st.scopes.size).kept hst₂.pos
    rcases hy : (act.run key st.scopes.size).on
      ((st₁.loading act.engine.setup target).withResult none) with ⟨e | o, st₂⟩
    · obtain ⟨v, hon⟩ := hcall.runTag_on hy
      rw [Ends, hon]
      obtain hatt | ⟨hun, horigin⟩ := hret.of_on hy
      · obtain ⟨c, fs, raw, u, hm, hraw, hhead, hu, he, ho⟩ := hatt
        rw [hstack₂] at hu
        exact .inl ⟨c, fs, raw, u, .called ha hcall hm, hraw, hhead, hu, he, ho⟩
      · have hraw : e.Raw := by
          obtain ⟨-, rfl⟩ | ⟨-, rfl⟩ := hun <;> rintro _ ⟨⟩
        refine .inr ⟨st₂, .tag ha (.entity hcall hy hun), hraw, ?_, ?_, horigin⟩
        · exact (hkept.of_on hy).stack.trans hstack₂
        · exact .withResult_left hst.live st₂ v
    · obtain ⟨v, hon⟩ := hcall.runTag_on hy
      rw [Ends, hon]
      exact hret.of_on hy

theorem runBean_settles (hact : act.Accountable) (ha : allowed i st.scopes s = .ok true) {b : Bean}
    (ht : i.tag = .bean b) (hsolo : i.tag.Solo) (hk : act.Answer ts) (hst : Fresh s st) :
    (act.runBean i s b (act.execAll ts)).Ends st (Settles act i ts s st) := by
  have hcalls : i.tag.calls = true := by rw [ht]; rfl
  have hkids := hk _ _ hst.opened
  rw [runBean, ends_inChildScope, ends_bind]
  rcases hx : (act.execAll ts st.scopes.size).on (st.opened s) with ⟨e | cs, st₁⟩
  · exact settles_under ha (.call hcalls) hst (hkids.of_on hx) rfl
  obtain ⟨hstack, hst₁⟩ := hact.after_execAll hk hst.opened hx
  by_cases hc : cs.signal = .none
  · simp only [hc, ne_eq, not_true, if_false, ends_bind, on_scopes, on_orFail]
    rcases hfit : act.fit i b st₁.scopes st.scopes.size with err | fs
    · have hfault : NodeFault act i ts s st (.action [err.message]) st₁ :=
        .tag ha (.fields ht hx hc hfit)
      rw [fit] at hfit
      rw [hfit]
      exact settles_own_left hst.live hfault (by rintro _ ⟨⟩) hstack hst₁.clean
    · have hperform := act.perform_steady st.scopes.size (act.execAll ts) (b.act fs)
        (by rw [ht] at hsolo; exact hsolo fs)
      have hfit' := hfit
      rw [fit] at hfit'
      rw [hfit']
      simp only [mapError_ok, on_enter]
      rcases hp : (act.perform st.scopes.size (act.execAll ts) (b.act fs)).on
        (st₁.log [.call b.typeName fs]) with ⟨e | v, st₂⟩
      · obtain ⟨hs, ho, hraw⟩ := (hperform _).of_on hp
        exact settles_own_left hst.live (.tag ha (.action ht hx hc hfit hp)) (hraw e rfl)
          (hs.trans hstack) (ho.trans hst₁.clean)
      · exact ((hperform _).of_on hp).2.1.trans hst₁.clean
  · simp only [ne_eq, hc, not_false_eq_true, if_true, ends_pure]
    exact hst₁.clean

theorem runTag_settles (hact : act.Accountable) (ha : allowed i st.scopes s = .ok true)
    (hsolo : i.tag.Solo) (hk : act.Answer ts) (hst : Fresh s st) :
    (act.runTag i s (act.execAll ts)).Ends st (Settles act i ts s st) := by
  have hkids := hk s st hst
  unfold runTag
  split
  · simp only [ends_bind]
    rcases hx : (act.execAll ts s).on st with ⟨e | cs, st₁⟩
    · exact settles_under ha (.plain (.inl ‹_›)) hst (hkids.of_on hx) rfl
    · exact hkids.of_on hx
  · simp only [ends_bind]
    rcases hx : (act.execAll ts s).on st with ⟨e | cs, st₁⟩
    · exact settles_under ha (.plain (.inr (.inl ⟨_, ‹_›⟩))) hst (hkids.of_on hx) rfl
    · exact hkids.of_on hx
  · exact runData_settles hact ha ‹_› hk hst
  · exact hst.clean
  · -- the value of an expression
    rename_i x hx
    simp only [ends_bind, on_scopes, on_orFail]
    rcases hv : x.eval st.scopes s with cause | v
    · have hfault : NodeFault act i ts s st (.action [cause]) st := .tag ha (.expression hx hv)
      exact .inr ⟨st, hfault, by rintro _ ⟨⟩, rfl, .refl s st, hst.clean⟩
    · exact hst.clean
  · exact runBranch_settles ha (.plain (.inr (.inr ‹_›))) hk hst
  · rename_i h
    simp only [ends_bind, on_scopes]
    by_cases hr : branchRan st.scopes s = true
    · simp only [hr, if_true]
      exact hst.clean
    · simp only [hr]
      exact runBranch_settles ha (.alternative h (by simpa using hr)) hk hst
  · exact runMutex_settles ha ‹_› hk hst
  · rename_i target h
    have hinvoke := runInvoke_settles hact ha h hk hst
    rw [runTag, h] at hinvoke
    exact hinvoke
  · exact runBean_settles hact ha ‹_› hsolo hk hst
  · exact hst.clean

theorem runNode_settles (hact : act.Accountable) (hsolo : i.tag.Solo) (hk : act.Answer ts)
    (hst : Fresh s st) :
    (act.runNode i s (act.execAll ts)).Ends st (Settles act i ts s st) := by
  simp only [runNode, ends_bind, on_scopes, on_orFail]
  rcases ha : allowed i st.scopes s with cause | ok
  · exact .inr ⟨st, .condition ha, by rintro _ ⟨⟩, rfl, .refl s st, hst.clean⟩
  cases ok with
  | false =>
    simp only [mapError_ok, Bool.not_false, if_true, ends_bind]
    have hskip := skip_steady i s
    rcases hx : (skip i s).on st with ⟨e | _, st₁⟩
    · exact settles_own hskip hx rfl hst.clean (.skipped ha hx)
    · exact ((hskip st).of_on hx).2.1.trans hst.clean
  | true =>
    simp only [mapError_ok, Bool.not_true, Bool.false_eq_true, if_false, ends_bind]
    have htag := runTag_settles hact ha hsolo hk hst
    rcases hx : (act.runTag i s (act.execAll ts)).on st with ⟨e | o, st₁⟩
    · exact htag.of_on hx
    · have horigin : st₁.chain.origin = none := htag.of_on hx
      have hw := (runTag_walk (execAll_walk hact.follows ts) hact.follows).walk hx
      cases hb : i.binding with
      | none => exact horigin
      | some b =>
        by_cases hp : (i.tag.publishes && decide (o.signal ≠ .abort)) = true
        · obtain ⟨hpub, ho⟩ : i.tag.publishes = true ∧ o.signal ≠ .abort := by simpa using hp
          simp only [hp, if_true, ends_bind]
          have hpublish := act.publish_steady i s b o.output.toValue?
          rcases hy : (act.publish i s b o.output.toValue?).on st₁ with ⟨e | _, st₂⟩
          · exact settles_own hpublish hy (hw.kept hst.pos).stack horigin
              (.result ha hx hb hpub ho hy)
          · exact ((hpublish st₁).of_on hy).2.1.trans horigin
        · simp only [hp]
          exact horigin

/-- The first instruction that a failure passes attributes it. -/
theorem blame_on_clean (act : Activation) (id : NodeId) (i : Instruction) (s : ScopeId)
    (h : st.chain.origin = none) (e : EngineError) :
    ∃ st', (act.blame i s e).on st = (.ok (Culprit.verdict ⟨act, id, i, s⟩ st e), st') ∧
      st'.chain.origin = some (Culprit.origin ⟨act, id, i, s⟩ st.scopes) := by
  simp only [blame, on_bind, on_chain, h, Option.isNone_none, if_true, on_modifyChain]
  cases e with
  | action causes => exact ⟨_, rfl, rfl⟩
  | parse _ | conflict _ | runtime _ | tooDeep => exact ⟨_, rfl, rfl⟩

/-- The others do not. -/
theorem blame_on_blamed {o : ErrorOrigin} (h : st.chain.origin = some o)
    (he : ∀ causes, e ≠ .action causes) : (act.blame i s e).on st = (.ok e, st) := by
  simp only [blame, on_bind, on_chain, h, Option.isNone_some, Bool.false_eq_true, if_false]
  cases e with
  | action causes => exact absurd rfl (he causes)
  | parse _ | conflict _ | runtime _ | tooDeep => rfl

/-- The verdict may be made up later, as long as nothing of what it reads has changed. -/
theorem SameSite.verdict_eq {c : Culprit} (h : SameSite c.scope st st₁) (e : EngineError) :
    c.verdict st₁ e = c.verdict st e := by
  cases e with
  | action causes =>
    simp only [Culprit.verdict, Chain.trace, h.stack, h.seq]
  | parse _ | conflict _ | runtime _ | tooDeep => rfl

theorem SameSite.origin_eq {c : Culprit} (h : SameSite c.scope st st₁) :
    c.origin st₁.scopes = c.origin st.scopes := by
  simp only [Culprit.origin, h.seq, h.visible]

theorem step_answers (hact : act.Accountable) (id : NodeId) (hsolo : i.tag.Solo)
    (hk : act.Answer ts) (hst : Fresh s st) :
    (act.step id i s (act.execAll ts)).Ends st (Answers act (.one (.node (id, i) ts)) s st) := by
  rcases hb : act.blocked? st.chain s with _ | sig
  · have hnode := runNode_settles hact hsolo hk (hst.begun act id i)
    rcases hx : (act.runNode i s (act.execAll ts)).on (act.begun id i s st) with ⟨e | o, st₁⟩
    · obtain hatt | ⟨u, hf, hraw, hstack, halike, horigin⟩ := hnode.of_on hx
      · have hne := hatt.ne_action
        obtain ⟨c, fs, raw, u, hm, hraw, hhead, hu, he, ho⟩ := hatt
        rw [Ends, step_on_error hb hx (blame_on_blamed ho hne)]
        refine ⟨c, _, raw, u, .inside hb hm, hraw, ?_, ?_, he, ho⟩
        · simp [hhead]
        · rw [hu, List.append_assoc]
          rfl
      · obtain ⟨st₂, hblame, hnoted⟩ := act.blame_on_clean id i s horigin e
        rw [Ends, step_on_error hb hx hblame]
        refine ⟨⟨act, id, i, s⟩, _, e, u, .here hb hf, hraw, rfl, hstack, ?_, ?_⟩
        · exact SameSite.verdict_eq halike e
        · exact hnoted.trans (congrArg some (SameSite.origin_eq halike))
    · rw [Ends, step_on_ok hb hx]
      exact hnode.of_on hx
  · rw [Ends, step_on_blocked hb]
    exact hst.clean

end

mutual

/-- **What leaves a program is attributed to the instruction that raised it**, by recursion on the
program. -/
theorem exec_answers {act : Activation} (hact : act.Accountable) : ∀ (p : Program)
    (_ : ∀ x ∈ p.labels, x.2.tag.Solo) (s : ScopeId) (st : RunState) (_ : Fresh s st),
    (act.exec p s).Ends st (Answers act (.one p) s st)
  | .node (id, i) ts, hp, s, st, hst => by
    rw [Tree.labels, List.forall_mem_cons] at hp
    rw [exec]
    exact step_answers hact id hp.1 (execAll_answers hact ts hp.2) hst

theorem execAll_answers {act : Activation} (hact : act.Accountable) : ∀ (ps : List Program)
    (_ : ∀ x ∈ Tree.labelsAll ps, x.2.tag.Solo), act.Answer ps
  | [], _ => fun _ _ hst => hst.clean
  | p :: ps, hps => by
    rw [Tree.labelsAll, List.forall_mem_append] at hps
    intro s st hst
    have hfirst := exec_answers hact p hps.1 s st hst
    simp only [execAll, ends_bind]
    rcases hx : (act.exec p s).on st with ⟨e | o, st₁⟩
    · obtain ⟨c, fs, raw, u, hm, hrest⟩ := hfirst.of_on hx
      exact ⟨c, fs, raw, u, .first hm, hrest⟩
    · have horigin : st₁.chain.origin = none := hfirst.of_on hx
      by_cases ho : o.signal = .none
      · obtain ⟨hstack, hst₁⟩ := hact.after hst ((exec_walk hact.follows p s).walk hx) horigin
        have hlater := execAll_answers hact ps hps.2 s st₁ hst₁
        simp only [ho, ne_eq, not_true, if_false, ends_bind]
        rcases hy : (act.execAll ps s).on st₁ with ⟨e | cs, st₂⟩
        · obtain ⟨c, fs, raw, u, hm, hraw, hhead, hu, hrest⟩ := hlater.of_on hy
          rw [hstack] at hu
          exact ⟨c, fs, raw, u, .later hx ho hm, hraw, hhead, hu, hrest⟩
        · exact hlater.of_on hy
      · simp only [ne_eq, ho, not_false_eq_true, if_true, ends_pure]
        exact horigin

end

end Activation

namespace Engine

open Exec Activation

variable {e : Engine}

/-- **What leaves an entity is attributed to the instruction that raised it**, by recursion on the
depth of nested entities. If no instruction has begun, nobody is to blame. -/
theorem runEntity_returns (hreg : e.setup.registry.Makes Tag.Solo Tag.Solo) : ∀ (depth : Nat)
    (act : Activation) (_ : act.engine = e) (_ : act.run = e.runEntity depth) (key : EntityKey)
    (s : ScopeId) (st : RunState) (_ : Fresh s st),
    (e.runEntity depth key s).Ends st (Returns act key s st)
  | 0, act, he, hrun, _, _, _, hst => by
    subst he
    exact .inr ⟨.inr ⟨hrun, rfl⟩, hst.clean⟩
  | depth + 1, act, he, hrun, key, s, st, hst => by
    obtain ⟨act', ha⟩ : ∃ a, a = e.activation (e.runEntity depth) st.world key := ⟨_, rfl⟩
    have hact : act'.Accountable := by
      rw [ha]
      exact ⟨hreg, e.activation_walk depth st.world key, runEntity_returns hreg depth _ rfl rfl⟩
    rcases hx : (act'.execRoot ((st.world.entity? key).bind Entity.program) s).on
      (act'.entered s st) with ⟨r, st₁⟩
    rw [Ends, runEntity_on ha hx]
    cases hp : (st.world.entity? key).bind Entity.program with
    | none =>
      rw [hp] at hx
      simp only [execRoot, on_bind, on_chain] at hx
      cases hb : act'.blocked? (act'.entered s st).chain s with
      | none =>
        rw [hb] at hx
        cases hx
        exact .inr ⟨.inl ⟨hp, by rw [ha]; rfl⟩, hst.clean⟩
      | some sig =>
        rw [hb] at hx
        cases hx
        exact hst.clean
    | some p =>
      rw [hp] at hx
      have hanswer :=
        (exec_answers hact p (hst.made key p hp).tags s _ (hst.entered act')).of_on hx
      cases r with
      | ok o => exact hanswer
      | error err =>
        obtain ⟨c, fs, raw, u, hm, hrest⟩ := hanswer
        subst he ha
        exact .inl ⟨c, fs, raw, u, .entity hrun hp hm, hrest⟩

/-- Whatever calls the entities of an engine. -/
theorem accountable {act : Activation} {depth : Nat} (hrun : act.run = act.engine.runEntity depth)
    (hreg : act.engine.setup.registry.Makes Tag.Solo Tag.Solo) : act.Accountable where
  registry := hreg
  follows key u := by
    rw [hrun]
    exact act.engine.runEntity_walk depth rfl key u
  returns key u st hst := by
    have hreturns := runEntity_returns hreg depth act rfl hrun key u st hst
    rwa [← hrun] at hreturns

/-- A run starts from a chain that is as good as the one it was given. -/
theorem fresh_prepared (hreg : e.setup.registry.Makes Tag.Solo Tag.Solo) (name : String)
    (params : List (String × Value)) {st : RunState} (hmade : st.world.Made Tag.Solo Tag.Solo)
    (hclean : st.chain.origin = none) : Fresh st.scopes.size (e.prepared name params st) := by
  have hprep : Kept ((e.started name st).opened Arena.root) (e.prepared name params st) :=
    .params params st.scopes.size _
  have hsize : ((e.started name st).opened Arena.root).scopes.size = st.scopes.size + 1 := by
    rw [RunState.scopes_opened, Arena.size_enter]
    rfl
  refine ⟨?_, hclean, ?_⟩
  · rw [hprep.size, hsize]
    exact Nat.lt_succ_self _
  · have hloaded := Setup.load_made hreg name hmade
    exact hloaded.of_entities_eq (RunState.entities_log _ _)

end Engine

end Scenario
