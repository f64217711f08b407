import Scenario.Proofs.Returns

/-!
# Results of successive runs

A return leaves its value on the chain, where the root of the entity takes it when its children have
ended. Runs on one chain share the place where it is left. This module follows that value.

* `resultAfter` reads off the journal which value is left: that of the last return.
* **`Walk.leaves`** — below the root, what is left on the chain is what the journal says, however
  the instructions end; calls of other entities in between do not matter.
* `Isolated` — a run that starts with nothing left and succeeds gives the value of its own last
  return and leaves nothing. A run that fails does not reach the point where the value is taken: the
  value stays, and a later run may give it.

`Engine.history` is a sequence of runs on one chain.
-/

namespace Scenario

/-! ### The value of the last return -/

/-- What is left on the chain after an entry: a return leaves its value. -/
def Entry.resultAfter (v : Option Value) : Entry → Option Value
  | .call b fs => if b = "return" then fs.value? "value" else v
  | _ => v

/-- What is left on the chain after some entries. -/
def resultAfter (v : Option Value) (xs : List Entry) : Option Value := xs.foldl Entry.resultAfter v

theorem resultAfter_append (v : Option Value) (xs ys : List Entry) :
    resultAfter v (xs ++ ys) = resultAfter (resultAfter v xs) ys := by
  simp [resultAfter]

theorem resultAfter_pair (v : Option Value) (a b : Event) (xs : List Entry) :
    resultAfter v (.event a :: xs ++ [.event b]) = resultAfter v xs := by
  rw [List.cons_append, ← List.singleton_append, resultAfter_append, resultAfter_append]
  rfl

/-- Only calls leave something. -/
theorem resultAfter_of_no_call (v : Option Value) {xs : List Entry}
    (h : ∀ b fs, Entry.call b fs ∉ xs) : resultAfter v xs = v := by
  induction xs with
  | nil => rfl
  | cons x xs ih =>
    have hx : x.resultAfter v = v := by
      cases x with
      | call b fs => exact absurd (List.mem_cons_self ..) (h b fs)
      | _ => rfl
    have hxs : ∀ b fs, Entry.call b fs ∉ xs := fun b fs hm => h b fs (List.mem_cons_of_mem x hm)
    exact (congrArg (resultAfter · xs) hx).trans (ih hxs)

theorem resultAfter_idle (v : Option Value) {xs : List Entry} (h : ∀ x ∈ xs, x.Idle) :
    resultAfter v xs = v := resultAfter_of_no_call v (Entry.Idle.not_mem h).2.2.1

/-! ### Entities during a run -/

theorem World.Made.of_entities_eq {root inner : Tag → Prop} {w w' : World} (h : w.Made root inner)
    (he : w'.entities = w.entities) : w'.Made root inner := by
  intro key p hp
  rw [World.entity?, he] at hp
  exact h key p hp

theorem Stirs.made {root inner : Tag → Prop} {act : Activation} {s : ScopeId} {st st' : RunState}
    (hreg : act.engine.setup.registry.Makes root inner) (h : Stirs act s st st')
    (hm : st.world.Made root inner) : st'.world.Made root inner := by
  induction h with
  | refl => exact hm
  | tail _ h ih =>
    cases h with
    | load name => exact Setup.load_made hreg name ih
    | _ => exact ih

/-- **All entities stay made from the tags of the registry**, since only asking for a resource adds
any. -/
theorem Walk.made {root inner : Tag → Prop} {act : Activation} {task : Task} {t : ScopeId}
    {st st' : RunState} {o : Ending} (h : Walk act task t st o st')
    (hreg : act.engine.setup.registry.Makes root inner) :
    st.world.Made root inner → st'.world.Made root inner := by
  induction h with
  | nil | pass | done | fail | empty | missing | tooDeep => exact id
  | stop _ _ ih | node _ _ ih | take _ _ ih | refuse _ _ ih | halt _ _ _ ih | root _ ih =>
    exact ih hreg
  | next _ _ ih ih' | again _ _ ih ih' | call _ _ _ ih ih' =>
    exact fun hm => ih' hreg (ih hreg hm)
  | fallback _ _ _ _ _ ih => exact ih hreg
  | blamed _ _ _ hst ih | settle _ hst ih | misfit _ _ _ hst ih =>
    intro hm
    have hafter := hst.made hreg (ih hreg hm)
    exact hafter
  | alone hst _ => exact hst.made hreg
  | inside _ _ hst _ ih => exact fun hm => ih hreg (hst.made hreg hm)
  | bind _ _ hbind ih =>
    intro hm
    cases hbind with
    | result | parameter => exact ih hreg hm
  | invoke _ _ _ _ _ ih ih' => exact fun hm => ih' hreg (Setup.load_made hreg _ (ih hreg hm))
  | deed hd _ ih =>
    intro hm
    refine ih hreg ?_
    cases hd <;> exact hm
  | unfound _ ih => exact fun hm => ih hreg (Setup.load_made hreg _ hm)
  | summon _ _ ih ih' => exact fun hm => ih' hreg (ih hreg (Setup.load_made hreg _ hm))
  | @activate act act' _ s st st₁ _ hserves _ ih =>
    intro hm
    have hin := ih (by rw [hserves.engine]; exact hreg) hm
    -- closing adds to the journal only
    exact hin.of_entities_eq (by simp [Activation.exited, RunState.closed])

/-! ### Below the root -/

/-- What is left on the chain is what the journal says. -/
def Leaves (st st' : RunState) : Prop :=
  ∃ xs, Did 0 st st' xs ∧ st'.chain.result = resultAfter st.chain.result xs

namespace Leaves

variable {act : Activation} {s t : ScopeId} {st st₁ st₂ : RunState}

theorem trans (h : Leaves st st₁) (h' : Leaves st₁ st₂) : Leaves st st₂ := by
  obtain ⟨xs, hx, hr⟩ := h
  obtain ⟨ys, hy, hr'⟩ := h'
  exact ⟨xs ++ ys, hx.trans hy, by rw [hr', hr, resultAfter_append]⟩

theorem of_idle {xs : List Entry} (hx : Did 0 st st₁ xs) (hi : ∀ x ∈ xs, x.Idle)
    (hr : st₁.chain.result = st.chain.result) : Leaves st st₁ :=
  ⟨xs, hx, by rw [hr, resultAfter_idle _ hi]⟩

/-- Neither the journal nor what is left changes. -/
theorem of_eq (he : st₁.entries = st.entries) (hr : st₁.chain.result = st.chain.result) :
    Leaves st st₁ := of_idle (.of_entries_eq he) (by simp) hr

theorem refl (st : RunState) : Leaves st st := of_eq rfl rfl

theorem stirs (h : Stirs act s st st₁) : Leaves st st₁ := by
  obtain ⟨xs, hx, ha⟩ := Did.stirs h
  refine of_idle hx (fun x hm => (ha x hm).idle) ?_
  clear hx ha
  induction h with
  | refl => rfl
  | tail _ h ih => cases h <;> exact ih

theorem bound (st : RunState) (s : ScopeId) (b : Binding) : Leaves st (st.bound s b) :=
  of_idle (.bound st s b) (by simp [Entry.Idle]) rfl

theorem binds {i : Instruction} (h : Binds act i s st st₁) : Leaves st st₁ := by
  cases h with
  | result b _ => exact bound st _ b
  | parameter b _ => exact bound st s b

theorem tag {id : NodeId} {i : Instruction} (hk : Kept (act.begun id i t st) st₁)
    (h : Leaves (act.begun id i t st) st₁) : Leaves st (act.ended id i t st₁) := by
  obtain ⟨xs, hx, hr⟩ := h
  refine ⟨_, .tag hk hx, ?_⟩
  rw [resultAfter_pair]
  exact hr

/-- Opening and leaving a scope leaves everything else as it is. -/
theorem child {c : ScopeId} (h : Leaves (st.opened t) st₁) : Leaves st (st₁.left c) := h

/-- A built-in bean was called: a return leaves its value, the others leave what there was. -/
theorem call {b : Bean} {fs : Fields} {ts : List Program} {o : Ending}
    (hb : Builtin.Inner (.bean b))
    (h : Walk act (.deed (b.act fs) ts) t (st.log [.call b.typeName fs]) o st₁) :
    Leaves st st₁ := by
  have hcall : Did 0 st (st.log [.call b.typeName fs]) [.call b.typeName fs] := .log rfl st
  obtain ⟨ys, hy, hplain, hr, -⟩ := Builtin.walk_bean hb h
  refine ⟨_, hcall.trans hy, ?_⟩
  rw [resultAfter_append, resultAfter_of_no_call _ fun b fs hm => (hplain _ hm).2 b fs rfl]
  exact hr

/-- Another entity was run, and what was left before is left again. -/
theorem invoke {key : EntityKey} {o : Ending} {v : Option Value}
    (hw : Walk act (.entity key) t (st.withResult v) o st₁) (hpos : 0 < st.scopes.size) :
    Leaves st (st₁.withResult st.chain.result) := by
  obtain ⟨-, hd⟩ | ⟨name, q, q', hd⟩ := hw.did_entity hpos
  · exact ⟨_, hd, rfl⟩
  · exact ⟨_, hd, rfl⟩

end Leaves

/-- What is to be shown of a task: below the root, with the built-in tags, what is left is what the
journal says. -/
def Task.Leaving (st st' : RunState) : Task → Prop
  | .all ts => (∀ x ∈ Tree.labelsAll ts, Builtin.Inner x.2.tag) → 0 < st.scopes.size → Leaves st st'
  | .one p => (∀ x ∈ p.labels, Builtin.Inner x.2.tag) → 0 < st.scopes.size → Leaves st st'
  | .body i ts => Builtin.Inner i.tag → (∀ x ∈ Tree.labelsAll ts, Builtin.Inner x.2.tag) →
      0 < st.scopes.size → Leaves st st'
  | _ => True

theorem Walk.leaves {act : Activation} {task : Task} {t : ScopeId} {st st' : RunState} {o : Ending}
    (h : Walk act task t st o st') : task.Leaving st st' := by
  induction h with
  | nil | pass => exact fun _ _ => .refl _
  | @next _ _ _ _ st st₁ _ _ hw _ ih ih' =>
    intro hl hpos
    rw [Tree.labelsAll, List.forall_mem_append] at hl
    have hpos₁ : 0 < st₁.scopes.size := by rwa [(hw.kept hpos).size]
    exact (ih hl.1 hpos).trans (ih' hl.2 hpos₁)
  | stop _ _ ih =>
    intro hl hpos
    rw [Tree.labelsAll, List.forall_mem_append] at hl
    exact ih hl.1 hpos
  | node _ hw ih =>
    intro hl hpos
    rw [Tree.labels, List.forall_mem_cons] at hl
    exact .tag (hw.kept hpos) (ih hl.1 hl.2 hpos)
  | blamed _ hw _ hst ih =>
    intro hl hpos
    rw [Tree.labels, List.forall_mem_cons] at hl
    exact .tag ((hw.kept hpos).trans (.stirs hst)) ((ih hl.1 hl.2 hpos).trans (.stirs hst))
  | alone hst _ => exact fun _ _ _ => .stirs hst
  | @inside _ _ _ _ _ st st₁ _ _ _ _ hst _ ih =>
    intro _ hl hpos
    have hpos₁ : 0 < st₁.scopes.size := by rwa [(Kept.stirs hst).size]
    exact (Leaves.stirs hst).trans (ih hl hpos₁)
  | take hi _ _ =>
    intro htag
    rw [hi] at htag
    exact htag.elim
  | settle _ hst ih => exact fun htag hl hpos => (ih htag hl hpos).trans (.stirs hst)
  | bind _ _ hb ih => exact fun htag hl hpos => (ih htag hl hpos).trans (.binds hb)
  | refuse _ _ ih => exact ih
  | @fallback act i ts t st st₁ name id sig b _ _ _ _ ih =>
    intro _ hl hpos
    have hlooked : Leaves st (st.log [.vacant t id]) :=
      .of_idle (.log rfl st) (by simp [Entry.Idle]) rfl
    exact (hlooked.trans (ih hl hpos)).trans (.bound st₁ _ b)
  | halt _ _ _ ih => exact fun _ hl _ => .child (ih hl (RunState.size_opened_pos _ _))
  | misfit _ _ _ hst ih =>
    exact fun _ hl _ => .child ((ih hl (RunState.size_opened_pos _ _)).trans (.stirs hst))
  | @call _ _ _ _ st _ _ _ _ _ hi _ hw' ih _ =>
    intro htag hl _
    rw [hi] at htag
    exact .child ((ih hl (RunState.size_opened_pos _ _)).trans (.call htag hw'))
  | @invoke act _ _ t st st₁ st₂ target _ _ _ hi hw _ _ hw' ih _ =>
    intro _ hl _
    have hpos := RunState.size_opened_pos st t
    have hload : Stirs act t st₁ (st₁.loading act.engine.setup target) := .single (.load target)
    have hpos₁ : 0 < (st₁.loading act.engine.setup target).scopes.size :=
      (hw.kept hpos).size ▸ hpos
    exact .child (((ih hl hpos).trans (.stirs hload)).trans (.invoke hw' hpos₁))
  | done | fail | deed | again | unfound | summon => trivial
  | root | empty | missing | tooDeep | activate => trivial

/-! ### Runs -/

/-- What was done from a chain on which nothing was left. A success gives the value of the last
return and leaves nothing; a failure leaves the value of the last return. -/
def Isolated {α : Type} (val : α → Option Value) (xs : List Entry) :
    Except EngineError α → RunState → Prop
  | .ok a, st' => val a = resultAfter none xs ∧ st'.chain.result = none
  | .error _, st' => st'.chain.result = resultAfter none xs

/-- Nothing but the log comes after, and the value is given on. -/
theorem Isolated.after {α β : Type} {val : α → Option Value} {val' : β → Option Value}
    {xs ys : List Entry} {r : Except EngineError α} {st st' : RunState} {f : α → β}
    (h : Isolated val xs r st) (hi : ∀ y ∈ ys, y.Idle) (hr : st'.chain.result = st.chain.result)
    (hf : ∀ a, val' (f a) = val a) : Isolated val' (xs ++ ys) (r.map f) st' := by
  have hxs : resultAfter none (xs ++ ys) = resultAfter none xs := by
    rw [resultAfter_append, resultAfter_idle _ hi]
  cases r with
  | error e => exact hr.trans (h.trans hxs.symm)
  | ok a => exact ⟨(hf a).trans (h.1.trans hxs.symm), hr.trans h.2⟩

/-- The value of an outcome. -/
def Outcome.value? (o : Outcome) : Option Value := o.output.toValue?

theorem Outcome.value?_ofOption (v : Option Value) (sig : Signal) :
    Outcome.value? ⟨.ofOption v, sig⟩ = v := by
  cases v <;> rfl

namespace Activation

open Exec

variable {act : Activation} {s : ScopeId} {st : RunState}

/-- The root of a program made from the built-in tags takes what its children left, unless they
fail. -/
theorem exec_isolated {p : Program} (hp : Builtin.Built p)
    (hrun : ∀ key u, act.Follows (.entity key) u (act.run key u) Outcome.signal)
    (hpos : 0 < st.scopes.size) (hslot : st.chain.result = none) :
    (act.exec p s).Ends st fun r st' =>
      ∃ xs, Did 0 st st' xs ∧ Isolated Outcome.value? xs r st' := by
  obtain ⟨⟨id, i⟩, ts⟩ := p
  have htag : i.tag = .scenario := hp.tag
  have hguard : i.guard = none := hp.guard
  have hslot' : (act.begun id i s st).chain.result = none := hslot
  rw [exec]
  rcases hb : act.blocked? st.chain s with _ | sig
  · rcases hx : (act.execAll ts s).on (act.begun id i s st) with ⟨e | cs, st₁⟩
    · obtain ⟨e', st₂, hblame, hst⟩ := act.blame_on i s e st₁
      have hw := (execAll_walk hrun ts s).walk hx
      have hk := (hw.kept hpos).trans (.stirs hst)
      obtain ⟨xs, hd, hr⟩ := (hw.leaves hp.below hpos).trans (.stirs hst)
      rw [Ends, step_on_error hb (runNode_scenario_error htag hguard hx) hblame]
      refine ⟨_, .tag hk hd, ?_⟩
      rw [Isolated, resultAfter_pair, ← hslot']
      exact hr
    · have hw := (execAll_walk hrun ts s).walk hx
      obtain ⟨xs, hd, hr⟩ := hw.leaves hp.below hpos
      have hk := (hw.kept hpos).trans (.withResult st₁ none)
      have hd' : Did 0 (act.begun id i s st) (st₁.withResult none) xs := hd
      rw [Ends, step_on_ok hb (runNode_scenario_ok htag hguard hp.binding hx)]
      refine ⟨_, .tag hk hd', ?_, rfl⟩
      rw [Outcome.value?_ofOption, resultAfter_pair, hr, hslot']
  · simp only [step, ends_bind, on_chain, hb]
    exact ⟨[], .refl 0 st, rfl, hslot⟩

theorem execRoot_isolated {p : Option Program} (hp : ∀ q, p = some q → Builtin.Built q)
    (hrun : ∀ key u, act.Follows (.entity key) u (act.run key u) Outcome.signal)
    (hpos : 0 < st.scopes.size) (hslot : st.chain.result = none) :
    (act.execRoot p s).Ends st fun r st' =>
      ∃ xs, Did 0 st st' xs ∧ Isolated Outcome.value? xs r st' := by
  cases p with
  | some p => exact exec_isolated (hp p rfl) hrun hpos hslot
  | none =>
    simp only [execRoot, ends_bind, on_chain]
    rcases act.blocked? st.chain s with _ | sig
    · exact ⟨[], .refl 0 st, hslot⟩
    · exact ⟨[], .refl 0 st, rfl, hslot⟩

end Activation

namespace Engine

theorem runEntity_isolated (e : Engine) (depth : Nat) (key : EntityKey) (s : ScopeId)
    {st : RunState} (hb : st.world.Built) (hpos : 0 < st.scopes.size)
    (hslot : st.chain.result = none) :
    (e.runEntity depth key s).Ends st fun r st' =>
      ∃ xs, Did 1 st st' xs ∧ Isolated Outcome.value? xs r st' := by
  cases depth with
  | zero => exact ⟨[], .refl 1 st, hslot⟩
  | succ depth =>
    obtain ⟨act, ha⟩ : ∃ a, a = e.activation (e.runEntity depth) st.world key := ⟨_, rfl⟩
    have hrun : ∀ key u, act.Follows (.entity key) u (act.run key u) Outcome.signal := by
      rw [ha]
      exact e.activation_walk depth st.world key
    have hpos' : 0 < (act.entered s st).scopes.size := by simpa [Activation.entered] using hpos
    rcases hx : (act.execRoot ((st.world.entity? key).bind Entity.program) s).on (act.entered s st)
      with ⟨r, st₁⟩
    have hk := ((Activation.execRoot_walk hrun _).walk hx).kept hpos'
    have hroot := Activation.execRoot_isolated (s := s) (hb key) hrun hpos' hslot
    rw [Exec.Ends, hx] at hroot
    obtain ⟨xs, hd, hiso⟩ := hroot
    obtain ⟨ys, hd', haside⟩ := Did.inside hk hd
    rw [Exec.Ends, runEntity_on ha hx]
    refine ⟨xs ++ ys, hd', hiso.after (fun y hy => (haside y hy).idle) rfl fun o => ?_⟩
    by_cases ho : o.signal = .return
    · rw [if_pos ho]; rfl
    · rw [if_neg ho]

theorem run_isolated {e : Engine} (hreg : e.setup.registry = Builtin.registry) (depth : Nat)
    (name : String) (params : List (String × Value)) {st : RunState} (hb : st.world.Built)
    (hpos : 0 < st.scopes.size) (hslot : st.chain.result = none) :
    (e.run depth name params).Ends st fun r st' =>
      ∃ xs, Did 1 st st' xs ∧ Isolated id xs r st' := by
  have hload := Did.loading_outside st e.setup name
  rcases hl : ((e.setup.load name).run.run st.world).1 with err | key
  · rw [Exec.Ends, run_on_error hl]
    exact ⟨[], hload, hslot⟩
  · rcases hx : (e.runEntity depth key st.scopes.size).on (e.prepared name params st) with ⟨r, st₁⟩
    rw [Exec.Ends, run_on_ok hl hx]
    have hbuilt : (e.prepared name params st).world.Built := Setup.load_built hreg name hb
    have hpos' := e.size_prepared_pos name params st
    have hrun := e.runEntity_isolated depth key st.scopes.size hbuilt hpos' hslot
    rw [Exec.Ends, hx] at hrun
    obtain ⟨xs, hd, hiso⟩ := hrun
    have hd' : Did 1 (e.started name st) (st₁.left st.scopes.size) xs := hd
    refine ⟨_, hload.trans (.process ((kept_started hpos hx).seq Arena.root) hd'), ?_⟩
    rw [List.nil_append, ← List.append_nil xs]
    exact hiso.after (by simp) rfl fun _ => rfl

theorem built_run {e : Engine} (hreg : e.setup.registry = Builtin.registry) (depth : Nat)
    (name : String) (params : List (String × Value)) {st : RunState} (hb : st.world.Built) :
    (e.run depth name params).Ends st fun _ st' => st'.world.Built := by
  have hload : (st.loading e.setup name).world.Built := Setup.load_built hreg name hb
  rcases hl : ((e.setup.load name).run.run st.world).1 with err | key
  · rw [Exec.Ends, run_on_error hl]
    exact hload
  · rcases hx : (e.runEntity depth key st.scopes.size).on (e.prepared name params st) with ⟨r, st₁⟩
    rw [Exec.Ends, run_on_ok hl hx]
    exact ((e.activation_walk depth st.world key key _).walk hx).made
      (hreg ▸ Builtin.registry_makes) hload

end Engine

/-! ### Successive runs -/

/-- One of several runs on a chain. -/
structure Turn where
  /-- The state before. -/
  before : RunState
  /-- How it ended. -/
  result : Except EngineError (Option Value)
  /-- The state after. -/
  after : RunState

namespace Turn

/-- The value of the last return that the entity of the run executed itself, in this very run. -/
def returned (t : Turn) : Option Value :=
  resultAfter none (layer 1 0 (t.after.entries.drop t.before.entries.length))

/-- The run returned a value and then failed. -/
def Leaks (t : Turn) : Prop := (∃ e, t.result = .error e) ∧ t.returned ≠ none

theorem returned_eq {t : Turn} {xs : List Entry} (h : Did 1 t.before t.after xs) :
    t.returned = resultAfter none xs := by
  rw [returned, ← h.eq_layer]

/-- A run from a chain on which nothing is left. -/
theorem of_isolated {t : Turn} {xs : List Entry} (h : Did 1 t.before t.after xs)
    (hiso : Isolated id xs t.result t.after) :
    (∀ v, t.result = .ok v → v = t.returned) ∧ (t.after.chain.result = none ↔ ¬ t.Leaks) := by
  have hret := returned_eq h
  rcases hr : t.result with e | v
  · rw [hr] at hiso
    refine ⟨by rintro _ ⟨⟩, ?_⟩
    rw [show t.after.chain.result = resultAfter none xs from hiso, ← hret, Leaks, hr]
    simp
  · rw [hr] at hiso
    refine ⟨?_, ?_⟩
    · rintro _ ⟨⟩
      exact hiso.1.trans hret.symm
    · rw [Leaks, hr]
      simpa using hiso.2

end Turn

namespace Engine

/-- Successive runs on one chain, each of a resource with parameters. -/
def history (e : Engine) (depth : Nat) :
    RunState → List (String × List (String × Value)) → List Turn
  | _, [] => []
  | st, (name, params) :: calls =>
    let q := (e.run depth name params).on st
    ⟨st, q.1, q.2⟩ :: e.history depth q.2 calls

/-- **Results of successive runs.** On a chain on which nothing was left, and with entities made
from the built-in tags, as long as no earlier run has failed after returning a value, a run that
succeeds gives the value of its own last return, or none without one. What is left on the chain
after it is nothing, except if this run returned a value and then failed. -/
theorem history_results {e : Engine} (hreg : e.setup.registry = Builtin.registry) (depth : Nat)
    (calls : List (String × List (String × Value))) (st : RunState) (hb : st.world.Built)
    (hpos : 0 < st.scopes.size) (hslot : st.chain.result = none) :
    ∀ pre t post, e.history depth st calls = pre ++ t :: post → (∀ u ∈ pre, ¬ u.Leaks) →
      (∀ v, t.result = .ok v → v = t.returned) ∧ (t.after.chain.result = none ↔ ¬ t.Leaks) := by
  induction calls generalizing st with
  | nil =>
    intro pre t post h
    cases List.append_ne_nil_of_right_ne_nil pre (List.cons_ne_nil t post) h.symm
  | cons c calls ih =>
    obtain ⟨name, params⟩ := c
    intro pre t post h hpre
    obtain ⟨xs, hd, hiso⟩ := run_isolated hreg depth name params hb hpos hslot
    have hfirst := Turn.of_isolated (t := ⟨st, _, _⟩) hd hiso
    obtain ⟨rfl, ht⟩ | ⟨pre, rfl, hrest⟩ := List.cons_eq_append_iff.1 h
    · obtain ⟨rfl, -⟩ := List.cons.inj ht
      exact hfirst
    · rw [List.forall_mem_cons] at hpre
      have hkept := e.kept_run depth name params hpos
      exact ih _ (built_run hreg depth name params hb) (hkept.size ▸ hpos) (hfirst.2.2 hpre.1) pre t
        post hrest hpre.2

/-- Two runs on a new chain: the first one returns `1`, the second one cannot bind what it
returned. -/
theorem history_results_conflict :
    let e := Engine.ofSettings Builtin.registry .template {}
    let w : World := ({} : World).registerMemory 0 "main"
      "<scenario><return id=\"x\" value=\"1\"/></scenario>" true
    let st : RunState := ⟨w, e.chain⟩
    e.setup.registry = Builtin.registry ∧ st.world.Built ∧ 0 < st.scopes.size ∧
      st.chain.result = none ∧
      ∃ u t, e.history 10 st [("main", []), ("main", [("x", .str "taken")])] = [u] ++ t :: [] ∧
        (∀ u' ∈ [u], ¬ u'.Leaks) ∧
        (∀ v, t.result = .ok v → v = t.returned) ∧ (t.after.chain.result = none ↔ ¬ t.Leaks) := by
  intro e w st
  have hb : st.world.Built := World.built_of_none rfl
  have hpos : 0 < st.scopes.size := by decide
  let u : Turn := ⟨st, ((e.run 10 "main" []).on st).1, ((e.run 10 "main" []).on st).2⟩
  have hfirst : ∀ u' ∈ [u], ¬ u'.Leaks := by
    rintro _ hmem ⟨⟨err, herr⟩, -⟩
    obtain rfl := List.mem_singleton.1 hmem
    have hok : u.result.isOk = true := by decide +kernel
    rw [herr] at hok
    cases hok
  have hall := history_results (e := e) rfl 10 [("main", []), ("main", [("x", .str "taken")])] st
    hb hpos rfl
  exact ⟨rfl, hb, hpos, rfl, u, _, rfl, hfirst, hall [u] _ [] rfl hfirst⟩

/-- **A failed run can leave a value.** The first run returns `1` and then fails, since the name for
it is taken. The second run returns nothing, and yet gives `1`. -/
theorem history_gives_earlier_result :
    let e := Engine.ofSettings Builtin.registry .template {}
    let w : World := (({} : World).registerMemory 0 "main"
      "<scenario><return id=\"x\" value=\"1\"/></scenario>" true).registerMemory 0 "quiet"
      "<scenario/>" true
    let turns := e.history 10 ⟨w, e.chain⟩ [("main", [("x", .str "taken")]), ("quiet", [])]
    (turns.map fun t => t.after.chain.result.map Value.display) = [some "1", none] ∧
      (turns.map fun t => t.result.toOption.map fun v => v.map Value.display) =
        [none, some (some "1")] ∧
      (turns.map fun t => t.returned.map Value.display) = [some "1", none] := by
  decide +kernel

end Engine

end Scenario
