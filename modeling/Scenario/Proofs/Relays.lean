import Scenario.Proofs.Attribution

/-!
# Errors that beans hand on

The action of a bean may run what is below its instruction, or an entity, and fail because that
failed. What it then fails with are the texts of the error and of its causes, and nothing else of
the error: for its instruction this is a failure like any other. So the instruction of the bean
becomes the failing one, whatever the error was before.

* `WrappedBy e cs err`: the error `err` is `e`, wrapped by one instruction of `cs` after the other.
* `Relay`: the way of an error through a run, with the beans that hand it on. All other instructions
  that it passes leave it as it is.
* **`handed_on_errors_are_wrapped`**: every bean that hands an error on wraps it once more, so the
  error that leaves a run is the one that was raised exactly if no bean has handed it on.
-/

namespace Scenario

/-! ### Wrapped errors -/

/-- The error `err` is the failure of the instruction, with the texts of the error `e` as causes. -/
def Culprit.Wraps (c : Culprit) (e err : EngineError) : Prop :=
  ∃ r : RuntimeError, err = .runtime r ∧ r.tag = c.instruction.name ∧
    r.line = c.instruction.line ∧ r.resource = c.act.path ∧ r.causes = e.causes

/-- Instructions, given outermost first, have wrapped an error one after the other. -/
inductive WrappedBy (e : EngineError) : List Culprit → EngineError → Prop
  /-- None has. -/
  | none : WrappedBy e [] e
  /-- One more has. -/
  | more {c : Culprit} {cs : List Culprit} {e₁ err : EngineError} : WrappedBy e cs e₁ →
      c.Wraps e₁ err → WrappedBy e (c :: cs) err

namespace WrappedBy

variable {e err : EngineError} {cs : List Culprit}

/-- Every time an error is wrapped it gets one more cause. -/
theorem length_causes (h : WrappedBy e cs err) :
    err.causes.length = cs.length + e.causes.length := by
  induction h with
  | none => simp
  | more _ hwraps ih =>
    obtain ⟨r, rfl, -, -, -, hcauses⟩ := hwraps
    rw [EngineError.causes, List.length_cons, hcauses, ih, List.length_cons]
    omega

theorem eq_iff (h : WrappedBy e cs err) : err = e ↔ cs = [] := by
  constructor
  · rintro rfl
    have hlength := h.length_causes
    exact List.length_eq_zero_iff.1 (by omega)
  · rintro rfl
    cases h
    rfl

theorem isRuntime (h : WrappedBy e cs err) (hcs : cs ≠ []) : err.isRuntime = true := by
  cases h with
  | none => exact absurd rfl hcs
  | more _ hwraps =>
    obtain ⟨r, rfl, -⟩ := hwraps
    rfl

theorem ne_action (h : WrappedBy e cs err) (he : ∀ causes, e ≠ .action causes)
    (causes : List String) : err ≠ .action causes := by
  cases h with
  | none => exact he causes
  | more _ hwraps =>
    obtain ⟨r, rfl, -⟩ := hwraps
    rintro ⟨⟩

end WrappedBy

/-! ### The way of an error -/

open Activation in
/-- `Relay act task s st e cs o`: the activation runs the task in scope `s` from `st`, and on the
way the error `e` is raised, when the chain remembers the place `o`. The beans of the instructions
`cs`, given outermost first, hand it on. -/
inductive Relay : Activation → Task → ScopeId → RunState → EngineError → List Culprit →
    Option ErrorOrigin → Prop
  /-- The error leaves an instruction. -/
  | source {act : Activation} {p : Program} {s : ScopeId} {st st₁ : RunState} {e : EngineError} :
      (act.exec p s).on st = (.error e, st₁) → Relay act (.one p) s st e [] st₁.chain.origin
  /-- An entity fails before any of its instructions begins. -/
  | unentered {act : Activation} {key : EntityKey} {s : ScopeId} {st st₁ : RunState}
      {e : EngineError} : (act.run key s).on st = (.error e, st₁) → Unentered act key st e →
      Relay act (.entity key) s st e [] st₁.chain.origin
  /-- It passes an instruction. -/
  | inside {act : Activation} {id : NodeId} {i : Instruction} {ts : List Program} {s : ScopeId}
      {st : RunState} {e : EngineError} {cs : List Culprit} {o : Option ErrorOrigin} :
      act.blocked? st.chain s = none → Relay act (.body i ts) s (act.begun id i s st) e cs o →
      Relay act (.one (.node (id, i) ts)) s st e cs o
  /-- It comes from below an instruction. -/
  | under {act : Activation} {i : Instruction} {ts : List Program} {s v : ScopeId}
      {st st₁ : RunState} {e : EngineError} {cs : List Culprit} {o : Option ErrorOrigin} :
      allowed i st.scopes s = .ok true → Descends act i s st v st₁ →
      Relay act (.all ts) v st₁ e cs o → Relay act (.body i ts) s st e cs o
  /-- It comes from the entity that an instruction calls. -/
  | called {act : Activation} {i : Instruction} {ts : List Program} {s : ScopeId}
      {key : EntityKey} {st st₁ : RunState} {e : EngineError} {cs : List Culprit}
      {o : Option ErrorOrigin} : allowed i st.scopes s = .ok true → Calls act i ts s st key st₁ →
      Relay act (.entity key) st.scopes.size st₁ e cs o → Relay act (.body i ts) s st e cs o
  /-- It comes from the first program. -/
  | first {act : Activation} {t : Program} {ts : List Program} {s : ScopeId} {st : RunState}
      {e : EngineError} {cs : List Culprit} {o : Option ErrorOrigin} :
      Relay act (.one t) s st e cs o → Relay act (.all (t :: ts)) s st e cs o
  /-- It comes from a later program. -/
  | later {act : Activation} {t : Program} {ts : List Program} {s : ScopeId} {r : Outcome}
      {st st₁ : RunState} {e : EngineError} {cs : List Culprit} {o : Option ErrorOrigin} :
      (act.exec t s).on st = (.ok r, st₁) → r.signal = .none →
      Relay act (.all ts) s st₁ e cs o → Relay act (.all (t :: ts)) s st e cs o
  /-- It comes from the program of an entity. -/
  | entity {act : Activation} {depth : Nat} {key : EntityKey} {p : Program} {s : ScopeId}
      {st : RunState} {e : EngineError} {cs : List Culprit} {o : Option ErrorOrigin} :
      act.run = act.engine.runEntity (depth + 1) →
      (st.world.entity? key).bind Entity.program = some p →
      Relay (act.engine.activation (act.engine.runEntity depth) st.world key) (.one p) s
        ((act.engine.activation (act.engine.runEntity depth) st.world key).entered s st) e cs o →
      Relay act (.entity key) s st e cs o
  /-- The bean of an instruction hands it on. -/
  | handed {act : Activation} {id : NodeId} {i : Instruction} {ts : List Program} {s : ScopeId}
      {b : Bean} {r : Children} {fs : Fields} {st st₁ : RunState} {e : EngineError}
      {cs : List Culprit} {o : Option ErrorOrigin} : act.blocked? st.chain s = none →
      allowed i (act.begun id i s st).scopes s = .ok true → i.tag = .bean b →
      (act.execAll ts st.scopes.size).on ((act.begun id i s st).opened s) = (.ok r, st₁) →
      r.signal = .none → act.fit i b st₁.scopes st.scopes.size = .ok fs →
      Relay act (.deed (b.act fs) ts) st.scopes.size (st₁.log [.call b.typeName fs]) e cs o →
      Relay act (.one (.node (id, i) ts)) s st e (⟨act, id, i, s⟩ :: cs) o
  /-- The action of a bean makes a request before. -/
  | deed {act : Activation} {a a' : Action} {ts : List Program} {s : ScopeId} {st st₁ : RunState}
      {e : EngineError} {cs : List Culprit} {o : Option ErrorOrigin} : Deed act s st a a' st₁ →
      Relay act (.deed a' ts) s st₁ e cs o → Relay act (.deed a ts) s st e cs o
  /-- What is below the instruction of a bean runs well before. -/
  | repeated {act : Activation} {next : Except EngineError Children → Action} {ts : List Program}
      {s : ScopeId} {r : Children} {st st₁ : RunState} {e : EngineError} {cs : List Culprit}
      {o : Option ErrorOrigin} : (act.execAll ts s).on st = (.ok r, st₁) →
      Relay act (.deed (next (.ok r)) ts) s st₁ e cs o →
      Relay act (.deed (.children next) ts) s st e cs o
  /-- An entity that a bean calls runs well before. -/
  | summoned {act : Activation} {name : String} {next : Except EngineError Outcome → Action}
      {ts : List Program} {s : ScopeId} {key : EntityKey} {r : Outcome} {st st₁ : RunState}
      {e : EngineError} {cs : List Culprit} {o : Option ErrorOrigin} :
      ((act.engine.setup.load name).run.run st.world).1 = .ok key →
      (act.run key st.scopes.size).on ((st.opened s).loading act.engine.setup name) =
        (.ok r, st₁) →
      Relay act (.deed (next (.ok r)) ts) s (st₁.left st.scopes.size) e cs o →
      Relay act (.deed (.invoke name next) ts) s st e cs o
  /-- It comes from below the instruction of a bean, which gives up. -/
  | again {act : Activation} {next : Except EngineError Children → Action} {ts : List Program}
      {s : ScopeId} {st : RunState} {e : EngineError} {cs : List Culprit}
      {o : Option ErrorOrigin} : (∀ err, next (.error err) = .fail (.ofError err)) →
      Relay act (.all ts) s st e cs o → Relay act (.deed (.children next) ts) s st e cs o
  /-- It comes from an entity that a bean calls, which gives up. -/
  | summon {act : Activation} {name : String} {next : Except EngineError Outcome → Action}
      {ts : List Program} {s : ScopeId} {key : EntityKey} {st : RunState} {e : EngineError}
      {cs : List Culprit} {o : Option ErrorOrigin} :
      (∀ err, next (.error err) = .fail (.ofError err)) →
      ((act.engine.setup.load name).run.run st.world).1 = .ok key →
      Relay act (.entity key) st.scopes.size ((st.opened s).loading act.engine.setup name) e cs o →
      Relay act (.deed (.invoke name next) ts) s st e cs o
  /-- The entity that a bean calls cannot be had, and the bean gives up. -/
  | unfound {act : Activation} {name : String} {next : Except EngineError Outcome → Action}
      {ts : List Program} {s : ScopeId} {err : ParseError} {st : RunState} :
      (∀ err, next (.error err) = .fail (.ofError err)) →
      ((act.engine.setup.load name).run.run st.world).1 = .error err →
      Relay act (.deed (.invoke name next) ts) s st (.parse err) [] st.chain.origin

/-! ### The error that leaves a run -/

/-- The chain still remembers a place, if it did. -/
def RunState.Remembers (st : RunState) (o : Option ErrorOrigin) : Prop :=
  ∀ x, o = some x → st.chain.origin = some x

/-- A step fails with an error that some beans have wrapped, and the chain still remembers where it
was raised. -/
def Exec.HandsBack {α : Type} (x : Exec α) (st : RunState) (e : EngineError) (cs : List Culprit)
    (o : Option ErrorOrigin) : Prop :=
  ∃ err st', x.on st = (.error err, st') ∧ WrappedBy e cs err ∧ st'.Remembers o

namespace Activation

open Exec

variable {act : Activation} {i : Instruction} {s : ScopeId} {ts : List Program} {st : RunState}
  {e : EngineError} {cs : List Culprit} {o : Option ErrorOrigin}

/-- An instruction attributes the failure of an action to itself and leaves other errors as they
are. The place of an earlier failure stays. -/
theorem blame_on_any (act : Activation) (id : NodeId) (i : Instruction) (s : ScopeId)
    (e : EngineError) (st : RunState) :
    ∃ st', (act.blame i s e).on st = (.ok (Culprit.verdict ⟨act, id, i, s⟩ st e), st') ∧
      st'.Remembers st.chain.origin := by
  cases ho : st.chain.origin with
  | none =>
    obtain ⟨st', hblame, -⟩ := act.blame_on_clean id i s ho e
    exact ⟨st', hblame, nofun⟩
  | some x =>
    simp only [blame, on_bind, on_chain, ho, Option.isNone_some, Bool.false_eq_true, if_false]
    cases e with
    | action causes => exact ⟨_, rfl, fun y hy => ho.trans hy⟩
    | parse _ | conflict _ | runtime _ | tooDeep => exact ⟨_, rfl, fun y hy => ho.trans hy⟩

/-- What leaves an instruction is attributed to one. -/
theorem exec_ne_action {p : Program} {st₁ : RunState} (hx : (act.exec p s).on st = (.error e, st₁))
    (causes : List String) : e ≠ .action causes := by
  obtain ⟨⟨id, i⟩, ts⟩ := p
  rw [exec] at hx
  cases hb : act.blocked? st.chain s with
  | some sig =>
    rw [step_on_blocked hb] at hx
    cases hx
  | none =>
    rcases hnode : (act.runNode i s (act.execAll ts)).on (act.begun id i s st) with ⟨e' | r, u⟩
    · obtain ⟨u', hblame, -⟩ := act.blame_on_any id i s e' u
      rw [step_on_error hb hnode hblame] at hx
      cases hx
      exact Culprit.verdict_ne_action _ u e' causes
    · rw [step_on_ok hb hnode] at hx
      cases hx

/-- The step that runs a task fails with an error that some beans have wrapped. The action of a bean
fails with the texts of such an error. -/
def HandsBack (act : Activation) (s : ScopeId) (st : RunState) (e : EngineError) (cs : List Culprit)
    (o : Option ErrorOrigin) : Task → Prop
  | .one p => (act.exec p s).HandsBack st e cs o
  | .all ps => (act.execAll ps s).HandsBack st e cs o
  | .body i ts => (act.runNode i s (act.execAll ts)).HandsBack st e cs o
  | .deed a ts => ∃ err st', (act.perform s (act.execAll ts) a).on st =
      (.error (.action err.causes), st') ∧ WrappedBy e cs err ∧ st'.Remembers o
  | .entity key => (act.run key s).HandsBack st e cs o
  | .root _ => False

/-- One request of the action of a bean is made, and the action goes on. -/
theorem Deed.perform_on {a a' : Action} {st₁ : RunState} (h : Deed act s st a a' st₁)
    (kids : ScopeId → Exec Children) :
    (act.perform s kids a).on st = (act.perform s kids a').on st₁ := by
  cases h <;> rfl

/-- The action of a bean runs what is below its instruction, and goes on with what comes of it. -/
theorem perform_children_on {kids : ScopeId → Exec Children}
    {next : Except EngineError Children → Action} {r : Except EngineError Children}
    {st₁ : RunState} (hx : (kids s).on st = (r, st₁)) :
    (act.perform s kids (.children next)).on st = (act.perform s kids (next r)).on st₁ := by
  simp only [perform, on_bind, on_attempt, hx]

/-- The action of a bean runs an entity in a new scope, and goes on with what comes of it. -/
theorem perform_invoke_on {name : String} {next : Except EngineError Outcome → Action}
    {kids : ScopeId → Exec Children} {key : EntityKey} {r : Except EngineError Outcome}
    {st₁ : RunState} (hl : ((act.engine.setup.load name).run.run st.world).1 = .ok key)
    (hx : (act.run key st.scopes.size).on ((st.opened s).loading act.engine.setup name) =
      (r, st₁)) :
    (act.perform s kids (.invoke name next)).on st =
      (act.perform s kids (next r)).on (st₁.left st.scopes.size) := by
  have hload : ((act.engine.setup.load name).run.run (st.opened s).world).1 = .ok key := hl
  simp only [perform, on_bind, on_attempt, on_inChildScope, on_load, hload, mapError_ok, hx]

/-- The action of a bean goes on without the entity that it cannot have. -/
theorem perform_invoke_on_error {name : String} {next : Except EngineError Outcome → Action}
    {kids : ScopeId → Exec Children} {err : ParseError}
    (hl : ((act.engine.setup.load name).run.run st.world).1 = .error err) :
    (act.perform s kids (.invoke name next)).on st =
      (act.perform s kids (next (.error (.parse err)))).on
        (((st.opened s).loading act.engine.setup name).left st.scopes.size) := by
  have hload : ((act.engine.setup.load name).run.run (st.opened s).world).1 = .error err := hl
  simp only [perform, on_bind, on_attempt, on_inChildScope, on_load, hload, mapError_error]

/-- A bean fails with its action. -/
theorem runTag_on_action_error {b : Bean} {r : Children} {fs : Fields} {st₁ st₂ : RunState}
    (ht : i.tag = .bean b)
    (hkids : (act.execAll ts st.scopes.size).on (st.opened s) = (.ok r, st₁))
    (hsig : r.signal = .none) (hfit : act.fit i b st₁.scopes st.scopes.size = .ok fs)
    (hx : (act.perform st.scopes.size (act.execAll ts) (b.act fs)).on
      (st₁.log [.call b.typeName fs]) = (.error e, st₂)) :
    (act.runTag i s (act.execAll ts)).on st = (.error e, st₂.left st.scopes.size) := by
  rw [fit] at hfit
  rw [runTag, ht]
  simp only [runBean, on_inChildScope, on_bind, hkids, hsig, ne_eq, not_true, if_false, on_scopes,
    on_orFail, hfit, mapError_ok, on_enter, hx]

end Activation

namespace Relay

open Exec Activation

variable {act : Activation} {task : Task} {s : ScopeId} {st : RunState} {e : EngineError}
  {cs : List Culprit} {o : Option ErrorOrigin}

theorem ne_action (h : Relay act task s st e cs o) (causes : List String) :
    e ≠ .action causes := by
  induction h with
  | source hx => exact exec_ne_action hx causes
  | unentered _ hun =>
    obtain ⟨-, rfl⟩ | ⟨-, rfl⟩ := hun <;> rintro ⟨⟩
  | unfound _ _ => rintro ⟨⟩
  | inside _ _ ih | under _ _ _ ih | called _ _ _ ih | first _ ih | later _ _ _ ih | entity _ _ _ ih
  | handed _ _ _ _ _ _ _ ih | deed _ _ ih | repeated _ _ ih | summoned _ _ _ ih | again _ _ ih
  | summon _ _ _ ih => exact ih

/-- **What becomes of an error on its way**, by induction on the way. An instruction wraps what the
action of its bean fails with, and leaves every other error as it is. -/
theorem handsBack (h : Relay act task s st e cs o) : act.HandsBack s st e cs o task := by
  induction h with
  | source hx => exact ⟨_, _, hx, .none, fun x hx => hx⟩
  | unentered hx _ => exact ⟨_, _, hx, .none, fun x hx => hx⟩
  | @inside act id i ts s st e cs o hb hbody ih =>
    obtain ⟨err, st₁, hx, hwrapped, ho⟩ := ih
    obtain ⟨st₂, hblame, hkept⟩ := act.blame_on_any id i s err st₁
    have hsame : Culprit.verdict ⟨act, id, i, s⟩ st₁ err = err := by
      cases err with
      | action causes => exact absurd rfl (hwrapped.ne_action hbody.ne_action causes)
      | parse _ | conflict _ | runtime _ | tooDeep => rfl
    rw [hsame] at hblame
    refine ⟨err, act.ended id i s st₂, ?_, hwrapped, fun x hx => hkept x (ho x hx)⟩
    rw [exec, step_on_error hb hx hblame]
  | under ha hd _ ih =>
    obtain ⟨err, st₂, hx, hwrapped, ho⟩ := ih
    obtain ⟨st', hon, horigin⟩ := hd.on hx
    exact ⟨err, st', runNode_on_error ha hon, hwrapped, fun x hx => horigin.trans (ho x hx)⟩
  | called ha hcall _ ih =>
    obtain ⟨err, st₂, hx, hwrapped, ho⟩ := ih
    obtain ⟨v, hon⟩ := hcall.runTag_on hx
    exact ⟨err, _, runNode_on_error ha hon, hwrapped, ho⟩
  | first _ ih =>
    obtain ⟨err, st', hx, hwrapped, ho⟩ := ih
    refine ⟨err, st', ?_, hwrapped, ho⟩
    simp only [execAll, on_bind, hx]
  | later hx hsig _ ih =>
    obtain ⟨err, st', hy, hwrapped, ho⟩ := ih
    refine ⟨err, st', ?_, hwrapped, ho⟩
    simp only [execAll, on_bind, hx, hsig, ne_eq, not_true, if_false, hy]
  | @entity act depth key p s st e cs o hrun hp _ ih =>
    obtain ⟨err, st₁, hx, hwrapped, ho⟩ := ih
    have hroot : ((act.engine.activation (act.engine.runEntity depth) st.world key).execRoot
        ((st.world.entity? key).bind Entity.program) s).on
        ((act.engine.activation (act.engine.runEntity depth) st.world key).entered s st) =
        (.error err, st₁) := by
      rw [hp]
      exact hx
    have hentity := Engine.runEntity_on rfl hroot
    rw [← hrun] at hentity
    exact ⟨err, _, hentity, hwrapped, fun x hx => ho x hx⟩
  | @handed act id i ts s b r fs st st₁ e cs o hb ha ht hkids hsig hfit _ ih =>
    obtain ⟨err, st₂, hx, hwrapped, ho⟩ := ih
    -- the tag fails with the texts of the error, which the instruction takes for its own failure
    have htag : (act.runTag i s (act.execAll ts)).on (act.begun id i s st) =
        (.error (.action err.causes), st₂.left st.scopes.size) :=
      runTag_on_action_error ht hkids hsig hfit hx
    obtain ⟨st₃, hblame, hkept⟩ :=
      act.blame_on_any id i s (.action err.causes) (st₂.left st.scopes.size)
    refine ⟨Culprit.verdict ⟨act, id, i, s⟩ (st₂.left st.scopes.size) (.action err.causes),
      act.ended id i s st₃, ?_, .more hwrapped ⟨_, rfl, rfl, rfl, rfl, rfl⟩,
      fun x hx => hkept x (ho x hx)⟩
    rw [exec, step_on_error hb (runNode_on_error ha htag) hblame]
  | deed hd _ ih =>
    obtain ⟨err, st', hx, hwrapped, ho⟩ := ih
    exact ⟨err, st', (Deed.perform_on hd _).trans hx, hwrapped, ho⟩
  | repeated hx _ ih =>
    obtain ⟨err, st', hy, hwrapped, ho⟩ := ih
    exact ⟨err, st', (perform_children_on hx).trans hy, hwrapped, ho⟩
  | summoned hl hx _ ih =>
    obtain ⟨err, st', hy, hwrapped, ho⟩ := ih
    exact ⟨err, st', (perform_invoke_on hl hx).trans hy, hwrapped, ho⟩
  | again hgives _ ih =>
    obtain ⟨err, st', hx, hwrapped, ho⟩ := ih
    refine ⟨err, st', (perform_children_on hx).trans ?_, hwrapped, ho⟩
    rw [hgives]
    rfl
  | @summon act name next ts s key st e cs o hgives hl _ ih =>
    obtain ⟨err, st', hx, hwrapped, ho⟩ := ih
    refine ⟨err, st'.left st.scopes.size, (perform_invoke_on hl hx).trans ?_, hwrapped,
      fun x hx => ho x hx⟩
    rw [hgives]
    rfl
  | @unfound act name next ts s err st hgives hl =>
    refine ⟨.parse err, ((st.opened s).loading act.engine.setup name).left st.scopes.size,
      (perform_invoke_on_error hl).trans ?_, .none, fun x hx => hx⟩
    rw [hgives]
    rfl

end Relay

/-! ### Two beans that hand errors on -/

/-- The state in which a step fails. -/
theorem Exec.on_of_error {α : Type} {x : Exec α} {st : RunState} {err : EngineError}
    (h : ((x.on st).1.map fun _ => ()) = .error err) : x.on st = (.error err, (x.on st).2) := by
  rcases hx : x.on st with ⟨e | a, st'⟩
  · rw [hx] at h
    rw [Except.error.inj h]
  · rw [hx] at h
    cases h

/-- A bean that runs what is below its instruction once more, and gives up if that fails. -/
def Bean.again : Bean where
  typeName := "again"
  schema := { fields := [] }
  act _ := .children fun
    | .ok _ => .done none
    | .error err => .fail (.ofError err)

/-- A bean that runs the entity `second`, and gives up if that fails. -/
def Bean.summon : Bean where
  typeName := "summon"
  schema := { fields := [] }
  act _ := .invoke "second" fun
    | .ok _ => .done none
    | .error err => .fail (.ofError err)

/-- The built-in tags and the two beans. -/
def Registry.handing : Registry :=
  { Builtin.registry with
    libraries := [Builtin.library,
      ⟨"test", "urn:tagflow:test", [("again", .bean .again), ("summon", .bean .summon)]⟩] }

open Exec Activation in
/-- The bean hands on what fails only when it runs it once more. -/
theorem Relay.of_again {act : Activation} {id : NodeId} {i : Instruction} {ts : List Program}
    {s : ScopeId} {st : RunState} {raised : EngineError} {cs : List Culprit}
    {o : Option ErrorOrigin} (hb : act.blocked? st.chain s = none)
    (ha : allowed i (act.begun id i s st).scopes s = .ok true) (ht : i.tag = .bean .again) :
    let first := (act.execAll ts st.scopes.size).on ((act.begun id i s st).opened s)
    (first.1.map Children.signal = .ok .none) →
      (act.fit i .again first.2.scopes st.scopes.size).toOption.map List.isEmpty = some true →
      Relay act (.all ts) st.scopes.size (first.2.log [.call "again" []]) raised cs o →
      Relay act (.one (.node (id, i) ts)) s st raised (⟨act, id, i, s⟩ :: cs) o := by
  intro first hsig hfit h
  rcases hx : first with ⟨e | r, st₁⟩
  · rw [hx] at hsig
    cases hsig
  · rw [hx] at hsig hfit h
    have hfields : act.fit i .again st₁.scopes st.scopes.size = .ok [] := by
      cases hf : act.fit i .again st₁.scopes st.scopes.size with
      | error _ =>
        rw [hf] at hfit
        cases hfit
      | ok fs =>
        rw [hf] at hfit
        rw [List.isEmpty_iff.1 (Option.some.inj hfit)]
    exact .handed hb ha ht hx (Except.ok.inj hsig) hfields (.again (fun _ => rfl) h)

/-! ### The error that leaves the engine -/

namespace Engine

open Exec Activation

/-- **Every bean that hands an error on wraps it once more.** An error is raised while a program or
a resource runs, and beans nested to any depth hand it on: the run fails with that error, wrapped by
the instruction of every one of these beans, the innermost first. So what leaves the run is the
error that was raised exactly if no bean has handed it on; otherwise it is the failure of the
outermost of these instructions, also where it was a conflict, a failure to parse or the failure of
another instruction before. The chain remembers the place of the first failure all the same. -/
theorem handed_on_errors_are_wrapped (e : Engine) (depth : Nat) (st : RunState)
    (raised : EngineError) (cs : List Culprit) (o : Option ErrorOrigin) :
    (∀ w key p s, Relay (e.activation (e.runEntity depth) w key) (.one p) s st raised cs o →
      ∃ err st', ((e.activation (e.runEntity depth) w key).exec p s).on st = (.error err, st') ∧
        WrappedBy raised cs err ∧ err.causes.length = cs.length + raised.causes.length ∧
        (err = raised ↔ cs = []) ∧ (cs ≠ [] → err.isRuntime = true) ∧ st'.Remembers o) ∧
    ∀ name params key, ((e.setup.load name).run.run st.world).1 = .ok key →
      Relay (e.activation (e.runEntity depth) st.world key) (.entity key) st.scopes.size
        (e.prepared name params st) raised cs o →
      ∃ err st', (e.run depth name params).on st = (.error err, st') ∧
        WrappedBy raised cs err ∧ err.causes.length = cs.length + raised.causes.length ∧
        (err = raised ↔ cs = []) ∧ (cs ≠ [] → err.isRuntime = true) ∧ st'.Remembers o := by
  constructor
  · intro w key p s h
    obtain ⟨err, st', hx, hwrapped, ho⟩ := h.handsBack
    exact ⟨err, st', hx, hwrapped, hwrapped.length_causes, hwrapped.eq_iff, hwrapped.isRuntime, ho⟩
  · intro name params key hl h
    obtain ⟨err, st₁, hx, hwrapped, ho⟩ := h.handsBack
    exact ⟨err, _, run_on_ok hl hx, hwrapped, hwrapped.length_causes, hwrapped.eq_iff,
      hwrapped.isRuntime, fun x hx => ho x hx⟩

/-- The inner one of two beans runs only when the outer one runs it once more. The name `y` is bound
twice then, and what leaves the outer one is no conflict but a failure with two causes. -/
theorem handed_on_errors_are_wrapped_nested :
    let e := Engine.ofSettings .handing .template {}
    let act := e.activation (e.runEntity 10) {} 0
    let st := act.entered 0 ⟨{}, {}⟩
    let name (x : String) : Option ResultId := some ⟨⟨x, fun _ _ => .ok (.str x)⟩, "id", false⟩
    let bound : Guard := ⟨⟨"x", fun a s => .ok (.bool (a.get? s "x").isSome)⟩, false⟩
    let inner : Instruction := ⟨"again", 3, some bound, none, .bean .again⟩
    let outer : Instruction := ⟨"again", 2, none, none, .bean .again⟩
    let p : Program := .node (1, outer) [.node (2, inner) [.node (3, ⟨"literal", 4, none, name "y",
      .literal "b"⟩) []], .node (4, ⟨"literal", 5, none, name "x", .literal "a"⟩) []]
    (∃ o, Relay act (.one p) 0 st (.conflict ⟨"y", 0⟩) [⟨act, 1, outer, 0⟩, ⟨act, 2, inner, 1⟩] o) ∧
      ∃ err st', (act.exec p 0).on st = (.error err, st') ∧ err.isRuntime = true ∧
        err.causes.length = 3 ∧ err ≠ .conflict ⟨"y", 0⟩ := by
  intro e act st name bound inner outer p
  have hrelay : ∃ o, Relay act (.one p) 0 st (.conflict ⟨"y", 0⟩)
      [⟨act, 1, outer, 0⟩, ⟨act, 2, inner, 1⟩] o :=
    ⟨_, .of_again rfl rfl rfl (by decide +kernel) (by decide +kernel)
      (.first (.of_again (by decide +kernel) (by decide +kernel) rfl (by decide +kernel)
        (by decide +kernel) (.first (.source (on_of_error (by decide +kernel))))))⟩
  refine ⟨hrelay, ?_⟩
  obtain ⟨o, hrelay⟩ := hrelay
  obtain ⟨err, st', hx, -, hlength, hsame, hruntime, -⟩ :=
    (handed_on_errors_are_wrapped e 10 st _ _ o).1 {} 0 p 0 hrelay
  exact ⟨err, st', hx, hruntime (List.cons_ne_nil _ _), hlength,
    fun h => List.cons_ne_nil _ _ (hsame.1 h)⟩

/-- Binding a name twice is a conflict. Where a bean binds it again by running what is below it once
more, the conflict becomes the failure of that bean; and where this happens in an entity that
another bean calls, that failure becomes the failure of the other bean. -/
theorem conflict_handed_on_twice :
    let e := Engine.ofSettings .handing .template {}
    let w : World := ((({} : World).registerMemory 0 "first"
      "<scenario><literal id=\"x\">a</literal><literal id=\"x\">b</literal></scenario>"
      true).registerMemory 0 "second"
      "<scenario>\n<again><literal id=\"x\">a</literal></again></scenario>" true).registerMemory 0
      "main" "<scenario><summon/></scenario>" true
    let error (name : String) := (((e.run 10 name []).on ⟨w, {}⟩).1.map fun _ => ())
    error "first" = .error (.conflict ⟨"x", 1⟩) ∧
      error "second" = .error (.runtime ⟨"again", 2, "mem:second", 1,
        ["<again> line 2 of 'second'", "<scenario> line 1 of 'second'"],
        ["Id 'x' is already bound in scope #1"]⟩) ∧
      error "main" = .error (.runtime ⟨"summon", 1, "mem:main", 1,
        ["<summon> line 1 of 'main'", "<scenario> line 1 of 'main'"],
        ["Error executing <again> at line 2 of mem:second: Id 'x' is already bound in scope #3",
          "Id 'x' is already bound in scope #3"]⟩) := by
  decide +kernel

end Engine

end Scenario
