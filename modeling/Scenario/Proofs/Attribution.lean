import Scenario.Library.Probe
import Scenario.Proofs.Blame

/-!
# Every failure is attributed once

`Scenario.Proofs.Blame` says that an error that leaves a run comes from a mishap and belongs to its
culprit. Here is the converse: what goes wrong in a run comes out of it. Together they say that
there is an error exactly if there was a mishap, and that all mishaps that a run might have had are
reported as the same one.

* `TagFault.on`, `NodeFault.on` — an instruction that fails by itself ends with the error it raised.
* `Descends.on`, `Calls.runTag_on` — an instruction ends with the error of what it runs.
* **`Mishap.reported`** — a run with a mishap ends with the error of the culprit, and the chain
  remembers the place.
* **`Engine.failures_are_attributed_once`** — both directions, for every way to start a run.
-/

namespace Scenario

namespace Activation

open Exec

variable {act : Activation} {i : Instruction} {s v : ScopeId} {ts : List Program}
  {st st₁ st₂ u : RunState} {e : EngineError}

/-! ### The error of an instruction -/

/-- A tag that fails by itself ends with the error, and until then nothing has happened to what an
attribution reads. -/
theorem TagFault.on (h : TagFault act i ts s st e u) (hact : act.Accountable) (hsolo : i.tag.Solo)
    (hk : act.Answer ts) (hst : Fresh s st) :
    ∃ st', (act.runTag i s (act.execAll ts)).on st = (.error e, st') ∧ SameSite s u st' ∧
      st'.chain.origin = none := by
  have hkids := hk _ _ hst.opened
  cases h with
  | name ht hway =>
    refine ⟨u, ?_, .refl s u, ((givesWay_steady i s st).of_on hway).2.1.trans hst.clean⟩
    rw [runTag, ht]
    simp only [runData, on_bind, if_true, hway]
  | @value name mode fallback cs _ st₁ st₂ _ ht hway hx hy =>
    obtain ⟨-, hst₁⟩ := (Descends.data ht hway : Descends act i s st _ st₁).fresh hst
    obtain ⟨-, hst₂⟩ := hact.after_execAll hk hst₁ hx
    have hstore := act.storeData_steady i s name mode fallback cs
    refine ⟨u, ?_, .refl s u, ((hstore st₂).of_on hy).2.1.trans hst₂.clean⟩
    have hdata := act.runData_on (act.execAll ts) ht hway
    rw [runTag, ht]
    simp only [hdata, on_bind, hx, hy]
  | expression ht hv =>
    refine ⟨st, ?_, .refl s st, hst.clean⟩
    rw [runTag, ht]
    simp only [on_bind, on_scopes, on_orFail, hv, mapError_error]
  | @mutex name timeout _ _ ht hx =>
    obtain ⟨causes, _, hun, hon⟩ | ⟨text, millis, locks, g, -, -, -, hon⟩ :=
      act.runMutex_on s name timeout st
    · rw [hon] at hx
      cases hx
      refine ⟨u, ?_, .refl s u, ?_⟩
      · rw [runTag, ht]
        exact hon _
      · rw [hun.chain_eq]
        exact hst.clean
    · rw [hon (on_pure _ _)] at hx
      cases hx
  | resource ht hx hc hl =>
    refine ⟨_, ?_, .left hst.live _, hkids.of_on hx⟩
    rw [runTag, ht]
    simp only [runInvoke, on_inChildScope, on_bind, hx, hc, if_false, on_load, hl, mapError_error]
  | entity hcall hy hun =>
    obtain ⟨v, hon⟩ := hcall.runTag_on hy
    obtain ⟨-, hst₁⟩ := hcall.fresh hact hk hst
    refine ⟨_, hon, .withResult_left hst.live u v, ?_⟩
    obtain ⟨hnone, -⟩ | ⟨hrun, -⟩ := hun
    · obtain ⟨c, fs, raw, u', hm, -⟩ | ⟨-, horigin⟩ := (hact.returns _ _ _ hst₁).of_on hy
      · cases hm with
        | entity _ hp _ => rw [hnone] at hp; cases hp
      · exact horigin
    · rw [hrun] at hy
      cases hy
      exact hst₁.clean
  | fields ht hx hc hfit =>
    refine ⟨_, ?_, .left hst.live _, hkids.of_on hx⟩
    rw [fit] at hfit
    rw [runTag, ht]
    simp only [runBean, on_inChildScope, on_bind, hx, hc, ne_eq, not_true, if_false, on_scopes,
      on_orFail, hfit, mapError_error]
  | @action b cs fs _ st₁ _ ht hx hc hfit hp =>
    have hperform := act.perform_steady st.scopes.size (act.execAll ts) (b.act fs)
      (by rw [ht] at hsolo; exact hsolo fs)
    refine ⟨_, ?_, .left hst.live _, ((hperform _).of_on hp).2.1.trans (hkids.of_on hx)⟩
    rw [fit] at hfit
    rw [runTag, ht]
    simp only [runBean, on_inChildScope, on_bind, hx, hc, ne_eq, not_true, if_false, on_scopes,
      on_orFail, hfit, mapError_ok, on_enter, hp]

/-- A tag ends with the error of what is below it. -/
theorem Descends.on (h : Descends act i s st v st₁)
    (hx : (act.execAll ts v).on st₁ = (.error e, st₂)) :
    ∃ st', (act.runTag i s (act.execAll ts)).on st = (.error e, st') ∧
      st'.chain.origin = st₂.chain.origin := by
  cases h with
  | plain ht =>
    refine ⟨st₂, ?_, rfl⟩
    obtain ht | ⟨_, ht⟩ | ht := ht
    · rw [runTag, ht]
      simp only [on_bind, hx]
    · rw [runTag, ht]
      simp only [on_bind, hx]
    · rw [runTag, ht]
      simp only [runBranch, on_bind, hx]
  | alternative ht hran =>
    refine ⟨st₂, ?_, rfl⟩
    rw [runTag, ht]
    simp only [on_bind, on_scopes, hran, Bool.false_eq_true, if_false, runBranch, hx]
  | data ht hway =>
    refine ⟨st₂, ?_, rfl⟩
    have hdata := act.runData_on (act.execAll ts) ht hway
    rw [runTag, ht]
    simp only [hdata, on_bind, hx]
  | @mutex name timeout text millis locks g ht hname htime hq =>
    refine ⟨st₂.unlocked text g, ?_, rfl⟩
    rw [runTag, ht]
    simp only [runMutex, on_bind, on_scopes, on_orFail, hname, htime, mapError_ok,
      runLocked_on_ok hq hx]
    rfl
  | call hcalls =>
    refine ⟨st₂.left st.scopes.size, ?_, rfl⟩
    unfold runTag
    cases ht : i.tag with
    | invoke target => simp only [runInvoke, on_inChildScope, on_bind, hx]
    | bean b => simp only [runBean, on_inChildScope, on_bind, hx]
    | _ => simp [ht, Tag.calls] at hcalls

/-- An instruction whose condition holds ends with the error of its tag. -/
theorem runNode_on_error (ha : allowed i st.scopes s = .ok true)
    (hx : (act.runTag i s (act.execAll ts)).on st = (.error e, st₁)) :
    (act.runNode i s (act.execAll ts)).on st = (.error e, st₁) := by
  simp only [runNode, on_bind, on_scopes, on_orFail, ha, mapError_ok, Bool.not_true,
    Bool.false_eq_true, if_false, hx]

theorem NodeFault.on (h : NodeFault act i ts s st e u) (hact : act.Accountable)
    (hsolo : i.tag.Solo) (hk : act.Answer ts) (hst : Fresh s st) :
    ∃ st', (act.runNode i s (act.execAll ts)).on st = (.error e, st') ∧ SameSite s u st' ∧
      st'.chain.origin = none := by
  cases h with
  | condition ha =>
    refine ⟨st, ?_, .refl s st, hst.clean⟩
    simp only [runNode, on_bind, on_scopes, on_orFail, ha, mapError_error]
  | skipped ha hx =>
    refine ⟨u, ?_, .refl s u, ((skip_steady i s st).of_on hx).2.1.trans hst.clean⟩
    simp only [runNode, on_bind, on_scopes, on_orFail, ha, mapError_ok, Bool.not_false, if_true, hx]
  | tag ha hf =>
    obtain ⟨st', hx, halike, horigin⟩ := hf.on hact hsolo hk hst
    exact ⟨st', runNode_on_error ha hx, halike, horigin⟩
  | @result o b _ st₁ _ ha hx hb hp ho hy =>
    have hpublish := act.publish_steady i s b o.output.toValue?
    have htag : st₁.chain.origin = none := (runTag_settles hact ha hsolo hk hst).of_on hx
    refine ⟨u, ?_, .refl s u, ((hpublish st₁).of_on hy).2.1.trans htag⟩
    simp only [runNode, on_bind, on_scopes, on_orFail, ha, mapError_ok, Bool.not_true,
      Bool.false_eq_true, if_false, hx, hb, hp, ho, ne_eq, not_false_eq_true, decide_true,
      Bool.and_self, if_true, hy]

end Activation

/-! ### The error of a run -/

/-- Nothing in the task runs anything by itself. -/
def Task.Solo : Task → Prop
  | .one p => ∀ x ∈ p.labels, x.2.tag.Solo
  | .all ps => ∀ x ∈ Tree.labelsAll ps, x.2.tag.Solo
  | .body i ts => i.tag.Solo ∧ ∀ x ∈ Tree.labelsAll ts, x.2.tag.Solo
  | _ => True

/-- A step fails with an error, and the chain remembers where that happened. -/
def Exec.FailsAt {α : Type} (x : Exec α) (st : RunState) (err : EngineError)
    (origin : ErrorOrigin) : Prop :=
  ∃ st', x.on st = (.error err, st') ∧ st'.chain.origin = some origin

/-- The same of the step that runs a task. -/
def Activation.FailsAt (act : Activation) (s : ScopeId) (st : RunState) (err : EngineError)
    (origin : ErrorOrigin) : Task → Prop
  | .one p => (act.exec p s).FailsAt st err origin
  | .all ps => (act.execAll ps s).FailsAt st err origin
  | .body i ts => (act.runNode i s (act.execAll ts)).FailsAt st err origin
  | .entity key => (act.run key s).FailsAt st err origin
  | _ => False

open Exec Activation in
/-- **Every mishap is reported**, by induction on the way to it. The culprit attributes its error,
and every instruction on the way back leaves it as it is. -/
theorem Mishap.reported {act : Activation} {task : Task} {s : ScopeId} {st u : RunState}
    {c : Culprit} {fs : List StackFrame} {e : EngineError} (h : Mishap act task s st c fs e u) :
    ∀ {depth : Nat}, act.run = act.engine.runEntity depth →
      act.engine.setup.registry.Makes Tag.Solo Tag.Solo → task.Solo → Fresh s st →
      act.FailsAt s st (c.verdict u e) (c.origin u.scopes) task := by
  induction h with
  | @here act id i ts s st u e hb hf =>
    intro depth hrun hreg hsolo hst
    have hact := Engine.accountable hrun hreg
    obtain ⟨htag, hbelow⟩ := List.forall_mem_cons.1 hsolo
    obtain ⟨st₁, hx, halike, horigin⟩ :=
      hf.on hact htag (execAll_answers hact ts hbelow) (hst.begun act id i)
    obtain ⟨st₂, hblame, hnoted⟩ := act.blame_on_clean id i s horigin e
    refine ⟨act.ended id i s st₂, ?_, ?_⟩
    · rw [exec, step_on_error hb hx hblame]
      exact congrArg (fun x => (Except.error x, _)) (SameSite.verdict_eq halike e)
    · exact hnoted.trans (congrArg some (SameSite.origin_eq halike))
  | @inside act id i ts s st u c fs e hb _ ih =>
    intro depth hrun hreg hsolo hst
    obtain ⟨st₁, hx, ho⟩ := ih hrun hreg (List.forall_mem_cons.1 hsolo) (hst.begun act id i)
    refine ⟨act.ended id i s st₁, ?_, ho⟩
    rw [exec, step_on_error hb hx (blame_on_blamed ho (c.verdict_ne_action u e))]
  | under ha hd _ ih =>
    intro depth hrun hreg hsolo hst
    obtain ⟨st₂, hx, ho⟩ := ih hrun hreg hsolo.2 (hd.fresh hst).2
    obtain ⟨st', hon, horigin⟩ := hd.on hx
    exact ⟨st', runNode_on_error ha hon, horigin.trans ho⟩
  | called ha hcall _ ih =>
    intro depth hrun hreg hsolo hst
    have hact := Engine.accountable hrun hreg
    have hin := hcall.fresh hact (execAll_answers hact _ hsolo.2) hst
    obtain ⟨st₂, hx, ho⟩ := ih hrun hreg trivial hin.2
    obtain ⟨v, hon⟩ := hcall.runTag_on hx
    exact ⟨_, runNode_on_error ha hon, ho⟩
  | first _ ih =>
    intro depth hrun hreg hsolo hst
    obtain ⟨st', hx, ho⟩ := ih hrun hreg (List.forall_mem_append.1 hsolo).1 hst
    refine ⟨st', ?_, ho⟩
    simp only [execAll, on_bind, hx]
  | @later act t ts s o st st₁ u c fs e hx hsig _ ih =>
    intro depth hrun hreg hsolo hst
    have hact := Engine.accountable hrun hreg
    obtain ⟨ht, hts⟩ := List.forall_mem_append.1 hsolo
    have horigin : st₁.chain.origin = none := (exec_answers hact t ht s st hst).of_on hx
    have hnext := hact.after hst ((exec_walk hact.follows t s).walk hx) horigin
    obtain ⟨st₂, hy, ho⟩ := ih hrun hreg hts hnext.2
    refine ⟨st₂, ?_, ho⟩
    simp only [execAll, on_bind, hx, hsig, ne_eq, not_true, if_false, hy]
  | @entity act depth key p s st u c fs e hrun hp _ ih =>
    intro _ _ hreg _ hst
    obtain ⟨st₁, hx, ho⟩ := ih rfl hreg (hst.made key p hp).tags (hst.entered _)
    refine ⟨Activation.exited (act.engine.activation (act.engine.runEntity depth) st.world key) s
      st.chain.closeables.length st₁, ?_, ho⟩
    have hroot : ((act.engine.activation (act.engine.runEntity depth) st.world key).execRoot
        ((st.world.entity? key).bind Entity.program) s).on
        ((act.engine.activation (act.engine.runEntity depth) st.world key).entered s st) =
        (.error (c.verdict u e), st₁) := by
      rw [hp]
      exact hx
    have hentity := Engine.runEntity_on rfl hroot
    rw [hrun]
    exact hentity

/-- The built-in and the probing tags. -/
theorem Probe.registry_solo : registry.Makes Tag.Solo Tag.Solo := by
  have hbuiltin : ∀ t, Builtin.Inner t → t.Solo := by
    intro t ht
    cases t with
    | bean b =>
      intro fs
      obtain rfl | rfl | rfl := ht
      · exact fun _ => trivial
      · exact fun _ => trivial
      · exact fun _ => trivial
    | _ => trivial
  refine Registry.makes_of_libraries (fun l hl name m hm => ?_) (fun _ => trivial)
    (fun _ _ => trivial) (fun _ => trivial) fun x hx => ?_
  · obtain rfl | rfl : l = Builtin.library ∨ l = library := by simpa [registry] using hl
    · exact (Builtin.library_makes hm).mono hbuiltin
    · obtain ⟨_, _, h, -⟩ := List.lookup_eq_some_iff.1 hm
      have hmem : (name, m) ∈ library.tags := by simp [h]
      simp only [library, List.mem_cons, Prod.mk.injEq, List.not_mem_nil, or_false] at hmem
      obtain ⟨-, rfl⟩ | ⟨-, rfl⟩ | ⟨-, rfl⟩ | ⟨-, rfl⟩ | ⟨-, rfl⟩ | ⟨-, rfl⟩ | ⟨-, rfl⟩ | ⟨-, rfl⟩ |
        ⟨-, rfl⟩ := hmem
      · exact fun _ => trivial
      · exact fun _ => trivial
      · exact fun _ => trivial
      · exact fun _ => trivial
      · exact fun _ => trivial
      · exact fun _ => trivial
      · -- what is looked at decides whether it fails
        intro fs view
        simp only []
        split <;> trivial
      · exact fun _ => trivial
      · exact fun _ => trivial
  · cases x.2 with
    | scenario | block | refused => trivial

namespace Engine

open Exec Activation

/-- **Every failure is attributed once, where it happened.** On a chain without a failure, an error
that leaves a run of a resource, of an entity or of a program is never one that still has to be
attributed. It belongs to the innermost instruction that was running when it was raised: the failure
of an action names this instruction, its scope and everything that was running, a conflict and a
failure to parse are as they were raised, and the chain remembers the place with the names visible
there at that moment. Only where no instruction has begun yet nothing is remembered. Conversely,
whatever an instruction raises leaves the run in this way. -/
theorem failures_are_attributed_once (e : Engine)
    (hreg : e.setup.registry.Makes Tag.Solo Tag.Solo) (depth : Nat) (st : RunState)
    (hmade : st.world.Made Tag.Solo Tag.Solo) (hclean : st.chain.origin = none) :
    (∀ name params,
      (∀ err st', (e.run depth name params).on st = (.error err, st') →
        (∀ causes, err ≠ .action causes) ∧
        ((∃ p, ((e.setup.load name).run.run st.world).1 = .error p ∧ err = .parse p ∧
            st'.chain.origin = none) ∨
          ∃ key, ((e.setup.load name).run.run st.world).1 = .ok key ∧
            (e.activation (e.runEntity depth) st.world key).Accounted key st.scopes.size
              (e.prepared name params st) err st')) ∧
      ∀ key c fs raw u, ((e.setup.load name).run.run st.world).1 = .ok key →
        Mishap (e.activation (e.runEntity depth) st.world key) (.entity key) st.scopes.size
          (e.prepared name params st) c fs raw u →
        (e.run depth name params).FailsAt st (c.verdict u raw) (c.origin u.scopes)) ∧
    (∀ key s, s < st.scopes.size →
      (∀ err st', (e.runEntity depth key s).on st = (.error err, st') →
        (∀ causes, err ≠ .action causes) ∧
        (e.activation (e.runEntity depth) st.world key).Accounted key s st err st') ∧
      ∀ c fs raw u,
        Mishap (e.activation (e.runEntity depth) st.world key) (.entity key) s st c fs raw u →
        (e.runEntity depth key s).FailsAt st (c.verdict u raw) (c.origin u.scopes)) ∧
    ∀ w key p s, (∀ x ∈ p.labels, x.2.tag.Solo) → s < st.scopes.size →
      (∀ err st', ((e.activation (e.runEntity depth) w key).exec p s).on st = (.error err, st') →
        (∀ causes, err ≠ .action causes) ∧
        Attributed (e.activation (e.runEntity depth) w key) (.one p) s st err st') ∧
      ∀ c fs raw u, Mishap (e.activation (e.runEntity depth) w key) (.one p) s st c fs raw u →
        ((e.activation (e.runEntity depth) w key).exec p s).FailsAt st (c.verdict u raw)
          (c.origin u.scopes) := by
  refine ⟨fun name params => ?_, fun key s hs => ?_, fun w key p s hp hs => ?_⟩
  · have hprep := fresh_prepared hreg name params hmade hclean
    constructor
    · intro err st' hx
      rcases hl : ((e.setup.load name).run.run st.world).1 with p | key
      · rw [run_on_error hl] at hx
        cases hx
        exact ⟨by rintro _ ⟨⟩, .inl ⟨p, rfl, rfl, hclean⟩⟩
      · have hreturns := runEntity_returns hreg depth
          (e.activation (e.runEntity depth) st.world key) rfl rfl key st.scopes.size _ hprep
        rcases hy : (e.runEntity depth key st.scopes.size).on (e.prepared name params st) with
          ⟨err' | o, st₁⟩
        · rw [run_on_ok hl hy] at hx
          cases hx
          have hacc := hreturns.of_on hy
          exact ⟨hacc.ne_action, .inr ⟨key, rfl, hacc⟩⟩
        · rw [run_on_ok hl hy] at hx
          cases hx
    · intro key c fs raw u hl hm
      obtain ⟨st₁, hy, ho⟩ := hm.reported rfl hreg trivial hprep
      exact ⟨_, run_on_ok hl hy, ho⟩
  · have hst : Fresh s st := ⟨hs, hclean, hmade⟩
    constructor
    · intro err st' hx
      have hreturns := runEntity_returns hreg depth (e.activation (e.runEntity depth) st.world key)
        rfl rfl key s st hst
      have hacc := hreturns.of_on hx
      exact ⟨hacc.ne_action, hacc⟩
    · intro c fs raw u hm
      exact hm.reported rfl hreg trivial hst
  · have hst : Fresh s st := ⟨hs, hclean, hmade⟩
    constructor
    · intro err st' hx
      have hact : (e.activation (e.runEntity depth) w key).Accountable := accountable rfl hreg
      have hatt : Attributed _ _ _ _ _ _ := (exec_answers hact p hp s st hst).of_on hx
      exact ⟨hatt.ne_action, hatt⟩
    · intro c fs raw u hm
      exact hm.reported rfl hreg hp hst

/-- A bean fails in an entity that another one calls. The error names the bean and not the call, and
the parameter of the call is among the names that are remembered, although its scope is left. -/
theorem failures_are_attributed_once_called :
    let e := Engine.ofSettings Probe.registry .template {}
    let w : World := (({} : World).registerMemory 0 "greet"
      "<scenario>\n<log value=\"before\"/>\n<fail message=\"nope\"/></scenario>"
      true).registerMemory 0 "main" "<scenario><greet a=\"1\"/></scenario>" true
    let st : RunState := ⟨w, {}⟩
    let err : EngineError := .runtime ⟨"fail", 3, "mem:greet", 2,
      ["<fail> line 3 of 'greet'", "<scenario> line 1 of 'greet'", "<greet> line 1 of 'main'",
        "<scenario> line 1 of 'main'"], ["nope"]⟩
    e.setup.registry.Makes Tag.Solo Tag.Solo ∧ st.world.Made Tag.Solo Tag.Solo ∧
      st.chain.origin = none ∧
      ∃ st' key, (e.run 10 "main" []).on st = (.error err, st') ∧
        (st'.chain.origin.map fun o => o.consts.map Prod.fst) = some ["a"] ∧
        (e.activation (e.runEntity 10) st.world key).Accounted key st.scopes.size
          (e.prepared "main" [] st) err st' := by
  intro e w st err
  have hmade : st.world.Made Tag.Solo Tag.Solo := World.programs_of_none rfl
  have herror : (((e.run 10 "main" []).on st).1.map fun _ => ()) = .error err := by decide +kernel
  have hnames : (((e.run 10 "main" []).on st).2.chain.origin.map fun o =>
      o.consts.map Prod.fst) = some ["a"] := by decide +kernel
  rcases hx : (e.run 10 "main" []).on st with ⟨err' | v, st'⟩
  · rw [hx] at herror hnames
    have herr : err' = err := Except.error.inj herror
    rw [herr] at hx
    have hall := failures_are_attributed_once e Probe.registry_solo 10 st hmade rfl
    obtain ⟨p, -, -, hnone⟩ | ⟨key, -, hacc⟩ := ((hall.1 "main" []).1 err st' hx).2
    · have hnames : (st'.chain.origin.map fun o => o.consts.map Prod.fst) = some ["a"] := hnames
      rw [hnone] at hnames
      cases hnames
    · exact ⟨Probe.registry_solo, hmade, rfl, st', key, by rw [herr], hnames, hacc⟩
  · rw [hx] at herror
    cases herror

end Engine

end Scenario
