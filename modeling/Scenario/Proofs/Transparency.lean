import Scenario.Proofs.Adequacy
import Scenario.Proofs.Tandem

/-!
# Branches that always run are transparent

The runs of two documents, one of which has some blocks put into branches that always run, are
followed side by side. Each tag keeps the states in tandem if its children do, hence every
instruction does (`both_step`), every list of instructions, by induction on how the programs are
alike (`both_execAll`), every entity, by induction on the depth of calls (`both_runEntity`), and
every run: **`run_of_wraps`**.

A branch leaves a mark in its scope that an alternative behind it looks at. A wrapped block leaves
one too, but is not followed by an alternative. So the marks of both sides need to agree only where
an alternative may come first.
-/

namespace Scenario

/-! ### Outputs -/

/-- The same outputs, or containers that hold the same outputs. -/
inductive Output.Same : Output → Output → Prop where
  | refl (o : Output) : Same o o
  | nested {os os' : List Output} (h : flatten os' = flatten os) : Same (.nested os) (.nested os')

namespace Output.Same

variable {o o' : Output}

theorem leaves_eq (h : o.Same o') : o'.leaves = o.leaves := by
  cases h with
  | refl => rfl
  | nested h => simpa only [leaves] using h

theorem toValue?_eq (h : o.Same o') : o'.toValue? = o.toValue? := by
  cases h with
  | refl => rfl
  | nested h => simp only [toValue?, aggregate, h]

end Output.Same

/-- The same signals and the same outputs. -/
structure Outcome.Same (o o' : Outcome) : Prop where
  output : o.output.Same o'.output
  signal : o'.signal = o.signal

/-- The same signals, and the same outputs once containers are opened. -/
structure Children.Same (cs cs' : Children) : Prop where
  results : Output.flatten cs'.results = Output.flatten cs.results
  signal : cs'.signal = cs.signal

theorem Outcome.Same.refl (o : Outcome) : o.Same o := ⟨.refl _, rfl⟩

theorem Children.Same.toOutcome {cs cs' : Children} (h : cs.Same cs') :
    cs.toOutcome.Same cs'.toOutcome := ⟨.nested h.results, h.signal⟩

theorem ResultId.key_eq {b : ResultId} (hb : b.expr.Blind) {a a' : Arena} {s : ScopeId}
    (h : ∀ id, a'.get? s id = a.get? s id) : b.key a' s = b.key a s := by
  simp only [key, Compiled.text?, hb a a' s h]

namespace Activation

open Exec RunState

variable {act : Activation} {i : Instruction} {s : ScopeId} {l : Locator}
  {fs fs' : List StackFrame} {st st' : RunState} {kids kids' : ScopeId → Exec Children}

/-! ### Marks -/

theorem branchRan_setBranch (a : Arena) (s : ScopeId) (ran : Bool) :
    branchRan (a.setInternal s branchKey (.bool ran) false).2 s = (decide (s < a.size) && ran) := by
  by_cases hs : s < a.size
  · have hframe : (a.setInternal s branchKey (.bool ran) false).2.frame s =
        { a.frame s with internals := (a.frame s).internals.insert branchKey (.bool ran) } :=
      Arena.frame_modifyFrame_self _ hs
    simp [branchRan, Arena.internal?, hframe, Entries.get?_insert, hs]
  · have hframe : (a.setInternal s branchKey (.bool ran) false).2.frame s = {} :=
      Arena.frame_of_size_le (by simpa [Arena.setInternal] using hs)
    simp [branchRan, Arena.internal?, hframe, hs]

/-- Marks that are set alike are alike. -/
theorem branchRan_setBranch_eq (h : Tandem l fs fs' st st') (s : ScopeId) (ran : Bool) :
    branchRan (st'.scopes.setInternal s branchKey (.bool ran) false).2 s =
      branchRan (st.scopes.setInternal s branchKey (.bool ran) false).2 s := by
  rw [branchRan_setBranch, branchRan_setBranch, h.size_eq]

theorem branchRan_bound (st : RunState) (k s : ScopeId) (b : Binding) :
    branchRan (st.bound k b).scopes s = branchRan st.scopes s := by
  have hframe : ((st.bound k b).scopes.frame s).internals = (st.scopes.frame s).internals :=
    Arena.frame_modifyFrame Frame.internals
      (fun f => f.bind ⟨b.id, b.value, b.origin⟩) (fun _ => rfl) _ k s
  simp only [branchRan, Arena.internal?, Bool.false_eq_true, if_false, hframe]

/-! ### Names -/

theorem both_bindResult {b : ResultId} (hb : b.expr.Blind) (h : Tandem l fs fs' st st')
    (act : Activation) (i : Instruction) (s : ScopeId) (v : Option Value) (check : Bool) :
    Both (act.bindResult i s b v check) (act.bindResult i s b v check) st st' fun _ _ u u' =>
      ∃ k x, u = st.bound k x ∧ u' = st'.bound k x := by
  unfold bindResult
  refine both_next (on_scopes st) (on_scopes st') ?_
  refine both_orFail (b.key_eq hb (h.get?_eq s)) fun key _ => ?_
  have hhas : st'.scopes.has (act.entityScope st.scopes s) key =
      st.scopes.has (act.entityScope st.scopes s) key :=
    h.frame_eq (fun f => (f.values.get? key).isSome) (fun _ => rfl) _
  rw [h.entityScope_eq act s]
  simp only [Arena.set, hhas]
  by_cases hc : (check && st.scopes.has (act.entityScope st.scopes s) key) = true
  · simp only [hc, if_true]
    exact .fail rfl rfl
  · simp only [hc]
    exact .done (on_bindName _ _ _) (on_bindName _ _ _) ⟨_, _, rfl, rfl⟩

theorem both_publish {b : ResultId} (hb : b.expr.Blind) (h : Tandem l fs fs' st st')
    (act : Activation) (i : Instruction) (s : ScopeId) (v : Option Value) :
    Both (act.publish i s b v) (act.publish i s b v) st st' fun _ _ u u' =>
      ∃ k x, u = st.bound k x ∧ u' = st'.bound k x := by
  unfold publish
  refine both_next (on_scopes st) (on_scopes st') ?_
  rw [h.entityScope_eq act s, h.overwriteAllowed_eq]
  exact both_bindResult hb h act i s v _

theorem both_givesWay (hi : ∀ b ∈ i.binding, b.expr.Blind) (h : Tandem l fs fs' st st')
    (s : ScopeId) :
    Both (givesWay i s) (givesWay i s) st st' fun c c' u u' => c' = c ∧ Tandem l fs fs' u u' := by
  unfold givesWay
  cases hb : i.binding with
  | none => exact both_pure ⟨rfl, h⟩
  | some b =>
    refine both_next (on_scopes st) (on_scopes st') ?_
    refine both_orFail (b.key_eq (hi b hb) (h.get?_eq s)) fun key _ => ?_
    have hvalue : hasValue st'.scopes s key = hasValue st.scopes s key := by
      simp only [hasValue, h.get?_eq]
    rw [hvalue]
    by_cases hv : hasValue st.scopes s key = true
    · simp only [hv, if_true]
      exact both_pure ⟨rfl, h⟩
    · simp only [hv]
      exact both_next (on_enter _ _) (on_enter _ _) (both_pure ⟨rfl, h.log rfl⟩)

/-! ### Tags -/

theorem both_storeData (hi : ∀ b ∈ i.binding, b.expr.Blind) (h : Tandem l fs fs' st st')
    {cs cs' : Children} (hcs : cs.Same cs') (act : Activation) (s : ScopeId) (name : String)
    (mode : DataMode) (fallback : Bool) :
    Both (act.storeData i s name mode fallback cs) (act.storeData i s name mode fallback cs') st st'
      fun o o' u u' => o.Same o' ∧ Tandem l fs fs' u u' := by
  have hvalue : Output.aggregate cs'.results = Output.aggregate cs.results :=
    congrArg Output.combine hcs.results
  unfold storeData
  rw [hvalue, hcs.signal]
  by_cases habort : cs.signal = .abort
  · simp only [habort, if_true]
    exact both_pure ⟨.refl _, h⟩
  · simp only [habort, if_false]
    have hbound : ∀ {u u' : RunState}, (∃ k x, u = st.bound k x ∧ u' = st'.bound k x) →
        Tandem l fs fs' u u' := by
      rintro u u' ⟨k, x, rfl, rfl⟩
      exact h.bound k x
    cases mode with
    | sub => exact both_pure ⟨.refl _, h⟩
    | parameter =>
      exact both_next (on_bindName _ _ _) (on_bindName _ _ _) (both_pure ⟨.refl _, h.bound _ _⟩)
    | entry =>
      cases hb : i.binding with
      | none => exact both_pure ⟨.refl _, h⟩
      | some b =>
        cases fallback with
        | true =>
          exact both_bind (both_bindResult (hi b hb) h act i s _ false)
            fun _ _ u u' hu => both_pure ⟨.refl _, hbound hu⟩
        | false =>
          exact both_bind (both_publish (hi b hb) h act i s _)
            fun _ _ u u' hu => both_pure ⟨.refl _, hbound hu⟩

theorem both_runData (hi : ∀ b ∈ i.binding, b.expr.Blind)
    (hk : ∀ u, Together l Children.Same (kids u) (kids' u)) (hfs : fs ≠ [])
    (h : Tandem l fs fs' st st') (act : Activation) (s : ScopeId) (name : String) (mode : DataMode)
    (fallback : Bool) :
    Both (act.runData i s name mode fallback kids) (act.runData i s name mode fallback kids') st st'
      fun o o' u u' => o.Same o' ∧ Tandem l fs fs' u u' := by
  have hway : Both (if fallback then givesWay i s else pure false)
      (if fallback then givesWay i s else pure false) st st'
      fun c c' u u' => c' = c ∧ Tandem l fs fs' u u' := by
    cases fallback with
    | false => exact both_pure ⟨rfl, h⟩
    | true => exact both_givesWay hi h s
  unfold runData
  refine both_bind hway ?_
  rintro _ c u u' ⟨rfl, hu⟩
  cases c with
  | true => exact both_pure ⟨.refl _, hu⟩
  | false =>
    refine both_next (on_scopes u) (on_scopes u') ?_
    rw [hu.entityScope_eq act s]
    exact both_bind (hk _ hfs hu) fun cs cs' v v' hv =>
      both_storeData hi hv.2 hv.1 act s name mode fallback

theorem both_runBranch (hk : ∀ u, Together l Children.Same (kids u) (kids' u)) (hfs : fs ≠ [])
    (h : Tandem l fs fs' st st') (s : ScopeId) :
    Both (runBranch s kids) (runBranch s kids') st st' fun o o' u u' =>
      o.Same o' ∧ Tandem l fs fs' u u' ∧ branchRan u'.scopes s = branchRan u.scopes s := by
  unfold runBranch
  refine both_bind (hk s hfs h) ?_
  rintro cs cs' u u' ⟨hcs, hu⟩
  refine both_next (on_modifyScopes _ _) (on_modifyScopes _ _) (both_pure ⟨hcs.toOutcome, ?_, ?_⟩)
  · exact hu.marked s true
  · exact branchRan_setBranch_eq hu s true

theorem both_runLocked (hk : ∀ u, Together l Children.Same (kids u) (kids' u)) (hfs : fs ≠ [])
    (h : Tandem l fs fs' st st') (s : ScopeId) (name : String) (millis : Nat) :
    Both (runLocked s name millis kids) (runLocked s name millis kids') st st' fun o o' u u' =>
      o.Same o' ∧ Tandem l fs fs' u u' := by
  unfold runLocked
  refine both_next (on_write _ _ _ _) (on_write _ _ _ _) ?_
  have h₁ := h.log (x := .record ⟨.info, "Waiting for mutex", [("name", name)], false⟩) rfl
  refine both_next (on_get _) (on_get _) ?_
  rw [h₁.world.locks, h₁.thread]
  generalize (st.log _).world.locks.acquire _ name millis = q
  obtain ⟨locks, acquired⟩ := q
  refine both_next (on_setLocks locks _) (on_setLocks locks _) ?_
  cases acquired with
  | error e => exact .fail rfl rfl
  | ok g =>
    refine both_next (on_write _ _ _ _) (on_write _ _ _ _) ?_
    have h₂ := (h₁.withLocks locks).log
      (x := .record ⟨.info, "Entered mutex", [("name", name)], false⟩) rfl
    refine both_attempt (hk s hfs h₂) ?_ ?_
    · intro e e' u u'
      exact both_next (on_releaseLock _ _) (on_releaseLock _ _)
        (both_next (on_write _ _ _ _) (on_write _ _ _ _) (.fail rfl rfl))
    · rintro cs cs' u u' ⟨hcs, hu⟩
      refine both_next (on_releaseLock _ _) (on_releaseLock _ _)
        (both_next (on_write _ _ _ _) (on_write _ _ _ _) (both_next rfl rfl (both_pure ?_)))
      rw [hu.world.locks]
      exact ⟨hcs.toOutcome, (hu.withLocks _).log rfl⟩

theorem both_runMutex {name timeout : Option Compiled} (hname : ∀ e ∈ name, e.Blind)
    (htimeout : ∀ e ∈ timeout, e.Blind) (hk : ∀ u, Together l Children.Same (kids u) (kids' u))
    (hfs : fs ≠ []) (h : Tandem l fs fs' st st') (act : Activation) (s : ScopeId) :
    Both (act.runMutex s name timeout kids) (act.runMutex s name timeout kids') st st'
      fun o o' u u' => o.Same o' ∧ Tandem l fs fs' u u' := by
  have hname : mutexName name st'.scopes s = mutexName name st.scopes s := by
    cases name with
    | none => rfl
    | some e => simp only [mutexName, Compiled.text?, hname e rfl _ _ s (h.get?_eq s)]
  have htimeout : act.mutexTimeout timeout st'.scopes s = act.mutexTimeout timeout st.scopes s := by
    cases timeout with
    | none => rfl
    | some e => simp only [mutexTimeout, htimeout e rfl _ _ s (h.get?_eq s)]
  unfold runMutex
  refine both_next (on_scopes st) (on_scopes st') ?_
  exact both_orFail hname fun text _ => both_orFail htimeout fun millis _ =>
    both_runLocked hk hfs h s text millis

theorem both_runInvoke (hst : act.engine.setup.Standard)
    (hrun : ∀ key u, Together l Outcome.Same (act.run key u) (act.run key u))
    (hk : ∀ u, Together l Children.Same (kids u) (kids' u)) (hfs : fs ≠ [])
    (h : Tandem l fs fs' st st') (s : ScopeId) (target : String) :
    Both (act.runInvoke s target kids) (act.runInvoke s target kids') st st'
      fun o o' u u' => o.Same o' ∧ Tandem l fs fs' u u' := by
  unfold runInvoke
  refine both_inChildScope h.size_eq (both_bind (hk _ hfs (h.opened s)) ?_)
  rintro cs cs' u u' ⟨hcs, hu⟩
  rw [hcs.signal]
  by_cases habort : cs.signal = .abort
  · simp only [habort, if_true]
    exact both_pure ⟨.refl _, hu.left _⟩
  · simp only [habort, if_false]
    refine both_bind (both_load hst hu target) ?_
    rintro _ key v v' ⟨rfl, hv⟩
    refine both_next (on_chain v) (on_chain v') ?_
    rw [hv.result]
    refine both_next (on_setResult none v) (on_setResult none v') ?_
    refine both_attempt (hrun key _ hfs (hv.withResult none)) ?_ ?_
    · exact fun e e' z z' => both_next (on_setResult _ z) (on_setResult _ z') (.fail rfl rfl)
    · rintro o o' z z' ⟨ho, hz⟩
      refine both_next (on_setResult _ z) (on_setResult _ z') (.done rfl rfl ⟨ho, ?_⟩)
      exact (hz.withResult _).left _

end Activation

/-! ### Beans -/

theorem RunState.Tandem.signalIn_eq {l : Locator} {fs fs' : List StackFrame} {st st' : RunState}
    (h : Tandem l fs fs' st st') (act : Activation) (s : ScopeId) :
    act.signalIn st'.chain s = act.signalIn st.chain s := by
  have hreturning : st'.chain.scopes.returning (act.entityScope st'.chain.scopes s) =
      st.chain.scopes.returning (act.entityScope st.chain.scopes s) := by
    have hscope : act.entityScope st'.chain.scopes s = act.entityScope st.chain.scopes s :=
      h.entityScope_eq act s
    rw [hscope]
    exact h.returning_eq _
  simp only [Activation.signalIn, h.aborting, hreturning]

theorem Schema.takeFields_congr {a a' : Arena} {s : ScopeId}
    (hget : ∀ id, a'.get? s id = a.get? s id) (rest : List Field) (fs : Fields) :
    takeFields a' s rest fs = takeFields a s rest fs := by
  induction rest generalizing fs with
  | nil => rfl
  | cons f rest ih => simp only [takeFields, takeField, hget, ih]

theorem Schema.bind_congr {a a' : Arena} {s : ScopeId} (hget : ∀ id, a'.get? s id = a.get? s id)
    (hids : (a'.frame s).consts = (a.frame s).consts) (sch : Schema) (ownId : Option String)
    (strict : Bool) : sch.bind a' s ownId strict = sch.bind a s ownId strict := by
  simp only [bind, hids, takeFields_congr hget]

namespace Activation

open Exec RunState

variable {act : Activation} {i : Instruction} {s : ScopeId} {l : Locator}
  {fs fs' : List StackFrame} {st st' : RunState} {kids kids' : ScopeId → Exec Children}

theorem perform_log_on (act : Activation) (s : ScopeId) (kids : ScopeId → Exec Children)
    (values : Fields) (st : RunState) : ∃ r, (act.perform s kids (Builtin.log.act values)).on st =
      (.ok (values.value? "value"), st.log [.record r]) := ⟨_, rfl⟩

theorem perform_return_on (act : Activation) (s : ScopeId) (kids : ScopeId → Exec Children)
    (values : Fields) (st : RunState) :
    ∃ r, (act.perform s kids (Builtin.return.act values)).on st = (.ok (values.value? "value"),
      (((st.withResult (values.value? "value")).mapScopes fun a =>
        a.setReturning (act.entityScope st.scopes s) true).log
          [.returned (act.entityScope st.scopes s)]).log [.record r]) := ⟨_, rfl⟩

theorem perform_exit_on (act : Activation) (s : ScopeId) (kids : ScopeId → Exec Children)
    (values : Fields) (st : RunState) :
    ∃ r a, (act.perform s kids (Builtin.exit.act values)).on st = (.ok none,
      { st.log [.record r] with chain := { st.chain with aborting := true } }.log [.aborted a]) :=
  ⟨_, _, rfl⟩

/-- What a built-in bean does, it does on both sides. -/
theorem both_perform {b : Bean} (hb : Builtin.Inner (.bean b)) (h : Tandem l fs fs' st st')
    (act : Activation) (s : ScopeId) (values : Fields) :
    Both (act.perform s kids (b.act values)) (act.perform s kids' (b.act values)) st st'
      fun v v' u u' => v' = v ∧ Tandem l fs fs' u u' := by
  obtain rfl | rfl | rfl := hb
  · obtain ⟨r, hx⟩ := act.perform_log_on s kids values st
    obtain ⟨r', hx'⟩ := act.perform_log_on s kids' values st'
    exact .done hx hx' ⟨rfl, h.log rfl⟩
  · obtain ⟨r, hx⟩ := act.perform_return_on s kids values st
    obtain ⟨r', hx'⟩ := act.perform_return_on s kids' values st'
    rw [h.entityScope_eq act s] at hx'
    have hflag := (h.withResult (values.value? "value")).modifying (act.entityScope st.scopes s)
      (g := fun f => { f with returning := true }) fun _ => rfl
    exact .done hx hx' ⟨rfl, (hflag.log rfl).log rfl⟩
  · obtain ⟨r, a, hx⟩ := act.perform_exit_on s kids values st
    obtain ⟨r', a', hx'⟩ := act.perform_exit_on s kids' values st'
    have hrecord : Tandem l fs fs' (st.log [.record r]) (st'.log [.record r']) := h.log rfl
    exact .done hx hx' ⟨rfl, hrecord.aborted.log rfl⟩

theorem both_runBean {b : Bean} (hb : Builtin.Inner (.bean b))
    (hk : ∀ u, Together l Children.Same (kids u) (kids' u)) (hfs : fs ≠ [])
    (h : Tandem l fs fs' st st') (act : Activation) (i : Instruction) (s : ScopeId) :
    Both (act.runBean i s b kids) (act.runBean i s b kids') st st'
      fun o o' u u' => o.Same o' ∧ Tandem l fs fs' u u' := by
  unfold runBean
  refine both_inChildScope h.size_eq (both_bind (hk _ hfs (h.opened s)) ?_)
  rintro cs cs' u u' ⟨hcs, hu⟩
  rw [hcs.signal]
  by_cases hsignal : cs.signal = .none
  · simp only [hsignal, ne_eq, not_true, if_false]
    refine both_next (on_scopes u) (on_scopes u') ?_
    rw [b.schema.bind_congr (hu.get?_eq _) (hu.frame_eq Frame.consts (fun _ => rfl) _)]
    refine both_orFail rfl fun values _ => both_next (on_enter _ u) (on_enter _ u') ?_
    refine both_bind (both_perform hb (hu.log rfl) act _ values) ?_
    rintro _ v z z' ⟨rfl, hz⟩
    refine both_next (on_chain z) (on_chain z') (both_pure ⟨⟨.refl _, ?_⟩, hz.left _⟩)
    exact hz.signalIn_eq act _
  · simp only [ne_eq, hsignal, not_false_eq_true, if_true]
    exact both_pure ⟨.refl _, hu.left _⟩

/-! ### Instructions -/

/-- What is to be known after an instruction: its outcome is the same on both sides, and if it is a
branch, so is the mark that it leaves. -/
def Agrees (l : Locator) (fs fs' : List StackFrame) (i : Instruction) (s : ScopeId)
    (o o' : Outcome) (u u' : RunState) : Prop :=
  o.Same o' ∧ Tandem l fs fs' u u' ∧
    (i.tag = .conditional ∨ i.tag = .alternative → branchRan u'.scopes s = branchRan u.scopes s)

theorem both_runTag (hst : act.engine.setup.Standard)
    (hrun : ∀ key u, Together l Outcome.Same (act.run key u) (act.run key u)) (hi : i.Plain)
    (hk : ∀ u, Together l Children.Same (kids u) (kids' u)) (hfs : fs ≠ [])
    (h : Tandem l fs fs' st st') (s : ScopeId)
    (halt : i.tag = .alternative → branchRan st'.scopes s = branchRan st.scopes s) :
    Both (act.runTag i s kids) (act.runTag i s kids') st st' (Agrees l fs fs' i s) := by
  have other : ∀ {x x' : Exec Outcome}, i.tag ≠ .conditional → i.tag ≠ .alternative →
      Both x x' st st' (fun o o' u u' => o.Same o' ∧ Tandem l fs fs' u u') →
      Both x x' st st' (Agrees l fs fs' i s) :=
    fun hif helse hx => hx.mono fun _ _ _ _ hQ => ⟨hQ.1, hQ.2, by simp [hif, helse]⟩
  have hinner := hi.inner
  have hblind := hi.tag
  unfold runTag
  cases htag : i.tag with
  | scenario | block | fixed => rw [htag] at hinner; exact hinner.elim
  | data name mode fallback =>
    exact other (by simp [htag]) (by simp [htag])
      (both_runData hi.binding hk hfs h act s name mode fallback)
  | literal text =>
    exact other (by simp [htag]) (by simp [htag]) (both_pure ⟨.refl _, h⟩)
  | expression e =>
    rw [htag] at hblind
    refine other (by simp [htag]) (by simp [htag]) ?_
    refine both_next (on_scopes st) (on_scopes st') ?_
    exact both_orFail (hblind _ _ s (h.get?_eq s)) fun v _ => both_pure ⟨.refl _, h⟩
  | conditional =>
    refine (both_runBranch hk hfs h s).mono fun o o' u u' hQ => ⟨hQ.1, hQ.2.1, fun _ => hQ.2.2⟩
  | alternative =>
    refine both_next (on_scopes st) (on_scopes st') ?_
    rw [halt htag]
    by_cases hran : branchRan st.scopes s = true
    · simp only [hran, if_true]
      exact both_pure ⟨.refl _, h, fun _ => halt htag⟩
    · simp only [hran]
      exact (both_runBranch hk hfs h s).mono fun o o' u u' hQ => ⟨hQ.1, hQ.2.1, fun _ => hQ.2.2⟩
  | mutex name timeout =>
    rw [htag] at hblind
    exact other (by simp [htag]) (by simp [htag]) (both_runMutex hblind.1 hblind.2 hk hfs h act s)
  | invoke target =>
    exact other (by simp [htag]) (by simp [htag]) (both_runInvoke hst hrun hk hfs h s target)
  | bean b =>
    rw [htag] at hinner
    exact other (by simp [htag]) (by simp [htag]) (both_runBean hinner hk hfs h act i s)

theorem both_skip (hi : Builtin.Inner i.tag) (h : Tandem l fs fs' st st') (s : ScopeId)
    (halt : i.tag = .alternative → branchRan st'.scopes s = branchRan st.scopes s) :
    Both (skip i s) (skip i s) st st' fun _ _ u u' => Tandem l fs fs' u u' ∧
      (i.tag = .conditional ∨ i.tag = .alternative →
        branchRan u'.scopes s = branchRan u.scopes s) := by
  unfold skip
  split
  · exact .done (on_modifyScopes _ _) (on_modifyScopes _ _)
      ⟨h.marked s false, fun _ => branchRan_setBranch_eq h s false⟩
  · rw [‹i.tag = _›] at hi
    exact hi.elim
  · exact both_pure ⟨h, fun hbranch => halt (hbranch.resolve_left ‹_›)⟩

theorem both_runNode (hst : act.engine.setup.Standard)
    (hrun : ∀ key u, Together l Outcome.Same (act.run key u) (act.run key u)) (hi : i.Plain)
    (hk : ∀ u, Together l Children.Same (kids u) (kids' u)) (hfs : fs ≠ [])
    (h : Tandem l fs fs' st st') (s : ScopeId)
    (halt : i.tag = .alternative → branchRan st'.scopes s = branchRan st.scopes s) :
    Both (act.runNode i s kids) (act.runNode i s kids') st st' (Agrees l fs fs' i s) := by
  have hallowed : allowed i st'.scopes s = allowed i st.scopes s := by
    unfold allowed
    cases hg : i.guard with
    | none => rfl
    | some g =>
      simp only [Guard.allows, Compiled.truth, hi.guard g hg _ _ s (h.get?_eq s)]
  unfold runNode
  refine both_next (on_scopes st) (on_scopes st') (both_orFail hallowed fun ok _ => ?_)
  cases ok with
  | false =>
    simp only [Bool.not_false, if_true]
    exact both_bind (both_skip hi.inner h s halt) fun _ _ u u' hu => both_pure ⟨.refl _, hu⟩
  | true =>
    simp only [Bool.not_true, Bool.false_eq_true, if_false]
    refine both_bind (both_runTag hst hrun hi hk hfs h s halt) ?_
    rintro o o' u u' ⟨ho, hu, hmark⟩
    cases hb : i.binding with
    | none => exact both_pure ⟨ho, hu, hmark⟩
    | some b =>
      rw [ho.signal, ho.output.toValue?_eq]
      by_cases hp : (i.tag.publishes && decide (o.signal ≠ .abort)) = true
      · simp only [hp, if_true]
        refine both_bind (both_publish (hi.binding b hb) hu act i s _) ?_
        rintro _ _ _ _ ⟨k, x, rfl, rfl⟩
        refine both_pure ⟨ho, hu.bound k x, fun hbranch => ?_⟩
        rw [branchRan_bound, branchRan_bound, hmark hbranch]
      · simp only [hp]
        exact both_pure ⟨ho, hu, hmark⟩

/-- An instruction is entered and left on both sides, or blocked on both. -/
theorem both_step {Q : Arena → Arena → Prop} {id id' : NodeId} (h : Tandem l fs fs' st st')
    (hnode : ∀ f f', Tandem l (f :: fs) (f' :: fs') (act.begun id i s st) (act.begun id' i s st') →
      Both (act.runNode i s kids) (act.runNode i s kids') (act.begun id i s st)
        (act.begun id' i s st') fun o o' u u' =>
          o.Same o' ∧ Tandem l (f :: fs) (f' :: fs') u u' ∧ Q u.scopes u'.scopes) :
    Both (act.step id i s kids) (act.step id' i s kids') st st' fun o o' u u' =>
      o.Same o' ∧ Tandem l fs fs' u u' ∧ (o.signal = .none → Q u.scopes u'.scopes) := by
  have hb' := h.blocked?_eq act s
  cases hb : act.blocked? st.chain s with
  | some sig =>
    rw [hb] at hb'
    refine .done (step_on_blocked hb) (step_on_blocked hb') ⟨.refl _, h, fun hsig => ?_⟩
    obtain rfl : sig = .none := hsig
    exact absurd hb (act.blocked?_ne_none _ s)
  | none =>
    rw [hb] at hb'
    cases hnode _ _ ((h.push _ _).log rfl) with
    | fail hx hx' =>
      obtain ⟨e₁, u₁, hblame, -⟩ := act.blame_on i s _ _
      obtain ⟨e₁', u₁', hblame', -⟩ := act.blame_on i s _ _
      exact .fail (step_on_error hb hx hblame) (step_on_error hb' hx' hblame')
    | done hx hx' hQ =>
      exact .done (step_on_ok hb hx) (step_on_ok hb' hx')
        ⟨hQ.1, (hQ.2.1.pop h.running).log rfl, fun _ => hQ.2.2⟩

theorem branch_of_opens (hi : Builtin.Inner i.tag) (h : Assembly.opensAlternative i = true) :
    i.tag = .conditional ∨ i.tag = .alternative :=
  ((Builtin.opensAlternative_iff hi).1 h).imp_right And.left

/-! ### Lists of instructions -/

theorem execAll_append (act : Activation) (ts us : List Program) (s : ScopeId) :
    act.execAll (ts ++ us) s = act.execAll ts s >>= fun cs =>
      if cs.signal ≠ .none then pure cs else act.execAll us s >>= fun rest =>
        pure { rest with results := cs.results ++ rest.results } := by
  induction ts with
  | nil => simp [execAll]
  | cons t ts ih =>
    simp only [List.cons_append, execAll, ih, bind_assoc]
    refine bind_congr fun o => ?_
    by_cases ho : o.signal = .none
    · simp only [ho, ne_eq, not_true, if_false, bind_assoc]
      refine bind_congr fun cs => ?_
      by_cases hcs : cs.signal = .none <;> simp [hcs]
    · simp [ho]

theorem execAll_on_blocked {ts : List Program} (hne : ts ≠ []) {sig : Signal}
    (hb : act.blocked? st.chain s = some sig) :
    (act.execAll ts s).on st = (.ok ⟨[.absent], sig⟩, st) := by
  cases ts with
  | nil => exact absurd rfl hne
  | cons t ts =>
    obtain ⟨⟨id, i⟩, us⟩ := t
    have hsig : sig ≠ .none := fun hsig => act.blocked?_ne_none _ s (hsig ▸ hb)
    simp only [execAll, exec, on_bind, step_on_blocked hb, ne_eq, hsig, not_false_eq_true, if_true]
    rfl

/-- A branch that always runs does what is inside it and leaves a mark. -/
theorem runNode_always_ok {cs : Children} {u : RunState} (hi : i.Always)
    (hx : (kids s).on st = (.ok cs, u)) : (act.runNode i s kids).on st = (.ok cs.toOutcome,
      u.mapScopes fun a => (a.setInternal s branchKey (.bool true) false).2) := by
  obtain ⟨g, hg, hallows⟩ := hi.guard
  have hallowed : allowed i st.scopes s = .ok true := by simp only [allowed, hg, hallows]
  simp only [runNode, on_bind, on_scopes, on_orFail, hallowed, mapError_ok, Bool.not_true,
    Bool.false_eq_true, if_false, runTag, hi.tag, hi.binding, runBranch, hx, setBranchRan,
    on_modifyScopes, on_pure]

theorem runNode_always_error {e : EngineError} {u : RunState} (hi : i.Always)
    (hx : (kids s).on st = (.error e, u)) : (act.runNode i s kids).on st = (.error e, u) := by
  obtain ⟨g, hg, hallows⟩ := hi.guard
  have hallowed : allowed i st.scopes s = .ok true := by simp only [allowed, hg, hallows]
  simp only [runNode, on_bind, on_scopes, on_orFail, hallowed, mapError_ok, Bool.not_true,
    Bool.false_eq_true, if_false, runTag, hi.tag, runBranch, hx]

/-- A block on one side, the same block in a branch on the other. -/
theorem both_block {bs bs' : List Program} {id : NodeId} (hi : i.Always) (hfs : fs ≠ [])
    (h : Tandem l fs fs' st st') (hb : act.blocked? st.chain s = none)
    (hbs : Together l Children.Same (act.execAll bs s) (act.execAll bs' s)) :
    Both (act.execAll bs s) (act.step id i s fun s => act.execAll bs' s) st st' fun cs o' u u' =>
      cs.toOutcome.Same o' ∧ Tandem l fs fs' u u' := by
  have hb' := (h.blocked?_eq act s).trans hb
  have hbegun : Tandem l fs (⟨act.entity, id, i.described act.name⟩ :: fs') st
      (act.begun id i s st') := h.pushRight hfs _ rfl
  cases hbs hfs hbegun with
  | @fail e e' u u' hx hx' =>
    obtain ⟨e₁, u₁, hblame, -⟩ := act.blame_on i s e' u'
    exact .fail hx (step_on_error hb' (runNode_always_error hi hx') hblame)
  | done hx hx' hQ =>
    exact .done hx (step_on_ok hb' (runNode_always_ok hi hx'))
      ⟨hQ.1.toOutcome, hQ.2.popRight h.running s true rfl⟩

/-- **Alike programs run alike.** -/
theorem both_execAll (hst : act.engine.setup.Standard)
    (hrun : ∀ key u, Together l Outcome.Same (act.run key u) (act.run key u)) {o : Bool}
    {ts ts' : List Program} (h : Alike Prod.snd o ts ts') {s : ScopeId}
    {fs fs' : List StackFrame} {st st' : RunState} (hfs : fs ≠ []) (hst' : Tandem l fs fs' st st')
    (ho : o = true → branchRan st'.scopes s = branchRan st.scopes s) :
    Both (act.execAll ts s) (act.execAll ts' s) st st' fun cs cs' u u' =>
      cs.Same cs' ∧ Tandem l fs fs' u u' := by
  induction h generalizing s fs fs' st st' with
  | nil => exact both_pure ⟨⟨rfl, rfl⟩, hst'⟩
  | @cons o x x' cs cs' ts ts' hx hplain halt _ _ ihcs ihts =>
    obtain ⟨id, i⟩ := x
    obtain ⟨id', i'⟩ := x'
    obtain rfl : i' = i := hx
    -- among children no alternative comes first, so nothing need be known of the marks
    have hk : ∀ u, Together l Children.Same (act.execAll cs u) (act.execAll cs' u) :=
      fun u _ _ _ _ hfs hu => ihcs hfs hu (by simp)
    simp only [execAll, exec]
    have hnode : ∀ f f', Tandem l (f :: fs) (f' :: fs') (act.begun id i' s st)
        (act.begun id' i' s st') → Both (act.runNode i' s fun s => act.execAll cs s)
          (act.runNode i' s fun s => act.execAll cs' s) (act.begun id i' s st)
          (act.begun id' i' s st') (Agrees l (f :: fs) (f' :: fs') i' s) := fun f f' hbegun =>
      both_runNode hst hrun hplain hk (by simp) hbegun s fun htag => ho (halt htag)
    refine both_bind (both_step (Q := fun a a' => i'.tag = .conditional ∨ i'.tag = .alternative →
      branchRan a' s = branchRan a s) hst' hnode) ?_
    rintro out out' u u' ⟨hout, hu, hmark⟩
    rw [hout.signal]
    by_cases hsig : out.signal = .none
    · simp only [hsig, ne_eq, not_true, if_false]
      refine both_bind (ihts hfs hu fun hopens =>
        hmark hsig (branch_of_opens hplain.inner hopens)) ?_
      rintro rest rest' v v' ⟨hrest, hv⟩
      refine both_pure ⟨⟨?_, hrest.signal⟩, hv⟩
      simp only [Output.flatten, hout.output.leaves_eq, hrest.results]
    · simp only [ne_eq, hsig, not_false_eq_true, if_true]
      refine both_pure ⟨⟨?_, rfl⟩, hu⟩
      simp only [Output.flatten, hout.output.leaves_eq]
  | @block o y bs bs' ts ts' hy hne _ _ ihbs ihts =>
    cases hb : act.blocked? st.chain s with
    | some sig =>
      -- the first instruction of the block is passed over, and so is the branch
      have hb' := (hst'.blocked?_eq act s).trans hb
      exact .done (execAll_on_blocked (by simp [hne]) hb) (execAll_on_blocked (by simp) hb')
        ⟨⟨rfl, rfl⟩, hst'⟩
    | none =>
      obtain ⟨id, i⟩ := y
      rw [execAll_append]
      simp only [execAll, exec]
      refine both_bind (both_block hy hfs hst' hb fun hfs hu => ihbs hfs hu (by simp)) ?_
      rintro cs out u u' ⟨hout, hu⟩
      have hsignal : out.signal = cs.signal := hout.signal
      have hleaves : out.output.leaves = Output.flatten cs.results := hout.output.leaves_eq
      rw [hsignal]
      by_cases hsig : cs.signal = .none
      · simp only [hsig, ne_eq, not_true, if_false]
        refine both_bind (ihts hfs hu (by simp)) ?_
        rintro rest rest' v v' ⟨hrest, hv⟩
        refine both_pure ⟨⟨?_, hrest.signal⟩, hv⟩
        simp only [Output.flatten, Output.flatten_append, hleaves, hrest.results]
      · simp only [ne_eq, hsig, not_false_eq_true, if_true]
        refine both_pure ⟨⟨?_, rfl⟩, hu⟩
        simp only [Output.flatten, hleaves, List.append_nil]

/-! ### Entities -/

theorem both_exec (hst : act.engine.setup.Standard)
    (hrun : ∀ key u, Together l Outcome.Same (act.run key u) (act.run key u)) {p p' : Program}
    (hp : Program.Alike p p') (h : Tandem l fs fs' st st') (s : ScopeId) :
    Both (act.exec p s) (act.exec p' s) st st' fun o o' u u' =>
      o.Same o' ∧ Tandem l fs fs' u u' := by
  cases hp with
  | @root x x' ts ts' hx htag hguard hbinding hts =>
    obtain ⟨id, i⟩ := x
    obtain ⟨id', i'⟩ := x'
    obtain rfl : i' = i := hx
    simp only [exec]
    refine (both_step (Q := fun _ _ => True) h fun f f' hbegun => ?_).mono
      fun _ _ _ _ hQ => ⟨hQ.1, hQ.2.1⟩
    cases both_execAll hst hrun hts (by simp) hbegun (s := s) (by simp) with
    | fail hx hx' =>
      exact .fail (runNode_scenario_error htag hguard hx) (runNode_scenario_error htag hguard hx')
    | done hx hx' hQ =>
      refine .done (runNode_scenario_ok htag hguard hbinding hx)
        (runNode_scenario_ok htag hguard hbinding hx')
        ⟨⟨?_, hQ.1.signal⟩, hQ.2.withResult none, trivial⟩
      rw [hQ.2.result]
      exact .refl _

theorem both_execRoot (hst : act.engine.setup.Standard)
    (hrun : ∀ key u, Together l Outcome.Same (act.run key u) (act.run key u))
    {p p' : Option Program} (hp : Option.Rel Program.Alike p p') (h : Tandem l fs fs' st st')
    (s : ScopeId) : Both (act.execRoot p s) (act.execRoot p' s) st st' fun o o' u u' =>
      o.Same o' ∧ Tandem l fs fs' u u' := by
  cases hp with
  | some hp => exact both_exec hst hrun hp h s
  | none =>
    unfold execRoot
    refine both_next (on_chain st) (on_chain st') ?_
    rw [h.blocked?_eq act s]
    cases act.blocked? st.chain s with
    | none => exact .fail rfl rfl
    | some sig => exact both_pure ⟨.refl _, h⟩

end Activation

namespace Engine

open Exec RunState

variable {e : Engine} {l : Locator} {fs fs' : List StackFrame} {st st' : RunState}

/-- Entities with the same key have the same name and path and alike programs. -/
theorem activation_eq (h : Tandem l fs fs' st st') (run : EntityKey → ScopeId → Exec Outcome)
    (key : EntityKey) : e.activation run st'.world key = e.activation run st.world key ∧
      Option.Rel Program.Alike ((st.world.entity? key).bind Entity.program)
        ((st'.world.entity? key).bind Entity.program) := by
  obtain ⟨hx, hx'⟩ | ⟨x, x', hx, hx', htwins⟩ := h.world.entity_cases key
  · simp only [activation, World.entityName, World.entityPath, hx, hx']
    exact ⟨trivial, .none⟩
  · simp only [activation, World.entityName, World.entityPath, hx, hx', Option.map_some,
      Entity.name, Entity.path, htwins.resource]
    exact ⟨trivial, htwins.program⟩

/-- **An entity runs alike on both sides**, however deeply it calls others. -/
theorem both_runEntity (hst : e.setup.Standard) (depth : Nat) (key : EntityKey) (s : ScopeId)
    (h : Tandem l fs fs' st st') :
    Both (e.runEntity depth key s) (e.runEntity depth key s) st st' fun o o' u u' =>
      o.Same o' ∧ Tandem l fs fs' u u' := by
  induction depth generalizing key s fs fs' st st' with
  | zero => exact .fail rfl rfl
  | succ depth ih =>
    obtain ⟨hact, hprogram⟩ := activation_eq (e := e) h (e.runEntity depth) key
    generalize hact₀ : e.activation (e.runEntity depth) st.world key = act at hact
    have hentered : Tandem l fs fs' (act.entered s st) (act.entered s st') :=
      (h.modifying s (g := fun f => { f with entity := some act.entity }) fun _ => rfl).log rfl
    have hst' : act.engine.setup.Standard := by rw [← hact₀]; exact hst
    have hrun : ∀ key u, Together l Outcome.Same (act.run key u) (act.run key u) := by
      rw [← hact₀]
      exact fun key u _ _ _ _ _ hu => ih key u hu
    cases Activation.both_execRoot hst' hrun hprogram hentered s with
    | fail hx hx' => exact .fail (runEntity_on hact₀.symm hx) (runEntity_on hact.symm hx')
    | @done o o' u u' hx hx' hQ =>
      refine .done (runEntity_on hact₀.symm hx) (runEntity_on hact.symm hx') ⟨?_, ?_⟩
      · by_cases hsig : o.signal = .return
        · simp only [hQ.1.signal, hsig, if_true]
          exact ⟨hQ.1.output, rfl⟩
        · simp only [hQ.1.signal, hsig, if_false]
          exact hQ.1
      · rw [h.closeables]
        exact (hQ.2.closed _).log rfl

/-- Parameters are bound alike on both sides. -/
theorem unmarked_params (s : ScopeId) (params : List (String × Value)) (a : Arena) :
    (params.foldl (fun a p => (a.replace s p.1 none p.2).2) a).unmarked =
      params.foldl (fun a p => (a.replace s p.1 none p.2).2) a.unmarked := by
  induction params generalizing a with
  | nil => rfl
  | cons p params ih =>
    rw [List.foldl_cons, List.foldl_cons, ih, Arena.unmarked_replace]

theorem both_run (hst : e.setup.Standard) (depth : Nat) (name : String)
    (params : List (String × Value)) (h : Tandem l fs fs' st st') :
    Both (e.run depth name params) (e.run depth name params) st st' fun v v' u u' =>
      v' = v ∧ Tandem l fs fs' u u' := by
  unfold run
  refine both_bind (both_load hst h name) ?_
  rintro _ key u u' ⟨rfl, hu⟩
  refine both_next (on_scopes u) (on_scopes u') (both_next (on_emit _ u) (on_emit _ u') ?_)
  have hstarted : Tandem l fs fs' (u.log [.event (.processStart (u.scopes.seq Arena.root))])
      (u'.log [.event (.processStart (u'.scopes.seq Arena.root))]) := hu.log rfl
  refine both_attempt (Q := fun o o' v v' => o.Same o' ∧ Tandem l fs fs' v v')
    (both_inChildScope hstarted.size_eq ?_) ?_ ?_
  · refine both_next (on_modifyScopes _ _) (on_modifyScopes _ _) ?_
    refine (both_runEntity hst depth key _ ((hstarted.opened _).mapScopes ?_)).mono
      fun o o' v v' hQ => ⟨hQ.1, hQ.2.left _⟩
    rw [unmarked_params, unmarked_params, (hstarted.opened _).scopes]
  · intro err err' v v'
    refine both_next (on_scopes v) (on_scopes v') (both_next (on_emit _ v) (on_emit _ v') ?_)
    exact .fail rfl rfl
  · rintro o o' v v' ⟨ho, hv⟩
    refine both_next (on_scopes v) (on_scopes v') (both_next (on_emit _ v) (on_emit _ v') ?_)
    exact both_next rfl rfl (both_pure ⟨ho.output.toValue?_eq, hv.log rfl⟩)

end Engine

/-! ### Documents -/

/-- The second world has the resources of the first one, in whose documents some blocks are wrapped.
Nothing has been parsed yet, and the same beans were called. -/
structure World.Wraps (w w' : World) : Prop where
  locator : w'.locator = w.locator
  present : ∀ r, w'.storage.isPresent r = w.storage.isPresent r
  modified : ∀ r, w'.storage.modified r = w.storage.modified r
  reads : ∀ {r root}, w.Reads r root → ∃ root', w'.Reads r root' ∧ root.Wraps w.locator root'
  readsBack : ∀ {r root'}, w'.Reads r root' → ∃ root, w.Reads r root ∧ root.Wraps w.locator root'
  entities : w.entities = #[] ∧ w'.entities = #[]
  cache : w'.cache = w.cache
  locks : w'.locks = w.locks
  calls : w'.journal.calls = w.journal.calls

theorem World.Wraps.twins {w w' : World} (h : w.Wraps w') :
    World.Twins w.locator (Xml.Element.Wraps w.locator) Program.Alike w w' :=
  { h with
    locator := ⟨rfl, h.locator⟩
    size := by rw [h.entities.1, h.entities.2]
    entity := by
      intro key x hx
      rw [World.entity?, h.entities.1] at hx
      cases hx }

theorem Storage.read_push (s : Storage) (text : String) (now : Stamp) (r : Resource) :
    Storage.read { s with documents := s.documents.push (.memory (some text) now) } r =
      if r.source = .stored s.documents.size then .ok text else s.read r := by
  unfold read
  cases r.source with
  | file path => simp
  | stored key =>
    by_cases hkey : key = s.documents.size
    · simp [hkey]
    · simp [Array.getElem?_push, hkey]

/-- A document may be read in the place of another one. -/
theorem World.reads_registerMemory {w : World} {now : Stamp} {name : String} {cacheable : Bool}
    {text text' : String} {root root' : Xml.Element} (hread : Xml.read text = .ok root)
    (hread' : Xml.read text' = .ok root') {R : Xml.Element → Xml.Element → Prop} (h : R root root')
    (hrefl : ∀ x, R x x) {r : Resource} {x : Xml.Element}
    (hx : (w.registerMemory now name text cacheable).Reads r x) :
    ∃ x', (w.registerMemory now name text' cacheable).Reads r x' ∧ R x x' := by
  obtain ⟨t, ht, hroot⟩ := hx
  have hread₀ := w.storage.read_push text now r
  have hread₁ := w.storage.read_push text' now r
  by_cases hsource : r.source = .stored w.storage.documents.size
  · rw [if_pos hsource] at hread₀ hread₁
    obtain rfl : text = t := Except.ok.inj (hread₀.symm.trans ht)
    obtain rfl : root = x := Except.ok.inj (hread.symm.trans hroot)
    exact ⟨root', ⟨text', hread₁, hread'⟩, h⟩
  · rw [if_neg hsource] at hread₀ hread₁
    exact ⟨x, ⟨t, hread₁.trans (hread₀.symm.trans ht), hroot⟩, hrefl x⟩

/-- Where nothing has been parsed, a document with blocks wrapped may be registered in the place of
the document. -/
theorem World.wraps_registerMemory {w : World} (hw : w.entities = #[]) (now : Stamp) (name : String)
    (cacheable : Bool) {text text' : String} {root root' : Xml.Element}
    (hread : Xml.read text = .ok root) (hread' : Xml.read text' = .ok root')
    (h : root.Wraps (w.registerMemory now name text cacheable).locator root') :
    (w.registerMemory now name text cacheable).Wraps
      (w.registerMemory now name text' cacheable) where
  locator := rfl
  present r := by
    show Storage.isPresent { w.storage with documents := _ } r =
      Storage.isPresent { w.storage with documents := _ } r
    unfold Storage.isPresent
    cases r.source with
    | file path => rfl
    | stored key =>
      simp only [Array.getElem?_push]
      split <;> rfl
  modified r := by
    show Storage.modified { w.storage with documents := _ } r =
      Storage.modified { w.storage with documents := _ } r
    unfold Storage.modified
    cases r.source with
    | file path => rfl
    | stored key =>
      simp only [Array.getElem?_push]
      split <;> rfl
  reads := reads_registerMemory hread hread' h fun x => ⟨rfl, Registry.wrapped_self _ _⟩
  readsBack := reads_registerMemory hread' hread (R := fun x' x => x.Wraps _ x') h
    fun x => ⟨rfl, Registry.wrapped_self _ _⟩
  entities := ⟨hw, hw⟩
  cache := rfl
  locks := rfl
  calls := rfl

namespace Engine

open Exec

/-- **Putting blocks of a document into branches that always run changes nothing**: it is accepted
or not as before, and a run in a new chain gives the same value after the same calls of beans, or
fails on both sides. -/
theorem run_of_wraps (e : Engine) (he : e.setup.Standard) {w w' : World} (h : w.Wraps w')
    (depth : Nat) (name : String) (params : List (String × Value)) :
    ((∃ key u, Parse.Gives (e.setup.load name) w key u) ↔
      ∃ key u, Parse.Gives (e.setup.load name) w' key u) ∧
    ((∃ v u u', (e.run depth name params).on ⟨w, e.chain⟩ = (.ok v, u) ∧
        (e.run depth name params).on ⟨w', e.chain⟩ = (.ok v, u') ∧
        u'.world.journal.calls = u.world.journal.calls) ∨
      ∃ err err' u u', (e.run depth name params).on ⟨w, e.chain⟩ = (.error err, u) ∧
        (e.run depth name params).on ⟨w', e.chain⟩ = (.error err', u')) := by
  constructor
  · obtain ⟨key, u, u', hu, hu', -⟩ | ⟨err, err', herr, herr'⟩ :=
      Setup.load_in_step he.reference (he.transfers _) (he.transfersBack _) h.twins name
    · exact ⟨fun _ => ⟨key, u', hu'⟩, fun _ => ⟨key, u, hu⟩⟩
    · constructor
      · rintro ⟨key, u, hu⟩
        exact absurd herr hu.not_fails
      · rintro ⟨key, u, hu⟩
        exact absurd herr' hu.not_fails
  · have hstart : RunState.Tandem w.locator [] [] ⟨w, e.chain⟩ ⟨w', e.chain⟩ :=
      ⟨h.twins, rfl, ⟨rfl, rfl⟩, Iff.rfl, rfl, rfl, rfl, rfl⟩
    cases both_run he depth name params hstart with
    | fail hx hx' => exact .inr ⟨_, _, _, _, hx, hx'⟩
    | done hx hx' hQ =>
      obtain ⟨rfl, htandem⟩ := hQ
      exact .inl ⟨_, _, _, hx, hx', htandem.world.calls⟩

end Engine

/-! ### Two documents

A document with a value of two parts that is then used, plain and with both blocks in branches.
-/

namespace TwoBlocks

/-- The start tag of a branch that always runs. -/
def branchHead : Xml.Head := { name := "if", attrs := [{ name := "test", value := alwaysTrue }] }

/-- The start tag of the value. -/
def valueHead : Xml.Head := { name := "data", attrs := [{ name := "id", value := "x" }] }

/-- The parts of the value. -/
def valueParts : List Xml.Node :=
  [.element { name := "a" } [.text "1" 1], .element { name := "b" } [.text "2" 1]]

/-- The value is written to the log and returned. -/
def readers : List Xml.Node :=
  [.element { name := "log" } [.text "${x}" 1],
    .element { name := "return", attrs := [{ name := "value", value := "${x}" }] } []]

/-- The document. -/
def plain : String :=
  "<scenario><data id=\"x\"><a>1</a><b>2</b></data><log>${x}</log>" ++
    "<return value=\"${x}\"/></scenario>"

/-- The document with its blocks in branches. -/
def inBranches : String :=
  "<scenario><data id=\"x\"><if test=\"${true}\"><a>1</a><b>2</b></if></data>" ++
    "<if test=\"${true}\"><log>${x}</log><return value=\"${x}\"/></if></scenario>"

end TwoBlocks

namespace Engine

open Exec TwoBlocks

theorem run_of_wraps_two_blocks :
    let e := Engine.ofSettings Builtin.registry .template {}
    let w := ({} : World).registerMemory 0 "main" plain true
    let w' := ({} : World).registerMemory 0 "main" inBranches true
    e.setup.Standard ∧ w.Wraps w' ∧
      ∃ v u u', (e.run 10 "main" []).on ⟨w, e.chain⟩ = (.ok v, u) ∧
        (e.run 10 "main" []).on ⟨w', e.chain⟩ = (.ok v, u') ∧
        u'.world.journal.calls = u.world.journal.calls := by
  intro e w w'
  have he : e.setup.Standard := ⟨rfl, rfl⟩
  have hread : Xml.read plain = .ok ⟨{ name := "scenario" },
      .element valueHead valueParts :: readers⟩ := by
    decide +kernel
  have hread' : Xml.read inBranches = .ok ⟨{ name := "scenario" },
      [.element valueHead [.element branchHead valueParts], .element branchHead readers]⟩ := by
    decide +kernel
  have halways : Builtin.registry.IsAlways w.locator branchHead := by
    refine ⟨?_, ?_⟩
    · rfl
    · rfl
  have hparts : Builtin.registry.Wrapped w.locator
      (Builtin.registry.stands w.locator valueHead Maker.takesCalls) (valueParts ++ [])
      [.element branchHead valueParts] :=
    .block halways (by decide) (by decide) (by decide) (by decide) (Registry.wrapped_self _ _) .nil
  have huses : Builtin.registry.Wrapped w.locator false (readers ++ [])
      [.element branchHead readers] :=
    .block halways (by decide) (by decide) (by decide) (by decide) (Registry.wrapped_self _ _) .nil
  have hwraps : w.Wraps w' :=
    World.wraps_registerMemory rfl 0 "main" true hread hread'
      ⟨rfl, .element (by decide) hparts huses⟩
  refine ⟨he, hwraps, ?_⟩
  obtain hruns | ⟨err, err', u, u', hx, -⟩ := (run_of_wraps e he hwraps 10 "main" []).2
  · exact hruns
  · have hok : ((e.run 10 "main" []).on ⟨w, e.chain⟩).1.toOption.isSome = true := by decide +kernel
    rw [hx] at hok
    cases hok

/-- **Some blocks cannot be wrapped.** Directly inside a call a text is a parameter, but not in a
branch, so it is not returned. And where a return among the parameters of `other` is ignored, a
branch around a blank text is the first instruction to heed it, so the record is not written. -/
theorem wrapping_matters_in_calls :
    let e := Engine.ofSettings Builtin.registry .template {}
    let given (text : String) : Option (Option String) × List String :=
      let w := ({} : World).registerMemory 0 "other" "<scenario/>" true
      let q := (e.run 10 "main" []).on ⟨w.registerMemory 0 "main" text true, e.chain⟩
      (q.1.toOption.map fun v => v.map Value.display, q.2.world.journal.calls.map Prod.fst)
    (given "<scenario><return>hello</return></scenario>" = (some (some "hello"), ["return"]) ∧
      given "<scenario><return><if test=\"${true}\">hello</if></return></scenario>" =
        (some none, ["return"])) ∧
    given ("<scenario><log><level><other><return value=\"1\"/></other> </level></log>" ++
      "</scenario>") = (some (some "1"), ["return", "log"]) ∧
      given ("<scenario><log><level><other><return value=\"1\"/></other>" ++
        "<if test=\"${true}\"> </if></level></log></scenario>") =
      (some (some "1"), ["return"]) := by
  decide +kernel

end Engine

end Scenario
