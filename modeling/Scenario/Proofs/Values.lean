import Scenario.Proofs.Frames
import Scenario.Proofs.Locality
import Scenario.Proofs.Transparency

/-!
# Programs that only give values

A program made of data tags, literals and expressions gives a value and does nothing else, unless
one of its tags binds its result. What it gives is computed from the scopes alone:

* `Program.yield? a s t`: the output in the scope `s` of the arena `a`, if nothing fails. It depends
  only on the scope and those around it (`yield?_congr`).
* **`Activation.exec_calmly`**: a run gives this output or fails if there is none, and the scopes
  are what they were. By recursion on the program, with one lemma for the tag (`runTag_calmly`), one
  for its condition (`runNode_calmly`) and one for the instruction (`step_calmly`).
-/

namespace Scenario

/-! ### Values without calls -/

namespace Tag

/-- The name of a data tag. -/
def dataName? : Tag → Option String
  | .data name _ _ => some name
  | _ => none

/-- Whether a tag gives a value of its own or made of those below it. -/
def givesValue : Tag → Bool
  | .data _ _ _ | .literal _ | .expression _ => true
  | _ => false

/-- The output of such a tag, given those of the tags below it. There is none if something fails. -/
def yield? (a : Arena) (s : ScopeId) (below : Option (List Output)) : Tag → Option Output
  | .data name _ _ => below.map fun os => .named name (Output.aggregate os)
  | .literal text => some (.value (.str text))
  | .expression e => (e.eval a s).toOption.map fun v => if v.isNull then .absent else .value v
  | _ => none

end Tag

namespace Program

mutual

/-- The output of a program made of such tags, in a scope. -/
def yield? (a : Arena) (s : ScopeId) : Program → Option Output
  | .node (_, i) ts => (Activation.allowed i a s).toOption.bind fun holds =>
    if holds then i.tag.yield? a s (yieldAll? a s ts) else some .absent

/-- The outputs of several ones. -/
def yieldAll? (a : Arena) (s : ScopeId) : List Program → Option (List Output)
  | [] => some []
  | t :: ts => (yield? a s t).bind fun o => (yieldAll? a s ts).map (o :: ·)

end

/-- The value of a parameter whose children run in a scope. -/
def value? (a : Arena) (s : ScopeId) (t : Program) : Option Value :=
  (yieldAll? a s t.children).map fun os => (Output.aggregate os).getD .null

end Program

/-- An instruction that does nothing but give a value. -/
structure Instruction.Pure (i : Instruction) : Prop where
  gives : i.tag.givesValue = true
  unnamed : i.tag.publishes = true → i.binding = none
  isLocal : i.Local

namespace Program

variable {a a' : Arena} {s : ScopeId}

/-! ### What a value depends on -/

theorem allowed_congr {i : Instruction} (hi : i.Local) (hchain : a'.chain s = a.chain s)
    (hglobals : a'.globals = a.globals) :
    Activation.allowed i a' s = Activation.allowed i a s := by
  unfold Activation.allowed
  cases hg : i.guard with
  | none => rfl
  | some g =>
    simp only [Guard.allows, Compiled.truth, hi.guard g hg a a' s hchain hglobals]

mutual

/-- What a program of local instructions gives depends on the scope and those around it. -/
theorem yield?_congr (hchain : a'.chain s = a.chain s) (hglobals : a'.globals = a.globals) :
    (t : Program) → (∀ x ∈ t.labels, x.2.Local) → yield? a' s t = yield? a s t
  | .node (id, i) ts, hlabels => by
    rw [Tree.labels, List.forall_mem_cons] at hlabels
    obtain ⟨hi, hbelow⟩ := hlabels
    rw [yield?, yield?, allowed_congr hi hchain hglobals,
      yieldAll?_congr hchain hglobals ts hbelow]
    have htag : ∀ below, i.tag.yield? a' s below = i.tag.yield? a s below := by
      intro below
      cases htag : i.tag with
      | expression e => simp only [Tag.yield?, hi.expression htag a a' s hchain hglobals]
      | _ => rfl
    rw [htag]

theorem yieldAll?_congr (hchain : a'.chain s = a.chain s) (hglobals : a'.globals = a.globals) :
    (ts : List Program) → (∀ x ∈ Tree.labelsAll ts, x.2.Local) →
      yieldAll? a' s ts = yieldAll? a s ts
  | [], _ => rfl
  | t :: ts, hlabels => by
    rw [Tree.labelsAll, List.forall_mem_append] at hlabels
    rw [yieldAll?, yieldAll?, yield?_congr hchain hglobals t hlabels.1,
      yieldAll?_congr hchain hglobals ts hlabels.2]

end

end Program

/-! ### Runs that leave the scopes as they are -/

/-- The scopes, the running instructions and whether the run is given up are as before. -/
structure RunState.Undisturbed (st st' : RunState) : Prop where
  scopes : st'.scopes = st.scopes
  stack : st'.chain.stack = st.chain.stack
  aborting : st'.chain.aborting = st.chain.aborting

theorem RunState.Undisturbed.refl (st : RunState) : st.Undisturbed st := ⟨rfl, rfl, rfl⟩

theorem RunState.Undisturbed.trans {st st₁ st₂ : RunState} (h : st.Undisturbed st₁)
    (h' : st₁.Undisturbed st₂) : st.Undisturbed st₂ :=
  ⟨h'.scopes.trans h.scopes, h'.stack.trans h.stack, h'.aborting.trans h.aborting⟩

namespace Activation

open Exec

variable {act : Activation} {i : Instruction} {id : NodeId} {home s : ScopeId} {st st' : RunState}
  {kids : ScopeId → Exec Children}

/-- Attributing a failure disturbs nothing. -/
theorem blame_undisturbed (act : Activation) (i : Instruction) (s : ScopeId) (e : EngineError)
    (st : RunState) : ∃ e' st', (act.blame i s e).on st = (.ok e', st') ∧ st.Undisturbed st' := by
  by_cases ho : st.chain.origin.isNone
  · simp only [blame, on_bind, on_chain, ho, if_true, on_modifyChain]
    cases e with
    | action causes => exact ⟨_, _, rfl, rfl, rfl, rfl⟩
    | parse _ | conflict _ | runtime _ | tooDeep => exact ⟨_, _, rfl, rfl, rfl, rfl⟩
  · simp only [blame, on_bind, on_chain, ho]
    cases e with
    | action causes => exact ⟨_, _, rfl, rfl, rfl, rfl⟩
    | parse _ | conflict _ | runtime _ | tooDeep => exact ⟨_, _, rfl, rfl, rfl, rfl⟩

/-- Nothing keeps instructions from starting: the run is not given up, and the entity has not
returned. -/
structure Unhindered (home : ScopeId) (st : RunState) : Prop where
  aborting : st.chain.aborting = false
  returning : st.scopes.returning home = false

theorem Unhindered.blocked?_eq (h : Unhindered home st)
    (hs : Arena.Home act.entity home s st.scopes) : act.blocked? st.chain s = none := by
  have hfound : st.chain.scopes.entityScope? s act.entity = some home := hs.found
  have hreturning : st.chain.scopes.returning home = false := h.returning
  simp [blocked?, h.aborting, hfound, hreturning]

theorem Unhindered.congr (h : Unhindered home st) (hst : st.Undisturbed st') :
    Unhindered home st' :=
  ⟨hst.aborting.trans h.aborting, hst.scopes ▸ h.returning⟩

/-- A node whose result is not bound does what its tag does, if its condition holds. -/
theorem runNode_on_allowed (hi : i.tag.publishes = true → i.binding = none)
    (hallowed : allowed i st.scopes s = .ok true) :
    (act.runNode i s kids).on st = (act.runTag i s kids).on st := by
  simp only [runNode, on_bind, on_scopes, on_orFail, hallowed, mapError_ok]
  rcases hx : (act.runTag i s kids).on st with ⟨e | o, u⟩
  · simp [on_bind, hx]
  · simp only [Bool.not_true, Bool.false_eq_true, if_false, on_bind, hx]
    cases hb : i.binding with
    | none => rfl
    | some b =>
      have hpub : i.tag.publishes = false := by
        cases hpub : i.tag.publishes with
        | false => rfl
        | true => cases (hi hpub).symm.trans hb
      simp only [hpub, Bool.false_and, Bool.false_eq_true, if_false]
      rfl

theorem runNode_on_refused {cause : String} (h : allowed i st.scopes s = .error cause) :
    (act.runNode i s kids).on st = (.error (.action [cause]), st) := by
  simp only [runNode, on_bind, on_scopes, on_orFail, h, mapError_error]

/-- A tag that gives a value is passed over silently. -/
theorem runNode_on_skipped (hi : i.tag.givesValue = true)
    (h : allowed i st.scopes s = .ok false) : (act.runNode i s kids).on st = (.ok {}, st) := by
  have hskip : skip i s = pure () := by
    unfold skip
    split
    · next htag => simp [htag, Tag.givesValue] at hi
    · next htag => simp [htag, Tag.givesValue] at hi
    · rfl
  simp only [runNode, on_bind, on_scopes, on_orFail, h, mapError_ok, hskip]
  rfl

/-- A step gives what is said, or fails if there is nothing to give, and disturbs nothing. -/
inductive Calmly {α β : Type} (x : Exec α) (st : RunState) (f : β → α) : Option β → Prop
  | ok {b : β} {u : RunState} (hx : x.on st = (.ok (f b), u)) (hu : st.Undisturbed u) :
      Calmly x st f (some b)
  | error {e : EngineError} {u : RunState} (hx : x.on st = (.error e, u))
      (hu : st.Undisturbed u) : Calmly x st f none

theorem Calmly.congr {α β : Type} {x y : Exec α} {f : β → α} {o : Option β}
    (h : Calmly x st f o) (hon : y.on st = x.on st) : Calmly y st f o := by
  cases h with
  | ok hx hu => exact .ok (hon.trans hx) hu
  | error hx hu => exact .error (hon.trans hx) hu

/-- The outcome of a value. -/
def calm (o : Output) : Outcome := ⟨o, .none⟩

/-- The children of values. -/
def calmAll (os : List Output) : Children := ⟨os, .none⟩

theorem runData_on_always (act : Activation) (i : Instruction) (s : ScopeId) (name : String)
    (mode : DataMode) (kids : ScopeId → Exec Children) (st : RunState) :
    (act.runData i s name mode false kids).on st =
      (kids (if mode = .parameter then act.entityScope st.scopes s else s) >>=
        act.storeData i s name mode false).on st := rfl

theorem runData_calmly {name : String} {below : Option (List Output)}
    (hk : Calmly (kids s) st calmAll below) :
    Calmly (act.runData i s name .sub false kids) st calm
      (below.map fun os => .named name (Output.aggregate os)) := by
  have hdata := act.runData_on_always i s name .sub kids st
  rw [if_neg (by decide), on_bind] at hdata
  cases hk with
  | ok hx hu =>
    rw [hx] at hdata
    exact .ok hdata hu
  | error hx hu =>
    rw [hx] at hdata
    exact .error hdata hu

theorem runTag_calmly {below : Option (List Output)} (hi : i.tag.givesValue = true)
    (hdata : ∀ {name mode fallback}, i.tag = .data name mode fallback →
      mode = .sub ∧ fallback = false ∧ Calmly (kids s) st calmAll below) :
    Calmly (act.runTag i s kids) st calm (i.tag.yield? st.scopes s below) := by
  unfold runTag
  cases htag : i.tag with
  | data name mode fallback =>
    obtain ⟨rfl, rfl, hk⟩ := hdata htag
    exact runData_calmly hk
  | literal text => exact .ok rfl (.refl st)
  | expression e =>
    simp only [Tag.yield?]
    cases he : e.eval st.scopes s with
    | error cause =>
      refine .error (e := .action [cause]) ?_ (.refl st)
      simp only [on_bind, on_scopes, on_orFail, he, mapError_error]
    | ok v =>
      refine .ok ?_ (.refl st)
      simp only [on_bind, on_scopes, on_orFail, he, mapError_ok, calm]
      split <;> rfl
  | _ => simp [htag, Tag.givesValue] at hi

theorem runNode_calmly {below : Option (List Output)} (hi : i.Pure)
    (hdata : ∀ {name mode fallback}, i.tag = .data name mode fallback →
      mode = .sub ∧ fallback = false ∧ Calmly (kids s) st calmAll below) :
    Calmly (act.runNode i s kids) st calm ((allowed i st.scopes s).toOption.bind fun holds =>
      if holds then i.tag.yield? st.scopes s below else some .absent) := by
  cases hallowed : allowed i st.scopes s with
  | error cause => exact .error (runNode_on_refused hallowed) (.refl st)
  | ok holds =>
    cases holds with
    | false => exact .ok (runNode_on_skipped hi.gives hallowed) (.refl st)
    | true => exact (runTag_calmly hi.gives hdata).congr (runNode_on_allowed hi.unnamed hallowed)

/-- The instruction that was put on the stack is taken off again. -/
theorem ended_undisturbed {u : RunState} (hu : (act.begun id i s st).Undisturbed u) :
    st.Undisturbed (act.ended id i s u) :=
  ⟨hu.scopes, congrArg List.tail hu.stack, hu.aborting⟩

theorem step_calmly {o : Option Output} (hb : act.blocked? st.chain s = none)
    (hn : Calmly (act.runNode i s kids) (act.begun id i s st) calm o) :
    Calmly (act.step id i s kids) st calm o := by
  cases hn with
  | ok hx hu => exact .ok (step_on_ok hb hx) (ended_undisturbed hu)
  | @error e u hx hu =>
    obtain ⟨e', u', hblame, hu'⟩ := act.blame_undisturbed i s e u
    exact .error (step_on_error hb hx hblame) (ended_undisturbed (hu.trans hu'))

theorem execAll_cons_on_error {t : Program} {e : EngineError} {u : RunState}
    (hx : (act.exec t s).on st = (.error e, u)) (ts : List Program) :
    (act.execAll (t :: ts) s).on st = (.error e, u) := by
  rw [execAll, on_bind, hx]

theorem execAll_cons_on_ok {t : Program} {o : Outcome} {u : RunState}
    (hx : (act.exec t s).on st = (.ok o, u)) (ho : o.signal = .none) (ts : List Program) :
    (act.execAll (t :: ts) s).on st = (((act.execAll ts s).on u).1.map fun rest =>
      { rest with results := o.output :: rest.results }, ((act.execAll ts s).on u).2) := by
  simp only [execAll, on_bind, hx, ho, ne_eq, not_true, if_false]
  rcases (act.execAll ts s).on u with ⟨_ | _, _⟩ <;> rfl

mutual

/-- A program that only gives a value gives it and disturbs nothing. -/
theorem exec_calmly : (t : Program) → Tree.Placed (fun x => x.2.tag) .data t →
    (∀ x ∈ t.labels, x.2.Pure) → {st : RunState} → Arena.Home act.entity home home st.scopes →
    Unhindered home st → Calmly (act.exec t home) st calm (t.yield? st.scopes home)
  | .node (id, i) ts, hplaced, hlabels, st, hhome, hst => by
    rw [Tree.labels, List.forall_mem_cons] at hlabels
    obtain ⟨hi, hbelow⟩ := hlabels
    obtain ⟨hfits, hplaced⟩ := hplaced
    rw [exec, Program.yield?]
    refine step_calmly (hst.blocked?_eq hhome) (runNode_calmly hi ?_)
    intro name mode fallback htag
    dsimp only at hfits hplaced
    rw [htag] at hfits hplaced
    refine ⟨hfits, ?_, ?_⟩
    · cases fallback with
      | false => rfl
      | true => cases hfits.symm.trans (hi.isLocal.fallback htag)
    · exact execAll_calmly ts hplaced hbelow hhome ⟨hst.aborting, hst.returning⟩

theorem execAll_calmly : (ts : List Program) → Tree.PlacedAll (fun x => x.2.tag) .data ts →
    (∀ x ∈ Tree.labelsAll ts, x.2.Pure) → {st : RunState} →
    Arena.Home act.entity home home st.scopes → Unhindered home st →
    Calmly (act.execAll ts home) st calmAll (Program.yieldAll? st.scopes home ts)
  | [], _, _, st, _, _ => .ok rfl (.refl st)
  | t :: ts, hplaced, hlabels, st, hhome, hst => by
    rw [Tree.labelsAll, List.forall_mem_append] at hlabels
    have ht := exec_calmly t hplaced.1 hlabels.1 hhome hst
    rw [Program.yieldAll?]
    cases hy : Program.yield? st.scopes home t with
    | none =>
      rw [hy] at ht
      cases ht with
      | error hx hu => exact .error (execAll_cons_on_error hx ts) hu
    | some o =>
      rw [hy] at ht
      cases ht with
      | @ok _ u hx hu =>
        have hon := execAll_cons_on_ok hx rfl ts
        have hts := execAll_calmly ts hplaced.2 hlabels.2 (hu.scopes ▸ hhome) (hst.congr hu)
        rw [hu.scopes] at hts
        rw [Option.bind_some]
        cases hys : Program.yieldAll? st.scopes home ts with
        | none =>
          rw [hys] at hts
          cases hts with
          | error hx' hu' =>
            rw [hx'] at hon
            exact .error hon (hu.trans hu')
        | some os =>
          rw [hys] at hts
          cases hts with
          | ok hx' hu' =>
            rw [hx'] at hon
            exact .ok hon (hu.trans hu')

end

end Activation

end Scenario
