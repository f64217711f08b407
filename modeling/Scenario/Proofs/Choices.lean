import Scenario.Proofs.Nesting
import Scenario.Proofs.Transparency

/-!
# A choice runs at most one branch

A choice is a branch with a condition and the alternatives right behind it. Its branches agree on
which of them runs through one mark in their scope. The body of a branch may hold choices of its
own, which use the same mark; it is the branch around them that sets the mark last.

* `Visit` — what became of a branch: the state in which it was reached, whether its body ran, and
  the state in which it was left.
* `Activation.visit_of_exec` — one branch: its body runs if its condition holds and the mark is not
  set, and the mark then tells whether some branch has run.
* `Activation.visits_of_execAll` — all branches, by induction on them with the mark as the
  invariant.
* **`Engine.choice_runs_one_branch`** — every choice that a run goes through to its end.
-/

namespace Scenario

open Activation Exec

/-! ### Choices -/

/-- Whether a tag begins a choice. -/
def Tag.opensChoice : Tag → Bool
  | conditional => true
  | _ => false

/-- Whether a tag continues a choice. -/
def Tag.continuesChoice : Tag → Bool
  | alternative => true
  | _ => false

/-- Whether these are a branch with a condition and the alternatives right behind it. -/
def isChoice : List Program → Bool
  | [] => false
  | p :: ps => p.label.2.tag.opensChoice && ps.all fun q => q.label.2.tag.continuesChoice

theorem Tag.opensChoice_iff {t : Tag} : t.opensChoice = true ↔ t = .conditional := by
  cases t <;> simp [opensChoice]

theorem Tag.continuesChoice_iff {t : Tag} : t.continuesChoice = true ↔ t = .alternative := by
  cases t <;> simp [continuesChoice]

theorem isChoice_cons_iff {p : Program} {ps : List Program} : isChoice (p :: ps) = true ↔
    p.label.2.tag = .conditional ∧ ∀ q ∈ ps, q.label.2.tag = .alternative := by
  simp [isChoice, Tag.opensChoice_iff, Tag.continuesChoice_iff]

/-- An instruction is a branch with a tag. A branch has no result name. -/
structure Instruction.IsBranch (i : Instruction) (t : Tag) : Prop where
  tag : i.tag = t
  unnamed : i.binding = none

/-- The state in which a scope tells whether a branch has run. -/
def RunState.marked (st : RunState) (s : ScopeId) (ran : Bool) : RunState :=
  st.mapScopes fun a => (a.setInternal s branchKey (.bool ran) false).2

@[simp] theorem RunState.size_marked (st : RunState) (s : ScopeId) (ran : Bool) :
    (st.marked s ran).scopes.size = st.scopes.size :=
  Arena.size_modifyFrame _ _ _

/-- A live scope tells what it was told last. -/
theorem RunState.branchRan_marked {st : RunState} {s : ScopeId} (hs : s < st.scopes.size)
    (ran : Bool) : branchRan (st.marked s ran).scopes s = ran := by
  have h := branchRan_setBranch st.scopes s ran
  rwa [decide_eq_true hs, Bool.true_and] at h

/-! ### Visits -/

/-- What became of a branch. -/
structure Visit where
  /-- The state in which it was reached. -/
  reached : RunState
  /-- Whether its body ran. -/
  ran : Bool
  /-- The state in which it was left. -/
  left : RunState

namespace Visit

/-- The condition of the branch held when it was reached; a branch without one always may run. -/
def Holds (v : Visit) (s : ScopeId) (p : Program) : Prop :=
  allowed p.label.2 v.reached.scopes s = .ok true

/-- What the visit tells happened: the body ran to its end, without a signal, after the branch had
begun and before it ended, or else nothing ran in between. -/
def Tells (v : Visit) (act : Activation) (s : ScopeId) : Program → Prop
  | .node (id, i) ts =>
    if v.ran then
      ∃ cs u, (act.execAll ts s).on (act.begun id i s v.reached) = (.ok cs, u) ∧
        cs.signal = .none ∧ v.left = act.ended id i s (u.marked s true)
    else v.left = act.ended id i s ((skip i s).on (act.begun id i s v.reached)).2

end Visit

/-- The visits of branches one after the other. -/
inductive Visits (act : Activation) (s : ScopeId) :
    RunState → List Program → List Visit → RunState → Prop where
  | nil {st : RunState} : Visits act s st [] [] st
  | cons {p : Program} {ps : List Program} {v : Visit} {vs : List Visit} {st : RunState} :
      v.Tells act s p → Visits act s v.left ps vs st → Visits act s v.reached (p :: ps) (v :: vs) st

theorem Visits.eq_nil {act : Activation} {s : ScopeId} {st st' : RunState} {vs : List Visit}
    (h : Visits act s st [] vs st') : vs = [] := by
  generalize hps : ([] : List Program) = ps at h
  cases h with
  | nil => rfl
  | cons => simp at hps

/-- A branch runs exactly if its condition holds and none has run before it; `earlier` tells whether
one has run before the first of these. -/
def Fair (s : ScopeId) (earlier : Bool) (ps : List Program) (vs : List Visit) : Prop :=
  ∀ (n : Nat) (p : Program) (v : Visit), ps[n]? = some p → vs[n]? = some v →
    (v.ran = true ↔ v.Holds s p ∧ earlier = false ∧ ∀ u ∈ vs.take n, u.ran = false)

namespace Fair

variable {s : ScopeId} {earlier : Bool} {p : Program} {ps : List Program} {v : Visit}
  {vs : List Visit}

theorem nil : Fair s earlier [] [] := by
  intro n p v hp
  simp at hp

theorem cons_iff : Fair s earlier (p :: ps) (v :: vs) ↔
    (v.ran = true ↔ v.Holds s p ∧ earlier = false) ∧ Fair s (earlier || v.ran) ps vs := by
  constructor
  · intro h
    refine ⟨by simpa using h 0 p v rfl rfl, fun n q u hq hu => ?_⟩
    simpa [and_assoc] using h (n + 1) q u hq hu
  · rintro ⟨hfirst, hrest⟩ n q u hq hu
    cases n with
    | zero =>
      obtain ⟨rfl, rfl⟩ : p = q ∧ v = u := by simpa using And.intro hq hu
      simpa using hfirst
    | succ n => simpa [and_assoc] using hrest n q u (by simpa using hq) (by simpa using hu)

/-- At most one branch runs. -/
theorem countP_le {st st' : RunState} {act : Activation} (hv : Visits act s st ps vs st')
    (h : Fair s earlier ps vs) : vs.countP Visit.ran + earlier.toNat ≤ 1 := by
  induction hv generalizing earlier with
  | nil => cases earlier <;> simp
  | @cons p ps v vs st _ _ ih =>
    obtain ⟨hfirst, hrest⟩ := cons_iff.1 h
    have hcount := ih hrest
    cases hran : v.ran with
    | false => simpa [hran] using hcount
    | true =>
      obtain ⟨-, rfl⟩ := hfirst.1 hran
      simpa [hran] using hcount

/-- If the last branch always may run, one branch runs. -/
theorem countP_eq {st st' : RunState} {act : Activation} (hv : Visits act s st ps vs st')
    (h : Fair s earlier ps vs) {q : Program} (hlast : ps.getLast? = some q)
    (hguard : q.label.2.guard = none) : vs.countP Visit.ran + earlier.toNat = 1 := by
  induction hv generalizing earlier with
  | nil => simp at hlast
  | @cons p ps v vs st _ hvs ih =>
    obtain ⟨hfirst, hrest⟩ := cons_iff.1 h
    have hcount : vs.countP Visit.ran + (earlier || v.ran).toNat = 1 := by
      cases ps with
      | nil =>
        -- the last branch itself: it runs unless another one has run
        obtain rfl : p = q := by simpa using hlast
        obtain rfl : vs = [] := hvs.eq_nil
        have hholds : v.Holds s p := by simp [Visit.Holds, allowed, hguard]
        cases earlier with
        | true => simp
        | false => simp [hfirst.2 ⟨hholds, rfl⟩]
      | cons => exact ih hrest (by rwa [List.getLast?_cons_cons] at hlast)
    cases hran : v.ran with
    | false => simpa [hran] using hcount
    | true =>
      obtain ⟨-, rfl⟩ := hfirst.1 hran
      simpa [hran] using hcount

end Fair

namespace Activation

variable {act : Activation} {s : ScopeId}

@[simp] theorem scopes_begun (act : Activation) (id : NodeId) (i : Instruction) (s : ScopeId)
    (st : RunState) : (act.begun id i s st).scopes = st.scopes := rfl

/-! ### One branch -/

/-- What an instruction gives that ended well and without a signal. -/
theorem runNode_of_step {id : NodeId} {i : Instruction} {kids : ScopeId → Exec Children}
    {st st' : RunState} {o : Outcome} (hx : (act.step id i s kids).on st = (.ok o, st'))
    (hsig : o.signal = .none) :
    ∃ u, (act.runNode i s kids).on (act.begun id i s st) = (.ok o, u) ∧
      st' = act.ended id i s u := by
  obtain ⟨sig, hb, rfl, -⟩ | hrun := of_step_on_ok hx
  · obtain rfl : sig = .none := hsig
    exact absurd hb (act.blocked?_ne_none _ s)
  · exact hrun

/-- What the mark tells when a branch is reached: a branch with a condition begins a choice, and an
alternative finds whether one before it has run. -/
def Marks (st : RunState) (s : ScopeId) (earlier : Bool) (i : Instruction) : Prop :=
  i.IsBranch .conditional ∧ earlier = false ∨
    i.IsBranch .alternative ∧ branchRan st.scopes s = earlier

/-- A branch is taken if its condition holds and none has run before. -/
theorem runNode_taken {i : Instruction} {kids : ScopeId → Exec Children} {st : RunState}
    (hi : Marks st s false i) (hallowed : allowed i st.scopes s = .ok true) :
    (act.runNode i s kids).on st = (runBranch s kids).on st := by
  have hrun : i.binding = none ∧ (act.runTag i s kids).on st = (runBranch s kids).on st := by
    rcases hi with ⟨hi, -⟩ | ⟨hi, hmark⟩
    · exact ⟨hi.unnamed, by simp only [runTag, hi.tag]⟩
    · refine ⟨hi.unnamed, ?_⟩
      simp only [runTag, hi.tag, on_bind, on_scopes, hmark, Bool.false_eq_true, if_false]
  simp only [runNode, on_bind, on_scopes, on_orFail, hallowed, mapError_ok, Bool.not_true,
    Bool.false_eq_true, if_false, hrun]
  rcases (runBranch s kids).on st with ⟨_ | _, _⟩ <;> rfl

/-- Otherwise it is passed over. -/
theorem runNode_passed {i : Instruction} {kids : ScopeId → Exec Children} {st : RunState}
    {earlier ok : Bool} (hi : Marks st s earlier i) (hallowed : allowed i st.scopes s = .ok ok)
    (hnot : ¬(ok = true ∧ earlier = false)) :
    (act.runNode i s kids).on st = (.ok {}, ((skip i s).on st).2) := by
  cases ok with
  | false =>
    rcases hi with ⟨hi, -⟩ | ⟨hi, -⟩ <;>
      simp only [runNode, on_bind, on_scopes, on_orFail, hallowed, mapError_ok, Bool.not_false,
        if_true, skip, hi.tag, setBranchRan, on_modifyScopes, on_pure]
  | true =>
    -- only an alternative finds that one before it has run
    rcases hi with ⟨hi, rfl⟩ | ⟨hi, hmark⟩
    · exact absurd ⟨rfl, rfl⟩ hnot
    · have hran : branchRan st.scopes s = true := by simpa [hmark] using hnot
      simp only [runNode, on_bind, on_scopes, on_orFail, hallowed, mapError_ok, Bool.not_true,
        Bool.false_eq_true, if_false, runTag, hi.tag, hran, if_true, hi.unnamed, on_pure, skip]

/-- A branch that is passed over leaves the mark that the next one has to find. -/
theorem branchRan_skip {i : Instruction} {st : RunState} {earlier : Bool} (hs : s < st.scopes.size)
    (hi : Marks st s earlier i) : branchRan ((skip i s).on st).2.scopes s = earlier ∧
      ((skip i s).on st).2.scopes.size = st.scopes.size := by
  rcases hi with ⟨hi, rfl⟩ | ⟨hi, hmark⟩
  · simp only [skip, hi.tag]
    exact ⟨RunState.branchRan_marked hs false, RunState.size_marked st s false⟩
  · simp only [skip, hi.tag]
    exact ⟨hmark, rfl⟩

/-- What a branch gives that ran well. -/
theorem execAll_of_runBranch {kids : ScopeId → Exec Children} {st u : RunState} {o : Outcome}
    (hx : (runBranch s kids).on st = (.ok o, u)) :
    ∃ cs u₁, (kids s).on st = (.ok cs, u₁) ∧ o = cs.toOutcome ∧ u = u₁.marked s true := by
  rcases hk : (kids s).on st with ⟨e | cs, u₁⟩
  · simp only [runBranch, on_bind, hk] at hx
    simp at hx
  · simp only [runBranch, on_bind, hk, setBranchRan, on_modifyScopes, on_pure, Prod.mk.injEq,
      Except.ok.injEq] at hx
    exact ⟨cs, u₁, rfl, hx.1.symm, hx.2.symm⟩

/-- **One branch.** Its body runs if its condition holds and no branch has run before, and the mark
tells afterwards whether one has run. -/
theorem visit_of_exec (hrun : ∀ key u, act.Follows (.entity key) u (act.run key u) Outcome.signal)
    {id : NodeId} {i : Instruction} {ts : List Program} {st st' : RunState} {earlier : Bool}
    (hs : s < st.scopes.size) (hi : Marks st s earlier i) {o : Outcome}
    (hx : (act.exec (.node (id, i) ts) s).on st = (.ok o, st')) (hsig : o.signal = .none) :
    ∃ ran, Visit.Tells ⟨st, ran, st'⟩ act s (.node (id, i) ts) ∧
      (ran = true ↔ allowed i st.scopes s = .ok true ∧ earlier = false) ∧
      branchRan st'.scopes s = (earlier || ran) ∧ st'.scopes.size = st.scopes.size := by
  rw [exec] at hx
  obtain ⟨u, hn, rfl⟩ := runNode_of_step hx hsig
  have hi' : Marks (act.begun id i s st) s earlier i := hi
  have hs' : s < (act.begun id i s st).scopes.size := hs
  cases hallowed : allowed i st.scopes s with
  | error e =>
    simp only [runNode, on_bind, on_scopes, on_orFail, scopes_begun, hallowed, mapError_error] at hn
    simp at hn
  | ok ok =>
    by_cases htaken : ok = true ∧ earlier = false
    · obtain ⟨rfl, rfl⟩ := htaken
      rw [runNode_taken hi' hallowed] at hn
      obtain ⟨cs, u₁, hk, rfl, rfl⟩ := execAll_of_runBranch hn
      have hsize : u₁.scopes.size = st.scopes.size := by
        have hkept := (execAll_walk hrun ts s).kept (Nat.zero_lt_of_lt hs')
        rw [Exec.Ends, hk] at hkept
        exact hkept.size
      refine ⟨true, ?_, by simp, ?_, ?_⟩
      · rw [Visit.Tells, if_pos rfl]
        exact ⟨cs, u₁, hk, hsig, rfl⟩
      · exact RunState.branchRan_marked (hsize ▸ hs) true
      · exact (u₁.size_marked s true).trans hsize
    · rw [runNode_passed hi' hallowed htaken] at hn
      obtain ⟨-, rfl⟩ := Prod.mk.inj hn
      obtain ⟨hmark, hsize⟩ := branchRan_skip hs' hi'
      refine ⟨false, ?_, by simpa using htaken, ?_, hsize⟩
      · rw [Visit.Tells, if_neg Bool.false_ne_true]
      · rw [Bool.or_false]
        exact hmark

/-! ### All branches -/

/-- What several programs give that ran well and without a signal: so did the first of them, and the
others after it. -/
theorem exec_of_execAll_cons {p : Program} {ps : List Program} {st st' : RunState} {cs : Children}
    (hx : (act.execAll (p :: ps) s).on st = (.ok cs, st')) (hsig : cs.signal = .none) :
    ∃ o u cs', (act.exec p s).on st = (.ok o, u) ∧ o.signal = .none ∧
      (act.execAll ps s).on u = (.ok cs', st') ∧ cs'.signal = .none := by
  rw [execAll, on_bind] at hx
  rcases hp : (act.exec p s).on st with ⟨e | o, u⟩
  · simp [hp] at hx
  · by_cases ho : o.signal = .none
    · simp only [hp, ho, ne_eq, not_true, if_false, on_bind] at hx
      rcases hps : (act.execAll ps s).on u with ⟨e | cs', u'⟩
      · simp [hps] at hx
      · simp only [hps, on_pure, Prod.mk.injEq, Except.ok.injEq] at hx
        obtain ⟨rfl, rfl⟩ := hx
        exact ⟨o, u, cs', rfl, ho, hps, hsig⟩
    · simp only [hp, ne_eq, ho, not_false_eq_true, if_true, on_pure, Prod.mk.injEq,
        Except.ok.injEq] at hx
      obtain ⟨rfl, -⟩ := hx
      exact absurd hsig ho

/-- **Alternatives, one after the other.** The mark tells all along whether a branch has run. -/
theorem visits_of_execAll
    (hrun : ∀ key u, act.Follows (.entity key) u (act.run key u) Outcome.signal)
    {ps : List Program} (hps : ∀ p ∈ ps, p.label.2.IsBranch .alternative) {st st' : RunState}
    (hs : s < st.scopes.size) {cs : Children} (hx : (act.execAll ps s).on st = (.ok cs, st'))
    (hsig : cs.signal = .none) :
    ∃ vs, Visits act s st ps vs st' ∧ Fair s (branchRan st.scopes s) ps vs := by
  induction ps generalizing st cs with
  | nil =>
    rw [execAll, on_pure] at hx
    obtain ⟨-, rfl⟩ := Prod.mk.inj hx
    exact ⟨[], .nil, .nil⟩
  | cons p ps ih =>
    obtain ⟨o, u, cs', hp, ho, hrest, hsig'⟩ := exec_of_execAll_cons hx hsig
    obtain ⟨⟨id, i⟩, ts⟩ := p
    obtain ⟨ran, htells, hran, hmark, hsize⟩ :=
      visit_of_exec hrun hs (.inr ⟨hps _ List.mem_cons_self, rfl⟩) hp ho
    obtain ⟨vs, hvs, hfair⟩ :=
      ih (fun q hq => hps q (List.mem_cons_of_mem _ hq)) (hsize ▸ hs) hrest hsig'
    rw [hmark] at hfair
    exact ⟨⟨st, ran, u⟩ :: vs, .cons htells hvs, Fair.cons_iff.2 ⟨hran, hfair⟩⟩

/-- A choice begins anew, whatever the mark told before. -/
theorem visits_of_choice
    (hrun : ∀ key u, act.Follows (.entity key) u (act.run key u) Outcome.signal)
    {p : Program} {ps : List Program} (hfirst : p.label.2.IsBranch .conditional)
    (hothers : ∀ q ∈ ps, q.label.2.IsBranch .alternative) {st st' : RunState}
    (hs : s < st.scopes.size) {cs : Children}
    (hx : (act.execAll (p :: ps) s).on st = (.ok cs, st')) (hsig : cs.signal = .none) :
    ∃ vs, Visits act s st (p :: ps) vs st' ∧ Fair s false (p :: ps) vs := by
  obtain ⟨o, u, cs', hp, ho, hrest, hsig'⟩ := exec_of_execAll_cons hx hsig
  obtain ⟨⟨id, i⟩, ts⟩ := p
  obtain ⟨ran, htells, hran, hmark, hsize⟩ := visit_of_exec hrun hs (.inl ⟨hfirst, rfl⟩) hp ho
  obtain ⟨vs, hvs, hfair⟩ := visits_of_execAll hrun hothers (hsize ▸ hs) hrest hsig'
  rw [hmark] at hfair
  exact ⟨⟨st, ran, u⟩ :: vs, .cons htells hvs, Fair.cons_iff.2 ⟨hran, hfair⟩⟩

end Activation

namespace Engine

/-- **A choice runs at most one branch**, in every run that goes through it to its end, whatever its
bodies do. The body of a branch runs exactly if the condition of that branch holds when it is
reached and no body before it ran. If the last branch has no condition, one body runs. -/
theorem choice_runs_one_branch (e : Engine) (depth : Nat) {w : World}
    (hw : w.Programs Program.Unnamed) {key : EntityKey} {p : Program}
    (hp : (w.entity? key).bind Entity.program = some p) {ps : List Program}
    (hin : ∀ q ∈ ps, q.label ∈ p.labels) (hps : isChoice ps = true) {s : ScopeId}
    {st st' : RunState} {cs : Children} (hs : s < st.scopes.size)
    (hx : ((e.activation (e.runEntity depth) w key).execAll ps s).on st = (.ok cs, st'))
    (hsig : cs.signal = .none) :
    ∃ vs, Visits (e.activation (e.runEntity depth) w key) s st ps vs st' ∧
      (∀ (n : Nat) (q : Program) (v : Visit), ps[n]? = some q → vs[n]? = some v →
        (v.ran = true ↔ v.Holds s q ∧ ∀ u ∈ vs.take n, u.ran = false)) ∧
      vs.countP Visit.ran ≤ 1 ∧
      ∀ q, ps.getLast? = some q → q.label.2.guard = none → vs.countP Visit.ran = 1 := by
  cases ps with
  | nil => cases hps
  | cons q₀ qs =>
    obtain ⟨hfirst, hothers⟩ := isChoice_cons_iff.1 hps
    -- parsing gives branches no result names
    have hunnamed : ∀ q ∈ q₀ :: qs, q.label.2.Unnamed := fun q hq => hw key p hp _ (hin q hq)
    obtain ⟨vs, hvs, hfair⟩ := Activation.visits_of_choice
      (fun key' u => e.activation_walk depth w key key' u)
      ⟨hfirst, hunnamed q₀ List.mem_cons_self (.inl hfirst)⟩
      (fun q hq => ⟨hothers q hq, hunnamed q (List.mem_cons_of_mem _ hq) (.inr (hothers q hq))⟩)
      hs hx hsig
    refine ⟨vs, hvs, fun n q v hq hv => ?_, ?_, fun q hlast hguard => ?_⟩
    · simpa using hfair n q v hq hv
    · simpa using hfair.countP_le hvs
    · simpa using hfair.countP_eq hvs hlast hguard

/-- A document with a choice whose first branch holds another choice, none of whose branches
runs. -/
def nestedChoice : World :=
  ({} : World).registerMemory 0 "main" ("<scenario>" ++
    "<if test=\"${true}\"><if test=\"${false}\"/></if>" ++
    "<else test=\"${true}\"><literal>second</literal></else>" ++
    "<else><literal>third</literal></else></scenario>") true

theorem choice_runs_one_branch_nested :
    let e := Engine.ofSettings Builtin.registry .template {}
    let w := ((e.setup.load "main").run.run nestedChoice).2
    let act := e.activation (e.runEntity 10) w 0
    w.Programs Program.Unnamed ∧
      ∃ p, (w.entity? 0).bind Entity.program = some p ∧ isChoice p.children = true ∧
      ∃ cs st', (act.execAll p.children 0).on ⟨w, e.chain⟩ = (.ok cs, st') ∧ cs.signal = .none ∧
        ∃ vs, Visits act 0 ⟨w, e.chain⟩ p.children vs st' ∧ vs.countP Visit.ran = 1 := by
  intro e w act
  have hw : w.Programs Program.Unnamed :=
    e.setup.load_unnamed "main" (World.programs_of_none rfl)
  have htest : ((w.entity? 0).bind Entity.program).any (fun p => isChoice p.children &&
      (p.children.getLast?.any fun q => q.label.2.guard.isNone) &&
      decide (((act.execAll p.children 0).on ⟨w, e.chain⟩).1.toOption.map Children.signal =
        some .none)) = true := by decide +kernel
  obtain ⟨p, hp, htest⟩ := (Option.any_eq_true _ _).1 htest
  rw [Bool.and_eq_true, Bool.and_eq_true, decide_eq_true_eq] at htest
  obtain ⟨⟨hps, hlast⟩, hends⟩ := htest
  obtain ⟨q, hq, hguard⟩ := (Option.any_eq_true _ _).1 hlast
  have hin : ∀ q ∈ p.children, q.label ∈ p.labels := by
    obtain ⟨x, ts⟩ := p
    rintro ⟨x', ts'⟩ hq
    exact List.mem_cons_of_mem _ (Tree.mem_labelsAll.2 ⟨_, hq, List.mem_cons_self⟩)
  rcases hx : (act.execAll p.children 0).on ⟨w, e.chain⟩ with ⟨err | cs, st'⟩
  · rw [hx] at hends
    cases hends
  · rw [hx] at hends
    have hsig : cs.signal = .none := Option.some.inj hends
    obtain ⟨vs, hvs, -, -, hone⟩ :=
      e.choice_runs_one_branch 10 hw hp hin hps (by decide) hx hsig
    exact ⟨hw, p, hp, hps, cs, st', hx, hsig, vs, hvs,
      hone q hq (Option.isNone_iff_eq_none.1 hguard)⟩

end Engine

end Scenario
