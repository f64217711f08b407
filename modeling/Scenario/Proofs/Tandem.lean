import Scenario.Proofs.Lockstep
import Scenario.Proofs.Steps
import Scenario.Proofs.Arena
import Scenario.Proofs.Wrapping

/-!
# Two runs side by side

The states of two runs are compared apart from what a wrapped block changes: the programs of the
entities, how many instructions are running, and the marks that say whether a branch has run.
`Exec.Both` says of two steps that both fail, or that both succeed with related results; a longer
pair of steps is put together with `both_bind`.
-/

namespace Scenario

/-! ### Scopes without marks -/

/-- A scope without the mark that tells whether a branch has run. -/
def Frame.unmarked (f : Frame) : Frame :=
  { f with internals := f.internals.erase Activation.branchKey }

theorem Entries.erase_insert (es : Entries) (k : String) (v : Value) :
    (es.insert k v).erase k = es.erase k := by
  induction es with
  | nil => simp [insert, erase]
  | cons e es ih =>
    obtain ⟨k₁, v₁⟩ := e
    by_cases hk : k₁ = k
    · simp [insert, erase, hk]
    · have hne : (k₁ != k) = true := by simpa using hk
      simp only [insert, if_neg hk, erase, List.filter_cons, hne, if_true]
      exact congrArg _ ih

namespace Arena

/-- The scopes without those marks. -/
def unmarked (a : Arena) : Arena := { a with frames := a.frames.map Frame.unmarked }

variable (a : Arena) (s : ScopeId)

@[simp] theorem size_unmarked : a.unmarked.size = a.size := by simp [unmarked, size]

theorem frame_unmarked : a.unmarked.frame s = (a.frame s).unmarked := by
  simp only [frame, unmarked, Array.getElem?_map]
  cases a.frames[s]? <;> rfl

theorem unmarked_modifyFrame {g : Frame → Frame} (g' : Frame → Frame)
    (hg : ∀ f, (g f).unmarked = g' f.unmarked) :
    (a.modifyFrame s g).unmarked = a.unmarked.modifyFrame s g' := by
  simp only [unmarked, modifyFrame, mk.injEq, and_true]
  refine Array.ext_getElem? fun k => ?_
  simp only [Array.getElem?_map, Array.getElem?_modify]
  split
  · cases a.frames[k]? with
    | none => rfl
    | some f => simp only [Option.map_some, hg]
  · rfl

theorem unmarked_replace (id : String) (origin : Option String) (v : Value) :
    (a.replace s id origin v).2.unmarked = (a.unmarked.replace s id origin v).2 :=
  a.unmarked_modifyFrame s (fun f => f.bind ⟨id, v, origin⟩)
    fun _ => rfl

/-- Setting a mark goes unnoticed. -/
theorem unmarked_setBranch (ran : Bool) :
    (a.setInternal s Activation.branchKey (.bool ran) false).2.unmarked = a.unmarked := by
  have hid : a.unmarked.modifyFrame s id = a.unmarked := by
    simp only [modifyFrame, unmarked, mk.injEq, and_true]
    refine Array.ext_getElem? fun k => ?_
    simp [Array.getElem?_modify]
  rw [← hid]
  refine a.unmarked_modifyFrame s id fun f => ?_
  simp only [Frame.unmarked, Entries.erase_insert, id]

theorem unmarked_enter : (a.enter s).1.unmarked = (a.unmarked.enter s).1 := by
  have hseq : (a.unmarked.frame s).seq = (a.frame s).seq := by rw [frame_unmarked]; rfl
  simp only [enter, hseq]
  simp [unmarked, Frame.unmarked, Entries.erase]

theorem unmarked_leave : (a.leave s).unmarked = a.unmarked.leave s := by
  unfold leave
  split
  · rfl
  · simp [unmarked]

theorem ancestors_unmarked : a.unmarked.ancestors s = a.ancestors s :=
  ancestors_congr fun k _ => by rw [frame_unmarked]; rfl

theorem entityScope?_unmarked (e : EntityKey) : a.unmarked.entityScope? s e = a.entityScope? s e :=
  entityScope?_congr (fun k _ => by rw [frame_unmarked]; rfl) fun k _ => by rw [frame_unmarked]; rfl

theorem get?_unmarked (id : String) : a.unmarked.get? s id = a.get? s id := by
  have hchain : (a.unmarked.chain s).map Frame.values = (a.chain s).map Frame.values := by
    simp only [chain, ancestors_unmarked, List.map_map]
    refine List.map_congr_left fun k _ => ?_
    simp only [Function.comp_apply, frame_unmarked]
    rfl
  have hfind : ∀ fs : List Frame, fs.findSome? (fun f => f.values.get? id) =
      (fs.map Frame.values).findSome? fun bs => bs.get? id := by
    intro fs
    rw [List.findSome?_map]
    rfl
  rw [get?, get?, hfind, hfind, hchain]

theorem overwriteAllowed_unmarked : a.unmarked.overwriteAllowed s = a.overwriteAllowed s := by
  have hne : overwriteKey ≠ Activation.branchKey := by decide
  simp only [overwriteAllowed, internal?, Bool.false_eq_true, if_false, frame_unmarked,
    Frame.unmarked, Entries.get?_erase, hne]

end Arena

/-! ### States -/

/-- Two documents with the same head, the second one with some blocks wrapped. -/
def Xml.Element.Wraps (l : Locator) (root root' : Xml.Element) : Prop :=
  root'.head = root.head ∧ Builtin.registry.Wrapped l false root.children root'.children

/-- The built-in tags and templates. -/
structure Setup.Standard (st : Setup) : Prop where
  registry : st.registry = Builtin.registry
  evaluator : st.evaluator = .template

namespace Setup.Standard

variable {st : Setup}

theorem reference (hst : st.Standard) : st.registry.reference = .invoke := by rw [hst.registry]; rfl

/-- The usual root is the only one. -/
theorem root_eq (hst : st.Standard) {name : String} {maker : RootMaker}
    (h : st.registry.root? name = some maker) : maker = .scenario := by
  rw [hst.registry] at h
  obtain ⟨_, _, hroots, -⟩ := List.lookup_eq_some_iff.1 h
  have hmem : (name, maker) ∈ Builtin.registry.roots := by simp [hroots]
  simp only [Builtin.registry, List.mem_singleton, Prod.mk.injEq] at hmem
  exact hmem.2

theorem match_document (hst : st.Standard) {l : Locator} {root root' : Xml.Element}
    (h : root.Wraps l root') (r : Resource) (w : World) :
    Assembly.Match Program.Alike w ((st.alone l r).document root .scenario)
      ((st.alone l r).document root' .scenario) := by
  refine Assembly.match_document ⟨hst.registry, hst.evaluator, rfl⟩ h.1 ?_ w
  rw [show (st.alone l r).registry = Builtin.registry from hst.registry]
  exact h.2

/-- Wrapped documents become programs with the same blocks in branches. -/
theorem transfers (hst : st.Standard) (l : Locator) :
    st.Transfers l (Xml.Element.Wraps l) Program.Alike where
  head h := h.1
  targets h := by rw [hst.registry]; exact h.2.targetsAll_eq
  program h hmaker hp := by
    obtain rfl := hst.root_eq hmaker
    exact (hst.match_document h _ _).right _ hp

/-- The same the other way round. -/
theorem transfersBack (hst : st.Standard) (l : Locator) :
    st.Transfers l (flip (Xml.Element.Wraps l)) (flip Program.Alike) where
  head h := h.1.symm
  targets h := by rw [hst.registry]; exact h.2.targetsAll_eq.symm
  program h hmaker hp := by
    obtain rfl := hst.root_eq hmaker
    exact (hst.match_document h _ _).left _ hp

end Setup.Standard

/-- The states of two runs that differ in their programs, in the running instructions, which are
`fs` and `fs'`, and in the marks of their scopes. -/
structure RunState.Tandem (l : Locator) (fs fs' : List StackFrame) (st st' : RunState) : Prop where
  world : World.Twins l (Xml.Element.Wraps l) Program.Alike st.world st'.world
  scopes : st'.scopes.unmarked = st.scopes.unmarked
  stack : st.chain.stack = fs ∧ st'.chain.stack = fs'
  running : fs = [] ↔ fs' = []
  aborting : st'.chain.aborting = st.chain.aborting
  result : st'.chain.result = st.chain.result
  closeables : st'.chain.closeables = st.chain.closeables
  thread : st'.chain.thread = st.chain.thread

namespace RunState.Tandem

variable {l : Locator} {fs fs' : List StackFrame} {st st' : RunState}

theorem size_eq (h : Tandem l fs fs' st st') : st'.scopes.size = st.scopes.size := by
  rw [← Arena.size_unmarked, h.scopes, Arena.size_unmarked]

theorem get?_eq (h : Tandem l fs fs' st st') (s : ScopeId) (id : String) :
    st'.scopes.get? s id = st.scopes.get? s id := by
  rw [← Arena.get?_unmarked, h.scopes, Arena.get?_unmarked]

/-- What a frame holds apart from its private storage is the same. -/
theorem frame_eq {β : Type} (p : Frame → β) (hp : ∀ f, p f.unmarked = p f)
    (h : Tandem l fs fs' st st') (s : ScopeId) :
    p (st'.scopes.frame s) = p (st.scopes.frame s) := by
  rw [← hp, ← Arena.frame_unmarked, h.scopes, Arena.frame_unmarked, hp]

theorem overwriteAllowed_eq (h : Tandem l fs fs' st st') (s : ScopeId) :
    st'.scopes.overwriteAllowed s = st.scopes.overwriteAllowed s := by
  rw [← Arena.overwriteAllowed_unmarked, h.scopes, Arena.overwriteAllowed_unmarked]

theorem entityScope_eq (h : Tandem l fs fs' st st') (act : Activation) (s : ScopeId) :
    act.entityScope st'.scopes s = act.entityScope st.scopes s := by
  rw [Activation.entityScope, ← Arena.entityScope?_unmarked, h.scopes, Arena.entityScope?_unmarked,
    Activation.entityScope]

theorem returning_eq (h : Tandem l fs fs' st st') (s : ScopeId) :
    st'.scopes.returning s = st.scopes.returning s :=
  h.frame_eq Frame.returning (fun _ => rfl) s

theorem blocked?_eq (h : Tandem l fs fs' st st') (act : Activation) (s : ScopeId) :
    act.blocked? st'.chain s = act.blocked? st.chain s := by
  have hscope : st'.chain.scopes.entityScope? s act.entity =
      st.chain.scopes.entityScope? s act.entity := by
    rw [← Arena.entityScope?_unmarked, ← Arena.entityScope?_unmarked st.chain.scopes]
    exact congrArg (fun a : Arena => a.entityScope? s act.entity) h.scopes
  have hreturning : st'.chain.scopes.returning = st.chain.scopes.returning := funext h.returning_eq
  have hempty : st'.chain.stack.isEmpty = st.chain.stack.isEmpty := by
    rw [h.stack.1, h.stack.2, Bool.eq_iff_iff, List.isEmpty_iff, List.isEmpty_iff]
    exact h.running.symm
  unfold Activation.blocked?
  rw [h.aborting, hempty, hscope, hreturning]

/-! #### Changes -/

theorem mapScopes (h : Tandem l fs fs' st st') {g g' : Arena → Arena}
    (hg : (g' st'.scopes).unmarked = (g st.scopes).unmarked) :
    Tandem l fs fs' (st.mapScopes g) (st'.mapScopes g') :=
  { h with scopes := hg }

/-- The same change of a scope on both sides. -/
theorem modifying (h : Tandem l fs fs' st st') (s : ScopeId) {g : Frame → Frame}
    (hg : ∀ f, (g f).unmarked = g f.unmarked) :
    Tandem l fs fs' (st.mapScopes fun a => a.modifyFrame s g)
      (st'.mapScopes fun a => a.modifyFrame s g) :=
  h.mapScopes (by rw [Arena.unmarked_modifyFrame _ s g hg, Arena.unmarked_modifyFrame _ s g hg,
    h.scopes])

theorem log (h : Tandem l fs fs' st st') {x x' : Entry} (hx : x'.call? = x.call?) :
    Tandem l fs fs' (st.log [x]) (st'.log [x']) :=
  { h with world := h.world.enter hx }

theorem logAll (h : Tandem l fs fs' st st') (es : List Entry) :
    Tandem l fs fs' (st.log es) (st'.log es) := by
  induction es generalizing st st' with
  | nil => exact h
  | cons x es ih => exact ih (h.log (x := x) rfl)

theorem bound (h : Tandem l fs fs' st st') (s : ScopeId) (b : Binding) :
    Tandem l fs fs' (st.bound s b) (st'.bound s b) :=
  log (h.mapScopes (by rw [Arena.unmarked_replace, Arena.unmarked_replace, h.scopes]))
    (x := .bound s b) rfl

theorem opened (h : Tandem l fs fs' st st') (s : ScopeId) :
    Tandem l fs fs' (st.opened s) (st'.opened s) :=
  h.mapScopes (by rw [Arena.unmarked_enter, Arena.unmarked_enter, h.scopes])

theorem left (h : Tandem l fs fs' st st') (s : ScopeId) :
    Tandem l fs fs' (st.left s) (st'.left s) :=
  { h with
    scopes := by
      rw [scopes_left, scopes_left, Arena.unmarked_leave, Arena.unmarked_leave, h.scopes] }

theorem withResult (h : Tandem l fs fs' st st') (v : Option Value) :
    Tandem l fs fs' (st.withResult v) (st'.withResult v) :=
  { h with result := rfl }

theorem withLocks (h : Tandem l fs fs' st st') (locks : LockTable) :
    Tandem l fs fs' (st.withLocks locks) (st'.withLocks locks) :=
  { h with world := h.world.withLocks locks }

theorem aborted (h : Tandem l fs fs' st st') :
    Tandem l fs fs' { st with chain := { st.chain with aborting := true } }
      { st' with chain := { st'.chain with aborting := true } } :=
  { h with aborting := rfl }

theorem closed (h : Tandem l fs fs' st st') (mark : Nat) :
    Tandem l fs fs' (st.closed mark) (st'.closed mark) := by
  unfold RunState.closed
  rw [h.closeables]
  refine logAll ?_ _
  exact { h with closeables := rfl }

/-- An instruction is put on top of both stacks. -/
theorem push (h : Tandem l fs fs' st st') (f f' : StackFrame) :
    Tandem l (f :: fs) (f' :: fs') (st.withStack (f :: st.chain.stack))
      (st'.withStack (f' :: st'.chain.stack)) :=
  { h with
    stack := ⟨congrArg (f :: ·) h.stack.1, congrArg (f' :: ·) h.stack.2⟩
    running := by simp }

/-- The innermost instructions are taken away. -/
theorem pop {f f' : StackFrame} (h : Tandem l (f :: fs) (f' :: fs') st st')
    (hrunning : fs = [] ↔ fs' = []) :
    Tandem l fs fs' (st.withStack st.chain.stack.tail) (st'.withStack st'.chain.stack.tail) :=
  { h with
    stack := ⟨congrArg List.tail h.stack.1, congrArg List.tail h.stack.2⟩
    running := hrunning }

/-- An instruction begins on the second side only, while others are running. -/
theorem pushRight (h : Tandem l fs fs' st st') (hfs : fs ≠ []) (f : StackFrame) {x : Entry}
    (hx : x.call? = none) :
    Tandem l fs (f :: fs') st ((st'.withStack (f :: st'.chain.stack)).log [x]) :=
  { h with
    world := h.world.enterRight hx
    stack := ⟨h.stack.1, congrArg (f :: ·) h.stack.2⟩
    running := by simp [hfs] }

/-- It ends on the second side only, and may leave a mark there. -/
theorem popRight {f : StackFrame} (h : Tandem l fs (f :: fs') st st')
    (hrunning : fs = [] ↔ fs' = []) (s : ScopeId) (ran : Bool) {x : Entry} (hx : x.call? = none) :
    Tandem l fs fs' st (((st'.mapScopes fun a =>
      (a.setInternal s Activation.branchKey (.bool ran) false).2).withStack
        st'.chain.stack.tail).log [x]) :=
  { h with
    world := h.world.enterRight hx
    scopes := (Arena.unmarked_setBranch _ s ran).trans h.scopes
    stack := ⟨h.stack.1, congrArg List.tail h.stack.2⟩
    running := hrunning }

/-- Marks do not matter. -/
theorem marked (h : Tandem l fs fs' st st') (s : ScopeId) (ran : Bool) :
    Tandem l fs fs'
      (st.mapScopes fun a => (a.setInternal s Activation.branchKey (.bool ran) false).2)
      (st'.mapScopes fun a => (a.setInternal s Activation.branchKey (.bool ran) false).2) :=
  h.mapScopes (by rw [Arena.unmarked_setBranch, Arena.unmarked_setBranch, h.scopes])

end RunState.Tandem

/-! ### Pairs of steps -/

namespace Exec

variable {α α' β β' : Type}

/-- Two steps from two states: both fail, or both succeed and their results and states are
related. -/
inductive Both (x : Exec α) (x' : Exec α') (st st' : RunState)
    (Q : α → α' → RunState → RunState → Prop) : Prop where
  | fail {e e' : EngineError} {u u' : RunState} (h : x.on st = (.error e, u))
      (h' : x'.on st' = (.error e', u'))
  | done {a : α} {a' : α'} {u u' : RunState} (h : x.on st = (.ok a, u))
      (h' : x'.on st' = (.ok a', u')) (hQ : Q a a' u u')

variable {x : Exec α} {x' : Exec α'} {st st' : RunState} {Q : α → α' → RunState → RunState → Prop}

theorem Both.mono {R : α → α' → RunState → RunState → Prop} (h : Both x x' st st' Q)
    (hQR : ∀ a a' u u', Q a a' u u' → R a a' u u') : Both x x' st st' R := by
  cases h with
  | fail h h' => exact .fail h h'
  | done h h' hQ => exact .done h h' (hQR _ _ _ _ hQ)

theorem both_pure {a : α} {a' : α'} (h : Q a a' st st') :
    Both (pure a : Exec α) (pure a' : Exec α') st st' Q :=
  .done rfl rfl h

theorem both_bind {R : β → β' → RunState → RunState → Prop} {f : α → Exec β} {f' : α' → Exec β'}
    (h : Both x x' st st' Q)
    (hf : ∀ a a' u u', Q a a' u u' → Both (f a) (f' a') u u' R) :
    Both (x >>= f) (x' >>= f') st st' R := by
  cases h with
  | @fail e e' u u' h h' =>
    have hx : (x >>= f).on st = (.error e, u) := by rw [on_bind, h]
    have hx' : (x' >>= f').on st' = (.error e', u') := by rw [on_bind, h']
    exact .fail hx hx'
  | @done a a' u u' h h' hQ =>
    have hx : (x >>= f).on st = (f a).on u := by rw [on_bind, h]
    have hx' : (x' >>= f').on st' = (f' a').on u' := by rw [on_bind, h']
    cases hf a a' u u' hQ with
    | fail g g' => exact .fail (hx.trans g) (hx'.trans g')
    | done g g' hR => exact .done (hx.trans g) (hx'.trans g') hR

/-- Single steps that succeed on both sides. -/
theorem both_next {R : β → β' → RunState → RunState → Prop} {f : α → Exec β} {f' : α' → Exec β'}
    {a : α} {a' : α'} {u u' : RunState} (hx : x.on st = (.ok a, u)) (hx' : x'.on st' = (.ok a', u'))
    (h : Both (f a) (f' a') u u' R) : Both (x >>= f) (x' >>= f') st st' R :=
  both_bind (Q := fun b b' v v' => b = a ∧ b' = a' ∧ v = u ∧ v' = u')
    (.done hx hx' ⟨rfl, rfl, rfl, rfl⟩) (by rintro _ _ _ _ ⟨rfl, rfl, rfl, rfl⟩; exact h)

/-- Results that both sides compute in the same way. -/
theorem both_orFail {R : β → β' → RunState → RunState → Prop} {r r' : Except String α}
    {f : α → Exec β} {f' : α → Exec β'} (hr : r' = r)
    (h : ∀ a, r = .ok a → Both (f a) (f' a) st st' R) :
    Both (orFail r >>= f) (orFail r' >>= f') st st' R := by
  subst hr
  cases r' with
  | error c => exact .fail rfl rfl
  | ok a => exact both_next rfl rfl (h a rfl)

/-- A step whose failure is caught on both sides. -/
theorem both_attempt {R : β → β' → RunState → RunState → Prop}
    {f : Except EngineError α → Exec β} {f' : Except EngineError α' → Exec β'}
    (h : Both x x' st st' Q)
    (herror : ∀ e e' u u', Both (f (.error e)) (f' (.error e')) u u' R)
    (hok : ∀ a a' u u', Q a a' u u' → Both (f (.ok a)) (f' (.ok a')) u u' R) :
    Both (attempt x >>= f) (attempt x' >>= f') st st' R := by
  have hx := on_attempt x st
  have hx' := on_attempt x' st'
  cases h with
  | fail h h' =>
    rw [h] at hx
    rw [h'] at hx'
    exact both_next hx hx' (herror _ _ _ _)
  | done h h' hQ =>
    rw [h] at hx
    rw [h'] at hx'
    exact both_next hx hx' (hok _ _ _ _ hQ)

theorem both_inChildScope {s : ScopeId} {f : ScopeId → Exec α} {f' : ScopeId → Exec α'}
    (hsize : st'.scopes.size = st.scopes.size)
    (h : Both (f st.scopes.size) (f' st.scopes.size) (st.opened s) (st'.opened s)
      fun a a' u u' => Q a a' (u.left st.scopes.size) (u'.left st.scopes.size)) :
    Both (inChildScope s f) (inChildScope s f') st st' Q := by
  have hx := on_inChildScope s f st
  have hx' := on_inChildScope s f' st'
  rw [hsize] at hx'
  cases h with
  | fail h h' =>
    rw [h] at hx
    rw [h'] at hx'
    exact .fail hx hx'
  | done h h' hQ =>
    rw [h] at hx
    rw [h'] at hx'
    exact .done hx hx' hQ

/-- A resource that is asked for is had on both sides or on neither. -/
theorem both_load {setup : Setup} (hst : setup.Standard) {l : Locator} {fs fs' : List StackFrame}
    (h : RunState.Tandem l fs fs' st st') (name : String) :
    Both (Exec.parse (setup.load name)) (Exec.parse (setup.load name)) st st'
      fun key key' u u' => key' = key ∧ RunState.Tandem l fs fs' u u' := by
  have hx := on_load setup name st
  have hx' := on_load setup name st'
  obtain ⟨key, w, w', hw, hw', htwins⟩ | ⟨e, e', he, he'⟩ :=
    Setup.load_in_step hst.reference (hst.transfers l) (hst.transfersBack l) h.world name
  · rw [RunState.loading, hw] at hx
    rw [RunState.loading, hw'] at hx'
    exact .done hx hx' ⟨rfl, { h with world := htwins }⟩
  · rw [he] at hx
    rw [he'] at hx'
    exact .fail hx hx'

/-- While something is running, two steps keep states in tandem and their results related. -/
def Together (l : Locator) (R : α → α' → Prop) (x : Exec α) (x' : Exec α') : Prop :=
  ∀ {fs fs' : List StackFrame} {st st' : RunState}, fs ≠ [] → RunState.Tandem l fs fs' st st' →
    Both x x' st st' fun a a' u u' => R a a' ∧ RunState.Tandem l fs fs' u u'

end Exec

end Scenario
