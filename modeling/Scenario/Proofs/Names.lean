import Scenario.Proofs.Positions
import Scenario.Proofs.Results

/-!
# Names stay inside data tags

A data tag inside another one hands on its value under its own name, through any number of
transparent containers in between. **`names_stay_inside_data`** says that this is the only way of a
name: an output that bears one comes from an instruction whose nearest instruction above that is no
transparent container is a data tag, and what that data tag makes of it is the combined value of its
children.

The mode of a data tag is settled when its document is parsed and its output when it runs. The two
are related by induction on the program: `Tree.Occurs` tells where an instruction stands, and
`runTag_names` what an instruction hands on of what it was given.
-/

namespace Scenario

namespace Output

mutual

/-- Whether an output bears a name, inside whatever containers. -/
def bearsName : Output → Bool
  | named _ _ => true
  | nested items => bearNames items
  | _ => false

/-- Whether one of several outputs bears a name. -/
def bearNames : List Output → Bool
  | [] => false
  | o :: os => o.bearsName || bearNames os

end

@[simp] theorem bearsName_nested (items : List Output) :
    (nested items).bearsName = bearNames items := by
  rw [bearsName]

@[simp] theorem bearsName_ofOption (v : Option Value) : (ofOption v).bearsName = false := by
  cases v <;> rfl

/-- Outputs never combine to null. -/
theorem isNull_of_aggregate {items : List Output} {v : Value} (h : aggregate items = some v) :
    v.isNull = false := by
  unfold aggregate combine at h
  generalize flatten items = os at h
  dsimp only at h
  split at h
  · split at h
    · cases h
    · cases h
      rfl
  · have hplain : ∀ x ∈ os.filterMap plainValue?, x.isNull = false := by
      intro x hx
      obtain ⟨o, -, ho⟩ := List.mem_filterMap.1 hx
      cases o with
      | value y =>
        by_cases hy : y.isNull = true
        · simp [plainValue?, hy] at ho
        · obtain rfl : y = x := by simpa [plainValue?, hy] using ho
          simpa using hy
      | absent | named | nested => cases ho
    generalize os.filterMap plainValue? = vs at h hplain
    cases vs with
    | nil => cases h
    | cons x xs =>
      cases xs with
      | nil =>
        cases h
        exact hplain v (by simp)
      | cons y ys =>
        cases h
        rfl

/-- What outputs combine to combines to itself. -/
theorem aggregate_ofOption_aggregate (items : List Output) :
    aggregate [ofOption (aggregate items)] = aggregate items := by
  cases h : aggregate items with
  | none => rfl
  | some v =>
    have hv := isNull_of_aggregate h
    simp [aggregate, combine, flatten, leaves, ofOption, isNamed, plainValue?, hv, shrink]

end Output

/-- The same outputs as one value. -/
def Children.summed (c : Children) : Children :=
  ⟨[.ofOption (Output.aggregate c.results)], c.signal⟩

/-- No outputs, with the same signal. -/
def Children.muted (c : Children) : Children := ⟨[], c.signal⟩

/-- Other outputs, with the same signal. -/
def Children.replaced (f : List Output → List Output) (c : Children) : Children :=
  ⟨f c.results, c.signal⟩

/-- What a transparent container hands on if it was given other outputs. -/
def Outcome.replaced (f : List Output → List Output) : Outcome → Outcome
  | ⟨.nested items, signal⟩ => ⟨.nested (f items), signal⟩
  | o => o

/-- The output bears no name. -/
def Outcome.Plain (o : Outcome) : Prop := o.output.bearsName = false

theorem Outcome.plain_ofOption (v : Option Value) (sig : Signal) : Plain ⟨.ofOption v, sig⟩ :=
  Output.bearsName_ofOption v

theorem Outcome.plain_absent (sig : Signal) : Plain { signal := sig } := rfl

theorem Exec.attempt_map {α β : Type} (f : α → β) (x : Exec α) :
    Exec.attempt (f <$> x) = Except.map f <$> Exec.attempt x := by
  have hrun : (f <$> x).run = Except.map f <$> x.run := ExceptT.run_map f x
  rw [Exec.attempt, hrun]
  rfl

namespace Exec

variable {α β : Type} {Q : α → Prop} {Q' : β → Prop}

/-- Whatever a step gives has a property. -/
def Always (x : Exec α) (Q : α → Prop) : Prop := ∀ st a st', x.on st = (.ok a, st') → Q a

theorem always_pure {a : α} (h : Q a) : (pure a : Exec α).Always Q := by
  intro st b st' hx
  cases hx
  exact h

theorem always_bind {x : Exec α} {f : α → Exec β} (h : ∀ a, (f a).Always Q') :
    (x >>= f).Always Q' := by
  intro st b st' hx
  rw [on_bind] at hx
  rcases hk : x.on st with ⟨e | a, st₁⟩
  · rw [hk] at hx
    cases hx
  · rw [hk] at hx
    exact h a st₁ b st' hx

theorem always_inChildScope {s : ScopeId} {f : ScopeId → Exec α} (h : ∀ u, (f u).Always Q) :
    (inChildScope s f).Always Q := by
  intro st a st' hx
  have hfirst : ((f st.scopes.size).on (st.opened s)).1 = .ok a := congrArg Prod.fst hx
  exact h _ (st.opened s) a _ (Prod.ext hfirst rfl)

end Exec

namespace Activation

open Exec Outcome

variable {act : Activation} {i : Instruction} {s : ScopeId} {kids : ScopeId → Exec Children}
  {st st' : RunState} {o : Outcome}

/-! ### What instructions make of the outputs below them -/

/-- What an instruction makes of the outputs below it: a data tag their combined value, a
transparent container hands them on, and any other one disregards them. -/
structure Uses (act : Activation) (i : Instruction) (s : ScopeId) : Prop where
  data : i.tag.kind = .data → ∀ kids : ScopeId → Exec Children,
    act.runTag i s (fun u => Children.summed <$> kids u) = act.runTag i s kids
  control : i.tag.kind = .control → ∀ (f : List Output → List Output)
    (kids : ScopeId → Exec Children),
    act.runTag i s (fun u => Children.replaced f <$> kids u) =
      Outcome.replaced f <$> act.runTag i s kids
  other : i.tag.kind ≠ .data → i.tag.kind ≠ .control → ∀ kids : ScopeId → Exec Children,
    act.runTag i s (fun u => Children.muted <$> kids u) = act.runTag i s kids

theorem storeData_summed (act : Activation) (i : Instruction) (s : ScopeId) (name : String)
    (mode : DataMode) (fallback : Bool) (cs : Children) :
    act.storeData i s name mode fallback cs.summed = act.storeData i s name mode fallback cs := by
  simp only [storeData, Children.summed, Output.aggregate_ofOption_aggregate]

theorem runBranch_replaced (s : ScopeId) (f : List Output → List Output)
    (kids : ScopeId → Exec Children) :
    runBranch s (fun u => Children.replaced f <$> kids u) =
      Outcome.replaced f <$> runBranch s kids := by
  simp only [runBranch, bind_map_left, map_bind, map_pure]
  rfl

theorem runLocked_replaced (s : ScopeId) (name : String) (millis : Nat)
    (f : List Output → List Output) (kids : ScopeId → Exec Children) :
    runLocked s name millis (fun u => Children.replaced f <$> kids u) =
      Outcome.replaced f <$> runLocked s name millis kids := by
  simp only [runLocked, map_bind]
  refine bind_congr fun _ => bind_congr fun st => bind_congr fun _ => ?_
  generalize (st.world.locks.acquire st.chain.thread name millis).2 = acquired
  cases acquired with
  | error e => rfl
  | ok g =>
    simp only [attempt_map, bind_map_left, map_bind, map_pure]
    refine bind_congr fun _ => bind_congr fun r => bind_congr fun _ => bind_congr fun _ => ?_
    cases r <;> rfl

theorem runMutex_replaced (act : Activation) (s : ScopeId) (name timeout : Option Compiled)
    (f : List Output → List Output) (kids : ScopeId → Exec Children) :
    act.runMutex s name timeout (fun u => Children.replaced f <$> kids u) =
      Outcome.replaced f <$> act.runMutex s name timeout kids := by
  simp only [runMutex, map_bind, runLocked_replaced]

/-- The built-in beans do not run what is below their instruction once more. -/
theorem perform_builtin (act : Activation) (s : ScopeId) {b : Bean}
    (hb : Builtin.Inner (.bean b)) (fs : Fields) (kids kids' : ScopeId → Exec Children) :
    act.perform s kids (b.act fs) = act.perform s kids' (b.act fs) := by
  obtain rfl | rfl | rfl := hb <;> rfl

/-- The built-in tags use the outputs below them in one of three ways. -/
theorem uses_of_builtin (hi : i.tag = .scenario ∨ Builtin.Inner i.tag) : act.Uses i s where
  data hkind kids := by
    cases htag : i.tag with
    | data name mode fallback =>
      simp only [runTag, htag, runData, bind_map_left, storeData_summed]
    | fixed =>
      simp [htag, Builtin.Inner] at hi
    | _ =>
      rw [htag] at hkind
      cases hkind
  control hkind f kids := by
    cases htag : i.tag with
    | conditional => simp only [runTag, htag, runBranch_replaced]
    | alternative =>
      simp only [runTag, htag, map_bind, runBranch_replaced]
      refine bind_congr fun a => ?_
      split <;> rfl
    | mutex name timeout => simp only [runTag, htag, runMutex_replaced]
    | fixed => simp [htag, Builtin.Inner] at hi
    | _ =>
      rw [htag] at hkind
      cases hkind
  other hdata hcontrol kids := by
    cases htag : i.tag with
    | scenario => simp only [runTag, htag, bind_map_left, Children.muted]
    | block | fixed => simp [htag, Builtin.Inner] at hi
    | data => exact absurd (by rw [htag]; rfl) hdata
    | literal | expression => simp only [runTag, htag]
    | conditional | alternative | mutex => exact absurd (by rw [htag]; rfl) hcontrol
    | invoke target =>
      simp only [runTag, htag, runInvoke, bind_map_left]
      rfl
    | bean b =>
      have hb : Builtin.Inner (.bean b) := by simpa [htag] using hi
      have hperform := fun child fs =>
        act.perform_builtin child hb fs (fun u => Children.muted <$> kids u) kids
      simp only [runTag, htag, runBean, bind_map_left, hperform]
      rfl

/-! ### Which instructions hand on names -/

theorem storeData_plain (act : Activation) (i : Instruction) (s : ScopeId) (name : String)
    {mode : DataMode} (hmode : mode ≠ .sub) (fallback : Bool) (cs : Children) :
    (act.storeData i s name mode fallback cs).Always Plain := by
  unfold storeData
  split
  · exact always_pure (plain_absent _)
  cases mode with
  | sub => exact absurd rfl hmode
  | parameter => exact always_bind fun _ => always_pure (plain_ofOption _ _)
  | entry =>
    dsimp only
    split
    · split
      · exact always_bind fun _ => always_pure (plain_ofOption _ _)
      · exact always_bind fun _ => always_pure (plain_ofOption _ _)
    · exact always_pure (plain_ofOption _ _)

theorem runData_plain (act : Activation) (i : Instruction) (s : ScopeId) (name : String)
    {mode : DataMode} (hmode : mode ≠ .sub) (fallback : Bool) (kids : ScopeId → Exec Children) :
    (act.runData i s name mode fallback kids).Always Plain := by
  refine always_bind fun gives => ?_
  split
  · exact always_pure (plain_absent _)
  · exact always_bind fun a => always_bind fun cs => act.storeData_plain i s name hmode fallback cs

theorem runBean_plain (act : Activation) (i : Instruction) (s : ScopeId) (b : Bean)
    (kids : ScopeId → Exec Children) : (act.runBean i s b kids).Always Plain := by
  refine always_inChildScope fun child => always_bind fun cs => ?_
  split
  · exact always_pure (plain_absent _)
  · exact always_bind fun a => always_bind fun fs => always_bind fun _ => always_bind fun v =>
      always_bind fun c => always_pure (plain_ofOption _ _)

/-- The root of an entity gives the value that was returned. -/
theorem runTag_plain_root (act : Activation) {i : Instruction} (s : ScopeId)
    (htag : i.tag = .scenario) (kids : ScopeId → Exec Children) :
    (act.runTag i s kids).Always Plain := by
  rw [runTag, htag]
  exact always_bind fun cs => always_bind fun c => always_bind fun _ =>
    always_pure (plain_ofOption _ _)

/-- A branch hands on what is below it. -/
theorem runBranch_nested (hx : (runBranch s kids).on st = (.ok o, st')) :
    ∃ cs st₁, (kids s).on st = (.ok cs, st₁) ∧ o = cs.toOutcome := by
  simp only [runBranch, on_bind] at hx
  rcases hk : (kids s).on st with ⟨e | cs, st₁⟩
  · rw [hk] at hx
    cases hx
  · rw [hk] at hx
    cases hx
    exact ⟨cs, st₁, rfl, rfl⟩

/-- A locked section hands on what is below it; until then only the locks and the journal have
changed. -/
theorem runMutex_nested {name timeout : Option Compiled}
    (hx : (act.runMutex s name timeout kids).on st = (.ok o, st')) :
    ∃ st₁ cs st₂, st₁.world.entities = st.world.entities ∧ (kids s).on st₁ = (.ok cs, st₂) ∧
      o = cs.toOutcome := by
  obtain ⟨causes, u, -, hon⟩ | ⟨text, millis, locks, g, -, -, -, hon⟩ :=
    act.runMutex_on s name timeout st
  · rw [hon] at hx
    cases hx
  · rcases hk : (kids s).on (st.locked text locks) with ⟨e | cs, st₁⟩
    · rw [hon hk] at hx
      cases hx
    · rw [hon hk] at hx
      cases hx
      exact ⟨_, cs, st₁, st.entities_locked text locks, hk, rfl⟩

theorem bearNames_of_toOutcome {cs : Children} (h : cs.toOutcome.output.bearsName = true) :
    Output.bearNames cs.results = true := by
  rwa [Children.toOutcome, Output.bearsName_nested] at h

/-- An activation of an engine with the built-in tags, whose calls of entities give no names. -/
structure Regular (act : Activation) : Prop where
  registry : act.engine.setup.registry = Builtin.registry
  follows : ∀ key u, act.Follows (.entity key) u (act.run key u) Outcome.signal
  plain : ∀ {key u st o st'}, st.world.Built → (act.run key u).on st = (.ok o, st') → Plain o

theorem Regular.makes (hact : act.Regular) :
    act.engine.setup.registry.Makes (· = .scenario) Builtin.Inner :=
  hact.registry ▸ Builtin.registry_makes

theorem Regular.built_execAll (hact : act.Regular) {ts : List Program}
    {r : Except EngineError Children} (hst : st.world.Built)
    (hx : (act.execAll ts s).on st = (r, st')) : st'.world.Built :=
  ((execAll_walk hact.follows ts s).walk hx).made hact.makes hst

theorem Regular.runInvoke_plain (hact : act.Regular) {ts : List Program} {target : String}
    (hst : st.world.Built)
    (hx : (act.runInvoke s target (act.execAll ts)).on st = (.ok o, st')) : Plain o := by
  rw [runInvoke, on_inChildScope, on_bind] at hx
  rcases hk : (act.execAll ts st.scopes.size).on (st.opened s) with ⟨e | cs, st₁⟩
  · rw [hk] at hx
    cases hx
  have hopened : (st.opened s).world.Built := hst
  have hbuilt : st₁.world.Built := hact.built_execAll hopened hk
  rw [hk] at hx
  dsimp only at hx
  split at hx
  · cases hx
    exact plain_absent _
  · simp only [on_bind, on_load, on_chain, on_setResult, on_attempt, on_ofExcept] at hx
    cases hl : ((act.engine.setup.load target).run.run st₁.world).1 with
    | error e =>
      rw [hl] at hx
      cases hx
    | ok key =>
      rw [hl] at hx
      have hloaded : ((st₁.loading act.engine.setup target).withResult none).world.Built :=
        Setup.load_built hact.registry target hbuilt
      simp only [mapError_ok] at hx
      have hfirst : ((act.run key st.scopes.size).on
          ((st₁.loading act.engine.setup target).withResult none)).1 = .ok o :=
        congrArg Prod.fst hx
      exact hact.plain hloaded (Prod.ext hfirst rfl)

/-- **What an instruction hands on bears a name only if it is a data tag inside another one, or if
it is a container and what is below it gave one.** -/
theorem Regular.runTag_names (hact : act.Regular) (hi : i.tag = .scenario ∨ Builtin.Inner i.tag)
    {ts : List Program} (hst : st.world.Built)
    (hx : (act.runTag i s (act.execAll ts)).on st = (.ok o, st'))
    (hname : o.output.bearsName = true) :
    (∃ name fallback, i.tag = .data name .sub fallback) ∨
      i.tag.kind = .control ∧ ∃ st₁ cs st₂, st₁.world.Built ∧
        (act.execAll ts s).on st₁ = (.ok cs, st₂) ∧ Output.bearNames cs.results = true := by
  have absurd_plain : Plain o → False := fun hplain => by cases hplain.symm.trans hname
  cases htag : i.tag with
  | block | fixed => simp [htag, Builtin.Inner] at hi
  | scenario => exact (absurd_plain (act.runTag_plain_root s htag _ st o st' hx)).elim
  | data name mode fallback =>
    cases mode with
    | sub => exact .inl ⟨name, fallback, rfl⟩
    | entry | parameter =>
      rw [runTag, htag] at hx
      refine (absurd_plain ?_).elim
      exact act.runData_plain i s name (by simp) fallback _ st o st' hx
  | literal text =>
    rw [runTag, htag] at hx
    cases hx
    cases hname
  | expression e =>
    rw [runTag, htag] at hx
    refine (absurd_plain ?_).elim
    refine always_bind (fun a => always_bind fun v => always_pure ?_) st o st' hx
    split <;> rfl
  | conditional =>
    rw [runTag, htag] at hx
    obtain ⟨cs, st₁, hk, rfl⟩ := runBranch_nested hx
    exact .inr ⟨rfl, st, cs, st₁, hst, hk, bearNames_of_toOutcome hname⟩
  | alternative =>
    simp only [runTag, htag, on_bind, on_scopes] at hx
    split at hx
    · cases hx
      cases hname
    · obtain ⟨cs, st₁, hk, rfl⟩ := runBranch_nested hx
      exact .inr ⟨rfl, st, cs, st₁, hst, hk, bearNames_of_toOutcome hname⟩
  | mutex name timeout =>
    rw [runTag, htag] at hx
    obtain ⟨st₁, cs, st₂, hentities, hk, rfl⟩ := runMutex_nested hx
    exact .inr ⟨rfl, st₁, cs, st₂, World.Made.of_entities_eq hst hentities, hk,
      bearNames_of_toOutcome hname⟩
  | invoke target =>
    rw [runTag, htag] at hx
    exact (absurd_plain (hact.runInvoke_plain hst hx)).elim
  | bean b =>
    rw [runTag, htag] at hx
    exact (absurd_plain (act.runBean_plain i s b _ st o st' hx)).elim

/-- An instruction hands on nothing, or what its tag gave. -/
theorem runTag_of_runNode (hx : (act.runNode i s kids).on st = (.ok o, st')) :
    o = {} ∨ ∃ st₁, (act.runTag i s kids).on st = (.ok o, st₁) := by
  simp only [runNode, on_bind, on_scopes, on_orFail] at hx
  cases hallowed : allowed i st.scopes s with
  | error e =>
    rw [hallowed] at hx
    cases hx
  | ok ok =>
    rw [hallowed] at hx
    simp only [mapError_ok] at hx
    split at hx
    · rw [on_bind] at hx
      split at hx
      · cases hx
        exact .inl rfl
      · cases hx
    · rw [on_bind] at hx
      rcases htag : (act.runTag i s kids).on st with ⟨e | o', st₁⟩
      · rw [htag] at hx
        cases hx
      rw [htag] at hx
      refine .inr ⟨st₁, ?_⟩
      dsimp only at hx
      split at hx
      · split at hx
        · rw [on_bind] at hx
          split at hx
          · cases hx
            rfl
          · cases hx
        · cases hx
          rfl
      · cases hx
        rfl

end Activation

namespace Program

/-- The nearest instruction above that is no transparent container is a data tag. -/
def InsideData (path : List (NodeId × Instruction)) : Prop :=
  ∃ x, nearest? path = some x ∧ x.2.tag.kind = .data

/-- An instruction that may hand on names: below a data tag, it is a data tag itself or a container
in between. -/
structure GivesNames (path : List (NodeId × Instruction)) (i : Instruction) : Prop where
  inside : InsideData path
  tag : i.tag.kind = .control ∨ ∃ name fallback, i.tag = .data name .sub fallback

variable {p u : Program} {path : List (NodeId × Instruction)} {left : List Program}

theorem insideData_cons {x : NodeId × Instruction} (hx : x.2.tag.kind = .control)
    (h : InsideData (x :: path)) : InsideData path := by
  rwa [InsideData, nearest?_cons, if_pos hx] at h

/-- A data tag that gives its value under its own name stands inside a data tag. -/
theorem insideData_of_sub (hp : Formed (· = .scenario) Builtin.Inner p)
    (hu : Tree.Occurs p path left u) {name : String} {fallback : Bool}
    (htag : u.label.2.tag = .data name .sub fallback) : InsideData path := by
  obtain ⟨i, ts⟩ := u
  have hlabel : p.label.2.tag = .scenario := hp.made.tag
  cases path with
  | nil =>
    cases hu
    cases hlabel.symm.trans htag
  | cons a above =>
    obtain ⟨x, hx, -, hfits, -⟩ := placed_nearest hp.placed (by rw [hlabel]; rfl) hu
    have htag : i.2.tag = .data name .sub fallback := htag
    dsimp only at hfits
    rw [htag] at hfits
    refine ⟨x, hx, ?_⟩
    have hmode : DataMode.sub = DataMode.inside x.2.tag.kind := hfits
    generalize x.2.tag.kind = kind at hmode ⊢
    cases kind <;> simp [DataMode.inside] at hmode ⊢

/-- The tag of an instruction of a program that is made of the built-in tags. -/
theorem tag_of_occurs (hp : Formed (· = .scenario) Builtin.Inner p)
    (hu : Tree.Occurs p path left u) : u.label.2.tag = .scenario ∨ Builtin.Inner u.label.2.tag := by
  cases path with
  | nil =>
    cases hu
    exact .inl hp.made.tag
  | cons a above =>
    exact .inr (hp.made.below _ (hu.labels_subset (by simp [Tree.labels_eq u])))

end Program

namespace Activation

open Exec Program

variable {act : Activation} {p : Program}

/-- From what is below an instruction to what the instruction hands on. -/
theorem Regular.givesNames_of_runTag (hact : act.Regular)
    (hp : Formed (· = .scenario) Builtin.Inner p) {path : List (NodeId × Instruction)}
    {left ts : List Program} {x : NodeId × Instruction}
    (hu : Tree.Occurs p path left (.node x ts)) {s : ScopeId} {st st' : RunState} {o : Outcome}
    (hbelow : ∀ {st cs st'}, st.world.Built → (act.execAll ts s).on st = (.ok cs, st') →
      Output.bearNames cs.results = true → InsideData (x :: path))
    (hst : st.world.Built) (hx : (act.runTag x.2 s (act.execAll ts)).on st = (.ok o, st'))
    (hname : o.output.bearsName = true) : GivesNames path x.2 := by
  obtain hsub | ⟨hcontrol, st₁, cs, st₂, hst₁, hk, hnames⟩ :=
    hact.runTag_names (tag_of_occurs hp hu) hst hx hname
  · obtain ⟨name, fallback, htag⟩ := hsub
    exact ⟨insideData_of_sub hp hu htag, .inr ⟨name, fallback, htag⟩⟩
  · exact ⟨insideData_cons hcontrol (hbelow hst₁ hk hnames), .inl hcontrol⟩

mutual

/-- An instruction hands on a name only inside a data tag. -/
theorem Regular.exec_names (hact : act.Regular) (hp : Formed (· = .scenario) Builtin.Inner p) :
    ∀ (u : Program) {path : List (NodeId × Instruction)} {left : List Program},
      Tree.Occurs p path left u → ∀ {s : ScopeId} {st : RunState} {o : Outcome} {st' : RunState},
        st.world.Built → (act.exec u s).on st = (.ok o, st') → o.output.bearsName = true →
        GivesNames path u.label.2
  | .node (id, i) ts, path, left, hu, s, st, o, st', hst, hx, hname => by
    rw [exec] at hx
    obtain ⟨sig, -, rfl, -⟩ | ⟨st₁, hnode, -⟩ := of_step_on_ok hx
    · cases hname
    obtain rfl | ⟨st₂, htag⟩ := runTag_of_runNode hnode
    · cases hname
    have hchildren : ∀ t ∈ ts, ∃ front, Tree.Occurs p ((id, i) :: path) front t := by
      intro t ht
      obtain ⟨front, back, rfl⟩ := List.append_of_mem ht
      exact ⟨front, hu.child⟩
    have hbegun : (act.begun id i s st).world.Built := hst
    exact hact.givesNames_of_runTag hp hu (hact.execAll_names hp ts hchildren) hbegun htag hname

/-- Several instructions beside each other hand on a name only inside a data tag. -/
theorem Regular.execAll_names (hact : act.Regular) (hp : Formed (· = .scenario) Builtin.Inner p) :
    ∀ (us : List Program) {path : List (NodeId × Instruction)},
      (∀ u ∈ us, ∃ left, Tree.Occurs p path left u) →
      ∀ {s : ScopeId} {st : RunState} {cs : Children} {st' : RunState}, st.world.Built →
        (act.execAll us s).on st = (.ok cs, st') → Output.bearNames cs.results = true →
        InsideData path
  | [], path, hus, s, st, cs, st', hst, hx, hname => by
    cases hx
    cases hname
  | u :: us, path, hus, s, st, cs, st', hst, hx, hname => by
    obtain ⟨left, hu⟩ := hus u (by simp)
    rw [execAll, on_bind] at hx
    rcases hk : (act.exec u s).on st with ⟨e | o, st₁⟩
    · rw [hk] at hx
      cases hx
    by_cases ho : o.output.bearsName = true
    · exact (hact.exec_names hp u hu hst hk ho).inside
    have hbuilt : st₁.world.Built := ((exec_walk hact.follows u s).walk hk).made hact.makes hst
    have hplain : o.output.bearsName = false := by simpa using ho
    rw [hk] at hx
    dsimp only at hx
    split at hx
    · cases hx
      simp [Output.bearNames, hplain] at hname
    · rw [on_bind] at hx
      rcases hrest : (act.execAll us s).on st₁ with ⟨e | rest, st₂⟩
      · rw [hrest] at hx
        cases hx
      · rw [hrest] at hx
        cases hx
        refine hact.execAll_names hp us (fun v hv => hus v (by simp [hv])) hbuilt hrest ?_
        simpa [Output.bearNames, hplain] using hname

end

end Activation

namespace Engine

open Activation Exec Outcome Parse Program

/-- An entity never gives a name. -/
theorem runEntity_plain (e : Engine) (depth : Nat) {key : EntityKey} {s : ScopeId}
    {st st' : RunState} {o : Outcome} (hst : st.world.Built)
    (hx : (e.runEntity depth key s).on st = (.ok o, st')) : Plain o := by
  cases depth with
  | zero => cases hx
  | succ depth =>
    generalize ha : e.activation (e.runEntity depth) st.world key = act
    rcases hr : (act.execRoot ((st.world.entity? key).bind Entity.program) s).on
      (act.entered s st) with ⟨err | o', st₁⟩
    · rw [runEntity_on ha.symm hr] at hx
      cases hx
    have ho : Plain o' := by
      cases hp : (st.world.entity? key).bind Entity.program with
      | none =>
        rw [hp] at hr
        simp only [execRoot, on_bind, on_chain] at hr
        split at hr
        · cases hr
          exact plain_absent _
        · cases hr
      | some p =>
        have htag := (hst key p hp).tag
        rw [hp, execRoot] at hr
        obtain ⟨⟨id, i⟩, ts⟩ := p
        rw [exec] at hr
        obtain ⟨sig, -, rfl, -⟩ | ⟨st₂, hnode, -⟩ := of_step_on_ok hr
        · exact plain_absent _
        obtain rfl | ⟨st₃, hrun⟩ := runTag_of_runNode hnode
        · exact plain_absent _
        · exact act.runTag_plain_root s htag _ _ _ _ hrun
    rw [runEntity_on ha.symm hr] at hx
    have heq : (if o'.signal = .return then { o' with signal := .none } else o') = o :=
      Except.ok.inj (congrArg Prod.fst hx)
    rw [← heq]
    split
    · exact ho
    · exact ho

theorem regular_activation {e : Engine} (hreg : e.setup.registry = Builtin.registry) (depth : Nat)
    (w : World) (key : EntityKey) : (e.activation (e.runEntity depth) w key).Regular where
  registry := hreg
  follows := e.activation_walk depth w key
  plain := e.runEntity_plain depth

/-- **Names stay inside data tags.** Take any instruction of a document with the built-in tags and
run it in any state. What it hands on, and what its tag gives before that is bound to its result
name, bears a name only if the nearest instruction above it that is no transparent container is a
data tag and it is itself a container or a data tag inside that one. What it gets from the
instructions below it bears a name only if it is a data tag or such a container; a data tag uses
nothing of it but the combined value, a container hands it on as it is, and all others disregard it.
Entities never give a name. -/
theorem names_stay_inside_data (e : Engine) (hreg : e.setup.registry = Builtin.registry)
    {cx : Assembly} (hcx : cx.registry = Builtin.registry) {root : Xml.Element} {maker : RootMaker}
    (hmaker : Builtin.registry.root? root.head.name = some maker) {w w' : World} {p : Program}
    (hp : Gives (cx.document root maker) w p w') (depth : Nat) (st : RunState)
    (hst : st.world.Built) :
    (∀ v key path left u s, Tree.Occurs p path left u →
      let act := e.activation (e.runEntity depth) v key
      ((act.exec u s).Ends st fun r _ => ∀ o, r = .ok o → o.output.bearsName = true →
        GivesNames path u.label.2) ∧
      ((act.runTag u.label.2 s (act.execAll u.children)).Ends st fun r _ => ∀ o, r = .ok o →
        o.output.bearsName = true → GivesNames path u.label.2) ∧
      ((act.execAll u.children s).Ends st fun r _ => ∀ cs, r = .ok cs →
        Output.bearNames cs.results = true → InsideData (u.label :: path)) ∧
      act.Uses u.label.2 s) ∧
    ∀ key s, (e.runEntity depth key s).Ends st fun r _ => ∀ o, r = .ok o →
      o.output.bearsName = false := by
  have hformed := Assembly.formed_of_gives hcx hmaker hp
  constructor
  · intro v key path left u s hu act
    have hact : act.Regular := regular_activation hreg depth v key
    obtain ⟨x, ts⟩ := u
    have hchildren : ∀ t ∈ ts, ∃ front, Tree.Occurs p (x :: path) front t := by
      intro t ht
      obtain ⟨front, back, rfl⟩ := List.append_of_mem ht
      exact ⟨front, hu.child⟩
    refine ⟨fun o ho hname => ?_, fun o ho hname => ?_, fun cs hcs hname => ?_,
      uses_of_builtin (tag_of_occurs hformed hu)⟩
    · exact hact.exec_names hformed _ hu hst (Prod.ext ho rfl) hname
    · exact hact.givesNames_of_runTag hformed hu (hact.execAll_names hformed ts hchildren) hst
        (Prod.ext ho rfl) hname
    · exact hact.execAll_names hformed ts hchildren hst (Prod.ext hcs rfl) hname
  · intro key s o ho
    exact e.runEntity_plain depth hst (Prod.ext ho rfl)

/-- A data tag inside a branch inside a data tag. -/
def containedName : Xml.Element where
  head := { name := "scenario" }
  children := [
    .element { name := "data", attrs := [{ name := "id", value := "x" }] }
      [.element { name := "if", attrs := [{ name := "test", value := "${true}" }] }
        [.element { name := "a" } [.text "1" 1]]]]

/-- The branch hands on the name of the data tag inside it. -/
theorem names_stay_inside_data_branch :
    let e := Engine.ofSettings Builtin.registry .template {}
    let cx : Assembly := {
      registry := Builtin.registry
      evaluator := .template
      locator := []
      path := "mem:main"
      refer := fun _ => pure none }
    let act := e.activation (e.runEntity 1) {} 0
    let st : RunState := ⟨{}, {}⟩
    e.setup.registry = Builtin.registry ∧
    Builtin.registry.root? containedName.head.name = some .scenario ∧ st.world.Built ∧
    ∃ p w', Gives (cx.document containedName .scenario) {} p w' ∧
      ∃ path left u o st', Tree.Occurs p path left u ∧
        (act.exec u Arena.root).on st = (.ok o, st') ∧ o.output.bearsName = true ∧
        GivesNames path u.label.2 := by
  intro e cx act st
  have hbuilt : st.world.Built := World.built_of_none rfl
  have htest : (((cx.document containedName .scenario).run.run {}).1.toOption.any fun p =>
      (p.children[0]?.bind fun d => d.children[0]?).any fun u =>
        ((act.exec u Arena.root).on st).1.toOption.any fun o => o.output.bearsName) = true := by
    decide +kernel
  rcases hx : (cx.document containedName .scenario).run.run {} with ⟨err | p, w'⟩
  · rw [hx] at htest
    cases htest
  rw [hx] at htest
  have htest : ((p.children[0]?.bind fun d => d.children[0]?).any fun u =>
      ((act.exec u Arena.root).on st).1.toOption.any fun o => o.output.bearsName) = true := htest
  obtain ⟨u, hu, htest⟩ := Option.any_eq_true _ _ |>.1 htest
  obtain ⟨d, hd, hu⟩ := Option.bind_eq_some_iff.1 hu
  have hoccurs := (Tree.Occurs.root.get hd).get hu
  rcases hrun : (act.exec u Arena.root).on st with ⟨err | o, st'⟩
  · rw [hrun] at htest
    cases htest
  rw [hrun] at htest
  refine ⟨rfl, rfl, hbuilt, p, w', hx, _, _, u, o, st', hoccurs, hrun, htest, ?_⟩
  have hall := names_stay_inside_data e rfl rfl rfl hx 1 st hbuilt
  exact (hall.1 {} 0 _ _ u Arena.root hoccurs).1 o (congrArg Prod.fst hrun) htest

end Engine

end Scenario
