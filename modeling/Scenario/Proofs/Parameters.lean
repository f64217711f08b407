import Scenario.Library.Probe
import Scenario.Proofs.Values
import Scenario.Proofs.Views

/-!
# Parameters and their siblings

The parameters of a caller run one after the other in a scope of their own, where those in front
are bound already. What is below a parameter runs in the scope of the entity instead, so a parameter
does not see the others.

* `exec_parameter`: one parameter binds its value, which is found in the scope of the entity.
* `execAll_fills`: several ones. By induction on their list; what carries it is that nothing but the
  scope of the call has changed, so that all values are what they were at first.
* `Activation.unswayed`: parameters in some order are compared with each of them alone, and with the
  order of the document.
* **`Assembly.parameters_see_no_siblings`**: this for the callers of every document.

A literal or an expression that binds its result does so in the scope of the entity, where the next
parameter sees it. So the result names below parameters are excluded.
-/

namespace Scenario

/-! ### One parameter -/

/-- A parameter that always runs, with nothing but values below it. -/
structure Program.Parameter (t : Program) : Prop where
  tag : ∃ name, t.label.2.tag = .data name .parameter false
  guard : t.label.2.guard = none
  placed : Tree.PlacedAll (fun x => x.2.tag) .data t.children
  below : ∀ x ∈ Tree.labelsAll t.children, x.2.Pure

namespace Program

/-- The name of a parameter. -/
def name? (t : Program) : Option String := t.label.2.tag.dataName?

/-- What a parameter binds if it has a value. -/
def const? (value? : Program → Option Value) (t : Program) : Option Binding :=
  t.name?.bind fun name => (value? t).map fun v => ⟨name, v, some name⟩

end Program

namespace Activation

open Exec

variable {act : Activation} {home s : ScopeId} {st : RunState} {i : Instruction}
  {kids : ScopeId → Exec Children} {name : String} {u : RunState}

theorem runData_parameter_on {os : List Output} (hhome : act.entityScope st.scopes s = home)
    (hx : (kids home).on st = (.ok (calmAll os), u)) :
    (act.runData i s name .parameter false kids).on st =
      (.ok (calm (.ofOption (Output.aggregate os))),
        u.bound s ⟨name, (Output.aggregate os).getD .null, some name⟩) := by
  rw [runData_on_always, if_pos rfl, hhome, on_bind, hx]
  rfl

theorem runData_parameter_on_error {e : EngineError} (hhome : act.entityScope st.scopes s = home)
    (hx : (kids home).on st = (.error e, u)) :
    (act.runData i s name .parameter false kids).on st = (.error e, u) := by
  rw [runData_on_always, if_pos rfl, hhome, on_bind, hx]

/-- A parameter is bound in the scope that it runs in, or fails if it has no value. -/
inductive Supplies (act : Activation) (t : Program) (s : ScopeId) (st : RunState) :
    Option Binding → Prop
  | bound {b : Binding} {o : Outcome} {u : RunState} (hx : (act.exec t s).on st = (.ok o, u))
      (ho : o.signal = .none) (hu : (st.bound s b).Undisturbed u) : Supplies act t s st (some b)
  | failed {e : EngineError} {u : RunState} (hx : (act.exec t s).on st = (.error e, u))
      (hu : st.Undisturbed u) : Supplies act t s st none

/-- The value of a parameter is found in the scope of the entity. -/
theorem exec_parameter {t : Program} (ht : t.Parameter)
    (hhome : Arena.Home act.entity home s st.scopes) (hst : Unhindered home st) :
    Supplies act t s st (t.const? (Program.value? st.scopes home)) := by
  obtain ⟨⟨id, i⟩, ts⟩ := t
  obtain ⟨⟨name, htag⟩, hguard, hplaced, hbelow⟩ := ht
  dsimp only [Tree.label, Tree.children] at htag hguard hplaced hbelow
  have hb := hst.blocked?_eq hhome
  have hscope : act.entityScope (act.begun id i s st).scopes s = home := hhome.entityScope_eq
  have hnode : (act.runNode i s fun u => act.execAll ts u).on (act.begun id i s st) =
      (act.runData i s name .parameter false fun u => act.execAll ts u).on
        (act.begun id i s st) := by
    rw [runNode_on_allowed (by simp [htag, Tag.publishes]) (by rw [allowed, hguard]), runTag, htag]
  have hkids : Calmly (act.execAll ts home) (act.begun id i s st) calmAll
      (Program.yieldAll? st.scopes home ts) :=
    execAll_calmly ts hplaced hbelow hhome.self ⟨hst.aborting, hst.returning⟩
  have hname : Program.name? (.node (id, i) ts) = some name := congrArg Tag.dataName? htag
  rw [Program.const?, hname, Option.bind_some, Program.value?]
  dsimp only [Tree.children]
  generalize Program.yieldAll? st.scopes home ts = below at hkids
  cases hkids with
  | @ok os u hx hu =>
    rw [runData_parameter_on hscope hx] at hnode
    refine .bound (by rw [exec]; exact step_on_ok hb hnode) rfl (ended_undisturbed ?_)
    exact ⟨congrArg (fun a => (a.replace s name (some name) ((Output.aggregate os).getD .null)).2)
      hu.scopes, hu.stack, hu.aborting⟩
  | @error e u hx hu =>
    rw [runData_parameter_on_error hscope hx] at hnode
    obtain ⟨e', u', hblame, hu'⟩ := act.blame_undisturbed i s e u
    exact .failed (by rw [exec]; exact step_on_error hb hnode hblame)
      (ended_undisturbed (hu.trans hu'))

end Activation

/-! ### Parameters one after the other -/

namespace Bindings

theorem insert_of_notMem {bs : Bindings} {b : Binding} (h : b.id ∉ bs.ids) :
    bs.insert b = bs ++ [b] := by
  induction bs with
  | nil => rfl
  | cons b' bs ih =>
    rw [ids, List.map_cons, List.mem_cons, not_or] at h
    rw [insert, if_neg (Ne.symm h.1), ih h.2, List.cons_append]

end Bindings

namespace Arena

variable {s k : ScopeId} {a b : Arena}

theorem consts_replace (hs : s < a.size) (x : Binding) :
    ((a.replace s x.id x.origin x.value).2.frame s).consts = (a.frame s).consts.insert x := by
  rw [replace, frame_modifyFrame_self _ hs, Frame.consts_bind]

theorem Confined.symm (h : Confined s a b) : Confined s b a :=
  ⟨h.size.symm, h.globals.symm, fun k hk => (h.frame k hk).symm⟩

theorem OnlyIn.chain_eq (h : OnlyIn s s a b) (hk : k < s) : b.chain k = a.chain k := by
  refine chain_congr fun j hj => ?_
  have hne : j ≠ s := Nat.ne_of_lt (Nat.lt_of_le_of_lt hj hk)
  exact h.frame j hne hne

end Arena

namespace Program

/-- What parameters bind one after the other, up to the first one without a value. -/
def consts (value? : Program → Option Value) : List Program → Bindings
  | [] => []
  | t :: ts => (t.const? value?).elim [] (· :: consts value? ts)

theorem name?_of_const? {value? : Program → Option Value} {t : Program} {b : Binding}
    (h : t.const? value? = some b) : t.name? = some b.id := by
  obtain ⟨name, hname, h⟩ := Option.bind_eq_some_iff.1 h
  obtain ⟨v, -, rfl⟩ := Option.map_eq_some_iff.1 h
  exact hname

theorem isSome_const? {value? : Program → Option Value} {t : Program} (ht : t.name?.isSome = true) :
    (t.const? value?).isSome = (value? t).isSome := by
  obtain ⟨name, hname⟩ := Option.isSome_iff_exists.1 ht
  rw [const?, hname, Option.bind_some, Option.isSome_map]

theorem value?_congr {a a' : Arena} {s : ScopeId} {t : Program} (ht : t.Parameter)
    (hchain : a'.chain s = a.chain s) (hglobals : a'.globals = a.globals) :
    t.value? a' s = t.value? a s := by
  rw [value?, value?, yieldAll?_congr hchain hglobals _ fun x hx => (ht.below x hx).isLocal]

variable {value? value?' : Program → Option Value} {ts : List Program}

theorem const?_congr {t : Program} (h : value? t = value?' t) :
    t.const? value? = t.const? value?' := by
  rw [const?, const?, h]

theorem consts_congr (h : ∀ t ∈ ts, value? t = value?' t) :
    consts value? ts = consts value?' ts := by
  induction ts with
  | nil => rfl
  | cons t ts ih =>
    rw [List.forall_mem_cons] at h
    rw [consts, consts, const?_congr h.1, ih h.2]

theorem exists_of_mem_consts {b : Binding} (h : b ∈ consts value? ts) :
    ∃ t ∈ ts, t.const? value? = some b := by
  induction ts with
  | nil => cases h
  | cons t ts ih =>
    rw [consts] at h
    cases hc : t.const? value? with
    | none =>
      rw [hc] at h
      cases h
    | some b' =>
      rw [hc, Option.elim_some, List.mem_cons] at h
      obtain rfl | h := h
      · exact ⟨t, List.mem_cons_self, hc⟩
      · obtain ⟨u, hu, hb⟩ := ih h
        exact ⟨u, List.mem_cons_of_mem t hu, hb⟩

/-- If all parameters have values, all of them are bound. -/
theorem consts_eq_filterMap (h : ∀ t ∈ ts, (t.const? value?).isSome) :
    consts value? ts = ts.filterMap (const? value?) := by
  induction ts with
  | nil => rfl
  | cons t ts ih =>
    rw [List.forall_mem_cons] at h
    obtain ⟨b, hb⟩ := Option.isSome_iff_exists.1 h.1
    rw [consts, hb, Option.elim_some, List.filterMap_cons_some hb, ih h.2]

end Program

/-- Whether and with which signal several instructions have ended. -/
def Children.signal? (r : Except EngineError Children) : Option Signal := r.toOption.map signal

theorem Children.signal?_cons (r : Except EngineError Children) (o : Output) :
    signal? (r.map fun rest => { rest with results := o :: rest.results }) = signal? r := by
  cases r <;> rfl

namespace Activation

open Exec

variable {act : Activation} {home s : ScopeId} {st : RunState}

/-- Parameters have been run one after the other: nothing but their scope has changed, they are
bound there up to the first one without a value, and if there is such a one, it has failed. -/
structure Fills (value? : Program → Option Value) (ts : List Program) (s : ScopeId) (a : Arena)
    (bs : Bindings) (r : Except EngineError Children × RunState) : Prop where
  only : Arena.OnlyIn s s a r.2.scopes
  consts : (r.2.scopes.frame s).consts = bs ++ Program.consts value? ts
  signal : Children.signal? r.1 = if ∀ t ∈ ts, (t.const? value?).isSome then some .none else none

theorem Fills.quiet_iff {value? : Program → Option Value} {ts : List Program} {a : Arena}
    {bs : Bindings} {r : Except EngineError Children × RunState} (h : Fills value? ts s a bs r) :
    Children.signal? r.1 = some .none ↔ ∀ t ∈ ts, (t.const? value?).isSome := by
  rw [h.signal]
  split
  · next hall => exact ⟨fun _ => hall, fun _ => rfl⟩
  · next hnot => exact ⟨fun hnone => (by cases hnone), fun hall => absurd hall hnot⟩

theorem Fills.congr {value? value?' : Program → Option Value} {ts : List Program} {a : Arena}
    {bs : Bindings} {r : Except EngineError Children × RunState} (h : Fills value? ts s a bs r)
    (hvalue : ∀ t ∈ ts, value? t = value?' t) : Fills value?' ts s a bs r := by
  have hconst : (∀ t ∈ ts, (t.const? value?).isSome) ↔ ∀ t ∈ ts, (t.const? value?').isSome :=
    forall₂_congr fun t ht => by rw [Program.const?_congr (hvalue t ht)]
  refine ⟨h.only, ?_, ?_⟩
  · rw [h.consts, Program.consts_congr hvalue]
  · rw [h.signal]
    exact if_congr hconst rfl rfl

/-- Some parameters are bound in the scope of a call, nothing else has changed, and nothing keeps
the next one from starting. -/
structure Ready (act : Activation) (a : Arena) (home s : ScopeId) (bs : Bindings) (st : RunState) :
    Prop where
  only : Arena.OnlyIn s s a st.scopes
  consts : (st.scopes.frame s).consts = bs
  unhindered : Unhindered home st
  home : Arena.Home act.entity home s st.scopes

namespace Ready

variable {a : Arena} {bs : Bindings}

/-- The next parameter has the value that it has at first. -/
theorem supplies (h : Ready act a home s bs st) (hlt : home < s) {t : Program} (ht : t.Parameter) :
    Supplies act t s st (t.const? (Program.value? a home)) := by
  have hvalue : t.value? st.scopes home = t.value? a home :=
    Program.value?_congr ht (h.only.chain_eq hlt) h.only.globals
  have hsupplies := exec_parameter ht h.home h.unhindered
  rwa [Program.const?_congr hvalue] at hsupplies

theorem bound {b : Binding} {u : RunState} (h : Ready act a home s bs st) (hb : b.id ∉ bs.ids)
    (hu : (st.bound s b).Undisturbed u) : Ready act a home s (bs ++ [b]) u := by
  have htouched : Arena.Touched s st.scopes u.scopes := by
    rw [hu.scopes]
    exact Arena.touched_replace _ s b.id b.origin b.value
  refine ⟨h.only.trans (.touched htouched (.inl rfl)), ?_,
    ⟨hu.aborting.trans h.unhindered.aborting, ?_⟩, h.home.onlyIn (.touched htouched (.inl rfl))⟩
  · rw [hu.scopes, RunState.scopes_bound, Arena.consts_replace h.home.live, h.consts,
      Bindings.insert_of_notMem hb]
  · rw [hu.scopes, RunState.scopes_bound, Arena.returning_replace, h.unhindered.returning]

end Ready

/-- Since nothing but the scope of the parameters changes, all of them have the values that they
have at first. -/
theorem execAll_fills {a : Arena} {ts : List Program} {bs : Bindings} (hlt : home < s)
    (hts : ∀ t ∈ ts, t.Parameter) (hnodup : (ts.map Program.name?).Nodup)
    (hnew : ∀ t ∈ ts, ∀ id ∈ t.name?, id ∉ bs.ids) (hst : Ready act a home s bs st) :
    Fills (Program.value? a home) ts s a bs ((act.execAll ts s).on st) := by
  induction ts generalizing st bs with
  | nil =>
    have hnil : (act.execAll [] s).on st = (.ok {}, st) := rfl
    rw [hnil]
    exact ⟨hst.only, by simpa [Program.consts] using hst.consts,
      by simp [Children.signal?, Except.toOption]⟩
  | cons t ts ih =>
    rw [List.forall_mem_cons] at hts hnew
    rw [List.map_cons, List.nodup_cons] at hnodup
    have ht := hst.supplies hlt hts.1
    cases hc : t.const? (Program.value? a home) with
    | none =>
      rw [hc] at ht
      cases ht with
      | failed hx hu =>
        rw [execAll_cons_on_error hx]
        refine ⟨hu.scopes ▸ hst.only, ?_, ?_⟩
        · rw [Program.consts, hc, Option.elim_none, List.append_nil, hu.scopes, hst.consts]
        · simp [Children.signal?, hc, Except.toOption]
    | some b =>
      rw [hc] at ht
      have hname := Program.name?_of_const? hc
      -- the names of the others are neither bound before nor the one bound now
      have hnew' : ∀ t' ∈ ts, ∀ id ∈ t'.name?, id ∉ (bs ++ [b]).ids := by
        intro t' ht' id hid hmem
        rw [Bindings.ids, List.map_append, List.mem_append, List.map_singleton,
          List.mem_singleton] at hmem
        obtain hmem | rfl := hmem
        · exact hnew.2 t' ht' id hid hmem
        · exact hnodup.1 (List.mem_map.2 ⟨t', ht', hid.trans hname.symm⟩)
      cases ht with
      | bound hx ho hu =>
        have hrest := ih hts.2 hnodup.2 hnew' (hst.bound (hnew.1 b.id hname) hu)
        rw [execAll_cons_on_ok hx ho]
        refine ⟨hrest.only, ?_, ?_⟩
        · rw [hrest.consts, Program.consts, hc, Option.elim_some, List.append_assoc,
            List.singleton_append]
        · simp only [Children.signal?_cons, hrest.signal, List.forall_mem_cons, hc,
            Option.isSome_some, true_and]

end Activation

/-! ### Parameters of a caller -/

namespace Tree.Occurs

variable {α : Type} {t u : Tree α} {path : List α} {left : List (Tree α)}

theorem placed {tag : α → Tag} {enclosing : TagKind} (h : t.Occurs path left u)
    (ht : t.Placed tag enclosing) : ∃ enclosing', u.Placed tag enclosing' := by
  induction h with
  | root => exact ⟨enclosing, ht⟩
  | @child path front left right a u h ih =>
    obtain ⟨enclosing', hplaced⟩ := ih
    exact ⟨_, placedAll_iff.1 hplaced.2 u (by simp)⟩

theorem below_subset (h : t.Occurs path left u) : labelsAll u.children ⊆ labelsAll t.children := by
  cases path with
  | nil =>
    cases h
    exact fun x hx => hx
  | cons a path =>
    intro x hx
    refine h.labels_subset ?_
    rw [labels_eq]
    exact List.mem_cons_of_mem _ hx

end Tree.Occurs

namespace Program

/-- A caller whose children are data tags with distinct names, with nothing but tags that give
values below them. -/
structure Parameterized (p : Program) : Prop where
  calls : p.label.2.tag.calls = true
  data : ∀ t ∈ p.children, (name? t).isSome = true
  distinct : (p.children.map name?).Nodup
  values : ∀ x ∈ Tree.labelsAll p.children, x.2.tag.givesValue = true

instance (p : Program) : Decidable p.Parameterized :=
  decidable_of_iff (p.label.2.tag.calls = true ∧ (∀ t ∈ p.children, (name? t).isSome = true) ∧
      (p.children.map name?).Nodup ∧ ∀ x ∈ Tree.labelsAll p.children, x.2.tag.givesValue = true)
    ⟨fun h => ⟨h.1, h.2.1, h.2.2.1, h.2.2.2⟩, fun h => ⟨h.calls, h.data, h.distinct, h.values⟩⟩

/-- No tag below a caller binds its result. -/
def Discreet (p : Program) : Prop :=
  ∀ x ∈ Tree.labelsAll p.children, x.2.tag.publishes = true → x.2.binding.isNone = true

instance (p : Program) : Decidable p.Discreet :=
  inferInstanceAs (Decidable (∀ x ∈ Tree.labelsAll p.children,
    x.2.tag.publishes = true → x.2.binding.isNone = true))

/-- The children of a caller are parameters. -/
theorem Parameterized.parameter {p t : Program} (hp : p.Parameterized) (hd : p.Discreet)
    {enclosing : TagKind} (hplaced : Tree.Placed (fun x => x.2.tag) enclosing p)
    (hlocal : ∀ x ∈ Tree.labelsAll p.children, x.2.Local) (ht : t ∈ p.children) : t.Parameter := by
  have hkind : p.label.2.tag.kind = .invoker := by
    have hcalls := hp.calls
    revert hcalls
    cases p.label.2.tag <;> simp [Tag.calls, Tag.kind]
  have hinside : Tree.Placed (fun x => x.2.tag) .invoker t := by
    obtain ⟨x, ts⟩ := p
    have hkind : x.2.tag.kind = .invoker := hkind
    simpa [Tag.around, hkind] using Tree.placedAll_iff.1 hplaced.2 t ht
  have hlabels : ∀ x ∈ t.labels, x ∈ Tree.labelsAll p.children :=
    fun x hx => Tree.mem_labelsAll.2 ⟨t, ht, hx⟩
  have hbelow : ∀ x ∈ Tree.labelsAll t.children, x.2.Pure := by
    intro x hx
    have hmem := hlabels x (by rw [Tree.labels_eq]; exact List.mem_cons_of_mem _ hx)
    exact ⟨hp.values x hmem, fun hpub => Option.isNone_iff_eq_none.1 (hd x hmem hpub),
      hlocal x hmem⟩
  have hself := hlocal t.label (hlabels _ (by rw [Tree.labels_eq]; exact List.mem_cons_self))
  have hname := hp.data t ht
  obtain ⟨⟨id, i⟩, ts⟩ := t
  dsimp only [Tree.label, Tree.children, name?] at hself hname hbelow
  cases htag : i.tag with
  | data name mode fallback =>
    obtain ⟨hfits, hplaced⟩ := hinside
    dsimp only at hfits hplaced
    rw [htag] at hfits hplaced
    obtain rfl : mode = .parameter := hfits
    have hfallback : fallback = false := by
      cases fallback with
      | false => rfl
      | true => cases hself.fallback htag
    exact ⟨⟨name, hfallback ▸ htag⟩, hself.always htag, hplaced, hbelow⟩
  | _ => simp [htag, Tag.dataName?] at hname

end Program

namespace Activation

open Exec

variable {act : Activation} {x : NodeId × Instruction} {home s : ScopeId} {st : RunState}
  {us : List Program}

/-- What a caller does first once it has begun: its parameters are run in a scope that is opened for
them. -/
def supply (act : Activation) (x : NodeId × Instruction) (us : List Program) (s : ScopeId)
    (st : RunState) : Except EngineError Children × RunState :=
  (act.execAll us st.scopes.size).on ((act.begun x.1 x.2 s st).opened s)

/-- The value of a parameter by itself: what is below it is run in the scope of the entity. -/
def alone? (act : Activation) (x : NodeId × Instruction) (home s : ScopeId) (st : RunState)
    (t : Program) : Option Value :=
  ((act.execAll t.children home).on (act.begun x.1 x.2 s st)).1.toOption.map fun cs =>
    (Output.aggregate cs.results).getD .null

theorem blocked?_opened (st : RunState) (hhome : Arena.Home act.entity home s st.scopes) :
    act.blocked? (st.opened s).chain st.scopes.size = act.blocked? st.chain s := by
  have hfound : st.chain.scopes.entityScope? s act.entity = some home := hhome.found
  have hfound' : (st.opened s).chain.scopes.entityScope? st.scopes.size act.entity = some home :=
    hhome.enter.found
  have hreturning : (st.opened s).chain.scopes.returning home = st.chain.scopes.returning home :=
    congrArg Frame.returning (Arena.frame_enter (Nat.ne_of_lt hhome.self.live))
  simp only [blocked?, hfound, hfound', Option.map_some, hreturning]
  rfl

/-- While a caller runs, nothing but what hinders instructions blocks them. -/
theorem unhindered_of_begun (hhome : Arena.Home act.entity home s st.scopes)
    (hb : act.blocked? (act.begun x.1 x.2 s st).chain s = none) :
    Unhindered home (act.begun x.1 x.2 s st) := by
  have hfound : (act.begun x.1 x.2 s st).chain.scopes.entityScope? s act.entity = some home :=
    hhome.found
  have hstack : (act.begun x.1 x.2 s st).chain.stack.isEmpty = false := rfl
  simp only [blocked?, hfound, hstack] at hb
  split at hb
  · cases hb
  · next haborting =>
    split at hb
    · cases hb
    · next hreturning =>
      exact ⟨by simpa using haborting, by simpa [RunState.scopes] using hreturning⟩

theorem alone?_eq {t : Program} (ht : t.Parameter) (hhome : Arena.Home act.entity home s st.scopes)
    (hst : Unhindered home (act.begun x.1 x.2 s st)) :
    act.alone? x home s st t = t.value? st.scopes home := by
  have hcalm : Calmly (act.execAll t.children home) (act.begun x.1 x.2 s st) calmAll
      (Program.yieldAll? st.scopes home t.children) :=
    execAll_calmly t.children ht.placed ht.below hhome.self hst
  rw [alone?, Program.value?]
  generalize Program.yieldAll? st.scopes home t.children = below at hcalm
  cases hcalm with
  | ok hx hu =>
    rw [hx]
    rfl
  | error hx hu =>
    rw [hx]
    rfl

/-- Parameters that cannot start change nothing. -/
theorem supply_of_blocked {sig : Signal} (hhome : Arena.Home act.entity home s st.scopes)
    (hb : act.blocked? (act.begun x.1 x.2 s st).chain s = some sig) (us : List Program) :
    act.supply x us s st = (.ok (if us = [] then {} else ⟨[.absent], sig⟩),
      (act.begun x.1 x.2 s st).opened s) := by
  by_cases hne : us = []
  · subst hne
    rfl
  · have hopened := blocked?_opened (act.begun x.1 x.2 s st) hhome
    rw [if_neg hne]
    exact execAll_on_blocked hne (hopened.trans hb)

theorem supply_fills (hus : ∀ t ∈ us, t.Parameter) (hnodup : (us.map Program.name?).Nodup)
    (hhome : Arena.Home act.entity home s st.scopes)
    (hb : act.blocked? (act.begun x.1 x.2 s st).chain s = none) :
    Fills (act.alone? x home s st) us st.scopes.size (st.scopes.enter s).1 []
      (act.supply x us s st) := by
  have hst := unhindered_of_begun hhome hb
  have hlive : home < st.scopes.size := hhome.self.live
  have hopened : Unhindered home ((act.begun x.1 x.2 s st).opened s) := by
    refine ⟨hst.aborting, Eq.trans ?_ hst.returning⟩
    exact congrArg Frame.returning (Arena.frame_enter (Nat.ne_of_lt hlive))
  have hchain : (st.scopes.enter s).1.chain home = st.scopes.chain home :=
    Arena.chain_congr fun k hk => Arena.frame_enter (Nat.ne_of_lt (Nat.lt_of_le_of_lt hk hlive))
  have hvalue : ∀ t ∈ us,
      Program.value? (st.scopes.enter s).1 home t = act.alone? x home s st t := by
    intro t ht
    rw [alone?_eq (hus t ht) hhome hst]
    exact Program.value?_congr (hus t ht) hchain rfl
  have hempty : ((st.scopes.enter s).1.frame st.scopes.size).consts = [] := by
    rw [Arena.frame_enter_size]
    rfl
  have hfills : Fills (Program.value? (st.scopes.enter s).1 home) us st.scopes.size
      (st.scopes.enter s).1 [] (act.supply x us s st) :=
    execAll_fills hlive hus hnodup (by simp [Bindings.ids])
      ⟨.refl _ _ _, hempty, hopened, hhome.enter⟩
  exact hfills.congr hvalue

end Activation

/-! ### The order of parameters -/

/-- The order of entries does not matter for what is found. -/
theorem Entries.get?_perm {es es' : Entries} (h : es'.Perm es) (hnodup : es.names.Nodup)
    (id : String) : es'.get? id = es.get? id := by
  have hnodup' : es'.names.Nodup := (h.map Prod.fst).nodup_iff.2 hnodup
  ext v
  rw [← mem_iff_get? hnodup', ← mem_iff_get? hnodup, h.mem_iff]

theorem Frame.entries_consts (f : Frame) : f.consts.entries = f.values := by
  simp [consts, Bindings.ofTables, Bindings.entries, Function.comp_def]

theorem Frame.get?_perm {f f' : Frame} (h : f'.consts.Perm f.consts) (id : String) :
    f'.values.get? id = f.values.get? id := by
  have hentries : f'.consts.entries.Perm f.consts.entries :=
    h.map fun b : Binding => (b.id, b.value)
  rw [entries_consts, entries_consts] at hentries
  exact Entries.get?_perm hentries f.distinct id

theorem Arena.get?_congr {a b : Arena} (hparent : ∀ k, (b.frame k).parent = (a.frame k).parent)
    {id : String} (hvalues : ∀ k, (b.frame k).values.get? id = (a.frame k).values.get? id)
    (s : ScopeId) : b.get? s id = a.get? s id := by
  have hfind : (fun f : Frame => f.values.get? id) ∘ b.frame =
      (fun f => f.values.get? id) ∘ a.frame := funext hvalues
  rw [get?, get?, chain, chain, List.findSome?_map, List.findSome?_map, hfind,
    ancestors_congr fun k _ => hparent k]

/-- The fields of a call do not depend on the order of the names in its scope. -/
theorem Schema.bind_eq_ok_congr {a a' : Arena} {s : ScopeId}
    (hget : ∀ id, a'.get? s id = a.get? s id)
    (hconsts : (a'.frame s).consts.Perm (a.frame s).consts) (sch : Schema) (ownId : Option String)
    (strict : Bool) (fs : Fields) :
    sch.bind a' s ownId strict = .ok fs ↔ sch.bind a s ownId strict = .ok fs := by
  have hnames : (sch.unknownNames (a'.frame s).consts.ids ownId).Perm
      (sch.unknownNames (a.frame s).consts.ids ownId) := (hconsts.map Binding.id).filter _
  have hempty : (sch.unknownNames (a'.frame s).consts.ids ownId).isEmpty =
      (sch.unknownNames (a.frame s).consts.ids ownId).isEmpty := by
    rw [Bool.eq_iff_iff, List.isEmpty_iff, List.isEmpty_iff]
    exact ⟨fun h => List.nil_perm.1 (h ▸ hnames), fun h => List.perm_nil.1 (h ▸ hnames)⟩
  simp only [bind, takeFields_congr hget, hempty]
  cases (sch.unknownNames (a.frame s).consts.ids ownId).isEmpty with
  | true => simp
  | false =>
    cases strict && sch.strict with
    | true =>
      simp only [Bool.not_false, if_true]
      refine ⟨fun h => ?_, fun h => ?_⟩ <;> cases h
    | false => simp

namespace Activation

variable {act : Activation} {x : NodeId × Instruction} {home s : ScopeId} {st : RunState}
  {ts us : List Program}

/-- Parameters were run in the scope of a call, where nothing else is bound. -/
structure Supplied (act : Activation) (x : NodeId × Instruction) (us : List Program)
    (home s : ScopeId) (st : RunState) : Prop where
  only : Arena.OnlyIn st.scopes.size st.scopes.size (st.scopes.enter s).1
    (act.supply x us s st).2.scopes
  bound : ∀ b ∈ ((act.supply x us s st).2.scopes.frame st.scopes.size).consts,
    ∃ t ∈ us, Program.const? (act.alone? x home s st) t = some b
  all : Children.signal? (act.supply x us s st).1 = some .none →
    (∀ t ∈ us, (Program.const? (act.alone? x home s st) t).isSome) ∧
    ((act.supply x us s st).2.scopes.frame st.scopes.size).consts =
      us.filterMap (Program.const? (act.alone? x home s st))

theorem supplied_of_fills (h : Fills (act.alone? x home s st) us st.scopes.size
    (st.scopes.enter s).1 [] (act.supply x us s st)) : Supplied act x us home s st := by
  have hconsts := h.consts
  rw [List.nil_append] at hconsts
  refine ⟨h.only, fun b hb => Program.exists_of_mem_consts (hconsts ▸ hb), fun hsignal => ?_⟩
  have hall := h.quiet_iff.1 hsignal
  exact ⟨hall, hconsts.trans (Program.consts_eq_filterMap hall)⟩

theorem supplied_of_blocked {sig : Signal} (hhome : Arena.Home act.entity home s st.scopes)
    (hb : act.blocked? (act.begun x.1 x.2 s st).chain s = some sig) :
    Supplied act x us home s st := by
  have hsupply := supply_of_blocked hhome hb us
  have hscopes : (act.supply x us s st).2.scopes = (st.scopes.enter s).1 :=
    congrArg (fun r => r.2.scopes) hsupply
  have hempty : ((act.supply x us s st).2.scopes.frame st.scopes.size).consts = [] := by
    rw [hscopes, Arena.frame_enter_size]
    rfl
  refine ⟨hscopes ▸ .refl _ _ _, by simp [hempty], fun hsignal => ?_⟩
  have hnil : us = [] := by
    by_contra hne
    rw [hsupply, if_neg hne] at hsignal
    cases hsignal
    exact act.blocked?_ne_none _ s hb
  subst hnil
  exact ⟨by simp, hempty⟩

theorem supplied (hus : ∀ t ∈ us, t.Parameter) (hnodup : (us.map Program.name?).Nodup)
    (hhome : Arena.Home act.entity home s st.scopes) : Supplied act x us home s st := by
  cases hb : act.blocked? (act.begun x.1 x.2 s st).chain s with
  | none => exact supplied_of_fills (supply_fills hus hnodup hhome hb)
  | some sig => exact supplied_of_blocked hhome hb

theorem signal?_supply_perm (h : us.Perm ts) (hts : ∀ t ∈ ts, t.Parameter)
    (hnodup : (ts.map Program.name?).Nodup) (hhome : Arena.Home act.entity home s st.scopes) :
    Children.signal? (act.supply x us s st).1 = Children.signal? (act.supply x ts s st).1 := by
  cases hb : act.blocked? (act.begun x.1 x.2 s st).chain s with
  | none =>
    have hus : ∀ t ∈ us, t.Parameter := fun t ht => hts t (h.mem_iff.1 ht)
    have hnodup' : (us.map Program.name?).Nodup := (h.map Program.name?).nodup_iff.2 hnodup
    rw [(supply_fills hus hnodup' hhome hb).signal, (supply_fills hts hnodup hhome hb).signal]
    exact if_congr (forall_congr' fun t => by rw [h.mem_iff]) rfl rfl
  | some sig =>
    have hnil : us = [] ↔ ts = [] := ⟨fun hus => List.nil_perm.1 (hus ▸ h), fun hts =>
      List.perm_nil.1 (hts ▸ h)⟩
    simp only [supply_of_blocked hhome hb, hnil]

theorem consts_supply_perm (h : us.Perm ts) (hus : Supplied act x us home s st)
    (hts : Supplied act x ts home s st)
    (hquiet : Children.signal? (act.supply x us s st).1 = some .none)
    (hquiet' : Children.signal? (act.supply x ts s st).1 = some .none) :
    ((act.supply x us s st).2.scopes.frame st.scopes.size).consts.Perm
      ((act.supply x ts s st).2.scopes.frame st.scopes.size).consts := by
  rw [(hus.all hquiet).2, (hts.all hquiet').2]
  exact h.filterMap _

theorem get?_supply_perm (hus : Supplied act x us home s st) (hts : Supplied act x ts home s st)
    (hconsts : ((act.supply x us s st).2.scopes.frame st.scopes.size).consts.Perm
      ((act.supply x ts s st).2.scopes.frame st.scopes.size).consts) (id : String) :
    (act.supply x us s st).2.scopes.get? st.scopes.size id =
      (act.supply x ts s st).2.scopes.get? st.scopes.size id := by
  refine Arena.get?_congr (fun k => ?_) (fun k => ?_) _
  · rw [hus.only.parent, hts.only.parent]
  · by_cases hk : k = st.scopes.size
    · subst hk
      exact Frame.get?_perm hconsts id
    · rw [hus.only.frame k hk hk, hts.only.frame k hk hk]

/-- The parameters of a caller were run in some order, which is compared with the order of the
document. -/
structure Unswayed (act : Activation) (p : Program) (us : List Program) (home s : ScopeId)
    (st : RunState) : Prop where
  /-- Whatever is bound in the scope of the call is bound by a parameter, to the value that this has
  by itself. -/
  bound : ∀ b ∈ ((act.supply p.label us s st).2.scopes.frame st.scopes.size).consts,
    ∃ t ∈ p.children, Program.const? (act.alone? p.label home s st) t = some b
  /-- If all parameters are run, all are bound. -/
  all : Children.signal? (act.supply p.label us s st).1 = some .none → ∀ t ∈ p.children,
    ∃ b ∈ ((act.supply p.label us s st).2.scopes.frame st.scopes.size).consts,
      Program.const? (act.alone? p.label home s st) t = some b
  /-- All are run if nothing keeps them from starting and each has a value by itself. -/
  ends : act.blocked? (act.begun p.label.1 p.label.2 s st).chain s = none →
    (Children.signal? (act.supply p.label us s st).1 = some .none ↔
      ∀ t ∈ p.children, (act.alone? p.label home s st t).isSome = true)
  /-- Nothing but the scope of the call has changed since it was opened. -/
  elsewhere : Arena.Confined st.scopes.size (st.scopes.enter s).1
    (act.supply p.label us s st).2.scopes
  /-- The signal is that of the order of the document, and so is whether the call fails. -/
  signal : Children.signal? (act.supply p.label us s st).1 =
    Children.signal? (act.supply p.label p.children s st).1
  /-- A bean takes the same fields. -/
  fields : Children.signal? (act.supply p.label us s st).1 = some .none →
    ∀ (sch : Schema) (ownId : Option String) (strict : Bool) (fs : Fields),
      sch.bind (act.supply p.label us s st).2.scopes st.scopes.size ownId strict = .ok fs ↔
        sch.bind (act.supply p.label p.children s st).2.scopes st.scopes.size ownId strict = .ok fs
  /-- All other scopes are the same. -/
  frames : Arena.Confined st.scopes.size (act.supply p.label p.children s st).2.scopes
    (act.supply p.label us s st).2.scopes

theorem unswayed {p : Program} (hp : p.Parameterized)
    (hparams : ∀ t ∈ p.children, Program.Parameter t) (h : us.Perm p.children)
    (hhome : Arena.Home act.entity home s st.scopes) : Unswayed act p us home s st := by
  have hus : ∀ t ∈ us, t.Parameter := fun t ht => hparams t (h.mem_iff.1 ht)
  have hnodup : (us.map Program.name?).Nodup := (h.map Program.name?).nodup_iff.2 hp.distinct
  have hsupplied : Supplied act p.label us home s st := supplied hus hnodup hhome
  have hdocument : Supplied act p.label p.children home s st := supplied hparams hp.distinct hhome
  have hsignal : Children.signal? (act.supply p.label us s st).1 =
      Children.signal? (act.supply p.label p.children s st).1 :=
    signal?_supply_perm h hparams hp.distinct hhome
  refine ⟨?_, ?_, ?_, hsupplied.only.confined, hsignal, ?_, ?_⟩
  · intro b hb
    obtain ⟨t, ht, hc⟩ := hsupplied.bound b hb
    exact ⟨t, h.mem_iff.1 ht, hc⟩
  · intro hquiet t ht
    obtain ⟨hall, hconsts⟩ := hsupplied.all hquiet
    have ht' := h.mem_iff.2 ht
    obtain ⟨b, hb⟩ := Option.isSome_iff_exists.1 (hall t ht')
    exact ⟨b, by rw [hconsts]; exact List.mem_filterMap.2 ⟨t, ht', hb⟩, hb⟩
  · intro hb
    rw [hsignal, (supply_fills hparams hp.distinct hhome hb).quiet_iff]
    exact forall₂_congr fun t ht => by rw [Program.isSome_const? (hp.data t ht)]
  · intro hquiet
    have hperm := consts_supply_perm h hsupplied hdocument hquiet (hsignal ▸ hquiet)
    exact Schema.bind_eq_ok_congr (get?_supply_perm hsupplied hdocument hperm) hperm
  · exact hdocument.only.confined.symm.trans hsupplied.only.confined

end Activation

namespace Assembly

open Parse

/-- **Parameters do not see their siblings.** Let a caller stand anywhere in a document, with
parameters of distinct names that are made of data, expressions and literals, none of which binds
its result. Whatever the state of a run in which the entity has a scope, and whatever the order in
which the parameters are run: each is bound to the value that it has by itself in that scope, a bean
takes the fields that it takes in the order of the document, and nothing but the scope of the call
is touched. -/
theorem parameters_see_no_siblings {cx : Assembly} {root : Xml.Element} {maker : RootMaker}
    {q p : Program} {w w' : World} {path : List (NodeId × Instruction)} {left us : List Program}
    (he : cx.evaluator.Local) (hq : Gives (cx.document root maker) w q w')
    (hp : Tree.Occurs q path left p) (hparams : p.Parameterized) (hdiscreet : p.Discreet)
    {act : Activation} {home s : ScopeId} {st : RunState}
    (hhome : Arena.Home act.entity home s st.scopes) (hus : us.Perm p.children) :
    act.Unswayed p us home s st := by
  obtain ⟨enclosing, hplaced⟩ := hp.placed (placed_of_gives_document hq)
  have hlocal : ∀ x ∈ Tree.labelsAll p.children, x.2.Local :=
    fun x hx => local_of_gives_document he hq x (hp.below_subset hx)
  exact Activation.unswayed hparams (fun t ht => hparams.parameter hdiscreet hplaced hlocal ht) hus
    hhome

/-- A call of a bean with an attribute and two elements, the first of which holds the given nodes.
The attribute names the first element. -/
def recordCall (nodes : List Xml.Node) : Xml.Element where
  head := { name := "scenario" }
  children := [
    .element { name := "record", attrs := [{ name := "loud", value := "${name}" }] }
      [.element { name := "name" } nodes, .element { name := "count" } [.text "${x}" 1]]]

/-- Documents with the built-in and the probing tags. -/
def probing : Assembly where
  registry := Probe.registry
  evaluator := .template
  locator := []
  path := "mem:main"
  refer := fun _ => pure none

theorem exists_first_of_document (root : Xml.Element) (P : Program → Prop) [DecidablePred P]
    (h : ((probing.document root .scenario).run.run {}).1.toOption.any (fun q =>
      q.children.head?.any fun p => decide (P p)) = true) :
    ∃ q w' path left p, Gives (probing.document root .scenario) {} q w' ∧
      Tree.Occurs q path left p ∧ P p := by
  rcases hx : (probing.document root .scenario).run.run {} with ⟨e | q, w'⟩
  · rw [hx] at h
    cases h
  · rw [hx] at h
    cases hp : q.children.head? with
    | none => simp [Except.toOption, hp] at h
    | some p =>
      have hchild : q.children[0]? = some p := by rw [← List.head?_eq_getElem?, hp]
      have hholds : P p := by simpa [Except.toOption, hp] using h
      exact ⟨q, w', _, _, p, hx, Tree.Occurs.root.get hchild, hholds⟩

/-- An entity with a scope of its own. -/
def ownScope : RunState where
  world := {}
  chain := { scopes := (({} : Arena).enter 0).1.bindEntity 1 0 }

/-- The activation of an entity that calls no other. -/
def lonely : Activation :=
  (Engine.ofSettings Probe.registry .template {}).activation (fun _ _ => pure {}) {} 0

/-- What parameters leave in the scope of a call: their names, and whether they are null. -/
def nullness? (p : Program) (us : List Program) (st : RunState) : Option (List (String × Bool)) :=
  let supplied := lonely.supply p.label us 1 st
  if Children.signal? supplied.1 = some .none then
    some ((supplied.2.scopes.frame st.scopes.size).consts.map fun b => (b.id, b.value.isNull))
  else none

/-- Run in the other order, the attribute comes last and still does not see the name, and the name
does not see the count. -/
theorem parameters_see_no_siblings_reversed :
    let nodes : List Xml.Node := [.element { name := "a" } [.text "${count}" 1],
      .element { name := "b" } [.element { name := "literal" } [.text "9" 1]]]
    let st := ownScope.bound 1 ⟨"x", .str "2", none⟩
    ∃ q w' path left p, Gives (probing.document (recordCall nodes) .scenario) {} q w' ∧
      Tree.Occurs q path left p ∧ Program.Parameterized p ∧ Program.Discreet p ∧
      nullness? p p.children.reverse st =
        some [("count", false), ("name", false), ("loud", true)] ∧
      Arena.Home lonely.entity 1 1 st.scopes ∧ lonely.Unswayed p p.children.reverse 1 1 st := by
  intro nodes st
  obtain ⟨q, w', path, left, p, hq, hp, hparams, hdiscreet, hleft⟩ :=
    exists_first_of_document (recordCall nodes) (fun p => Program.Parameterized p ∧
      Program.Discreet p ∧ nullness? p p.children.reverse st =
        some [("count", false), ("name", false), ("loud", true)]) (by decide +kernel)
  have hhome : Arena.Home lonely.entity 1 1 st.scopes := ⟨by decide, by decide +kernel⟩
  exact ⟨q, w', path, left, p, hq, hp, hparams, hdiscreet, hleft, hhome,
    parameters_see_no_siblings Evaluator.template_local hq hp hparams hdiscreet hhome
      (List.reverse_perm _)⟩

/-- A literal inside a parameter that binds its result: the parameter behind it sees it, although it
is null by itself, and it does not see it if the order is changed. -/
theorem parameters_see_result_names :
    let nodes : List Xml.Node :=
      [.element { name := "literal", attrs := [{ name := "id", value := "x" }] } [.text "9" 1]]
    ∃ q w' path left p, Gives (probing.document (recordCall nodes) .scenario) {} q w' ∧
      Tree.Occurs q path left p ∧ Program.Parameterized p ∧
      p.children.map (fun t => (lonely.alone? p.label 1 1 ownScope t).map Value.isNull) =
        [some true, some false, some true] ∧
      nullness? p p.children ownScope =
        some [("loud", true), ("name", false), ("count", false)] ∧
      nullness? p p.children.reverse ownScope =
        some [("count", true), ("name", false), ("loud", true)] ∧
      Arena.Home lonely.entity 1 1 ownScope.scopes := by
  intro nodes
  obtain ⟨q, w', path, left, p, hq, hp, hparams, halone, hleft, hright⟩ :=
    exists_first_of_document (recordCall nodes) (fun p => Program.Parameterized p ∧
      p.children.map (fun t => (lonely.alone? p.label 1 1 ownScope t).map Value.isNull) =
        [some true, some false, some true] ∧
      nullness? p p.children ownScope =
        some [("loud", true), ("name", false), ("count", false)] ∧
      nullness? p p.children.reverse ownScope =
        some [("count", true), ("name", false), ("loud", true)]) (by decide +kernel)
  exact ⟨q, w', path, left, p, hq, hp, hparams, halone, hleft, hright, by decide, by decide +kernel⟩

end Assembly

end Scenario
