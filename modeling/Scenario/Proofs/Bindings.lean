import Scenario.Proofs.Results

/-!
# Names that an entity binds

The names in the scope of an entity come from three kinds of instructions. A result is bound under a
name that is new there. A parameter is bound in the scope of its call, which is another one. A
fallback, last, looks for a value under its name before it runs what is below it, and binds without
looking again; by then its name may have a value, and may even be another one.

* `bindingsAfter` replays the bindings that the journal tells of.
* `Warranted` — the name is new, or a fallback binds it that has found no value.
* **`Walk.duly`** — with the built-in tags, the names of an entity are what the journal says, and
  every binding is warranted, by induction on the walk. That data tags stand where their modes say
  (`Program.Placed`) tells in which scope an instruction runs (`At`).
-/

namespace Scenario

/-! ### Replaying bindings -/

/-- The names of a scope after an entry. -/
def Entry.bindingsAfter (s : ScopeId) (bs : Bindings) : Entry → Bindings
  | .bound k b => if k = s then bs.insert b else bs
  | _ => bs

/-- The names of a scope after some entries. -/
def bindingsAfter (s : ScopeId) (bs : Bindings) (xs : List Entry) : Bindings :=
  xs.foldl (Entry.bindingsAfter s) bs

theorem bindingsAfter_append (s : ScopeId) (bs : Bindings) (xs ys : List Entry) :
    bindingsAfter s bs (xs ++ ys) = bindingsAfter s (bindingsAfter s bs xs) ys := by
  simp [bindingsAfter]

/-- Whether an entry says that a name was bound in a scope. -/
def Entry.bindsIn (s : ScopeId) : Entry → Bool
  | .bound k _ => k == s
  | _ => false

theorem Entry.bindingsAfter_of_not_bindsIn {s : ScopeId} {x : Entry} (h : x.bindsIn s = false)
    (bs : Bindings) : x.bindingsAfter s bs = bs := by
  cases x with
  | bound k b => exact if_neg (by simpa [bindsIn] using h)
  | _ => rfl

theorem bindingsAfter_of_none {s : ScopeId} {xs : List Entry} (h : ∀ x ∈ xs, x.bindsIn s = false)
    (bs : Bindings) : bindingsAfter s bs xs = bs := by
  induction xs with
  | nil => rfl
  | cons x xs ih =>
    rw [List.forall_mem_cons] at h
    rw [← List.singleton_append, bindingsAfter_append]
    have hx : Scenario.bindingsAfter s bs [x] = bs := Entry.bindingsAfter_of_not_bindsIn h.1 bs
    rw [hx, ih h.2]

/-- A name that gets another value is bound in between. -/
theorem exists_bound_of_get?_ne {s : ScopeId} {id : String} {bs : Bindings} {xs : List Entry}
    (h : (bindingsAfter s bs xs).get? id ≠ bs.get? id) :
    ∃ b : Binding, Entry.bound s b ∈ xs ∧ b.id = id := by
  by_contra hno
  push Not at hno
  refine h ?_
  clear h
  induction xs generalizing bs with
  | nil => rfl
  | cons x xs ih =>
    have hrest : ∀ b : Binding, Entry.bound s b ∈ xs → b.id ≠ id :=
      fun b hb => hno b (List.mem_cons_of_mem x hb)
    have hx : (x.bindingsAfter s bs).get? id = bs.get? id := by
      cases x with
      | bound k b =>
        by_cases hk : k = s
        · subst hk
          have hne : id ≠ b.id := fun he => hno b (List.mem_cons_self ..) he.symm
          simp [Entry.bindingsAfter, Bindings.get?, Bindings.lookup?_insert, hne]
        · simp [Entry.bindingsAfter, hk]
      | _ => rfl
    exact (ih hrest).trans hx

theorem Entry.Aside.bindsIn_eq {x : Entry} (h : x.Aside) (s : ScopeId) : x.bindsIn s = false := by
  cases x with
  | bound k b => cases h
  | _ => rfl

/-! ### Warranted bindings -/

/-- After some entries, from the names `bs` on, a binding is warranted: its name is new, or it is
made by a fallback that has found no value under the name that it had, and is still open. -/
def Warranted (s : ScopeId) (bs : Bindings) (pre : List Entry) (b : Binding) : Prop :=
  (bindingsAfter s bs pre).has b.id = false ∨
    ∃ pre' id mid, pre = pre' ++ .vacant s id :: mid ∧ Balanced mid ∧
      ∀ v, (bindingsAfter s bs pre').get? id = some v → v.isEmpty = true

theorem Warranted.append {s : ScopeId} {bs : Bindings} {pre : List Entry} {b : Binding}
    (xs : List Entry) (h : Warranted s (bindingsAfter s bs xs) pre b) :
    Warranted s bs (xs ++ pre) b := by
  obtain h | ⟨pre', id, mid, rfl, hmid, hv⟩ := h
  · exact .inl (by rwa [bindingsAfter_append])
  · exact .inr ⟨xs ++ pre', id, mid, by simp, hmid, by rwa [bindingsAfter_append]⟩

/-- The names of a scope are what the journal says, all bindings are warranted, and whether names
may be bound anew is as before. -/
structure Duly (s : ScopeId) (st st' : RunState) : Prop where
  overwrite : st'.scopes.overwriteAllowed s = st.scopes.overwriteAllowed s
  did : ∃ xs, Did 0 st st' xs ∧
    (st'.scopes.frame s).consts = bindingsAfter s (st.scopes.frame s).consts xs ∧
    ∀ pre b post, xs = pre ++ .bound s b :: post → Warranted s (st.scopes.frame s).consts pre b

namespace Duly

variable {act : Activation} {s t : ScopeId} {st st₁ st₂ : RunState}

theorem trans (h : Duly s st st₁) (h' : Duly s st₁ st₂) : Duly s st st₂ := by
  refine ⟨h'.overwrite.trans h.overwrite, ?_⟩
  obtain ⟨xs, hx, hbs, hw⟩ := h.did
  obtain ⟨ys, hy, hbs', hw'⟩ := h'.did
  refine ⟨xs ++ ys, hx.trans hy, ?_, fun pre b post hsplit => ?_⟩
  · rw [hbs', hbs, bindingsAfter_append]
  · obtain ⟨zs, rfl, hz⟩ | ⟨zs, hz, hpost⟩ := List.append_eq_append_iff.1 hsplit
    · have := hw' zs b post hz
      rw [hbs] at this
      exact this.append xs
    · obtain ⟨rfl, hz'⟩ | ⟨zs, rfl, -⟩ := List.cons_eq_append_iff.1 hpost
      · have := hw' [] b post hz'
        rw [hbs] at this
        rw [List.append_nil] at hz
        have happ := this.append xs
        rwa [List.append_nil, hz] at happ
      · exact hw pre b zs hz

/-- Nothing is bound in the scope, and it keeps its names and its permission. -/
theorem of_silent {xs : List Entry} (hx : Did 0 st st₁ xs) (hs : ∀ x ∈ xs, x.bindsIn s = false)
    (hbs : (st₁.scopes.frame s).consts = (st.scopes.frame s).consts)
    (ho : st₁.scopes.overwriteAllowed s = st.scopes.overwriteAllowed s) : Duly s st st₁ := by
  refine ⟨ho, xs, hx, by rw [hbs, bindingsAfter_of_none hs], ?_⟩
  rintro pre b post rfl
  have := hs (.bound s b) (by simp)
  simp [Entry.bindsIn] at this

/-- Nothing is bound in the scope, and its frame is the same. -/
theorem of_frame_eq {xs : List Entry} (hx : Did 0 st st₁ xs) (hs : ∀ x ∈ xs, x.bindsIn s = false)
    (hf : st₁.scopes.frame s = st.scopes.frame s) : Duly s st st₁ :=
  of_silent hx hs (congrArg Frame.consts hf)
    (Arena.overwriteAllowed_congr (congrArg Frame.internals hf))

theorem refl (s : ScopeId) (st : RunState) : Duly s st st :=
  of_frame_eq (.refl 0 st) (by simp) rfl

theorem stirs (h : Stirs act t st st₁) : Duly s st st₁ := by
  obtain ⟨xs, hx, ha⟩ := Did.stirs h
  have hsilent : ∀ x ∈ xs, x.bindsIn s = false := fun x hm => (ha x hm).bindsIn_eq s
  have hboth : (st₁.scopes.frame s).consts = (st.scopes.frame s).consts ∧
      st₁.scopes.overwriteAllowed s = st.scopes.overwriteAllowed s := by
    clear hx ha hsilent
    induction h with
    | refl => exact ⟨rfl, rfl⟩
    | tail _ h ih =>
      rw [← ih.1, ← ih.2]
      cases h with
      | branch ran =>
        exact ⟨Arena.consts_setInternal _ t _ _ s,
          Arena.overwriteAllowed_setInternal _ t _ (by decide) s⟩
      | _ => exact ⟨rfl, rfl⟩
  exact of_silent hx hsilent hboth.1 hboth.2

theorem opened (st : RunState) (t : ScopeId) (hs : s < st.scopes.size) : Duly s st (st.opened t) :=
  of_frame_eq (.of_entries_eq rfl) (by simp) (Arena.frame_enter (Nat.ne_of_lt hs))

theorem left (st : RunState) (hs : s < t) : Duly s st (st.left t) :=
  of_frame_eq (.of_entries_eq rfl) (by simp) (Arena.frame_leave hs)

theorem withResult (s : ScopeId) (st : RunState) (v : Option Value) : Duly s st (st.withResult v) :=
  of_frame_eq (.of_entries_eq rfl) (by simp) rfl

/-- A scope of one's own. -/
theorem child (hs : s < st.scopes.size) (h : Duly s (st.opened t) st₁) :
    Duly s st (st₁.left st.scopes.size) :=
  ((opened st t hs).trans h).trans (left st₁ hs)

/-- An instruction that has begun and ended. -/
theorem tag {id : NodeId} {i : Instruction} (hk : Kept (act.begun id i t st) st₁)
    (h : Duly s (act.begun id i t st) st₁) : Duly s st (act.ended id i t st₁) := by
  obtain ⟨xs, hx, hbs, hw⟩ := h.did
  refine ⟨h.overwrite, _, .tag hk hx, ?_, fun pre b post hsplit => ?_⟩
  · rw [List.cons_append, ← List.singleton_append, bindingsAfter_append, bindingsAfter_append]
    exact hbs
  · obtain ⟨rfl, h⟩ | ⟨pre, rfl, hrest⟩ := List.cons_eq_append_iff.1 hsplit
    · cases h
    · obtain ⟨zs, rfl, hz⟩ | ⟨zs, hz, hpost⟩ := List.append_eq_append_iff.1 hrest
      · obtain ⟨rfl, h⟩ | ⟨rfl, h⟩ := List.append_eq_singleton_iff.1 hz.symm <;> cases h
      · obtain ⟨rfl, h⟩ | ⟨zs, rfl, rfl⟩ := List.cons_eq_append_iff.1 hpost
        · cases h
        · exact (hw pre b zs hz).append [.event (.tagEntry _)]

/-- A name is bound in another scope. -/
theorem bound_of_ne (h : t ≠ s) (st : RunState) (b : Binding) : Duly s st (st.bound t b) := by
  refine of_silent (.bound st t b) (by simpa [Entry.bindsIn] using h) ?_
    (Arena.overwriteAllowed_replace _ t b.id b.origin b.value s)
  exact congrArg Frame.consts (Arena.frame_modifyFrame_of_ne _ (Ne.symm h))

/-- A name is bound in the scope, and that is warranted by what was done before. -/
theorem bound {xs : List Entry} (hs : s < st₁.scopes.size) (h : Duly s st st₁)
    (hx : Did 0 st st₁ xs) {b : Binding} (hb : Warranted s (st.scopes.frame s).consts xs b) :
    Duly s st (st₁.bound s b) := by
  obtain ⟨ys, hy, hbs, hw⟩ := h.did
  obtain rfl := hx.unique hy
  have ho : (st₁.bound s b).scopes.overwriteAllowed s = st₁.scopes.overwriteAllowed s :=
    Arena.overwriteAllowed_replace _ s b.id b.origin b.value s
  refine ⟨ho.trans h.overwrite, xs ++ [.bound s b], hx.trans (.bound st₁ s b), ?_, ?_⟩
  · have hf : (st₁.bound s b).scopes.frame s = (st₁.scopes.frame s).bind b :=
      Arena.frame_modifyFrame_self _ hs
    rw [hf, Frame.consts_bind, hbs, bindingsAfter_append]
    simp [bindingsAfter, Entry.bindingsAfter]
  · intro pre b' post hsplit
    obtain ⟨zs, rfl, hz⟩ | ⟨zs, hz, hpost⟩ := List.append_eq_append_iff.1 hsplit
    · obtain ⟨rfl, h⟩ | ⟨rfl, h⟩ := List.append_eq_singleton_iff.1 hz.symm
      · cases h
        rwa [List.append_nil]
      · cases h
    · obtain ⟨rfl, h⟩ | ⟨zs, rfl, -⟩ := List.cons_eq_append_iff.1 hpost
      · cases h
        rw [List.append_nil] at hz
        rwa [← hz]
      · exact hw pre b' zs hz

/-- An entry that binds nothing. -/
theorem log {x : Entry} (hx : x.isEvent = false) (hs : x.bindsIn s = false) (st : RunState) :
    Duly s st (st.log [x]) :=
  of_frame_eq (.log hx st) (by simpa using hs) rfl

/-- A built-in bean binds nothing. -/
theorem bean {b : Bean} {fs : Fields} {ts : List Program} {o : Ending}
    (hb : Builtin.Inner (.bean b)) (h : Walk act (.deed (b.act fs) ts) t st o st₁) :
    Duly s st st₁ := by
  obtain rfl | rfl | rfl := hb
  · obtain ⟨-, r, rfl⟩ := Builtin.walk_log h
    exact log rfl rfl st
  · obtain ⟨-, r, rfl⟩ := Builtin.walk_return h
    have hset : Duly s st ((st.withResult (fs.value? "value")).mapScopes fun a =>
        a.setReturning (act.entityScope st.scopes t) true) :=
      of_silent (.of_entries_eq rfl) (by simp) (Arena.consts_setReturning _ _ true s)
        (Arena.overwriteAllowed_setReturning _ _ true s)
    exact (hset.trans (log rfl rfl _)).trans (log rfl rfl _)
  · obtain ⟨-, r, a, rfl⟩ := Builtin.walk_exit h
    have hflag : Duly s (st.log [.record r]) { st.log [.record r] with
        chain := { st.chain with aborting := true } } :=
      of_frame_eq (.of_entries_eq rfl) (by simp) rfl
    exact ((log rfl rfl st).trans hflag).trans (log rfl rfl _)

/-- An entity that is run in another scope changes nothing. -/
theorem entity {key : EntityKey} {o : Ending} (hw : Walk act (.entity key) t st o st₁)
    (ht : t < st.scopes.size) (hs : s ≠ t) : Duly s st st₁ := by
  have hf : st₁.scopes.frame s = st.scopes.frame s := (hw.tame ht).frame s hs
  obtain ⟨-, hd⟩ | ⟨name, q, q', hd⟩ := hw.did_entity (Nat.zero_lt_of_lt ht)
  · exact of_frame_eq hd (by simp) hf
  · exact of_frame_eq hd (by simp [Entry.bindsIn]) hf

end Duly

/-! ### Where instructions run -/

/-- An instruction inside a call runs in the scope of the call, every other one in the scope of the
entity. -/
def At (enclosing : TagKind) (s t : ScopeId) : Prop :=
  DataMode.inside enclosing = .parameter ↔ t ≠ s

theorem at_self (s : ScopeId) {enclosing : TagKind} (h : DataMode.inside enclosing ≠ .parameter) :
    At enclosing s s := by
  simpa [At] using h

/-- What is below an instruction that makes no call runs where its place says. -/
theorem At.inside {act : Activation} {s t : ScopeId} {a : Arena} {tag : Tag} {enclosing : TagKind}
    (h : At enclosing s t) (hs : Arena.Home act.entity s t a) (hin : tag.encloses = true)
    (hfits : tag.Fits enclosing) : At (tag.around enclosing) s (act.childScope tag a t) := by
  cases tag with
  | scenario | block _ =>
    obtain rfl : enclosing = .entity := hfits
    exact h
  | data name mode fallback =>
    obtain rfl : mode = DataMode.inside enclosing := hfits
    have hu : act.childScope (.data name (DataMode.inside enclosing) fallback) a t = s := by
      by_cases hm : DataMode.inside enclosing = .parameter
      · rw [hm]
        exact hs.entityScope_eq
      · have ht : t = s := by
          by_contra hne
          exact hm (h.2 hne)
        unfold Activation.childScope
        split
        · exact hs.entityScope_eq
        · exact ht
    have harea :
        (Tag.data name (DataMode.inside enclosing) fallback).around enclosing = .data := rfl
    rw [hu, harea]
    exact at_self s (by decide)
  | conditional | alternative | mutex _ _ => exact h
  | _ => cases hin

/-- What is below a call runs in a new scope. -/
theorem at_call {s : ScopeId} {a : Arena} {tag : Tag} {enclosing : TagKind} (hs : s < a.size)
    (hcalls : tag.calls = true) : At (tag.around enclosing) s a.size := by
  have hkind : tag.around enclosing = .invoker := by
    cases tag with
    | bean _ | invoke _ => rfl
    | _ => cases hcalls
  rw [hkind]
  exact ⟨fun _ => Nat.ne_of_gt hs, fun _ => rfl⟩

/-- A name without a value that is not empty, seen from a scope, has none in the scope itself. -/
theorem isEmpty_of_not_hasValue {a : Arena} {s : ScopeId} {id : String} {v : Value}
    (h : Activation.hasValue a s id = false) (hv : (a.frame s).consts.get? id = some v) :
    v.isEmpty = true := by
  obtain ⟨ss, hss⟩ := a.mem_ancestors_self s
  rw [Frame.get?_consts] at hv
  have hget : a.get? s id = some v := by simp [Arena.get?, Arena.chain, hss, hv]
  simpa [Activation.hasValue, hget] using h

/-! ### Walks -/

/-- What is to be shown of a task of an activation that runs parts of a program. -/
def Task.Duly (p : Program) (act : Activation) (t : ScopeId) (st st' : RunState) : Task → Prop
  | .all ts => (∀ x ∈ Tree.labelsAll ts, x ∈ p.labels) → ∀ s enclosing,
      Arena.Home act.entity s t st.scopes → At enclosing s t →
      Tree.PlacedAll (fun x => x.2.tag) enclosing ts → st.scopes.overwriteAllowed s = false →
      Scenario.Duly s st st'
  | .one q => (∀ x ∈ q.labels, x ∈ p.labels) → ∀ s enclosing,
      Arena.Home act.entity s t st.scopes → At enclosing s t →
      Tree.Placed (fun x => x.2.tag) enclosing q → st.scopes.overwriteAllowed s = false →
      Scenario.Duly s st st'
  | .body i ts => (∃ n, (n, i) ∈ p.labels) → (∀ x ∈ Tree.labelsAll ts, x ∈ p.labels) →
      ∀ s enclosing, Arena.Home act.entity s t st.scopes → At enclosing s t →
      i.tag.Fits enclosing → Tree.PlacedAll (fun x => x.2.tag) (i.tag.around enclosing) ts →
      st.scopes.overwriteAllowed s = false → Scenario.Duly s st st'
  | _ => True

namespace Task.Duly

variable {p : Program} {act : Activation} {i : Instruction} {ts : List Program} {s t : ScopeId}
  {st st₁ st₂ : RunState} {o : Ending} {enclosing : TagKind}

theorem next {q : Program} {ps : List Program} (hw : Walk act (.one q) t st o st₁)
    (h : (Task.one q).Duly p act t st st₁) (h' : (Task.all ps).Duly p act t st₁ st₂) :
    (Task.all (q :: ps)).Duly p act t st st₂ := by
  intro hl s k hs hat hpl hoff
  rw [Tree.labelsAll, List.forall_mem_append] at hl
  have hfirst := h hl.1 s k hs hat hpl.1 hoff
  have hs₁ := hs.onlyIn (hw.tame s hs).scopes
  exact hfirst.trans (h' hl.2 s k hs₁ hat hpl.2 (hfirst.overwrite.trans hoff))

/-- An instruction that has begun, whatever is noted of its failure. -/
theorem one {id : NodeId} (hw : Walk act (.body i ts) t (act.begun id i t st) o st₁)
    (h : (Task.body i ts).Duly p act t (act.begun id i t st) st₁) (hst : Stirs act t st₁ st₂) :
    (Task.one (.node (id, i) ts)).Duly p act t st (act.ended id i t st₂) := by
  intro hl s k hs hat hpl hoff
  rw [Tree.labels, List.forall_mem_cons] at hl
  have hbody := h ⟨id, hl.1⟩ hl.2 s k hs hat hpl.1 hpl.2 hoff
  have hk := (hw.kept (Nat.zero_lt_of_lt hs.live)).trans (.stirs hst)
  exact .tag hk (hbody.trans (.stirs hst))

theorem inside {u : ScopeId} (hin : i.tag.encloses = true)
    (hu : u = act.childScope i.tag st.scopes t) (hst : Stirs act t st st₁)
    (h : (Task.all ts).Duly p act u st₁ st₂) : (Task.body i ts).Duly p act t st st₂ := by
  intro _ hl s k hs hat hfits hpl hoff
  rw [hu] at h
  have hstirred : Scenario.Duly s st st₁ := .stirs hst
  exact hstirred.trans (h hl s _ (hs.below (Tame.stirs hst).scopes _) (hat.inside hs hin hfits) hpl
    (hstirred.overwrite.trans hoff))

/-- A result is bound in the scope, where its name is new, a parameter in the scope of its call. -/
theorem bind (hw : Walk act (.body i ts) t st o st₁) (h : (Task.body i ts).Duly p act t st st₁)
    (hb : Binds act i t st₁ st₂) : (Task.body i ts).Duly p act t st st₂ := by
  intro hi hl s k hs hat hfits hpl hoff
  have hbody := h hi hl s k hs hat hfits hpl hoff
  have hs₁ := hs.onlyIn (hw.tame s hs).scopes
  cases hb with
  | result b hnew =>
    rw [hs₁.entityScope_eq] at hnew ⊢
    obtain ⟨xs, hx, hbs, -⟩ := hbody.did
    refine hbody.bound hs₁.self.live hx (.inl ?_)
    rw [← hbs, Frame.has_consts]
    exact hnew (hbody.overwrite.trans hoff)
  | parameter b ht =>
    rw [ht] at hfits
    exact hbody.trans (.bound_of_ne (hat.1 hfits.symm) st₁ b)

/-- A fallback stands in the scope of the entity, and what it looked for is in the journal. -/
theorem fallback {name id : String} (b : Binding) (ht : i.tag = .data name .entry true)
    (hv : Activation.hasValue st.scopes t id = false)
    (hw : Walk act (.all ts) t (st.log [.vacant t id]) o st₁)
    (h : (Task.all ts).Duly p act t (st.log [.vacant t id]) st₁) :
    (Task.body i ts).Duly p act t st (st₁.bound (act.entityScope st₁.scopes t) b) := by
  intro _ hl s k hs hat hfits hpl hoff
  rw [ht] at hfits hpl
  obtain rfl : t = s := by
    by_contra hne
    cases (hat.2 hne).symm.trans (Eq.symm hfits)
  have hlooked : Scenario.Duly t st (st.log [.vacant t id]) := .log rfl rfl st
  have hin := h hl t .data hs (at_self t (by decide)) hpl hoff
  have hs₁ : Arena.Home act.entity t t st₁.scopes := hs.onlyIn (hw.tame t hs).scopes
  obtain ⟨xs, hx, -⟩ := hin.did
  have hdid : Did 0 st st₁ (.vacant t id :: xs) := Did.trans (.log rfl st) hx
  rw [hs₁.entityScope_eq]
  refine (hlooked.trans hin).bound hs₁.live hdid (.inr ⟨[], id, xs, rfl, hx.balanced, ?_⟩)
  exact fun v hget => isEmpty_of_not_hasValue hv hget

/-- The parameters of a call, in the scope of the call. -/
theorem parameters (h : (Task.all ts).Duly p act st.scopes.size (st.opened t) st₁)
    (hcalls : i.tag.calls = true) (hl : ∀ x ∈ Tree.labelsAll ts, x ∈ p.labels)
    (hs : Arena.Home act.entity s t st.scopes)
    (hpl : Tree.PlacedAll (fun x => x.2.tag) (i.tag.around enclosing) ts)
    (hoff : st.scopes.overwriteAllowed s = false) : Scenario.Duly s (st.opened t) st₁ :=
  h hl s _ hs.enter (at_call hs.self.live hcalls) hpl
    ((Scenario.Duly.opened st t hs.self.live).overwrite.trans hoff)

theorem call (hp : Builtin.Built p) {b : Bean} {fs : Fields} (hi : i.tag = .bean b)
    (h : (Task.all ts).Duly p act st.scopes.size (st.opened t) st₁)
    (hw : Walk act (.deed (b.act fs) ts) st.scopes.size (st₁.log [.call b.typeName fs]) o st₂) :
    (Task.body i ts).Duly p act t st (st₂.left st.scopes.size) := by
  rintro ⟨n, hn⟩ hl s k hs _ _ hpl hoff
  have hb : Builtin.Inner (.bean b) := hi ▸ hp.inner_of_mem hn (by simp [hi])
  have hparams := h.parameters (by rw [hi]; rfl) hl hs hpl hoff
  have hcall : Scenario.Duly s st₁ (st₁.log [.call b.typeName fs]) := .log rfl rfl st₁
  exact .child hs.self.live ((hparams.trans hcall).trans (.bean hb hw))

theorem invoke {target : String} {key : EntityKey} {o' : Ending} (hi : i.tag = .invoke target)
    (hw : Walk act (.all ts) st.scopes.size (st.opened t) o st₁)
    (h : (Task.all ts).Duly p act st.scopes.size (st.opened t) st₁)
    (hw' : Walk act (.entity key) st.scopes.size
      ((st₁.loading act.engine.setup target).withResult none) o' st₂) :
    (Task.body i ts).Duly p act t st
      ((st₂.withResult st₁.chain.result).left st.scopes.size) := by
  intro _ hl s k hs _ _ hpl hoff
  have hparams := h.parameters (by rw [hi]; rfl) hl hs hpl hoff
  have hs₁ := hs.enter.onlyIn (hw.tame s hs.enter).scopes
  have hload : Stirs act t st₁ (st₁.loading act.engine.setup target) := .single (.load target)
  have hcleared := Scenario.Duly.withResult s (st₁.loading act.engine.setup target) none
  have hrun := Scenario.Duly.entity hw' hs₁.live (Nat.ne_of_lt hs.self.live)
  exact .child hs.self.live
    ((((hparams.trans (.stirs hload)).trans hcleared).trans hrun).trans (.withResult s st₂ _))

end Task.Duly

theorem Walk.duly {p : Program} (hp : Builtin.Built p) {act : Activation} {task : Task}
    {t : ScopeId} {st st' : RunState} {o : Ending} (h : Walk act task t st o st') :
    task.Duly p act t st st' := by
  induction h with
  | nil => exact fun _ s _ _ _ _ _ => .refl s _
  | pass => exact fun _ s _ _ _ _ _ => .refl s _
  | next hw _ ih ih' => exact .next hw ih ih'
  | stop _ _ ih =>
    intro hl s k hs hat hpl hoff
    rw [Tree.labelsAll, List.forall_mem_append] at hl
    exact ih hl.1 s k hs hat hpl.1 hoff
  | node _ hw ih => exact .one hw ih .refl
  | blamed _ hw _ hst ih => exact .one hw ih hst
  | alone hst _ => exact fun _ _ s _ _ _ _ _ _ => .stirs hst
  | inside hin hu hst _ ih => exact .inside hin hu hst ih
  | @take act i ts t st st₁ sig hi _ ih =>
    intro _ hl s k hs hat hfits hpl hoff
    rw [hi] at hfits hpl
    obtain rfl : k = .entity := hfits
    exact (ih hl s _ hs hat hpl hoff).trans (.withResult s st₁ none)
  | settle _ hst ih =>
    exact fun hi hl s k hs hat hf hpl hoff => (ih hi hl s k hs hat hf hpl hoff).trans (.stirs hst)
  | bind hw _ hb ih => exact .bind hw ih hb
  | refuse _ _ ih => exact ih
  | fallback b ht hv hw _ ih => exact .fallback b ht hv hw ih
  | halt hcalls _ _ ih =>
    intro _ hl s k hs _ _ hpl hoff
    exact .child hs.self.live (ih.parameters hcalls hl hs hpl hoff)
  | misfit hcalls _ _ hst ih =>
    intro _ hl s k hs _ _ hpl hoff
    exact .child hs.self.live ((ih.parameters hcalls hl hs hpl hoff).trans (.stirs hst))
  | call hi _ hw' ih _ => exact .call hp hi ih hw'
  | invoke hi hw _ _ hw' ih _ => exact .invoke hi hw ih hw'
  | done | fail | deed | again | unfound | summon => trivial
  | root | empty | missing | tooDeep | activate => trivial

/-! ### Entities -/

/-- With the built-in tags, an entity binds the names of its scope duly. -/
theorem Walk.duly_entity {act : Activation} {key : EntityKey} {s : ScopeId} {st st' : RunState}
    {o : Ending} {p : Program} (h : Walk act (.entity key) s st o st') (hs : s < st.scopes.size)
    (hkey : (st.world.entity? key).bind Entity.program = some p) (hp : Builtin.Built p)
    (hpl : Program.Placed p) (hoff : st.scopes.overwriteAllowed s = false) :
    ∃ xs, Did 1 st st' xs ∧
      (st'.scopes.frame s).consts = bindingsAfter s (st.scopes.frame s).consts xs ∧
      ∀ pre b post, xs = pre ++ .bound s b :: post →
        Warranted s (st.scopes.frame s).consts pre b := by
  cases h with
  | tooDeep => exact ⟨[], .refl 1 st, rfl, by simp⟩
  | @activate _ act' _ _ _ st₁ o' _ hw =>
    rw [hkey] at hw
    have hlive : s < (act'.entered s st).scopes.size := by simpa [Activation.entered] using hs
    have hk := hw.kept (Nat.zero_lt_of_lt hlive)
    have hframe : (act'.entered s st).scopes.frame s =
        { st.scopes.frame s with entity := some act'.entity } := Arena.frame_modifyFrame_self _ hs
    have hoff' : (act'.entered s st).scopes.overwriteAllowed s = false :=
      (Arena.overwriteAllowed_congr (by rw [hframe])).trans hoff
    cases hw with
    | root hw =>
      have hduly := hw.duly hp (fun _ hm => hm) s .entity (.bindEntity hs)
        (at_self s (by decide)) hpl hoff'
      obtain ⟨xs, hx, hbs, hwar⟩ := hduly.did
      obtain ⟨ys, hy, ha⟩ := Did.inside hk hx
      rw [hframe] at hbs hwar
      have hsilent : ∀ y ∈ ys, y.bindsIn s = false := fun y hm => (ha y hm).bindsIn_eq s
      refine ⟨xs ++ ys, hy, ?_, fun pre b post hsplit => ?_⟩
      · rw [bindingsAfter_append, bindingsAfter_of_none hsilent]
        exact hbs
      · obtain ⟨zs, rfl, hz⟩ | ⟨zs, hz, hpost⟩ := List.append_eq_append_iff.1 hsplit
        · have := hsilent (.bound s b) (by simp [hz])
          simp [Entry.bindsIn] at this
        · obtain ⟨rfl, hz'⟩ | ⟨zs, rfl, -⟩ := List.cons_eq_append_iff.1 hpost
          · have := hsilent (.bound s b) (by simp [hz'])
            simp [Entry.bindsIn] at this
          · exact hwar pre b zs hz

/-- A value that is not empty is replaced by a fallback only. Since that has begun, the name of the
fallback has become another one, or the name was bound. -/
theorem Warranted.replaces {s : ScopeId} {bs : Bindings} {pre : List Entry} {b : Binding}
    {v : Value} (h : Warranted s bs pre b) (hv : (bindingsAfter s bs pre).get? b.id = some v)
    (hne : v.isEmpty = false) :
    ∃ pre' id mid, pre = pre' ++ .vacant s id :: mid ∧ Balanced mid ∧
      (id = b.id → ∃ b' : Binding, Entry.bound s b' ∈ mid ∧ b'.id = id) := by
  obtain hnew | ⟨pre', id, mid, rfl, hmid, hempty⟩ := h
  · have hhas : (bindingsAfter s bs pre).has b.id = true := by
      obtain ⟨b', hb', -⟩ := Option.map_eq_some_iff.1 hv
      simp [Bindings.has, hb']
    cases hnew.symm.trans hhas
  · refine ⟨pre', id, mid, rfl, hmid, ?_⟩
    rintro rfl
    have hsplit : bindingsAfter s bs (pre' ++ .vacant s b.id :: mid) =
        bindingsAfter s (bindingsAfter s bs pre') mid := bindingsAfter_append s bs pre' _
    rw [hsplit] at hv
    have hchanged : (bindingsAfter s (bindingsAfter s bs pre') mid).get? b.id ≠
        (bindingsAfter s bs pre').get? b.id := by
      intro heq
      rw [heq] at hv
      rw [hempty v hv] at hne
      cases hne
    exact exists_bound_of_get?_ne hchanged

namespace Activation

open Exec

/-- A result under a name that is taken is a conflict, and everything stays as it is. -/
theorem publish_on_conflict {act : Activation} {i : Instruction} {t : ScopeId} {b : ResultId}
    {v : Option Value} {st : RunState} {id : String} (hkey : b.key st.scopes t = .ok id)
    (hoff : st.scopes.overwriteAllowed (act.entityScope st.scopes t) = false)
    (hhas : st.scopes.has (act.entityScope st.scopes t) id = true) :
    (act.publish i t b v).on st =
      (.error (.conflict ⟨id, st.scopes.seq (act.entityScope st.scopes t)⟩), st) := by
  simp only [publish, bindResult, on_bind, on_scopes, on_orFail, hkey, mapError_ok, Arena.set, hoff,
    hhas, Bool.not_false, Bool.and_self, if_true]
  rfl

/-- A fallback whose name has a value that is not empty does nothing. -/
theorem runData_on_value {act : Activation} {i : Instruction} {t : ScopeId} {b : ResultId}
    {st : RunState} {id name : String} {mode : DataMode} {kids : ScopeId → Exec Children}
    (hb : i.binding = some b) (hkey : b.key st.scopes t = .ok id)
    (hv : hasValue st.scopes t id = true) :
    (act.runData i t name mode true kids).on st = (.ok {}, st) := by
  simp only [runData, givesWay, hb, on_bind, if_true, on_scopes, on_orFail, hkey, mapError_ok, hv,
    on_pure]

end Activation

namespace Engine

/-- **Names are bound once.** An entity made from the built-in tags is run in a scope that does
not permit binding anew. The names of the scope are those that were bound in it one after the
other, and none is ever removed. A binding has a new name or is made by a fallback that found no
value there. If it replaces a value that is not empty, then after the fallback has found none, its
name became another one, or the name was bound while it was running what is below it. A result
under a name that is taken is a conflict that changes nothing, and a fallback that does find a
value does nothing. -/
theorem runEntity_binds_once (e : Engine) (depth : Nat) {key : EntityKey} {s : ScopeId}
    {st : RunState} {p : Program} (hs : s < st.scopes.size)
    (hkey : (st.world.entity? key).bind Entity.program = some p) (hp : Builtin.Built p)
    (hpl : Program.Placed p) (hoff : st.scopes.overwriteAllowed s = false) :
    ((e.runEntity depth key s).Ends st fun _ st' => ∃ xs, Did 1 st st' xs ∧
      (st'.scopes.frame s).consts = bindingsAfter s (st.scopes.frame s).consts xs ∧
      ∀ pre b post, xs = pre ++ .bound s b :: post →
        Warranted s (st.scopes.frame s).consts pre b ∧
        ∀ v, (bindingsAfter s (st.scopes.frame s).consts pre).get? b.id = some v →
          v.isEmpty = false → ∃ pre' id mid, pre = pre' ++ .vacant s id :: mid ∧ Balanced mid ∧
            (id = b.id → ∃ b' : Binding, Entry.bound s b' ∈ mid ∧ b'.id = id)) ∧
    (∀ (act : Activation) i t (b : ResultId) v (st : RunState) id, b.key st.scopes t = .ok id →
      st.scopes.overwriteAllowed (act.entityScope st.scopes t) = false →
      st.scopes.has (act.entityScope st.scopes t) id = true →
      (act.publish i t b v).on st =
        (.error (.conflict ⟨id, st.scopes.seq (act.entityScope st.scopes t)⟩), st)) ∧
    ∀ (act : Activation) i t b (st : RunState) id name mode kids, i.binding = some b →
      b.key st.scopes t = .ok id → Activation.hasValue st.scopes t id = true →
      (act.runData i t name mode true kids).on st = (.ok {}, st) := by
  refine ⟨?_, fun _ _ _ _ _ _ _ hk ho hh => Activation.publish_on_conflict hk ho hh,
    fun _ _ _ _ _ _ _ _ _ hb hk hv => Activation.runData_on_value hb hk hv⟩
  have hw := e.activation_walk depth st.world key key s st
  obtain ⟨xs, hx, hbs, hwar⟩ := hw.duly_entity hs hkey hp hpl hoff
  refine ⟨xs, hx, hbs, fun pre b post hsplit => ?_⟩
  have h := hwar pre b post hsplit
  exact ⟨h, fun v hv hne => h.replaces hv hne⟩

/-- A fallback whose children bind its name, with the entity as it is parsed from its document. -/
theorem runEntity_binds_once_in_fallback :
    let e := Engine.ofSettings Builtin.registry .template {}
    let w : World := ({} : World).registerMemory 0 "main"
      "<scenario><default id=\"x\"><literal id=\"x\">a</literal>b</default></scenario>" true
    let st : RunState := (RunState.loading ⟨w, {}⟩ e.setup "main").opened Arena.root
    ∃ p, 1 < st.scopes.size ∧ (st.world.entity? 0).bind Entity.program = some p ∧
      Builtin.Built p ∧ Program.Placed p ∧ st.scopes.overwriteAllowed 1 = false ∧
      (e.runEntity 10 0 1).Ends st fun _ st' => ∃ xs, Did 1 st st' xs ∧
        (st'.scopes.frame 1).consts = bindingsAfter 1 (st.scopes.frame 1).consts xs ∧
        ∀ pre b post, xs = pre ++ .bound 1 b :: post →
          Warranted 1 (st.scopes.frame 1).consts pre b := by
  intro e w st
  have hbuilt : st.world.Built := Setup.load_built rfl "main" (World.built_of_none rfl)
  have hplaced : st.world.Programs Program.Placed :=
    Setup.load_placed e.setup "main" (World.programs_of_none rfl)
  have hsome : ((st.world.entity? 0).bind Entity.program).isSome = true := by decide +kernel
  obtain ⟨p, hp⟩ := Option.isSome_iff_exists.1 hsome
  have hs : 1 < st.scopes.size := by decide
  have hoff : st.scopes.overwriteAllowed 1 = false := by decide
  refine ⟨p, hs, hp, hbuilt 0 p hp, hplaced 0 p hp, hoff, ?_⟩
  obtain ⟨⟨xs, hx, hbs, hall⟩, -⟩ :=
    runEntity_binds_once e 10 hs hp (hbuilt 0 p hp) (hplaced 0 p hp) hoff
  exact ⟨xs, hx, hbs, fun pre b post hsplit => (hall pre b post hsplit).1⟩

/-- **A fallback can replace a value.** It looks for a value of `x`, finds none, and runs what is
below it, which binds `x` to `a`. Then it binds `x` once more. -/
theorem fallback_replaces_value :
    let e := Engine.ofSettings Builtin.registry .template {}
    let w : World := ({} : World).registerMemory 0 "main"
      ("<scenario><default id=\"x\"><literal id=\"x\">a</literal><literal>b</literal></default>" ++
        "<return value=\"${x}\"/></scenario>") true
    let q := (e.run 10 "main" []).on ⟨w, {}⟩
    ((layer 1 0 q.2.entries).filterMap fun
      | .bound s b => some (s, b.id, b.value.display, b.value.isEmpty)
      | _ => none).take 2 = [(1, "x", "a", false), (1, "x", "[a, b]", false)] ∧
      q.1.toOption.map (fun v => v.map Value.display) = some (some "[a, b]") := by
  decide +kernel

end Engine

end Scenario
