import Scenario.Proofs.Results

/-!
# Giving up a run

A bean gives up a run by setting a flag on the chain. Nothing is unwound by that: the bean goes on,
ends, and everything around it has to come to its end too. This module says that this happens
without any further effect.

* `Action.Graceful` — an action that does not fail any more once the run is given up. All built-in
  beans are like this.
* `Yields n st st'` — from where the run was given up, no bean was called, no instruction began, no
  name was bound, and the first `n` scopes have kept their names. The relation is transitive, since
  it also says what happens when the run is given up at its start.
* `Task.Ceases` — what is to be shown of a task, with a lemma for each rule of a walk that takes
  more than a line.
* **`Walk.yields`** — every walk yields, and unless it started on a chain that was given up it ends
  with the signal of giving up as soon as the flag is set.
-/

namespace Scenario

/-! ### Actions that do not fail any more -/

/-- Whether something ended because the run is given up. -/
def Ending.aborts : Ending → Bool
  | .ok .abort => true
  | _ => false

/-- An action that does not fail once the run is given up, be it by itself or by what it runs. The
truth value tells whether that is so already. -/
def Action.Graceful : Action → Bool → Prop
  | .done _, _ => True
  | .fail _, aborting => aborting = false
  | .look next, aborting => ∀ v, (next v).Graceful aborting
  | .write _ next, aborting => next.Graceful aborting
  | .note _ next, aborting => next.Graceful aborting
  | .setResult _ next, aborting => next.Graceful aborting
  | .returnEntity next, aborting => next.Graceful aborting
  | .abort next, _ => next.Graceful true
  | .register _ next, aborting => next.Graceful aborting
  | .allowOverwrite _ next, aborting => next.Graceful aborting
  | .children next, aborting =>
    ∀ r, (next r).Graceful (aborting || Ending.aborts (r.map Children.signal))
  | .invoke _ next, aborting =>
    ∀ r, (next r).Graceful (aborting || Ending.aborts (r.map Outcome.signal))

/-- A tag is graceful unless it is a bean with an action that is not. -/
def Tag.Graceful : Tag → Prop
  | .bean b => ∀ fs, (b.act fs).Graceful false
  | _ => True

/-- The built-in tags are graceful. -/
theorem Builtin.graceful_of_inner {t : Tag} (h : Inner t) : t.Graceful := by
  cases t with
  | bean b =>
    intro fs
    obtain rfl | rfl | rfl := h
    · exact fun _ => trivial
    · exact fun _ => trivial
    · exact fun _ => trivial
  | _ => trivial

theorem Builtin.registry_graceful : registry.Makes Tag.Graceful Tag.Graceful :=
  registry_makes.mono (by rintro _ rfl; trivial) fun _ => graceful_of_inner

/-! ### Nothing happens any more -/

/-- The first `n` scopes have the same names with the same values. -/
def Arena.SameNames (n : Nat) (a b : Arena) : Prop :=
  ∀ k < n, (b.frame k).consts = (a.frame k).consts

namespace Arena.SameNames

variable {n : Nat} {a b c : Arena} {s : ScopeId}

theorem refl (n : Nat) (a : Arena) : SameNames n a a := fun _ _ => rfl

theorem trans (h : SameNames n a b) (h' : SameNames n b c) : SameNames n a c :=
  fun k hk => (h' k hk).trans (h k hk)

/-- A change of a frame that keeps its names. -/
theorem modifyFrame (a : Arena) (s : ScopeId) {g : Frame → Frame}
    (hg : ∀ f, (g f).consts = f.consts) : SameNames n a (a.modifyFrame s g) :=
  fun k _ => frame_modifyFrame Frame.consts g hg a s k

theorem enter (hn : n ≤ a.size) : SameNames n a (a.enter s).1 := by
  intro k hk
  rw [frame_enter (Nat.ne_of_lt (Nat.lt_of_lt_of_le hk hn))]

theorem leave (hn : n ≤ s) : SameNames n a (a.leave s) := by
  intro k hk
  rw [frame_leave (Nat.lt_of_lt_of_le hk hn)]

end Arena.SameNames

/-- An entry other than the call of a bean, the beginning of an instruction or the binding of a
name. -/
def Entry.Still : Entry → Prop
  | .call _ _ | .bound _ _ | .event (.tagEntry _) => False
  | _ => True

/-- Whether an entry says that the run was given up. -/
def Entry.isAborted : Entry → Bool
  | .aborted _ => true
  | _ => false

/-- Once the run is given up, be it at the start or on the way, it stays so, only still entries
follow, and the first `n` scopes keep their names. -/
structure Yields (n : Nat) (st st' : RunState) : Prop where
  aborting : st.chain.aborting = true → st'.chain.aborting = true
  names : st.chain.aborting = true → Arena.SameNames n st.scopes st'.scopes
  journal : ∃ es, st'.entries = st.entries ++ es ∧
    (st.chain.aborting = true → ∀ x ∈ es, x.Still) ∧
    ∀ pre a post, es = pre ++ .aborted a :: post → st'.chain.aborting = true ∧
      (∀ x ∈ post, x.Still) ∧ Arena.SameNames n a st'.scopes

namespace Yields

variable {act : Activation} {n : Nat} {s t : ScopeId} {st st₁ st₂ : RunState}

theorem trans (h : Yields n st st₁) (h' : Yields n st₁ st₂) : Yields n st st₂ where
  aborting ha := h'.aborting (h.aborting ha)
  names ha := (h.names ha).trans (h'.names (h.aborting ha))
  journal := by
    obtain ⟨es, he, hstill, hsplit⟩ := h.journal
    obtain ⟨fs, hf, hstill', hsplit'⟩ := h'.journal
    refine ⟨es ++ fs, by rw [hf, he, List.append_assoc], ?_, ?_⟩
    · intro ha
      exact List.forall_mem_append.2 ⟨hstill ha, hstill' (h.aborting ha)⟩
    · -- given up in the first part, which leaves the second one nothing to do, or in the second one
      intro pre a post heq
      obtain ⟨ys, rfl, hpost⟩ | ⟨ys, hpre, hfs⟩ := List.append_eq_append_iff.1 heq
      · exact hsplit' ys a post hpost
      · obtain ⟨rfl, hfs⟩ | ⟨post', rfl, hpost⟩ := List.cons_eq_append_iff.1 hfs
        · exact hsplit' [] a post hfs.symm
        · obtain ⟨ha, hquiet, hsame⟩ := hsplit pre a post' hpre
          refine ⟨h'.aborting ha, ?_, hsame.trans (h'.names ha)⟩
          rw [hpost]
          exact List.forall_mem_append.2 ⟨hquiet, hstill' ha⟩

theorem no_split {es : List Entry} (hes : ∀ x ∈ es, x.isAborted = false) (pre : List Entry)
    (a : Arena) (post : List Entry) : es ≠ pre ++ .aborted a :: post := by
  rintro rfl
  cases hes (.aborted a) (by simp)

/-- A change that neither gives up the run nor does anything that a run given up does not do. -/
theorem calm {es : List Entry} (he : st₁.entries = st.entries ++ es)
    (hes : ∀ x ∈ es, x.Still ∧ x.isAborted = false)
    (ha : st₁.chain.aborting = st.chain.aborting)
    (hn : Arena.SameNames n st.scopes st₁.scopes) : Yields n st st₁ where
  aborting h := ha.trans h
  names _ := hn
  journal := ⟨es, he, fun _ x hx => (hes x hx).1,
    fun pre a post h => absurd h (no_split (fun x hx => (hes x hx).2) pre a post)⟩

/-- A change of a run that is not given up. -/
theorem going {es : List Entry} (h : st.chain.aborting = false)
    (he : st₁.entries = st.entries ++ es) (hes : ∀ x ∈ es, x.isAborted = false) :
    Yields n st st₁ where
  aborting ha := absurd ha (Bool.eq_false_iff.1 h)
  names ha := absurd ha (Bool.eq_false_iff.1 h)
  journal := ⟨es, he, fun ha => absurd ha (Bool.eq_false_iff.1 h),
    fun pre a post h => absurd h (no_split hes pre a post)⟩

theorem refl (n : Nat) (st : RunState) : Yields n st st :=
  calm (List.append_nil _).symm (by simp) rfl (.refl n _)

theorem log (st : RunState) {x : Entry} (hx : x.Still) (ha : x.isAborted = false) :
    Yields n st (st.log [x]) :=
  calm (st.entries_log [x]) (by simpa using ⟨hx, ha⟩) rfl (.refl n _)

/-- A change of one scope that keeps its names. -/
theorem modifying (st : RunState) (s : ScopeId) {g : Frame → Frame}
    (hg : ∀ f, (g f).consts = f.consts) : Yields n st (st.mapScopes fun a => a.modifyFrame s g) :=
  calm (List.append_nil _).symm (by simp) rfl (.modifyFrame st.scopes s hg)

theorem loading (st : RunState) (setup : Setup) (name : String) :
    Yields n st (st.loading setup name) := by
  obtain ⟨rs, h⟩ := setup.load_records name st.world
  refine calm h ?_ rfl (.refl n _)
  simp [Entry.Still, Entry.isAborted]

theorem stir (h : Stir act s st st₁) : Yields n st st₁ := by
  cases h with
  | record r => exact log st trivial rfl
  | locks l => exact calm (List.append_nil _).symm (by simp) rfl (.refl n _)
  | load name => exact loading st _ name
  | vacant id => exact log st trivial rfl
  | branch ran => exact modifying st s fun _ => rfl
  | origin o => exact calm (List.append_nil _).symm (by simp) rfl (.refl n _)

theorem stirs (h : Stirs act s st st₁) : Yields n st st₁ := by
  induction h with
  | refl => exact refl n st
  | tail _ h ih => exact ih.trans (stir h)

theorem withResult (st : RunState) (v : Option Value) : Yields n st (st.withResult v) :=
  calm (List.append_nil _).symm (by simp) rfl (.refl n _)

theorem opened (hn : n ≤ st.scopes.size) (s : ScopeId) : Yields n st (st.opened s) :=
  calm (List.append_nil _).symm (by simp) rfl (.enter hn)

theorem left (st : RunState) (hn : n ≤ s) : Yields n st (st.left s) :=
  calm (List.append_nil _).symm (by simp) rfl (.leave hn)

/-- What happens in a scope that is opened and left. -/
theorem child (hn : n ≤ st.scopes.size)
    (h : ∀ m ≤ (st.opened s).scopes.size, Yields m (st.opened s) st₁) :
    Yields n st (st₁.left st.scopes.size) := by
  have hn' : n ≤ (st.opened s).scopes.size := by
    rw [RunState.scopes_opened, Arena.size_enter]
    exact Nat.le_succ_of_le hn
  exact ((opened hn s).trans (h n hn')).trans (left st₁ hn)

/-- A name is bound only while the run is not given up. -/
theorem bound (h : st.chain.aborting = false) (s : ScopeId) (b : Binding) :
    Yields n st (st.bound s b) :=
  going h (st.entries_bound s b) (by simp [Entry.isAborted])

theorem binds {i : Instruction} (h : st.chain.aborting = false) (hb : Binds act i s st st₁) :
    Yields n st st₁ := by
  cases hb with
  | result b _ => exact bound h _ b
  | parameter b _ => exact bound h s b

/-- A bean may go on with its requests after it has given up the run. -/
theorem deed {a a' : Action} (h : Deed act s st a a' st₁) : Yields n st st₁ := by
  cases h with
  | look => exact refl n st
  | write => exact log st trivial rfl
  | note => exact log st trivial rfl
  | setResult => exact withResult st _
  | returnEntity =>
    have hset : Yields n st
        (st.mapScopes fun a => a.setReturning (act.entityScope st.scopes s) true) :=
      modifying st _ fun _ => rfl
    exact hset.trans (log _ (by trivial) rfl)
  | abort =>
    refine ⟨fun _ => rfl, fun _ => .refl n _, _, RunState.entries_log _ _, ?_, ?_⟩
    · simp [Entry.Still]
    · intro pre a post h
      obtain ⟨rfl, hnil⟩ | ⟨_, -, hnil⟩ := List.cons_eq_append_iff.1 h
      · cases hnil
        exact ⟨rfl, by simp, .refl n _⟩
      · simp at hnil
  | register =>
    refine calm (RunState.entries_log _ _) ?_ rfl (.refl n _)
    simp [Entry.Still, Entry.isAborted]
  | allowOverwrite => exact modifying st _ fun _ => rfl

/-- An instruction begins only while the run is not given up. -/
theorem begun (h : st.chain.aborting = false) (id : NodeId) (i : Instruction) (s : ScopeId) :
    Yields n st (act.begun id i s st) :=
  going h (RunState.entries_log _ _) (by simp [Entry.isAborted])

theorem ended (id : NodeId) (i : Instruction) (s : ScopeId) (st : RunState) :
    Yields n st (act.ended id i s st) := by
  refine calm (RunState.entries_log _ _) ?_ rfl (.refl n _)
  simp [Entry.Still, Entry.isAborted]

theorem entered (s : ScopeId) (st : RunState) : Yields n st (act.entered s st) := by
  have hset : Yields n st (st.mapScopes fun a => a.bindEntity s act.entity) :=
    modifying st s fun _ => rfl
  exact hset.trans (log _ (by trivial) rfl)

theorem exited (s : ScopeId) (mark : Nat) (st : RunState) : Yields n st (act.exited s mark st) := by
  have hclosed : Yields n st (st.closed mark) := by
    refine calm (RunState.entries_log _ _) ?_ rfl (.refl n _)
    intro e he
    obtain ⟨r, rfl⟩ | ⟨c, rfl⟩ := Closeable.mem_farewells he <;> exact ⟨trivial, rfl⟩
  exact hclosed.trans (log _ (by trivial) rfl)

end Yields

/-! ### Walks -/

/-- What a task must be made of: graceful tags, an instruction that begins before the run is given
up, and of an action what does not fail from there on. -/
def Task.Graceful (st : RunState) : Task → Prop
  | .all ps => ∀ x ∈ Tree.labelsAll ps, x.2.tag.Graceful
  | .one p => ∀ x ∈ p.labels, x.2.tag.Graceful
  | .body i ts => st.chain.aborting = false ∧ i.tag.Graceful ∧
      ∀ x ∈ Tree.labelsAll ts, x.2.tag.Graceful
  | .deed a ts => (∃ aborting, (st.chain.aborting = true → aborting = true) ∧ a.Graceful aborting) ∧
      ∀ x ∈ Tree.labelsAll ts, x.2.tag.Graceful
  | .root p => ∀ q, p = some q → ∀ x ∈ q.labels, x.2.tag.Graceful
  | .entity _ => True

/-- The ending of a task tells that the run was given up. A bean in the middle of its action has no
signal yet, but it does not fail. -/
def Task.Reports (st : RunState) (o : Ending) (st' : RunState) : Task → Prop
  | .deed _ _ => st'.chain.aborting = true → ∃ sig, o = .ok sig
  | _ => st.chain.aborting = false → st'.chain.aborting = true → o = .ok .abort

/-- If the run is given up after a bean has run something, the bean was told so or knew before. -/
theorem Ending.or_aborts {st st' : RunState} {aborting : Bool} {o : Ending}
    (ha : st.chain.aborting = true → aborting = true)
    (hr : st.chain.aborting = false → st'.chain.aborting = true → o = .ok .abort)
    (h : st'.chain.aborting = true) : (aborting || o.aborts) = true := by
  cases hst : st.chain.aborting with
  | true => rw [ha hst, Bool.true_or]
  | false =>
    rw [hr hst h]
    exact Bool.or_true _

/-- An activation can run a task from a state: everything that it may come upon is made of graceful
tags, and there is a scope. -/
structure Activation.Graceful (act : Activation) (st : RunState) : Prop where
  registry : act.engine.setup.registry.Makes Tag.Graceful Tag.Graceful
  made : st.world.Made Tag.Graceful Tag.Graceful
  live : 0 < st.scopes.size

namespace Activation.Graceful

variable {act : Activation} {task : Task} {s t : ScopeId} {st st₁ : RunState} {o : Ending}

theorem walk (h : act.Graceful st) (hw : Walk act task t st o st₁) : act.Graceful st₁ :=
  ⟨h.registry, hw.made h.registry h.made, (hw.kept h.live).size ▸ h.live⟩

theorem stirs (h : act.Graceful st) (hst : Stirs act t st st₁) : act.Graceful st₁ :=
  ⟨h.registry, hst.made h.registry h.made, (Kept.stirs hst).size ▸ h.live⟩

theorem log (h : act.Graceful st) (x : Entry) : act.Graceful (st.log [x]) :=
  ⟨h.registry, h.made, h.live⟩

theorem withResult (h : act.Graceful st) (v : Option Value) : act.Graceful (st.withResult v) :=
  ⟨h.registry, h.made, h.live⟩

theorem begun (h : act.Graceful st) (id : NodeId) (i : Instruction) (t : ScopeId) :
    act.Graceful (act.begun id i t st) :=
  ⟨h.registry, h.made, h.live⟩

theorem opened (h : act.Graceful st) (s : ScopeId) : act.Graceful (st.opened s) :=
  ⟨h.registry, h.made, RunState.size_opened_pos st s⟩

theorem loading (h : act.Graceful st) (name : String) :
    act.Graceful (st.loading act.engine.setup name) :=
  h.stirs (t := 0) (.single (.load name))

/-- What happens in a scope of its own leaves as many scopes as there were. -/
theorem left (h : act.Graceful st) (hk : Kept (st.opened s) st₁) (h₁ : act.Graceful st₁) :
    act.Graceful (st₁.left st.scopes.size) ∧
      (st₁.left st.scopes.size).scopes.size = st.scopes.size := by
  have hsize := (Kept.child h.live hk).size
  exact ⟨⟨h.registry, h₁.made, h.live.trans_eq hsize.symm⟩, hsize⟩

end Activation.Graceful

/-- From where the run is given up a task does nothing any more, and how it ends tells that. -/
def Task.Ceases (task : Task) (act : Activation) (st : RunState) (o : Ending) (st' : RunState) :
    Prop :=
  act.Graceful st → task.Graceful st →
    (∀ n ≤ st.scopes.size, Yields n st st') ∧ task.Reports st o st'

/-- A task after which the run is not given up has nothing to tell. -/
theorem Task.reports_of_going {task : Task} {st st' : RunState} {o : Ending}
    (h : st'.chain.aborting = false) : task.Reports st o st' := by
  have never : ∀ {P : Prop}, st'.chain.aborting = true → P :=
    fun h' => absurd h' (Bool.eq_false_iff.1 h)
  cases task with
  | deed a ts => exact never
  | _ => exact fun _ => never

namespace Task.Ceases

variable {act : Activation} {i : Instruction} {ts : List Program} {s t : ScopeId}
  {st st₁ st₂ : RunState} {o : Ending}

/-! #### Programs -/

theorem next {p : Program} {ps : List Program} (hw : Walk act (.one p) t st (.ok .none) st₁)
    (h : (Task.one p).Ceases act st (.ok .none) st₁) (h' : (Task.all ps).Ceases act st₁ o st₂) :
    (Task.all (p :: ps)).Ceases act st o st₂ := by
  intro hr hg
  rw [Task.Graceful, Tree.labelsAll, List.forall_mem_append] at hg
  have hsize := (hw.kept hr.live).size
  obtain ⟨hy, -⟩ := h hr hg.1
  obtain ⟨hy', hends⟩ := h' (hr.walk hw) hg.2
  refine ⟨fun n hn => (hy n hn).trans (hy' n (hsize ▸ hn)), fun ha => hends ?_⟩
  exact hw.persists ha .none rfl (by decide)

/-- An instruction that has begun, whatever is noted of its failure. -/
theorem one {id : NodeId} {o' : Ending} (hb : act.blocked? st.chain t = none)
    (h : (Task.body i ts).Ceases act (act.begun id i t st) o st₁) (hst : Stirs act t st₁ st₂)
    (ho : o = .ok .abort → o' = .ok .abort) :
    (Task.one (.node (id, i) ts)).Ceases act st o' (act.ended id i t st₂) := by
  intro hr hg
  rw [Task.Graceful, Tree.labels, List.forall_mem_cons] at hg
  have ha : st.chain.aborting = false := Activation.not_aborting_of_free hb
  obtain ⟨hy, hends⟩ := h (hr.begun id i t) ⟨ha, hg.1, hg.2⟩
  refine ⟨fun n hn => ?_, fun _ habort => ho (hends ha (hst.aborting_eq.symm.trans habort))⟩
  exact (((Yields.begun ha id i t).trans (hy n hn)).trans (.stirs hst)).trans (.ended id i t st₂)

/-! #### Instructions -/

theorem inside (hst : Stirs act t st st₁) (h : (Task.all ts).Ceases act st₁ o st₂) :
    (Task.body i ts).Ceases act st o st₂ := by
  intro hr hg
  have hsize := (Kept.stirs hst).size
  obtain ⟨hy, hends⟩ := h (hr.stirs hst) hg.2.2
  refine ⟨fun n hn => (Yields.stirs hst).trans (hy n (hsize ▸ hn)), fun ha => hends ?_⟩
  exact hst.aborting_eq.trans ha

theorem settle (h : (Task.body i ts).Ceases act st o st₁) (hst : Stirs act t st₁ st₂) :
    (Task.body i ts).Ceases act st o st₂ := by
  intro hr hg
  obtain ⟨hy, hends⟩ := h hr hg
  refine ⟨fun n hn => (hy n hn).trans (.stirs hst), fun ha habort => hends ha ?_⟩
  exact hst.aborting_eq.symm.trans habort

/-- A name is bound where the ending is no signal of giving up. -/
theorem bind {sig : Signal} (hw : Walk act (.body i ts) t st (.ok sig) st₁) (hsig : sig ≠ .abort)
    (h : (Task.body i ts).Ceases act st (.ok sig) st₁) (hb : Binds act i t st₁ st₂) :
    (Task.body i ts).Ceases act st (.ok sig) st₂ := by
  intro hr hg
  obtain ⟨hy, -⟩ := h hr hg
  have ha : st₁.chain.aborting = false := hw.persists hg.1 sig rfl hsig
  exact ⟨fun n hn => (hy n hn).trans (.binds ha hb), reports_of_going (hb.aborting_eq.trans ha)⟩

theorem fallback {id : String} {sig : Signal} (b : Binding)
    (hw : Walk act (.all ts) t (st.log [.vacant t id]) (.ok sig) st₁) (hsig : sig ≠ .abort)
    (h : (Task.all ts).Ceases act (st.log [.vacant t id]) (.ok sig) st₁) :
    (Task.body i ts).Ceases act st (.ok sig) (st₁.bound (act.entityScope st₁.scopes t) b) := by
  intro hr hg
  obtain ⟨hy, -⟩ := h (hr.log _) hg.2.2
  have ha : st₁.chain.aborting = false := hw.persists hg.1 sig rfl hsig
  have hlooked : ∀ {n}, Yields n st (st.log [.vacant t id]) := .log st trivial rfl
  exact ⟨fun n hn => (hlooked.trans (hy n hn)).trans (.bound ha _ b), reports_of_going ha⟩

/-! #### Calls -/

theorem misfit {sig : Signal} {e : EngineError}
    (hw : Walk act (.all ts) st.scopes.size (st.opened s) (.ok sig) st₁) (hsig : sig ≠ .abort)
    (h : (Task.all ts).Ceases act (st.opened s) (.ok sig) st₁)
    (hst : Stirs act st.scopes.size st₁ st₂) :
    (Task.body i ts).Ceases act st (.error e) (st₂.left st.scopes.size) := by
  intro hr hg
  obtain ⟨hy, -⟩ := h (hr.opened s) hg.2.2
  have ha : st₁.chain.aborting = false := hw.persists hg.1 sig rfl hsig
  exact ⟨fun n hn => .child hn fun m hm => (hy m hm).trans (.stirs hst),
    reports_of_going (hst.aborting_eq.trans ha)⟩

/-- A bean is called while the run is not given up, and its signal is read off the chain. -/
theorem call {b : Bean} {fs : Fields} (hi : i.tag = .bean b)
    (hw : Walk act (.all ts) st.scopes.size (st.opened s) (.ok .none) st₁)
    (h : (Task.all ts).Ceases act (st.opened s) (.ok .none) st₁)
    (h' : (Task.deed (b.act fs) ts).Ceases act (st₁.log [.call b.typeName fs]) o st₂) :
    (Task.body i ts).Ceases act st (o.map fun _ => act.signalIn st₂.chain st.scopes.size)
      (st₂.left st.scopes.size) := by
  intro hr hg
  have hr₁ := ((hr.opened s).walk hw).log (.call b.typeName fs)
  have hsize := (hw.kept (hr.opened s).live).size
  have ha : st₁.chain.aborting = false := hw.persists hg.1 .none rfl (by decide)
  have htag : ∀ fs, (b.act fs).Graceful false := by
    have hgraceful := hg.2.1
    rwa [hi] at hgraceful
  obtain ⟨hy, -⟩ := h (hr.opened s) hg.2.2
  obtain ⟨hy', hends⟩ := h' hr₁
    ⟨⟨false, fun habort => absurd habort (Bool.eq_false_iff.1 ha), htag fs⟩, hg.2.2⟩
  have hcall : ∀ {n}, Yields n st₁ (st₁.log [.call b.typeName fs]) :=
    .going ha (RunState.entries_log _ _) (by simp [Entry.isAborted])
  refine ⟨fun n hn => .child (s := s) hn fun m hm => ?_, fun _ h => ?_⟩
  · exact ((hy m hm).trans hcall).trans (hy' m (hsize ▸ hm))
  · have habort : st₂.chain.aborting = true := h
    obtain ⟨sig, rfl⟩ := hends habort
    exact congrArg Except.ok (if_pos habort)

theorem invoke {target : String} {key : EntityKey} {sig : Signal}
    (hw : Walk act (.all ts) st.scopes.size (st.opened s) (.ok sig) st₁) (hsig : sig ≠ .abort)
    (h : (Task.all ts).Ceases act (st.opened s) (.ok sig) st₁)
    (h' : (Task.entity key).Ceases act ((st₁.loading act.engine.setup target).withResult none) o
      st₂) :
    (Task.body i ts).Ceases act st o ((st₂.withResult st₁.chain.result).left st.scopes.size) := by
  intro hr hg
  have hr₁ := (((hr.opened s).walk hw).loading target).withResult none
  have hsize := (hw.kept (hr.opened s).live).size
  have ha : st₁.chain.aborting = false := hw.persists hg.1 sig rfl hsig
  obtain ⟨hy, -⟩ := h (hr.opened s) hg.2.2
  obtain ⟨hy', hends⟩ := h' hr₁ trivial
  refine ⟨fun n hn => .child (s := s) hn fun m hm => ?_, fun _ => hends ha⟩
  have hload : Yields m st₁ ((st₁.loading act.engine.setup target).withResult none) :=
    (Yields.loading st₁ _ _).trans (.withResult _ none)
  exact (((hy m hm).trans hload).trans (hy' m (hsize ▸ hm))).trans (.withResult _ _)

/-! #### Requests of a bean -/

theorem deed {a a' : Action} (hd : Deed act t st a a' st₁)
    (h : (Task.deed a' ts).Ceases act st₁ o st₂) : (Task.deed a ts).Ceases act st o st₂ := by
  rintro hr ⟨⟨aborting, ha, hf⟩, hts⟩
  have hsize := (Kept.deed hd).size
  have hleft : ∃ aborting, (st₁.chain.aborting = true → aborting = true) ∧
      a'.Graceful aborting := by
    cases hd with
    | look => exact ⟨aborting, ha, hf _⟩
    | abort => exact ⟨true, fun _ => rfl, hf⟩
    | _ => exact ⟨aborting, ha, hf⟩
  have hmade : st₁.world.Made Tag.Graceful Tag.Graceful := by cases hd <;> exact hr.made
  obtain ⟨hy, hends⟩ := h ⟨hr.registry, hmade, hsize ▸ hr.live⟩ ⟨hleft, hts⟩
  exact ⟨fun n hn => (Yields.deed hd).trans (hy n (hsize ▸ hn)), hends⟩

theorem again {next : Except EngineError Children → Action} {r : Except EngineError Children}
    (hw : Walk act (.all ts) t st (r.map Children.signal) st₁)
    (h : (Task.all ts).Ceases act st (r.map Children.signal) st₁)
    (h' : (Task.deed (next r) ts).Ceases act st₁ o st₂) :
    (Task.deed (.children next) ts).Ceases act st o st₂ := by
  rintro hr ⟨⟨aborting, ha, hf⟩, hts⟩
  have hsize := (hw.kept hr.live).size
  obtain ⟨hy, hends⟩ := h hr hts
  obtain ⟨hy', hends'⟩ := h' (hr.walk hw) ⟨⟨_, Ending.or_aborts ha hends, hf r⟩, hts⟩
  exact ⟨fun n hn => (hy n hn).trans (hy' n (hsize ▸ hn)), hends'⟩

theorem unfound {name : String} {next : Except EngineError Outcome → Action}
    {r : Except EngineError Outcome}
    (h : (Task.deed (next r) ts).Ceases act
      (((st.opened t).loading act.engine.setup name).left st.scopes.size) o st₁) :
    (Task.deed (.invoke name next) ts).Ceases act st o st₁ := by
  rintro hr ⟨⟨aborting, ha, hf⟩, hts⟩
  obtain ⟨hr₁, hsize⟩ := hr.left (.loading (st.opened t) _ name) ((hr.opened t).loading name)
  have hflag : st.chain.aborting = true →
      (aborting || Ending.aborts (r.map Outcome.signal)) = true := by
    intro habort
    rw [ha habort, Bool.true_or]
  obtain ⟨hy, hends⟩ := h hr₁ ⟨⟨_, hflag, hf r⟩, hts⟩
  refine ⟨fun n hn => ?_, hends⟩
  have hchild : Yields n st (((st.opened t).loading act.engine.setup name).left st.scopes.size) :=
    .child hn fun m _ => .loading _ _ _
  exact hchild.trans (hy n (hn.trans_eq hsize.symm))

theorem summon {name : String} {next : Except EngineError Outcome → Action} {key : EntityKey}
    {r : Except EngineError Outcome}
    (hw : Walk act (.entity key) st.scopes.size ((st.opened t).loading act.engine.setup name)
      (r.map Outcome.signal) st₁)
    (h : (Task.entity key).Ceases act ((st.opened t).loading act.engine.setup name)
      (r.map Outcome.signal) st₁)
    (h' : (Task.deed (next r) ts).Ceases act (st₁.left st.scopes.size) o st₂) :
    (Task.deed (.invoke name next) ts).Ceases act st o st₂ := by
  rintro hr ⟨⟨aborting, ha, hf⟩, hts⟩
  have hrun := (hr.opened t).loading name
  obtain ⟨hr₁, hsize⟩ :=
    hr.left ((Kept.loading (st.opened t) _ name).trans (hw.kept hrun.live)) (hrun.walk hw)
  obtain ⟨hy, hends⟩ := h hrun trivial
  obtain ⟨hy', hends'⟩ := h' hr₁ ⟨⟨_, Ending.or_aborts ha hends, hf r⟩, hts⟩
  refine ⟨fun n hn => ?_, hends'⟩
  have hchild : Yields n st (st₁.left st.scopes.size) :=
    .child hn fun m hm => (Yields.loading _ _ _).trans (hy m hm)
  exact hchild.trans (hy' n (hn.trans_eq hsize.symm))

/-! #### Entities -/

theorem activate {act' : Activation} {key : EntityKey} {mark : Nat}
    (hserves : act'.Serves act.engine key st.world)
    (h : (Task.root ((st.world.entity? key).bind Entity.program)).Ceases act' (act'.entered s st) o
      st₁) :
    (Task.entity key).Ceases act st o.outside (act'.exited s mark st₁) := by
  intro hr _
  have hsize : (act'.entered s st).scopes.size = st.scopes.size := by
    simp [Activation.entered]
  have hready : act'.Graceful (act'.entered s st) :=
    ⟨by rw [hserves.engine]; exact hr.registry, hr.made, hsize ▸ hr.live⟩
  obtain ⟨hy, hends⟩ := h hready fun q hq => (hr.made key q hq).tags
  refine ⟨fun n hn => ?_, fun ha habort => ?_⟩
  · exact ((Yields.entered s st).trans (hy n (hsize ▸ hn))).trans (.exited s _ st₁)
  · rw [hends ha habort]
    rfl

end Task.Ceases

/-- **Giving up stops everything**, by induction on the walk. Where an ending is no signal of giving
up, the run is not given up, so that what comes next may bind names and call beans. -/
theorem Walk.yields {act : Activation} {task : Task} {t : ScopeId} {st st' : RunState} {o : Ending}
    (h : Walk act task t st o st') : task.Ceases act st o st' := by
  induction h with
  | nil | pass | empty | missing | tooDeep =>
    exact fun _ _ => ⟨fun n _ => .refl n _, fun ha h => absurd h (Bool.eq_false_iff.1 ha)⟩
  | next hw _ ih ih' => exact .next hw ih ih'
  | stop _ _ ih =>
    intro hr hg
    rw [Task.Graceful, Tree.labelsAll, List.forall_mem_append] at hg
    exact ih hr hg.1
  | node hb _ ih => exact ih.one hb .refl id
  | blamed hb _ _ hst ih => exact ih.one hb hst (by simp)
  | alone hst _ =>
    intro _ hg
    exact ⟨fun n _ => .stirs hst, Task.reports_of_going (hst.aborting_eq.trans hg.1)⟩
  | inside _ _ hst _ ih => exact .inside hst ih
  | take _ _ ih =>
    intro hr hg
    obtain ⟨hy, hends⟩ := ih hr hg.2.2
    exact ⟨fun n hn => (hy n hn).trans (.withResult _ none), hends⟩
  | settle _ hst ih => exact ih.settle hst
  | bind hw hsig hb ih => exact .bind hw hsig ih hb
  | refuse hw hsig ih =>
    intro hr hg
    exact ⟨(ih hr hg).1, Task.reports_of_going (hw.persists hg.1 _ rfl hsig)⟩
  | fallback b _ _ hw hsig ih => exact .fallback b hw hsig ih
  | @halt _ _ _ s _ _ _ _ _ _ ih =>
    intro hr hg
    obtain ⟨hy, hends⟩ := ih (hr.opened s) hg.2.2
    exact ⟨fun n hn => .child hn hy, hends⟩
  | misfit _ hw hsig hst ih => exact .misfit hw hsig ih hst
  | call hi hw _ ih ih' => exact .call hi hw ih ih'
  | invoke _ hw hsig _ _ ih ih' => exact .invoke hw hsig ih ih'
  | done => exact fun _ _ => ⟨fun n _ => .refl n _, fun _ => ⟨_, rfl⟩⟩
  | fail =>
    rintro _ ⟨⟨aborting, ha, hf⟩, -⟩
    refine ⟨fun n _ => .refl n _, fun h => ?_⟩
    rw [show aborting = false from hf] at ha
    cases ha h
  | deed hd _ ih => exact .deed hd ih
  | again hw _ ih ih' => exact .again hw ih ih'
  | unfound _ ih => exact .unfound ih
  | summon hw _ ih ih' => exact .summon hw ih ih'
  | root _ ih => exact fun hr hg => ih hr (hg _ rfl)
  | activate hserves _ ih => exact .activate hserves ih

/-! ### Runs -/

theorem Activation.blocked_of_aborting {act : Activation} {c : Chain} {t : ScopeId}
    (h : c.aborting = true) : act.blocked? c t = some .abort := if_pos h

/-- On a chain that is given up an instruction is passed over. -/
theorem Walk.passed {act : Activation} {p : Program} {t : ScopeId} {st st' : RunState} {o : Ending}
    (h : Walk act (.one p) t st o st') (ha : st.chain.aborting = true) :
    o = .ok .abort ∧ st' = st := by
  have hb : act.blocked? st.chain t = some .abort := Activation.blocked_of_aborting ha
  cases h with
  | pass hb' => exact ⟨by rw [Option.some.inj (hb'.symm.trans hb)], rfl⟩
  | node hb' _ => cases hb'.symm.trans hb
  | blamed hb' _ _ _ => cases hb'.symm.trans hb

/-- On a chain that is given up an entity is passed over, unless it lies too deep to be reached. -/
theorem Walk.passed_entity {act : Activation} {key : EntityKey} {t : ScopeId} {st st' : RunState}
    {o : Ending} (h : Walk act (.entity key) t st o st') (ha : st.chain.aborting = true) :
    o = .ok .abort ∨ st' = st := by
  cases h with
  | tooDeep => exact .inr rfl
  | @activate _ act' _ _ _ _ o _ hw =>
    have ha' : (act'.entered t st).chain.aborting = true := ha
    have hb : act'.blocked? (act'.entered t st).chain t = some .abort :=
      Activation.blocked_of_aborting ha'
    have ho : o = .ok .abort := by
      generalize (st.world.entity? key).bind Entity.program = p at hw
      cases hw with
      | root hw => exact (hw.passed ha').1
      | empty hb' => rw [Option.some.inj (hb'.symm.trans hb)]
      | missing hb' => cases hb'.symm.trans hb
    rw [ho]
    exact .inl rfl

/-- If the run was given up between two states, it ended with that signal and without an error, and
from there on no bean was called, no instruction began, no name was bound, and all scopes that still
live have the names that they had. -/
def Abandons (st : RunState) (o : Ending) (st' : RunState) : Prop :=
  ∃ es, st'.entries = st.entries ++ es ∧ ∀ pre a post, es = pre ++ .aborted a :: post →
    o = .ok .abort ∧ (∀ x ∈ post, x.Still) ∧ Arena.SameNames st'.scopes.size a st'.scopes

theorem Yields.abandons {st st' : RunState} {o : Ending} (h : Yields st'.scopes.size st st')
    (hr : st'.chain.aborting = true → o = .ok .abort ∨ st' = st) : Abandons st o st' := by
  obtain ⟨es, he, -, hsplit⟩ := h.journal
  refine ⟨es, he, fun pre a post heq => ?_⟩
  obtain ⟨ha, hstill, hsame⟩ := hsplit pre a post heq
  obtain ho | rfl := hr ha
  · exact ⟨ho, hstill, hsame⟩
  · -- nothing happened, so that the run was not given up either
    have hnil : es = [] := by simpa using he
    rw [hnil] at heq
    simp at heq

namespace Engine

/-- **Giving up a run.** If no bean fails once the run is given up, then from the moment in which a
bean gives it up, every instruction and every entity around it, in any nesting, ends with that
signal and without an error; until then no bean is called, no instruction begins, no name is bound,
and all scopes that outlive it keep their names. -/
theorem abort_ends_quietly (e : Engine)
    (hreg : e.setup.registry.Makes Tag.Graceful Tag.Graceful) (depth : Nat) (st : RunState)
    (hmade : st.world.Made Tag.Graceful Tag.Graceful) (hpos : 0 < st.scopes.size) :
    (∀ key s, (e.runEntity depth key s).Ends st fun r st' =>
      Abandons st (r.map Outcome.signal) st') ∧
    ∀ w key p s, (∀ x ∈ p.labels, x.2.tag.Graceful) →
      ((e.activation (e.runEntity depth) w key).exec p s).Ends st fun r st' =>
        Abandons st (r.map Outcome.signal) st' := by
  constructor
  · intro key s
    have hw := e.activation_walk depth st.world key key s st
    obtain ⟨hy, hr⟩ := hw.yields ⟨hreg, hmade, hpos⟩ trivial
    refine (hy _ (hw.kept hpos).size.le).abandons fun h => ?_
    cases ha : st.chain.aborting with
    | false => exact .inl (hr ha h)
    | true => exact hw.passed_entity ha
  · intro w key p s hp
    have hw := Activation.exec_walk (e.activation_walk depth w key) p s st
    obtain ⟨hy, hr⟩ := hw.yields ⟨hreg, hmade, hpos⟩ hp
    refine (hy _ (hw.kept hpos).size.le).abandons fun h => ?_
    cases ha : st.chain.aborting with
    | false => exact .inl (hr ha h)
    | true => exact .inl (hw.passed ha).1

/-- The run is given up by an entity that is called inside a branch inside a data tag. Neither the
rest of that entity nor the rest of its caller runs, and `x` is never bound. -/
theorem abort_ends_quietly_nested :
    let e := Engine.ofSettings Builtin.registry .template {}
    let w : World := (({} : World).registerMemory 0 "other"
      "<scenario><exit/><log>no</log></scenario>" true).registerMemory 0 "main"
      "<scenario><data id=\"x\"><if test=\"${true}\"><other/></if></data><log/></scenario>" true
    let st : RunState := (⟨w, {}⟩ : RunState).loading e.setup "main" |>.opened Arena.root
    let q := (e.runEntity 10 0 1).on st
    e.setup.registry.Makes Tag.Graceful Tag.Graceful ∧
      st.world.Made Tag.Graceful Tag.Graceful ∧ 0 < st.scopes.size ∧
      (q.2.entries.any Entry.isAborted) = true ∧ Abandons st (q.1.map Outcome.signal) q.2 := by
  intro e w st q
  have hmade : st.world.Made Tag.Graceful Tag.Graceful :=
    Setup.load_made Builtin.registry_graceful "main" (World.programs_of_none rfl)
  have hpos : 0 < st.scopes.size := by decide
  exact ⟨Builtin.registry_graceful, hmade, hpos, by decide +kernel,
    (abort_ends_quietly e Builtin.registry_graceful 10 st hmade hpos).1 0 1⟩

end Engine

end Scenario
