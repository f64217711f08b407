import Scenario.Proofs.Frames
import Mathlib.Data.List.Nodup

/-!
# After a return

A return is noted in the scope of the entity and travels outwards as a signal. This module says
what an activation of an entity made from the built-in tags can still do after that. No instruction
begins any more, since each one first looks at the scope of its entity (`Walk.blocked`). But the
call of a resource does not look at the signal of its own parameters: a return among them does not
keep the resource from being called, and what was called swallows the signal on the way out. So

* unless a call of a resource is open, nothing is called after the return and the signal arrives;
* otherwise that resource is called, whatever it is.

`Invoking p pre` is this condition, read off the journal: of the instructions that have begun in
`pre` and not ended, one calls a resource. **`Walk.heeds`** proves both cases by induction on the
walk.
-/

namespace Scenario

/-! ### Signals -/

theorem Stirs.aborting_eq {act : Activation} {s : ScopeId} {st st' : RunState}
    (h : Stirs act s st st') : st'.chain.aborting = st.chain.aborting := by
  induction h with
  | refl => rfl
  | tail _ h ih => cases h <;> exact ih

theorem Binds.aborting_eq {act : Activation} {i : Instruction} {s : ScopeId} {st st' : RunState}
    (h : Binds act i s st st') : st'.chain.aborting = st.chain.aborting := by
  cases h <;> rfl

/-- What is to be shown of a task: unless it ends with the signal of giving up, the run has not been
given up meanwhile. A bean in the middle of its action has no signal yet. -/
def Task.Persists (st : RunState) (o : Ending) (st' : RunState) : Task → Prop
  | .deed _ _ => True
  | _ => st.chain.aborting = false → ∀ sig, o = .ok sig → sig ≠ .abort → st'.chain.aborting = false

theorem Walk.persists {act : Activation} {task : Task} {t : ScopeId} {st st' : RunState}
    {o : Ending} (h : Walk act task t st o st') : task.Persists st o st' := by
  induction h with
  | nil | pass | empty => exact fun h _ _ _ => h
  | done | fail | deed | again | unfound | summon => trivial
  | next _ _ ih ih' => exact fun h => ih' (ih h .none rfl (by decide))
  | stop _ _ ih | node _ _ ih | take _ _ ih | halt _ _ _ ih | root _ ih => exact ih
  | fallback _ _ _ _ _ ih => exact ih
  | blamed | refuse | misfit | missing | tooDeep => rintro _ _ ⟨⟩
  | alone hst _ => exact fun h _ _ _ => hst.aborting_eq.trans h
  | inside _ _ hst _ ih => exact fun h => ih (hst.aborting_eq.trans h)
  | settle _ hst ih => exact fun h sig ho hsig => hst.aborting_eq.trans (ih h sig ho hsig)
  | bind _ _ hb ih => exact fun h sig ho hsig => hb.aborting_eq.trans (ih h sig ho hsig)
  | @call act _ _ _ st _ st₂ _ _ o _ _ _ _ _ =>
    -- the signal of a bean is read off the chain
    intro _ sig ho hsig
    cases o with
    | error e => cases ho
    | ok _ =>
      cases ho
      by_contra hc
      have habort : st₂.chain.aborting = true := Bool.of_not_eq_false hc
      exact hsig (if_pos habort)
  | invoke _ _ hsig _ _ ih ih' => exact fun h => ih' (ih h _ rfl hsig)
  | @activate _ _ _ _ _ _ o _ _ ih =>
    intro h sig ho hsig
    cases o with
    | error e => cases ho
    | ok sig' =>
      refine ih h sig' rfl ?_
      rintro rfl
      cases ho
      exact hsig rfl

theorem Activation.not_aborting_of_free {act : Activation} {c : Chain} {t : ScopeId}
    (h : act.blocked? c t = none) : c.aborting = false := by
  unfold Activation.blocked? at h
  by_contra ha
  rw [if_pos (Bool.of_not_eq_false ha)] at h
  cases h

/-- Where an entity has returned, its instructions are kept from starting. -/
theorem Activation.blocked_of_returning {act : Activation} {c : Chain} {s t : ScopeId}
    (hs : Arena.Home act.entity s t c.scopes) (hstack : c.stack ≠ [])
    (hf : c.scopes.returning s = true) : ∃ sig, act.blocked? c t = some sig ∧ sig ≠ .none := by
  unfold Activation.blocked?
  by_cases ha : c.aborting = true
  · exact ⟨.abort, if_pos ha, by decide⟩
  · refine ⟨.return, ?_, by decide⟩
    rw [if_neg ha, hs.found]
    simp [hstack, hf]

/-- Programs that are kept from starting change nothing. -/
theorem Walk.blocked {act : Activation} {ts : List Program} {t : ScopeId} {st st' : RunState}
    {o : Ending} {sig : Signal} (h : Walk act (.all ts) t st o st')
    (hb : act.blocked? st.chain t = some sig) (hsig : sig ≠ .none) : st' = st := by
  have one : ∀ {p o st'}, Walk act (.one p) t st o st' → o = .ok sig ∧ st' = st := by
    intro p o st' hw
    cases hw with
    | pass hb' => exact ⟨by rw [Option.some.inj (hb'.symm.trans hb)], rfl⟩
    | node hb' _ => cases hb'.symm.trans hb
    | blamed hb' _ _ _ => cases hb'.symm.trans hb
  cases h with
  | nil => rfl
  | next hw _ => exact absurd (Except.ok.inj (one hw).1).symm hsig
  | stop hw _ => exact (one hw).2

/-! ### Open instructions -/

/-- The instructions that are open after an entry, innermost first. -/
def Entry.openAfter (ms : List Moment) : Entry → List Moment
  | .event (.tagEntry m) => m :: ms
  | .event (.tagExit _) => ms.tail
  | _ => ms

/-- The instructions that are open after some entries, innermost first. -/
def openAfter (ms : List Moment) (es : List Entry) : List Moment := es.foldl Entry.openAfter ms

theorem openAfter_append (ms : List Moment) (es fs : List Entry) :
    openAfter ms (es ++ fs) = openAfter (openAfter ms es) fs := by
  simp [openAfter]

/-- Whether an entry says that the entity of a scope has returned. -/
def Entry.returns (s : ScopeId) : Entry → Bool
  | .returned h => h == s
  | _ => false

theorem Entry.eq_of_returns {s : ScopeId} {x : Entry} (h : x.returns s = true) :
    x = .returned s := by
  cases x with
  | returned k => exact congrArg Entry.returned (eq_of_beq h)
  | _ => cases h

/-- Entries that close the instructions they open and no other ones. -/
structure Balanced (xs : List Entry) : Prop where
  closed : ∀ ms, openAfter ms xs = ms
  lift : ∀ pre post, xs = pre ++ post → ∀ ms, openAfter ms pre = openAfter [] pre ++ ms

namespace Balanced

variable {xs ys : List Entry}

theorem nil : Balanced [] where
  closed _ := rfl
  lift pre post h ms := by
    obtain ⟨rfl, -⟩ := List.append_eq_nil_iff.1 h.symm
    rfl

theorem single {e : Entry} (h : ∀ ms, e.openAfter ms = ms) : Balanced [e] where
  closed := h
  lift pre post hsplit ms := by
    obtain ⟨rfl, -⟩ | ⟨rfl, -⟩ := List.append_eq_singleton_iff.1 hsplit.symm
    · rfl
    · simp [openAfter, h]

theorem append (hx : Balanced xs) (hy : Balanced ys) : Balanced (xs ++ ys) where
  closed ms := by rw [openAfter_append, hx.closed, hy.closed]
  lift pre post hsplit ms := by
    obtain ⟨zs, rfl, hz⟩ | ⟨zs, hz, -⟩ := List.append_eq_append_iff.1 hsplit
    · rw [openAfter_append, openAfter_append, hx.closed, hx.closed, hy.lift zs post hz]
    · exact hx.lift pre zs hz ms

/-- Inside an instruction the ones around it stay open. -/
theorem tag {m m' : Moment} (hx : Balanced xs) :
    Balanced (.event (.tagEntry m) :: xs ++ [.event (.tagExit m')]) := by
  have entry : ∀ ms zs, openAfter ms (.event (.tagEntry m) :: zs) = openAfter (m :: ms) zs :=
    fun _ _ => rfl
  have whole : ∀ ms,
      openAfter ms (.event (.tagEntry m) :: (xs ++ [.event (.tagExit m')])) = ms := by
    intro ms
    rw [entry, openAfter_append, hx.closed]
    rfl
  refine ⟨whole, fun pre post hsplit ms => ?_⟩
  obtain ⟨rfl, -⟩ | ⟨pre, rfl, hrest⟩ := List.cons_eq_append_iff.1 hsplit
  · rfl
  · obtain ⟨zs, rfl, hz⟩ | ⟨zs, hz, -⟩ := List.append_eq_append_iff.1 hrest
    · obtain ⟨rfl, -⟩ | ⟨rfl, -⟩ := List.append_eq_singleton_iff.1 hz.symm
      · rw [List.append_nil, entry, entry, hx.closed, hx.closed, List.singleton_append]
      · rw [whole, whole, List.nil_append]
    · rw [entry, entry, hx.lift pre zs hz (m :: ms), hx.lift pre zs hz [m], List.append_assoc,
        List.singleton_append]

end Balanced

/-- Every layer of nested entries is balanced. -/
theorem Nested.balanced_layer {es : List Entry} (h : Nested es) (n d : Nat) :
    Balanced (layer n d es) := by
  have one : ∀ {e : Entry} (d : Nat), (∀ ms, e.openAfter ms = ms) → Balanced (layer n d [e]) := by
    intro e d he
    by_cases hd : min d (e.depthAfter d) = n
    · simpa [layer, hd] using Balanced.single he
    · simpa [layer, hd] using Balanced.nil
  induction h generalizing d with
  | nil => exact .nil
  | @other e he =>
    refine one d fun ms => ?_
    cases e with
    | event _ => cases he
    | _ => rfl
  | @pair a b es hab hn ih =>
    rw [hn.layer_pair]
    obtain ⟨_, _, rfl, rfl⟩ | ⟨_, _, _, _, _, _, rfl, rfl⟩ | ⟨_, _, rfl, rfl⟩ := hab.kinds
    · exact ((one _ fun _ => rfl).append (ih _)).append (one _ fun _ => rfl)
    · exact ((one _ fun _ => rfl).append (ih _)).append (one _ fun _ => rfl)
    · by_cases hd : d = n
      · simpa [layer, Entry.depthAfter, hd] using (ih n).tag
      · simpa [layer, Entry.depthAfter, hd] using ih d
  | append hn _ ih ih' =>
    rw [hn.layer_append]
    exact (ih d).append (ih' d)

theorem Did.balanced {n : Nat} {st st' : RunState} {xs : List Entry} (h : Did n st st' xs) :
    Balanced xs := by
  obtain ⟨es, -, hn, rfl⟩ := h
  exact hn.balanced_layer n 0

/-- Whether a tag calls a resource. -/
def Tag.invokes : Tag → Bool
  | .invoke _ => true
  | _ => false

theorem Tag.invokes_of_encloses {t : Tag} (h : t.encloses = true) : t.invokes = false := by
  cases t with
  | invoke _ => cases h
  | _ => rfl

/-- An instruction of a program calls a resource. -/
def Program.Invokes (p : Program) (n : NodeId) : Prop :=
  ∃ i, (n, i) ∈ p.labels ∧ i.tag.invokes = true

/-- After some entries a call of a resource is open. -/
def Invoking (p : Program) (pre : List Entry) : Prop := ∃ m ∈ openAfter [] pre, p.Invokes m.node

/-- What came before and is closed does not matter. -/
theorem invoking_append {p : Program} {xs pre : List Entry} (hx : Balanced xs) :
    Invoking p (xs ++ pre) ↔ Invoking p pre := by
  rw [Invoking, Invoking, openAfter_append, hx.closed]

/-- In a program whose instructions have places of their own the place tells the instruction. -/
theorem Made.invokes_iff {root inner : Tag → Prop} {p : Program} (hp : Made root inner p)
    {n : NodeId} {i : Instruction} (hi : (n, i) ∈ p.labels) :
    p.Invokes n ↔ i.tag.invokes = true := by
  constructor
  · rintro ⟨i', hi', ht⟩
    obtain rfl : i' = i := congrArg Prod.snd (List.inj_on_of_nodup_map hp.distinct hi' hi rfl)
    exact ht
  · exact fun ht => ⟨i, hi, ht⟩

/-- Inside an instruction a call is open if one is open further inside or the instruction is one. -/
theorem invoking_tag {p : Program} {m : Moment} {pre post : List Entry}
    (hx : Balanced (pre ++ post)) :
    Invoking p (.event (.tagEntry m) :: pre) ↔ p.Invokes m.node ∨ Invoking p pre := by
  have h : openAfter [] (.event (.tagEntry m) :: pre) = openAfter [] pre ++ [m] :=
    hx.lift pre post rfl [m]
  simp only [Invoking, h, List.mem_append, List.mem_singleton]
  constructor
  · rintro ⟨m', hm | rfl, hi⟩
    · exact .inr ⟨m', hm, hi⟩
    · exact .inl hi
  · rintro (hi | ⟨m', hm, hi⟩)
    · exact ⟨m, .inr rfl, hi⟩
    · exact ⟨m', .inl hm, hi⟩

/-! ### The law -/

/-- What is done after a return. No instruction begins. Unless a call of a resource is open,
nothing is called and the signal of the return arrives; otherwise a resource is called, if there is
no error. `inv` tells that such a call is open around all entries. -/
structure AfterReturn (p : Program) (inv : Prop) (o : Ending) (pre post : List Entry) : Prop where
  noTag : ∀ m, Entry.event (.tagEntry m) ∉ post
  noCall : ¬ (inv ∨ Invoking p pre) →
    (∀ b fs, Entry.call b fs ∉ post) ∧ ∀ k n q, Entry.event (.entityEntry k n q) ∉ post
  signal : ¬ (inv ∨ Invoking p pre) → ∀ sig, o = .ok sig → sig = .return
  called : inv ∨ Invoking p pre → ∀ sig, o = .ok sig →
    ∃ k n q, Entry.event (.entityEntry k n q) ∈ post

namespace AfterReturn

variable {p : Program} {inv inv' : Prop} {o : Ending} {pre pre' post ys : List Entry}

theorem congr (h : AfterReturn p inv o pre post)
    (hinv : inv' ∨ Invoking p pre' ↔ inv ∨ Invoking p pre) : AfterReturn p inv' o pre' post :=
  ⟨h.noTag, fun hn => h.noCall (hinv.not.1 hn), fun hn => h.signal (hinv.not.1 hn),
    fun hi => h.called (hinv.1 hi)⟩

/-- Entries that begin and call nothing do not matter. -/
theorem append (h : AfterReturn p inv o pre post) (hm : ∀ m, Entry.event (.tagEntry m) ∉ ys)
    (hc : ∀ b fs, Entry.call b fs ∉ ys) (he : ∀ k n q, Entry.event (.entityEntry k n q) ∉ ys) :
    AfterReturn p inv o pre (post ++ ys) where
  noTag m := by simpa using ⟨h.noTag m, hm m⟩
  noCall hn :=
    ⟨fun b fs => by simpa using ⟨(h.noCall hn).1 b fs, hc b fs⟩,
      fun k n q => by simpa using ⟨(h.noCall hn).2 k n q, he k n q⟩⟩
  signal := h.signal
  called hi sig ho := by
    obtain ⟨k, n, q, hmem⟩ := h.called hi sig ho
    exact ⟨k, n, q, List.mem_append_left ys hmem⟩

/-- After an error only the prohibitions remain. -/
theorem error {e : EngineError} (h : AfterReturn p inv o pre post) (hinv : inv → inv') :
    AfterReturn p inv' (.error e) pre post where
  noTag := h.noTag
  noCall hn := h.noCall fun hi => hn (hi.imp_left hinv)
  signal := by rintro _ _ ⟨⟩
  called := by rintro _ _ ⟨⟩

/-- Where the signal of the return does not arrive, a call was open. -/
theorem invoking {sig : Signal} (h : AfterReturn p False (.ok sig) pre post)
    (hsig : sig ≠ .return) : Invoking p pre := by
  by_contra hi
  exact hsig (h.signal (by simpa using hi) sig rfl)

/-- A call is open, and it was made. -/
theorem of_called (hm : ∀ m, Entry.event (.tagEntry m) ∉ post) (hi : inv ∨ Invoking p pre)
    (hc : ∃ k n q, Entry.event (.entityEntry k n q) ∈ post) : AfterReturn p inv o pre post :=
  ⟨hm, fun hn => absurd hi hn, fun hn => absurd hi hn, fun _ _ _ => hc⟩

end AfterReturn

/-- Whatever was done after a return is as it has to be. -/
def Obeys (p : Program) (inv : Prop) (o : Ending) (xs : List Entry) : Prop :=
  ∀ pre h post, xs = pre ++ .returned h :: post → AfterReturn p inv o pre post

/-- Without a return there is nothing to obey. -/
theorem obeys_of_silent {p : Program} {inv : Prop} {o : Ending} {xs : List Entry}
    (h : ∀ s, Entry.returned s ∉ xs) : Obeys p inv o xs := by
  rintro pre s post rfl
  exact absurd (by simp) (h s)

/-- A bean makes no calls; where it returns, no call is open. -/
theorem obeys_of_plain {p : Program} {o : Ending} {xs : List Entry}
    (hx : ∀ x ∈ xs, x.isEvent = false ∧ ∀ b fs, x ≠ .call b fs)
    (ho : (∃ s, Entry.returned s ∈ xs) → ∀ sig, o = .ok sig → sig = .return) :
    Obeys p False o xs := by
  rintro pre s post rfl
  simp only [List.mem_append, List.mem_cons] at hx
  have hopen : ¬ (False ∨ Invoking p pre) := by
    have hpre : ∀ x ∈ pre, x.isEvent = false := fun x hm => (hx x (.inl hm)).1
    have hb : Balanced pre := layer_zero_of_others hpre ▸ (nested_of_others hpre).balanced_layer 0 0
    rintro (h | ⟨m, hm, -⟩)
    · exact h
    · rw [hb.closed] at hm
      cases hm
  have noEvent : ∀ e, Entry.event e ∉ post := by
    intro e hm
    cases (hx _ (.inr (.inr hm))).1
  refine ⟨fun m => noEvent _, fun _ => ⟨fun b fs hm => ?_, fun k n q => noEvent _⟩, fun _ => ?_,
    fun h => absurd h hopen⟩
  · exact (hx _ (.inr (.inr hm))).2 b fs rfl
  · exact ho ⟨s, by simp⟩

theorem Obeys.append {p : Program} {inv : Prop} {o : Ending} {xs ys : List Entry}
    (hx : Balanced xs) (h : ∀ pre s post, xs = pre ++ .returned s :: post →
      AfterReturn p inv o pre (post ++ ys)) (h' : Obeys p inv o ys) : Obeys p inv o (xs ++ ys) := by
  intro pre s post hsplit
  obtain ⟨zs, rfl, hz⟩ | ⟨zs, hz, hpost⟩ := List.append_eq_append_iff.1 hsplit
  · exact (h' zs s post hz).congr (or_congr_right (invoking_append hx))
  · obtain ⟨rfl, hy⟩ | ⟨zs, rfl, rfl⟩ := List.cons_eq_append_iff.1 hpost
    · -- the return is the first of the later entries
      rw [List.append_nil] at hz
      subst hz
      have hnil : Invoking p (xs ++ []) ↔ Invoking p [] := invoking_append hx
      rw [List.append_nil] at hnil
      exact (h' [] s post hy).congr (or_congr_right hnil)
    · exact h pre s zs hz

/-- Between the states nothing happened but in the log, and whether the entity of a scope has
returned is as before. -/
structure Quiet (s : ScopeId) (st st' : RunState) : Prop where
  did : ∃ xs, Did 0 st st' xs ∧ ∀ x ∈ xs, x.Idle
  flag : st'.scopes.returning s = st.scopes.returning s

namespace Quiet

variable {act : Activation} {s t : ScopeId} {st st₁ : RunState}

theorem of_entries_eq (he : st₁.entries = st.entries)
    (hf : st₁.scopes.frame s = st.scopes.frame s) : Quiet s st st₁ :=
  ⟨⟨[], .of_entries_eq he, by simp⟩, congrArg Frame.returning hf⟩

theorem stirs (h : Stirs act t st st₁) : Quiet s st st₁ := by
  obtain ⟨xs, hx, ha⟩ := Did.stirs h
  refine ⟨⟨xs, hx, fun x hm => (ha x hm).idle⟩, ?_⟩
  clear hx ha
  induction h with
  | refl => rfl
  | tail _ h ih =>
    rw [← ih]
    cases h with
    | branch ran => exact Arena.returning_setInternal _ t _ _ s
    | _ => rfl

theorem bound (st : RunState) (t : ScopeId) (b : Binding) : Quiet s st (st.bound t b) :=
  ⟨⟨_, .bound st t b, by simp [Entry.Idle]⟩,
    Arena.returning_replace _ t b.id b.origin b.value s⟩

theorem binds {i : Instruction} (h : Binds act i t st st₁) : Quiet s st st₁ := by
  cases h with
  | result b _ => exact bound st _ b
  | parameter b _ => exact bound st t b

theorem opened (st : RunState) (t : ScopeId) (hs : s < st.scopes.size) : Quiet s st (st.opened t) :=
  of_entries_eq rfl (Arena.frame_enter (Nat.ne_of_lt hs))

theorem left (st : RunState) (hs : s < t) : Quiet s st (st.left t) :=
  of_entries_eq rfl (Arena.frame_leave hs)

end Quiet

/-- What an activation with a home scope did after a return is as it has to be, and that it returned
is noted in the scope. -/
structure Heeds (p : Program) (inv : Prop) (s : ScopeId) (st : RunState) (o : Ending)
    (st' : RunState) : Prop where
  did : ∃ xs, Did 0 st st' xs ∧ Obeys p inv o xs ∧
    ∀ h, Entry.returned h ∈ xs → st'.scopes.returning s = true
  flag : st.scopes.returning s = true → st'.scopes.returning s = true

theorem Entry.Idle.not_mem {xs : List Entry} (h : ∀ x ∈ xs, x.Idle) :
    (∀ s, Entry.returned s ∉ xs) ∧ (∀ m, Entry.event (.tagEntry m) ∉ xs) ∧
      (∀ b fs, Entry.call b fs ∉ xs) ∧ ∀ k n q, Entry.event (.entityEntry k n q) ∉ xs :=
  ⟨fun _ hm => h _ hm, fun _ hm => h _ hm, fun _ _ hm => h _ hm, fun _ _ _ hm => h _ hm⟩

namespace Heeds

variable {act : Activation} {p : Program} {inv inv' : Prop} {s t : ScopeId}
  {st st₁ st₂ : RunState} {o : Ending}

theorem of_quiet (h : Quiet s st st₁) : Heeds p inv s st o st₁ := by
  obtain ⟨xs, hx, hi⟩ := h.did
  obtain ⟨hr, -⟩ := Entry.Idle.not_mem hi
  exact ⟨⟨xs, hx, obeys_of_silent hr, fun h hm => absurd hm (hr h)⟩, fun hf => h.flag.trans hf⟩

theorem refl (p : Program) (inv : Prop) (s : ScopeId) (st : RunState) (o : Ending) :
    Heeds p inv s st o st := of_quiet (.of_entries_eq rfl rfl)

theorem congr (h : Heeds p inv s st o st₁) (hinv : inv' ↔ inv) : Heeds p inv' s st o st₁ := by
  obtain ⟨xs, hx, hobey, hflag⟩ := h.did
  exact ⟨⟨xs, hx, fun pre s post hsplit => (hobey pre s post hsplit).congr (or_congr_left hinv),
    hflag⟩, h.flag⟩

/-- Something quiet comes first. -/
theorem before (hq : Quiet s st st₁) (h : Heeds p inv s st₁ o st₂) : Heeds p inv s st o st₂ := by
  obtain ⟨xs, hx, hi⟩ := hq.did
  obtain ⟨ys, hy, hobey, hflag⟩ := h.did
  obtain ⟨hr, -⟩ := Entry.Idle.not_mem hi
  refine ⟨⟨xs ++ ys, hx.trans hy, .append hx.balanced ?_ hobey, fun k hm => ?_⟩, fun hf =>
    h.flag (hq.flag.trans hf)⟩
  · rintro pre k post rfl
    exact absurd (by simp) (hr k)
  · obtain hm | hm := List.mem_append.1 hm
    · exact absurd hm (hr k)
    · exact hflag k hm

/-- Something quiet comes last. -/
theorem after (h : Heeds p inv s st o st₁) (hq : Quiet s st₁ st₂) : Heeds p inv s st o st₂ := by
  obtain ⟨xs, hx, hobey, hflag⟩ := h.did
  obtain ⟨ys, hy, hi⟩ := hq.did
  obtain ⟨hr, hm, hc, he⟩ := Entry.Idle.not_mem hi
  refine ⟨⟨xs ++ ys, hx.trans hy, .append hx.balanced ?_ (obeys_of_silent hr), fun k hmem => ?_⟩,
    fun hf => hq.flag.trans (h.flag hf)⟩
  · intro pre k post hsplit
    exact (hobey pre k post hsplit).append hm hc he
  · obtain hmem | hmem := List.mem_append.1 hmem
    · exact hq.flag.trans (hflag k hmem)
    · exact absurd hmem (hr k)

/-- What was done is turned into an error. -/
theorem error {e : EngineError} (h : Heeds p inv s st o st₁)
    (hinv : inv → inv') : Heeds p inv' s st (.error e) st₁ := by
  obtain ⟨xs, hx, hobey, hflag⟩ := h.did
  exact ⟨⟨xs, hx, fun pre k post hsplit => (hobey pre k post hsplit).error hinv, hflag⟩, h.flag⟩

/-- Programs run one after the other. Where the first one has returned, the second one is kept from
starting. -/
theorem next (h : Heeds p False s st (.ok .none) st₁) (h' : Heeds p False s st₁ o st₂)
    (hb : st₁.scopes.returning s = true → st₂ = st₁) : Heeds p False s st o st₂ := by
  obtain ⟨xs, hx, hobey, hflag⟩ := h.did
  obtain ⟨ys, hy, hobey', hflag'⟩ := h'.did
  refine ⟨⟨xs ++ ys, hx.trans hy, .append hx.balanced ?_ hobey', fun k hm => ?_⟩, fun hf =>
    h'.flag (h.flag hf)⟩
  · intro pre k post hsplit
    have hstill : st₂ = st₁ := hb (hflag k (by simp [hsplit]))
    obtain rfl : ys = [] := hy.unique (hstill ▸ .refl 0 st₁)
    rw [List.append_nil]
    have hret := hobey pre k post hsplit
    have hopen := hret.invoking (by decide)
    exact .of_called hret.noTag (.inr hopen) (hret.called (.inr hopen) .none rfl)
  · obtain hm | hm := List.mem_append.1 hm
    · exact h'.flag (hflag k hm)
    · exact hflag' k hm

/-- An instruction that has begun and ended. -/
theorem tag {id : NodeId} {i : Instruction} (hk : Kept (act.begun id i t st) st₁)
    (hinv : p.Invokes id ↔ inv) (h : Heeds p inv s (act.begun id i t st) o st₁) :
    Heeds p False s st o (act.ended id i t st₁) := by
  obtain ⟨xs, hx, hobey, hflag⟩ := h.did
  refine ⟨⟨_, .tag hk hx, fun pre k post hsplit => ?_, fun k hm => hflag k ?_⟩, h.flag⟩
  · obtain ⟨rfl, h⟩ | ⟨pre, rfl, hrest⟩ := List.cons_eq_append_iff.1 hsplit
    · cases h
    · obtain ⟨zs, rfl, hz⟩ | ⟨zs, hz, hpost⟩ := List.append_eq_append_iff.1 hrest
      · obtain ⟨rfl, h⟩ | ⟨rfl, h⟩ := List.append_eq_singleton_iff.1 hz.symm <;> cases h
      · obtain ⟨rfl, h⟩ | ⟨zs, rfl, rfl⟩ := List.cons_eq_append_iff.1 hpost
        · cases h
        · have hbal : Balanced (pre ++ .returned k :: zs) := hz ▸ hx.balanced
          have hopen :=
            invoking_tag (p := p) (m := act.moment id i (act.begun id i t st).chain t) hbal
          refine ((hobey pre k zs hz).congr ?_).append (by simp) (by simp) (by simp)
          rw [hopen, false_or, ← hinv]
          rfl
  · simpa using hm

/-- A scope of one's own. -/
theorem child (hs : s < st.scopes.size) (h : Heeds p inv s (st.opened t) o st₁) :
    Heeds p inv s st o (st₁.left st.scopes.size) :=
  .before (.opened st t hs) (h.after (.left st₁ hs))

/-- The parameters of a call kept it from being made. -/
theorem halted (h : Heeds p False s st o st₁) (ho : ∀ sig, o = .ok sig → sig ≠ .return)
    (inv : Prop) : Heeds p inv s st o st₁ := by
  obtain ⟨xs, hx, hobey, hflag⟩ := h.did
  refine ⟨⟨xs, hx, fun pre k post hsplit => ?_, hflag⟩, h.flag⟩
  have hret := hobey pre k post hsplit
  cases o with
  | error e => exact hret.error False.elim
  | ok sig =>
    have hopen := hret.invoking (ho sig rfl)
    exact .of_called hret.noTag (.inr hopen) (hret.called (.inr hopen) sig rfl)

/-- A bean was called with its parameters. If they let the call be made after a return, a call of a
resource was open. -/
theorem call {b : String} {fs : Fields} {ys : List Entry}
    (h : Heeds p False s st (.ok .none) st₁) (hy : Did 0 (st₁.log [.call b fs]) st₂ ys)
    (hplain : ∀ y ∈ ys, y.isEvent = false ∧ ∀ b fs, y ≠ .call b fs)
    (hflag : ∀ k, Entry.returned k ∈ ys → st₂.scopes.returning s = true)
    (hkeep : st₁.scopes.returning s = true → st₂.scopes.returning s = true)
    (ho : (∃ k, Entry.returned k ∈ ys) → ∀ sig, o = .ok sig → sig = .return) :
    Heeds p False s st o st₂ := by
  obtain ⟨xs, hx, hobey, hflag'⟩ := h.did
  have hcall : Did 0 st₁ (st₁.log [.call b fs]) [.call b fs] := .log rfl st₁
  have hlast : Obeys p False o ([.call b fs] ++ ys) :=
    .append hcall.balanced (fun pre k post hsplit => by
      obtain ⟨-, h⟩ | ⟨-, h⟩ := List.append_eq_singleton_iff.1 hsplit.symm <;> cases h)
      (obeys_of_plain hplain ho)
  refine ⟨⟨xs ++ ([.call b fs] ++ ys), hx.trans (hcall.trans hy), .append hx.balanced ?_ hlast,
    fun k hm => ?_⟩, fun hf => hkeep (h.flag hf)⟩
  · intro pre k post hsplit
    have hret := hobey pre k post hsplit
    have hopen := hret.invoking (by decide)
    obtain ⟨k', n, q, hmem⟩ := hret.called (.inr hopen) .none rfl
    refine .of_called (fun m hm => ?_) (.inr hopen) ⟨k', n, q, List.mem_append_left _ hmem⟩
    simp only [List.singleton_append, List.mem_append, List.mem_cons, reduceCtorEq, false_or] at hm
    obtain hm | hm := hm
    · exact hret.noTag m hm
    · cases (hplain _ hm).1
  · simp only [List.singleton_append, List.mem_append, List.mem_cons, reduceCtorEq, false_or] at hm
    obtain hm | hm := hm
    · exact hkeep (hflag' k hm)
    · exact hflag k hm

/-- The entity of a resource was run, whatever the parameters did. -/
theorem invoke {key : EntityKey} {sig : Signal} (h : Heeds p False s st (.ok sig) st₁)
    (hw : Walk act (.entity key) t st₁ o st₂) (ht : t < st₁.scopes.size) (hs : s ≠ t) (hinv : inv) :
    Heeds p inv s st o st₂ := by
  obtain ⟨xs, hx, hobey, hflag⟩ := h.did
  have hkeep : st₂.scopes.returning s = st₁.scopes.returning s :=
    congrArg Frame.returning ((hw.tame ht).frame s hs)
  obtain ⟨rfl, hd⟩ | ⟨name, q, q', hd⟩ := hw.did_entity (Nat.zero_lt_of_lt ht)
  · refine ⟨⟨xs ++ [], hx.trans hd, fun pre k post hsplit => ?_, fun k hm => ?_⟩, fun hf =>
      hkeep.trans (h.flag hf)⟩
    · exact (hobey pre k post (by simpa using hsplit)).error False.elim
    · exact hkeep.trans (hflag k (by simpa using hm))
  · refine ⟨⟨_, hx.trans hd, .append hx.balanced ?_ (obeys_of_silent (by simp)), fun k hm => ?_⟩,
      fun hf => hkeep.trans (h.flag hf)⟩
    · intro pre k post hsplit
      have hret := hobey pre k post hsplit
      exact .of_called (fun m => by simpa using hret.noTag m) (.inl hinv) ⟨key, name, q, by simp⟩
    · exact hkeep.trans (hflag k (by simpa using hm))

end Heeds

/-! ### The built-in beans -/

namespace Builtin

variable {act : Activation} {fs : Fields} {ts : List Program} {t : ScopeId} {st st' : RunState}
  {o : Ending}

theorem walk_log (h : Walk act (.deed (log.act fs) ts) t st o st') :
    o = .ok .none ∧ ∃ r, st' = st.log [.record r] := by
  obtain ⟨rfl, rfl⟩ := h.of_look.of_write.of_done
  exact ⟨rfl, _, rfl⟩

theorem walk_return (h : Walk act (.deed («return».act fs) ts) t st o st') :
    o = .ok .none ∧ ∃ r, st' = (((st.withResult (fs.value? "value")).mapScopes fun a =>
      a.setReturning (act.entityScope st.scopes t) true).log
        [.returned (act.entityScope st.scopes t)]).log [.record r] := by
  have hreturned := h.of_setResult.of_returnEntity
  obtain ⟨rfl, rfl⟩ := hreturned.of_look.of_write.of_done
  exact ⟨rfl, _, rfl⟩

theorem walk_exit (h : Walk act (.deed (exit.act fs) ts) t st o st') :
    o = .ok .none ∧ ∃ r a, st' = { st.log [.record r] with
      chain := { st.chain with aborting := true } }.log [.aborted a] := by
  obtain ⟨rfl, rfl⟩ := h.of_look.of_write.of_abort.of_done
  exact ⟨rfl, _, _, rfl⟩

/-- **What a built-in bean does.** It makes no calls. A return leaves its value, the other beans
leave what there was. If it returns, that is noted in the scope of the entity and the run goes on.
-/
theorem walk_bean {b : Bean} (hb : Inner (.bean b))
    (h : Walk act (.deed (b.act fs) ts) t st o st') :
    ∃ ys, Did 0 st st' ys ∧ (∀ y ∈ ys, y.isEvent = false ∧ ∀ n gs, y ≠ .call n gs) ∧
      st'.chain.result = (if b.typeName = "return" then fs.value? "value" else st.chain.result) ∧
      ∀ s, Arena.Home act.entity s t st.scopes →
        (∀ k, Entry.returned k ∈ ys →
          st'.scopes.returning s = true ∧ st'.chain.aborting = st.chain.aborting) ∧
        (st.scopes.returning s = true → st'.scopes.returning s = true) := by
  obtain rfl | rfl | rfl := hb
  · obtain ⟨-, r, rfl⟩ := walk_log h
    exact ⟨_, .log rfl st, by simp [Entry.isEvent], rfl, fun s _ => ⟨by simp, id⟩⟩
  · obtain ⟨-, r, rfl⟩ := walk_return h
    refine ⟨[.returned (act.entityScope st.scopes t), .record r],
      .others (by simp [Entry.isEvent]) ?_, by simp [Entry.isEvent], rfl, fun s hs => ?_⟩
    · rw [RunState.entries_log, RunState.entries_log, RunState.entries_mapScopes, List.append_assoc]
      rfl
    · rw [hs.entityScope_eq]
      have hflag : (st.scopes.setReturning s true).returning s = true :=
        congrArg Frame.returning (Arena.frame_modifyFrame_self _ hs.self.live)
      exact ⟨fun _ _ => ⟨hflag, rfl⟩, fun _ => hflag⟩
  · obtain ⟨-, r, a, rfl⟩ := walk_exit h
    refine ⟨[.record r, .aborted a], .others (by simp [Entry.isEvent]) ?_, by simp [Entry.isEvent],
      rfl, fun s _ => ⟨by simp, id⟩⟩
    rw [RunState.entries_log]
    exact (congrArg (· ++ [.aborted a]) (st.entries_log [.record r])).trans (List.append_assoc ..)

end Builtin

theorem Made.inner_of_mem {p : Program} (hp : Builtin.Built p) {x : NodeId × Instruction}
    (hx : x ∈ p.labels) (hs : x.2.tag ≠ .scenario) : Builtin.Inner x.2.tag := by
  cases p with
  | node a ts =>
    obtain rfl | hx := List.mem_cons.1 hx
    · exact absurd hp.tag hs
    · exact hp.below x hx

/-! ### Walks -/

/-- What is to be shown of a task of an activation that runs parts of a program. An instruction that
has begun was not kept from starting, and it is on the stack. -/
def Task.Heeding (p : Program) (act : Activation) (t : ScopeId) (st : RunState) (o : Ending)
    (st' : RunState) : Task → Prop
  | .all ts => (∀ x ∈ Tree.labelsAll ts, x ∈ p.labels) → st.chain.stack ≠ [] →
      ∀ s, Arena.Home act.entity s t st.scopes → Heeds p False s st o st'
  | .one q => (∀ x ∈ q.labels, x ∈ p.labels) →
      ∀ s, Arena.Home act.entity s t st.scopes → Heeds p False s st o st'
  | .body i ts => (∃ n, (n, i) ∈ p.labels) → (∀ x ∈ Tree.labelsAll ts, x ∈ p.labels) →
      st.chain.stack ≠ [] → st.chain.aborting = false →
      ∀ s, Arena.Home act.entity s t st.scopes →
        Heeds p (i.tag.invokes = true) s st o st'
  | _ => True

/-- The signal of a bean that returned, on a chain that is not given up. -/
theorem Activation.signal_eq_return {act : Activation} {s t : ScopeId} {st : RunState} {o : Ending}
    {sig : Signal} (hs : Arena.Home act.entity s t st.scopes)
    (hf : st.scopes.returning s = true) (ha : st.chain.aborting = false)
    (ho : (o.map fun _ => act.signalIn st.chain t) = .ok sig) : sig = .return := by
  cases o with
  | error e => cases ho
  | ok _ =>
    cases ho
    have hhome : act.entityScope st.chain.scopes t = s := hs.entityScope_eq
    rw [signalIn, ha, hhome]
    exact if_pos hf

namespace Task.Heeding

variable {p : Program} {act : Activation} {i : Instruction} {ts : List Program} {s t u : ScopeId}
  {st st₁ st₂ : RunState} {o : Ending}

theorem next {q : Program} {ps : List Program} (hw : Walk act (.one q) t st (.ok .none) st₁)
    (hw' : Walk act (.all ps) t st₁ o st₂) (h : (Task.one q).Heeding p act t st (.ok .none) st₁)
    (h' : (Task.all ps).Heeding p act t st₁ o st₂) :
    (Task.all (q :: ps)).Heeding p act t st o st₂ := by
  intro hl hstack s hs
  rw [Tree.labelsAll, List.forall_mem_append] at hl
  have hs₁ := hs.onlyIn (hw.tame s hs).scopes
  have hstack₁ : st₁.chain.stack ≠ [] := by
    rwa [(hw.kept (Nat.zero_lt_of_lt hs.live)).stack]
  refine (h hl.1 s hs).next (h' hl.2 hstack₁ s hs₁) fun hf => ?_
  obtain ⟨sig, hb, hsig⟩ := Activation.blocked_of_returning hs₁ hstack₁ hf
  exact hw'.blocked hb hsig

/-- An instruction that has begun. -/
theorem begun {id : NodeId} (hb : act.blocked? st.chain t = none)
    (h : (Task.body i ts).Heeding p act t (act.begun id i t st) o st₁)
    (hl : ∀ x ∈ (Tree.node (id, i) ts).labels, x ∈ p.labels)
    (hs : Arena.Home act.entity s t st.scopes) :
    Heeds p (i.tag.invokes = true) s (act.begun id i t st) o st₁ := by
  rw [Tree.labels, List.forall_mem_cons] at hl
  have hfree : st.chain.aborting = false := Activation.not_aborting_of_free hb
  exact h ⟨id, hl.1⟩ hl.2 (by simp [Activation.begun, RunState.withStack]) hfree s hs

theorem inside (hin : i.tag.encloses = true) (hu : u = act.childScope i.tag st.scopes t)
    (hst : Stirs act t st st₁) (h : (Task.all ts).Heeding p act u st₁ o st₂) :
    (Task.body i ts).Heeding p act t st o st₂ := by
  intro _ hl hstack _ s hs
  have hstack₁ : st₁.chain.stack ≠ [] := by rwa [(Kept.stirs hst).stack]
  rw [hu] at h
  have hbelow := h hl hstack₁ s (hs.below (Tame.stirs hst).scopes _)
  exact .before (.stirs hst) (hbelow.congr (by simp [Tag.invokes_of_encloses hin]))

theorem fallback {name id : String} (b : Binding) (htag : i.tag = .data name .entry true)
    (h : (Task.all ts).Heeding p act t (st.log [.vacant t id]) o st₁) :
    (Task.body i ts).Heeding p act t st o (st₁.bound (act.entityScope st₁.scopes t) b) := by
  intro _ hl hstack _ s hs
  have hlooked : Quiet s st (st.log [.vacant t id]) :=
    ⟨⟨_, .log rfl st, by simp [Entry.Idle]⟩, rfl⟩
  have hbound := (Heeds.before hlooked (h hl hstack s hs)).after
    (.bound st₁ (act.entityScope st₁.scopes t) b)
  exact hbound.congr (by simp [htag, Tag.invokes])

/-- The call of a resource is only kept back by giving up, not by a return. -/
theorem halt (h : (Task.all ts).Heeding p act st.scopes.size (st.opened t) o st₁)
    (ho : ∀ sig, o = .ok sig → i.tag.haltedBy sig = true) :
    (Task.body i ts).Heeding p act t st o (st₁.left st.scopes.size) := by
  intro _ hl hstack _ s hs
  have hparams := Heeds.child hs.self.live (h hl hstack s hs.enter)
  cases hi : i.tag with
  | invoke target =>
    refine hparams.halted (fun sig hsig => ?_) _
    have hhalt := ho sig hsig
    rintro rfl
    rw [hi] at hhalt
    cases hhalt
  | _ => exact hparams.congr (by simp [Tag.invokes])

/-- A bean is called. If it returns, the call ends with the signal for that. -/
theorem call (hp : Builtin.Built p) {b : Bean} {fs : Fields} (hi : i.tag = .bean b)
    (hw : Walk act (.all ts) st.scopes.size (st.opened t) (.ok .none) st₁)
    (h : (Task.all ts).Heeding p act st.scopes.size (st.opened t) (.ok .none) st₁)
    (hw' : Walk act (.deed (b.act fs) ts) st.scopes.size (st₁.log [.call b.typeName fs]) o st₂) :
    (Task.body i ts).Heeding p act t st
      (o.map fun _ => act.signalIn st₂.chain st.scopes.size) (st₂.left st.scopes.size) := by
  rintro ⟨n, hn⟩ hl hstack ha s hs
  have hb : Builtin.Inner (.bean b) := hi ▸ hp.inner_of_mem hn (by simp [hi])
  have hs₁ : Arena.Home act.entity s st.scopes.size (st₁.log [.call b.typeName fs]).scopes :=
    hs.enter.onlyIn (hw.tame s hs.enter).scopes
  have hs₂ := hs₁.onlyIn (hw'.tame s hs₁).scopes
  have ha₁ : st₁.chain.aborting = false := hw.persists ha .none rfl (by decide)
  obtain ⟨ys, hy, hplain, -, hflag⟩ := Builtin.walk_bean hb hw'
  obtain ⟨hret, hkeep⟩ := hflag s hs₁
  have hsig : (∃ k, Entry.returned k ∈ ys) → ∀ sig,
      (o.map fun _ => act.signalIn st₂.chain st.scopes.size) = .ok sig → sig = .return := by
    rintro ⟨k, hk⟩ sig ho
    obtain ⟨hf, ha₂⟩ := hret k hk
    exact Activation.signal_eq_return hs₂ hf (ha₂.trans ha₁) ho
  have hcalled := (h hl hstack s hs.enter).call hy hplain (fun k hk => (hret k hk).1) hkeep hsig
  exact (Heeds.child hs.self.live hcalled).congr (by simp [hi, Tag.invokes])

theorem invoke {target : String} {key : EntityKey} {sig : Signal} (hi : i.tag = .invoke target)
    (hw : Walk act (.all ts) st.scopes.size (st.opened t) (.ok sig) st₁)
    (h : (Task.all ts).Heeding p act st.scopes.size (st.opened t) (.ok sig) st₁)
    (hw' : Walk act (.entity key) st.scopes.size
      ((st₁.loading act.engine.setup target).withResult none) o st₂) :
    (Task.body i ts).Heeding p act t st o
      ((st₂.withResult st₁.chain.result).left st.scopes.size) := by
  intro _ hl hstack _ s hs
  have hs₁ := hs.enter.onlyIn (hw.tame s hs.enter).scopes
  have hload : Stirs act t st₁ (st₁.loading act.engine.setup target) := .single (.load target)
  have hparams : Heeds p False s (st.opened t) (.ok sig)
      ((st₁.loading act.engine.setup target).withResult none) :=
    ((h hl hstack s hs.enter).after (.stirs hload)).after (.of_entries_eq rfl rfl)
  have hinv : i.tag.invokes = true := by rw [hi]; rfl
  have hrun := hparams.invoke hw' hs₁.live (Nat.ne_of_lt hs.self.live) hinv
  exact .child hs.self.live (hrun.after (.of_entries_eq rfl rfl))

end Task.Heeding

theorem Walk.heeds {p : Program} (hp : Builtin.Built p) {act : Activation} {task : Task}
    {t : ScopeId} {st st' : RunState} {o : Ending} (h : Walk act task t st o st') :
    task.Heeding p act t st o st' := by
  induction h with
  | nil => exact fun _ _ s _ => .refl p False s _ _
  | pass => exact fun _ s _ => .refl p False s _ _
  | next hw hw' ih ih' => exact .next hw hw' ih ih'
  | stop _ _ ih =>
    intro hl _ s hs
    rw [Tree.labelsAll, List.forall_mem_append] at hl
    exact ih hl.1 s hs
  | @node act id i ts t st st₁ sig hb hw ih =>
    intro hl s hs
    have hk := hw.kept (Nat.zero_lt_of_lt hs.live)
    exact .tag hk (hp.invokes_iff (hl _ (by simp [Tree.labels]))) (ih.begun hb hl hs)
  | @blamed act id i ts t st st₁ st₂ e e' hb hw _ hst ih =>
    intro hl s hs
    have hk := (hw.kept (Nat.zero_lt_of_lt hs.live)).trans (.stirs hst)
    exact .tag hk (hp.invokes_iff (hl _ (by simp [Tree.labels])))
      (((ih.begun hb hl hs).error fun hi => hi).after (.stirs hst))
  | alone hst _ => exact fun _ _ _ _ s _ => .of_quiet (.stirs hst)
  | inside hin hu hst _ ih => exact .inside hin hu hst ih
  | take hi _ ih =>
    intro _ hl hstack _ s hs
    refine .after (.congr (ih hl hstack s hs) ?_) (.of_entries_eq rfl rfl)
    simp [hi, Tag.invokes]
  | settle _ hst ih =>
    exact fun hi hl hstack ha s hs => (ih hi hl hstack ha s hs).after (.stirs hst)
  | bind _ _ hb ih =>
    exact fun hi hl hstack ha s hs => (ih hi hl hstack ha s hs).after (.binds hb)
  | refuse _ _ ih =>
    exact fun hi hl hstack ha s hs => (ih hi hl hstack ha s hs).error fun hi => hi
  | fallback b htag _ _ _ ih => exact .fallback b htag ih
  | halt _ _ ho ih => exact .halt ih ho
  | misfit _ _ _ hst ih =>
    intro _ hl hstack _ s hs
    exact .child hs.self.live (((ih hl hstack s hs.enter).after (.stirs hst)).error False.elim)
  | call hi hw hw' ih _ => exact .call hp hi hw ih hw'
  | invoke hi hw _ _ hw' ih _ => exact .invoke hi hw ih hw'
  | done | fail | deed | again | unfound | summon => trivial
  | root | empty | missing | tooDeep | activate => trivial

/-- What an entity made from the built-in tags did itself is as it has to be after a return. -/
theorem Walk.obeys_entity {act : Activation} {key : EntityKey} {s : ScopeId} {st st' : RunState}
    {o : Ending} {p : Program} (h : Walk act (.entity key) s st o st') (hs : s < st.scopes.size)
    (hkey : (st.world.entity? key).bind Entity.program = some p) (hp : Builtin.Built p) :
    ∃ xs o', Did 1 st st' xs ∧ Obeys p False o' xs ∧ o = o'.outside := by
  cases h with
  | tooDeep => exact ⟨[], .error .tooDeep, .refl 1 st, obeys_of_silent (by simp), rfl⟩
  | @activate _ act' _ _ _ st₁ o' _ hw =>
    rw [hkey] at hw
    have hlive : s < (act'.entered s st).scopes.size := by simpa [Activation.entered] using hs
    have hk := hw.kept (Nat.zero_lt_of_lt hlive)
    cases hw with
    | root hw =>
      obtain ⟨xs, hx, hobey, -⟩ := (hw.heeds hp (fun _ hm => hm) s (.bindEntity hs)).did
      obtain ⟨ys, hy, ha⟩ := Did.inside hk hx
      obtain ⟨hr, hm, hc, he⟩ := Entry.Idle.not_mem fun x hx => (ha x hx).idle
      refine ⟨xs ++ ys, o', hy, .append hx.balanced ?_ (obeys_of_silent hr), rfl⟩
      exact fun pre k post hsplit => (hobey pre k post hsplit).append hm hc he

namespace Engine

/-- **What an entity does after it has returned.** The entity is made from the built-in tags; what
it calls may be anything. No instruction begins after the return. If the return did not stand among
the parameters of a call of a resource, no bean and no entity is called either. If it did, an entity
is called after the return unless there is an error. -/
theorem runEntity_after_return (e : Engine) (depth : Nat) {key : EntityKey} {s : ScopeId}
    {st : RunState} {p : Program} (hs : s < st.scopes.size)
    (hkey : (st.world.entity? key).bind Entity.program = some p) (hp : Builtin.Built p) :
    (e.runEntity depth key s).Ends st fun r st' => ∃ xs, Did 1 st st' xs ∧
      ∀ pre h post, xs = pre ++ .returned h :: post →
        (∀ m, Entry.event (.tagEntry m) ∉ post) ∧
        (¬ Invoking p pre → (∀ b fs, Entry.call b fs ∉ post) ∧
          ∀ k n q, Entry.event (.entityEntry k n q) ∉ post) ∧
        (Invoking p pre → ∀ o, r = .ok o → ∃ k n q, Entry.event (.entityEntry k n q) ∈ post) := by
  have hw := e.activation_walk depth st.world key key s st
  obtain ⟨xs, o', hx, hobey, ho⟩ := hw.obeys_entity hs hkey hp
  refine ⟨xs, hx, fun pre h post hsplit => ?_⟩
  have hret := hobey pre h post hsplit
  refine ⟨hret.noTag, fun hn => hret.noCall (by simpa using hn), fun hi o hr => ?_⟩
  rw [hr] at ho
  cases o' with
  | error err => cases ho
  | ok sig => exact hret.called (.inr hi) sig rfl

/-- A return among the parameters of a call, with the entity as it is parsed from its document. -/
theorem runEntity_after_return_in_parameter :
    let e := Engine.ofSettings Builtin.registry .template {}
    let w : World := ({} : World).registerMemory 0 "main"
      "<scenario><main><return value=\"1\"/></main></scenario>" true
    let st : RunState := (RunState.loading ⟨w, {}⟩ e.setup "main").opened Arena.root
    ∃ p, 1 < st.scopes.size ∧ (st.world.entity? 0).bind Entity.program = some p ∧ Builtin.Built p ∧
      (e.runEntity 10 0 1).Ends st fun r st' => ∃ pre h post,
        Did 1 st st' (pre ++ .returned h :: post) ∧
        (∀ m, Entry.event (.tagEntry m) ∉ post) ∧
        (¬ Invoking p pre → (∀ b fs, Entry.call b fs ∉ post) ∧
          ∀ k n q, Entry.event (.entityEntry k n q) ∉ post) ∧
        (Invoking p pre → ∀ o, r = .ok o → ∃ k n q, Entry.event (.entityEntry k n q) ∈ post) := by
  intro e w st
  have hbuilt : st.world.Built := Setup.load_built rfl "main" (World.built_of_none rfl)
  have hsome : ((st.world.entity? 0).bind Entity.program).isSome = true := by decide +kernel
  obtain ⟨p, hp⟩ := Option.isSome_iff_exists.1 hsome
  have hs : 1 < st.scopes.size := by decide
  refine ⟨p, hs, hp, hbuilt 0 p hp, ?_⟩
  obtain ⟨xs, hx, hafter⟩ := runEntity_after_return e 10 hs hp (hbuilt 0 p hp)
  have hret : Entry.returned 1 ∈ xs := by
    have hany : (layer 1 0 (((e.runEntity 10 0 1).on st).2.entries.drop st.entries.length)).any
        (Entry.returns 1) = true := by decide +kernel
    obtain ⟨x, hmem, h⟩ := List.any_eq_true.1 hany
    rw [hx.eq_layer, ← Entry.eq_of_returns h]
    exact hmem
  obtain ⟨pre, post, rfl⟩ := List.append_of_mem hret
  exact ⟨pre, 1, post, hx, hafter pre 1 post rfl⟩

/-- **A return does not stop everything.** The entity `main` returns among the parameters of a call
of `other`. From its return on, among what `main` does itself, an entity begins: `other`, and its
bean is called. -/
theorem called_after_return :
    let e := Engine.ofSettings Builtin.registry .template {}
    let w : World := (({} : World).registerMemory 0 "other"
      "<scenario><log>${value}</log></scenario>" true).registerMemory 0 "main"
      "<scenario><other><return value=\"1\"/></other></scenario>" true
    let st' := ((e.run 10 "main" []).on ⟨w, {}⟩).2
    let fromReturn := (layer 1 0 st'.entries).dropWhile fun
      | .returned _ => false
      | _ => true
    (fromReturn.any fun
      | .event (.entityEntry _ name _) => name == "other"
      | _ => false) = true ∧ st'.world.journal.calls.map Prod.fst = ["return", "log"] := by
  decide +kernel

end Engine

end Scenario
