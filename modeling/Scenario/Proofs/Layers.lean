import Scenario.Proofs.Nesting

/-!
# Layers of the journal

Entities run inside one another, and so do their entries in the journal. A layer holds what happened
while a certain number of entities was running: layer `0` is what the running activation did itself,
layer `1` what the entities did that it ran. The entry and exit events of an entity belong to the
layer outside it.

`Did n st st' xs` says that `xs` is layer `n` of what happened between two states. What a running
activation did is put together from its parts (`Did.trans`, `Did.tag`), and an entity that it ran
counts for two events, whatever happened inside (`Did.entity`).
-/

namespace Scenario

/-- How many entities are running after an entry, from how many there were before. -/
def Entry.depthAfter : Entry → Nat → Nat
  | .event (.entityEntry _ _ _), d => d + 1
  | .event (.entityExit _ _ _), d => d - 1
  | _, d => d

/-- How many entities are running after some entries. -/
def depthAfterAll (d : Nat) (es : List Entry) : Nat := es.foldl (fun d e => e.depthAfter d) d

/-- What happened while `n` entities were running, where `d` were at first. -/
def layer (n : Nat) : Nat → List Entry → List Entry
  | _, [] => []
  | d, e :: es =>
    if min d (e.depthAfter d) = n then e :: layer n (e.depthAfter d) es
    else layer n (e.depthAfter d) es

theorem depthAfter_of_other {e : Entry} (h : e.isEvent = false) (d : Nat) : e.depthAfter d = d := by
  cases e with
  | event _ => cases h
  | _ => rfl

/-- Events that pair are about an entity, or do not change the depth. -/
theorem Event.Pairs.depth {a b : Event} (h : a.Pairs b) :
    (∀ d, (Entry.event a).depthAfter d = d + 1 ∧ (Entry.event b).depthAfter (d + 1) = d) ∨
      ∀ d, (Entry.event a).depthAfter d = d ∧ (Entry.event b).depthAfter d = d := by
  obtain ⟨_, _, rfl, rfl⟩ | ⟨_, _, _, _, _, _, rfl, rfl⟩ | ⟨_, _, rfl, rfl⟩ := h.kinds
  · exact .inr fun _ => ⟨rfl, rfl⟩
  · exact .inl fun _ => ⟨rfl, rfl⟩
  · exact .inr fun _ => ⟨rfl, rfl⟩

theorem layer_append (n d : Nat) (es fs : List Entry) :
    layer n d (es ++ fs) = layer n d es ++ layer n (depthAfterAll d es) fs := by
  induction es generalizing d with
  | nil => rfl
  | cons e es ih =>
    rw [List.cons_append, layer, layer, ih]
    by_cases h : min d (e.depthAfter d) = n
    · rw [if_pos h, if_pos h, List.cons_append]; rfl
    · rw [if_neg h, if_neg h]; rfl

namespace Nested

variable {es fs : List Entry} {n d : Nat}

theorem depthAfterAll_eq (h : Nested es) (d : Nat) : depthAfterAll d es = d := by
  induction h generalizing d with
  | nil => rfl
  | other h => exact depthAfter_of_other h d
  | @pair a b es hab _ ih =>
    have hsplit : depthAfterAll d (.event a :: es ++ [.event b]) =
        (Entry.event b).depthAfter (depthAfterAll ((Entry.event a).depthAfter d) es) := by
      simp [depthAfterAll]
    obtain h | h := hab.depth
    · rw [hsplit, (h d).1, ih, (h d).2]
    · rw [hsplit, (h d).1, ih, (h d).2]
  | @append es fs _ _ ih ih' =>
    have hsplit : depthAfterAll d (es ++ fs) = depthAfterAll (depthAfterAll d es) fs :=
      List.foldl_append
    rw [hsplit, ih, ih']

theorem layer_append (h : Nested es) (n d : Nat) (fs : List Entry) :
    layer n d (es ++ fs) = layer n d es ++ layer n d fs := by
  rw [Scenario.layer_append, h.depthAfterAll_eq]

/-- The layers of a pair of events with entries in between. -/
theorem layer_pair {a b : Event} (h : Nested es) (n d : Nat) :
    layer n d (.event a :: es ++ [.event b]) = layer n d [.event a] ++
      layer n ((Entry.event a).depthAfter d) es ++
        layer n ((Entry.event a).depthAfter d) [.event b] := by
  rw [List.cons_append, ← List.singleton_append, Scenario.layer_append, h.layer_append,
    List.append_assoc]
  rfl

/-- One more entity around everything moves all layers by one. -/
theorem layer_succ (h : Nested es) (n d : Nat) : layer (n + 1) (d + 1) es = layer n d es := by
  induction h generalizing d with
  | nil => rfl
  | @other e h => simp [layer, depthAfter_of_other h]
  | @pair a b es hab hn ih =>
    rw [hn.layer_pair, hn.layer_pair]
    obtain h | h := hab.depth
    · simp [layer, (h d).1, (h (d + 1)).1, (h d).2, (h (d + 1)).2, ih]
    · simp [layer, (h d).1, (h (d + 1)).1, (h d).2, (h (d + 1)).2, ih]
  | append hn _ ih ih' => rw [hn.layer_append, hn.layer_append, ih, ih']

/-- Inside an entity nothing belongs to a layer outside it. -/
theorem layer_of_lt (h : Nested es) (hd : n < d) : layer n d es = [] := by
  induction h generalizing d with
  | nil => rfl
  | @other e h => simp [layer, depthAfter_of_other h, Nat.ne_of_gt hd]
  | @pair a b es hab hn ih =>
    rw [hn.layer_pair]
    obtain h | h := hab.depth
    · simp [layer, (h d).1, (h d).2, ih (Nat.lt_succ_of_lt hd), Nat.ne_of_gt hd]
    · simp [layer, (h d).1, (h d).2, ih hd, Nat.ne_of_gt hd]
  | append hn _ ih ih' => rw [hn.layer_append, ih hd, ih' hd, List.append_nil]

end Nested

theorem layer_zero_of_others {es : List Entry} (h : ∀ e ∈ es, e.isEvent = false) :
    layer 0 0 es = es := by
  induction es with
  | nil => rfl
  | cons e es ih =>
    rw [List.forall_mem_cons] at h
    simp [layer, depthAfter_of_other h.1, ih h.2]

/-- Entries that are no events belong to the outermost layer. -/
theorem layer_succ_of_others {es : List Entry} (h : ∀ e ∈ es, e.isEvent = false) (n : Nat) :
    layer (n + 1) 0 es = [] := by
  induction es with
  | nil => rfl
  | cons e es ih =>
    rw [List.forall_mem_cons] at h
    simp [layer, depthAfter_of_other h.1, ih h.2]

/-! ### What happened between two states -/

/-- Between the states nested entries were added, and `xs` is one layer of them. -/
def Did (n : Nat) (st st' : RunState) (xs : List Entry) : Prop :=
  ∃ es, st'.entries = st.entries ++ es ∧ Nested es ∧ layer n 0 es = xs

namespace Did

variable {act : Activation} {n : Nat} {s : ScopeId} {st st₁ st₂ : RunState} {xs ys : List Entry}

theorem of_entries_eq (h : st₁.entries = st.entries) : Did n st st₁ [] :=
  ⟨[], by simp [h], .nil, rfl⟩

theorem refl (n : Nat) (st : RunState) : Did n st st [] := of_entries_eq rfl

theorem trans (h : Did n st st₁ xs) (h' : Did n st₁ st₂ ys) : Did n st st₂ (xs ++ ys) := by
  obtain ⟨es, he, hn, rfl⟩ := h
  obtain ⟨fs, hf, hm, rfl⟩ := h'
  exact ⟨es ++ fs, by rw [hf, he, List.append_assoc], .append hn hm, hn.layer_append n 0 fs⟩

/-- What happened can be read off the two journals. -/
theorem eq_layer (h : Did n st st₁ xs) :
    xs = layer n 0 (st₁.entries.drop st.entries.length) := by
  obtain ⟨es, he, -, rfl⟩ := h
  rw [he, List.drop_left]

theorem unique (h : Did n st st₁ xs) (h' : Did n st st₁ ys) : xs = ys :=
  h.eq_layer.trans h'.eq_layer.symm

/-- Entries that are no events. -/
theorem others {es : List Entry} (h : ∀ e ∈ es, e.isEvent = false)
    (he : st₁.entries = st.entries ++ es) : Did 0 st st₁ es :=
  ⟨es, he, nested_of_others h, layer_zero_of_others h⟩

theorem log {e : Entry} (h : e.isEvent = false) (st : RunState) : Did 0 st (st.log [e]) [e] :=
  others (by simpa using h) (st.entries_log [e])

theorem aside {es : List Entry} (h : ∀ e ∈ es, e.Aside) (he : st₁.entries = st.entries ++ es) :
    Did 0 st st₁ es := others (fun e hm => (h e hm).isEvent_eq) he

/-- Asking for a resource leaves log records. -/
theorem loading (st : RunState) (setup : Setup) (name : String) :
    ∃ xs, Did 0 st (st.loading setup name) xs ∧ ∀ e ∈ xs, e.Aside := by
  obtain ⟨rs, h⟩ := setup.load_records name st.world
  exact ⟨_, aside (aside_records rs) h, aside_records rs⟩

theorem stir (h : Stir act s st st₁) : ∃ xs, Did 0 st st₁ xs ∧ ∀ e ∈ xs, e.Aside := by
  cases h with
  | record r => exact ⟨[.record r], log rfl st, by simp [Entry.Aside]⟩
  | locks l => exact ⟨[], of_entries_eq rfl, by simp⟩
  | load name => exact loading st _ name
  | vacant id => exact ⟨[.vacant s id], log rfl st, by simp [Entry.Aside]⟩
  | branch ran => exact ⟨[], of_entries_eq rfl, by simp⟩
  | origin o => exact ⟨[], of_entries_eq rfl, by simp⟩

theorem stirs (h : Stirs act s st st₁) : ∃ xs, Did 0 st st₁ xs ∧ ∀ e ∈ xs, e.Aside := by
  induction h with
  | refl => exact ⟨[], refl 0 st, by simp⟩
  | tail _ h ih =>
    obtain ⟨xs, hx, hi⟩ := ih
    obtain ⟨ys, hy, hj⟩ := stir h
    exact ⟨xs ++ ys, hx.trans hy, List.forall_mem_append.2 ⟨hi, hj⟩⟩

theorem bound (st : RunState) (s : ScopeId) (b : Binding) :
    Did 0 st (st.bound s b) [.bound s b] := log rfl _

/-- Something that has begun and ended. -/
theorem pair {a b : Event} {es : List Entry} (hab : a.Pairs b) (hn : Nested es)
    (he : st₁.entries = (st.log [.event a]).entries ++ es) :
    Did n st (st₁.log [.event b]) (layer n 0 (.event a :: es ++ [.event b])) := by
  refine ⟨_, ?_, .pair hab hn, rfl⟩
  rw [RunState.entries_log, he, RunState.entries_log]
  simp

/-- A run around the entity that it runs. -/
theorem process {q q' : Nat} (hq : q' = q)
    (h : Did 1 (st.log [.event (.processStart q)]) st₁ xs) :
    Did 1 st (st₁.log [.event (.processEnd q')]) xs := by
  obtain ⟨es, he, hn, rfl⟩ := h
  have hab : Event.Pairs (.processStart q) (.processEnd q') := hq
  have hp : Did 1 st (st₁.log [.event (.processEnd q')]) _ := pair hab hn he
  rw [hn.layer_pair] at hp
  simpa [layer, Entry.depthAfter] using hp

/-- The resource of an entity is asked for outside the entity. -/
theorem loading_outside (st : RunState) (setup : Setup) (name : String) :
    Did 1 st (st.loading setup name) [] := by
  obtain ⟨rs, h⟩ := setup.load_records name st.world
  exact ⟨_, h, nested_of_aside (aside_records rs),
    layer_succ_of_others (fun e he => (aside_records rs e he).isEvent_eq) 0⟩

/-- An instruction that has begun and ended. -/
theorem tag {id : NodeId} {i : Instruction} (hk : Kept (act.begun id i s st) st₁)
    (h : Did 0 (act.begun id i s st) st₁ xs) :
    Did 0 st (act.ended id i s st₁)
      (.event (.tagEntry (act.moment id i (act.begun id i s st).chain s)) :: xs ++
        [.event (.tagExit (act.moment id i (act.ended id i s st₁).chain s))]) := by
  obtain ⟨es, he, hn, rfl⟩ := h
  have hp : Did 0 st (act.ended id i s st₁) _ := pair hk.pairs_tag hn he
  rwa [hn.layer_pair] at hp

/-- An entity that has begun and ended, seen by the activation that ran it. -/
theorem entity {mark : Nat} (hk : Kept (act.entered s st) st₁) :
    Did 0 st (act.exited s mark st₁)
      [.event (.entityEntry act.entity act.name ((act.entered s st).scopes.seq s)),
        .event (.entityExit act.entity act.name ((st₁.closed mark).scopes.seq s))] := by
  obtain ⟨es, he, hn⟩ := (hk.trans (.closed st₁ mark)).journal
  have hp : Did 0 st (act.exited s mark st₁) _ := pair (hk.pairs_entity mark) hn he
  have hin : layer 0 1 es = [] := hn.layer_of_lt Nat.one_pos
  rw [hn.layer_pair] at hp
  simpa [layer, Entry.depthAfter, hin] using hp

theorem closed (st : RunState) (mark : Nat) :
    ∃ xs, Did 0 st (st.closed mark) xs ∧ ∀ e ∈ xs, e.Aside :=
  ⟨_, aside (aside_farewells _) (RunState.entries_log _ _), aside_farewells _⟩

/-- What an entity did itself, up to the end in which everything it opened is closed. -/
theorem inside {mark : Nat} (hk : Kept (act.entered s st) st₁)
    (h : Did 0 (act.entered s st) st₁ xs) :
    ∃ ys, Did 1 st (act.exited s mark st₁) (xs ++ ys) ∧ ∀ e ∈ ys, e.Aside := by
  obtain ⟨ys, hy, hi⟩ := closed st₁ mark
  refine ⟨ys, ?_, hi⟩
  obtain ⟨es, he, hn, hx⟩ := h.trans hy
  have hp : Did 1 st (act.exited s mark st₁) _ := pair (hk.pairs_entity mark) hn he
  have hin : layer 1 1 es = xs ++ ys := (hn.layer_succ 0 0).trans hx
  rw [hn.layer_pair] at hp
  simpa [layer, Entry.depthAfter, hin] using hp

end Did

/-- An entity that was run counts for two events, or it was too deep and nothing happened. -/
theorem Walk.did_entity {act : Activation} {key : EntityKey} {s : ScopeId} {st st' : RunState}
    {o : Ending} (h : Walk act (.entity key) s st o st') (hpos : 0 < st.scopes.size) :
    (o = .error .tooDeep ∧ Did 0 st st' []) ∨ ∃ name q q', Did 0 st st'
      [.event (.entityEntry key name q), .event (.entityExit key name q')] := by
  cases h with
  | tooDeep => exact .inl ⟨rfl, .refl 0 st⟩
  | activate hs hw =>
    have hk := hw.kept (by simpa [Activation.entered] using hpos)
    rw [← hs.entity]
    exact .inr ⟨_, _, _, .entity hk⟩

end Scenario
