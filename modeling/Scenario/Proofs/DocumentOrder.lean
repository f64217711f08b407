import Scenario.Proofs.Positions
import Scenario.Proofs.Returns

/-!
# Instructions run in document order

The tags that run what is below them do so in different scopes, stop early for different reasons,
and may run entities in between, also the same one again. Even so the instructions of one activation
begin in document order, each one at most once, and only while the instructions above it are
running.

* `entered xs` — the moments at which instructions began, among some entries.
* `Enters act fs ts ms` — at the moments `ms` instructions of the programs `ts` began, in document
  order, while `fs` was running; each one while all instructions above it were running.
* **`Walk.enters`** — what an activation enters while it runs programs, by induction on the walk.
  The two rules with work in them are those of an instruction (`Opening.tag`) and of programs one
  after the other (`Entering.next`).

Beans have to be built-in ones: others may run what is below them several times.
-/

namespace Scenario

/-! ### Moments -/

/-- The moment at which an instruction began. -/
def Entry.entered? : Entry → Option Moment
  | .event (.tagEntry m) => some m
  | _ => none

/-- The moments at which instructions began, in order. -/
def entered (xs : List Entry) : List Moment := xs.filterMap Entry.entered?

@[simp] theorem entered_append (xs ys : List Entry) :
    entered (xs ++ ys) = entered xs ++ entered ys :=
  List.filterMap_append

theorem entered_of_none {xs : List Entry} (h : ∀ m, Entry.event (.tagEntry m) ∉ xs) :
    entered xs = [] := by
  refine List.filterMap_eq_nil_iff.2 fun x hx => ?_
  cases x with
  | event e =>
    cases e with
    | tagEntry m => exact absurd hx (h m)
    | _ => rfl
  | _ => rfl

namespace Tree

variable {α : Type}

theorem labelsAll_append (ts us : List (Tree α)) :
    labelsAll (ts ++ us) = labelsAll ts ++ labelsAll us := by
  induction ts with
  | nil => rfl
  | cons t ts ih => rw [List.cons_append, labelsAll, labelsAll, ih, List.append_assoc]

/-- What stands in a tree stands below every node above that tree. -/
theorem Occurs.deeper {t u : Tree α} {path : List α} {left ts : List (Tree α)} (a : α) (ht : t ∈ ts)
    (h : t.Occurs path left u) : ∃ left', (node a ts).Occurs (path ++ [a]) left' u := by
  induction h with
  | root =>
    obtain ⟨front, back, rfl⟩ := List.append_of_mem ht
    exact ⟨front, .child .root⟩
  | child _ ih =>
    obtain ⟨front, h⟩ := ih
    exact ⟨_, h.child⟩

end Tree

/-- An instruction of an entity, as it is running. -/
def StackFrame.ofLabel (key : EntityKey) (name : String) (x : NodeId × Instruction) : StackFrame :=
  ⟨key, x.1, x.2.described name⟩

/-- At these moments instructions of the programs of an entity began, in document order, while `fs`
was running; each one on top of the instructions above it. -/
structure Enters (key : EntityKey) (name : String) (fs : List StackFrame) (ts : List Program)
    (ms : List Moment) : Prop where
  order : (ms.map Moment.node).Sublist ((Tree.labelsAll ts).map Prod.fst)
  above : ∀ m ∈ ms, m.entity = key ∧ ∃ t ∈ ts, ∃ path left u, t.Occurs path left u ∧
    m.node = u.label.1 ∧ m.running = (u.label :: path).map (.ofLabel key name) ++ fs

namespace Enters

variable {key : EntityKey} {name : String} {fs : List StackFrame} {ts us : List Program}
  {ms ms' : List Moment}

theorem nil : Enters key name fs ts [] := ⟨List.nil_sublist _, by simp⟩

/-- Programs one after the other. -/
theorem append (h : Enters key name fs ts ms) (h' : Enters key name fs us ms') :
    Enters key name fs (ts ++ us) (ms ++ ms') where
  order := by
    rw [Tree.labelsAll_append, List.map_append, List.map_append]
    exact h.order.append h'.order
  above m hm := by
    obtain hm | hm := List.mem_append.1 hm
    · obtain ⟨he, t, ht, hu⟩ := h.above m hm
      exact ⟨he, t, List.mem_append_left us ht, hu⟩
    · obtain ⟨he, t, ht, hu⟩ := h'.above m hm
      exact ⟨he, t, List.mem_append_right ts ht, hu⟩

/-- An instruction, and what is below it while it runs. -/
theorem node {x : NodeId × Instruction} {m : Moment} (he : m.entity = key) (hn : m.node = x.1)
    (hm : m.running = .ofLabel key name x :: fs)
    (h : Enters key name (.ofLabel key name x :: fs) ts ms) :
    Enters key name fs [.node x ts] (m :: ms) where
  order := by
    simp only [Tree.labelsAll, Tree.labels, List.append_nil, List.map_cons, hn]
    exact h.order.cons_cons x.1
  above m' hm' := by
    obtain rfl | hm' := List.mem_cons.1 hm'
    · exact ⟨he, _, List.mem_singleton.2 rfl, [], [], _, .root, hn, hm⟩
    · obtain ⟨he', t, ht, path, left, u, hu, hn', hrun⟩ := h.above m' hm'
      obtain ⟨left', hu'⟩ := hu.deeper x ht
      refine ⟨he', _, List.mem_singleton.2 rfl, _, left', u, hu', hn', ?_⟩
      rw [hrun]
      simp

end Enters

/-! ### Between two states -/

/-- No instruction of the activation begins, and the running ones are as before. -/
structure Still (st st' : RunState) : Prop where
  stack : st'.chain.stack = st.chain.stack
  did : ∃ xs, Did 0 st st' xs ∧ entered xs = []

namespace Still

variable {act : Activation} {s : ScopeId} {st st₁ : RunState}

theorem of_idle {xs : List Entry} (hs : st₁.chain.stack = st.chain.stack) (hx : Did 0 st st₁ xs)
    (h : ∀ x ∈ xs, x.Idle) : Still st st₁ :=
  ⟨hs, xs, hx, entered_of_none (Entry.Idle.not_mem h).2.1⟩

theorem of_entries_eq (hs : st₁.chain.stack = st.chain.stack) (he : st₁.entries = st.entries) :
    Still st st₁ := ⟨hs, [], .of_entries_eq he, rfl⟩

theorem stirs (h : Stirs act s st st₁) : Still st st₁ := by
  obtain ⟨xs, hx, ha⟩ := Did.stirs h
  exact of_idle (Kept.stirs h).stack hx fun x hm => (ha x hm).idle

theorem bound (st : RunState) (s : ScopeId) (b : Binding) : Still st (st.bound s b) :=
  of_idle rfl (.bound st s b) (by simp [Entry.Idle])

theorem binds {i : Instruction} (h : Binds act i s st st₁) : Still st st₁ := by
  cases h with
  | result b _ => exact bound st _ b
  | parameter b _ => exact bound st s b

/-- An entity that is run enters nothing of the activation that runs it. -/
theorem entity {key : EntityKey} {o : Ending} (h : Walk act (.entity key) s st o st₁)
    (hpos : 0 < st.scopes.size) : Still st st₁ := by
  refine ⟨(h.kept hpos).stack, ?_⟩
  obtain ⟨-, hd⟩ | ⟨name, q, q', hd⟩ := h.did_entity hpos
  · exact ⟨_, hd, rfl⟩
  · exact ⟨_, hd, rfl⟩

end Still

/-- Between the two states the activation entered instructions of these programs. -/
def Entering (act : Activation) (ts : List Program) (st st' : RunState) : Prop :=
  ∃ xs, Did 0 st st' xs ∧ Enters act.entity act.name st.chain.stack ts (entered xs)

namespace Entering

variable {act : Activation} {s : ScopeId} {ts us : List Program} {st st₁ st₂ : RunState}

theorem of_still (h : Still st st₁) : Entering act ts st st₁ := by
  obtain ⟨xs, hx, hnone⟩ := h.did
  exact ⟨xs, hx, hnone ▸ .nil⟩

theorem refl (st : RunState) : Entering act ts st st := of_still (.of_entries_eq rfl rfl)

/-- Programs one after the other, with the same instructions running. -/
theorem next (h : Entering act ts st st₁) (hs : st₁.chain.stack = st.chain.stack)
    (h' : Entering act us st₁ st₂) : Entering act (ts ++ us) st st₂ := by
  obtain ⟨xs, hx, he⟩ := h
  obtain ⟨ys, hy, he'⟩ := h'
  refine ⟨xs ++ ys, hx.trans hy, ?_⟩
  rw [entered_append]
  exact he.append (hs ▸ he')

theorem before (h : Still st st₁) (h' : Entering act ts st₁ st₂) : Entering act ts st st₂ := by
  have hnone : Entering act [] st st₁ := of_still h
  exact hnone.next h.stack h'

theorem after (h : Entering act ts st st₁) (h' : Still st₁ st₂) : Entering act ts st st₂ := by
  obtain ⟨xs, hx, he⟩ := h
  obtain ⟨ys, hy, hnone⟩ := h'.did
  refine ⟨xs ++ ys, hx.trans hy, ?_⟩
  rw [entered_append, hnone, List.append_nil]
  exact he

/-- A scope that was opened and left. -/
theorem child {n : Nat} (h : Entering act ts (st.opened s) st₁) : Entering act ts st (st₁.left n) :=
  .before (.of_entries_eq rfl rfl) (h.after (.of_entries_eq rfl rfl))

end Entering

/-- Between the two states the activation entered instructions of this program, its root first. -/
def Opening (act : Activation) (p : Program) (st st' : RunState) : Prop :=
  ∃ xs, Did 0 st st' xs ∧ Enters act.entity act.name st.chain.stack [p] (entered xs) ∧
    ∀ m ∈ (entered xs).head?, m.node = p.label.1

namespace Opening

variable {act : Activation} {s : ScopeId} {p : Program} {st st₁ : RunState}

theorem refl (st : RunState) : Opening act p st st := ⟨[], .refl 0 st, .nil, by simp [entered]⟩

theorem entering (h : Opening act p st st₁) : Entering act [p] st st₁ := by
  obtain ⟨xs, hx, he, -⟩ := h
  exact ⟨xs, hx, he⟩

/-- An instruction that began and ended. -/
theorem tag {id : NodeId} {i : Instruction} {ts : List Program}
    (hk : Kept (act.begun id i s st) st₁) (h : Entering act ts (act.begun id i s st) st₁) :
    Opening act (.node (id, i) ts) st (act.ended id i s st₁) := by
  obtain ⟨xs, hx, he⟩ := h
  refine ⟨_, .tag hk hx, ?_⟩
  have hentered : entered (.event (.tagEntry (act.moment id i (act.begun id i s st).chain s)) ::
      xs ++ [.event (.tagExit (act.moment id i (act.ended id i s st₁).chain s))]) =
      act.moment id i (act.begun id i s st).chain s :: entered xs := by
    simp [entered, Entry.entered?]
  rw [hentered]
  refine ⟨.node rfl rfl rfl he, fun m hm => ?_⟩
  obtain rfl := Option.some.inj hm
  rfl

end Opening

/-! ### Walks -/

/-- What is to be shown of a task of an activation that runs parts of a program. -/
def Task.Entering (p : Program) (act : Activation) (st st' : RunState) : Task → Prop
  | .all ts => (∀ x ∈ Tree.labelsAll ts, x ∈ p.labels) → 0 < st.scopes.size →
      Scenario.Entering act ts st st'
  | .one q => (∀ x ∈ q.labels, x ∈ p.labels) → 0 < st.scopes.size → Opening act q st st'
  | .body i ts => (∃ n, (n, i) ∈ p.labels) → (∀ x ∈ Tree.labelsAll ts, x ∈ p.labels) →
      0 < st.scopes.size → Scenario.Entering act ts st st'
  | _ => True

/-- **An activation enters what it runs in document order**, each instruction once and below those
that are above it in the program. -/
theorem Walk.enters {p : Program} (hp : Builtin.Built p) {act : Activation} {task : Task}
    {s : ScopeId} {st st' : RunState} {o : Ending} (h : Walk act task s st o st') :
    task.Entering p act st st' := by
  have onward : ∀ {st st₁ : RunState}, Kept st st₁ → 0 < st.scopes.size → 0 < st₁.scopes.size :=
    fun h hpos => h.size ▸ hpos
  have inner : ∀ {st : RunState} {s : ScopeId}, 0 < (st.opened s).scopes.size :=
    fun {st s} => st.size_opened_pos s
  induction h with
  | nil => exact fun _ _ => .refl _
  | pass => exact fun _ _ => .refl _
  | next hw _ ih ih' =>
    intro hl hpos
    rw [Tree.labelsAll, List.forall_mem_append] at hl
    have hk := hw.kept hpos
    exact (ih hl.1 hpos).entering.next hk.stack (ih' hl.2 (onward hk hpos))
  | stop hw _ ih =>
    intro hl hpos
    rw [Tree.labelsAll, List.forall_mem_append] at hl
    exact (ih hl.1 hpos).entering.next (hw.kept hpos).stack (.refl _)
  | node _ hw ih =>
    intro hl hpos
    rw [Tree.labels, List.forall_mem_cons] at hl
    exact .tag (hw.kept hpos) (ih ⟨_, hl.1⟩ hl.2 hpos)
  | blamed _ hw _ hst ih =>
    intro hl hpos
    rw [Tree.labels, List.forall_mem_cons] at hl
    exact .tag ((hw.kept hpos).trans (.stirs hst)) ((ih ⟨_, hl.1⟩ hl.2 hpos).after (.stirs hst))
  | alone hst _ => exact fun _ _ _ => .of_still (.stirs hst)
  | inside _ _ hst _ ih =>
    exact fun _ hl hpos => .before (.stirs hst) (ih hl (onward (.stirs hst) hpos))
  | take _ _ ih => exact fun _ hl hpos => (ih hl hpos).after (.of_entries_eq rfl rfl)
  | settle _ hst ih => exact fun hi hl hpos => (ih hi hl hpos).after (.stirs hst)
  | bind _ _ hb ih => exact fun hi hl hpos => (ih hi hl hpos).after (.binds hb)
  | refuse _ _ ih => exact ih
  | @fallback act i ts s st st₁ name id sig b _ _ _ _ ih =>
    intro _ hl hpos
    have hlooked : Still st (st.log [.vacant s id]) := ⟨rfl, _, .log rfl st, rfl⟩
    exact (Entering.before hlooked (ih hl hpos)).after (.bound st₁ _ b)
  | halt _ _ _ ih => exact fun _ hl _ => .child (ih hl inner)
  | misfit _ _ _ hst ih => exact fun _ hl _ => .child ((ih hl inner).after (.stirs hst))
  | @call act i ts s st st₁ st₂ b fs o hi hw hw' ih _ =>
    rintro ⟨n, hn⟩ hl _
    have hb : Builtin.Inner (.bean b) := hi ▸ hp.inner_of_mem hn (by simp [hi])
    obtain ⟨ys, hy, hplain, -⟩ := Builtin.walk_bean hb hw'
    have hcalled : Still st₁ (st₁.log [.call b.typeName fs]) := ⟨rfl, _, .log rfl st₁, rfl⟩
    have hnone : entered ys = [] := entered_of_none fun m hm => by cases (hplain _ hm).1
    have hpos : 0 < (st₁.log [.call b.typeName fs]).scopes.size :=
      (hw.kept inner).size ▸ inner
    have hdone : Still (st₁.log [.call b.typeName fs]) st₂ :=
      ⟨(hw'.kept hpos).stack, ys, hy, hnone⟩
    exact .child (((ih hl inner).after hcalled).after hdone)
  | @invoke act i ts s st st₁ st₂ target key sig o _ hw _ _ hw' ih _ =>
    intro _ hl _
    have hload : Stirs act s st₁ (st₁.loading act.engine.setup target) := .single (.load target)
    have hpos : 0 < ((st₁.loading act.engine.setup target).withResult none).scopes.size :=
      ((hw.kept inner).trans (.stirs hload)).size ▸ inner
    have hparams : Entering act ts (st.opened s)
        ((st₁.loading act.engine.setup target).withResult none) :=
      ((ih hl inner).after (.stirs hload)).after (.of_entries_eq rfl rfl)
    exact .child ((hparams.after (.entity hw' hpos)).after (.of_entries_eq rfl rfl))
  | done | fail | deed | again | unfound | summon => trivial
  | root | empty | missing | tooDeep | activate => trivial

/-- What an entity made from the built-in tags enters itself: nothing, or its root first. -/
theorem Walk.opening_entity {act : Activation} {key : EntityKey} {s : ScopeId} {st st' : RunState}
    {o : Ending} {p : Program} (h : Walk act (.entity key) s st o st') (hs : s < st.scopes.size)
    (hkey : (st.world.entity? key).bind Entity.program = some p) (hp : Builtin.Built p) :
    ∃ xs, Did 1 st st' xs ∧
      Enters key (st.world.entityName key) st.chain.stack [p] (entered xs) ∧
      ∀ m ∈ (entered xs).head?, m.node = p.label.1 := by
  cases h with
  | tooDeep => exact ⟨[], .refl 1 st, .nil, by simp [entered]⟩
  | @activate _ act' _ _ _ st₁ o' hserves hw =>
    rw [hkey] at hw
    have hpos : 0 < (act'.entered s st).scopes.size := by
      simpa [Activation.entered] using Nat.zero_lt_of_lt hs
    have hk := hw.kept hpos
    cases hw with
    | root hw =>
      obtain ⟨xs, hx, he, hhead⟩ := hw.enters hp (fun _ hm => hm) hpos
      obtain ⟨ys, hy, ha⟩ := Did.inside hk hx
      have hnone : entered ys = [] :=
        entered_of_none (Entry.Idle.not_mem fun x hm => (ha x hm).idle).2.1
      have hall : entered (xs ++ ys) = entered xs := by rw [entered_append, hnone, List.append_nil]
      rw [hserves.entity, hserves.name] at he
      exact ⟨xs ++ ys, hy, hall ▸ he, hall ▸ hhead⟩

namespace Engine

/-- **Document order and single entry.** The entity is made from a document with the built-in tags;
what it calls may be anything. However an activation of it ends, the instructions that it enters
itself, not counting those of activations inside it, have increasing places in the document, from
the root on; so each one is entered at most once. And each one is entered while exactly the
instructions above it are running, the nearest one first, on top of what was running before. -/
theorem runEntity_in_document_order (e : Engine) {cx : Assembly}
    (hcx : cx.registry = Builtin.registry) {root : Xml.Element} {maker : RootMaker}
    (hmaker : Builtin.registry.root? root.head.name = some maker) {w w' : World} {p : Program}
    (hp : Parse.Gives (cx.document root maker) w p w') (depth : Nat) {key : EntityKey} {s : ScopeId}
    {st : RunState} (hs : s < st.scopes.size)
    (hkey : (st.world.entity? key).bind Entity.program = some p) :
    (e.runEntity depth key s).Ends st fun _ st' => ∃ xs, Did 1 st st' xs ∧
      ((entered xs).map Moment.node).Pairwise (· < ·) ∧
      (∀ n ∈ ((entered xs).map Moment.node).head?, n = 0) ∧
      ∀ m ∈ entered xs, m.entity = key ∧ ∃ path left u, Tree.Occurs p path left u ∧
        m.node = u.label.1 ∧ (path = [] → m.node = 0) ∧ m.running =
          (u.label :: path).map (.ofLabel key (st.world.entityName key)) ++ st.chain.stack := by
  have hbuilt : Builtin.Built p := (Assembly.formed_of_gives hcx hmaker hp).made
  obtain ⟨t, rfl⟩ : ∃ t : Tree Instruction, p = t.number := by
    obtain ⟨tag, ts, -, -, h⟩ := Assembly.gives_document.1 hp
    exact ⟨_, h⟩
  have hfirst : t.number.label.1 = 0 := by
    cases t
    rfl
  have hw := e.activation_walk depth st.world key key s st
  obtain ⟨xs, hx, he, hhead⟩ := hw.opening_entity hs hkey hbuilt
  have hplaces : (Tree.labelsAll [t.number]).map Prod.fst = List.range' 0 t.size := by
    rw [Tree.labelsAll, Tree.labelsAll, List.append_nil, Tree.number, Tree.places_numberFrom]
  refine ⟨xs, hx, ?_, ?_, ?_⟩
  · have horder := he.order
    rw [hplaces] at horder
    exact List.Pairwise.sublist horder List.pairwise_lt_range'
  · intro n hn
    rw [List.head?_map] at hn
    obtain ⟨m, hm, rfl⟩ := Option.map_eq_some_iff.1 hn
    exact (hhead m hm).trans hfirst
  · intro m hm
    obtain ⟨hentity, t', ht, path, left, u, hu, hnode, hrunning⟩ := he.above m hm
    obtain rfl := List.mem_singleton.1 ht
    refine ⟨hentity, path, left, u, hu, hnode, ?_, hrunning⟩
    rintro rfl
    cases hu
    exact hnode.trans hfirst

/-- A data tag, two branches of which the second one is taken and returns, and an instruction after
them. -/
def interrupted : Xml.Element where
  head := { name := "scenario" }
  children := [
    .element { name := "data", attrs := [{ name := "id", value := "x" }] }
      [.element { name := "a" } [.text "1" 1]],
    .element { name := "if", attrs := [{ name := "test", value := "${false}" }] }
      [.element { name := "log" } [.text "no" 1]],
    .element { name := "else" } [.element { name := "return" } [], .element { name := "log" } []],
    .element { name := "log" } [.text "late" 1]]

/-- A branch that is not taken is entered without what is below it, and after the return nothing is
entered. -/
theorem runEntity_in_document_order_interrupted :
    let e := Engine.ofSettings Builtin.registry .template {}
    let cx : Assembly := {
      registry := Builtin.registry
      evaluator := .template
      locator := []
      path := "file:main.xml"
      refer := fun _ => pure none }
    let entity : Entity :=
      { resource := .ofFile "main.xml", rootTag := "scenario", timestamp := none }
    let st (p : Program) : RunState :=
      ⟨(({} : World).addEntity { entity with program := some p }).1, {}⟩
    Builtin.registry.root? interrupted.head.name = some .scenario ∧
    ∃ p w', Parse.Gives (cx.document interrupted .scenario) {} p w' ∧
      Arena.root < (st p).scopes.size ∧
      ((st p).world.entity? 0).bind Entity.program = some p ∧
      (e.runEntity 10 0 Arena.root).Ends (st p) fun _ st' => ∃ xs, Did 1 (st p) st' xs ∧
        (entered xs).map Moment.node = [0, 1, 2, 3, 4, 8, 9] ∧
        ((entered xs).map Moment.node).Pairwise (· < ·) := by
  intro e cx entity st
  have htest : (((cx.document interrupted .scenario).run.run {}).1.toOption.any fun p =>
      decide ((entered (layer 1 0 (((e.runEntity 10 0 Arena.root).on (st p)).2.entries.drop
        (st p).entries.length))).map Moment.node = [0, 1, 2, 3, 4, 8, 9])) = true := by
    decide +kernel
  rcases hx : (cx.document interrupted .scenario).run.run {} with ⟨err | p, w'⟩
  · rw [hx] at htest
    cases htest
  rw [hx] at htest
  have hs : Arena.root < (st p).scopes.size := Nat.one_pos
  have hreg : cx.registry = Builtin.registry := rfl
  have hkey : ((st p).world.entity? 0).bind Entity.program = some p := rfl
  refine ⟨rfl, p, w', hx, hs, hkey, ?_⟩
  obtain ⟨xs, hdid, horder, -⟩ := runEntity_in_document_order e hreg rfl hx 10 hs hkey
  refine ⟨xs, hdid, ?_, horder⟩
  rw [hdid.eq_layer]
  exact of_decide_eq_true htest

end Engine

end Scenario
