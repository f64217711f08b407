import Scenario.Proofs.Arena
import Mathlib.Data.List.Chain

/-!
# The lineage of scopes and of their bindings

The scopes of a run are opened, left, written to and read in any order. `Move` lists what can be
done to them, `Move.fits` says on which handles, and `Reached cs a` says that some sequence of moves
leads from a new arena to `a`; `cs` lists what it changed, newest first. Scopes are recycled: a
handle that was left comes back with the next scope that is opened, so that opening a scope forgets
what was bound under its handle before (`latest`).

All that a move can do is one of five effects (`Effect`). Each of them keeps the scopes a tree that
hangs on the root (`Rooted`), and keeps both tables of every scope, values and origins, in step with
the latest change of every name (`Recorded`).

## What is proved

* `Rooted.ancestors_spec`: in such a tree the scopes around a scope lead up to the root, one link at
  a time.
* `Reached.keeps_lineage`: every arena that can be reached is rooted, and what is found under a name
  from any scope, its value and the tag that declared it, comes from one and the same binding, the
  nearest one.
-/

namespace Scenario

namespace Arena

variable {a b : Arena} {s : ScopeId}

/-! ### Moves -/

/-- What can be done to the scopes of a run. -/
inductive Move where
  /-- Opens a scope inside another one. -/
  | enter (parent : ScopeId)
  /-- Leaves a scope. -/
  | leave (s : ScopeId)
  /-- Binds a name, unless `check` finds it bound. -/
  | add (s : ScopeId) (id : String) (origin : Option String) (v : Value) (check : Bool)
  /-- Binds a name as `add` does, and gives the value it had. -/
  | set (s : ScopeId) (id : String) (origin : Option String) (v : Value) (check : Bool)
  /-- Binds a name in any case. -/
  | replace (s : ScopeId) (id : String) (origin : Option String) (v : Value)
  /-- Removes the binding of a name. -/
  | remove (s : ScopeId) (id : String)
  /-- Stores a private value, of one scope or of all. -/
  | setInternal (s : ScopeId) (key : String) (v : Value) (global : Bool)
  /-- Removes a private value. -/
  | removeInternal (s : ScopeId) (key : String) (global : Bool)
  /-- Permits or forbids binding results anew. -/
  | setOverwriteAllowed (s : ScopeId) (allowed : Bool)
  /-- Hands a scope to an entity. -/
  | bindEntity (s : ScopeId) (e : EntityKey)
  /-- Notes whether the entity of a scope has returned. -/
  | setReturning (s : ScopeId) (r : Bool)

/-- What happened to the bindings of a scope. -/
inductive Change where
  /-- A scope was opened, without bindings. -/
  | opened (s : ScopeId)
  /-- A name was bound. -/
  | bound (s : ScopeId) (b : Binding)
  /-- A name was removed. -/
  | unbound (s : ScopeId) (id : String)

namespace Move

/-- The arena after a move. A name that must not be bound again leaves it as it was. -/
def after (a : Arena) : Move → Arena
  | .enter parent => (a.enter parent).1
  | .leave s => a.leave s
  | .add s id origin v check => (a.add s id origin v check).toOption.getD a
  | .set s id origin v check => ((a.set s id origin v check).toOption.map Prod.snd).getD a
  | .replace s id origin v => (a.replace s id origin v).2
  | .remove s id => (a.remove s id).2
  | .setInternal s key v global => (a.setInternal s key v global).2
  | .removeInternal s key global => (a.removeInternal s key global).2
  | .setOverwriteAllowed s allowed => a.setOverwriteAllowed s allowed
  | .bindEntity s e => a.bindEntity s e
  | .setReturning s r => a.setReturning s r

/-- What a move changes about bindings: `add` and `set` count only where they succeed. -/
def change? (a : Arena) : Move → Option Change
  | .enter _ => some (.opened a.size)
  | .add s id origin v check =>
    (a.add s id origin v check).toOption.map fun _ => .bound s ⟨id, v, origin⟩
  | .set s id origin v check =>
    (a.set s id origin v check).toOption.map fun _ => .bound s ⟨id, v, origin⟩
  | .replace s id origin v => some (.bound s ⟨id, v, origin⟩)
  | .remove s id => some (.unbound s id)
  | _ => none

/-- The scope that a move names. -/
def scope : Move → ScopeId
  | .enter s | .leave s | .add s .. | .set s .. | .replace s .. | .remove s _ | .setInternal s ..
  | .removeInternal s .. | .setOverwriteAllowed s _ | .bindEntity s _ | .setReturning s _ => s

/-- A move names a live scope, and a scope is left only while it is the youngest one. -/
def fits (a : Arena) : Move → Bool
  | .leave s => s + 1 = a.size
  | m => m.scope < a.size

end Move

/-- The arenas that a sequence of moves leads to from a new one, with what the moves changed, newest
first. -/
inductive Reached : List Change → Arena → Prop
  | new : Reached [] {}
  | move {cs : List Change} {a : Arena} (h : Reached cs a) (m : Move) (hm : m.fits a = true) :
      Reached ((m.change? a).toList ++ cs) (m.after a)

/-- The scope that was changed. -/
def Change.scope : Change → ScopeId
  | .opened s | .bound s _ | .unbound s _ => s

/-- What a change makes of the bindings of its scope. -/
def Change.apply (m : String → Option Binding) : Change → String → Option Binding
  | .opened _, _ => none
  | .bound _ b, id => if id = b.id then some b else m id
  | .unbound _ k, id => if id = k then none else m id

/-- The binding that the latest change of a name in a scope left there. -/
def latest : List Change → ScopeId → String → Option Binding
  | [], _ => fun _ => none
  | c :: cs, s => if c.scope = s then c.apply (latest cs s) else latest cs s

/-- The binding of a name that is seen from a scope: the latest one of the nearest scope that has
any. -/
def nearest (cs : List Change) (a : Arena) (s : ScopeId) (id : String) : Option Binding :=
  (a.ancestors s).findSome? fun t => latest cs t id

/-! ### What a move can do -/

/-- The second arena has the scopes of the first one, with the same links and bindings. -/
structure SameTables (a b : Arena) : Prop where
  size_eq : b.size = a.size
  parent_eq (k : ScopeId) : (b.frame k).parent = (a.frame k).parent
  seq_eq (k : ScopeId) : b.seq k = a.seq k
  values_eq (k : ScopeId) : (b.frame k).values = (a.frame k).values
  origins_eq (k : ScopeId) : (b.frame k).origins = (a.frame k).origins

/-- The effects of a move, each with what it changes about bindings. -/
inductive Effect (a : Arena) : Option Change → Arena → Prop
  | opened {p : ScopeId} (hp : p < a.size) : Effect a (some (.opened a.size)) (a.enter p).1
  | left {s : ScopeId} (h₀ : 0 < s) (hs : s + 1 = a.size) : Effect a none (a.leave s)
  | bound {s : ScopeId} (hs : s < a.size) (b : Binding) :
      Effect a (some (.bound s b)) (a.modifyFrame s fun f => f.bind b)
  | unbound {s : ScopeId} (hs : s < a.size) (id : String) :
      Effect a (some (.unbound s id)) (a.modifyFrame s fun f => f.unbind id)
  | kept {b : Arena} (h : SameTables a b) : Effect a none b

theorem SameTables.refl (a : Arena) : SameTables a a :=
  ⟨rfl, fun _ => rfl, fun _ => rfl, fun _ => rfl, fun _ => rfl⟩

/-- A change of one frame that keeps its links and its bindings. -/
theorem sameTables_modifyFrame (a : Arena) (s : ScopeId) {g : Frame → Frame}
    (hg : ∀ f, (g f).parent = f.parent ∧ (g f).seq = f.seq ∧ (g f).values = f.values ∧
      (g f).origins = f.origins) : SameTables a (a.modifyFrame s g) where
  size_eq := size_modifyFrame a s g
  parent_eq := frame_modifyFrame Frame.parent g (fun f => (hg f).1) a s
  seq_eq := frame_modifyFrame Frame.seq g (fun f => (hg f).2.1) a s
  values_eq := frame_modifyFrame Frame.values g (fun f => (hg f).2.2.1) a s
  origins_eq := frame_modifyFrame Frame.origins g (fun f => (hg f).2.2.2) a s

/-- Private storage is apart from the bindings, whether a scope has it or all share it. -/
theorem sameTables_setInternal (a : Arena) (s : ScopeId) (key : String) (v : Value)
    (global : Bool) : SameTables a (a.setInternal s key v global).2 := by
  cases global with
  | true => exact ⟨rfl, fun _ => rfl, fun _ => rfl, fun _ => rfl, fun _ => rfl⟩
  | false => exact sameTables_modifyFrame a s fun _ => ⟨rfl, rfl, rfl, rfl⟩

theorem sameTables_removeInternal (a : Arena) (s : ScopeId) (key : String) (global : Bool) :
    SameTables a (a.removeInternal s key global).2 := by
  cases global with
  | true => exact ⟨rfl, fun _ => rfl, fun _ => rfl, fun _ => rfl, fun _ => rfl⟩
  | false => exact sameTables_modifyFrame a s fun _ => ⟨rfl, rfl, rfl, rfl⟩

/-- A write that a check refuses changes nothing; one that it lets through is a replacement. -/
theorem set_cases (a : Arena) (s : ScopeId) (id : String) (origin : Option String) (v : Value)
    (check : Bool) :
    (∃ c, a.set s id origin v check = .error c) ∨
      a.set s id origin v check = .ok (a.replace s id origin v) := by
  unfold set
  split
  · exact .inl ⟨_, rfl⟩
  · exact .inr rfl

/-- Every move that fits has one of the effects. -/
theorem Move.effect {m : Move} (hm : m.fits a = true) : Effect a (m.change? a) (m.after a) := by
  cases m with
  | enter p => exact .opened (of_decide_eq_true hm)
  | leave s =>
    by_cases h₀ : s = root
    · subst h₀
      exact .kept (by simpa [after, Arena.leave] using SameTables.refl a)
    · exact .left (Nat.pos_of_ne_zero h₀) (of_decide_eq_true hm)
  | add s id origin v check =>
    obtain ⟨c, h⟩ | h := a.set_cases s id origin v check
    · rw [change?, after, Arena.add, h]
      exact .kept (.refl a)
    · rw [change?, after, Arena.add, h]
      exact .bound (of_decide_eq_true hm) ⟨id, v, origin⟩
  | set s id origin v check =>
    obtain ⟨c, h⟩ | h := a.set_cases s id origin v check
    · rw [change?, after, h]
      exact .kept (.refl a)
    · rw [change?, after, h]
      exact .bound (of_decide_eq_true hm) ⟨id, v, origin⟩
  | replace s id origin v => exact .bound (of_decide_eq_true hm) ⟨id, v, origin⟩
  | remove s id => exact .unbound (of_decide_eq_true hm) id
  | setInternal s key v global => exact .kept (sameTables_setInternal a s key v global)
  | removeInternal s key global => exact .kept (sameTables_removeInternal a s key global)
  | setOverwriteAllowed s allowed => exact .kept (sameTables_setInternal a s _ _ false)
  | bindEntity s e => exact .kept (sameTables_modifyFrame a s fun _ => ⟨rfl, rfl, rfl, rfl⟩)
  | setReturning s r => exact .kept (sameTables_modifyFrame a s fun _ => ⟨rfl, rfl, rfl, rfl⟩)

/-! ### The tree of scopes -/

/-- The scopes hang on the root: it alone has no parent, and every other scope has an older one as
its parent and lies one step deeper. -/
structure Rooted (a : Arena) : Prop where
  root_live : root < a.size
  root_parent : (a.frame root).parent = none
  root_seq : a.seq root = 0
  linked (s : ScopeId) (h₀ : s ≠ root) (hs : s < a.size) :
    ∃ p < s, (a.frame s).parent = some p ∧ a.seq s = a.seq p + 1

theorem rooted_new : Rooted {} where
  root_live := Nat.one_pos
  root_parent := rfl
  root_seq := rfl
  linked _ h₀ hs := absurd (Nat.lt_one_iff.1 hs) h₀

/-- Links that agree on all live scopes make the same tree. -/
theorem Rooted.congr (h : a.Rooted) (hpos : root < b.size) (hsize : b.size ≤ a.size)
    (hp : ∀ k < b.size, (b.frame k).parent = (a.frame k).parent)
    (hq : ∀ k < b.size, b.seq k = a.seq k) : b.Rooted where
  root_live := hpos
  root_parent := (hp root hpos).trans h.root_parent
  root_seq := (hq root hpos).trans h.root_seq
  linked s h₀ hs := by
    obtain ⟨p, hps, hparent, hseq⟩ := h.linked s h₀ (Nat.lt_of_lt_of_le hs hsize)
    refine ⟨p, hps, (hp s hs).trans hparent, ?_⟩
    rw [hq s hs, hq p (hps.trans hs), hseq]

/-- Every effect keeps the tree of scopes. -/
theorem Effect.rooted {c : Option Change} (h : Effect a c b) (ha : a.Rooted) : b.Rooted := by
  have modified : ∀ (s : ScopeId) (g : Frame → Frame), (∀ f, (g f).parent = f.parent) →
      (∀ f, (g f).seq = f.seq) → (a.modifyFrame s g).Rooted := by
    intro s g hp hq
    have hsize := size_modifyFrame a s g
    exact ha.congr (hsize ▸ ha.root_live) hsize.le
      (fun k _ => frame_modifyFrame Frame.parent g hp a s k)
      fun k _ => frame_modifyFrame Frame.seq g hq a s k
  cases h with
  | @opened p hp =>
    have old : ∀ k < a.size, (a.enter p).1.frame k = a.frame k :=
      fun k hk => frame_enter (Nat.ne_of_lt hk)
    have new := a.frame_enter_size p
    refine ⟨?_, ?_, ?_, ?_⟩
    · rw [size_enter]
      exact Nat.succ_pos _
    · rw [old root ha.root_live, ha.root_parent]
    · rw [seq, old root ha.root_live]
      exact ha.root_seq
    · intro s h₀ hs
      obtain hs | rfl := Nat.lt_succ_iff_lt_or_eq.1 (size_enter a p ▸ hs)
      · obtain ⟨q, hqs, hparent, hseq⟩ := ha.linked s h₀ hs
        refine ⟨q, hqs, ?_, ?_⟩
        · rw [old s hs, hparent]
        · rw [seq, seq, old s hs, old q (hqs.trans hs)]
          exact hseq
      · refine ⟨p, hp, ?_, ?_⟩
        · rw [new]
        · rw [seq, seq, new, old p hp, seq]
  | @left s h₀ hs =>
    have hsize : (a.leave s).size = s := size_leave h₀ (hs ▸ Nat.le_succ s)
    refine ha.congr ?_ ?_ ?_ ?_
    · rw [hsize]
      exact h₀
    · rw [hsize, ← hs]
      exact Nat.le_succ s
    · intro k hk
      rw [frame_leave (hsize ▸ hk)]
    · intro k hk
      rw [seq, seq, frame_leave (hsize ▸ hk)]
  | @bound s hs b => exact modified s _ (fun _ => rfl) fun _ => rfl
  | @unbound s hs id => exact modified s _ (fun _ => rfl) fun _ => rfl
  | kept h =>
    exact ha.congr (h.size_eq ▸ ha.root_live) h.size_eq.le (fun k _ => h.parent_eq k)
      fun k _ => h.seq_eq k

/-- The scopes around a scope: they start at it, follow the links without meeting a scope twice, and
end at the root. -/
structure LeadsUp (a : Arena) (s : ScopeId) (ss : List ScopeId) : Prop where
  head : ss.head? = some s
  linked : ss.IsChain fun t p => (a.frame t).parent = some p
  last : ss.getLast? = some root
  nodup : ss.Nodup
  length : ss.length = a.seq s + 1

/-- In a rooted arena every live scope has such a list of scopes around it. -/
theorem Rooted.ancestors_spec (h : a.Rooted) (hs : s < a.size) :
    a.LeadsUp s (a.ancestors s) := by
  -- The parent is older, so the induction is on the handle.
  induction s using Nat.strong_induction_on with
  | _ s ih =>
    by_cases h₀ : s = root
    · subst h₀
      have hself : a.ancestors root = [root] := by
        rw [ancestors, h.root_parent]
      rw [hself]
      exact ⟨rfl, .singleton _, rfl, by simp, by rw [h.root_seq]; rfl⟩
    · obtain ⟨p, hps, hparent, hseq⟩ := h.linked s h₀ hs
      have up := ih p hps (hps.trans hs)
      rw [ancestors_of_parent hparent hps]
      refine ⟨rfl, ?_, ?_, ?_, ?_⟩
      · refine List.isChain_cons.2 ⟨fun q hq => ?_, up.linked⟩
        rw [up.head] at hq
        obtain rfl := Option.some.inj hq
        exact hparent
      · rw [List.getLast?_cons, up.last]
        rfl
      · refine List.nodup_cons.2 ⟨fun hmem => ?_, up.nodup⟩
        exact absurd (le_of_mem_ancestors hmem) (Nat.not_le.2 hps)
      · rw [List.length_cons, up.length, hseq]

/-! ### The two tables of a scope -/

/-- The two tables of a scope hold these bindings: their values, and the tags that declared them. -/
def Holds (f : Frame) (m : String → Option Binding) : Prop :=
  ∀ id, f.values.get? id = (m id).map Binding.value ∧ f.origins.get? id = (m id).bind Binding.origin

theorem holds_bind {f : Frame} {m : String → Option Binding} (h : Holds f m) (s : ScopeId)
    (b : Binding) : Holds (f.bind b) ((Change.bound s b).apply m) := by
  intro id
  simp only [Frame.bind, Change.apply, Entries.get?_insert, Origins.get?_note]
  by_cases hid : id = b.id
  · simp [hid]
  · simpa [hid] using h id

theorem holds_unbind {f : Frame} {m : String → Option Binding} (h : Holds f m) (s : ScopeId)
    (k : String) : Holds (f.unbind k) ((Change.unbound s k).apply m) := by
  intro id
  simp only [Frame.unbind, Change.apply, Entries.get?_erase, Origins.get?_erase]
  by_cases hid : id = k
  · simp [hid]
  · simpa [hid] using h id

/-- Every live scope holds what the latest changes left there. -/
def Recorded (cs : List Change) (a : Arena) : Prop := ∀ s < a.size, Holds (a.frame s) (latest cs s)

theorem recorded_new : Recorded [] {} := by
  intro s hs id
  obtain rfl : s = root := Nat.lt_one_iff.1 hs
  exact ⟨rfl, rfl⟩

/-- A change of one scope, recorded there, leaves the records of the others as they are. -/
theorem Recorded.modifyFrame {cs : List Change} (ha : Recorded cs a) {c : Change}
    {g : Frame → Frame} (hg : ∀ f m, Holds f m → Holds (g f) (c.apply m)) :
    Recorded (c :: cs) (a.modifyFrame c.scope g) := by
  intro k hk
  rw [size_modifyFrame] at hk
  by_cases hs : c.scope = k
  · have hlatest : latest (c :: cs) k = c.apply (latest cs k) := if_pos hs
    rw [hlatest, hs, frame_modifyFrame_self g hk]
    exact hg _ _ (ha k hk)
  · have hlatest : latest (c :: cs) k = latest cs k := if_neg hs
    rw [hlatest, frame_modifyFrame_of_ne g (Ne.symm hs)]
    exact ha k hk

/-- Every effect keeps the tables and the changes in step. -/
theorem Effect.recorded {c : Option Change} {cs : List Change} (h : Effect a c b)
    (ha : Recorded cs a) : Recorded (c.toList ++ cs) b := by
  cases h with
  | @opened p hp =>
    intro k hk
    obtain hk | rfl := Nat.lt_succ_iff_lt_or_eq.1 (size_enter a p ▸ hk)
    · have hlatest : latest (.opened a.size :: cs) k = latest cs k := if_neg (Nat.ne_of_gt hk)
      rw [frame_enter (Nat.ne_of_lt hk)]
      exact hlatest ▸ ha k hk
    · have hlatest : latest (.opened a.size :: cs) a.size =
          (Change.opened a.size).apply (latest cs a.size) := if_pos rfl
      rw [frame_enter_size]
      exact hlatest ▸ fun _ => ⟨rfl, rfl⟩
  | @left s h₀ hs =>
    intro k hk
    have hsize : (a.leave s).size = s := size_leave h₀ (hs ▸ Nat.le_succ s)
    have hk : k < s := hsize ▸ hk
    rw [frame_leave hk]
    exact ha k (hs ▸ Nat.lt_succ_of_lt hk)
  | @bound s hs x => exact ha.modifyFrame fun f m h => holds_bind h s x
  | @unbound s hs x => exact ha.modifyFrame fun f m h => holds_unbind h s x
  | kept h =>
    intro k hk id
    rw [h.values_eq k, h.origins_eq k]
    exact ha k (h.size_eq ▸ hk) id

/-! ### Reachable arenas -/

theorem Reached.rooted {cs : List Change} (h : Reached cs a) : a.Rooted := by
  induction h with
  | new => exact rooted_new
  | move _ m hm ih => exact (m.effect hm).rooted ih

theorem Reached.recorded {cs : List Change} (h : Reached cs a) : Recorded cs a := by
  induction h with
  | new => exact recorded_new
  | move _ m hm ih => exact (m.effect hm).recorded ih

/-- Looking a name up finds the value of its nearest binding and the tag that declared it. -/
theorem Recorded.lookup_eq {cs : List Change} (h : Recorded cs a) (hs : s < a.size) (id : String) :
    a.get? s id = (nearest cs a s id).map Binding.value ∧
      a.origin? s id = (nearest cs a s id).bind Binding.origin := by
  have holds : ∀ t ∈ a.ancestors s, Holds (a.frame t) (latest cs t) :=
    fun t ht => h t (Nat.lt_of_le_of_lt (le_of_mem_ancestors ht) hs)
  -- Both searches stop at the same scope: the first one whose table of values has the name.
  rw [get?, origin?, chain, nearest]
  generalize a.ancestors s = ss at holds
  induction ss with
  | nil => exact ⟨rfl, rfl⟩
  | cons t ss ih =>
    obtain ⟨hv, ho⟩ := holds t List.mem_cons_self id
    have ih := ih fun u hu => holds u (List.mem_cons_of_mem _ hu)
    cases hb : latest cs t id with
    | none => simpa [hv, hb] using ih
    | some b => simp [hv, ho, hb]

/-- A tag is noted only for a name that is bound. -/
theorem Holds.has_of_origin {m : String → Option Binding} (h : Holds (a.frame s) m)
    {id tag : String} (ho : (a.frame s).origins.get? id = some tag) : a.has s id = true := by
  obtain ⟨hv, ho'⟩ := h id
  rw [ho'] at ho
  obtain ⟨b, hb, -⟩ := Option.bind_eq_some_iff.1 ho
  rw [has, getHere?, hv, hb]
  rfl

/-- After any sequence of moves the scopes form a tree under the root, and from every scope one list
of ever older scopes leads up to it. Each scope holds, of every name, what the latest write that
succeeded left there, its value in one table and the declaring tag in the other, and a tag only of
names that it binds. So the tag found for a name is the one that declared the binding whose value is
found. -/
theorem Reached.keeps_lineage {cs : List Change} (h : Reached cs a) :
    a.Rooted ∧ (∀ s < a.size, a.LeadsUp s (a.ancestors s)) ∧
      (∀ s < a.size, Holds (a.frame s) (latest cs s) ∧
        ∀ id tag, (a.frame s).origins.get? id = some tag → a.has s id = true) ∧
      ∀ s < a.size, ∀ id, a.get? s id = (nearest cs a s id).map Binding.value ∧
        a.origin? s id = (nearest cs a s id).bind Binding.origin := by
  have hroot := h.rooted
  have hrec := h.recorded
  refine ⟨hroot, fun s hs => hroot.ancestors_spec hs, fun s hs => ⟨hrec s hs, ?_⟩,
    fun s hs id => hrec.lookup_eq hs id⟩
  intro id tag ho
  exact (hrec s hs).has_of_origin ho

/-- A name that is declared, refused a second declaration, removed and bound again without a tag,
and a handle that is left and comes back under another parent. -/
theorem keeps_lineage_recycled : ∃ cs a, Reached cs a ∧
    (latest cs 1 "x").map Binding.origin = some none ∧ a.has 1 "x" = true ∧
    (a.frame 1).origins.get? "x" = none ∧ a.seq 2 = 1 ∧ (a.ancestors 2).length = 2 ∧
    a.get? 2 "y" = (nearest cs a 2 "y").map Binding.value ∧ latest cs 2 "y" = none := by
  have h := Reached.new.move (.enter 0) (by decide +kernel)
    |>.move (.add 1 "x" (some "data") (.bool true) true) (by decide +kernel)
    |>.move (.add 1 "x" (some "log") (.bool false) true) (by decide +kernel)
    |>.move (.remove 1 "x") (by decide +kernel)
    |>.move (.set 1 "x" none (.bool false) true) (by decide +kernel)
    |>.move (.enter 1) (by decide +kernel)
    |>.move (.replace 2 "y" (some "data") (.bool true)) (by decide +kernel)
    |>.move (.leave 2) (by decide +kernel)
    |>.move (.enter 0) (by decide +kernel)
  obtain ⟨-, up, held, found⟩ := h.keeps_lineage
  refine ⟨_, _, h, by decide +kernel, by decide +kernel, by decide +kernel, by decide +kernel, ?_,
    (found 2 (by decide +kernel) "y").1, by rfl⟩
  exact (up 2 (by decide +kernel)).length

end Arena

end Scenario
