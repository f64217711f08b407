import Mathlib.Data.List.Pairwise
import Mathlib.Logic.Relation
import Scenario.Lock.Table

/-!
# Threads that share named locks

A call for a lock goes through sections, each of which is one atomic step: it is counted in under
its name, asks for the lock, may wait and give up, holds the lock and leaves it, and is counted out
again. Any number of threads do this at once, and their sections interleave in any way.

* `LockCall.next?` — the next section of a call, and `LockStep` — a section of any call, or a new
  one.
* `Lock.Turn` — what a section can do to the lock it is about; `LockCall.next?_turn` says that it
  does that, and nothing else to the table.
* `LockTable.Counts` — the names in the table agree with the calls; `Lock.Held` — a lock agrees with
  the threads that hold it. Each is kept by every section, hence by every run.
* **`LockSystem.locks_agree`** — what that says of a name in every state that can be reached.

`LockTable.acquire_steps` and `release_steps` say that the operations of the table are such runs.
-/

namespace Scenario

/-! ### Calls -/

/-- How far a call for a lock has come. -/
inductive LockPhase where
  /-- It is counted in and has the lock, but has not asked for it. -/
  | counted
  /-- It waits. -/
  | waiting (ticket : Ticket)
  /-- It gave up waiting and is not counted out. -/
  | expired
  /-- It holds the lock. -/
  | holding
  /-- It has left the lock and is not counted out. -/
  | released
  deriving DecidableEq

/-- A call for a lock that is counted in and not yet counted out. -/
structure LockCall where
  /-- The thread that made it. -/
  thread : Thread
  /-- What it will have. -/
  guard : LockGuard
  /-- How far it has come. -/
  phase : LockPhase
  deriving DecidableEq

namespace LockCall

/-- The call in another phase. -/
def moved (c : LockCall) (p : LockPhase) : LockCall := { c with phase := p }

@[simp] theorem guard_moved (c : LockCall) (p : LockPhase) : (c.moved p).guard = c.guard := rfl

@[simp] theorem thread_moved (c : LockCall) (p : LockPhase) : (c.moved p).thread = c.thread := rfl

/-- The call as it waits. -/
def waiter (c : LockCall) (ticket : Ticket) : LockWaiter := ⟨c.thread, c.guard, ticket⟩

/-- A call that has a ticket waits, unless its time is up. -/
def wait (c : LockCall) (late : Bool) (t : LockTable) (ticket : Ticket) : LockTable × LockCall :=
  if late then (t.expire (c.waiter ticket), c.moved .expired) else (t, c.moved (.waiting ticket))

/-- The next section of a call, if it is about the lock; `late` tells whether its time is up. -/
def next? (c : LockCall) (late : Bool) (t : LockTable) : Option (LockTable × LockCall) :=
  match c.phase with
  | .counted =>
    match t.request c.guard.key c.thread with
    | (t, none) => some (t, c.moved .holding)
    | (t, some ticket) => some (c.wait late t ticket)
  | .waiting ticket =>
    match t.grant? (c.waiter ticket) with
    | some t => some (t, c.moved .holding)
    | none => some (c.wait late t ticket)
  | .holding => some (t.leave c.guard, c.moved .released)
  | .expired | .released => none

end LockCall

/-- The table and the calls that are counted in. -/
structure LockSystem where
  /-- The table. -/
  table : LockTable := {}
  /-- The calls. -/
  calls : List LockCall := []

/-- One atomic step of some thread. -/
inductive LockStep : LockSystem → LockSystem → Prop where
  /-- A thread makes a call, which is counted in. -/
  | enroll (t : LockTable) (cs : List LockCall) (thread : Thread) (name : String) :
      LockStep ⟨t, cs⟩
        ⟨(t.enroll name).1, cs ++ [⟨thread, ⟨name, (t.enroll name).2⟩, .counted⟩]⟩
  /-- A call does something with its lock. -/
  | next {t t' : LockTable} {cs cs' : List LockCall} {c c' : LockCall} (late : Bool) :
      c.next? late t = some (t', c') → LockStep ⟨t, cs ++ c :: cs'⟩ ⟨t', cs ++ c' :: cs'⟩
  /-- A call that has nothing more to do with its lock is counted out. -/
  | forget {t : LockTable} {cs cs' : List LockCall} {c : LockCall} :
      c.phase = .expired ∨ c.phase = .released →
      LockStep ⟨t, cs ++ c :: cs'⟩ ⟨t.forget c.guard.name, cs ++ cs'⟩

/-- A state that the threads can reach. -/
def LockSystem.Reachable (sys : LockSystem) : Prop := Relation.ReflTransGen LockStep {} sys

/-! ### One lock -/

namespace Lock

/-- What a section does to its lock, and whether its call holds the lock before and after it. -/
inductive Turn (l : Lock) (x : Thread) (l' : Lock) : Bool → Bool → Prop where
  | keep : l'.owner = l.owner → l'.depth = l.depth → Turn l x l' false false
  | enter : l.owner = none → l'.owner = some x → l'.depth = 1 → Turn l x l' false true
  | reenter : l.owner = some x → l'.owner = some x → l'.depth = l.depth + 1 → Turn l x l' false true
  | leave : l' = l.release → Turn l x l' true false

/-- A section in two parts, the first of which is no matter for the owner. -/
theorem Turn.after {l l₁ l' : Lock} {x : Thread} {after : Bool} (h : Turn l x l₁ false false)
    (h' : Turn l₁ x l' false after) : Turn l x l' false after := by
  cases h with
  | keep ho hd =>
    cases h' with
    | keep ho' hd' => exact .keep (ho'.trans ho) (hd'.trans hd)
    | enter hfree ho' hd' => exact .enter (ho ▸ hfree) ho' hd'
    | reenter hmine ho' hd' => exact .reenter (ho ▸ hmine) ho' (hd ▸ hd')

theorem turn_of_reenter? {l l' : Lock} {x : Thread} (h : l.reenter? x = some l') :
    Turn l x l' false true := by
  unfold reenter? at h
  split at h
  · cases h
    exact .reenter ‹_› ‹_› rfl
  · cases h

theorem turn_of_grant? {l l' : Lock} {x : Thread} {ticket : Ticket}
    (h : l.grant? x ticket = some l') : Turn l x l' false true := by
  unfold grant? at h
  split at h
  · cases h
    exact .enter (And.left ‹_›) rfl rfl
  · cases h

/-- A lock agrees with the threads that hold it, each as many times as it does. -/
structure Held (l : Lock) (xs : List Thread) : Prop where
  depth : l.depth = xs.length
  owner : l.owner.isSome = true ↔ 0 < l.depth
  one : ∀ x ∈ xs, l.owner = some x

theorem held_new : Held {} [] where
  depth := rfl
  owner := by simp
  one := by simp

/-- The thread of a call as often as the call holds the lock. -/
def share (x : Thread) (holds : Bool) : List Thread := if holds then [x] else []

/-- **A section keeps its lock in agreement** with the threads that hold it. -/
theorem Held.turn {l l' : Lock} {x : Thread} {xs ys : List Thread} {before after : Bool}
    (h : Held l (xs ++ share x before ++ ys)) (ht : Turn l x l' before after) :
    Held l' (xs ++ share x after ++ ys) := by
  obtain ⟨hdepth, howner, hone⟩ := h
  cases ht with
  | keep ho hd => exact ⟨hd ▸ hdepth, by rw [ho, hd, howner], fun y hy => ho ▸ hone y hy⟩
  | enter hfree ho hd =>
    -- a lock without an owner is held by nobody
    have hnone : l.depth = 0 := by simpa [hfree] using howner
    obtain ⟨rfl, rfl⟩ : xs = [] ∧ ys = [] := by simpa [hnone, share] using hdepth.symm
    exact ⟨by simp [hd, share], by simp [ho, hd], by simp [share, ho]⟩
  | reenter hmine ho hd =>
    refine ⟨?_, by simp [ho, hd], fun y hy => ?_⟩
    · simp [share] at hdepth ⊢
      omega
    · rw [ho]
      simp only [share, if_true, Bool.false_eq_true, if_false, List.append_nil, List.mem_append,
        List.mem_singleton] at hy hone
      rcases hy with (hy | rfl) | hy
      · exact hmine ▸ hone y (.inl hy)
      · rfl
      · exact hmine ▸ hone y (.inr hy)
  | leave hl =>
    have hlen : l.depth = xs.length + ys.length + 1 := by simp [hdepth, share]; omega
    subst hl
    unfold release
    split
    · have hnone : xs = [] ∧ ys = [] := by
        rw [← List.length_eq_zero_iff, ← List.length_eq_zero_iff]
        omega
      obtain ⟨rfl, rfl⟩ := hnone
      exact ⟨rfl, by simp, by simp [share]⟩
    · refine ⟨by simp [share]; omega, ?_, fun y hy => hone y ?_⟩
      · simp only [howner]
        omega
      · simp only [share, Bool.false_eq_true, if_false, if_true, List.append_nil, List.mem_append,
          List.mem_singleton] at hy ⊢
        exact hy.imp_left .inl

end Lock

/-! ### One section -/

namespace LockTable

variable {t t' : LockTable} {key : LockKey}

/-- At most one lock differs, and the names do not. -/
structure Only (key : LockKey) (t t' : LockTable) : Prop where
  slots : t'.slots = t.slots
  size : t'.locks.size = t.locks.size
  others : ∀ k, k ≠ key → t'.lock k = t.lock k

theorem Only.refl (key : LockKey) (t : LockTable) : Only key t t := ⟨rfl, rfl, fun _ _ => rfl⟩

theorem Only.trans {t₁ t₂ t₃ : LockTable} (h : Only key t₁ t₂) (h' : Only key t₂ t₃) :
    Only key t₁ t₃ where
  slots := h'.slots.trans h.slots
  size := h'.size.trans h.size
  others k hk := (h'.others k hk).trans (h.others k hk)

theorem only_setLock (t : LockTable) (key : LockKey) (l : Lock) : Only key t (t.setLock key l) where
  slots := rfl
  size := by simp [setLock]
  others k hk := by simp [lock, setLock, Array.getElem?_modify, Ne.symm hk]

theorem lock_setLock (h : key < t.locks.size) (l : Lock) : (t.setLock key l).lock key = l := by
  simp only [lock, setLock, Array.getElem?_modify, if_true, Array.getElem?_eq_getElem h]
  rfl

/-- A thread that asks for a lock enters it, or waits for it. -/
theorem request_turn (h : key < t.locks.size) {x : Thread} {ticket? : Option Ticket}
    (ht : t.request key x = (t', ticket?)) :
    Only key t t' ∧ (t.lock key).Turn x (t'.lock key) false ticket?.isNone := by
  unfold request at ht
  cases hr : (t.lock key).reenter? x with
  | some l =>
    simp only [hr, Prod.mk.injEq] at ht
    obtain ⟨rfl, rfl⟩ := ht
    rw [lock_setLock h]
    exact ⟨only_setLock t key l, Lock.turn_of_reenter? hr⟩
  | none =>
    simp only [hr] at ht
    have hqueue : (t.lock key).Turn x (t.lock key).enqueue.1 false false := .keep rfl rfl
    cases hg : (t.lock key).enqueue.1.grant? x (t.lock key).enqueue.2 with
    | some l =>
      simp only [hg, Prod.mk.injEq] at ht
      obtain ⟨rfl, rfl⟩ := ht
      rw [lock_setLock h]
      exact ⟨only_setLock t key l, hqueue.after (Lock.turn_of_grant? hg)⟩
    | none =>
      simp only [hg, Prod.mk.injEq] at ht
      obtain ⟨rfl, rfl⟩ := ht
      rw [lock_setLock h]
      exact ⟨only_setLock t key _, hqueue⟩

theorem grant?_turn {w : LockWaiter} (h : w.guard.key < t.locks.size)
    (ht : t.grant? w = some t') : Only w.guard.key t t' ∧
      (t.lock w.guard.key).Turn w.thread (t'.lock w.guard.key) false true := by
  obtain ⟨l, hl, rfl⟩ := Option.map_eq_some_iff.1 ht
  rw [lock_setLock h]
  exact ⟨only_setLock t _ l, Lock.turn_of_grant? hl⟩

end LockTable

namespace LockCall

open LockTable

variable {t t' : LockTable} {c c' : LockCall} {late : Bool}

/-- Whether the call holds the lock. -/
def holds (c : LockCall) : Bool := c.phase == .holding

/-- A call that waits or gives up takes nothing from the lock but its place in the queue. -/
theorem wait_turn (h : c.guard.key < t.locks.size) {ticket : Ticket}
    (hw : c.wait late t ticket = (t', c')) :
    (∃ p, c' = c.moved p) ∧ Only c.guard.key t t' ∧
      (t.lock c.guard.key).Turn c.thread (t'.lock c.guard.key) false c'.holds := by
  cases late with
  | false =>
    obtain ⟨rfl, rfl⟩ := Prod.mk.inj hw
    exact ⟨⟨_, rfl⟩, .refl _ t, .keep rfl rfl⟩
  | true =>
    obtain ⟨rfl, rfl⟩ := Prod.mk.inj hw
    refine ⟨⟨_, rfl⟩, only_setLock t _ _, ?_⟩
    rw [expire, waiter, lock_setLock h]
    exact .keep rfl rfl

/-- **What a section does.** It changes the phase of its call and takes a turn with its lock; the
rest of the table stays as it is. -/
theorem next?_turn (h : c.guard.key < t.locks.size) (hn : c.next? late t = some (t', c')) :
    (∃ p, c' = c.moved p) ∧ Only c.guard.key t t' ∧
      (t.lock c.guard.key).Turn c.thread (t'.lock c.guard.key) c.holds c'.holds := by
  unfold next? at hn
  cases hp : c.phase with
  | counted =>
    have hnot : c.holds = false := by simp [holds, hp]
    rw [hnot]
    rcases hr : t.request c.guard.key c.thread with ⟨t₁, _ | ticket⟩
    · simp only [hp, hr, Option.some.injEq, Prod.mk.injEq] at hn
      obtain ⟨rfl, rfl⟩ := hn
      exact ⟨⟨_, rfl⟩, request_turn h hr⟩
    · simp only [hp, hr, Option.some.injEq] at hn
      obtain ⟨honly, hturn⟩ := request_turn h hr
      obtain ⟨hto, honly', hturn'⟩ := wait_turn (honly.size ▸ h) hn
      exact ⟨hto, honly.trans honly', hturn.after hturn'⟩
  | waiting ticket =>
    have hnot : c.holds = false := by simp [holds, hp]
    rw [hnot]
    cases hg : t.grant? (c.waiter ticket) with
    | some t₁ =>
      simp only [hp, hg, Option.some.injEq, Prod.mk.injEq] at hn
      obtain ⟨rfl, rfl⟩ := hn
      exact ⟨⟨_, rfl⟩, grant?_turn (w := c.waiter ticket) h hg⟩
    | none =>
      simp only [hp, hg, Option.some.injEq] at hn
      exact wait_turn h hn
  | holding =>
    simp only [hp, Option.some.injEq, Prod.mk.injEq] at hn
    obtain ⟨rfl, rfl⟩ := hn
    have hheld : c.holds = true := by simp [holds, hp]
    refine ⟨⟨_, rfl⟩, only_setLock t _ _, hheld ▸ .leave ?_⟩
    exact lock_setLock h _
  | expired => simp [hp] at hn
  | released => simp [hp] at hn

end LockCall

/-! ### Names -/

namespace LockSlot

@[simp] theorem name_enrolled (s : LockSlot) (name : String) : (s.enrolled name).name = s.name := by
  unfold enrolled
  split <;> rfl

@[simp] theorem key_enrolled (s : LockSlot) (name : String) : (s.enrolled name).key = s.key := by
  unfold enrolled
  split <;> rfl

theorem users_enrolled (s : LockSlot) (name : String) :
    (s.enrolled name).users = s.users + if s.name = name then 1 else 0 := by
  by_cases h : s.name = name <;> simp [enrolled, h]

/-- What is left of a slot: it has another name, or more than one user. -/
theorem forgotten?_eq_some_iff {s s' : LockSlot} {name : String} :
    s.forgotten? name = some s' ↔
      (s.name = name → 1 < s.users) ∧ s'.name = s.name ∧ s'.key = s.key ∧
        s'.users = s.users - if s.name = name then 1 else 0 := by
  have hext : ∀ {a b : LockSlot}, a = b ↔ b.name = a.name ∧ b.key = a.key ∧ b.users = a.users := by
    rintro ⟨n, k, u⟩ ⟨n', k', u'⟩
    simp only [mk.injEq, eq_comm]
  by_cases hname : s.name = name
  · simp only [forgotten?, hname, beq_self_eq_true, if_true, forall_const]
    by_cases hmore : 1 < s.users
    · rw [if_neg (by omega), Option.some.injEq, hext]
      simp [hmore]
    · rw [if_pos (by omega)]
      simp [hmore]
  · simp only [forgotten?, beq_eq_false_iff_ne.2 hname, Bool.false_eq_true, if_false,
      Option.some.injEq, hext, hname, false_imp_iff, true_and, Nat.sub_zero]

end LockSlot

namespace LockTable

/-- The names in the table agree with the calls that are counted in, of which only the names and the
locks matter. -/
structure Counts (t : LockTable) (gs : List LockGuard) : Prop where
  distinct : t.slots.Pairwise fun s s' => s.name ≠ s'.name ∧ s.key ≠ s'.key
  made : ∀ s ∈ t.slots, s.key < t.locks.size
  users : ∀ s ∈ t.slots, 0 < s.users ∧ s.users = gs.countP fun g => g.name == s.name
  slot : ∀ g ∈ gs, ∃ s ∈ t.slots, s.name = g.name ∧ s.key = g.key

variable {t t' : LockTable} {gs gs' : List LockGuard} {g : LockGuard} {name : String}

theorem counts_new : Counts {} [] := ⟨.nil, by simp, by simp, by simp⟩

/-- The key of a call is that of a lock. -/
theorem Counts.key_lt (h : Counts t gs) (hg : g ∈ gs) : g.key < t.locks.size := by
  obtain ⟨s, hs, -, hkey⟩ := h.slot g hg
  exact hkey ▸ h.made s hs

/-- Two slots with the same name or the same lock are one. -/
theorem Counts.slot_eq (h : Counts t gs) {s s' : LockSlot} (hs : s ∈ t.slots) (hs' : s' ∈ t.slots)
    (heq : s.name = s'.name ∨ s.key = s'.key) : s = s' := by
  have : Std.Symm fun s s' : LockSlot => s.name ≠ s'.name ∧ s.key ≠ s'.key :=
    ⟨fun _ _ hne => ⟨hne.1.symm, hne.2.symm⟩⟩
  by_contra hne
  obtain ⟨hname, hkey⟩ := h.distinct.forall hs hs' hne
  exact heq.elim hname hkey

/-- The slot of a name is the one that the table has for it. -/
theorem Counts.slot?_eq_some_iff (h : Counts t gs) {s : LockSlot} :
    t.slot? name = some s ↔ s ∈ t.slots ∧ s.name = name := by
  constructor
  · intro hs
    exact ⟨List.mem_of_find?_eq_some hs, by simpa using List.find?_some hs⟩
  · rintro ⟨hs, rfl⟩
    cases hfound : t.slot? s.name with
    | none => simpa using List.find?_eq_none.1 hfound s hs
    | some s' =>
      have hname : s'.name = s.name := by simpa using List.find?_some hfound
      rw [h.slot_eq (List.mem_of_find?_eq_some hfound) hs (.inl hname)]

theorem Counts.slot?_eq_none_iff (h : Counts t gs) :
    t.slot? name = none ↔ gs.countP (fun g => g.name == name) = 0 := by
  rw [List.countP_eq_zero]
  constructor
  · intro hnone g hg hname
    obtain ⟨s, hs, hs', -⟩ := h.slot g hg
    exact absurd (by simpa [hs'] using hname) (List.find?_eq_none.1 hnone s hs)
  · intro hfree
    refine List.find?_eq_none.2 fun s hs hname => ?_
    obtain ⟨hpos, hcount⟩ := h.users s hs
    rw [hcount, List.countP_pos_iff] at hpos
    obtain ⟨g, hg, hgs⟩ := hpos
    exact hfree g hg (by simpa [eq_of_beq hname] using hgs)

/-- Names and keys stay if no name is counted in or out. -/
theorem Counts.only (h : Counts t gs) {key : LockKey} (ho : Only key t t') : Counts t' gs where
  distinct := ho.slots ▸ h.distinct
  made := by
    rw [ho.slots, ho.size]
    exact h.made
  users := ho.slots ▸ h.users
  slot := ho.slots ▸ h.slot

/-- **A call is counted in.** -/
theorem Counts.enroll (h : Counts t gs) (name : String) :
    Counts (t.enroll name).1 (gs ++ [⟨name, (t.enroll name).2⟩]) := by
  unfold LockTable.enroll
  cases hslot : t.slot? name with
  | some s₀ =>
    obtain ⟨hs₀, rfl⟩ := h.slot?_eq_some_iff.1 hslot
    refine ⟨?_, ?_, ?_, ?_⟩
    · exact List.pairwise_map.2 (by simpa using h.distinct)
    · simpa using h.made
    · simp only [List.forall_mem_map, LockSlot.name_enrolled, LockSlot.users_enrolled,
        List.countP_append, List.countP_singleton, beq_iff_eq, eq_comm (a := s₀.name)]
      intro s hs
      obtain ⟨hpos, hcount⟩ := h.users s hs
      exact ⟨Nat.add_pos_left hpos _, by rw [hcount]⟩
    · intro g hg
      have hfound : ∃ s ∈ t.slots, s.name = g.name ∧ s.key = g.key := by
        rcases List.mem_append.1 hg with hg | hg
        · exact h.slot g hg
        · obtain rfl := List.mem_singleton.1 hg
          exact ⟨s₀, hs₀, rfl, rfl⟩
      obtain ⟨s, hs, hsg⟩ := hfound
      exact ⟨_, List.mem_map_of_mem hs, by simpa using hsg⟩
  | none =>
    have hnew : ∀ s ∈ t.slots, s.name ≠ name := fun s hs heq =>
      absurd (by simpa using heq) (List.find?_eq_none.1 hslot s hs)
    have hfree := h.slot?_eq_none_iff.1 hslot
    refine ⟨?_, ?_, ?_, ?_⟩
    · refine List.pairwise_append.2 ⟨h.distinct, List.pairwise_singleton _ _, fun s hs s' hs' => ?_⟩
      obtain rfl := List.mem_singleton.1 hs'
      exact ⟨hnew s hs, Nat.ne_of_lt (h.made s hs)⟩
    · intro s hs
      rcases List.mem_append.1 hs with hs | hs
      · simpa using Nat.lt_succ_of_lt (h.made s hs)
      · obtain rfl := List.mem_singleton.1 hs
        simp
    · intro s hs
      rcases List.mem_append.1 hs with hs | hs
      · simpa [List.countP_append, Ne.symm (hnew s hs)] using h.users s hs
      · obtain rfl := List.mem_singleton.1 hs
        simp [List.countP_append, hfree]
    · intro g hg
      rcases List.mem_append.1 hg with hg | hg
      · obtain ⟨s, hs, hsg⟩ := h.slot g hg
        exact ⟨s, List.mem_append_left _ hs, hsg⟩
      · obtain rfl := List.mem_singleton.1 hg
        exact ⟨_, List.mem_append_right _ (List.mem_singleton_self _), rfl, rfl⟩

/-- **A call is counted out.** -/
theorem Counts.forget (h : Counts t (gs ++ g :: gs')) :
    Counts (t.forget g.name) (gs ++ gs') := by
  have hcount : ∀ name : String, (gs ++ g :: gs').countP (fun g => g.name == name) =
      (gs ++ gs').countP (fun g => g.name == name) + if name = g.name then 1 else 0 := by
    intro name
    simp only [List.countP_append, List.countP_cons, beq_iff_eq, eq_comm (a := g.name)]
    omega
  refine ⟨?_, ?_, ?_, ?_⟩
  · refine List.Pairwise.filterMap _ (fun s₁ s₂ hne s₁' hs₁ s₂' hs₂ => ?_) h.distinct
    obtain ⟨-, hn₁, hk₁, -⟩ := LockSlot.forgotten?_eq_some_iff.1 hs₁
    obtain ⟨-, hn₂, hk₂, -⟩ := LockSlot.forgotten?_eq_some_iff.1 hs₂
    rwa [hn₁, hn₂, hk₁, hk₂]
  · intro s' hs'
    obtain ⟨s, hs, hleft⟩ := List.mem_filterMap.1 hs'
    obtain ⟨-, -, hkey, -⟩ := LockSlot.forgotten?_eq_some_iff.1 hleft
    exact hkey ▸ h.made s hs
  · intro s' hs'
    obtain ⟨s, hs, hleft⟩ := List.mem_filterMap.1 hs'
    obtain ⟨hmore, hname, -, hless⟩ := LockSlot.forgotten?_eq_some_iff.1 hleft
    obtain ⟨hpos, husers⟩ := h.users s hs
    rw [hcount] at husers
    rw [hname, hless]
    split at husers
    · have := hmore ‹_›
      simp only [if_pos ‹s.name = g.name›]
      omega
    · simp only [if_neg ‹¬s.name = g.name›]
      omega
  · intro g' hg'
    have hmem : g' ∈ gs ++ g :: gs' := by
      rcases List.mem_append.1 hg' with hg' | hg'
      · exact List.mem_append_left _ hg'
      · exact List.mem_append_right _ (List.mem_cons_of_mem _ hg')
    obtain ⟨s, hs, hname, hkey⟩ := h.slot g' hmem
    -- a call of the name is left, so the name stays
    have hmore : s.name = g.name → 1 < s.users := by
      intro hsg
      have hpos : 0 < (gs ++ gs').countP fun g => g.name == s.name :=
        List.countP_pos_iff.2 ⟨g', hg', by simp [hname]⟩
      rw [(h.users s hs).2, hcount, if_pos hsg]
      omega
    refine ⟨{ s with users := s.users - if s.name = g.name then 1 else 0 }, ?_, hname, hkey⟩
    exact List.mem_filterMap.2
      ⟨s, hs, LockSlot.forgotten?_eq_some_iff.2 ⟨hmore, rfl, rfl, rfl⟩⟩

end LockTable

/-! ### All locks -/

namespace LockSystem

/-- The threads that hold a lock, each as many times as it does. -/
def holders (cs : List LockCall) (key : LockKey) : List Thread :=
  cs.flatMap fun c => Lock.share c.thread (c.holds && c.guard.key == key)

/-- The table agrees with the calls. -/
structure Agrees (sys : LockSystem) : Prop where
  names : sys.table.Counts (sys.calls.map LockCall.guard)
  locks : ∀ key, (sys.table.lock key).Held (holders sys.calls key)

theorem holders_append (cs cs' : List LockCall) (key : LockKey) :
    holders (cs ++ cs') key = holders cs key ++ holders cs' key :=
  List.flatMap_append

theorem holders_cons (c : LockCall) (cs : List LockCall) (key : LockKey) :
    holders (c :: cs) key =
      Lock.share c.thread (c.holds && c.guard.key == key) ++ holders cs key :=
  List.flatMap_cons

theorem agrees_new : Agrees {} := ⟨LockTable.counts_new, fun _ => Lock.held_new⟩

end LockSystem

theorem LockTable.lock_enroll (t : LockTable) (name : String) (key : LockKey) :
    (t.enroll name).1.lock key = t.lock key := by
  unfold enroll
  split
  · rfl
  · simp only [lock, Array.getElem?_push]
    split
    · simp [‹key = t.locks.size›]
    · rfl

/-- **A step keeps the agreement.** -/
theorem LockStep.agrees {sys sys' : LockSystem} (h : LockStep sys sys') (ha : sys.Agrees) :
    sys'.Agrees := by
  obtain ⟨hnames, hlocks⟩ := ha
  cases h with
  | enroll t cs thread name =>
    refine ⟨?_, fun key => ?_⟩
    · simpa using hnames.enroll name
    · rw [LockTable.lock_enroll, LockSystem.holders_append]
      simpa [LockSystem.holders, LockCall.holds, Lock.share] using hlocks key
  | @next t t' cs cs' c c' late hn =>
    have hlt : c.guard.key < t.locks.size := hnames.key_lt (by simp)
    obtain ⟨⟨p, rfl⟩, honly, hturn⟩ := LockCall.next?_turn hlt hn
    refine ⟨?_, fun key => ?_⟩
    · simpa using hnames.only honly
    · have hkey := hlocks key
      simp only [LockSystem.holders_append, LockSystem.holders_cons, ← List.append_assoc] at hkey ⊢
      by_cases hk : c.guard.key = key
      · subst hk
        simp only [beq_self_eq_true, Bool.and_true] at hkey
        simpa only [LockCall.guard_moved, LockCall.thread_moved, beq_self_eq_true, Bool.and_true]
          using hkey.turn hturn
      · have hne : (c.guard.key == key) = false := by simpa using hk
        rw [honly.others key (Ne.symm hk)]
        simpa only [LockCall.guard_moved, LockCall.thread_moved, hne, Bool.and_false] using hkey
  | @forget t cs cs' c hp =>
    have hnot : c.holds = false := by
      rcases hp with hp | hp <;> simp [LockCall.holds, hp]
    refine ⟨?_, fun key => ?_⟩
    · rw [List.map_append]
      exact LockTable.Counts.forget (by simpa using hnames)
    · have hkey := hlocks key
      simp only [LockSystem.holders_append, LockSystem.holders_cons, hnot, Bool.false_and] at hkey ⊢
      exact hkey

/-- A run keeps the agreement. -/
theorem LockSystem.Reachable.agrees {sys : LockSystem} (h : sys.Reachable) : sys.Agrees := by
  induction h with
  | refl => exact agrees_new
  | tail _ hstep ih => exact hstep.agrees ih

/-! ### The operations of the table -/

namespace LockTable

open Relation

variable {t : LockTable} {cs cs' : List LockCall}

/-- A thread that enters a lock at once or not at all makes a call, which holds the lock or is
counted out again. -/
theorem acquire_steps (t : LockTable) (cs : List LockCall) (x : Thread) (name : String)
    (millis : Nat) : ReflTransGen LockStep ⟨t, cs⟩ ⟨(t.acquire x name millis).1,
      cs ++ ((t.acquire x name millis).2.toOption.map fun g => ⟨x, g, .holding⟩).toList⟩ := by
  have hcount := ReflTransGen.single (LockStep.enroll t cs x name)
  unfold acquire join
  rcases he : t.enroll name with ⟨t₁, key⟩
  rw [he] at hcount
  rcases hr : t₁.request key x with ⟨t₂, _ | ticket⟩
  · have henters : LockStep ⟨t₁, cs ++ [⟨x, ⟨name, key⟩, .counted⟩]⟩
        ⟨t₂, cs ++ [⟨x, ⟨name, key⟩, .holding⟩]⟩ := by
      refine .next false ?_
      simp only [LockCall.next?, hr]
      rfl
    simp only [hr]
    exact hcount.tail henters
  · have hexpires : LockStep ⟨t₁, cs ++ [⟨x, ⟨name, key⟩, .counted⟩]⟩
        ⟨t₂.expire ⟨x, ⟨name, key⟩, ticket⟩, cs ++ [⟨x, ⟨name, key⟩, .expired⟩]⟩ := by
      refine .next true ?_
      simp only [LockCall.next?, hr]
      rfl
    simp only [hr]
    exact (hcount.tail hexpires).tail (.forget (.inl rfl))

/-- A thread that gives up a lock ends its call. -/
theorem release_steps {c : LockCall} (h : c.phase = .holding) :
    ReflTransGen LockStep ⟨t, cs ++ c :: cs'⟩ ⟨t.release c.guard, cs ++ cs'⟩ := by
  have hleaves : LockStep ⟨t, cs ++ c :: cs'⟩
      ⟨t.leave c.guard, cs ++ c.moved .released :: cs'⟩ := by
    refine .next false ?_
    simp only [LockCall.next?, h]
  exact (ReflTransGen.single hleaves).tail (.forget (.inr rfl))

end LockTable

/-! ### What agrees in every state -/

namespace LockSystem

variable {sys : LockSystem}

theorem length_holders (cs : List LockCall) (key : LockKey) :
    (holders cs key).length = cs.countP fun c => c.holds && c.guard.key == key := by
  induction cs with
  | nil => rfl
  | cons c cs ih =>
    rw [holders_cons, List.length_append, ih, List.countP_cons, Nat.add_comm]
    cases c.holds && c.guard.key == key <;> rfl

theorem mem_holders {cs : List LockCall} {c : LockCall} (hc : c ∈ cs) (h : c.holds = true) :
    c.thread ∈ holders cs c.guard.key :=
  List.mem_flatMap.2 ⟨c, hc, by simp [h, Lock.share]⟩

/-- A call of a name has the lock that the name stands for, and a call of another name has not. -/
theorem Agrees.key_eq_iff (h : sys.Agrees) {s : LockSlot} (hs : s ∈ sys.table.slots) {c : LockCall}
    (hc : c ∈ sys.calls) : c.guard.key = s.key ↔ c.guard.name = s.name := by
  obtain ⟨s', hs', hname, hkey⟩ := h.names.slot c.guard (List.mem_map_of_mem hc)
  rw [← hname, ← hkey]
  constructor
  · exact fun heq => congrArg LockSlot.name (h.names.slot_eq hs' hs (.inr heq))
  · exact fun heq => congrArg LockSlot.key (h.names.slot_eq hs' hs (.inl heq))

/-- **Named locks agree with the calls for them**, in every state that threads can reach. All calls
that hold the lock of a name were made by one thread. Where the table has a slot for the name, the
lock in it is entered as many times as there are such calls and has an owner exactly if there is
one, all calls of the name are about that lock, and the slot counts them. It has a slot exactly if
there are calls of the name. -/
theorem locks_agree (h : sys.Reachable) (name : String) :
    (∀ c ∈ sys.calls, ∀ d ∈ sys.calls, c.guard.name = name → d.guard.name = name →
      c.phase = .holding → d.phase = .holding → c.thread = d.thread) ∧
    (∀ s, sys.table.slot? name = some s →
      (sys.table.lock s.key).depth =
        sys.calls.countP (fun c => c.phase == .holding && c.guard.name == name) ∧
      ((sys.table.lock s.key).owner.isSome = true ↔ 0 < (sys.table.lock s.key).depth) ∧
      (∀ c ∈ sys.calls, c.guard.name = name → c.guard.key = s.key) ∧
      s.users = sys.calls.countP fun c => c.guard.name == name) ∧
    ((sys.table.slot? name).isSome = true ↔
      0 < sys.calls.countP fun c => c.guard.name == name) := by
  have ha := h.agrees
  refine ⟨?_, ?_, ?_⟩
  · rintro c hc d hd rfl hname hholds hholds'
    obtain ⟨s, hs, hsname, hskey⟩ := ha.names.slot c.guard (List.mem_map_of_mem hc)
    have hkey : d.guard.key = c.guard.key := by
      rw [← hskey, ha.key_eq_iff hs hd, hname, hsname]
    have hown := (ha.locks c.guard.key).one _ (mem_holders hc (by simp [LockCall.holds, hholds]))
    have hown' := (ha.locks d.guard.key).one _ (mem_holders hd (by simp [LockCall.holds, hholds']))
    rw [hkey, hown] at hown'
    exact Option.some.inj hown'
  · intro s hslot
    obtain ⟨hs, rfl⟩ := ha.names.slot?_eq_some_iff.1 hslot
    have hheld := ha.locks s.key
    refine ⟨?_, hheld.owner, fun c hc => (ha.key_eq_iff hs hc).2, ?_⟩
    · rw [hheld.depth, length_holders]
      refine List.countP_congr fun c hc => ?_
      simp only [LockCall.holds, Bool.and_eq_true, beq_iff_eq, ha.key_eq_iff hs hc]
    · rw [(ha.names.users s hs).2, List.countP_map]
      rfl
  · rw [Option.isSome_iff_ne_none, ne_eq, ha.names.slot?_eq_none_iff, List.countP_map,
      Nat.pos_iff_ne_zero]
    rfl

/-- A thread holds a lock twice, and another one waits for it. -/
def contended : LockSystem where
  table := ⟨[⟨"a", 0, 3⟩], #[⟨some 1, 2, 2, [1]⟩]⟩
  calls := [⟨1, ⟨"a", 0⟩, .holding⟩, ⟨1, ⟨"a", 0⟩, .holding⟩, ⟨2, ⟨"a", 0⟩, .waiting 1⟩]

theorem locks_agree_contended : contended.Reachable ∧
    (contended.table.lock 0).depth =
      contended.calls.countP (fun c => c.phase == .holding && c.guard.name == "a") ∧
    ∀ s, contended.table.slot? "a" = some s →
      s.users = contended.calls.countP fun c => c.guard.name == "a" := by
  have twice : Relation.ReflTransGen LockStep {}
      ⟨⟨[⟨"a", 0, 2⟩], #[⟨some 1, 2, 1, []⟩]⟩,
        [⟨1, ⟨"a", 0⟩, .holding⟩, ⟨1, ⟨"a", 0⟩, .holding⟩]⟩ :=
    (LockTable.acquire_steps {} [] 1 "a" 0).trans (LockTable.acquire_steps _ _ 1 "a" 0)
  have hasks : LockStep ⟨⟨[⟨"a", 0, 3⟩], #[⟨some 1, 2, 1, []⟩]⟩,
      [⟨1, ⟨"a", 0⟩, .holding⟩, ⟨1, ⟨"a", 0⟩, .holding⟩] ++ [⟨2, ⟨"a", 0⟩, .counted⟩]⟩ contended :=
    .next false rfl
  have hreach : contended.Reachable := (twice.tail (.enroll _ _ 2 "a")).tail hasks
  obtain ⟨-, hslot, -⟩ := locks_agree hreach "a"
  exact ⟨hreach, (hslot _ rfl).1, fun s hs => (hslot s hs).2.2.2⟩

end LockSystem

end Scenario
