import Scenario.Proofs.Arrivals
import Scenario.Proofs.Locks

/-!
# Locks are granted in the order of arrival

The runs of threads that share named locks, told as histories. One section may bring two events:
whoever finds the lock free draws a ticket and is granted the lock at once.

* `LockMove` — a step of some thread, with its events, where a thread makes one call at a time, and
  `LockRun` — a run from the empty table.
* `LockCall.Passage` — what a section does to its lock, every outcome by itself.
* `Lock.Lines` — the queue of a lock holds the tickets of those who wait for it, as the history
  says.
* `LockSystem.InLine` — the history is orderly and all queues agree with it. It is kept by every
  step, hence by every run.
* **`LockRun.grants_follow_arrival`** — what that says of queues, grants and waits that were given
  up.
-/

namespace Scenario

/-! ### Runs -/

namespace LockCall

/-- Whether the thread that made the call is still in it, and so makes no other. -/
def acquiring (c : LockCall) : Bool :=
  match c.phase with
  | .counted | .waiting _ | .expired => true
  | .holding | .released => false

/-- What a section tells that finds the lock in this state and ends in this phase. A call that
enters a lock it holds draws no ticket. -/
def events (c : LockCall) (l : Lock) (p : LockPhase) : List LockEvent :=
  match c.phase, p with
  | .counted, .holding =>
    if l.owner = some c.thread then []
    else [.queued (c.waiter l.nextTicket), .granted (c.waiter l.nextTicket)]
  | .counted, .waiting ticket => [.queued (c.waiter ticket)]
  | .counted, .expired => [.queued (c.waiter l.nextTicket), .expired (c.waiter l.nextTicket)]
  | .waiting ticket, .holding => [.granted (c.waiter ticket)]
  | .waiting ticket, .expired => [.expired (c.waiter ticket)]
  | _, _ => []

/-- The call as it waits, if it does. -/
def waiting? (c : LockCall) : Option LockWaiter :=
  match c.phase with
  | .waiting ticket => some (c.waiter ticket)
  | _ => none

end LockCall

/-- One atomic step of some thread and what it tells. A thread makes a call only after it has come
out of its last one; a lock may be left by anybody at any time. -/
inductive LockMove : LockSystem → List LockEvent → LockSystem → Prop where
  /-- A thread makes a call, which is counted in. -/
  | enroll (t : LockTable) (cs : List LockCall) (thread : Thread) (name : String) :
      (∀ c ∈ cs, c.thread = thread → c.acquiring = false) →
      LockMove ⟨t, cs⟩ []
        ⟨(t.enroll name).1, cs ++ [⟨thread, ⟨name, (t.enroll name).2⟩, .counted⟩]⟩
  /-- A call does something with its lock. -/
  | next {t t' : LockTable} {cs cs' : List LockCall} {c c' : LockCall} (late : Bool) :
      c.next? late t = some (t', c') →
      LockMove ⟨t, cs ++ c :: cs'⟩ (c.events (t.lock c.guard.key) c'.phase) ⟨t', cs ++ c' :: cs'⟩
  /-- A call that has nothing more to do with its lock is counted out. -/
  | forget {t : LockTable} {cs cs' : List LockCall} {c : LockCall} :
      c.phase = .expired ∨ c.phase = .released →
      LockMove ⟨t, cs ++ c :: cs'⟩ [] ⟨t.forget c.guard.name, cs ++ cs'⟩

/-- The threads can reach this state, and this is what happened on the way to it. -/
inductive LockRun : List LockEvent → LockSystem → Prop where
  | start : LockRun [] {}
  | move {es es' : List LockEvent} {sys sys' : LockSystem} :
      LockRun es sys → LockMove sys es' sys' → LockRun (es ++ es') sys'

/-- The calls that wait for a lock. -/
def LockSystem.waiters (sys : LockSystem) (key : LockKey) : List LockWaiter :=
  (sys.calls.filterMap LockCall.waiting?).filter fun w => w.guard.key = key

theorem LockMove.step {sys sys' : LockSystem} {es : List LockEvent} (h : LockMove sys es sys') :
    LockStep sys sys' := by
  cases h with
  | enroll t cs thread name _ => exact .enroll t cs thread name
  | next late hn => exact .next late hn
  | forget hp => exact .forget hp

theorem LockRun.reachable {sys : LockSystem} {es : List LockEvent} (h : LockRun es sys) :
    sys.Reachable := by
  induction h with
  | start => exact .refl
  | move _ hmove ih => exact ih.tail hmove.step

/-! ### The queue of a lock -/

namespace Lock

open LockEvent

/-- The lock is granted to the first in its queue, and only if it has no owner. -/
theorem grant?_eq_some_iff {l l' : Lock} {x : Thread} {ticket : Ticket} :
    l.grant? x ticket = some l' ↔ l.owner = none ∧ ∃ rest, l.waiting = ticket :: rest ∧
      l' = { l with owner := some x, depth := 1, waiting := rest } := by
  unfold grant?
  constructor
  · intro h
    split at h
    · obtain ⟨hfree, hhead⟩ := ‹_ ∧ _›
      obtain ⟨rest, hrest⟩ := List.head?_eq_some_iff.1 hhead
      cases h
      exact ⟨hfree, rest, hrest, by rw [hrest, List.tail_cons]⟩
    · cases h
  · rintro ⟨hfree, rest, hrest, rfl⟩
    rw [if_pos ⟨hfree, by rw [hrest, List.head?_cons]⟩, hrest, List.tail_cons]

/-- Whoever gives up leaves the others in their order. -/
theorem waiting_expire (l : Lock) (ticket : Ticket) :
    (l.expire ticket).waiting = l.waiting.filter (· ≠ ticket) := by
  refine List.filter_congr fun x _ => ?_
  rw [bne, beq_eq_decide]
  exact decide_not.symm

/-- The queue of a lock holds the tickets of those who wait for it, and as many have been drawn as
waiters have arrived. -/
structure Lines (l : Lock) (es : List LockEvent) (key : LockKey) : Prop where
  next : l.nextTicket = (arrivals es key).length
  queue : l.waiting = (line es key).map LockWaiter.ticket

variable {l l' : Lock} {es : List LockEvent} {e : LockEvent} {key : LockKey} {w : LockWaiter}

theorem Lines.congr (h : l.Lines es key) (hnext : l'.nextTicket = l.nextTicket)
    (hqueue : l'.waiting = l.waiting) : l'.Lines es key :=
  ⟨hnext.trans h.next, hqueue.trans h.queue⟩

/-- A ticket is drawn. -/
theorem Lines.queued (h : l.Lines es w.guard.key) (ho : Orderly es)
    (hticket : w.ticket = l.nextTicket)
    (hone : ∀ key, ∀ v ∈ line es key, v.guard.name = w.guard.name → key = w.guard.key) :
    Orderly (es ++ [.queued w]) ∧ l.enqueue.1.Lines (es ++ [.queued w]) w.guard.key := by
  have hlast : w.ticket = (arrivals es w.guard.key).length := hticket.trans h.next
  refine ⟨ho.queued hlast hone, ?_, ?_⟩
  · rw [arrivals_concat, arrival?, if_pos rfl, List.length_append, ← h.next]
    rfl
  · rw [line_queued (ho.not_departed hlast), if_pos rfl, List.map_append, ← h.queue]
    simp [enqueue, hticket]

/-- Tickets tell those who wait apart. -/
theorem Lines.filter_ticket (h : l.Lines es key) (ho : Orderly es) (hw : w ∈ line es key) :
    l.waiting.filter (· ≠ w.ticket) = ((line es key).filter (· ≠ w)).map LockWaiter.ticket := by
  have hinj : ∀ v ∈ line es key, v.ticket = w.ticket → v = w :=
    fun v hv => List.inj_on_of_nodup_map ((ho.line_tickets key).1.imp Nat.ne_of_lt) hv hw
  rw [h.queue, List.filter_map]
  refine congrArg _ (List.filter_congr fun v hv => ?_)
  simp only [Function.comp_apply, ne_eq, decide_not, Bool.not_eq_eq_eq_not, Bool.not_not]
  exact decide_eq_decide.2 ⟨hinj v hv, congrArg _⟩

theorem Lines.departed (h : l.Lines es key) (ho : Orderly es) (he : e.departure? = some w)
    (hw : w ∈ line es key) (hnext : l'.nextTicket = l.nextTicket)
    (hqueue : l'.waiting = l.waiting.filter (· ≠ w.ticket)) : l'.Lines (es ++ [e]) key := by
  constructor
  · rw [arrivals_concat, arrival?_of_departure he, Option.toList_none, List.append_nil, hnext,
      h.next]
  · rw [line_departed he, hqueue, h.filter_ticket ho hw]

/-- A waiter gives up, wherever it stands in the queue. -/
theorem Lines.expired (h : l.Lines es w.guard.key) (ho : Orderly es)
    (hw : w ∈ line es w.guard.key) :
    Orderly (es ++ [.expired w]) ∧ (l.expire w.ticket).Lines (es ++ [.expired w]) w.guard.key :=
  ⟨ho.expired hw, h.departed ho rfl hw rfl (waiting_expire l w.ticket)⟩

/-- The lock is granted to a waiter, which is then the first in line. -/
theorem Lines.granted (h : l.Lines es w.guard.key) (ho : Orderly es)
    (hw : w ∈ line es w.guard.key) {x : Thread} (hg : l.grant? x w.ticket = some l') :
    Orderly (es ++ [.granted w]) ∧ l'.Lines (es ++ [.granted w]) w.guard.key := by
  obtain ⟨-, rest, hrest, rfl⟩ := grant?_eq_some_iff.1 hg
  have hgrow := (ho.line_tickets w.guard.key).1
  have hmap := h.queue
  rw [hrest] at hmap
  refine ⟨ho.granted ?_, h.departed ho rfl hw rfl ?_⟩
  · obtain ⟨v, others, hline, hticket, -⟩ := List.map_eq_cons_iff.1 hmap.symm
    have hv : v ∈ line es w.guard.key := by simp [hline]
    have hvw : v = w := List.inj_on_of_nodup_map (hgrow.imp Nat.ne_of_lt) hv hw hticket
    rw [hline, List.head?_cons, hvw]
  · -- the other tickets are larger
    rw [← hmap] at hgrow
    have hothers : ∀ ticket ∈ rest, w.ticket < ticket := (List.pairwise_cons.1 hgrow).1
    rw [hrest, List.filter_cons_of_neg (by simp), List.filter_eq_self.2]
    intro ticket hmem
    simpa using Nat.ne_of_gt (hothers ticket hmem)

end Lock

/-! ### Sections -/

theorem LockTable.request_eq_none {t t' : LockTable} {key : LockKey} {x : Thread}
    (h : key < t.locks.size) (ht : t.request key x = (t', none)) :
    (t.lock key).owner = some x ∧
        t'.lock key = { t.lock key with depth := (t.lock key).depth + 1 } ∨
      (t.lock key).owner ≠ some x ∧
        (t.lock key).enqueue.1.grant? x (t.lock key).nextTicket = some (t'.lock key) := by
  unfold request Lock.reenter? at ht
  by_cases howner : (t.lock key).owner = some x
  · simp only [howner, if_true, Prod.mk.injEq, and_true] at ht
    rw [← ht, lock_setLock h, ← howner]
    exact .inl ⟨rfl, rfl⟩
  · simp only [howner, if_false] at ht
    refine .inr ⟨howner, ?_⟩
    cases hg : (t.lock key).enqueue.1.grant? x (t.lock key).nextTicket with
    | some l =>
      have hg' : (t.lock key).enqueue.1.grant? x (t.lock key).enqueue.2 = some l := hg
      simp only [hg', Prod.mk.injEq, and_true] at ht
      rw [← ht, lock_setLock h]
    | none =>
      have hg' : (t.lock key).enqueue.1.grant? x (t.lock key).enqueue.2 = none := hg
      simp only [hg', Prod.mk.injEq, reduceCtorEq, and_false] at ht

theorem LockTable.request_eq_some {t t' : LockTable} {key : LockKey} {x : Thread} {ticket : Ticket}
    (h : key < t.locks.size) (ht : t.request key x = (t', some ticket)) :
    ticket = (t.lock key).nextTicket ∧ t'.lock key = (t.lock key).enqueue.1 := by
  unfold request at ht
  cases hr : (t.lock key).reenter? x with
  | some l => simp only [hr, Prod.mk.injEq, reduceCtorEq, and_false] at ht
  | none =>
    cases hg : (t.lock key).enqueue.1.grant? x (t.lock key).enqueue.2 with
    | some l => simp only [hr, hg, Prod.mk.injEq, reduceCtorEq, and_false] at ht
    | none =>
      simp only [hr, hg, Prod.mk.injEq, Option.some.injEq] at ht
      obtain ⟨rfl, rfl⟩ := ht
      exact ⟨rfl, lock_setLock h _⟩

namespace LockCall

open LockEvent

/-- What a section of a call does to its lock, and the phase in which the call is then. -/
inductive Passage (c : LockCall) (l : Lock) : LockPhase → Lock → Prop where
  /-- The owner enters once more. -/
  | reenters : c.phase = .counted → l.owner = some c.thread →
      Passage c l .holding { l with depth := l.depth + 1 }
  /-- It draws a ticket, and it is its turn at once. -/
  | enters {l' : Lock} : c.phase = .counted → l.owner ≠ some c.thread →
      l.enqueue.1.grant? c.thread l.nextTicket = some l' → Passage c l .holding l'
  /-- It draws a ticket and waits. -/
  | joins : c.phase = .counted → Passage c l (.waiting l.nextTicket) l.enqueue.1
  /-- It draws a ticket and gives up at once. -/
  | declines : c.phase = .counted → Passage c l .expired (l.enqueue.1.expire l.nextTicket)
  /-- It waited, and it is its turn. -/
  | called {ticket : Ticket} {l' : Lock} : c.phase = .waiting ticket →
      l.grant? c.thread ticket = some l' → Passage c l .holding l'
  /-- It goes on waiting. -/
  | stays {ticket : Ticket} : c.phase = .waiting ticket → Passage c l (.waiting ticket) l
  /-- It waited and gives up. -/
  | quits {ticket : Ticket} : c.phase = .waiting ticket → Passage c l .expired (l.expire ticket)
  /-- It leaves the lock once. -/
  | leaves : c.phase = .holding → Passage c l .released l.release

/-- **Every section is a passage** of its call through the lock. -/
theorem next?_passage {t t' : LockTable} {c c' : LockCall} {late : Bool}
    (h : c.guard.key < t.locks.size) (hn : c.next? late t = some (t', c')) :
    c.Passage (t.lock c.guard.key) c'.phase (t'.lock c.guard.key) := by
  unfold next? at hn
  cases hp : c.phase with
  | counted =>
    rcases hr : t.request c.guard.key c.thread with ⟨t₁, _ | ticket⟩
    · simp only [hp, hr, Option.some.injEq, Prod.mk.injEq] at hn
      obtain ⟨rfl, rfl⟩ := hn
      obtain ⟨howner, hlock⟩ | ⟨hother, hgrant⟩ := LockTable.request_eq_none h hr
      · exact hlock ▸ .reenters hp howner
      · exact .enters hp hother hgrant
    · simp only [hp, hr, Option.some.injEq] at hn
      obtain ⟨rfl, hlock⟩ := LockTable.request_eq_some h hr
      have hsize : c.guard.key < t₁.locks.size := (LockTable.request_turn h hr).1.size ▸ h
      cases late with
      | false =>
        obtain ⟨rfl, rfl⟩ := Prod.mk.inj hn
        exact hlock ▸ .joins hp
      | true =>
        obtain ⟨rfl, rfl⟩ := Prod.mk.inj hn
        rw [LockTable.expire, waiter, LockTable.lock_setLock hsize, hlock]
        exact .declines hp
  | waiting ticket =>
    cases hg : t.grant? (c.waiter ticket) with
    | some t₁ =>
      simp only [hp, hg, Option.some.injEq, Prod.mk.injEq] at hn
      obtain ⟨rfl, rfl⟩ := hn
      obtain ⟨l, hl, rfl⟩ := Option.map_eq_some_iff.1 hg
      rw [waiter, LockTable.lock_setLock h]
      exact .called hp hl
    | none =>
      simp only [hp, hg, Option.some.injEq] at hn
      cases late with
      | false =>
        obtain ⟨rfl, rfl⟩ := Prod.mk.inj hn
        exact .stays hp
      | true =>
        obtain ⟨rfl, rfl⟩ := Prod.mk.inj hn
        rw [LockTable.expire, waiter, LockTable.lock_setLock h]
        exact .quits hp
  | holding =>
    simp only [hp, Option.some.injEq, Prod.mk.injEq] at hn
    obtain ⟨rfl, rfl⟩ := hn
    rw [LockTable.leave, LockTable.lock_setLock h]
    exact .leaves hp
  | expired => simp [hp] at hn
  | released => simp [hp] at hn

theorem perm_filter_ne {w : LockWaiter} {ws ws' line : List LockWaiter}
    (h : (ws ++ [w] ++ ws').Perm line) (hnodup : line.Nodup) :
    (ws ++ ws').Perm (line.filter (· ≠ w)) := by
  have hw : (w :: (ws ++ ws')).Perm line := List.perm_middle.symm.trans (by simpa using h)
  have hnot : w ∉ ws ++ ws' := (List.nodup_cons.1 (hw.nodup_iff.2 hnodup)).1
  refine .trans (.of_eq ?_) (hw.filter _)
  rw [List.filter_cons_of_neg (by simp), List.filter_eq_self.2]
  intro v hv
  simpa using fun heq : v = w => hnot (heq ▸ hv)

/-- **A section keeps its lock in line.** What it tells goes on with an orderly history, the queue
of its lock agrees with the new history, and its call waits or not as the history says. -/
theorem Passage.in_line {c : LockCall} {l l' : Lock} {p : LockPhase} {es : List LockEvent}
    (h : c.Passage l p l') (ho : Orderly es) (hl : l.Lines es c.guard.key)
    (hone : ∀ key, ∀ v ∈ line es key, v.guard.name = c.guard.name → key = c.guard.key)
    {ws ws' : List LockWaiter}
    (hperm : (ws ++ c.waiting?.toList ++ ws').Perm (line es c.guard.key)) :
    Orderly (es ++ c.events l p) ∧ l'.Lines (es ++ c.events l p) c.guard.key ∧
      (ws ++ (c.moved p).waiting?.toList ++ ws').Perm
        (line (es ++ c.events l p) c.guard.key) := by
  have hdrawn := hl.queued (w := c.waiter l.nextTicket) ho rfl hone
  have hline : line (es ++ [.queued (c.waiter l.nextTicket)]) c.guard.key =
      line es c.guard.key ++ [c.waiter l.nextTicket] := by
    rw [line_queued (ho.not_departed hl.next), waiter, if_pos rfl]
  have hin : c.waiter l.nextTicket ∈
      line (es ++ [.queued (c.waiter l.nextTicket)]) c.guard.key := by simp [hline]
  -- a ticket that is drawn and given back in one section leaves the line as it was
  have hback : ∀ e : LockEvent, e.departure? = some (c.waiter l.nextTicket) →
      (line es c.guard.key).Perm
        (line (es ++ [.queued (c.waiter l.nextTicket)] ++ [e]) c.guard.key) := by
    intro e he
    have hsame : (line es c.guard.key ++ []).Perm ((line es c.guard.key ++
        [c.waiter l.nextTicket]).filter (· ≠ c.waiter l.nextTicket)) :=
      perm_filter_ne (.of_eq (List.append_nil _)) (hline ▸ hdrawn.1.nodup_line c.guard.key)
    rwa [List.append_nil, ← hline, ← line_departed he] at hsame
  cases h with
  | reenters hp howner =>
    simp only [events, hp, moved, waiting?, if_pos howner, List.append_nil] at hperm ⊢
    exact ⟨ho, hl.congr rfl rfl, hperm⟩
  | enters hp hother hgrant =>
    simp only [events, hp, moved, waiting?, if_neg hother] at hperm ⊢
    rw [List.append_cons es]
    obtain ⟨ho', hl'⟩ := hdrawn.2.granted hdrawn.1 hin hgrant
    exact ⟨ho', hl', hperm.trans (hback _ rfl)⟩
  | joins hp =>
    simp only [events, hp, moved, waiting?] at hperm ⊢
    refine ⟨hdrawn.1, hdrawn.2, ?_⟩
    rw [hline]
    have hcomm : ([c.waiter l.nextTicket] ++ ws').Perm (ws' ++ [c.waiter l.nextTicket]) :=
      List.perm_append_comm
    refine .trans ?_ (hperm.append_right _)
    simpa [waiter] using hcomm.append_left ws
  | declines hp =>
    simp only [events, hp, moved, waiting?] at hperm ⊢
    rw [List.append_cons es]
    obtain ⟨ho', hl'⟩ := hdrawn.2.expired hdrawn.1 hin
    exact ⟨ho', hl', hperm.trans (hback _ rfl)⟩
  | @called ticket l' hp hgrant =>
    simp only [events, hp, moved, waiting?] at hperm ⊢
    have hw : c.waiter ticket ∈ line es c.guard.key := hperm.mem_iff.1 (by simp)
    obtain ⟨ho', hl'⟩ := hl.granted (w := c.waiter ticket) ho hw hgrant
    refine ⟨ho', hl', ?_⟩
    rw [line_departed rfl]
    simpa using perm_filter_ne hperm (ho.nodup_line _)
  | stays hp =>
    simp only [events, hp, moved, waiting?, List.append_nil] at hperm ⊢
    exact ⟨ho, hl, hperm⟩
  | @quits ticket hp =>
    simp only [events, hp, moved, waiting?] at hperm ⊢
    have hw : c.waiter ticket ∈ line es c.guard.key := hperm.mem_iff.1 (by simp)
    obtain ⟨ho', hl'⟩ := hl.expired (w := c.waiter ticket) ho hw
    refine ⟨ho', hl', ?_⟩
    rw [line_departed rfl]
    simpa using perm_filter_ne hperm (ho.nodup_line _)
  | leaves hp =>
    simp only [events, hp, moved, waiting?, List.append_nil] at hperm ⊢
    refine ⟨ho, hl.congr ?_ ?_, hperm⟩
    · unfold Lock.release
      split <;> rfl
    · unfold Lock.release
      split <;> rfl

variable {c : LockCall} {l l' : Lock} {p : LockPhase} {es : List LockEvent} {w : LockWaiter}

theorem guard_of_mem_events {e : LockEvent} (he : e ∈ c.events l p) : e.waiter.guard = c.guard := by
  unfold events at he
  split at he
  · split at he
    · cases he
    · rcases List.mem_pair.1 he with rfl | rfl <;> rfl
  · obtain rfl := List.mem_singleton.1 he
    rfl
  · rcases List.mem_pair.1 he with rfl | rfl <;> rfl
  · obtain rfl := List.mem_singleton.1 he
    rfl
  · obtain rfl := List.mem_singleton.1 he
    rfl
  · cases he

/-- The phase of a call that waits. -/
theorem eq_of_waiting? (h : c.waiting? = some w) :
    w = c.waiter w.ticket ∧ c.phase = .waiting w.ticket := by
  unfold waiting? at h
  split at h
  · cases h
    exact ⟨rfl, ‹_›⟩
  · cases h

theorem guard_of_waiting? (h : c.waiting? = some w) : w.guard = c.guard :=
  congrArg LockWaiter.guard (eq_of_waiting? h).1

/-- Whoever is granted the lock finds it without an owner and nobody in front. -/
theorem Passage.granted (h : c.Passage l p l') (ho : Orderly es) (hl : l.Lines es c.guard.key)
    (hw : .granted w ∈ c.events l p) :
    l.owner = none ∧ (w.ticket ∈ l.waiting ∨ .queued w ∈ c.events l p) ∧
      ∀ ticket ∈ l.waiting, w.ticket ≤ ticket := by
  obtain ⟨hgrow, hbelow⟩ := ho.line_tickets c.guard.key
  rw [← hl.queue] at hgrow hbelow
  cases h with
  | reenters hp howner => simp [events, hp, howner] at hw
  | enters hp hother hgrant =>
    obtain ⟨hfree, rest, hrest, -⟩ := Lock.grant?_eq_some_iff.1 hgrant
    -- all other tickets were drawn before, so there are none
    have hnone : l.waiting = [] := by
      cases hwaiting : l.waiting with
      | nil => rfl
      | cons ticket tickets =>
        have hlt := hbelow ticket (by simp [hwaiting])
        rw [← hl.next] at hlt
        simp only [Lock.enqueue, hwaiting, List.cons_append, List.cons.injEq] at hrest
        exact absurd hrest.1 (Nat.ne_of_lt hlt)
    simp only [events, hp, if_neg hother, List.mem_cons, List.not_mem_nil, reduceCtorEq, false_or,
      or_false, LockEvent.granted.injEq] at hw ⊢
    exact ⟨hfree, .inr (by rw [hw]), by simp [hnone]⟩
  | joins hp => simp [events, hp] at hw
  | declines hp => simp [events, hp] at hw
  | called hp hgrant =>
    obtain ⟨hfree, rest, hrest, -⟩ := Lock.grant?_eq_some_iff.1 hgrant
    simp only [events, hp, List.mem_singleton, LockEvent.granted.injEq] at hw
    subst hw
    rw [hrest] at hgrow ⊢
    refine ⟨hfree, .inl (by simp [waiter]), fun ticket hmem => ?_⟩
    rcases List.mem_cons.1 hmem with rfl | hmem
    · exact Nat.le_refl _
    · exact Nat.le_of_lt ((List.pairwise_cons.1 hgrow).1 ticket hmem)
  | stays hp => simp [events, hp] at hw
  | quits hp => simp [events, hp] at hw
  | leaves hp => simp [events, hp] at hw

/-- Whoever gives up takes its ticket out of the queue and nothing else. -/
theorem Passage.expired (h : c.Passage l p l') (hw : .expired w ∈ c.events l p) :
    l'.waiting = l.waiting.filter (· ≠ w.ticket) := by
  cases h with
  | reenters hp howner => simp [events, hp, howner] at hw
  | enters hp hother _ => simp [events, hp, hother] at hw
  | joins hp => simp [events, hp] at hw
  | declines hp =>
    simp only [events, hp, List.mem_cons, List.not_mem_nil, reduceCtorEq, false_or, or_false,
      LockEvent.expired.injEq] at hw
    subst hw
    rw [Lock.waiting_expire, Lock.enqueue, List.filter_append, waiter]
    simp
  | called hp _ => simp [events, hp] at hw
  | stays hp => simp [events, hp] at hw
  | quits hp =>
    simp only [events, hp, List.mem_singleton, LockEvent.expired.injEq] at hw
    subst hw
    exact Lock.waiting_expire ..
  | leaves hp => simp [events, hp] at hw

/-- Whoever owns the lock afterwards owned it before, or is granted it. -/
theorem Passage.owner (h : c.Passage l p l') {x : Thread} (hx : l'.owner = some x) :
    l.owner = some x ∨ ∃ w, .granted w ∈ c.events l p ∧ w.thread = x := by
  cases h with
  | reenters _ _ => exact .inl hx
  | enters hp hother hgrant =>
    obtain ⟨-, rest, -, rfl⟩ := Lock.grant?_eq_some_iff.1 hgrant
    exact .inr ⟨c.waiter l.nextTicket, by simp [events, hp, hother], Option.some.inj hx⟩
  | joins _ => exact .inl hx
  | declines _ => exact .inl hx
  | @called ticket _ hp hgrant =>
    obtain ⟨-, rest, -, rfl⟩ := Lock.grant?_eq_some_iff.1 hgrant
    exact .inr ⟨c.waiter ticket, by simp [events, hp], Option.some.inj hx⟩
  | stays _ => exact .inl hx
  | quits _ => exact .inl hx
  | leaves _ =>
    unfold Lock.release at hx
    split at hx
    · cases hx
    · exact .inl hx

/-- A call in which its thread still is was so before. -/
theorem Passage.acquiring (h : c.Passage l p l') (hp : (c.moved p).acquiring = true) :
    c.acquiring = true := by
  cases h with
  | leaves _ => cases hp
  | reenters _ _ => cases hp
  | enters _ _ _ => cases hp
  | called _ _ => cases hp
  | joins h => simp [LockCall.acquiring, h]
  | declines h => simp [LockCall.acquiring, h]
  | stays h => simp [LockCall.acquiring, h]
  | quits h => simp [LockCall.acquiring, h]

end LockCall

/-! ### All locks -/

namespace LockSystem

open LockEvent

/-- What happened is orderly, every queue and the calls agree with it, and no thread is in two calls
at once. -/
structure InLine (es : List LockEvent) (sys : LockSystem) : Prop where
  orderly : Orderly es
  locks : ∀ key, (sys.table.lock key).Lines es key
  waiters : ∀ key, (sys.waiters key).Perm (line es key)
  threads : sys.calls.Pairwise fun c d =>
    c.acquiring = true → d.acquiring = true → c.thread ≠ d.thread

variable {sys : LockSystem} {es : List LockEvent}

theorem waiters_split (t : LockTable) (cs cs' : List LockCall) (c : LockCall) (key : LockKey) :
    waiters ⟨t, cs ++ c :: cs'⟩ key =
      waiters ⟨t, cs⟩ key ++ (if c.guard.key = key then c.waiting?.toList else []) ++
        waiters ⟨t, cs'⟩ key := by
  simp only [waiters, List.filterMap_append, List.filterMap_cons, List.filter_append]
  cases hw : c.waiting? with
  | none => simp
  | some w =>
    rw [← LockCall.guard_of_waiting? hw]
    by_cases hkey : w.guard.key = key <;> simp [hkey]

/-- Those who wait for the name of a call wait for its lock. -/
theorem InLine.key_eq (h : sys.InLine es) (ha : sys.Agrees) {c : LockCall} (hc : c ∈ sys.calls)
    {key : LockKey} {v : LockWaiter} (hv : v ∈ line es key)
    (hname : v.guard.name = c.guard.name) : key = c.guard.key := by
  have hmem : v ∈ sys.waiters key := (h.waiters key).mem_iff.2 hv
  rw [LockSystem.waiters, List.mem_filter, List.mem_filterMap, decide_eq_true_eq] at hmem
  obtain ⟨⟨d, hd, hdv⟩, rfl⟩ := hmem
  rw [LockCall.guard_of_waiting? hdv] at hname ⊢
  obtain ⟨s, hs, hsname, hskey⟩ := ha.names.slot c.guard (List.mem_map_of_mem hc)
  rw [← hskey, ha.key_eq_iff hs hd, hname, hsname]

theorem inLine_new : InLine [] {} where
  orderly := .nil
  locks _ := ⟨rfl, rfl⟩
  waiters _ := .refl _
  threads := .nil

end LockSystem

namespace LockMove

open LockEvent

/-- What a step does for those who wait. -/
theorem serves {sys sys' : LockSystem} {es es' : List LockEvent} (h : LockMove sys es' sys')
    (ha : sys.Agrees) (hl : sys.InLine es) :
    (∀ key x, (sys'.table.lock key).owner = some x → (sys.table.lock key).owner = some x ∨
      ∃ w, .granted w ∈ es' ∧ w.guard.key = key ∧ w.thread = x) ∧
    (∀ w, .granted w ∈ es' → (sys.table.lock w.guard.key).owner = none ∧
      (w.ticket ∈ (sys.table.lock w.guard.key).waiting ∨ .queued w ∈ es') ∧
      ∀ ticket ∈ (sys.table.lock w.guard.key).waiting, w.ticket ≤ ticket) ∧
    ∀ w, .expired w ∈ es' → (sys'.table.lock w.guard.key).waiting =
      (sys.table.lock w.guard.key).waiting.filter (· ≠ w.ticket) := by
  cases h with
  | enroll t cs thread name _ =>
    refine ⟨fun key x hx => .inl ?_, by simp, by simp⟩
    rwa [LockTable.lock_enroll] at hx
  | @next t t' cs cs' c c' late hn =>
    have hlt : c.guard.key < t.locks.size := ha.names.key_lt (by simp)
    have honly := (LockCall.next?_turn hlt hn).2.1
    have hpass := LockCall.next?_passage hlt hn
    refine ⟨fun key x hx => ?_, fun w hw => ?_, fun w hw => ?_⟩
    · by_cases hkey : key = c.guard.key
      · subst hkey
        refine (hpass.owner hx).imp_right ?_
        rintro ⟨w, hw, hthread⟩
        exact ⟨w, hw, congrArg LockGuard.key (LockCall.guard_of_mem_events hw), hthread⟩
      · rw [honly.others key hkey] at hx
        exact .inl hx
    · have hguard : w.guard = c.guard := LockCall.guard_of_mem_events hw
      rw [hguard]
      exact hpass.granted hl.orderly (hl.locks _) hw
    · have hguard : w.guard = c.guard := LockCall.guard_of_mem_events hw
      rw [hguard]
      exact hpass.expired hw
  | forget _ => exact ⟨fun _ _ hx => .inl hx, by simp, by simp⟩

/-- **A step keeps all locks in line.** -/
theorem in_line {sys sys' : LockSystem} {es es' : List LockEvent}
    (h : LockMove sys es' sys') (ha : sys.Agrees) (hl : sys.InLine es) :
    sys'.InLine (es ++ es') := by
  cases h with
  | enroll t cs thread name hfree =>
    rw [List.append_nil]
    refine ⟨hl.orderly, fun key => ?_, fun key => ?_, ?_⟩
    · rw [LockTable.lock_enroll]
      exact hl.locks key
    · rw [LockSystem.waiters_split]
      simpa [LockCall.waiting?, LockSystem.waiters] using hl.waiters key
    · refine List.pairwise_append.2 ⟨hl.threads, List.pairwise_singleton _ _, ?_⟩
      intro c hc d hd hacquiring _ heq
      obtain rfl := List.mem_singleton.1 hd
      cases (hfree c hc heq).symm.trans hacquiring
  | @next t t' cs cs' c c' late hn =>
    have hlt : c.guard.key < t.locks.size := ha.names.key_lt (by simp)
    obtain ⟨⟨p, rfl⟩, honly, -⟩ := LockCall.next?_turn hlt hn
    have hpass : c.Passage (t.lock c.guard.key) p (t'.lock c.guard.key) :=
      LockCall.next?_passage hlt hn
    have hwaiters := hl.waiters c.guard.key
    rw [LockSystem.waiters_split, if_pos rfl] at hwaiters
    obtain ⟨horderly, hlines, hperm⟩ := hpass.in_line hl.orderly (hl.locks _)
      (fun key v hv hname => hl.key_eq ha (by simp) hv hname) hwaiters
    -- the events of a section are about its own lock
    have haside : ∀ key, key ≠ c.guard.key →
        arrivals (es ++ c.events (t.lock c.guard.key) p) key = arrivals es key ∧
          line (es ++ c.events (t.lock c.guard.key) p) key = line es key := fun key hkey =>
      line_aside fun e he heq => hkey (heq.symm.trans (by rw [LockCall.guard_of_mem_events he]))
    refine ⟨horderly, fun key => ?_, fun key => ?_, ?_⟩
    · by_cases hkey : key = c.guard.key
      · rw [hkey]
        exact hlines
      · obtain ⟨harrivals, hline⟩ := haside key hkey
        rw [honly.others key hkey]
        exact ⟨harrivals.symm ▸ (hl.locks key).next, hline.symm ▸ (hl.locks key).queue⟩
    · rw [LockSystem.waiters_split, LockCall.guard_moved]
      by_cases hkey : key = c.guard.key
      · rw [hkey, if_pos rfl]
        exact hperm
      · have hsame := hl.waiters key
        rw [LockSystem.waiters_split, if_neg (Ne.symm hkey)] at hsame
        rw [if_neg (Ne.symm hkey)]
        exact (haside key hkey).2.symm ▸ hsame
    · have hthreads := hl.threads
      simp only [List.pairwise_append, List.pairwise_cons, List.mem_cons, forall_eq_or_imp]
        at hthreads ⊢
      obtain ⟨hcs, ⟨hc, hcs'⟩, hboth⟩ := hthreads
      exact ⟨hcs, ⟨fun d hd h => hc d hd (hpass.acquiring h), hcs'⟩, fun b hb =>
        ⟨fun hacq h => (hboth b hb).1 hacq (hpass.acquiring h), (hboth b hb).2⟩⟩
  | @forget t cs cs' c hp =>
    have hnone : c.waiting? = none := by
      rcases hp with hp | hp <;> simp [LockCall.waiting?, hp]
    rw [List.append_nil]
    refine ⟨hl.orderly, hl.locks, fun key => ?_, ?_⟩
    · have hwaiters := hl.waiters key
      rw [LockSystem.waiters_split, hnone, Option.toList_none, ite_self,
        List.append_nil] at hwaiters
      simpa [LockSystem.waiters] using hwaiters
    · exact hl.threads.sublist ((List.sublist_cons_self c cs').append_left cs)

end LockMove

namespace LockRun

open LockEvent

variable {es : List LockEvent} {sys : LockSystem}

/-- A run keeps all locks in line. -/
theorem in_line (h : LockRun es sys) : sys.InLine es := by
  induction h with
  | start => exact LockSystem.inLine_new
  | move hrun hmove ih => exact hmove.in_line hrun.reachable.agrees ih

/-- The queue of a lock has one ticket for each thread that waits for it. -/
theorem queue_tickets (h : LockRun es sys) (key : LockKey) :
    ((sys.waiters key).map LockWaiter.ticket).Perm (sys.table.lock key).waiting ∧
      ((sys.waiters key).map LockWaiter.thread).Nodup := by
  have hl := h.in_line
  refine ⟨(hl.locks key).queue ▸ (hl.waiters key).map _, ?_⟩
  have hcalls : (sys.calls.filterMap LockCall.waiting?).Pairwise
      fun v w => v.thread ≠ w.thread := by
    refine List.Pairwise.filterMap _ (fun c d hcd v hv w hw => ?_) hl.threads
    obtain ⟨hv, hphase⟩ := LockCall.eq_of_waiting? hv
    obtain ⟨hw, hphase'⟩ := LockCall.eq_of_waiting? hw
    rw [hv, hw]
    exact hcd (by simp [LockCall.acquiring, hphase]) (by simp [LockCall.acquiring, hphase'])
  exact List.pairwise_map.2 (hcalls.filter _)

/-- **Locks are granted in the order of arrival.** In every state that threads can reach, the queue
of each lock is an increasing list of tickets that have been drawn, one for each thread that waits
for the lock. In every step from there, whoever becomes the owner of a lock is granted it; whoever
is granted it finds it without an owner, and no smaller ticket waits; and whoever gives up takes its
own ticket out of the queue, leaving the others in their order. Over the whole run, each of these
events happens at most once and only to those who have drawn a ticket. Of two threads that queue for
one name, the first of which does not give up, the second is granted the lock only after the first;
and whoever gives up is never granted it. -/
theorem grants_follow_arrival (h : LockRun es sys) :
    (∀ key, (sys.table.lock key).waiting.Pairwise (· < ·) ∧
      (∀ ticket ∈ (sys.table.lock key).waiting, ticket < (sys.table.lock key).nextTicket) ∧
      ((sys.waiters key).map LockWaiter.ticket).Perm (sys.table.lock key).waiting ∧
      ((sys.waiters key).map LockWaiter.thread).Nodup) ∧
    (∀ es' sys', LockMove sys es' sys' →
      (∀ key x, (sys'.table.lock key).owner = some x → (sys.table.lock key).owner = some x ∨
        ∃ w, .granted w ∈ es' ∧ w.guard.key = key ∧ w.thread = x) ∧
      (∀ w, .granted w ∈ es' → (sys.table.lock w.guard.key).owner = none ∧
        (w.ticket ∈ (sys.table.lock w.guard.key).waiting ∨ .queued w ∈ es') ∧
        ∀ ticket ∈ (sys.table.lock w.guard.key).waiting, w.ticket ≤ ticket) ∧
      ∀ w, .expired w ∈ es' → (sys'.table.lock w.guard.key).waiting =
        (sys.table.lock w.guard.key).waiting.filter (· ≠ w.ticket)) ∧
    es.Nodup ∧ (∀ w, .granted w ∈ es ∨ .expired w ∈ es → .queued w ∈ es) ∧
    (∀ v w, v.guard.name = w.guard.name → [.queued v, .queued w].Sublist es → .expired v ∉ es →
      .granted w ∈ es → [.granted v, .granted w].Sublist es) ∧
    ∀ w, .expired w ∈ es → .granted w ∉ es := by
  have hl := h.in_line
  refine ⟨fun key => ?_, fun es' sys' hmove => hmove.serves h.reachable.agrees hl,
    hl.orderly.nodup, fun w hw => hl.orderly.queued_of_departed (mem_departures.2 hw),
    fun v w => hl.orderly.granted_in_order, fun w => hl.orderly.not_granted⟩
  obtain ⟨hgrow, hbelow⟩ := hl.orderly.line_tickets key
  rw [← (hl.locks key).queue] at hgrow hbelow
  rw [← (hl.locks key).next] at hbelow
  exact ⟨hgrow, hbelow, h.queue_tickets key⟩

/-- Four threads call for a lock. -/
def fourCalls (l : Lock) (p q r s : LockPhase) : LockSystem where
  table := ⟨[⟨"a", 0, 4⟩], #[l]⟩
  calls := [⟨1, ⟨"a", 0⟩, p⟩, ⟨2, ⟨"a", 0⟩, q⟩, ⟨3, ⟨"a", 0⟩, r⟩, ⟨4, ⟨"a", 0⟩, s⟩]

/-- A thread that waits for that lock. -/
def waitsFor (thread : Thread) (ticket : Ticket) : LockWaiter := ⟨thread, ⟨"a", 0⟩, ticket⟩

/-- While the first thread holds the lock, the others queue. -/
theorem run_queueing : LockRun [.queued (waitsFor 1 0), .granted (waitsFor 1 0),
    .queued (waitsFor 2 1), .queued (waitsFor 3 2), .queued (waitsFor 4 3)]
    (fourCalls ⟨some 1, 1, 4, [1, 2, 3]⟩ .holding (.waiting 1) (.waiting 2) (.waiting 3)) := by
  have hcounted : LockRun [] (fourCalls {} .counted .counted .counted .counted) :=
    (((LockRun.start.move (.enroll _ _ 1 "a" (by simp))).move (.enroll _ _ 2 "a" (by simp))).move
      (.enroll _ _ 3 "a" (by simp))).move (.enroll _ _ 4 "a" (by simp))
  have hfirst : LockMove (fourCalls {} .counted .counted .counted .counted) _
      (fourCalls ⟨some 1, 1, 1, []⟩ .holding .counted .counted .counted) :=
    @LockMove.next _ _ [] _ _ _ false rfl
  have hsecond : LockMove (fourCalls ⟨some 1, 1, 1, []⟩ .holding .counted .counted .counted) _
      (fourCalls ⟨some 1, 1, 2, [1]⟩ .holding (.waiting 1) .counted .counted) :=
    @LockMove.next _ _ [_] _ _ _ false rfl
  have hthird : LockMove (fourCalls ⟨some 1, 1, 2, [1]⟩ .holding (.waiting 1) .counted .counted) _
      (fourCalls ⟨some 1, 1, 3, [1, 2]⟩ .holding (.waiting 1) (.waiting 2) .counted) :=
    @LockMove.next _ _ [_, _] _ _ _ false rfl
  have hfourth : LockMove
      (fourCalls ⟨some 1, 1, 3, [1, 2]⟩ .holding (.waiting 1) (.waiting 2) .counted) _
      (fourCalls ⟨some 1, 1, 4, [1, 2, 3]⟩ .holding (.waiting 1) (.waiting 2) (.waiting 3)) :=
    @LockMove.next _ _ [_, _, _] _ _ _ false rfl
  exact (((hcounted.move hfirst).move hsecond).move hthird).move hfourth

/-- Then the third gives up, and the lock goes to the second and after that to the fourth. -/
theorem run_granting : LockRun [.queued (waitsFor 1 0), .granted (waitsFor 1 0),
    .queued (waitsFor 2 1), .queued (waitsFor 3 2), .queued (waitsFor 4 3), .expired (waitsFor 3 2),
    .granted (waitsFor 2 1), .granted (waitsFor 4 3)]
    (fourCalls ⟨some 4, 1, 4, []⟩ .released .released .expired .holding) := by
  have hexpired : LockMove
      (fourCalls ⟨some 1, 1, 4, [1, 2, 3]⟩ .holding (.waiting 1) (.waiting 2) (.waiting 3)) _
      (fourCalls ⟨some 1, 1, 4, [1, 3]⟩ .holding (.waiting 1) .expired (.waiting 3)) :=
    @LockMove.next _ _ [_, _] _ _ _ true rfl
  have hleft : LockMove
      (fourCalls ⟨some 1, 1, 4, [1, 3]⟩ .holding (.waiting 1) .expired (.waiting 3)) _
      (fourCalls ⟨none, 0, 4, [1, 3]⟩ .released (.waiting 1) .expired (.waiting 3)) :=
    @LockMove.next _ _ [] _ _ _ false rfl
  have hgranted : LockMove
      (fourCalls ⟨none, 0, 4, [1, 3]⟩ .released (.waiting 1) .expired (.waiting 3)) _
      (fourCalls ⟨some 2, 1, 4, [3]⟩ .released .holding .expired (.waiting 3)) :=
    @LockMove.next _ _ [_] _ _ _ false rfl
  have hleft' : LockMove (fourCalls ⟨some 2, 1, 4, [3]⟩ .released .holding .expired (.waiting 3)) _
      (fourCalls ⟨none, 0, 4, [3]⟩ .released .released .expired (.waiting 3)) :=
    @LockMove.next _ _ [_] _ _ _ false rfl
  have hgranted' : LockMove
      (fourCalls ⟨none, 0, 4, [3]⟩ .released .released .expired (.waiting 3)) _
      (fourCalls ⟨some 4, 1, 4, []⟩ .released .released .expired .holding) :=
    @LockMove.next _ _ [_, _, _] _ _ _ false rfl
  exact ((((run_queueing.move hexpired).move hleft).move hgranted).move hleft').move hgranted'

theorem grants_follow_arrival_contended :
    ∃ es sys, LockRun es sys ∧ [.queued (waitsFor 2 1), .queued (waitsFor 4 3)].Sublist es ∧
      [.granted (waitsFor 2 1), .granted (waitsFor 4 3)].Sublist es ∧
      .expired (waitsFor 3 2) ∈ es ∧ .granted (waitsFor 3 2) ∉ es := by
  obtain ⟨-, -, -, -, horder, hnever⟩ := grants_follow_arrival run_granting
  exact ⟨_, _, run_granting, by decide,
    horder (waitsFor 2 1) (waitsFor 4 3) rfl (by decide) (by decide) (by decide),
    by decide, hnever (waitsFor 3 2) (by decide)⟩

end LockRun

end Scenario
