import Scenario.Lock.Basic

/-!
# Named locks

A table of locks by name. A lock is made for the first user of its name and forgotten with the last
one; a user is whoever holds the lock or waits for it.
-/

namespace Scenario

/-- The identity of a lock. -/
abbrev LockKey := Nat

/-- The lock that a name stands for. -/
structure LockSlot where
  /-- The name. -/
  name : String
  /-- The lock. -/
  key : LockKey
  /-- How many hold the lock or wait for it. -/
  users : Nat
  deriving DecidableEq

namespace LockSlot

/-- The slot with one user more, if it has a name. -/
def enrolled (s : LockSlot) (name : String) : LockSlot :=
  if s.name == name then { s with users := s.users + 1 } else s

/-- The slot with one user less, if it has a name; without users it is none. -/
def forgotten? (s : LockSlot) (name : String) : Option LockSlot :=
  if s.name == name then
    if s.users ≤ 1 then none else some { s with users := s.users - 1 }
  else some s

end LockSlot

/-- The locks and their names. -/
structure LockTable where
  /-- The names in use. -/
  slots : List LockSlot := []
  /-- The locks made so far, by key. -/
  locks : Array Lock := #[]
  deriving Inhabited

/-- The right to a lock that has been entered. -/
structure LockGuard where
  /-- The name. -/
  name : String
  /-- The lock. -/
  key : LockKey
  deriving DecidableEq

/-- A wait that was given up. -/
structure LockTimeout where
  /-- The name waited for. -/
  name : String
  /-- How long the wait was, in milliseconds. -/
  millis : Nat
  deriving DecidableEq

/-- The text of a wait that was given up. -/
def LockTimeout.message (e : LockTimeout) : String :=
  s!"Timed out after {e.millis} ms waiting for mutex '{e.name}'"

/-- A thread that waits for a lock. -/
structure LockWaiter where
  /-- The thread. -/
  thread : Thread
  /-- What it will have when its turn comes. -/
  guard : LockGuard
  /-- Its place in the queue. -/
  ticket : Ticket
  deriving DecidableEq

namespace LockTable

/-- The number of names in use. -/
def size (t : LockTable) : Nat := t.slots.length

/-- The state of a lock. -/
def lock (t : LockTable) (key : LockKey) : Lock := t.locks[key]?.getD {}

/-- Changes the state of a lock. -/
def setLock (t : LockTable) (key : LockKey) (l : Lock) : LockTable :=
  { t with locks := t.locks.modify key fun _ => l }

/-- The slot of a name. -/
def slot? (t : LockTable) (name : String) : Option LockSlot := t.slots.find? fun s => s.name == name

/-- Counts in a user of a name; the first one makes the lock. -/
def enroll (t : LockTable) (name : String) : LockTable × LockKey :=
  match t.slot? name with
  | some s => ({ t with slots := t.slots.map (·.enrolled name) }, s.key)
  | none =>
    ({ slots := t.slots ++ [⟨name, t.locks.size, 1⟩], locks := t.locks.push {} }, t.locks.size)

/-- Counts out a user of a name; the last one takes the name away. -/
def forget (t : LockTable) (name : String) : LockTable :=
  { t with slots := t.slots.filterMap (·.forgotten? name) }

/-- A thread asks for a lock: it enters at once, or waits with a ticket. -/
def request (t : LockTable) (key : LockKey) (thread : Thread) : LockTable × Option Ticket :=
  match (t.lock key).reenter? thread with
  | some l => (t.setLock key l, none)
  | none =>
    let (l, ticket) := (t.lock key).enqueue
    match l.grant? thread ticket with
    | some l => (t.setLock key l, none)
    | none => (t.setLock key l, some ticket)

/-- A thread asks for the lock of a name and stays in the queue if it has to wait. -/
def join (t : LockTable) (thread : Thread) (name : String) :
    LockTable × Except LockWaiter LockGuard :=
  let (t, key) := t.enroll name
  match t.request key thread with
  | (t, none) => (t, .ok ⟨name, key⟩)
  | (t, some ticket) => (t, .error ⟨thread, ⟨name, key⟩, ticket⟩)

/-- A waiting thread leaves the queue. -/
def expire (t : LockTable) (w : LockWaiter) : LockTable :=
  t.setLock w.guard.key ((t.lock w.guard.key).expire w.ticket)

/-- A thread gives up waiting. -/
def quit (t : LockTable) (w : LockWaiter) : LockTable := (t.expire w).forget w.guard.name

/-- A thread enters the lock of a name if it need not wait. Otherwise it gives up, and the error
says how long it was prepared to wait. -/
def acquire (t : LockTable) (thread : Thread) (name : String) (millis : Nat) :
    LockTable × Except LockTimeout LockGuard :=
  match t.join thread name with
  | (t, .ok g) => (t, .ok g)
  | (t, .error w) => (t.quit w, .error ⟨name, millis⟩)

/-- A lock is left once. -/
def leave (t : LockTable) (g : LockGuard) : LockTable := t.setLock g.key (t.lock g.key).release

/-- A thread gives up the right to a lock. -/
def release (t : LockTable) (g : LockGuard) : LockTable := (t.leave g).forget g.name

/-- Grants a lock to a waiting thread if it is that thread's turn. -/
def grant? (t : LockTable) (w : LockWaiter) : Option LockTable :=
  ((t.lock w.guard.key).grant? w.thread w.ticket).map (t.setLock w.guard.key)

end LockTable

end Scenario
