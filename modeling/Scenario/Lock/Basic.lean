/-!
# Locks

A lock belongs to one thread at a time, which may enter it again while it holds it. Other threads
draw tickets and wait; a free lock goes to the oldest ticket. Each operation here is one atomic
step.

Tickets are numbers without a bound. A counter of 64 bits would hand out a ticket a second time
after `2 ^ 64` draws from one lock; that it is never drawn from so often is taken for granted.
-/

namespace Scenario

/-- The identity of a thread. -/
abbrev Thread := Nat

/-- A place in the queue of a lock, drawn from a counter that does not wrap around. -/
abbrev Ticket := Nat

/-- The state of a lock. -/
structure Lock where
  /-- The thread that holds the lock. -/
  owner : Option Thread := none
  /-- How many times the owner has entered and not left. -/
  depth : Nat := 0
  /-- The next ticket to be drawn. -/
  nextTicket : Ticket := 0
  /-- The tickets of the waiting threads, oldest first. -/
  waiting : List Ticket := []
  deriving DecidableEq, Inhabited

namespace Lock

/-- The owner enters once more. -/
def reenter? (l : Lock) (t : Thread) : Option Lock :=
  if l.owner = some t then some { l with depth := l.depth + 1 } else none

/-- A thread draws a ticket and joins the queue. -/
def enqueue (l : Lock) : Lock × Ticket :=
  ({ l with nextTicket := l.nextTicket + 1, waiting := l.waiting ++ [l.nextTicket] }, l.nextTicket)

/-- The lock is granted to a waiting thread: it has no owner and no older ticket waits. -/
def grant? (l : Lock) (t : Thread) (ticket : Ticket) : Option Lock :=
  if l.owner = none ∧ l.waiting.head? = some ticket then
    some { l with owner := some t, depth := 1, waiting := l.waiting.tail }
  else none

/-- A waiting thread gives up. -/
def expire (l : Lock) (ticket : Ticket) : Lock :=
  { l with waiting := l.waiting.filter (· != ticket) }

/-- The owner leaves once; after the last time the lock is free. -/
def release (l : Lock) : Lock :=
  if l.depth ≤ 1 then { l with depth := 0, owner := none } else { l with depth := l.depth - 1 }

end Lock

end Scenario
