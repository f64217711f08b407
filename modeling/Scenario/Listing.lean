import Scenario.Tree

/-!
# Listings

A tree as a table of its nodes. A row holds the label of a node, the place of the node above it and
the places of the nodes below it.

A listing is filled from the root down: a node is appended, entered below the one above it, and
followed by the nodes below it. `walk` goes through a listing with a stack of the nodes that are
still to be met.
-/

namespace Scenario

/-- A node in a table. -/
structure Row (α : Type) where
  /-- Its label. -/
  label : α
  /-- The place of the node above it. -/
  parent : Option Nat
  /-- The places of the nodes directly below it. -/
  children : List Nat := []

/-- A table of nodes. -/
structure Listing (α : Type) where
  /-- The nodes, by place. -/
  rows : Array (Row α) := #[]

namespace Listing

variable {α : Type}

/-- The number of nodes. -/
def size (l : Listing α) : Nat := l.rows.size

/-- The node at a place. -/
def row? (l : Listing α) (n : Nat) : Option (Row α) := l.rows[n]?

/-- Enters a place below a node. -/
def link (l : Listing α) (child parent : Nat) : Listing α :=
  ⟨l.rows.modify parent fun r => { r with children := r.children ++ [child] }⟩

/-- Appends a node below another one, if there is one. -/
def append (l : Listing α) (parent : Option Nat) (a : α) : Listing α :=
  let next : Listing α := ⟨l.rows.push ⟨a, parent, []⟩⟩
  match parent with
  | none => next
  | some p => next.link l.size p

mutual

/-- Appends the nodes of a tree. -/
def add (l : Listing α) (parent : Option Nat) : Tree α → Listing α
  | .node a ts => addAll (l.append parent a) l.size ts

/-- Appends the nodes of several trees below a node. -/
def addAll (l : Listing α) (parent : Nat) : List (Tree α) → Listing α
  | [] => l
  | t :: ts => addAll (l.add (some parent) t) parent ts

end

/-- The nodes of a tree. -/
def ofTree (t : Tree α) : Listing α := add {} none t

/-- The nodes below a node on top of those still to be met, the first one uppermost. -/
def stacked (depth : Nat) (children : List Nat) (rest : List (Nat × Nat)) : List (Nat × Nat) :=
  children.reverse.foldl (fun stack n => (depth, n) :: stack) rest

/-- Meets the nodes on a stack, given with their depths, and those below them. No more than `steps`
nodes are met. -/
def visit (l : Listing α) : (steps : Nat) → List (Nat × Nat) → List (Nat × Row α)
  | 0, _ => []
  | _ + 1, [] => []
  | steps + 1, (depth, n) :: rest =>
    match l.row? n with
    | none => l.visit steps rest
    | some r => (depth, r) :: l.visit steps (stacked (depth + 1) r.children rest)

/-- The nodes with their depths, from the root down. Every node is met once, so the walk makes as
many steps as there are nodes. -/
def walk (l : Listing α) : List (Nat × Row α) :=
  if l.size = 0 then [] else l.visit l.size [(0, 0)]

end Listing

end Scenario
