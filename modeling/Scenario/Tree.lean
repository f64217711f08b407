/-!
# Trees

Ordered trees with a label at every node. `number` gives the nodes their places in document order,
`walk` lists them in that order with their depth, parent and children.
-/

namespace Scenario

/-- A tree. -/
inductive Tree (α : Type) where
  /-- A node with its label and the trees below it. -/
  | node (label : α) (children : List (Tree α))

namespace Tree

variable {α β : Type}

instance [Inhabited α] : Inhabited (Tree α) := ⟨node default []⟩

/-- The label of the root. -/
def label : Tree α → α
  | node a _ => a

/-- The trees below the root. -/
def children : Tree α → List (Tree α)
  | node _ ts => ts

mutual

/-- The number of nodes. -/
def size : Tree α → Nat
  | node _ ts => 1 + sizeAll ts

/-- The number of nodes of several trees. -/
def sizeAll : List (Tree α) → Nat
  | [] => 0
  | t :: ts => t.size + sizeAll ts

end

mutual

/-- The labels in document order. -/
def labels : Tree α → List α
  | node a ts => a :: labelsAll ts

/-- The labels of several trees in document order. -/
def labelsAll : List (Tree α) → List α
  | [] => []
  | t :: ts => t.labels ++ labelsAll ts

end

mutual

/-- The tree with its nodes numbered in document order from `n` on. -/
def numberFrom (n : Nat) : Tree α → Tree (Nat × α)
  | node a ts => node (n, a) (numberAll (n + 1) ts)

/-- Several trees with their nodes numbered in document order from `n` on. -/
def numberAll (n : Nat) : List (Tree α) → List (Tree (Nat × α))
  | [] => []
  | t :: ts => t.numberFrom n :: numberAll (n + t.size) ts

end

/-- The tree with its nodes numbered in document order. -/
def number (t : Tree α) : Tree (Nat × α) := t.numberFrom 0

/-- A node as a walk meets it. -/
structure Stop (α : Type) where
  /-- The number of nodes above it. -/
  depth : Nat
  /-- The label of the node above it. -/
  parent : Option α
  /-- Its label. -/
  label : α
  /-- The labels of the nodes directly below it. -/
  children : List α

mutual

/-- The nodes in document order; the root lies below `parent` at `depth`. -/
def walkFrom (depth : Nat) (parent : Option α) : Tree α → List (Stop α)
  | node a ts => ⟨depth, parent, a, ts.map label⟩ :: walkAll (depth + 1) (some a) ts

/-- The nodes of several trees in document order. -/
def walkAll (depth : Nat) (parent : Option α) : List (Tree α) → List (Stop α)
  | [] => []
  | t :: ts => t.walkFrom depth parent ++ walkAll depth parent ts

end

/-- The nodes in document order. -/
def walk (t : Tree α) : List (Stop α) := t.walkFrom 0 none

mutual

theorem length_labels : (t : Tree α) → t.labels.length = t.size
  | node _ ts => by simp [labels, size, length_labelsAll ts, Nat.add_comm]

theorem length_labelsAll : (ts : List (Tree α)) → (labelsAll ts).length = sizeAll ts
  | [] => rfl
  | t :: ts => by simp [labelsAll, sizeAll, length_labels t, length_labelsAll ts]

end

mutual

/-- A walk meets the labels in document order. -/
theorem map_label_walkFrom (d : Nat) (p : Option α) :
    (t : Tree α) → (t.walkFrom d p).map Stop.label = t.labels
  | node a ts => by simp [walkFrom, labels, map_label_walkAll]

theorem map_label_walkAll (d : Nat) (p : Option α) :
    (ts : List (Tree α)) → (walkAll d p ts).map Stop.label = labelsAll ts
  | [] => rfl
  | t :: ts => by simp [walkAll, labelsAll, map_label_walkFrom, map_label_walkAll]

end

end Tree

end Scenario
