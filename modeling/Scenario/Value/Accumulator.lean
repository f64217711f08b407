import Scenario.Value.Basic

/-!
# Values gathered under names

An accumulator collects values under names in order of first appearance. A name that received one
value holds that value, one that received several holds the list of them.

The values of a name are kept as a list from the start. Whether they become one value or a list is
decided only when the tree is made, by their number, so a name needs no second form for the time
after its second value.
-/

namespace Scenario

/-- The values received so far under each name, in order of first appearance. -/
structure Accumulator where
  /-- The groups; none is without values. -/
  groups : List (String × List Value) := []

namespace Accumulator

/-- Adds a value to the group of a name, opening the group if it is new. -/
def pushGroup : List (String × List Value) → String → Value → List (String × List Value)
  | [], k, v => [(k, [v])]
  | (k', vs) :: gs, k, v => if k' = k then (k', vs ++ [v]) :: gs else (k', vs) :: pushGroup gs k v

/-- Receives a value under a name. -/
def push (a : Accumulator) (k : String) (v : Value) : Accumulator := ⟨pushGroup a.groups k v⟩

/-- Whether nothing was received. -/
def isEmpty (a : Accumulator) : Bool := a.groups.isEmpty

/-- The value of a group. -/
def collect : List Value → Value
  | [v] => v
  | vs => .ofItems vs

/-- The tree of what was received. -/
def finish (a : Accumulator) : Entries := a.groups.map fun g => (g.1, collect g.2)

/-- Receives pairs one after the other. -/
def ofPairs (ps : List (String × Value)) : Accumulator := ps.foldl (fun a p => a.push p.1 p.2) {}

/-- The values received under a name, in order. -/
def group (a : Accumulator) (k : String) : List Value := (List.lookup k a.groups).getD []

theorem lookup_pushGroup (gs : List (String × List Value)) (k k' : String) (v : Value) :
    (List.lookup k' (pushGroup gs k v)).getD [] =
      (List.lookup k' gs).getD [] ++ if k' = k then [v] else [] := by
  induction gs with
  | nil =>
    by_cases h : k' = k
    · simp [pushGroup, h]
    · have hb : (k' == k) = false := by simpa using h
      simp [pushGroup, List.lookup_cons, h, hb]
  | cons g gs ih =>
    obtain ⟨k₁, vs⟩ := g
    by_cases h : k₁ = k
    · subst h
      by_cases h' : k' = k₁
      · simp [pushGroup, h']
      · have hb : (k' == k₁) = false := by simpa using h'
        simp [pushGroup, List.lookup_cons, h', hb]
    · by_cases h' : k' = k₁
      · subst h'
        simp [pushGroup, h]
      · have hb : (k' == k₁) = false := by simpa using h'
        simp [pushGroup, List.lookup_cons, h, hb, ih]

/-- A push appends to the group of its name and leaves the other groups alone. -/
theorem group_push (a : Accumulator) (k k' : String) (v : Value) :
    (a.push k v).group k' = a.group k' ++ if k' = k then [v] else [] :=
  lookup_pushGroup a.groups k k' v

end Accumulator

end Scenario
