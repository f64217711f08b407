import Scenario.Listing
import Scenario.Proofs.Building
import Mathlib.Data.List.Nodup

/-!
# Document order

The nodes of a tree are gone through in four ways: `Tree.walk` and dumps by recursion on the tree,
the filling of a listing by recursion with an append in front of it, and the walk through a listing
with a stack. This module says that they all meet the same nodes in the same order.

* `Listing.Shows` — the rows of a listing are the nodes of a tree, each in the place that its number
  says.
* `Listing.add_numberFrom` — filling a listing appends the nodes of a numbered tree and enters its
  root below the node above it, and changes no other row.
* `Listing.visit_numberFrom` — with the root of a tree on top of its stack, a walk meets the nodes
  of the tree and then goes on with the rest of the stack.
* `Listing.length_above` — the depth of a node is the number of nodes above it.
* **`Assembly.document_in_order`** — all of it, for the program of a document.
-/

namespace Scenario

namespace Tree

variable {α : Type}

/-! ### The nodes of a tree -/

/-- A node that a walk meets, as a row. -/
def Stop.row (s : Stop (Nat × α)) : Row (Nat × α) :=
  ⟨s.label, s.parent.map Prod.fst, s.children.map Prod.fst⟩

/-- The numbers of the roots of several trees. -/
def roots (ts : List (Tree (Nat × α))) : List Nat := ts.map fun t => t.label.1

@[simp] theorem label_numberFrom (n : Nat) (t : Tree α) : (t.numberFrom n).label.1 = n := by
  cases t
  rfl

theorem size_pos (t : Tree α) : 0 < t.size := by
  cases t
  rw [size]
  omega

mutual

@[simp] theorem size_numberFrom (n : Nat) : (t : Tree α) → (t.numberFrom n).size = t.size
  | node a ts => by rw [numberFrom, size, size, sizeAll_numberAll]

@[simp] theorem sizeAll_numberAll (n : Nat) :
    (ts : List (Tree α)) → sizeAll (numberAll n ts) = sizeAll ts
  | [] => rfl
  | t :: ts => by rw [numberAll, sizeAll, sizeAll, size_numberFrom, sizeAll_numberAll]

end

/-- The numbers of trees beside each other increase. -/
theorem roots_numberAll (n : Nat) (ts : List (Tree α)) :
    (roots (numberAll n ts)).Pairwise (· < ·) ∧ ∀ k ∈ roots (numberAll n ts), n ≤ k := by
  induction ts generalizing n with
  | nil => simp [numberAll, roots]
  | cons t ts ih =>
    obtain ⟨hincr, hmin⟩ := ih (n + t.size)
    have hpos := t.size_pos
    simp only [numberAll, roots, List.map_cons, label_numberFrom, List.pairwise_cons,
      List.mem_cons, forall_eq_or_imp]
    simp only [roots] at hincr hmin
    refine ⟨⟨fun k hk => ?_, hincr⟩, Nat.le_refl n, fun k hk => ?_⟩
    · have := hmin k hk
      omega
    · have := hmin k hk
      omega

mutual

/-- Below the first node that a walk meets, every node is listed by the one above it. -/
theorem listed_walkFrom (d : Nat) (p : Option α) : (t : Tree α) → ∀ s ∈ t.walkFrom d p,
    s.parent = p ∧ s.label = t.label ∨
      ∃ q ∈ t.walkFrom d p, s.parent = some q.label ∧ s.label ∈ q.children
  | node a ts => by
    intro s hs
    rw [walkFrom, List.mem_cons] at hs
    obtain rfl | hs := hs
    · exact .inl ⟨rfl, rfl⟩
    · right
      rw [walkFrom]
      obtain ⟨hp, hroot⟩ | ⟨q, hq, hup⟩ := listed_walkAll (d + 1) (some a) ts s hs
      · exact ⟨_, List.mem_cons_self, hp, hroot⟩
      · exact ⟨q, List.mem_cons_of_mem _ hq, hup⟩

theorem listed_walkAll (d : Nat) (p : Option α) : (ts : List (Tree α)) → ∀ s ∈ walkAll d p ts,
    s.parent = p ∧ s.label ∈ ts.map label ∨
      ∃ q ∈ walkAll d p ts, s.parent = some q.label ∧ s.label ∈ q.children
  | [] => by simp [walkAll]
  | t :: ts => by
    intro s hs
    rw [walkAll, List.mem_append] at hs
    rw [walkAll, List.map_cons]
    obtain hs | hs := hs
    · obtain ⟨hp, hroot⟩ | ⟨q, hq, hup⟩ := listed_walkFrom d p t s hs
      · exact .inl ⟨hp, hroot ▸ List.mem_cons_self⟩
      · exact .inr ⟨q, List.mem_append_left _ hq, hup⟩
    · obtain ⟨hp, hroot⟩ | ⟨q, hq, hup⟩ := listed_walkAll d p ts s hs
      · exact .inl ⟨hp, List.mem_cons_of_mem _ hroot⟩
      · exact .inr ⟨q, List.mem_append_right _ hq, hup⟩

end

/-- The first node that a walk meets. -/
theorem root_mem_walkFrom (d : Nat) (p : Option α) (t : Tree α) :
    ∃ s ∈ t.walkFrom d p, s.label = t.label ∧ s.parent = p := by
  obtain ⟨a, ts⟩ := t
  rw [walkFrom]
  exact ⟨_, List.mem_cons_self, rfl, rfl⟩

theorem roots_mem_walkAll (d : Nat) (p : Option α) {ts : List (Tree α)} {t : Tree α} (ht : t ∈ ts) :
    ∃ s ∈ walkAll d p ts, s.label = t.label ∧ s.parent = p := by
  induction ts with
  | nil => cases ht
  | cons u us ih =>
    rw [walkAll]
    obtain rfl | ht := List.mem_cons.1 ht
    · obtain ⟨s, hs, hroot⟩ := root_mem_walkFrom d p t
      exact ⟨s, List.mem_append_left _ hs, hroot⟩
    · obtain ⟨s, hs, hroot⟩ := ih ht
      exact ⟨s, List.mem_append_right _ hs, hroot⟩

mutual

/-- A walk meets what a node lists, with that node above it. -/
theorem met_walkFrom (d : Nat) (p : Option α) : (t : Tree α) → ∀ q ∈ t.walkFrom d p,
    ∀ x ∈ q.children, ∃ s ∈ t.walkFrom d p, s.label = x ∧ s.parent = some q.label
  | node a ts => by
    intro q hq x hx
    rw [walkFrom, List.mem_cons] at hq
    rw [walkFrom]
    obtain rfl | hq := hq
    · obtain ⟨t, ht, rfl⟩ := List.mem_map.1 hx
      obtain ⟨s, hs, hroot⟩ := roots_mem_walkAll (d + 1) (some a) ht
      exact ⟨s, List.mem_cons_of_mem _ hs, hroot⟩
    · obtain ⟨s, hs, hup⟩ := met_walkAll (d + 1) (some a) ts q hq x hx
      exact ⟨s, List.mem_cons_of_mem _ hs, hup⟩

theorem met_walkAll (d : Nat) (p : Option α) : (ts : List (Tree α)) → ∀ q ∈ walkAll d p ts,
    ∀ x ∈ q.children, ∃ s ∈ walkAll d p ts, s.label = x ∧ s.parent = some q.label
  | [] => by simp [walkAll]
  | t :: ts => by
    intro q hq x hx
    rw [walkAll, List.mem_append] at hq
    rw [walkAll]
    obtain hq | hq := hq
    · obtain ⟨s, hs, hup⟩ := met_walkFrom d p t q hq x hx
      exact ⟨s, List.mem_append_left _ hs, hup⟩
    · obtain ⟨s, hs, hup⟩ := met_walkAll d p ts q hq x hx
      exact ⟨s, List.mem_append_right _ hs, hup⟩

end

mutual

/-- The nodes below a node come after it, in the order of their numbers. -/
theorem children_walkFrom (d : Nat) (p : Option (Nat × α)) : (n : Nat) → (t : Tree α) →
    ∀ s ∈ (t.numberFrom n).walkFrom d p,
      s.row.children.Pairwise (· < ·) ∧ ∀ k ∈ s.row.children, s.label.1 < k
  | n, node a ts => by
    intro s hs
    rw [numberFrom, walkFrom, List.mem_cons] at hs
    obtain rfl | hs := hs
    · obtain ⟨hincr, hmin⟩ := roots_numberAll (n + 1) ts
      simp only [Stop.row, List.map_map]
      exact ⟨hincr, hmin⟩
    · exact children_walkAll (d + 1) _ (n + 1) ts s hs

theorem children_walkAll (d : Nat) (p : Option (Nat × α)) : (n : Nat) → (ts : List (Tree α)) →
    ∀ s ∈ walkAll d p (numberAll n ts),
      s.row.children.Pairwise (· < ·) ∧ ∀ k ∈ s.row.children, s.label.1 < k
  | _, [] => by simp [numberAll, walkAll]
  | n, t :: ts => by
    intro s hs
    rw [numberAll, walkAll, List.mem_append] at hs
    obtain hs | hs := hs
    · exact children_walkFrom d p n t s hs
    · exact children_walkAll d p (n + t.size) ts s hs

end

/-- A walk meets the nodes of a numbered tree in the order of their numbers. -/
theorem places_walkFrom (d n : Nat) (p : Option (Nat × α)) (t : Tree α) :
    ((t.numberFrom n).walkFrom d p).map (fun s => s.label.1) = List.range' n t.size := by
  have h := congrArg (List.map Prod.fst) (map_label_walkFrom d p (t.numberFrom n))
  rwa [List.map_map, places_numberFrom] at h

/-- A number that a walk meets lies in the tree. -/
theorem place_lt {d n : Nat} {p : Option (Nat × α)} {t : Tree α} {s : Stop (Nat × α)}
    (hs : s ∈ (t.numberFrom n).walkFrom d p) : n ≤ s.label.1 ∧ s.label.1 < n + t.size := by
  have hmem : s.label.1 ∈ List.range' n t.size := by
    rw [← places_walkFrom d n p t]
    exact List.mem_map_of_mem hs
  simpa using hmem

end Tree

/-- A row with more places below it. -/
def Row.extended {α : Type} (r : Row α) (ns : List Nat) : Row α :=
  { r with children := r.children ++ ns }

namespace Listing

open Scenario.Tree

variable {α : Type}

/-! ### Filling -/

@[simp] theorem size_append (l : Listing α) (parent : Option Nat) (a : α) :
    (l.append parent a).size = l.size + 1 := by
  cases parent <;> simp [append, link, size]

theorem row?_link (l : Listing α) (child parent k : Nat) :
    (l.link child parent).row? k =
      (l.row? k).map fun r => if k = parent then r.extended [child] else r := by
  simp only [row?, link, Array.getElem?_modify, eq_comm (a := k)]
  split
  · rfl
  · simp

theorem row?_append {l : Listing α} {parent : Option Nat} (a : α) (k : Nat)
    (hp : ∀ p, parent = some p → p < l.size) :
    (l.append parent a).row? k = if k = l.size then some ⟨a, parent, []⟩
      else (l.row? k).map fun r => if parent = some k then r.extended [l.size] else r := by
  have hpush : (⟨l.rows.push ⟨a, parent, []⟩⟩ : Listing α).row? k =
      if k = l.size then some ⟨a, parent, []⟩ else l.row? k := Array.getElem?_push
  cases parent with
  | none => simpa [append] using hpush
  | some p =>
    have hlt := hp p rfl
    simp only [append, row?_link, hpush]
    by_cases hk : k = l.size
    · have hne : k ≠ p := by omega
      rw [if_pos hk, if_pos hk, Option.map_some, if_neg hne]
    · simp only [if_neg hk, Option.some.injEq, eq_comm]

/-- The rows of the first listing are those of the second one, but for more places below one of
them. -/
def Grows (parent : Nat) (ns : List Nat) (l l' : Listing α) : Prop :=
  ∀ k < l.size, l'.row? k = (l.row? k).map fun r => if k = parent then r.extended ns else r

theorem Grows.trans {parent : Nat} {ns ms : List Nat} {l l₁ l₂ : Listing α}
    (hle : l.size ≤ l₁.size) (h : Grows parent ns l l₁) (h' : Grows parent ms l₁ l₂) :
    Grows parent (ns ++ ms) l l₂ := by
  intro k hk
  rw [h' k (by omega), h k hk, Option.map_map]
  refine congrArg (fun f => (l.row? k).map f) (funext fun r => ?_)
  by_cases hp : k = parent <;> simp [hp, Row.extended]

/-- The listing has the nodes that a walk meets, each in the place that its number says. -/
def Shows (l : Listing (Nat × α)) (ss : List (Stop (Nat × α))) : Prop :=
  ∀ s ∈ ss, l.row? s.label.1 = some s.row

/-- What is filled in later changes no other row than the one it is entered below. -/
theorem Shows.grows {l l' : Listing (Nat × α)} {ss : List (Stop (Nat × α))} {parent : Nat}
    {ns : List Nat} (h : l.Shows ss) (hlt : ∀ s ∈ ss, parent < s.label.1 ∧ s.label.1 < l.size)
    (hg : Grows parent ns l l') : l'.Shows ss := by
  intro s hs
  obtain ⟨hgt, hsize⟩ := hlt s hs
  have hne : s.label.1 ≠ parent := by omega
  rw [hg _ hsize, h s hs]
  simp [hne]

/-- A node is appended, and then the nodes below it, given what that does. -/
theorem add_node {l l' : Listing (Nat × α)} {parent : Option Nat} {a : α}
    {ts : List (Tree (Nat × α))} (hp : ∀ p, parent = some p → p < l.size)
    (hg : Grows l.size (roots ts) (l.append parent (l.size, a)) l') :
    (∀ k < l.size, l'.row? k =
      (l.row? k).map fun r => if parent = some k then r.extended [l.size] else r) ∧
      l'.row? l.size = some ⟨(l.size, a), parent, roots ts⟩ := by
  constructor
  · intro k hk
    have hne : k ≠ l.size := by omega
    rw [hg k (by rw [size_append]; omega), row?_append _ k hp, if_neg hne]
    simp only [hne, if_false, Option.map_id']
  · rw [hg l.size (by simp), row?_append _ _ hp, if_pos rfl]
    simp [Row.extended]

mutual

/-- **Filling in a numbered tree.** Its nodes are appended, in the places that their numbers say,
and its root is entered below the node above it. -/
theorem add_numberFrom {p : Nat} : (t : Tree α) → (l : Listing (Nat × α)) → p < l.size →
    (l.add (some p) (t.numberFrom l.size)).size = l.size + t.size ∧
      Grows p [l.size] l (l.add (some p) (t.numberFrom l.size)) ∧
      ∀ d x, (l.add (some p) (t.numberFrom l.size)).Shows
        ((t.numberFrom l.size).walkFrom d (some (p, x)))
  | node a ts, l, hp => by
    have hp' : ∀ q, some p = some q → q < l.size := by
      rintro q ⟨⟩
      exact hp
    obtain ⟨hsize, hg, hshows⟩ := addAll_numberAll (p := l.size) ts
      (l.append (some p) (l.size, a)) (by simp)
    rw [size_append] at hsize hg hshows
    obtain ⟨hrows, hroot⟩ := add_node hp' hg
    rw [numberFrom, add, Tree.size]
    refine ⟨by rw [hsize]; omega, fun k hk => ?_, fun d x s hs => ?_⟩
    · simpa [eq_comm] using hrows k hk
    · rw [walkFrom, List.mem_cons] at hs
      obtain rfl | hs := hs
      · rw [hroot]
        simp [Stop.row, roots]
      · exact hshows (d + 1) a s hs

theorem addAll_numberAll {p : Nat} : (ts : List (Tree α)) → (l : Listing (Nat × α)) → p < l.size →
    (addAll l p (numberAll l.size ts)).size = l.size + sizeAll ts ∧
      Grows p (roots (numberAll l.size ts)) l (addAll l p (numberAll l.size ts)) ∧
      ∀ d x, (addAll l p (numberAll l.size ts)).Shows
        (walkAll d (some (p, x)) (numberAll l.size ts))
  | [], l, _ => by
    refine ⟨rfl, fun k _ => ?_, fun d x => ?_⟩
    · simp [numberAll, addAll, roots, Row.extended]
    · simp [Shows, numberAll, walkAll]
  | t :: ts, l, hp => by
    obtain ⟨hsize, hg, hshows⟩ := add_numberFrom t l hp
    have hp' : p < (l.add (some p) (t.numberFrom l.size)).size := by omega
    obtain ⟨hsize', hg', hshows'⟩ := addAll_numberAll ts (l.add (some p) (t.numberFrom l.size)) hp'
    rw [hsize] at hsize' hg' hshows'
    rw [numberAll, addAll, sizeAll]
    refine ⟨by rw [hsize']; omega, ?_, fun d x s hs => ?_⟩
    · have hroots : roots (t.numberFrom l.size :: numberAll (l.size + t.size) ts) =
          [l.size] ++ roots (numberAll (l.size + t.size) ts) := by simp [roots]
      rw [hroots]
      exact hg.trans (by omega) hg'
    · rw [walkAll, List.mem_append] at hs
      obtain hs | hs := hs
      · refine (hshows d x).grows (fun s hs => ?_) hg' s hs
        have := place_lt hs
        omega
      · exact hshows' d x s hs

end

/-- The listing of a numbered tree has its nodes and no others. -/
theorem shows_ofTree (t : Tree α) :
    (ofTree t.number).size = t.size ∧ (ofTree t.number).Shows (Tree.walk t.number) := by
  obtain ⟨a, ts⟩ := t
  obtain ⟨hsize, hg, hshows⟩ := addAll_numberAll (p := 0) ts
    (append ({} : Listing (Nat × α)) none (0, a)) (by simp)
  have hone : (append ({} : Listing (Nat × α)) none (0, a)).size = 1 := size_append _ _ _
  rw [hone] at hsize hg hshows
  obtain ⟨-, hroot⟩ := add_node (l := ({} : Listing (Nat × α))) (a := a) (by simp) hg
  refine ⟨hsize, fun s hs => ?_⟩
  rw [number, numberFrom, Tree.walk, walkFrom, List.mem_cons] at hs
  obtain rfl | hs := hs
  · refine hroot.trans ?_
    simp [Stop.row, roots, size]
  · exact hshows 1 a s hs

/-! ### Walking -/

theorem stacked_eq (depth : Nat) (ns : List Nat) (rest : List (Nat × Nat)) :
    stacked depth ns rest = ns.map (fun n => (depth, n)) ++ rest := by
  rw [stacked, List.foldl_reverse]
  induction ns with
  | nil => rfl
  | cons n ns ih => rw [List.foldr_cons, ih, List.map_cons, List.cons_append]

mutual

/-- **With the root of a tree on top of its stack**, a walk meets the nodes of the tree and goes on
with the rest of the stack. -/
theorem visit_numberFrom {l : Listing (Nat × α)} (d : Nat) (p : Option (Nat × α)) (k : Nat)
    (rest : List (Nat × Nat)) : (n : Nat) → (t : Tree α) →
    l.Shows ((t.numberFrom n).walkFrom d p) →
    l.visit (t.size + k) ((d, n) :: rest) =
      ((t.numberFrom n).walkFrom d p).map (fun s => (s.depth, s.row)) ++ l.visit k rest
  | n, node a ts, h => by
    rw [numberFrom, walkFrom] at h ⊢
    have hroot := h _ List.mem_cons_self
    have hbelow : l.Shows (walkAll (d + 1) (some (n, a)) (numberAll (n + 1) ts)) :=
      fun s hs => h s (List.mem_cons_of_mem _ hs)
    have hsteps : (node a ts).size + k = (sizeAll ts + k) + 1 := by
      rw [Tree.size]
      omega
    rw [hsteps, visit, show l.row? n = _ from hroot]
    simp only [stacked_eq, List.map_cons, List.cons_append]
    rw [← visit_numberAll (d + 1) (some (n, a)) k rest (n + 1) ts hbelow]
    simp [Stop.row, roots, Function.comp_def]

theorem visit_numberAll {l : Listing (Nat × α)} (d : Nat) (p : Option (Nat × α)) (k : Nat)
    (rest : List (Nat × Nat)) : (n : Nat) → (ts : List (Tree α)) →
    l.Shows (walkAll d p (numberAll n ts)) →
    l.visit (sizeAll ts + k) ((roots (numberAll n ts)).map (fun n => (d, n)) ++ rest) =
      (walkAll d p (numberAll n ts)).map (fun s => (s.depth, s.row)) ++ l.visit k rest
  | _, [], _ => by simp [sizeAll, numberAll, roots, walkAll]
  | n, t :: ts, h => by
    rw [numberAll, walkAll] at h ⊢
    have hfirst : l.Shows ((t.numberFrom n).walkFrom d p) :=
      fun s hs => h s (List.mem_append_left _ hs)
    have hothers : l.Shows (walkAll d p (numberAll (n + t.size) ts)) :=
      fun s hs => h s (List.mem_append_right _ hs)
    rw [sizeAll, Nat.add_assoc, List.map_append, List.append_assoc,
      ← visit_numberAll d p k rest (n + t.size) ts hothers,
      ← visit_numberFrom d p _ _ n t hfirst]
    simp [roots]

end

/-- The walk through the listing of a numbered tree is the walk through the tree. -/
theorem walk_ofTree (t : Tree α) :
    (ofTree t.number).walk = (Tree.walk t.number).map fun s => (s.depth, s.row) := by
  obtain ⟨hsize, hshows⟩ := shows_ofTree t
  have hpos := t.size_pos
  rw [Listing.walk, hsize, if_neg (by omega)]
  have h := visit_numberFrom (l := ofTree t.number) 0 none 0 [] 0 t hshows
  rw [Nat.add_zero] at h
  rw [h, visit, List.append_nil]
  rfl

/-! ### Depth -/

/-- The places of the nodes above a node, innermost first. -/
def above (l : Listing α) (n : Nat) : List Nat :=
  match (l.row? n).bind Row.parent with
  | some p => if _h : p < n then p :: l.above p else []
  | none => []
termination_by n

theorem above_of_parent {l : Listing α} {n p : Nat} {r : Row α} (hr : l.row? n = some r)
    (hp : r.parent = some p) (hlt : p < n) : l.above n = p :: l.above p := by
  rw [above, hr, Option.bind_some, hp]
  simp [hlt]

mutual

/-- A walk finds the depth of a node as the number of nodes above it. -/
theorem length_above {l : Listing (Nat × α)} (d : Nat) (p : Option (Nat × α)) :
    (n : Nat) → (t : Tree α) → l.Shows ((t.numberFrom n).walkFrom d p) →
    (l.above n).length = d → ∀ s ∈ (t.numberFrom n).walkFrom d p,
      (l.above s.label.1).length = s.depth
  | n, node a ts, h, hroot => by
    intro s hs
    rw [numberFrom, walkFrom] at h hs
    obtain rfl | hs := List.mem_cons.1 hs
    · exact hroot
    · exact length_above_all (d + 1) (n, a) (n + 1) ts
        (fun s hs => h s (List.mem_cons_of_mem _ hs)) (Nat.lt_succ_self n) (by rw [hroot]) s hs

theorem length_above_all {l : Listing (Nat × α)} (d : Nat) (x : Nat × α) :
    (n : Nat) → (ts : List (Tree α)) → l.Shows (walkAll d (some x) (numberAll n ts)) → x.1 < n →
    (l.above x.1).length + 1 = d → ∀ s ∈ walkAll d (some x) (numberAll n ts),
      (l.above s.label.1).length = s.depth
  | _, [], _, _, _ => by simp [numberAll, walkAll]
  | n, t :: ts, h, hlt, hx => by
    intro s hs
    rw [numberAll, walkAll] at h hs
    obtain hs | hs := List.mem_append.1 hs
    · have hfirst : l.Shows ((t.numberFrom n).walkFrom d (some x)) :=
        fun s hs => h s (List.mem_append_left _ hs)
      refine length_above d (some x) n t hfirst ?_ s hs
      obtain ⟨a, us⟩ := t
      have hroot := hfirst _ (by rw [numberFrom, walkFrom]; exact List.mem_cons_self)
      rw [above_of_parent hroot rfl hlt, List.length_cons, hx]
    · exact length_above_all d x (n + t.size) ts (fun s hs => h s (List.mem_append_right _ hs))
        (by omega) hx s hs

end

/-! ### Order -/

/-- The nodes of a listing stand in document order: a node is listed once by the node above it,
which comes before it, and what a node lists lies below it and comes in order. -/
structure Orderly (l : Listing α) : Prop where
  root : ∀ {n r}, l.row? n = some r → (r.parent = none ↔ n = 0)
  parent : ∀ {n r m}, l.row? n = some r → r.parent = some m →
    m < n ∧ ∃ q, l.row? m = some q ∧ q.children.count n = 1
  children : ∀ {n r}, l.row? n = some r → r.children.Pairwise (· < ·) ∧
    ∀ c ∈ r.children, ∃ q, l.row? c = some q ∧ q.parent = some n

/-- A row of the listing of a numbered tree is a node that a walk through the tree meets. -/
theorem exists_stop {t : Tree α} {n : Nat} {r : Row (Nat × α)}
    (h : (ofTree t.number).row? n = some r) :
    ∃ s ∈ Tree.walk t.number, s.label.1 = n ∧ s.row = r := by
  obtain ⟨hsize, hshows⟩ := shows_ofTree t
  have hlt : n < t.size := by
    rw [← hsize]
    exact (Array.getElem?_eq_some_iff.1 h).1
  have hmem : n ∈ (Tree.walk t.number).map fun s => s.label.1 := by
    rw [Tree.walk, number, places_walkFrom]
    simpa using hlt
  obtain ⟨s, hs, rfl⟩ := List.mem_map.1 hmem
  exact ⟨s, hs, rfl, Option.some.inj ((hshows s hs).symm.trans h)⟩

/-- A walk meets the node of a place as the node of that number. -/
theorem walk_getElem? {t : Tree α} {n : Nat} {r : Row (Nat × α)}
    (h : (ofTree t.number).row? n = some r) :
    ∃ depth, (ofTree t.number).walk[n]? = some (depth, r) := by
  obtain ⟨s, hs, hplace, rfl⟩ := exists_stop h
  obtain ⟨i, hi, rfl⟩ := List.getElem_of_mem hs
  have hplaces : ((Tree.walk t.number).map fun s => s.label.1)[i]? = some i := by
    have hsize : i < t.size := by
      rw [← List.length_map (f := fun s => s.label.1), Tree.walk, number, places_walkFrom,
        List.length_range'] at hi
      exact hi
    rw [Tree.walk, number, places_walkFrom, List.getElem?_range' hsize, Nat.one_mul, Nat.zero_add]
  rw [List.getElem?_map, List.getElem?_eq_getElem hi, Option.map_some, Option.some.injEq,
    hplace] at hplaces
  subst hplaces
  exact ⟨_, by rw [walk_ofTree, List.getElem?_map, List.getElem?_eq_getElem hi, Option.map_some]⟩

/-- **The listing of a numbered tree is orderly.** -/
theorem orderly_ofTree (t : Tree α) : (ofTree t.number).Orderly := by
  obtain ⟨-, hshows⟩ := shows_ofTree t
  have hparent : ∀ {n r m}, (ofTree t.number).row? n = some r → r.parent = some m →
      m < n ∧ ∃ q, (ofTree t.number).row? m = some q ∧ q.children.count n = 1 := by
    intro n r m hr hm
    obtain ⟨s, hs, rfl, rfl⟩ := exists_stop hr
    obtain ⟨x, hx, rfl⟩ := Option.map_eq_some_iff.1 hm
    obtain ⟨hnone, -⟩ | ⟨q, hq, hup, hlisted⟩ := listed_walkFrom 0 none t.number s hs
    · rw [hnone] at hx
      cases hx
    · obtain rfl : q.label = x := Option.some.inj (hup.symm.trans hx)
      obtain ⟨hincr, hlater⟩ := children_walkFrom 0 none 0 t q hq
      have hmem : s.label.1 ∈ q.row.children := List.mem_map_of_mem hlisted
      exact ⟨hlater _ hmem, q.row, hshows q hq, List.count_eq_one_of_mem hincr.nodup hmem⟩
  refine ⟨?_, hparent, ?_⟩
  · intro n r hr
    obtain ⟨s, hs, rfl, rfl⟩ := exists_stop hr
    constructor
    · intro hnone
      obtain ⟨-, hroot⟩ | ⟨q, -, hup, -⟩ := listed_walkFrom 0 none t.number s hs
      · rw [hroot]
        exact label_numberFrom 0 t
      · rw [Stop.row, hup] at hnone
        cases hnone
    · -- a node with another one above it is not the first
      intro hzero
      cases hp : s.row.parent with
      | none => rfl
      | some m =>
        have := (hparent hr hp).1
        omega
  · intro n r hr
    obtain ⟨s, hs, rfl, rfl⟩ := exists_stop hr
    refine ⟨(children_walkFrom 0 none 0 t s hs).1, fun c hc => ?_⟩
    obtain ⟨x, hx, rfl⟩ := List.mem_map.1 hc
    obtain ⟨q, hq, rfl, hup⟩ := met_walkFrom 0 none t.number s hs x hx
    refine ⟨q.row, hshows q hq, ?_⟩
    rw [Stop.row, hup]
    rfl

end Listing

/-! ### Dumps -/

mutual

/-- A dump lists the instructions of a program in their order. -/
theorem Program.labels_dumpTree (entity : String) : (p : Program) →
    (Program.dumpTree entity p).labels = p.labels.map fun x => x.2.dumpNode entity
  | .node (_, i) ts => by
    rw [dumpTree, Tree.labels, Tree.labels, List.map_cons, labelsAll_dumpTrees entity ts]

theorem Program.labelsAll_dumpTrees (entity : String) : (ps : List Program) →
    Tree.labelsAll (Program.dumpTrees entity ps) =
      (Tree.labelsAll ps).map fun x => x.2.dumpNode entity
  | [] => rfl
  | p :: ps => by
    rw [dumpTrees, Tree.labelsAll, Tree.labelsAll, List.map_append, labels_dumpTree entity p,
      labelsAll_dumpTrees entity ps]

end

namespace Assembly

open Parse

/-- **The instructions of a document stand in document order.** In the listing of its program, an
instruction has the number of its place; the first one alone has none above it, and every other one
is listed once by the instruction above it, which comes before it. A walk through the listing meets
all instructions by their numbers, at a depth that is the number of instructions above, and so do
the walk through the tree and the dump: what the dump holds in the place of an instruction is the
name, implementation, line and fields of that very instruction, with the name of the entity. -/
theorem document_in_order {cx : Assembly} {root : Xml.Element} {maker : RootMaker} {w w' : World}
    {p : Program} (h : Gives (cx.document root maker) w p w') :
    (Listing.ofTree p).Orderly ∧
    (∀ n r, (Listing.ofTree p).row? n = some r → r.label.1 = n) ∧
    (Listing.ofTree p).walk.map (fun x => x.2.label.1) = List.range (Listing.ofTree p).size ∧
    (∀ x ∈ (Listing.ofTree p).walk, (Listing.ofTree p).row? x.2.label.1 = some x.2 ∧
      x.1 = ((Listing.ofTree p).above x.2.label.1).length) ∧
    (Tree.walk p).map (fun s => (s.depth, s.row)) = (Listing.ofTree p).walk ∧
    ∀ entity, (Program.dumpTree entity p).labels =
        (Listing.ofTree p).walk.map (fun x => x.2.label.2.dumpNode entity) ∧
      ∀ n r, (Listing.ofTree p).row? n = some r → (Program.dumpTree entity p).labels[n]? = some {
        tag := r.label.2.name
        implementation := r.label.2.tag.typeName
        line := r.label.2.line
        resource := entity
        fields := r.label.2.tag.fields } := by
  obtain ⟨tag, ts, -, -, rfl⟩ := gives_document.1 h
  generalize Tree.node { name := root.head.name, line := root.head.line, tag } ts = t
  obtain ⟨hsize, hshows⟩ := Listing.shows_ofTree t
  have hwalk := Listing.walk_ofTree t
  have hdump : ∀ entity, (Program.dumpTree entity t.number).labels =
      (Listing.ofTree t.number).walk.map fun x => x.2.label.2.dumpNode entity := by
    intro entity
    rw [Program.labels_dumpTree, hwalk, List.map_map,
      ← Tree.map_label_walkFrom 0 none t.number, List.map_map]
    rfl
  refine ⟨Listing.orderly_ofTree t, fun n r hr => ?_, ?_, fun x hx => ?_, hwalk.symm,
    fun entity => ⟨hdump entity, fun n r hr => ?_⟩⟩
  · obtain ⟨s, -, rfl, rfl⟩ := Listing.exists_stop hr
    rfl
  · have hplaces := Tree.places_walkFrom 0 0 none t
    rw [hwalk, List.map_map, hsize, List.range_eq_range']
    exact hplaces
  · rw [hwalk] at hx
    obtain ⟨s, hs, rfl⟩ := List.mem_map.1 hx
    refine ⟨hshows s hs, (Listing.length_above 0 none 0 t hshows ?_ s hs).symm⟩
    -- there is nothing above the root
    obtain ⟨q, hq, hroot, hnone⟩ := Tree.root_mem_walkFrom 0 none t.number
    have hrow := hshows q hq
    rw [hroot, show t.number.label.1 = 0 from Tree.label_numberFrom 0 t] at hrow
    rw [Listing.above, hrow, Option.bind_some, Tree.Stop.row, hnone]
    rfl
  · obtain ⟨depth, hmet⟩ := Listing.walk_getElem? hr
    rw [hdump, List.getElem?_map, hmet]
    rfl

/-- A data tag with two others inside it, the first of which holds a text, and behind it a call with
an attribute. -/
def nestedData : Xml.Element where
  head := { name := "scenario" }
  children := [
    .element { name := "data", attrs := [{ name := "id", value := "x" }] }
      [.element { name := "a" } [.text "1" 1], .element { name := "b" } []],
    .element { name := "log", attrs := [{ name := "value", value := "hi" }] } []]

theorem document_in_order_nested :
    let cx : Assembly := {
      registry := Builtin.registry
      evaluator := .template
      locator := []
      path := "mem:main"
      refer := fun _ => pure none }
    ∃ p w', Gives (cx.document nestedData .scenario) {} p w' ∧ (Listing.ofTree p).Orderly ∧
      (Listing.ofTree p).walk.map (fun x => (x.1, x.2.label.1)) =
        [(0, 0), (1, 1), (2, 2), (3, 3), (2, 4), (1, 5), (2, 6), (3, 7)] := by
  intro cx
  have htest : (((cx.document nestedData .scenario).run.run {}).1.toOption.any fun p =>
      decide ((Listing.ofTree p).walk.map (fun x => (x.1, x.2.label.1)) =
        [(0, 0), (1, 1), (2, 2), (3, 3), (2, 4), (1, 5), (2, 6), (3, 7)])) = true := by
    decide +kernel
  rcases hx : (cx.document nestedData .scenario).run.run {} with ⟨e | p, w'⟩
  · rw [hx] at htest
    cases htest
  · rw [hx] at htest
    exact ⟨p, w', hx, (document_in_order hx).1, of_decide_eq_true htest⟩

end Assembly

end Scenario
