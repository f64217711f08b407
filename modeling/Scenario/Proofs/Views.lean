import Scenario.Proofs.Gathering
import Scenario.Proofs.Lineage

/-!
# Two views of a scope

A name is looked up from its scope towards the root, and the first scope that binds it ends the
search. The list of all that is visible is made the other way: from the root to the scope, and every
scope overwrites what the ones around it have put there. Both find the same.

* `bindingOrder cs s`: the names that a scope binds, in the order that the changes `cs` gave them. A
  name that is bound anew keeps its place; one that is removed loses it.
* `Precedes fs x y`: of the lists `fs`, the first one that holds `x` or `y` puts `x` first.
* **`Reached.views_agree`**: in every arena that can be reached, from every scope, the visible names
  are those that a search finds, once each, with the value that it finds, and they stand in the
  order in which the scopes bind them, the root first.

A later scope can only append names to the list (`Entries.names_ofPairs`), which gives the order. It
takes the place of every value whose name it binds (`Entries.get?_foldl_insert`), which gives the
values.
-/

namespace Scenario

/-! ### Lists of names one after the other -/

/-- Distinct names stand in the order of their places. -/
theorem pairwise_idxOf {ks : List String} (h : ks.Nodup) :
    ks.Pairwise fun x y => ks.idxOf x < ks.idxOf y := by
  refine List.pairwise_iff_getElem.2 fun i j hi hj hij => ?_
  rwa [h.idxOf_getElem i hi, h.idxOf_getElem j hj]

/-- In the first of the lists that holds one of the two names, the first name stands, and the second
one behind it or not at all. -/
def Precedes (fs : List (List String)) (x y : String) : Prop :=
  ∃ before f after, fs = before ++ f :: after ∧ (∀ g ∈ before, x ∉ g ∧ y ∉ g) ∧
    x ∈ f ∧ (y ∈ f → f.idxOf x < f.idxOf y)

theorem Precedes.append {fs : List (List String)} {x y : String} (h : Precedes fs x y)
    (gs : List (List String)) : Precedes (fs ++ gs) x y := by
  obtain ⟨before, f, after, rfl, hbefore, hf⟩ := h
  exact ⟨before, f, after ++ gs, by simp, hbefore, hf⟩

/-- A name that occurs precedes one that does not. -/
theorem precedes_of_notMem {fs : List (List String)} {x y : String} (hx : x ∈ fs.flatten)
    (hy : y ∉ fs.flatten) : Precedes fs x y := by
  have hnone : ∀ g ∈ fs, y ∉ g := fun g hg hmem => hy (List.mem_flatten.2 ⟨g, hg, hmem⟩)
  obtain ⟨g, hg, hxg⟩ := List.mem_flatten.1 hx
  obtain ⟨f, hf⟩ : ∃ f, fs.find? (fun g => decide (x ∈ g)) = some f :=
    Option.isSome_iff_exists.1 (List.find?_isSome.2 ⟨g, hg, by simpa using hxg⟩)
  obtain ⟨hxf, before, after, rfl, hbefore⟩ := List.find?_eq_some_iff_append.1 hf
  refine ⟨before, f, after, rfl, fun g hg => ⟨?_, hnone g (by simp [hg])⟩, by simpa using hxf,
    fun hyf => absurd hyf (hnone f (by simp))⟩
  simpa using hbefore g hg

/-- What occurs in lists without repetitions, taken once each, stands in the order of the lists. -/
theorem pairwise_precedes {fs : List (List String)} (h : ∀ f ∈ fs, f.Nodup) :
    fs.flatten.eraseDups.Pairwise (Precedes fs) := by
  induction fs using List.reverseRecOn with
  | nil => simp
  | append_singleton fs f ih =>
    have ih := ih fun g hg => h g (by simp [hg])
    have hf : f.Nodup := h f (by simp)
    -- The last list adds the names that none of the others holds.
    have hnew : (f.removeAll fs.flatten).Nodup := hf.filter _
    rw [List.flatten_append, List.flatten_singleton, List.eraseDups_append,
      eraseDups_of_nodup hnew, List.pairwise_append]
    have hmem : ∀ {y}, y ∈ f.removeAll fs.flatten → y ∈ f ∧ y ∉ fs.flatten := by
      intro y hy
      simpa [List.removeAll] using hy
    refine ⟨ih.imp fun hxy => hxy.append [f], ?_, fun x hx y hy => ?_⟩
    · refine ((pairwise_idxOf hf).filter _).imp_of_mem fun {x y} hx hy hxy => ?_
      obtain ⟨hxf, hxfs⟩ := hmem hx
      obtain ⟨-, hyfs⟩ := hmem hy
      refine ⟨fs, f, [], rfl, fun g hg => ⟨fun hxg => ?_, fun hyg => ?_⟩, hxf, fun _ => hxy⟩
      · exact hxfs (List.mem_flatten.2 ⟨g, hg, hxg⟩)
      · exact hyfs (List.mem_flatten.2 ⟨g, hg, hyg⟩)
    · exact (precedes_of_notMem (List.mem_eraseDups.1 hx) (hmem hy).2).append [f]

namespace Entries

theorem mem_of_get? {es : Entries} {k : String} {v : Value} (h : es.get? k = some v) :
    (k, v) ∈ es := by
  obtain ⟨front, back, rfl, -⟩ := List.lookup_eq_some_iff.1 h
  simp

/-- A pair is among entries with distinct names exactly if its name leads to its value. -/
theorem mem_iff_get? {es : Entries} (h : es.names.Nodup) (k : String) (v : Value) :
    (k, v) ∈ es ↔ es.get? k = some v :=
  ⟨lookup_of_mem h, mem_of_get?⟩

theorem get?_eq_none_of_notMem {es : Entries} {k : String} (h : k ∉ es.names) :
    es.get? k = none := by
  refine List.lookup_eq_none_iff.2 fun e he => ?_
  simpa using fun heq : k = e.1 => h (heq ▸ List.mem_map_of_mem he)

/-- Entries that are put into others take the place of those with their names. -/
theorem get?_foldl_insert {new : Entries} (h : new.names.Nodup) (es : Entries) (k : String) :
    (new.foldl (fun es e => es.insert e.1 e.2) es).get? k = (new.get? k).or (es.get? k) := by
  induction new generalizing es with
  | nil => rfl
  | cons e new ih =>
    obtain ⟨k', v⟩ := e
    obtain ⟨hk', hnew⟩ := List.nodup_cons.1 h
    rw [List.foldl_cons, ih hnew, get?_insert, get?_cons]
    by_cases hk : k = k'
    · subst hk
      rw [get?_eq_none_of_notMem hk', if_pos rfl, if_pos rfl, Option.none_or, Option.some_or]
    · rw [if_neg hk, if_neg hk]

/-- Entries that are put in one after the other stand in the order of their first occurrences. -/
theorem names_ofPairs (ps : List (String × Value)) :
    (ofPairs ps).names = (ps.map Prod.fst).eraseDups := by
  induction ps using List.reverseRecOn with
  | nil => rfl
  | append_singleton ps p ih =>
    have hconcat : ofPairs (ps ++ [p]) = (ofPairs ps).insert p.1 p.2 := by simp [ofPairs]
    rw [hconcat, names_insert, ih, List.map_append, List.map_singleton, eraseDups_concat]
    simp only [List.mem_eraseDups]

end Entries

namespace Arena

variable {a b : Arena} {s : ScopeId}

/-! ### The order in which a scope binds names -/

/-- What a change makes of the names that its scope binds. -/
def Change.arrange (ids : List String) : Change → List String
  | .opened _ => []
  | .bound _ b => if b.id ∈ ids then ids else ids ++ [b.id]
  | .unbound _ id => ids.filter (· != id)

/-- The names that a scope binds after changes, the newest of which comes first, in the order of
their binding. -/
def bindingOrder : List Change → ScopeId → List String
  | [], _ => []
  | c :: cs, s => if c.scope = s then c.arrange (bindingOrder cs s) else bindingOrder cs s

/-- Every live scope has its names in the order in which the changes bound them. -/
def Arranged (cs : List Change) (a : Arena) : Prop :=
  ∀ s < a.size, (a.frame s).values.names = bindingOrder cs s

theorem arranged_new : Arranged [] {} := by
  intro s hs
  obtain rfl : s = root := Nat.lt_one_iff.1 hs
  rfl

/-- A change of one scope rearranges the names of that scope only. -/
theorem Arranged.modifyFrame {cs : List Change} (ha : Arranged cs a) {c : Change}
    {g : Frame → Frame} (hg : ∀ f, (g f).values.names = c.arrange f.values.names) :
    Arranged (c :: cs) (a.modifyFrame c.scope g) := by
  intro k hk
  rw [size_modifyFrame] at hk
  by_cases hs : c.scope = k
  · have horder : bindingOrder (c :: cs) k = c.arrange (bindingOrder cs k) := if_pos hs
    rw [horder, hs, frame_modifyFrame_self g hk, hg, ha k hk]
  · have horder : bindingOrder (c :: cs) k = bindingOrder cs k := if_neg hs
    rw [horder, frame_modifyFrame_of_ne g (Ne.symm hs), ha k hk]

/-- Every effect keeps the names in the order of the changes. -/
theorem Effect.arranged {c : Option Change} {cs : List Change} (h : Effect a c b)
    (ha : Arranged cs a) : Arranged (c.toList ++ cs) b := by
  cases h with
  | @opened p hp =>
    intro k hk
    obtain hk | rfl := Nat.lt_succ_iff_lt_or_eq.1 (size_enter a p ▸ hk)
    · have horder : bindingOrder (.opened a.size :: cs) k = bindingOrder cs k :=
        if_neg (Nat.ne_of_gt hk)
      rw [frame_enter (Nat.ne_of_lt hk)]
      exact horder ▸ ha k hk
    · have horder : bindingOrder (.opened a.size :: cs) a.size = [] := if_pos rfl
      rw [frame_enter_size]
      exact horder.symm
  | @left s h₀ hs =>
    intro k hk
    have hsize : (a.leave s).size = s := size_leave h₀ (hs ▸ Nat.le_succ s)
    have hk : k < s := hsize ▸ hk
    rw [frame_leave hk]
    exact ha k (hs ▸ Nat.lt_succ_of_lt hk)
  | @bound s hs x => exact ha.modifyFrame fun f => Entries.names_insert f.values x.id x.value
  | @unbound s hs id =>
    refine ha.modifyFrame fun f => ?_
    simp only [Frame.unbind, Entries.names, Entries.erase, Change.arrange, List.filter_map]
    rfl
  | kept h =>
    intro k hk
    rw [h.values_eq k]
    exact ha k (h.size_eq ▸ hk)

theorem Reached.arranged {cs : List Change} (h : Reached cs a) : Arranged cs a := by
  induction h with
  | new => exact arranged_new
  | move _ m hm ih => exact (m.effect hm).arranged ih

/-! ### What is visible -/

theorem visible_eq (a : Arena) (s : ScopeId) :
    a.visible s = Entries.ofPairs ((a.chain s).reverse.flatMap Frame.values) := by
  rw [visible, Entries.ofPairs, List.foldl_flatMap]

/-- The visible names stand in the order of their first occurrences, from the root to the scope. -/
theorem names_visible (a : Arena) (s : ScopeId) : (a.visible s).names =
    (((a.ancestors s).reverse.map fun t => (a.frame t).values.names).flatten).eraseDups := by
  rw [visible_eq, Entries.names_ofPairs, List.map_flatMap, chain, ← List.map_reverse,
    List.flatMap_map, List.flatMap_def]
  rfl

/-- What is visible under a name is what a search for it finds. -/
theorem get?_visible (a : Arena) (s : ScopeId) (id : String) :
    (a.visible s).get? id = a.get? s id := by
  rw [visible, get?]
  -- The innermost scope is the first one of the search and the last one to overwrite.
  induction a.chain s with
  | nil => rfl
  | cons f fs ih =>
    rw [List.reverse_cons, List.foldl_append, List.foldl_cons, List.foldl_nil,
      Entries.get?_foldl_insert f.distinct, ih, List.findSome?_cons]
    cases f.values.get? id <;> rfl

/-- **The two views of a scope agree.** After any sequence of moves, from every live scope: a name
is visible with a value exactly if a search for the name finds that value; no name is visible twice;
and the names stand in the order in which they are bound, first those of the root and last those of
the scope itself, each where it is bound first. -/
theorem Reached.views_agree {cs : List Change} (h : Reached cs a) (hs : s < a.size) :
    (∀ id v, (id, v) ∈ a.visible s ↔ a.get? s id = some v) ∧ (a.visible s).names.Nodup ∧
      ∃ ss, a.LeadsUp s ss ∧
        (a.visible s).names.Pairwise (Precedes (ss.reverse.map (bindingOrder cs))) := by
  have hnodup : (a.visible s).names.Nodup := by
    rw [names_visible]
    exact nodup_eraseDups _
  refine ⟨fun id v => ?_, hnodup, a.ancestors s, h.rooted.ancestors_spec hs, ?_⟩
  · rw [Entries.mem_iff_get? hnodup, get?_visible]
  · have horder : (a.ancestors s).reverse.map (fun t => (a.frame t).values.names) =
        (a.ancestors s).reverse.map (bindingOrder cs) := by
      refine List.map_congr_left fun t ht => h.arranged t ?_
      exact Nat.lt_of_le_of_lt (le_of_mem_ancestors (List.mem_reverse.1 ht)) hs
    rw [names_visible, ← horder]
    refine pairwise_precedes fun f hf => ?_
    obtain ⟨t, -, rfl⟩ := List.mem_map.1 hf
    exact (a.frame t).distinct

/-- A name that is bound in two scopes, another one that is removed and bound again behind it, and a
third one that is bound anew in its old place. -/
theorem views_agree_shadowed : ∃ cs a, Reached cs a ∧ bindingOrder cs 0 = ["y", "z", "x"] ∧
    (a.visible 1).names = ["y", "z", "x", "w"] ∧
    (∃ v, ("y", v) ∈ a.visible 1 ∧ v.isTruthy = false) ∧
    ∃ v, ("z", v) ∈ a.visible 1 ∧ v.isTruthy = true := by
  have h := Reached.new.move (.replace 0 "x" none .null) (by decide +kernel)
    |>.move (.replace 0 "y" none (.bool true)) (by decide +kernel)
    |>.move (.replace 0 "z" none .null) (by decide +kernel)
    |>.move (.remove 0 "x") (by decide +kernel)
    |>.move (.replace 0 "x" none .null) (by decide +kernel)
    |>.move (.replace 0 "z" none (.bool true)) (by decide +kernel)
    |>.move (.enter 0) (by decide +kernel)
    |>.move (.replace 1 "w" none .null) (by decide +kernel)
    |>.move (.replace 1 "y" none (.bool false)) (by decide +kernel)
  obtain ⟨agree, -, -⟩ := h.views_agree (s := 1) (by decide +kernel)
  refine ⟨_, _, h, by decide +kernel, by decide +kernel, ?_, ?_⟩ <;>
    simp only [agree, ← Option.map_eq_some_iff] <;> decide +kernel

end Arena

end Scenario
