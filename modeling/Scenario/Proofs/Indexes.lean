import Scenario.Proofs.Views

/-!
# Bindings by value and by tag

Bindings are looked up by name. There are two indexes the other way: `findId?` leads from a value to
a name that has it, and `nameMap` from the name of a tag to the values that it declared. Both go
through the scopes one by one and look at what each of them binds, whether or not a nearer scope
binds the same name.

* `Bears cs v strict excluded t id`: in the scope `t`, after the changes `cs`, the name has the
  value that is searched for.
* `declarations cs ts`: what tags declared in the scopes `ts`, in the order of binding.
* **`Reached.finds_bearer`**: a name is found exactly if some scope around bears the value, and it
  is the first one in the nearest such scope. Looking it up gives the value back exactly if no
  nearer scope binds the name.
* **`Reached.name_map_groups`**: every declared value is under its tag, all values of a tag together
  and in order, and nothing else is there.

For the second one the two tables of a scope have to agree: a tag that is noted for a name is the
one of its last binding (`Holds`).
-/

namespace Scenario

/-- Whether a value is the one that is searched for: the very same one if `strict`, else an equal
one. -/
def Value.equals (strict : Bool) (w v : Value) : Bool := if strict then w.same v else w.eqv v

namespace Accumulator

/-- A tree holds, under each name, what the values received under it make up, and nothing else. -/
theorem mem_finish_iff {ps : List (String × Value)} {k : String} {v : Value} :
    (k, v) ∈ (ofPairs ps).finish ↔ Output.Gathers (valuesUnder ps k) v := by
  have hnames := names_finish ps
  constructor
  · intro hmem
    have hk : k ∈ ps.map Prod.fst := by
      rw [← List.mem_eraseDups, ← hnames]
      exact List.mem_map_of_mem hmem
    have hv : v = collect (valuesUnder ps k) := collect_of_mem_finish hmem
    rw [hv]
    exact Output.gathers_collect (valuesUnder_ne_nil hk)
  · intro hgathers
    obtain ⟨w, hw⟩ := List.exists_mem_of_ne_nil _ hgathers.ne_nil
    obtain ⟨p, hunder, -⟩ := List.mem_map.1 hw
    obtain ⟨hp, hpk⟩ := List.mem_filter.1 hunder
    have hmem : k ∈ Entries.names (ofPairs ps).finish := by
      rw [hnames, List.mem_eraseDups]
      exact of_decide_eq_true hpk ▸ List.mem_map_of_mem hp
    obtain ⟨e, he, hkey⟩ := List.mem_map.1 hmem
    have hcollect := collect_of_mem_finish he
    rw [hkey] at hcollect
    obtain rfl : e.2 = v :=
      hcollect.trans ((Output.gathers_collect hgathers.ne_nil).unique hgathers)
    rwa [← hkey]

end Accumulator

namespace Arena

variable {a : Arena} {s t : ScopeId} {cs : List Change} {v : Value} {strict : Bool}
  {excluded : List String} {id : String}

/-! ### From values to names -/

/-- The name is not excluded, and its latest binding in a scope has the value searched for. -/
def Bears (cs : List Change) (v : Value) (strict : Bool) (excluded : List String) (t : ScopeId)
    (id : String) : Prop :=
  id ∉ excluded ∧ ∃ b, latest cs t id = some b ∧ b.value.equals strict v = true

/-- The name is the first one in a scope to bear the value, and none does in the scopes `near`. -/
structure FirstBearer (cs : List Change) (v : Value) (strict : Bool) (excluded : List String)
    (near : List ScopeId) (t : ScopeId) (id : String) : Prop where
  bears : Bears cs v strict excluded t id
  first : ∀ k, Bears cs v strict excluded t k →
    (bindingOrder cs t).idxOf id ≤ (bindingOrder cs t).idxOf k
  none_near : ∀ u ∈ near, ∀ k, ¬ Bears cs v strict excluded u k

/-- The test of an entry in the search. -/
def sought (v : Value) (strict : Bool) (excluded : List String) (e : String × Value) : Bool :=
  !excluded.contains e.1 && e.2.equals strict v

/-- The name of the first entry of a scope that passes the test. -/
def bearer? (v : Value) (strict : Bool) (excluded : List String) (f : Frame) : Option String :=
  (f.values.find? (sought v strict excluded)).map Prod.fst

theorem findId?_eq (a : Arena) (s : ScopeId) (v : Value) (strict : Bool) (excluded : List String) :
    a.findId? s v strict true excluded =
      (a.ancestors s).findSome? fun t => bearer? v strict excluded (a.frame t) := by
  rw [findId?, if_pos rfl, chain, List.findSome?_map]
  rfl

/-- A scope bears the value under the names of the entries that pass the test. -/
theorem bears_iff (h : Holds (a.frame t) (latest cs t)) :
    Bears cs v strict excluded t id ↔
      ∃ w, (id, w) ∈ (a.frame t).values ∧ sought v strict excluded (id, w) = true := by
  have hvalues := (h id).1
  simp only [Bears, sought, Entries.mem_iff_get? (a.frame t).distinct, hvalues,
    Option.map_eq_some_iff, Bool.and_eq_true, Bool.not_eq_true', List.contains_eq_mem,
    decide_eq_false_iff_not]
  constructor
  · rintro ⟨hid, b, hb, heq⟩
    exact ⟨b.value, ⟨b, hb, rfl⟩, hid, heq⟩
  · rintro ⟨_, ⟨b, hb, rfl⟩, hid, heq⟩
    exact ⟨hid, b, hb, heq⟩

theorem bearer?_eq_none_iff (h : Holds (a.frame t) (latest cs t)) :
    bearer? v strict excluded (a.frame t) = none ↔ ∀ k, ¬ Bears cs v strict excluded t k := by
  simp only [bearer?, Option.map_eq_none_iff, List.find?_eq_none, bears_iff h]
  constructor
  · rintro hnone k ⟨w, hmem, hw⟩
    exact hnone (k, w) hmem hw
  · intro hnone e hmem he
    exact hnone e.1 ⟨e.2, hmem, he⟩

/-- What is found in a scope bears the value, and stands before everything else there that does. -/
theorem first_of_bearer? (h : Holds (a.frame t) (latest cs t))
    (horder : (a.frame t).values.names = bindingOrder cs t)
    (hfound : bearer? v strict excluded (a.frame t) = some id) :
    Bears cs v strict excluded t id ∧ ∀ k, Bears cs v strict excluded t k →
      (bindingOrder cs t).idxOf id ≤ (bindingOrder cs t).idxOf k := by
  obtain ⟨e, he, rfl⟩ := Option.map_eq_some_iff.1 hfound
  obtain ⟨hpass, front, back, hvalues, hfront⟩ := List.find?_eq_some_iff_append.1 he
  refine ⟨(bears_iff h).2 ⟨e.2, by simp [hvalues], hpass⟩, fun k hk => ?_⟩
  obtain ⟨w, hmem, hw⟩ := (bears_iff h).1 hk
  have hnames : bindingOrder cs t = front.map Prod.fst ++ e.1 :: back.map Prod.fst := by
    rw [← horder, hvalues]
    simp [Entries.names]
  have hnodup : (bindingOrder cs t).Nodup := horder ▸ (a.frame t).distinct
  rw [hnames] at hnodup ⊢
  have hapart := List.nodup_append.1 hnodup
  -- Neither name stands in front of the entry: one because it stands there, the other because
  -- all that stands in front fails the test.
  have he : e.1 ∉ front.map Prod.fst := fun hin => hapart.2.2 e.1 hin e.1 (by simp) rfl
  have hk : k ∉ front.map Prod.fst := by
    intro hin
    rw [hvalues, List.mem_append] at hmem
    obtain hmem | hmem := hmem
    · simpa [hw] using hfront (k, w) hmem
    · refine hapart.2.2 k hin k ?_ rfl
      rw [← List.map_cons]
      exact List.mem_map_of_mem (f := Prod.fst) hmem
  rw [List.idxOf_append_of_notMem he, List.idxOf_append_of_notMem hk, List.idxOf_cons_self]
  omega

/-- The first bearer, from the scope outwards, is what the search finds. -/
theorem Reached.exists_firstBearer (h : Reached cs a) (hs : s < a.size)
    (hfound : a.findId? s v strict true excluded = some id) :
    ∃ near t far, a.ancestors s = near ++ t :: far ∧
      FirstBearer cs v strict excluded near t id := by
  have hlive : ∀ t ∈ a.ancestors s, t < a.size :=
    fun t ht => Nat.lt_of_le_of_lt (le_of_mem_ancestors ht) hs
  rw [findId?_eq, List.findSome?_eq_some_iff] at hfound
  obtain ⟨near, t, far, hsplit, hid, hnear⟩ := hfound
  have ht := hlive t (by simp [hsplit])
  obtain ⟨hbears, hfirst⟩ := first_of_bearer? (h.recorded t ht) (h.arranged t ht) hid
  refine ⟨near, t, far, hsplit, hbears, hfirst, fun u hu => ?_⟩
  exact (bearer?_eq_none_iff (h.recorded u (hlive u (by simp [hsplit, hu])))).1 (hnear u hu)

/-- The search finds nothing only where no scope bears the value. -/
theorem Reached.not_bears (h : Reached cs a) (hs : s < a.size)
    (hnone : a.findId? s v strict true excluded = none) (ht : t ∈ a.ancestors s) :
    ¬ Bears cs v strict excluded t id := by
  have hlive : t < a.size := Nat.lt_of_le_of_lt (le_of_mem_ancestors ht) hs
  rw [findId?_eq, List.findSome?_eq_none_iff] at hnone
  exact (bearer?_eq_none_iff (h.recorded t hlive)).1 (hnone t ht) id

/-- Looking up the name that was found gives the value back, unless a nearer scope binds the
name. -/
theorem FirstBearer.returns_iff {near far : List ScopeId}
    (hfirst : FirstBearer cs v strict excluded near t id) (h : Reached cs a) (hs : s < a.size)
    (hsplit : a.ancestors s = near ++ t :: far) :
    (∃ w, a.get? s id = some w ∧ w.equals strict v = true) ↔ ∀ u ∈ near, latest cs u id = none := by
  obtain ⟨hid, b, hb, heq⟩ := hfirst.bears
  rw [(h.recorded.lookup_eq hs id).1, nearest, hsplit, List.findSome?_append]
  cases hnear : near.findSome? fun u => latest cs u id with
  | none =>
    simpa [hb, heq] using List.findSome?_eq_none_iff.1 hnear
  | some b' =>
    -- A nearer scope binds the name, but does not bear the value.
    obtain ⟨u, hu, hb'⟩ := List.exists_of_findSome?_eq_some hnear
    have hother : b'.value.equals strict v = false := by
      rw [Bool.eq_false_iff]
      exact fun heq' => hfirst.none_near u hu id ⟨hid, b', hb', heq'⟩
    have hbound : ¬ ∀ u ∈ near, latest cs u id = none := fun hnone => by
      rw [hnone u hu] at hb'
      cases hb'
    simp [hother, hbound]

/-- **Values lead to names.** After any sequence of moves, from every live scope: a name that is
found for a value is not excluded, and it is the first name, in the nearest scope around, that bears
the value there. Looking the name up gives the value back exactly if no scope that is nearer than
this one binds the name. And whenever some name leads to the value and is not excluded, a name is
found. -/
theorem Reached.finds_bearer (h : Reached cs a) (hs : s < a.size) (v : Value) (strict : Bool)
    (excluded : List String) :
    (∀ id, a.findId? s v strict true excluded = some id → id ∉ excluded ∧
      ∃ near t far, a.ancestors s = near ++ t :: far ∧ FirstBearer cs v strict excluded near t id ∧
        ((∃ w, a.get? s id = some w ∧ w.equals strict v = true) ↔
          ∀ u ∈ near, latest cs u id = none)) ∧
    ((∃ id w, id ∉ excluded ∧ a.get? s id = some w ∧ w.equals strict v = true) →
      ∃ id, a.findId? s v strict true excluded = some id) := by
  constructor
  · intro id hfound
    obtain ⟨near, t, far, hsplit, hfirst⟩ := h.exists_firstBearer hs hfound
    exact ⟨hfirst.bears.1, near, t, far, hsplit, hfirst, hfirst.returns_iff h hs hsplit⟩
  · rintro ⟨id, w, hid, hw, heq⟩
    rw [(h.recorded.lookup_eq hs id).1, Option.map_eq_some_iff] at hw
    obtain ⟨b, hb, rfl⟩ := hw
    obtain ⟨t, ht, hlatest⟩ := List.exists_of_findSome?_eq_some hb
    rw [← Option.ne_none_iff_exists']
    intro hnone
    exact h.not_bears hs hnone ht ⟨hid, b, hlatest, heq⟩

/-- Two lists that are equal and not the same: the search for the outer one finds the inner one,
unless the values have to be the same or the inner name is excluded. -/
theorem finds_bearer_same : ∃ cs a, Reached cs a ∧
    a.findId? 1 (.list 1 []) false true [] = some "copy" ∧
    (∃ near t far, a.ancestors 1 = near ++ t :: far ∧
      FirstBearer cs (.list 1 []) true [] near t "shared") ∧
    ∃ id, a.findId? 1 (.list 1 []) false true ["copy"] = some id := by
  have h := Reached.new.move (.replace 0 "shared" none (.list 1 [])) rfl
    |>.move (.enter 0) rfl
    |>.move (.replace 1 "other" none .null) rfl
    |>.move (.replace 1 "copy" none (.list 2 [])) rfl
  obtain ⟨strictly, -⟩ := h.finds_bearer (s := 1) (by decide) (.list 1 []) true []
  obtain ⟨-, found⟩ := h.finds_bearer (s := 1) (by decide) (.list 1 []) false ["copy"]
  obtain ⟨-, near, t, far, hsplit, hfirst, -⟩ := strictly "shared" (by decide +kernel)
  refine ⟨_, _, h, by decide +kernel, ⟨near, t, far, hsplit, hfirst⟩, found ⟨"shared", ?_⟩⟩
  simp only [exists_and_left, ← Option.any_eq_true]
  decide +kernel

/-- A name that is bound in two scopes is found for the value of the outer one, and leads to the
value of the inner one. -/
theorem finds_shadowed_name : ∃ cs a, Reached cs a ∧
    a.findId? 1 (.num (Number.ofNat 1)) false true [] = some "x" ∧
    ¬ ∃ w, a.get? 1 "x" = some w ∧ w.equals false (.num (Number.ofNat 1)) = true := by
  have h := Reached.new.move (.replace 0 "x" none (.num (Number.ofNat 1))) rfl
    |>.move (.enter 0) rfl
    |>.move (.replace 1 "x" none (.num (Number.ofNat 2))) rfl
  refine ⟨_, _, h, by decide +kernel, ?_⟩
  rw [← Option.any_eq_true]
  decide +kernel

/-! ### From tags to values -/

/-- What a tag declared in a scope under a name: its own name, and the value. -/
def declaration? (cs : List Change) (t : ScopeId) (id : String) : Option (String × Value) :=
  (latest cs t id).bind fun b => b.origin.map fun tag => (tag, b.value)

/-- What tags declared in several scopes, one after the other, each in the order of binding. -/
def declarations (cs : List Change) (ts : List ScopeId) : List (String × Value) :=
  ts.flatMap fun t => (bindingOrder cs t).filterMap (declaration? cs t)

/-- The scopes that a name map is made of, the outermost one first: the scope alone, or all the
scopes `ss` that lead from it up to the root; the root itself only if it is asked for. -/
def mapped (s : ScopeId) (ss : List ScopeId) (merge withRoot : Bool) : List ScopeId :=
  ((if merge then ss else [s]).filter fun t => withRoot || t != root).reverse

/-- A scope declares what its latest changes declared. -/
theorem declared_eq (h : Holds (a.frame t) (latest cs t))
    (horder : (a.frame t).values.names = bindingOrder cs t) :
    declared (a.frame t) = (bindingOrder cs t).filterMap (declaration? cs t) := by
  rw [← horder, Entries.names, List.filterMap_map, declared]
  refine List.filterMap_congr fun e he => ?_
  have hvalue := (Entries.mem_iff_get? (a.frame t).distinct e.1 e.2).1 he
  rw [(h e.1).1] at hvalue
  obtain ⟨b, hb, hbe⟩ := Option.map_eq_some_iff.1 hvalue
  simp [declaration?, (h e.1).2, hb, hbe]

theorem mem_declarations {ts : List ScopeId} {tag : String} :
    tag ∈ (declarations cs ts).map Prod.fst ↔
      ∃ t ∈ ts, ∃ id ∈ bindingOrder cs t, ∃ b, latest cs t id = some b ∧ b.origin = some tag := by
  simp only [declarations, declaration?, List.mem_map, List.mem_flatMap, List.mem_filterMap,
    Option.bind_eq_some_iff, Option.map_eq_some_iff]
  constructor
  · rintro ⟨-, ⟨t, ht, id, hid, b, hb, tag, htag, rfl⟩, rfl⟩
    exact ⟨t, ht, id, hid, b, hb, htag⟩
  · rintro ⟨t, ht, id, hid, b, hb, htag⟩
    exact ⟨_, ⟨t, ht, id, hid, b, hb, tag, htag, rfl⟩, rfl⟩

/-- The name map groups what tags declared in the scopes that it is made of. -/
theorem Reached.nameMap_eq (h : Reached cs a) (merge withRoot : Bool)
    (hlive : ∀ t ∈ mapped s (a.ancestors s) merge withRoot, t < a.size) :
    a.nameMap s merge withRoot =
      (Accumulator.ofPairs (declarations cs (mapped s (a.ancestors s) merge withRoot))).finish := by
  have hmapped : (if withRoot then if merge then a.ancestors s else [s]
      else (if merge then a.ancestors s else [s]).filter (· != root)).reverse =
      mapped s (a.ancestors s) merge withRoot := by
    rw [mapped]
    cases withRoot <;> simp
  unfold nameMap
  dsimp only
  rw [hmapped, declarations]
  refine congrArg (fun ps => (Accumulator.ofPairs ps).finish) (List.flatMap_congr fun t ht => ?_)
  exact declared_eq (h.recorded t (hlive t ht)) (h.arranged t (hlive t ht))

/-- A bound name stands in the order of binding. -/
theorem Reached.mem_bindingOrder (h : Reached cs a) (ht : t < a.size) {b : Binding}
    (hb : latest cs t id = some b) : id ∈ bindingOrder cs t := by
  have hvalue := (h.recorded t ht id).1
  rw [hb] at hvalue
  rw [← h.arranged t ht]
  exact List.mem_map_of_mem ((Entries.mem_iff_get? (a.frame t).distinct id b.value).2 hvalue)

/-- **Tags lead to values.** After any sequence of moves, from every live scope: the name map of the
scope, or of all scopes that lead from it up to the root, with or without the root itself, has a key
for each tag that declared the latest binding of some name there, and for no other. The keys stand
in the order in which the tags first occur among these bindings, the outermost scope first and each
scope in the order of binding. Under each key is the value that its tag declared if there is one
such binding, and otherwise the list of all of them in that order. -/
theorem Reached.name_map_groups (h : Reached cs a) (hs : s < a.size) (merge withRoot : Bool) :
    a.LeadsUp s (a.ancestors s) ∧
      let ts := mapped s (a.ancestors s) merge withRoot
      (∀ tag, tag ∈ (a.nameMap s merge withRoot).names ↔
        ∃ t ∈ ts, ∃ id b, latest cs t id = some b ∧ b.origin = some tag) ∧
      (a.nameMap s merge withRoot).names = ((declarations cs ts).map Prod.fst).eraseDups ∧
      ∀ tag v, (tag, v) ∈ a.nameMap s merge withRoot ↔
        Output.Gathers (valuesUnder (declarations cs ts) tag) v := by
  have hlive : ∀ t ∈ mapped s (a.ancestors s) merge withRoot, t < a.size := by
    intro t ht
    have hmem := (List.mem_filter.1 (List.mem_reverse.1 ht)).1
    cases merge with
    | true => exact Nat.lt_of_le_of_lt (le_of_mem_ancestors hmem) hs
    | false => exact List.mem_singleton.1 hmem ▸ hs
  have hmap := h.nameMap_eq merge withRoot hlive
  have hnames :=
    Accumulator.names_finish (declarations cs (mapped s (a.ancestors s) merge withRoot))
  rw [← hmap] at hnames
  refine ⟨h.rooted.ancestors_spec hs, fun tag => ?_, hnames, fun tag v => ?_⟩
  · rw [hnames, List.mem_eraseDups, mem_declarations]
    refine exists_congr fun t => and_congr_right fun ht => exists_congr fun id => ?_
    constructor
    · exact fun hid => hid.2
    · rintro ⟨b, hb, htag⟩
      exact ⟨h.mem_bindingOrder (hlive t ht) hb, b, hb, htag⟩
  · rw [hmap, Accumulator.mem_finish_iff]

/-- A tag that declares a name in two scopes, one of them hidden behind the other; a name that is
bound again without a tag; one that another tag takes over in its old place; and the root. -/
theorem name_map_groups_taken_over : ∃ cs a, Reached cs a ∧
    (a.nameMap 2 true false).names = ["item", "other"] ∧
    (a.nameMap 2 true true).names = ["property", "item", "other"] ∧
    ∃ v, v.display = "[true, false]" ∧
      Output.Gathers (valuesUnder (declarations cs (mapped 2 (a.ancestors 2) true false)) "item")
        v := by
  have h := Reached.new.move (.add 0 "p" (some "property") .null true) rfl
    |>.move (.enter 0) rfl
    |>.move (.add 1 "x" (some "item") (.bool true) true) rfl
    |>.move (.add 1 "y" (some "item") .null true) rfl
    |>.move (.replace 1 "y" none .null) rfl
    |>.move (.enter 1) rfl
    |>.move (.add 2 "x" (some "item") (.bool false) true) rfl
    |>.move (.add 2 "z" (some "item") .null true) rfl
    |>.move (.replace 2 "z" (some "other") .null) rfl
  obtain ⟨-, -, -, hmem⟩ := h.name_map_groups (s := 2) (by decide) true false
  refine ⟨_, _, h, by decide +kernel, by decide +kernel, ?_⟩
  have hshown : ∀ es : Entries, es.any (fun e => e.1 == "item" && e.2.display == "[true, false]") =
      true → ∃ v, v.display = "[true, false]" ∧ ("item", v) ∈ es := by
    intro es hany
    obtain ⟨⟨k, v⟩, he, htest⟩ := List.any_eq_true.1 hany
    obtain ⟨rfl, hv⟩ : k = "item" ∧ v.display = "[true, false]" := by simpa using htest
    exact ⟨v, hv, he⟩
  simp only [← hmem]
  exact hshown _ (by decide +kernel)

end Arena

end Scenario
