import Scenario.Output
import Scenario.Proofs.Containers
import Mathlib.Data.List.Perm.Basic

/-!
# The shape of gathered outputs

What a parent makes of the outputs of its children depends on them alone: on the values that are not
null, on whether one of them is named, and on the names. Containers do not matter.

* `Expands items os` opens the containers of `items` one after the other, from the left.
* `Gathers vs v`: the values `vs`, at least one, make up the value `v`.
* `Shaped os r`: outputs without containers make up `r`.
* **`aggregate_has_shape`**: outputs combine to the one result of the shape that their leaves ask
  for. No container that is opened changes it, and every value that is not null is under exactly one
  key.

Names stand in the order in which they first occur. In an accumulator that is the order of the
groups (`Accumulator.names_ofPairs`), because a name that is there already never opens a group.
-/

namespace Scenario

/-! ### Values by their names -/

/-- The values under a name, in order. -/
def valuesUnder (ps : List (String × Value)) (k : String) : List Value :=
  (ps.filter fun p => p.1 = k).map Prod.snd

theorem valuesUnder_concat (ps : List (String × Value)) (p : String × Value) (k : String) :
    valuesUnder (ps ++ [p]) k = valuesUnder ps k ++ if k = p.1 then [p.2] else [] := by
  by_cases h : k = p.1
  · simp [valuesUnder, h]
  · simp [valuesUnder, h, Ne.symm h]

theorem valuesUnder_ne_nil {ps : List (String × Value)} {k : String} (h : k ∈ ps.map Prod.fst) :
    valuesUnder ps k ≠ [] := by
  obtain ⟨p, hp, rfl⟩ := List.mem_map.1 h
  exact List.ne_nil_of_mem (List.mem_map_of_mem (List.mem_filter.2 ⟨hp, by simp⟩))

/-- Sorted by names, values are the same values. -/
theorem perm_valuesUnder (ps : List (String × Value)) :
    ((ps.map Prod.fst).eraseDups.flatMap (valuesUnder ps)).Perm (ps.map Prod.snd) := by
  induction ps using List.reverseRecOn with
  | nil => simp
  | append_singleton ps p ih =>
    have hnodup := nodup_eraseDups (ps.map Prod.fst)
    have hold : ((ps.map Prod.fst).eraseDups.flatMap (valuesUnder (ps ++ [p]))).Perm
        (ps.map Prod.snd ++ if p.1 ∈ ps.map Prod.fst then [p.2] else []) := by
      have hsplit := (List.flatMap_append_perm (ps.map Prod.fst).eraseDups (valuesUnder ps)
        fun k => if k = p.1 then [p.2] else []).symm
      simp only [flatMap_ite_eq_of_nodup hnodup, List.mem_eraseDups] at hsplit
      simp only [funext (valuesUnder_concat ps p)]
      exact hsplit.trans (ih.append_right _)
    rw [List.map_append, List.map_append, List.map_singleton, eraseDups_concat]
    by_cases hp : p.1 ∈ ps.map Prod.fst
    · simpa [hp] using hold
    · have hnew : valuesUnder (ps ++ [p]) p.1 = [p.2] := by
        have hnone : valuesUnder ps p.1 = [] := by
          simp only [valuesUnder, List.map_eq_nil_iff, List.filter_eq_nil_iff]
          intro q hq hqp
          exact hp (by simpa using ⟨q.2, (of_decide_eq_true hqp) ▸ hq⟩)
        rw [valuesUnder_concat, hnone, if_pos rfl, List.nil_append]
      rw [if_neg hp, List.flatMap_append, List.flatMap_singleton, hnew]
      rw [if_neg hp, List.append_nil] at hold
      exact hold.append_right _

/-- Under distinct names a pair is found by its name. -/
theorem lookup_of_mem {β : Type} {gs : List (String × β)} (h : (gs.map Prod.fst).Nodup)
    {g : String × β} (hg : g ∈ gs) : List.lookup g.1 gs = some g.2 := by
  induction gs with
  | nil => cases hg
  | cons g' gs ih =>
    obtain ⟨hg', hgs⟩ := List.nodup_cons.1 h
    obtain rfl | hg := List.mem_cons.1 hg
    · exact List.lookup_cons_self
    · have hne : (g.1 == g'.1) = false := by
        rw [beq_eq_false_iff_ne]
        rintro heq
        exact hg' (heq ▸ List.mem_map_of_mem hg)
      rw [List.lookup_cons, hne, ih hgs hg]

namespace Accumulator

theorem names_pushGroup (gs : List (String × List Value)) (k : String) (v : Value) :
    (pushGroup gs k v).map Prod.fst =
      if k ∈ gs.map Prod.fst then gs.map Prod.fst else gs.map Prod.fst ++ [k] := by
  induction gs with
  | nil => rfl
  | cons g gs ih =>
    obtain ⟨k', vs⟩ := g
    by_cases h : k' = k
    · simp [pushGroup, h]
    · by_cases h' : k ∈ gs.map Prod.fst <;> simp [pushGroup, h, Ne.symm h, ih, h']

theorem ofPairs_concat (ps : List (String × Value)) (p : String × Value) :
    ofPairs (ps ++ [p]) = (ofPairs ps).push p.1 p.2 := by
  simp [ofPairs]

/-- The groups stand in the order in which their names first occur. -/
theorem names_ofPairs (ps : List (String × Value)) :
    (ofPairs ps).groups.map Prod.fst = (ps.map Prod.fst).eraseDups := by
  induction ps using List.reverseRecOn with
  | nil => rfl
  | append_singleton ps p ih =>
    rw [ofPairs_concat, push, names_pushGroup, ih, List.map_append, List.map_singleton,
      eraseDups_concat]
    simp only [List.mem_eraseDups]

/-- A group holds the values under its name, in order. -/
theorem group_ofPairs (ps : List (String × Value)) (k : String) :
    (ofPairs ps).group k = valuesUnder ps k := by
  induction ps using List.reverseRecOn with
  | nil => rfl
  | append_singleton ps p ih => rw [ofPairs_concat, group_push, ih, valuesUnder_concat]

/-- What a tree holds under a name is made up of the values received under it. -/
theorem collect_of_mem_finish {ps : List (String × Value)} {e : String × Value}
    (he : e ∈ (ofPairs ps).finish) : e.2 = collect (valuesUnder ps e.1) := by
  obtain ⟨g, hg, rfl⟩ := List.mem_map.1 he
  have hnodup : ((ofPairs ps).groups.map Prod.fst).Nodup := by
    rw [names_ofPairs]
    exact nodup_eraseDups _
  have hgroup : (ofPairs ps).group g.1 = g.2 := by rw [group, lookup_of_mem hnodup hg]; rfl
  rw [← group_ofPairs, hgroup]

theorem names_finish (ps : List (String × Value)) :
    Entries.names (ofPairs ps).finish = (ps.map Prod.fst).eraseDups := by
  rw [← names_ofPairs, finish, Entries.names, List.map_map]
  rfl

end Accumulator

namespace Output

/-! ### Containers -/

/-- Whether the output is a container. -/
def isNested : Output → Bool
  | nested _ => true
  | _ => false

/-- Opens the containers of outputs from the left to the right, whatever comes out of them. -/
inductive Expands : List Output → List Output → Prop
  | nil : Expands [] []
  | leaf {o : Output} {items os : List Output} (ho : o.isNested = false) (h : Expands items os) :
      Expands (o :: items) (o :: os)
  | nested {ys items os : List Output} (h : Expands (ys ++ items) os) :
      Expands (.nested ys :: items) os

/-- One container is opened in place, here or inside others. -/
inductive Opens : List Output → List Output → Prop
  | here (xs ys zs : List Output) : Opens (xs ++ .nested ys :: zs) (xs ++ ys ++ zs)
  | inside {ys ys' : List Output} (xs zs : List Output) (h : Opens ys ys') :
      Opens (xs ++ .nested ys :: zs) (xs ++ .nested ys' :: zs)

theorem leaves_of_isNested {o : Output} (h : o.isNested = false) : o.leaves = [o] := by
  cases o with
  | nested => cases h
  | _ => simp [leaves]

theorem flatten_of_expands {items os : List Output} (h : Expands items os) :
    os = flatten items := by
  induction h with
  | nil => simp [flatten]
  | leaf ho _ ih => rw [flatten, leaves_of_isNested ho, ih, List.singleton_append]
  | nested _ ih => rw [ih, flatten_append, flatten, leaves]

mutual

theorem expands_cons : (o : Output) → {items os : List Output} → Expands items os →
    Expands (o :: items) (o.leaves ++ os)
  | .nested ys, items, os, h => by
    rw [leaves]
    exact .nested (expands_append ys h)
  | .absent, _, _, h => by simpa [leaves] using Expands.leaf rfl h
  | .value _, _, _, h => by simpa [leaves] using Expands.leaf rfl h
  | .named _ _, _, _, h => by simpa [leaves] using Expands.leaf rfl h

theorem expands_append : (ys : List Output) → {items os : List Output} → Expands items os →
    Expands (ys ++ items) (flatten ys ++ os)
  | [], _, _, h => by simpa [flatten] using h
  | y :: ys, _, _, h => by
    rw [flatten, List.append_assoc]
    exact expands_cons y (expands_append ys h)

end

/-- All containers can be opened, in one way only. -/
theorem expands_iff {items os : List Output} : Expands items os ↔ os = flatten items := by
  constructor
  · exact flatten_of_expands
  · rintro rfl
    simpa using expands_append items .nil

theorem flatten_of_opens {items items' : List Output} (h : Opens items items') :
    flatten items' = flatten items := by
  induction h with
  | here xs ys zs => exact (flatten_nested xs ys zs).symm
  | inside xs zs _ ih => simp [flatten_append, flatten, leaves, ih]

/-! ### Shapes -/

/-- The value that an output carries, unless it is null. -/
def carried? : Output → Option Value
  | value v | named _ (some v) => if v.isNull then none else some v
  | _ => none

/-- The key under which the value of an output goes in a tree. -/
def key : Output → String
  | named name _ => name
  | _ => "value"

/-- The values that outputs carry, with their keys. -/
def keyed (os : List Output) : List (String × Value) :=
  os.filterMap fun o => o.carried?.map fun v => (o.key, v)

/-- The keys of the values that outputs carry, in the order of their first occurrences. -/
def keys (os : List Output) : List String := ((keyed os).map Prod.fst).eraseDups

/-- The values that outputs carry under a key, in order. -/
def under (os : List Output) : String → List Value := valuesUnder (keyed os)

/-- Values make up one value: a single one itself, several ones their list. -/
inductive Gathers : List Value → Value → Prop
  | one (v : Value) : Gathers [v] v
  | several {vs : List Value} (h : 2 ≤ vs.length) : Gathers vs (.ofItems vs)

/-- What outputs without containers make up: nothing if all of them are null or absent, the gathered
values if none is named, and else a tree with the values gathered under their keys. -/
inductive Shaped (os : List Output) : Option Value → Prop
  | nothing (h : os.filterMap carried? = []) : Shaped os none
  | plain {v : Value} (hplain : ∀ name w, named name w ∉ os)
      (h : Gathers (os.filterMap carried?) v) : Shaped os (some v)
  | tree {es : Entries} (hnamed : ∃ name w, named name w ∈ os)
      (hsome : os.filterMap carried? ≠ []) (hkeys : es.names = keys os)
      (h : ∀ e ∈ es, Gathers (under os e.1) e.2) : Shaped os (some (.ofEntries es))

theorem Gathers.ne_nil {vs : List Value} {v : Value} (h : Gathers vs v) : vs ≠ [] := by
  cases h with
  | one => simp
  | several h => exact List.ne_nil_of_length_pos (by omega)

theorem Gathers.unique {vs : List Value} {v w : Value} (hv : Gathers vs v) (hw : Gathers vs w) :
    v = w := by
  cases hv with
  | one =>
    cases hw with
    | one => rfl
    | several h => simp at h
  | several h =>
    cases hw with
    | one => simp at h
    | several => rfl

/-- Entries with the same names whose values are made up of the same values are the same. -/
theorem entries_unique {f : String → List Value} {es es' : Entries} (hnames : es.names = es'.names)
    (h : ∀ e ∈ es, Gathers (f e.1) e.2) (h' : ∀ e ∈ es', Gathers (f e.1) e.2) : es = es' := by
  induction es generalizing es' with
  | nil => exact (List.map_eq_nil_iff.1 hnames.symm).symm
  | cons e es ih =>
    cases es' with
    | nil => cases hnames
    | cons e' es' =>
      obtain ⟨k, v⟩ := e
      obtain ⟨k', v'⟩ := e'
      obtain ⟨hk, hrest⟩ := List.cons.inj hnames
      obtain rfl : k = k' := hk
      obtain ⟨hv, hes⟩ := List.forall_mem_cons.1 h
      obtain ⟨hv', hes'⟩ := List.forall_mem_cons.1 h'
      obtain rfl : v = v' := hv.unique hv'
      rw [ih hrest hes hes']

/-- Outputs make up one result. -/
theorem Shaped.unique {os : List Output} {r r' : Option Value} (h : Shaped os r)
    (h' : Shaped os r') : r = r' := by
  cases h with
  | nothing h =>
    cases h' with
    | nothing => rfl
    | plain _ hg => exact absurd h hg.ne_nil
    | tree _ hsome => exact absurd h hsome
  | plain hplain hg =>
    cases h' with
    | nothing h => exact absurd h hg.ne_nil
    | plain _ hg' => rw [hg.unique hg']
    | tree hnamed =>
      obtain ⟨name, w, hmem⟩ := hnamed
      exact absurd hmem (hplain name w)
  | tree hnamed hsome hkeys hg =>
    cases h' with
    | nothing h => exact absurd h hsome
    | plain hplain =>
      obtain ⟨name, w, hmem⟩ := hnamed
      exact absurd hmem (hplain name w)
    | tree _ _ hkeys' hg' => rw [entries_unique (hkeys.trans hkeys'.symm) hg hg']

theorem gathers_collect {vs : List Value} (h : vs ≠ []) : Gathers vs (Accumulator.collect vs) := by
  cases vs with
  | nil => exact absurd rfl h
  | cons v vs =>
    cases vs with
    | nil => exact .one v
    | cons w vs => exact .several (by simp)

/-! ### Outputs have their shape -/

theorem keyed_eq (os : List Output) : os.filterMap entry? = keyed os := by
  refine List.filterMap_congr fun o _ => ?_
  cases o with
  | absent | nested => rfl
  | value v => by_cases h : v.isNull = true <;> simp [carried?, entry?, key, defaultName, h]
  | named name v =>
    cases v with
    | none => rfl
    | some v => by_cases h : v.isNull = true <;> simp [carried?, entry?, key, h]

theorem values_keyed (os : List Output) : (keyed os).map Prod.snd = os.filterMap carried? := by
  simp [keyed, List.map_filterMap, Function.comp_def]

theorem keyed_eq_nil_iff {os : List Output} : keyed os = [] ↔ os.filterMap carried? = [] := by
  rw [← values_keyed, List.map_eq_nil_iff]

/-- Without names there are plain values only. -/
theorem plain_eq {os : List Output} (h : ∀ name w, named name w ∉ os) :
    os.filterMap plainValue? = os.filterMap carried? := by
  refine List.filterMap_congr fun o ho => ?_
  cases o with
  | named name w => exact absurd ho (h name w)
  | _ => rfl

theorem any_isNamed_iff {os : List Output} :
    os.any isNamed = true ↔ ∃ name w, named name w ∈ os := by
  rw [List.any_eq_true]
  constructor
  · rintro ⟨o, ho, hnamed⟩
    cases o with
    | named name w => exact ⟨name, w, ho⟩
    | _ => cases hnamed
  · rintro ⟨name, w, ho⟩
    exact ⟨_, ho, rfl⟩

theorem shrink_of_ne_nil {vs : List Value} (h : vs ≠ []) :
    shrink vs = some (Accumulator.collect vs) := by
  cases vs with
  | nil => exact absurd rfl h
  | cons v vs => cases vs <;> rfl

theorem shaped_shrink {os : List Output} (h : ∀ name w, named name w ∉ os) :
    Shaped os (shrink (os.filterMap carried?)) := by
  by_cases hnone : os.filterMap carried? = []
  · rw [hnone]
    exact .nothing hnone
  · rw [shrink_of_ne_nil hnone]
    exact .plain h (gathers_collect hnone)

theorem shaped_finish {os : List Output} (hnamed : ∃ name w, named name w ∈ os)
    (hsome : os.filterMap carried? ≠ []) :
    Shaped os (some (.ofEntries (Accumulator.ofPairs (keyed os)).finish)) := by
  refine .tree hnamed hsome (Accumulator.names_finish _) fun e he => ?_
  have hkey : e.1 ∈ (keyed os).map Prod.fst := by
    rw [← List.mem_eraseDups, ← Accumulator.names_finish]
    exact List.mem_map_of_mem he
  rw [Accumulator.collect_of_mem_finish he]
  exact gathers_collect (valuesUnder_ne_nil hkey)

theorem isEmpty_ofPairs (ps : List (String × Value)) :
    (Accumulator.ofPairs ps).isEmpty = true ↔ ps = [] := by
  have hnames := Accumulator.names_ofPairs ps
  rw [Accumulator.isEmpty, List.isEmpty_iff, ← List.map_eq_nil_iff, hnames]
  constructor
  · intro h
    refine List.eq_nil_iff_forall_not_mem.2 fun p hp => ?_
    have hmem := List.mem_eraseDups.2 (List.mem_map_of_mem (f := Prod.fst) hp)
    rw [h] at hmem
    cases hmem
  · rintro rfl
    rfl

/-- Outputs without containers combine to what they make up. -/
theorem shaped_combine (os : List Output) : Shaped os (combine os) := by
  unfold combine
  dsimp only
  rw [keyed_eq]
  split
  · next hnamed =>
    split
    · next hempty => exact .nothing (keyed_eq_nil_iff.1 ((isEmpty_ofPairs _).1 hempty))
    · next hempty =>
      refine shaped_finish (any_isNamed_iff.1 hnamed) fun hnone => hempty ?_
      exact (isEmpty_ofPairs _).2 (keyed_eq_nil_iff.2 hnone)
  · next hnamed =>
    have hplain : ∀ name w, named name w ∉ os :=
      fun name w hmem => hnamed (any_isNamed_iff.2 ⟨name, w, hmem⟩)
    rw [plain_eq hplain]
    exact shaped_shrink hplain

/-- **Outputs combine to the shape of their leaves.** Opening all containers leaves one list of
outputs, and what the outputs combine to is what that list makes up and nothing else: no value if
all of them are null or absent, named ones included; without names the only value, or the list of
all values in order; and with a name, be it one without a value, a tree whose keys stand in the
order of their first occurrences, each with the only value under it or the list of all of them. So
a container may be opened anywhere, and every value that is not null is under one key, once. -/
theorem aggregate_has_shape (items : List Output) :
    (∃ os, (∀ os', Expands items os' ↔ os' = os) ∧ (∀ r, Shaped os r ↔ aggregate items = r) ∧
      ((keys os).flatMap (under os)).Perm (os.filterMap carried?)) ∧
    ∀ items', Opens items items' → aggregate items' = aggregate items := by
  refine ⟨⟨flatten items, fun os' => expands_iff, fun r => ?_, ?_⟩, fun items' h => ?_⟩
  · have hshaped : Shaped (flatten items) (aggregate items) := shaped_combine _
    constructor
    · exact hshaped.unique
    · rintro rfl
      exact hshaped
  · have hperm := perm_valuesUnder (keyed (flatten items))
    rwa [values_keyed] at hperm
  · rw [aggregate, aggregate, flatten_of_opens h]

end Output

end Scenario
