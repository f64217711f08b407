import Scenario.Number.Layout
import Scenario.Number.Reading
import Scenario.Text.Blank

/-!
# Values

The values that scenarios compute with: null, booleans, numbers, texts, lists and ordered trees.

A list or tree carries a mark that tells shared composites apart from equal ones: two composites
are the same when they carry one mark and hold the same contents. Composites that come from outside
get marks of their own; those built during a run carry mark `0`.

So two composites that were built apart in a run and are equal count as the same here, although they
are two objects. Only the strict form of the reverse look-up of names, `Arena.findId?`, asks whether
values are the same, and no instruction makes that request: it comes from outside, with values that
have marks.
-/

namespace Scenario

/-- A value. -/
inductive Value where
  /-- No value. -/
  | null
  /-- A truth value. -/
  | bool (b : Bool)
  /-- A number. -/
  | num (x : Number)
  /-- A text. -/
  | str (s : String)
  /-- A list, with the mark of the object it is. -/
  | list (mark : Nat) (items : List Value)
  /-- A tree: values under names, in order, with the mark of the object it is. -/
  | tree (mark : Nat) (entries : List (String × Value))
  deriving Inhabited

/-- Values under names, in order. -/
abbrev Entries := List (String × Value)

namespace Entries

/-- The value under a name. -/
def get? (es : Entries) (k : String) : Option Value := List.lookup k es

/-- The names, in order. -/
def names (es : Entries) : List String := es.map Prod.fst

/-- Puts a value under a name: a present name keeps its place, a new one goes to the end. -/
def insert : Entries → String → Value → Entries
  | [], k, v => [(k, v)]
  | (k', v') :: es, k, v => if k' = k then (k', v) :: es else (k', v') :: insert es k v

/-- Removes a name; the others keep their order. -/
def erase (es : Entries) (k : String) : Entries := es.filter fun e => e.1 != k

/-- Inserts pairs one after the other: first position, last value. -/
def ofPairs (ps : List (String × Value)) : Entries := ps.foldl (fun es p => es.insert p.1 p.2) []

@[simp] theorem get?_nil (k : String) : get? [] k = none := rfl

theorem get?_cons (k k' : String) (v : Value) (es : Entries) :
    get? ((k', v) :: es) k = if k = k' then some v else es.get? k := by
  by_cases h : k = k'
  · simp [get?, h]
  · have hb : (k == k') = false := by simpa using h
    simp [get?, List.lookup_cons, h, hb]

/-- After an insertion the name holds the value inserted and all others hold what they held. -/
theorem get?_insert (es : Entries) (k k' : String) (v : Value) :
    (es.insert k v).get? k' = if k' = k then some v else es.get? k' := by
  induction es with
  | nil => simp [insert, get?_cons]
  | cons e es ih =>
    obtain ⟨k₁, v₁⟩ := e
    by_cases h : k₁ = k
    · subst h
      by_cases h' : k' = k₁ <;> simp [insert, get?_cons, h']
    · by_cases h' : k' = k₁
      · subst h'
        simp [insert, get?_cons, h]
      · simp [insert, get?_cons, h, h', ih]

/-- After a removal the name holds nothing and all others hold what they held. -/
theorem get?_erase (es : Entries) (k k' : String) :
    (es.erase k).get? k' = if k' = k then none else es.get? k' := by
  induction es with
  | nil => simp [erase]
  | cons e es ih =>
    obtain ⟨k₁, v₁⟩ := e
    simp only [erase] at ih
    by_cases h : k₁ = k
    · subst h
      by_cases h' : k' = k₁
      · simpa [erase, h'] using ih
      · simpa [erase, h', get?_cons] using ih
    · by_cases h' : k' = k₁
      · subst h'
        simp [erase, get?_cons, h]
      · simp [erase, get?_cons, h, h', ih]

/-- An insertion keeps the names in their order and puts a new one at the end. -/
theorem names_insert (es : Entries) (k : String) (v : Value) :
    (es.insert k v).names = if k ∈ es.names then es.names else es.names ++ [k] := by
  induction es with
  | nil => rfl
  | cons e es ih =>
    obtain ⟨k₁, v₁⟩ := e
    by_cases h : k₁ = k
    · simp [insert, names, h]
    · simp only [names] at ih
      by_cases h' : k ∈ es.map Prod.fst <;> simp [insert, names, h, Ne.symm h, ih, h']

theorem nodup_insert {es : Entries} (h : es.names.Nodup) (k : String) (v : Value) :
    (es.insert k v).names.Nodup := by
  rw [names_insert]
  by_cases hk : k ∈ es.names
  · rwa [if_pos hk]
  · rw [if_neg hk, List.nodup_append]
    refine ⟨h, by simp, fun a ha b hb hab => hk ?_⟩
    rwa [← List.mem_singleton.1 hb, ← hab]

theorem nodup_erase {es : Entries} (h : es.names.Nodup) (k : String) : (es.erase k).names.Nodup :=
  h.sublist (List.filter_sublist.map Prod.fst)

end Entries

namespace Value

/-- The name of a value's type. -/
def typeName : Value → String
  | null => "null"
  | bool _ => "bool"
  | num _ => "number"
  | str _ => "string"
  | list _ _ => "list"
  | tree _ _ => "tree"

/-- Whether a guard accepts the value: all but null, `false` and the text `false`. -/
def isTruthy : Value → Bool
  | null => false
  | bool b => b
  | str s => s != "false"
  | _ => true

/-- Whether the value is null. -/
def isNull : Value → Bool
  | null => true
  | _ => false

/-- Null, blank texts and composites without members. -/
def isEmpty : Value → Bool
  | null => true
  | str s => Text.isBlankText s
  | list _ items => items.isEmpty
  | tree _ entries => entries.isEmpty
  | _ => false

/-- The text of a text value. -/
def toText? : Value → Option String
  | str s => some s
  | _ => none

/-- The number that a number or a number text denotes. -/
def toNumber? : Value → Option Number
  | num x => some x
  | str s => Number.ofString? (Text.trim s)
  | _ => none

mutual

/-- Equality of values: numbers numerically, lists member by member, trees by name without regard
to order, marks ignored. -/
def eqv : Value → Value → Bool
  | null, null => true
  | bool a, bool b => a == b
  | num x, num y => x.eqv y
  | str s, str t => s == t
  | list _ xs, list _ ys => eqvItems xs ys
  | tree _ es, tree _ fs => es.length == fs.length && eqvEntries es fs
  | _, _ => false

/-- Lists of values are equal member by member. -/
def eqvItems : List Value → List Value → Bool
  | [], [] => true
  | x :: xs, y :: ys => eqv x y && eqvItems xs ys
  | _, _ => false

/-- Every entry has an equal value under its name in the other entries. -/
def eqvEntries : List (String × Value) → List (String × Value) → Bool
  | [], _ => true
  | (k, v) :: es, fs =>
    (match Entries.get? fs k with
      | some w => eqv v w
      | none => false) && eqvEntries es fs

end

mutual

/-- Whether two values are written out alike: the same bits, members, names and order. -/
def identical : Value → Value → Bool
  | null, null => true
  | bool a, bool b => a == b
  | num x, num y => x == y
  | str s, str t => s == t
  | list m xs, list n ys => m == n && identicalItems xs ys
  | tree m es, tree n fs => m == n && identicalEntries es fs
  | _, _ => false

/-- Lists of identical values. -/
def identicalItems : List Value → List Value → Bool
  | [], [] => true
  | x :: xs, y :: ys => identical x y && identicalItems xs ys
  | _, _ => false

/-- Entries with identical names and values in one order. -/
def identicalEntries : List (String × Value) → List (String × Value) → Bool
  | [], [] => true
  | (k, v) :: es, (k', v') :: fs => k == k' && identical v v' && identicalEntries es fs
  | _, _ => false

end

/-- The values that a list or a tree holds. -/
def members : Value → List Value
  | list _ xs => xs
  | tree _ es => es.map Prod.snd
  | _ => []

/-- Induction over values, with what is known of their members. -/
@[elab_as_elim]
theorem memberInduction {P : Value → Prop} (step : ∀ v : Value, (∀ w ∈ v.members, P w) → P v)
    (v : Value) : P v := by
  refine @Value.rec P (fun xs => ∀ x ∈ xs, P x) (fun es => ∀ x ∈ es.map Prod.snd, P x)
    (fun e => P e.2) ?_ ?_ ?_ ?_ ?_ ?_ ?_ ?_ ?_ ?_ ?_ v
  · exact step .null (by simp [members])
  · exact fun b => step (.bool b) (by simp [members])
  · exact fun x => step (.num x) (by simp [members])
  · exact fun s => step (.str s) (by simp [members])
  · exact fun m xs ih => step (.list m xs) ih
  · exact fun m es ih => step (.tree m es) ih
  · simp
  · exact fun _ _ hx hxs => List.forall_mem_cons.2 ⟨hx, hxs⟩
  · simp
  · exact fun _ _ he hes => List.forall_mem_cons.2 ⟨he, hes⟩
  · exact fun _ _ hv => hv

theorem identicalItems_iff {xs ys : List Value}
    (h : ∀ x ∈ xs, ∀ y : Value, x.identical y = true ↔ x = y) :
    identicalItems xs ys = true ↔ xs = ys := by
  induction xs generalizing ys with
  | nil => cases ys <;> simp [identicalItems]
  | cons x xs ih =>
    obtain ⟨hx, hxs⟩ := List.forall_mem_cons.1 h
    cases ys with
    | nil => simp [identicalItems]
    | cons y ys => rw [identicalItems, Bool.and_eq_true, hx, ih hxs, List.cons.injEq]

theorem identicalEntries_iff {es fs : Entries}
    (h : ∀ x ∈ es.map Prod.snd, ∀ y : Value, x.identical y = true ↔ x = y) :
    identicalEntries es fs = true ↔ es = fs := by
  induction es generalizing fs with
  | nil => cases fs <;> simp [identicalEntries]
  | cons e es ih =>
    obtain ⟨hx, hes⟩ := List.forall_mem_cons.1 h
    cases fs with
    | nil => simp [identicalEntries]
    | cons f fs =>
      rw [identicalEntries, Bool.and_eq_true, Bool.and_eq_true, hx, ih hes, List.cons.injEq,
        Prod.ext_iff, beq_iff_eq]

theorem identical_iff (v w : Value) : v.identical w = true ↔ v = w := by
  induction v using memberInduction generalizing w with
  | step v ih =>
    cases v <;> cases w
    case list.list m xs n ys =>
      have hitems : identicalItems xs ys = true ↔ xs = ys := identicalItems_iff ih
      rw [identical, Bool.and_eq_true, beq_iff_eq, hitems, list.injEq]
    case tree.tree m es n fs =>
      have hentries : identicalEntries es fs = true ↔ es = fs := identicalEntries_iff ih
      rw [identical, Bool.and_eq_true, beq_iff_eq, hentries, tree.injEq]
    all_goals simp [identical]

instance : DecidableEq Value := fun v w =>
  decidable_of_iff (v.identical w = true) (identical_iff v w)

/-- Whether two values are one value: composites by their marks and contents, all else by
equality. -/
def same : Value → Value → Bool
  | list m xs, list n ys => m == n && identicalItems xs ys
  | tree m es, tree n fs => m == n && identicalEntries es fs
  | v, w => eqv v w

mutual

/-- The text of a value. -/
def display : Value → String
  | null => "null"
  | bool b => if b then "true" else "false"
  | num x => x.display
  | str s => s
  | list _ items => "[" ++ ", ".intercalate (displayItems items) ++ "]"
  | tree _ entries => "\x7b" ++ ", ".intercalate (displayEntries entries) ++ "\x7d"

/-- The texts of the members of a list. -/
def displayItems : List Value → List String
  | [] => []
  | v :: vs => display v :: displayItems vs

/-- The texts of the entries of a tree. -/
def displayEntries : List (String × Value) → List String
  | [] => []
  | (k, v) :: es => (k ++ "=" ++ display v) :: displayEntries es

end

/-- The list of values built during a run. -/
def ofItems (items : List Value) : Value := list 0 items

/-- The tree of entries built during a run. -/
def ofEntries (entries : Entries) : Value := tree 0 entries

end Value

end Scenario
