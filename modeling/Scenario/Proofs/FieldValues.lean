import Scenario.Field.Binding
import Mathlib.Logic.Basic

/-!
# The field values of a call

A bean takes its fields from the scope of a call. What it gets, or why it gets nothing, is fixed by
the bindings that are in sight.

* `Arena.Nearest a s id v`: on the way from `s` to the root, the first scope that binds `id` binds
  it to `v`.
* `Decides a s f d`: what the nearest binding means for the field `f`. It keeps the field as it is,
  gives it a value, or holds one that does not suit it.
* `Results`: the results of a binding that the decisions allow, strangers first, then values that do
  not suit, then fields that lack a value.
* **`bind_results_exactly`**: a bean without steps of its own, whose fields have distinct names,
  gets such a result and no other one. What it has taken is of the kind of its field, and taking it
  again would change nothing.

Names are distinct, so that no field takes back what another one was given
(`takeFields_of_suits`).
-/

namespace Scenario

/-! ### The nearest binding -/

namespace Arena

/-- The first scope on the way to the root that binds a name binds it to this value. -/
def Nearest (a : Arena) (s : ScopeId) (id : String) (v : Value) : Prop :=
  ∃ inner t outer, a.ancestors s = inner ++ t :: outer ∧ (∀ u ∈ inner, a.has u id = false) ∧
    a.getHere? t id = some v

variable {a : Arena} {s : ScopeId} {id : String}

theorem nearest_iff {v : Value} : a.Nearest s id v ↔ a.get? s id = some v := by
  rw [get?, chain, List.findSome?_map, List.findSome?_eq_some_iff]
  simp only [Nearest, has, Option.isSome_eq_false_iff, Option.isNone_iff_eq_none]
  constructor
  · rintro ⟨inner, t, outer, hsplit, hinner, ht⟩
    exact ⟨inner, t, outer, hsplit, ht, hinner⟩
  · rintro ⟨inner, t, outer, hsplit, ht, hinner⟩
    exact ⟨inner, t, outer, hsplit, hinner, ht⟩

theorem get?_eq_none_iff : a.get? s id = none ↔ ∀ t ∈ a.ancestors s, a.has t id = false := by
  simp [get?, chain, has, getHere?]

end Arena

/-! ### Kinds -/

namespace FieldKind

/-- The values of a kind. A text may be unset. -/
inductive Suits : FieldKind → Value → Prop
  | text (t : String) : Suits .text (.str t)
  | unset : Suits .text .null
  | bool (b : Bool) : Suits .bool (.bool b)
  | number (x : Number) : Suits .number (.num x)
  | integer {x : Number} (h : x.isIntegral = true) : Suits .integer (.num x)
  | any (v : Value) : Suits .any v

/-- A coerced value is of the kind, unless a null was coerced to a kind without an unset value. -/
theorem suits_of_coerce? {kind : FieldKind} {v w : Value} (h : kind.coerce? v = some w)
    (hnull : v = .null → kind.isPrimitive = false) : kind.Suits w := by
  cases kind with
  | any => exact .any w
  | text =>
    cases v with
    | null => exact Option.some.inj h ▸ .unset
    | _ => exact Option.some.inj h ▸ .text _
  | bool =>
    cases v with
    | null => cases hnull rfl
    | bool b => exact Option.some.inj h ▸ .bool b
    | str t =>
      simp only [coerce?] at h
      split at h
      · exact Option.some.inj h ▸ .bool true
      · split at h
        · exact Option.some.inj h ▸ .bool false
        · cases h
    | _ => cases h
  | number =>
    have hnum : v.toNumber?.map Value.num = some w := by
      cases v with
      | null => cases hnull rfl
      | _ => exact h
    obtain ⟨x, -, rfl⟩ := Option.map_eq_some_iff.1 hnum
    exact .number x
  | integer =>
    have hnum : (v.toNumber?.filter Number.isIntegral).map Value.num = some w := by
      cases v with
      | null => cases hnull rfl
      | _ => exact h
    obtain ⟨x, hx, rfl⟩ := Option.map_eq_some_iff.1 hnum
    exact .integer (Option.filter_eq_some_iff.1 hx).2

/-- A value of the kind is its own coercion. -/
theorem Suits.coerce?_eq {kind : FieldKind} {w : Value} (h : kind.Suits w) :
    kind.coerce? w = some w := by
  cases h with
  | integer hx => simp [coerce?, Value.toNumber?, hx]
  | _ => rfl

/-- Null suits every kind that does not keep its baseline for it. -/
theorem coerce?_null (kind : FieldKind) : kind.coerce? .null = some .null := by
  cases kind <;> rfl

end FieldKind

namespace Schema

/-! ### What a binding means for a field -/

/-- What can become of a field. -/
inductive Decision where
  /-- It stays as it is. -/
  | keep
  /-- It takes a value. -/
  | take (w : Value)
  /-- It is given a value that does not suit it. -/
  | refuse (v : Value)

/-- What the nearest binding of its name means for a field. -/
inductive Decides (a : Arena) (s : ScopeId) (f : Field) : Decision → Prop
  | unbound (h : ∀ t ∈ a.ancestors s, a.has t f.name = false) : Decides a s f .keep
  | unset (h : a.Nearest s f.name .null) (hkind : f.kind.isPrimitive = true) : Decides a s f .keep
  | taken {v w : Value} (h : a.Nearest s f.name v) (hnull : v = .null → f.kind.isPrimitive = false)
      (hw : f.kind.coerce? v = some w) : Decides a s f (.take w)
  | refused {v : Value} (h : a.Nearest s f.name v) (hv : f.kind.coerce? v = none) :
      Decides a s f (.refuse v)

/-- The value of a field after a decision. -/
def Decision.apply (o : Option Value) : Decision → Option Value
  | .take w => some w
  | _ => o

/-- The decision about a field. -/
def decision (a : Arena) (s : ScopeId) (f : Field) : Decision :=
  match a.get? s f.name with
  | none => .keep
  | some v =>
    if v.isNull && f.kind.isPrimitive then .keep
    else match f.kind.coerce? v with
      | some w => .take w
      | none => .refuse v

theorem isNull_iff {v : Value} : v.isNull = true ↔ v = .null := by
  cases v <;> simp [Value.isNull]

variable {a : Arena} {s : ScopeId} {f : Field}

/-- There is one decision about every field. -/
theorem decides_iff {d : Decision} : Decides a s f d ↔ d = decision a s f := by
  constructor
  · intro h
    cases h with
    | unbound h => rw [decision, Arena.get?_eq_none_iff.2 h]
    | unset h hkind => simp [decision, Arena.nearest_iff.1 h, hkind, Value.isNull]
    | @taken v w h hnull hw =>
      have hset : (v.isNull && f.kind.isPrimitive) = false := by
        by_cases hv : v = .null
        · rw [hnull hv, Bool.and_false]
        · rw [Bool.eq_false_iff.2 (mt isNull_iff.1 hv), Bool.false_and]
      simp [decision, Arena.nearest_iff.1 h, hset, hw]
    | @refused v h hv =>
      have hnull : v.isNull = false := by
        refine Bool.eq_false_iff.2 fun hnull => ?_
        rw [isNull_iff.1 hnull, FieldKind.coerce?_null] at hv
        cases hv
      simp [decision, Arena.nearest_iff.1 h, hnull, hv]
  · rintro rfl
    unfold decision
    split
    · next h => exact .unbound (Arena.get?_eq_none_iff.1 h)
    · next v h =>
      have hnear := Arena.nearest_iff.2 h
      split
      · next hnull =>
        obtain ⟨hv, hkind⟩ := Bool.and_eq_true_iff.1 hnull
        rw [isNull_iff.1 hv] at hnear
        exact .unset hnear hkind
      · next hnull =>
        split
        · next w hw =>
          refine .taken hnear (fun hv => ?_) hw
          subst hv
          simpa [Value.isNull] using hnull
        · next hv => exact .refused hnear hv

/-- Carries a decision out. -/
def Decision.carry (fs : Fields) (f : Field) : Decision → Except BindError Fields
  | .keep => .ok fs
  | .take w => .ok (fs.insert f.name w)
  | .refuse v => .error (.coercion ⟨f.name, f.kind, v⟩)

theorem takeField_eq (a : Arena) (s : ScopeId) (fs : Fields) (f : Field) :
    takeField a s fs f = (decision a s f).carry fs f := by
  unfold takeField decision
  cases a.get? s f.name with
  | none => rfl
  | some v =>
    by_cases hnull : (v.isNull && f.kind.isPrimitive) = true
    · simp only [hnull, if_true, Decision.carry]
    · simp only [hnull, FieldKind.coerce]
      cases f.kind.coerce? v <;> rfl

theorem takeField_of_refuse {v : Value} (h : Decides a s f (.refuse v)) (fs : Fields) :
    takeField a s fs f = .error (.coercion ⟨f.name, f.kind, v⟩) := by
  rw [takeField_eq, ← decides_iff.1 h]
  rfl

/-- A field that is not refused is decided upon, and no other field changes. -/
theorem takeField_of_suits (h : ∀ v, ¬ Decides a s f (.refuse v)) (fs : Fields) :
    ∃ fs', takeField a s fs f = .ok fs' ∧
      fs'.get? f.name = (decision a s f).apply (fs.get? f.name) ∧
      ∀ id ≠ f.name, fs'.get? id = fs.get? id := by
  rw [takeField_eq]
  cases hd : decision a s f with
  | keep => exact ⟨fs, rfl, rfl, fun _ _ => rfl⟩
  | take w =>
    refine ⟨fs.insert f.name w, rfl, ?_, fun id hid => ?_⟩
    · rw [Entries.get?_insert, if_pos rfl]
      rfl
    · rw [Entries.get?_insert, if_neg hid]
  | refuse v => exact absurd (decides_iff.2 hd.symm) (h v)

/-! ### All fields -/

/-- The first value that does not suit its field ends the binding. -/
theorem takeFields_of_refuse {front back : List Field} {v : Value}
    (hfront : ∀ g ∈ front, ∀ v, ¬ Decides a s g (.refuse v)) (hf : Decides a s f (.refuse v))
    (fs : Fields) :
    takeFields a s (front ++ f :: back) fs = .error (.coercion ⟨f.name, f.kind, v⟩) := by
  induction front generalizing fs with
  | nil => rw [List.nil_append, takeFields, takeField_of_refuse hf]
  | cons g front ih =>
    obtain ⟨hg, hfront⟩ := List.forall_mem_cons.1 hfront
    obtain ⟨fs', htake, -⟩ := takeField_of_suits hg fs
    rw [List.cons_append, takeFields, htake]
    exact ih hfront fs'

/-- Without such a value every field is decided upon, and what is no field stays. -/
theorem takeFields_of_suits {gs : List Field} (hnodup : (gs.map Field.name).Nodup)
    (h : ∀ g ∈ gs, ∀ v, ¬ Decides a s g (.refuse v)) (fs : Fields) :
    ∃ fs', takeFields a s gs fs = .ok fs' ∧
      (∀ g ∈ gs, fs'.get? g.name = (decision a s g).apply (fs.get? g.name)) ∧
      ∀ id ∉ gs.map Field.name, fs'.get? id = fs.get? id := by
  induction gs generalizing fs with
  | nil => exact ⟨fs, rfl, by simp, fun _ _ => rfl⟩
  | cons g gs ih =>
    obtain ⟨hg, hgs⟩ := List.forall_mem_cons.1 h
    rw [List.map_cons, List.nodup_cons] at hnodup
    obtain ⟨fs₁, htake, hown, hothers⟩ := takeField_of_suits hg fs
    obtain ⟨fs', htakes, hfields, hrest⟩ := ih hnodup.2 hgs fs₁
    refine ⟨fs', ?_, List.forall_mem_cons.2 ⟨?_, fun g' hg' => ?_⟩, fun id hid => ?_⟩
    · rw [takeFields, htake]
      exact htakes
    · rw [hrest g.name hnodup.1, hown]
    · have hne : g'.name ≠ g.name := fun heq => hnodup.1 (heq ▸ List.mem_map_of_mem hg')
      rw [hfields g' hg', hothers g'.name hne]
    · rw [List.map_cons, List.mem_cons, not_or] at hid
      rw [hrest id hid.2, hothers id hid.1]

/-! ### Results -/

/-- The names that the scope itself binds, in the order of their binding, without the name of the
result and those of fields. -/
def strangers (sch : Schema) (a : Arena) (s : ScopeId) (ownId : Option String) : List String :=
  (a.frame s).values.names.filter fun id => some id ≠ ownId ∧ id ∉ sch.fields.map Field.name

/-- A required field ends up without a value or with null. -/
def Lacks (sch : Schema) (a : Arena) (s : ScopeId) (f : Field) : Prop :=
  f.required = true ∧
    ∃ d, Decides a s f d ∧ ∀ v ∈ d.apply (sch.baseline.get? f.name), v = .null

/-- No strangers, or none that matter. -/
def Admits (sch : Schema) (a : Arena) (s : ScopeId) (ownId : Option String) (strict : Bool) :
    Prop :=
  strict = true → sch.strict = true → sch.strangers a s ownId = []

/-- The results that the bindings in sight allow. -/
inductive Results (sch : Schema) (a : Arena) (s : ScopeId) (ownId : Option String) (strict : Bool) :
    Except BindError Fields → Prop
  | unsupported (hstrict : strict = true) (hsch : sch.strict = true)
      (h : sch.strangers a s ownId ≠ []) :
      Results sch a s ownId strict
        (.error (.unsupported (sch.strangers a s ownId) (sch.fields.map Field.name)))
  | coercion (hnames : sch.Admits a s ownId strict) {front back : List Field} {f : Field}
      {v : Value} (hsplit : sch.fields = front ++ f :: back)
      (hfront : ∀ g ∈ front, ∀ v, ¬ Decides a s g (.refuse v)) (hf : Decides a s f (.refuse v)) :
      Results sch a s ownId strict (.error (.coercion ⟨f.name, f.kind, v⟩))
  | missing (hnames : sch.Admits a s ownId strict)
      (hvalues : ∀ g ∈ sch.fields, ∀ v, ¬ Decides a s g (.refuse v)) {front back : List Field}
      {f : Field} (hsplit : sch.fields = front ++ f :: back)
      (hfront : ∀ g ∈ front, ¬ sch.Lacks a s g) (hf : sch.Lacks a s f) :
      Results sch a s ownId strict (.error (.missing f.name))
  | bound (hnames : sch.Admits a s ownId strict)
      (hvalues : ∀ g ∈ sch.fields, ∀ v, ¬ Decides a s g (.refuse v))
      (hfilled : ∀ g ∈ sch.fields, ¬ sch.Lacks a s g) {fs : Fields}
      (hfields : ∀ g ∈ sch.fields, ∃ d, Decides a s g d ∧
        fs.get? g.name = d.apply (sch.baseline.get? g.name))
      (hrest : ∀ id ∉ sch.fields.map Field.name, fs.get? id = sch.baseline.get? id) :
      Results sch a s ownId strict (.ok fs)

/-- The same failure, or fields with the same values. -/
inductive Matches : Except BindError Fields → Except BindError Fields → Prop
  | error (e : BindError) : Matches (.error e) (.error e)
  | ok {fs fs' : Fields} (h : ∀ id, fs'.get? id = fs.get? id) : Matches (.ok fs) (.ok fs')

variable {sch : Schema} {ownId : Option String} {strict : Bool}

theorem unknownNames_eq (sch : Schema) (a : Arena) (s : ScopeId) (ownId : Option String) :
    sch.unknownNames (a.frame s).consts.ids ownId = sch.strangers a s ownId := by
  have hids : (a.frame s).consts.ids = (a.frame s).values.names := by
    simp [Frame.consts, Bindings.ofTables, Bindings.ids, Entries.names]
  rw [unknownNames, strangers, hids]
  refine List.filter_congr fun id _ => ?_
  rw [Bool.eq_iff_iff]
  simp

theorem bind_of_strangers (hstrict : strict = true) (hsch : sch.strict = true)
    (h : sch.strangers a s ownId ≠ []) : sch.bind a s ownId strict =
      .error (.unsupported (sch.strangers a s ownId) (sch.fields.map Field.name)) := by
  have hempty : (sch.strangers a s ownId).isEmpty = false := by simpa using h
  simp only [bind, unknownNames_eq, hstrict, hsch, hempty]
  rfl

/-- Where no stranger matters, the values decide. -/
theorem bind_of_admits (hbefore : sch.before = .ok) (h : sch.Admits a s ownId strict) :
    sch.bind a s ownId strict = (takeFields a s sch.fields sch.baseline).bind fun fs =>
      (sch.fields.find? fun f => f.required && (fs.value? f.name).isNone).elim (hook sch.after fs)
        fun f => .error (.missing f.name) := by
  have hcheck : ∀ x y : Except BindError Fields,
      (if (strict && sch.strict) = true then
        if (!(sch.strangers a s ownId).isEmpty) = true then x else y else y) = y := by
    intro x y
    split
    · next hboth =>
      obtain ⟨hstrict, hsch⟩ := Bool.and_eq_true_iff.1 hboth
      rw [h hstrict hsch]
      rfl
    · rfl
  have hhook : hook sch.before sch.baseline = .ok sch.baseline := by rw [hook, hbefore]; rfl
  simp only [bind, unknownNames_eq, hhook]
  refine (hcheck _ _).trans ?_
  change (takeFields a s sch.fields sch.baseline).bind _ = _
  refine congrArg (Except.bind _) (funext fun fs => ?_)
  cases sch.fields.find? fun f => f.required && (fs.value? f.name).isNone <;> rfl

/-- Whether a required field has a value is decided by its binding and the baseline. -/
theorem lacks_iff {fs : Fields}
    (h : fs.get? f.name = (decision a s f).apply (sch.baseline.get? f.name)) :
    (f.required && (fs.value? f.name).isNone) = true ↔ sch.Lacks a s f := by
  have hnone : (fs.value? f.name).isNone = true ↔
      ∀ v ∈ (decision a s f).apply (sch.baseline.get? f.name), v = .null := by
    rw [Fields.value?, h, Option.isNone_iff_eq_none, Option.filter_eq_none_iff]
    simp [isNull_iff]
  rw [Bool.and_eq_true_iff, hnone, Lacks]
  simp only [decides_iff, exists_eq_left]

/-- Every result that is allowed is the one of the binding. -/
theorem matches_of_results (hnodup : (sch.fields.map Field.name).Nodup) (hbefore : sch.before = .ok)
    (hafter : sch.after = .ok) {r : Except BindError Fields}
    (h : sch.Results a s ownId strict r) : Matches (sch.bind a s ownId strict) r := by
  cases h with
  | unsupported hstrict hsch h =>
    rw [bind_of_strangers hstrict hsch h]
    exact .error _
  | coercion hnames hsplit hfront hf =>
    rw [bind_of_admits hbefore hnames, hsplit, takeFields_of_refuse hfront hf]
    exact .error _
  | @missing hnames hvalues front back f hsplit hfront hf =>
    obtain ⟨fs, htake, hfields, -⟩ := takeFields_of_suits hnodup hvalues sch.baseline
    have hfirst : sch.fields.find? (fun f => f.required && (fs.value? f.name).isNone) = some f := by
      refine List.find?_eq_some_iff_append.2 ⟨(lacks_iff (hfields f ?_)).2 hf, front, back, hsplit,
        fun g hg => ?_⟩
      · simp [hsplit]
      · rw [Bool.not_eq_true', Bool.eq_false_iff]
        exact mt (lacks_iff (hfields g (by simp [hsplit, hg]))).1 (hfront g hg)
    rw [bind_of_admits hbefore hnames, htake, Except.bind, hfirst]
    exact .error _
  | @bound hnames hvalues hfilled fs' hfields' hrest' =>
    obtain ⟨fs, htake, hfields, hrest⟩ := takeFields_of_suits hnodup hvalues sch.baseline
    have hnone : sch.fields.find? (fun f => f.required && (fs.value? f.name).isNone) = none :=
      List.find?_eq_none.2 fun g hg => mt (lacks_iff (hfields g hg)).1 (hfilled g hg)
    rw [bind_of_admits hbefore hnames, htake, Except.bind, hnone, Option.elim, hook, hafter]
    refine .ok fun id => ?_
    by_cases hid : id ∈ sch.fields.map Field.name
    · obtain ⟨g, hg, rfl⟩ := List.mem_map.1 hid
      obtain ⟨d, hd, hget⟩ := hfields' g hg
      rw [hget, hfields g hg, decides_iff.1 hd]
    · rw [hrest' id hid, hrest id hid]

/-- The result of the binding is allowed. -/
theorem results_bind (hnodup : (sch.fields.map Field.name).Nodup) (hbefore : sch.before = .ok)
    (hafter : sch.after = .ok) (a : Arena) (s : ScopeId) (ownId : Option String) (strict : Bool) :
    sch.Results a s ownId strict (sch.bind a s ownId strict) := by
  by_cases hnames : sch.Admits a s ownId strict
  · rw [bind_of_admits hbefore hnames]
    by_cases hvalues : ∀ g ∈ sch.fields, ∀ v, ¬ Decides a s g (.refuse v)
    · obtain ⟨fs, htake, hfields, hrest⟩ := takeFields_of_suits hnodup hvalues sch.baseline
      rw [htake, Except.bind]
      cases hfind : sch.fields.find? fun f => f.required && (fs.value? f.name).isNone with
      | some f =>
        obtain ⟨hf, front, back, hsplit, hfront⟩ := List.find?_eq_some_iff_append.1 hfind
        refine .missing hnames hvalues hsplit (fun g hg hlacks => ?_)
          ((lacks_iff (hfields f (by simp [hsplit]))).1 hf)
        have hg' := hfront g hg
        rw [(lacks_iff (hfields g (by simp [hsplit, hg]))).2 hlacks] at hg'
        cases hg'
      | none =>
        rw [Option.elim, hook, hafter]
        refine .bound hnames hvalues (fun g hg hlacks => ?_)
          (fun g hg => ⟨_, decides_iff.2 rfl, hfields g hg⟩) hrest
        exact List.find?_eq_none.1 hfind g hg ((lacks_iff (hfields g hg)).2 hlacks)
    · classical
      simp only [not_forall, not_not] at hvalues
      obtain ⟨g, hg, hrefused⟩ := hvalues
      obtain ⟨f, front, back, hfront, hf, hsplit, -⟩ :=
        List.exists_of_eraseP (p := fun g => decide (∃ v, Decides a s g (.refuse v))) hg
          (decide_eq_true hrefused)
      obtain ⟨v, hv⟩ := of_decide_eq_true hf
      have hfront : ∀ g ∈ front, ∀ v, ¬ Decides a s g (.refuse v) :=
        fun g hg v hrefuse => hfront g hg (decide_eq_true ⟨v, hrefuse⟩)
      rw [hsplit, takeFields_of_refuse hfront hv]
      exact .coercion hnames hsplit hfront hv
  · simp only [Admits, not_forall] at hnames
    obtain ⟨hstrict, hsch, h⟩ := hnames
    rw [bind_of_strangers hstrict hsch h]
    exact .unsupported hstrict hsch h

/-- What a field has taken is of its kind and is its own coercion. -/
theorem Decides.suits {w : Value} (h : Decides a s f (.take w)) : f.kind.Suits w := by
  cases h with
  | taken _ hnull hw => exact FieldKind.suits_of_coerce? hw hnull

/-- **A binding has the result that the bindings in sight allow.** Let a bean have fields with
distinct names and no steps of its own. In every arena, with every baseline, the binding gives a
result that is allowed, and every result that is allowed has the same values or is the same failure.
On success a field holds what the baseline has or a value of its kind, and what was taken for it
would be taken unchanged. -/
theorem bind_results_exactly (sch : Schema) (hnodup : (sch.fields.map Field.name).Nodup)
    (hbefore : sch.before = .ok) (hafter : sch.after = .ok) (a : Arena) (s : ScopeId)
    (ownId : Option String) (strict : Bool) :
    sch.Results a s ownId strict (sch.bind a s ownId strict) ∧
      (∀ r, sch.Results a s ownId strict r → Matches (sch.bind a s ownId strict) r) ∧
      ∀ fs, sch.bind a s ownId strict = .ok fs → ∀ f ∈ sch.fields,
        (fs.get? f.name = sch.baseline.get? f.name ∨
          ∃ w, fs.get? f.name = some w ∧ f.kind.Suits w) ∧
        ∀ w, Decides a s f (.take w) →
          fs.get? f.name = some w ∧ f.kind.coerce f.name w = .ok w := by
  have hresult := results_bind hnodup hbefore hafter a s ownId strict
  refine ⟨hresult, fun r => matches_of_results hnodup hbefore hafter, fun fs hfs f hf => ?_⟩
  rw [hfs] at hresult
  cases hresult with
  | bound hnames hvalues hfilled hfields hrest =>
    obtain ⟨d, hd, hget⟩ := hfields f hf
    refine ⟨?_, fun w hw => ?_⟩
    · cases d with
      | keep => exact .inl hget
      | take w => exact .inr ⟨w, hget, hd.suits⟩
      | refuse v => exact .inl hget
    · rw [decides_iff.1 hd, ← decides_iff.1 hw] at hget
      refine ⟨hget, ?_⟩
      rw [FieldKind.coerce, hw.suits.coerce?_eq]

/-- A value that is coerced from the scope around, next to a field whose value out there is hidden
by a null. -/
theorem bind_results_exactly_shadowed : ∃ (sch : Schema) (a : Arena) (fs : Fields),
    (sch.fields.map Field.name).Nodup ∧ sch.before = .ok ∧ sch.after = .ok ∧
    sch.bind a 1 (some "out") true = .ok fs ∧ fs.get? "name" = some (.str "true") ∧
    a.getHere? 0 "loud" = some (.bool true) ∧ fs.get? "loud" = some (.bool false) := by
  let sch : Schema :=
    { fields := [⟨"name", .text, true⟩, ⟨"loud", .bool, false⟩]
      baseline := [("loud", .bool false)] }
  let a : Arena :=
    { frames := #[{ values := [("name", .bool true), ("loud", .bool true)], distinct := by decide },
        { parent := some 0, values := [("out", .null), ("loud", .null)], distinct := by decide }] }
  have hnodup : (sch.fields.map Field.name).Nodup := by decide
  have hup : a.ancestors 1 = [1, 0] := by decide +kernel
  obtain ⟨hresult, -, htaken⟩ := bind_results_exactly sch hnodup rfl rfl a 1 (some "out") true
  have hok : (sch.bind a 1 (some "out") true).isOk = true := by decide +kernel
  cases hfs : sch.bind a 1 (some "out") true with
  | error e => simp [hfs, Except.isOk, Except.toBool] at hok
  | ok fs =>
    refine ⟨sch, a, fs, hnodup, rfl, rfl, hfs, ?_, rfl, ?_⟩
    · have hname : Decides a 1 ⟨"name", .text, true⟩ (.take (.str "true")) :=
        .taken ⟨[1], 0, [], hup, by decide, rfl⟩ (fun _ => rfl) rfl
      exact ((htaken fs hfs ⟨"name", .text, true⟩ (by decide)).2 _ hname).1
    · have hloud : Decides a 1 ⟨"loud", .bool, false⟩ .keep :=
        .unset ⟨[], 1, [0], hup, by decide, rfl⟩ rfl
      rw [hfs] at hresult
      cases hresult with
      | bound _ _ _ hfields _ =>
        obtain ⟨d, hd, hget⟩ := hfields ⟨"loud", .bool, false⟩ (by decide)
        rw [hget, decides_iff.1 hd, ← decides_iff.1 hloud]
        rfl

end Schema

end Scenario
