import Mathlib.Data.List.Perm.Subperm
import Scenario.Proofs.Grammar
import Scenario.Proofs.Parameters

/-!
# Equality of values

Lists are equal member by member and trees name by name, whatever the order of their names. So two
values are equal exactly if they are alike before any step is made and every step leads from both of
them to equal values or to none. Reflexivity, symmetry, transitivity and the indifference to the
order of names follow from this one statement, by induction along the steps. A repeated name would
spoil it: of two entries with one name only the first can be reached. Insertion never makes one.

* `Value.parts` — everything a value is made of, itself included; `Value.WellNamed` — no tree in it
  repeats a name; `Value.WithoutNaN` — no number in it is a NaN.
* `Value.equal_iff` — equality step by step.
* `Value.Reordering` — values that differ in the order of names only, at any depth.
* **`Value.equality_is_sound`** — equality, identity and comparison in expressions.
-/

namespace Scenario

theorem Number.eqv_trans {x y z : Number} (hxy : x.eqv y = true) (hyz : y.eqv z = true) :
    x.eqv z = true := by
  have hbits : ∀ {a b : Number}, a.bits = b.bits → a = b := congrArg Number.mk
  simp only [eqv, Bool.and_eq_true, Bool.or_eq_true, beq_iff_eq] at *
  obtain ⟨⟨hx, -⟩, hxy⟩ := hxy
  obtain ⟨⟨-, hz⟩, hyz⟩ := hyz
  refine ⟨⟨hx, hz⟩, ?_⟩
  rcases hxy with hxy | hzero
  · rwa [hbits hxy]
  · rcases hyz with hyz | hzero'
    · exact .inr (hbits hyz ▸ hzero)
    · exact .inr ⟨hzero.1, hzero'.2⟩

/-- A name leads to a value exactly if it is one of the names. -/
theorem Entries.isSome_get?_iff {es : Entries} {k : String} :
    (es.get? k).isSome = true ↔ k ∈ es.names := by
  rw [← not_iff_not, Option.not_isSome_iff_eq_none, get?, List.lookup_eq_none_iff, names,
    List.mem_map]
  simp only [bne_iff_ne, not_exists, not_and]
  exact forall₂_congr fun e _ => ne_comm

namespace Value

/-! ### Parts -/

mutual

/-- Everything that a value is made of, itself first. -/
def parts : Value → List Value
  | null => [null]
  | bool b => [bool b]
  | num x => [num x]
  | str s => [str s]
  | list m xs => list m xs :: partsOfItems xs
  | tree m es => tree m es :: partsOfEntries es

/-- Everything that the members of a list are made of. -/
def partsOfItems : List Value → List Value
  | [] => []
  | x :: xs => parts x ++ partsOfItems xs

/-- Everything that the entries of a tree are made of. -/
def partsOfEntries : List (String × Value) → List Value
  | [] => []
  | (_, v) :: es => parts v ++ partsOfEntries es

end

theorem partsOfItems_eq (xs : List Value) : partsOfItems xs = xs.flatMap parts := by
  induction xs with
  | nil => rfl
  | cons x xs ih => rw [partsOfItems, ih, List.flatMap_cons]

theorem partsOfEntries_eq (es : Entries) :
    partsOfEntries es = (es.map Prod.snd).flatMap parts := by
  induction es with
  | nil => rfl
  | cons e es ih => rw [partsOfEntries, ih, List.map_cons, List.flatMap_cons]

/-- A value is made of itself and of what its members are made of. -/
theorem parts_eq (v : Value) : v.parts = v :: v.members.flatMap parts := by
  cases v with
  | list m xs => rw [parts, partsOfItems_eq, members]
  | tree m es => rw [parts, partsOfEntries_eq, members]
  | _ => rfl

/-- Whether a value repeats no name, if it is a tree. -/
def namesDiffer : Value → Bool
  | tree _ es => (Entries.names es).Nodup
  | _ => true

/-- The number that a value is. -/
def number? : Value → Option Number
  | num x => some x
  | _ => none

/-- The numbers in a value. -/
def numbers (v : Value) : List Number := v.parts.filterMap number?

/-- No tree in the value repeats a name. -/
def WellNamed (v : Value) : Prop := ∀ u ∈ v.parts, u.namesDiffer = true

/-- No number in the value is a NaN. -/
def WithoutNaN (v : Value) : Prop := ∀ x ∈ v.numbers, x.isNaN = false

instance (v : Value) : Decidable v.WellNamed := inferInstanceAs (Decidable (∀ u ∈ v.parts, _))

instance (v : Value) : Decidable v.WithoutNaN := inferInstanceAs (Decidable (∀ x ∈ v.numbers, _))

variable {m n : Nat} {xs ys : List Value} {es fs : Entries} {u v w : Value} {s : Step}

theorem numbers_eq (v : Value) : v.numbers = v.number?.toList ++ v.members.flatMap numbers := by
  rw [numbers, parts_eq, List.filterMap_cons, List.filterMap_flatMap]
  cases v.number? <;> rfl

theorem wellNamed_iff :
    v.WellNamed ↔ v.namesDiffer = true ∧ ∀ w ∈ v.members, w.WellNamed := by
  rw [WellNamed, parts_eq, List.forall_mem_cons, List.forall_mem_flatMap]
  rfl

theorem WellNamed.scalar (hnames : v.namesDiffer = true) (hmembers : v.members = []) :
    v.WellNamed := by
  rw [wellNamed_iff, hmembers]
  exact ⟨hnames, List.forall_mem_nil _⟩

theorem WellNamed.names_nodup (h : (tree m es).WellNamed) : es.names.Nodup :=
  of_decide_eq_true (wellNamed_iff.1 h).1

theorem withoutNaN_iff :
    v.WithoutNaN ↔ (∀ x ∈ v.number?, x.isNaN = false) ∧ ∀ w ∈ v.members, w.WithoutNaN := by
  rw [WithoutNaN, numbers_eq, List.forall_mem_append, List.forall_mem_flatMap]
  simp only [Option.mem_toList, Option.mem_def, WithoutNaN]

theorem mem_members_of_step? (h : v.step? s = some w) : w ∈ v.members := by
  cases v <;> cases s
  case list.index m xs i => exact List.mem_of_getElem? h
  case tree.key m es k => exact List.mem_map_of_mem (Entries.mem_of_get? h)
  all_goals cases h

theorem exists_step?_of_mem_members (hv : v.WellNamed) (h : w ∈ v.members) :
    ∃ s, v.step? s = some w := by
  cases v with
  | list m xs =>
    obtain ⟨i, hi⟩ := List.mem_iff_getElem?.1 h
    exact ⟨.index i, hi⟩
  | tree m es =>
    obtain ⟨e, he, rfl⟩ := List.mem_map.1 h
    exact ⟨.key e.1, (Entries.mem_iff_get? hv.names_nodup _ _).1 he⟩
  | _ => cases h

theorem WellNamed.step (hv : v.WellNamed) (h : v.step? s = some w) : w.WellNamed :=
  (wellNamed_iff.1 hv).2 w (mem_members_of_step? h)

/-! ### Equality by positions and names -/

/-- Two values are equal. -/
def Equal (v w : Value) : Prop := v.eqv w = true

theorem eqvItems_iff : eqvItems xs ys = true ↔ ∀ i : Nat, Option.Rel Equal xs[i]? ys[i]? := by
  induction xs generalizing ys with
  | nil =>
    cases ys with
    | nil => simp [eqvItems]
    | cons y ys =>
      simp only [eqvItems, Bool.false_eq_true, false_iff]
      intro h
      cases h 0
  | cons x xs ih =>
    cases ys with
    | nil =>
      simp only [eqvItems, Bool.false_eq_true, false_iff]
      intro h
      cases h 0
    | cons y ys =>
      rw [eqvItems, Bool.and_eq_true, ih]
      constructor
      · rintro ⟨hxy, hrest⟩ i
        cases i with
        | zero => exact .some hxy
        | succ i => exact hrest i
      · intro h
        have hfirst : Option.Rel Equal (some x) (some y) := h 0
        have hxy : Equal x y := Option.rel_some_some.1 hfirst
        exact ⟨hxy, fun i => h (i + 1)⟩

theorem eqvEntries_iff : eqvEntries es fs = true ↔
    ∀ e ∈ es, ∃ w, Entries.get? fs e.1 = some w ∧ Equal e.2 w := by
  induction es with
  | nil => simp [eqvEntries]
  | cons e es ih =>
    obtain ⟨k, v⟩ := e
    rw [eqvEntries, Bool.and_eq_true, ih, List.forall_mem_cons]
    refine and_congr_left fun _ => ?_
    cases Entries.get? fs k <;> simp [Equal]

/-- Trees are equal name by name, in whatever order their names stand. -/
theorem eqvNames_iff (hes : es.names.Nodup) (hfs : fs.names.Nodup) :
    (es.length = fs.length ∧ eqvEntries es fs = true) ↔
      ∀ k, Option.Rel Equal (es.get? k) (fs.get? k) := by
  rw [eqvEntries_iff]
  constructor
  · rintro ⟨hlen, hentries⟩ k
    -- every name of the first tree is one of the second, and there are as many
    have hsub : es.names ⊆ fs.names := by
      intro k hk
      obtain ⟨e, he, rfl⟩ := List.mem_map.1 hk
      obtain ⟨w, hw, -⟩ := hentries e he
      exact Entries.isSome_get?_iff.1 (by rw [hw, Option.isSome_some])
    have hperm : es.names.Perm fs.names :=
      (List.subperm_of_subset hes hsub).perm_of_length_le (by simp [Entries.names, hlen])
    cases hv : es.get? k with
    | some v =>
      obtain ⟨w, hw, heq⟩ := hentries (k, v) ((Entries.mem_iff_get? hes k v).2 hv)
      rw [hw]
      exact .some heq
    | none =>
      have hnot : k ∉ fs.names := by
        rw [← hperm.mem_iff, ← Entries.isSome_get?_iff, hv]
        simp
      rw [Entries.get?_eq_none_of_notMem hnot]
      exact .none
  · intro h
    have hnames : ∀ k, k ∈ es.names ↔ k ∈ fs.names := by
      intro k
      rw [← Entries.isSome_get?_iff, ← Entries.isSome_get?_iff, isSome_eq_of_optionRel (h k)]
    have hperm : es.names.Perm fs.names := (List.perm_ext_iff_of_nodup hes hfs).2 hnames
    refine ⟨by simpa [Entries.names] using hperm.length_eq, ?_⟩
    rintro ⟨k, v⟩ he
    have hk := h k
    rw [(Entries.mem_iff_get? hes k v).1 he] at hk
    exact exists_of_optionRel_some hk

/-! ### Equality step by step -/

/-- Whether two values agree before any step is made: composites of one kind, or equal scalars. -/
def alike : Value → Value → Bool
  | list _ _, list _ _ => true
  | tree _ _, tree _ _ => true
  | v, w => v.eqv w

/-- **Values are equal step by step**: they are alike, and every step leads to equal values or to
none from both of them. -/
theorem equal_iff (hv : v.WellNamed) (hw : w.WellNamed) :
    Equal v w ↔ v.alike w = true ∧ ∀ s, Option.Rel Equal (v.step? s) (w.step? s) := by
  cases v <;> cases w
  case list.list m xs n ys =>
    rw [Equal, eqv, eqvItems_iff]
    refine ⟨fun h => ⟨rfl, fun s => ?_⟩, fun h i => h.2 (.index i)⟩
    cases s with
    | key k => exact .none
    | index i => exact h i
  case tree.tree m es n fs =>
    rw [Equal, eqv, Bool.and_eq_true, beq_iff_eq,
      eqvNames_iff hv.names_nodup hw.names_nodup]
    refine ⟨fun h => ⟨rfl, fun s => ?_⟩, fun h k => h.2 (.key k)⟩
    cases s with
    | key k => exact h k
    | index i => exact .none
  all_goals simp [Equal, alike, eqv, step?]

theorem alike_comm (v w : Value) : v.alike w = w.alike v := by
  cases v <;> cases w <;> simp [alike, eqv, BEq.comm, Number.eqv_comm]

theorem alike_trans (huv : u.alike v = true) (hvw : v.alike w = true) : u.alike w = true := by
  cases u <;> cases v <;> cases w <;> simp_all [alike, eqv]
  exact Number.eqv_trans huv hvw

/-- A value is like itself unless it is a NaN. -/
theorem alike_self_iff : v.alike v = true ↔ ∀ x ∈ v.number?, x.isNaN = false := by
  cases v <;> simp [alike, eqv, number?, Number.eqv_self_iff]

/-- **A value is equal to itself exactly if there is no NaN in it.** -/
theorem equal_self_iff (hv : v.WellNamed) : Equal v v ↔ v.WithoutNaN := by
  induction v using memberInduction with
  | step v ih =>
    rw [equal_iff hv hv, withoutNaN_iff, alike_self_iff]
    refine and_congr_right fun _ => ?_
    constructor
    · intro h w hw
      obtain ⟨s, hs⟩ := exists_step?_of_mem_members hv hw
      have hself := h s
      rw [hs] at hself
      exact (ih w hw (hv.step hs)).1 (Option.rel_some_some.1 hself)
    · intro h s
      exact optionRel_self fun w hw =>
        (ih w (mem_members_of_step? hw) (hv.step hw)).2 (h w (mem_members_of_step? hw))

theorem equal_symm (hv : v.WellNamed) (hw : w.WellNamed) (h : Equal v w) : Equal w v := by
  induction v using memberInduction generalizing w with
  | step v ih =>
    obtain ⟨halike, hsteps⟩ := (equal_iff hv hw).1 h
    refine (equal_iff hw hv).2 ⟨alike_comm w v ▸ halike, fun s => ?_⟩
    exact optionRel_symm (hsteps s) fun x hx y hy =>
      ih x (mem_members_of_step? hx) (hv.step hx) (hw.step hy)

theorem equal_trans (hu : u.WellNamed) (hv : v.WellNamed) (hw : w.WellNamed) (huv : Equal u v)
    (hvw : Equal v w) : Equal u w := by
  induction u using memberInduction generalizing v w with
  | step u ih =>
    obtain ⟨halike, hsteps⟩ := (equal_iff hu hv).1 huv
    obtain ⟨halike', hsteps'⟩ := (equal_iff hv hw).1 hvw
    refine (equal_iff hu hw).2 ⟨alike_trans halike halike', fun s => ?_⟩
    exact optionRel_trans (hsteps s) (hsteps' s) fun x hx y hy z hz =>
      ih x (mem_members_of_step? hx) (hu.step hx) (hv.step hy) (hw.step hz)

theorem equal_comm (hv : v.WellNamed) (hw : w.WellNamed) : Equal v w ↔ Equal w v :=
  ⟨equal_symm hv hw, equal_symm hw hv⟩

/-! ### The order of names -/

/-- Values that differ in marks and in the order of names only: the entries of any tree in them may
stand in any order. -/
inductive Reordering : Value → Value → Prop
  /-- Nothing is moved. -/
  | refl (v : Value) : Reordering v v
  /-- One reordering after another. -/
  | trans {u v w : Value} (first : Reordering u v) (second : Reordering v w) : Reordering u w
  /-- A member of a list is reordered. -/
  | item {m n : Nat} {xs ys : List Value} {v w : Value} (inner : Reordering v w) :
      Reordering (list m (xs ++ v :: ys)) (list n (xs ++ w :: ys))
  /-- The value under a name of a tree is reordered. -/
  | entry {m n : Nat} {es fs : Entries} {k : String} {v w : Value} (inner : Reordering v w) :
      Reordering (tree m (es ++ (k, v) :: fs)) (tree n (es ++ (k, w) :: fs))
  /-- The entries of a tree are reordered. -/
  | entries {m n : Nat} {es fs : Entries} (moved : es.Perm fs) :
      Reordering (tree m es) (tree n fs)

namespace Reordering

theorem alike_eq (h : Reordering v w) (u : Value) : v.alike u = w.alike u := by
  induction h with
  | refl v => rfl
  | trans _ _ ih ih' => exact ih.trans ih'
  | item _ _ => cases u <;> rfl
  | entry _ _ => cases u <;> rfl
  | entries _ => cases u <;> rfl

theorem wellNamed (h : Reordering v w) (hv : v.WellNamed) : w.WellNamed := by
  induction h with
  | refl v => exact hv
  | trans _ _ ih ih' => exact ih' (ih hv)
  | item _ ih =>
    obtain ⟨-, hmembers⟩ := wellNamed_iff.1 hv
    refine wellNamed_iff.2 ⟨rfl, ?_⟩
    simp only [members, List.forall_mem_append, List.forall_mem_cons] at hmembers ⊢
    exact ⟨hmembers.1, ih hmembers.2.1, hmembers.2.2⟩
  | entry _ ih =>
    obtain ⟨hnames, hmembers⟩ := wellNamed_iff.1 hv
    refine wellNamed_iff.2 ⟨by simpa [namesDiffer, Entries.names] using hnames, ?_⟩
    simp only [members, List.map_append, List.map_cons, List.forall_mem_append,
      List.forall_mem_cons] at hmembers ⊢
    exact ⟨hmembers.1, ih hmembers.2.1, hmembers.2.2⟩
  | entries moved =>
    obtain ⟨-, hmembers⟩ := wellNamed_iff.1 hv
    refine wellNamed_iff.2 ⟨decide_eq_true ?_, fun x hx => hmembers x ?_⟩
    · exact (moved.map Prod.fst).nodup_iff.1 hv.names_nodup
    · exact (moved.map Prod.snd).mem_iff.2 hx

/-- A step from a reordered value leads to a reordered value. -/
theorem step (h : Reordering v w) (hv : v.WellNamed) (s : Step) :
    Option.Rel Reordering (v.step? s) (w.step? s) := by
  induction h with
  | refl v => exact optionRel_self fun x _ => .refl x
  | trans first _ ih ih' =>
    exact optionRel_trans (ih hv) (ih' (first.wellNamed hv)) fun _ _ _ _ _ _ => .trans
  | item inner _ =>
    cases s with
    | key k => exact .none
    | index i =>
      rw [step?, step?, List.getElem?_append, List.getElem?_append]
      split
      · exact optionRel_self fun x _ => .refl x
      · cases i - _ with
        | zero => exact .some inner
        | succ j => exact optionRel_self fun x _ => .refl x
  | @entry _ _ es _ k' _ _ inner _ =>
    cases s with
    | key k =>
      rw [step?, step?, Entries.get?, Entries.get?, List.lookup_append, List.lookup_append,
        List.lookup_cons, List.lookup_cons]
      cases List.lookup k es with
      | some x => exact .some (.refl x)
      | none =>
        cases k == k' with
        | true => exact .some inner
        | false => exact optionRel_self fun x _ => .refl x
    | index i => exact .none
  | entries moved =>
    cases s with
    | key k =>
      rw [step?, step?, Entries.get?_perm moved.symm hv.names_nodup]
      exact optionRel_self fun x _ => .refl x
    | index i => exact .none

/-- **Equality does not see the order of names.** -/
theorem equal_iff_left (h : Reordering v w) (hv : v.WellNamed) (hu : u.WellNamed) :
    Equal v u ↔ Equal w u := by
  induction v using memberInduction generalizing w u with
  | step v ih =>
    rw [equal_iff hv hu, equal_iff (h.wellNamed hv) hu, h.alike_eq u]
    refine and_congr_right fun _ => forall_congr' fun s => ?_
    exact optionRel_congr_left (h.step hv s) fun x hx y _ z hz hxy =>
      ih x (mem_members_of_step? hx) hxy (hv.step hx) (hu.step hz)

end Reordering

/-! ### Values that are one value -/

theorem same_list_iff : (list m xs).same (list n ys) = true ↔ list m xs = list n ys := by
  rw [← identical_iff, same, identical]

theorem same_tree_iff : (tree m es).same (tree n fs) = true ↔ tree m es = tree n fs := by
  rw [← identical_iff, same, identical]

theorem same_comm (v w : Value) : v.same w = w.same v := by
  cases v <;> cases w
  case list.list m xs n ys => rw [Bool.eq_iff_iff, same_list_iff, same_list_iff, eq_comm]
  case tree.tree m es n fs => rw [Bool.eq_iff_iff, same_tree_iff, same_tree_iff, eq_comm]
  all_goals simp [same, eqv, BEq.comm, Number.eqv_comm]

/-- What is one value is equal, unless there is a NaN in it. -/
theorem equal_of_same (hv : v.WellNamed) (hnan : v.WithoutNaN) (h : v.same w = true) :
    Equal v w := by
  have hself : Equal v v := (equal_self_iff hv).2 hnan
  cases v <;> cases w
  case list.list m xs n ys => exact same_list_iff.1 h ▸ hself
  case tree.tree m es n fs => exact same_tree_iff.1 h ▸ hself
  all_goals exact h

/-! ### Comparison in expressions -/

theorem looseEq_comm (hv : v.WellNamed) (hw : w.WellNamed) : v.looseEq w = w.looseEq v := by
  cases v <;> cases w
  case list.list m xs n ys => exact Bool.eq_iff_iff.2 (equal_comm hv hw)
  case tree.tree m es n fs => exact Bool.eq_iff_iff.2 (equal_comm hv hw)
  all_goals simp [looseEq, eqv, BEq.comm, Number.eqv_comm]

theorem WellNamed.walk {ss : List Step} (hv : v.WellNamed) (h : v.walk? ss = some w) :
    w.WellNamed := by
  induction ss generalizing v with
  | nil => exact Option.some.inj h ▸ hv
  | cons s ss ih =>
    obtain ⟨u, hu, hw⟩ := Option.bind_eq_some_iff.1 h
    exact ih (hv.step hu) hw

end Value

namespace Expr

/-- The literals of an expression. -/
def literals : Expr → List Value
  | lit v => [v]
  | path _ _ => []
  | not e => e.literals
  | compare _ l r => l.literals ++ r.literals
  | and l r => l.literals ++ r.literals
  | or l r => l.literals ++ r.literals

/-- No literal of the expression repeats a name. -/
def WellNamed (e : Expr) : Prop := ∀ v ∈ e.literals, v.WellNamed

variable {env : String → Option Value} {a b e : Expr}

/-- What an expression evaluates to repeats no name either. -/
theorem WellNamed.eval (he : e.WellNamed) (henv : ∀ id, ∀ v ∈ env id, v.WellNamed) :
    (e.eval env).WellNamed := by
  cases e with
  | lit v => exact he v List.mem_cons_self
  | path head steps =>
    rw [Expr.eval]
    cases hv : (env head).bind fun v => v.walk? steps with
    | none => exact .scalar rfl rfl
    | some w =>
      obtain ⟨v, hv, hw⟩ := Option.bind_eq_some_iff.1 hv
      exact (henv head v hv).walk hw
  | _ => exact .scalar rfl rfl

end Expr

namespace Grammar

/-- No literal of an expression that is denoted repeats a name: none of them is a tree. -/
theorem Disjunction.wellNamed_denoted (d : Disjunction) : d.denoted.WellNamed := by
  have hlit : ∀ {v : Value}, v.WellNamed → (Expr.lit v).WellNamed := fun hv =>
    List.forall_mem_singleton.2 hv
  refine @Disjunction.rec (fun d => d.denoted.WellNamed) (fun c => c.denoted.WellNamed)
    (fun c => c.denoted.WellNamed) (fun a => a.denoted.WellNamed) (fun p => p.denoted.WellNamed)
    (fun cs => ∀ l : Expr, l.WellNamed → (Conjunction.joined l cs).WellNamed)
    (fun cs => ∀ l : Expr, l.WellNamed → (Comparison.joined l cs).WellNamed)
    ?_ ?_ ?_ ?_ ?_ ?_ ?_ ?_ ?_ ?_ ?_ ?_ ?_ ?_ ?_ d
  case _ => exact fun first more hfirst hmore => hmore _ hfirst
  case _ => exact fun first more hfirst hmore => hmore _ hfirst
  case _ => exact fun a ha => ha
  case _ => exact fun negated a b ha hb => List.forall_mem_append.2 ⟨ha, hb⟩
  case _ => exact fun a ha => ha
  case _ => exact fun p hp => hp
  case _ => exact fun x => hlit (.scalar rfl rfl)
  case _ => exact fun x => hlit (.scalar rfl rfl)
  case _ =>
    intro k
    cases k <;> exact hlit (.scalar rfl rfl)
  case _ => exact fun d hd => hd
  case _ => exact fun head free steps => List.forall_mem_nil _
  case _ => exact fun l hl => hl
  case _ => exact fun c cs hc hcs l hl => hcs _ (List.forall_mem_append.2 ⟨hl, hc⟩)
  case _ => exact fun l hl => hl
  case _ => exact fun c cs hc hcs l hl => hcs _ (List.forall_mem_append.2 ⟨hl, hc⟩)

end Grammar

/-- No literal of an expression that is read from a text repeats a name. -/
theorem Expr.wellNamed_of_ofBody {body : List Char} {e : Expr} (h : Expr.ofBody body = .ok e) :
    e.WellNamed := by
  unfold Expr.ofBody at h
  split at h
  · obtain ⟨d, -, rfl⟩ :=
      (Grammar.readOr_eq_ok_iff (Nat.lt_succ_self _)).1 (Grammar.ofTokens_eq_ok_iff.1 h)
    exact d.wellNamed_denoted
  · cases h

/-- **Equality of values is sound.** For values in which no tree repeats a name: equality is
reflexive unless there is a NaN, symmetric and transitive, and blind to the order of names at any
depth; to be one value is symmetric too, and such values are equal unless there is a NaN. Loose
equality is symmetric, so a comparison of two expressions does not depend on their order, and `!=`
is the negation of `==`. Every expression that is read meets the condition on literals. -/
theorem Value.equality_is_sound {u v w : Value} (hu : u.WellNamed) (hv : v.WellNamed)
    (hw : w.WellNamed) {env : String → Option Value} (henv : ∀ id, ∀ x ∈ env id, x.WellNamed)
    {a b : Expr} (ha : a.WellNamed) (hb : b.WellNamed) :
    (u.WithoutNaN → u.eqv u = true) ∧
    u.eqv v = v.eqv u ∧
    (u.eqv v = true → v.eqv w = true → u.eqv w = true) ∧
    (∀ u' v', Reordering u u' → Reordering v v' → u'.eqv v' = u.eqv v) ∧
    u.same v = v.same u ∧
    (u.WithoutNaN → u.same v = true → u.eqv v = true) ∧
    u.looseEq v = v.looseEq u ∧
    (∀ body e, Expr.ofBody body = .ok e → e.WellNamed) ∧
    (Expr.compare false a b).eval env = (Expr.compare false b a).eval env ∧
    ∃ t, (Expr.compare false a b).eval env = .bool t ∧
      (Expr.compare true a b).eval env = .bool (!t) := by
  refine ⟨(equal_self_iff hu).2, Bool.eq_iff_iff.2 (equal_comm hu hv), equal_trans hu hv hw, ?_,
    same_comm u v, equal_of_same hu, looseEq_comm hu hv, fun _ _ => Expr.wellNamed_of_ofBody,
    ?_, ?_⟩
  · intro u' v' hu' hv'
    have hright : Equal u v ↔ Equal u v' := by
      rw [equal_comm hu hv, hv'.equal_iff_left hv hu, equal_comm (hv'.wellNamed hv) hu]
    exact Bool.eq_iff_iff.2 ((hu'.equal_iff_left hu (hv'.wellNamed hv)).symm.trans hright.symm)
  · rw [Expr.eval, Expr.eval, looseEq_comm (ha.eval henv) (hb.eval henv)]
  · exact ⟨_, rfl, by simp [Expr.eval]⟩

/-- Trees with their names in either order, the inner ones too, and zeros of either sign; a number
in one of them is compared with a text. -/
theorem Value.equality_is_sound_reordered :
    let seven : Value := .num (.ofNat 7)
    let zero : Value := .num (.ofMagnitude false 0)
    let u : Value := .tree 1 [("k", seven), ("l", .list 2 [.tree 3 [("x", .null), ("y", zero)]])]
    let u' : Value := .tree 4 [("l", .list 2 [.tree 5 [("y", zero), ("x", .null)]]), ("k", seven)]
    let w : Value := .tree 6
      [("l", .list 7 [.tree 0 [("x", .null), ("y", .num (.ofMagnitude true 0))]]), ("k", seven)]
    let env : String → Option Value := fun id => if id = "u" then some u else none
    let a : Expr := .path "u" [.key "k"]
    let b : Expr := .lit (.str " 7.0 ")
    u.WellNamed ∧ w.WellNamed ∧ (∀ id, ∀ x ∈ env id, x.WellNamed) ∧ a.WellNamed ∧ b.WellNamed ∧
      Reordering u u' ∧ u'.eqv w = u.eqv w ∧ u.eqv w = true ∧ w.eqv u = true ∧
      (Expr.compare false a b).eval env = .bool true ∧
      (Expr.compare false b a).eval env = .bool true := by
  intro seven zero u u' w env a b
  have hu : u.WellNamed := by decide +kernel
  have hw : w.WellNamed := by decide +kernel
  have henv : ∀ id, ∀ x ∈ env id, x.WellNamed := by
    intro id x hx
    obtain ⟨-, hx⟩ := Option.ite_none_right_eq_some.1 hx
    exact Option.some.inj hx ▸ hu
  have ha : a.WellNamed := List.forall_mem_nil _
  have hb : b.WellNamed := List.forall_mem_singleton.2 (.scalar rfl rfl)
  have hinner : Reordering (.tree 3 [("x", .null), ("y", zero)])
      (.tree 5 [("y", zero), ("x", .null)]) := .entries (.swap _ _ _)
  have hmoved : Reordering u u' :=
    .trans (@Reordering.entry 1 1 [("k", seven)] [] "l" _ _ (@Reordering.item 2 2 [] [] _ _ hinner))
      (.entries (.swap _ _ _))
  have hequal : u.eqv w = true := by decide +kernel
  have hloose : seven.looseEq (.str " 7.0 ") = true := by decide +kernel
  have hseven : (Expr.compare false a b).eval env = .bool true :=
    congrArg (fun t : Bool => Value.bool (t != false)) hloose
  obtain ⟨-, hsymm, -, hreorder, -, -, -, -, hcompare, -⟩ :=
    equality_is_sound hu hw hu henv ha hb
  exact ⟨hu, hw, henv, ha, hb, hmoved, hreorder u' w hmoved (.refl w), hequal, hsymm ▸ hequal,
    hseven, hcompare ▸ hseven⟩

end Scenario
