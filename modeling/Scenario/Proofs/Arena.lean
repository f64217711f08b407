import Scenario.Scope.Arena
import Mathlib.Data.List.Find

/-!
# Laws of the scopes

What opening, leaving and changing a scope does to every scope. A change is always one of a single
frame (`frame_modifyFrame`); opening adds a frame at the end and leaving takes it away again, so
that what lies before the end is untouched (`frame_enter`, `frame_leave`).

Where an entity is found from a scope depends only on the links between the older scopes and on
their entities (`entityScope?_congr`), and a change of what a scope holds keeps both (`Touched`).
-/

namespace Scenario

namespace Arena

variable {a b c : Arena} {s t k : ScopeId}

/-! ### Single frames -/

theorem frame_of_size_le (h : a.size ≤ k) : a.frame k = {} := by
  simp only [size] at h
  simp [frame, Array.getElem?_eq_none_iff.2 h]

@[simp] theorem size_modifyFrame (a : Arena) (s : ScopeId) (g : Frame → Frame) :
    (a.modifyFrame s g).size = a.size := by
  simp [modifyFrame, size]

/-- A change of one live frame. -/
theorem frame_modifyFrame_self (g : Frame → Frame) (h : s < a.size) :
    (a.modifyFrame s g).frame s = g (a.frame s) := by
  simp only [size] at h
  simp [frame, modifyFrame, Array.getElem?_modify, Array.getElem?_eq_getElem h]

/-- The other frames do not change. -/
theorem frame_modifyFrame_of_ne (g : Frame → Frame) (h : k ≠ s) :
    (a.modifyFrame s g).frame k = a.frame k := by
  simp [frame, modifyFrame, Array.getElem?_modify, Ne.symm h]

/-- What a change keeps of every frame, it keeps. -/
theorem frame_modifyFrame {β : Type} (p : Frame → β) (g : Frame → Frame) (hg : ∀ f, p (g f) = p f)
    (a : Arena) (s k : ScopeId) : p ((a.modifyFrame s g).frame k) = p (a.frame k) := by
  by_cases hk : k = s
  · subst hk
    by_cases h : k < a.size
    · rw [frame_modifyFrame_self g h, hg]
    · rw [frame_of_size_le (by simpa using h), frame_of_size_le (Nat.le_of_not_lt h)]
  · rw [frame_modifyFrame_of_ne g hk]

/-! ### Opening and leaving -/

@[simp] theorem size_enter (a : Arena) (s : ScopeId) : (a.enter s).1.size = a.size + 1 := by
  simp [enter, size]

@[simp] theorem globals_enter (a : Arena) (s : ScopeId) : (a.enter s).1.globals = a.globals := rfl

theorem frame_enter (h : k ≠ a.size) : (a.enter s).1.frame k = a.frame k := by
  simp only [size] at h
  simp [frame, enter, Array.getElem?_push, h]

theorem frame_enter_size (a : Arena) (s : ScopeId) :
    (a.enter s).1.frame a.size = { parent := some s, seq := a.seq s + 1 } := by
  simp [frame, enter, size, seq]

theorem size_leave (hs : 0 < s) (h : s ≤ a.size) : (a.leave s).size = s := by
  simp only [size] at h
  simp [leave, size, root, Nat.ne_of_gt hs, h]

@[simp] theorem globals_leave (a : Arena) (s : ScopeId) : (a.leave s).globals = a.globals := by
  unfold leave
  split <;> rfl

theorem frame_leave (h : k < s) : (a.leave s).frame k = a.frame k := by
  have hs : s ≠ root := Nat.ne_of_gt (Nat.zero_lt_of_lt h)
  have hk : (a.frames.take s)[k]? = a.frames[k]? := by grind
  rw [leave, if_neg hs, frame, frame, hk]

/-! ### Contents -/

/-- The second arena is the first one with other contents of one frame: its bindings, its private
storage or whether its entity has returned. -/
def Touched (s : ScopeId) (a b : Arena) : Prop :=
  ∃ g : Frame → Frame, b = a.modifyFrame s g ∧
    ∀ f, (g f).parent = f.parent ∧ (g f).seq = f.seq ∧ (g f).entity = f.entity

theorem touched_replace (a : Arena) (s : ScopeId) (id : String) (origin : Option String)
    (v : Value) : Touched s a (a.replace s id origin v).2 := ⟨_, rfl, fun _ => ⟨rfl, rfl, rfl⟩⟩

theorem touched_setInternal (a : Arena) (s : ScopeId) (key : String) (v : Value) :
    Touched s a (a.setInternal s key v false).2 := ⟨_, rfl, fun _ => ⟨rfl, rfl, rfl⟩⟩

theorem touched_setReturning (a : Arena) (s : ScopeId) (r : Bool) :
    Touched s a (a.setReturning s r) := ⟨_, rfl, fun _ => ⟨rfl, rfl, rfl⟩⟩

namespace Touched

theorem size_eq (h : Touched s a b) : b.size = a.size := by
  obtain ⟨g, rfl, -⟩ := h
  exact size_modifyFrame a s g

theorem globals_eq (h : Touched s a b) : b.globals = a.globals := by
  obtain ⟨g, rfl, -⟩ := h
  rfl

theorem frame_of_ne (h : Touched s a b) (hk : k ≠ s) : b.frame k = a.frame k := by
  obtain ⟨g, rfl, -⟩ := h
  exact frame_modifyFrame_of_ne g hk

theorem parent_eq (h : Touched s a b) (k : ScopeId) : (b.frame k).parent = (a.frame k).parent := by
  obtain ⟨g, rfl, hg⟩ := h
  exact frame_modifyFrame Frame.parent g (fun f => (hg f).1) a s k

theorem seq_eq (h : Touched s a b) (k : ScopeId) : b.seq k = a.seq k := by
  obtain ⟨g, rfl, hg⟩ := h
  exact frame_modifyFrame Frame.seq g (fun f => (hg f).2.1) a s k

theorem entity_eq (h : Touched s a b) (k : ScopeId) : (b.frame k).entity = (a.frame k).entity := by
  obtain ⟨g, rfl, hg⟩ := h
  exact frame_modifyFrame Frame.entity g (fun f => (hg f).2.2) a s k

end Touched

theorem returning_replace (a : Arena) (s : ScopeId) (id : String) (origin : Option String)
    (v : Value) (k : ScopeId) : (a.replace s id origin v).2.returning k = a.returning k :=
  frame_modifyFrame Frame.returning (fun f => f.bind ⟨id, v, origin⟩)
    (fun _ => rfl) a s k

theorem returning_setInternal (a : Arena) (s : ScopeId) (key : String) (v : Value) (k : ScopeId) :
    (a.setInternal s key v false).2.returning k = a.returning k :=
  frame_modifyFrame Frame.returning (fun f => { f with internals := f.internals.insert key v })
    (fun _ => rfl) a s k

theorem consts_setInternal (a : Arena) (s : ScopeId) (key : String) (v : Value) (k : ScopeId) :
    ((a.setInternal s key v false).2.frame k).consts = (a.frame k).consts :=
  frame_modifyFrame Frame.consts (fun f => { f with internals := f.internals.insert key v })
    (fun _ => rfl) a s k

theorem consts_setReturning (a : Arena) (s : ScopeId) (r : Bool) (k : ScopeId) :
    ((a.setReturning s r).frame k).consts = (a.frame k).consts :=
  frame_modifyFrame Frame.consts (fun f => { f with returning := r }) (fun _ => rfl) a s k

/-- The permission to bind results anew is kept in the private storage of a scope. -/
theorem overwriteAllowed_congr (h : (b.frame k).internals = (a.frame k).internals) :
    b.overwriteAllowed k = a.overwriteAllowed k := by
  simp [overwriteAllowed, internal?, h]

theorem overwriteAllowed_setReturning (a : Arena) (s : ScopeId) (r : Bool) (k : ScopeId) :
    (a.setReturning s r).overwriteAllowed k = a.overwriteAllowed k :=
  overwriteAllowed_congr
    (frame_modifyFrame Frame.internals (fun f => { f with returning := r }) (fun _ => rfl) a s k)

/-- Another private value does not change the permission to bind results anew. -/
theorem overwriteAllowed_setInternal (a : Arena) (s : ScopeId) {key : String} (v : Value)
    (h : key ≠ overwriteKey) (k : ScopeId) :
    (a.setInternal s key v false).2.overwriteAllowed k = a.overwriteAllowed k := by
  have hget : ∀ f : Frame, (f.internals.insert key v).get? overwriteKey =
      f.internals.get? overwriteKey := by
    intro f
    rw [Entries.get?_insert, if_neg h.symm]
  have hframe := frame_modifyFrame (fun f => f.internals.get? overwriteKey)
    (fun f => { f with internals := f.internals.insert key v }) hget a s k
  exact congrArg (fun v? => (Option.map Value.isTruthy v?).getD false) hframe

theorem overwriteAllowed_replace (a : Arena) (s : ScopeId) (id : String) (origin : Option String)
    (v : Value) (k : ScopeId) :
    (a.replace s id origin v).2.overwriteAllowed k = a.overwriteAllowed k :=
  overwriteAllowed_congr (frame_modifyFrame Frame.internals
    (fun f => f.bind ⟨id, v, origin⟩) (fun _ => rfl) a s k)

/-! ### Entities -/

@[simp] theorem size_bindEntity (a : Arena) (s : ScopeId) (e : EntityKey) :
    (a.bindEntity s e).size = a.size := size_modifyFrame a s _

@[simp] theorem seq_bindEntity (a : Arena) (s : ScopeId) (e : EntityKey) (k : ScopeId) :
    (a.bindEntity s e).seq k = a.seq k :=
  frame_modifyFrame Frame.seq (fun f => { f with entity := some e }) (fun _ => rfl) a s k

/-- A scope lies inside itself. -/
theorem mem_ancestors_self (a : Arena) (s : ScopeId) : ∃ ss, a.ancestors s = s :: ss := by
  unfold ancestors
  split
  · split
    · exact ⟨_, rfl⟩
    · exact ⟨[], rfl⟩
  · exact ⟨[], rfl⟩

theorem ancestors_of_parent {p : ScopeId} (h : (a.frame s).parent = some p) (hp : p < s) :
    a.ancestors s = s :: a.ancestors p := by
  rw [ancestors, h]
  simp [hp]

/-- The scopes around a scope are older. -/
theorem le_of_mem_ancestors (h : k ∈ a.ancestors s) : k ≤ s := by
  fun_induction ancestors a s with
  | case1 s p _ hp ih =>
    obtain rfl | h := List.mem_cons.1 h
    · exact Nat.le_refl _
    · exact Nat.le_of_lt (Nat.lt_of_le_of_lt (ih h) hp)
  | case2 => exact Nat.le_of_eq (List.mem_singleton.1 h)
  | case3 => exact Nat.le_of_eq (List.mem_singleton.1 h)

/-- The scopes around a scope depend on the links of the older ones. -/
theorem ancestors_congr (h : ∀ k ≤ s, (b.frame k).parent = (a.frame k).parent) :
    b.ancestors s = a.ancestors s := by
  fun_induction ancestors a s with
  | case1 s p hs hp ih =>
    have hb := (h s (Nat.le_refl s)).trans hs
    rw [ancestors_of_parent hb hp, ih fun k hk => h k (Nat.le_trans hk (Nat.le_of_lt hp))]
  | case2 s p hs hp =>
    have hb := (h s (Nat.le_refl s)).trans hs
    rw [ancestors, hb]
    simp [hp]
  | case3 s hs =>
    have hb := (h s (Nat.le_refl s)).trans hs
    rw [ancestors, hb]

theorem chain_congr (h : ∀ k ≤ s, b.frame k = a.frame k) : b.chain s = a.chain s := by
  rw [chain, chain, ancestors_congr fun k hk => congrArg Frame.parent (h k hk)]
  exact List.map_congr_left fun k hk => h k (le_of_mem_ancestors hk)

/-- What can be seen from a scope depends on the scopes around it only. -/
theorem visible_congr (h : ∀ k ≤ s, b.frame k = a.frame k) : b.visible s = a.visible s := by
  rw [visible, visible, chain_congr h]

/-- Where an entity is found depends on the links and the entities of the older scopes. -/
theorem entityScope?_congr {e : EntityKey} (hp : ∀ k ≤ t, (b.frame k).parent = (a.frame k).parent)
    (he : ∀ k ≤ t, (b.frame k).entity = (a.frame k).entity) :
    b.entityScope? t e = a.entityScope? t e := by
  rw [entityScope?, entityScope?, ancestors_congr hp]
  refine List.find?_congr fun k hk => ?_
  rw [he k (le_of_mem_ancestors hk)]

theorem entityScope?_self {e : EntityKey} (h : (a.frame s).entity = some e) :
    a.entityScope? s e = some s := by
  obtain ⟨ss, hs⟩ := a.mem_ancestors_self s
  simp [entityScope?, hs, h]

theorem entityScope?_enter {e : EntityKey} (h : t < a.size) :
    (a.enter t).1.entityScope? a.size e = a.entityScope? t e := by
  have hf := a.frame_enter_size t
  have hbelow : ∀ k ≤ t, (a.enter t).1.frame k = a.frame k :=
    fun k hk => frame_enter (Nat.ne_of_lt (Nat.lt_of_le_of_lt hk h))
  have ht : (a.enter t).1.entityScope? t e = a.entityScope? t e :=
    entityScope?_congr (fun k hk => by rw [hbelow k hk]) fun k hk => by rw [hbelow k hk]
  rw [← ht, entityScope?, ancestors_of_parent (by rw [hf]) h, List.find?_cons_of_neg (by simp [hf]),
    entityScope?]

/-- An entity found from a scope has a scope that is as old or older. -/
theorem entityScope?_spec {e : EntityKey} (h : a.entityScope? t e = some s) :
    s ≤ t ∧ (a.frame s).entity = some e :=
  ⟨le_of_mem_ancestors (List.mem_of_find?_eq_some h), by simpa using List.find?_some h⟩

end Arena

end Scenario
