import Scenario.Value.Basic

/-!
# Scopes

A scope binds names to values in order. The tags that declared names are kept in a table of their
own; `Frame.consts` shows both together. Beside its bindings a scope keeps private storage, the
entity that it belongs to and whether that entity has returned.
-/

namespace Scenario

/-- The handle of a scope: its place in the arena. -/
abbrev ScopeId := Nat

/-- The identity of a parsed entity, drawn from a counter that does not wrap around: no world sees
`2 ^ 64` entities. -/
abbrev EntityKey := Nat

/-- One name bound to a value. -/
structure Binding where
  /-- The name. -/
  id : String
  /-- The value. -/
  value : Value
  /-- The tag that declared the binding. -/
  origin : Option String := none
  deriving Inhabited

/-- The bindings of a scope, in order. -/
abbrev Bindings := List Binding

namespace Bindings

/-- The binding of a name. -/
def lookup? (bs : Bindings) (id : String) : Option Binding := bs.find? fun b => b.id == id

/-- The value bound to a name. -/
def get? (bs : Bindings) (id : String) : Option Value := (bs.lookup? id).map Binding.value

/-- Whether a name is bound. -/
def has (bs : Bindings) (id : String) : Bool := (bs.lookup? id).isSome

/-- Binds a name: a bound name keeps its place and takes the new value and origin, a new one goes
to the end. -/
def insert : Bindings → Binding → Bindings
  | [], b => [b]
  | b' :: bs, b => if b'.id = b.id then b :: bs else b' :: insert bs b

/-- Removes a name; the others keep their order. -/
def erase (bs : Bindings) (id : String) : Bindings := bs.filter fun b => b.id != id

/-- The bound names, in order. -/
def ids (bs : Bindings) : List String := bs.map Binding.id

/-- The names with their values, in order. -/
def entries (bs : Bindings) : Entries := bs.map fun b => (b.id, b.value)

/-- After an insertion the name has the inserted binding and all others the one they had. -/
theorem lookup?_insert (bs : Bindings) (b : Binding) (id : String) :
    (bs.insert b).lookup? id = if id = b.id then some b else bs.lookup? id := by
  induction bs with
  | nil =>
    by_cases h : id = b.id
    · subst h
      simp [insert, lookup?]
    · simp [insert, lookup?, h, Ne.symm h]
  | cons b' bs ih =>
    by_cases h : b'.id = b.id
    · by_cases h' : id = b.id
      · subst h'
        simp [insert, lookup?, h]
      · have hb : (b.id == id) = false := by simpa using Ne.symm h'
        simp [insert, lookup?, h, h', hb]
    · by_cases h' : b'.id = id
      · subst h'
        simp [insert, lookup?, h]
      · have hb : (b'.id == id) = false := by simpa using h'
        simpa [insert, lookup?, h, hb] using ih

end Bindings

/-- The tags that declared names. -/
abbrev Origins := List (String × String)

namespace Origins

/-- The tag that declared a name. -/
def get? (os : Origins) (id : String) : Option String := List.lookup id os

/-- Forgets who declared a name. -/
def erase (os : Origins) (id : String) : Origins := os.filter fun o => o.1 != id

/-- Notes which tag declared a name, or that none did. -/
def note (os : Origins) (id : String) : Option String → Origins
  | some tag => (id, tag) :: os.erase id
  | none => os.erase id

theorem get?_erase (os : Origins) (id id' : String) :
    (os.erase id).get? id' = if id' = id then none else os.get? id' := by
  induction os with
  | nil => simp [erase, get?]
  | cons o os ih =>
    obtain ⟨k, tag⟩ := o
    simp only [erase, get?] at ih
    by_cases h : k = id
    · subst h
      by_cases h' : id' = k
      · simpa [erase, get?, h'] using ih
      · have hb : (id' == k) = false := by simpa using h'
        simpa [erase, get?, h', List.lookup_cons, hb] using ih
    · by_cases h' : id' = k
      · subst h'
        simp [erase, get?, h]
      · have hb : (id' == k) = false := by simpa using h'
        simpa [erase, get?, h, List.lookup_cons, hb] using ih

/-- What is noted of a name is what was noted last. -/
theorem get?_note (os : Origins) (id id' : String) (origin : Option String) :
    (os.note id origin).get? id' = if id' = id then origin else os.get? id' := by
  cases origin with
  | none => exact os.get?_erase id id'
  | some tag =>
    have herase := os.get?_erase id id'
    by_cases h : id' = id
    · subst h
      simp [note, get?]
    · have hb : (id' == id) = false := by simpa using h
      simpa [note, get?, List.lookup_cons, hb, h] using herase

end Origins

namespace Bindings

/-- Bindings from a table of values and a table of origins. -/
def ofTables (es : Entries) (os : Origins) : Bindings := es.map fun e => ⟨e.1, e.2, os.get? e.1⟩

theorem get?_ofTables (es : Entries) (os : Origins) (id : String) :
    (ofTables es os).get? id = es.get? id := by
  induction es with
  | nil => rfl
  | cons e es ih =>
    obtain ⟨k, v⟩ := e
    rw [Entries.get?_cons]
    by_cases h : id = k
    · simp [ofTables, get?, lookup?, h]
    · have hb : (k == id) = false := by simpa using Ne.symm h
      simpa [ofTables, get?, lookup?, h, hb] using ih

/-- A name goes into both tables. It stands in the first one once, so that the origins of the other
names stay. -/
theorem ofTables_insert (os : Origins) {es : Entries} (h : es.names.Nodup) (b : Binding) :
    ofTables (es.insert b.id b.value) (os.note b.id b.origin) = (ofTables es os).insert b := by
  have others : ∀ k ≠ b.id, (os.note b.id b.origin).get? k = os.get? k := by
    intro k hk
    rw [Origins.get?_note, if_neg hk]
  have self : (os.note b.id b.origin).get? b.id = b.origin := by
    rw [Origins.get?_note, if_pos rfl]
  induction es with
  | nil => simp [Entries.insert, insert, ofTables, self]
  | cons e es ih =>
    obtain ⟨k, v⟩ := e
    simp only [Entries.names, List.map_cons, List.nodup_cons] at h
    by_cases hk : k = b.id
    · subst hk
      have hrest : ∀ e ∈ es, (os.note b.id b.origin).get? e.1 = os.get? e.1 :=
        fun e he => others e.1 fun hk => h.1 (hk ▸ List.mem_map_of_mem he)
      simp only [ofTables, Entries.insert, insert, if_true, List.map_cons, self, List.cons.injEq,
        true_and]
      exact List.map_congr_left fun e he => by rw [hrest e he]
    · have ih := ih h.2
      simp only [ofTables] at ih
      simp [ofTables, Entries.insert, insert, hk, others k hk, ih]

end Bindings

/-- One scope. -/
structure Frame where
  /-- The scope in which names not bound here are looked up. -/
  parent : Option ScopeId := none
  /-- How many scopes lie between this one and the root. -/
  seq : Nat := 0
  /-- The bound names with their values, in order. -/
  values : Entries := []
  /-- No name is bound twice. -/
  distinct : values.names.Nodup := by exact List.nodup_nil
  /-- The tags that declared bound names. -/
  origins : Origins := []
  /-- Private storage of this scope. -/
  internals : Entries := []
  /-- The entity that this scope belongs to. -/
  entity : Option EntityKey := none
  /-- Whether that entity has returned. -/
  returning : Bool := false

namespace Frame

instance : Inhabited Frame := ⟨{}⟩

/-- Binds a name: a bound name keeps its place and takes the new value and origin. -/
def bind (f : Frame) (b : Binding) : Frame :=
  { f with
    values := f.values.insert b.id b.value
    distinct := Entries.nodup_insert f.distinct b.id b.value
    origins := f.origins.note b.id b.origin }

/-- Removes the binding of a name. -/
def unbind (f : Frame) (id : String) : Frame :=
  { f with
    values := f.values.erase id
    distinct := Entries.nodup_erase f.distinct id
    origins := f.origins.erase id }

/-- The bindings, each with the tag that declared it. -/
def consts (f : Frame) : Bindings := .ofTables f.values f.origins

theorem get?_consts (f : Frame) (id : String) : f.consts.get? id = f.values.get? id :=
  Bindings.get?_ofTables f.values f.origins id

theorem has_consts (f : Frame) (id : String) : f.consts.has id = (f.values.get? id).isSome := by
  rw [← get?_consts, Bindings.has, Bindings.get?, Option.isSome_map]

/-- Binding a name inserts it among the bindings. -/
theorem consts_bind (f : Frame) (b : Binding) : (f.bind b).consts = f.consts.insert b :=
  Bindings.ofTables_insert f.origins f.distinct b

end Frame

end Scenario
