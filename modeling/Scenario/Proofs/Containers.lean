import Mathlib.Data.List.Induction
import Mathlib.Data.List.Nodup

/-!
# Lists, options and results

Facts about the types that everything else is made of: the first occurrences in a list
(`List.eraseDups`), relations between optional values (`Option.Rel`), and results that are mapped
(`Except.map`).
-/

namespace Scenario

variable {α β ε : Type}

/-! ### First occurrences -/

section FirstOccurrences

variable [DecidableEq α]

/-- A further member is new or has occurred before. -/
theorem eraseDups_concat (xs : List α) (x : α) :
    (xs ++ [x]).eraseDups = if x ∈ xs then xs.eraseDups else xs.eraseDups ++ [x] := by
  rw [List.eraseDups_append]
  by_cases h : x ∈ xs <;> simp [List.removeAll, h, List.eraseDups_cons]

theorem nodup_eraseDups (xs : List α) : xs.eraseDups.Nodup := by
  induction xs using List.reverseRecOn with
  | nil => simp
  | append_singleton xs x ih =>
    rw [eraseDups_concat]
    split
    · exact ih
    · next hx =>
      rw [← List.concat_eq_append]
      exact ih.concat fun hmem => hx (List.mem_eraseDups.1 hmem)

theorem eraseDups_of_nodup {xs : List α} (h : xs.Nodup) : xs.eraseDups = xs := by
  induction xs using List.reverseRecOn with
  | nil => rfl
  | append_singleton xs x ih =>
    rw [← List.concat_eq_append, List.nodup_concat] at h
    rw [eraseDups_concat, if_neg h.1, ih h.2]

/-- Of distinct members, one is the given one or none is. -/
theorem flatMap_ite_eq_of_nodup {xs : List α} (h : xs.Nodup) (x : α) (b : β) :
    (xs.flatMap fun y => if y = x then [b] else []) = if x ∈ xs then [b] else [] := by
  induction xs with
  | nil => rfl
  | cons y xs ih =>
    obtain ⟨hy, hxs⟩ := List.nodup_cons.1 h
    rw [List.flatMap_cons, ih hxs]
    by_cases hx : y = x
    · subst hx
      simp [hy]
    · simp [hx, Ne.symm hx]

end FirstOccurrences

/-! ### Related optional values -/

section OptionRel

variable {r : α → α → Prop} {a b c : Option α} {x : α}

theorem isSome_eq_of_optionRel (h : Option.Rel r a b) : a.isSome = b.isSome := by
  cases h <;> rfl

theorem exists_of_optionRel_some (h : Option.Rel r (some x) b) : ∃ y, b = some y ∧ r x y := by
  cases h with
  | some h => exact ⟨_, rfl, h⟩

theorem optionRel_self (h : ∀ x ∈ a, r x x) : Option.Rel r a a := by
  cases a with
  | none => exact .none
  | some x => exact .some (h x rfl)

theorem optionRel_symm (h : Option.Rel r a b) (hr : ∀ x ∈ a, ∀ y ∈ b, r x y → r y x) :
    Option.Rel r b a := by
  cases h with
  | none => exact .none
  | some h => exact .some (hr _ rfl _ rfl h)

theorem optionRel_trans (hab : Option.Rel r a b) (hbc : Option.Rel r b c)
    (hr : ∀ x ∈ a, ∀ y ∈ b, ∀ z ∈ c, r x y → r y z → r x z) : Option.Rel r a c := by
  cases hab with
  | none => exact hbc
  | some h =>
    obtain ⟨z, rfl, hz⟩ := exists_of_optionRel_some hbc
    exact .some (hr _ rfl _ rfl _ rfl h hz)

theorem optionRel_congr_left {q : α → α → Prop} (hab : Option.Rel q a b)
    (hr : ∀ x ∈ a, ∀ y ∈ b, ∀ z ∈ c, q x y → (r x z ↔ r y z)) :
    Option.Rel r a c ↔ Option.Rel r b c := by
  cases hab with
  | none => rfl
  | some h =>
    cases c with
    | none => constructor <;> intro hnone <;> cases hnone
    | some z => rw [Option.rel_some_some, Option.rel_some_some, hr _ rfl _ rfl z rfl h]

end OptionRel

/-! ### Mapped results -/

section ExceptMap

variable {x : Except ε α} {f : α → β}

theorem exists_of_map_eq_ok {b : β} (h : x.map f = .ok b) : ∃ a, x = .ok a ∧ f a = b := by
  cases x with
  | error e => cases h
  | ok a => exact ⟨a, rfl, Except.ok.inj h⟩

theorem eq_error_of_map {e : ε} (h : x.map f = .error e) : x = .error e := by
  cases x with
  | error e' => exact congrArg Except.error (Except.error.inj h)
  | ok a => cases h

end ExceptMap

end Scenario
