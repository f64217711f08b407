/-!
# Splitting outside quotes

The first occurrence of a character outside single and double quotes. A quote is closed by the next
one of its kind, wherever it stands.
-/

namespace Scenario.Text

/-- The quote that is open after a character, given the one that was open before it. -/
def quoteAfter (quote : Option Char) (c : Char) : Option Char :=
  match quote with
  | some q => if c = q then none else some q
  | none => if c = '\'' ∨ c = '"' then some c else none

/-- Splits a text at the first `stop` outside quotes: what precedes it and what follows it. The
first argument is the quote that is open. -/
def splitUnquoted (stop : Char) : Option Char → List Char → Option (List Char × List Char)
  | _, [] => none
  | quote, c :: cs =>
    if quote = none ∧ c = stop then some ([], cs)
    else (splitUnquoted stop (quoteAfter quote c) cs).map fun r => (c :: r.1, r.2)

/-- The two parts and the character between them make up the text that was split. -/
theorem splitUnquoted_eq {stop : Char} {quote : Option Char} {cs before after : List Char}
    (h : splitUnquoted stop quote cs = some (before, after)) : cs = before ++ stop :: after := by
  induction cs generalizing quote before after with
  | nil => simp [splitUnquoted] at h
  | cons c cs ih =>
    by_cases hc : quote = none ∧ c = stop
    · simp only [splitUnquoted, hc, and_self, if_true, Option.some.injEq, Prod.mk.injEq] at h
      simp [hc, ← h.1, h.2]
    · simp only [splitUnquoted, hc, if_false, Option.map_eq_some_iff, Prod.mk.injEq] at h
      obtain ⟨r, hr, rfl, rfl⟩ := h
      simp [ih hr]

theorem splitUnquoted_length {stop : Char} {quote : Option Char} {cs before after : List Char}
    (h : splitUnquoted stop quote cs = some (before, after)) : after.length < cs.length := by
  simp only [splitUnquoted_eq h, List.length_append, List.length_cons]
  omega

theorem splitUnquoted_suffix {stop : Char} {quote : Option Char} {cs before after : List Char}
    (h : splitUnquoted stop quote cs = some (before, after)) : after <:+ cs :=
  ⟨before ++ [stop], by rw [splitUnquoted_eq h, List.append_assoc, List.singleton_append]⟩

end Scenario.Text
