import Scenario.Xml.Document

/-!
# The lines of a document

While a document is read, lines are counted on from one piece to the next. What the count comes to
can be said of each place by itself: its line is one more than the number of line ends in front of
it (`lineAt`). The two agree because the count may stop anywhere on its way, and because the pieces
of a document begin one behind the other.

* `LineCounter.advance_advance` — a stop on the way makes no difference.
* `Markup.beginIn_scan` — the pieces of a text begin one behind the other.
* **`numbered_eq`** — every piece gets the line of the place where it begins.
-/

namespace Scenario.Xml

/-! ### The line of a place -/

/-- The number of line ends in the first `n` bytes of a text. -/
def lineEnds : Nat → List Char → Nat
  | _, [] => 0
  | n, c :: cs => if n = 0 then 0 else (if c = '\n' then 1 else 0) + lineEnds (n - c.utf8Size) cs

/-- The line of a byte offset. -/
def lineAt (text : List Char) (offset : Nat) : Nat := 1 + lineEnds offset text

/-! ### Counting on -/

namespace LineCounter

theorem line_pass (target offset line : Nat) (cs : List Char) :
    (pass target offset line cs).line = line + lineEnds (target - offset) cs := by
  induction cs generalizing offset line with
  | nil => rfl
  | cons c cs ih =>
    rw [pass, lineEnds]
    by_cases hlt : offset < target
    · have hleft : target - offset ≠ 0 := by omega
      rw [if_pos hlt, ih, if_neg hleft, ← Nat.sub_sub]
      by_cases hc : c = '\n'
      · rw [if_pos hc, if_pos hc, Nat.add_assoc]
      · rw [if_neg hc, if_neg hc, Nat.zero_add]
    · have hnone : target - offset = 0 := by omega
      rw [if_neg hlt, if_pos hnone, Nat.add_zero]

/-- A place that was not passed for the nearer offset is passed for the farther one. -/
theorem advance_pass {near far : Nat} (h : near ≤ far) (offset line : Nat) (cs : List Char) :
    (pass near offset line cs).advance far = pass far offset line cs := by
  induction cs generalizing offset line with
  | nil => rfl
  | cons c cs ih =>
    rw [pass]
    by_cases hlt : offset < near
    · rw [if_pos hlt, ih, pass, if_pos (Nat.lt_of_lt_of_le hlt h)]
    · rw [if_neg hlt, advance]

theorem advance_advance (k : LineCounter) {near far : Nat} (h : near ≤ far) :
    (k.advance near).advance far = k.advance far :=
  advance_pass h k.offset k.line k.ahead

theorem advance_zero (k : LineCounter) : k.advance 0 = k := by
  obtain ⟨ahead, offset, line⟩ := k
  cases ahead with
  | nil => rfl
  | cons c cs => rw [advance, pass, if_neg (Nat.not_lt_zero offset)]

/-- Pieces that begin one behind the other, none of them in front of the count, get the lines that
a count from its start would give them. -/
theorem number_advance (k : LineCounter) {near far : Nat} {ps : List (Nat × Markup)}
    (hnear : near ≤ far) (hps : ∀ p ∈ ps, near ≤ p.1 ∧ p.1 ≤ far)
    (hsorted : ps.Pairwise fun p q => p.1 ≤ q.1) :
    ((k.advance near).number ps).1 = ps.map (fun p => ((k.advance p.1).line, p.2)) ∧
      ((k.advance near).number ps).2.advance far = k.advance far := by
  induction ps generalizing near with
  | nil => exact ⟨rfl, k.advance_advance hnear⟩
  | cons p ps ih =>
    obtain ⟨⟨hp, hfar⟩, hmore⟩ := List.forall_mem_cons.1 hps
    obtain ⟨hbehind, hsorted⟩ := List.pairwise_cons.1 hsorted
    obtain ⟨hlines, hend⟩ := ih hfar (fun q hq => ⟨hbehind q hq, (hmore q hq).2⟩) hsorted
    rw [number, k.advance_advance hp]
    exact ⟨by rw [List.map_cons, hlines], hend⟩

end LineCounter

/-! ### Where pieces begin -/

theorem byteLength_le_of_suffix {cs ds : List Char} (h : cs <:+ ds) :
    Text.byteLength cs ≤ Text.byteLength ds := by
  obtain ⟨front, rfl⟩ := h
  rw [Text.byteLength_append]
  omega

namespace Markup

/-- Pieces begin one behind the other in the part `cs` at the end of a text of `size` bytes. -/
def BeginIn (size : Nat) (cs : List Char) (ps : List (Nat × Markup)) : Prop :=
  (∀ p ∈ ps, size - Text.byteLength cs ≤ p.1 ∧ p.1 ≤ size) ∧ ps.Pairwise fun p q => p.1 ≤ q.1

theorem BeginIn.nil (size : Nat) (cs : List Char) : BeginIn size cs [] := ⟨by simp, .nil⟩

/-- A piece that begins the part is in front of all that begin behind it. -/
theorem BeginIn.cons {size : Nat} {cs rest : List Char} {ps : List (Nat × Markup)}
    (h : BeginIn size rest ps) (hrest : rest <:+ cs) (m : Markup) :
    BeginIn size cs ((size - Text.byteLength cs, m) :: ps) := by
  have hlength := byteLength_le_of_suffix hrest
  refine ⟨List.forall_mem_cons.2 ⟨⟨Nat.le_refl _, Nat.sub_le _ _⟩, fun p hp => ?_⟩,
    List.pairwise_cons.2 ⟨fun p hp => ?_, h.2⟩⟩
  · obtain ⟨hfirst, hlast⟩ := h.1 p hp
    exact ⟨by omega, hlast⟩
  · obtain ⟨hfirst, -⟩ := h.1 p hp
    dsimp only
    omega

theorem beginIn_scan (size : Nat) (cs : List Char) : BeginIn size cs (scan size cs) := by
  fun_induction scan size cs with
  | case1 => exact .nil size []
  | case2 cs f rest hread offset => exact (BeginIn.nil size []).cons List.nil_suffix _
  | case3 cs m rest hfault hread offset ih =>
    have hrest : rest <:+ cs := by
      have hsuffix := readTag_suffix cs
      rwa [hread] at hsuffix
    exact ih.cons (hrest.trans (List.suffix_cons _ _)) m
  | case4 c cs offset hc ih =>
    exact ih.cons ((List.dropWhile_suffix _).trans (List.suffix_cons _ _)) _

end Markup

/-- **Every piece gets the line of the place where it begins**, and the text ends on the line of its
end. -/
theorem numbered_eq (text : List Char) :
    numbered text =
      ((Markup.scan (Text.byteLength (withoutMark text)) (withoutMark text)).map
          fun p => (lineAt text p.1, p.2),
        lineAt text (Text.byteLength (withoutMark text))) := by
  have hline : ∀ target, (LineCounter.advance ⟨text, 0, 1⟩ target).line = lineAt text target :=
    fun target => LineCounter.line_pass target 0 1 text
  obtain ⟨hoffsets, hsorted⟩ :=
    Markup.beginIn_scan (Text.byteLength (withoutMark text)) (withoutMark text)
  obtain ⟨hlines, hend⟩ := LineCounter.number_advance ⟨text, 0, 1⟩ (Nat.zero_le _)
    (fun p hp => ⟨Nat.zero_le _, (hoffsets p hp).2⟩) hsorted
  rw [LineCounter.advance_zero] at hlines hend
  rw [numbered, hlines, hend]
  simp only [hline]

end Scenario.Xml
