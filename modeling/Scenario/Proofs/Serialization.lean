import Mathlib.Data.List.DropRight
import Scenario.Json.Reader
import Scenario.Json.Text
import Scenario.Proofs.Equality

/-!
# Values as JSON texts

A value that is written as JSON text and read again is the same value. The reader looks no further
than the text of a value itself: what follows it can only be the end, a comma or a closing bracket,
and none of these can belong to a number. So "this text is read as this value" (`Json.Reads`) is
said of a text in front of any such rest, with steps for twice its length, and is proved by
induction over values.

* `Value.unmarked` — the value with no marks; `Value.depth` — how deep lists and trees nest.
* `Json.readText_flatMap_escapeChar` — quoted texts are read back, whatever their characters.
* `Json.readNumberText_append` — a number text is read alike in front of a comma or bracket.
* `Json.read_separated` — parts with commas between them, for lists and objects alike.
* **`Json.values_read_back`** — values survive their JSON text.
-/

namespace Scenario

theorem Number.isNaN_of_isFinite {x : Number} (h : x.isFinite = true) : x.isNaN = false := by
  simp only [isFinite, isNaN, decide_eq_true_eq, decide_eq_false_iff_not] at *
  omega

theorem Entries.insert_of_notMem {es : Entries} {k : String} (h : k ∉ es.names) (v : Value) :
    es.insert k v = es ++ [(k, v)] := by
  induction es with
  | nil => rfl
  | cons e es ih =>
    have hne : e.1 ≠ k := fun heq => h (heq ▸ List.mem_cons_self)
    rw [insert, if_neg hne, ih fun hk => h (List.mem_cons_of_mem _ hk), List.cons_append]

/-- Pairs with distinct names stay as they are. -/
theorem Entries.ofPairs_of_nodup {ps : List (String × Value)} (h : (ps.map Prod.fst).Nodup) :
    Entries.ofPairs ps = ps := by
  induction ps using List.reverseRecOn with
  | nil => rfl
  | append_singleton ps p ih =>
    rw [List.map_append, List.map_singleton, List.nodup_append] at h
    obtain ⟨hps, -, hnew⟩ := h
    have hp : p.1 ∉ Entries.names ps := fun hmem => hnew p.1 hmem p.1 List.mem_cons_self rfl
    have hfold : ofPairs (ps ++ [p]) = (ofPairs ps).insert p.1 p.2 := by
      rw [ofPairs, List.foldl_append]
      rfl
    rw [hfold, ih hps, insert_of_notMem hp]

namespace Value

/-! ### Marks and nesting -/

mutual

/-- The value with no marks on its lists and trees. -/
def unmarked : Value → Value
  | null => null
  | bool b => bool b
  | num x => num x
  | str s => str s
  | list _ xs => list 0 (unmarkedItems xs)
  | tree _ es => tree 0 (unmarkedEntries es)

/-- The members of a list with no marks. -/
def unmarkedItems : List Value → List Value
  | [] => []
  | x :: xs => unmarked x :: unmarkedItems xs

/-- The entries of a tree with no marks. -/
def unmarkedEntries : List (String × Value) → List (String × Value)
  | [] => []
  | (k, v) :: es => (k, unmarked v) :: unmarkedEntries es

end

mutual

/-- How deep lists and trees nest. -/
def depth : Value → Nat
  | list _ xs => depthOfItems xs + 1
  | tree _ es => depthOfEntries es + 1
  | _ => 0

/-- How deep lists and trees nest in the members of a list. -/
def depthOfItems : List Value → Nat
  | [] => 0
  | x :: xs => max (depth x) (depthOfItems xs)

/-- How deep lists and trees nest in the entries of a tree. -/
def depthOfEntries : List (String × Value) → Nat
  | [] => 0
  | (_, v) :: es => max (depth v) (depthOfEntries es)

end

variable {v w : Value}

theorem unmarkedItems_eq (xs : List Value) : unmarkedItems xs = xs.map unmarked := by
  induction xs with
  | nil => rfl
  | cons x xs ih => rw [unmarkedItems, ih, List.map_cons]

theorem unmarkedEntries_eq (es : Entries) :
    unmarkedEntries es = es.map fun e => (e.1, e.2.unmarked) := by
  induction es with
  | nil => rfl
  | cons e es ih => rw [unmarkedEntries, ih, List.map_cons]

theorem depth_le_depthOfItems {xs : List Value} (h : w ∈ xs) : w.depth ≤ depthOfItems xs := by
  induction xs with
  | nil => cases h
  | cons x xs ih =>
    rw [depthOfItems]
    rcases List.mem_cons.1 h with rfl | h
    · exact Nat.le_max_left _ _
    · exact Nat.le_trans (ih h) (Nat.le_max_right _ _)

theorem depth_le_depthOfEntries {es : Entries} (h : w ∈ es.map Prod.snd) :
    w.depth ≤ depthOfEntries es := by
  induction es with
  | nil => cases h
  | cons e es ih =>
    rw [depthOfEntries]
    rcases List.mem_cons.1 h with rfl | h
    · exact Nat.le_max_left _ _
    · exact Nat.le_trans (ih h) (Nat.le_max_right _ _)

theorem depth_lt_of_mem_members (h : w ∈ v.members) : w.depth < v.depth := by
  cases v with
  | list m xs => exact Nat.lt_succ_of_le (depth_le_depthOfItems h)
  | tree m es => exact Nat.lt_succ_of_le (depth_le_depthOfEntries h)
  | _ => cases h

theorem members_unmarked (v : Value) : v.unmarked.members = v.members.map unmarked := by
  cases v with
  | list m xs => rw [unmarked, unmarkedItems_eq, members, members]
  | tree m es => simp [unmarked, unmarkedEntries_eq, members]
  | _ => rfl

theorem step?_unmarked (v : Value) (s : Step) : v.unmarked.step? s = (v.step? s).map unmarked := by
  cases v <;> cases s
  case list.index m xs i => simp [unmarked, unmarkedItems_eq, step?]
  case tree.key m es k =>
    rw [unmarked, unmarkedEntries_eq, step?, step?]
    induction es with
    | nil => rfl
    | cons e es ih =>
      rw [List.map_cons, Entries.get?_cons, Entries.get?_cons, ih]
      split <;> rfl
  all_goals rfl

theorem WellNamed.unmarked {v : Value} (hv : v.WellNamed) : v.unmarked.WellNamed := by
  induction v using memberInduction with
  | step v ih =>
    obtain ⟨-, hmembers⟩ := wellNamed_iff.1 hv
    refine wellNamed_iff.2 ⟨?_, ?_⟩
    · cases v with
      | tree m es =>
        have hnames : (es.map fun e => e.1).Nodup := hv.names_nodup
        simpa [Value.unmarked, unmarkedEntries_eq, namesDiffer, Entries.names, Function.comp_def]
      | _ => rfl
    · rw [members_unmarked]
      exact List.forall_mem_map.2 fun w hw => ih w hw (hmembers w hw)

/-- Marks do not count in equality. -/
theorem equal_unmarked (hv : v.WellNamed) (hnan : v.WithoutNaN) : Equal v v.unmarked := by
  induction v using memberInduction with
  | step v ih =>
    obtain ⟨hself, hmembers⟩ := withoutNaN_iff.1 hnan
    refine (equal_iff hv hv.unmarked).2 ⟨?_, fun s => ?_⟩
    · have halike : v.alike v = true := alike_self_iff.2 hself
      cases v <;> exact halike
    · rw [step?_unmarked]
      cases hs : v.step? s with
      | none => exact .none
      | some w =>
        have hw := mem_members_of_step? hs
        exact .some (ih w hw (hv.step hs) (hmembers w hw))

end Value

namespace Json

/-! ### Texts -/

/-- A code unit that is no surrogate stands for a character by itself, whatever follows. -/
theorem readText_unit {a b c d : Char} {n : Nat} (h : codeUnit? a b c d = some n) (hn : n < 0xD800)
    (cs : List Char) : readText ('\\' :: 'u' :: a :: b :: c :: d :: cs) =
      (readText cs).map fun r => (Char.ofNat n :: r.1, r.2) := by
  have hpair : ¬ (0xD800 ≤ n ∧ n < 0xDC00) := by omega
  have hlow : ¬ (0xDC00 ≤ n ∧ n < 0xE000) := by omega
  have hany : ¬ (0xD800 ≤ n ∧ n < 0xE000) := by omega
  -- the reader looks ahead for a second code unit, which counts after a surrogate only
  rw [readText.eq_def]
  split
  · next heq => simp at heq
  · next heq =>
    cases heq
    simp only [h, if_neg hpair, if_neg hlow]
  · next heq =>
    cases heq
    simp only [h, if_neg hany]
  · next hno heq =>
    cases heq
    exact (hno a b c d cs rfl rfl).elim
  · next hno heq =>
    cases heq
    exact (hno _ _ rfl rfl).elim
  · next heq => cases heq

theorem codeUnit?_hexDigit :
    ∀ n < 32, codeUnit? '0' '0' (hexDigit (n / 16)) (hexDigit n) = some n := by
  decide

/-- A one-letter escape stands for its character. -/
theorem readText_short {e c : Char} (h : shortEscape? e = some c) (cs : List Char) :
    readText ('\\' :: e :: cs) = (readText cs).map fun r => (c :: r.1, r.2) := by
  have hu : e ≠ 'u' := by
    rintro rfl
    cases h
  rw [readText.eq_def]
  split
  · next heq => simp at heq
  · next heq =>
    cases heq
    exact (hu rfl).elim
  · next heq =>
    cases heq
    exact (hu rfl).elim
  · next heq =>
    cases heq
    simp only [h]
  · next hno heq =>
    cases heq
    exact (hno _ _ rfl rfl).elim
  · next heq => cases heq

/-- A character is read back from its escape. -/
theorem readText_escapeChar (c : Char) (cs : List Char) :
    readText (escapeChar c ++ cs) = (readText cs).map fun r => (c :: r.1, r.2) := by
  unfold escapeChar
  split_ifs with hquote hslash hback hfeed hline hreturn htab hcontrol
  · subst hquote
    exact readText_short rfl cs
  · subst hslash
    exact readText_short rfl cs
  · rw [← c.ofNat_toNat, hback]
    exact readText_short rfl cs
  · rw [← c.ofNat_toNat, hfeed]
    exact readText_short rfl cs
  · exact hline ▸ readText_short rfl cs
  · exact hreturn ▸ readText_short rfl cs
  · exact htab ▸ readText_short rfl cs
  · have hread := readText_unit (codeUnit?_hexDigit c.toNat hcontrol) (by omega) cs
    rwa [c.ofNat_toNat] at hread
  · rw [List.singleton_append, readText.eq_def]
    split <;> simp_all

/-- **A text is read back from its quoted form.** -/
theorem readText_flatMap_escapeChar (s rest : List Char) :
    readText (s.flatMap escapeChar ++ '"' :: rest) = some (s, rest) := by
  induction s with
  | nil => rfl
  | cons c s ih =>
    rw [List.flatMap_cons, List.append_assoc, readText_escapeChar, ih, Option.map_some]

/-! ### Numbers -/

/-- What may follow a document: the end, a comma or a closing bracket. -/
def Delimited (tail : List Char) : Prop := ∀ c ∈ tail.head?, c = ',' ∨ c = ']' ∨ c = '\x7d'

variable {tail : List Char}

theorem Delimited.eq (h : Delimited tail) :
    tail = [] ∨ ∃ c cs, tail = c :: cs ∧ (c = ',' ∨ c = ']' ∨ c = '\x7d') := by
  cases tail with
  | nil => exact .inl rfl
  | cons c cs => exact .inr ⟨c, cs, rfl, h c rfl⟩

theorem spanDigits_append (ht : Delimited tail) (cs : List Char) :
    spanDigits (cs ++ tail) = ((spanDigits cs).1, (spanDigits cs).2 ++ tail) := by
  induction cs with
  | nil => rcases ht.eq with rfl | ⟨_, _, rfl, rfl | rfl | rfl⟩ <;> rfl
  | cons c cs ih =>
    simp only [spanDigits, Prod.mk.injEq] at ih
    cases hc : c.isDigit <;> simp [spanDigits, hc, ih]

theorem readFractionPart_append (ht : Delimited tail) (cs : List Char) :
    readFractionPart (cs ++ tail) = (readFractionPart cs).map fun r => (r.1, r.2 ++ tail) := by
  cases cs with
  | nil => rcases ht.eq with rfl | ⟨_, _, rfl, rfl | rfl | rfl⟩ <;> rfl
  | cons c cs =>
    by_cases hc : c = '.'
    · subst hc
      simp only [List.cons_append, readFractionPart, spanDigits_append ht]
      split <;> rfl
    · simp [readFractionPart, hc]

theorem readExponentPart_append (ht : Delimited tail) (cs : List Char) :
    readExponentPart (cs ++ tail) = (readExponentPart cs).map fun r => (r.1, r.2 ++ tail) := by
  cases cs with
  | nil => rcases ht.eq with rfl | ⟨_, _, rfl, rfl | rfl | rfl⟩ <;> rfl
  | cons c cs =>
    simp only [List.cons_append, readExponentPart]
    by_cases hc : c = 'e' ∨ c = 'E'
    · rw [if_pos hc, if_pos hc]
      cases cs with
      | nil => rcases ht.eq with rfl | ⟨_, _, rfl, rfl | rfl | rfl⟩ <;> rfl
      | cons d ds =>
        by_cases hminus : d = '-'
        · subst hminus
          simp only [List.cons_append, spanDigits_append ht]
          split <;> rfl
        · by_cases hplus : d = '+'
          · subst hplus
            simp only [List.cons_append, spanDigits_append ht]
            split <;> rfl
          · have hspan := spanDigits_append ht (d :: ds)
            rw [List.cons_append] at hspan
            cases hds : (spanDigits (d :: ds)).1.isEmpty <;> simp_all
    · rw [if_neg hc, if_neg hc, Option.map_some, List.cons_append]

theorem readNumberText_minus (cs : List Char) :
    readNumberText ('-' :: cs) = readUnsigned true cs := rfl

theorem readNumberText_cons {c : Char} (hc : c ≠ '-') (cs : List Char) :
    readNumberText (c :: cs) = readUnsigned false (c :: cs) := by
  unfold readNumberText
  split
  · next heq =>
    cases heq
    exact (hc rfl).elim
  · rfl

theorem readUnsigned_append (ht : Delimited tail) (negative : Bool) (cs : List Char) :
    readUnsigned negative (cs ++ tail) =
      (readUnsigned negative cs).map fun r => (r.1, r.2 ++ tail) := by
  simp only [readUnsigned, spanDigits_append ht, readFractionPart_append ht]
  split
  · rfl
  · cases readFractionPart (spanDigits cs).2 with
    | none => rfl
    | some p =>
      simp only [Option.map_some, Option.bind_eq_bind, Option.bind_some,
        readExponentPart_append ht]
      cases readExponentPart p.2 <;> rfl

theorem readNumberText_append (ht : Delimited tail) (cs : List Char) :
    readNumberText (cs ++ tail) = (readNumberText cs).map fun r => (r.1, r.2 ++ tail) := by
  cases cs with
  | nil => rcases ht.eq with rfl | ⟨_, _, rfl, rfl | rfl | rfl⟩ <;> rfl
  | cons c cs =>
    by_cases hminus : c = '-'
    · subst hminus
      rw [List.cons_append, readNumberText_minus, readNumberText_minus, readUnsigned_append ht]
    · rw [List.cons_append, readNumberText_cons hminus, readNumberText_cons hminus,
        ← List.cons_append, readUnsigned_append ht]

/-! ### Documents -/

theorem skipSpace_skipSpace (cs : List Char) : skipSpace (skipSpace cs) = skipSpace cs :=
  List.dropWhile_idempotent isSpace cs

theorem skipSpace_append {cs : List Char} (h : skipSpace cs ≠ []) :
    skipSpace (cs ++ tail) = skipSpace cs ++ tail := by
  rw [skipSpace, List.dropWhile_append, if_neg (by rwa [List.isEmpty_iff]), skipSpace]

theorem skipSpace_append_of_eq_nil {cs : List Char} (h : skipSpace cs = []) :
    skipSpace (cs ++ tail) = skipSpace tail := by
  rw [skipSpace, List.dropWhile_append, if_pos (by rwa [List.isEmpty_iff]), skipSpace]

theorem readDoc_skipSpace (fuel depth : Nat) (cs : List Char) :
    readDoc fuel depth (skipSpace cs) = readDoc fuel depth cs := by
  cases fuel with
  | zero => rfl
  | succ fuel => rw [readDoc, readDoc, skipSpace_skipSpace]

theorem readItems_skipSpace (fuel depth : Nat) (cs : List Char) :
    readItems fuel depth (skipSpace cs) = readItems fuel depth cs := by
  cases fuel with
  | zero => rfl
  | succ fuel => rw [readItems, readItems, readDoc_skipSpace]

theorem readMembers_skipSpace (fuel depth : Nat) (cs : List Char) :
    readMembers fuel depth (skipSpace cs) = readMembers fuel depth cs := by
  cases fuel with
  | zero => rfl
  | succ fuel => rw [readMembers, readMembers, skipSpace_skipSpace]

/-- No document begins with a closing bracket. -/
theorem readItems_closed {fuel depth : Nat} {cs r : List Char} (h : skipSpace cs = ']' :: r) :
    readItems fuel depth cs = none := by
  cases fuel with
  | zero => rfl
  | succ fuel =>
    cases fuel with
    | zero => rfl
    | succ fuel =>
      rw [readItems, readDoc, h]
      rfl

theorem readDoc_list {fuel depth : Nat} {cs rest : List Char} {ds : List Doc}
    (h : readItems fuel depth cs = some (ds, rest)) :
    readDoc (fuel + 1) (depth + 1) ('[' :: cs) = some (.list ds, rest) := by
  have hopen : skipSpace ('[' :: cs) = '[' :: cs := rfl
  rw [readDoc, hopen]
  simp only
  split
  · next hclosed =>
    rw [readItems_closed hclosed] at h
    cases h
  · rw [readItems_skipSpace, h]
    rfl

theorem readDoc_object {fuel depth : Nat} {cs rest : List Char} {ms : List (String × Doc)}
    (h : readMembers fuel depth cs = some (ms, rest)) :
    readDoc (fuel + 1) (depth + 1) ('\x7b' :: cs) = some (.object ms, rest) := by
  have hopen : skipSpace ('\x7b' :: cs) = '\x7b' :: cs := rfl
  rw [readDoc, hopen]
  simp only
  split
  · next hclosed =>
    cases fuel with
    | zero => cases h
    | succ fuel =>
      rw [readMembers, hclosed] at h
      cases h
  · rw [readMembers_skipSpace, h]
    rfl

theorem readDoc_number {fuel depth : Nat} {cs rest : List Char} {t : NumberText}
    (h : readNumberText (skipSpace cs) = some (t, rest)) :
    readDoc (fuel + 1) depth cs = t.value.map fun n => (.num n, rest) := by
  rw [readDoc]
  split
  case h_7 => rw [h]
  all_goals
    next hcs =>
      rw [hcs] at h
      cases h

/-- A number document comes from a number text. -/
theorem exists_of_readDoc_num {fuel depth : Nat} {cs rest : List Char} {n : Numeral}
    (h : readDoc fuel depth cs = some (.num n, rest)) :
    ∃ t, readNumberText (skipSpace cs) = some (t, rest) ∧ t.value = some n := by
  cases fuel with
  | zero => cases h
  | succ fuel =>
    rw [readDoc] at h
    split at h
    case h_7 =>
      split at h
      · cases h
      · next t rest' hread =>
        obtain ⟨n', hn, heq⟩ := Option.map_eq_some_iff.1 h
        cases heq
        exact ⟨t, hread, hn⟩
    -- every other first character gives a document of another kind
    case h_5 | h_6 =>
      split at h
      · cases h
      · split at h <;> simp at h
    all_goals simp at h

/-! ### What is read from a text -/

/-- The text is read as the value wherever it stands, with no more steps than twice its length; no
more than blanks are left of it. -/
structure Reads (depth : Nat) (cs : List Char) (v : Value) : Prop where
  /-- There is something to read. -/
  nonempty : cs ≠ []
  /-- What is read in front of other texts. -/
  read : ∀ fuel, 2 * cs.length ≤ fuel → ∀ tail, Delimited tail →
    ∃ d rest, readDoc fuel depth (cs ++ tail) = some (d, rest) ∧ d.toValue = v ∧
      skipSpace rest = skipSpace tail

theorem Reads.of_exact {depth : Nat} {cs : List Char} {d : Doc} (hcs : cs ≠ [])
    (h : ∀ fuel tail, Delimited tail → 2 * cs.length ≤ fuel + 1 →
      readDoc (fuel + 1) depth (cs ++ tail) = some (d, tail)) :
    Reads depth cs d.toValue := by
  refine ⟨hcs, fun fuel hfuel tail ht => ⟨d, tail, ?_, rfl, rfl⟩⟩
  have hlen := List.length_pos_of_ne_nil hcs
  obtain ⟨fuel, rfl⟩ : ∃ f, fuel = f + 1 := Nat.exists_eq_add_one.2 (by omega)
  exact h fuel tail ht hfuel

theorem reads_null (depth : Nat) : Reads depth "null".toList .null :=
  .of_exact (d := .null) (by decide) fun _ _ _ _ => rfl

theorem reads_bool (depth : Nat) (b : Bool) :
    Reads depth (if b then "true" else "false").toList (.bool b) := by
  cases b with
  | true => exact .of_exact (d := .bool true) (by decide) fun _ _ _ _ => rfl
  | false => exact .of_exact (d := .bool false) (by decide) fun _ _ _ _ => rfl

theorem toList_quote (s : String) :
    (quote s).toList = '"' :: (s.toList.flatMap escapeChar ++ ['"']) := by
  rw [quote, String.toList_ofList, List.cons_append]

theorem reads_quote (depth : Nat) (s : String) : Reads depth (quote s).toList (.str s) := by
  rw [toList_quote]
  refine .of_exact (d := .str s) (List.cons_ne_nil _ _) fun fuel tail _ _ => ?_
  have hopen : skipSpace ('"' :: (s.toList.flatMap escapeChar ++ ['"']) ++ tail) =
      '"' :: (s.toList.flatMap escapeChar ++ '"' :: tail) := by
    rw [List.cons_append, List.append_assoc]
    rfl
  rw [readDoc, hopen]
  simp only [readText_flatMap_escapeChar, Option.map_some, String.ofList_toList]

/-- A text that is read as a number all by itself is read so in front of other texts. -/
theorem reads_number {depth fuel limit : Nat} {cs rest : List Char} {n : Numeral}
    (h : readDoc fuel limit cs = some (.num n, rest)) (hrest : skipSpace rest = []) :
    Reads depth cs (.num n.toNumber) := by
  obtain ⟨t, ht, hn⟩ := exists_of_readDoc_num h
  have hfront : skipSpace cs ≠ [] := by
    intro hnil
    rw [hnil] at ht
    cases ht
  have hcs : cs ≠ [] := by
    rintro rfl
    exact hfront rfl
  refine ⟨hcs, fun fuel hfuel tail htail => ⟨.num n, rest ++ tail, ?_, rfl, ?_⟩⟩
  · have hlen := List.length_pos_of_ne_nil hcs
    obtain ⟨fuel, rfl⟩ : ∃ f, fuel = f + 1 := Nat.exists_eq_add_one.2 (by omega)
    have hext : readNumberText (skipSpace (cs ++ tail)) = some (t, rest ++ tail) := by
      rw [skipSpace_append hfront, readNumberText_append htail, ht, Option.map_some]
    rw [readDoc_number hext, hn, Option.map_some]
  · exact skipSpace_append_of_eq_nil hrest

/-- A text that holds a number is read as a number document. -/
theorem reads_of_read? {depth : Nat} {s : String} {x : Number} (h : read? s = some (.num x)) :
    Reads depth s.toList (.num x) := by
  obtain ⟨d, hd, hvalue⟩ := Option.map_eq_some_iff.1 h
  unfold Doc.ofString? at hd
  split at hd
  · next d' rest hread =>
    obtain ⟨hrest, hd⟩ := Option.ite_none_right_eq_some.1 hd
    cases hd
    cases d with
    | num n =>
      cases hvalue
      exact reads_number hread (List.isEmpty_iff.1 hrest)
    | _ => cases hvalue
  · cases hd

/-! ### Lists and objects -/

/-- The text of the members of a list. -/
def itemsText (xs : List Value) : List Char := [','].intercalate (xs.map fun x => (write x).toList)

/-- An entry of a tree as it is written. -/
def entryText (e : String × Value) : List Char := (quote e.1).toList ++ ':' :: (write e.2).toList

/-- The text of the entries of a tree. -/
def entriesText (es : Entries) : List Char := [','].intercalate (es.map entryText)

theorem writeItems_eq (xs : List Value) : writeItems xs = xs.map write := by
  induction xs with
  | nil => rfl
  | cons x xs ih => rw [writeItems, ih, List.map_cons]

theorem writeEntries_eq (es : Entries) :
    writeEntries es = es.map fun e => quote e.1 ++ ":" ++ write e.2 := by
  induction es with
  | nil => rfl
  | cons e es ih => rw [writeEntries, ih, List.map_cons]

theorem toList_write_list (m : Nat) (xs : List Value) :
    (write (.list m xs)).toList = '[' :: (itemsText xs ++ [']']) := by
  rw [write, writeItems_eq, String.toList_append, String.toList_append, String.toList_intercalate,
    List.map_map]
  rfl

theorem toList_write_tree (m : Nat) (es : Entries) :
    (write (.tree m es)).toList = '\x7b' :: (entriesText es ++ ['\x7d']) := by
  rw [write, writeEntries_eq, String.toList_append, String.toList_append, String.toList_intercalate,
    List.map_map]
  have hentry : (String.toList ∘ fun e : String × Value => quote e.1 ++ ":" ++ write e.2) =
      entryText := by
    funext e
    simp [entryText]
  rw [hentry]
  rfl

/-- Parts with commas between them are read back one after the other, if each part is: in front of
a comma with what follows, in front of the closing bracket by itself. -/
theorem read_separated {α β γ : Type} (reader : Nat → List Char → Option (List β × List Char))
    {text : α → List Char} {close : Char} {f : β → γ} {g : α → γ} {as : List α} (has : as ≠ [])
    (hmore : ∀ a ∈ as, ∀ n, 2 * (text a).length ≤ n → ∀ tail, ∃ b, f b = g a ∧
      reader (n + 1) (text a ++ ',' :: tail) = (reader n tail).map fun r => (b :: r.1, r.2))
    (hlast : ∀ a ∈ as, ∀ n, 2 * (text a).length ≤ n → ∀ tail, ∃ b, f b = g a ∧
      reader (n + 1) (text a ++ close :: tail) = some ([b], tail))
    {fuel : Nat} (hfuel : 2 * ([','].intercalate (as.map text)).length + 1 ≤ fuel)
    (tail : List Char) :
    ∃ bs, reader fuel ([','].intercalate (as.map text) ++ close :: tail) = some (bs, tail) ∧
      bs.map f = as.map g := by
  -- one step for each part, and what is left of the steps is enough for the shorter rest
  induction as generalizing fuel with
  | nil => exact absurd rfl has
  | cons a as ih =>
    obtain ⟨n, rfl⟩ : ∃ n, fuel = n + 1 := Nat.exists_eq_add_one.2 (by omega)
    cases as with
    | nil =>
      rw [List.map_singleton, List.intercalate_singleton] at hfuel ⊢
      obtain ⟨b, hb, hread⟩ := hlast a List.mem_cons_self n (by omega) tail
      exact ⟨[b], hread, by rw [List.map_singleton, List.map_singleton, hb]⟩
    | cons a' as =>
      rw [List.map_cons, List.map_cons, List.intercalate_cons_cons, ← List.map_cons] at hfuel ⊢
      simp only [List.length_append, List.length_singleton] at hfuel
      have hrest : 2 * ([','].intercalate ((a' :: as).map text)).length + 1 ≤ n := by omega
      obtain ⟨bs, hbs, hvalues⟩ := ih (List.cons_ne_nil _ _)
        (fun c hc => hmore c (List.mem_cons_of_mem a hc))
        (fun c hc => hlast c (List.mem_cons_of_mem a hc)) hrest
      obtain ⟨b, hb, hread⟩ := hmore a List.mem_cons_self n (by omega)
        ([','].intercalate ((a' :: as).map text) ++ close :: tail)
      refine ⟨b :: bs, ?_, by rw [List.map_cons, hb, hvalues, ← List.map_cons]⟩
      rw [List.append_assoc, List.append_assoc, List.singleton_append, hread, hbs, Option.map_some]

theorem toValues_eq (ds : List Doc) : toValues ds = ds.map Doc.toValue := by
  induction ds with
  | nil => rfl
  | cons d ds ih => rw [toValues, ih, List.map_cons]

theorem toPairs_eq (ms : List (String × Doc)) :
    toPairs ms = ms.map fun p => (p.1, p.2.toValue) := by
  induction ms with
  | nil => rfl
  | cons p ms ih => rw [toPairs, ih, List.map_cons]

/-- The members of a list are read back. -/
theorem readItems_itemsText {depth : Nat} {xs : List Value} (hxs : xs ≠ [])
    (h : ∀ x ∈ xs, Reads depth (write x).toList x.unmarked) {fuel : Nat}
    (hfuel : 2 * (itemsText xs).length + 1 ≤ fuel) (tail : List Char) :
    ∃ ds, readItems fuel depth (itemsText xs ++ ']' :: tail) = some (ds, tail) ∧
      ds.map Doc.toValue = xs.map Value.unmarked := by
  refine read_separated (fun n => readItems n depth) hxs ?_ ?_ hfuel tail
  · intro x hx n hn tail
    obtain ⟨d, rest, hread, hd, hrest⟩ := (h x hx).read n hn (',' :: tail) (by simp [Delimited])
    have hcomma : skipSpace rest = ',' :: tail := hrest
    refine ⟨d, hd, ?_⟩
    simp only [readItems, hread, hcomma]
  · intro x hx n hn tail
    obtain ⟨d, rest, hread, hd, hrest⟩ := (h x hx).read n hn (']' :: tail) (by simp [Delimited])
    have hclose : skipSpace rest = ']' :: tail := hrest
    refine ⟨d, hd, ?_⟩
    simp only [readItems, hread, hclose]

theorem entryText_append (e : String × Value) (cs : List Char) :
    entryText e ++ cs =
      '"' :: (e.1.toList.flatMap escapeChar ++ '"' :: ':' :: ((write e.2).toList ++ cs)) := by
  simp [entryText, toList_quote]

/-- The entries of a tree are read back. -/
theorem readMembers_entriesText {depth : Nat} {es : Entries} (hes : es ≠ [])
    (h : ∀ e ∈ es, Reads depth (write e.2).toList e.2.unmarked) {fuel : Nat}
    (hfuel : 2 * (entriesText es).length + 1 ≤ fuel) (tail : List Char) :
    ∃ ms, readMembers fuel depth (entriesText es ++ '\x7d' :: tail) = some (ms, tail) ∧
      (ms.map fun p => (p.1, p.2.toValue)) = es.map fun e => (e.1, e.2.unmarked) := by
  have hquote : ∀ cs, skipSpace ('"' :: cs) = '"' :: cs := fun _ => rfl
  have hcolon : ∀ cs, skipSpace (':' :: cs) = ':' :: cs := fun _ => rfl
  have hvalue : ∀ (e : String × Value) (n : Nat), 2 * (entryText e).length ≤ n →
      2 * (write e.2).toList.length ≤ n := by
    intro e n hn
    simp only [entryText, List.length_append, List.length_cons] at hn
    omega
  refine read_separated (fun n => readMembers n depth) hes ?_ ?_ hfuel tail
  · intro e he n hn tail
    obtain ⟨d, rest, hread, hd, hrest⟩ :=
      (h e he).read n (hvalue e n hn) (',' :: tail) (by simp [Delimited])
    have hcomma : skipSpace rest = ',' :: tail := hrest
    refine ⟨(e.1, d), by rw [hd], ?_⟩
    simp only [entryText_append, readMembers, hquote, readText_flatMap_escapeChar, hcolon, hread,
      hcomma, String.ofList_toList]
  · intro e he n hn tail
    obtain ⟨d, rest, hread, hd, hrest⟩ :=
      (h e he).read n (hvalue e n hn) ('\x7d' :: tail) (by simp [Delimited])
    have hclose : skipSpace rest = '\x7d' :: tail := hrest
    refine ⟨(e.1, d), by rw [hd], ?_⟩
    simp only [entryText_append, readMembers, hquote, readText_flatMap_escapeChar, hcolon, hread,
      hclose, String.ofList_toList]

theorem reads_list {depth m : Nat} {xs : List Value}
    (h : ∀ x ∈ xs, Reads depth (write x).toList x.unmarked) :
    Reads (depth + 1) (write (.list m xs)).toList (Value.list m xs).unmarked := by
  rw [toList_write_list, Value.unmarked, Value.unmarkedItems_eq]
  refine ⟨List.cons_ne_nil _ _, fun fuel hfuel tail _ => ?_⟩
  simp only [List.length_cons, List.length_append] at hfuel
  obtain ⟨n, rfl⟩ : ∃ n, fuel = n + 1 := Nat.exists_eq_add_one.2 (by omega)
  rw [List.cons_append, List.append_assoc, List.singleton_append]
  by_cases hxs : xs = []
  · subst hxs
    exact ⟨.list [], tail, rfl, rfl, rfl⟩
  · have hn : 2 * (itemsText xs).length + 1 ≤ n := by omega
    obtain ⟨ds, hread, hds⟩ := readItems_itemsText hxs h hn tail
    refine ⟨.list ds, tail, readDoc_list hread, ?_, rfl⟩
    rw [Doc.toValue, toValues_eq, hds, Value.ofItems]

theorem reads_tree {depth m : Nat} {es : Entries} (hnames : es.names.Nodup)
    (h : ∀ e ∈ es, Reads depth (write e.2).toList e.2.unmarked) :
    Reads (depth + 1) (write (.tree m es)).toList (Value.tree m es).unmarked := by
  rw [toList_write_tree, Value.unmarked, Value.unmarkedEntries_eq]
  refine ⟨List.cons_ne_nil _ _, fun fuel hfuel tail _ => ?_⟩
  simp only [List.length_cons, List.length_append] at hfuel
  obtain ⟨n, rfl⟩ : ∃ n, fuel = n + 1 := Nat.exists_eq_add_one.2 (by omega)
  rw [List.cons_append, List.append_assoc, List.singleton_append]
  by_cases hes : es = []
  · subst hes
    exact ⟨.object [], tail, rfl, rfl, rfl⟩
  · have hn : 2 * (entriesText es).length + 1 ≤ n := by omega
    obtain ⟨ms, hread, hms⟩ := readMembers_entriesText hes h hn tail
    refine ⟨.object ms, tail, readDoc_object hread, ?_, rfl⟩
    rw [Doc.toValue, toPairs_eq, hms, Entries.ofPairs_of_nodup, Value.ofEntries]
    rwa [List.map_map]

/-- **A value is read back from its text, wherever the text stands.** -/
theorem reads_write {depth : Nat} {v : Value} (hdepth : v.depth ≤ depth) (hnames : v.WellNamed)
    (hnumbers : ∀ x ∈ v.numbers, read? (write (.num x)) = some (.num x)) :
    Reads depth (write v).toList v.unmarked := by
  induction v using Value.memberInduction generalizing depth with
  | step v ih =>
    -- what is asked of a value holds of its members
    have hmembers : ∀ w ∈ v.members, ∀ d, v.depth ≤ d + 1 →
        Reads d (write w).toList w.unmarked := by
      intro w hw d hd
      refine ih w hw ?_ ((Value.wellNamed_iff.1 hnames).2 w hw) fun x hx => hnumbers x ?_
      · exact Nat.le_of_lt_succ (Nat.lt_of_lt_of_le (Value.depth_lt_of_mem_members hw) hd)
      · rw [Value.numbers_eq]
        exact List.mem_append_right _ (List.mem_flatMap.2 ⟨w, hw, hx⟩)
    have hcomposite : 0 < v.depth → ∃ d, depth = d + 1 := fun hpos =>
      Nat.exists_eq_add_one.2 (Nat.lt_of_lt_of_le hpos hdepth)
    cases v with
    | null => exact reads_null depth
    | bool b => exact reads_bool depth b
    | num x => exact reads_of_read? (hnumbers x List.mem_cons_self)
    | str s => exact reads_quote depth s
    | list m xs =>
      obtain ⟨d, rfl⟩ := hcomposite (Nat.succ_pos _)
      exact reads_list fun x hx => hmembers x hx d hdepth
    | tree m es =>
      obtain ⟨d, rfl⟩ := hcomposite (Nat.succ_pos _)
      exact reads_tree hnames.names_nodup fun e he =>
        hmembers e.2 (List.mem_map_of_mem he) d hdepth

/-- **Values survive their JSON text.** A value whose numbers are finite and in which lists and
trees nest at most 127 deep is read back from its text as it was, but for the marks: every list and
tree is a new one. Kinds, texts, members, names and the order of names are the same, whatever
characters the texts and names are made of, and numbers have the same bits, provided that the text
of each of them is read back as this number. -/
theorem values_read_back {v : Value} (hdepth : v.depth ≤ maxDepth) (hnames : v.WellNamed)
    (hfinite : ∀ x ∈ v.numbers, x.isFinite = true)
    (hnumbers : ∀ x ∈ v.numbers, x.isFinite = true → read? (write (.num x)) = some (.num x)) :
    read? (write v) = some v.unmarked ∧ v.eqv v.unmarked = true := by
  have hreads : Reads maxDepth (write v).toList v.unmarked :=
    reads_write hdepth hnames fun x hx => hnumbers x hx (hfinite x hx)
  constructor
  · obtain ⟨d, rest, hread, hd, hrest⟩ :=
      hreads.read (2 * (write v).length + 2) (by rw [String.length_toList]; omega) []
        (by simp [Delimited])
    have hend : (skipSpace rest).isEmpty = true := by
      rw [hrest]
      rfl
    rw [List.append_nil] at hread
    rw [read?, Doc.ofString?, hread]
    simp only [if_pos hend, Option.map_some, hd]
  · exact Value.equal_unmarked hnames fun x hx => Number.isNaN_of_isFinite (hfinite x hx)

/-- Quotes, a backslash, control characters and a character beyond the basic plane, in names and
texts; lists and trees without members; numbers with a point, an exponent and a minus sign. -/
theorem values_read_back_nested :
    let v : Value := .tree 7
      [("\"k\\", .list 3 [.null, .str "a\n\x01\x7f/😀", .list 1 [], .tree 2 [], .bool true]),
        ("", .num ⟨0x3FF8000000000000⟩),
        ("😀\t", .tree 9 [("z", .num ⟨0x7E37E43C8800759C⟩), ("a", .num ⟨0x8000000000000000⟩)])]
    v.depth ≤ maxDepth ∧ v.WellNamed ∧ (∀ x ∈ v.numbers, x.isFinite = true) ∧
      (∀ x ∈ v.numbers, x.isFinite = true → read? (write (.num x)) = some (.num x)) ∧
      read? (write v) = some v.unmarked ∧ v.eqv v.unmarked = true := by
  intro v
  have hdepth : v.depth ≤ maxDepth := by decide +kernel
  have hnames : v.WellNamed := by decide +kernel
  have hfinite : ∀ x ∈ v.numbers, x.isFinite = true := by decide +kernel
  have hnumbers : ∀ x ∈ v.numbers, x.isFinite = true → read? (write (.num x)) = some (.num x) := by
    decide +kernel
  exact ⟨hdepth, hnames, hfinite, hnumbers, values_read_back hdepth hnames hfinite hnumbers⟩

end Json

end Scenario
