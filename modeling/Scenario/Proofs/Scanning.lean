import Scenario.Proofs.Containers
import Scenario.Proofs.WholeNumbers
import Scenario.Template

/-!
# How written tokens are scanned

The body of an expression is scanned twice: first for the brace that closes it, where quotes count,
and then for its tokens. `Scans ts w` says that the two agree on the text `w`: the search for the
brace passes over all of it, and it reads as the tokens `ts`. A text is put together from the right:
each lemma puts one token, as it is written, in front of what is scanned already.

A name and a number end where a character stands that cannot belong to them; so a lemma that puts
one in front asks for the first character of what follows.
-/

namespace Scenario

namespace Text

/-! ### Characters -/

/-- No range of one table meets a range of the other. -/
def Ranges.apart (table other : Ranges) : Bool :=
  table.all fun r => other.all fun q => r.2 < q.1 || q.2 < r.1

theorem Ranges.not_covers_of_apart {table other : Ranges} (h : table.apart other = true) {n : Nat}
    (hn : table.covers n = true) : other.covers n = false := by
  obtain ⟨r, hr, hlow, hhigh⟩ := (covers_iff table n).1 hn
  rw [Bool.eq_false_iff]
  intro hother
  obtain ⟨q, hq, hlow', hhigh'⟩ := (covers_iff other n).1 hother
  have hapart := List.all_eq_true.1 (List.all_eq_true.1 h r hr) q hq
  simp only [Bool.or_eq_true, decide_eq_true_eq] at hapart
  omega

/-- A letter is no blank. Within ASCII the characters are checked one by one, beyond it the ranges
are. -/
theorem isBlank_of_isLetter {c : Char} (h : isLetter c = true) : isBlank c = false := by
  by_cases hc : c.toNat < 128
  · have hascii : ∀ n < 128, isLetter (Char.ofNat n) = true → isBlank (Char.ofNat n) = false := by
      decide +kernel
    have heq : Char.ofNat c.toNat = c := Char.ofNat_toNat c
    have hn := hascii c.toNat hc
    rw [heq] at hn
    exact hn h
  · rw [isLetter, if_neg hc] at h
    have hapart : letterRanges.apart blankRanges = true := by decide +kernel
    exact Ranges.not_covers_of_apart hapart h

/-- A character that is neither a quote nor the one that is searched for. -/
def isPlain (stop c : Char) : Bool := c ≠ '\'' ∧ c ≠ '"' ∧ c ≠ stop

theorem isPlain_of {stop : Char} {p : Char → Bool}
    (hp : p '\'' = false ∧ p '"' = false ∧ p stop = false) {c : Char} (h : p c = true) :
    isPlain stop c = true := by
  rw [isPlain, decide_eq_true_eq]
  refine ⟨?_, ?_, ?_⟩
  · rintro rfl
    exact Bool.false_ne_true (hp.1.symm.trans h)
  · rintro rfl
    exact Bool.false_ne_true (hp.2.1.symm.trans h)
  · rintro rfl
    exact Bool.false_ne_true (hp.2.2.symm.trans h)

end Text

/-! ### The search for the end of a tag or an expression -/

/-- The search for a character outside quotes passes over a text, outside quotes before it and
after it. -/
def Passes (stop : Char) (v : List Char) : Prop :=
  ∀ rest, Text.splitUnquoted stop none (v ++ rest) =
    (Text.splitUnquoted stop none rest).map fun r => (v ++ r.1, r.2)

section Passing

variable {stop : Char}

theorem passes_nil : Passes stop [] := by
  intro rest
  simp

theorem Passes.append {v w : List Char} (hv : Passes stop v) (hw : Passes stop w) :
    Passes stop (v ++ w) := by
  intro rest
  rw [List.append_assoc, hv, hw, Option.map_map]
  simp [Function.comp_def]

/-- The search ends behind a text that it passes over, if the character stands there. -/
theorem Passes.split {v : List Char} (h : Passes stop v) (rest : List Char) :
    Text.splitUnquoted stop none (v ++ stop :: rest) = some (v, rest) := by
  rw [h, Text.splitUnquoted, if_pos ⟨rfl, rfl⟩, Option.map_some, List.append_nil]

theorem passes_plain {v : List Char} (h : ∀ c ∈ v, Text.isPlain stop c = true) :
    Passes stop v := by
  induction v with
  | nil => exact passes_nil
  | cons c v ih =>
    intro rest
    have hc : c ≠ '\'' ∧ c ≠ '"' ∧ c ≠ stop := of_decide_eq_true (h c List.mem_cons_self)
    have hv := ih (fun d hd => h d (List.mem_cons_of_mem c hd)) rest
    rw [List.cons_append, Text.splitUnquoted, if_neg (fun hstop => hc.2.2 hstop.2), Text.quoteAfter,
      if_neg (not_or.2 ⟨hc.1, hc.2.1⟩), hv, Option.map_map]
    rfl

/-- A quoted text, whatever stands in it. -/
theorem passes_quoted {q : Char} (hq : q = '\'' ∨ q = '"') (hstop : q ≠ stop) {s : List Char}
    (hs : q ∉ s) : Passes stop (q :: s ++ [q]) := by
  intro rest
  have hopen : Text.splitUnquoted stop none (q :: s ++ [q] ++ rest) =
      (Text.splitUnquoted stop (some q) (s ++ q :: rest)).map fun r => (q :: r.1, r.2) := by
    rw [List.cons_append, List.cons_append, Text.splitUnquoted,
      if_neg (fun h => hstop h.2), Text.quoteAfter, if_pos hq]
    simp
  have hclose : ∀ s : List Char, q ∉ s → Text.splitUnquoted stop (some q) (s ++ q :: rest) =
      (Text.splitUnquoted stop none rest).map fun r => (s ++ q :: r.1, r.2) := by
    intro s hs
    induction s with
    | nil => simp [Text.splitUnquoted, Text.quoteAfter]
    | cons c s ih =>
      rw [List.mem_cons, not_or] at hs
      simp [Text.splitUnquoted, Text.quoteAfter, Ne.symm hs.1, ih hs.2, Function.comp_def]
  rw [hopen, hclose s hs, Option.map_map]
  simp [Function.comp_def]

end Passing

/-- The brace that closes an expression is no quote. -/
theorem quote_ne_brace {q : Char} (hq : q = '\'' ∨ q = '"') : q ≠ '\x7d' := by
  obtain rfl | rfl := hq <;> decide

/-! ### One token -/

namespace Token

/-- The characters of marks. -/
def marks : List Char := ['.', '[', ']', '(', ')', '!', '=', '&', '|']

theorem single?_eq_none {c : Char} (h : c ∉ marks) : single? c = none := by
  simp only [marks, List.mem_cons, List.not_mem_nil, or_false, not_or] at h
  simp [single?, h]

theorem bind_double?_eq_none {c : Char} (h : c ∉ marks) (next : Option Char) :
    next.bind (double? c) = none := by
  simp only [marks, List.mem_cons, List.not_mem_nil, or_false, not_or] at h
  simp [double?, h]

/-- A text that reads as a name. -/
def isName (k : String) : Bool :=
  match k.toList with
  | [] => false
  | c :: cs => isNameStart c && cs.all isNameChar

/-- At `c :: cs` stands the token `t`, or a blank for none, and then `rest`. -/
def Reads (c : Char) (cs : List Char) (t : Option Token) (rest : List Char) : Prop :=
  ∃ r : Rest cs, read c cs = .ok (t, r) ∧ r.val = rest

theorem Reads.readAll {c : Char} {cs rest : List Char} {t : Option Token} (h : Reads c cs t rest) :
    readAll (c :: cs) = (Token.readAll rest).map (t.toList ++ ·) := by
  obtain ⟨r, hread, rfl⟩ := h
  rw [Token.readAll, hread]

theorem reads_blank {c : Char} (h : Text.isBlank c = true) (cs : List Char) :
    Reads c cs none cs := by
  refine ⟨⟨cs, Nat.le_refl _⟩, ?_, rfl⟩
  rw [read, if_pos h]

theorem reads_single {c : Char} {t : Token} (h : single? c = some t) (cs : List Char) :
    Reads c cs (some t) cs := by
  have hc : c ∈ marks := by
    by_contra hc
    rw [single?_eq_none hc] at h
    cases h
  have hblank : ∀ m ∈ marks, (!Text.isBlank m) = true := List.all_eq_true.1 (by decide)
  refine ⟨⟨cs, Nat.le_refl _⟩, ?_, rfl⟩
  rw [read, if_neg (by simpa using hblank c hc), h]

/-- The marks of two characters. -/
def pairs : List (Char × Char) := [('!', '='), ('=', '='), ('&', '&'), ('|', '|')]

theorem mem_pairs {c d : Char} {t : Token} (h : double? c d = some t) : (c, d) ∈ pairs := by
  by_contra hmem
  simp only [pairs, List.mem_cons, Prod.mk.injEq, List.not_mem_nil, or_false, not_or] at hmem
  simp [double?, hmem] at h

theorem reads_double {c d : Char} {t : Token} (h : double? c d = some t) (cs : List Char) :
    Reads c (d :: cs) (some t) cs := by
  have hmark : ∀ m ∈ pairs, decide (¬ Text.isBlank m.1 = true ∧ single? m.1 = none) = true :=
    List.all_eq_true.1 (by decide)
  obtain ⟨hblank, hsingle⟩ := of_decide_eq_true (hmark (c, d) (mem_pairs h))
  refine ⟨⟨cs, Nat.le_succ _⟩, ?_, rfl⟩
  rw [read, if_neg hblank, hsingle, List.head?_cons, Option.bind_some, h]
  rfl

/-- A negation, before anything but `=`. -/
theorem reads_not {d : Char} (h : d ≠ '=') (cs : List Char) :
    Reads '!' (d :: cs) (some not) (d :: cs) := by
  have hdouble : double? '!' d = none := by simp [double?, h]
  refine ⟨⟨d :: cs, Nat.le_refl _⟩, ?_, rfl⟩
  rw [read, if_neg (by decide), show single? '!' = none from rfl, List.head?_cons,
    Option.bind_some, hdouble]
  rfl

theorem readQuoted_append {q : Char} {s : List Char} (h : q ∉ s) (rest : List Char) :
    ∃ r, readQuoted q (s ++ q :: rest) = some (s, r) ∧ r.val = rest := by
  have hs : ∀ c ∈ s, (c != q) = true := by
    intro c hc
    exact bne_iff_ne.2 fun heq => h (heq ▸ hc)
  have htake : (s ++ q :: rest).takeWhile (· != q) = s := by
    simp [List.takeWhile_append_of_pos hs]
  have hdrop : (s ++ q :: rest).dropWhile (· != q) = q :: rest := by
    simp [List.dropWhile_append_of_pos hs]
  unfold readQuoted
  split
  · rename_i hnil
    cases hnil.symm.trans hdrop
  · rename_i d r hcons
    cases hcons.symm.trans hdrop
    exact ⟨_, by rw [htake], rfl⟩

theorem reads_text {q : Char} (hq : q = '\'' ∨ q = '"') {s : List Char} (hs : q ∉ s)
    (rest : List Char) : Reads q (s ++ q :: rest) (some (str (String.ofList s))) rest := by
  obtain ⟨r, hread, hrest⟩ := readQuoted_append hs rest
  have hmark : q ∉ marks ∧ ¬ Text.isBlank q = true := by
    obtain rfl | rfl := hq <;> decide
  refine ⟨r, ?_, hrest⟩
  rw [read, if_neg hmark.2, single?_eq_none hmark.1, bind_double?_eq_none hmark.1]
  simp only [if_pos hq, hread]

/-- A character that is neither blank nor quote nor of a mark begins a word. -/
theorem read_eq_readWord {c : Char} (hblank : Text.isBlank c = false) (hmark : c ∉ marks)
    (hquote : c ≠ '\'' ∧ c ≠ '"') (cs : List Char) : read c cs = readWord c cs := by
  rw [read, hblank, if_neg Bool.false_ne_true, single?_eq_none hmark, bind_double?_eq_none hmark]
  simp only [if_neg (not_or.2 hquote)]

/-- No character of a class stands at the front, so that a word of the class ends here. -/
def Breaks (p : Char → Bool) (cs : List Char) : Prop := ∀ c ∈ cs.head?, p c = false

theorem breaks_nil (p : Char → Bool) : Breaks p [] :=
  fun c hc => absurd hc (Option.not_mem_none c)

theorem breaks_cons {p : Char → Bool} {c : Char} (h : p c = false) (cs : List Char) :
    Breaks p (c :: cs) :=
  fun _ hd => Option.some.inj hd ▸ h

theorem Breaks.split {p : Char → Bool} {rest : List Char} (h : Breaks p rest) {cs : List Char}
    (hcs : ∀ c ∈ cs, p c = true) :
    (cs ++ rest).takeWhile p = cs ∧ (cs ++ rest).dropWhile p = rest := by
  have hrest : rest.takeWhile p = [] ∧ rest.dropWhile p = rest := by
    cases rest with
    | nil => exact ⟨rfl, rfl⟩
    | cons c rest =>
      have hc : p c = false := h c rfl
      simp [hc]
  rw [List.takeWhile_append_of_pos hcs, List.dropWhile_append_of_pos hcs, hrest.1, hrest.2]
  exact ⟨List.append_nil cs, rfl⟩

theorem reads_name {c : Char} {cs rest : List Char} (hc : isNameStart c = true)
    (hcs : ∀ d ∈ cs, isNameChar d = true) (hrest : Breaks isNameChar rest) :
    Reads c (cs ++ rest) (some (ident (String.ofList (c :: cs)))) rest := by
  have hother : ∀ d ∈ '-' :: '\'' :: '"' :: (marks ++ Text.digits), (!isNameStart d) = true :=
    List.all_eq_true.1 (by decide)
  have hne : c ∉ '-' :: '\'' :: '"' :: (marks ++ Text.digits) := by
    intro hmem
    simpa [hc] using hother c hmem
  simp only [List.mem_cons, List.mem_append, not_or] at hne
  obtain ⟨hminus, hsingle, hdouble, hmark, hdigits⟩ := hne
  have hblank : Text.isBlank c = false := by
    rw [isNameStart, Bool.or_eq_true, decide_eq_true_eq] at hc
    obtain hletter | rfl := hc
    · exact Text.isBlank_of_isLetter hletter
    · decide
  have hdigit : ¬ ((c.isDigit || (c = '-' && (cs ++ rest).head?.any Char.isDigit)) = true) := by
    simp only [hminus, decide_false, Bool.false_and, Bool.or_false]
    exact fun h => hdigits (Text.mem_digits h)
  have hnot : c ≠ '!' := fun h => hmark (h ▸ by decide)
  obtain ⟨htake, hdrop⟩ := hrest.split hcs
  refine ⟨restAfter isNameChar (cs ++ rest), ?_, hdrop⟩
  rw [read_eq_readWord hblank hmark ⟨hsingle, hdouble⟩, readWord, if_neg hnot, if_neg hdigit,
    if_pos hc, htake]

/-- A digit begins a number. -/
theorem read_digit {c : Char} (h : c.isDigit = true) (cs : List Char) :
    read c cs = readNumber c cs := by
  have hother : ∀ d ∈ Text.digits, decide (Text.isBlank d = false ∧ d ∉ marks ∧
      (d ≠ '\'' ∧ d ≠ '"') ∧ d ≠ '!') = true := List.all_eq_true.1 (by decide)
  obtain ⟨hblank, hmark, hquote, hnot⟩ := of_decide_eq_true (hother c (Text.mem_digits h))
  rw [read_eq_readWord hblank hmark hquote, readWord, if_neg hnot, h, Bool.true_or, if_pos rfl]

theorem isNumberChar_of_isDigit {c : Char} (h : c.isDigit = true) : isNumberChar c = true := by
  rw [isNumberChar, h, Bool.true_or]

theorem reads_number {n : Nat} {c : Char} {cs rest : List Char} (hcs : Nat.toDigits 10 n = c :: cs)
    (hrest : Breaks isNumberChar rest) :
    Reads c (cs ++ rest) (some (num (Number.ofNat n))) rest := by
  have hdigits : ∀ d ∈ c :: cs, d.isDigit = true := fun d hd =>
    Nat.isDigit_of_mem_toDigits (by decide) (by decide) (hcs ▸ hd)
  obtain ⟨htake, hdrop⟩ := hrest.split fun d hd =>
    isNumberChar_of_isDigit (hdigits d (List.mem_cons_of_mem c hd))
  have hvalue : Number.ofChars? (c :: cs) = some (Number.ofNat n) :=
    hcs ▸ Number.ofChars?_toDigits n
  refine ⟨restAfter isNumberChar (cs ++ rest), ?_, hdrop⟩
  rw [read_digit (hdigits c List.mem_cons_self), readNumber]
  simp only [htake, hvalue]

end Token

/-! ### Texts of tokens -/

/-- What may stand behind a text that is scanned: nothing, or the parenthesis that closes it. -/
def Text.IsEnd (rest : List Char) : Prop := ∀ c ∈ rest.head?, c = ')'

theorem Token.Breaks.append {p : Char → Bool} {w rest : List Char} (hw : Breaks p w)
    (hp : p ')' = false) (hrest : Text.IsEnd rest) : Breaks p (w ++ rest) := by
  cases w with
  | nil =>
    intro c hc
    rw [hrest c hc]
    exact hp
  | cons d w => exact hw

/-- The text `w` is passed over in the search for the closing brace, and reads as `ts`. -/
structure Scans (ts : List Token) (w : List Char) : Prop where
  /-- The tokens. -/
  reads : ∀ rest, Text.IsEnd rest → Token.readAll (w ++ rest) = (Token.readAll rest).map (ts ++ ·)
  /-- The closing brace is not in it. -/
  passes : Passes '\x7d' w

theorem scans_nil : Scans [] [] := by
  refine ⟨?_, passes_nil⟩
  intro rest _
  rw [List.nil_append]
  cases Token.readAll rest <;> rfl

namespace Scans

variable {ts us : List Token} {w v : List Char}

/-- Two texts, the second of which closes what the first one stands in. -/
theorem append (hw : Scans ts w) (hv : Scans us v) (h : Text.IsEnd v) :
    Scans (ts ++ us) (w ++ v) := by
  refine ⟨?_, hw.passes.append hv.passes⟩
  intro rest hrest
  have hends : Text.IsEnd (v ++ rest) := by
    cases v with
    | nil => exact hrest
    | cons c v => exact h
  rw [List.append_assoc, hw.reads _ hends, hv.reads rest hrest]
  cases Token.readAll rest with
  | error e => rfl
  | ok us' => exact congrArg Except.ok (List.append_assoc ts us us').symm

/-- One token, or a blank, in front of a text. -/
theorem cons (t : Option Token) (c : Char) (cs : List Char) (hw : Scans ts w)
    (hread : ∀ rest, Text.IsEnd rest → Token.Reads c (cs ++ (w ++ rest)) t (w ++ rest))
    (hpass : Passes '\x7d' (c :: cs)) : Scans (t.toList ++ ts) (c :: cs ++ w) := by
  refine ⟨?_, hpass.append hw.passes⟩
  intro rest hrest
  rw [List.append_assoc, List.cons_append, (hread rest hrest).readAll, hw.reads rest hrest]
  cases Token.readAll rest with
  | error e => rfl
  | ok us' => exact congrArg Except.ok (List.append_assoc t.toList ts us').symm

theorem blanks {bs : List Char} (hbs : ∀ b ∈ bs, Text.isBlank b = true) (hw : Scans ts w) :
    Scans ts (bs ++ w) := by
  induction bs with
  | nil => exact hw
  | cons b bs ih =>
    have hb : Text.isBlank b = true := hbs b List.mem_cons_self
    have hplain : Text.isPlain '\x7d' b = true := Text.isPlain_of (by decide) hb
    have hrest := ih fun d hd => hbs d (List.mem_cons_of_mem b hd)
    exact hrest.cons none b [] (fun rest _ => Token.reads_blank hb _)
      (passes_plain (by simpa using hplain))

theorem single {c : Char} {t : Token} (ht : Token.single? c = some t) (hw : Scans ts w) :
    Scans (t :: ts) (c :: w) := by
  have hplain : Text.isPlain '\x7d' c = true := by
    refine Text.isPlain_of (p := fun c => (Token.single? c).isSome) (by decide) ?_
    rw [ht, Option.isSome_some]
  exact hw.cons (some t) c [] (fun rest _ => Token.reads_single ht _)
    (passes_plain (by simpa using hplain))

theorem double {c d : Char} {t : Token} (ht : Token.double? c d = some t) (hw : Scans ts w) :
    Scans (t :: ts) (c :: d :: w) := by
  have hplain : ∀ m ∈ Token.pairs, [m.1, m.2].all (Text.isPlain '\x7d') = true :=
    List.all_eq_true.1 (by decide)
  exact hw.cons (some t) c [d] (fun rest _ => Token.reads_double ht _)
    (passes_plain (List.all_eq_true.1 (hplain (c, d) (Token.mem_pairs ht))))

/-- A negation of what stands in parentheses. -/
theorem not (hw : Scans ts ('(' :: w)) : Scans (.not :: ts) ('!' :: '(' :: w) :=
  hw.cons (some .not) '!' [] (fun rest _ => Token.reads_not (by decide) (w ++ rest))
    (passes_plain (List.all_eq_true.1 (by decide)))

theorem text {q : Char} (hq : q = '\'' ∨ q = '"') {s : List Char} (hs : q ∉ s) (hw : Scans ts w) :
    Scans (.str (String.ofList s) :: ts) (q :: s ++ q :: w) := by
  have hscan : Scans (.str (String.ofList s) :: ts) (q :: (s ++ [q]) ++ w) := by
    refine hw.cons (some (.str (String.ofList s))) q (s ++ [q]) ?_
      (passes_quoted hq (quote_ne_brace hq) hs)
    intro rest _
    rw [List.append_assoc, List.singleton_append]
    exact Token.reads_text hq hs (w ++ rest)
  simpa using hscan

theorem name {k : String} (hk : Token.isName k = true) (hbreak : Token.Breaks Token.isNameChar w)
    (hw : Scans ts w) : Scans (.ident k :: ts) (k.toList ++ w) := by
  obtain ⟨cs, rfl⟩ : ∃ cs, String.ofList cs = k := ⟨k.toList, String.ofList_toList⟩
  rw [Token.isName, String.toList_ofList] at hk
  rw [String.toList_ofList]
  cases cs with
  | nil => cases hk
  | cons c cs =>
    rw [Bool.and_eq_true, List.all_eq_true] at hk
    obtain ⟨hc, hcs⟩ := hk
    refine hw.cons (some (.ident _)) c cs ?_ (passes_plain ?_)
    · intro rest hrest
      exact Token.reads_name hc hcs (hbreak.append (by decide) hrest)
    · refine List.forall_mem_cons.2 ⟨Text.isPlain_of (by decide) hc, ?_⟩
      exact fun d hd => Text.isPlain_of (by decide) (hcs d hd)

theorem number (n : Nat) (hbreak : Token.Breaks Token.isNumberChar w) (hw : Scans ts w) :
    Scans (.num (Number.ofNat n) :: ts) (Nat.toDigits 10 n ++ w) := by
  have hplain : ∀ c ∈ Nat.toDigits 10 n, Text.isPlain '\x7d' c = true := fun c hc =>
    Text.isPlain_of (by decide) (Nat.isDigit_of_mem_toDigits (by decide) (by decide) hc)
  obtain ⟨c, cs, hcs⟩ := List.exists_cons_of_ne_nil (Nat.toDigits_ne_nil : Nat.toDigits 10 n ≠ [])
  rw [hcs] at hplain ⊢
  refine hw.cons (some (.num _)) c cs ?_ (passes_plain hplain)
  intro rest hrest
  exact Token.reads_number hcs (hbreak.append (by decide) hrest)

/-- A text in parentheses. -/
theorem parens (hw : Scans ts w) (hv : Scans us v) :
    Scans (.openParen :: ts ++ .closeParen :: us) ('(' :: w ++ ')' :: v) :=
  (hw.append (hv.single rfl) (by simp [Text.IsEnd])).single rfl

end Scans

end Scenario
