import Scenario.Proofs.Scanning
import Mathlib.Data.List.Forall2

/-!
# Expressions as they are written

An expression is written with every operand in parentheses: `(a.b) == (1)`. `Expr.Writable` says
which expressions have a written form, and `Expr.Written` what it looks like; a text may stand in
either quote that is not in it. The main result is that the template `${…}` around a written form
has that one expression as its only segment (`Template.compile_written`).

Two things are shown of a written form together, by induction on it: it scans as some tokens
(`Scans`), and the reader of expressions makes the expression of them (`Phrase`). The parentheses
make the second part a matter of what may follow: a phrase ends at the end of the tokens or at a
closing parenthesis, and an operand in parentheses ends by itself.
-/

namespace Scenario

/-! ### Written forms -/

/-- A text in which one of the two quotes does not occur. -/
def Text.LacksQuote (s : String) : Prop := '\'' ∉ s.toList ∨ '"' ∉ s.toList

/-- A text in quotes that do not occur in it. -/
def Text.InQuotes (s : String) (w : List Char) : Prop :=
  ∃ q, (q = '\'' ∨ q = '"') ∧ q ∉ s.toList ∧ w = q :: s.toList ++ [q]

namespace Step

/-- The steps that can be written. -/
def Writable : Step → Prop
  | key k => Text.LacksQuote k
  | index n => n < Nat.pow 2 53

/-- A step as it is written: `.k` for a name, `['k']` or `["k"]` for a text, `[n]` for an index. -/
inductive Written : Step → List Char → Prop where
  /-- A name after a point. -/
  | name {k : String} (hk : Token.isName k = true) : Written (key k) ('.' :: k.toList)
  /-- A text in brackets. -/
  | text {k : String} {w : List Char} (hw : Text.InQuotes k w) : Written (key k) ('[' :: w ++ [']'])
  /-- An index in brackets. -/
  | index (n : Nat) : Written (index n) ('[' :: Nat.toDigits 10 n ++ [']'])

end Step

/-- An operator between two expressions. -/
inductive Connective where
  /-- `==` -/
  | equal
  /-- `!=` -/
  | notEqual
  /-- `&&` -/
  | and
  /-- `||` -/
  | or
  deriving DecidableEq

namespace Connective

/-- The expression of two operands. -/
def join : Connective → Expr → Expr → Expr
  | equal => .compare false
  | notEqual => .compare true
  | and => .and
  | or => .or

/-- The two characters of the operator. -/
def mark : Connective → Char × Char
  | equal => ('=', '=')
  | notEqual => ('!', '=')
  | and => ('&', '&')
  | or => ('|', '|')

/-- The token of the operator. -/
def token : Connective → Token
  | equal => .equal
  | notEqual => .notEqual
  | and => .and
  | or => .or

theorem double?_mark (c : Connective) : Token.double? c.mark.1 c.mark.2 = some c.token := by
  cases c <;> rfl

end Connective

namespace Expr

/-- The expressions that can be written: literals but lists and trees, where texts lack a quote and
numbers are natural and exact; paths from a name that spells no literal; and what the operators make
of them. -/
def Writable : Expr → Prop
  | lit .null => True
  | lit (.bool _) => True
  | lit (.str s) => Text.LacksQuote s
  | lit (.num x) => ∃ n < Nat.pow 2 53, x = Number.ofNat n
  | lit _ => False
  | path head steps =>
    Token.isName head = true ∧ head ∉ ["true", "false", "null"] ∧ ∀ s ∈ steps, s.Writable
  | not e => e.Writable
  | compare _ l r => l.Writable ∧ r.Writable
  | and l r => l.Writable ∧ r.Writable
  | or l r => l.Writable ∧ r.Writable

/-- An expression as it is written, with each operand of an operator in parentheses. Blanks may
stand around an operator. -/
inductive Written : Expr → List Char → Prop where
  /-- The word for null. -/
  | null : Written (lit .null) "null".toList
  /-- The words for truth values. -/
  | bool (b : Bool) : Written (lit (.bool b)) (if b then "true" else "false").toList
  /-- A text in quotes. -/
  | str {s : String} {w : List Char} (hw : Text.InQuotes s w) : Written (lit (.str s)) w
  /-- A natural number in decimal digits. -/
  | num (n : Nat) : Written (lit (.num (Number.ofNat n))) (Nat.toDigits 10 n)
  /-- A name and the steps behind it. -/
  | path (head : String) {steps : List Step} {ws : List (List Char)}
      (hsteps : List.Forall₂ Step.Written steps ws) :
      Written (path head steps) (head.toList ++ ws.flatten)
  /-- A negation. -/
  | not {e : Expr} {w : List Char} (he : Written e w) : Written (not e) ('!' :: '(' :: w ++ [')'])
  /-- Two operands and the operator between them. -/
  | join (c : Connective) {l r : Expr} {w v before after : List Char} (hl : Written l w)
      (hr : Written r v) (hbefore : ∀ b ∈ before, Text.isBlank b = true)
      (hafter : ∀ b ∈ after, Text.isBlank b = true) :
      Written (c.join l r)
        ('(' :: w ++ ')' :: (before ++ c.mark.1 :: c.mark.2 :: (after ++ '(' :: v ++ [')'])))

end Expr

theorem Connective.writable_join (c : Connective) (l r : Expr) :
    (c.join l r).Writable ↔ l.Writable ∧ r.Writable := by
  cases c <;> exact Iff.rfl

/-! ### Every writable expression has a written form -/

theorem Text.LacksQuote.exists_inQuotes {s : String} (h : Text.LacksQuote s) :
    ∃ w, Text.InQuotes s w := by
  obtain h | h := h
  · exact ⟨_, '\'', .inl rfl, h, rfl⟩
  · exact ⟨_, '"', .inr rfl, h, rfl⟩

theorem Step.exists_written {steps : List Step} (h : ∀ s ∈ steps, s.Writable) :
    ∃ ws, List.Forall₂ Step.Written steps ws := by
  induction steps with
  | nil => exact ⟨[], .nil⟩
  | cons s steps ih =>
    obtain ⟨ws, hws⟩ := ih fun t ht => h t (List.mem_cons_of_mem s ht)
    have hs := h s List.mem_cons_self
    cases s with
    | key k =>
      obtain ⟨w, hw⟩ := Text.LacksQuote.exists_inQuotes hs
      exact ⟨_, .cons (.text hw) hws⟩
    | index n => exact ⟨_, .cons (.index n) hws⟩

theorem Expr.exists_written_join (c : Connective) {l r : Expr} (hl : ∃ w, l.Written w)
    (hr : ∃ v, r.Written v) : ∃ w, (c.join l r).Written w := by
  obtain ⟨w, hw⟩ := hl
  obtain ⟨v, hv⟩ := hr
  exact ⟨_, .join c hw hv (List.forall_mem_nil _) (List.forall_mem_nil _)⟩

theorem Expr.Writable.exists_written {e : Expr} (h : e.Writable) : ∃ w, e.Written w := by
  induction e with
  | lit v =>
    cases v with
    | null => exact ⟨_, .null⟩
    | bool b => exact ⟨_, .bool b⟩
    | str s =>
      obtain ⟨w, hw⟩ := Text.LacksQuote.exists_inQuotes h
      exact ⟨w, .str hw⟩
    | num x =>
      obtain ⟨n, -, rfl⟩ := h
      exact ⟨_, .num n⟩
    | list => exact h.elim
    | tree => exact h.elim
  | path head steps =>
    obtain ⟨ws, hws⟩ := Step.exists_written h.2.2
    exact ⟨_, .path head hws⟩
  | not e ih =>
    obtain ⟨w, hw⟩ := ih h
    exact ⟨_, .not hw⟩
  | compare negated l r ihl ihr =>
    cases negated
    · exact exists_written_join .equal (ihl h.1) (ihr h.2)
    · exact exists_written_join .notEqual (ihl h.1) (ihr h.2)
  | and l r ihl ihr => exact exists_written_join .and (ihl h.1) (ihr h.2)
  | or l r ihl ihr => exact exists_written_join .or (ihl h.1) (ihr h.2)

/-! ### Reading phrases -/

namespace Expr

/-- Where a phrase ends: at the end of the tokens or at a closing parenthesis. -/
def Stops (rest : List Token) : Prop := ∀ t ∈ rest.head?, t = .closeParen

/-- The tokens `ts` read as the expression `e`. -/
structure Phrase (e : Expr) (ts : List Token) : Prop where
  /-- There are some. -/
  nonempty : ts ≠ []
  /-- As deep as their number allows, they are read up to where a phrase may end. -/
  reads : ∀ depth rest, ts.length < depth → Stops rest →
    readOr depth (ts ++ rest) = .ok (e, rest)

section Levels

variable {item unary : Reader Expr} {op : Token} {combine : Expr → Expr → Expr}
  {ts rest rest' : List Token} {l r : Expr}

theorem readMore_stop (n : Nat) (h : rest.head? ≠ some op) :
    readMore op combine item n l rest = .ok (l, rest) := by
  cases n with
  | zero => rw [readMore.eq_def]
  | succ n =>
    cases rest with
    | nil => rfl
    | cons t rest =>
      have ht : t ≠ op := fun heq => h (congrArg some heq)
      rw [readMore, if_neg ht]

/-- A chain of one operand. -/
theorem readChain_one (h : item ts = .ok (l, rest)) (hrest : rest.head? ≠ some op) :
    readChain op combine item ts = .ok (l, rest) := by
  rw [readChain, h]
  exact readMore_stop _ hrest

/-- A chain of two operands. -/
theorem readChain_two (h : item ts = .ok (l, op :: rest)) (h' : item rest = .ok (r, rest'))
    (hrest : rest'.head? ≠ some op) :
    readChain op combine item ts = .ok (combine l r, rest') := by
  rw [readChain, h]
  simp only [List.length_cons, readMore, if_pos, h']
  exact readMore_stop _ hrest

theorem readEqual_one (h : unary ts = .ok (l, rest)) (hequal : rest.head? ≠ some .equal)
    (hnotEqual : rest.head? ≠ some .notEqual) : readEqual unary ts = .ok (l, rest) := by
  rw [readEqual, h]
  split
  · rename_i heq
    cases heq
    exact absurd rfl hequal
  · rename_i heq
    cases heq
    exact absurd rfl hnotEqual
  · rfl

theorem readEqual_two (negated : Bool)
    (h : unary ts = .ok (l, (bif negated then .notEqual else .equal) :: rest))
    (h' : unary rest = .ok (r, rest')) :
    readEqual unary ts = .ok (compare negated l r, rest') := by
  rw [readEqual, h]
  cases negated <;> exact congrArg (Except.map fun s => (compare _ l s.1, s.2)) h'

end Levels

theorem Stops.head_ne {rest : List Token} (h : Stops rest) {t : Token} (ht : t ≠ .closeParen) :
    rest.head? ≠ some t :=
  fun heq => ht (h t heq)

theorem stops_closeParen (rest : List Token) : Stops (.closeParen :: rest) :=
  fun _ ht => (Option.some.inj ht).symm

/-- The reader of what stands beside an operator. -/
abbrev readOperand (depth : Nat) : Reader Expr := readUnary (readPrime (readOr depth))

/-- What is read at the level of comparisons is a whole phrase where a phrase may end. -/
theorem readOr_of_readEqual {depth : Nat} {ts rest : List Token} {e : Expr} (hrest : Stops rest)
    (h : readEqual (readOperand depth) ts = .ok (e, rest)) :
    readOr (depth + 1) ts = .ok (e, rest) := by
  rw [readOr]
  exact readChain_one (readChain_one h (hrest.head_ne (by decide))) (hrest.head_ne (by decide))

/-- What is an operand is a phrase. -/
theorem phrase_of_operand {e : Expr} {ts : List Token} (hne : ts ≠ [])
    (h : ∀ depth rest, ts.length ≤ depth → Stops rest →
      readOperand depth (ts ++ rest) = .ok (e, rest)) : Phrase e ts := by
  refine ⟨hne, ?_⟩
  intro depth rest hdepth hrest
  obtain ⟨d, rfl⟩ : ∃ d, depth = d + 1 := ⟨depth - 1, by omega⟩
  have hread := h d rest (Nat.le_of_lt_succ hdepth) hrest
  exact readOr_of_readEqual hrest
    (readEqual_one hread (hrest.head_ne (by decide)) (hrest.head_ne (by decide)))

theorem phrase_num (x : Number) : Phrase (lit (.num x)) [.num x] :=
  phrase_of_operand (List.cons_ne_nil _ _) fun _ _ _ _ => rfl

theorem phrase_str (s : String) : Phrase (lit (.str s)) [.str s] :=
  phrase_of_operand (List.cons_ne_nil _ _) fun _ _ _ _ => rfl

theorem phrase_word {name : String} {v : Value} (h : keyword? name = some v) :
    Phrase (lit v) [.ident name] := by
  refine phrase_of_operand (List.cons_ne_nil _ _) fun depth rest _ _ => ?_
  rw [List.singleton_append, readOperand, readUnary, readPrime, h]
  intro ts hts
  cases hts

theorem readSteps_dot {t : Token} {s : Step} (h : dotStep? t = some s) {ts rest : List Token}
    {steps : List Step} (hsteps : readSteps ts = .ok (steps, rest)) :
    readSteps (.dot :: t :: ts) = .ok (s :: steps, rest) := by
  rw [readSteps, h]
  exact congrArg (Except.map fun r => (s :: r.1, r.2)) hsteps

theorem readSteps_bracket {t : Token} {s : Step} (h : bracketStep? t = some s)
    {ts rest : List Token} {steps : List Step} (hsteps : readSteps ts = .ok (steps, rest)) :
    readSteps (.openBracket :: t :: .closeBracket :: ts) = .ok (s :: steps, rest) := by
  rw [readSteps, h]
  exact congrArg (Except.map fun r => (s :: r.1, r.2)) hsteps

theorem keyword?_eq_none {head : String} (h : head ∉ ["true", "false", "null"]) :
    keyword? head = none := by
  simp only [List.mem_cons, List.not_mem_nil, or_false, not_or] at h
  simp [keyword?, h]

/-- A name that spells no literal begins a path. -/
theorem readOperand_path {head : String} (h : keyword? head = none) (depth : Nat)
    (ts : List Token) :
    readOperand depth (.ident head :: ts) =
      (readSteps ts).map fun r => (path head r.1, r.2) := by
  rw [readOperand, readUnary, readPrime, h]
  intro ts hts
  cases hts

theorem phrase_path {head : String} {steps : List Step} {ts : List Token}
    (h : keyword? head = none)
    (hsteps : ∀ rest, Stops rest → readSteps (ts ++ rest) = .ok (steps, rest)) :
    Phrase (path head steps) (.ident head :: ts) := by
  refine phrase_of_operand (List.cons_ne_nil _ _) fun depth rest _ hrest => ?_
  rw [List.cons_append, readOperand_path h, hsteps rest hrest]
  rfl

/-- A phrase in parentheses is an operand, whatever follows it. -/
theorem Phrase.operand {e : Expr} {ts : List Token} (h : Phrase e ts) {depth : Nat}
    (hdepth : ts.length < depth) (rest : List Token) :
    readOperand depth (.openParen :: (ts ++ .closeParen :: rest)) = .ok (e, rest) := by
  have hread := h.reads depth (.closeParen :: rest) hdepth (stops_closeParen rest)
  rw [readOperand, readUnary, readPrime, hread]
  intro ts hts
  cases hts

theorem Phrase.not {e : Expr} {ts : List Token} (h : Phrase e ts) :
    Phrase (not e) (.not :: .openParen :: (ts ++ [.closeParen])) := by
  refine phrase_of_operand (List.cons_ne_nil _ _) fun depth rest hdepth _ => ?_
  simp only [List.length_cons, List.length_append] at hdepth
  have hread := h.operand (show ts.length < depth by omega) rest
  simp only [List.cons_append, List.append_assoc, List.nil_append]
  rw [readOperand, readUnary]
  exact congrArg (Except.map fun s => (Expr.not s.1, s.2)) hread

theorem Phrase.join (c : Connective) {l r : Expr} {ts us : List Token} (hl : Phrase l ts)
    (hr : Phrase r us) :
    Phrase (c.join l r)
      (.openParen :: (ts ++ .closeParen :: c.token :: .openParen :: (us ++ [.closeParen]))) := by
  refine ⟨List.cons_ne_nil _ _, ?_⟩
  intro depth rest hdepth hrest
  simp only [List.length_cons, List.length_append] at hdepth
  obtain ⟨d, rfl⟩ : ∃ d, depth = d + 1 := ⟨depth - 1, by omega⟩
  simp only [List.cons_append, List.append_assoc, List.nil_append]
  have hleft := hl.operand (show ts.length < d by omega)
    (c.token :: .openParen :: (us ++ .closeParen :: rest))
  have hright := hr.operand (show us.length < d by omega) rest
  have hstop : ∀ t : Token, t ≠ .closeParen → rest.head? ≠ some t := fun t => hrest.head_ne
  have hright₁ := readEqual_one hright (hstop _ (by decide)) (hstop _ (by decide))
  -- An operator is read at its own level; the levels below give its operands.
  cases c with
  | equal => exact readOr_of_readEqual hrest (readEqual_two false hleft hright)
  | notEqual => exact readOr_of_readEqual hrest (readEqual_two true hleft hright)
  | and =>
    have hleft₁ := readEqual_one hleft (by simp [Connective.token]) (by simp [Connective.token])
    rw [readOr]
    exact readChain_one (readChain_two hleft₁ hright₁ (hstop _ (by decide))) (hstop _ (by decide))
  | or =>
    have hleft₁ := readEqual_one hleft (by simp [Connective.token]) (by simp [Connective.token])
    rw [readOr]
    exact readChain_two (readChain_one hleft₁ (by simp))
      (readChain_one hright₁ (hstop _ (by decide))) (hstop _ (by decide))

end Expr

/-! ### Written forms read back -/

theorem scans_inQuotes {s : String} {w : List Char} (h : Text.InQuotes s w) {ts : List Token}
    {v : List Char} (hv : Scans ts v) : Scans (.str s :: ts) (w ++ v) := by
  obtain ⟨q, hq, hs, rfl⟩ := h
  have hscan := hv.text hq hs
  rw [String.ofList_toList] at hscan
  simpa using hscan

/-- Steps scan as tokens that read as these steps; and the first character of theirs ends a name
that stands before it. -/
theorem Step.scans_written {steps : List Step} {ws : List (List Char)}
    (h : List.Forall₂ Step.Written steps ws) (hsteps : ∀ s ∈ steps, s.Writable) :
    Token.Breaks Token.isNameChar ws.flatten ∧ ∃ ts, Scans ts ws.flatten ∧
      ∀ rest, Expr.Stops rest → Expr.readSteps (ts ++ rest) = .ok (steps, rest) := by
  induction h with
  | nil =>
    refine ⟨Token.breaks_nil _, [], scans_nil, ?_⟩
    intro rest hrest
    cases rest with
    | nil => rfl
    | cons t rest =>
      rw [hrest t rfl]
      rfl
  | @cons s w steps ws hs _ ih =>
    obtain ⟨hbreak, ts, hscan, hread⟩ := ih fun t ht => hsteps t (List.mem_cons_of_mem s ht)
    have hwritable := hsteps s List.mem_cons_self
    rw [List.flatten_cons]
    cases hs with
    | @name k hk =>
      refine ⟨Token.breaks_cons (by decide) _, .dot :: .ident k :: ts, ?_, ?_⟩
      · exact (hscan.name hk hbreak).single rfl
      · exact fun rest hrest => Expr.readSteps_dot rfl (hread rest hrest)
    | @text k w hw =>
      refine ⟨Token.breaks_cons (by decide) _,
        .openBracket :: .str k :: .closeBracket :: ts, ?_, ?_⟩
      · have htext := (scans_inQuotes hw (hscan.single (c := ']') rfl)).single (c := '[') rfl
        simpa using htext
      · exact fun rest hrest => Expr.readSteps_bracket rfl (hread rest hrest)
    | index n =>
      have hindex : Expr.bracketStep? (.num (Number.ofNat n)) = some (.index n) := by
        rw [Expr.bracketStep?, Number.toIndex?_ofNat hwritable, Option.map_some]
      refine ⟨Token.breaks_cons (by decide) _,
        .openBracket :: .num (Number.ofNat n) :: .closeBracket :: ts, ?_, ?_⟩
      · have hclose : Scans (.closeBracket :: ts) (']' :: ws.flatten) := hscan.single rfl
        have hnumber := (hclose.number n (Token.breaks_cons (by decide) _)).single (c := '[') rfl
        simpa using hnumber
      · exact fun rest hrest => Expr.readSteps_bracket hindex (hread rest hrest)

/-- **A written form scans as tokens that read as the expression.** -/
theorem Expr.Written.scans {e : Expr} {w : List Char} (h : e.Written w) (he : e.Writable) :
    ∃ ts, Scans ts w ∧ Phrase e ts := by
  induction h with
  | null =>
    exact ⟨[.ident "null"], scans_nil.name (by decide) (Token.breaks_nil _), phrase_word rfl⟩
  | bool b =>
    cases b
    · exact ⟨[.ident "false"], scans_nil.name (by decide) (Token.breaks_nil _), phrase_word rfl⟩
    · exact ⟨[.ident "true"], scans_nil.name (by decide) (Token.breaks_nil _), phrase_word rfl⟩
  | @str s w hw =>
    have hscan := scans_inQuotes hw scans_nil
    rw [List.append_nil] at hscan
    exact ⟨[.str s], hscan, phrase_str s⟩
  | num n =>
    have hscan := scans_nil.number n (Token.breaks_nil _)
    rw [List.append_nil] at hscan
    exact ⟨_, hscan, phrase_num _⟩
  | path head hsteps =>
    obtain ⟨hname, hword, hwritable⟩ := he
    obtain ⟨hbreak, ts, hscan, hread⟩ := Step.scans_written hsteps hwritable
    exact ⟨_, hscan.name hname hbreak, phrase_path (keyword?_eq_none hword) hread⟩
  | not _ ih =>
    obtain ⟨ts, hscan, hphrase⟩ := ih he
    exact ⟨_, (hscan.parens scans_nil).not, hphrase.not⟩
  | @join c l r w v before after _ _ hbefore hafter ihl ihr =>
    obtain ⟨hwl, hwr⟩ := (c.writable_join l r).1 he
    obtain ⟨ts, hl, hphrase⟩ := ihl hwl
    obtain ⟨us, hr, hphrase'⟩ := ihr hwr
    have htail := ((hr.parens scans_nil).blanks hafter).double c.double?_mark
    have hscan := hl.parens (htail.blanks hbefore)
    exact ⟨_, by simpa using hscan, hphrase.join c hphrase'⟩

/-- The tokens of a body make up its expression. -/
theorem Expr.ofBody_of_scans {e : Expr} {ts : List Token} {w : List Char} (hscan : Scans ts w)
    (hphrase : e.Phrase ts) : ofBody w = .ok e := by
  have hread : Token.readAll w = .ok ts := by
    have hall := hscan.reads [] (fun c hc => absurd hc (Option.not_mem_none c))
    rw [List.append_nil, Token.readAll] at hall
    rw [hall]
    exact congrArg Except.ok (List.append_nil ts)
  have hor := hphrase.reads (ts.length + 1) [] (Nat.lt_succ_self _)
    (fun t ht => absurd ht (Option.not_mem_none t))
  rw [List.append_nil] at hor
  obtain ⟨t, ts, rfl⟩ := List.exists_cons_of_ne_nil hphrase.nonempty
  rw [ofBody, hread]
  simp only [ofTokens, hor]

namespace Template

/-- A body is what the search for the closing brace cuts off. -/
theorem pieces_of_split {cs body rest : List Char}
    (h : Text.splitUnquoted '\x7d' none cs = some (body, rest)) :
    pieces ('$' :: '\x7b' :: cs) = .body body :: pieces rest := by
  rw [pieces]
  split
  · rename_i body' rest' heq
    cases h.symm.trans heq
    rfl
  · rename_i heq
    cases h.symm.trans heq

/-- A body is read up to its brace. -/
theorem pieces_expr {body : List Char} (h : Passes '\x7d' body) (rest : List Char) :
    pieces ('$' :: '\x7b' :: (body ++ '\x7d' :: rest)) = .body body :: pieces rest :=
  pieces_of_split (h.split rest)

/-- A template that is one expression has one piece. -/
theorem pieces_body {w : List Char} (h : Passes '\x7d' w) :
    pieces ('$' :: '\x7b' :: (w ++ ['\x7d'])) = [.body w] := by
  rw [pieces_expr h, pieces]

/-- **Round trip of expressions.** Every writable expression has a written form; and each of its
written forms, between `${` and its brace, compiles to the template whose one segment is that very
expression, so that its value in every scope is the value of the expression there. -/
theorem compile_written {e : Expr} (h : e.Writable) :
    (∃ w, e.Written w) ∧ ∀ w, e.Written w →
      let source := String.ofList ('$' :: '\x7b' :: (w ++ ['\x7d']))
      ∃ t, compile source = .ok t ∧ t.source = source ∧ t.segments = [.expr e] ∧
        ∀ (a : Arena) (s : ScopeId), t.evalIn a s = e.eval (a.get? s) := by
  refine ⟨h.exists_written, ?_⟩
  intro w hw source
  obtain ⟨ts, hscan, hphrase⟩ := hw.scans h
  refine ⟨⟨source, [.expr e]⟩, ?_, rfl, rfl, fun _ _ => rfl⟩
  have hassemble : assemble source [] [.body w] = .ok [.expr e] := by
    rw [assemble, Expr.ofBody_of_scans hscan hphrase]
    rfl
  rw [compile, String.toList_ofList, pieces_body hscan.passes, hassemble]
  rfl

/-- Texts with braces, the other quote and operators in them, and a path with a step of each
kind. -/
theorem compile_written_quoting :
    let text := "it's \x7d ${x} && ("
    let steps := [.key "k", .key "say \"\x7d", .index 9007199254740991]
    let e := Expr.or (.not (.compare true (.lit (.str text)) (.path "été_1" steps)))
      (.and (.lit .null) (.lit (.num (Number.ofNat 42))))
    let w := "(!((\"it's \x7d ${x} && (\")!=(été_1.k['say \"\x7d'][9007199254740991])))" ++
      " || ((null)&&(42))"
    e.Writable ∧ e.Written w.toList ∧
      ∃ t, compile ("$\x7b" ++ w ++ "\x7d") = .ok t ∧ t.segments = [.expr e] := by
  intro text steps e w
  have hindex : 9007199254740991 < Nat.pow 2 53 := by decide
  have hsteps : ∀ s ∈ steps, s.Writable :=
    List.forall_mem_cons.2 ⟨.inl (by decide), List.forall_mem_cons.2 ⟨.inl (by decide),
      List.forall_mem_singleton.2 hindex⟩⟩
  have he : e.Writable :=
    ⟨⟨.inr (by decide), by decide +kernel, by decide, hsteps⟩, trivial, 42, by decide, rfl⟩
  have hw : e.Written w.toList := by
    have hleft : (Expr.lit (.str text)).Written _ := .str ⟨'"', .inr rfl, by decide, rfl⟩
    have hright : (Expr.path "été_1" steps).Written _ := .path "été_1" (.cons (.name (by decide))
      (.cons (.text ⟨'\'', .inl rfl, by decide, rfl⟩) (.cons (.index 9007199254740991) .nil)))
    have hnil : ∀ b ∈ [], Text.isBlank b = true := List.forall_mem_nil _
    have hblank : ∀ b ∈ [' '], Text.isBlank b = true := List.all_eq_true.1 (by decide)
    have hwhole : e.Written _ := .join .or (.not (.join .notEqual hleft hright hnil hnil))
      (.join .and .null (.num 42) hnil hnil) hblank hblank
    refine Eq.subst (motive := e.Written) ?_ hwhole
    decide +kernel
  have hsource : String.ofList ('$' :: '\x7b' :: (w.toList ++ ['\x7d'])) =
      "$\x7b" ++ w ++ "\x7d" := by
    decide +kernel
  obtain ⟨t, ht, -, hsegments, -⟩ := (compile_written he).2 w.toList hw
  exact ⟨he, hw, t, hsource ▸ ht, hsegments⟩

end Template

end Scenario
