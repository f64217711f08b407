import Scenario.Proofs.Grammar
import Scenario.Proofs.Splitting

/-!
# Two scanners and their quotes

The text of a template is scanned twice. The search for the brace that closes an expression runs
over characters and keeps the quote that is open; the reader of tokens runs over the body that the
search has cut out, and takes a quoted text in one go. The main result is that the two agree
(`Template.quotes_agree`): wherever the reader stands, inside a quoted text or outside, the search
has the same quote open. So no body ends inside a quoted text, and a quote that is open in a body
is closed in it.

`Text.openQuote` is the quote that the search has open behind a text. `Token.Stands` is where the
reader of tokens stands in a text. The step of the argument is what one token takes off the text
(`Token.takes_read`); the induction is over the tokens that the reader has taken.
-/

namespace Scenario

/-! ### The quote that is open -/

namespace Text

/-- The quote that is open behind a text that begins outside quotes. -/
def openQuote (front : List Char) : Option Char := front.foldl quoteAfter none

theorem openQuote_append (front more : List Char) :
    openQuote (front ++ more) = more.foldl quoteAfter (openQuote front) :=
  List.foldl_append

/-- A quote stays open as long as it does not come again. -/
theorem foldl_quoteAfter_some {q : Char} {text : List Char} (h : q ∉ text) :
    text.foldl quoteAfter (some q) = some q := by
  induction text with
  | nil => rfl
  | cons c text ih =>
    rw [List.mem_cons, not_or] at h
    rw [List.foldl_cons, quoteAfter, if_neg (Ne.symm h.1), ih h.2]

/-- **The search ends at the first `stop` outside quotes.** -/
theorem splitUnquoted_eq_some_iff {stop : Char} {quote : Option Char}
    {cs before after : List Char} : splitUnquoted stop quote cs = some (before, after) ↔
      cs = before ++ stop :: after ∧ before.foldl quoteAfter quote = none ∧
        ∀ u v, before = u ++ stop :: v → u.foldl quoteAfter quote ≠ none := by
  induction cs generalizing quote before after with
  | nil => simp [splitUnquoted]
  | cons c cs ih =>
    rw [splitUnquoted]
    by_cases hc : quote = none ∧ c = stop
    · obtain ⟨rfl, rfl⟩ := hc
      rw [if_pos ⟨rfl, rfl⟩, Option.some.injEq, Prod.mk.injEq]
      constructor
      · rintro ⟨rfl, rfl⟩
        exact ⟨rfl, rfl, by simp⟩
      · rintro ⟨hsplit, -, hbefore⟩
        cases before with
        | nil => exact ⟨rfl, (List.cons.inj hsplit).2⟩
        | cons d before =>
          obtain ⟨rfl, -⟩ := List.cons.inj hsplit
          exact absurd rfl (hbefore [] before rfl)
    · rw [if_neg hc, Option.map_eq_some_iff]
      constructor
      · rintro ⟨r, hr, hr'⟩
        obtain ⟨rfl, rfl⟩ := Prod.mk.inj hr'
        obtain ⟨hsplit, hend, hbefore⟩ := ih.1 hr
        refine ⟨by rw [hsplit, List.cons_append], hend, ?_⟩
        intro u v huv
        cases u with
        | nil =>
          rintro rfl
          exact hc ⟨rfl, (List.cons.inj huv).1⟩
        | cons d u =>
          obtain ⟨rfl, hmore⟩ := List.cons.inj huv
          exact hbefore u v hmore
      · rintro ⟨hsplit, hend, hbefore⟩
        cases before with
        | nil => exact absurd ⟨hend, (List.cons.inj hsplit).1⟩ hc
        | cons d before =>
          obtain ⟨rfl, hmore⟩ := List.cons.inj hsplit
          refine ⟨(before, after), ih.2 ⟨hmore, hend, ?_⟩, rfl⟩
          intro u v huv
          exact hbefore (c :: u) v (by rw [huv, List.cons_append])

end Text

theorem Passes.openQuote {stop : Char} {v : List Char} (h : Passes stop v) :
    Text.openQuote v = none :=
  (Text.splitUnquoted_eq_some_iff.1 (h.split [])).2.1

/-! ### Where the reader of tokens stands -/

namespace Token

/-- Reading `cs`, the reader has taken `front` off as whole tokens and blanks, and `rest` is
left. -/
inductive Reaches (cs : List Char) : List Char → List Char → Prop where
  /-- Nothing is taken. -/
  | start : Reaches cs [] cs
  /-- One more token, or a blank, is taken. -/
  | next {front more word rest : List Char} {c : Char} {t : Option Token}
    (h : Reaches cs front (c :: more)) (hread : Reads c more t rest)
    (hword : c :: more = word ++ rest) : Reaches cs (front ++ word) rest

/-- Reading `cs`, the reader comes between `front` and `rest`: inside a text that a quote has
opened, or outside. -/
inductive Stands (cs : List Char) : Option Char → List Char → List Char → Prop where
  /-- Between tokens. -/
  | between {front rest : List Char} (h : Reaches cs front rest) : Stands cs none front rest
  /-- Within a token that is no quoted text. -/
  | within {front more v w rest : List Char} {c : Char} {t : Option Token}
    (h : Reaches cs front (c :: more)) (hread : Reads c more t rest)
    (ht : ∀ s, t ≠ some (str s)) (hword : c :: more = v ++ (w ++ rest)) :
    Stands cs none (front ++ v) (w ++ rest)
  /-- Behind a quote that begins a token, before it comes again. -/
  | inside {front text rest : List Char} {q : Char} (h : Reaches cs front (q :: (text ++ rest)))
    (hq : q = '\'' ∨ q = '"') (htext : q ∉ text) : Stands cs (some q) (front ++ q :: text) rest

variable {cs front rest : List Char}

theorem Reads.takes {c : Char} {t : Option Token} (h : Reads c cs t rest) :
    Takes (c :: cs) t rest := by
  obtain ⟨r, hread, rfl⟩ := h
  exact takes_read hread

theorem Reaches.eq_append (h : Reaches cs front rest) : cs = front ++ rest := by
  induction h with
  | start => rfl
  | next _ _ hword ih => rw [ih, hword, List.append_assoc]

/-- What the reader has taken is passed over by the search for the closing brace. -/
theorem Reaches.passes (h : Reaches cs front rest) : Passes '\x7d' front := by
  induction h with
  | start => exact passes_nil
  | @next front more word rest c t _ hread hword ih =>
    obtain ⟨word', hword', hpass⟩ := hread.takes.passes
    obtain rfl : word = word' := List.append_cancel_right (hword.symm.trans hword')
    exact ih.append hpass

theorem Stands.eq_append {q : Option Char} (h : Stands cs q front rest) : cs = front ++ rest := by
  cases h with
  | between h => exact h.eq_append
  | within h _ _ hword => rw [h.eq_append, hword, List.append_assoc]
  | inside h _ _ => rw [h.eq_append, List.append_assoc, List.cons_append]

/-- Outside quoted texts the search for the closing brace passes over all that lies behind. -/
theorem Stands.passes (h : Stands cs none front rest) : Passes '\x7d' front := by
  cases h with
  | between h => exact h.passes
  | @within front more v w rest c t h hread ht hword =>
    refine h.passes.append (passes_plain ?_)
    have htakes := hread.takes
    rw [hword, ← List.append_assoc] at htakes
    generalize hall : v ++ w ++ rest = all at htakes
    cases htakes with
    | quoted => exact absurd rfl (ht _)
    | plain _ hplain =>
      obtain rfl := List.append_cancel_right hall
      exact fun d hd => hplain d (List.mem_append_left w hd)

/-- **The reader and the search have the same quote open.** -/
theorem Stands.openQuote {q : Option Char} (h : Stands cs q front rest) :
    Text.openQuote front = q := by
  cases q with
  | none => exact h.passes.openQuote
  | some q =>
    cases h with
    | inside h hq htext =>
      rw [Text.openQuote_append, h.passes.openQuote, List.foldl_cons, Text.quoteAfter, if_pos hq,
        Text.foldl_quoteAfter_some htext]

/-- A quote that is open is closed further on, if none is open at the end. -/
theorem Stands.closed {q : Char} (h : Stands cs (some q) front rest)
    (hend : Text.openQuote cs = none) : q ∈ rest := by
  by_contra hrest
  rw [h.eq_append, Text.openQuote_append, h.openQuote, Text.foldl_quoteAfter_some hrest] at hend
  cases hend

theorem not_mem_of_readQuoted {q : Char} (h : readQuoted q cs = none) : q ∉ cs := by
  intro hmem
  unfold readQuoted at h
  split at h
  · rename_i hdrop
    simpa using List.dropWhile_eq_nil_iff.1 hdrop q hmem
  · cases h

theorem readWord_ne_openText (c : Char) (cs : List Char) : readWord c cs ≠ .error .openText := by
  unfold readWord readNumber
  split_ifs
  · simp
  · simp only
    split <;> simp
  · simp
  · simp

/-- A quote that is not closed is found at the quote. -/
theorem not_mem_of_read {c : Char} (h : read c cs = .error .openText) :
    (c = '\'' ∨ c = '"') ∧ c ∉ cs := by
  unfold read at h
  split at h
  · cases h
  · split at h
    · cases h
    · split at h
      · cases h
      · split at h
        · rename_i hquote
          split at h
          · cases h
          · rename_i hread
            exact ⟨hquote, not_mem_of_readQuoted hread⟩
        · exact absurd h (readWord_ne_openText c cs)

/-- Where the reader finds a quote that is not closed. -/
theorem exists_stands_of_readAll {all : List Char} (hreach : Reaches all front cs)
    (h : readAll cs = .error .openText) : ∃ q front', Stands all (some q) front' [] := by
  fun_induction readAll cs generalizing front with
  | case1 => cases h
  | case2 c cs e hread =>
    cases h
    obtain ⟨hq, hmem⟩ := not_mem_of_read hread
    exact ⟨c, front ++ c :: cs, .inside (by rwa [List.append_nil]) hq hmem⟩
  | case3 c cs t r hread ih =>
    obtain ⟨word, hword, -⟩ := (takes_read hread).passes
    exact ih (hreach.next ⟨r, hread, rfl⟩ hword) (eq_error_of_map h)

/-- **Quotes that are balanced are closed.** A text behind which no quote is open has no quoted text
that the reader finds unfinished. -/
theorem readAll_ne_openText (h : Text.openQuote cs = none) : readAll cs ≠ .error .openText := by
  intro hread
  obtain ⟨q, front', hstands⟩ := exists_stands_of_readAll .start hread
  exact List.not_mem_nil (hstands.closed h)

end Token

/-! ### Faults of an expression -/

/-- Whether a fault lies in the characters of a body, before there are tokens. -/
def ExprError.isLexical : ExprError → Bool
  | lexical _ _ => true
  | _ => false

namespace Expr

/-- A reader of tokens finds no fault in characters. -/
def Grammatical {α : Type} (r : Reader α) : Prop :=
  ∀ ts e, r ts = .error e → e.isLexical = false

variable {prime unary item inner : Reader Expr}

theorem grammatical_readSteps : Grammatical readSteps := by
  intro ts e h
  fun_induction readSteps ts generalizing e with
  | case1 t ts s hs ih => exact ih e (eq_error_of_map h)
  | case4 t ts s hs ih => exact ih e (eq_error_of_map h)
  | _ => cases h <;> rfl

theorem Grammatical.readPrime (h : Grammatical inner) : Grammatical (readPrime inner) := by
  intro ts e he
  unfold Expr.readPrime at he
  split at he
  · cases he
  · cases he
  · split at he
    · cases he
    · cases he
      rfl
    · rename_i hinner
      cases he
      exact h _ _ hinner
  · split at he
    · cases he
    · exact grammatical_readSteps _ _ (eq_error_of_map he)
  · cases he
    rfl

theorem Grammatical.readUnary (h : Grammatical prime) : Grammatical (readUnary prime) := by
  intro ts e he
  fun_induction Expr.readUnary prime ts with
  | case1 ts ih => exact ih (eq_error_of_map he)
  | case2 ts _ => exact h ts e he

theorem Grammatical.readEqual (h : Grammatical unary) : Grammatical (readEqual unary) := by
  intro ts e he
  unfold Expr.readEqual at he
  split at he
  · exact h _ _ (eq_error_of_map he)
  · exact h _ _ (eq_error_of_map he)
  · exact h _ _ he

theorem Grammatical.readMore (h : Grammatical item) (op : Token) (join : Expr → Expr → Expr)
    (n : Nat) (l : Expr) : Grammatical (readMore op join item n l) := by
  intro ts e he
  fun_induction Expr.readMore op join item n l ts with
  | case1 n l ts r rest hitem ih => exact ih he
  | case2 n l ts e' hitem =>
    cases he
    exact h ts e hitem
  | case3 => cases he
  | case4 => cases he

theorem Grammatical.readChain (h : Grammatical item) (op : Token) (join : Expr → Expr → Expr) :
    Grammatical (readChain op join item) := by
  intro ts e he
  unfold Expr.readChain at he
  split at he
  · exact h.readMore op join _ _ _ _ he
  · rename_i hitem
    cases he
    exact h _ _ hitem

theorem grammatical_readOr (depth : Nat) : Grammatical (readOr depth) := by
  induction depth with
  | zero =>
    intro ts e he
    cases he
    rfl
  | succ depth ih => exact (ih.readPrime.readUnary.readEqual.readChain .and and).readChain .or or

/-- A fault in the characters of a body is one that the reader of tokens finds there. -/
theorem readAll_of_ofBody {body : List Char} {fault : Token.Fault} {shown : String}
    (h : ofBody body = .error (.lexical fault shown)) : Token.readAll body = .error fault := by
  unfold ofBody at h
  split at h
  · rename_i ts hread
    unfold ofTokens at h
    split at h
    · cases h
    · split at h
      · cases h
      · cases h
      · rename_i hor
        cases h
        cases grammatical_readOr _ _ _ hor
  · rename_i hread
    cases h
    exact hread

end Expr

/-- Of two texts that begin the same longer text, one begins the other. -/
theorem Text.opening_or {a b c d : String} (h : a ++ c = b ++ d) :
    a.toList <+: b.toList ∨ b.toList <+: a.toList := by
  have hlist : a.toList ++ c.toList = b.toList ++ d.toList := by
    rw [← String.toList_append, h, String.toList_append]
  have ha : a.toList <+: b.toList ++ d.toList := ⟨c.toList, hlist⟩
  exact List.prefix_or_prefix_of_prefix ha (List.prefix_append _ _)

/-- How the message of a fault begins. -/
def ExprError.opening : ExprError → String
  | unterminated _ => "Unterminated expression in '"
  | lexical .openText _ => "Unterminated string literal in '"
  | lexical (.badNumber _) _ => "Invalid number '"
  | lexical (.badChar _) _ => "Unexpected character '"
  | empty => "Empty expression"
  | trailing _ => "Unexpected trailing input in '"
  | unexpected _ => "Unexpected token "
  | noProperty _ => "Expected property name after '.', found "
  | noIndex _ => "Expected index, found "
  | noCloseBracket => "Expected ']'"
  | noCloseParen => "Expected ')'"

theorem ExprError.exists_message (e : ExprError) : ∃ more, e.message = e.opening ++ more := by
  cases e with
  | unterminated source => exact ⟨source ++ "'", String.append_assoc⟩
  | lexical fault body =>
    cases fault with
    | openText => exact ⟨body ++ "'", String.append_assoc⟩
    | badNumber text =>
      refine ⟨text ++ ("' in '" ++ (body ++ "'")), ?_⟩
      simp only [← String.append_assoc]
      rfl
    | badChar c =>
      refine ⟨toString c ++ ("' in '" ++ (body ++ "'")), ?_⟩
      simp only [← String.append_assoc]
      rfl
  | empty => exact ⟨"", rfl⟩
  | trailing body => exact ⟨body ++ "'", String.append_assoc⟩
  | unexpected next => exact ⟨_, rfl⟩
  | noProperty next => exact ⟨_, rfl⟩
  | noIndex next => exact ⟨_, rfl⟩
  | noCloseBracket => exact ⟨"", rfl⟩
  | noCloseParen => exact ⟨"", rfl⟩

/-- Only the message about a quote that is not closed begins like that. -/
theorem ExprError.message_openText {e : ExprError} {rest : String}
    (h : e.message = "Unterminated string literal" ++ rest) :
    ∃ body, e = .lexical .openText body := by
  obtain ⟨more, hmore⟩ := e.exists_message
  have hopening := Text.opening_or (hmore.symm.trans h)
  clear h hmore
  cases e with
  | lexical fault body =>
    cases fault with
    | openText => exact ⟨body, rfl⟩
    | badNumber text => exact absurd hopening (by rw [opening]; decide)
    | badChar c => exact absurd hopening (by rw [opening]; decide)
  | _ => exact absurd hopening (by rw [opening]; decide)

/-! ### Expressions in a template -/

namespace Template

/-- An expression of the template `src` begins with a `${` that `cs` follows. -/
inductive Begins : List Char → List Char → Prop where
  /-- It stands at the front. -/
  | here (cs : List Char) : Begins ('$' :: '\x7b' :: cs) cs
  /-- It stands behind an escape. -/
  | escape {src cs : List Char} (h : Begins src cs) : Begins ('$' :: '$' :: '\x7b' :: src) cs
  /-- It stands behind another expression. -/
  | later {text body src cs : List Char}
    (hbody : Text.splitUnquoted '\x7d' none text = some (body, src)) (h : Begins src cs) :
    Begins ('$' :: '\x7b' :: text) cs
  /-- It stands behind a character that begins neither. -/
  | char {c : Char} {src cs : List Char}
    (hc : c = '$' → src.head? ≠ some '\x7b' ∧ ¬ ['$', '\x7b'] <+: src) (h : Begins src cs) :
    Begins (c :: src) cs

theorem mem_of_begins {src cs body rest : List Char} (h : Begins src cs)
    (hbody : Text.splitUnquoted '\x7d' none cs = some (body, rest)) : .body body ∈ pieces src := by
  induction h with
  | here cs =>
    rw [pieces_of_split hbody]
    exact List.mem_cons_self
  | escape _ ih =>
    rw [pieces]
    exact List.mem_cons_of_mem _ (List.mem_cons_of_mem _ (ih hbody))
  | later hsplit _ ih =>
    rw [pieces_of_split hsplit]
    exact List.mem_cons_of_mem _ (ih hbody)
  | char hc _ ih =>
    rw [pieces_char hc]
    exact List.mem_cons_of_mem _ (ih hbody)

theorem exists_begins_of_mem {src body : List Char} (h : .body body ∈ pieces src) :
    ∃ cs rest, Begins src cs ∧ Text.splitUnquoted '\x7d' none cs = some (body, rest) := by
  fun_induction pieces src with
  | case1 cs ih =>
    have hmem : Piece.body body ∈ pieces cs := by simpa using h
    obtain ⟨ds, rest, hbegins, hsplit⟩ := ih hmem
    exact ⟨ds, rest, .escape hbegins, hsplit⟩
  | case2 cs body' rest' hsplit' ih =>
    obtain hbody | hmem := List.mem_cons.1 h
    · cases hbody
      exact ⟨cs, rest', .here cs, hsplit'⟩
    · obtain ⟨ds, rest, hbegins, hsplit⟩ := ih hmem
      exact ⟨ds, rest, .later hsplit' hbegins, hsplit⟩
  | case3 cs hsplit' => simp at h
  | case4 c cs hescape hexpr ih =>
    have hmem : Piece.body body ∈ pieces cs := by simpa using h
    obtain ⟨ds, rest, hbegins, hsplit⟩ := ih hmem
    refine ⟨ds, rest, .char ?_ hbegins, hsplit⟩
    rintro rfl
    refine ⟨?_, ?_⟩
    · intro hhead
      obtain ⟨cs', rfl⟩ := List.head?_eq_some_iff.1 hhead
      exact hexpr cs' rfl rfl
    · rintro ⟨cs', rfl⟩
      exact hescape cs' rfl rfl
  | case5 => simp at h

/-- **The bodies of a template** are what the search cuts off where an expression begins. -/
theorem body_mem_pieces_iff {src body : List Char} :
    .body body ∈ pieces src ↔
      ∃ cs rest, Begins src cs ∧ Text.splitUnquoted '\x7d' none cs = some (body, rest) := by
  constructor
  · exact exists_begins_of_mem
  · rintro ⟨cs, rest, hbegins, hbody⟩
    exact mem_of_begins hbegins hbody

theorem openQuote_of_mem {src body : List Char} (h : .body body ∈ pieces src) :
    Text.openQuote body = none := by
  obtain ⟨cs, rest, -, hbody⟩ := exists_begins_of_mem h
  exact (Text.splitUnquoted_eq_some_iff.1 hbody).2.1

/-- Why a template does not compile: an expression is not closed, or its body holds none. -/
theorem assemble_error {source : String} {text : List Char} {ps : List Piece} {e : ExprError}
    (h : assemble source text ps = .error e) :
    e = .unterminated source ∨ ∃ body, .body body ∈ ps ∧ Expr.ofBody body = .error e := by
  fun_induction assemble source text ps with
  | case1 => cases h
  | case2 text c ps ih =>
    refine (ih h).imp_right ?_
    rintro ⟨body, hmem, hbody⟩
    exact ⟨body, List.mem_cons_of_mem _ hmem, hbody⟩
  | case3 text cs ps e' hbody =>
    cases h
    exact .inr ⟨cs, List.mem_cons_self, hbody⟩
  | case4 text cs ps e' hbody ih =>
    refine (ih (eq_error_of_map h)).imp_right ?_
    rintro ⟨body, hmem, hbody⟩
    exact ⟨body, List.mem_cons_of_mem _ hmem, hbody⟩
  | case5 text ps =>
    cases h
    exact .inl rfl

theorem compile_message {source : String} {e : ExprError} (h : compile source = .error e)
    (rest : String) : e.message ≠ "Unterminated string literal" ++ rest := by
  intro hmessage
  obtain ⟨shown, rfl⟩ := ExprError.message_openText hmessage
  obtain hunclosed | ⟨body, hmem, hbody⟩ := assemble_error (eq_error_of_map h)
  · cases hunclosed
  · exact Token.readAll_ne_openText (openQuote_of_mem hmem) (Expr.readAll_of_ofBody hbody)

/-- **The search for the closing brace and the reader of tokens agree on quotes.** In every body
that is cut out of a template the reader finds all quotes closed: wherever it stands, the search has
the same quote open, and that quote comes again. So no template fails to compile for a quote that is
not closed. From where an expression begins, the first brace outside quotes ends it: a brace that
the reader comes to inside a quoted text does not, and one that it comes to outside does. -/
theorem quotes_agree (source : String) :
    (∀ body, .body body ∈ pieces source.toList →
      Token.readAll body ≠ .error .openText ∧
      ∀ q front rest, Token.Stands body q front rest →
        Text.openQuote front = q ∧ ∀ c ∈ q, c ∈ rest) ∧
    (∀ e rest, compile source = .error e → e.message ≠ "Unterminated string literal" ++ rest) ∧
    (∀ body, .body body ∈ pieces source.toList ↔ ∃ cs rest, Begins source.toList cs ∧
      Text.splitUnquoted '\x7d' none cs = some (body, rest)) ∧
    ∀ cs, Begins source.toList cs →
      (∀ front back, Text.splitUnquoted '\x7d' none cs = some (front, back) ↔
        cs = front ++ '\x7d' :: back ∧ Text.openQuote front = none ∧
          ∀ u v, front = u ++ '\x7d' :: v → Text.openQuote u ≠ none) ∧
      ∀ q front back, Token.Stands cs q front ('\x7d' :: back) →
        (q = none → Text.splitUnquoted '\x7d' none cs = some (front, back)) ∧
        (q ≠ none → ∀ rest, Text.splitUnquoted '\x7d' none cs ≠ some (front, rest)) := by
  refine ⟨?_, fun e rest h => compile_message h rest, fun _ => body_mem_pieces_iff, ?_⟩
  · intro body hmem
    have hend := openQuote_of_mem hmem
    refine ⟨Token.readAll_ne_openText hend, ?_⟩
    intro q front rest hstands
    refine ⟨hstands.openQuote, ?_⟩
    rintro c rfl
    exact hstands.closed hend
  · intro cs _
    refine ⟨fun front back => Text.splitUnquoted_eq_some_iff, ?_⟩
    intro q front back hstands
    constructor
    · rintro rfl
      rw [hstands.eq_append]
      exact hstands.passes.split back
    · intro hq rest hsplit
      have hnone := (Text.splitUnquoted_eq_some_iff.1 hsplit).2.1
      exact hq (hstands.openQuote.symm.trans hnone)

/-- Behind an escape, a text in quotes with the other quote and a brace in it. -/
theorem quotes_agree_brace_in_text :
    let source := "$$\x7bé$\x7b\"ü'\x7d\"\x7d'"
    let body := ['"', 'ü', '\'', '\x7d', '"']
    let cs := body ++ ['\x7d', '\'']
    (Begins source.toList cs ∧ .body body ∈ pieces source.toList) ∧
      Token.readAll body ≠ .error .openText ∧
      (Token.Stands cs (some '"') ['"', 'ü', '\''] ['\x7d', '"', '\x7d', '\''] ∧
        ∀ rest, Text.splitUnquoted '\x7d' none cs ≠ some (['"', 'ü', '\''], rest)) ∧
      Token.Stands cs none body ['\x7d', '\''] ∧
        Text.splitUnquoted '\x7d' none cs = some (body, ['\'']) := by
  intro source body cs
  have hsource : source.toList = '$' :: '$' :: '\x7b' :: 'é' :: '$' :: '\x7b' :: cs := by decide
  have hbegins : Begins source.toList cs :=
    hsource ▸ .escape (.char (fun hc => absurd hc (by decide)) (.here cs))
  have hinside : Token.Stands cs (some '"') ([] ++ '"' :: ['ü', '\''])
      ['\x7d', '"', '\x7d', '\''] := .inside .start (.inr rfl) (by decide)
  have hread : Token.Reads '"' (['ü', '\'', '\x7d'] ++ '"' :: ['\x7d', '\''])
      (some (.str (String.ofList ['ü', '\'', '\x7d']))) ['\x7d', '\''] :=
    Token.reads_text (.inr rfl) (by decide) _
  have houtside : Token.Stands cs none body ['\x7d', '\''] := .between (.next .start hread rfl)
  obtain ⟨hclosed, -, hbodies, hends⟩ := quotes_agree source
  have hin := ((hends cs hbegins).2 _ _ _ hinside).2 (by simp)
  have hout := ((hends cs hbegins).2 _ _ _ houtside).1 rfl
  have hmem : .body body ∈ pieces source.toList := (hbodies body).2 ⟨cs, _, hbegins, hout⟩
  exact ⟨⟨hbegins, hmem⟩, (hclosed body hmem).1, ⟨hinside, hin⟩, houtside, hout⟩

end Template

end Scenario
