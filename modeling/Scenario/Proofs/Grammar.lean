import Scenario.Proofs.RoundTrip

/-!
# The grammar of expressions

The types of this module are the grammar: a value of `Disjunction` is a derivation, `tokens` are
the tokens that it derives and `denoted` is the expression that it denotes.

    disjunction := conjunction ('||' conjunction)*
    conjunction := comparison ('&&' comparison)*
    comparison  := operand (('==' | '!=') operand)?
    operand     := '!' operand | prime
    prime       := number | text | 'true' | 'false' | 'null' | '(' disjunction ')' | path
    path        := name ('.' (name | index) | '[' (index | text) ']')*

The main result is that the reader of expressions accepts exactly what the grammar derives, that a
derivation is unique, and that the expression read is the one it denotes (`reads_exactly_derived`).

Each level of the grammar is seen the same way (`Level`), so that the two levels of chains are
treated once. Three properties are carried from level to level: what is read was derived
(`Level.Sound`), what is derived is read (`Level.Complete`), and it is derived in one way only
(`Level.Single`). The last two need to know what follows: a phrase ends where no token stands
that would link more to it. Parentheses lead back to the first level with fewer tokens.
-/

namespace Scenario.Grammar

open Scenario.Expr (Reader readSteps readPrime readUnary readEqual readMore readChain readOr)

/-! ### Derivations -/

/-- A number token that is an index: its number is a natural one. -/
structure Index where
  /-- The number of the token. -/
  number : Number
  /-- The natural number that it is. -/
  value : Nat
  /-- The two agree. -/
  isNatural : number.IsNatural value

/-- A step of a path after its head. -/
inductive Access where
  /-- `.` name -/
  | dotName (k : String)
  /-- `.` index -/
  | dotIndex (i : Index)
  /-- `[` index `]` -/
  | bracketIndex (i : Index)
  /-- `[` text `]` -/
  | bracketText (k : String)

/-- The names that are literals. -/
inductive Keyword where
  /-- `true` -/
  | true
  /-- `false` -/
  | false
  /-- `null` -/
  | null

/-- A keyword as it is spelled. -/
def Keyword.spelling : Keyword → String
  | true => "true"
  | false => "false"
  | null => "null"

mutual

/-- Conjunctions with `||` between them. -/
inductive Disjunction where
  /-- The first one and those that follow. -/
  | chain (first : Conjunction) (more : List Conjunction)

/-- Comparisons with `&&` between them. -/
inductive Conjunction where
  /-- The first one and those that follow. -/
  | chain (first : Comparison) (more : List Comparison)

/-- An operand, or two of them that are compared. -/
inductive Comparison where
  /-- An operand. -/
  | one (a : Operand)
  /-- Two operands with `==` between them, or with `!=` if `negated`. -/
  | two (negated : Bool) (a b : Operand)

/-- A phrase with any number of negations in front of it. -/
inductive Operand where
  /-- A negation. -/
  | not (a : Operand)
  /-- A phrase that is no operation. -/
  | prime (p : Prime)

/-- A phrase that is no operation. -/
inductive Prime where
  /-- A number. -/
  | number (x : Number)
  /-- A text. -/
  | text (s : String)
  /-- A name that is a literal. -/
  | keyword (k : Keyword)
  /-- A disjunction in parentheses. -/
  | parens (d : Disjunction)
  /-- A name that is no literal, and steps. -/
  | path (head : String) (free : ∀ k : Keyword, head ≠ k.spelling) (steps : List Access)

end

/-! ### What is derived -/

/-- The tokens of a step. -/
def Access.tokens : Access → List Token
  | dotName k => [.dot, .ident k]
  | dotIndex i => [.dot, .num i.number]
  | bracketIndex i => [.openBracket, .num i.number, .closeBracket]
  | bracketText k => [.openBracket, .str k, .closeBracket]

/-- The operator of a comparison. -/
def comparator (negated : Bool) : Token := bif negated then .notEqual else .equal

mutual

/-- The tokens that are derived. -/
def Disjunction.tokens : Disjunction → List Token
  | .chain first more => first.tokens ++ Conjunction.tokensAfter more

/-- The tokens of conjunctions, each after its `||`. -/
def Conjunction.tokensAfter : List Conjunction → List Token
  | [] => []
  | c :: cs => .or :: (c.tokens ++ Conjunction.tokensAfter cs)

/-- The tokens that are derived. -/
def Conjunction.tokens : Conjunction → List Token
  | .chain first more => first.tokens ++ Comparison.tokensAfter more

/-- The tokens of comparisons, each after its `&&`. -/
def Comparison.tokensAfter : List Comparison → List Token
  | [] => []
  | c :: cs => .and :: (c.tokens ++ Comparison.tokensAfter cs)

/-- The tokens that are derived. -/
def Comparison.tokens : Comparison → List Token
  | .one a => a.tokens
  | .two negated a b => a.tokens ++ comparator negated :: b.tokens

/-- The tokens that are derived. -/
def Operand.tokens : Operand → List Token
  | .not a => .not :: a.tokens
  | .prime p => p.tokens

/-- The tokens that are derived. -/
def Prime.tokens : Prime → List Token
  | .number x => [.num x]
  | .text s => [.str s]
  | .keyword k => [.ident k.spelling]
  | .parens d => .openParen :: (d.tokens ++ [.closeParen])
  | .path head _ steps => .ident head :: steps.flatMap Access.tokens

end

/-! ### What is denoted -/

/-- The step of a path. -/
def Access.denoted : Access → Step
  | dotName k => .key k
  | dotIndex i => .index (min i.value Number.maxIndex)
  | bracketIndex i => .index (min i.value Number.maxIndex)
  | bracketText k => .key k

/-- The literal that a keyword is. -/
def Keyword.denoted : Keyword → Value
  | true => .bool .true
  | false => .bool .false
  | null => .null

mutual

/-- The expression that is denoted. -/
def Disjunction.denoted : Disjunction → Expr
  | .chain first more => Conjunction.joined first.denoted more

/-- What stands before, joined with one conjunction after the other. -/
def Conjunction.joined : Expr → List Conjunction → Expr
  | l, [] => l
  | l, c :: cs => Conjunction.joined (.or l c.denoted) cs

/-- The expression that is denoted. -/
def Conjunction.denoted : Conjunction → Expr
  | .chain first more => Comparison.joined first.denoted more

/-- What stands before, joined with one comparison after the other. -/
def Comparison.joined : Expr → List Comparison → Expr
  | l, [] => l
  | l, c :: cs => Comparison.joined (.and l c.denoted) cs

/-- The expression that is denoted. -/
def Comparison.denoted : Comparison → Expr
  | .one a => a.denoted
  | .two negated a b => .compare negated a.denoted b.denoted

/-- The expression that is denoted. -/
def Operand.denoted : Operand → Expr
  | .not a => .not a.denoted
  | .prime p => p.denoted

/-- The expression that is denoted. -/
def Prime.denoted : Prime → Expr
  | .number x => .lit (.num x)
  | .text s => .lit (.str s)
  | .keyword k => .lit k.denoted
  | .parens d => d.denoted
  | .path head _ steps => .path head (steps.map Access.denoted)

end

/-! ### Sequences of parts -/

/-- Parts that follow each other are told apart, if each part begins with a link, what follows them
does not, and the first part can be told from the rest. -/
theorem flatMap_append_inj {α : Type} {tokens : α → List Token} {links rest rest' : List Token}
    (hlink : ∀ a ts, ∃ t ∈ links, (tokens a ++ ts).head? = some t)
    (hrest : ∀ t ∈ rest.head?, t ∉ links) (hrest' : ∀ t ∈ rest'.head?, t ∉ links) {as : List α}
    (hpart : ∀ a ∈ as, ∀ (b : α) (as' bs' : List α),
      tokens a ++ (as'.flatMap tokens ++ rest) = tokens b ++ (bs'.flatMap tokens ++ rest') →
        a = b ∧ as'.flatMap tokens ++ rest = bs'.flatMap tokens ++ rest') :
    ∀ {bs : List α}, as.flatMap tokens ++ rest = bs.flatMap tokens ++ rest' →
      as = bs ∧ rest = rest' := by
  induction as with
  | nil =>
    intro bs h
    cases bs with
    | nil => exact ⟨rfl, h⟩
    | cons b bs =>
      obtain ⟨t, ht, hhead⟩ := hlink b (bs.flatMap tokens ++ rest')
      rw [List.flatMap_cons, List.append_assoc] at h
      exact absurd ht (hrest t ((congrArg List.head? h).trans hhead))
  | cons a as ih =>
    intro bs h
    rw [List.flatMap_cons, List.append_assoc] at h
    cases bs with
    | nil =>
      obtain ⟨t, ht, hhead⟩ := hlink a (as.flatMap tokens ++ rest)
      exact absurd ht (hrest' t ((congrArg List.head? h.symm).trans hhead))
    | cons b bs =>
      rw [List.flatMap_cons, List.append_assoc] at h
      obtain ⟨rfl, hmore⟩ := hpart a List.mem_cons_self b as bs h
      obtain ⟨rfl, hends⟩ := ih (fun c hc => hpart c (List.mem_cons_of_mem a hc)) hmore
      exact ⟨rfl, hends⟩

/-! ### Levels -/

/-- A level of the grammar. -/
structure Level (α : Type) where
  /-- The tokens of a phrase. -/
  tokens : α → List Token
  /-- The expression of a phrase. -/
  denoted : α → Expr
  /-- The tokens that link more to a phrase. -/
  links : List Token

namespace Level

/-- A phrase may end before these tokens. -/
def EndsAt {α : Type} (L : Level α) (rest : List Token) : Prop := ∀ t ∈ rest.head?, t ∉ L.links

/-- What is read was derived. -/
def Sound {α : Type} (L : Level α) (read : Reader Expr) : Prop :=
  ∀ {ts rest : List Token} {e : Expr}, read ts = .ok (e, rest) →
    ∃ a, ts = L.tokens a ++ rest ∧ e = L.denoted a

/-- What is derived, with fewer than `n` tokens, is read. -/
def Complete {α : Type} (L : Level α) (n : Nat) (read : Reader Expr) : Prop :=
  ∀ (a : α) (rest : List Token), (L.tokens a).length < n → L.EndsAt rest →
    read (L.tokens a ++ rest) = .ok (L.denoted a, rest)

/-- What is derived, with fewer than `n` tokens, is derived in one way. -/
def Single {α : Type} (L : Level α) (n : Nat) : Prop :=
  ∀ (a b : α) (rest rest' : List Token), (L.tokens a).length < n → L.EndsAt rest →
    L.EndsAt rest' → L.tokens a ++ rest = L.tokens b ++ rest' → a = b ∧ rest = rest'

variable {α β : Type} {L : Level α}

theorem endsAt_nil : L.EndsAt [] := by
  intro t ht
  cases ht

theorem endsAt_cons {t : Token} (h : t ∉ L.links) (ts : List Token) : L.EndsAt (t :: ts) := by
  intro u hu
  cases hu
  exact h

theorem EndsAt.head_ne {rest : List Token} (h : L.EndsAt rest) {t : Token} (ht : t ∈ L.links) :
    rest.head? ≠ some t :=
  fun heq => h t heq ht

theorem EndsAt.mono {M : Level β} (hlinks : L.links ⊆ M.links) {rest : List Token}
    (h : M.EndsAt rest) : L.EndsAt rest :=
  fun t ht hmem => h t ht (hlinks hmem)

/-! ### Chains -/

/-- The tokens of phrases, each after the operator. -/
def tokensAfter (L : Level α) (op : Token) (as : List α) : List Token :=
  as.flatMap fun a => op :: L.tokens a

/-- What stands before, joined with one phrase after the other: a chain associates to the left. -/
def joined (L : Level α) (combine : Expr → Expr → Expr) (l : Expr) (as : List α) : Expr :=
  as.foldl (fun l a => combine l (L.denoted a)) l

/-- The phrases of `M` are chains of phrases of `L` with an operator between them. -/
structure Chains (L : Level α) (M : Level β) (op : Token) (combine : Expr → Expr → Expr)
    (build : α → List α → β) : Prop where
  /-- Every phrase is a chain. -/
  cases : ∀ b, ∃ a as, b = build a as
  /-- The tokens. -/
  tokens : ∀ a as, M.tokens (build a as) = L.tokens a ++ L.tokensAfter op as
  /-- The expression. -/
  denoted : ∀ a as, M.denoted (build a as) = L.joined combine (L.denoted a) as
  /-- The operator links more to the chain, beside what links more to its last part. -/
  links : M.links = op :: L.links
  /-- The operator links nothing to a part. -/
  apart : op ∉ L.links

section Chains

variable {M : Level β} {op : Token} {combine : Expr → Expr → Expr} {build : α → List α → β}
  {read : Reader Expr} {n : Nat}

theorem readMore_sound (hread : L.Sound read) :
    ∀ {k : Nat} {l e : Expr} {ts rest : List Token},
      readMore op combine read k l ts = .ok (e, rest) →
        ∃ as, ts = L.tokensAfter op as ++ rest ∧ e = L.joined combine l as := by
  intro k
  induction k with
  | zero =>
    intro l e ts rest h
    cases h
    exact ⟨[], rfl, rfl⟩
  | succ k ih =>
    intro l e ts rest h
    cases ts with
    | nil =>
      cases h
      exact ⟨[], rfl, rfl⟩
    | cons t ts =>
      rw [readMore] at h
      split at h
      · rename_i ht
        split at h
        · rename_i r ts' hitem
          obtain ⟨a, rfl, rfl⟩ := hread hitem
          obtain ⟨as, rfl, rfl⟩ := ih h
          exact ⟨a :: as, by simp [tokensAfter, ht], rfl⟩
        · cases h
      · cases h
        exact ⟨[], rfl, rfl⟩

theorem Chains.sound (hchain : Chains L M op combine build) (hread : L.Sound read) :
    M.Sound (readChain op combine read) := by
  intro ts rest e h
  rw [readChain] at h
  split at h
  · rename_i l ts' hitem
    obtain ⟨a, rfl, rfl⟩ := hread hitem
    obtain ⟨as, rfl, rfl⟩ := readMore_sound hread h
    exact ⟨build a as, by rw [hchain.tokens, List.append_assoc], (hchain.denoted a as).symm⟩
  · cases h

/-- A part of a chain ends before the operator and where the chain ends. -/
theorem Chains.part_endsAt (hchain : Chains L M op combine build) {rest : List Token}
    (hrest : M.EndsAt rest) (as : List α) : L.EndsAt (L.tokensAfter op as ++ rest) := by
  cases as with
  | nil => exact hrest.mono (hchain.links ▸ List.subset_cons_self op L.links)
  | cons a as => exact endsAt_cons hchain.apart _

theorem Chains.stops (hchain : Chains L M op combine build) {rest : List Token}
    (hrest : M.EndsAt rest) : rest.head? ≠ some op :=
  hrest.head_ne (hchain.links ▸ List.mem_cons_self)

theorem length_tokensAfter_cons (a : α) (as : List α) :
    (L.tokensAfter op (a :: as)).length =
      (L.tokens a).length + (L.tokensAfter op as).length + 1 := by
  simp only [tokensAfter, List.flatMap_cons, List.length_append, List.length_cons]
  omega

theorem Chains.readMore_complete (hchain : Chains L M op combine build)
    (hread : L.Complete n read) {rest : List Token} (hrest : M.EndsAt rest) (as : List α) :
    ∀ (k : Nat) (l : Expr), (L.tokensAfter op as).length < n →
      (L.tokensAfter op as).length ≤ k →
      readMore op combine read k l (L.tokensAfter op as ++ rest) =
        .ok (L.joined combine l as, rest) := by
  induction as with
  | nil =>
    intro k l _ _
    exact Expr.readMore_stop k (hchain.stops hrest)
  | cons a as ih =>
    intro k l hn hk
    rw [length_tokensAfter_cons] at hn hk
    obtain ⟨k, rfl⟩ : ∃ m, k = m + 1 := ⟨k - 1, by omega⟩
    have hitem := hread a (L.tokensAfter op as ++ rest) (by omega) (hchain.part_endsAt hrest as)
    have htokens : L.tokensAfter op (a :: as) ++ rest =
        op :: (L.tokens a ++ (L.tokensAfter op as ++ rest)) := by
      simp [tokensAfter]
    rw [htokens, readMore, if_pos rfl, hitem]
    exact ih k (combine l (L.denoted a)) (by omega) (by omega)

theorem Chains.complete (hchain : Chains L M op combine build) (hread : L.Complete n read) :
    M.Complete n (readChain op combine read) := by
  intro b rest hn hrest
  obtain ⟨a, as, rfl⟩ := hchain.cases b
  rw [hchain.tokens, List.length_append] at hn
  have hitem := hread a (L.tokensAfter op as ++ rest) (by omega) (hchain.part_endsAt hrest as)
  rw [hchain.tokens, hchain.denoted, List.append_assoc, readChain, hitem]
  exact hchain.readMore_complete hread hrest as _ _ (by omega) (by simp)

theorem length_lt_of_mem {a : α} {as : List α} (ha : a ∈ as)
    (hn : (L.tokensAfter op as).length < n) : (L.tokens a).length < n := by
  have hpart : (op :: L.tokens a).Sublist (L.tokensAfter op as) := by
    rw [tokensAfter, List.flatMap]
    exact List.sublist_flatten_of_mem (List.mem_map_of_mem ha)
  have hle := hpart.length_le
  rw [List.length_cons] at hle
  omega

theorem Chains.single (hchain : Chains L M op combine build) (hitem : L.Single n) :
    M.Single n := by
  intro c d rest rest' hn hrest hrest' h
  obtain ⟨a, as, rfl⟩ := hchain.cases c
  obtain ⟨b, bs, rfl⟩ := hchain.cases d
  rw [hchain.tokens, List.length_append] at hn
  rw [hchain.tokens, hchain.tokens, List.append_assoc, List.append_assoc] at h
  obtain ⟨rfl, hmore⟩ := hitem a b _ _ (by omega) (hchain.part_endsAt hrest as)
    (hchain.part_endsAt hrest' bs) h
  have hpart : ∀ a' ∈ as, ∀ (b' : α) (as' bs' : List α),
      op :: L.tokens a' ++ (L.tokensAfter op as' ++ rest) =
        op :: L.tokens b' ++ (L.tokensAfter op bs' ++ rest') →
      a' = b' ∧ L.tokensAfter op as' ++ rest = L.tokensAfter op bs' ++ rest' := by
    intro a' ha' b' as' bs' heq
    have hshort : (L.tokensAfter op as).length < n := by omega
    exact hitem a' b' _ _ (length_lt_of_mem ha' hshort)
      (hchain.part_endsAt hrest as') (hchain.part_endsAt hrest' bs') (List.cons.inj heq).2
  have hop : op ∈ M.links := hchain.links ▸ List.mem_cons_self
  obtain ⟨rfl, hends⟩ :=
    flatMap_append_inj (fun _ _ => ⟨op, hop, rfl⟩) hrest hrest' hpart hmore
  exact ⟨rfl, hends⟩

end Chains

end Level

/-! ### Paths -/

/-- The tokens that link a step to a path. -/
def accessLinks : List Token := [.dot, .openBracket]

theorem Index.eq_of_number {i j : Index} (h : i.number = j.number) : i = j := by
  obtain ⟨x, n, hx⟩ := i
  obtain ⟨y, m, hy⟩ := j
  cases h
  have hvalue : n = m := hx.truncate_eq.symm.trans hy.truncate_eq
  subst hvalue
  rfl

theorem toIndex?_number (i : Index) : i.number.toIndex? = some (min i.value Number.maxIndex) :=
  Number.toIndex?_eq_some_iff.2 ⟨i.value, i.isNatural, rfl⟩

theorem exists_index {x : Number} {k : Nat} (h : x.toIndex? = some k) :
    ∃ i : Index, i.number = x ∧ min i.value Number.maxIndex = k := by
  obtain ⟨n, hn, rfl⟩ := Number.toIndex?_eq_some_iff.1 h
  exact ⟨⟨x, n, hn⟩, rfl, rfl⟩

theorem exists_dot_access {t : Token} {s : Step} (h : Expr.dotStep? t = some s) :
    ∃ a : Access, a.tokens = [.dot, t] ∧ a.denoted = s := by
  cases t with
  | ident k => exact ⟨.dotName k, rfl, Option.some.inj h⟩
  | num x =>
    obtain ⟨k, hk, rfl⟩ := Option.map_eq_some_iff.1 h
    obtain ⟨i, rfl, rfl⟩ := exists_index hk
    exact ⟨.dotIndex i, rfl, rfl⟩
  | _ => cases h

theorem exists_bracket_access {t : Token} {s : Step} (h : Expr.bracketStep? t = some s) :
    ∃ a : Access, a.tokens = [.openBracket, t, .closeBracket] ∧ a.denoted = s := by
  cases t with
  | str k => exact ⟨.bracketText k, rfl, Option.some.inj h⟩
  | num x =>
    obtain ⟨k, hk, rfl⟩ := Option.map_eq_some_iff.1 h
    obtain ⟨i, rfl, rfl⟩ := exists_index hk
    exact ⟨.bracketIndex i, rfl, rfl⟩
  | _ => cases h

theorem readSteps_sound {ts rest : List Token} {steps : List Step}
    (h : readSteps ts = .ok (steps, rest)) :
    ∃ as : List Access, ts = as.flatMap Access.tokens ++ rest ∧
      steps = as.map Access.denoted := by
  fun_induction readSteps ts generalizing steps with
  | case1 t ts s hs ih =>
    obtain ⟨⟨steps', rest'⟩, hmore, heq⟩ := exists_of_map_eq_ok h
    cases heq
    obtain ⟨as, rfl, rfl⟩ := ih hmore
    obtain ⟨a, ha, rfl⟩ := exists_dot_access hs
    exact ⟨a :: as, by simp [ha], rfl⟩
  | case4 t ts s hs ih =>
    obtain ⟨⟨steps', rest'⟩, hmore, heq⟩ := exists_of_map_eq_ok h
    cases heq
    obtain ⟨as, rfl, rfl⟩ := ih hmore
    obtain ⟨a, ha, rfl⟩ := exists_bracket_access hs
    exact ⟨a :: as, by simp [ha], rfl⟩
  | case9 =>
    cases h
    exact ⟨[], rfl, rfl⟩
  | _ => cases h

theorem readSteps_end {rest : List Token} (hdot : rest.head? ≠ some .dot)
    (hbracket : rest.head? ≠ some .openBracket) : readSteps rest = .ok ([], rest) := by
  cases rest with
  | nil => rfl
  | cons t rest =>
    cases t with
    | dot => exact absurd rfl hdot
    | openBracket => exact absurd rfl hbracket
    | _ => rfl

theorem readSteps_complete {rest : List Token} (hdot : rest.head? ≠ some .dot)
    (hbracket : rest.head? ≠ some .openBracket) (as : List Access) :
    readSteps (as.flatMap Access.tokens ++ rest) = .ok (as.map Access.denoted, rest) := by
  induction as with
  | nil => exact readSteps_end hdot hbracket
  | cons a as ih =>
    rw [List.flatMap_cons, List.append_assoc, List.map_cons]
    cases a with
    | dotName k => exact Expr.readSteps_dot rfl ih
    | dotIndex i =>
      refine Expr.readSteps_dot ?_ ih
      rw [Expr.dotStep?, toIndex?_number, Option.map_some, Access.denoted]
    | bracketIndex i =>
      refine Expr.readSteps_bracket ?_ ih
      rw [Expr.bracketStep?, toIndex?_number, Option.map_some, Access.denoted]
    | bracketText k => exact Expr.readSteps_bracket rfl ih

/-- Each step is told by its first two tokens. -/
theorem access_single {a b : Access} {ts us : List Token}
    (h : a.tokens ++ ts = b.tokens ++ us) : a = b ∧ ts = us := by
  cases a <;> cases b <;> simp [Access.tokens] at h ⊢
  · exact h
  · exact ⟨Index.eq_of_number h.1, h.2⟩
  · exact ⟨Index.eq_of_number h.1, h.2⟩
  · exact h

theorem accesses_single {rest rest' : List Token} (hrest : ∀ t ∈ rest.head?, t ∉ accessLinks)
    (hrest' : ∀ t ∈ rest'.head?, t ∉ accessLinks) {as bs : List Access}
    (h : as.flatMap Access.tokens ++ rest = bs.flatMap Access.tokens ++ rest') :
    as = bs ∧ rest = rest' := by
  have hlink : ∀ (a : Access) (ts : List Token),
      ∃ t ∈ accessLinks, (a.tokens ++ ts).head? = some t := by
    intro a ts
    cases a <;> simp [Access.tokens, accessLinks]
  exact flatMap_append_inj hlink hrest hrest' (fun _ _ _ _ _ => access_single) h

/-! ### The levels of the grammar -/

/-- Phrases that are no operation. -/
def primes : Level Prime := ⟨Prime.tokens, Prime.denoted, accessLinks⟩

/-- Operands. -/
def operands : Level Operand := ⟨Operand.tokens, Operand.denoted, accessLinks⟩

/-- Comparisons. -/
def comparisons : Level Comparison :=
  ⟨Comparison.tokens, Comparison.denoted, .equal :: .notEqual :: accessLinks⟩

/-- Conjunctions. -/
def conjunctions : Level Conjunction :=
  ⟨Conjunction.tokens, Conjunction.denoted, .and :: comparisons.links⟩

/-- Disjunctions. -/
def disjunctions : Level Disjunction :=
  ⟨Disjunction.tokens, Disjunction.denoted, .or :: conjunctions.links⟩

theorem tokensAfter_comparisons (cs : List Comparison) :
    Comparison.tokensAfter cs = comparisons.tokensAfter .and cs := by
  induction cs with
  | nil => rfl
  | cons c cs ih => simp [Comparison.tokensAfter, ih, Level.tokensAfter, comparisons]

theorem joined_comparisons (l : Expr) (cs : List Comparison) :
    Comparison.joined l cs = comparisons.joined .and l cs := by
  induction cs generalizing l with
  | nil => rfl
  | cons c cs ih => exact ih (.and l c.denoted)

theorem tokensAfter_conjunctions (cs : List Conjunction) :
    Conjunction.tokensAfter cs = conjunctions.tokensAfter .or cs := by
  induction cs with
  | nil => rfl
  | cons c cs ih => simp [Conjunction.tokensAfter, ih, Level.tokensAfter, conjunctions]

theorem joined_conjunctions (l : Expr) (cs : List Conjunction) :
    Conjunction.joined l cs = conjunctions.joined .or l cs := by
  induction cs generalizing l with
  | nil => rfl
  | cons c cs ih => exact ih (.or l c.denoted)

theorem conjunctions_chain :
    comparisons.Chains conjunctions .and .and Conjunction.chain where
  cases b := by
    obtain ⟨first, more⟩ := b
    exact ⟨first, more, rfl⟩
  tokens a as := congrArg (a.tokens ++ ·) (tokensAfter_comparisons as)
  denoted a as := joined_comparisons a.denoted as
  links := rfl
  apart := by decide

theorem disjunctions_chain :
    conjunctions.Chains disjunctions .or .or Disjunction.chain where
  cases b := by
    obtain ⟨first, more⟩ := b
    exact ⟨first, more, rfl⟩
  tokens a as := congrArg (a.tokens ++ ·) (tokensAfter_conjunctions as)
  denoted a as := joined_conjunctions a.denoted as
  links := rfl
  apart := by decide

/-! ### Phrases that are no operation -/

theorem keyword?_spelling (k : Keyword) : Expr.keyword? k.spelling = some k.denoted := by
  cases k <;> rfl

theorem exists_keyword {name : String} {v : Value} (h : Expr.keyword? name = some v) :
    ∃ k : Keyword, k.spelling = name ∧ k.denoted = v := by
  rw [Expr.keyword?] at h
  split at h
  · rename_i hname
    exact ⟨.true, hname.symm, Option.some.inj h⟩
  · split at h
    · rename_i hname
      exact ⟨.false, hname.symm, Option.some.inj h⟩
    · split at h
      · rename_i hname
        exact ⟨.null, hname.symm, Option.some.inj h⟩
      · cases h

theorem keyword?_eq_none_iff {name : String} :
    Expr.keyword? name = none ↔ ∀ k : Keyword, name ≠ k.spelling := by
  constructor
  · rintro h k rfl
    rw [keyword?_spelling] at h
    cases h
  · intro h
    cases hname : Expr.keyword? name with
    | none => rfl
    | some v =>
      obtain ⟨k, hk, -⟩ := exists_keyword hname
      exact absurd hk.symm (h k)

theorem spelling_injective {k l : Keyword} (h : k.spelling = l.spelling) : k = l := by
  have hsome := keyword?_spelling k
  rw [h, keyword?_spelling] at hsome
  cases k <;> cases l <;> simp [Keyword.denoted] at hsome ⊢

theorem primes_sound {inner : Reader Expr} (hinner : disjunctions.Sound inner) :
    primes.Sound (readPrime inner) := by
  intro ts rest e h
  unfold readPrime at h
  split at h
  · cases h
    exact ⟨.number _, rfl, rfl⟩
  · cases h
    exact ⟨.text _, rfl, rfl⟩
  · split at h
    · rename_i hread
      cases h
      obtain ⟨d, rfl, rfl⟩ := hinner hread
      refine ⟨.parens d, ?_, rfl⟩
      simp [primes, Prime.tokens, disjunctions]
    · cases h
    · cases h
  · rename_i name ts
    split at h
    · rename_i v hname
      cases h
      obtain ⟨k, rfl, rfl⟩ := exists_keyword hname
      exact ⟨.keyword k, rfl, rfl⟩
    · rename_i hname
      obtain ⟨⟨steps, rest'⟩, hsteps, heq⟩ := exists_of_map_eq_ok h
      cases heq
      obtain ⟨as, rfl, rfl⟩ := readSteps_sound hsteps
      exact ⟨.path name (keyword?_eq_none_iff.1 hname) as, rfl, rfl⟩
  · cases h

theorem primes_complete {n : Nat} {inner : Reader Expr} (hinner : disjunctions.Complete n inner) :
    primes.Complete (n + 1) (readPrime inner) := by
  intro p rest hn hrest
  cases p with
  | number x => rfl
  | text s => rfl
  | keyword k =>
    show readPrime inner (.ident k.spelling :: rest) = _
    rw [readPrime, keyword?_spelling]
    rfl
  | parens d =>
    have hlength : (disjunctions.tokens d).length < n := by
      simp only [primes, Prime.tokens, List.length_cons, List.length_append] at hn
      show d.tokens.length < n
      omega
    have hread := hinner d (.closeParen :: rest) hlength (Level.endsAt_cons (by decide) rest)
    have htokens : primes.tokens (.parens d) ++ rest =
        .openParen :: (disjunctions.tokens d ++ .closeParen :: rest) := by
      simp [primes, Prime.tokens, disjunctions]
    rw [htokens, readPrime, hread]
    rfl
  | path head free steps =>
    have hsteps := readSteps_complete (hrest.head_ne (by decide)) (hrest.head_ne (by decide)) steps
    show readPrime inner (.ident head :: (steps.flatMap Access.tokens ++ rest)) = _
    rw [readPrime, keyword?_eq_none_iff.2 free, hsteps]
    rfl

/-- What begins with a name is a keyword or a path. -/
theorem Prime.of_ident {p : Prime} {name : String} {rest ts : List Token}
    (h : p.tokens ++ rest = .ident name :: ts) :
    (∃ k : Keyword, p = .keyword k ∧ k.spelling = name ∧ rest = ts) ∨
      ∃ free steps, p = .path name free steps ∧ steps.flatMap Access.tokens ++ rest = ts := by
  cases p with
  | keyword k =>
    simp only [tokens, List.cons_append, List.nil_append, List.cons.injEq, Token.ident.injEq] at h
    exact .inl ⟨k, rfl, h⟩
  | path head free steps =>
    simp only [tokens, List.cons_append, List.cons.injEq, Token.ident.injEq] at h
    obtain ⟨rfl, hsteps⟩ := h
    exact .inr ⟨free, steps, rfl, hsteps⟩
  | _ => simp [tokens] at h

theorem primes_single {n : Nat} (hinner : disjunctions.Single n) : primes.Single (n + 1) := by
  intro p q rest rest' hn hrest hrest' h
  cases p with
  | number x =>
    cases q with
    | number y => simpa [primes, Prime.tokens] using h
    | _ => simp [primes, Prime.tokens] at h
  | text s =>
    cases q with
    | text s' => simpa [primes, Prime.tokens] using h
    | _ => simp [primes, Prime.tokens] at h
  | keyword k =>
    obtain ⟨l, rfl, hname, rfl⟩ | ⟨free, _, rfl, _⟩ := Prime.of_ident h.symm
    · exact ⟨congrArg Prime.keyword (spelling_injective hname.symm), rfl⟩
    · exact absurd rfl (free k)
  | path head free steps =>
    obtain ⟨l, _, rfl, _⟩ | ⟨_, steps', rfl, hsteps⟩ := Prime.of_ident h.symm
    · exact absurd rfl (free l)
    · obtain ⟨rfl, hends⟩ := accesses_single hrest' hrest hsteps
      exact ⟨rfl, hends.symm⟩
  | parens d =>
    cases q with
    | parens d' =>
      have hlength : (disjunctions.tokens d).length < n := by
        simp only [primes, Prime.tokens, List.length_cons, List.length_append] at hn
        show d.tokens.length < n
        omega
      have htokens : disjunctions.tokens d ++ .closeParen :: rest =
          disjunctions.tokens d' ++ .closeParen :: rest' := by
        simpa [primes, Prime.tokens, disjunctions] using h
      obtain ⟨rfl, hclose⟩ := hinner d d' _ _ hlength (Level.endsAt_cons (by decide) rest)
        (Level.endsAt_cons (by decide) rest') htokens
      exact ⟨rfl, (List.cons.inj hclose).2⟩
    | _ => simp [primes, Prime.tokens] at h

/-! ### Negations -/

theorem Prime.head_ne_not (p : Prime) (rest : List Token) :
    (p.tokens ++ rest).head? ≠ some .not := by
  cases p <;> simp [tokens]

theorem readUnary_prime {prime : Reader Expr} {ts : List Token} (h : ts.head? ≠ some .not) :
    readUnary prime ts = prime ts := by
  unfold readUnary
  split
  · exact absurd rfl h
  · rfl

theorem operands_sound {prime : Reader Expr} (hprime : primes.Sound prime) :
    operands.Sound (readUnary prime) := by
  intro ts
  fun_induction readUnary prime ts with
  | case1 ts ih =>
    intro rest e h
    obtain ⟨⟨e', rest'⟩, hread, heq⟩ := exists_of_map_eq_ok h
    cases heq
    obtain ⟨a, rfl, rfl⟩ := ih hread
    exact ⟨.not a, rfl, rfl⟩
  | case2 ts =>
    intro rest e h
    obtain ⟨p, rfl, rfl⟩ := hprime h
    exact ⟨.prime p, rfl, rfl⟩

theorem operands_complete {n : Nat} {prime : Reader Expr} (hprime : primes.Complete n prime) :
    operands.Complete n (readUnary prime) := by
  -- Derivations of several types are inside each other, so the induction is on the tokens.
  have hbelow : ∀ m ≤ n, operands.Complete m (readUnary prime) := by
    intro m
    induction m with
    | zero => exact fun _ _ _ hm => absurd hm (Nat.not_lt_zero _)
    | succ m ih =>
      intro hm a rest hlength hrest
      cases a with
      | not a =>
        have hread := ih (by omega) a rest (Nat.lt_of_succ_lt_succ hlength) hrest
        show (readUnary prime (operands.tokens a ++ rest)).map _ = _
        rw [hread]
        rfl
      | prime p =>
        have hread := hprime p rest (Nat.lt_of_lt_of_le hlength hm) hrest
        exact (readUnary_prime (p.head_ne_not rest)).trans hread
  exact hbelow n (Nat.le_refl n)

theorem operands_single {n : Nat} (hprime : primes.Single n) : operands.Single n := by
  have hbelow : ∀ m ≤ n, operands.Single m := by
    intro m
    induction m with
    | zero => exact fun _ _ _ _ _ hm => absurd hm (Nat.not_lt_zero _)
    | succ m ih =>
      intro hm a b rest rest' hlength hrest hrest' h
      cases a with
      | not a =>
        cases b with
        | not b =>
          obtain ⟨rfl, hends⟩ := ih (by omega) a b rest rest' (Nat.lt_of_succ_lt_succ hlength)
            hrest hrest' (List.cons.inj h).2
          exact ⟨rfl, hends⟩
        | prime q => exact absurd (congrArg List.head? h.symm) (q.head_ne_not rest')
      | prime p =>
        cases b with
        | not b => exact absurd (congrArg List.head? h) (p.head_ne_not rest)
        | prime q =>
          obtain ⟨rfl, hends⟩ := hprime p q rest rest' (Nat.lt_of_lt_of_le hlength hm) hrest
            hrest' h
          exact ⟨rfl, hends⟩
  exact hbelow n (Nat.le_refl n)

/-! ### Comparisons -/

theorem comparisons_sound {unary : Reader Expr} (hunary : operands.Sound unary) :
    comparisons.Sound (readEqual unary) := by
  intro ts rest e h
  rw [readEqual] at h
  split at h
  · rename_i l rest' hleft
    obtain ⟨⟨r, rest''⟩, hright, heq⟩ := exists_of_map_eq_ok h
    cases heq
    obtain ⟨a, rfl, rfl⟩ := hunary hleft
    obtain ⟨b, rfl, rfl⟩ := hunary hright
    refine ⟨.two false a b, ?_, rfl⟩
    simp [comparisons, operands, Comparison.tokens, comparator]
  · rename_i l rest' hleft
    obtain ⟨⟨r, rest''⟩, hright, heq⟩ := exists_of_map_eq_ok h
    cases heq
    obtain ⟨a, rfl, rfl⟩ := hunary hleft
    obtain ⟨b, rfl, rfl⟩ := hunary hright
    refine ⟨.two true a b, ?_, rfl⟩
    simp [comparisons, operands, Comparison.tokens, comparator]
  · obtain ⟨a, rfl, rfl⟩ := hunary h
    exact ⟨.one a, rfl, rfl⟩

theorem comparator_injective {b c : Bool} (h : comparator b = comparator c) : b = c := by
  cases b <;> cases c <;> simp [comparator] at h ⊢

theorem comparator_notMem (negated : Bool) : comparator negated ∉ operands.links := by
  cases negated <;> decide

theorem comparator_mem (negated : Bool) : comparator negated ∈ comparisons.links := by
  cases negated <;> decide

theorem operands_links : operands.links ⊆ comparisons.links := by
  decide

theorem tokens_two (negated : Bool) (a b : Operand) (rest : List Token) :
    comparisons.tokens (.two negated a b) ++ rest =
      operands.tokens a ++ comparator negated :: (operands.tokens b ++ rest) := by
  simp [comparisons, operands, Comparison.tokens]

theorem length_tokens_two (negated : Bool) (a b : Operand) :
    (comparisons.tokens (.two negated a b)).length =
      (operands.tokens a).length + (operands.tokens b).length + 1 := by
  simp only [comparisons, operands, Comparison.tokens, List.length_append, List.length_cons]
  omega

theorem comparisons_complete {n : Nat} {unary : Reader Expr} (hunary : operands.Complete n unary) :
    comparisons.Complete n (readEqual unary) := by
  intro c rest hn hrest
  cases c with
  | one a =>
    exact Expr.readEqual_one (hunary a rest hn (hrest.mono operands_links))
      (hrest.head_ne (comparator_mem false)) (hrest.head_ne (comparator_mem true))
  | two negated a b =>
    rw [length_tokens_two] at hn
    have hleft := hunary a (comparator negated :: (operands.tokens b ++ rest)) (by omega)
      (Level.endsAt_cons (comparator_notMem negated) _)
    have hright := hunary b rest (by omega) (hrest.mono operands_links)
    rw [tokens_two]
    exact Expr.readEqual_two negated hleft hright

theorem comparisons_single {n : Nat} (hoperand : operands.Single n) : comparisons.Single n := by
  intro c d rest rest' hn hrest hrest' h
  cases c with
  | one a =>
    cases d with
    | one b =>
      obtain ⟨rfl, hends⟩ := hoperand a b rest rest' hn (hrest.mono operands_links)
        (hrest'.mono operands_links) h
      exact ⟨rfl, hends⟩
    | two negated b b' =>
      rw [tokens_two] at h
      obtain ⟨-, hends⟩ := hoperand a b _ _ hn (hrest.mono operands_links)
        (Level.endsAt_cons (comparator_notMem negated) _) h
      exact absurd (congrArg List.head? hends) (hrest.head_ne (comparator_mem negated))
  | two negated a a' =>
    rw [length_tokens_two] at hn
    rw [tokens_two] at h
    have hlinks := Level.endsAt_cons (comparator_notMem negated) (operands.tokens a' ++ rest)
    cases d with
    | one b =>
      obtain ⟨-, hends⟩ := hoperand a b _ _ (by omega) hlinks (hrest'.mono operands_links) h
      exact absurd (congrArg List.head? hends.symm) (hrest'.head_ne (comparator_mem negated))
    | two negated' b b' =>
      rw [tokens_two] at h
      obtain ⟨rfl, hmore⟩ := hoperand a b _ _ (by omega) hlinks
        (Level.endsAt_cons (comparator_notMem negated') _) h
      obtain ⟨hop, hmore⟩ := List.cons.inj hmore
      obtain ⟨rfl, hends⟩ := hoperand a' b' _ _ (by omega) (hrest.mono operands_links)
        (hrest'.mono operands_links) hmore
      obtain rfl := comparator_injective hop
      exact ⟨rfl, hends⟩

/-! ### Whole expressions -/

theorem disjunctions_sound (depth : Nat) : disjunctions.Sound (readOr depth) := by
  induction depth with
  | zero =>
    intro ts rest e h
    cases h
  | succ depth ih =>
    rw [readOr]
    exact disjunctions_chain.sound (conjunctions_chain.sound
      (comparisons_sound (operands_sound (primes_sound ih))))

theorem disjunctions_complete (depth : Nat) : disjunctions.Complete depth (readOr depth) := by
  induction depth with
  | zero => exact fun _ _ hn => absurd hn (Nat.not_lt_zero _)
  | succ depth ih =>
    rw [readOr]
    exact disjunctions_chain.complete (conjunctions_chain.complete
      (comparisons_complete (operands_complete (primes_complete ih))))

theorem disjunctions_single (n : Nat) : disjunctions.Single n := by
  induction n with
  | zero => exact fun _ _ _ _ hn => absurd hn (Nat.not_lt_zero _)
  | succ n ih =>
    exact disjunctions_chain.single (conjunctions_chain.single
      (comparisons_single (operands_single (primes_single ih))))

theorem readOr_eq_ok_iff {ts : List Token} {depth : Nat} (hdepth : ts.length < depth) {e : Expr} :
    readOr depth ts = .ok (e, []) ↔ ∃ d : Disjunction, d.tokens = ts ∧ d.denoted = e := by
  constructor
  · intro h
    obtain ⟨d, rfl, rfl⟩ := disjunctions_sound depth h
    exact ⟨d, (List.append_nil _).symm, rfl⟩
  · rintro ⟨d, rfl, rfl⟩
    have hread := disjunctions_complete depth d [] hdepth Level.endsAt_nil
    rwa [List.append_nil] at hread

theorem ofTokens_eq_ok_iff {body : String} {ts : List Token} {e : Expr} :
    Expr.ofTokens body ts = .ok e ↔ readOr (ts.length + 1) ts = .ok (e, []) := by
  unfold Expr.ofTokens
  split
  · constructor <;> intro h <;> cases h
  · split <;> simp_all

/-- **The reader of expressions accepts exactly the grammar.** For every sequence of tokens, however
deep the reader may descend beyond their number: it reads them to the end exactly if they are
derived, and what it gives is the expression that the derivation denotes. The derivation is
unique. -/
theorem reads_exactly_derived (body : String) (ts : List Token) :
    (∀ depth, ts.length < depth → ∀ e, readOr depth ts = .ok (e, []) ↔
      ∃ d : Disjunction, d.tokens = ts ∧ d.denoted = e) ∧
    (∀ e, Expr.ofTokens body ts = .ok e ↔ ∃ d : Disjunction, d.tokens = ts ∧ d.denoted = e) ∧
    ∀ d d' : Disjunction, d.tokens = ts → d'.tokens = ts → d = d' := by
  refine ⟨fun depth hdepth e => readOr_eq_ok_iff hdepth, ?_, ?_⟩
  · intro e
    exact ofTokens_eq_ok_iff.trans (readOr_eq_ok_iff (Nat.lt_succ_self _))
  · intro d d' hd hd'
    have htokens : disjunctions.tokens d ++ [] = disjunctions.tokens d' ++ [] :=
      congrArg (· ++ []) (hd.trans hd'.symm)
    exact (disjunctions_single _ d d' [] [] (Nat.lt_succ_self _) Level.endsAt_nil Level.endsAt_nil
      htokens).1

/-- `a || !b == 1 && (true) || c.0['k']` -/
theorem reads_exactly_derived_mixed :
    let ts : List Token := [.ident "a", .or, .not, .ident "b", .equal, .num (Number.ofNat 1), .and,
      .openParen, .ident "true", .closeParen, .or, .ident "c", .dot, .num (Number.ofNat 0),
      .openBracket, .str "k", .closeBracket]
    let e : Expr := .or
      (.or (.path "a" [])
        (.and (.compare false (.not (.path "b" [])) (.lit (.num (Number.ofNat 1))))
          (.lit (.bool true))))
      (.path "c" [.index 0, .key "k"])
    Expr.ofTokens "" ts = .ok e ∧ ∃ d : Disjunction, d.tokens = ts ∧ d.denoted = e ∧
      ∀ d' : Disjunction, d'.tokens = ts → d = d' := by
  intro ts e
  let zero : Index := ⟨Number.ofNat 0, 0, by decide +kernel, by decide +kernel, fun _ => rfl⟩
  let a : Prime := .path "a" (keyword?_eq_none_iff.1 rfl) []
  let b : Prime := .path "b" (keyword?_eq_none_iff.1 rfl) []
  let c : Prime := .path "c" (keyword?_eq_none_iff.1 rfl) [.dotIndex zero, .bracketText "k"]
  let truth : Disjunction := .chain (.chain (.one (.prime (.keyword .true))) []) []
  let d : Disjunction := .chain (.chain (.one (.prime a)) [])
    [.chain (.two false (.not (.prime b)) (.prime (.number (Number.ofNat 1))))
      [.one (.prime (.parens truth))], .chain (.one (.prime c)) []]
  have htokens : d.tokens = ts := rfl
  have hdenoted : d.denoted = e := rfl
  obtain ⟨-, hread, hunique⟩ := reads_exactly_derived "" ts
  exact ⟨(hread e).2 ⟨d, htokens, hdenoted⟩, d, htokens, hdenoted, fun d' => hunique d d' htokens⟩

end Scenario.Grammar
