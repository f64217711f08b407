import Scenario.Proofs.RoundTrip

/-!
# Indices after a point

An index in a path may stand in brackets, `a[1]`, or after a point, `a.1`. The second form has to
share its points with numbers: a number takes all digits and points that follow its first digit. So
`a.1.b` has the number `1.` in it, and `a.1.0` the number `1.0`.

* `Step.dotted` and `Step.bracketed` write a step in either form.
* `ReadAs steps steps'`: with all indices after points, `steps` are read as `steps'`. An index is
  read as it is meant if nothing follows it; two indices at the end of a path are read as the one
  number that they look like, if that is an index; everything else is no path.
* **`Template.compile_dotted`**: a path with its indices after points compiles exactly if its steps
  can be read, and to the path as it is read. That is the path as it is meant exactly if no index is
  followed by another step. In brackets every index is read as it is meant.

A name ends at the point after it, so the steps before the first index are read one by one. There
the number begins that decides the rest: what follows its first index is all part of it, up to the
first name.
-/

namespace Scenario

namespace Step

/-- Whether the step goes into a tree. -/
def isKey : Step → Bool
  | key _ => true
  | index _ => false

/-- The steps that can be written after a point: names, and indices that are numbers without
rounding. -/
def Plain : Step → Prop
  | key k => Token.isName k = true
  | index n => n < Nat.pow 2 53

/-- A step after a point. -/
def dotted : Step → List Char
  | key k => '.' :: k.toList
  | index n => '.' :: Nat.toDigits 10 n

/-- A name after a point, or an index in brackets. -/
def bracketed : Step → List Char
  | key k => '.' :: k.toList
  | index n => '[' :: Nat.toDigits 10 n ++ [']']

/-- The digits of two indices with a point between them. -/
def joined (i j : Nat) : List Char := Nat.toDigits 10 i ++ '.' :: Nat.toDigits 10 j

end Step

open Step (key index joined)

/-- Steps that are written with points are read as other steps: indices are read as they are meant
where nothing follows them, and two indices at the end as one if they look like one. -/
inductive ReadAs : List Step → List Step → Prop
  /-- No steps. -/
  | nil : ReadAs [] []
  /-- A name, before any steps. -/
  | key (k : String) {steps steps' : List Step} (h : ReadAs steps steps') :
      ReadAs (key k :: steps) (key k :: steps')
  /-- An index at the end. -/
  | last (i : Nat) : ReadAs [index i] [index i]
  /-- Two indices at the end. -/
  | fused {i j n : Nat} (h : (Number.ofChars? (joined i j)).bind Number.toIndex? = some n) :
      ReadAs [index i, index j] [index n]

/-- Steps are read as they are meant exactly if no index is followed by another step. -/
theorem readAs_self_iff (steps : List Step) :
    ReadAs steps steps ↔ steps.dropLast.all Step.isKey = true := by
  induction steps with
  | nil => exact ⟨fun _ => rfl, fun _ => .nil⟩
  | cons s steps ih =>
    cases s with
    | key k =>
      have htail : ReadAs (key k :: steps) (key k :: steps) ↔ ReadAs steps steps := by
        constructor
        · intro h
          cases h with
          | key _ h => exact h
        · exact .key k
      rw [htail, ih]
      cases steps with
      | nil => rfl
      | cons s steps => rfl
    | index i =>
      cases steps with
      | nil => exact ⟨fun _ => rfl, fun _ => .last i⟩
      | cons s steps =>
        constructor
        · intro h
          cases h
        · intro h
          cases h

/-! ### Numbers that swallow points -/

namespace Number

/-- A decimal has one point. -/
theorem readDecimal_two_points {ds es : List Char} (hds : ∀ c ∈ ds, c.isDigit = true)
    (hes : ∀ c ∈ es, c.isDigit = true) (rest : List Char) :
    readDecimal false (ds ++ '.' :: (es ++ '.' :: rest)) = none := by
  have hbreak : ∀ us : List Char, Token.Breaks Char.isDigit ('.' :: us) :=
    fun us => Token.breaks_cons (by decide) us
  obtain ⟨-, hdrop⟩ := (hbreak (es ++ '.' :: rest)).split hds
  obtain ⟨-, hdrop'⟩ := (hbreak rest).split hes
  simp [readDecimal, hdrop, hdrop', readExponent]

theorem ofChars?_two_points (i j : Nat) (rest : List Char) :
    ofChars? (Nat.toDigits 10 i ++ '.' :: (Nat.toDigits 10 j ++ '.' :: rest)) = none := by
  have hdigits : ∀ n, ∀ c ∈ Nat.toDigits 10 n, c.isDigit = true :=
    fun n c hc => Nat.isDigit_of_mem_toDigits (by decide) (by decide) hc
  have hnone := readDecimal_two_points (hdigits i) (hdigits j) rest
  obtain ⟨c, cs, hcs⟩ := List.exists_cons_of_ne_nil (Nat.toDigits_ne_nil : Nat.toDigits 10 i ≠ [])
  have hc := hdigits i c (hcs ▸ List.mem_cons_self)
  rw [hcs] at hnone ⊢
  rw [List.cons_append, ofChars?_of_isDigit hc]
  exact hnone

end Number

/-! ### Tokens -/

namespace Token

variable {rest : List Char}

theorem readAll_nil : readAll [] = .ok [] := by rw [readAll]

theorem readAll_dot (rest : List Char) : readAll ('.' :: rest) = (readAll rest).map (dot :: ·) :=
  (reads_single rfl rest).readAll

/-- A name is read up to what cannot belong to it. -/
theorem readAll_name {k : String} (hk : isName k = true) (hrest : Breaks isNameChar rest) :
    readAll (k.toList ++ rest) = (readAll rest).map (ident k :: ·) := by
  obtain ⟨cs, rfl⟩ : ∃ cs, String.ofList cs = k := ⟨k.toList, String.ofList_toList⟩
  rw [isName, String.toList_ofList] at hk
  rw [String.toList_ofList]
  cases cs with
  | nil => cases hk
  | cons c cs =>
    rw [Bool.and_eq_true, List.all_eq_true] at hk
    exact (reads_name hk.1 hk.2 hrest).readAll

/-- No name begins with a character that could belong to a number before it. -/
theorem breaks_name {k : String} (hk : isName k = true) (rest : List Char) :
    Breaks isNumberChar (k.toList ++ rest) := by
  rw [isName] at hk
  cases hcs : k.toList with
  | nil =>
    rw [hcs] at hk
    cases hk
  | cons c cs =>
    rw [hcs] at hk
    refine breaks_cons ?_ (cs ++ rest)
    rw [Bool.eq_false_iff]
    intro hnumber
    have hmem : c ∈ '.' :: Text.digits := by
      rw [isNumberChar, Bool.or_eq_true, decide_eq_true_eq] at hnumber
      obtain hdigit | rfl := hnumber
      · exact List.mem_cons_of_mem _ (Text.mem_digits hdigit)
      · exact List.mem_cons_self
    have hother : ∀ d ∈ '.' :: Text.digits, (!isNameStart d) = true :=
      List.all_eq_true.1 (by decide)
    simpa [(Bool.and_eq_true_iff.1 hk).1] using hother c hmem

/-- There are no quotes and braces in names. -/
theorem isPlain_of_mem_name {k : String} (hk : isName k = true) {c : Char} (hc : c ∈ k.toList) :
    Text.isPlain '\x7d' c = true := by
  rw [isName] at hk
  cases hcs : k.toList with
  | nil =>
    rw [hcs] at hc
    cases hc
  | cons d ds =>
    rw [hcs, Bool.and_eq_true, List.all_eq_true] at hk
    rw [hcs] at hc
    obtain rfl | hc := List.mem_cons.1 hc
    · exact Text.isPlain_of (by decide) hk.1
    · exact Text.isPlain_of (by decide) (hk.2 c hc)

/-- A number runs on over an index after it. -/
theorem isNumberChar_of_mem_dotted (n : Nat) :
    ∀ c ∈ '.' :: Nat.toDigits 10 n, isNumberChar c = true :=
  List.forall_mem_cons.2 ⟨by decide, fun c hc =>
    isNumberChar_of_isDigit (Nat.isDigit_of_mem_toDigits (by decide) (by decide) hc)⟩

/-- A number takes all digits and points that follow its first digit. -/
theorem readAll_number_iff (n : Nat) {ts : List Token} :
    readAll (Nat.toDigits 10 n ++ rest) = .ok ts ↔
      ∃ x us, Number.ofChars? (Nat.toDigits 10 n ++ rest.takeWhile isNumberChar) = some x ∧
        readAll (rest.dropWhile isNumberChar) = .ok us ∧ ts = num x :: us := by
  have hdigits : ∀ c ∈ Nat.toDigits 10 n, c.isDigit = true :=
    fun c hc => Nat.isDigit_of_mem_toDigits (by decide) (by decide) hc
  obtain ⟨c, cs, hcs⟩ := List.exists_cons_of_ne_nil (Nat.toDigits_ne_nil : Nat.toDigits 10 n ≠ [])
  rw [hcs] at hdigits ⊢
  have htail : ∀ d ∈ cs, isNumberChar d = true := fun d hd =>
    isNumberChar_of_isDigit (hdigits d (List.mem_cons_of_mem c hd))
  have htake : (cs ++ rest).takeWhile isNumberChar = cs ++ rest.takeWhile isNumberChar :=
    List.takeWhile_append_of_pos htail
  have hdrop : (cs ++ rest).dropWhile isNumberChar = rest.dropWhile isNumberChar :=
    List.dropWhile_append_of_pos htail
  have hread : read c (cs ++ rest) = readNumber c (cs ++ rest) :=
    read_digit (hdigits c List.mem_cons_self) _
  rw [List.cons_append, List.cons_append, readAll, hread, readNumber, htake]
  cases Number.ofChars? (c :: (cs ++ rest.takeWhile isNumberChar)) with
  | none => simp
  | some x =>
    have hrest : (restAfter isNumberChar (cs ++ rest)).val = rest.dropWhile isNumberChar := hdrop
    simp only [hrest]
    constructor
    · intro h
      obtain ⟨us, hus, rfl⟩ := exists_of_map_eq_ok h
      exact ⟨x, us, rfl, hus, rfl⟩
    · rintro ⟨_, us, ⟨⟩, hus, rfl⟩
      rw [hus]
      rfl

end Token

namespace Step

theorem exists_dotted (s : Step) : ∃ cs, s.dotted = '.' :: cs := by
  cases s with
  | key k => exact ⟨_, rfl⟩
  | index i => exact ⟨_, rfl⟩

/-- A name ends at the steps that follow it. -/
theorem breaks_dotted (steps : List Step) :
    Token.Breaks Token.isNameChar (steps.flatMap dotted) := by
  cases steps with
  | nil => exact Token.breaks_nil _
  | cons s steps =>
    obtain ⟨cs, hcs⟩ := s.exists_dotted
    rw [List.flatMap_cons, hcs]
    exact Token.breaks_cons (by decide) _

end Step

/-! ### Paths -/

namespace Expr

variable {head : String} {ts rest : List Token} {steps : List Step}

/-- A path ends where neither a step nor an operator follows. -/
theorem readOr_path (hhead : keyword? head = none) (h : readSteps ts = .ok (steps, rest))
    (hrest : ∀ op ∈ [Token.equal, .notEqual, .and, .or], rest.head? ≠ some op) (depth : Nat) :
    readOr (depth + 1) (.ident head :: ts) = .ok (path head steps, rest) := by
  have hoperand : readOperand depth (.ident head :: ts) = .ok (path head steps, rest) := by
    rw [readOperand_path hhead, h]
    rfl
  rw [readOr]
  exact readChain_one (readChain_one
    (readEqual_one hoperand (hrest _ (by simp)) (hrest _ (by simp))) (hrest _ (by simp)))
    (hrest _ (by simp))

theorem readOr_path_error (hhead : keyword? head = none) {e : ExprError}
    (h : readSteps ts = .error e) (depth : Nat) :
    readOr (depth + 1) (.ident head :: ts) = .error e := by
  have hoperand : readOperand depth (.ident head :: ts) = .error e := by
    rw [readOperand_path hhead, h]
    rfl
  rw [readOperand] at hoperand
  rw [readOr, readChain, readChain, readEqual, hoperand]

/-- Tokens that begin with a name are a path exactly if all that follows are steps, unless an
operator follows the steps. -/
theorem ofTokens_path_iff (hhead : keyword? head = none) (body : String)
    (hops : ∀ steps rest, readSteps ts = .ok (steps, rest) →
      ∀ op ∈ [Token.equal, .notEqual, .and, .or], rest.head? ≠ some op) {e : Expr} :
    ofTokens body (.ident head :: ts) = .ok e ↔
      ∃ steps, readSteps ts = .ok (steps, []) ∧ e = path head steps := by
  cases hread : readSteps ts with
  | error fault =>
    have hor := readOr_path_error hhead hread (ts.length + 1)
    simp [ofTokens, hor]
  | ok r =>
    obtain ⟨steps, rest⟩ := r
    have hor := readOr_path hhead hread (hops steps rest hread) (ts.length + 1)
    cases rest with
    | nil => simp [ofTokens, hor, eq_comm]
    | cons t rest => simp [ofTokens, hor]

/-- A number after a point is a step if it is an index. -/
theorem readSteps_number_iff {x : Number} {r : List Step × List Token} :
    readSteps (.dot :: .num x :: ts) = .ok r ↔
      ∃ n steps, x.toIndex? = some n ∧ readSteps ts = .ok (steps, r.2) ∧
        r.1 = index n :: steps := by
  rw [readSteps, dotStep?]
  cases x.toIndex? with
  | none => simp
  | some n =>
    constructor
    · intro h
      obtain ⟨s, hs, rfl⟩ := exists_of_map_eq_ok h
      exact ⟨n, s.1, rfl, hs, rfl⟩
    · rintro ⟨_, steps, ⟨⟩, hsteps, hr⟩
      rw [hsteps]
      exact congrArg Except.ok (Prod.ext hr.symm rfl)

/-- Once an index begins, the text up to the next name is one number, and no step can stand behind
that. -/
theorem readAs_of_index {i : Nat} {more : List Step} (hplain : ∀ s ∈ index i :: more, s.Plain)
    (hts : Token.readAll ((index i :: more).flatMap Step.dotted) = .ok ts)
    (h : readSteps ts = .ok (steps, rest)) :
    (rest = [] ∧ ReadAs (index i :: more) steps) ∨ ∃ k us, rest = .ident k :: us := by
  obtain ⟨hi, hmore⟩ := List.forall_mem_cons.1 hplain
  rw [List.flatMap_cons, Step.dotted, List.cons_append, Token.readAll_dot] at hts
  obtain ⟨us, hus, rfl⟩ := exists_of_map_eq_ok hts
  obtain ⟨x, vs, hx, hvs, rfl⟩ := (Token.readAll_number_iff i).1 hus
  obtain ⟨n, tail, hn, htail, rfl⟩ := readSteps_number_iff.1 h
  -- What follows the index decides which text is the number `x`.
  cases more with
  | nil =>
    rw [List.flatMap_nil, List.takeWhile_nil, List.append_nil, Number.ofChars?_toDigits] at hx
    rw [List.flatMap_nil, List.dropWhile_nil, Token.readAll_nil] at hvs
    cases hx
    cases hvs
    cases htail
    rw [Number.toIndex?_ofNat hi] at hn
    cases hn
    exact .inl ⟨rfl, .last i⟩
  | cons s more =>
    have hs := (List.forall_mem_cons.1 hmore).1
    cases s with
    | key k =>
      have hdrop : ((key k :: more).flatMap Step.dotted).dropWhile Token.isNumberChar =
          k.toList ++ more.flatMap Step.dotted :=
        ((Token.breaks_name hs _).split (List.forall_mem_singleton.2 (by decide))).2
      rw [hdrop, Token.readAll_name hs (Step.breaks_dotted more)] at hvs
      obtain ⟨ws, -, rfl⟩ := exists_of_map_eq_ok hvs
      cases htail
      exact .inr ⟨k, ws, rfl⟩
    | index j =>
      have hdigits := Token.isNumberChar_of_mem_dotted j
      rw [List.flatMap_cons, Step.dotted, List.takeWhile_append_of_pos hdigits] at hx
      rw [List.flatMap_cons, Step.dotted, List.dropWhile_append_of_pos hdigits] at hvs
      cases more with
      | nil =>
        rw [List.flatMap_nil, List.takeWhile_nil, List.append_nil] at hx
        rw [List.flatMap_nil, List.dropWhile_nil, Token.readAll_nil] at hvs
        cases hvs
        cases htail
        refine .inl ⟨rfl, .fused ?_⟩
        rw [joined, hx]
        exact hn
      | cons s more =>
        obtain ⟨cs, hcs⟩ := s.exists_dotted
        have hpoint : Token.isNumberChar '.' = true := by decide
        rw [List.flatMap_cons, hcs, List.cons_append, List.cons_append,
          List.takeWhile_cons_of_pos hpoint, Number.ofChars?_two_points] at hx
        cases hx

/-- **What a path with points is read as.** The reader of steps ends at the end of the text, and
then has read the steps as `ReadAs` says, or at a name that stands behind a number. -/
theorem readAs_of_readSteps {meant : List Step} (hplain : ∀ s ∈ meant, s.Plain)
    (hts : Token.readAll (meant.flatMap Step.dotted) = .ok ts)
    (h : readSteps ts = .ok (steps, rest)) :
    (rest = [] ∧ ReadAs meant steps) ∨ ∃ k us, rest = .ident k :: us := by
  induction meant generalizing ts steps with
  | nil =>
    rw [List.flatMap_nil, Token.readAll_nil] at hts
    cases hts
    cases h
    exact .inl ⟨rfl, .nil⟩
  | cons s meant ih =>
    cases s with
    | key k =>
      obtain ⟨hk, hmeant⟩ := List.forall_mem_cons.1 hplain
      rw [List.flatMap_cons, Step.dotted, List.cons_append, Token.readAll_dot,
        Token.readAll_name hk (Step.breaks_dotted meant)] at hts
      obtain ⟨us, hus, rfl⟩ := exists_of_map_eq_ok hts
      obtain ⟨vs, hvs, rfl⟩ := exists_of_map_eq_ok hus
      rw [readSteps] at h
      obtain ⟨r, hr, heq⟩ := exists_of_map_eq_ok h
      cases heq
      exact (ih hmeant hvs hr).imp_left fun hread => ⟨hread.1, .key k hread.2⟩
    | index i => exact readAs_of_index hplain hts h

/-- What `ReadAs` allows is read. -/
theorem readSteps_of_readAs {meant : List Step} (h : ReadAs meant steps)
    (hplain : ∀ s ∈ meant, s.Plain) :
    ∃ ts, Token.readAll (meant.flatMap Step.dotted) = .ok ts ∧ readSteps ts = .ok (steps, []) := by
  induction h with
  | nil => exact ⟨[], Token.readAll_nil, rfl⟩
  | @key k meant steps _ ih =>
    obtain ⟨hk, hmeant⟩ := List.forall_mem_cons.1 hplain
    obtain ⟨ts, hts, hread⟩ := ih hmeant
    refine ⟨.dot :: .ident k :: ts, ?_, readSteps_dot rfl hread⟩
    rw [List.flatMap_cons, Step.dotted, List.cons_append, Token.readAll_dot,
      Token.readAll_name hk (Step.breaks_dotted meant), hts]
    rfl
  | last i =>
    have hi : i < Nat.pow 2 53 := hplain _ List.mem_cons_self
    have hnumber : Token.readAll (Nat.toDigits 10 i ++ []) = .ok [.num (Number.ofNat i)] :=
      (Token.readAll_number_iff i).2
        ⟨_, [], by simp [Number.ofChars?_toDigits], Token.readAll_nil, rfl⟩
    refine ⟨[.dot, .num (Number.ofNat i)], ?_, ?_⟩
    · rw [List.flatMap_cons, Step.dotted, List.cons_append, Token.readAll_dot, List.flatMap_nil,
        hnumber]
      rfl
    · exact readSteps_number_iff.2 ⟨i, [], Number.toIndex?_ofNat hi, rfl, rfl⟩
  | @fused i j n hn =>
    obtain ⟨x, hx, hn⟩ := Option.bind_eq_some_iff.1 hn
    have hdigits := Token.isNumberChar_of_mem_dotted j
    refine ⟨[.dot, .num x], ?_, readSteps_number_iff.2 ⟨n, [], hn, rfl, rfl⟩⟩
    have hnumber : Token.readAll (joined i j) = .ok [.num x] := by
      refine (Token.readAll_number_iff i).2 ⟨x, [], ?_, ?_, rfl⟩
      · rw [List.takeWhile_eq_self_iff.2 hdigits]
        exact hx
      · rw [List.dropWhile_eq_nil_iff.2 hdigits, Token.readAll_nil]
    rw [List.flatMap_cons, Step.dotted, List.cons_append, Token.readAll_dot, List.flatMap_cons,
      Step.dotted, List.flatMap_nil, List.append_nil, ← joined, hnumber]
    rfl

/-- The body of a path with points is an expression exactly if its steps can be read. -/
theorem ofBody_dotted_iff (hname : Token.isName head = true)
    (hword : head ∉ ["true", "false", "null"]) {meant : List Step}
    (hplain : ∀ s ∈ meant, s.Plain) {e : Expr} :
    ofBody (head.toList ++ meant.flatMap Step.dotted) = .ok e ↔
      ∃ steps, ReadAs meant steps ∧ e = path head steps := by
  have hbody := Token.readAll_name hname (Step.breaks_dotted meant)
  cases hread : Token.readAll (meant.flatMap Step.dotted) with
  | error fault =>
    rw [ofBody, hbody, hread]
    constructor
    · intro h
      cases h
    · rintro ⟨steps, hsteps, -⟩
      obtain ⟨ts, hts, -⟩ := readSteps_of_readAs hsteps hplain
      cases hread.symm.trans hts
  | ok ts =>
    rw [ofBody, hbody, hread]
    refine (ofTokens_path_iff (keyword?_eq_none hword) _ ?_).trans ?_
    · intro steps rest hsteps op hop
      obtain ⟨rfl, -⟩ | ⟨k, us, rfl⟩ := readAs_of_readSteps hplain hread hsteps
      · simp
      · rintro ⟨⟩
        simp at hop
    · refine exists_congr fun steps => and_congr_left fun _ => ?_
      constructor
      · intro hsteps
        obtain ⟨-, h⟩ | ⟨_, _, hrest⟩ := readAs_of_readSteps hplain hread hsteps
        · exact h
        · cases hrest
      · intro h
        obtain ⟨ts', hts, hsteps⟩ := readSteps_of_readAs h hplain
        cases hread.symm.trans hts
        exact hsteps

end Expr

/-! ### Templates -/

namespace Step

theorem Plain.isPlain_of_mem_dotted {s : Step} (h : s.Plain) {c : Char} (hc : c ∈ s.dotted) :
    Text.isPlain '\x7d' c = true := by
  cases s with
  | key k =>
    obtain rfl | hc := List.mem_cons.1 hc
    · decide
    · exact Token.isPlain_of_mem_name h hc
  | index n =>
    exact Text.isPlain_of (by decide) (Token.isNumberChar_of_mem_dotted n c hc)

theorem Plain.writable {s : Step} (h : s.Plain) : s.Writable := by
  cases s with
  | key k =>
    refine .inl fun hmem => ?_
    have hplain := Token.isPlain_of_mem_name h hmem
    cases hplain
  | index n => exact h

theorem written_bracketed {steps : List Step} (h : ∀ s ∈ steps, s.Plain) :
    List.Forall₂ Written steps (steps.map bracketed) := by
  rw [List.forall₂_map_right_iff, List.forall₂_same]
  intro s hs
  have hplain := h s hs
  cases s with
  | key k => exact .name hplain
  | index n => exact .index n

end Step

namespace Template

/-- The source of a template that is one path. -/
def pathSource (write : Step → List Char) (head : String) (steps : List Step) : String :=
  String.ofList ('$' :: '\x7b' :: (head.toList ++ steps.flatMap write ++ ['\x7d']))

variable {head : String} {steps : List Step}

/-- The template compiles if the path is an expression. -/
theorem compile_pathSource {write : Step → List Char}
    (h : Passes '\x7d' (head.toList ++ steps.flatMap write)) :
    compile (pathSource write head steps) =
      (Expr.ofBody (head.toList ++ steps.flatMap write)).map fun e =>
        ⟨pathSource write head steps, [.expr e]⟩ := by
  have hpieces : pieces (pathSource write head steps).toList =
      [.body (head.toList ++ steps.flatMap write)] := by
    rw [pathSource, String.toList_ofList, pieces_body h]
  rw [compile, hpieces, assemble]
  cases Expr.ofBody (head.toList ++ steps.flatMap write) <;> rfl

theorem compile_dotted_iff (hname : Token.isName head = true)
    (hword : head ∉ ["true", "false", "null"]) (hplain : ∀ s ∈ steps, s.Plain) {t : Template} :
    compile (pathSource Step.dotted head steps) = .ok t ↔
      ∃ steps', ReadAs steps steps' ∧
        t = ⟨pathSource Step.dotted head steps, [.expr (.path head steps')]⟩ := by
  have hpasses : Passes '\x7d' (head.toList ++ steps.flatMap Step.dotted) := by
    refine passes_plain fun c hc => ?_
    obtain hc | hc := List.mem_append.1 hc
    · exact Token.isPlain_of_mem_name hname hc
    · obtain ⟨s, hs, hc⟩ := List.mem_flatMap.1 hc
      exact (hplain s hs).isPlain_of_mem_dotted hc
  rw [compile_pathSource hpasses]
  constructor
  · intro h
    obtain ⟨e, he, rfl⟩ := exists_of_map_eq_ok h
    obtain ⟨steps', hread, rfl⟩ := (Expr.ofBody_dotted_iff hname hword hplain).1 he
    exact ⟨steps', hread, rfl⟩
  · rintro ⟨steps', hread, rfl⟩
    rw [(Expr.ofBody_dotted_iff hname hword hplain).2 ⟨steps', hread, rfl⟩]
    rfl

/-- In brackets every index is read as it is meant. -/
theorem compile_bracketed (hname : Token.isName head = true)
    (hword : head ∉ ["true", "false", "null"]) (hplain : ∀ s ∈ steps, s.Plain) :
    compile (pathSource Step.bracketed head steps) =
      .ok ⟨pathSource Step.bracketed head steps, [.expr (.path head steps)]⟩ := by
  have hwritable : (Expr.path head steps).Writable :=
    ⟨hname, hword, fun s hs => (hplain s hs).writable⟩
  obtain ⟨ts, hscan, hphrase⟩ :=
    (Expr.Written.path head (Step.written_bracketed hplain)).scans hwritable
  have hbody := Expr.ofBody_of_scans hscan hphrase
  have hpasses := hscan.passes
  rw [← List.flatMap_def] at hbody hpasses
  rw [compile_pathSource hpasses, hbody]
  rfl

/-- **Indices after points.** A path whose indices stand after points compiles exactly if its steps
can be read, and then to the path that is read. That is the path that is meant exactly if no index
is followed by another step; then it has, in every scope, the value that the path has with its
indices in brackets, which compiles always. -/
theorem compile_dotted (hname : Token.isName head = true)
    (hword : head ∉ ["true", "false", "null"]) (hplain : ∀ s ∈ steps, s.Plain) :
    let dotted := pathSource Step.dotted head steps
    let bracketed := pathSource Step.bracketed head steps
    (∀ t, compile dotted = .ok t ↔
      ∃ steps', ReadAs steps steps' ∧ t = ⟨dotted, [.expr (.path head steps')]⟩) ∧
    (compile dotted = .ok ⟨dotted, [.expr (.path head steps)]⟩ ↔
      steps.dropLast.all Step.isKey = true) ∧
    ∃ t', compile bracketed = .ok t' ∧ t'.segments = [.expr (.path head steps)] ∧
      (steps.dropLast.all Step.isKey = true → ∃ t, compile dotted = .ok t ∧
        ∀ (a : Arena) (s : ScopeId), t.evalIn a s = t'.evalIn a s) := by
  intro dotted bracketed
  have hdotted : ∀ t, compile dotted = .ok t ↔
      ∃ steps', ReadAs steps steps' ∧ t = ⟨dotted, [.expr (.path head steps')]⟩ :=
    fun _ => compile_dotted_iff hname hword hplain
  have hmeant : compile dotted = .ok ⟨dotted, [.expr (.path head steps)]⟩ ↔
      steps.dropLast.all Step.isKey = true := by
    rw [hdotted, ← readAs_self_iff]
    constructor
    · rintro ⟨steps', hread, heq⟩
      cases heq
      exact hread
    · exact fun hread => ⟨steps, hread, rfl⟩
  refine ⟨hdotted, hmeant, _, compile_bracketed hname hword hplain, rfl, ?_⟩
  exact fun hlast => ⟨_, hmeant.2 hlast, fun _ _ => rfl⟩

/-- An index at the end of a path with names before it. -/
theorem compile_dotted_last :
    let steps := [key "rows", key "first_1", index 9007199254740991]
    pathSource Step.dotted "a" steps = "$\x7ba.rows.first_1.9007199254740991\x7d" ∧
      ∃ t, compile "$\x7ba.rows.first_1.9007199254740991\x7d" = .ok t ∧
        t.segments = [.expr (.path "a" steps)] := by
  intro steps
  have hkeys : Token.isName "rows" = true ∧ Token.isName "first_1" = true := by decide
  have hindex : 9007199254740991 < Nat.pow 2 53 := by decide
  have hplain : ∀ s ∈ steps, s.Plain :=
    List.forall_mem_cons.2 ⟨hkeys.1, List.forall_mem_cons.2 ⟨hkeys.2,
      List.forall_mem_singleton.2 hindex⟩⟩
  have hname : Token.isName "a" = true := by decide
  have hsource : pathSource Step.dotted "a" steps = "$\x7ba.rows.first_1.9007199254740991\x7d" := by
    decide +kernel
  have hcompile := (compile_dotted hname (by decide) hplain).2.1.2 rfl
  rw [hsource] at hcompile
  exact ⟨hsource, _, hcompile, rfl⟩

/-- Two indices at the end of a path are read as one, and a name behind an index as no step. -/
theorem compile_fused_indices :
    let v := .list 0 [.num (Number.ofNat 1), .list 1 [.num (Number.ofNat 7), .num (Number.ofNat 8)]]
    let a := (({} : Arena).replace Arena.root "a" none v).2
    let shown source := (compile source).toOption.map fun t => (t.evalIn a Arena.root).display
    pathSource Step.dotted "a" [index 1, index 0] = "$\x7ba.1.0\x7d" ∧
      shown "$\x7ba.1.0\x7d" = some "[7, 8]" ∧ shown "$\x7ba[1][0]\x7d" = some "7" ∧
      pathSource Step.dotted "a" [index 1, key "b"] = "$\x7ba.1.b\x7d" ∧
      shown "$\x7ba.1.b\x7d" = none := by
  decide +kernel

end Template

end Scenario
