import Scenario.Proofs.RoundTrip
import Mathlib.Data.List.Chain

/-!
# Templates as they are written

A template is written from chunks: literal texts, in which `${` is written `$${`, and bodies of
expressions between `${` and their brace. The main result is that compiling undoes this
(`Template.compile_undoes_writing`): the segments are the chunks again, whatever the texts hold.

A text may not end in `$` before an expression, as the two would read as an escape, and two texts
next to each other would read as one (`Chunk.MayPrecede`). Two facts carry the proof. A body that
reads as tokens is passed over as a whole by the search for its closing brace
(`Token.passes_of_readAll`), for both take quotes the same way. And an escaped text is read back
character by character (`pieces_escaped`), where what follows the text counts only for a `$` at
its end.
-/

namespace Scenario

/-! ### Bodies are passed over -/

namespace Token

/-- What one token, or a blank, takes off the front of a text and what it leaves: a quoted text, or
characters that are neither quotes nor the closing brace. -/
inductive Takes : List Char → Option Token → List Char → Prop where
  /-- A quoted text. -/
  | quoted {q : Char} {text rest : List Char} (hq : q = '\'' ∨ q = '"') (htext : q ∉ text) :
    Takes (q :: (text ++ q :: rest)) (some (str (String.ofList text))) rest
  /-- Anything else. -/
  | plain {word rest : List Char} {t : Option Token} (ht : ∀ s, t ≠ some (str s))
    (hword : ∀ c ∈ word, Text.isPlain '\x7d' c = true) : Takes (word ++ rest) t rest

theorem Takes.char {c : Char} {t : Option Token} (ht : ∀ s, t ≠ some (str s))
    (h : Text.isPlain '\x7d' c = true) (cs : List Char) : Takes (c :: cs) t cs := by
  have htakes : Takes ([c] ++ cs) t cs := .plain ht (List.forall_mem_singleton.2 h)
  exact htakes

/-- A word: its first character and those of a class. -/
theorem Takes.word {c : Char} {t : Option Token} (ht : ∀ s, t ≠ some (str s))
    (hc : Text.isPlain '\x7d' c = true) {p : Char → Bool}
    (hp : p '\'' = false ∧ p '"' = false ∧ p '\x7d' = false) (cs : List Char) :
    Takes (c :: cs) t (cs.dropWhile p) := by
  have hplain : ∀ d ∈ c :: cs.takeWhile p, Text.isPlain '\x7d' d = true := by
    refine List.forall_mem_cons.2 ⟨hc, ?_⟩
    intro d hd
    exact Text.isPlain_of hp (List.mem_takeWhile_imp hd)
  have htakes : Takes (c :: cs.takeWhile p ++ cs.dropWhile p) t (cs.dropWhile p) :=
    .plain ht hplain
  rwa [List.cons_append, List.takeWhile_append_dropWhile] at htakes

theorem takes_readQuoted {q : Char} (hq : q = '\'' ∨ q = '"') {cs text : List Char}
    {rest : Rest cs} (h : readQuoted q cs = some (text, rest)) :
    Takes (q :: cs) (some (str (String.ofList text))) rest.val := by
  unfold readQuoted at h
  split at h
  · cases h
  · rename_i d rest' hdrop
    cases h
    have hd : d = q := by
      have hhead := List.head?_dropWhile_not (· != q) cs
      rw [hdrop] at hhead
      simpa using hhead
    subst hd
    have htext : d ∉ cs.takeWhile (· != d) := by
      intro hmem
      simpa using List.mem_takeWhile_imp hmem
    have htakes : Takes (d :: (cs.takeWhile (· != d) ++ d :: rest'))
        (some (str (String.ofList (cs.takeWhile (· != d))))) rest' := .quoted hq htext
    rwa [← hdrop, List.takeWhile_append_dropWhile] at htakes

theorem takes_readNumber {c : Char} (hc : Text.isPlain '\x7d' c = true) {cs : List Char}
    {t : Option Token} {rest : Rest cs} (h : readNumber c cs = .ok (t, rest)) :
    Takes (c :: cs) t rest.val := by
  unfold readNumber at h
  simp only at h
  split at h
  · cases h
    exact .word (by simp) hc (by decide) cs
  · cases h

theorem takes_readWord {c : Char} {cs : List Char} {t : Option Token} {rest : Rest cs}
    (h : readWord c cs = .ok (t, rest)) : Takes (c :: cs) t rest.val := by
  unfold readWord at h
  split at h
  · rename_i hc
    cases h
    subst hc
    exact .char (by simp) (by decide) cs
  · split at h
    · rename_i hc
      rw [Bool.or_eq_true, Bool.and_eq_true, decide_eq_true_eq] at hc
      refine takes_readNumber ?_ h
      obtain hdigit | ⟨rfl, -⟩ := hc
      · exact Text.isPlain_of (by decide) hdigit
      · decide
    · split at h
      · rename_i hname
        cases h
        exact .word (by simp) (Text.isPlain_of (by decide) hname) (by decide) cs
      · cases h

theorem single?_ne_str {c : Char} {t : Token} (h : single? c = some t) (s : String) :
    t ≠ str s := by
  rintro rfl
  unfold single? at h
  split_ifs at h <;> cases h

theorem double?_ne_str {c d : Char} {t : Token} (h : double? c d = some t) (s : String) :
    t ≠ str s := by
  rintro rfl
  unfold double? at h
  split_ifs at h <;> cases h

/-- **What a token takes.** Only a quoted text takes quotes off the text or the closing brace. -/
theorem takes_read {c : Char} {cs : List Char} {t : Option Token} {rest : Rest cs}
    (h : read c cs = .ok (t, rest)) : Takes (c :: cs) t rest.val := by
  unfold read at h
  split at h
  · rename_i hblank
    cases h
    exact .char (by simp) (Text.isPlain_of (by decide) hblank) cs
  · split at h
    · rename_i t hsingle
      cases h
      refine .char (by simpa using single?_ne_str hsingle) ?_ cs
      refine Text.isPlain_of (p := fun c => (single? c).isSome) (by decide) ?_
      rw [hsingle, Option.isSome_some]
    · split at h
      · rename_i t hdouble
        cases h
        obtain ⟨d, hd, hpair⟩ := Option.bind_eq_some_iff.1 hdouble
        obtain ⟨cs', rfl⟩ := List.head?_eq_some_iff.1 hd
        have hplain : ∀ m ∈ pairs, [m.1, m.2].all (Text.isPlain '\x7d') = true :=
          List.all_eq_true.1 (by decide)
        have htakes : Takes ([c, d] ++ cs') (some t) cs' :=
          .plain (by simpa using double?_ne_str hpair)
            (List.all_eq_true.1 (hplain (c, d) (mem_pairs hpair)))
        exact htakes
      · split at h
        · rename_i hquote
          split at h
          · rename_i hread
            cases h
            exact takes_readQuoted hquote hread
          · cases h
        · exact takes_readWord h

theorem Takes.passes {cs rest : List Char} {t : Option Token} (h : Takes cs t rest) :
    ∃ front, cs = front ++ rest ∧ Passes '\x7d' front := by
  cases h with
  | @quoted q text _ hq htext =>
    exact ⟨q :: text ++ [q], by simp, passes_quoted hq (quote_ne_brace hq) htext⟩
  | @plain word _ _ _ hword => exact ⟨word, rfl, passes_plain hword⟩

/-- **A text that reads as tokens is passed over by the search for the closing brace.** -/
theorem passes_of_readAll {cs : List Char} {ts : List Token} (h : readAll cs = .ok ts) :
    Passes '\x7d' cs := by
  fun_induction readAll cs generalizing ts with
  | case1 => exact passes_nil
  | case2 c cs e hread => cases h
  | case3 c cs t rest hread ih =>
    obtain ⟨us, hmore, -⟩ := exists_of_map_eq_ok h
    obtain ⟨front, hsplit, hfront⟩ := (takes_read hread).passes
    rw [hsplit]
    exact hfront.append (ih hmore)

end Token

theorem Expr.passes_of_ofBody {body : List Char} {e : Expr} (h : ofBody body = .ok e) :
    Passes '\x7d' body := by
  unfold ofBody at h
  split at h
  · rename_i ts hread
    exact Token.passes_of_readAll hread
  · cases h

namespace Template

/-! ### Chunks -/

/-- A part of a template before it is written. -/
inductive Chunk where
  /-- Literal text. -/
  | text (s : String)
  /-- A body and the expression that it holds. -/
  | body (source : String) (e : Expr) (holds : Expr.ofBody source.toList = .ok e)

/-- A text in which every `${` is replaced by `$${`. -/
def escaped : List Char → List Char
  | '$' :: '\x7b' :: cs => '$' :: '$' :: '\x7b' :: escaped cs
  | c :: cs => c :: escaped cs
  | [] => []

namespace Chunk

/-- A chunk as it is written. -/
def written : Chunk → List Char
  | text s => escaped s.toList
  | body source _ _ => '$' :: '\x7b' :: (source.toList ++ ['\x7d'])

/-- The segment of a chunk; an empty text has none. -/
def segment? : Chunk → Option Segment
  | text s => if s = "" then none else some (.text s)
  | body _ e _ => some (.expr e)

/-- Whether a chunk may stand directly before another one: no text before a text, and no text that
ends in `$` before an expression. -/
def MayPrecede : Chunk → Chunk → Prop
  | text _, text _ => False
  | text s, body _ _ _ => s.toList.getLast? ≠ some '$'
  | body _ _ _, _ => True

end Chunk

/-! ### Texts read back -/

theorem head?_escaped (cs : List Char) : (escaped cs).head? = cs.head? := by
  fun_cases escaped cs <;> rfl

/-- What may follow a text: nothing that makes a `$` at its end begin an expression or an escape. -/
structure Clears (text rest : List Char) : Prop where
  /-- No brace follows. -/
  brace : rest.head? ≠ some '\x7b'
  /-- No second `$` follows. -/
  dollar : text.getLast? = some '$' → rest.head? ≠ some '$'

theorem Clears.tail {c : Char} {cs rest : List Char} (h : Clears (c :: cs) rest) :
    Clears cs rest := by
  refine ⟨h.brace, ?_⟩
  intro hlast
  apply h.dollar
  rw [List.getLast?_cons, hlast, Option.getD_some]

theorem head?_escaped_append_ne {c : Char} {cs rest : List Char} (hcs : cs.head? ≠ some c)
    (hrest : rest.head? ≠ some c) : (escaped cs ++ rest).head? ≠ some c := by
  rw [List.head?_append, head?_escaped]
  cases hhead : cs.head? with
  | none => simpa using hrest
  | some d => simpa [hhead] using hcs

/-- Behind a `$` of the text that is not written twice, neither a brace nor `${` follows. -/
theorem Clears.after_dollar {cs rest : List Char} (h : Clears ('$' :: cs) rest)
    (hcs : cs.head? ≠ some '\x7b') :
    (escaped cs ++ rest).head? ≠ some '\x7b' ∧ ¬ ['$', '\x7b'] <+: escaped cs ++ rest := by
  refine ⟨head?_escaped_append_ne hcs h.brace, ?_⟩
  fun_cases escaped cs with
  | case1 cs => simp
  | case2 c cs hpair =>
    rintro ⟨w, hw⟩
    obtain ⟨rfl, hmore⟩ := List.cons.inj hw
    have hbrace : cs.head? ≠ some '\x7b' := by
      intro hhead
      obtain ⟨ds, rfl⟩ := List.head?_eq_some_iff.1 hhead
      exact hpair ds rfl rfl
    exact head?_escaped_append_ne hbrace h.brace (congrArg List.head? hmore.symm)
  | case3 =>
    rintro ⟨w, hw⟩
    exact h.dollar rfl (congrArg List.head? hw.symm)

/-- A character of text, unless it is a `$` that begins an escape or an expression. -/
theorem pieces_char {c : Char} {cs : List Char} (h : c = '$' →
    cs.head? ≠ some '\x7b' ∧ ¬ ['$', '\x7b'] <+: cs) : pieces (c :: cs) = .char c :: pieces cs := by
  rw [pieces]
  · rintro ds rfl rfl
    exact (h rfl).2 ⟨ds, rfl⟩
  · rintro ds rfl rfl
    exact (h rfl).1 rfl

/-- **An escaped text is read back as its characters.** -/
theorem pieces_escaped {text rest : List Char} (h : Clears text rest) :
    pieces (escaped text ++ rest) = text.map .char ++ pieces rest := by
  fun_induction escaped text with
  | case1 cs ih =>
    rw [List.cons_append, List.cons_append, List.cons_append, pieces, ih h.tail.tail]
    rfl
  | case2 c cs hpair ih =>
    rw [List.cons_append, pieces_char, ih h.tail]
    · rfl
    · rintro rfl
      refine h.after_dollar ?_
      intro hhead
      obtain ⟨ds, rfl⟩ := List.head?_eq_some_iff.1 hhead
      exact hpair ds rfl rfl
  | case3 => rfl

/-! ### Chunks read back -/

theorem assemble_chars (source : String) (cs : List Char) :
    ∀ (text : List Char) (ps : List Piece),
      assemble source text (cs.map .char ++ ps) = assemble source (cs.reverse ++ text) ps := by
  induction cs with
  | nil => exact fun _ _ => rfl
  | cons c cs ih =>
    intro text ps
    rw [List.map_cons, List.cons_append, assemble, ih, List.reverse_cons, List.append_assoc]
    rfl

theorem flush_reverse (s : String) :
    flush s.toList.reverse = (Chunk.segment? (.text s)).toList := by
  by_cases hs : s = ""
  · subst hs
    rfl
  · have hlist : s.toList ≠ [] := fun hnil => hs (String.toList_eq_nil_iff.1 hnil)
    simp [flush, Chunk.segment?, hs, hlist]

/-- What follows a text in a template that is written. -/
theorem clears_chunks {s : String} {chunks : List Chunk}
    (h : ∀ c ∈ chunks.head?, Chunk.MayPrecede (.text s) c) :
    Clears s.toList (chunks.flatMap Chunk.written) := by
  cases chunks with
  | nil => exact ⟨by simp, by simp⟩
  | cons c chunks =>
    have hc := h c rfl
    cases c with
    | text s' => exact hc.elim
    | body source e holds => exact ⟨by simp [Chunk.written], fun hlast => absurd hlast hc⟩

/-- The chunks behind a text that was gathered. -/
theorem assemble_chunks (source : String) {chunks : List Chunk}
    (h : chunks.IsChain Chunk.MayPrecede) : ∀ text : List Char,
      (∀ s, chunks.head? = some (.text s) → text = []) →
      assemble source text (pieces (chunks.flatMap Chunk.written)) =
        .ok (flush text ++ chunks.filterMap Chunk.segment?) := by
  induction chunks with
  | nil =>
    intro text _
    simp [pieces, assemble]
  | cons c chunks ih =>
    intro text hfirst
    obtain ⟨hnext, hrest⟩ := List.isChain_cons.1 h
    rw [List.flatMap_cons]
    cases c with
    | text s =>
      obtain rfl := hfirst s rfl
      have hafter : ∀ s', chunks.head? = some (.text s') → s.toList.reverse = [] :=
        fun s' hs' => (hnext _ hs').elim
      rw [Chunk.written, pieces_escaped (clears_chunks hnext), assemble_chars, List.append_nil,
        ih hrest _ hafter, flush_reverse]
      cases hs : Chunk.segment? (.text s) with
      | none => simp [flush, hs]
      | some seg => simp [flush, hs]
    | body source' e holds =>
      have hpieces : Chunk.written (.body source' e holds) ++ chunks.flatMap Chunk.written =
          '$' :: '\x7b' :: (source'.toList ++ '\x7d' :: chunks.flatMap Chunk.written) := by
        simp [Chunk.written]
      rw [hpieces, pieces_expr (Expr.passes_of_ofBody holds), assemble, holds,
        ih hrest [] (fun _ _ => rfl)]
      rfl

theorem compile_chunks {chunks : List Chunk} (h : chunks.IsChain Chunk.MayPrecede) :
    let source := String.ofList (chunks.flatMap Chunk.written)
    let segments := chunks.filterMap Chunk.segment?
    compile source = .ok ⟨source, if segments.isEmpty then [.text ""] else segments⟩ := by
  intro source segments
  rw [compile, String.toList_ofList, assemble_chunks source h [] (fun _ _ => rfl)]
  rfl

theorem evalIn_text {t : Template} {s : String} (h : t.segments = [.text s]) (a : Arena)
    (scope : ScopeId) : t.evalIn a scope = .str s := by
  simp [evalIn, eval, h, renderSegment, String.join]

/-- **Compiling undoes writing.** The segments of a template are the chunks that it was written
from, without empty texts; if nothing is left there is one empty text. So every text, with `${`
replaced by `$${`, compiles to a template whose value in every scope is that text. -/
theorem compile_undoes_writing {chunks : List Chunk} (h : chunks.IsChain Chunk.MayPrecede) :
    (let source := String.ofList (chunks.flatMap Chunk.written)
     let segments := chunks.filterMap Chunk.segment?
     compile source = .ok ⟨source, if segments.isEmpty then [.text ""] else segments⟩) ∧
    ∀ (s : String) (a : Arena) (scope : ScopeId),
      ∃ t, compile (String.ofList (escaped s.toList)) = .ok t ∧ t.evalIn a scope = .str s := by
  refine ⟨compile_chunks h, ?_⟩
  intro s a scope
  have hcompile := compile_chunks (.singleton (.text s))
  simp only [List.flatMap_singleton, Chunk.written] at hcompile
  refine ⟨_, hcompile, evalIn_text ?_ a scope⟩
  by_cases hs : s = ""
  · subst hs
    rfl
  · simp [Chunk.segment?, hs]

/-- Runs of `$`, escapes beside expressions, and a brace and `${` inside a quoted text. -/
theorem compile_undoes_writing_dollars :
    let source := "$$$\x7ba$$\x7b$\x7b x['$\x7b\x7d'] \x7d$\x7b1\x7d$$\x7b$"
    let e := Expr.path "x" [.key "$\x7b\x7d"]
    let one := Expr.lit (.num (Number.ofNat 1))
    ∃ chunks : List Chunk, chunks.IsChain Chunk.MayPrecede ∧
      chunks.flatMap Chunk.written = source.toList ∧
      compile source =
        .ok ⟨source, [.text "$$\x7ba$\x7b", .expr e, .expr one, .text "$\x7b$"]⟩ := by
  intro source e one
  have hread : Token.readAll " x['$\x7b\x7d'] ".toList =
      .ok [.ident "x", .openBracket, .str "$\x7b\x7d", .closeBracket] := by
    decide +kernel
  have hread' : Token.readAll "1".toList = .ok [.num (Number.ofNat 1)] := by
    decide +kernel
  have holds : Expr.ofBody " x['$\x7b\x7d'] ".toList = .ok e := by
    rw [Expr.ofBody, hread]
    rfl
  have holds' : Expr.ofBody "1".toList = .ok one := by
    rw [Expr.ofBody, hread']
    rfl
  let chunks : List Chunk :=
    [.text "$$\x7ba$\x7b", .body _ _ holds, .body _ _ holds', .text "$\x7b$"]
  have hlast : "$$\x7ba$\x7b".toList.getLast? ≠ some '$' := by
    decide
  have hchain : chunks.IsChain Chunk.MayPrecede :=
    .cons_cons hlast (.cons_cons trivial (.cons_cons trivial (.singleton _)))
  have hwritten : chunks.flatMap Chunk.written = source.toList := by
    simp only [chunks, List.flatMap_cons, List.flatMap_nil, Chunk.written]
    decide
  have hcompile := (compile_undoes_writing hchain).1
  simp only [hwritten, String.ofList_toList] at hcompile
  exact ⟨chunks, hchain, hwritten, hcompile⟩

end Template

end Scenario
