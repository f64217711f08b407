import Scenario.Expr.Parser
import Scenario.Scope.Arena
import Scenario.Text.Unquoted

/-!
# Templates

A template is text with `${…}` expressions in it; `$${` stands for the two characters `${`. A
template that is a single expression has the value of that expression, any other one is a text in
which null leaves no trace.
-/

namespace Scenario

/-- A part of a template. -/
inductive Segment where
  /-- Literal text. -/
  | text (s : String)
  /-- An expression. -/
  | expr (e : Expr)

/-- A compiled template. -/
structure Template where
  /-- The text it was compiled from. -/
  source : String
  /-- Its parts. -/
  segments : List Segment

namespace Template

/-- What a template is read as before its expressions are: characters of text, bodies of
expressions, and the place where an expression is not closed. -/
inductive Piece where
  /-- A character of text. -/
  | char (c : Char)
  /-- The body of an expression. -/
  | body (cs : List Char)
  /-- An expression without its closing brace. -/
  | unclosed
  deriving DecidableEq

/-- The pieces of a template. -/
def pieces : List Char → List Piece
  | '$' :: '$' :: '\x7b' :: cs => .char '$' :: .char '\x7b' :: pieces cs
  | '$' :: '\x7b' :: cs =>
    match _h : Text.splitUnquoted '\x7d' none cs with
    | some (body, rest) => .body body :: pieces rest
    | none => [.unclosed]
  | c :: cs => .char c :: pieces cs
  | [] => []
termination_by cs => cs.length
decreasing_by
  · simp only [List.length_cons]
    omega
  · have := Text.splitUnquoted_length _h
    simp only [List.length_cons]
    omega
  · simp

/-- The text gathered so far as a segment, unless it is empty. The characters are in reverse. -/
def flush (text : List Char) : List Segment :=
  if text.isEmpty then [] else [.text (String.ofList text.reverse)]

/-- The segments of pieces; `text` holds the characters gathered so far in reverse. -/
def assemble (source : String) : List Char → List Piece → Except ExprError (List Segment)
  | text, [] => .ok (flush text)
  | text, .char c :: ps => assemble source (c :: text) ps
  | text, .body cs :: ps =>
    match Expr.ofBody cs with
    | .error e => .error e
    | .ok e => (assemble source [] ps).map fun segs => flush text ++ .expr e :: segs
  | _, .unclosed :: _ => .error (.unterminated source)

/-- Compiles a text. -/
def compile (source : String) : Except ExprError Template :=
  (assemble source [] (pieces source.toList)).map fun segs =>
    ⟨source, if segs.isEmpty then [.text ""] else segs⟩

/-- The text of a value inside a template. -/
def insertion : Value → String
  | .null => ""
  | v => v.display

/-- The text of a segment. -/
def renderSegment (env : String → Option Value) : Segment → String
  | .text s => s
  | .expr e => insertion (e.eval env)

/-- The value of a template where `env` gives the values of names. -/
def eval (t : Template) (env : String → Option Value) : Value :=
  match t.segments with
  | [.expr e] => e.eval env
  | segs => .str (String.join (segs.map (renderSegment env)))

/-- The value of a template in a scope. -/
def evalIn (t : Template) (a : Arena) (s : ScopeId) : Value := t.eval (a.get? s)

end Template

end Scenario
