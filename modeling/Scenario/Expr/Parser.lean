import Scenario.Expr.Basic

/-!
# Expressions from tokens

The grammar, loosest binding first:

    or    := and ('||' and)*
    and   := equal ('&&' equal)*
    equal := unary (('==' | '!=') unary)?
    unary := '!' unary | prime
    prime := number | text | 'true' | 'false' | 'null' | '(' or ')' | path
    path  := name ('.' (name | index) | '[' (index | text) ']')*

Chains of `||` and `&&` associate to the left. A reader takes the tokens of its phrase off the
front and gives what is left.
-/

namespace Scenario

/-- Why a text is no template or expression. -/
inductive ExprError where
  /-- An expression in the template is not closed. -/
  | unterminated (source : String)
  /-- A body is no sequence of tokens. -/
  | lexical (fault : Token.Fault) (body : String)
  /-- A body without tokens. -/
  | empty
  /-- Tokens after the end of an expression. -/
  | trailing (body : String)
  /-- No phrase begins with this token. -/
  | unexpected (next : Option Token)
  /-- No property name follows a point. -/
  | noProperty (next : Option Token)
  /-- No index follows an opening bracket. -/
  | noIndex (next : Option Token)
  /-- No closing bracket follows an index. -/
  | noCloseBracket
  /-- No closing parenthesis follows a phrase. -/
  | noCloseParen
  deriving DecidableEq

/-- The text of a fault in an expression. -/
def ExprError.message : ExprError → String
  | unterminated source => s!"Unterminated expression in '{source}'"
  | lexical .openText body => s!"Unterminated string literal in '{body}'"
  | lexical (.badNumber text) body => s!"Invalid number '{text}' in '{body}'"
  | lexical (.badChar c) body => s!"Unexpected character '{c}' in '{body}'"
  | empty => "Empty expression"
  | trailing body => s!"Unexpected trailing input in '{body}'"
  | unexpected next => "Unexpected token " ++ Token.shownNext next
  | noProperty next => "Expected property name after '.', found " ++ Token.shownNext next
  | noIndex next => "Expected index, found " ++ Token.shownNext next
  | noCloseBracket => "Expected ']'"
  | noCloseParen => "Expected ')'"

namespace Expr

/-- Takes a phrase off the front of the tokens. -/
abbrev Reader (α : Type) := List Token → Except ExprError (α × List Token)

/-- The step after a point. -/
def dotStep? : Token → Option Step
  | .ident k => some (.key k)
  | .num x => x.toIndex?.map .index
  | _ => none

/-- The step between brackets. -/
def bracketStep? : Token → Option Step
  | .num x => x.toIndex?.map .index
  | .str k => some (.key k)
  | _ => none

/-- The steps of a path after its head. -/
def readSteps : Reader (List Step)
  | .dot :: t :: ts =>
    match dotStep? t with
    | some s => (readSteps ts).map fun r => (s :: r.1, r.2)
    | none => .error (.noProperty (some t))
  | [.dot] => .error (.noProperty none)
  | .openBracket :: t :: .closeBracket :: ts =>
    match bracketStep? t with
    | some s => (readSteps ts).map fun r => (s :: r.1, r.2)
    | none => .error (.noIndex (some t))
  | .openBracket :: t :: _ =>
    match bracketStep? t with
    | some _ => .error .noCloseBracket
    | none => .error (.noIndex (some t))
  | [.openBracket] => .error (.noIndex none)
  | ts => .ok ([], ts)

/-- The literal that a name spells. -/
def keyword? (name : String) : Option Value :=
  if name = "true" then some (.bool true)
  else if name = "false" then some (.bool false)
  else if name = "null" then some .null
  else none

/-- A phrase that is not an operation; `inner` reads what stands in parentheses. -/
def readPrime (inner : Reader Expr) : Reader Expr
  | .num x :: ts => .ok (lit (.num x), ts)
  | .str s :: ts => .ok (lit (.str s), ts)
  | .openParen :: ts =>
    match inner ts with
    | .ok (e, .closeParen :: rest) => .ok (e, rest)
    | .ok _ => .error .noCloseParen
    | .error e => .error e
  | .ident name :: ts =>
    match keyword? name with
    | some v => .ok (lit v, ts)
    | none => (readSteps ts).map fun r => (path name r.1, r.2)
  | ts => .error (.unexpected ts.head?)

/-- Any number of negations, then a phrase. -/
def readUnary (prime : Reader Expr) : Reader Expr
  | .not :: ts => (readUnary prime ts).map fun r => (not r.1, r.2)
  | ts => prime ts

/-- A phrase, or a comparison of two. -/
def readEqual (unary : Reader Expr) : Reader Expr := fun ts =>
  match unary ts with
  | .ok (l, .equal :: rest) => (unary rest).map fun r => (compare false l r.1, r.2)
  | .ok (l, .notEqual :: rest) => (unary rest).map fun r => (compare true l r.1, r.2)
  | r => r

/-- Further operands of an operator, joined to what was read before. The first argument bounds
their number. -/
def readMore (op : Token) (join : Expr → Expr → Expr) (item : Reader Expr) :
    Nat → Expr → Reader Expr
  | n + 1, l, t :: ts =>
    if t = op then
      match item ts with
      | .ok (r, rest) => readMore op join item n (join l r) rest
      | .error e => .error e
    else .ok (l, t :: ts)
  | _, l, ts => .ok (l, ts)

/-- Operands separated by an operator. -/
def readChain (op : Token) (join : Expr → Expr → Expr) (item : Reader Expr) : Reader Expr :=
  fun ts =>
    match item ts with
    | .ok (l, rest) => readMore op join item rest.length l rest
    | .error e => .error e

/-- A disjunction whose parentheses nest less deep than the first argument. -/
def readOr : Nat → Reader Expr
  | 0 => fun ts => .error (.unexpected ts.head?)
  | depth + 1 =>
    readChain .or or (readChain .and and (readEqual (readUnary (readPrime (readOr depth)))))

/-- The expression that tokens form. Parentheses cannot nest deeper than there are tokens. -/
def ofTokens (body : String) (ts : List Token) : Except ExprError Expr :=
  match ts with
  | [] => .error .empty
  | ts =>
    match readOr (ts.length + 1) ts with
    | .ok (e, []) => .ok e
    | .ok _ => .error (.trailing body)
    | .error e => .error e

/-- The expression that a body holds. -/
def ofBody (body : List Char) : Except ExprError Expr :=
  match Token.readAll body with
  | .ok ts => ofTokens (String.ofList body) ts
  | .error fault => .error (.lexical fault (String.ofList body))

end Expr

end Scenario
