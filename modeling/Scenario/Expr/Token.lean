import Scenario.Number.Layout
import Scenario.Number.Reading
import Scenario.Text.Blank
import Scenario.Text.Letter
import Scenario.Text.Quoted

/-!
# Tokens of expressions

An expression body is read as tokens: names, numbers, texts in either quote, and the marks
`. [ ] ( ) ! == != && ||`. Blanks separate tokens and are dropped.
-/

namespace Scenario

/-- A token of an expression. -/
inductive Token where
  /-- A name: a letter or underscore, then letters, numerals and underscores. -/
  | ident (name : String)
  /-- A number. -/
  | num (x : Number)
  /-- A quoted text. -/
  | str (s : String)
  /-- `.` -/
  | dot
  /-- `[` -/
  | openBracket
  /-- `]` -/
  | closeBracket
  /-- `(` -/
  | openParen
  /-- `)` -/
  | closeParen
  /-- `!` -/
  | not
  /-- `==` -/
  | equal
  /-- `!=` -/
  | notEqual
  /-- `&&` -/
  | and
  /-- `||` -/
  | or
  deriving DecidableEq

namespace Token

/-- The token as a diagnostic shows it. -/
def shown : Token → String
  | ident name => "Ident(" ++ Text.quoted name ++ ")"
  | num x => "Num(" ++ Number.Layout.token.write x ++ ")"
  | str s => "Str(" ++ Text.quoted s ++ ")"
  | dot => "Dot"
  | openBracket => "LBracket"
  | closeBracket => "RBracket"
  | openParen => "LParen"
  | closeParen => "RParen"
  | not => "Not"
  | equal => "EqEq"
  | notEqual => "NotEq"
  | and => "AndAnd"
  | or => "OrOr"

/-- The token that was found, or the end of the tokens, as a diagnostic shows it. -/
def shownNext : Option Token → String
  | some t => "Some(" ++ t.shown ++ ")"
  | none => "None"

/-- Why a body is no sequence of tokens. -/
inductive Fault where
  /-- A quote is not closed. -/
  | openText
  /-- A run of digits and points is no number. -/
  | badNumber (text : String)
  /-- A character begins no token. -/
  | badChar (c : Char)
  deriving DecidableEq

/-- What follows a token that ends within `cs`. -/
abbrev Rest (cs : List Char) := { rest : List Char // rest.length ≤ cs.length }

/-- The rest after the characters that satisfy a test. -/
def restAfter (p : Char → Bool) (cs : List Char) : Rest cs :=
  ⟨cs.dropWhile p, (List.dropWhile_sublist p).length_le⟩

/-- The quoted text up to the next quote, and what follows that quote. -/
def readQuoted (quote : Char) (cs : List Char) : Option (List Char × Rest cs) :=
  match h : cs.dropWhile (· != quote) with
  | [] => none
  | _ :: rest =>
    some (cs.takeWhile (· != quote), ⟨rest, by
      have := (List.dropWhile_sublist (l := cs) (· != quote)).length_le
      rw [h] at this
      exact Nat.le_of_succ_le this⟩)

/-- A character of a number after its first one. -/
def isNumberChar (c : Char) : Bool := c.isDigit || c = '.'

/-- A character that begins a name. -/
def isNameStart (c : Char) : Bool := Text.isLetter c || c = '_'

/-- A character of a name after its first one. -/
def isNameChar (c : Char) : Bool := Text.isAlphanumeric c || c = '_'

/-- The number that begins with `c`. -/
def readNumber (c : Char) (cs : List Char) : Except Fault (Option Token × Rest cs) :=
  let text := c :: cs.takeWhile isNumberChar
  match Number.ofChars? text with
  | some x => .ok (some (num x), restAfter isNumberChar cs)
  | none => .error (.badNumber (String.ofList text))

/-- A mark of one character. -/
def single? (c : Char) : Option Token :=
  if c = '.' then some dot
  else if c = '[' then some openBracket
  else if c = ']' then some closeBracket
  else if c = '(' then some openParen
  else if c = ')' then some closeParen
  else none

/-- A mark of two characters. -/
def double? (c d : Char) : Option Token :=
  if c = '!' ∧ d = '=' then some notEqual
  else if c = '=' ∧ d = '=' then some equal
  else if c = '&' ∧ d = '&' then some and
  else if c = '|' ∧ d = '|' then some or
  else none

/-- A token that is neither a mark of several characters nor a quoted text. -/
def readWord (c : Char) (cs : List Char) : Except Fault (Option Token × Rest cs) :=
  if c = '!' then .ok (some not, ⟨cs, Nat.le_refl _⟩)
  else if c.isDigit || (c = '-' && cs.head?.any Char.isDigit) then readNumber c cs
  else if isNameStart c then
    .ok (some (ident (String.ofList (c :: cs.takeWhile isNameChar))), restAfter isNameChar cs)
  else .error (.badChar c)

/-- The token that begins with `c`, or nothing for a blank, and what follows. -/
def read (c : Char) (cs : List Char) : Except Fault (Option Token × Rest cs) :=
  if Text.isBlank c then .ok (none, ⟨cs, Nat.le_refl _⟩)
  else match single? c with
    | some t => .ok (some t, ⟨cs, Nat.le_refl _⟩)
    | none =>
      match cs.head?.bind (double? c) with
      | some t => .ok (some t, ⟨cs.tail, by simp⟩)
      | none =>
        if c = '\'' ∨ c = '"' then
          match readQuoted c cs with
          | some (text, rest) => .ok (some (str (String.ofList text)), rest)
          | none => .error .openText
        else readWord c cs

/-- The tokens of a body. -/
def readAll : List Char → Except Fault (List Token)
  | [] => .ok []
  | c :: cs =>
    match read c cs with
    | .error e => .error e
    | .ok (t, rest) => (readAll rest.val).map fun ts => t.toList ++ ts
termination_by cs => cs.length
decreasing_by exact Nat.lt_succ_of_le rest.property

end Token

end Scenario
