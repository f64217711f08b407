import Scenario.Json.Numeral
import Scenario.Value.Basic

/-!
# JSON documents

A strict JSON reader. Lists and objects nest at most 127 deep; a document holds the members of an
object as they are written, repeated names included.
-/

namespace Scenario.Json

/-- A JSON document. -/
inductive Doc where
  /-- `null`. -/
  | null
  /-- `true` or `false`. -/
  | bool (b : Bool)
  /-- A number. -/
  | num (n : Numeral)
  /-- A text. -/
  | str (s : String)
  /-- A list. -/
  | list (items : List Doc)
  /-- An object, with its members as they are written. -/
  | object (members : List (String × Doc))

/-- The blanks between tokens. -/
def isSpace (c : Char) : Bool := c = ' ' || c = '\n' || c = '\t' || c = '\r'

/-- The text after the blanks at its front. -/
def skipSpace (cs : List Char) : List Char := cs.dropWhile isSpace

/-- The value of a hexadecimal digit. -/
def hexValue? (c : Char) : Option Nat :=
  if c.isDigit then some (c.toNat - 48)
  else if 'a' ≤ c && c ≤ 'f' then some (c.toNat - 87)
  else if 'A' ≤ c && c ≤ 'F' then some (c.toNat - 55)
  else none

/-- The code unit written by four hexadecimal digits. -/
def codeUnit? (a b c d : Char) : Option Nat := do
  return 4096 * (← hexValue? a) + 256 * (← hexValue? b) + 16 * (← hexValue? c) + (← hexValue? d)

/-- The character that a one-letter escape stands for. -/
def shortEscape? (c : Char) : Option Char :=
  if c = '"' ∨ c = '\\' ∨ c = '/' then some c
  else if c = 'b' then some (Char.ofNat 8)
  else if c = 'f' then some (Char.ofNat 12)
  else if c = 'n' then some '\n'
  else if c = 'r' then some '\r'
  else if c = 't' then some '\t'
  else none

/-- The rest of a text after its opening quote, and what follows the closing quote. Code units
above the basic plane come as a pair of surrogates. -/
def readText : List Char → Option (List Char × List Char)
  | '"' :: cs => some ([], cs)
  | '\\' :: 'u' :: a :: b :: c :: d :: '\\' :: 'u' :: a' :: b' :: c' :: d' :: cs =>
    match codeUnit? a b c d with
    | none => none
    | some n =>
      if 0xD800 ≤ n ∧ n < 0xDC00 then
        match codeUnit? a' b' c' d' with
        | none => none
        | some m =>
          if 0xDC00 ≤ m ∧ m < 0xE000 then
            (readText cs).map fun r =>
              (Char.ofNat (0x10000 + (n - 0xD800) * 0x400 + (m - 0xDC00)) :: r.1, r.2)
          else none
      else if 0xDC00 ≤ n ∧ n < 0xE000 then none
      else (readText ('\\' :: 'u' :: a' :: b' :: c' :: d' :: cs)).map fun r =>
        (Char.ofNat n :: r.1, r.2)
  | '\\' :: 'u' :: a :: b :: c :: d :: cs =>
    match codeUnit? a b c d with
    | none => none
    | some n =>
      if 0xD800 ≤ n ∧ n < 0xE000 then none
      else (readText cs).map fun r => (Char.ofNat n :: r.1, r.2)
  | '\\' :: e :: cs =>
    match shortEscape? e with
    | none => none
    | some c => (readText cs).map fun r => (c :: r.1, r.2)
  | c :: cs =>
    if c.toNat < 32 || c = '\\' then none else (readText cs).map fun r => (c :: r.1, r.2)
  | [] => none

/-- What follows a word at the front. -/
def afterWord : List Char → List Char → Option (List Char)
  | [], cs => some cs
  | w :: ws, c :: cs => if w = c then afterWord ws cs else none
  | _ :: _, [] => none

mutual

/-- The document at the front of a text, and what follows it. The first argument bounds the steps
taken, the second the lists and objects that may still open. -/
def readDoc : Nat → Nat → List Char → Option (Doc × List Char)
  | 0, _, _ => none
  | fuel + 1, depth, cs =>
    match skipSpace cs with
    | 'n' :: cs => (afterWord "ull".toList cs).map fun r => (.null, r)
    | 't' :: cs => (afterWord "rue".toList cs).map fun r => (.bool true, r)
    | 'f' :: cs => (afterWord "alse".toList cs).map fun r => (.bool false, r)
    | '"' :: cs => (readText cs).map fun r => (.str (String.ofList r.1), r.2)
    | '[' :: cs =>
      match depth with
      | 0 => none
      | depth + 1 =>
        match skipSpace cs with
        | ']' :: cs => some (.list [], cs)
        | cs => (readItems fuel depth cs).map fun r => (.list r.1, r.2)
    | '\x7b' :: cs =>
      match depth with
      | 0 => none
      | depth + 1 =>
        match skipSpace cs with
        | '\x7d' :: cs => some (.object [], cs)
        | cs => (readMembers fuel depth cs).map fun r => (.object r.1, r.2)
    | cs =>
      match readNumberText cs with
      | none => none
      | some (t, rest) => t.value.map fun n => (.num n, rest)

/-- The members of a list up to its closing bracket. -/
def readItems : Nat → Nat → List Char → Option (List Doc × List Char)
  | 0, _, _ => none
  | fuel + 1, depth, cs =>
    match readDoc fuel depth cs with
    | none => none
    | some (d, rest) =>
      match skipSpace rest with
      | ',' :: rest => (readItems fuel depth rest).map fun r => (d :: r.1, r.2)
      | ']' :: rest => some ([d], rest)
      | _ => none

/-- The members of an object up to its closing brace. -/
def readMembers : Nat → Nat → List Char → Option (List (String × Doc) × List Char)
  | 0, _, _ => none
  | fuel + 1, depth, cs =>
    match skipSpace cs with
    | '"' :: cs =>
      match readText cs with
      | none => none
      | some (k, rest) =>
        match skipSpace rest with
        | ':' :: rest =>
          match readDoc fuel depth rest with
          | none => none
          | some (d, rest) =>
            match skipSpace rest with
            | ',' :: rest =>
              (readMembers fuel depth rest).map fun r => ((String.ofList k, d) :: r.1, r.2)
            | '\x7d' :: rest => some ([(String.ofList k, d)], rest)
            | _ => none
        | _ => none
    | _ => none

end

/-- How deep lists and objects may nest. -/
def maxDepth : Nat := 127

/-- The document that a text holds, with nothing but blanks around it. -/
def Doc.ofString? (s : String) : Option Doc :=
  match readDoc (2 * s.length + 2) maxDepth s.toList with
  | some (d, rest) => if (skipSpace rest).isEmpty then some d else none
  | none => none

mutual

/-- The value of a document. A repeated name keeps its first place and its last value. -/
def Doc.toValue : Doc → Value
  | .null => .null
  | .bool b => .bool b
  | .num n => .num n.toNumber
  | .str s => .str s
  | .list items => .ofItems (toValues items)
  | .object members => .ofEntries (.ofPairs (toPairs members))

/-- The values of documents. -/
def toValues : List Doc → List Value
  | [] => []
  | d :: ds => d.toValue :: toValues ds

/-- The values of named documents. -/
def toPairs : List (String × Doc) → List (String × Value)
  | [] => []
  | (k, d) :: ds => (k, d.toValue) :: toPairs ds

end

/-- The value that a JSON text holds. -/
def read? (s : String) : Option Value := (Doc.ofString? s).map Doc.toValue

end Scenario.Json
