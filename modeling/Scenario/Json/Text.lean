import Scenario.Value.Basic

/-!
# Values as JSON text

Compact JSON: members in order, numbers in the JSON layout, texts with the short escapes and
`\u00xx` for the other control characters.
-/

namespace Scenario.Json

/-- A hexadecimal digit in lower case. -/
def hexDigit (n : Nat) : Char := Nat.digitChar (n % 16)

/-- A character inside a JSON text. -/
def escapeChar (c : Char) : List Char :=
  if c = '"' then ['\\', '"']
  else if c = '\\' then ['\\', '\\']
  else if c.toNat = 8 then ['\\', 'b']
  else if c.toNat = 12 then ['\\', 'f']
  else if c = '\n' then ['\\', 'n']
  else if c = '\r' then ['\\', 'r']
  else if c = '\t' then ['\\', 't']
  else if c.toNat < 32 then ['\\', 'u', '0', '0', hexDigit (c.toNat / 16), hexDigit c.toNat]
  else [c]

/-- A text in quotes. -/
def quote (s : String) : String :=
  String.ofList ('"' :: s.toList.flatMap escapeChar ++ ['"'])

mutual

/-- The JSON text of a value. -/
def write : Value → String
  | .null => "null"
  | .bool b => if b then "true" else "false"
  | .num x => Number.Layout.json.write x
  | .str s => quote s
  | .list _ items => "[" ++ ",".intercalate (writeItems items) ++ "]"
  | .tree _ entries => "\x7b" ++ ",".intercalate (writeEntries entries) ++ "\x7d"

/-- The JSON texts of the members of a list. -/
def writeItems : List Value → List String
  | [] => []
  | v :: vs => write v :: writeItems vs

/-- The JSON texts of the entries of a tree. -/
def writeEntries : List (String × Value) → List String
  | [] => []
  | (k, v) :: es => (quote k ++ ":" ++ write v) :: writeEntries es

end

end Scenario.Json
