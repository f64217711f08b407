import Scenario.Text.Utf8

/-!
# Character references

Texts and attribute values may hold `&lt; &gt; &amp; &apos; &quot;` and numeric references in
decimal or hexadecimal form. Places in messages are byte offsets in the text.
-/

namespace Scenario.Xml

/-- Why the number of a numeric reference is refused. -/
inductive NumberFault where
  /-- There are no digits. -/
  | empty
  /-- A character is no digit. -/
  | badDigit
  /-- The number does not fit 32 bits. -/
  | tooLarge
  /-- A sign stands in front. -/
  | sign
  /-- The number is zero. -/
  | zero
  /-- The number is no code point of a character. -/
  | notChar (n : Nat)
  deriving DecidableEq

/-- Why a reference is refused. -/
inductive EntityFault where
  /-- No semicolon ends the reference that begins at `start`; the text has `size` bytes. -/
  | unterminated (start size : Nat)
  /-- The name between `start` and `stop` is unknown. -/
  | unknown (start stop : Nat) (name : String)
  /-- The number is refused. -/
  | number (fault : NumberFault)
  deriving DecidableEq

/-- The text of a refused number. -/
def NumberFault.message : NumberFault → String
  | empty => "cannot parse integer from empty string"
  | badDigit => "invalid digit found in string"
  | tooLarge => "number too large to fit in target type"
  | sign => "unexpected number sign"
  | zero => "0x0 character is not permitted in XML"
  | notChar n => s!"`{n}` is not a valid codepoint"

/-- The text of a refused reference. -/
def EntityFault.message : EntityFault → String
  | unterminated start size =>
    s!"Error while escaping character at range {start}..{size}: Cannot find ';' after '&'"
  | unknown start stop name => s!"at {start}..{stop}: unrecognized entity `{name}`"
  | number fault => "invalid character reference: " ++ fault.message

/-- The value of a digit in a radix of at most sixteen. -/
def digitValue? (radix : Nat) (c : Char) : Option Nat :=
  let v :=
    if c.isDigit then c.toNat - 48
    else if 'a' ≤ c && c ≤ 'f' then c.toNat - 87
    else if 'A' ≤ c && c ≤ 'F' then c.toNat - 55
    else 16
  if v < radix then some v else none

/-- The number of 32 bits that digits write, continued from `n`. -/
def readDigits (radix : Nat) : Nat → List Char → Except NumberFault Nat
  | n, [] => .ok n
  | n, c :: cs =>
    match digitValue? radix c with
    | none => .error .badDigit
    | some d =>
      if Nat.pow 2 32 ≤ n * radix + d then .error .tooLarge
      else readDigits radix (n * radix + d) cs

/-- The number that is written, without a sign. -/
def readUnsigned (radix : Nat) (cs : List Char) : Except NumberFault Nat :=
  match cs with
  | [] => .error .empty
  | c :: _ => if c = '+' ∨ c = '-' then .error .sign else readDigits radix 0 cs

/-- The character of a code point. -/
def charOf (n : Nat) : Except NumberFault Char :=
  if n = 0 then .error .zero
  else if n < 0xD800 ∨ (0xE000 ≤ n ∧ n < 0x110000) then .ok (Char.ofNat n)
  else .error (.notChar n)

/-- The character of a numeric reference, after its `#`. -/
def numericChar (cs : List Char) : Except NumberFault Char :=
  match cs with
  | 'x' :: hex => (readUnsigned 16 hex).bind charOf
  | dec => (readUnsigned 10 dec).bind charOf

/-- The character of a named reference. -/
def namedChar? (name : String) : Option Char :=
  if name = "lt" then some '<'
  else if name = "gt" then some '>'
  else if name = "amp" then some '&'
  else if name = "apos" then some '\''
  else if name = "quot" then some '"'
  else none

/-- The character of a reference whose name begins at byte `start`. -/
def entityChar (start : Nat) (name : List Char) : Except EntityFault Char :=
  match name with
  | '#' :: digits => (numericChar digits).mapError .number
  | name =>
    match namedChar? (String.ofList name) with
    | some c => .ok c
    | none => .error (.unknown start (start + Text.byteLength name) (String.ofList name))

/-- A character that may stand inside a reference. -/
def isEntityChar (c : Char) : Bool := c != '&' && c != ';'

/-- The characters of a text of `size` bytes with its references replaced. -/
def unescapeFrom (size : Nat) : List Char → Except EntityFault (List Char)
  | [] => .ok []
  | c :: cs =>
    if c = '&' then
      let start := size - Text.byteLength cs
      match _h : cs.dropWhile isEntityChar with
      | ';' :: rest =>
        match entityChar start (cs.takeWhile isEntityChar) with
        | .error e => .error e
        | .ok d => (unescapeFrom size rest).map (d :: ·)
      | _ => .error (.unterminated (start - 1) size)
    else (unescapeFrom size cs).map (c :: ·)
termination_by cs => cs.length
decreasing_by
  · have := (List.dropWhile_sublist (l := cs) isEntityChar).length_le
    simp only [_h, List.length_cons] at this ⊢
    omega
  · simp

/-- A text with its references replaced. -/
def unescape (cs : List Char) : Except EntityFault String :=
  (unescapeFrom (Text.byteLength cs) cs).map String.ofList

end Scenario.Xml
