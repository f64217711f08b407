import Scenario.Xml.Markup

/-!
# Attributes of a tag

The attributes in the content of a tag, as they are written. A name runs to the next `=` or blank
and its first character may be anything; the value is quoted; nothing has to separate two
attributes. Places are byte offsets in the content.
-/

namespace Scenario.Xml

/-- Why an attribute cannot be read. -/
inductive AttrFault where
  /-- No `=` follows the name. -/
  | noEquals (place : Nat)
  /-- Nothing follows the `=`. -/
  | noValue (place : Nat)
  /-- The value is not quoted. -/
  | unquoted (place : Nat)
  /-- The quote of the value is not closed. -/
  | openQuote (place : Nat) (quote : Char)
  /-- The name was used before. -/
  | duplicate (place previous : Nat)
  deriving DecidableEq

/-- The text of a fault in an attribute. -/
def AttrFault.message : AttrFault → String
  | noEquals p => s!"position {p}: attribute key must be directly followed by `=` or space"
  | noValue p => s!"position {p}: `=` must be followed by an attribute value"
  | unquoted p => s!"position {p}: attribute value must be enclosed in `\"` or `'`"
  | openQuote p q => s!"position {p}: missing closing quote `{q}` in attribute value"
  | duplicate p prev =>
    s!"position {p}: duplicated attribute, previous declaration at position {prev}"

/-- An attribute as it is written, or the fault at which the attributes end. -/
inductive RawAttr where
  /-- A name, the place where it begins, and the characters of the value. -/
  | good (key : List Char) (place : Nat) (value : List Char)
  /-- A name without `=`. -/
  | noEquals (place : Nat)
  /-- A name with a value that cannot be read. -/
  | bad (key : List Char) (place : Nat) (fault : AttrFault)
  deriving DecidableEq

namespace RawAttr

open Markup (isSpace)

/-- A character of a name after its first one. -/
def isKeyChar (c : Char) : Bool := c != '=' && !isSpace c

/-- The value of an attribute after its `=`, and what follows it. -/
def readValue (size : Nat) (key : List Char) (place : Nat) (cs : List Char) :
    RawAttr × List Char :=
  match cs.dropWhile isSpace with
  | [] => (.bad key place (.noValue size), [])
  | q :: rest =>
    if q = '"' ∨ q = '\'' then
      match rest.dropWhile (· != q) with
      | [] => (.bad key place (.openQuote size q), [])
      | _ :: after => (.good key place (rest.takeWhile (· != q)), after)
    else (.bad key place (.unquoted (size - Text.byteLength (q :: rest))), [])

/-- The attribute whose name begins with `c`, and what follows it. -/
def readOne (size : Nat) (c : Char) (cs : List Char) : RawAttr × List Char :=
  let key := c :: cs.takeWhile isKeyChar
  let place := size - Text.byteLength (c :: cs)
  match (cs.dropWhile isKeyChar).dropWhile isSpace with
  | [] => (.noEquals size, [])
  | d :: rest =>
    if d = '=' then readValue size key place rest
    else (.noEquals (size - Text.byteLength (d :: rest)), [])

theorem readOne_length (size : Nat) (c : Char) (cs : List Char) :
    (readOne size c cs).2.length ≤ cs.length := by
  have h₁ := (List.dropWhile_sublist (l := cs) isKeyChar).length_le
  have h₂ := (List.dropWhile_sublist (l := cs.dropWhile isKeyChar) isSpace).length_le
  unfold readOne
  simp only
  split
  · simp
  · next d rest hd =>
    rw [hd] at h₂
    simp only [List.length_cons] at h₂
    split
    · have h₃ := (List.dropWhile_sublist (l := rest) isSpace).length_le
      unfold readValue
      split
      · simp
      · next q r hq =>
        rw [hq] at h₃
        simp only [List.length_cons] at h₃
        split
        · have h₄ := (List.dropWhile_sublist (l := r) (· != q)).length_le
          split
          · simp
          · next x after ha =>
            rw [ha] at h₄
            simp only [List.length_cons] at h₄ ⊢
            omega
        · simp
    · simp

/-- The attributes in the rest of a content of `size` bytes. Nothing follows a fault. -/
def readAll (size : Nat) (cs : List Char) : List RawAttr :=
  match _h : cs.dropWhile isSpace with
  | [] => []
  | c :: rest =>
    match _h' : readOne size c rest with
    | (.good key place value, after) => .good key place value :: readAll size after
    | (a, _) => [a]
termination_by cs.length
decreasing_by
  have h₁ := (List.dropWhile_sublist (l := cs) isSpace).length_le
  have h₂ := readOne_length size c rest
  simp only [_h, List.length_cons] at h₁
  simp only [_h'] at h₂
  omega

end RawAttr

/-- The name in the content of a tag: everything up to the first blank. -/
def rawName (content : List Char) : List Char := content.takeWhile fun c => !Markup.isSpace c

/-- The attributes in the content of a tag. -/
def rawAttrs (content : List Char) : List RawAttr :=
  RawAttr.readAll (Text.byteLength content) (content.dropWhile fun c => !Markup.isSpace c)

end Scenario.Xml
