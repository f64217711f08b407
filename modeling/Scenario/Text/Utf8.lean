/-!
# UTF-8

Reading characters from bytes. A sequence that is not well-formed is reported with its place and
with the number of bytes that could begin no character, or as cut off by the end of the input.
-/

namespace Scenario.Text

/-- Where bytes stop being UTF-8. -/
inductive Utf8Fault where
  /-- `count` bytes at `index` begin no character. -/
  | invalid (count index : Nat)
  /-- The input ends inside the character at `index`. -/
  | incomplete (index : Nat)
  deriving DecidableEq

/-- The text of a fault. -/
def Utf8Fault.message : Utf8Fault → String
  | invalid count index => s!"invalid utf-8 sequence of {count} bytes from index {index}"
  | incomplete index => s!"incomplete utf-8 byte sequence from index {index}"

/-- The number of bytes of a character with this first byte, or zero. -/
def charWidth (b : UInt8) : Nat :=
  if b < 0x80 then 1
  else if 0xC2 ≤ b ∧ b ≤ 0xDF then 2
  else if 0xE0 ≤ b ∧ b ≤ 0xEF then 3
  else if 0xF0 ≤ b ∧ b ≤ 0xF4 then 4
  else 0

/-- A byte that continues a character. -/
def isContinuation (b : UInt8) : Bool := 0x80 ≤ b && b ≤ 0xBF

/-- Whether `b` may follow the first byte `a`: overlong forms, surrogates and code points past the
last one are excluded here. -/
def isSecond (a b : UInt8) : Bool :=
  if a = 0xE0 then 0xA0 ≤ b && b ≤ 0xBF
  else if a = 0xED then 0x80 ≤ b && b ≤ 0x9F
  else if a = 0xF0 then 0x90 ≤ b && b ≤ 0xBF
  else if a = 0xF4 then 0x80 ≤ b && b ≤ 0x8F
  else isContinuation b

/-- The six bits that a continuation byte carries. -/
def payload (b : UInt8) : Nat := b.toNat % 64

/-- The characters of bytes that begin at `index`. -/
def decodeFrom : Nat → List UInt8 → Except Utf8Fault (List Char)
  | _, [] => .ok []
  | i, a :: rest =>
    match charWidth a, rest with
    | 1, rest => (decodeFrom (i + 1) rest).map (Char.ofNat a.toNat :: ·)
    | 0, _ => .error (.invalid 1 i)
    | _, [] => .error (.incomplete i)
    | w, b :: rest =>
      if !isSecond a b then .error (.invalid 1 i)
      else match w, rest with
        | 2, rest =>
          (decodeFrom (i + 2) rest).map (Char.ofNat (a.toNat % 32 * 64 + payload b) :: ·)
        | _, [] => .error (.incomplete i)
        | w, c :: rest =>
          if !isContinuation c then .error (.invalid 2 i)
          else match w, rest with
            | 3, rest =>
              (decodeFrom (i + 3) rest).map
                (Char.ofNat ((a.toNat % 16 * 64 + payload b) * 64 + payload c) :: ·)
            | _, [] => .error (.incomplete i)
            | _, d :: rest =>
              if !isContinuation d then .error (.invalid 3 i)
              else (decodeFrom (i + 4) rest).map
                (Char.ofNat (((a.toNat % 8 * 64 + payload b) * 64 + payload c) * 64 + payload d)
                  :: ·)

/-- The characters of bytes. -/
def decodeUtf8 (bytes : List UInt8) : Except Utf8Fault (List Char) := decodeFrom 0 bytes

/-- The number of bytes of a text. -/
def byteLength : List Char → Nat
  | [] => 0
  | c :: cs => c.utf8Size + byteLength cs

@[simp] theorem byteLength_nil : byteLength [] = 0 := rfl

@[simp] theorem byteLength_cons (c : Char) (cs : List Char) :
    byteLength (c :: cs) = c.utf8Size + byteLength cs := rfl

theorem byteLength_append (cs ds : List Char) :
    byteLength (cs ++ ds) = byteLength cs + byteLength ds := by
  induction cs with
  | nil => simp
  | cons c cs ih => simp [ih, Nat.add_assoc]

end Scenario.Text
