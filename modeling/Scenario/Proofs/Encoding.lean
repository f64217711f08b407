import Scenario.Text.Utf8
import Mathlib.Tactic.SplitIfs

/-!
# Bytes of a text

Decoding undoes encoding: the bytes that encode a character in UTF-8 are read as this character
(`decodeFrom_char`), so the bytes of a text are read as this text (`decodeUtf8_toUTF8`). What a
first byte says of the second one keeps out only sequences that encode no character
(`isSecond_tail`).
-/

namespace Scenario.Text

/-! ### Characters as bytes -/

theorem toNat_byte {n : Nat} (h : n < 256) : (UInt8.ofNat n).toNat = n := by
  rw [UInt8.toNat_ofNat', Nat.mod_eq_of_lt h]

theorem charWidth_byte {n : Nat} (h : n < 256) :
    charWidth (UInt8.ofNat n) =
      if n < 128 then 1
      else if 194 ≤ n ∧ n ≤ 223 then 2
      else if 224 ≤ n ∧ n ≤ 239 then 3
      else if 240 ≤ n ∧ n ≤ 244 then 4
      else 0 := by
  simp only [charWidth, UInt8.lt_iff_toNat_lt, UInt8.le_iff_toNat_le, toNat_byte h,
    UInt8.toNat_ofNat]

theorem isContinuation_tail (n : Nat) : isContinuation (UInt8.ofNat (n % 64 + 128)) = true := by
  have hn := toNat_byte (n := n % 64 + 128) (by omega)
  simp only [isContinuation, UInt8.le_iff_toNat_le, hn, UInt8.toNat_ofNat, Bool.and_eq_true,
    decide_eq_true_eq]
  omega

theorem payload_tail (n : Nat) : payload (UInt8.ofNat (n % 64 + 128)) = n % 64 := by
  rw [payload, toNat_byte (by omega)]
  omega

/-- A second byte passes if it keeps clear of what the first one excludes. -/
theorem isSecond_tail {a n : Nat} (ha : a < 256) (hlong : a = 224 → 32 ≤ n % 64)
    (hsurrogate : a = 237 → n % 64 < 32) (hlong' : a = 240 → 16 ≤ n % 64)
    (hlast : a = 244 → n % 64 < 16) :
    isSecond (UInt8.ofNat a) (UInt8.ofNat (n % 64 + 128)) = true := by
  have hn := toNat_byte (n := n % 64 + 128) (by omega)
  have hb := isContinuation_tail n
  simp only [isSecond, UInt8.le_iff_toNat_le, hn, UInt8.toNat_ofNat, ← UInt8.toNat_inj,
    toNat_byte ha]
  split_ifs
  · simp only [Bool.and_eq_true, decide_eq_true_eq]
    omega
  · simp only [Bool.and_eq_true, decide_eq_true_eq]
    omega
  · simp only [Bool.and_eq_true, decide_eq_true_eq]
    omega
  · simp only [Bool.and_eq_true, decide_eq_true_eq]
    omega
  · exact hb

section Decoding

variable {a b c d : UInt8} (i : Nat) (rest : List UInt8)

theorem decodeFrom_one (h : charWidth a = 1) :
    decodeFrom i (a :: rest) = (decodeFrom (i + 1) rest).map (Char.ofNat a.toNat :: ·) := by
  rw [decodeFrom.eq_def]
  simp [h]

theorem decodeFrom_two (h : charWidth a = 2) (hb : isSecond a b = true) :
    decodeFrom i (a :: b :: rest) =
      (decodeFrom (i + 2) rest).map (Char.ofNat (a.toNat % 32 * 64 + payload b) :: ·) := by
  rw [decodeFrom.eq_def]
  simp [h, hb]

theorem decodeFrom_three (h : charWidth a = 3) (hb : isSecond a b = true)
    (hc : isContinuation c = true) :
    decodeFrom i (a :: b :: c :: rest) = (decodeFrom (i + 3) rest).map
      (Char.ofNat ((a.toNat % 16 * 64 + payload b) * 64 + payload c) :: ·) := by
  rw [decodeFrom.eq_def]
  simp [h, hb, hc]

theorem decodeFrom_four (h : charWidth a = 4) (hb : isSecond a b = true)
    (hc : isContinuation c = true) (hd : isContinuation d = true) :
    decodeFrom i (a :: b :: c :: d :: rest) = (decodeFrom (i + 4) rest).map
      (Char.ofNat (((a.toNat % 8 * 64 + payload b) * 64 + payload c) * 64 + payload d) :: ·) := by
  rw [decodeFrom.eq_def]
  simp [h, hb, hc, hd]

end Decoding

/-- The bytes of a character read as this character. -/
theorem decodeFrom_char (c : Char) (i : Nat) (rest : List UInt8) :
    decodeFrom i (String.utf8EncodeChar c ++ rest) =
      (decodeFrom (i + (String.utf8EncodeChar c).length) rest).map (c :: ·) := by
  have hchar : Char.ofNat c.val.toNat = c := Char.ofNat_toNat c
  have hvalid : c.val.toNat < 0xD800 ∨ 0xDFFF < c.val.toNat ∧ c.val.toNat < 0x110000 := c.valid
  unfold String.utf8EncodeChar
  generalize c.val.toNat = v at *
  subst hchar
  simp only
  -- One case for each number of bytes. The first byte tells it, and the bits make up `v` again;
  -- that `v` is no surrogate is needed for the second byte of three only.
  split_ifs
  · have hwidth : charWidth (UInt8.ofNat v) = 1 := by
      rw [charWidth_byte (by omega), if_pos (by omega)]
    rw [List.singleton_append, decodeFrom_one i rest hwidth, toNat_byte (by omega)]
    rfl
  · have hwidth : charWidth (UInt8.ofNat (v / 64 % 32 + 192)) = 2 := by
      rw [charWidth_byte (by omega), if_neg (by omega), if_pos (by omega)]
    have hsecond := isSecond_tail (a := v / 64 % 32 + 192) (n := v) (by omega) (by omega)
      (by omega) (by omega) (by omega)
    have hnumber : (v / 64 % 32 + 192) % 32 * 64 + v % 64 = v := by omega
    rw [List.cons_append, List.singleton_append, decodeFrom_two i rest hwidth hsecond,
      toNat_byte (by omega), payload_tail, hnumber]
    rfl
  · have hwidth : charWidth (UInt8.ofNat (v / 4096 % 16 + 224)) = 3 := by
      rw [charWidth_byte (by omega), if_neg (by omega), if_neg (by omega), if_pos (by omega)]
    have hsecond := isSecond_tail (a := v / 4096 % 16 + 224) (n := v / 64) (by omega) (by omega)
      (by omega) (by omega) (by omega)
    have hnumber : ((v / 4096 % 16 + 224) % 16 * 64 + v / 64 % 64) * 64 + v % 64 = v := by omega
    rw [List.cons_append, List.cons_append, List.singleton_append,
      decodeFrom_three i rest hwidth hsecond (isContinuation_tail v), toNat_byte (by omega),
      payload_tail, payload_tail, hnumber]
    rfl
  · have hwidth : charWidth (UInt8.ofNat (v / 262144 % 8 + 240)) = 4 := by
      rw [charWidth_byte (by omega), if_neg (by omega), if_neg (by omega), if_neg (by omega),
        if_pos (by omega)]
    have hsecond := isSecond_tail (a := v / 262144 % 8 + 240) (n := v / 4096) (by omega) (by omega)
      (by omega) (by omega) (by omega)
    have hnumber : (((v / 262144 % 8 + 240) % 8 * 64 + v / 4096 % 64) * 64 + v / 64 % 64) * 64 +
        v % 64 = v := by omega
    rw [List.cons_append, List.cons_append, List.cons_append, List.singleton_append,
      decodeFrom_four i rest hwidth hsecond (isContinuation_tail (v / 64)) (isContinuation_tail v),
      toNat_byte (by omega), payload_tail, payload_tail, payload_tail, hnumber]
    rfl

theorem decodeFrom_flatMap (cs : List Char) (i : Nat) :
    decodeFrom i (cs.flatMap String.utf8EncodeChar) = .ok cs := by
  induction cs generalizing i with
  | nil => rfl
  | cons c cs ih =>
    rw [List.flatMap_cons, decodeFrom_char, ih]
    rfl

/-- The bytes of a text read as this text. -/
theorem decodeUtf8_toUTF8 (s : String) : decodeUtf8 s.toUTF8.data.toList = .ok s.toList := by
  have hbytes : s.toUTF8.data.toList = s.toList.flatMap String.utf8EncodeChar := by
    rw [← String.ofList_toList (s := s), String.toUTF8, String.toByteArray_ofList, List.utf8Encode,
      List.toList_data_toByteArray, String.ofList_toList]
  rw [hbytes, decodeUtf8, decodeFrom_flatMap]

end Scenario.Text
