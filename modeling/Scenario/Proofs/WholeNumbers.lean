import Scenario.Number.Reading
import Mathlib.Data.List.TakeWhile
import Mathlib.Tactic.IntervalCases

/-!
# Whole numbers in decimal digits

A natural number below `2 ^ 53` is a binary64 number without rounding: its significand is shifted up
to fifty-three bits, and the scale takes the shift back. So its decimal digits read as that very
number (`ofChars?_toDigits`), and the number gives it back as an index (`toIndex?_ofNat`). Which
numbers are an index at all is said of their value, without rounding (`toIndex?_eq_some_iff`).
-/

namespace Scenario

namespace Text

/-- The decimal digits. -/
def digits : List Char := ['0', '1', '2', '3', '4', '5', '6', '7', '8', '9']

theorem mem_digits {c : Char} (h : c.isDigit = true) : c ∈ digits := by
  obtain ⟨hlow, hhigh⟩ : 48 ≤ c.toNat ∧ c.toNat ≤ 57 := Char.isDigit_iff_toNat.1 h
  have hc : Char.ofNat c.toNat = c := Char.ofNat_toNat c
  rw [← hc]
  interval_cases c.toNat <;> decide

end Text

namespace Number

/-! ### Reading digits -/

/-- A number with the exponent zero is a quotient by one. -/
theorem ofDecimal_zero (n : Nat) : ofDecimal false n 0 = ofNat n := by
  by_cases hn : n = 0
  · subst hn
    rfl
  · have hlog : ¬ ((n.log2 : Int) + 1 + 0 < -400) := by omega
    rw [ofDecimal, if_neg hn, if_neg (by decide), if_neg hlog, ofNat]
    simp

/-- Digits alone are a mantissa without a point and without an exponent. -/
theorem readDecimal_digits {ds : List Char} (hne : ds ≠ []) (h : ∀ c ∈ ds, c.isDigit = true) :
    readDecimal false ds = some (ofNat (digitsValue ds)) := by
  have htake : ds.takeWhile Char.isDigit = ds := List.takeWhile_eq_self_iff.2 h
  have hdrop : ds.dropWhile Char.isDigit = [] := List.dropWhile_eq_nil_iff.2 h
  simp [readDecimal, htake, hdrop, hne, readExponent, ofDecimal_zero]

/-- A text that begins with a digit has no sign and spells none of the words for special numbers. -/
theorem ofChars?_of_isDigit {c : Char} (h : c.isDigit = true) (cs : List Char) :
    ofChars? (c :: cs) = readDecimal false (c :: cs) := by
  have hsign : c ≠ '-' ∧ c ≠ '+' := by
    refine ⟨?_, ?_⟩ <;> rintro rfl <;> exact absurd h (by decide)
  have hword : ∀ d ds, d ∉ Text.digits.map Char.toLower →
      String.ofList ((c :: cs).map Char.toLower) ≠ String.ofList (d :: ds) := by
    intro d ds hd heq
    rw [String.ofList_inj, List.map_cons, List.cons.injEq] at heq
    exact hd (heq.1 ▸ List.mem_map_of_mem (Text.mem_digits h))
  have hinf := hword 'i' ['n', 'f'] (by decide)
  have hinfinity := hword 'i' ['n', 'f', 'i', 'n', 'i', 't', 'y'] (by decide)
  have hnan := hword 'n' ['a', 'n'] (by decide)
  have hunsigned : readUnsigned false (c :: cs) = readDecimal false (c :: cs) := by
    rw [readUnsigned, if_neg (not_or.2 ⟨hinf, hinfinity⟩), if_neg hnan]
  unfold ofChars?
  split
  · rename_i heq
    exact absurd (List.cons.inj heq).1 hsign.1
  · rename_i heq
    exact absurd (List.cons.inj heq).1 hsign.2
  · exact hunsigned

/-- **The decimal digits of a natural number denote the number nearest to it.** -/
theorem ofChars?_toDigits (n : Nat) : ofChars? (Nat.toDigits 10 n) = some (ofNat n) := by
  have hne : Nat.toDigits 10 n ≠ [] := Nat.toDigits_ne_nil
  have hdigits : ∀ c ∈ Nat.toDigits 10 n, c.isDigit = true :=
    fun c hc => Nat.isDigit_of_mem_toDigits (by decide) (by decide) hc
  have hvalue : digitsValue (Nat.toDigits 10 n) = n :=
    Nat.ofDigitChars_toDigits (by decide) (by decide)
  have hread := readDecimal_digits hne hdigits
  rw [hvalue] at hread
  obtain ⟨c, cs, hcs⟩ := List.exists_cons_of_ne_nil hne
  rw [hcs] at hread hdigits ⊢
  rw [ofChars?_of_isDigit (hdigits c List.mem_cons_self), hread]

/-! ### Exact numbers -/

/-- The words below the sign bit are the magnitudes. -/
theorem magnitude_ofMagnitude {m : Nat} (h : m < Nat.pow 2 63) :
    (ofMagnitude false m).magnitude = m ∧ (ofMagnitude false m).isNegative = false := by
  have hm : m % Nat.pow 2 63 + 0 = m := Nat.mod_eq_of_lt h
  have hbits : (ofMagnitude false m).bits.toNat = m := by
    rw [ofMagnitude, if_neg Bool.false_ne_true, hm]
    exact UInt64.toNat_ofNat_of_lt' (Nat.lt_trans h (by decide))
  rw [magnitude, isNegative, hbits]
  exact ⟨hm, decide_eq_false (Nat.not_le.2 h)⟩

theorem roundDiv_one (n : Nat) : roundDiv n 1 = n := by
  simp [roundDiv, Nat.mod_one]

theorem log2Div_one {n : Nat} (hn : n ≠ 0) : log2Div n 1 = n.log2 := by
  have hle : Nat.pow 2 n.log2 ≤ n := Nat.log2_self_le hn
  have hlog : (Nat.log2 1 : Int) = 0 := rfl
  simp only [log2Div, hlog, Int.sub_zero, Int.toNat_natCast, Int.toNat_neg_natCast, Nat.one_mul]
  exact if_pos (by simpa using hle)

/-- A significand of fifty-three bits stands right above the scale. -/
theorem nearestMagnitude_one {n k : Nat} (hn : n ≠ 0) (hk : n.log2 + k = 52) :
    nearestMagnitude n 1 =
      min ((1074 - k) * Nat.pow 2 52 + n * Nat.pow 2 k) infinityMagnitude := by
  have hq : max (log2Div n 1 - 52) (-1074) = -(k : Int) := by
    rw [log2Div_one hn]
    omega
  have hunit : (-(k : Int) + 1074).toNat = 1074 - k := by omega
  simp only [nearestMagnitude, hq, hunit, Int.neg_neg, Int.toNat_natCast, Int.toNat_neg_natCast,
    Nat.one_mul]
  rw [show Nat.pow 2 0 = 1 from rfl, roundDiv_one]

/-- A significand of fifty-three bits with such a scale is far from infinity. -/
theorem lt_infinityMagnitude {m : Nat} (k : Nat) (h : m < 2 * Nat.pow 2 52) :
    (1074 - k) * Nat.pow 2 52 + m < infinityMagnitude := by
  have hbelow : (1074 - k) * Nat.pow 2 52 ≤ 1074 * Nat.pow 2 52 :=
    Nat.mul_le_mul_right _ (Nat.sub_le 1074 k)
  calc (1074 - k) * Nat.pow 2 52 + m < 1074 * Nat.pow 2 52 + 2 * Nat.pow 2 52 :=
        Nat.add_lt_add_of_le_of_lt hbelow h
    _ < infinityMagnitude := by decide

/-- The number whose word is a significand `m` of fifty-three bits above the scale `-k`. -/
theorem parts_ofMagnitude {m k : Nat} (hk : k ≤ 52) (hlow : Nat.pow 2 52 ≤ m)
    (hhigh : m < 2 * Nat.pow 2 52) :
    let x := ofMagnitude false ((1074 - k) * Nat.pow 2 52 + m)
    x.isFinite = true ∧ x.isNegative = false ∧ x.significand = m ∧ x.scale = -(k : Int) := by
  intro x
  obtain ⟨P, hP⟩ : ∃ P, P = Nat.pow 2 52 := ⟨_, rfl⟩
  have hpos : 0 < P := hP ▸ Nat.pow_pos (by decide)
  have hfinite := lt_infinityMagnitude k hhigh
  obtain ⟨hmag, hneg⟩ := magnitude_ofMagnitude (Nat.lt_trans hfinite (by decide))
  rw [← hP] at hlow hhigh
  have hexp : x.exponentField = 1075 - k := by
    have hdiv : m / P = 1 := Nat.div_eq_of_lt_le (by omega) (by omega)
    rw [exponentField, hmag, ← hP, Nat.add_comm, Nat.add_mul_div_right m _ hpos, hdiv]
    omega
  have hfrac : x.fraction = m - P := by
    rw [fraction, hmag, ← hP, Nat.add_comm, Nat.add_mul_mod_self_right, Nat.mod_eq_sub_mod hlow,
      Nat.mod_eq_of_lt (by omega)]
  refine ⟨?_, hneg, ?_, ?_⟩
  · rw [isFinite, hmag]
    exact decide_eq_true hfinite
  · rw [significand, hexp, hfrac, if_neg (by omega), ← hP]
    omega
  · rw [scale, hexp]
    omega

/-- **A natural number below `2 ^ 53` is a number without rounding.** -/
theorem toIndex?_ofNat {n : Nat} (h : n < Nat.pow 2 53) : (ofNat n).toIndex? = some n := by
  by_cases hn : n = 0
  · subst hn
    decide +kernel
  have hlog : n.log2 < 53 := (Nat.log2_lt hn).2 h
  obtain ⟨k, hk⟩ : ∃ k, n.log2 + k = 52 := ⟨52 - n.log2, by omega⟩
  have hshift : Nat.pow 2 52 = Nat.pow 2 n.log2 * Nat.pow 2 k := by
    rw [← hk]
    exact Nat.pow_add 2 _ _
  have hlow : Nat.pow 2 52 ≤ n * Nat.pow 2 k := by
    rw [hshift]
    exact Nat.mul_le_mul_right _ (Nat.log2_self_le hn)
  have hhigh : n * Nat.pow 2 k < 2 * Nat.pow 2 52 := by
    have hlt : n < Nat.pow 2 n.log2 * 2 := Nat.lt_log2_self
    calc n * Nat.pow 2 k < Nat.pow 2 n.log2 * 2 * Nat.pow 2 k :=
          Nat.mul_lt_mul_of_pos_right hlt (Nat.pow_pos (by decide))
      _ = 2 * Nat.pow 2 52 := by rw [hshift, Nat.mul_comm (Nat.pow 2 n.log2) 2, Nat.mul_assoc]
  have hbounded := lt_infinityMagnitude k hhigh
  have hk₀ : k ≤ 52 := hk ▸ Nat.le_add_left k n.log2
  obtain ⟨hfinite, hneg, hsig, hscale⟩ := parts_ofMagnitude hk₀ hlow hhigh
  have hnumber : ofNat n = ofMagnitude false ((1074 - k) * Nat.pow 2 52 + n * Nat.pow 2 k) := by
    rw [ofNat, ofRatio, if_neg hn, nearestMagnitude_one hn hk, Nat.min_eq_left hbounded.le]
  have hintegral : (ofNat n).isIntegral = true := by
    rw [hnumber, isIntegral, hfinite, hsig, hscale, Int.neg_neg, Int.toNat_natCast]
    simp
  have htruncate : (ofNat n).truncate = n := by
    rw [hnumber, truncate, hsig, hscale, Int.neg_neg, Int.toNat_natCast, Int.toNat_neg_natCast]
    rw [show Nat.pow 2 0 = 1 from rfl, Nat.mul_one]
    exact Nat.mul_div_cancel n (Nat.pow_pos Nat.two_pos)
  have hfits : n ≤ maxIndex := h.le.trans (by decide)
  rw [toIndex?, hintegral, htruncate, hnumber, hneg, Nat.min_eq_left hfits]
  simp

/-! ### Numbers that are natural -/

/-- The number is the natural number `n`; zero may have either sign. -/
structure IsNatural (x : Number) (n : Nat) : Prop where
  /-- Neither infinite nor a NaN. -/
  finite : x.isFinite = true
  /-- The values are equal. -/
  value : x.significand * Nat.pow 2 x.scale.toNat = n * Nat.pow 2 (-x.scale).toNat
  /-- No natural number is below zero. -/
  sign : x.isNegative = true → n = 0

variable {x : Number} {n : Nat}

theorem IsNatural.truncate_eq (h : x.IsNatural n) : x.truncate = n := by
  rw [truncate, h.value]
  exact Nat.mul_div_cancel n (Nat.pow_pos Nat.two_pos)

theorem isZero_iff (x : Number) : x.isZero = true ↔ x.significand = 0 := by
  have hsplit : x.magnitude = Nat.pow 2 52 * x.exponentField + x.fraction :=
    (Nat.div_add_mod x.magnitude (Nat.pow 2 52)).symm
  have hpos : 0 < Nat.pow 2 52 := Nat.pow_pos Nat.two_pos
  rw [isZero, decide_eq_true_eq, significand, hsplit]
  split
  · rename_i hexp
    rw [hexp, Nat.mul_zero, Nat.zero_add]
  · rename_i hexp
    have hbig : 0 < Nat.pow 2 52 * x.exponentField := Nat.mul_pos hpos (Nat.pos_of_ne_zero hexp)
    omega

/-- An integral number is, up to its sign, its own truncation; of two opposite scales one is
zero. -/
theorem isIntegral_iff (x : Number) : x.isIntegral = true ↔ x.isFinite = true ∧
    ∃ n, x.significand * Nat.pow 2 x.scale.toNat = n * Nat.pow 2 (-x.scale).toNat := by
  rw [isIntegral, Bool.and_eq_true, beq_iff_eq]
  refine and_congr_right fun _ => ?_
  constructor
  · intro hmod
    obtain ⟨k, hk⟩ := Nat.dvd_of_mod_eq_zero hmod
    refine ⟨k * Nat.pow 2 x.scale.toNat, ?_⟩
    rw [hk, Nat.mul_assoc, Nat.mul_comm]
  · rintro ⟨n, hn⟩
    obtain hs | hs : (-x.scale).toNat = 0 ∨ x.scale.toNat = 0 := by omega
    · rw [hs]
      exact Nat.mod_one _
    · rw [hs, show Nat.pow 2 0 = 1 from rfl, Nat.mul_one] at hn
      rw [hn]
      exact Nat.mul_mod_left _ _

/-- **The numbers that can be an index are the natural ones.** -/
theorem toIndex?_eq_some_iff {i : Nat} :
    x.toIndex? = some i ↔ ∃ n, x.IsNatural n ∧ i = min n maxIndex := by
  rw [toIndex?, Option.ite_none_right_eq_some, Bool.and_eq_true, isIntegral_iff, Bool.or_eq_true,
    isZero_iff, Bool.not_eq_true', Option.some.injEq]
  have hpos : ∀ k, 0 < Nat.pow 2 k := fun k => Nat.pow_pos Nat.two_pos
  constructor
  · rintro ⟨⟨⟨hfinite, n, hvalue⟩, hsign⟩, rfl⟩
    have hnatural : x.IsNatural n := by
      refine ⟨hfinite, hvalue, ?_⟩
      intro hnegative
      obtain hzero | hpositive := hsign
      · rw [hzero, Nat.zero_mul] at hvalue
        exact (Nat.mul_eq_zero.1 hvalue.symm).resolve_right (hpos _).ne'
      · exact absurd (hnegative.symm.trans hpositive) Bool.noConfusion
    exact ⟨n, hnatural, by rw [hnatural.truncate_eq]⟩
  · rintro ⟨n, h, rfl⟩
    refine ⟨⟨⟨h.finite, n, h.value⟩, ?_⟩, by rw [h.truncate_eq]⟩
    cases hnegative : x.isNegative with
    | false => exact .inr rfl
    | true =>
      have hvalue := h.value
      rw [h.sign hnegative, Nat.zero_mul] at hvalue
      exact .inl ((Nat.mul_eq_zero.1 hvalue).resolve_right (hpos _).ne')

end Number

end Scenario
