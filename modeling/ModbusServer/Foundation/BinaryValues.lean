import ModbusServer.Foundation.BinaryIntegers
import ModbusServer.Foundation.BinaryRounding

/-!
# The values of binary64 numbers

A finite number of the logical model of `Float` stands for a rational number. On numbers in
canonical form the comparison of the model is the comparison of the rational numbers, and
its truncation gives the integer part.

## Main definitions

* `BinaryValues.value`: the rational number that an unpacked number stands for.
* `BinaryValues.integerPart`: a rational number without its fraction.

## Main results

* `BinaryValues.compare_eq`: comparison.
* `BinaryValues.toInt_eq`: truncation.
* `BinaryValues.beq_ofInt_iff`: which numbers compare equal to an integer.
-/

open Float.Model Float.Model.UnpackedFloat BinaryRounding

namespace BinaryValues

/-- A magnitude with a sign. -/
def signed (s : Sign) (q : ℚ) : ℚ :=
  match s with
  | .positive => q
  | .negative => -q

/-- The rational number of an unpacked number; infinities and not-a-number have none. -/
def value : UnpackedFloat → Option ℚ
  | .zero _ => some 0
  | .finite s m e _ => some (signed s (m * 2 ^ e))
  | .infinity _ => none
  | .notANumber => none

/-- A rational number without its fraction. -/
def integerPart (q : ℚ) : ℤ := if 0 ≤ q then ⌊q⌋ else ⌈q⌉

/-! ### Integer parts -/

theorem integerPart_neg (q : ℚ) : integerPart (-q) = -integerPart q := by
  rcases lt_trichotomy q 0 with h | rfl | h
  · rw [integerPart, integerPart, if_pos (by linarith), if_neg (by linarith), Int.floor_neg]
  · simp [integerPart]
  · rw [integerPart, integerPart, if_neg (by linarith), if_pos h.le, Int.ceil_neg]

@[simp] theorem integerPart_intCast (v : ℤ) : integerPart v = v := by
  simp [integerPart]

/-- A number reaches an integer that is not below zero exactly if its integer part does. -/
theorem le_integerPart_iff {q : ℚ} {w : ℤ} (hw : 0 < w) : w ≤ integerPart q ↔ (w : ℚ) ≤ q := by
  have hw' : (0 : ℚ) < w := by exact_mod_cast hw
  rw [integerPart]
  split_ifs with h
  · exact Int.le_floor
  · refine iff_of_false (fun hle => ?_) (fun hle => by linarith)
    have hceil : ⌈q⌉ ≤ 0 := Int.ceil_le.mpr (by push_cast; linarith)
    omega

theorem integerPart_le_iff {q : ℚ} {w : ℤ} (hw : w < 0) : integerPart q ≤ w ↔ q ≤ (w : ℚ) := by
  have h := le_integerPart_iff (q := -q) (w := -w) (by omega)
  rw [integerPart_neg] at h
  push_cast at h
  rw [neg_le_neg_iff, neg_le_neg_iff] at h
  exact h

/-! ### Truncation -/

/-- A mantissa and an exponent as a fraction. -/
theorem cast_fraction (m : ℕ) (e : ℤ) :
    ((m * 2 ^ e.toNat : ℕ) / (2 ^ (-e).toNat : ℕ) : ℚ) = m * 2 ^ e := by
  rcases le_total 0 e with he | he
  · obtain ⟨i, rfl⟩ := Int.eq_ofNat_of_zero_le he
    have hneg : (-(i : ℤ)).toNat = 0 := by omega
    rw [hneg, Int.toNat_natCast, zpow_natCast]
    push_cast
    ring
  · obtain ⟨i, rfl⟩ : ∃ i : ℕ, e = -(i : ℤ) := ⟨(-e).toNat, by omega⟩
    have hneg : (-(i : ℤ)).toNat = 0 := by omega
    rw [hneg, neg_neg, Int.toNat_natCast, zpow_neg, zpow_natCast]
    push_cast
    ring

/-- Rounding to an integer takes the integer part. -/
theorem roundToInt_eq (s : Sign) (m : ℕ) (e : ℤ) :
    roundToInt s m e = integerPart (signed s (m * 2 ^ e)) := by
  have hshift : (0 - (e - (e.toNat : ℤ))).toNat = (-e).toNat := by omega
  have happrox := (approximates_exact (m * 2 ^ e.toNat)).shiftRight (-e).toNat
  have hvalue : ((m * 2 ^ e.toNat : ℕ) / 2 ^ (-e).toNat : ℚ) = m * 2 ^ e := by
    rw [← cast_fraction m e]
    push_cast
    rfl
  rw [hvalue] at happrox
  obtain ⟨hlo, hhi⟩ := happrox.bounds
  have hfloor : ⌊(m * 2 ^ e : ℚ)⌋ =
      (ExtendedMantissa.ofMantissaAndAccuracy (m * 2 ^ e.toNat) .exact >>> (-e).toNat).mantissa :=
    Int.floor_eq_iff.mpr ⟨by exact_mod_cast hlo, by exact_mod_cast hhi⟩
  have hpart : integerPart (m * 2 ^ e : ℚ) = ⌊(m * 2 ^ e : ℚ)⌋ := if_pos (by positivity)
  simp only [roundToInt, decreaseExponent, shiftToExponent, sub_zero, hshift, Nat.shiftLeft_eq]
  cases s with
  | positive => rw [signed, hpart, hfloor]; rfl
  | negative => rw [signed, integerPart_neg, hpart, hfloor]; rfl

/-- **Truncation** of a number takes the integer part of its value. -/
theorem toInt_eq {x : UnpackedFloat} {q : ℚ} (hx : value x = some q) (lo hi : ℤ) :
    x.toInt lo hi = integerPart q := by
  cases x with
  | infinity s => simp [value] at hx
  | notANumber => simp [value] at hx
  | zero s =>
    obtain rfl := Option.some.inj hx
    simp [UnpackedFloat.toInt, integerPart]
  | finite s m e h =>
    obtain rfl := Option.some.inj hx
    exact roundToInt_eq s m e

/-! ### Comparison -/

/-- The number is in the canonical form of the format. -/
def IsCanonical : UnpackedFloat → Prop
  | .finite _ m e _ => Canonical m e
  | _ => True

theorem isCanonical_unpack (d : Float.Model) : IsCanonical d.unpack := by
  cases hd : d.unpack with
  | finite s m e h => exact (canonical_of_unpack hd).1
  | _ => trivial

section Magnitudes

variable {m m' : ℕ} {e e' : ℤ}

/-- A larger exponent makes a larger number. -/
theorem lt_of_exponent_lt (hc : Canonical m e) (hc' : Canonical m' e') (h : e < e') :
    (m * 2 ^ e : ℚ) < m' * 2 ^ e' := by
  have hnormal : 2 ^ 52 ≤ m' := hc'.normal.resolve_right (by have := hc.le; omega)
  have hm : (m : ℚ) < 2 ^ 53 := by exact_mod_cast hc.lt
  have hm' : (2 ^ 52 : ℚ) ≤ m' := by exact_mod_cast hnormal
  have hpow : (2 : ℚ) ^ (e + 1) ≤ 2 ^ e' := zpow_le_zpow_right₀ (by norm_num) (by omega)
  calc (m * 2 ^ e : ℚ) < 2 ^ 53 * 2 ^ e := by gcongr
    _ = 2 ^ 52 * 2 ^ (e + 1) := by rw [zpow_add₀ (by norm_num)]; ring
    _ ≤ m' * 2 ^ e' := by gcongr

theorem compare_magnitudes (hc : Canonical m e) (hc' : Canonical m' e') :
    (compare e e').then (compare m m') = compare (m * 2 ^ e : ℚ) (m' * 2 ^ e') := by
  rcases lt_trichotomy e e' with h | rfl | h
  · rw [compare_lt_iff_lt.mpr h, compare_lt_iff_lt.mpr (lt_of_exponent_lt hc hc' h)]
    rfl
  · have hpos : (0 : ℚ) < 2 ^ e := by positivity
    rw [compare_eq_iff_eq.mpr rfl]
    rcases lt_trichotomy m m' with h | rfl | h
    · rw [compare_lt_iff_lt.mpr h, compare_lt_iff_lt.mpr (by gcongr)]
      rfl
    · rw [compare_eq_iff_eq.mpr rfl, compare_eq_iff_eq.mpr rfl]
      rfl
    · rw [compare_gt_iff_gt.mpr h, compare_gt_iff_gt.mpr (by gcongr)]
      rfl
  · rw [compare_gt_iff_gt.mpr h, compare_gt_iff_gt.mpr (lt_of_exponent_lt hc' hc h)]
    rfl

theorem magnitude_pos (hc : Canonical m e) : (0 : ℚ) < m * 2 ^ e := by
  have hm : (0 : ℚ) < m := by exact_mod_cast hc.pos
  positivity

theorem compare_neg (p q : ℚ) : compare (-p) (-q) = (compare p q).swap := by
  rcases lt_trichotomy p q with h | rfl | h
  · rw [compare_lt_iff_lt.mpr h, compare_gt_iff_gt.mpr (neg_lt_neg h)]
    rfl
  · rw [compare_eq_iff_eq.mpr rfl, compare_eq_iff_eq.mpr rfl]
    rfl
  · rw [compare_gt_iff_gt.mpr h, compare_lt_iff_lt.mpr (neg_lt_neg h)]
    rfl

end Magnitudes

/-- **Comparison** of numbers in canonical form is comparison of their values. -/
theorem compare_eq {x y : UnpackedFloat} {p q : ℚ} (hx : value x = some p) (hy : value y = some q)
    (hxc : IsCanonical x) (hyc : IsCanonical y) : x.compare y = some (compare p q) := by
  cases x with
  | infinity s => simp [value] at hx
  | notANumber => simp [value] at hx
  | zero s =>
    obtain rfl := Option.some.inj hx
    cases y with
    | infinity s => simp [value] at hy
    | notANumber => simp [value] at hy
    | zero s =>
      obtain rfl := Option.some.inj hy
      simp [UnpackedFloat.compare]
    | finite s m e h =>
      obtain rfl := Option.some.inj hy
      have hpos := magnitude_pos hyc
      cases s with
      | positive => rw [signed, compare_lt_iff_lt.mpr hpos]; rfl
      | negative => rw [signed, compare_gt_iff_gt.mpr (by simpa using hpos)]; rfl
  | finite s m e h =>
    obtain rfl := Option.some.inj hx
    have hpos := magnitude_pos hxc
    cases y with
    | infinity s => simp [value] at hy
    | notANumber => simp [value] at hy
    | zero s' =>
      obtain rfl := Option.some.inj hy
      cases s with
      | positive => rw [signed, compare_gt_iff_gt.mpr hpos]; rfl
      | negative => rw [signed, compare_lt_iff_lt.mpr (by simpa using hpos)]; rfl
    | finite s' m' e' h' =>
      obtain rfl := Option.some.inj hy
      have hpos' := magnitude_pos hyc
      cases s <;> cases s'
      case positive.positive => simp only [signed, ← compare_magnitudes hxc hyc]; rfl
      case negative.negative =>
        simp only [signed, compare_neg, ← compare_magnitudes hxc hyc]
        rfl
      case positive.negative =>
        simp only [signed]
        rw [compare_gt_iff_gt.mpr (by linarith)]
        rfl
      case negative.positive =>
        simp only [signed]
        rw [compare_lt_iff_lt.mpr (by linarith)]
        rfl

/-- Numbers in canonical form with the same value compare as equal. -/
theorem beq_iff {x y : UnpackedFloat} {p q : ℚ} (hx : value x = some p) (hy : value y = some q)
    (hxc : IsCanonical x) (hyc : IsCanonical y) : x.beq y = true ↔ p = q := by
  rw [UnpackedFloat.beq, compare_eq hx hy hxc hyc]
  simp

/-! ### Integers -/

/-- The canonical form of an integer has the integer as its value. -/
theorem value_of_represents {x : UnpackedFloat} {v : ℤ} (h : BinaryIntegers.Represents x v) :
    value x = some (v : ℚ) := by
  have hscaled (n : ℕ) : ((n <<< BinaryIntegers.lead n : ℕ) * 2 ^ (-(BinaryIntegers.lead n : ℤ)) :
      ℚ) = n := by
    rw [Nat.shiftLeft_eq, zpow_neg, zpow_natCast]
    push_cast
    field_simp
  cases h with
  | zero s => simp [value]
  | @pos n h0 hn => simp only [value, signed, hscaled]; simp
  | @neg n h0 hn => simp only [value, signed, hscaled]; simp

section Model

variable {d : Float.Model} {q : ℚ} {w : ℤ}

theorem value_ofInt (hw : w.natAbs < 2 ^ 53) : value (Float.Model.ofInt w).unpack = some (w : ℚ) :=
  value_of_represents (BinaryIntegers.represents_ofInt hw)

theorem ofInt_le_iff (hd : value d.unpack = some q) (hw : w.natAbs < 2 ^ 53) :
    Float.Model.ofInt w ≤ d ↔ (w : ℚ) ≤ q := by
  change UnpackedFloat.le _ _ = true ↔ _
  rw [UnpackedFloat.le, compare_eq (value_ofInt hw) hd (isCanonical_unpack _)
    (isCanonical_unpack _)]
  simp [Ordering.isLE_iff_ne_gt, compare_gt_iff_gt]

theorem le_ofInt_iff (hd : value d.unpack = some q) (hw : w.natAbs < 2 ^ 53) :
    d ≤ Float.Model.ofInt w ↔ q ≤ (w : ℚ) := by
  change UnpackedFloat.le _ _ = true ↔ _
  rw [UnpackedFloat.le, compare_eq hd (value_ofInt hw) (isCanonical_unpack _)
    (isCanonical_unpack _)]
  simp [Ordering.isLE_iff_ne_gt, compare_gt_iff_gt]

/-- A number compares equal to an integer exactly if the integer is its value. -/
theorem beq_ofInt_iff (hw : w.natAbs < 2 ^ 53) :
    (d == Float.Model.ofInt w) = true ↔ value d.unpack = some (w : ℚ) := by
  constructor
  · intro h
    exact value_of_represents (BinaryIntegers.represents_of_beq hw h)
  · intro h
    exact (beq_iff h (value_ofInt hw) (isCanonical_unpack _) (isCanonical_unpack _)).mpr rfl

end Model

end BinaryValues
