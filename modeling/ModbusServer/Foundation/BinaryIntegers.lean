import Mathlib

/-!
# Integers in the binary64 format

The logical model of `Float` computes on unpacked numbers `± m · 2 ^ e`. An integer of magnitude
below `2 ^ 53` has exactly one canonical unpacked form, in which the mantissa is shifted to
fifty-three bits, and conversion from `ℤ`, reading a decimal literal without a fraction, and
negation give these forms.

## Main definitions

* `BinaryIntegers.lead`: the shift that brings a mantissa to fifty-three bits.
* `BinaryIntegers.Represents`: an unpacked number is the canonical form of an integer.

## Main results

* `BinaryIntegers.represents_ofInt`, `BinaryIntegers.ofScientific_eq_ofInt`,
  `BinaryIntegers.neg_ofInt`: where the canonical forms come from.
* `BinaryIntegers.represents_of_beq`: what compares equal to an integer represents it.
-/

open Float.Model Float.Model.UnpackedFloat

namespace BinaryIntegers

/-! ### Mantissas of fifty-three bits -/

/-- The shift that brings the mantissa `n` to fifty-three bits. -/
def lead (n : ℕ) : ℕ := 52 - n.log2

theorem lead_le (n : ℕ) : lead n ≤ 52 := Nat.sub_le ..

theorem log2_le {n : ℕ} (h : n < 2 ^ 53) : n.log2 ≤ 52 := by
  rcases Nat.eq_zero_or_pos n with rfl | h0
  · simp
  · have := (Nat.log2_lt (by omega)).mpr h
    omega

theorem le_scaled {n : ℕ} (h0 : 0 < n) (h : n < 2 ^ 53) : 2 ^ 52 ≤ n <<< lead n := by
  have h1 : 2 ^ n.log2 ≤ n := Nat.log2_self_le (by omega)
  have h2 := log2_le h
  calc 2 ^ 52 = 2 ^ n.log2 * 2 ^ lead n := by rw [← pow_add, lead]; congr 1; omega
    _ ≤ n * 2 ^ lead n := Nat.mul_le_mul_right _ h1
    _ = n <<< lead n := (Nat.shiftLeft_eq ..).symm

theorem scaled_lt {n : ℕ} (h : n < 2 ^ 53) : n <<< lead n < 2 ^ 53 := by
  have h1 : n < 2 ^ (n.log2 + 1) := Nat.lt_log2_self
  have h2 := log2_le h
  calc n <<< lead n = n * 2 ^ lead n := Nat.shiftLeft_eq ..
    _ < 2 ^ (n.log2 + 1) * 2 ^ lead n := Nat.mul_lt_mul_of_pos_right h1 (by positivity)
    _ = 2 ^ 53 := by rw [← pow_add, lead]; congr 1; omega

theorem scaled_pos {n : ℕ} (h0 : 0 < n) (h : n < 2 ^ 53) : 0 < n <<< lead n :=
  lt_of_lt_of_le (by positivity) (le_scaled h0 h)

/-! ### The canonical form of an integer -/

/-- The unpacked number is the canonical binary64 form of the integer. Zero has two forms. -/
inductive Represents : UnpackedFloat → ℤ → Prop
  | zero (s : Sign) : Represents (.zero s) 0
  | pos {n : ℕ} (h0 : 0 < n) (h : n < 2 ^ 53) :
      Represents (.finite .positive (n <<< lead n) (-(lead n)) (scaled_pos h0 h)) n
  | neg {n : ℕ} (h0 : 0 < n) (h : n < 2 ^ 53) :
      Represents (.finite .negative (n <<< lead n) (-(lead n)) (scaled_pos h0 h)) (-n)

/-- Shifting out zero bits leaves no residual bits. -/
theorem shiftRight_zero_bits (a k : ℕ) :
    (⟨a * 2 ^ k, false, false⟩ : ExtendedMantissa) >>> k = ⟨a, false, false⟩ := by
  have hstep (b : ℕ) : ExtendedMantissa.shiftRightOne ⟨b * 2, false, false⟩ =
      ⟨b, false, false⟩ := by
    simp [ExtendedMantissa.shiftRightOne]
  have hrepeat (k : ℕ) : ∀ a, Nat.repeat ExtendedMantissa.shiftRightOne k
      ⟨a * 2 ^ k, false, false⟩ = ⟨a, false, false⟩ := by
    induction k with
    | zero => intro a; simp [Nat.repeat]
    | succ k ih =>
      intro a
      rw [Nat.repeat, pow_succ', ← mul_assoc, ih, hstep]
  exact hrepeat k a

theorem log2_normal_mul {a : ℕ} (hlow : 2 ^ 52 ≤ a) (hup : a < 2 ^ 53) (j : ℕ) :
    (a * 2 ^ j).log2 = 52 + j := by
  rw [Nat.log2_eq_iff (by positivity), pow_add, show 52 + j + 1 = 53 + j by omega, pow_add]
  exact ⟨Nat.mul_le_mul_right _ hlow, Nat.mul_lt_mul_of_pos_right hup (by positivity)⟩

/-- A mantissa of fifty-three bits followed by zero bits is shifted to fifty-three bits. -/
theorem shiftToTargetExponent_normal {a j : ℕ} {e : ℤ} (hlow : 2 ^ 52 ≤ a) (hup : a < 2 ^ 53)
    (he : -1074 ≤ e + j) :
    shiftToTargetExponent Format.binary64 (a * 2 ^ j) e .exact =
      (⟨a, false, false⟩, e + j) := by
  have ht : Format.binary64.targetExponent (totalExponent (a * 2 ^ j) e) = e + j := by
    simp only [totalExponent, log2_normal_mul hlow hup, Format.targetExponent,
      Format.mantissaBits, Format.minExponent]
    omega
  have hj : (e + j - e).toNat = j := by omega
  rw [shiftToTargetExponent, ht, shiftToExponent, hj, ExtendedMantissa.ofMantissaAndAccuracy,
    shiftRight_zero_bits]

/-- A mantissa of fifty-three bits followed by zero bits is not rounded. -/
theorem roundWithAccuracy_normal (s : Sign) {a j : ℕ} {e : ℤ} (hlow : 2 ^ 52 ≤ a)
    (hup : a < 2 ^ 53) (he : -1074 ≤ e + j) (hp : 0 < a) :
    roundWithAccuracy Format.binary64 s (a * 2 ^ j) e .exact = .finite s a (e + j) hp := by
  have h1 := shiftToTargetExponent_normal hlow hup he
  have h2 : shiftToTargetExponent Format.binary64 a (e + j) .exact =
      (⟨a, false, false⟩, e + j) := by
    have := shiftToTargetExponent_normal (j := 0) (e := e + j) hlow hup (by simpa using he)
    simpa using this
  rw [roundWithAccuracy, h1]
  simp only [ExtendedMantissa.roundedMantissa, ExtendedMantissa.accuracy,
    Accuracy.roundToNearestEven, h2]
  rw [dif_neg hp.ne']

theorem round_nat (s : Sign) {n : ℕ} (h0 : 0 < n) (h : n < 2 ^ 53) :
    UnpackedFloat.round Format.binary64 s n 0 =
      .finite s (n <<< lead n) (-(lead n)) (scaled_pos h0 h) := by
  have ht : Format.binary64.targetExponent (totalExponent n 0) = -(lead n) := by
    have := log2_le h
    simp only [totalExponent, Format.targetExponent, Format.mantissaBits, Format.minExponent, lead]
    omega
  have hd : decreaseExponent n 0 (-(lead n : ℤ)) = (n <<< lead n, -(lead n : ℤ)) := by
    simp [decreaseExponent]
  have hk := lead_le n
  have hr := roundWithAccuracy_normal s (j := 0) (e := -(lead n : ℤ)) (le_scaled h0 h)
    (scaled_lt h) (by omega) (scaled_pos h0 h)
  simp only [UnpackedFloat.round, ht, hd]
  simpa using hr

/-! ### Packing and unpacking -/

theorem unpack_pack_normal (s : Sign) {m k : ℕ} (hlow : 2 ^ 52 ≤ m) (hup : m < 2 ^ 53)
    (hk : k ≤ 52) (hp : 0 < m) :
    (Float.Model.pack (.finite s m (-k) hp)).unpack = .finite s m (-k) hp := by
  have hl : m.log2 = 52 := (Nat.log2_eq_iff hp.ne').mpr ⟨hlow, hup⟩
  have hb : (-(k : ℤ) + Format.binary64.exponentBias +
      Format.binary64.mantissaBitsWithoutImplicit).toNat = 1075 - k := by
    simp only [Format.exponentBias]
    omega
  have hpack : UnpackedFloat.pack Format.binary64 (.finite s m (-k) hp) =
      packComponents Format.binary64 s (BitVec.ofNat _ (1075 - k)) (BitVec.ofNat _ m) := by
    simp only [UnpackedFloat.pack, hb, hl]
    rw [if_neg (by simp; omega), if_pos (by simp [Format.mantissaBits])]
  have hmant : (1#1 ++ BitVec.ofNat 52 m).toNat = m := by
    have hlt : (BitVec.ofNat 52 m).toNat < 2 ^ 52 := (BitVec.ofNat 52 m).isLt
    rw [BitVec.toNat_append, ← Nat.shiftLeft_add_eq_or_of_lt hlt, Nat.shiftLeft_eq,
      BitVec.toNat_ofNat, BitVec.toNat_ofNat]
    omega
  have hexp : (BitVec.ofNat 11 (1075 - k)).toNat = 1075 - k := by
    rw [BitVec.toNat_ofNat]
    omega
  have hne0 : BitVec.ofNat 11 (1075 - k) ≠ 0#11 := fun h => by
    have := congrArg BitVec.toNat h
    simp only [hexp, BitVec.toNat_zero] at this
    omega
  have hne1 : BitVec.ofNat 11 (1075 - k) ≠ -1#11 := fun h => by
    have := congrArg BitVec.toNat h
    rw [hexp] at this
    simp at this
    omega
  simp only [Float.Model.unpack, Float.Model.pack, hpack, UnpackedFloat.unpack,
    unpackExponent_packComponents, unpackMantissa_packComponents]
  rw [if_neg hne1, if_neg hne0]
  simp only [unpackSign_packComponents, Sign.ofBitVec_toBitVec, hmant, hexp]
  congr 1
  simp only [Format.exponentBias]
  omega

theorem unpack_pack_scaled (s : Sign) {n : ℕ} (h0 : 0 < n) (h : n < 2 ^ 53) :
    (Float.Model.pack (.finite s (n <<< lead n) (-(lead n)) (scaled_pos h0 h))).unpack =
      .finite s (n <<< lead n) (-(lead n)) (scaled_pos h0 h) :=
  unpack_pack_normal s (le_scaled h0 h) (scaled_lt h) (lead_le n) _

/-! ### Where canonical forms come from -/

theorem ofInt_natCast {n : ℕ} (h0 : 0 < n) (h : n < 2 ^ 53) :
    Float.Model.ofInt n =
      .pack (.finite .positive (n <<< lead n) (-(lead n)) (scaled_pos h0 h)) := by
  have hc : compare (n : ℤ) 0 = .gt := compare_gt_iff_gt.mpr (by omega)
  rw [Float.Model.ofInt, UnpackedFloat.ofInt, UnpackedFloat.normalize, hc]
  simp only [Int.toNat_natCast, round_nat .positive h0 h]

theorem ofInt_neg_natCast {n : ℕ} (h0 : 0 < n) (h : n < 2 ^ 53) :
    Float.Model.ofInt (-n) =
      .pack (.finite .negative (n <<< lead n) (-(lead n)) (scaled_pos h0 h)) := by
  have hc : compare (-n : ℤ) 0 = .lt := compare_lt_iff_lt.mpr (by omega)
  rw [Float.Model.ofInt, UnpackedFloat.ofInt, UnpackedFloat.normalize, hc]
  simp only [neg_neg, Int.toNat_natCast, round_nat .negative h0 h]

/-- Converting an integer gives its canonical form. -/
theorem represents_ofInt {v : ℤ} (h : v.natAbs < 2 ^ 53) :
    Represents (Float.Model.ofInt v).unpack v := by
  obtain ⟨n, rfl | rfl⟩ := v.eq_nat_or_neg
  · rcases Nat.eq_zero_or_pos n with rfl | h0
    · exact .zero .positive
    · have hn : n < 2 ^ 53 := by omega
      rw [ofInt_natCast h0 hn, unpack_pack_scaled _ h0 hn]
      exact .pos h0 hn
  · rcases Nat.eq_zero_or_pos n with rfl | h0
    · exact .zero .positive
    · have hn : n < 2 ^ 53 := by omega
      rw [ofInt_neg_natCast h0 hn, unpack_pack_scaled _ h0 hn]
      exact .neg h0 hn

theorem neg_ofInt {n : ℕ} (h0 : 0 < n) (h : n < 2 ^ 53) :
    (Float.Model.ofInt n).neg = Float.Model.ofInt (-n) := by
  rw [Float.Model.neg, ofInt_natCast h0 h, unpack_pack_scaled _ h0 h, ofInt_neg_natCast h0 h]
  rfl

/-- A decimal literal without fraction or exponent is read exactly. -/
theorem ofScientific_eq_ofInt {n : ℕ} (h : n < 2 ^ 53) :
    Float.Model.ofScientific n 0 = Float.Model.ofInt n := by
  rcases Nat.eq_zero_or_pos n with rfl | h0
  · rfl
  have hl := log2_le h
  have he : (-53 : ℤ) + (n.log2 + 1 : ℕ) = -(lead n : ℤ) := by
    simp only [lead]
    omega
  have hsplit : n <<< 53 = (n <<< lead n) * 2 ^ (n.log2 + 1) := by
    rw [Nat.shiftLeft_eq, Nat.shiftLeft_eq, mul_assoc, ← pow_add, lead]
    congr 2
    omega
  have hr := roundWithAccuracy_normal .positive (j := n.log2 + 1) (e := -53) (le_scaled h0 h)
    (scaled_lt h) (by omega) (scaled_pos h0 h)
  have hround : roundWithAccuracy Format.binary64 .positive (n <<< 53) (-53) .exact =
      .finite .positive (n <<< lead n) (-(lead n)) (scaled_pos h0 h) := by
    rw [hsplit, hr]
    simp only [he]
  have hbits : Format.binary64.mantissaBits = 53 := rfl
  have hexp : ¬(0 : ℤ) < -((2 ^ Format.binary64.exponentBits : ℤ) + n.log2) := by
    have : (0 : ℤ) ≤ 2 ^ Format.binary64.exponentBits := by positivity
    omega
  rw [Float.Model.ofScientific, UnpackedFloat.ofScientific, dif_neg h0.ne', if_neg (by simp),
    if_neg hexp, if_pos le_rfl, ofInt_natCast h0 h]
  simp only [UnpackedFloat.mul, hbits, Int.toNat_zero, pow_zero, mul_one, add_zero]
  exact congrArg Float.Model.pack hround

/-! ### Numbers that compare equal to an integer -/

variable {d : Float.Model} {v : ℤ}

/-- What compares equal to an integer of magnitude below `2 ^ 53` is a canonical form of it. -/
theorem represents_of_beq (hv : v.natAbs < 2 ^ 53) (hd : (d == Float.Model.ofInt v) = true) :
    Represents d.unpack v := by
  have hbeq : d.unpack.beq (Float.Model.ofInt v).unpack = true := hd
  have hr := represents_ofInt hv
  obtain ⟨-, -, heq | ⟨hx, hy⟩ | ⟨hx, hy⟩⟩ := (beq_iff_ne_notANumber_and_eq _ _).mp hbeq
  · rwa [heq]
  -- the two zeros are equal and represent the same integer
  · rw [hy] at hr
    cases hr
    rw [hx]
    exact .zero _
  · rw [hy] at hr
    cases hr
    rw [hx]
    exact .zero _

/-- An integer of magnitude below `2 ^ 53` compares equal to itself. -/
theorem ofInt_beq_self (hv : v.natAbs < 2 ^ 53) :
    (Float.Model.ofInt v == Float.Model.ofInt v) = true := by
  have hnumber : (Float.Model.ofInt v).unpack ≠ .notANumber := by
    intro hnan
    have hr := represents_ofInt hv
    rw [hnan] at hr
    cases hr
  exact (beq_iff_ne_notANumber_and_eq _ _).mpr ⟨hnumber, hnumber, .inl rfl⟩

end BinaryIntegers
