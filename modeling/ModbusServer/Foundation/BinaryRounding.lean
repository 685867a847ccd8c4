import Mathlib

/-!
# Rounding to the binary64 format

The logical model of `Float` rounds a number that is given by a mantissa, an exponent and the
accuracy of the mantissa. A number that lies close enough to `m · 2 ^ e`, where `m` and `e` are in
the canonical form of the format, is rounded to `m · 2 ^ e`: it must be closer than half a unit in
the last place, and closer than a quarter below a power of two, where the units become smaller. So
is a decimal literal whose value is that close.

## Main definitions

* `BinaryRounding.Approximates`: what a mantissa with its residual bits says about a number.
* `BinaryRounding.Canonical`, `BinaryRounding.Near`: canonical forms, and numbers close to them.

## Main results

* `BinaryRounding.roundWithAccuracy_eq`: rounding.
* `BinaryRounding.ofScientific_eq`: decimal literals.
* `BinaryRounding.ofScientific_eq_of_unpack`: a literal near a finite number is read as that number.
-/

open Float.Model Float.Model.UnpackedFloat

namespace BinaryRounding

/-! ### Mantissas with residual bits -/

/-- The mantissa with its round bit. -/
def low (em : ExtendedMantissa) : ℚ := em.mantissa + if em.roundBit then 1 / 2 else 0

/-- What a mantissa and its residual bits say about the number that they approximate from below. -/
def Approximates (em : ExtendedMantissa) (y : ℚ) : Prop :=
  if em.stickyBit then low em < y ∧ y < low em + 1 / 2 else y = low em

section Approximates

variable {em : ExtendedMantissa} {y : ℚ}

theorem low_bounds (em : ExtendedMantissa) :
    (em.mantissa : ℚ) ≤ low em ∧ low em ≤ em.mantissa + 1 / 2 := by
  rw [low]
  split <;> constructor <;> linarith

theorem Approximates.bounds (h : Approximates em y) : em.mantissa ≤ y ∧ y < em.mantissa + 1 := by
  obtain ⟨hlo, hhi⟩ := low_bounds em
  rw [Approximates] at h
  split at h
  · exact ⟨by linarith, by linarith⟩
  · exact ⟨by linarith, by linarith⟩

theorem le_of_cast_lt_succ {a b : ℕ} (h : (a : ℚ) < b + 1) : a ≤ b :=
  Nat.lt_succ_iff.mp (by exact_mod_cast h)

/-- A number less than one half away from an integer is rounded to it. -/
theorem Approximates.roundedMantissa_eq (h : Approximates em y) {n : ℕ} (hlo : (n : ℚ) - 1 / 2 < y)
    (hhi : y < n + 1 / 2) : em.roundedMantissa = n := by
  obtain ⟨m, r, s⟩ := em
  cases r <;> cases s <;>
    simp only [Approximates, low, ExtendedMantissa.roundedMantissa, ExtendedMantissa.accuracy,
      Accuracy.roundToNearestEven, if_true, Bool.false_eq_true, if_false, add_zero] at h ⊢
  · exact le_antisymm (le_of_cast_lt_succ (by linarith)) (le_of_cast_lt_succ (by linarith))
  · exact le_antisymm (le_of_cast_lt_succ (by linarith)) (le_of_cast_lt_succ (by linarith))
  · -- a number halfway between two integers is at least one half away from every integer
    have hlt : m < n := by exact_mod_cast (show (m : ℚ) < n by linarith)
    exact absurd (le_of_cast_lt_succ (show (n : ℚ) < m + 1 by linarith)) (not_le.mpr hlt)
  · refine le_antisymm (le_of_cast_lt_succ ?_) (le_of_cast_lt_succ ?_)
    · push_cast
      linarith
    · push_cast
      linarith

theorem low_shiftRightOne (em : ExtendedMantissa) : low em.shiftRightOne = em.mantissa / 2 := by
  have hsplit : (em.mantissa : ℚ) =
      2 * ((em.mantissa / 2 : ℕ) : ℚ) + ((em.mantissa % 2 : ℕ) : ℚ) := by
    exact_mod_cast (Nat.div_add_mod em.mantissa 2).symm
  rcases Nat.mod_two_eq_zero_or_one em.mantissa with hm | hm
  · rw [hm, Nat.cast_zero] at hsplit
    simp only [low, ExtendedMantissa.shiftRightOne, hm, bne_self_eq_false, Bool.false_eq_true,
      if_false]
    linarith
  · rw [hm, Nat.cast_one] at hsplit
    simp only [low, ExtendedMantissa.shiftRightOne, hm, Nat.reduceBneDiff, if_true]
    linarith

theorem Approximates.shiftRightOne (h : Approximates em y) :
    Approximates em.shiftRightOne (y / 2) := by
  have hlow := low_shiftRightOne em
  obtain ⟨hlo, hhi⟩ := h.bounds
  rw [Approximates, hlow]
  cases hsticky : em.shiftRightOne.stickyBit with
  | false =>
    simp only [ExtendedMantissa.shiftRightOne, Bool.or_eq_false_iff] at hsticky
    simp only [Approximates, low, hsticky, Bool.false_eq_true, if_false, add_zero] at h
    simp only [Bool.false_eq_true, if_false, h]
  | true =>
    have hlt : (em.mantissa : ℚ) < y := by
      simp only [ExtendedMantissa.shiftRightOne, Bool.or_eq_true] at hsticky
      simp only [Approximates, low] at h
      rcases hsticky with hbit | hbit
      · simp only [hbit, if_true] at h
        split at h <;> linarith
      · rw [if_pos hbit] at h
        split at h <;> linarith
    rw [if_pos rfl]
    exact ⟨by linarith, by linarith⟩

theorem Approximates.shiftRight (h : Approximates em y) (k : ℕ) :
    Approximates (em >>> k) (y / 2 ^ k) := by
  induction k with
  | zero =>
    rw [pow_zero, div_one]
    exact h
  | succ k ih =>
    have hstep := ih.shiftRightOne
    rw [div_div, ← pow_succ] at hstep
    exact hstep

end Approximates

/-! ### Canonical forms -/

/-- The canonical forms of the format: normal numbers have fifty-three bits, and subnormal numbers
the least exponent. -/
structure Canonical (m : ℕ) (e : ℤ) : Prop where
  pos : 0 < m
  lt : m < 2 ^ 53
  le : -1074 ≤ e
  normal : 2 ^ 52 ≤ m ∨ e = -1074

/-- A number that is closer to `m · 2 ^ e` than to every point halfway to another number. -/
structure Near (m : ℕ) (e : ℤ) (x : ℚ) : Prop where
  lower : (m - 1 / 2 : ℚ) * 2 ^ e < x
  upper : x < (m + 1 / 2 : ℚ) * 2 ^ e
  power : m = 2 ^ 52 → (m - 1 / 4 : ℚ) * 2 ^ e < x

section Canonical

variable {m : ℕ} {e : ℤ} {x : ℚ}

theorem targetExponent_eq (m : ℕ) (e : ℤ) :
    Format.binary64.targetExponent (totalExponent m e) = max (m.log2 + e - 52) (-1074) := by
  simp only [Format.targetExponent, totalExponent, Format.mantissaBits, Format.minExponent]
  omega

theorem zpow_lt_of_lt {a b : ℤ} (h : (2 : ℚ) ^ a < 2 ^ b) : a < b :=
  (zpow_lt_zpow_iff_right₀ (by norm_num)).mp h

theorem two_zpow_add (n : ℕ) (e : ℤ) : (2 : ℚ) ^ (n + e) = ((2 ^ n : ℕ) : ℚ) * 2 ^ e := by
  rw [zpow_add₀ (by norm_num), zpow_natCast]
  push_cast
  rfl

/-- The bounds of a number in terms of the length of its mantissa. -/
theorem zpow_log2_bounds {M : ℕ} {E : ℤ} {y : ℚ} (hM : 0 < M) (hy : (M : ℚ) ≤ y ∧ y < M + 1) :
    (2 : ℚ) ^ ((M.log2 : ℤ) + E) ≤ y * 2 ^ E ∧ y * 2 ^ E < 2 ^ (((M.log2 + 1 : ℕ) : ℤ) + E) := by
  have hpos : (0 : ℚ) < 2 ^ E := by positivity
  have hlo : ((2 ^ M.log2 : ℕ) : ℚ) ≤ M := by exact_mod_cast Nat.log2_self_le hM.ne'
  have hhi : ((M + 1 : ℕ) : ℚ) ≤ ((2 ^ (M.log2 + 1) : ℕ) : ℚ) := by
    exact_mod_cast Nat.lt_log2_self
  push_cast at hhi
  rw [two_zpow_add, two_zpow_add]
  push_cast at hlo ⊢
  exact ⟨by nlinarith, by nlinarith⟩

/-- The exponent to which a number near `m · 2 ^ e` is shifted. -/
theorem targetExponent_cases (hc : Canonical m e) {M : ℕ} {E : ℤ} {y : ℚ}
    (hy : (M : ℚ) ≤ y ∧ y < M + 1) (hbits : 52 ≤ M.log2 ∨ E ≤ -1074) (hx : Near m e (y * 2 ^ E)) :
    max ((M.log2 : ℤ) + E - 52) (-1074) = e ∨
      max ((M.log2 : ℤ) + E - 52) (-1074) = e - 1 ∧ m = 2 ^ 52 ∧ y * 2 ^ E < m * 2 ^ e := by
  have hpos : (0 : ℚ) < 2 ^ e := by positivity
  have hposE : (0 : ℚ) < 2 ^ E := by positivity
  have hm : (m : ℚ) + 1 ≤ ((2 ^ 53 : ℕ) : ℚ) := by exact_mod_cast hc.lt
  have hmpos : (1 : ℚ) ≤ m := by exact_mod_cast hc.pos
  have hupper : y * 2 ^ E < 2 ^ (((53 : ℕ) : ℤ) + e) := by
    rw [two_zpow_add]
    have := hx.upper
    nlinarith
  have hle := hc.le
  rcases Nat.eq_zero_or_pos M with rfl | hM
  · -- the mantissa is zero only if the exponent is the least one
    have hE : E ≤ -1074 := hbits.resolve_left (by simp)
    have hlow : (2 : ℚ) ^ (e - 1) < 2 ^ (-1074 : ℤ) := by
      have hhalf : (2 : ℚ) ^ (e - 1) = 1 / 2 * 2 ^ e := by
        rw [zpow_sub_one₀ (by norm_num)]
        ring
      have hle' : (2 : ℚ) ^ E ≤ 2 ^ (-1074 : ℤ) := zpow_le_zpow_right₀ (by norm_num) hE
      have := hx.lower
      have := hy.2
      simp only [Nat.cast_zero, zero_add] at this
      rw [hhalf]
      nlinarith
    have := zpow_lt_of_lt hlow
    simp only [Nat.log2_zero, Nat.cast_zero]
    left
    omega
  · obtain ⟨hlo, hhi⟩ := zpow_log2_bounds (E := E) hM hy
    have htop : (M.log2 : ℤ) + E < ((53 : ℕ) : ℤ) + e := zpow_lt_of_lt (hlo.trans_lt hupper)
    rcases hc.normal with hnormal | hsub
    · have hnormal' : ((2 ^ 52 : ℕ) : ℚ) ≤ m := by exact_mod_cast hnormal
      by_cases hpower : m = 2 ^ 52
      · have hlow : (2 : ℚ) ^ (((51 : ℕ) : ℤ) + e) < y * 2 ^ E := by
          rw [two_zpow_add]
          refine (mul_le_mul_of_nonneg_right ?_ hpos.le).trans_lt (hx.power hpower)
          push_cast at hnormal' ⊢
          linarith
        have hlog := zpow_lt_of_lt (hlow.trans hhi)
        by_cases htarget : max ((M.log2 : ℤ) + E - 52) (-1074) = e
        · exact .inl htarget
        · refine .inr ⟨by omega, hpower, hhi.trans_le ?_⟩
          rw [hpower, ← two_zpow_add]
          exact zpow_le_zpow_right₀ (by norm_num) (by omega)
      · have hbig : ((2 ^ 52 + 1 : ℕ) : ℚ) ≤ m := by
          exact_mod_cast lt_of_le_of_ne hnormal (Ne.symm hpower)
        have hlow : (2 : ℚ) ^ (((52 : ℕ) : ℤ) + e) < y * 2 ^ E := by
          rw [two_zpow_add]
          refine (mul_le_mul_of_nonneg_right ?_ hpos.le).trans_lt hx.lower
          push_cast at hbig ⊢
          linarith
        have := zpow_lt_of_lt (hlow.trans hhi)
        omega
    · omega

/-- A mantissa in canonical form is not shifted. -/
theorem shiftToTargetExponent_canonical (hc : Canonical m e) :
    shiftToTargetExponent Format.binary64 m e .exact = (⟨m, false, false⟩, e) := by
  have hlog : m.log2 < 53 := (Nat.log2_lt hc.pos.ne').mpr hc.lt
  have ht : Format.binary64.targetExponent (totalExponent m e) = e := by
    rw [targetExponent_eq]
    have hle := hc.le
    rcases hc.normal with hnormal | hsub
    · have : 52 ≤ m.log2 := (Nat.le_log2 hc.pos.ne').mpr hnormal
      omega
    · omega
  rw [shiftToTargetExponent, ht]
  simp only [shiftToExponent, sub_self, Int.toNat_zero, Nat.cast_zero, add_zero]
  rfl

/-- A mantissa that has been rounded up to fifty-four bits is shifted once more. -/
theorem shiftToTargetExponent_carry (he : -1074 < e) :
    shiftToTargetExponent Format.binary64 (2 ^ 53) (e - 1) .exact =
      (⟨2 ^ 52, false, false⟩, e) := by
  have ht : Format.binary64.targetExponent (totalExponent (2 ^ 53) (e - 1)) = e := by
    rw [targetExponent_eq, Nat.log2_two_pow]
    omega
  have hone : (e - (e - 1)).toNat = 1 := by omega
  rw [shiftToTargetExponent, ht]
  simp only [shiftToExponent, hone, Nat.cast_one, sub_add_cancel]
  rfl

/-- **Rounding.** A number near a canonical form is rounded to it, if the mantissa has enough bits.
-/
theorem roundWithAccuracy_eq (hc : Canonical m e) (s : Sign) {M : ℕ} {E : ℤ} {acc : Accuracy}
    {y : ℚ} (hy : Approximates (.ofMantissaAndAccuracy M acc) y)
    (hbits : 52 ≤ M.log2 ∨ E ≤ -1074) (hx : Near m e (y * 2 ^ E)) :
    roundWithAccuracy Format.binary64 s M E acc = .finite s m e hc.pos := by
  have hmantissa : (ExtendedMantissa.ofMantissaAndAccuracy M acc).mantissa = M := by
    cases acc with
    | exact => rfl
    | inexact o => cases o <;> rfl
  have hfloor := hy.bounds
  rw [hmantissa] at hfloor
  have hcases := targetExponent_cases hc hfloor hbits hx
  rw [← targetExponent_eq] at hcases
  set t := Format.binary64.targetExponent (totalExponent M E) with ht
  have hE : E ≤ t := by
    rw [ht, targetExponent_eq]
    omega
  obtain ⟨k, hk⟩ : ∃ k : ℕ, (k : ℤ) = t - E := ⟨(t - E).toNat, by omega⟩
  have hfirst : shiftToTargetExponent Format.binary64 M E acc =
      (ExtendedMantissa.ofMantissaAndAccuracy M acc >>> k, t) := by
    have hnat : (t - E).toNat = k := by omega
    rw [shiftToTargetExponent, ← ht]
    simp only [shiftToExponent, hnat, hk, add_sub_cancel]
  have hshift := hy.shiftRight k
  have hvalue : y * 2 ^ E = y / 2 ^ k * 2 ^ t := by
    have hsplit : (2 : ℚ) ^ t = 2 ^ k * 2 ^ E := by
      rw [← zpow_natCast, ← zpow_add₀ (by norm_num), hk, sub_add_cancel]
    rw [hsplit]
    field_simp
  have hpos : (0 : ℚ) < 2 ^ e := by positivity
  have hlower := hx.lower
  have hupper := hx.upper
  rw [hvalue] at hlower hupper
  rcases hcases with hte | ⟨hte, hpower, hbelow⟩
  · rw [hte] at hlower hupper
    have hround := hshift.roundedMantissa_eq (n := m) (lt_of_mul_lt_mul_right hlower hpos.le)
      (lt_of_mul_lt_mul_right hupper hpos.le)
    rw [roundWithAccuracy, hfirst]
    simp only [hround, hte, shiftToTargetExponent_canonical hc, hc.pos.ne', dite_false]
  · have hquarter := hx.power hpower
    have hhalf : (2 : ℚ) ^ e = 2 * 2 ^ (e - 1) := by
      rw [zpow_sub_one₀ (by norm_num)]
      ring
    have hpos' : (0 : ℚ) < 2 ^ (e - 1) := by positivity
    rw [hvalue, hte, hhalf, ← mul_assoc] at hquarter hbelow
    have hle : -1074 ≤ e - 1 := by
      rw [← hte, ht, targetExponent_eq]
      exact le_max_right _ _
    have hm : (m : ℚ) * 2 = ((2 ^ 53 : ℕ) : ℚ) := by
      rw [hpower]
      norm_num
    have hround :
        (ExtendedMantissa.ofMantissaAndAccuracy M acc >>> k).roundedMantissa = 2 ^ 53 := by
      refine hshift.roundedMantissa_eq ?_ ?_
      · rw [← hm]
        linarith [lt_of_mul_lt_mul_right hquarter hpos'.le]
      · rw [← hm]
        linarith [lt_of_mul_lt_mul_right hbelow hpos'.le]
    rw [roundWithAccuracy, hfirst]
    simp only [hround, hte, shiftToTargetExponent_carry (show -1074 < e by omega)]
    rw [dif_neg (by norm_num)]
    simp only [hpower]

end Canonical

/-! ### Packing -/

section Packing

variable {d : Float.Model} {s : Sign} {m : ℕ} {e : ℤ} {hm : 0 < m}

theorem toNat_one_append (M : BitVec 52) : (1#1 ++ M).toNat = 2 ^ 52 + M.toNat := by
  rw [BitVec.toNat_append, ← Nat.shiftLeft_add_eq_or_of_lt M.isLt]
  rfl

/-- The parts of the bits of a finite number. -/
theorem parts_of_unpack (hd : d.unpack = .finite s m e hm) :
    ∃ (E : BitVec 11) (M : BitVec 52), @unpackExponent .binary64 d.toBits.toBitVec = E ∧
      @unpackMantissa .binary64 d.toBits.toBitVec = M ∧
      Sign.ofBitVec (@unpackSign .binary64 d.toBits.toBitVec) = s ∧ E ≠ -1#11 ∧
      (E = 0#11 ∧ M ≠ 0#52 ∧ m = M.toNat ∧ e = -1074 ∨
        E ≠ 0#11 ∧ m = 2 ^ 52 + M.toNat ∧ e = E.toNat - 1075) := by
  obtain ⟨bits, hbits⟩ : ∃ bits : BitVec Format.binary64.numBits, d.toBits.toBitVec = bits :=
    ⟨_, rfl⟩
  have hbias : ((Format.binary64.exponentBias : ℤ) +
      (Format.binary64.mantissaBitsWithoutImplicit : ℕ)) = 1075 := by decide
  simp only [Float.Model.unpack, UnpackedFloat.unpack, hbits, hbias] at hd
  rw [hbits]
  refine ⟨_, _, rfl, rfl, ?_⟩
  split at hd
  · split at hd <;> simp at hd
  next hinf =>
  split at hd
  · split at hd
    · simp at hd
    · next hzero hne =>
      injection hd with h1 h2 h3
      rw [hzero] at h3
      exact ⟨h1, hinf, .inl ⟨hzero, hne, h2.symm, by simpa using h3.symm⟩⟩
  · next hpos =>
    injection hd with h1 h2 h3
    exact ⟨h1, hinf, .inr ⟨hpos, by rw [← h2]; exact toNat_one_append _, h3.symm⟩⟩

/-- A finite number is unpacked to its canonical form. -/
theorem canonical_of_unpack (hd : d.unpack = .finite s m e hm) : Canonical m e ∧ e ≤ 971 := by
  obtain ⟨E, M, -, -, -, hinf, ⟨-, -, rfl, rfl⟩ | ⟨hne, rfl, rfl⟩⟩ := parts_of_unpack hd
  · have := M.isLt
    exact ⟨⟨hm, by omega, by omega, .inr rfl⟩, by omega⟩
  · have := M.isLt
    have := E.isLt
    have hpos : E.toNat ≠ 0 := fun h => hne (BitVec.eq_of_toNat_eq (by simpa using h))
    have htop : E.toNat ≠ 2047 := fun h => hinf (BitVec.eq_of_toNat_eq (by simpa using h))
    exact ⟨⟨hm, by omega, by omega, .inl (by omega)⟩, by omega⟩

/-- Packing puts the parts together again, with any sign. -/
theorem pack_finite_eq (hd : d.unpack = .finite s m e hm) (s' : Sign) :
    UnpackedFloat.pack Format.binary64 (.finite s' m e hm) =
      packComponents .binary64 s' (unpackExponent d.toBits.toBitVec)
        (unpackMantissa d.toBits.toBitVec) := by
  have hmantBits : Format.binary64.mantissaBits = 53 := rfl
  have hbias : (Format.binary64.exponentBias : ℤ) = 1023 := by decide
  have hwithout : (Format.binary64.mantissaBitsWithoutImplicit : ℤ) = 52 := rfl
  obtain ⟨E, M, hE, hM, -, hinf, hcase⟩ := parts_of_unpack hd
  have hlt := M.isLt
  rw [hE, hM]
  simp only [UnpackedFloat.pack, hmantBits, hbias, hwithout]
  rcases hcase with ⟨rfl, -, hmM, rfl⟩ | ⟨hne, hmM, rfl⟩
  · have hlog : m.log2 < 52 := (Nat.log2_lt hm.ne').mpr (by omega)
    rw [if_neg (by norm_num), if_neg (by omega), hmM, BitVec.ofNat_toNat, BitVec.setWidth_eq]
  · have hlog : m.log2 = 52 := (Nat.log2_eq_iff hm.ne').mpr ⟨by omega, by omega⟩
    have hpos : E.toNat ≠ 0 := fun h => hne (BitVec.eq_of_toNat_eq (by simpa using h))
    have htop : E.toNat ≠ 2047 := fun h => hinf (BitVec.eq_of_toNat_eq (by simpa using h))
    have hbiased : ((E.toNat : ℤ) - 1075 + 1023 + 52).toNat = E.toNat := by omega
    have hfit := E.isLt
    have hexp : BitVec.ofNat 11 E.toNat = E := by simp
    have hmant : BitVec.ofNat 52 m = M := by
      refine BitVec.eq_of_toNat_eq ?_
      rw [BitVec.toNat_ofNat]
      omega
    rw [hbiased, if_neg (by omega), if_pos (by omega)]
    exact congrArg₂ (packComponents .binary64 s') hexp hmant

/-- Packing and unpacking a finite number keeps it, with any sign. -/
theorem unpack_pack (hd : d.unpack = .finite s m e hm) (s' : Sign) :
    (Float.Model.pack (.finite s' m e hm)).unpack = .finite s' m e hm := by
  simp only [Float.Model.unpack, Float.Model.pack, pack_finite_eq hd s', UnpackedFloat.unpack,
    unpackExponent_packComponents, unpackMantissa_packComponents, unpackSign_packComponents,
    Sign.ofBitVec_toBitVec]
  simp only [Float.Model.unpack, UnpackedFloat.unpack] at hd
  split at hd
  · split at hd <;> simp at hd
  · next hinf =>
    rw [if_neg hinf]
    split at hd
    · next hzero =>
      rw [if_pos hzero]
      split at hd
      · simp at hd
      · next hne =>
        injection hd with _ h2 h3
        rw [dif_neg hne]
        simp only [h2, h3]
    · next hpos =>
      injection hd with _ h2 h3
      rw [if_neg hpos]
      simp only [h2, h3]

/-- Unpacking and packing a number keeps it. -/
theorem pack_unpack (d : Float.Model) : Float.Model.pack d.unpack = d := by
  obtain ⟨bits, hvalid⟩ := d
  simp only [Float.Model.pack, Float.Model.unpack, pack_unpack_of_valid hvalid,
    UInt64.ofBitVec_toBitVec]

end Packing

/-! ### Decimal literals -/

section Literals

variable {m : ℕ} {e : ℤ}

theorem approximates_exact (M : ℕ) : Approximates (.ofMantissaAndAccuracy M .exact) M := by
  simp [Approximates, low, ExtendedMantissa.ofMantissaAndAccuracy]

/-- A quotient and the accuracy that its remainder gives it. -/
theorem approximates_div (a : ℕ) {b : ℕ} (hb : 0 < b) :
    Approximates (.ofMantissaAndAccuracy (a / b) (accuracyOfFraction (a % b) b)) (a / b : ℚ) := by
  have hb' : (0 : ℚ) < b := by exact_mod_cast hb
  have hsplit : (a : ℚ) = b * ((a / b : ℕ) : ℚ) + ((a % b : ℕ) : ℚ) := by
    exact_mod_cast (Nat.div_add_mod a b).symm
  have hlt : ((a % b : ℕ) : ℚ) < b := by exact_mod_cast Nat.mod_lt a hb
  have hquotient : (a / b : ℚ) = ((a / b : ℕ) : ℚ) + ((a % b : ℕ) : ℚ) / b := by
    rw [hsplit, add_div, mul_div_cancel_left₀ _ hb'.ne']
  rw [hquotient, accuracyOfFraction]
  split
  · next hzero =>
    rw [hzero]
    simp [Approximates, low, ExtendedMantissa.ofMantissaAndAccuracy]
  · next hne =>
    have hpos : (0 : ℚ) < ((a % b : ℕ) : ℚ) := by exact_mod_cast Nat.pos_of_ne_zero hne
    have hfrac : 0 < ((a % b : ℕ) : ℚ) / b := div_pos hpos hb'
    rcases lt_trichotomy (2 * (a % b)) b with hcmp | hcmp | hcmp
    · have hhalf : ((a % b : ℕ) : ℚ) / b < 1 / 2 := by
        rw [div_lt_iff₀ hb']
        have : ((2 * (a % b) : ℕ) : ℚ) < b := by exact_mod_cast hcmp
        push_cast at this
        linarith
      rw [compare_lt_iff_lt.mpr hcmp]
      simp only [Approximates, low, ExtendedMantissa.ofMantissaAndAccuracy, if_true,
        Bool.false_eq_true, if_false, add_zero]
      exact ⟨by linarith, by linarith⟩
    · have hhalf : ((a % b : ℕ) : ℚ) / b = 1 / 2 := by
        rw [div_eq_iff hb'.ne']
        have : ((2 * (a % b) : ℕ) : ℚ) = b := by exact_mod_cast hcmp
        push_cast at this
        linarith
      rw [compare_eq_iff_eq.mpr hcmp, hhalf]
      simp [Approximates, low, ExtendedMantissa.ofMantissaAndAccuracy]
    · have hhalf : 1 / 2 < ((a % b : ℕ) : ℚ) / b := by
        rw [lt_div_iff₀ hb']
        have : (b : ℚ) < ((2 * (a % b) : ℕ) : ℚ) := by exact_mod_cast hcmp
        push_cast at this
        linarith
      have hone : ((a % b : ℕ) : ℚ) / b < 1 := (div_lt_one hb').mpr hlt
      rw [compare_gt_iff_gt.mpr hcmp]
      simp only [Approximates, low, ExtendedMantissa.ofMantissaAndAccuracy, if_true]
      exact ⟨by linarith, by linarith⟩

/-- The product that a literal with a nonnegative exponent stands for has enough bits. -/
theorem mul_bits {D : ℕ} (hD : 0 < D) (j : ℕ) : 52 ≤ ((D <<< 53) * 10 ^ j).log2 := by
  have hten : 1 ≤ 10 ^ j := Nat.one_le_pow _ _ (by norm_num)
  have hle : 2 ^ 52 ≤ (D <<< 53) * 10 ^ j := by
    rw [Nat.shiftLeft_eq]
    calc 2 ^ 52 ≤ 1 * 2 ^ 53 := by norm_num
      _ ≤ D * 2 ^ 53 := Nat.mul_le_mul_right _ hD
      _ ≤ D * 2 ^ 53 * 10 ^ j := Nat.le_mul_of_pos_right _ hten
  refine (Nat.le_log2 ?_).mpr hle
  exact (lt_of_lt_of_le (Nat.two_pow_pos 52) hle).ne'

/-- The quotient in `divCore` has enough bits. -/
theorem divCore_bits {a b : ℕ} (ha : 0 < a) (hb : 0 < b) {t : ℤ}
    (ht : t = min 0 (max ((a.log2 : ℤ) - b.log2 - 53) (-1074))) :
    52 ≤ ((a <<< (0 - t).toNat) / b).log2 ∨ t ≤ -1074 := by
  by_cases hmin : t ≤ -1074
  · exact .inr hmin
  left
  obtain ⟨k, hk⟩ : ∃ k : ℕ, (0 - t).toNat = k := ⟨_, rfl⟩
  have hshift : 53 + b.log2 ≤ a.log2 + k := by omega
  have hb' : b < 2 ^ (b.log2 + 1) := Nat.lt_log2_self
  have ha' : 2 ^ a.log2 ≤ a := Nat.log2_self_le ha.ne'
  have hquotient : 2 ^ 52 ≤ (a <<< k) / b := by
    rw [Nat.le_div_iff_mul_le hb, Nat.shiftLeft_eq]
    calc 2 ^ 52 * b ≤ 2 ^ 52 * 2 ^ (b.log2 + 1) := Nat.mul_le_mul_left _ hb'.le
      _ = 2 ^ (53 + b.log2) := by rw [← pow_add]; congr 1; omega
      _ ≤ 2 ^ (a.log2 + k) := Nat.pow_le_pow_right (by decide) hshift
      _ = 2 ^ a.log2 * 2 ^ k := pow_add ..
      _ ≤ a * 2 ^ k := Nat.mul_le_mul_right _ ha'
  rw [hk]
  have hpos : (a <<< k) / b ≠ 0 := by
    have : 0 < 2 ^ 52 := by positivity
    omega
  exact (Nat.le_log2 hpos).mpr hquotient

/-- A literal with a small exponent passes the checks on its exponent. -/
theorem exponent_guards {D : ℕ} {k : ℤ} (hk : -2000 ≤ k) (hk' : k ≤ 2000) :
    ¬k > 2 ^ Format.binary64.exponentBits ∧
      ¬k < -((2 ^ Format.binary64.exponentBits : ℤ) + D.log2) := by
  have hbits : Format.binary64.exponentBits = 11 := rfl
  have hexp : (2 : ℤ) ^ 11 = 2048 := by norm_num
  rw [hbits, hexp]
  exact ⟨by omega, by omega⟩

/-- **Decimal literals.** A literal whose value is near a canonical form is read as that number. -/
theorem ofScientific_eq (hc : Canonical m e) {D : ℕ} {k : ℤ} (hD : 0 < D) (hk : -2000 ≤ k)
    (hk' : k ≤ 2000) (hx : Near m e (D * 10 ^ k)) :
    UnpackedFloat.ofScientific Format.binary64 D k = .finite .positive m e hc.pos := by
  obtain ⟨htop, hbottom⟩ := exponent_guards (D := D) hk hk'
  rw [UnpackedFloat.ofScientific, dif_neg hD.ne', if_neg htop, if_neg hbottom]
  split
  · next hnonneg =>
    obtain ⟨j, rfl⟩ := Int.eq_ofNat_of_zero_le hnonneg
    have hbits : Format.binary64.mantissaBits = 53 := rfl
    have hvalue : (((D <<< 53) * 10 ^ j : ℕ) : ℚ) * 2 ^ (-53 : ℤ) = D * 10 ^ (j : ℤ) := by
      rw [Nat.shiftLeft_eq, zpow_natCast]
      push_cast
      norm_num
      ring
    have hround := roundWithAccuracy_eq hc .positive (approximates_exact _)
      (.inl (mul_bits hD j)) (hvalue.symm ▸ hx)
    simp only [UnpackedFloat.mul, hbits, Int.toNat_natCast, add_zero]
    exact hround
  · next hneg =>
    obtain ⟨j, hj⟩ : ∃ j : ℕ, (-k).toNat = j := ⟨_, rfl⟩
    obtain rfl : k = -(j : ℤ) := by omega
    have hb : 0 < 10 ^ j := by positivity
    obtain ⟨t, ht⟩ : ∃ t : ℤ, t = min 0 (max ((D.log2 : ℤ) - (10 ^ j).log2 - 53) (-1074)) :=
      ⟨_, rfl⟩
    have htarget : min (0 - 0) (Format.binary64.targetExponent
        (totalExponent D 0 - totalExponent (10 ^ j) 0)) = t := by
      rw [ht]
      simp only [Format.targetExponent, totalExponent, Format.mantissaBits, Format.minExponent]
      omega
    have hvalue : ((D <<< (0 - t).toNat : ℕ) / (10 ^ j : ℕ) : ℚ) * 2 ^ t =
        D * 10 ^ (-(j : ℤ)) := by
      obtain ⟨i, hi⟩ : ∃ i : ℕ, (0 - t).toNat = i := ⟨_, rfl⟩
      have hti : t = -(i : ℤ) := by omega
      rw [hi, hti, Nat.shiftLeft_eq, zpow_neg, zpow_neg, zpow_natCast, zpow_natCast]
      push_cast
      field_simp
    have hround := roundWithAccuracy_eq hc .positive (approximates_div (D <<< (0 - t).toNat) hb)
      (divCore_bits hD hb ht) (hvalue.symm ▸ hx)
    simp only [UnpackedFloat.div, divCore, htarget, hj]
    exact hround

/-- A number with a relative error of seventeen digits is near the canonical form. -/
theorem near_of_close (hc : Canonical m e) {x : ℚ}
    (h : |x - m * 2 ^ e| ≤ m * 2 ^ e / (2 * 10 ^ 16)) : Near m e x := by
  have hpos : (0 : ℚ) < 2 ^ e := by positivity
  have hlt : (m : ℚ) < 2 ^ 53 := by exact_mod_cast hc.lt
  have hunit : (m : ℚ) * 2 ^ e < 2 ^ 53 * 2 ^ e := mul_lt_mul_of_pos_right hlt hpos
  rw [abs_le] at h
  obtain ⟨hlo, hhi⟩ := h
  refine ⟨by linarith, by linarith, fun hpower => ?_⟩
  have hm : (m : ℚ) = 2 ^ 52 := by exact_mod_cast hpower
  rw [hm] at hlo ⊢
  linarith

/-- **Reading a number back.** A literal whose value is near a finite number is read as that number.
-/
theorem ofScientific_eq_of_unpack {d : Float.Model} {s : Sign} {hm : 0 < m}
    (hd : d.unpack = .finite s m e hm) {D : ℕ} {k : ℤ} (hD : 0 < D) (hk : -2000 ≤ k)
    (hk' : k ≤ 2000) (hx : Near m e (D * 10 ^ k)) :
    (if s == .negative then (Float.Model.ofScientific D k).neg else Float.Model.ofScientific D k) =
      d := by
  have hread := ofScientific_eq (canonical_of_unpack hd).1 hD hk hk' hx
  have hpack := pack_unpack d
  rw [hd] at hpack
  cases s with
  | positive =>
    rw [if_neg (by decide), Float.Model.ofScientific, hread, hpack]
  | negative =>
    rw [if_pos (by decide), Float.Model.neg, Float.Model.ofScientific, hread,
      unpack_pack hd .positive]
    exact hpack

end Literals

end BinaryRounding
