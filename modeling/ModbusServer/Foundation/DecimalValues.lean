import Mathlib
import ModbusServer.Foundation.Printf

/-!
# The value of a decimal literal

A decimal literal stands for a rational number. The literal that `%g` writes for a fraction stands
for its significant digits, the zeros that are left out included, and differs from the fraction by
at most half a unit of the last of them.

## Main definitions

* `Printf.Numeral.mantissa`, `Printf.Numeral.scale`, `Printf.Numeral.magnitude`: the value of a
  literal.

## Main results

* `Printf.significant_close`: how close the significant digits are to the fraction.
* `Printf.exists_numeral_gText`: the value of the text of a fraction.
-/

namespace Printf

open CText

/-! ### Significant digits -/

section Significant

variable {P a b m n N : ℕ}

theorem le_roundHalfEven (hn : 0 < n) (h : N * n ≤ m) : N ≤ roundHalfEven m n := by
  have hdiv : N ≤ m / n := (Nat.le_div_iff_mul_le hn).mpr h
  rw [roundHalfEven]
  split
  · exact hdiv
  · exact hdiv.trans (Nat.le_succ _)

/-- Rounding to an integer changes a fraction by at most one half. -/
theorem abs_roundHalfEven_sub_le (m : ℕ) (hn : 0 < n) :
    |(roundHalfEven m n : ℚ) - m / n| ≤ 1 / 2 := by
  have hsplit := Nat.div_add_mod m n
  have hmod := Nat.mod_lt m hn
  have hn' : (0 : ℚ) < n := by exact_mod_cast hn
  have hclose : 2 * (roundHalfEven m n * n) ≤ 2 * m + n ∧
      2 * m ≤ 2 * (roundHalfEven m n * n) + n := by
    rw [roundHalfEven]
    rw [Nat.mul_comm] at hsplit
    split
    · omega
    · rw [Nat.add_mul]
      omega
  obtain ⟨hle, hge⟩ := hclose
  have hle' : (2 : ℚ) * (roundHalfEven m n * n) ≤ 2 * m + n := by exact_mod_cast hle
  have hge' : (2 : ℚ) * m ≤ 2 * (roundHalfEven m n * n) + n := by exact_mod_cast hge
  have hdiv : (m : ℚ) = m / n * n := by field_simp
  rw [abs_le]
  constructor <;> nlinarith

/-- The exponent is small enough for the number. -/
theorem le_of_leadExponent (ha : 0 < a) (hb : 0 < b) {i j : ℕ}
    (h : leadExponent a b = (i : ℤ) - j) : b * 10 ^ i ≤ a * 10 ^ j := by
  rw [leadExponent] at h
  split at h
  · next hle =>
    obtain rfl : i = Nat.log 10 (a / b) + j := by omega
    have hpos : a / b ≠ 0 := (Nat.div_pos hle hb).ne'
    have hlog : 10 ^ Nat.log 10 (a / b) * b ≤ a :=
      (Nat.le_div_iff_mul_le hb).mp (Nat.pow_log_le_self 10 hpos)
    calc b * 10 ^ (Nat.log 10 (a / b) + j) = 10 ^ Nat.log 10 (a / b) * b * 10 ^ j := by
          rw [pow_add]; ring
      _ ≤ a * 10 ^ j := Nat.mul_le_mul_right _ hlog
  · next hlt =>
    set n := (b + a - 1) / a with hn
    obtain rfl : j = i + Nat.clog 10 n := by omega
    have hclog : n ≤ 10 ^ Nat.clog 10 n := Nat.le_pow_clog (by decide) n
    have hceil : b ≤ a * n := by
      have := Nat.div_add_mod (b + a - 1) a
      have := Nat.mod_lt (b + a - 1) ha
      rw [hn]
      omega
    calc b * 10 ^ i ≤ a * n * 10 ^ i := Nat.mul_le_mul_right _ hceil
      _ ≤ a * 10 ^ Nat.clog 10 n * 10 ^ i :=
          Nat.mul_le_mul_right _ (Nat.mul_le_mul_left _ hclog)
      _ = a * 10 ^ (i + Nat.clog 10 n) := by rw [pow_add]; ring

/-- There are at least `P` digits. -/
theorem le_significant (hP : 0 < P) (ha : 0 < a) (hb : 0 < b) :
    10 ^ (P - 1) ≤ (significant P a b).1 := by
  have hge (x : ℤ) (hx : x = leadExponent a b) : 10 ^ (P - 1) ≤ firstDigits P a b x := by
    rw [firstDigits]
    split
    · next hexp =>
      refine le_roundHalfEven (by positivity) ?_
      have hle : b * 10 ^ (P - 1 + (x - (P - 1)).toNat) ≤ a * 10 ^ 0 :=
        le_of_leadExponent ha hb (by omega)
      calc 10 ^ (P - 1) * (b * 10 ^ (x - (P - 1)).toNat) =
            b * 10 ^ (P - 1 + (x - (P - 1)).toNat) := by rw [pow_add]; ring
        _ ≤ a := by omega
    · next hexp =>
      refine le_roundHalfEven hb ?_
      have hle : b * 10 ^ (P - 1) ≤ a * 10 ^ (P - 1 - x).toNat :=
        le_of_leadExponent ha hb (by omega)
      rw [Nat.mul_comm]
      exact hle
  have hlead := hge _ rfl
  simp only [significant]
  split
  · exact le_rfl
  · exact hlead

/-- The first digits are off by at most half a unit of the last one. -/
theorem firstDigits_close (P a : ℕ) (hb : 0 < b) (x : ℤ) :
    |(firstDigits P a b x : ℚ) * 10 ^ (x - (P - 1)) - a / b| ≤ 1 / 2 * 10 ^ (x - (P - 1)) := by
  have hpos : (0 : ℚ) < 10 ^ (x - (P - 1)) := by positivity
  have hb' : (0 : ℚ) < b := by exact_mod_cast hb
  suffices h : |(firstDigits P a b x : ℚ) - a / b / 10 ^ (x - (P - 1))| ≤ 1 / 2 by
    have hscale : (firstDigits P a b x : ℚ) * 10 ^ (x - (P - 1)) - a / b =
        (firstDigits P a b x - a / b / 10 ^ (x - (P - 1))) * 10 ^ (x - (P - 1)) := by
      field_simp
    rw [hscale, abs_mul, abs_of_pos hpos]
    exact mul_le_mul_of_nonneg_right h hpos.le
  rw [firstDigits]
  split
  · next hexp =>
    obtain ⟨i, hi⟩ : ∃ i : ℕ, x - (P - 1) = i := ⟨(x - (P - 1)).toNat, by omega⟩
    have hround := abs_roundHalfEven_sub_le a (n := b * 10 ^ i) (by positivity)
    rw [hi, Int.toNat_natCast, zpow_natCast]
    push_cast at hround
    rwa [div_div]
  · next hexp =>
    obtain ⟨i, hi⟩ : ∃ i : ℕ, P - 1 - x = i := ⟨(P - 1 - x).toNat, by omega⟩
    have hround := abs_roundHalfEven_sub_le (a * 10 ^ i) hb
    have hneg : x - (P - 1) = -(i : ℤ) := by omega
    rw [hi, Int.toNat_natCast, hneg, zpow_neg, zpow_natCast]
    push_cast at hround
    rwa [div_inv_eq_mul, ← mul_div_right_comm]

/-- **The significant digits are close to the fraction.** -/
theorem significant_close (hP : 0 < P) (ha : 0 < a) (hb : 0 < b) :
    |((significant P a b).1 : ℚ) * 10 ^ ((significant P a b).2 - (P - 1)) - a / b| ≤
      a / b / (2 * 10 ^ (P - 1)) := by
  set x := leadExponent a b with hx
  have hvalue : ((significant P a b).1 : ℚ) * 10 ^ ((significant P a b).2 - (P - 1)) =
      firstDigits P a b x * 10 ^ (x - (P - 1)) := by
    simp only [significant]
    rw [← hx]
    split
    · next hcarry =>
      have hsucc : x + 1 - ((P : ℤ) - 1) = 1 + (x - (P - 1)) := by ring
      obtain ⟨p, rfl⟩ : ∃ p, P = p + 1 := ⟨P - 1, by omega⟩
      rw [hcarry, hsucc, zpow_add₀ (by norm_num), zpow_one, Nat.add_sub_cancel, pow_succ]
      push_cast
      ring
    · rfl
  have hb' : (0 : ℚ) < b := by exact_mod_cast hb
  have hlead : (10 : ℚ) ^ x ≤ a / b := by
    obtain ⟨i, j, hij⟩ : ∃ i j : ℕ, x = (i : ℤ) - j := ⟨x.toNat, (-x).toNat, by omega⟩
    have hle := le_of_leadExponent ha hb (hx.symm.trans hij)
    have hle' : (b : ℚ) * 10 ^ i ≤ a * 10 ^ j := by exact_mod_cast hle
    rw [hij, zpow_sub₀ (by norm_num), zpow_natCast, zpow_natCast, div_le_div_iff₀ (by positivity)
      hb', mul_comm]
    exact hle'
  have hunit : (10 : ℚ) ^ (x - (P - 1)) = 10 ^ x / 10 ^ (P - 1) := by
    obtain ⟨p, rfl⟩ : ∃ p, P = p + 1 := ⟨P - 1, by omega⟩
    rw [zpow_sub₀ (by norm_num)]
    push_cast
    rw [add_sub_cancel_right, zpow_natCast]
  rw [hvalue]
  refine (firstDigits_close P a hb x).trans ?_
  rw [hunit, div_mul_eq_div_div]
  have hten : (0 : ℚ) < 10 ^ (P - 1) := by positivity
  have hdiv : (10 : ℚ) ^ x / 10 ^ (P - 1) ≤ a / b / 10 ^ (P - 1) :=
    div_le_div_of_nonneg_right hlead hten.le
  have hhalf : (a : ℚ) / b / 2 / 10 ^ (P - 1) = 1 / 2 * (a / b / 10 ^ (P - 1)) := by ring
  rw [hhalf]
  exact mul_le_mul_of_nonneg_left hdiv (by norm_num)

end Significant

/-! ### Literals -/

/-- Reading digits continues with the digits behind them. -/
theorem digitsValue_append (ds es : Bytes) :
    digitsValue (ds ++ es) = es.foldl (fun n c => 10 * n + (c.toNat - 48)) (digitsValue ds) := by
  rw [digitsValue, List.foldl_append, digitsValue]

theorem digitsValue_append_zeros (ds : Bytes) (k : ℕ) :
    digitsValue (ds ++ List.replicate k 48) = digitsValue ds * 10 ^ k := by
  induction k with
  | zero => simp
  | succ k ih =>
    rw [List.replicate_succ', ← List.append_assoc, digitsValue_append, ih]
    simp only [List.foldl_cons, List.foldl_nil, UInt8.reduceToNat, Nat.sub_self, pow_succ]
    ring

theorem digitsValue_zeros_append (k : ℕ) (ds : Bytes) :
    digitsValue (List.replicate k 48 ++ ds) = digitsValue ds := by
  have hzeros : digitsValue (List.replicate k 48) = 0 := by
    simpa [digitsValue] using digitsValue_append_zeros [] k
  rw [digitsValue_append, hzeros, digitsValue]

theorem digitsValue_exponentDigits (n : ℕ) : digitsValue (exponentDigits n) = n := by
  rw [exponentDigits]
  split
  · have hzero := digitsValue_zeros_append 1 (natText n)
    rwa [digitsValue_natText] at hzero
  · exact digitsValue_natText n

theorem length_natText {n P : ℕ} (hP : 0 < P) (hlo : 10 ^ (P - 1) ≤ n) (hhi : n < 10 ^ P) :
    (natText n).length = P := by
  have hpos : 0 < n := lt_of_lt_of_le (by positivity) hlo
  refine le_antisymm (length_natText_le hP hhi) ?_
  rw [natText, if_neg hpos.ne', List.length_map, List.length_reverse]
  have hlt : P - 1 < (Nat.digits 10 n).length := (Nat.lt_digits_length_iff (by decide) n).mpr hlo
  omega

namespace Numeral

/-- The digits of a literal as a number. -/
def mantissa (n : Numeral) : ℕ := digitsValue (n.whole ++ n.fraction)

/-- The value of an exponent. -/
def exponentValue : Option (Bool × Bytes) → ℤ
  | none => 0
  | some (negative, ds) => if negative then -digitsValue ds else digitsValue ds

/-- The exponent of the last digit of a literal. -/
def scale (n : Numeral) : ℤ := exponentValue n.exponent - n.fraction.length

/-- The value of a literal, without its sign. -/
def magnitude (n : Numeral) : ℚ := n.mantissa * 10 ^ n.scale

end Numeral

/-- Leaving out the zeros at the end of the fraction digits keeps the value of a literal. -/
theorem exists_numeral_pointed (negative : Bool) (whole fraction : Bytes)
    (exponent : Option (Bool × Bytes)) (hne : whole ≠ []) (hw : ∀ c ∈ whole, isDigit c = true)
    (hf : ∀ c ∈ fraction, isDigit c = true)
    (he : ∀ e ∈ exponent, e.2 ≠ [] ∧ ∀ c ∈ e.2, isDigit c = true) :
    ∃ n : Numeral, n.text = Numeral.signText negative ++
        (pointed whole fraction ++ Numeral.exponentText exponent) ∧ n.negative = negative ∧
      n.magnitude = digitsValue (whole ++ fraction) *
        10 ^ (Numeral.exponentValue exponent - fraction.length) ∧
      Numeral.exponentValue exponent - fraction.length ≤ n.scale ∧
      n.scale ≤ Numeral.exponentValue exponent := by
  obtain ⟨k, hk⟩ : ∃ k, fraction = fraction.rdropWhile (· = 48) ++ List.replicate k 48 := by
    refine ⟨(fraction.rtakeWhile (· = 48)).length, ?_⟩
    have hzeros : fraction.rtakeWhile (· = 48) =
        List.replicate (fraction.rtakeWhile (· = 48)).length 48 :=
      List.eq_replicate_iff.mpr ⟨rfl, fun c hc => by
        simpa using List.mem_rtakeWhile_imp hc⟩
    rw [← hzeros]
    exact (List.rdropWhile_append_rtakeWhile ..).symm
  refine ⟨⟨negative, whole, fraction.rdropWhile (· = 48), exponent, hne, hw,
    isDigit_of_mem_rdropWhile hf, he⟩, ?_, rfl, ?_, ?_, ?_⟩
  · rw [Numeral.text, pointed_eq, List.append_assoc]
  · have hlen := congrArg List.length hk
    rw [List.length_append, List.length_replicate] at hlen
    have hvalue : digitsValue (whole ++ fraction) =
        digitsValue (whole ++ fraction.rdropWhile (· = 48)) * 10 ^ k := by
      rw [← digitsValue_append_zeros, List.append_assoc, ← hk]
    have hscale : Numeral.exponentValue exponent - ((fraction.rdropWhile (· = 48)).length : ℤ) =
        Numeral.exponentValue exponent - fraction.length + k := by omega
    simp only [Numeral.magnitude, Numeral.mantissa, Numeral.scale]
    rw [hvalue, hscale, zpow_add₀ (by norm_num), zpow_natCast]
    push_cast
    ring
  · have hlen := (List.rdropWhile_prefix (· = 48) fraction).length_le
    simp only [Numeral.scale]
    omega
  · simp only [Numeral.scale]
    omega

variable {P a b : ℕ}

/-- **The value of the text of a fraction.** The text is a literal for the significant digits. -/
theorem exists_numeral_gText (negative : Bool) (hP : 0 < P) (ha : 0 < a) (hb : 0 < b) :
    ∃ n : Numeral, n.text = Numeral.signText negative ++ gText P a b ∧ n.negative = negative ∧
      n.magnitude = (significant P a b).1 * 10 ^ ((significant P a b).2 - (P - 1)) ∧
      n.scale.natAbs ≤ (significant P a b).2.natAbs + P := by
  have hlo := le_significant hP ha hb
  have hhi := significant_lt hP ha hb
  obtain ⟨⟨D, x⟩, hs⟩ : ∃ r, significant P a b = r := ⟨_, rfl⟩
  rw [hs] at hlo hhi
  have hlen : (natText D).length = P := length_natText hP hlo hhi
  have hall : ∀ c ∈ natText D, isDigit c = true := fun c hc => isDigit_of_mem_natText hc
  have htake (k : ℕ) : ∀ c ∈ (natText D).take k, isDigit c = true := fun c hc =>
    hall c (List.mem_of_mem_take hc)
  have hdrop (k : ℕ) : ∀ c ∈ (natText D).drop k, isDigit c = true := fun c hc =>
    hall c (List.mem_of_mem_drop hc)
  have hne (k : ℕ) : (natText D).take (k + 1) ≠ [] := by
    obtain ⟨c, ds, hds⟩ := List.exists_cons_of_ne_nil (natText_ne_nil D)
    simp [hds]
  rw [gText, hs]
  simp only
  split
  · next hlarge =>
    have hexp : ∀ e ∈ some (decide (x < 0), exponentDigits x.natAbs),
        e.2 ≠ [] ∧ ∀ c ∈ e.2, isDigit c = true := by
      rintro e ⟨⟩
      exact ⟨exponentDigits_ne_nil _, isDigit_of_mem_exponentDigits⟩
    have hvalue : Numeral.exponentValue (some (decide (x < 0), exponentDigits x.natAbs)) = x := by
      simp only [Numeral.exponentValue, digitsValue_exponentDigits, decide_eq_true_eq]
      split <;> omega
    obtain ⟨n, htext, hsign, hmag, hscale, hscale'⟩ :=
      exists_numeral_pointed negative _ _ _ (hne 0) (htake 1) (hdrop 1) hexp
    rw [hvalue, List.length_drop, hlen] at hscale hmag
    rw [hvalue] at hscale'
    refine ⟨n, by simpa [Numeral.exponentText] using htext, hsign, ?_, by omega⟩
    have hdigits : x - ((P - 1 : ℕ) : ℤ) = x - (P - 1) := by omega
    rw [hmag, List.take_append_drop, digitsValue_natText, hdigits]
  next hsmall =>
  split
  · next hnonneg =>
    obtain ⟨n, htext, hsign, hmag, hscale, hscale'⟩ :=
      exists_numeral_pointed negative _ _ none (hne x.toNat) (htake _) (hdrop _) (by simp)
    rw [List.length_drop, hlen] at hscale hmag
    simp only [Numeral.exponentValue] at hmag hscale hscale'
    refine ⟨n, by simpa [Numeral.exponentText] using htext, hsign, ?_, by omega⟩
    have hdigits : 0 - ((P - (x.toNat + 1) : ℕ) : ℤ) = x - (P - 1) := by omega
    rw [hmag, List.take_append_drop, digitsValue_natText, hdigits]
  · next hneg =>
    have hzeros : ∀ c ∈ List.replicate (-x - 1).toNat 48 ++ natText D, isDigit c = true := by
      intro c hc
      rcases List.mem_append.mp hc with hc | hc
      · rw [List.eq_of_mem_replicate hc]
        decide
      · exact hall c hc
    obtain ⟨n, htext, hsign, hmag, hscale, hscale'⟩ :=
      exists_numeral_pointed negative [48] _ none (by simp) (by simp [isDigit]) hzeros (by simp)
    rw [List.length_append, List.length_replicate, hlen] at hscale hmag
    simp only [Numeral.exponentValue] at hmag hscale hscale'
    refine ⟨n, by simpa [Numeral.exponentText] using htext, hsign, ?_, by omega⟩
    have hdigits : 0 - (((-x - 1).toNat + P : ℕ) : ℤ) = x - (P - 1) := by omega
    have hlead : digitsValue ([48] ++ (List.replicate (-x - 1).toNat 48 ++ natText D)) = D := by
      rw [← List.append_assoc, ← List.replicate_one, List.replicate_append_replicate,
        digitsValue_zeros_append, digitsValue_natText]
    rw [hmag, hlead, hdigits]

end Printf
