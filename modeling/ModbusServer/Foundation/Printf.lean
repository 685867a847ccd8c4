import Mathlib.Data.List.DropRight
import Mathlib.Data.Nat.Log
import Mathlib.Tactic.Ring
import ModbusServer.Foundation.CText

/-!
# The conversion `%g`

How `printf` writes a positive fraction `a / b` with a given number of significant digits. The
fraction is rounded to that many digits, halves to the even neighbour. Small and large numbers are
written with an exponent of at least two digits, the others without one; zeros at the end of the
fraction digits are left out, and so is a decimal point without digits behind it.

## Main definitions

* `Printf.roundHalfEven`, `Printf.significant`: the significant digits as a number, and the exponent
  of the first of them.
* `Printf.gText`: the text of a fraction.
* `Printf.Numeral`, `Printf.IsNumeral`: decimal literals.

## Main results

* `Printf.significant_lt`: the digits are not too many.
* `Printf.length_gText_le`: how long the text is.
-/

namespace Printf

open CText

/-! ### Significant digits -/

/-- `m / n` rounded to an integer, halves to the even neighbour. -/
def roundHalfEven (m n : ℕ) : ℕ :=
  if 2 * (m % n) < n ∨ 2 * (m % n) = n ∧ m / n % 2 = 0 then m / n else m / n + 1

/-- The exponent of the first digit of `a / b`. -/
def leadExponent (a b : ℕ) : ℤ :=
  if b ≤ a then Nat.log 10 (a / b) else -Nat.clog 10 ((b + a - 1) / a)

/-- The first `P` digits of `a / b` as a number, rounded, when the first digit has the exponent
`x`. -/
def firstDigits (P a b : ℕ) (x : ℤ) : ℕ :=
  if P - 1 ≤ x then roundHalfEven a (b * 10 ^ (x - (P - 1)).toNat)
  else roundHalfEven (a * 10 ^ (P - 1 - x).toNat) b

/-- The first `P` digits of `a / b` as a number, rounded, and the exponent of the first digit.
Rounding up may give a digit more, and then a power of ten. -/
def significant (P a b : ℕ) : ℕ × ℤ :=
  let x := leadExponent a b
  if firstDigits P a b x = 10 ^ P then (10 ^ (P - 1), x + 1) else (firstDigits P a b x, x)

variable {P a b : ℕ}

theorem roundHalfEven_le {m n N : ℕ} (hn : 0 < n) (h : m ≤ N * n) : roundHalfEven m n ≤ N := by
  have hdiv : m / n ≤ N := Nat.div_le_of_le_mul (by rwa [Nat.mul_comm])
  rw [roundHalfEven]
  split
  · exact hdiv
  · next hup =>
    by_contra hlt
    obtain rfl : m / n = N := by omega
    have hsplit := Nat.div_add_mod m n
    rw [Nat.mul_comm] at h
    omega

/-- The exponent is large enough for the number. -/
theorem lt_of_leadExponent (ha : 0 < a) (hb : 0 < b) {i j : ℕ}
    (h : leadExponent a b + 1 = (i : ℤ) - j) : a * 10 ^ j < b * 10 ^ i := by
  rw [leadExponent] at h
  split at h
  · next hle =>
    obtain rfl : i = Nat.log 10 (a / b) + 1 + j := by omega
    have hlog : a / b < 10 ^ (Nat.log 10 (a / b) + 1) := Nat.lt_pow_succ_log_self (by decide) _
    calc a * 10 ^ j < b * 10 ^ (Nat.log 10 (a / b) + 1) * 10 ^ j :=
          Nat.mul_lt_mul_of_pos_right (by
            rw [Nat.mul_comm]
            exact (Nat.div_lt_iff_lt_mul hb).mp hlog) (by positivity)
      _ = b * 10 ^ (Nat.log 10 (a / b) + 1 + j) := by rw [pow_add _ _ j, Nat.mul_assoc]
  · next hlt =>
    set n := (b + a - 1) / a with hn
    have htwo : 2 ≤ n := by
      rw [hn, Nat.le_div_iff_mul_le ha]
      omega
    have hpos : 0 < Nat.clog 10 n := Nat.clog_pos (by decide) htwo
    obtain ⟨k, hk⟩ : ∃ k, Nat.clog 10 n = k + 1 := ⟨Nat.clog 10 n - 1, by omega⟩
    have hpow : 10 ^ k < n := (Nat.lt_clog_iff_pow_lt (by decide)).mp (by omega)
    have hlead : a * 10 ^ k < b := by
      have hmul : (10 ^ k + 1) * a ≤ b + a - 1 := (Nat.le_div_iff_mul_le ha).mp hpow
      rw [Nat.add_mul, Nat.one_mul, Nat.mul_comm] at hmul
      omega
    obtain rfl : j = i + k := by omega
    calc a * 10 ^ (i + k) = a * 10 ^ k * 10 ^ i := by rw [Nat.add_comm, pow_add, Nat.mul_assoc]
      _ < b * 10 ^ i := Nat.mul_lt_mul_of_pos_right hlead (by positivity)

/-- There are at most `P` digits. -/
theorem significant_lt (hP : 0 < P) (ha : 0 < a) (hb : 0 < b) :
    (significant P a b).1 < 10 ^ P := by
  have hle (x : ℤ) (hx : x = leadExponent a b) : firstDigits P a b x ≤ 10 ^ P := by
    rw [firstDigits]
    split
    · next hexp =>
      refine roundHalfEven_le (by positivity) ?_
      have hlt : a * 10 ^ 0 < b * 10 ^ (P + (x - (P - 1)).toNat) :=
        lt_of_leadExponent ha hb (by omega)
      calc a ≤ b * 10 ^ (P + (x - (P - 1)).toNat) := by omega
        _ = 10 ^ P * (b * 10 ^ (x - (P - 1)).toNat) := by rw [pow_add]; ring
    · next hexp =>
      refine roundHalfEven_le hb ?_
      have hlt : a * 10 ^ (P - 1 - x).toNat < b * 10 ^ P := lt_of_leadExponent ha hb (by omega)
      rw [Nat.mul_comm (10 ^ P)]
      exact hlt.le
  have hlead := hle _ rfl
  simp only [significant]
  split
  · exact Nat.pow_lt_pow_right (by decide) (by omega)
  · next hne => exact lt_of_le_of_ne hlead hne

/-- The exponent of a fraction of moderate size is moderate. -/
theorem natAbs_significant_le {k : ℕ} (ha : 0 < a) (hak : a < 10 ^ k) (hbk : b ≤ 10 ^ k) :
    (significant P a b).2.natAbs ≤ k + 1 := by
  have hlead : (leadExponent a b).natAbs ≤ k := by
    rw [leadExponent]
    split
    · have hlog : Nat.log 10 (a / b) ≤ Nat.log 10 a := Nat.log_mono_right (Nat.div_le_self a b)
      have hlt : Nat.log 10 a < k := Nat.log_lt_of_lt_pow ha.ne' hak
      omega
    · have hle : (b + a - 1) / a ≤ 10 ^ k := by
        rw [Nat.div_le_iff_le_mul_add_pred ha]
        have : b ≤ a * 10 ^ k := hbk.trans (Nat.le_mul_of_pos_left _ ha)
        omega
      have hclog : Nat.clog 10 ((b + a - 1) / a) ≤ k := (Nat.clog_le_iff_le_pow (by decide)).mpr hle
      omega
  simp only [significant]
  split
  · simp only
    omega
  · exact hlead.trans (Nat.le_succ k)

/-! ### Texts -/

/-- Digits in front of a decimal point and behind it. -/
def pointed (whole fraction : Bytes) : Bytes :=
  match fraction.rdropWhile (· = 48) with
  | [] => whole
  | c :: ds => whole ++ 46 :: c :: ds

/-- The digits of an exponent, at least two. -/
def exponentDigits (n : ℕ) : Bytes :=
  if n < 10 then 48 :: natText n else natText n

/-- `printf("%.<P>g")` of the fraction `a / b`. -/
def gText (P a b : ℕ) : Bytes :=
  let (digits, x) := significant P a b
  let ds := natText digits
  if x < -4 ∨ P ≤ x then
    pointed (ds.take 1) (ds.drop 1) ++
      101 :: (if x < 0 then 45 else 43) :: exponentDigits x.natAbs
  else if 0 ≤ x then pointed (ds.take (x.toNat + 1)) (ds.drop (x.toNat + 1))
  else pointed [48] (List.replicate (-x - 1).toNat 48 ++ ds)

/-! ### Decimal literals -/

/-- A decimal literal: a sign, digits, further digits behind a point, and an exponent. -/
structure Numeral where
  negative : Bool
  whole : Bytes
  fraction : Bytes
  exponent : Option (Bool × Bytes)
  whole_ne_nil : whole ≠ []
  isDigit_whole : ∀ c ∈ whole, isDigit c = true
  isDigit_fraction : ∀ c ∈ fraction, isDigit c = true
  isDigit_exponent : ∀ e ∈ exponent, e.2 ≠ [] ∧ ∀ c ∈ e.2, isDigit c = true

namespace Numeral

/-- The sign of a literal. -/
def signText (negative : Bool) : Bytes := if negative then [45] else []

/-- The fraction digits, with the point in front of them. -/
def fractionText : Bytes → Bytes
  | [] => []
  | c :: ds => 46 :: c :: ds

/-- The exponent, with its sign. -/
def exponentText : Option (Bool × Bytes) → Bytes
  | none => []
  | some (negative, ds) => 101 :: (if negative then 45 else 43) :: ds

/-- A literal as text. -/
def text (n : Numeral) : Bytes :=
  signText n.negative ++ (n.whole ++ (fractionText n.fraction ++ exponentText n.exponent))

end Numeral

/-- Is the text a decimal literal? -/
def IsNumeral (t : Bytes) : Prop := ∃ n : Numeral, n.text = t

theorem isDigit_of_mem_rdropWhile {fraction : Bytes} (h : ∀ c ∈ fraction, isDigit c = true) :
    ∀ c ∈ fraction.rdropWhile (· = 48), isDigit c = true := fun c hc =>
  h c ((List.rdropWhile_prefix _ _).subset hc)

theorem pointed_eq (whole fraction : Bytes) :
    pointed whole fraction =
      whole ++ Numeral.fractionText (fraction.rdropWhile (· = 48)) := by
  rw [pointed]
  cases fraction.rdropWhile (· = 48) with
  | nil => simp only [Numeral.fractionText, List.append_nil]
  | cons c ds => simp only [Numeral.fractionText]

theorem length_pointed_le (whole fraction : Bytes) :
    (pointed whole fraction).length ≤ whole.length + fraction.length + 1 := by
  have hle := (List.rdropWhile_prefix (· = 48) fraction).length_le
  rw [pointed_eq, List.length_append]
  cases h : fraction.rdropWhile (· = 48) with
  | nil => simp only [Numeral.fractionText, List.length_nil]; omega
  | cons c ds =>
    rw [h] at hle
    simp only [Numeral.fractionText, List.length_cons] at hle ⊢
    omega

theorem exponentDigits_ne_nil (n : ℕ) : exponentDigits n ≠ [] := by
  rw [exponentDigits]
  split
  · simp
  · exact natText_ne_nil n

theorem isDigit_of_mem_exponentDigits {n : ℕ} : ∀ c ∈ exponentDigits n, isDigit c = true := by
  intro c hc
  rw [exponentDigits] at hc
  split at hc
  · rcases List.mem_cons.mp hc with rfl | hc
    · decide
    · exact isDigit_of_mem_natText hc
  · exact isDigit_of_mem_natText hc

/-! ### Lengths -/

theorem length_natText_le {n k : ℕ} (hk : 0 < k) (h : n < 10 ^ k) : (natText n).length ≤ k := by
  rw [natText]
  split
  · exact hk
  · simpa using (Nat.digits_length_le_iff (by decide) n).mpr h

/-- **The length of a text.** With an exponent of at most three digits, the point and the exponent
take at most six bytes. -/
theorem length_gText_le {k : ℕ} (hP : 0 < P) (ha : 0 < a) (hb : 0 < b) (hak : a < 10 ^ k)
    (hbk : b ≤ 10 ^ k) (hk : k + 1 < 1000) : (gText P a b).length ≤ P + 6 := by
  have hdigits := significant_lt hP ha hb
  have hexp := natAbs_significant_le (P := P) ha hak hbk
  obtain ⟨⟨digits, x⟩, hs⟩ : ∃ r, significant P a b = r := ⟨_, rfl⟩
  rw [hs] at hdigits hexp
  simp only at hdigits hexp
  have hlen : (natText digits).length ≤ P := length_natText_le hP hdigits
  have hsplit (j : ℕ) : ((natText digits).take j).length + ((natText digits).drop j).length =
      (natText digits).length := by
    rw [← List.length_append, List.take_append_drop]
  have hthree : (exponentDigits x.natAbs).length ≤ 3 := by
    rw [exponentDigits]
    split
    · next hlt =>
      have := length_natText_le (k := 1) (by decide) (show x.natAbs < 10 ^ 1 by omega)
      simp only [List.length_cons]
      omega
    · exact length_natText_le (by decide) (show x.natAbs < 10 ^ 3 by omega)
  rw [gText, hs]
  simp only
  split
  · have hpoint := length_pointed_le ((natText digits).take 1) ((natText digits).drop 1)
    have := hsplit 1
    simp only [List.length_append, List.length_cons]
    omega
  split
  · have hpoint := length_pointed_le ((natText digits).take (x.toNat + 1))
      ((natText digits).drop (x.toNat + 1))
    have := hsplit (x.toNat + 1)
    omega
  · next hbound hneg =>
    have hpoint := length_pointed_le [48] (List.replicate (-x - 1).toNat 48 ++ natText digits)
    simp only [List.length_append, List.length_replicate, List.length_singleton] at hpoint
    omega

end Printf
