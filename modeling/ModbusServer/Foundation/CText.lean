import Mathlib.Data.List.TakeWhile
import Mathlib.Data.Nat.Digits.Lemmas

/-!
# Byte strings

Byte strings as the standard library of C sees them: a string ends at its first zero byte, letters
are compared without case by `strcasecmp` in the C locale, and `printf` writes an integer in
decimal. Byte streams and the texts cut out of them are lists of bytes.

## Main definitions

* `CText.ascii`: the bytes of a text literal.
* `CText.cString`: the string that starts at a block of bytes.
* `CText.toLower`, `CText.sameLetters`: the comparison of `strcasecmp`.
* `CText.natText`, `CText.intText`: decimal numerals; `CText.digitsValue` reads them back.

## Main results

* `CText.digitsValue_natText`: reading the decimal numeral of `n` gives `n`.
-/

namespace CText

/-- The bytes of a C string, of a buffer or of a stream. -/
abbrev Bytes := List UInt8

/-- The bytes of an ASCII text literal. -/
def ascii (s : String) : Bytes :=
  s.toList.map fun c => c.toNat.toUInt8

/-- The C string that starts at a block of bytes: everything before the first zero byte. -/
def cString (s : Bytes) : Bytes :=
  s.takeWhile (· ≠ 0)

/-- `tolower` in the C locale. -/
def toLower (c : UInt8) : UInt8 :=
  if 65 ≤ c ∧ c ≤ 90 then c + 32 else c

/-- `strcasecmp(s, t) == 0`. -/
def sameLetters (s t : Bytes) : Bool :=
  s.map toLower = t.map toLower

theorem zero_notMem_cString (s : Bytes) : (0 : UInt8) ∉ cString s := fun h => by
  simpa using List.mem_takeWhile_imp h

theorem cString_of_notMem {s : Bytes} (h : (0 : UInt8) ∉ s) : cString s = s := by
  refine List.takeWhile_eq_self_iff.mpr fun c hc => ?_
  simpa using fun h0 : c = 0 => h (h0 ▸ hc)

@[simp] theorem cString_eq_self_iff {s : Bytes} : cString s = s ↔ (0 : UInt8) ∉ s :=
  ⟨fun h => h ▸ zero_notMem_cString s, cString_of_notMem⟩

theorem cString_prefix_self (s : Bytes) : cString s <+: s :=
  List.takeWhile_prefix _

/-! ### Decimal numerals -/

/-- The byte of a decimal digit. -/
def digitByte (d : ℕ) : UInt8 := (48 + d).toUInt8

/-- Is the byte one of `'0'`, …, `'9'`? -/
def isDigit (c : UInt8) : Bool := 48 ≤ c && c ≤ 57

/-- The decimal numeral of a natural number, most significant digit first. -/
def natText (n : ℕ) : Bytes :=
  if n = 0 then [digitByte 0] else (Nat.digits 10 n).reverse.map digitByte

/-- The numeral `printf` writes for `%d`. -/
def intText (v : ℤ) : Bytes :=
  if v < 0 then 45 :: natText v.natAbs else natText v.natAbs

/-- The number a run of digit bytes denotes. -/
def digitsValue (ds : Bytes) : ℕ :=
  ds.foldl (fun n c => 10 * n + (c.toNat - 48)) 0

theorem digitByte_toNat {d : ℕ} (h : d < 10) : (digitByte d).toNat = 48 + d := by
  simp only [digitByte, Nat.toUInt8_eq, UInt8.toNat_ofNat']
  omega

theorem isDigit_digitByte {d : ℕ} (h : d < 10) : isDigit (digitByte d) = true := by
  have hd := digitByte_toNat h
  simp only [isDigit, Bool.and_eq_true, decide_eq_true_eq, UInt8.le_iff_toNat_le, hd]
  exact ⟨by simp, by simpa using by omega⟩

private theorem foldl_reverse_digits (ds : List ℕ) (h : ∀ d ∈ ds, d < 10) :
    (ds.reverse.map digitByte).foldl (fun n c => 10 * n + (c.toNat - 48)) 0 =
      Nat.ofDigits 10 ds := by
  induction ds with
  | nil => rfl
  | cons d ds ih =>
    have hd : d < 10 := h d List.mem_cons_self
    have ih' := ih fun e he => h e (List.mem_cons_of_mem _ he)
    simp only [List.reverse_cons, List.map_append, List.map_cons, List.map_nil,
      List.foldl_append, List.foldl_cons, List.foldl_nil, ih', digitByte_toNat hd,
      Nat.ofDigits_cons]
    omega

/-- Reading the decimal numeral of `n` gives `n`. -/
theorem digitsValue_natText (n : ℕ) : digitsValue (natText n) = n := by
  rw [natText]
  split
  · next h => subst h; rfl
  · rw [digitsValue, foldl_reverse_digits _ fun d hd => Nat.digits_lt_base (by omega) hd,
      Nat.ofDigits_digits]

theorem natText_ne_nil (n : ℕ) : natText n ≠ [] := by
  rw [natText]
  split
  · simp
  · next h => simpa [Nat.digits_eq_nil_iff_eq_zero] using h

theorem isDigit_of_mem_natText {n : ℕ} {c : UInt8} (h : c ∈ natText n) : isDigit c = true := by
  rw [natText] at h
  split at h
  · rw [List.mem_singleton.mp h]
    exact isDigit_digitByte (by omega)
  · obtain ⟨d, hd, rfl⟩ := List.mem_map.mp h
    exact isDigit_digitByte (Nat.digits_lt_base (by omega) (List.mem_reverse.mp hd))

/-- The numeral of a positive number begins with a digit other than zero. -/
theorem exists_natText_eq_cons {n : ℕ} (h : 0 < n) : ∃ c ds, natText n = c :: ds ∧
    isDigit c = true ∧ c ≠ 48 ∧ ∀ d ∈ ds, isDigit d = true := by
  have hne : Nat.digits 10 n ≠ [] := Nat.digits_ne_nil_iff_ne_zero.mpr h.ne'
  obtain ⟨init, d, hdigits⟩ : ∃ init d, Nat.digits 10 n = init ++ [d] :=
    ⟨_, _, (List.dropLast_append_getLast hne).symm⟩
  have hlast : d ≠ 0 := by
    have := Nat.getLast_digit_ne_zero 10 h.ne'
    simpa [hdigits] using this
  have htext : natText n = digitByte d :: init.reverse.map digitByte := by
    rw [natText, if_neg h.ne', hdigits, List.reverse_append]
    rfl
  have hall : ∀ c ∈ natText n, isDigit c = true := fun c hc => isDigit_of_mem_natText hc
  rw [htext] at hall ⊢
  refine ⟨_, _, rfl, hall _ List.mem_cons_self, fun hzero => ?_, fun c hc =>
    hall c (List.mem_cons_of_mem _ hc)⟩
  have hd : d < 10 := Nat.digits_lt_base (by omega) (m := n) (by simp [hdigits])
  have := congrArg UInt8.toNat hzero
  rw [digitByte_toNat hd] at this
  exact hlast (by simpa using this)

end CText
