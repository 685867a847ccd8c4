import ModbusServer.Foundation.DecimalValues
import ModbusServer.Json.Number

/-!
# Numbers as text

How cJSON writes a number: integers of the type `int` with `%d`, and the others with fifteen
significant digits, or with seventeen if fifteen do not give the number back up to a relative
error of `DBL_EPSILON`. Infinities and not-a-number are written as `null`.

The text is put into a buffer of twenty-six bytes without a check in front of the call of
`sprintf`, and it fits (`length_numberText_le`). Reading it back consumes it to the end
(`parseNumber_numberText`).

Source: `compare_double` and `print_number`, `cJSON/cJSON.c`, lines 537–612.

## Main definitions

* `ModbusServer.sprintfG`: the conversion `%g` of a `double`.
* `ModbusServer.compareDouble`, `ModbusServer.numberText`.

## Main results

* `ModbusServer.length_numberText_le`: the text is short.
* `ModbusServer.strtod_sprintfG`: seventeen digits give the number back.
* `ModbusServer.numberText_parsed`: a number is printed and parsed.
* `ModbusServer.parseNumber_numberText`, `ModbusServer.rereadNumber_spec`: the text of a finite
  number is read to its end, and gives the number back up to `compare_double`.
-/

namespace ModbusServer

open CText Printf

/-! ### `%g` -/

/-- `sprintf("%1.<precision>g", d)`. -/
def sprintfG (precision : ℕ) (d : Double) : Bytes :=
  match d.unpack with
  | .notANumber => ascii "nan"
  | .infinity s => Numeral.signText (s == .negative) ++ ascii "inf"
  | .zero s => Numeral.signText (s == .negative) ++ ascii "0"
  | .finite s m e _ => Numeral.signText (s == .negative) ++
    gText precision (m * 2 ^ e.toNat) (2 ^ (-e).toNat)

/-! ### `print_number` -/

/-- `DBL_EPSILON`, which is `2 ^ -52`. -/
def DBL_EPSILON : Double := Float.Model.ofBits 0x3CB0000000000000

/-- `compare_double`: are the numbers the same up to a relative error? -/
def compareDouble (a b : Double) : Bool :=
  let maxVal := if b.abs < a.abs then a.abs else b.abs
  (a - b).abs ≤ maxVal * DBL_EPSILON

/-- Fifteen digits if `sscanf` gives the number back from them, otherwise seventeen. -/
def fractionText (d : Double) : Bytes :=
  match strtod (sprintfG 15 d) with
  | some (test, _) => if compareDouble test d then sprintfG 15 d else sprintfG 17 d
  | none => sprintfG 17 d

/-- `number_buffer` in `print_number`. -/
def numberText (d : Double) : Bytes :=
  if d.isNaN ∨ d.isInf then ascii "null"
  else if d == Float.Model.ofInt (saturate d) then intText (saturate d)
  else fractionText d

/-! ### Reading a literal -/

section Literals

variable {ds t : Bytes}

theorem takeWhile_digits_append (hds : ∀ c ∈ ds, isDigit c = true)
    (ht : ∀ c ∈ t.head?, isDigit c = false) : (ds ++ t).takeWhile isDigit = ds := by
  rw [List.takeWhile_append_of_pos hds]
  cases t with
  | nil => simp
  | cons c t => rw [List.takeWhile_cons_of_neg (by simp [ht c rfl]), List.append_nil]

theorem dropWhile_digits_append (hds : ∀ c ∈ ds, isDigit c = true)
    (ht : ∀ c ∈ t.head?, isDigit c = false) : (ds ++ t).dropWhile isDigit = t := by
  rw [List.dropWhile_append_of_pos hds]
  cases t with
  | nil => simp
  | cons c t => rw [List.dropWhile_cons_of_neg (by simp [ht c rfl])]

theorem readSign_signText (negative : Bool) (hne : ds ≠ [])
    (hds : ∀ c ∈ ds, isDigit c = true) :
    readSign (Numeral.signText negative ++ (ds ++ t)) = (negative, ds ++ t) := by
  cases negative with
  | true => rfl
  | false =>
    obtain ⟨c, ds, rfl⟩ := List.exists_cons_of_ne_nil hne
    have hc : isDigit c = true := hds c List.mem_cons_self
    rw [Numeral.signText, if_neg (by simp), List.nil_append, List.cons_append, readSign, if_neg,
      if_neg]
    all_goals
      rintro rfl
      exact absurd hc (by decide)

theorem head_exponentText (e : Option (Bool × Bytes)) :
    ∀ c ∈ (Numeral.exponentText e).head?, c = 101 := by
  cases e <;> simp [Numeral.exponentText]

theorem head_fractionText (fraction : Bytes) (e : Option (Bool × Bytes)) :
    ∀ c ∈ (Numeral.fractionText fraction ++ Numeral.exponentText e).head?,
      isDigit c = false := by
  cases fraction with
  | nil =>
    intro c hc
    rw [head_exponentText e c hc]
    decide
  | cons c ds =>
    rintro _ ⟨⟩
    decide

theorem readFraction_fractionText {fraction : Bytes} (h : ∀ c ∈ fraction, isDigit c = true)
    (e : Option (Bool × Bytes)) :
    readFraction (Numeral.fractionText fraction ++ Numeral.exponentText e) =
      (fraction, Numeral.exponentText e) := by
  have hstop : ∀ c ∈ (Numeral.exponentText e).head?, isDigit c = false := fun c hc => by
    rw [head_exponentText e c hc]
    decide
  cases fraction with
  | nil =>
    cases e with
    | none => rfl
    | some e => rfl
  | cons c ds =>
    rw [Numeral.fractionText, List.cons_append, readFraction, if_pos rfl,
      takeWhile_digits_append h hstop, dropWhile_digits_append h hstop]

theorem readExponent_exponentText {e : Option (Bool × Bytes)}
    (h : ∀ x ∈ e, x.2 ≠ [] ∧ ∀ c ∈ x.2, isDigit c = true) :
    readExponent (Numeral.exponentText e) = (Numeral.exponentValue e, []) := by
  cases e with
  | none => rfl
  | some x =>
    obtain ⟨negative, ds⟩ := x
    obtain ⟨hne, hds⟩ := h _ rfl
    have hsign : readSign ((if negative then 45 else 43) :: ds) = (negative, ds) := by
      cases negative <;> rfl
    have htake := takeWhile_digits_append hds (t := []) (by simp)
    have hdrop := dropWhile_digits_append hds (t := []) (by simp)
    rw [List.append_nil] at htake hdrop
    rw [Numeral.exponentText, readExponent, hsign]
    simp only [htake, hdrop, hne, ne_eq, not_false_eq_true, and_true, true_or, if_true,
      Numeral.exponentValue]

/-- `strtod` reads a literal to its end. -/
theorem strtod_text (n : Numeral) :
    strtod n.text = some (if n.negative then (Float.Model.ofScientific n.mantissa n.scale).neg
      else Float.Model.ofScientific n.mantissa n.scale, []) := by
  have hstop := head_fractionText n.fraction n.exponent
  have hexp := readExponent_exponentText n.isDigit_exponent
  rw [strtod, Numeral.text, readSign_signText n.negative n.whole_ne_nil n.isDigit_whole]
  simp only [takeWhile_digits_append n.isDigit_whole hstop,
    dropWhile_digits_append n.isDigit_whole hstop,
    readFraction_fractionText n.isDigit_fraction n.exponent, hexp, n.whole_ne_nil, false_and,
    if_false]
  rfl

theorem isNumberByte_of_isNumeral (h : IsNumeral t) : ∀ c ∈ t, isNumberByte c = true := by
  obtain ⟨n, rfl⟩ := h
  intro c hc
  simp only [Numeral.text, List.mem_append] at hc
  rcases hc with hc | hc | hc | hc
  · cases hn : n.negative with
    | true =>
      rw [hn] at hc
      rw [List.mem_singleton.mp hc]
      rfl
    | false =>
      rw [hn] at hc
      simp [Numeral.signText] at hc
  · exact isNumberByte_of_isDigit (n.isDigit_whole c hc)
  · cases hf : n.fraction with
    | nil => simp [hf, Numeral.fractionText] at hc
    | cons d ds =>
      rw [hf, Numeral.fractionText, List.mem_cons] at hc
      rcases hc with rfl | hc
      · rfl
      · exact isNumberByte_of_isDigit (n.isDigit_fraction c (hf ▸ hc))
  · cases he : n.exponent with
    | none => simp [he, Numeral.exponentText] at hc
    | some x =>
      rw [he, Numeral.exponentText, List.mem_cons, List.mem_cons] at hc
      rcases hc with rfl | rfl | hc
      · rfl
      · cases x.1 <;> rfl
      · exact isNumberByte_of_isDigit ((n.isDigit_exponent x he).2 c hc)

/-- A literal begins with a sign or a digit. -/
theorem exists_cons_of_isNumeral (h : IsNumeral t) :
    ∃ c u, t = c :: u ∧ (c = 45 ∨ isDigit c = true) := by
  obtain ⟨n, rfl⟩ := h
  obtain ⟨c, ds, hds⟩ := List.exists_cons_of_ne_nil n.whole_ne_nil
  have hc : isDigit c = true := n.isDigit_whole c (hds ▸ List.mem_cons_self)
  rw [Numeral.text, hds]
  cases n.negative with
  | true => exact ⟨45, _, rfl, .inl rfl⟩
  | false => exact ⟨c, _, rfl, .inr hc⟩

/-- A literal of at most sixty-three bytes is read to its end, whatever follows it that cannot
belong to a literal. -/
theorem parseNumber_of_isNumeral (h : IsNumeral t) (hlen : t.length ≤ 63) {rest : Bytes}
    (hrest : ∀ c ∈ rest.head?, isNumberByte c = false) :
    ∃ d, strtod t = some (d, []) ∧ parseNumber (t ++ rest) = some (d, rest) := by
  obtain ⟨d, hd⟩ : ∃ d, strtod t = some (d, []) := by
    obtain ⟨n, rfl⟩ := h
    exact ⟨_, strtod_text n⟩
  have hstop : (rest.take (63 - t.length)).takeWhile isNumberByte = [] := by
    cases rest with
    | nil => simp
    | cons c rest =>
      have hc : isNumberByte c = false := hrest c rfl
      cases 63 - t.length with
      | zero => rfl
      | succ k => simp [hc]
  have hnum : ((t ++ rest).take 63).takeWhile isNumberByte = t := by
    rw [List.take_append, List.take_of_length_le hlen,
      List.takeWhile_append_of_pos (isNumberByte_of_isNumeral h), hstop, List.append_nil]
  refine ⟨d, hd, ?_⟩
  simp only [parseNumber, hnum, hd, Option.map_some, List.length_nil, Nat.sub_zero,
    List.drop_left]

theorem isNumeral_intText (v : ℤ) : IsNumeral (intText v) := by
  refine ⟨⟨decide (v < 0), natText v.natAbs, [], none, natText_ne_nil _,
    fun c hc => isDigit_of_mem_natText hc, by simp, by simp⟩, ?_⟩
  rw [Numeral.text, intText]
  by_cases hv : v < 0
  · simp [hv, Numeral.signText, Numeral.fractionText, Numeral.exponentText]
  · simp [hv, Numeral.signText, Numeral.fractionText, Numeral.exponentText]

end Literals

/-! ### The text of a number -/

/-- The literal for a zero. -/
def zeroNumeral (s : Float.Model.UnpackedFloat.Sign) : Numeral where
  negative := s == .negative
  whole := [48]
  fraction := []
  exponent := none
  whole_ne_nil := by simp
  isDigit_whole := by simp [isDigit]
  isDigit_fraction := by simp
  isDigit_exponent := by simp

section NumberText

variable {d : Double} {precision : ℕ}

theorem isFinite_cases (hnan : d.isNaN = false) (hinf : d.isInf = false) :
    (∃ s, d.unpack = .zero s) ∨ ∃ s m e h, d.unpack = .finite s m e h := by
  rw [Float.Model.isNaN] at hnan
  rw [Float.Model.isInf] at hinf
  cases hd : d.unpack with
  | infinity s => simp [hd, Float.Model.UnpackedFloat.isInf] at hinf
  | notANumber => simp [hd, Float.Model.UnpackedFloat.isNaN] at hnan
  | zero s => exact .inl ⟨s, rfl⟩
  | finite s m e h => exact .inr ⟨s, m, e, h, rfl⟩

theorem two_pow_le (k : ℕ) : 2 ^ (3 * k) ≤ 10 ^ k := by
  rw [pow_mul]
  exact Nat.pow_le_pow_left (by decide) k

/-- A finite number as a fraction that is neither large nor small. -/
theorem fraction_bounds {s : Float.Model.UnpackedFloat.Sign} {m : ℕ} {e : ℤ} {h : 0 < m}
    (hd : d.unpack = .finite s m e h) {k : ℕ} (hk : k = 360) :
    m * 2 ^ e.toNat < 10 ^ k ∧ 2 ^ (-e).toNat ≤ 10 ^ k := by
  obtain ⟨hc, hhi⟩ := BinaryRounding.canonical_of_unpack hd
  have hlo := hc.le
  constructor
  · calc m * 2 ^ e.toNat < 2 ^ 53 * 2 ^ e.toNat :=
          Nat.mul_lt_mul_of_pos_right hc.lt (by positivity)
      _ = 2 ^ (53 + e.toNat) := (pow_add 2 53 _).symm
      _ ≤ 2 ^ (3 * k) := Nat.pow_le_pow_right (by decide) (by omega)
      _ ≤ 10 ^ k := two_pow_le k
  · exact (Nat.pow_le_pow_right (by decide) (by omega)).trans (two_pow_le k)

/-- `%g` writes a finite number as a literal, at most seven bytes longer than its precision. -/
theorem sprintfG_spec (hP : 0 < precision) (hnan : d.isNaN = false) (hinf : d.isInf = false) :
    IsNumeral (sprintfG precision d) ∧ (sprintfG precision d).length ≤ precision + 7 := by
  have hsign (b : Bool) : (Numeral.signText b).length ≤ 1 := by cases b <;> simp [Numeral.signText]
  rcases isFinite_cases hnan hinf with ⟨s, hd⟩ | ⟨s, m, e, hm, hd⟩
  · have hzero : ascii "0" = [48] := rfl
    have := hsign (s == .negative)
    simp only [sprintfG, hd, hzero, List.length_append, List.length_singleton]
    exact ⟨⟨zeroNumeral s, rfl⟩, by omega⟩
  · obtain ⟨k, hk⟩ : ∃ k, k = 360 := ⟨_, rfl⟩
    obtain ⟨hnum, hden⟩ := fraction_bounds hd hk
    have hlen : (gText precision (m * 2 ^ e.toNat) (2 ^ (-e).toNat)).length ≤ precision + 6 :=
      length_gText_le hP (by positivity) (by positivity) hnum hden (by omega)
    obtain ⟨n, hn, -⟩ := exists_numeral_gText (a := m * 2 ^ e.toNat) (b := 2 ^ (-e).toNat)
      (s == .negative) hP (by positivity) (by positivity)
    have := hsign (s == .negative)
    simp only [sprintfG, hd, List.length_append]
    exact ⟨⟨n, hn⟩, by omega⟩

/-- **Seventeen digits determine a `double`.** -/
theorem strtod_sprintfG (hnan : d.isNaN = false) (hinf : d.isInf = false) :
    strtod (sprintfG 17 d) = some (d, []) := by
  rcases isFinite_cases hnan hinf with ⟨s, hd⟩ | ⟨s, m, e, hm, hd⟩
  · have hpack := BinaryRounding.pack_unpack d
    rw [hd] at hpack
    have htext : sprintfG 17 d = (zeroNumeral s).text := by
      simp only [sprintfG, hd]
      rfl
    rw [htext, strtod_text, ← hpack]
    cases s <;> rfl
  · obtain ⟨k, hk⟩ : ∃ k, k = 360 := ⟨_, rfl⟩
    obtain ⟨hnum, hden⟩ := fraction_bounds hd hk
    have ha : 0 < m * 2 ^ e.toNat := by positivity
    have hb : 0 < 2 ^ (-e).toNat := by positivity
    have hx := natAbs_significant_le (P := 17) ha hnum hden
    have hclose := significant_close (P := 17) (by decide) ha hb
    have hlo := le_significant (P := 17) (by decide) ha hb
    obtain ⟨n, hn, hsign, hmag, hscale⟩ :=
      exists_numeral_gText (P := 17) (s == .negative) (by decide) ha hb
    have htext : sprintfG 17 d = n.text := by
      simp only [sprintfG, hd, hn]
    rw [← hmag, BinaryValues.cast_fraction] at hclose
    have hnear := BinaryRounding.near_of_close (BinaryRounding.canonical_of_unpack hd).1 hclose
    have hpos : 0 < n.mantissa := by
      refine Nat.pos_of_ne_zero fun hzero => ?_
      have hlower := hnear.lower
      have hhalf : (0 : ℚ) ≤ m - 1 / 2 := by
        have : (1 : ℚ) ≤ m := by exact_mod_cast hm
        linarith
      rw [Numeral.magnitude, hzero, Nat.cast_zero, zero_mul] at hlower
      exact absurd hlower (not_lt.mpr (by positivity))
    rw [htext, strtod_text, hsign,
      BinaryRounding.ofScientific_eq_of_unpack hd hpos (by omega) (by omega) hnear]

theorem fractionText_cases (d : Double) :
    fractionText d = sprintfG 15 d ∨ fractionText d = sprintfG 17 d := by
  rw [fractionText]
  split
  · split
    · exact .inl rfl
    · exact .inr rfl
  · exact .inr rfl

/-- A finite number is written as a literal. -/
theorem isNumeral_numberText (hnan : d.isNaN = false) (hinf : d.isInf = false) :
    IsNumeral (numberText d) := by
  rw [numberText, if_neg (by simp [hnan, hinf])]
  split
  · exact isNumeral_intText _
  · rcases fractionText_cases d with h | h <;> rw [h]
    · exact (sprintfG_spec (by decide) hnan hinf).1
    · exact (sprintfG_spec (by decide) hnan hinf).1

/-- **`number_buffer` does not overflow.** The text and its zero byte take at most twenty-five of
its twenty-six bytes. -/
theorem length_numberText_le (d : Double) : (numberText d).length ≤ 24 := by
  rw [numberText]
  split
  · decide
  next hfinite =>
  simp only [not_or, Bool.not_eq_true] at hfinite
  split
  · have hint := isInt_saturate d
    rw [CInt.isInt_iff] at hint
    have hlen := length_natText_le (k := 10) (by decide)
      (show (saturate d).natAbs < 10 ^ 10 by omega)
    rw [intText]
    split
    · simp only [List.length_cons]
      omega
    · omega
  · rcases fractionText_cases d with h | h <;> rw [h]
    · exact (sprintfG_spec (by decide) hfinite.1 hfinite.2).2.trans (by decide)
    · exact (sprintfG_spec (by decide) hfinite.1 hfinite.2).2

/-- The number that is read from the text of a finite number. -/
def rereadNumber (d : Double) : Double :=
  match strtod (numberText d) with
  | some (d', _) => d'
  | none => d

/-- **The text of a finite number is read to its end.** -/
theorem parseNumber_numberText (hnan : d.isNaN = false) (hinf : d.isInf = false) {rest : Bytes}
    (hrest : ∀ c ∈ rest.head?, isNumberByte c = false) :
    parseNumber (numberText d ++ rest) = some (rereadNumber d, rest) := by
  obtain ⟨d', hd, hparse⟩ := parseNumber_of_isNumeral (isNumeral_numberText hnan hinf)
    ((length_numberText_le d).trans (by decide)) hrest
  rw [hparse, rereadNumber, hd]

theorem natAbs_lt_of_isInt {v : ℤ} (hv : CInt.IsInt v) : v.natAbs < 2 ^ 53 := by
  rw [CInt.isInt_iff] at hv
  omega

theorem isFinite_ofInt {v : ℤ} (hv : CInt.IsInt v) :
    (Float.Model.ofInt v).isNaN = false ∧ (Float.Model.ofInt v).isInf = false := by
  have hr := BinaryIntegers.represents_ofInt (natAbs_lt_of_isInt hv)
  rw [Float.Model.isNaN, Float.Model.isInf]
  generalize (Float.Model.ofInt v).unpack = x at hr
  cases hr <;> exact ⟨rfl, rfl⟩

/-- A number of type `int` is read back as it is. -/
theorem rereadNumber_ofInt {v : ℤ} (hv : CInt.IsInt v) :
    rereadNumber (Float.Model.ofInt v) = Float.Model.ofInt v := by
  have hsize := natAbs_lt_of_isInt hv
  have hfinite := isFinite_ofInt hv
  rw [rereadNumber, numberText, if_neg (by simp [hfinite]), saturate_ofInt hv,
    if_pos (BinaryIntegers.ofInt_beq_self hsize), strtod_intText hsize]

/-- What compares equal to an integer is the integer, or a zero. -/
theorem eq_ofInt_or_zero {v : ℤ} (hv : v.natAbs < 2 ^ 53)
    (hd : (d == Float.Model.ofInt v) = true) :
    d = Float.Model.ofInt v ∨ v = 0 ∧ ∃ s, d = .pack (.zero s) := by
  have hr := BinaryIntegers.represents_of_beq hv hd
  have hr' := BinaryIntegers.represents_ofInt hv
  rw [← BinaryRounding.pack_unpack d]
  rw [← BinaryRounding.pack_unpack (Float.Model.ofInt v)]
  generalize d.unpack = x at hr
  generalize (Float.Model.ofInt v).unpack = y at hr'
  cases hr with
  | zero s => exact .inr ⟨rfl, s, rfl⟩
  | @pos n h0 h =>
    left
    generalize hw : (n : ℤ) = w at hr'
    cases hr' with
    | zero s => omega
    | @pos m h0' h' =>
      obtain rfl : n = m := by omega
      rfl
    | @neg m h0' h' => omega
  | @neg n h0 h =>
    left
    generalize hw : -(n : ℤ) = w at hr'
    cases hr' with
    | zero s => omega
    | @pos m h0' h' => omega
    | @neg m h0' h' =>
      obtain rfl : n = m := by omega
      rfl

/-- **A finite number is read back** as it is, or as a number that `compare_double` takes for it.
-/
theorem rereadNumber_spec (hnan : d.isNaN = false) (hinf : d.isInf = false) :
    rereadNumber d = d ∨ compareDouble (rereadNumber d) d = true := by
  have hsize := natAbs_lt_of_isInt (isInt_saturate d)
  rw [rereadNumber, numberText, if_neg (by simp [hnan, hinf])]
  split_ifs with heq
  · rw [strtod_intText hsize]
    rcases eq_ofInt_or_zero hsize heq with hd | ⟨hzero, s, hd⟩
    · exact .inl hd.symm
    · right
      rw [hzero, hd]
      cases s <;> decide +kernel
  · obtain ⟨test, hr⟩ : ∃ test, strtod (sprintfG 15 d) = some (test, []) := by
      obtain ⟨n, hn⟩ := (sprintfG_spec (show 0 < 15 by decide) hnan hinf).1
      rw [← hn]
      exact ⟨_, strtod_text n⟩
    simp only [fractionText, hr]
    split_ifs with hcmp
    · rw [hr]
      exact .inr hcmp
    · rw [strtod_sprintfG hnan hinf]
      exact .inl rfl

/-- **A number is printed and parsed.** The text of every number and its zero byte fit into
`number_buffer`, and infinities and not-a-number are printed as `null`. The text of a finite number
is parsed to its end, whatever stands behind it that cannot belong to a literal, and gives the
number, or one that `compare_double` takes for it. -/
theorem numberText_parsed (d : Double) :
    (numberText d).length + 1 ≤ 26 ∧
    (d.isNaN ∨ d.isInf → numberText d = ascii "null") ∧
    (d.isNaN = false → d.isInf = false →
      ∃ d' : Double, (d' = d ∨ compareDouble d' d = true) ∧
        ∀ rest : Bytes, (∀ c ∈ rest.head?, isNumberByte c = false) →
          parseNumber (numberText d ++ rest) = some (d', rest)) := by
  have hlen := length_numberText_le d
  refine ⟨by omega, fun h => ?_, fun hnan hinf => ?_⟩
  · rw [numberText, if_pos h]
  · exact ⟨rereadNumber d, rereadNumber_spec hnan hinf,
      fun rest hrest => parseNumber_numberText hnan hinf hrest⟩

end NumberText

end ModbusServer
