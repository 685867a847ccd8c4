import ModbusServer.Foundation.BinaryValues
import ModbusServer.Foundation.CInt
import ModbusServer.Foundation.CText

/-!
# Numbers of the JSON layer

cJSON reads a number with `strtod` and keeps it twice: as a `double`, and as an `int` saturated at
the limits of the type. Only the bytes of a numeral reach `strtod`, and at most sixty-three of them,
so its input is a decimal literal: hexadecimal literals, infinities and not-a-number cannot occur.
`double` is the logical model of `Float`, and `strtod` rounds correctly.

Source: `parse_number`, `cJSON/cJSON.c`, lines 305–373.

## Main definitions

* `ModbusServer.strtod`: the value of the longest decimal literal at the front of a string.
* `ModbusServer.parseNumber`: a number at the front of a text, and the text behind it.
* `ModbusServer.saturate`: the field `valueint`.
* `ModbusServer.castFloat`: the bits of `(float)d`.

## Main results

* `ModbusServer.isInt_saturate`: the field `valueint` is an `int`.
* `ModbusServer.saturate_of_value`: what saturation makes of a number.
* `ModbusServer.parseNumber_intText`: a decimal numeral is read as its integer.
-/

namespace ModbusServer

open CInt CText Float.Model

/-- The type `double`. -/
abbrev Double := Float.Model

/-! ### `strtod` -/

/-- An optional sign at the front of a string: is it a minus, and what follows. -/
def readSign : Bytes → Bool × Bytes
  | c :: s => if c = 45 then (true, s) else if c = 43 then (false, s) else (false, c :: s)
  | [] => (false, [])

/-- The fraction digits behind a decimal point, and what follows. -/
def readFraction : Bytes → Bytes × Bytes
  | c :: s => if c = 46 then (s.takeWhile isDigit, s.dropWhile isDigit) else ([], c :: s)
  | [] => ([], [])

/-- The decimal exponent, and what follows; without a digit the exponent is not read. -/
def readExponent : Bytes → ℤ × Bytes
  | c :: s =>
    let (negative, t) := readSign s
    let digits := t.takeWhile isDigit
    if (c = 101 ∨ c = 69) ∧ digits ≠ [] then
      (if negative then -digitsValue digits else digitsValue digits, t.dropWhile isDigit)
    else (0, c :: s)
  | [] => (0, [])

/-- `strtod` on a decimal literal: its value and the string behind it, if there is a literal at
the front of the string. -/
def strtod (s : Bytes) : Option (Double × Bytes) :=
  let (negative, t) := readSign s
  let whole := t.takeWhile isDigit
  let (fraction, t') := readFraction (t.dropWhile isDigit)
  let (e, rest) := readExponent t'
  if whole = [] ∧ fraction = [] then none
  else
    let d := Float.Model.ofScientific (digitsValue (whole ++ fraction)) (e - fraction.length)
    some (if negative then d.neg else d, rest)

/-! ### `parse_number` -/

/-- The bytes `parse_number` copies for `strtod`. -/
def isNumberByte (c : UInt8) : Bool :=
  isDigit c || c == 43 || c == 45 || c == 101 || c == 69 || c == 46

/-- The field `valueint` of a number: the value truncated, saturated at the limits of `int`. -/
def saturate (d : Double) : ℤ :=
  if Float.Model.ofInt INT_MAX ≤ d then INT_MAX
  else if d ≤ Float.Model.ofInt INT_MIN then INT_MIN
  else d.toInt32.toInt

/-- A number at the front of the text, and the text behind it. At most sixty-three bytes are looked
at. -/
def parseNumber (s : Bytes) : Option (Double × Bytes) :=
  let numeral := (s.take 63).takeWhile isNumberByte
  (strtod numeral).map fun (d, rest) => (d, s.drop (numeral.length - rest.length))

/-- The bits of `(float)d`, rounded to the nearest binary32 number. -/
def castFloat (d : Double) : BitVec 32 :=
  Float.Model.UnpackedFloat.pack .binary32 <|
    match d.unpack with
    | .finite s m e _ => .round .binary32 s m e
    | x => x

/-! ### Lengths -/

theorem length_readSign_le (s : Bytes) : (readSign s).2.length ≤ s.length := by
  fun_cases readSign s <;> simp

theorem length_readFraction_le (s : Bytes) :
    (readFraction s).1.length + (readFraction s).2.length ≤ s.length := by
  fun_cases readFraction s with
  | case1 s =>
    have hsplit := congrArg List.length (List.takeWhile_append_dropWhile (p := isDigit) (l := s))
    simp only [List.length_append, List.length_cons] at hsplit ⊢
    omega
  | case2 => simp
  | case3 => simp

theorem length_readExponent_le (s : Bytes) : (readExponent s).2.length ≤ s.length := by
  cases s with
  | nil => simp [readExponent]
  | cons c s =>
    have hsign := length_readSign_le s
    have hdrop := (List.dropWhile_sublist isDigit (l := (readSign s).2)).length_le
    simp only [readExponent]
    split
    · exact hdrop.trans (hsign.trans (by simp))
    · exact le_refl (c :: s).length

/-- A literal takes at least one byte. -/
theorem length_lt_of_strtod {s rest : Bytes} {d : Double} (h : strtod s = some (d, rest)) :
    rest.length < s.length := by
  simp only [strtod] at h
  split at h
  · simp at h
  rename_i hempty
  obtain ⟨-, rfl⟩ := Prod.mk.inj (Option.some.inj h)
  set t := (readSign s).2
  have hsign : t.length ≤ s.length := length_readSign_le s
  have hexp := length_readExponent_le (readFraction (t.dropWhile isDigit)).2
  have hfraction := length_readFraction_le (t.dropWhile isDigit)
  have hsplit := congrArg List.length (List.takeWhile_append_dropWhile (p := isDigit) (l := t))
  have hdigits : 0 < (t.takeWhile isDigit).length +
      (readFraction (t.dropWhile isDigit)).1.length := by
    rw [← List.length_append, List.length_pos_iff, ne_eq, List.append_eq_nil_iff]
    exact hempty
  rw [List.length_append] at hsplit
  omega

/-- A number takes at least one byte. -/
theorem length_lt_of_parseNumber {s rest : Bytes} {d : Double}
    (h : parseNumber s = some (d, rest)) : rest.length < s.length := by
  obtain ⟨⟨d', r⟩, hr, heq⟩ := Option.map_eq_some_iff.mp h
  obtain ⟨-, rfl⟩ := Prod.mk.inj heq
  have hlt := length_lt_of_strtod hr
  have hle : ((s.take 63).takeWhile isNumberByte).length ≤ s.length :=
    ((List.takeWhile_sublist _).trans (List.take_sublist _ _)).length_le
  simp only [List.length_drop]
  omega

/-! ### Saturation -/

/-- The field `valueint` is in the range of `int`. -/
theorem isInt_saturate (d : Double) : IsInt (saturate d) := by
  have hlo := d.toInt32.le_toInt
  have hhi := d.toInt32.toInt_lt
  simp only [isInt_iff, saturate, INT_MIN, INT_MAX]
  split_ifs <;> omega

/-- The field `valueint` is the integer part of the value, or the limit of `int` that it exceeds. -/
theorem saturate_of_value {d : Double} {q : ℚ} (hd : BinaryValues.value d.unpack = some q) :
    saturate d = max INT_MIN (min (BinaryValues.integerPart q) INT_MAX) := by
  have hmax : Float.Model.ofInt INT_MAX ≤ d ↔ INT_MAX ≤ BinaryValues.integerPart q :=
    (BinaryValues.ofInt_le_iff hd (by decide)).trans
      (BinaryValues.le_integerPart_iff (by decide)).symm
  have hmin : d ≤ Float.Model.ofInt INT_MIN ↔ BinaryValues.integerPart q ≤ INT_MIN :=
    (BinaryValues.le_ofInt_iff hd (by decide)).trans
      (BinaryValues.integerPart_le_iff (by decide)).symm
  have hlimits : INT_MIN ≤ INT_MAX := by decide
  simp only [saturate, hmax, hmin]
  split_ifs with h1 h2
  · omega
  · omega
  · have hmin' : Int32.minValue.toInt ≤ BinaryValues.integerPart q := (not_le.mp h2).le
    have hmax' : BinaryValues.integerPart q ≤ Int32.maxValue.toInt := (not_le.mp h1).le
    have hint : d.toInt32 = Int32.ofIntLE (BinaryValues.integerPart q) hmin' hmax' := by
      rw [Int32.ofIntLE_eq_ofIntClamp, Float.Model.toInt32, UnpackedFloat.toInt32,
        BinaryValues.toInt_eq hd]
    rw [hint, Int32.toInt_ofIntLE]
    omega

/-- An integer of magnitude below `2 ^ 53` is saturated at the limits of `int`. -/
theorem saturate_of_beq {d : Double} {v : ℤ} (hv : v.natAbs < 2 ^ 53)
    (hd : (d == Float.Model.ofInt v) = true) : saturate d = max INT_MIN (min v INT_MAX) := by
  rw [saturate_of_value ((BinaryValues.beq_ofInt_iff hv).mp hd), BinaryValues.integerPart_intCast]

/-- The number of an `int` has the `int` as its `valueint`. -/
theorem saturate_ofInt {v : ℤ} (hv : IsInt v) : saturate (Float.Model.ofInt v) = v := by
  rw [isInt_iff] at hv
  rw [saturate_of_beq (by omega) (BinaryIntegers.ofInt_beq_self (by omega))]
  simp only [INT_MAX, INT_MIN]
  omega

/-! ### Decimal numerals -/

theorem isNumberByte_of_isDigit {c : UInt8} (h : isDigit c = true) : isNumberByte c = true := by
  simp [isNumberByte, h]

theorem isNumberByte_of_mem_intText {v : ℤ} {c : UInt8} (h : c ∈ intText v) :
    isNumberByte c = true := by
  rw [intText] at h
  split at h
  · rcases List.mem_cons.mp h with rfl | h
    · rfl
    · exact isNumberByte_of_isDigit (isDigit_of_mem_natText h)
  · exact isNumberByte_of_isDigit (isDigit_of_mem_natText h)

theorem length_intText_le {v : ℤ} (h : v.natAbs < 2 ^ 53) : (intText v).length ≤ 63 := by
  have hn : (natText v.natAbs).length ≤ 16 := by
    rw [natText]
    split
    · simp
    · have := (Nat.digits_length_le_iff (b := 10) (by omega) v.natAbs).mpr
        (show v.natAbs < 10 ^ 16 by omega)
      simpa using this
  rw [intText]
  split
  · simp only [List.length_cons]
    omega
  · omega

theorem readSign_natText (n : ℕ) : readSign (natText n) = (false, natText n) := by
  obtain ⟨c, t, hct⟩ := List.exists_cons_of_ne_nil (natText_ne_nil n)
  have hc : isDigit c = true := isDigit_of_mem_natText (n := n) (hct ▸ List.mem_cons_self)
  rw [hct, readSign, if_neg, if_neg]
  all_goals
    rintro rfl
    exact absurd hc (by decide)

private theorem strtod_digits {n : ℕ} (h : n < 2 ^ 53) {s : Bytes} {negative : Bool}
    (hs : readSign s = (negative, natText n)) :
    strtod s = some (if negative then (Float.Model.ofInt n).neg else Float.Model.ofInt n, []) := by
  have hall : ∀ c ∈ natText n, isDigit c = true := fun c hc => isDigit_of_mem_natText hc
  have htake : (natText n).takeWhile isDigit = natText n := List.takeWhile_eq_self_iff.mpr hall
  have hdrop : (natText n).dropWhile isDigit = [] := List.dropWhile_eq_nil_iff.mpr hall
  have hne := natText_ne_nil n
  simp only [strtod, hs, htake, hdrop, readFraction, readExponent, hne, false_and, if_false,
    List.append_nil, digitsValue_natText, List.length_nil, Nat.cast_zero, sub_zero,
    BinaryIntegers.ofScientific_eq_ofInt h]

theorem strtod_intText {v : ℤ} (h : v.natAbs < 2 ^ 53) :
    strtod (intText v) = some (Float.Model.ofInt v, []) := by
  rw [intText]
  split
  · next hv =>
    have hsign : readSign (45 :: natText v.natAbs) = (true, natText v.natAbs) := rfl
    rw [strtod_digits h hsign, if_pos rfl, BinaryIntegers.neg_ofInt (by omega) h]
    congr 3
    omega
  · next hv =>
    rw [strtod_digits h (readSign_natText _)]
    simp only [Bool.false_eq_true, if_false]
    congr 3
    omega

/-- **A decimal numeral is read as its integer**, up to a magnitude of `2 ^ 53`, whatever follows
it that cannot belong to a numeral. -/
theorem parseNumber_intText {v : ℤ} (h : v.natAbs < 2 ^ 53) {rest : Bytes}
    (hrest : ∀ c ∈ rest.head?, isNumberByte c = false) :
    parseNumber (intText v ++ rest) = some (Float.Model.ofInt v, rest) := by
  have hlen := length_intText_le h
  have hstop : (rest.take (63 - (intText v).length)).takeWhile isNumberByte = [] := by
    cases rest with
    | nil => simp
    | cons c rest =>
      have hc : isNumberByte c = false := hrest c rfl
      cases 63 - (intText v).length with
      | zero => rfl
      | succ k => simp [hc]
  have hnum : ((intText v ++ rest).take 63).takeWhile isNumberByte = intText v := by
    rw [List.take_append, List.take_of_length_le hlen,
      List.takeWhile_append_of_pos fun c hc => isNumberByte_of_mem_intText hc, hstop,
      List.append_nil]
  simp only [parseNumber, hnum, strtod_intText h, Option.map_some, List.length_nil, Nat.sub_zero,
    List.drop_left]

example : parseNumber (ascii "-12.5e1,") = some (Float.Model.ofInt (-125), ascii ",") := by
  decide +kernel

end ModbusServer
