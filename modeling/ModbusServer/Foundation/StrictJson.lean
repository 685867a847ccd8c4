import ModbusServer.Foundation.CText

/-!
# JSON texts

A machine that reads a text byte by byte and accepts exactly the JSON objects. It is strict where
many parsers are lenient: control characters are not allowed in strings, escapes and numerals have
the exact form of the grammar, and the text is in UTF-8.

The machine stands at a place of the grammar, inside of brackets that are still open. What it does
on a text made of pieces is what it does on the pieces one after the other.

## Main definitions

* `StrictJson.Place`, `StrictJson.State`, `StrictJson.step`: the machine.
* `StrictJson.IsUtf8`: texts in UTF-8.
* `StrictJson.IsObject`, `StrictJson.IsObjectLine`: JSON objects as texts, and as lines.
* `StrictJson.IsPlain`: strings that stand for themselves in a text.

## Main results

* `StrictJson.run_text`: a string is read as it stands, or refused for a control character.
* `StrictJson.run_intText`: the machine reads decimal numerals.
* `StrictJson.isUtf8_append_cons_iff`: texts in UTF-8 are cut at ASCII characters.
-/

namespace StrictJson

open CText

/-! ### The machine -/

/-- Where the machine stands between two bytes. -/
inductive Place
  /-- In front of a value. -/
  | value
  /-- Behind an opening bracket: in front of a value or of the closing bracket. -/
  | element
  /-- Behind an opening brace: in front of a name or of the closing brace. -/
  | member
  /-- In front of a name. -/
  | name
  /-- Behind a name. -/
  | colon
  /-- Behind a value. -/
  | done
  /-- In a string, which may be a name. -/
  | text (isName : Bool)
  /-- Behind a backslash. -/
  | escape (isName : Bool)
  /-- In front of a hexadecimal digit, with so many further ones to come. -/
  | hex (isName : Bool) (more : ℕ)
  /-- In `true`, `false` or `null`, with the letters that are missing. -/
  | literal (missing : Bytes)
  /-- Behind the sign of a numeral. -/
  | minus
  /-- Behind a leading zero. -/
  | zero
  /-- In the digits in front of the point. -/
  | whole
  /-- Behind the point. -/
  | point
  /-- In the digits behind the point. -/
  | fraction
  /-- Behind the letter of an exponent. -/
  | exponent
  /-- Behind the sign of an exponent. -/
  | sign
  /-- In the digits of an exponent. -/
  | power
  deriving DecidableEq

/-- The place of the machine, and the brackets that are open, the innermost first: is it a brace? -/
structure State where
  place : Place := .value
  brackets : List Bool := []
  deriving DecidableEq

/-- White space between tokens. -/
def isSpace (c : UInt8) : Bool := c = 32 || c = 9 || c = 10 || c = 13

/-- Is the byte a hexadecimal digit? -/
def isHex (c : UInt8) : Bool := isDigit c || (65 ≤ c && c ≤ 70) || (97 ≤ c && c ≤ 102)

/-- Behind a closing bracket of the given kind. -/
def close (brace : Bool) : List Bool → Option State
  | [] => none
  | b :: brackets => if b = brace then some ⟨.done, brackets⟩ else none

/-- The first byte of a value. -/
def begin (brackets : List Bool) (c : UInt8) : Option State :=
  if c = 34 then some ⟨.text false, brackets⟩
  else if c = 123 then some ⟨.member, true :: brackets⟩
  else if c = 91 then some ⟨.element, false :: brackets⟩
  else if c = 45 then some ⟨.minus, brackets⟩
  else if c = 48 then some ⟨.zero, brackets⟩
  else if isDigit c then some ⟨.whole, brackets⟩
  else if c = 116 then some ⟨.literal (ascii "rue"), brackets⟩
  else if c = 102 then some ⟨.literal (ascii "alse"), brackets⟩
  else if c = 110 then some ⟨.literal (ascii "ull"), brackets⟩
  else none

/-- A byte behind a value. -/
def behind (brackets : List Bool) (c : UInt8) : Option State :=
  if isSpace c then some ⟨.done, brackets⟩
  else if c = 44 then
    match brackets with
    | [] => none
    | true :: _ => some ⟨.name, brackets⟩
    | false :: _ => some ⟨.value, brackets⟩
  else if c = 125 then close true brackets
  else if c = 93 then close false brackets
  else none

/-- A byte that may be the letter of an exponent, or else stands behind the numeral. -/
def behindDigits (brackets : List Bool) (c : UInt8) : Option State :=
  if c = 101 ∨ c = 69 then some ⟨.exponent, brackets⟩ else behind brackets c

/-- One byte. -/
def step (s : State) (c : UInt8) : Option State :=
  match s.place with
  | .value => if isSpace c then some s else begin s.brackets c
  | .element =>
    if isSpace c then some s else if c = 93 then close false s.brackets else begin s.brackets c
  | .member =>
    if isSpace c then some s
    else if c = 34 then some ⟨.text true, s.brackets⟩
    else if c = 125 then close true s.brackets
    else none
  | .name =>
    if isSpace c then some s else if c = 34 then some ⟨.text true, s.brackets⟩ else none
  | .colon => if isSpace c then some s else if c = 58 then some ⟨.value, s.brackets⟩ else none
  | .done => behind s.brackets c
  | .text isName =>
    if c = 34 then some ⟨if isName then .colon else .done, s.brackets⟩
    else if c = 92 then some ⟨.escape isName, s.brackets⟩
    else if c < 32 then none
    else some s
  | .escape isName =>
    if c ∈ ascii "\"\\/bfnrt" then some ⟨.text isName, s.brackets⟩
    else if c = 117 then some ⟨.hex isName 3, s.brackets⟩
    else none
  | .hex isName more =>
    if isHex c then
      match more with
      | 0 => some ⟨.text isName, s.brackets⟩
      | more + 1 => some ⟨.hex isName more, s.brackets⟩
    else none
  | .literal [] => none
  | .literal (l :: missing) =>
    if c = l then some ⟨if missing = [] then .done else .literal missing, s.brackets⟩ else none
  | .minus =>
    if c = 48 then some ⟨.zero, s.brackets⟩
    else if isDigit c then some ⟨.whole, s.brackets⟩
    else none
  | .zero => if c = 46 then some ⟨.point, s.brackets⟩ else behindDigits s.brackets c
  | .whole =>
    if isDigit c then some s
    else if c = 46 then some ⟨.point, s.brackets⟩
    else behindDigits s.brackets c
  | .point => if isDigit c then some ⟨.fraction, s.brackets⟩ else none
  | .fraction => if isDigit c then some s else behindDigits s.brackets c
  | .exponent =>
    if c = 43 ∨ c = 45 then some ⟨.sign, s.brackets⟩
    else if isDigit c then some ⟨.power, s.brackets⟩
    else none
  | .sign => if isDigit c then some ⟨.power, s.brackets⟩ else none
  | .power => if isDigit c then some s else behind s.brackets c

/-- The machine on a text. -/
def run (s : State) (text : Bytes) : Option State := text.foldlM step s

/-- A text in UTF-8. -/
def IsUtf8 (s : Bytes) : Prop := ∃ cs : List Char, s = cs.flatMap String.utf8EncodeChar

/-- A text that is one JSON object. -/
structure IsObject (text : Bytes) : Prop where
  utf8 : IsUtf8 text
  head : (text.dropWhile isSpace).head? = some 123
  run_eq : run {} text = some ⟨.done, []⟩

/-- A text that is one line with one JSON object. -/
def IsObjectLine (text : Bytes) : Prop :=
  ∃ object, text = object ++ [10] ∧ 10 ∉ object ∧ IsObject object

/-- A string without quotes and backslashes. -/
def NoSpecial (s : Bytes) : Prop := ∀ c ∈ s, c ≠ 34 ∧ c ≠ 92

instance (s : Bytes) : Decidable (NoSpecial s) := inferInstanceAs (Decidable (∀ c ∈ s, _))

/-- A string without control characters. -/
def NoControl (s : Bytes) : Prop := ∀ c ∈ s, 32 ≤ c

instance (s : Bytes) : Decidable (NoControl s) := inferInstanceAs (Decidable (∀ c ∈ s, _))

@[simp] theorem noControl_nil : NoControl [] := by simp [NoControl]

@[simp] theorem noControl_cons {c : UInt8} {s : Bytes} :
    NoControl (c :: s) ↔ 32 ≤ c ∧ NoControl s :=
  List.forall_mem_cons

@[simp] theorem noControl_append {s t : Bytes} :
    NoControl (s ++ t) ↔ NoControl s ∧ NoControl t :=
  List.forall_mem_append

/-- A string that stands for itself between quotes. -/
structure IsPlain (s : Bytes) : Prop where
  utf8 : IsUtf8 s
  noSpecial : NoSpecial s
  noControl : NoControl s

example : run {} (ascii "\x7b\"a\": [1, -0.5e3, \"\\u0041\"]\x7d ") = some ⟨.done, []⟩ := by decide

/-! ### Runs -/

section Runs

variable {s : State} {a b : Bytes}

@[simp] theorem run_nil : run s [] = some s := rfl

theorem run_cons (c : UInt8) : run s (c :: a) = (step s c).bind (run · a) := by
  simp [run, List.foldlM_cons]

theorem run_append : run s (a ++ b) = (run s a).bind (run · b) := by
  simp [run, List.foldlM_append]

/-- Strings are read as they stand, and refused for a control character. -/
theorem run_text {isName : Bool} {brackets : List Bool} (h : NoSpecial a) :
    run ⟨.text isName, brackets⟩ a =
      if NoControl a then some ⟨.text isName, brackets⟩ else none := by
  induction a with
  | nil => exact (if_pos noControl_nil).symm
  | cons c a ih =>
    obtain ⟨hquote, hslash⟩ := h c List.mem_cons_self
    have ih' := ih fun c hc => h c (List.mem_cons_of_mem _ hc)
    rw [run_cons]
    by_cases hc : c < 32
    · simp [step, hquote, hslash, hc, UInt8.not_le.mpr hc]
    · simp [step, hquote, hslash, hc, ih', UInt8.not_lt.mp hc]

theorem run_digits {brackets : List Bool} (h : ∀ c ∈ a, isDigit c = true) :
    run ⟨.whole, brackets⟩ a = some ⟨.whole, brackets⟩ := by
  induction a with
  | nil => rfl
  | cons c a ih =>
    have hc : step ⟨.whole, brackets⟩ c = some ⟨.whole, brackets⟩ :=
      if_pos (h c List.mem_cons_self)
    rw [run_cons, hc, Option.bind_some, ih fun c hc => h c (List.mem_cons_of_mem _ hc)]

/-- A numeral is read from in front of a value, or from behind its sign. -/
theorem run_natText {place : Place} (hplace : place = .value ∨ place = .minus)
    (brackets : List Bool) (n : ℕ) : ∃ place', (place' = .zero ∨ place' = .whole) ∧
      run ⟨place, brackets⟩ (natText n) = some ⟨place', brackets⟩ := by
  rcases Nat.eq_zero_or_pos n with rfl | hn
  · refine ⟨.zero, .inl rfl, ?_⟩
    rcases hplace with rfl | rfl <;> rfl
  · obtain ⟨c, ds, htext, hc, hc0, hds⟩ := exists_natText_eq_cons hn
    refine ⟨.whole, .inr rfl, ?_⟩
    have hne (d : UInt8) (hd : isDigit d = false) : c ≠ d := by
      rintro rfl
      simp [hc] at hd
    have hspace : isSpace c = false := by
      simp [isSpace, hne 32 rfl, hne 9 rfl, hne 10 rfl, hne 13 rfl]
    have hstep : step ⟨place, brackets⟩ c = some ⟨.whole, brackets⟩ := by
      rcases hplace with rfl | rfl
      · simp [step, begin, hspace, hc, hc0, hne 34 rfl, hne 123 rfl, hne 91 rfl, hne 45 rfl]
      · simp [step, hc, hc0]
    rw [htext, run_cons, hstep, Option.bind_some, run_digits hds]

/-- Decimal numerals are read as they are printed. -/
theorem run_intText (brackets : List Bool) (v : ℤ) :
    ∃ place, (place = .zero ∨ place = .whole) ∧
      run ⟨.value, brackets⟩ (intText v) = some ⟨place, brackets⟩ := by
  rw [intText]
  split_ifs
  · obtain ⟨place, hplace, hrun⟩ := run_natText (.inr rfl) brackets v.natAbs
    exact ⟨place, hplace, hrun⟩
  · exact run_natText (.inl rfl) brackets v.natAbs

end Runs

/-! ### UTF-8 -/

section Utf8

theorem isUtf8_nil : IsUtf8 [] := ⟨[], rfl⟩

theorem IsUtf8.append {s t : Bytes} (hs : IsUtf8 s) (ht : IsUtf8 t) : IsUtf8 (s ++ t) := by
  obtain ⟨cs, rfl⟩ := hs
  obtain ⟨ds, rfl⟩ := ht
  exact ⟨cs ++ ds, List.flatMap_append.symm⟩

/-- A character is a single ASCII byte, or has none. -/
theorem utf8EncodeChar_cases (c : Char) :
    (∃ b : UInt8, String.utf8EncodeChar c = [b]) ∨ ∀ b ∈ String.utf8EncodeChar c, 128 ≤ b := by
  simp only [String.utf8EncodeChar]
  split_ifs
  · exact .inl ⟨_, rfl⟩
  all_goals
    refine .inr fun b hb => ?_
    simp only [List.mem_cons, List.not_mem_nil, or_false] at hb
    rcases hb with rfl | rfl | rfl | rfl <;>
      simp only [UInt8.le_iff_toNat_le, UInt8.toNat_ofNat', UInt8.toNat_ofNat] <;> omega

/-- Every ASCII byte is a character. -/
theorem exists_utf8EncodeChar_eq {b : UInt8} (hb : b < 128) :
    ∃ c, String.utf8EncodeChar c = [b] := by
  have hlt : b.toNat < 128 := UInt8.lt_iff_toNat_lt.mp hb
  have hval : (Char.ofNat b.toNat).val.toNat = b.toNat := by
    rw [Char.ofNat, dif_pos (.inl (by omega))]
    rfl
  refine ⟨Char.ofNat b.toNat, ?_⟩
  simp only [String.utf8EncodeChar, hval]
  rw [if_pos (by omega), UInt8.ofNat_toNat]

/-- A text in UTF-8 is cut at an ASCII character. -/
theorem isUtf8_append_cons_iff {s t : Bytes} {b : UInt8} (hb : b < 128) :
    IsUtf8 (s ++ b :: t) ↔ IsUtf8 s ∧ IsUtf8 t := by
  constructor
  · rintro ⟨cs, hcs⟩
    induction cs generalizing s with
    | nil => simp at hcs
    | cons c cs ih =>
      rw [List.flatMap_cons, eq_comm, List.append_eq_append_iff] at hcs
      rcases hcs with ⟨u, rfl, hrest⟩ | ⟨u, hu, hrest⟩
      · -- the character stands in `s`
        obtain ⟨hs, ht⟩ := ih hrest.symm
        exact ⟨IsUtf8.append ⟨[c], by simp⟩ hs, ht⟩
      · -- the character begins in `s`, and is `b` or ends there
        cases u with
        | nil =>
          rw [List.append_nil] at hu
          exact ⟨⟨[c], by simp [hu]⟩, (ih (s := []) hrest).2⟩
        | cons d u =>
          obtain ⟨rfl, rfl⟩ := List.cons_eq_cons.mp hrest
          rcases utf8EncodeChar_cases c with ⟨d, hd⟩ | hall
          · obtain ⟨rfl, rfl⟩ : s = [] ∧ u = [] := by
              have hlength := congrArg List.length (hu.symm.trans hd)
              simp only [List.length_append, List.length_cons, List.length_nil] at hlength
              exact ⟨List.length_eq_zero_iff.mp (by omega), List.length_eq_zero_iff.mp (by omega)⟩
            exact ⟨isUtf8_nil, cs, rfl⟩
          · have hb' := hall b (by simp [hu])
            exact absurd hb (UInt8.not_lt.mpr hb')
  · rintro ⟨hs, ht⟩
    obtain ⟨c, hc⟩ := exists_utf8EncodeChar_eq hb
    exact hs.append (IsUtf8.append (s := [b]) ⟨[c], by simp [hc]⟩ ht)

theorem isUtf8_of_forall_lt {s : Bytes} (h : ∀ c ∈ s, c < 128) : IsUtf8 s := by
  induction s with
  | nil => exact isUtf8_nil
  | cons c s ih =>
    exact (isUtf8_append_cons_iff (h c List.mem_cons_self)).mpr
      ⟨isUtf8_nil, ih fun d hd => h d (List.mem_cons_of_mem _ hd)⟩

theorem isPlain_of_ascii {s : Bytes} (h : ∀ c ∈ s, 32 ≤ c ∧ c < 128 ∧ c ≠ 34 ∧ c ≠ 92) :
    IsPlain s :=
  ⟨isUtf8_of_forall_lt fun c hc => (h c hc).2.1, fun c hc => (h c hc).2.2, fun c hc => (h c hc).1⟩

end Utf8

end StrictJson
