import ModbusServer.Json.Parser

/-!
# Reading printed objects

What the parser makes of objects that `printf` has written: names, strings without escapes, and
decimal numerals. A string that is put between quotes as it stands comes back unchanged exactly if
it has no quotes and no backslashes, because replacing an escape makes a string shorter.

## Main definitions

* `ModbusServer.Scalar`, `ModbusServer.printObject`: flat objects as text.

## Main results

* `ModbusServer.cJSONParse_printObject`: a printed object is read back.
* `ModbusServer.not_special_of_parseString`: which strings come back from between quotes.
* `ModbusServer.zero_notMem_of_cJSONParse`: the strings of a parsed object are C strings.
-/

namespace ModbusServer

open CText

/-- A value that is printed as a string or as a decimal numeral. -/
inductive Scalar
  | text (s : Bytes)
  | int (v : ℤ)

/-- The text of a value. -/
def Scalar.print : Scalar → Bytes
  | text s => 34 :: (s ++ [34])
  | int v => intText v

/-- The item of a value. -/
def Scalar.item : Scalar → CJson
  | text s => .string s
  | int v => .number (Float.Model.ofInt v)

/-- The members of an object, up to its closing brace. -/
def printMembers : List (Bytes × Scalar) → Bytes
  | [] => [125]
  | [(name, v)] => 34 :: (name ++ 34 :: 58 :: (v.print ++ [125]))
  | (name, v) :: m :: ms => 34 :: (name ++ 34 :: 58 :: (v.print ++ 44 :: printMembers (m :: ms)))

/-- A flat object. -/
def printObject (ms : List (Bytes × Scalar)) : Bytes := 123 :: printMembers ms

/-- A string that the parser takes as it stands: a C string without quotes and backslashes. -/
def IsVerbatim (s : Bytes) : Prop := ∀ c ∈ s, c ≠ 34 ∧ c ≠ 92 ∧ c ≠ 0

instance (s : Bytes) : Decidable (IsVerbatim s) := inferInstanceAs (Decidable (∀ c ∈ s, _))

/-- Numerals that fit in a `double`, and strings without escapes. -/
def Scalar.IsVerbatim : Scalar → Prop
  | text s => ModbusServer.IsVerbatim s
  | int v => v.natAbs < 2 ^ 53

instance (v : Scalar) : Decidable v.IsVerbatim :=
  match v with
  | .text s => inferInstanceAs (Decidable (ModbusServer.IsVerbatim s))
  | .int v => inferInstanceAs (Decidable (v.natAbs < 2 ^ 53))

/-! ### Strings -/

section Strings

variable {s t body rest : Bytes} {n : ℕ}

/-- The body of a string ends in front of a quote. -/
theorem eq_of_scanString (h : scanString s = some (body, rest)) : s = body ++ 34 :: rest := by
  fun_induction scanString s generalizing body rest with
  | case1 => simp at h
  | case2 s =>
    obtain ⟨rfl, rfl⟩ := by simpa using h
    rfl
  | case3 => simp at h
  | case4 e s' hne ih =>
    obtain ⟨b, hb, rfl⟩ := map_eq_some_rest.mp h
    rw [ih hb]
    rfl
  | case5 c s hquote hslash ih =>
    obtain ⟨b, hb, rfl⟩ := map_eq_some_rest.mp h
    rw [ih hb]
    rfl

/-- A body without backslashes has no quotes. -/
theorem quote_notMem_of_scanString (h : scanString s = some (body, rest)) (hslash : 92 ∉ body) :
    34 ∉ body := by
  fun_induction scanString s generalizing body rest with
  | case1 => simp at h
  | case2 s =>
    obtain ⟨rfl, rfl⟩ := by simpa using h
    simp
  | case3 => simp at h
  | case4 e s' hne ih =>
    obtain ⟨b, hb, rfl⟩ := map_eq_some_rest.mp h
    simp at hslash
  | case5 c s hquote hslash' ih =>
    obtain ⟨b, hb, rfl⟩ := map_eq_some_rest.mp h
    simp only [List.mem_cons, not_or] at hslash ⊢
    exact ⟨Ne.symm hquote, ih hb hslash.2⟩

theorem scanString_append (h : ∀ c ∈ s, c ≠ 34 ∧ c ≠ 92) :
    scanString (s ++ 34 :: rest) = some (s, rest) := by
  induction s with
  | nil =>
    rw [List.nil_append, scanString.eq_def]
    exact if_pos rfl
  | cons c s ih =>
    obtain ⟨hquote, hslash⟩ := h c List.mem_cons_self
    rw [List.cons_append, scanString.eq_def]
    simp [hquote, hslash, ih fun c hc => h c (List.mem_cons_of_mem _ hc)]

theorem unescape_of_notMem (h : 92 ∉ s) (hn : s.length ≤ n) : unescape n s = some s := by
  induction s generalizing n with
  | nil => cases n <;> rfl
  | cons c s ih =>
    simp only [List.mem_cons, not_or] at h
    cases n with
    | zero => simp at hn
    | succ n => simp [unescape, Ne.symm h.1, ih h.2 (by simpa using hn)]

theorem length_utf8Bytes_le (codepoint : ℕ) : (utf8Bytes codepoint).length ≤ 4 := by
  simp only [utf8Bytes]
  split_ifs <;> simp

/-- An escape takes more bytes than it stands for. -/
theorem length_lt_of_utf16LiteralToUtf8 {bytes : Bytes} {k : ℕ}
    (h : utf16LiteralToUtf8 s = some (bytes, k)) : bytes.length < k ∧ k ≤ s.length := by
  simp only [utf16LiteralToUtf8] at h
  split_ifs at h with hshort
  · obtain ⟨rfl, rfl⟩ := by simpa using h
    rename_i hpair _
    simp only [List.length_drop, not_or] at hpair
    exact ⟨(length_utf8Bytes_le _).trans_lt (by omega), by omega⟩
  · obtain ⟨rfl, rfl⟩ := by simpa using h
    have hlen := length_utf8Bytes_le (parseHex4 (s.drop 2))
    omega

/-- A backslash of a body hides the byte behind it, so it is not the last byte. -/
theorem slash_mem_dropLast_of_scanString (h : scanString s = some (body, rest))
    (hslash : 92 ∈ body) : 92 ∈ body.dropLast := by
  fun_induction scanString s generalizing body rest with
  | case1 => simp at h
  | case2 s =>
    obtain ⟨rfl, rfl⟩ := by simpa using h
    simp at hslash
  | case3 => simp at h
  | case4 e s' hne ih =>
    obtain ⟨b, hb, rfl⟩ := map_eq_some_rest.mp h
    exact List.mem_cons_self
  | case5 c s hquote hslash' ih =>
    obtain ⟨b, hb, rfl⟩ := map_eq_some_rest.mp h
    have hmem : 92 ∈ b := (List.mem_cons.mp hslash).resolve_left (Ne.symm hslash')
    rw [List.dropLast_cons_of_ne_nil (List.ne_nil_of_mem hmem)]
    exact List.mem_cons_of_mem _ (ih hb hmem)

/-- Replacing the escapes of a string makes it shorter, unless its only backslash is its last
byte. -/
theorem length_unescape (h : unescape n s = some t) :
    t.length ≤ s.length ∧ (92 ∈ s.dropLast → t.length < s.length) := by
  fun_induction unescape n s generalizing t with
  | case1 n => simp_all
  | case2 c s => simp at h
  | case3 n c s hc ih =>
    obtain ⟨u, hu, rfl⟩ := Option.map_eq_some_iff.mp h
    obtain ⟨hle, hlt⟩ := ih hu
    simp only [List.length_cons]
    refine ⟨by omega, fun hmem => ?_⟩
    cases s with
    | nil => simp at hmem
    | cons e s =>
      rw [List.dropLast_cons_of_ne_nil (List.cons_ne_nil e s)] at hmem
      have := hlt ((List.mem_cons.mp hmem).resolve_left (Ne.symm hc))
      omega
  | case4 =>
    obtain rfl := Option.some.inj h
    simp
  | case5 n c hc s' ih =>
    obtain ⟨⟨bytes, k⟩, hliteral, hmap⟩ := Option.bind_eq_some_iff.mp h
    obtain ⟨u, hu, rfl⟩ := Option.map_eq_some_iff.mp hmap
    obtain ⟨hshort, hk⟩ := length_lt_of_utf16LiteralToUtf8 hliteral
    have hle := (ih k hu).1
    rw [List.length_drop] at hle
    rw [List.length_append]
    exact ⟨by omega, fun _ => by omega⟩
  | case6 n c hc e s' hne ih =>
    obtain ⟨b, -, hmap⟩ := Option.bind_eq_some_iff.mp h
    obtain ⟨u, hu, rfl⟩ := Option.map_eq_some_iff.mp hmap
    have hle := (ih hu).1
    simp only [List.length_cons]
    exact ⟨by omega, fun _ => by omega⟩

theorem parseString_of_isVerbatim (h : IsVerbatim s) :
    parseString (34 :: (s ++ 34 :: rest)) = some (s, rest) := by
  have hscan : scanString (s ++ 34 :: rest) = some (s, rest) :=
    scanString_append fun c hc => ⟨(h c hc).1, (h c hc).2.1⟩
  have hunescape := unescape_of_notMem (fun hmem => (h 92 hmem).2.1 rfl) (le_refl s.length)
  have hzero : cString s = s := cString_of_notMem fun hmem => (h 0 hmem).2.2 rfl
  simp [parseString, hscan, hunescape, hzero]

theorem zero_notMem_of_parseString (h : parseString t = some (s, rest)) : 0 ∉ s := by
  cases t with
  | nil => simp [parseString] at h
  | cons c t =>
    simp only [parseString] at h
    split at h
    · simp at h
    · obtain ⟨⟨body, r⟩, -, hmap⟩ := Option.bind_eq_some_iff.mp h
      obtain ⟨out, -, heq⟩ := Option.map_eq_some_iff.mp hmap
      obtain ⟨rfl, -⟩ := Prod.mk.inj heq
      exact zero_notMem_cString out

/-- **Strings between quotes.** A string that comes back has no quotes and no backslashes. -/
theorem not_special_of_parseString {tail : Bytes} (htail : 34 ∉ tail)
    (h : parseString (34 :: (s ++ 34 :: tail)) = some (s, rest)) :
    (∀ c ∈ s, c ≠ 34 ∧ c ≠ 92) ∧ rest = tail := by
  simp only [parseString, ne_eq, not_true_eq_false, if_false] at h
  obtain ⟨⟨body, rest'⟩, hscan, hmap⟩ := Option.bind_eq_some_iff.mp h
  obtain ⟨output, houtput, heq⟩ := Option.map_eq_some_iff.mp hmap
  obtain ⟨hs, rfl⟩ := Prod.mk.inj heq
  have hsplit := eq_of_scanString hscan
  have hlength : s.length ≤ output.length := by
    rw [← hs]
    exact (cString_prefix_self output).length_le
  obtain ⟨hle, hlt⟩ :
      output.length ≤ body.length ∧ (92 ∈ body.dropLast → output.length < body.length) :=
    length_unescape houtput
  -- the closing quote is not one of the tail, so the body is no longer than the string
  have hbody : body.length ≤ s.length := by
    rcases List.append_eq_append_iff.mp hsplit with ⟨b, rfl, hb⟩ | ⟨b, rfl, -⟩
    · cases b with
      | nil => simp
      | cons c b =>
        obtain ⟨-, rfl⟩ := List.cons_eq_cons.mp hb
        simp at htail
    · simp
  have hslash : 92 ∉ body := fun hmem => by
    have := hlt (slash_mem_dropLast_of_scanString hscan hmem)
    omega
  obtain ⟨rfl, hrest⟩ := List.append_inj hsplit (by omega)
  obtain rfl := (List.cons_eq_cons.mp hrest).2
  refine ⟨fun c hc => ⟨?_, ?_⟩, rfl⟩
  · rintro rfl
    exact quote_notMem_of_scanString hscan hslash hc
  · rintro rfl
    exact hslash hc

end Strings

/-! ### Members -/

section Members

variable {fuel depth : ℕ} {name s text rest : Bytes} {v : Scalar}

theorem skipWhitespace_cons {c : UInt8} (hc : 32 < c) : skipWhitespace (c :: s) = c :: s := by
  rw [skipWhitespace, List.dropWhile_cons_of_neg]
  simpa using hc

/-- A string is parsed as a string only. -/
theorem parseValue_quote : parseValue (fuel + 1) depth (34 :: s) =
    (parseString (34 :: s)).map (Prod.map .string id) := by
  rw [parseValue]
  rfl

theorem parseString_of_parseValue (h : parseValue fuel depth text = some (.string s, rest)) :
    parseString text = some (s, rest) := by
  cases fuel with
  | zero => simp [parseValue] at h
  | succ fuel =>
    rw [parseValue.eq_def] at h
    simp only at h
    split_ifs at h
    · simp at h
    · simp at h
    · simp at h
    · cases text with
      | nil => simp at h
      | cons c t =>
        simp only at h
        split_ifs at h
        · obtain ⟨a, ha, heq⟩ := map_eq_some_rest.mp h
          rw [ha, ← CJson.string.inj heq]
        all_goals
          obtain ⟨a, -, heq⟩ := map_eq_some_rest.mp h
          simp at heq

/-- A sign or a digit begins a number. -/
theorem parseValue_number {d : UInt8} (hd : d = 45 ∨ isDigit d = true) :
    parseValue (fuel + 1) depth (d :: s) =
      (parseNumber (d :: s)).map (Prod.map .number id) := by
  have hne (e : UInt8) (he : e ≠ 45 ∧ isDigit e = false) : d ≠ e := by
    rintro rfl
    simp [he] at hd
  have hnull : (ascii "null").isPrefixOf (d :: s) = false := by
    simp [ascii, List.isPrefixOf, (hne 110 (by decide)).symm]
  have hfalse : (ascii "false").isPrefixOf (d :: s) = false := by
    simp [ascii, List.isPrefixOf, (hne 102 (by decide)).symm]
  have htrue : (ascii "true").isPrefixOf (d :: s) = false := by
    simp [ascii, List.isPrefixOf, (hne 116 (by decide)).symm]
  rw [parseValue.eq_def]
  simp [hnull, hfalse, htrue, hne 34 (by decide), hd]

theorem exists_intText_eq_cons (v : ℤ) :
    ∃ d ds, intText v = d :: ds ∧ (d = 45 ∨ isDigit d = true) := by
  rw [intText]
  split_ifs
  · exact ⟨45, _, rfl, .inl rfl⟩
  · obtain ⟨d, ds, hds⟩ := List.exists_cons_of_ne_nil (natText_ne_nil v.natAbs)
    exact ⟨d, ds, hds, .inr (isDigit_of_mem_natText (n := v.natAbs) (hds ▸ List.mem_cons_self))⟩

/-- A printed value is read back. -/
theorem parseValue_print (hv : v.IsVerbatim) {c : UInt8} (hc : c = 44 ∨ c = 125) :
    parseValue (fuel + 1) depth (v.print ++ c :: rest) = some (v.item, c :: rest) := by
  cases v with
  | text s =>
    rw [Scalar.print, List.cons_append, List.append_assoc, List.singleton_append, parseValue_quote,
      parseString_of_isVerbatim hv]
    rfl
  | int v =>
    have hnumber : parseNumber (intText v ++ c :: rest) =
        some (Float.Model.ofInt v, c :: rest) := by
      refine parseNumber_intText hv ?_
      rcases hc with rfl | rfl <;> simp [isNumberByte, isDigit]
    obtain ⟨d, ds, htext, hd⟩ := exists_intText_eq_cons v
    rw [Scalar.print, htext, List.cons_append, parseValue_number hd, ← List.cons_append, ← htext,
      hnumber]
    rfl

/-- What the loop over the members does behind a value. -/
def continueMembers (fuel depth : ℕ) (name : Bytes) (r : CJson × Bytes) :
    Option (List (Bytes × CJson) × Bytes) :=
  match skipWhitespace r.2 with
  | [] => none
  | c :: u =>
    if c = 44 then (parseMembers fuel depth (skipWhitespace u)).map
      (Prod.map ((name, r.1) :: ·) id)
    else if c = 125 then some ([(name, r.1)], u)
    else none

/-- The loop over the members, from a printed name on. -/
theorem parseMembers_cons (hname : IsVerbatim name) {c : UInt8} (hc : 32 < c) :
    parseMembers (fuel + 1) depth (34 :: (name ++ 34 :: 58 :: c :: text)) =
      (parseValue fuel depth (c :: text)).bind (continueMembers fuel depth name) := by
  rw [parseMembers, parseString_of_isVerbatim hname, Option.bind_some]
  simp only [skipWhitespace_cons (s := c :: text) (c := 58) (by decide), skipWhitespace_cons hc,
    ne_eq, not_true_eq_false, if_false]
  rfl

theorem exists_print_append_eq_cons (v : Scalar) (rest : Bytes) :
    ∃ c t, v.print ++ rest = c :: t ∧ 32 < c := by
  cases v with
  | text s => exact ⟨34, _, rfl, by decide⟩
  | int v =>
    obtain ⟨d, ds, htext, hd⟩ := exists_intText_eq_cons v
    refine ⟨d, ds ++ rest, by rw [Scalar.print, htext, List.cons_append], ?_⟩
    rcases hd with rfl | hd
    · decide
    · have hle : 48 ≤ d := by
        simp only [isDigit, Bool.and_eq_true, decide_eq_true_eq] at hd
        exact hd.1
      exact UInt8.lt_of_lt_of_le (by decide) hle

/-- One printed member. -/
theorem parseMembers_print (hname : IsVerbatim name) (hv : v.IsVerbatim) {c : UInt8}
    (hc : c = 44 ∨ c = 125) :
    parseMembers (fuel + 2) depth (34 :: (name ++ 34 :: 58 :: (v.print ++ c :: rest))) =
      continueMembers (fuel + 1) depth name (v.item, c :: rest) := by
  have hvalue : parseValue (fuel + 1) depth (v.print ++ c :: rest) = some (v.item, c :: rest) :=
    parseValue_print hv hc
  obtain ⟨d, t, htext, hd⟩ := exists_print_append_eq_cons v (c :: rest)
  rw [htext] at hvalue ⊢
  rw [parseMembers_cons hname hd, hvalue, Option.bind_some]

/-- A printed member in front of a comma. -/
theorem parseMembers_print_comma (hname : IsVerbatim name) (hv : v.IsVerbatim) {c : UInt8}
    (hc : 32 < c) :
    parseMembers (fuel + 2) depth (34 :: (name ++ 34 :: 58 :: (v.print ++ 44 :: c :: rest))) =
      (parseMembers (fuel + 1) depth (c :: rest)).map (Prod.map ((name, v.item) :: ·) id) := by
  rw [parseMembers_print hname hv (.inl rfl)]
  simp [continueMembers, skipWhitespace_cons (c := 44) (by decide), skipWhitespace_cons hc]

/-- The printed member in front of the closing brace. -/
theorem parseMembers_print_brace (hname : IsVerbatim name) (hv : v.IsVerbatim) :
    parseMembers (fuel + 2) depth (34 :: (name ++ 34 :: 58 :: (v.print ++ 125 :: rest))) =
      some ([(name, v.item)], rest) := by
  rw [parseMembers_print hname hv (.inr rfl)]
  simp [continueMembers, skipWhitespace_cons (c := 125) (by decide)]

theorem exists_printMembers_eq_cons {ms : List (Bytes × Scalar)} (hms : ms ≠ []) :
    ∃ t, printMembers ms = 34 :: t := by
  match ms, hms with
  | [(name, v)], _ => exact ⟨_, rfl⟩
  | (name, v) :: m :: ms, _ => exact ⟨_, rfl⟩

theorem parseMembers_printMembers {ms : List (Bytes × Scalar)} (hms : ms ≠ [])
    (h : ∀ m ∈ ms, IsVerbatim m.1 ∧ m.2.IsVerbatim) (depth : ℕ) (rest : Bytes) {fuel : ℕ}
    (hfuel : ms.length < fuel) : parseMembers fuel depth (printMembers ms ++ rest) =
      some (ms.map fun m => (m.1, m.2.item), rest) := by
  induction ms generalizing fuel with
  | nil => exact absurd rfl hms
  | cons m ms ih =>
    obtain ⟨name, v⟩ := m
    obtain ⟨hname, hv⟩ := h (name, v) List.mem_cons_self
    rw [List.length_cons] at hfuel
    obtain ⟨fuel, rfl⟩ : ∃ f, fuel = f + 2 := ⟨fuel - 2, by omega⟩
    cases ms with
    | nil =>
      rw [printMembers, List.cons_append, List.append_assoc, List.cons_append, List.cons_append,
        List.append_assoc, List.singleton_append, parseMembers_print_brace hname hv]
      rfl
    | cons m' ms =>
      obtain ⟨t, ht⟩ := exists_printMembers_eq_cons (List.cons_ne_nil m' ms)
      have ih' : parseMembers (fuel + 1) depth (34 :: (t ++ rest)) =
          some ((m' :: ms).map fun m => (m.1, m.2.item), rest) := by
        rw [← List.cons_append, ← ht]
        exact ih (List.cons_ne_nil m' ms) (fun n hn => h n (List.mem_cons_of_mem _ hn)) (by omega)
      have hcomma : parseMembers (fuel + 2) depth
          (34 :: (name ++ 34 :: 58 :: (v.print ++ 44 :: 34 :: (t ++ rest)))) =
          (parseMembers (fuel + 1) depth (34 :: (t ++ rest))).map
            (Prod.map ((name, v.item) :: ·) id) :=
        parseMembers_print_comma hname hv (by decide)
      rw [ih'] at hcomma
      simpa [printMembers, ht] using hcomma

end Members

/-! ### Objects -/

section Objects

variable {fuel depth : ℕ} {s t text rest : Bytes} {child : List (Bytes × CJson)}

theorem parseValue_brace : parseValue (fuel + 1) depth (123 :: s) =
    (enterList 125 (parseMembers fuel (depth + 1)) depth s).map (Prod.map .object id) := by
  rw [parseValue]
  rfl

/-- The parser on a text that begins with a brace and a quote. -/
theorem cJSONParse_brace (hzero : 0 ∉ t) (hfuel : 2 * t.length + 4 ≤ fuel) :
    cJSONParse (123 :: 34 :: t) = (parseMembers fuel 1 (34 :: t)).map fun r => .object r.1 := by
  have hstring : cString (123 :: 34 :: t) = 123 :: 34 :: t :=
    cString_of_notMem (by simpa using hzero)
  have hbom : skipUtf8Bom (123 :: 34 :: t) = 123 :: 34 :: t := if_neg (by simp)
  have hvalue : parseValue (fuel + 1) 0 (123 :: 34 :: t) =
      parseValue (2 * (123 :: 34 :: t).length + 1) 0 (123 :: 34 :: t) :=
    parseValue_fuel (by simp only [List.length_cons]; omega)
  have henter : enterList 125 (parseMembers fuel (0 + 1)) 0 (34 :: t) =
      parseMembers fuel 1 (34 :: t) := by
    simp [enterList, nestingLimit, skipWhitespace_cons (s := t) (c := 34) (by decide)]
  rw [cJSONParse, hstring, hbom]
  simp only [skipWhitespace_cons (s := 34 :: t) (c := 123) (by decide)]
  rw [← hvalue, parseValue_brace, henter, Option.map_map]
  rfl

theorem zero_notMem_print {v : Scalar} (hv : v.IsVerbatim) : 0 ∉ v.print := by
  cases v with
  | text s => simpa [Scalar.print] using fun hmem => (hv 0 hmem).2.2 rfl
  | int v => exact fun hmem => absurd (isNumberByte_of_mem_intText hmem) (by decide)

theorem zero_notMem_printMembers {ms : List (Bytes × Scalar)}
    (h : ∀ m ∈ ms, IsVerbatim m.1 ∧ m.2.IsVerbatim) : 0 ∉ printMembers ms := by
  fun_induction printMembers ms with
  | case1 => decide
  | case2 name v =>
    obtain ⟨hname, hv⟩ := h (name, v) List.mem_cons_self
    have hzero : 0 ∉ name := fun hmem => (hname 0 hmem).2.2 rfl
    simp [hzero, zero_notMem_print hv]
  | case3 name v m ms ih =>
    obtain ⟨hname, hv⟩ := h (name, v) List.mem_cons_self
    have hzero : 0 ∉ name := fun hmem => (hname 0 hmem).2.2 rfl
    simp [hzero, zero_notMem_print hv, ih fun n hn => h n (List.mem_cons_of_mem _ hn)]

/-- **A printed object is read back.** -/
theorem cJSONParse_printObject {ms : List (Bytes × Scalar)} (hms : ms ≠ [])
    (h : ∀ m ∈ ms, IsVerbatim m.1 ∧ m.2.IsVerbatim) (rest : Bytes) (hrest : 0 ∉ rest) :
    cJSONParse (printObject ms ++ rest) =
      some (.object (ms.map fun m => (m.1, m.2.item))) := by
  obtain ⟨t, ht⟩ := exists_printMembers_eq_cons hms
  have hzero := zero_notMem_printMembers h
  rw [ht] at hzero
  have hmembers := parseMembers_printMembers hms h 1 rest
    (show ms.length < 2 * (t ++ rest).length + 4 + ms.length by omega)
  rw [ht, List.cons_append] at hmembers
  have hparse := cJSONParse_brace (t := t ++ rest) (by simp_all) (Nat.le_add_right _ ms.length)
  rw [hmembers] at hparse
  rw [printObject, ht]
  exact hparse

/-- The strings among the members of a parsed object are C strings. -/
theorem zero_notMem_of_parseMembers (h : parseMembers fuel depth t = some (child, rest))
    {name : Bytes} (hs : (name, .string s) ∈ child) : 0 ∉ s := by
  induction fuel generalizing t child rest with
  | zero => simp [parseMembers] at h
  | succ fuel ih =>
    rw [parseMembers] at h
    obtain ⟨⟨name', u⟩, -, h⟩ := Option.bind_eq_some_iff.mp h
    simp only at h
    cases hw : skipWhitespace u with
    | nil => simp [hw] at h
    | cons c u' =>
      rw [hw] at h
      simp only at h
      split_ifs at h
      obtain ⟨⟨v, w⟩, hv, h⟩ := Option.bind_eq_some_iff.mp h
      simp only at h
      have hvalue (heq : v = .string s) : 0 ∉ s := by
        rw [heq] at hv
        exact zero_notMem_of_parseString (parseString_of_parseValue hv)
      cases hw' : skipWhitespace w with
      | nil => simp [hw'] at h
      | cons c' w' =>
        rw [hw'] at h
        simp only at h
        split_ifs at h
        · obtain ⟨ms, hms, rfl⟩ := map_eq_some_rest.mp h
          rcases List.mem_cons.mp hs with heq | hmem
          · exact hvalue (Prod.mk.inj heq).2.symm
          · exact ih hms hmem
        · obtain ⟨rfl, -⟩ := by simpa using h
          exact hvalue (Prod.mk.inj (List.mem_singleton.mp hs)).2.symm

theorem zero_notMem_of_parseValue (h : parseValue fuel depth t = some (.object child, rest))
    {name : Bytes} (hs : (name, .string s) ∈ child) : 0 ∉ s := by
  cases fuel with
  | zero => simp [parseValue] at h
  | succ fuel =>
    rw [parseValue.eq_def] at h
    simp only at h
    split_ifs at h
    · simp at h
    · simp at h
    · simp at h
    · cases t with
      | nil => simp at h
      | cons c t =>
        simp only at h
        split_ifs at h
        · obtain ⟨a, -, heq⟩ := map_eq_some_rest.mp h
          simp at heq
        · obtain ⟨a, -, heq⟩ := map_eq_some_rest.mp h
          simp at heq
        · obtain ⟨a, -, heq⟩ := map_eq_some_rest.mp h
          simp at heq
        · obtain ⟨ms, henter, heq⟩ := map_eq_some_rest.mp h
          obtain rfl : ms = child := CJson.object.inj heq
          rw [enterList] at henter
          split_ifs at henter
          cases hw : skipWhitespace t with
          | nil => simp [hw] at henter
          | cons d t' =>
            rw [hw] at henter
            simp only at henter
            split_ifs at henter
            · obtain ⟨rfl, -⟩ := by simpa using henter
              simp at hs
            · exact zero_notMem_of_parseMembers henter hs

/-- The strings among the members of a parsed object are C strings. -/
theorem zero_notMem_of_cJSONParse (h : cJSONParse text = some (.object child)) {name : Bytes}
    (hs : (name, .string s) ∈ child) : 0 ∉ s := by
  obtain ⟨⟨v, rest⟩, hv, heq⟩ := Option.map_eq_some_iff.mp h
  obtain rfl : v = .object child := heq
  exact zero_notMem_of_parseValue hv hs

end Objects

end ModbusServer
