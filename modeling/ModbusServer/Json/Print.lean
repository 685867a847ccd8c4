import ModbusServer.Json.Grammar
import ModbusServer.Json.NumberText

/-!
# Values as text

The text that cJSON writes for a value, in the compact form and in the formatted one, where the
members of an object stand on lines of their own, and what the parser makes of it. Strings come
back as they are, because the escapes that are written are among those that are read. Numbers come
back as they are read from their texts, and infinities and not-a-number as `null`.

Source: `cJSON/cJSON.c`, lines 901–1027, 1366–1438, 1538–1598 and 1713–1825.

## Main definitions

* `ModbusServer.stringText`: a string between quotes, with escapes.
* `ModbusServer.CJson.text`: the text of a value.
* `ModbusServer.CJson.reread`: the value that is read back.

## Main results

* `ModbusServer.parseString_stringText`: strings are read back.
* `ModbusServer.derives_text`: the text of a value is derived in the grammar.
* `ModbusServer.cJSONParse_text`: it is parsed.
-/

namespace ModbusServer

open CText

/-! ### Strings -/

/-- A hexadecimal digit as `printf` writes it for `%x`. -/
def hexByte (n : ℕ) : UInt8 := if n < 10 then (48 + n).toUInt8 else (87 + n).toUInt8

/-- What stands behind the backslash of an escape. -/
def escapeLetters (c : UInt8) : Bytes :=
  if c = 92 then [92]
  else if c = 34 then [34]
  else if c = 8 then [98]
  else if c = 12 then [102]
  else if c = 10 then [110]
  else if c = 13 then [114]
  else if c = 9 then [116]
  else [117, 48, 48, hexByte (c.toNat / 16), hexByte (c.toNat % 16)]

/-- A byte of a string, escaped if it has to be. -/
def escapeByte (c : UInt8) : Bytes :=
  if 31 < c ∧ c ≠ 34 ∧ c ≠ 92 then [c] else 92 :: escapeLetters c

/-- A string between quotes. -/
def stringText (s : Bytes) : Bytes := 34 :: (s.flatMap escapeByte ++ [34])

/-! ### Values -/

/-- White space that only the formatted text has. -/
def spaceIf (format : Bool) (s : Bytes) : Bytes := if format then s else []

/-- A comma, unless the element is the last one. -/
def commaBefore {α : Type} (l : List α) (s : Bytes) : Bytes := if l.isEmpty then [] else 44 :: s

mutual

/-- The text of a value, where `depth` is how many brackets are open. -/
def CJson.text (format : Bool) (depth : ℕ) : CJson → Bytes
  | .null => ascii "null"
  | .bool b => ascii (if b then "true" else "false")
  | .number d => numberText d
  | .string s => stringText s
  | .array child => 91 :: (elementsText format (depth + 1) child ++ [93])
  | .object child => 123 :: (spaceIf format [10] ++ (membersText format (depth + 1) child ++
      (spaceIf format (List.replicate depth 9) ++ [125])))

/-- The elements of an array. -/
def elementsText (format : Bool) (depth : ℕ) : List CJson → Bytes
  | [] => []
  | v :: vs => v.text format depth ++ (commaBefore vs (spaceIf format [32]) ++
      elementsText format depth vs)

/-- The members of an object. -/
def membersText (format : Bool) (depth : ℕ) : List (Bytes × CJson) → Bytes
  | [] => []
  | (name, v) :: ms => spaceIf format (List.replicate depth 9) ++ (stringText name ++
      58 :: (spaceIf format [9] ++ (v.text format depth ++ (commaBefore ms [] ++
        (spaceIf format [10] ++ membersText format depth ms)))))

end

mutual

/-- The value that is read from the text of a value. -/
def CJson.reread : CJson → CJson
  | .null => .null
  | .bool b => .bool b
  | .number d => if d.isNaN ∨ d.isInf then .null else .number (rereadNumber d)
  | .string s => .string s
  | .array child => .array (rereadElements child)
  | .object child => .object (rereadMembers child)

/-- The elements of an array, each read from its text. -/
def rereadElements : List CJson → List CJson
  | [] => []
  | v :: vs => v.reread :: rereadElements vs

/-- The members of an object, each read from its text. -/
def rereadMembers : List (Bytes × CJson) → List (Bytes × CJson)
  | [] => []
  | (name, v) :: ms => (name, v.reread) :: rereadMembers ms

end

/-! ### Reading a string back -/

section Strings

variable {s t body rest : Bytes} {n : ℕ}

/-- Control characters are escaped as four hexadecimal digits that are read back. -/
theorem utf16LiteralToUtf8_control {c : UInt8} (hc : c < 32) :
    utf16LiteralToUtf8
      (92 :: 117 :: 48 :: 48 :: hexByte (c.toNat / 16) :: hexByte (c.toNat % 16) :: t) =
      some ([c], 6) := by
  have hall : ∀ k < 32, parseHex4 [48, 48, hexByte (k / 16), hexByte (k % 16)] = k := by decide
  have hlt : c.toNat < 32 := UInt8.lt_iff_toNat_lt.mp hc
  have hhex : parseHex4 (48 :: 48 :: hexByte (c.toNat / 16) :: hexByte (c.toNat % 16) :: t) =
      c.toNat := hall c.toNat hlt
  have hutf8 : utf8Bytes c.toNat = [c] := by
    rw [utf8Bytes, if_pos (by omega)]
    simp
  simp only [utf16LiteralToUtf8, List.drop_succ_cons, List.drop_zero, hhex, hutf8]
  rw [if_neg (by simp), if_neg (by omega), if_neg (by omega)]

/-- The scan for the closing quote passes over an escaped byte. -/
theorem scanString_escapeByte (c : UInt8) :
    scanString (escapeByte c ++ t) = (scanString t).map (Prod.map (escapeByte c ++ ·) id) := by
  have hbyte {c : UInt8} {u : Bytes} (hquote : c ≠ 34) (hslash : c ≠ 92) :
      scanString (c :: u) = (scanString u).map (Prod.map (c :: ·) id) := by
    rw [scanString.eq_def]
    simp [hquote, hslash]
  have hescape (e : UInt8) (u : Bytes) :
      scanString (92 :: e :: u) = (scanString u).map (Prod.map (92 :: e :: ·) id) := by
    rw [scanString.eq_def]
    simp
  have hhex (k : ℕ) (hk : k < 16) : hexByte k ≠ 34 ∧ hexByte k ≠ 92 := by
    revert k
    decide
  rw [escapeByte]
  split
  · next hc => exact hbyte hc.2.1 hc.2.2
  · rw [escapeLetters]
    split_ifs
    iterate 7 exact hescape _ t
    have hone := hhex (c.toNat / 16) (by have := c.toNat_lt; omega)
    have htwo := hhex (c.toNat % 16) (by omega)
    simp only [List.cons_append, List.nil_append, hescape, hbyte (c := 48) (by decide) (by decide),
      hbyte hone.1 hone.2, hbyte htwo.1 htwo.2, Option.map_map]
    rfl

/-- The escape of a byte is replaced by the byte. -/
theorem unescape_escapeByte (c : UInt8) (hn : (escapeByte c ++ t).length ≤ n) :
    ∃ m, t.length ≤ m ∧ unescape n (escapeByte c ++ t) = (unescape m t).map (c :: ·) := by
  obtain ⟨e, u, hcons⟩ : ∃ e u, escapeByte c = e :: u := by
    rw [escapeByte]
    split <;> exact ⟨_, _, rfl⟩
  rw [List.length_append, hcons, List.length_cons] at hn
  obtain ⟨n, rfl⟩ : ∃ k, n = k + 1 := ⟨n - 1, by omega⟩
  refine ⟨n, by omega, ?_⟩
  have hletter {e : UInt8} (hsimple : simpleEscape e = some c) (hu : e ≠ 117) :
      unescape (n + 1) (92 :: e :: t) = (unescape n t).map (c :: ·) := by
    simp [unescape, hsimple, hu]
  rw [escapeByte]
  split
  · next hc =>
    rw [List.singleton_append, unescape.eq_def]
    exact if_pos hc.2.2
  next hc =>
  rw [escapeLetters]
  split_ifs with h1 h2 h3 h4 h5 h6 h7
  · exact hletter (by rw [h1]; rfl) (by decide)
  · exact hletter (by rw [h2]; rfl) (by decide)
  · exact hletter (by rw [h3]; rfl) (by decide)
  · exact hletter (by rw [h4]; rfl) (by decide)
  · exact hletter (by rw [h5]; rfl) (by decide)
  · exact hletter (by rw [h6]; rfl) (by decide)
  · exact hletter (by rw [h7]; rfl) (by decide)
  · have hlt : c < 32 := by
      simp only [h1, h2, ne_eq, not_false_eq_true, and_true, UInt8.lt_iff_toNat_lt] at hc ⊢
      exact Nat.lt_of_not_le hc
    simp only [List.cons_append, List.nil_append, unescape, utf16LiteralToUtf8_control hlt]
    simp

theorem scanString_flatMap (s rest : Bytes) :
    scanString (s.flatMap escapeByte ++ 34 :: rest) = some (s.flatMap escapeByte, rest) := by
  induction s with
  | nil =>
    rw [List.flatMap_nil, List.nil_append, scanString.eq_def]
    exact if_pos rfl
  | cons c s ih =>
    rw [List.flatMap_cons, List.append_assoc, scanString_escapeByte, ih]
    rfl

theorem unescape_flatMap (s : Bytes) (hn : (s.flatMap escapeByte).length ≤ n) :
    unescape n (s.flatMap escapeByte) = some s := by
  induction s generalizing n with
  | nil => cases n <;> rfl
  | cons c s ih =>
    rw [List.flatMap_cons] at hn ⊢
    obtain ⟨m, hm, heq⟩ := unescape_escapeByte c hn
    rw [heq, ih hm]
    rfl

/-- **Strings are read back.** -/
theorem parseString_stringText (hs : 0 ∉ s) (rest : Bytes) :
    parseString (stringText s ++ rest) = some (s, rest) := by
  have happend : stringText s ++ rest = 34 :: (s.flatMap escapeByte ++ 34 :: rest) := by
    simp [stringText]
  have hunescape := unescape_flatMap s (le_refl (s.flatMap escapeByte).length)
  rw [happend, parseString, if_neg (by simp), scanString_flatMap, Option.bind_some]
  simp only [hunescape, Option.map_some, cString_of_notMem hs]

end Strings

/-! ### Reading a value back -/

section Values

variable {format : Bool} {s rest : Bytes} {n : ℕ} {v : CJson}

theorem skipWhitespace_append {w : Bytes} (hw : ∀ c ∈ w, c ≤ 32) (t : Bytes) :
    skipWhitespace (w ++ t) = skipWhitespace t :=
  List.dropWhile_append_of_pos (by simpa using hw)

theorem skipWhitespace_spaceIf {w : Bytes} (hw : ∀ c ∈ w, c ≤ 32) (format : Bool) (t : Bytes) :
    skipWhitespace (spaceIf format w ++ t) = skipWhitespace t := by
  cases format with
  | false => rfl
  | true => exact skipWhitespace_append hw t

theorem tabs_le (depth : ℕ) : ∀ c ∈ List.replicate depth (9 : UInt8), c ≤ 32 := fun c hc => by
  rw [List.eq_of_mem_replicate hc]
  decide

/-- A value begins with a visible ASCII character other than a closing bracket. -/
theorem exists_text_eq_cons (format : Bool) (depth : ℕ) (v : CJson) :
    ∃ c t, v.text format depth = c :: t ∧ 32 < c ∧ c ≠ 93 ∧ c < 128 := by
  cases v with
  | null => exact ⟨110, ascii "ull", rfl, by decide⟩
  | bool b =>
    cases b with
    | false => exact ⟨102, ascii "alse", rfl, by decide⟩
    | true => exact ⟨116, ascii "rue", rfl, by decide⟩
  | string s => exact ⟨34, _, rfl, by decide⟩
  | array child => exact ⟨91, _, rfl, by decide⟩
  | object child => exact ⟨123, _, rfl, by decide⟩
  | number d =>
    have hvisible {c : UInt8} (hc : c = 45 ∨ isDigit c = true) : 32 < c ∧ c ≠ 93 ∧ c < 128 := by
      rcases hc with rfl | hc
      · decide
      · simp only [isDigit, Bool.and_eq_true, decide_eq_true_eq] at hc
        refine ⟨UInt8.lt_of_lt_of_le (by decide) hc.1, ?_, UInt8.lt_of_le_of_lt hc.2 (by decide)⟩
        rintro rfl
        exact absurd hc.2 (by decide)
    rw [CJson.text]
    by_cases hfinite : d.isNaN ∨ d.isInf
    · rw [numberText, if_pos hfinite]
      exact ⟨110, ascii "ull", rfl, by decide⟩
    · simp only [not_or, Bool.not_eq_true] at hfinite
      obtain ⟨c, t, heq, hc⟩ :=
        exists_cons_of_isNumeral (isNumeral_numberText hfinite.1 hfinite.2)
      exact ⟨c, t, heq, hvisible hc⟩

/-- In front of a comma or a closing bracket a number ends. -/
theorem isNumberByte_of_head {c : UInt8} (hc : c = 44 ∨ c = 93 ∨ c = 125 ∨ c = 10) (t : Bytes) :
    ∀ e ∈ (c :: t).head?, isNumberByte e = false := by
  rintro _ ⟨⟩
  rcases hc with rfl | rfl | rfl | rfl <;> rfl

theorem skipWhitespace_text (depth : ℕ) (v : CJson) (t : Bytes) :
    skipWhitespace (v.text format depth ++ t) = v.text format depth ++ t := by
  obtain ⟨c, u, hcons, hc, -⟩ := exists_text_eq_cons format depth v
  rw [hcons, List.cons_append, skipWhitespace_cons hc]

/-- What is read back from the text of a value. -/
def ReadBack (format : Bool) (n : ℕ) (v : CJson) : Prop :=
  ∀ {depth k : ℕ} {rest : Bytes}, depth + n ≤ nestingLimit →
    (∀ c ∈ rest.head?, isNumberByte c = false) →
    Derives .value depth (v.text format k ++ rest) v.reread rest

/-- The elements of an array are read back. -/
theorem derives_elementsText {vs : List CJson} (hvs : vs ≠ [])
    (h : ∀ v ∈ vs, ReadBack format n v) {depth k : ℕ} (hdepth : depth + n ≤ nestingLimit)
    (rest : Bytes) :
    Derives .elements depth (elementsText format k vs ++ 93 :: rest) (.array (rereadElements vs))
      rest := by
  induction vs with
  | nil => exact absurd rfl hvs
  | cons v vs ih =>
    have hv : ReadBack format n v := h v List.mem_cons_self
    cases vs with
    | nil =>
      have hvalue : Derives .value depth (v.text format k ++ 93 :: rest) v.reread (93 :: rest) :=
        hv hdepth (isNumberByte_of_head (by simp) rest)
      simpa [elementsText, commaBefore, rereadElements] using
        hvalue.lastElement (skipWhitespace_cons (by decide))
    | cons w vs =>
      have hrest := ih (List.cons_ne_nil w vs) fun u hu => h u (List.mem_cons_of_mem v hu)
      set tail := elementsText format k (w :: vs) ++ 93 :: rest with htail
      have hvalue : Derives .value depth
          (v.text format k ++ 44 :: (spaceIf format [32] ++ tail)) v.reread
          (44 :: (spaceIf format [32] ++ tail)) :=
        hv hdepth (isNumberByte_of_head (by simp) _)
      have hskip : skipWhitespace (spaceIf format [32] ++ tail) = tail := by
        rw [skipWhitespace_spaceIf (by simp), htail, elementsText, List.append_assoc,
          skipWhitespace_text]
      have happend : elementsText format k (v :: w :: vs) ++ 93 :: rest =
          v.text format k ++ 44 :: (spaceIf format [32] ++ tail) := by
        simp [elementsText, commaBefore, htail]
      rw [happend, rereadElements]
      exact hvalue.element (skipWhitespace_cons (by decide)) (hskip.symm ▸ hrest)

/-- The first name is behind the white space in front of the members. -/
theorem skipWhitespace_membersText {name : Bytes} {ms : List (Bytes × CJson)} (k : ℕ) (t : Bytes) :
    ∃ u, skipWhitespace (membersText format k ((name, v) :: ms) ++ t) =
      stringText name ++ 58 :: (spaceIf format [9] ++ (v.text format k ++ u)) ∧
      u = commaBefore ms [] ++ (spaceIf format [10] ++ (membersText format k ms ++ t)) := by
  refine ⟨_, ?_, rfl⟩
  rw [membersText, List.append_assoc, skipWhitespace_spaceIf (tabs_le k), stringText]
  simp only [List.cons_append, List.append_assoc]
  rw [skipWhitespace_cons (by decide)]

/-- The members of an object are read back. -/
theorem derives_membersText {ms : List (Bytes × CJson)} (hms : ms ≠ [])
    (hname : ∀ m ∈ ms, 0 ∉ m.1) (h : ∀ m ∈ ms, ReadBack format n m.2) {depth k : ℕ}
    (hdepth : depth + n ≤ nestingLimit) {w : Bytes} (hw : ∀ c ∈ w, c ≤ 32) (rest : Bytes) :
    Derives .members depth
      (skipWhitespace (membersText format k ms ++ (spaceIf format w ++ 125 :: rest)))
      (.object (rereadMembers ms)) rest := by
  induction ms with
  | nil => exact absurd rfl hms
  | cons m ms ih =>
    obtain ⟨name, v⟩ := m
    have hv : ReadBack format n v := h (name, v) List.mem_cons_self
    obtain ⟨u, htext, hu⟩ := skipWhitespace_membersText k (spaceIf format w ++ 125 :: rest)
    have hstring := parseString_stringText (hname (name, v) List.mem_cons_self)
      (58 :: (spaceIf format [9] ++ (v.text format k ++ u)))
    have hskip : skipWhitespace (spaceIf format [9] ++ (v.text format k ++ u)) =
        v.text format k ++ u := by
      rw [skipWhitespace_spaceIf (by simp), skipWhitespace_text]
    rw [htext, rereadMembers]
    cases ms with
    | nil =>
      have hend : skipWhitespace u = 125 :: rest := by
        rw [hu, commaBefore, membersText, List.isEmpty_nil, if_pos rfl, List.nil_append,
          List.nil_append, skipWhitespace_spaceIf (by simp), skipWhitespace_spaceIf hw,
          skipWhitespace_cons (by decide)]
      have hhead : ∀ c ∈ u.head?, isNumberByte c = false := by
        rw [hu]
        cases format with
        | false => exact isNumberByte_of_head (by simp) _
        | true => exact isNumberByte_of_head (c := 10) (by simp) _
      exact .lastMember hstring (skipWhitespace_cons (by decide)) (hskip.symm ▸ hv hdepth hhead)
        hend
    | cons m' ms =>
      have hrest := ih (List.cons_ne_nil m' ms) (fun e he => hname e (List.mem_cons_of_mem _ he))
        fun e he => h e (List.mem_cons_of_mem _ he)
      rw [commaBefore, List.isEmpty_cons, if_neg (by simp), List.cons_append, List.nil_append] at hu
      have hcomma : skipWhitespace u = u := by rw [hu, skipWhitespace_cons (by decide)]
      have hhead : ∀ c ∈ u.head?, isNumberByte c = false := by
        rw [hu]
        exact isNumberByte_of_head (by simp) _
      refine .member hstring (skipWhitespace_cons (by decide)) (hskip.symm ▸ hv hdepth hhead)
        (hcomma.trans hu) ?_
      rwa [skipWhitespace_spaceIf (by simp)]

/-- **The text of a value is derived in the grammar**, in either form. -/
theorem derives_text (format : Bool) (hv : v.Fits n) : ReadBack format n v := by
  induction hv with
  | null => exact fun _ _ => .null
  | bool b => exact fun _ _ => .bool b
  | number d =>
    intro depth k rest hdepth hrest
    rw [CJson.text, CJson.reread]
    split
    · next hfinite =>
      rw [numberText, if_pos hfinite]
      exact .null
    · next hfinite =>
      simp only [not_or, Bool.not_eq_true] at hfinite
      have hparse := parseNumber_numberText hfinite.1 hfinite.2 hrest
      obtain ⟨c, t, heq, hc⟩ :=
        exists_cons_of_isNumeral (isNumeral_numberText hfinite.1 hfinite.2)
      rw [heq, List.cons_append] at hparse ⊢
      exact .number hc hparse
  | string h => exact fun _ _ => .string (parseString_stringText h _)
  | @array n child h ih =>
    intro depth k rest hdepth hrest
    have hlt : depth < nestingLimit := by omega
    rw [CJson.text, CJson.reread, List.cons_append, List.append_assoc]
    cases child with
    | nil => exact .emptyArray hlt (skipWhitespace_cons (by decide))
    | cons v vs =>
      obtain ⟨c, t, hcons, hc, hne, -⟩ := exists_text_eq_cons format (k + 1) v
      have hlist : Derives .elements (depth + 1)
          (elementsText format (k + 1) (v :: vs) ++ 93 :: rest) (.array (rereadElements (v :: vs)))
          rest :=
        derives_elementsText (List.cons_ne_nil v vs) ih (by omega) rest
      rw [elementsText, hcons, List.cons_append, List.cons_append] at hlist ⊢
      exact .array hlt (skipWhitespace_cons hc) hne hlist
  | @object n child hname h ih =>
    intro depth k rest hdepth hrest
    have hlt : depth < nestingLimit := by omega
    rw [CJson.text, CJson.reread, List.cons_append, List.append_assoc, List.append_assoc,
      List.append_assoc]
    cases child with
    | nil =>
      refine .emptyObject hlt ?_
      rw [skipWhitespace_spaceIf (by simp), membersText, List.nil_append,
        skipWhitespace_spaceIf (tabs_le k), List.singleton_append, skipWhitespace_cons (by decide)]
    | cons m ms =>
      have hlist : Derives .members (depth + 1) (skipWhitespace (membersText format (k + 1)
          (m :: ms) ++ (spaceIf format (List.replicate k 9) ++ 125 :: rest)))
          (.object (rereadMembers (m :: ms))) rest :=
        derives_membersText (List.cons_ne_nil m ms) hname ih (by omega) (tabs_le k) rest
      obtain ⟨u, htext, -⟩ := skipWhitespace_membersText (k + 1)
        (spaceIf format (List.replicate k 9) ++ 125 :: rest)
      have hskip : skipWhitespace (spaceIf format [10] ++ (membersText format (k + 1) (m :: ms) ++
          (spaceIf format (List.replicate k 9) ++ ([125] ++ rest)))) = _ :=
        (skipWhitespace_spaceIf (by simp) format _).trans htext
      rw [htext] at hlist
      exact .object hlt hskip (by decide) hlist

end Values

/-! ### Whole texts -/

section Texts

variable {format : Bool} {n : ℕ} {v : CJson}

theorem zero_notMem_stringText {s : Bytes} (hs : 0 ∉ s) : 0 ∉ stringText s := by
  have hhex (k : ℕ) (hk : k < 16) : hexByte k ≠ 0 := by
    revert k
    decide
  have hbyte (c : UInt8) (hc : c ≠ 0) : 0 ∉ escapeByte c := by
    have hone := hhex (c.toNat / 16) (by have := c.toNat_lt; omega)
    have htwo := hhex (c.toNat % 16) (by omega)
    rw [escapeByte]
    split
    · simpa using hc.symm
    · rw [escapeLetters]
      split_ifs
      iterate 7 decide
      simp [hone.symm, htwo.symm]
  simp only [stringText, List.mem_cons, List.mem_append, List.mem_flatMap, not_or, not_exists,
    not_and]
  refine ⟨by decide, fun c hc => hbyte c ?_, by simp⟩
  rintro rfl
  exact hs hc

theorem zero_notMem_numberText (d : Double) : 0 ∉ numberText d := by
  by_cases hfinite : d.isNaN ∨ d.isInf
  · rw [numberText, if_pos hfinite]
    decide
  · simp only [not_or, Bool.not_eq_true] at hfinite
    exact fun hmem => absurd
      (isNumberByte_of_isNumeral (isNumeral_numberText hfinite.1 hfinite.2) 0 hmem) (by decide)

theorem zero_notMem_spaceIf {w : Bytes} (hw : 0 ∉ w) (format : Bool) : 0 ∉ spaceIf format w := by
  cases format with
  | false => simp [spaceIf]
  | true => exact hw

theorem zero_notMem_commaBefore {α : Type} {w : Bytes} (hw : 0 ∉ w) (l : List α) :
    0 ∉ commaBefore l w := by
  cases l with
  | nil => simp [commaBefore]
  | cons a l => simpa [commaBefore] using hw

theorem zero_notMem_tabs (depth : ℕ) : (0 : UInt8) ∉ List.replicate depth (9 : UInt8) := fun h =>
  absurd (List.eq_of_mem_replicate h) (by decide)

/-- The text of a value is a C string. -/
theorem zero_notMem_text (format : Bool) (hv : v.Fits n) (depth : ℕ) :
    0 ∉ v.text format depth := by
  induction hv generalizing depth with
  | null => exact (by decide : 0 ∉ ascii "null")
  | bool b =>
    cases b with
    | false => exact (by decide : 0 ∉ ascii "false")
    | true => exact (by decide : 0 ∉ ascii "true")
  | number d => exact zero_notMem_numberText d
  | string h => exact zero_notMem_stringText h
  | @array n child h ih =>
    have hall : 0 ∉ elementsText format (depth + 1) child := by
      induction child with
      | nil => simp [elementsText]
      | cons v vs ihs =>
        have hv := ih v List.mem_cons_self (depth + 1)
        have hvs := ihs (fun w hw => h w (List.mem_cons_of_mem v hw))
          fun w hw => ih w (List.mem_cons_of_mem v hw)
        have hcomma := zero_notMem_commaBefore
          (zero_notMem_spaceIf (w := [32]) (by decide) format) vs
        simp [elementsText, hv, hcomma, hvs]
    simp [CJson.text, hall]
  | @object n child hname h ih =>
    have hall : 0 ∉ membersText format (depth + 1) child := by
      induction child with
      | nil => simp [membersText]
      | cons m ms ihs =>
        obtain ⟨name, v⟩ := m
        have hv := ih (name, v) List.mem_cons_self (depth + 1)
        have hms := ihs (fun e he => hname e (List.mem_cons_of_mem _ he))
          (fun e he => h e (List.mem_cons_of_mem _ he))
          fun e he => ih e (List.mem_cons_of_mem _ he)
        have hcomma := zero_notMem_commaBefore (w := []) (by simp) ms
        have hstring := zero_notMem_stringText (hname (name, v) List.mem_cons_self)
        have htabs := zero_notMem_spaceIf (zero_notMem_tabs (depth + 1)) format
        have htab := zero_notMem_spaceIf (w := [9]) (by decide) format
        have hline := zero_notMem_spaceIf (w := [10]) (by decide) format
        simp [membersText, hv, hms, hcomma, hstring, htabs, htab, hline]
    have htabs := zero_notMem_spaceIf (zero_notMem_tabs depth) format
    have hline := zero_notMem_spaceIf (w := [10]) (by decide) format
    simp [CJson.text, hall, htabs, hline]

/-- **The text of a value is parsed**, and gives the value with every number read from its text. -/
theorem cJSONParse_text (format : Bool) (hv : v.Fits nestingLimit) :
    cJSONParse (v.text format 0) = some v.reread := by
  obtain ⟨c, t, hcons, hc, -, hascii⟩ := exists_text_eq_cons format 0 v
  have hderives : Derives .value 0 (v.text format 0 ++ []) v.reread [] :=
    derives_text format hv (by simp) (by simp)
  rw [List.append_nil] at hderives
  have hbom : skipUtf8Bom (v.text format 0) = v.text format 0 := by
    rw [skipUtf8Bom, if_neg]
    rintro ⟨-, hmark⟩
    have hhead : c = 0xEF := by
      rw [hcons] at hmark
      exact (List.cons_eq_cons.mp hmark).1
    rw [hhead] at hascii
    exact absurd hascii (by decide)
  rw [cJSONParse_eq_some_iff, cString_of_notMem (zero_notMem_text format hv 0), hbom]
  refine ⟨[], ?_⟩
  rwa [hcons, skipWhitespace_cons hc, ← hcons]

end Texts

end ModbusServer
