import ModbusServer.Json.Item

/-!
# The JSON parser

The recursive descent parser of cJSON, on the bytes of a C string. A position in the buffer is the
list of bytes from there to the terminating zero, which is not part of the list; reading at its end
is reading the zero byte, which matches nothing. Allocation is taken to succeed. The parser accepts
more than JSON: control characters in strings, escapes with invalid hexadecimal digits (read as
zero), every byte up to 32 as white space, and any text behind the first value.

Each recursive call reads at least one byte or enters a list, so twice the length of the text bounds
the depth of the calls; this bound is the fuel of the model (`parseValue_fuel`).

Source: `cJSON/cJSON.c`, lines 615–860, 1038–1195, 1312–1505 and 1601–1705.

## Main definitions

* `ModbusServer.utf16LiteralToUtf8`, `ModbusServer.parseString`.
* `ModbusServer.parseValue`: values, arrays and objects.
* `ModbusServer.cJSONParse`.

## Main results

* `ModbusServer.length_lt_of_parseValue`: a value takes at least one byte.
* `ModbusServer.parseValue_fuel`: the fuel never runs out.
-/

namespace ModbusServer

open CText

/-! ### Strings -/

/-- The value of a hexadecimal digit. -/
def hexDigit (c : UInt8) : Option ℕ :=
  if 48 ≤ c ∧ c ≤ 57 then some (c.toNat - 48)
  else if 65 ≤ c ∧ c ≤ 70 then some (10 + c.toNat - 65)
  else if 97 ≤ c ∧ c ≤ 102 then some (10 + c.toNat - 97)
  else none

/-- `parse_hex4`: the value of four hexadecimal digits, zero if one of them is invalid. -/
def parseHex4 (input : Bytes) : ℕ :=
  match (input.take 4).mapM hexDigit with
  | some ds => ds.foldl (fun h d => 16 * h + d) 0
  | none => 0

/-- The UTF-8 encoding of a code point. -/
def utf8Bytes (codepoint : ℕ) : Bytes :=
  let tail (k : ℕ) : UInt8 := (0x80 + codepoint / 64 ^ k % 64).toUInt8
  if codepoint < 0x80 then [codepoint.toUInt8]
  else if codepoint < 0x800 then [(0xC0 + codepoint / 64).toUInt8, tail 0]
  else if codepoint < 0x10000 then [(0xE0 + codepoint / 64 ^ 2).toUInt8, tail 1, tail 0]
  else [(0xF0 + codepoint / 64 ^ 3).toUInt8, tail 2, tail 1, tail 0]

/-- `utf16_literal_to_utf8` on the body of a string from a backslash on: the encoding of the escaped
character, and how many bytes its one or two escapes take. -/
def utf16LiteralToUtf8 (s : Bytes) : Option (Bytes × ℕ) :=
  if s.length < 6 then none
  else
    let first := parseHex4 (s.drop 2)
    if 0xDC00 ≤ first ∧ first ≤ 0xDFFF then none
    else if 0xD800 ≤ first ∧ first ≤ 0xDBFF then
      let s' := s.drop 6
      if s'.length < 6 ∨ s'.take 2 ≠ [92, 117] then none
      else
        let second := parseHex4 (s'.drop 2)
        if second < 0xDC00 ∨ 0xDFFF < second then none
        else some (utf8Bytes (0x10000 + (first % 0x400 * 0x400 + second % 0x400)), 12)
    else some (utf8Bytes first, 6)

/-- The bytes up to the closing quote of a string, and the text behind the quote. A backslash hides
the byte behind it. -/
def scanString : Bytes → Option (Bytes × Bytes)
  | [] => none
  | c :: s =>
    if c = 34 then some ([], s)
    else if c = 92 then
      match s with
      | [] => none
      | e :: s' => (scanString s').map (Prod.map (c :: e :: ·) id)
    else (scanString s).map (Prod.map (c :: ·) id)

/-- The byte a one-letter escape stands for. -/
def simpleEscape (c : UInt8) : Option UInt8 :=
  if c = 98 then some 8
  else if c = 102 then some 12
  else if c = 110 then some 10
  else if c = 114 then some 13
  else if c = 116 then some 9
  else if c = 34 ∨ c = 92 ∨ c = 47 then some c
  else none

/-- The second loop of `parse_string`: the body of a string with its escapes replaced. Every round
takes a byte, so the length of the body is enough fuel. A four-digit escape without four digits may
take the first half of a pair, and then a backslash can be left in front of the closing quote: the
loop takes that quote as the escaped byte. -/
def unescape : ℕ → Bytes → Option Bytes
  | _, [] => some []
  | 0, _ => none
  | n + 1, c :: s =>
    if c ≠ 92 then (unescape n s).map (c :: ·)
    else
      match s with
      | [] => some [34]
      | e :: s' =>
        if e = 117 then
          (utf16LiteralToUtf8 (c :: s)).bind fun (bytes, k) =>
            (unescape n ((c :: s).drop k)).map (bytes ++ ·)
        else
          (simpleEscape e).bind fun b => (unescape n s').map (b :: ·)

/-- `parse_string`: the C string of a string literal, and the text behind it. -/
def parseString : Bytes → Option (Bytes × Bytes)
  | [] => none
  | c :: s =>
    if c ≠ 34 then none
    else (scanString s).bind fun (body, rest) =>
      (unescape body.length body).map fun output => (cString output, rest)

/-! ### Values -/

/-- `CJSON_NESTING_LIMIT`. -/
def nestingLimit : ℕ := 1000

/-- `buffer_skip_whitespace`. -/
def skipWhitespace (s : Bytes) : Bytes :=
  s.dropWhile (· ≤ 32)

/-- `parse_array` and `parse_object` from behind the opening bracket: a nesting that is too deep is
an error, a closing bracket ends an empty list, and otherwise the loop reads the elements. -/
def enterList {α : Type} (close : UInt8) (loop : Bytes → Option (List α × Bytes)) (depth : ℕ)
    (s : Bytes) : Option (List α × Bytes) :=
  if nestingLimit ≤ depth then none
  else
    match skipWhitespace s with
    | [] => none
    | c :: t => if c = close then some ([], t) else loop (c :: t)

mutual

/-- `parse_value`: the value at the front of the text, and the text behind it. -/
def parseValue : ℕ → ℕ → Bytes → Option (CJson × Bytes)
  | 0, _, _ => none
  | fuel + 1, depth, s =>
    if (ascii "null").isPrefixOf s then some (.null, s.drop 4)
    else if (ascii "false").isPrefixOf s then some (.bool false, s.drop 5)
    else if (ascii "true").isPrefixOf s then some (.bool true, s.drop 4)
    else
      match s with
      | [] => none
      | c :: t =>
        if c = 34 then (parseString s).map (Prod.map .string id)
        else if c = 45 ∨ isDigit c then (parseNumber s).map (Prod.map .number id)
        else if c = 91 then
          (enterList 93 (parseElements fuel (depth + 1)) depth t).map (Prod.map .array id)
        else if c = 123 then
          (enterList 125 (parseMembers fuel (depth + 1)) depth t).map (Prod.map .object id)
        else none

/-- The loop of `parse_array`, from the front of an element. -/
def parseElements : ℕ → ℕ → Bytes → Option (List CJson × Bytes)
  | 0, _, _ => none
  | fuel + 1, depth, s =>
    (parseValue fuel depth s).bind fun (v, t) =>
      match skipWhitespace t with
      | [] => none
      | c :: t' =>
        if c = 44 then (parseElements fuel depth (skipWhitespace t')).map (Prod.map (v :: ·) id)
        else if c = 93 then some ([v], t')
        else none

/-- The loop of `parse_object`, from the front of a name. -/
def parseMembers : ℕ → ℕ → Bytes → Option (List (Bytes × CJson) × Bytes)
  | 0, _, _ => none
  | fuel + 1, depth, s =>
    (parseString s).bind fun (name, t) =>
      match skipWhitespace t with
      | [] => none
      | c :: t' =>
        if c ≠ 58 then none
        else (parseValue fuel depth (skipWhitespace t')).bind fun (v, u) =>
          match skipWhitespace u with
          | [] => none
          | c :: u' =>
            if c = 44 then (parseMembers fuel depth (skipWhitespace u')).map
              (Prod.map ((name, v) :: ·) id)
            else if c = 125 then some ([(name, v)], u')
            else none

end

/-- `skip_utf8_bom`: a byte order mark is skipped if a further byte follows it. -/
def skipUtf8Bom (s : Bytes) : Bytes :=
  if 4 ≤ s.length ∧ s.take 3 = [0xEF, 0xBB, 0xBF] then s.drop 3 else s

/-- `cJSON_Parse`: the first value of the text. -/
def cJSONParse (value : Bytes) : Option CJson :=
  let s := skipWhitespace (skipUtf8Bom (cString value))
  (parseValue (2 * s.length + 1) 0 s).map Prod.fst

/-! ### Lengths -/

theorem length_skipWhitespace_le (s : Bytes) : (skipWhitespace s).length ≤ s.length :=
  (List.dropWhile_sublist _).length_le

theorem map_eq_some_rest {α β : Type*} {x : Option (α × Bytes)} {g : α → β} {b : β} {rest : Bytes} :
    x.map (Prod.map g id) = some (b, rest) ↔ ∃ a, x = some (a, rest) ∧ g a = b := by
  rcases x with _ | ⟨a, r⟩
  · simp
  · simp [and_comm]

theorem length_lt_of_scanString {s body rest : Bytes} (h : scanString s = some (body, rest)) :
    rest.length < s.length := by
  fun_induction scanString s generalizing body rest with
  | case1 => simp at h
  | case2 s =>
    obtain ⟨-, rfl⟩ := by simpa using h
    simp
  | case3 => simp at h
  | case4 e s' hne ih =>
    obtain ⟨b, hb, -⟩ := map_eq_some_rest.mp h
    exact (ih hb).trans (by simp)
  | case5 c s hquote hslash ih =>
    obtain ⟨b, hb, -⟩ := map_eq_some_rest.mp h
    exact (ih hb).trans (by simp)

theorem length_lt_of_parseString {s v rest : Bytes} (h : parseString s = some (v, rest)) :
    rest.length < s.length := by
  cases s with
  | nil => simp [parseString] at h
  | cons c s =>
    simp only [parseString] at h
    split at h
    · simp at h
    · obtain ⟨⟨body, r⟩, hscan, hmap⟩ := Option.bind_eq_some_iff.mp h
      obtain ⟨out, -, heq⟩ := Option.map_eq_some_iff.mp hmap
      obtain ⟨-, rfl⟩ := Prod.mk.inj heq
      exact (length_lt_of_scanString hscan).trans (by simp)

theorem length_cons_le_of_skipWhitespace {s t : Bytes} {c : UInt8} (h : skipWhitespace s = c :: t) :
    t.length + 1 ≤ s.length := by
  simpa [h] using length_skipWhitespace_le s

theorem length_lt_of_enterList {α : Type} {close c : UInt8}
    {loop : Bytes → Option (List α × Bytes)} {depth : ℕ} {s rest : Bytes} {l : List α}
    (hloop : ∀ {s l rest}, loop s = some (l, rest) → rest.length < s.length)
    (h : enterList close loop depth s = some (l, rest)) : rest.length < (c :: s).length := by
  rw [enterList] at h
  split at h
  · simp at h
  cases hw : skipWhitespace s with
  | nil => simp [hw] at h
  | cons e t =>
    have hlen := length_cons_le_of_skipWhitespace hw
    rw [hw] at h
    simp only at h
    split_ifs at h
    · obtain ⟨-, rfl⟩ := by simpa using h
      simp only [List.length_cons]
      omega
    · have := hloop h
      simp only [List.length_cons] at this ⊢
      omega

/-- One call of each of the three functions takes at least one byte. -/
private theorem length_lt_aux (fuel : ℕ) :
    (∀ depth s v rest, parseValue fuel depth s = some (v, rest) → rest.length < s.length) ∧
    (∀ depth s l rest, parseElements fuel depth s = some (l, rest) → rest.length < s.length) ∧
    (∀ depth s l rest, parseMembers fuel depth s = some (l, rest) → rest.length < s.length) := by
  induction fuel with
  | zero => simp [parseValue, parseElements, parseMembers]
  | succ fuel ih =>
    obtain ⟨ihValue, ihElements, ihMembers⟩ := ih
    refine ⟨?value, ?elements, ?members⟩
    case value =>
      intro depth s v rest h
      have literal {p : Bytes} (hp : p.isPrefixOf s = true) (hne : p ≠ [])
          (hrest : s.drop p.length = rest) : rest.length < s.length := by
        have hle := (List.isPrefixOf_iff_prefix.mp hp).length_le
        have hpos := List.length_pos_iff.mpr hne
        rw [← hrest, List.length_drop]
        omega
      simp only [parseValue] at h
      split at h
      case isTrue hp => exact literal hp (by decide) (by injection h with h; injection h)
      split at h
      case isTrue hp => exact literal hp (by decide) (by injection h with h; injection h)
      split at h
      case isTrue hp => exact literal hp (by decide) (by injection h with h; injection h)
      cases s with
      | nil => simp at h
      | cons c t =>
        simp only at h
        split at h
        · obtain ⟨w, hw, -⟩ := map_eq_some_rest.mp h
          exact length_lt_of_parseString hw
        split at h
        · obtain ⟨d, hd, -⟩ := map_eq_some_rest.mp h
          exact length_lt_of_parseNumber hd
        split at h
        · obtain ⟨l, hl, -⟩ := map_eq_some_rest.mp h
          exact length_lt_of_enterList (fun hloop => ihElements _ _ _ _ hloop) hl
        split at h
        · obtain ⟨l, hl, -⟩ := map_eq_some_rest.mp h
          exact length_lt_of_enterList (fun hloop => ihMembers _ _ _ _ hloop) hl
        · simp at h
    case elements =>
      intro depth s l rest h
      simp only [parseElements, Option.bind_eq_some_iff] at h
      obtain ⟨⟨v, t⟩, hv, h⟩ := h
      have hvalue := ihValue _ _ _ _ hv
      cases hw : skipWhitespace t with
      | nil => simp [hw] at h
      | cons c t' =>
        have hlen := length_cons_le_of_skipWhitespace hw
        rw [hw] at h
        simp only at h
        split_ifs at h
        · obtain ⟨l', hl, -⟩ := map_eq_some_rest.mp h
          have hrest := ihElements _ _ _ _ hl
          have hskip := length_skipWhitespace_le t'
          omega
        · obtain ⟨-, rfl⟩ := by simpa using h
          omega
    case members =>
      intro depth s l rest h
      simp only [parseMembers, Option.bind_eq_some_iff] at h
      obtain ⟨⟨name, t⟩, hname, h⟩ := h
      have hstring := length_lt_of_parseString hname
      cases hw : skipWhitespace t with
      | nil => simp [hw] at h
      | cons c t' =>
        have hlen := length_cons_le_of_skipWhitespace hw
        rw [hw] at h
        simp only at h
        split_ifs at h
        obtain ⟨⟨v, u⟩, hv, h⟩ := Option.bind_eq_some_iff.mp h
        have hvalue := ihValue _ _ _ _ hv
        have hskip := length_skipWhitespace_le t'
        cases hw' : skipWhitespace u with
        | nil => simp [hw'] at h
        | cons c u' =>
          have hlen' := length_cons_le_of_skipWhitespace hw'
          rw [hw'] at h
          simp only at h
          split_ifs at h
          · obtain ⟨l', hl, -⟩ := map_eq_some_rest.mp h
            have hrest := ihMembers _ _ _ _ hl
            have hskip' := length_skipWhitespace_le u'
            omega
          · obtain ⟨-, rfl⟩ := by simpa using h
            omega

/-- **A value takes at least one byte.** -/
theorem length_lt_of_parseValue {fuel depth : ℕ} {s rest : Bytes} {v : CJson}
    (h : parseValue fuel depth s = some (v, rest)) : rest.length < s.length :=
  (length_lt_aux fuel).1 depth s v rest h

/-! ### Fuel -/

theorem enterList_congr {α : Type} {close : UInt8} {loop loop' : Bytes → Option (List α × Bytes)}
    {depth : ℕ} {s : Bytes} (h : ∀ t, t.length ≤ s.length → loop t = loop' t) :
    enterList close loop depth s = enterList close loop' depth s := by
  rw [enterList, enterList]
  split
  · rfl
  cases hw : skipWhitespace s with
  | nil => rfl
  | cons c t => simp only [h (c :: t) (length_cons_le_of_skipWhitespace hw)]

/-- Two amounts of fuel that are enough for a text give the same results on it. -/
private theorem fuel_aux (fuel : ℕ) :
    ∀ fuel' : ℕ,
      (∀ depth s, 2 * s.length < fuel → 2 * s.length < fuel' →
        parseValue fuel depth s = parseValue fuel' depth s) ∧
      (∀ depth s, 2 * s.length + 1 < fuel → 2 * s.length + 1 < fuel' →
        parseElements fuel depth s = parseElements fuel' depth s) ∧
      (∀ depth s, 2 * s.length + 1 < fuel → 2 * s.length + 1 < fuel' →
        parseMembers fuel depth s = parseMembers fuel' depth s) := by
  induction fuel with
  | zero => simp
  | succ fuel ih =>
    rintro (_ | fuel')
    · simp
    obtain ⟨ihValue, ihElements, ihMembers⟩ := ih fuel'
    refine ⟨?value, ?elements, ?members⟩
    case value =>
      intro depth s h h'
      cases s with
      | nil => simp only [parseValue]
      | cons c t =>
        rw [List.length_cons] at h h'
        have helements : enterList 93 (parseElements fuel (depth + 1)) depth t =
            enterList 93 (parseElements fuel' (depth + 1)) depth t :=
          enterList_congr fun u hu => ihElements _ u (by omega) (by omega)
        have hmembers : enterList 125 (parseMembers fuel (depth + 1)) depth t =
            enterList 125 (parseMembers fuel' (depth + 1)) depth t :=
          enterList_congr fun u hu => ihMembers _ u (by omega) (by omega)
        simp only [parseValue, helements, hmembers]
    case elements =>
      intro depth s h h'
      simp only [parseElements]
      rw [ihValue depth s (by omega) (by omega)]
      refine Option.bind_congr fun ⟨v, t⟩ hv => ?_
      have hvalue := length_lt_of_parseValue hv
      cases hw : skipWhitespace t with
      | nil => rfl
      | cons c t' =>
        have hlen := length_cons_le_of_skipWhitespace hw
        have hskip := length_skipWhitespace_le t'
        simp only [ihElements depth (skipWhitespace t') (by omega) (by omega)]
    case members =>
      intro depth s h h'
      simp only [parseMembers]
      refine Option.bind_congr fun ⟨name, t⟩ hname => ?_
      have hstring := length_lt_of_parseString hname
      cases hw : skipWhitespace t with
      | nil => rfl
      | cons c t' =>
        have hlen := length_cons_le_of_skipWhitespace hw
        have hskip := length_skipWhitespace_le t'
        simp only
        split
        · rfl
        rw [ihValue depth (skipWhitespace t') (by omega) (by omega)]
        refine Option.bind_congr fun ⟨v, u⟩ hv => ?_
        have hvalue := length_lt_of_parseValue hv
        cases hw' : skipWhitespace u with
        | nil => rfl
        | cons c' u' =>
          have hlen' := length_cons_le_of_skipWhitespace hw'
          have hskip' := length_skipWhitespace_le u'
          simp only [ihMembers depth (skipWhitespace u') (by omega) (by omega)]

/-- **The fuel never runs out.** Any fuel above twice the length of the text gives the result that
`cJSONParse` works with. -/
theorem parseValue_fuel {fuel depth : ℕ} {s : Bytes} (h : 2 * s.length < fuel) :
    parseValue fuel depth s = parseValue (2 * s.length + 1) depth s :=
  (fuel_aux fuel _).1 depth s h (Nat.lt_succ_self _)

example : ((cJSONParse (ascii "\x7b\"a\": [1, \"\\u0041\\n\"], \"b\": true\x7d x")).bind
    (getObjectItemCaseSensitive · (ascii "b"))).map CJson.valueint = some 1 := by
  decide +kernel

end ModbusServer
