import ModbusServer.Foundation.CharArray
import ModbusServer.Json.Grammar

/-!
# The strings of a text in full

`parse_string` gives a C string, which ends in front of the first zero character that an escape of
the literal stands for. What the text itself says is the whole string. So a member of the outermost
object is looked up in the text, and its literal is decoded with all its characters. What stands
behind the member need not be JSON.

## Main definitions

* `ModbusServer.decodeString`: the whole string of a literal.
* `ModbusServer.memberText`: where the value of a member begins.
* `ModbusServer.memberString`: the whole string of a member.

## Main results

* `ModbusServer.exists_memberString`: the string that `cJSON_Parse` gives is the beginning of the
  whole string, up to a zero character.
* `ModbusServer.memberString_eq_none`: a member that `cJSON_Parse` does not give is not found.
* `ModbusServer.memberString_of_first`: a first member that is printed as it stands.
-/

namespace ModbusServer

open CText

/-- The string of a literal, with the zero characters in it. -/
def decodeString : Bytes → Option Bytes
  | [] => none
  | c :: s =>
    if c ≠ 34 then none
    else (scanString s).bind fun (body, _) => unescape body.length body

/-- The text from the value of the first member with the name on, if the text begins with the
members of an object. -/
def memberText (name : Bytes) : ℕ → Bytes → Option Bytes
  | 0, _ => none
  | n + 1, s =>
    (parseString s).bind fun (name', t) =>
      match skipWhitespace t with
      | [] => none
      | c :: u =>
        if c ≠ 58 then none
        else if name' = name then some (skipWhitespace u)
        else
          let u := skipWhitespace u
          (parseValue (2 * u.length + 1) 1 u).bind fun (_, w) =>
            match skipWhitespace w with
            | [] => none
            | c :: x => if c = 44 then memberText name n (skipWhitespace x) else none

/-- The string of the first member with the name, if the text begins with an object. -/
def memberString (name text : Bytes) : Option Bytes :=
  match skipWhitespace (skipUtf8Bom (cString text)) with
  | [] => none
  | c :: s =>
    if c = 123 then (memberText name s.length (skipWhitespace s)).bind decodeString else none

/-- `\u0000` stands for a zero character. -/
example : memberString [97] (ascii "\x7b\"a\": \"b\\u0000c\"\x7d") = some [98, 0, 99] := by
  decide +kernel

section MemberStrings

variable {depth n : ℕ} {name s t rest v text : Bytes} {root : CJson} {child : List (Bytes × CJson)}

/-- `parse_string` cuts the string at its first zero character. -/
theorem exists_decodeString (h : parseString t = some (v, rest)) :
    ∃ s, decodeString t = some s ∧ cString s = v := by
  cases t with
  | nil => simp [parseString] at h
  | cons c t =>
    simp only [parseString] at h
    split at h
    · simp at h
    next hquote =>
      obtain ⟨⟨body, rest'⟩, hscan, hmap⟩ := Option.bind_eq_some_iff.mp h
      obtain ⟨s, hs, heq⟩ := Option.map_eq_some_iff.mp hmap
      obtain ⟨rfl, -⟩ := Prod.mk.inj heq
      exact ⟨s, by simpa [decodeString, hquote, hscan] using hs, rfl⟩

theorem decodeString_of_isVerbatim (h : IsVerbatim v) :
    decodeString (34 :: (v ++ 34 :: rest)) = some v := by
  have hscan : scanString (v ++ 34 :: rest) = some (v, rest) :=
    scanString_append fun c hc => ⟨(h c hc).1, (h c hc).2.1⟩
  have hunescape := unescape_of_notMem (fun hmem => (h 92 hmem).2.1 rfl) (le_refl v.length)
  simp [decodeString, hscan, hunescape]

/-- A string is derived from a literal. -/
theorem parseString_of_derives (h : Derives .value depth t (.string v) rest) :
    parseString t = some (v, rest) := by
  cases h with
  | string h => exact h

/-- The member that is found in the text is the one that is found among the members. -/
theorem memberText_of_derives (h : Derives .members 1 s (.object child) rest) (hn : s.length ≤ n) :
    Option.Rel (fun t x => ∃ u, Derives .value 1 t x u) (memberText name n s)
      ((child.find? (·.1 = name)).map Prod.snd) := by
  induction n generalizing s child with
  | zero =>
    obtain rfl : s = [] := List.length_eq_zero_iff.mp (Nat.le_zero.mp hn)
    cases h with
    | lastMember hname => simp [parseString] at hname
    | member hname => simp [parseString] at hname
  | succ n ih =>
    cases h with
    | @lastMember _ _ t u w _ name' v hname hcolon hv h =>
      by_cases heq : name' = name
      · simpa [memberText, hname, hcolon, heq] using ⟨w, hv⟩
      · have hvalue := (parseValue_eq_some_iff (Nat.lt_succ_self _)).mpr hv
        simp [memberText, hname, hcolon, heq, hvalue, h]
    | @member _ _ t u w y _ name' v l hname hcolon hv h hl =>
      by_cases heq : name' = name
      · simpa [memberText, hname, hcolon, heq] using ⟨w, hv⟩
      · -- the loop reads the value and goes on behind the comma
        have hvalue := (parseValue_eq_some_iff (Nat.lt_succ_self _)).mpr hv
        have hshort : (skipWhitespace y).length ≤ n := by
          have hlt := length_lt_of_parseString hname
          have hlen := length_cons_le_of_skipWhitespace hcolon
          have hskip := length_skipWhitespace_le u
          have hlt' := length_lt_of_parseValue hvalue
          have hlen' := length_cons_le_of_skipWhitespace h
          have hskip' := length_skipWhitespace_le y
          omega
        simpa [memberText, hname, hcolon, heq, hvalue, h] using ih hl hshort

/-- What is derived from a text that begins with an object. -/
theorem memberString_of_cJSONParse (hroot : cJSONParse text = some (.object child))
    (hchild : child ≠ []) : ∃ t, Option.Rel (fun t x => ∃ u, Derives .value 1 t x u) t
      ((child.find? (·.1 = name)).map Prod.snd) ∧ memberString name text = t.bind decodeString := by
  obtain ⟨rest, hderives⟩ := cJSONParse_eq_some_iff.mp hroot
  generalize hs : skipWhitespace (skipUtf8Bom (cString text)) = s at hderives
  cases hderives with
  | emptyObject hdepth hbrace => exact absurd rfl hchild
  | @object _ c s' t _ _ hdepth hskip hc hl =>
    rw [← hskip] at hl
    refine ⟨_, memberText_of_derives (n := s'.length) hl (length_skipWhitespace_le s'), ?_⟩
    simp [memberString, hs]

/-- **The strings of a text.** The string that `cJSON_Parse` gives for a member is the string of
the text up to its first zero character. -/
theorem exists_memberString (hroot : cJSONParse text = some root)
    (h : getObjectItemCaseSensitive root name = some (.string v)) :
    ∃ s, memberString name text = some s ∧ cString s = v := by
  cases root with
  | object child =>
    have hfind : (child.find? (·.1 = name)).map Prod.snd = some (.string v) := h
    have hchild : child ≠ [] := by
      rintro rfl
      simp at hfind
    obtain ⟨t, hrel, hstring⟩ := @memberString_of_cJSONParse name text child hroot hchild
    rw [hfind] at hrel
    cases hrel with
    | some hvalue =>
      obtain ⟨u, hderives⟩ := hvalue
      rw [hstring]
      exact exists_decodeString (parseString_of_derives hderives)
  | _ => simp [getObjectItemCaseSensitive] at h

/-- A member that the object does not have. -/
theorem memberString_eq_none (name : Bytes) (hroot : cJSONParse text = some (.object child))
    (hchild : child ≠ []) (h : ∀ m ∈ child, m.1 ≠ name) : memberString name text = none := by
  have hfind : (child.find? (·.1 = name)).map Prod.snd = none := by simpa using h
  obtain ⟨t, hrel, hstring⟩ := @memberString_of_cJSONParse name text child hroot hchild
  rw [hfind] at hrel
  cases hrel
  simpa using hstring

/-- The first member of a text that has been printed as it stands, whatever follows. -/
theorem memberString_of_first (hname : IsVerbatim name) (hv : IsVerbatim v) (rest : Bytes) :
    memberString name (123 :: 34 :: (name ++ 34 :: 58 :: 34 :: (v ++ 34 :: rest))) = some v := by
  have hzero {s : Bytes} (hs : IsVerbatim s) : 0 ∉ s := fun hmem => (hs 0 hmem).2.2 rfl
  have hstring : cString (123 :: 34 :: (name ++ 34 :: 58 :: 34 :: (v ++ 34 :: rest))) =
      123 :: 34 :: (name ++ 34 :: 58 :: 34 :: (v ++ 34 :: cString rest)) := by
    have hfront : 0 ∉ 123 :: 34 :: (name ++ 34 :: 58 :: 34 :: (v ++ [34])) := by
      simp [hzero hname, hzero hv]
    simpa using CharArray.cString_append hfront rest
  have hbom (s : Bytes) : skipUtf8Bom (123 :: s) = 123 :: s := if_neg (by simp)
  have hspace {c : UInt8} (hc : 32 < c) (s : Bytes) : skipWhitespace (c :: s) = c :: s :=
    skipWhitespace_cons hc
  rw [memberString, hstring, hbom, hspace (by decide)]
  simp only [if_true, List.length_cons, hspace (c := 34) (by decide)]
  rw [memberText, parseString_of_isVerbatim hname]
  simp [hspace (c := 58) (by decide), hspace (c := 34) (by decide), decodeString_of_isVerbatim hv]

end MemberStrings

end ModbusServer
