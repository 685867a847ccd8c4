import ModbusServer.Json.Printed

/-!
# Derivations of the parser

What the parser accepts, as a grammar: a derivation says that a text begins with a value, or with
the elements or the members of a list up to its closing bracket, and what text is behind it. The
parser finds a derivation whenever there is one, so that a property of everything it accepts is
proved by induction on derivations, without fuel.

Elements are recorded as an array and members as an object, so that one relation covers all three
parts of the grammar.

## Main definitions

* `ModbusServer.Derives`: the grammar.
* `ModbusServer.CJson.Fits`: values of bounded nesting whose strings are C strings.

## Main results

* `ModbusServer.parseValue_eq_some_iff`: the parser accepts what the grammar derives.
* `ModbusServer.Derives.fits`: what is derived is within the nesting limit.
* `ModbusServer.cJSONParse_grammar`: what `cJSON_Parse` accepts.
-/

namespace ModbusServer

open CText

/-- What is in front of the parser. -/
inductive Part
  | value
  | elements
  | members

/-- The grammar: `Derives part depth s v rest` if the text `s` begins with the value `v`, or with
its elements or members and the closing bracket, inside of `depth` brackets, and goes on with
`rest`. -/
inductive Derives : Part → ℕ → Bytes → CJson → Bytes → Prop
  | null {depth : ℕ} {rest : Bytes} : Derives .value depth (ascii "null" ++ rest) .null rest
  | bool {depth : ℕ} {rest : Bytes} (b : Bool) :
      Derives .value depth (ascii (if b then "true" else "false") ++ rest) (.bool b) rest
  | string {depth : ℕ} {s x rest : Bytes} (h : parseString (34 :: s) = some (x, rest)) :
      Derives .value depth (34 :: s) (.string x) rest
  | number {depth : ℕ} {c : UInt8} {s rest : Bytes} {d : Double} (hc : c = 45 ∨ isDigit c = true)
      (h : parseNumber (c :: s) = some (d, rest)) :
      Derives .value depth (c :: s) (.number d) rest
  | emptyArray {depth : ℕ} {s rest : Bytes} (hdepth : depth < nestingLimit)
      (h : skipWhitespace s = 93 :: rest) : Derives .value depth (91 :: s) (.array []) rest
  | array {depth : ℕ} {c : UInt8} {s t rest : Bytes} {l : List CJson}
      (hdepth : depth < nestingLimit) (h : skipWhitespace s = c :: t) (hc : c ≠ 93)
      (hl : Derives .elements (depth + 1) (c :: t) (.array l) rest) :
      Derives .value depth (91 :: s) (.array l) rest
  | emptyObject {depth : ℕ} {s rest : Bytes} (hdepth : depth < nestingLimit)
      (h : skipWhitespace s = 125 :: rest) : Derives .value depth (123 :: s) (.object []) rest
  | object {depth : ℕ} {c : UInt8} {s t rest : Bytes} {l : List (Bytes × CJson)}
      (hdepth : depth < nestingLimit) (h : skipWhitespace s = c :: t) (hc : c ≠ 125)
      (hl : Derives .members (depth + 1) (c :: t) (.object l) rest) :
      Derives .value depth (123 :: s) (.object l) rest
  | lastElement {depth : ℕ} {s t rest : Bytes} {v : CJson} (hv : Derives .value depth s v t)
      (h : skipWhitespace t = 93 :: rest) : Derives .elements depth s (.array [v]) rest
  | element {depth : ℕ} {s t u rest : Bytes} {v : CJson} {l : List CJson}
      (hv : Derives .value depth s v t) (h : skipWhitespace t = 44 :: u)
      (hl : Derives .elements depth (skipWhitespace u) (.array l) rest) :
      Derives .elements depth s (.array (v :: l)) rest
  | lastMember {depth : ℕ} {s t u w rest name : Bytes} {v : CJson}
      (hname : parseString s = some (name, t)) (hcolon : skipWhitespace t = 58 :: u)
      (hv : Derives .value depth (skipWhitespace u) v w) (h : skipWhitespace w = 125 :: rest) :
      Derives .members depth s (.object [(name, v)]) rest
  | member {depth : ℕ} {s t u w x rest name : Bytes} {v : CJson} {l : List (Bytes × CJson)}
      (hname : parseString s = some (name, t)) (hcolon : skipWhitespace t = 58 :: u)
      (hv : Derives .value depth (skipWhitespace u) v w) (h : skipWhitespace w = 44 :: x)
      (hl : Derives .members depth (skipWhitespace x) (.object l) rest) :
      Derives .members depth s (.object ((name, v) :: l)) rest

/-! ### What the parser accepts is derived -/

section Sound

variable {fuel depth : ℕ} {s rest : Bytes}

theorem derives_list {close bracket : UInt8} {α : Type} {loop : Bytes → Option (List α × Bytes)}
    {part : Part} {make : List α → CJson} {l : List α}
    (hempty : ∀ {s rest}, depth < nestingLimit → skipWhitespace s = close :: rest →
      Derives .value depth (bracket :: s) (make []) rest)
    (hlist : ∀ {c : UInt8} {s t rest l}, depth < nestingLimit → skipWhitespace s = c :: t →
      c ≠ close → Derives part (depth + 1) (c :: t) (make l) rest →
      Derives .value depth (bracket :: s) (make l) rest)
    (hloop : ∀ {s l rest}, loop s = some (l, rest) → Derives part (depth + 1) s (make l) rest)
    (h : enterList close loop depth s = some (l, rest)) :
    Derives .value depth (bracket :: s) (make l) rest := by
  rw [enterList] at h
  split at h
  · simp at h
  next hdepth =>
  have hlt : depth < nestingLimit := not_le.mp hdepth
  cases hw : skipWhitespace s with
  | nil => simp [hw] at h
  | cons c t =>
    rw [hw] at h
    simp only at h
    split_ifs at h with hc
    · obtain ⟨rfl, rfl⟩ := by simpa using h
      exact hempty hlt (hc ▸ hw)
    · exact hlist hlt hw hc (hloop h)

/-- What is accepted with some fuel is derived. -/
private theorem derives_aux (fuel : ℕ) :
    (∀ depth s v rest, parseValue fuel depth s = some (v, rest) →
      Derives .value depth s v rest) ∧
    (∀ depth s l rest, parseElements fuel depth s = some (l, rest) →
      Derives .elements depth s (.array l) rest) ∧
    (∀ depth s l rest, parseMembers fuel depth s = some (l, rest) →
      Derives .members depth s (.object l) rest) := by
  induction fuel with
  | zero => simp [parseValue, parseElements, parseMembers]
  | succ fuel ih =>
    obtain ⟨ihValue, ihElements, ihMembers⟩ := ih
    refine ⟨?value, ?elements, ?members⟩
    case value =>
      intro depth s v rest h
      have literal {p : Bytes} (hp : p.isPrefixOf s = true) : s = p ++ s.drop p.length :=
        (List.prefix_iff_eq_append.mp (List.isPrefixOf_iff_prefix.mp hp)).symm
      simp only [parseValue] at h
      split at h
      case isTrue hp =>
        obtain ⟨rfl, rfl⟩ := by simpa using h
        rw [literal hp]
        exact .null
      split at h
      case isTrue hp =>
        obtain ⟨rfl, rfl⟩ := by simpa using h
        rw [literal hp]
        exact .bool false
      split at h
      case isTrue hp =>
        obtain ⟨rfl, rfl⟩ := by simpa using h
        rw [literal hp]
        exact .bool true
      cases s with
      | nil => simp at h
      | cons c t =>
        simp only at h
        split at h
        case isTrue hc =>
          obtain ⟨x, hx, rfl⟩ := map_eq_some_rest.mp h
          subst hc
          exact .string hx
        split at h
        case isTrue hc =>
          obtain ⟨d, hd, rfl⟩ := map_eq_some_rest.mp h
          exact .number hc hd
        split at h
        case isTrue hc =>
          obtain ⟨l, hl, rfl⟩ := map_eq_some_rest.mp h
          subst hc
          exact derives_list .emptyArray .array (fun hloop => ihElements _ _ _ _ hloop) hl
        split at h
        case isTrue hc =>
          obtain ⟨l, hl, rfl⟩ := map_eq_some_rest.mp h
          subst hc
          exact derives_list .emptyObject .object (fun hloop => ihMembers _ _ _ _ hloop) hl
        · simp at h
    case elements =>
      intro depth s l rest h
      simp only [parseElements, Option.bind_eq_some_iff] at h
      obtain ⟨⟨v, t⟩, hv, h⟩ := h
      have hvalue := ihValue _ _ _ _ hv
      cases hw : skipWhitespace t with
      | nil => simp [hw] at h
      | cons c t' =>
        rw [hw] at h
        simp only at h
        split_ifs at h with hcomma hbracket
        · obtain ⟨l', hl, rfl⟩ := map_eq_some_rest.mp h
          exact .element hvalue (hcomma ▸ hw) (ihElements _ _ _ _ hl)
        · obtain ⟨rfl, rfl⟩ := by simpa using h
          exact .lastElement hvalue (hbracket ▸ hw)
    case members =>
      intro depth s l rest h
      simp only [parseMembers, Option.bind_eq_some_iff] at h
      obtain ⟨⟨name, t⟩, hname, h⟩ := h
      cases hw : skipWhitespace t with
      | nil => simp [hw] at h
      | cons c t' =>
        rw [hw] at h
        simp only at h
        split_ifs at h with hcolon
        obtain rfl : c = 58 := not_not.mp hcolon
        obtain ⟨⟨v, u⟩, hv, h⟩ := Option.bind_eq_some_iff.mp h
        have hvalue := ihValue _ _ _ _ hv
        cases hw' : skipWhitespace u with
        | nil => simp [hw'] at h
        | cons c u' =>
          rw [hw'] at h
          simp only at h
          split_ifs at h with hcomma hbrace
          · obtain ⟨l', hl, rfl⟩ := map_eq_some_rest.mp h
            exact .member hname hw hvalue (hcomma ▸ hw') (ihMembers _ _ _ _ hl)
          · obtain ⟨rfl, rfl⟩ := by simpa using h
            exact .lastMember hname hw hvalue (hbrace ▸ hw')

theorem derives_of_parseValue {v : CJson} (h : parseValue fuel depth s = some (v, rest)) :
    Derives .value depth s v rest :=
  (derives_aux fuel).1 depth s v rest h

end Sound

/-! ### What is derived is accepted -/

section Complete

variable {depth : ℕ} {s rest : Bytes} {v : CJson}

/-- The parser accepts a part of the grammar with all fuel that is enough for the text. -/
def Accepts : Part → ℕ → Bytes → CJson → Bytes → Prop
  | .value, depth, s, v, rest =>
    ∀ fuel, 2 * s.length < fuel → parseValue fuel depth s = some (v, rest)
  | .elements, depth, s, v, rest =>
    ∃ l, v = .array l ∧ ∀ fuel, 2 * s.length + 1 < fuel →
      parseElements fuel depth s = some (l, rest)
  | .members, depth, s, v, rest =>
    ∃ l, v = .object l ∧ ∀ fuel, 2 * s.length + 1 < fuel →
      parseMembers fuel depth s = some (l, rest)

theorem Accepts.length_lt (h : Accepts .value depth s v rest) : rest.length < s.length :=
  length_lt_of_parseValue (h _ (Nat.lt_succ_self _))

theorem exists_fuel_succ {n fuel : ℕ} (h : n < fuel) : ∃ f, fuel = f + 1 :=
  ⟨fuel - 1, by omega⟩

theorem parseValue_bracket {fuel : ℕ} : parseValue (fuel + 1) depth (91 :: s) =
    (enterList 93 (parseElements fuel (depth + 1)) depth s).map (Prod.map .array id) := by
  rw [parseValue]
  rfl

theorem enterList_nil {α : Type} {close : UInt8} {loop : Bytes → Option (List α × Bytes)}
    (hdepth : depth < nestingLimit) (h : skipWhitespace s = close :: rest) :
    enterList close loop depth s = some ([], rest) := by
  simp [enterList, not_le.mpr hdepth, h]

theorem enterList_cons {α : Type} {close c : UInt8} {t : Bytes}
    {loop : Bytes → Option (List α × Bytes)} (hdepth : depth < nestingLimit)
    (h : skipWhitespace s = c :: t) (hc : c ≠ close) :
    enterList close loop depth s = loop (c :: t) := by
  simp [enterList, not_le.mpr hdepth, h, hc]

/-- **The parser finds a derivation if there is one.** -/
theorem Derives.accepts {part : Part} (h : Derives part depth s v rest) :
    Accepts part depth s v rest := by
  induction h with
  | null =>
    intro fuel hfuel
    obtain ⟨fuel, rfl⟩ := exists_fuel_succ hfuel
    rw [parseValue.eq_def]
    rfl
  | bool b =>
    intro fuel hfuel
    obtain ⟨fuel, rfl⟩ := exists_fuel_succ hfuel
    rw [parseValue.eq_def]
    cases b <;> rfl
  | string h =>
    intro fuel hfuel
    obtain ⟨fuel, rfl⟩ := exists_fuel_succ hfuel
    rw [parseValue_quote, h]
    rfl
  | number hc h =>
    intro fuel hfuel
    obtain ⟨fuel, rfl⟩ := exists_fuel_succ hfuel
    rw [parseValue_number hc, h]
    rfl
  | emptyArray hdepth h =>
    intro fuel hfuel
    obtain ⟨fuel, rfl⟩ := exists_fuel_succ hfuel
    rw [parseValue_bracket, enterList_nil hdepth h]
    rfl
  | array hdepth h hc hl ih =>
    intro fuel hfuel
    obtain ⟨fuel, rfl⟩ := exists_fuel_succ hfuel
    obtain ⟨_, ⟨⟩, haccept⟩ := ih
    have hlen := length_cons_le_of_skipWhitespace h
    simp only [List.length_cons] at hfuel haccept
    rw [parseValue_bracket, enterList_cons hdepth h hc, haccept fuel (by omega)]
    rfl
  | emptyObject hdepth h =>
    intro fuel hfuel
    obtain ⟨fuel, rfl⟩ := exists_fuel_succ hfuel
    rw [parseValue_brace, enterList_nil hdepth h]
    rfl
  | object hdepth h hc hl ih =>
    intro fuel hfuel
    obtain ⟨fuel, rfl⟩ := exists_fuel_succ hfuel
    obtain ⟨_, ⟨⟩, haccept⟩ := ih
    have hlen := length_cons_le_of_skipWhitespace h
    simp only [List.length_cons] at hfuel haccept
    rw [parseValue_brace, enterList_cons hdepth h hc, haccept fuel (by omega)]
    rfl
  | lastElement hv h ih =>
    refine ⟨_, rfl, fun fuel hfuel => ?_⟩
    obtain ⟨fuel, rfl⟩ := exists_fuel_succ hfuel
    rw [parseElements, ih fuel (by omega), Option.bind_some]
    simp only [h]
    rfl
  | @element depth s t u rest v l hv h hl ih ih' =>
    obtain ⟨_, ⟨⟩, haccept⟩ := ih'
    refine ⟨_, rfl, fun fuel hfuel => ?_⟩
    obtain ⟨fuel, rfl⟩ := exists_fuel_succ hfuel
    have hlen := length_cons_le_of_skipWhitespace h
    have hskip := length_skipWhitespace_le u
    have hlt := ih.length_lt
    rw [parseElements, ih fuel (by omega), Option.bind_some]
    simp only [h, if_true, haccept fuel (by omega)]
    rfl
  | @lastMember depth s t u w rest name v hname hcolon hv h ih =>
    refine ⟨_, rfl, fun fuel hfuel => ?_⟩
    obtain ⟨fuel, rfl⟩ := exists_fuel_succ hfuel
    have hlt := length_lt_of_parseString hname
    have hlen := length_cons_le_of_skipWhitespace hcolon
    have hskip := length_skipWhitespace_le u
    rw [parseMembers, hname, Option.bind_some]
    simp only [hcolon, ne_eq, not_true_eq_false, if_false]
    rw [ih fuel (by omega), Option.bind_some]
    simp only [h]
    rfl
  | @member depth s t u w x rest name v l hname hcolon hv h hl ih ih' =>
    obtain ⟨_, ⟨⟩, haccept⟩ := ih'
    refine ⟨_, rfl, fun fuel hfuel => ?_⟩
    obtain ⟨fuel, rfl⟩ := exists_fuel_succ hfuel
    have hlt := length_lt_of_parseString hname
    have hlen := length_cons_le_of_skipWhitespace hcolon
    have hskip := length_skipWhitespace_le u
    have hlt' := ih.length_lt
    have hlen' := length_cons_le_of_skipWhitespace h
    have hskip' := length_skipWhitespace_le x
    rw [parseMembers, hname, Option.bind_some]
    simp only [hcolon, ne_eq, not_true_eq_false, if_false]
    rw [ih fuel (by omega), Option.bind_some]
    simp only [h, if_true, haccept fuel (by omega)]
    rfl

/-- **The parser and the grammar.** With enough fuel for the text, the parser accepts what is
derived, and nothing else. -/
theorem parseValue_eq_some_iff {fuel : ℕ} (hfuel : 2 * s.length < fuel) :
    parseValue fuel depth s = some (v, rest) ↔ Derives .value depth s v rest :=
  ⟨derives_of_parseValue, fun h => h.accepts fuel hfuel⟩

/-- `cJSON_Parse` gives the first value that the text begins with. -/
theorem cJSONParse_eq_some_iff {text : Bytes} :
    cJSONParse text = some v ↔
      ∃ rest, Derives .value 0 (skipWhitespace (skipUtf8Bom (cString text))) v rest := by
  rw [cJSONParse, Option.map_eq_some_iff]
  constructor
  · rintro ⟨⟨w, rest⟩, hw, rfl⟩
    exact ⟨rest, derives_of_parseValue hw⟩
  · rintro ⟨rest, h⟩
    exact ⟨(v, rest), h.accepts _ (Nat.lt_succ_self _), rfl⟩

end Complete

/-! ### The values that are derived -/

/-- The value has at most `n` levels of brackets, and its strings and names are C strings. -/
inductive CJson.Fits : ℕ → CJson → Prop
  | null {n : ℕ} : Fits n .null
  | bool {n : ℕ} (b : Bool) : Fits n (.bool b)
  | number {n : ℕ} (d : Double) : Fits n (.number d)
  | string {n : ℕ} {s : Bytes} (h : 0 ∉ s) : Fits n (.string s)
  | array {n : ℕ} {child : List CJson} (h : ∀ v ∈ child, Fits n v) : Fits (n + 1) (.array child)
  | object {n : ℕ} {child : List (Bytes × CJson)} (hname : ∀ m ∈ child, 0 ∉ m.1)
      (h : ∀ m ∈ child, Fits n m.2) : Fits (n + 1) (.object child)

section Fits

variable {depth : ℕ} {s rest : Bytes} {v : CJson}

/-- What a part of the grammar adds below the brackets that are open. -/
def FitsPart : Part → ℕ → CJson → Prop
  | .value, depth, v => v.Fits (nestingLimit - depth)
  | .elements, depth, v => ∃ l, v = .array l ∧ ∀ w ∈ l, w.Fits (nestingLimit - depth)
  | .members, depth, v =>
    ∃ l, v = .object l ∧ (∀ m ∈ l, 0 ∉ m.1) ∧ ∀ m ∈ l, m.2.Fits (nestingLimit - depth)

/-- **Derived values are within the limits of the parser.** -/
theorem Derives.fits {part : Part} (h : Derives part depth s v rest) : FitsPart part depth v := by
  have hlevel {depth : ℕ} (hdepth : depth < nestingLimit) :
      nestingLimit - depth = nestingLimit - (depth + 1) + 1 := by omega
  induction h with
  | null => exact .null
  | bool b => exact .bool b
  | string h => exact .string (zero_notMem_of_parseString h)
  | number hc h => exact .number _
  | emptyArray hdepth h =>
    rw [FitsPart, hlevel hdepth]
    exact .array (by simp)
  | array hdepth h hc hl ih =>
    obtain ⟨_, ⟨⟩, hfits⟩ := ih
    rw [FitsPart, hlevel hdepth]
    exact .array hfits
  | emptyObject hdepth h =>
    rw [FitsPart, hlevel hdepth]
    exact .object (by simp) (by simp)
  | object hdepth h hc hl ih =>
    obtain ⟨_, ⟨⟩, hname, hfits⟩ := ih
    rw [FitsPart, hlevel hdepth]
    exact .object hname hfits
  | lastElement hv h ih => exact ⟨_, rfl, by simpa [FitsPart] using ih⟩
  | element hv h hl ih ih' =>
    obtain ⟨_, ⟨⟩, hfits⟩ := ih'
    exact ⟨_, rfl, List.forall_mem_cons.mpr ⟨ih, hfits⟩⟩
  | lastMember hname hcolon hv h ih =>
    exact ⟨_, rfl, by simpa using zero_notMem_of_parseString hname, by simpa [FitsPart] using ih⟩
  | member hname hcolon hv h hl ih ih' =>
    obtain ⟨_, ⟨⟩, hnames, hfits⟩ := ih'
    exact ⟨_, rfl, List.forall_mem_cons.mpr ⟨zero_notMem_of_parseString hname, hnames⟩,
      List.forall_mem_cons.mpr ⟨ih, hfits⟩⟩

/-- A parsed value is within the nesting limit, and its strings are C strings. -/
theorem fits_of_cJSONParse {text : Bytes} (h : cJSONParse text = some v) :
    v.Fits nestingLimit := by
  obtain ⟨rest, hderives⟩ := cJSONParse_eq_some_iff.mp h
  exact hderives.fits

/-- **What `cJSON_Parse` accepts.** It gives the value that the grammar derives from the beginning
of the text, and fails if there is none. There is at most one such value, with one rest of the text,
and it is within the nesting limit. -/
theorem cJSONParse_grammar (text : Bytes) :
    (∀ v, cJSONParse text = some v ↔
      ∃ rest, Derives .value 0 (skipWhitespace (skipUtf8Bom (cString text))) v rest) ∧
    (∀ v v' rest rest', Derives .value 0 (skipWhitespace (skipUtf8Bom (cString text))) v rest →
      Derives .value 0 (skipWhitespace (skipUtf8Bom (cString text))) v' rest' →
      v = v' ∧ rest = rest') ∧
    ∀ v, cJSONParse text = some v → v.Fits nestingLimit := by
  refine ⟨fun v => cJSONParse_eq_some_iff, fun v v' rest rest' h h' => ?_,
    fun v => fits_of_cJSONParse⟩
  have hparse := (parseValue_eq_some_iff (Nat.lt_succ_self _)).mpr h
  rw [(parseValue_eq_some_iff (Nat.lt_succ_self _)).mpr h'] at hparse
  obtain ⟨rfl, rfl⟩ := Prod.mk.inj (Option.some.inj hparse)
  exact ⟨rfl, rfl⟩

end Fits

end ModbusServer
