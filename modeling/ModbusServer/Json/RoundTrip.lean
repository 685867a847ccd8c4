import ModbusServer.Json.PrintBuffer

/-!
# Printing and parsing again

A value that has been parsed can be printed and parsed again. Whatever the allocator does and
whatever format is chosen, a text that `cJSON_Print` returns is parsed to a value of the same shape,
with the same strings and names in the same order. A finite number comes back as it is, or as a
number that `compare_double` takes for it; infinities and not-a-number come back as `null`. Values
whose numbers are of the type `int` come back unchanged.

Source: `cJSON/cJSON.c`, lines 537–612, 901–1027, 1185–1260 and 1366–1825.

## Main definitions

* `ModbusServer.CJson.ReadsAs`: how a value comes back.
* `ModbusServer.CJson.Integral`: values whose numbers are of the type `int`.

## Main results

* `ModbusServer.cJSONParse_cJSONPrint`: parsed values.
* `ModbusServer.cJSONParse_cJSONPrint_of_integral`: values with integers.
-/

namespace ModbusServer

open CText

/-- How a value comes back when it is printed and parsed. -/
inductive CJson.ReadsAs : CJson → CJson → Prop
  | null : ReadsAs .null .null
  | bool (b : Bool) : ReadsAs (.bool b) (.bool b)
  | number {d d' : Double} (hnan : d.isNaN = false) (hinf : d.isInf = false)
      (h : d' = d ∨ compareDouble d' d = true) : ReadsAs (.number d) (.number d')
  | notFinite {d : Double} (h : d.isNaN ∨ d.isInf) : ReadsAs (.number d) .null
  | string (s : Bytes) : ReadsAs (.string s) (.string s)
  | array {child child' : List CJson} (h : List.Forall₂ ReadsAs child child') :
      ReadsAs (.array child) (.array child')
  | object {child child' : List (Bytes × CJson)} (hname : child.map Prod.fst = child'.map Prod.fst)
      (h : List.Forall₂ ReadsAs (child.map Prod.snd) (child'.map Prod.snd)) :
      ReadsAs (.object child) (.object child')

/-- All numbers of the value are of the type `int`. -/
inductive CJson.Integral : CJson → Prop
  | null : Integral .null
  | bool (b : Bool) : Integral (.bool b)
  | number {v : ℤ} (h : CInt.IsInt v) : Integral (.number (Float.Model.ofInt v))
  | string (s : Bytes) : Integral (.string s)
  | array {child : List CJson} (h : ∀ v ∈ child, Integral v) : Integral (.array child)
  | object {child : List (Bytes × CJson)} (h : ∀ m ∈ child, Integral m.2) :
      Integral (.object child)

section RoundTrip

variable {n : ℕ} {v : CJson} {format : Bool} {reallocate : Reallocate} {text b : Bytes}

theorem forall₂_rereadElements {child : List CJson} (h : ∀ v ∈ child, v.ReadsAs v.reread) :
    List.Forall₂ CJson.ReadsAs child (rereadElements child) := by
  induction child with
  | nil => exact .nil
  | cons v vs ih =>
    rw [List.forall_mem_cons] at h
    exact .cons h.1 (ih h.2)

theorem map_fst_rereadMembers (child : List (Bytes × CJson)) :
    child.map Prod.fst = (rereadMembers child).map Prod.fst := by
  induction child with
  | nil => rfl
  | cons m ms ih => rw [rereadMembers, List.map_cons, List.map_cons, ih]

theorem map_snd_rereadMembers (child : List (Bytes × CJson)) :
    (rereadMembers child).map Prod.snd = rereadElements (child.map Prod.snd) := by
  induction child with
  | nil => rfl
  | cons m ms ih => rw [rereadMembers, List.map_cons, List.map_cons, rereadElements, ih]

/-- The value that is read from a text is of the shape of the value that was printed. -/
theorem CJson.Fits.readsAs_reread (hv : v.Fits n) : v.ReadsAs v.reread := by
  induction hv with
  | null => exact .null
  | bool b => exact .bool b
  | number d =>
    rw [reread]
    split
    · next hfinite => exact .notFinite hfinite
    · next hfinite =>
      simp only [not_or, Bool.not_eq_true] at hfinite
      exact .number hfinite.1 hfinite.2 (rereadNumber_spec hfinite.1 hfinite.2)
  | string h => exact .string _
  | array h ih => exact .array (forall₂_rereadElements ih)
  | object hname h ih =>
    refine .object (map_fst_rereadMembers _) ?_
    rw [map_snd_rereadMembers]
    refine forall₂_rereadElements fun v hv => ?_
    obtain ⟨m, hm, rfl⟩ := List.mem_map.mp hv
    exact ih m hm

theorem rereadElements_eq_self {child : List CJson} (h : ∀ v ∈ child, v.reread = v) :
    rereadElements child = child := by
  induction child with
  | nil => rfl
  | cons v vs ih =>
    rw [List.forall_mem_cons] at h
    rw [rereadElements, h.1, ih h.2]

theorem rereadMembers_eq_self {child : List (Bytes × CJson)} (h : ∀ m ∈ child, m.2.reread = m.2) :
    rereadMembers child = child := by
  induction child with
  | nil => rfl
  | cons m ms ih =>
    rw [List.forall_mem_cons] at h
    rw [rereadMembers, h.1, ih h.2]

/-- Integers are read back. -/
theorem CJson.Integral.reread_eq_self (hv : v.Integral) : v.reread = v := by
  induction hv with
  | null => rfl
  | bool b => rfl
  | @number v h =>
    have hfinite := isFinite_ofInt h
    rw [reread, if_neg (by simp [hfinite]), rereadNumber_ofInt h]
  | string s => rfl
  | array h ih => rw [reread, rereadElements_eq_self ih]
  | object h ih => rw [reread, rereadMembers_eq_self ih]

/-- What `cJSON_Print` returns is parsed. -/
theorem cJSONParse_of_cJSONPrint (hv : v.Fits nestingLimit)
    (hb : (cJSONPrint reallocate format v).1 = some b) : cJSONParse b = some v.reread := by
  have htext : cString b = cString (v.text format 0) := by
    rw [(cJSONPrint_spec hv format).2.1 b hb, cString_of_prefix (zero_notMem_text format hv 0)
      (List.prefix_refl _), cString_of_notMem (zero_notMem_text format hv 0)]
  rw [← cJSONParse_text format hv, cJSONParse, cJSONParse, htext]

/-- **Printing and parsing again.** Whatever `malloc` and `realloc` answer, a text that
`cJSON_Print` or `cJSON_PrintUnformatted` makes of a parsed value is parsed, and the value comes
back. -/
theorem cJSONParse_cJSONPrint (h : cJSONParse text = some v)
    (hb : (cJSONPrint reallocate format v).1 = some b) :
    ∃ w, cJSONParse b = some w ∧ v.ReadsAs w :=
  ⟨v.reread, cJSONParse_of_cJSONPrint (fits_of_cJSONParse h) hb,
    (fits_of_cJSONParse h).readsAs_reread⟩

/-- A tenth, between brackets. -/
def tenth : CJson := .array [.number (Float.Model.ofBits 0x3FB999999999999A)]

theorem cJSONParse_cJSONPrint_tenth :
    ∃ w, cJSONParse (ascii "[0.1]" ++ [0]) = some w ∧ tenth.ReadsAs w :=
  cJSONParse_cJSONPrint (show cJSONParse (ascii "[0.10]") = some tenth by rfl)
    (show (cJSONPrint (fun _ _ => some fun _ => 0) true tenth).1 = some _ by decide +kernel)

/-- **Integers survive printing.** A value within the nesting limit whose numbers are of the type
`int` comes back unchanged. -/
theorem cJSONParse_cJSONPrint_of_integral (hv : v.Fits nestingLimit) (hint : v.Integral)
    (hb : (cJSONPrint reallocate format v).1 = some b) : cJSONParse b = some v := by
  rw [cJSONParse_of_cJSONPrint hv hb, hint.reread_eq_self]

theorem cJSONParse_cJSONPrint_of_integral_two :
    cJSONParse (ascii "[1, \"a\"]" ++ [0]) =
      some (.array [.number (Float.Model.ofInt 1), .string (ascii "a")]) := by
  refine cJSONParse_cJSONPrint_of_integral (.array ?_) (.array ?_)
    (show (cJSONPrint (fun _ _ => some fun _ => 0) true _).1 = _ by decide +kernel)
  · rintro v (_ | ⟨_, _ | ⟨_, ⟨⟩⟩⟩)
    · exact .number _
    · exact .string (by decide)
  · rintro v (_ | ⟨_, _ | ⟨_, ⟨⟩⟩⟩)
    · exact .number (by decide)
    · exact .string _

end RoundTrip

end ModbusServer
