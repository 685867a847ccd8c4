import ModbusServer.Foundation.StrictJson
import ModbusServer.Json.Printed

/-!
# Printed objects as lines of JSON

A flat object that `printf` has written, with a newline behind it, is one line of JSON exactly if
each of its strings stands for itself: it is in UTF-8 and has no quotes, no backslashes and no
control characters. A string with a quote or a backslash can still give some JSON object; what is
lost then is the string itself (`not_special_of_parseString`).

## Main results

* `ModbusServer.isObjectLine_printObject_iff`: which printed objects are lines of JSON.
-/

namespace ModbusServer

open CText StrictJson

/-- The strings of a value. -/
def Scalar.strings : Scalar → List Bytes
  | text s => [s]
  | int _ => []

/-- The names and the strings of an object. -/
def objectStrings (ms : List (Bytes × Scalar)) : List Bytes :=
  ms.flatMap fun m => m.1 :: m.2.strings

@[simp] theorem objectStrings_cons (m : Bytes × Scalar) (ms : List (Bytes × Scalar)) :
    objectStrings (m :: ms) = m.1 :: (m.2.strings ++ objectStrings ms) := rfl

@[simp] theorem objectStrings_nil : objectStrings [] = [] := rfl

theorem mem_intText_range {v : ℤ} {c : UInt8} (h : c ∈ intText v) : 32 ≤ c ∧ c < 128 := by
  have hdigit {d : UInt8} (hd : isDigit d = true) : 32 ≤ d ∧ d < 128 := by
    simp only [isDigit, Bool.and_eq_true, decide_eq_true_eq] at hd
    exact ⟨UInt8.le_trans (by decide) hd.1, UInt8.lt_of_le_of_lt hd.2 (by decide)⟩
  rw [intText] at h
  split_ifs at h
  · rcases List.mem_cons.mp h with rfl | h
    · decide
    · exact hdigit (isDigit_of_mem_natText h)
  · exact hdigit (isDigit_of_mem_natText h)

section Machine

variable {v : Scalar} {name rest : Bytes} {brackets : List Bool} {place : Place} {c : UInt8}
  {ms : List (Bytes × Scalar)}

/-- The machine on the value of a member. -/
theorem run_print (brackets : List Bool) (h : ∀ s ∈ v.strings, NoSpecial s) : ∃ place,
    (place = .done ∨ place = .zero ∨ place = .whole) ∧
      run ⟨.value, brackets⟩ v.print =
        if ∀ s ∈ v.strings, NoControl s then some ⟨place, brackets⟩ else none := by
  cases v with
  | text s =>
    refine ⟨.done, .inl rfl, ?_⟩
    have hquote : step ⟨.value, brackets⟩ 34 = some ⟨.text false, brackets⟩ := rfl
    rw [Scalar.print, run_cons, hquote, Option.bind_some, run_append,
      run_text (h s (List.mem_singleton_self s))]
    by_cases hcontrol : NoControl s
    · rw [if_pos hcontrol, if_pos (by simpa [Scalar.strings] using hcontrol)]
      rfl
    · rw [if_neg hcontrol, if_neg (by simpa [Scalar.strings] using hcontrol)]
      rfl
  | int v =>
    obtain ⟨place, hplace, hrun⟩ := run_intText brackets v
    refine ⟨place, .inr hplace, ?_⟩
    rw [Scalar.print, hrun, if_pos (by simp [Scalar.strings])]

/-- The machine on a member and the byte behind it. -/
theorem run_member (hplace : place = .member ∨ place = .name) (hname : NoSpecial name)
    (hv : ∀ s ∈ v.strings, NoSpecial s) (hc : c = 44 ∨ c = 125) :
    run ⟨place, true :: brackets⟩ (34 :: (name ++ 34 :: 58 :: (v.print ++ c :: rest))) =
      if NoControl name ∧ ∀ s ∈ v.strings, NoControl s then
        (behind (true :: brackets) c).bind (run · rest)
      else none := by
  have hquote : step ⟨place, true :: brackets⟩ 34 = some ⟨.text true, true :: brackets⟩ := by
    rcases hplace with rfl | rfl <;> rfl
  have hcolon (t : Bytes) : run ⟨.text true, true :: brackets⟩ (34 :: 58 :: t) =
      run ⟨.value, true :: brackets⟩ t := rfl
  obtain ⟨place', hplace', hprint⟩ := run_print (true :: brackets) hv
  have hbehind : step ⟨place', true :: brackets⟩ c = behind (true :: brackets) c := by
    rcases hplace' with rfl | rfl | rfl <;> rcases hc with rfl | rfl <;> rfl
  rw [run_cons, hquote, Option.bind_some, run_append, run_text hname]
  by_cases hcontrol : NoControl name
  · rw [if_pos hcontrol, Option.bind_some, hcolon, run_append, hprint]
    by_cases hstrings : ∀ s ∈ v.strings, NoControl s
    · rw [if_pos hstrings, if_pos ⟨hcontrol, hstrings⟩, Option.bind_some, run_cons, hbehind]
    · rw [if_neg hstrings, if_neg fun h => hstrings h.2, Option.bind_none]
  · rw [if_neg hcontrol, if_neg fun h => hcontrol h.1, Option.bind_none]

/-- The machine on a printed object, from behind its opening brace or a comma. -/
theorem run_printMembers (hms : ms ≠ []) (h : ∀ s ∈ objectStrings ms, NoSpecial s)
    (hplace : place = .member ∨ place = .name) :
    run ⟨place, true :: brackets⟩ (printMembers ms) =
      if ∀ s ∈ objectStrings ms, NoControl s then some ⟨.done, brackets⟩ else none := by
  fun_induction printMembers ms generalizing place with
  | case1 => exact absurd rfl hms
  | case2 name v =>
    simp only [objectStrings_cons, objectStrings_nil, List.append_nil, List.forall_mem_cons] at h ⊢
    rw [run_member hplace h.1 h.2 (.inr rfl)]
    rfl
  | case3 name v m ms ih =>
    rw [objectStrings_cons, List.forall_mem_cons, List.forall_mem_append] at h
    obtain ⟨hname, hv, hrest⟩ := h
    have hcomma : behind (true :: brackets) 44 = some ⟨.name, true :: brackets⟩ := rfl
    have hall : (∀ s ∈ objectStrings ((name, v) :: m :: ms), NoControl s) ↔
        (NoControl name ∧ ∀ s ∈ v.strings, NoControl s) ∧
          ∀ s ∈ objectStrings (m :: ms), NoControl s := by
      rw [objectStrings_cons, List.forall_mem_cons, List.forall_mem_append, and_assoc]
    rw [run_member hplace hname hv (.inl rfl), hcomma, Option.bind_some,
      ih (List.cons_ne_nil m ms) hrest (.inr rfl), if_congr hall rfl rfl]
    exact (ite_and _ _ _ _).symm

theorem isUtf8_print_iff : IsUtf8 v.print ↔ ∀ s ∈ v.strings, IsUtf8 s := by
  cases v with
  | text s =>
    have hquote : (34 : UInt8) < 128 := by decide
    rw [Scalar.print, ← List.nil_append (34 :: (s ++ [34])), isUtf8_append_cons_iff hquote,
      isUtf8_append_cons_iff hquote]
    simp [Scalar.strings, isUtf8_nil]
  | int v =>
    exact iff_of_true (isUtf8_of_forall_lt fun c hc => (mem_intText_range hc).2)
      (by simp [Scalar.strings])

/-- A member and the ASCII byte behind it are in UTF-8 exactly if the strings are. -/
theorem isUtf8_member_iff (hc : c < 128) :
    IsUtf8 (34 :: (name ++ 34 :: 58 :: (v.print ++ c :: rest))) ↔
      IsUtf8 name ∧ (∀ s ∈ v.strings, IsUtf8 s) ∧ IsUtf8 rest := by
  have hquote : (34 : UInt8) < 128 := by decide
  have hcolon : (58 : UInt8) < 128 := by decide
  rw [← List.nil_append (34 :: (name ++ _)), isUtf8_append_cons_iff hquote,
    isUtf8_append_cons_iff hquote, ← List.nil_append (58 :: (v.print ++ _)),
    isUtf8_append_cons_iff hcolon, isUtf8_append_cons_iff hc, isUtf8_print_iff]
  simp [isUtf8_nil]

theorem isUtf8_printMembers_iff (hms : ms ≠ []) :
    IsUtf8 (printMembers ms) ↔ ∀ s ∈ objectStrings ms, IsUtf8 s := by
  fun_induction printMembers ms with
  | case1 => exact absurd rfl hms
  | case2 name v =>
    rw [isUtf8_member_iff (by decide)]
    simp [isUtf8_nil]
  | case3 name v m ms ih =>
    rw [isUtf8_member_iff (by decide), ih (List.cons_ne_nil m ms), objectStrings_cons (name, v),
      List.forall_mem_cons, List.forall_mem_append]

theorem noControl_printMembers (h : ∀ s ∈ objectStrings ms, NoControl s) :
    NoControl (printMembers ms) := by
  have hprint {v : Scalar} (h : ∀ s ∈ v.strings, NoControl s) : NoControl v.print := by
    cases v with
    | text s => simpa [Scalar.print, Scalar.strings] using h
    | int v => exact fun c hc => (mem_intText_range hc).1
  fun_induction printMembers ms with
  | case1 => simp [NoControl]
  | case2 name v =>
    simp only [objectStrings_cons, objectStrings_nil, List.append_nil, List.forall_mem_cons] at h
    simp [h.1, hprint h.2]
  | case3 name v m ms ih =>
    rw [objectStrings_cons, List.forall_mem_cons, List.forall_mem_append] at h
    simp [h.1, hprint h.2.1, ih h.2.2]

/-- **A printed object is JSON** exactly if its strings stand for themselves. -/
theorem isObjectLine_printObject_iff (hms : ms ≠ []) (h : ∀ s ∈ objectStrings ms, NoSpecial s) :
    IsObjectLine (printObject ms ++ [10]) ↔ ∀ s ∈ objectStrings ms, IsPlain s := by
  have hbrace : run {} (printObject ms) = run ⟨.member, [true]⟩ (printMembers ms) := rfl
  have hrun := hbrace.trans (run_printMembers hms h (.inl rfl))
  have hutf8 : IsUtf8 (printObject ms) ↔ ∀ s ∈ objectStrings ms, IsUtf8 s := by
    rw [printObject, ← List.nil_append (123 :: printMembers ms),
      isUtf8_append_cons_iff (by decide), isUtf8_printMembers_iff hms]
    simp [isUtf8_nil]
  constructor
  · rintro ⟨object, heq, -, hobject⟩
    obtain rfl : printObject ms = object := List.append_cancel_right heq
    have hcontrol : ∀ s ∈ objectStrings ms, NoControl s := by
      by_contra hcontrol
      rw [if_neg hcontrol, hobject.run_eq] at hrun
      simp at hrun
    exact fun s hs => ⟨hutf8.mp hobject.utf8 s hs, h s hs, hcontrol s hs⟩
  · intro hplain
    have hcontrol : ∀ s ∈ objectStrings ms, NoControl s := fun s hs => (hplain s hs).noControl
    refine ⟨printObject ms, rfl, ?_, hutf8.mpr fun s hs => (hplain s hs).utf8, rfl, ?_⟩
    · intro hmem
      rcases List.mem_cons.mp hmem with heq | hmem
      · exact absurd heq (by decide)
      · exact absurd (noControl_printMembers hcontrol 10 hmem) (by decide)
    · rw [hrun, if_pos hcontrol]

end Machine

end ModbusServer
