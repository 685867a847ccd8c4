import ModbusServer.Server.Stdin

/-!
# The reader of the standard input

`platform_read_stdin` asks whether the standard input is readable, and if it is reads one text with
`fgets`. It returns the length of the text as a string, so a zero byte in it shortens the count. The
end of the input and a failed read make `fgets` return a null pointer: the version for Windows
returns -1 then, the version for POSIX looks at the result of `select` once more, and returns 0.
`select` asks the kernel only, so it does not see the lines that the library has read ahead, and
`_kbhit` asks the console, whatever the standard input is. So the two versions agree only where
`_kbhit` happens to tell what `select` tells.

Source: `src/utils/platform.c`, lines 26–37 and 71–90; `src/utils/platform.h`, lines 53–60.

## Main definitions

* `ModbusServer.ReadCall`: a call, and what happens on the input meanwhile.
* `ModbusServer.Posix.platformReadStdin`, `ModbusServer.Windows.platformReadStdin`.
* `ModbusServer.Classified`: the value returned tells what the call has done.
* `ModbusServer.ReadCall.Plain`: the calls for which it does.

## Main results

* `ModbusServer.ReadCall.classified_iff`: these are exactly the calls for which it does.
* `ModbusServer.classified_run_iff`: the runs all of whose calls are of this kind.
* `ModbusServer.not_classified`: not all runs are of this kind.
-/

namespace ModbusServer

open CText

/-! ### The calls -/

/-- A call of `platform_read_stdin` with a buffer of `size` bytes. The arrivals `before` happen
until it knows whether the input is readable, which it may fail to find out; the arrivals `waiting`
happen while `fgets` waits for a byte. If all of them have happened and `fgets` needs another byte,
it waits for ever, or gets a read error. On Windows `_kbhit` gives `kbhit`: whether there is a key
stroke at the console, which says nothing about an input that comes from elsewhere. -/
structure ReadCall where
  size : ℕ
  before : List Arrival := []
  selectFails : Bool := false
  kbhit : Bool := false
  waiting : List Arrival := []
  readError : Bool := false
  two_le_size : 2 ≤ size := by decide

/-- What a call leaves: its value, the bytes at the front of `buf`, and the input. -/
structure ReadResult where
  rc : ℤ
  buf : Bytes := []
  stdin : Stdin

namespace ReadCall

variable (call : ReadCall) (s : Stdin)

/-- The size, converted to the `int` that `fgets` takes. -/
def intSize : ℤ := (call.size : ℤ).bmod (2 ^ 32)

/-- The input when the call knows whether it is readable. -/
def arrivals : Stdin := call.before.foldl Stdin.arrive s

/-- The value of `select`: an input with a pending error is readable, too. -/
def select : ℤ :=
  if call.selectFails then -1
  else if s.readable || (call.readError && call.waiting.isEmpty) then 1
  else 0

/-- `fgets(buf, size, stdin)`: the text or a null pointer, or a call that does not return. -/
def fgets : Option (Option Bytes × Stdin) :=
  if call.intSize ≤ 0 then some (none, s)
  else
    match Stdin.fgetsLoop (call.intSize - 1).toNat [] s call.waiting with
    | .line text s => some (some text, s)
    | .eof s => some (none, s)
    | .blocked =>
      if call.readError then
        some (none, { call.waiting.foldl Stdin.arrive s with buffer := [], kernel := [] })
      else none

end ReadCall

/-- `platform_read_stdin` for POSIX. -/
def Posix.platformReadStdin (call : ReadCall) (s : Stdin) : Option ReadResult :=
  let s := call.arrivals s
  let ret := call.select s
  if 0 < ret then
    match call.fgets s with
    | some (some text, s) => some { rc := (cString text).length, buf := text ++ [0], stdin := s }
    | some (none, s) => some { rc := if ret < 0 then -1 else 0, stdin := s }
    | none => none
  else some { rc := if ret < 0 then -1 else 0, stdin := s }

/-- `platform_read_stdin` for Windows. -/
def Windows.platformReadStdin (call : ReadCall) (s : Stdin) : Option ReadResult :=
  let s := call.arrivals s
  if call.kbhit then
    match call.fgets s with
    | some (some text, s) => some { rc := (cString text).length, buf := text ++ [0], stdin := s }
    | some (none, s) => some { rc := -1, stdin := s }
    | none => none
  else some { rc := 0, stdin := s }

/-! ### The classification -/

/-- The bytes that have been taken from the input between two states. -/
def Takes (s s' : Stdin) (taken : Bytes) : Prop :=
  ∃ more, s'.arrived = s.arrived ++ more ∧ s.unread ++ more = taken ++ s'.unread

namespace ReadCall

variable (call : ReadCall) (s : Stdin)

/-- `fgets` is called, and the read error comes before the first piece is complete. -/
structure ReadFails : Prop where
  error : call.readError = true
  ready : 0 < call.select s
  one_lt : 1 < call.intSize
  not_complete : ¬Lines.Complete 10 (call.intSize - 1).toNat (s.stream call.waiting)
  opened : Stdin.closes s.closed call.waiting = false

end ReadCall

/-- The value of the call tells what it has done. It is positive only if as many bytes have been
taken and stand in the buffer. It is 0 only if nothing has been taken, the input is not at its end,
and no line is complete in the bytes that had arrived. It is -1 exactly at the end of the input, or
if `select` or a read fails. Unless `select` fails, the call returns the same value on Windows, and
leaves the same input. -/
structure Classified (call : ReadCall) (s : Stdin) (r : ReadResult) : Prop where
  positive : 0 < r.rc → ∃ taken, Takes (call.arrivals s) r.stdin taken ∧
    (taken.length : ℤ) = r.rc ∧ r.buf = taken ++ [0]
  zero : r.rc = 0 → Takes (call.arrivals s) r.stdin [] ∧ ¬(call.arrivals s).AtEnd ∧
    10 ∉ (call.arrivals s).unread
  negative : r.rc = -1 ↔ call.selectFails = true ∨ (call.arrivals s).AtEnd ∨
    call.ReadFails (call.arrivals s)
  same : call.selectFails = false → ∃ r', Windows.platformReadStdin call s = some r' ∧
    r'.rc = r.rc ∧ r'.stdin = r.stdin

/-- A call that returns classifies what it has done. -/
def Classifies (s? : Option Stdin) (call : ReadCall) : Prop :=
  ∀ s r, s? = some s → Posix.platformReadStdin call s = some r → Classified call s r

/-- The input behind a call, if it returns. -/
def readStep (s? : Option Stdin) (call : ReadCall) : Option Stdin :=
  s?.bind fun s => (Posix.platformReadStdin call s).map ReadResult.stdin

/-! ### The condition -/

/-- `select` fails; or the input is readable, not at its end, no read fails, and if a piece is read,
then it is a string without a zero byte and `_kbhit` has been true; or no piece can be read, because
the input is not readable or the size is less than two as an `int`, no line is in the buffer of the
library or the kernel, and `_kbhit` is false, unless the size is one. -/
structure ReadCall.Plain (call : ReadCall) (s : Stdin) : Prop where
  not_atEnd : 0 < call.select s → ¬s.AtEnd
  not_fails : ¬call.ReadFails s
  idle : call.select s = 0 ∨ 0 < call.select s ∧ call.intSize ≤ 1 →
    10 ∉ s.unread ∧ (call.intSize ≠ 1 → call.kbhit = false)
  text : 0 < call.select s → 1 < call.intSize →
    Lines.Complete 10 (call.intSize - 1).toNat (s.stream call.waiting) ∨
      Stdin.closes s.closed call.waiting = true →
    0 ∉ Lines.firstPiece 10 (call.intSize - 1).toNat (s.stream call.waiting) ∧ call.kbhit = true

/-! ### What is taken -/

section Takes

variable {s s' : Stdin} {t t' : Bytes}

theorem takes_nil (s : Stdin) : Takes s s [] := ⟨[], by simp, by simp⟩

theorem Takes.unique (h : Takes s s' t) (h' : Takes s s' t') : t = t' := by
  obtain ⟨more, harrived, htaken⟩ := h
  obtain ⟨more', harrived', htaken'⟩ := h'
  rw [harrived, List.append_cancel_left_eq] at harrived'
  rw [← harrived', htaken, List.append_cancel_right_eq] at htaken'
  exact htaken'

theorem takes_of_reads {n : ℕ} {waiting : List Arrival} {more : Bytes}
    (h : Stdin.Reads n s waiting t s' more) : Takes s s' t :=
  ⟨more, h.arrived_eq, by simpa [Stdin.unread] using h.stream_eq⟩

theorem Stdin.AtEnd.stream (h : s.AtEnd) (waiting : List Arrival) :
    s.stream waiting = [] ∧ Stdin.closes s.closed waiting = true := by
  simp [Stdin.stream, h.unread, h.closed, Stdin.accepted, Stdin.closes]

/-- There is room for a byte, and there is one. -/
theorem firstPiece_ne_nil {size : ℤ} {stream : Bytes} (hsize : 1 < size) (h : stream ≠ []) :
    Lines.firstPiece 10 (size - 1).toNat stream ≠ [] := fun hnil => by
  rcases Lines.firstPiece_eq_nil_iff.mp hnil with hroom | hstream
  · omega
  · exact h hstream

end Takes

/-! ### The outcomes of `fgets` -/

namespace ReadCall

variable {call : ReadCall} {s : Stdin}

/-- The outcomes of `fgets`, by the size and the stream. -/
inductive FgetsOutcome (call : ReadCall) (s : Stdin) : Option (Option Bytes × Stdin) → Prop
  | refused (hsize : call.intSize ≤ 0) : FgetsOutcome call s (some (none, s))
  | empty (hsize : call.intSize = 1) : FgetsOutcome call s (some (some [], s))
  | line (s' : Stdin) (hsize : 1 < call.intSize) (hne : s.stream call.waiting ≠ [])
      (htakes : Takes s s'
        (Lines.firstPiece 10 (call.intSize - 1).toNat (s.stream call.waiting)))
      (hend : Lines.Complete 10 (call.intSize - 1).toNat (s.stream call.waiting) ∨
        Stdin.closes s.closed call.waiting = true) :
      FgetsOutcome call s
        (some (some (Lines.firstPiece 10 (call.intSize - 1).toNat (s.stream call.waiting)), s'))
  | eof (s' : Stdin) (hsize : 1 < call.intSize) (hstream : s.stream call.waiting = [])
      (hcloses : Stdin.closes s.closed call.waiting = true) :
      FgetsOutcome call s (some (none, s'))
  | error (s' : Stdin) (hsize : 1 < call.intSize) (herror : call.readError = true)
      (hcomplete : ¬Lines.Complete 10 (call.intSize - 1).toNat (s.stream call.waiting))
      (hopen : Stdin.closes s.closed call.waiting = false) :
      FgetsOutcome call s (some (none, s'))
  | blocked (hsize : 1 < call.intSize) (herror : call.readError = false)
      (hcomplete : ¬Lines.Complete 10 (call.intSize - 1).toNat (s.stream call.waiting))
      (hopen : Stdin.closes s.closed call.waiting = false) : FgetsOutcome call s none

theorem fgets_outcome (call : ReadCall) (s : Stdin) : FgetsOutcome call s (call.fgets s) := by
  rw [fgets]
  by_cases hrefused : call.intSize ≤ 0
  · rw [if_pos hrefused]
    exact .refused hrefused
  rw [if_neg hrefused]
  by_cases hone : call.intSize = 1
  · have hroom : (call.intSize - 1).toNat = 0 := by omega
    simp only [hroom, Stdin.fgetsLoop]
    exact .empty hone
  have hsize : 1 < call.intSize := by omega
  have hroom : (call.intSize - 1).toNat ≠ 0 := by omega
  cases hloop : Stdin.fgetsLoop (call.intSize - 1).toNat [] s call.waiting with
  | line text s' =>
    obtain ⟨x, more, htext, hreads, hne⟩ := Stdin.fgetsLoop_line hloop
    obtain ⟨hpiece, hend⟩ := Stdin.fgetsLoop_line_eq hloop
    rw [List.nil_append] at htext hpiece
    rw [← htext, hpiece] at hreads hne
    rw [hpiece]
    refine .line s' hsize (fun hnil => hne hroom rfl ?_) (takes_of_reads hreads) hend
    exact Lines.firstPiece_eq_nil_iff.mpr (.inr hnil)
  | eof s' =>
    obtain ⟨hstream, hcloses⟩ := Stdin.fgetsLoop_eof_eq hloop
    exact .eof s' hsize hstream hcloses
  | blocked =>
    obtain ⟨hcomplete, hopen⟩ := Stdin.fgetsLoop_blocked_eq hloop
    cases herror : call.readError with
    | true => exact .error _ hsize herror hcomplete hopen
    | false => exact .blocked hsize herror hcomplete hopen

/-- What `select` returns, and when. -/
theorem select_cases (call : ReadCall) (s : Stdin) :
    (call.selectFails = true ∧ call.select s = -1) ∨
    (call.selectFails = false ∧ call.select s = 0 ∧ s.closed = false) ∨
    (call.selectFails = false ∧ call.select s = 1) := by
  rw [select]
  cases call.selectFails with
  | true => exact .inl ⟨rfl, rfl⟩
  | false =>
    right
    by_cases hready : (s.readable || (call.readError && call.waiting.isEmpty)) = true
    · simp [hready]
    · simp only [Bool.or_eq_true, not_or, Stdin.readable, Bool.not_eq_true] at hready
      simp [Stdin.readable, hready]

end ReadCall

/-! ### The calls that are classified -/

section Calls

variable {call : ReadCall} {s : Stdin}

/-- Without a text the value is -1 if `select` fails, and 0 otherwise. -/
theorem posix_of_select_nonpos (h : call.select (call.arrivals s) ≤ 0) :
    Posix.platformReadStdin call s =
      some { rc := if call.select (call.arrivals s) < 0 then -1 else 0,
             stdin := call.arrivals s } := by
  rw [Posix.platformReadStdin]
  exact if_neg (not_lt.mpr h)

/-- A call with an input that is readable. -/
theorem posix_of_ready (h : call.select (call.arrivals s) = 1) :
    (∀ text s', call.fgets (call.arrivals s) = some (some text, s') →
      Posix.platformReadStdin call s =
        some { rc := (cString text).length, buf := text ++ [0], stdin := s' }) ∧
    (∀ s', call.fgets (call.arrivals s) = some (none, s') →
      Posix.platformReadStdin call s = some { rc := 0, stdin := s' }) ∧
    (call.fgets (call.arrivals s) = none → Posix.platformReadStdin call s = none) := by
  refine ⟨fun text s' hfgets => ?_, fun s' hfgets => ?_, fun hfgets => ?_⟩
  · simp [Posix.platformReadStdin, h, hfgets]
  · simp [Posix.platformReadStdin, h, hfgets]
  · simp [Posix.platformReadStdin, h, hfgets]

/-- A call for Windows at a key stroke. -/
theorem windows_of_kbhit (h : call.kbhit = true) :
    (∀ text s', call.fgets (call.arrivals s) = some (some text, s') →
      Windows.platformReadStdin call s =
        some { rc := (cString text).length, buf := text ++ [0], stdin := s' }) ∧
    (∀ s', call.fgets (call.arrivals s) = some (none, s') →
      Windows.platformReadStdin call s = some { rc := -1, stdin := s' }) ∧
    (call.fgets (call.arrivals s) = none → Windows.platformReadStdin call s = none) := by
  refine ⟨fun text s' hfgets => ?_, fun s' hfgets => ?_, fun hfgets => ?_⟩
  · simp [Windows.platformReadStdin, h, hfgets]
  · simp [Windows.platformReadStdin, h, hfgets]
  · simp [Windows.platformReadStdin, h, hfgets]

theorem windows_of_not_kbhit (h : call.kbhit = false) :
    Windows.platformReadStdin call s = some { rc := 0, stdin := call.arrivals s } := by
  simp [Windows.platformReadStdin, h]

/-- The bytes of a piece have been taken from the input. -/
theorem ne_of_takes {s' : Stdin} {t : Bytes} (h : Takes s s' t) (ht : t ≠ []) : s' ≠ s := by
  rintro rfl
  exact ht (h.unique (takes_nil _))

/-- The version for Windows returns 0 and leaves the input alone without a key stroke, or if there
is room for the zero byte only. -/
theorem windows_idle_iff (call : ReadCall) (s : Stdin) :
    (∃ r, Windows.platformReadStdin call s = some r ∧ r.rc = 0 ∧ r.stdin = call.arrivals s) ↔
      (call.intSize ≠ 1 → call.kbhit = false) := by
  cases hkbhit : call.kbhit with
  | false => exact iff_of_true ⟨_, windows_of_not_kbhit hkbhit, rfl, rfl⟩ (fun _ => rfl)
  | true =>
    obtain ⟨htext, hnull, hnone⟩ := @windows_of_kbhit call s hkbhit
    have houtcome := call.fgets_outcome (call.arrivals s)
    generalize hfgets : call.fgets (call.arrivals s) = outcome at houtcome
    -- a null pointer is reported as -1
    have hminus {s' : Stdin} (h : call.fgets (call.arrivals s) = some (none, s')) :
        ¬∃ r, Windows.platformReadStdin call s = some r ∧ r.rc = 0 ∧
          r.stdin = call.arrivals s := by
      rintro ⟨r, hr, hrc, -⟩
      obtain rfl := Option.some.inj ((hnull s' h).symm.trans hr)
      exact absurd hrc (show ¬(-1 : ℤ) = 0 by decide)
    cases houtcome with
    | refused hsize => exact iff_of_false (hminus hfgets) (by simp; omega)
    | empty hsize => exact iff_of_true ⟨_, htext [] _ hfgets, rfl, rfl⟩ (absurd hsize)
    | line s' hsize hne htakes hend =>
      refine iff_of_false ?_ (by simp; omega)
      rintro ⟨r, hr, -, hstdin⟩
      obtain rfl := Option.some.inj ((htext _ s' hfgets).symm.trans hr)
      exact ne_of_takes htakes (firstPiece_ne_nil hsize hne) hstdin
    | eof s' hsize hstream hcloses => exact iff_of_false (hminus hfgets) (by simp; omega)
    | error s' hsize herror hcomplete hopen =>
      exact iff_of_false (hminus hfgets) (by simp; omega)
    | blocked hsize herror hcomplete hopen =>
      refine iff_of_false ?_ (by simp; omega)
      rintro ⟨r, hr, -⟩
      exact absurd ((hnone hfgets).symm.trans hr) (by simp)

theorem classified_of_selectFails (hfails : call.selectFails = true) :
    Classified call s { rc := -1, stdin := call.arrivals s } := by
  refine ⟨fun h => ?_, fun h => ?_, iff_of_true rfl (.inl hfails), fun h => ?_⟩
  · exact absurd h (show ¬(0 : ℤ) < -1 by decide)
  · exact absurd h (show ¬(-1 : ℤ) = 0 by decide)
  · simp [hfails] at h

/-- A value other than -1 at the end of the input, or at a read error. -/
theorem not_classified_of_rc {r : ReadResult} (hrc : r.rc = 0)
    (h : (call.arrivals s).AtEnd ∨ call.ReadFails (call.arrivals s)) : ¬Classified call s r :=
  fun hclassified => by
    have hminus := hclassified.negative.mpr (.inr h)
    omega

/-- A call that returns 0 and has taken nothing. -/
theorem classified_of_idle_iff {r : ReadResult} (hfails : call.selectFails = false)
    (hrc : r.rc = 0) (hstdin : r.stdin = call.arrivals s) :
    Classified call s r ↔
      (¬(call.arrivals s).AtEnd ∧ ¬call.ReadFails (call.arrivals s)) ∧
        10 ∉ (call.arrivals s).unread ∧ (call.intSize ≠ 1 → call.kbhit = false) := by
  have hminus : ¬r.rc = -1 := by omega
  constructor
  · intro h
    refine ⟨?_, (h.zero hrc).2.2, (windows_idle_iff call s).mp ?_⟩
    · have hnegative := (not_congr h.negative).mp hminus
      rw [not_or, not_or] at hnegative
      exact hnegative.2
    · simpa [hrc, hstdin] using h.same hfails
  · rintro ⟨hnegative, hline, hkbhit⟩
    refine ⟨fun h => by omega, fun _ => ⟨hstdin ▸ takes_nil _, hnegative.1, hline⟩, ?_, fun _ => ?_⟩
    · exact iff_of_false hminus (by simp [hfails, hnegative])
    · rw [hrc, hstdin]
      exact (windows_idle_iff call s).mpr hkbhit

/-- A piece is classified if it is a string without a zero byte, and read on Windows, too. -/
theorem classified_of_text_iff {s' : Stdin} {text : Bytes} (hfails : call.selectFails = false)
    (hfgets : call.fgets (call.arrivals s) = some (some text, s'))
    (htakes : Takes (call.arrivals s) s' text) (hne : text ≠ []) :
    Classified call s { rc := (cString text).length, buf := text ++ [0], stdin := s' } ↔
      (¬(call.arrivals s).AtEnd ∧ ¬call.ReadFails (call.arrivals s)) ∧
        0 ∉ text ∧ call.kbhit = true := by
  have hminus : ¬((cString text).length : ℤ) = -1 := by omega
  constructor
  · intro h
    have hnegative := (not_congr h.negative).mp hminus
    rw [not_or, not_or] at hnegative
    refine ⟨hnegative.2, ?_, ?_⟩
    · have hnil : cString text ≠ [] := fun hnil => by
        have htaken := (h.zero (by simp [hnil])).1
        exact hne (htakes.unique htaken)
      have hrc : (0 : ℤ) < (cString text).length := by
        exact_mod_cast List.length_pos_iff.mpr hnil
      obtain ⟨taken, htaken, hlength, -⟩ := h.positive hrc
      obtain rfl := htakes.unique htaken
      have hlength : (text.length : ℤ) = (cString text).length := hlength
      exact cString_eq_self_iff.mp ((cString_prefix_self text).eq_of_length (by omega))
    · by_contra hkbhit
      obtain ⟨r, hr, -, hstdin⟩ := h.same hfails
      obtain rfl := Option.some.inj ((windows_of_not_kbhit (by simpa using hkbhit)).symm.trans hr)
      exact ne_of_takes htakes hne hstdin.symm
  · rintro ⟨hnegative, hzero, hkbhit⟩
    rw [cString_of_notMem hzero] at hminus ⊢
    have hlength : (text.length : ℤ) ≠ 0 := by simpa using hne
    refine ⟨fun _ => ⟨text, htakes, rfl, rfl⟩, fun h => absurd h hlength, ?_, fun _ => ?_⟩
    · exact iff_of_false hminus (by simp [hfails, hnegative])
    · refine ⟨_, (windows_of_kbhit hkbhit).1 text s' hfgets, ?_, rfl⟩
      rw [cString_of_notMem hzero]

end Calls

namespace ReadCall

variable {call : ReadCall} {s : Stdin}

/-- A readable input with an empty stream is at its end. -/
theorem atEnd_of_stream_eq_nil (hselect : call.select s = 1) (hstream : s.stream call.waiting = [])
    (hcloses : Stdin.closes s.closed call.waiting = true) : s.AtEnd := by
  obtain ⟨hunread, -⟩ := List.append_eq_nil_iff.mp hstream
  refine ⟨?_, hunread⟩
  have hkernel := (List.append_eq_nil_iff.mp hunread).2
  rw [select] at hselect
  cases hclosed : s.closed with
  | true => rfl
  | false =>
    cases hwaiting : call.waiting with
    | nil => simp [hclosed, hwaiting, Stdin.closes] at hcloses
    | cons a waiting =>
      simp only [Stdin.readable, hkernel, hclosed, hwaiting] at hselect
      split at hselect <;> simp at hselect

/-- A call on a readable input. -/
theorem classified_of_ready_iff (hfails : call.selectFails = false)
    (hselect : call.select (call.arrivals s) = 1) :
    (∀ r, Posix.platformReadStdin call s = some r → Classified call s r) ↔
      call.Plain (call.arrivals s) := by
  obtain ⟨htext, hnull, hnone⟩ := posix_of_ready hselect
  have hready : 0 < call.select (call.arrivals s) := by omega
  have houtcome := call.fgets_outcome (call.arrivals s)
  generalize hfgets : call.fgets (call.arrivals s) = outcome at houtcome
  -- without room for a byte nothing is taken
  have hidle (hsize : call.intSize ≤ 1) :
      (¬(call.arrivals s).AtEnd ∧ ¬call.ReadFails (call.arrivals s)) ∧
        10 ∉ (call.arrivals s).unread ∧ (call.intSize ≠ 1 → call.kbhit = false) ↔
        call.Plain (call.arrivals s) :=
    ⟨fun h => ⟨fun _ => h.1.1, h.1.2, fun _ => h.2, fun _ _ => by omega⟩,
      fun h => ⟨⟨h.not_atEnd hready, h.not_fails⟩, h.idle (.inr ⟨hready, hsize⟩)⟩⟩
  cases houtcome with
  | refused hsize =>
    simp only [hnull _ hfgets, Option.some.injEq, forall_eq']
    exact (classified_of_idle_iff hfails rfl rfl).trans (hidle (by omega))
  | empty hsize =>
    simp only [htext [] _ hfgets, Option.some.injEq, forall_eq']
    exact (classified_of_idle_iff hfails rfl rfl).trans (hidle (by omega))
  | line s' hsize hne htakes hend =>
    simp only [htext _ s' hfgets, Option.some.injEq, forall_eq']
    rw [classified_of_text_iff hfails hfgets htakes (firstPiece_ne_nil hsize hne)]
    exact ⟨fun h => ⟨fun _ => h.1.1, h.1.2, fun _ => by omega, fun _ _ _ => h.2⟩,
      fun h => ⟨⟨h.not_atEnd hready, h.not_fails⟩, h.text hready hsize hend⟩⟩
  | eof s' hsize hstream hcloses =>
    have hatEnd := atEnd_of_stream_eq_nil hselect hstream hcloses
    exact iff_of_false (fun h => not_classified_of_rc rfl (.inl hatEnd) (h _ (hnull s' hfgets)))
      fun h => h.not_atEnd hready hatEnd
  | error s' hsize herror hcomplete hopen =>
    have hreads : call.ReadFails (call.arrivals s) := ⟨herror, hready, hsize, hcomplete, hopen⟩
    exact iff_of_false (fun h => not_classified_of_rc rfl (.inr hreads) (h _ (hnull s' hfgets)))
      fun h => h.not_fails hreads
  | blocked hsize herror hcomplete hopen =>
    refine iff_of_true (by simp [hnone hfgets])
      ⟨fun _ hend => ?_, fun h => ?_, fun _ => by omega, fun _ _ hend => ?_⟩
    · simp [(hend.stream call.waiting).2] at hopen
    · have herror' := h.error
      simp [herror] at herror'
    · rcases hend with hend | hcloses
      · exact absurd hend hcomplete
      · simp [hopen] at hcloses

/-- **A call** classifies what it has done exactly if it meets the condition, in the state in which
it knows whether the input is readable. -/
theorem classified_iff (call : ReadCall) (s : Stdin) :
    (∀ r, Posix.platformReadStdin call s = some r → Classified call s r) ↔
      call.Plain (call.arrivals s) := by
  rcases call.select_cases (call.arrivals s) with ⟨hfails, hselect⟩ | ⟨hfails, hselect, hopen⟩ |
    ⟨hfails, hselect⟩
  · have hreturn := @posix_of_select_nonpos call s (by omega)
    rw [hselect] at hreturn
    simp only [hreturn, Option.some.injEq, forall_eq']
    refine iff_of_true (classified_of_selectFails hfails)
      ⟨by omega, fun h => ?_, by omega, by omega⟩
    have hready := h.ready
    omega
  · have hreturn := @posix_of_select_nonpos call s (by omega)
    rw [hselect] at hreturn
    simp only [hreturn, Option.some.injEq, forall_eq']
    have hatEnd : ¬(call.arrivals s).AtEnd := fun h => by
      have hclosed := h.closed
      simp [hopen] at hclosed
    have hreads : ¬call.ReadFails (call.arrivals s) := fun h => by
      have hready := h.ready
      omega
    refine (classified_of_idle_iff hfails rfl rfl).trans ⟨fun h => ?_, fun h => ?_⟩
    · exact ⟨fun _ => hatEnd, hreads, fun _ => h.2, by omega⟩
    · exact ⟨⟨hatEnd, hreads⟩, h.idle (.inl hselect)⟩
  · exact classified_of_ready_iff hfails hselect

end ReadCall

/-! ### Runs -/

/-- **The runs** all of whose calls classify what they have done are those all of whose calls that
are made meet the condition. -/
theorem classified_run_iff (ahead : ℕ) (calls : List ReadCall) :
    Runs.StepsMeet readStep Classifies (some { ahead := ahead }) calls ↔
      Runs.StepsMeet readStep (fun s? call => ∀ s, s? = some s → call.Plain (call.arrivals s))
        (some { ahead := ahead }) calls := by
  refine Runs.stepsMeet_congr (P := fun _ => True) trivial (fun _ _ _ _ => trivial)
    fun s? call _ => forall_congr' fun s => ?_
  rw [← ReadCall.classified_iff]
  exact ⟨fun h hs r => h r hs, fun h r hs => h hs r⟩

/-- The writer closes the input, and has written nothing. -/
def closedInput : List ReadCall := [{ size := 512, before := [{ close := true }] }]

/-- At the end of `closedInput` the value is 0. -/
theorem not_classified : ¬∀ (ahead : ℕ) (calls : List ReadCall),
    Runs.StepsMeet readStep Classifies (some { ahead := ahead }) calls := by
  intro h
  have hclassified := (h 4095 closedInput).1 _ _ rfl rfl
  have hrc := hclassified.negative.mpr (.inr (.inl ⟨rfl, rfl⟩))
  exact absurd hrc (by decide)

end ModbusServer
