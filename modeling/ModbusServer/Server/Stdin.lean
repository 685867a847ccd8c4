import ModbusServer.Foundation.CText
import ModbusServer.Foundation.Lines
import ModbusServer.Foundation.Runs

/-!
# Standard input

Bytes that arrive on the standard input wait in the kernel until the C library reads them into its
own buffer. It does so when a byte is asked for and its buffer is empty, and then takes what has
arrived, up to the size of the buffer; if nothing has arrived it waits. `select` sees only what is
still in the kernel.

`fgets` takes bytes from the buffer of the library up to the end of a line, to the size of the
caller's buffer, or to the end of the input.

Source: `json-modbus-server.c`, lines 14, 437–443 and 486–487.

## Main definitions

* `ModbusServer.Stdin`: the two buffers, with all bytes that have arrived and all texts returned.
* `ModbusServer.Stdin.getc`, `ModbusServer.Stdin.fgets`.
* `ModbusServer.Stdin.stream`: what can be taken if the arrivals happen.

## Main results

* `ModbusServer.Stdin.Consistent.fgets`: the texts that `fgets` returns are pieces of the stream.
* `ModbusServer.Stdin.fgetsLoop_line_eq`, `ModbusServer.Stdin.fgetsLoop_blocked_eq`: its outcomes
  read off the stream.
* `ModbusServer.Stdin.settled_fgets`: when it leaves no line behind in the buffer of the library.
-/

namespace ModbusServer

open CText

/-- Bytes that arrive together; afterwards the writer may have closed its end. -/
structure Arrival where
  bytes : Bytes := []
  close : Bool := false

/-- The standard input: the buffer of the library, which has room for `ahead + 1` bytes, the bytes
in the kernel, whether the writer has closed its end, all bytes that have arrived, and all texts
that `fgets` has returned. -/
structure Stdin where
  ahead : ℕ
  buffer : Bytes := []
  kernel : Bytes := []
  closed : Bool := false
  arrived : Bytes := []
  passed : List Bytes := []

namespace Stdin

/-- Bytes arrive, unless the input has been closed. -/
def arrive (s : Stdin) (a : Arrival) : Stdin :=
  if s.closed then s
  else { s with
    kernel := s.kernel ++ a.bytes
    arrived := s.arrived ++ a.bytes
    closed := a.close }

/-- Does `select` report the input as readable? -/
def readable (s : Stdin) : Bool :=
  !s.kernel.isEmpty || s.closed

/-- The outcome of `getc`: a byte, with the input and the arrivals that are left; the end of the
input; or a call that does not return. -/
inductive Getc
  | byte (c : UInt8) (s : Stdin) (waiting : List Arrival)
  | eof (s : Stdin)
  | blocked

/-- The next byte of the input. The arrivals `waiting` happen, one after the other, while the call
waits for a byte. -/
def getc (s : Stdin) (waiting : List Arrival) : Getc :=
  match s.buffer with
  | c :: buffer => .byte c { s with buffer := buffer } waiting
  | [] =>
    match s.kernel with
    | c :: kernel =>
      .byte c { s with buffer := kernel.take s.ahead, kernel := kernel.drop s.ahead } waiting
    | [] =>
      if s.closed then .eof s
      else
        match waiting with
        | [] => .blocked
        | a :: waiting => getc (s.arrive a) waiting

/-- The outcome of `fgets`: a text, a null pointer at the end of the input, or a call that does not
return. -/
inductive Fgets
  | line (text : Bytes) (s : Stdin)
  | eof (s : Stdin)
  | blocked

/-- `fgets` with room for `n` further bytes behind `text`. -/
def fgetsLoop : ℕ → Bytes → Stdin → List Arrival → Fgets
  | 0, text, s, _ => .line text s
  | n + 1, text, s, waiting =>
    match getc s waiting with
    | .byte c s waiting =>
      if c = 10 then .line (text ++ [c]) s else fgetsLoop n (text ++ [c]) s waiting
    | .eof s => if text = [] then .eof s else .line text s
    | .blocked => .blocked

/-- `MAX_JSON_BUFFER`. -/
def maxJsonBuffer : ℕ := 512

/-- `fgets(buf, sizeof(buf), stdin)`. -/
def fgets (s : Stdin) (waiting : List Arrival) : Fgets :=
  match fgetsLoop (maxJsonBuffer - 1) [] s waiting with
  | .line text s => .line text { s with passed := s.passed ++ [text] }
  | .eof s => .eof s
  | .blocked => .blocked

/-! ### Arrivals -/

section Arrivals

variable (s : Stdin) (arrivals : List Arrival)

theorem arrive_of_closed (h : s.closed = true) (a : Arrival) : s.arrive a = s :=
  if_pos h

theorem foldl_arrive_of_closed (h : s.closed = true) : arrivals.foldl arrive s = s :=
  Runs.run_eq_of_absorbing (arrive_of_closed s h) arrivals

theorem passed_arrive (a : Arrival) : (s.arrive a).passed = s.passed := by
  rw [arrive]
  split_ifs <;> rfl

theorem buffer_arrive (a : Arrival) : (s.arrive a).buffer = s.buffer := by
  rw [arrive]
  split_ifs <;> rfl

@[simp] theorem passed_foldl_arrive : (arrivals.foldl arrive s).passed = s.passed :=
  Runs.run_frame passed_arrive arrivals

@[simp] theorem buffer_foldl_arrive : (arrivals.foldl arrive s).buffer = s.buffer :=
  Runs.run_frame buffer_arrive arrivals

end Arrivals

/-! ### Bytes -/

/-- The bytes that arrivals bring to an input that is closed or not. -/
def accepted : Bool → List Arrival → Bytes
  | true, _ => []
  | false, [] => []
  | false, a :: waiting => a.bytes ++ accepted a.close waiting

/-- Is the input closed behind the arrivals? -/
def closes : Bool → List Arrival → Bool
  | true, _ => true
  | false, [] => false
  | false, a :: waiting => closes a.close waiting

/-- The bytes that have arrived and have not been taken. -/
def unread (s : Stdin) : Bytes := s.buffer ++ s.kernel

/-- All bytes that can be taken if the arrivals happen. -/
def stream (s : Stdin) (waiting : List Arrival) : Bytes :=
  s.unread ++ accepted s.closed waiting

/-- The input is closed, and everything has been taken. -/
structure AtEnd (s : Stdin) : Prop where
  closed : s.closed = true
  unread : s.unread = []

instance (s : Stdin) : Decidable s.AtEnd :=
  decidable_of_iff (s.closed = true ∧ s.unread = []) ⟨fun h => ⟨h.1, h.2⟩, fun h => ⟨h.1, h.2⟩⟩

/-- What `getc` does when it returns a byte: `more` has arrived meanwhile, and the byte comes from
the buffer of the library, or the buffer was empty and is filled from what stands behind it. -/
structure GetcByte (s : Stdin) (waiting : List Arrival) (c : UInt8) (s' : Stdin)
    (waiting' : List Arrival) (more : Bytes) : Prop where
  arrived_eq : s'.arrived = s.arrived ++ more
  accepted_eq : accepted s.closed waiting = more ++ accepted s'.closed waiting'
  passed_eq : s'.passed = s.passed
  closed_eq : s.closed = true → s'.closed = true
  source : (s.buffer = c :: s'.buffer ∧ s'.kernel = s.kernel ∧ more = []) ∨
    (s.buffer = [] ∧ s.kernel ++ more = c :: (s'.buffer ++ s'.kernel))

theorem getc_byte {s s' : Stdin} {waiting waiting' : List Arrival} {c : UInt8}
    (h : getc s waiting = .byte c s' waiting') : ∃ more, GetcByte s waiting c s' waiting' more := by
  fun_induction getc s waiting with
  | case1 s waiting c' buffer hbuffer =>
    obtain ⟨rfl, rfl, rfl⟩ := by simpa using h
    exact ⟨[], by simp, rfl, rfl, id, .inl ⟨hbuffer, rfl, rfl⟩⟩
  | case2 s waiting hbuffer c' kernel hkernel =>
    obtain ⟨rfl, rfl, rfl⟩ := by simpa using h
    exact ⟨[], by simp, rfl, rfl, id, .inr ⟨hbuffer, by simp [hkernel]⟩⟩
  | case3 => simp at h
  | case4 => simp at h
  | case5 s hbuffer hkernel hclosed a waiting ih =>
    obtain ⟨more, hmore⟩ := ih h
    have hopen : s.closed = false := by simpa using hclosed
    refine ⟨a.bytes ++ more, ?_, ?_, ?_, fun h => absurd h hclosed, ?_⟩
    · simpa [arrive, hopen] using hmore.arrived_eq
    · simpa [arrive, hopen, accepted] using hmore.accepted_eq
    · simpa [arrive, hopen] using hmore.passed_eq
    · rcases hmore.source with ⟨hne, -, -⟩ | ⟨-, heq⟩
      · simp [arrive, hopen, hbuffer] at hne
      · exact .inr ⟨hbuffer, by simpa [arrive, hopen, hkernel] using heq⟩

/-- At the end of the input nothing is left, and nothing has arrived meanwhile. -/
theorem getc_eof {s s' : Stdin} {waiting : List Arrival} (h : getc s waiting = .eof s') :
    s'.closed = true ∧ s'.buffer = [] ∧ s'.kernel = [] ∧ s.buffer = [] ∧ s.kernel = [] ∧
      s'.arrived = s.arrived ∧ s'.passed = s.passed := by
  fun_induction getc s waiting with
  | case1 => simp at h
  | case2 => simp at h
  | case3 s waiting hbuffer hkernel hclosed =>
    obtain rfl := by simpa using h
    exact ⟨hclosed, hbuffer, hkernel, hbuffer, hkernel, rfl, rfl⟩
  | case4 => simp at h
  | case5 s hbuffer hkernel hclosed a waiting ih =>
    have hopen : s.closed = false := by simpa using hclosed
    obtain ⟨hclosed', hb, hk, -, hk', ha, hp⟩ := ih h
    have hbytes : a.bytes = [] := by simpa [arrive, hopen, hkernel] using hk'
    exact ⟨hclosed', hb, hk, hbuffer, hkernel, by simpa [arrive, hopen, hbytes] using ha,
      by simpa [arrive, hopen] using hp⟩

/-! ### Texts -/

/-- What `fgets` does when it returns the bytes `x`: `more` has arrived meanwhile; the bytes are a
piece of the stream; they come from the buffer of the library, or `x'` of them from behind it. -/
structure Reads (n : ℕ) (s : Stdin) (waiting : List Arrival) (x : Bytes) (s' : Stdin)
    (more : Bytes) : Prop where
  arrived_eq : s'.arrived = s.arrived ++ more
  passed_eq : s'.passed = s.passed
  closed_eq : s.closed = true → s'.closed = true ∧ more = []
  stream_eq : s.buffer ++ (s.kernel ++ more) = x ++ (s'.buffer ++ s'.kernel)
  length_le : x.length ≤ n
  notMem_dropLast : 10 ∉ x.dropLast
  ends : x.getLast? = some 10 ∨ x.length = n ∨ (s'.closed = true ∧ s'.buffer ++ s'.kernel = [])
  source : (s.buffer = x ++ s'.buffer) ∨
    ∃ x' rest, x = s.buffer ++ x' ∧ x' ≠ [] ∧
      s.kernel ++ accepted s.closed waiting = x' ++ (s'.buffer ++ rest)

theorem GetcByte.reads_singleton {n : ℕ} {s s' : Stdin} {waiting waiting' : List Arrival}
    {c : UInt8} {more : Bytes} (h : GetcByte s waiting c s' waiting' more)
    (hend : c = 10 ∨ n = 0) : Reads (n + 1) s waiting [c] s' more where
  arrived_eq := h.arrived_eq
  passed_eq := h.passed_eq
  closed_eq hclosed := by
    have haccepted := h.accepted_eq
    rw [hclosed, accepted] at haccepted
    exact ⟨h.closed_eq hclosed, (List.append_eq_nil_iff.mp haccepted.symm).1⟩
  stream_eq := by
    rcases h.source with ⟨hbuffer, hkernel, rfl⟩ | ⟨hbuffer, hkernel⟩
    · simp [hbuffer, hkernel]
    · simp [hbuffer, hkernel]
  length_le := by simp
  notMem_dropLast := by simp
  ends := by
    rcases hend with rfl | rfl
    · exact .inl rfl
    · exact .inr (.inl rfl)
  source := by
    rcases h.source with ⟨hbuffer, -, -⟩ | ⟨hbuffer, hkernel⟩
    · exact .inl hbuffer
    · refine .inr ⟨[c], s'.kernel ++ accepted s'.closed waiting', by simp [hbuffer], by simp, ?_⟩
      rw [h.accepted_eq, ← List.append_assoc, hkernel]
      simp

/-- A byte that does not end the line, and the bytes read behind it. -/
theorem GetcByte.reads_cons {n : ℕ} {s s₁ s' : Stdin} {waiting waiting₁ : List Arrival} {c : UInt8}
    {y more more₁ : Bytes} (hc : c ≠ 10) (h : GetcByte s waiting c s₁ waiting₁ more)
    (hy : Reads n s₁ waiting₁ y s' more₁) :
    Reads (n + 1) s waiting (c :: y) s' (more ++ more₁) where
  arrived_eq := by rw [hy.arrived_eq, h.arrived_eq, List.append_assoc]
  passed_eq := hy.passed_eq.trans h.passed_eq
  closed_eq hclosed := by
    have haccepted := h.accepted_eq
    rw [hclosed, accepted] at haccepted
    obtain ⟨hclosed', hnil⟩ := hy.closed_eq (h.closed_eq hclosed)
    exact ⟨hclosed', by rw [(List.append_eq_nil_iff.mp haccepted.symm).1, hnil]; rfl⟩
  stream_eq := by
    have hstream := hy.stream_eq
    rcases h.source with ⟨hbuffer, hkernel, rfl⟩ | ⟨hbuffer, hkernel⟩
    · rw [hkernel] at hstream
      simp [hbuffer, hstream]
    · rw [hbuffer, List.nil_append, ← List.append_assoc, hkernel]
      simp [← hstream]
  length_le := by simpa using hy.length_le
  notMem_dropLast := by
    cases y with
    | nil => simp
    | cons d y =>
      rw [List.dropLast_cons_cons, List.mem_cons, not_or]
      exact ⟨hc.symm, hy.notMem_dropLast⟩
  ends := by
    rcases hy.ends with hlast | hlen | hend
    · left
      cases y with
      | nil => simp at hlast
      | cons d y => simpa using hlast
    · exact .inr (.inl (by simp [hlen]))
    · exact .inr (.inr hend)
  source := by
    rcases h.source with ⟨hbuffer, hkernel, rfl⟩ | ⟨hbuffer, hkernel⟩
    · rcases hy.source with hy' | ⟨x', rest, hx, hne, hrest⟩
      · exact .inl (by simp [hbuffer, hy'])
      · refine .inr ⟨x', rest, by simp [hbuffer, hx], hne, ?_⟩
        rw [h.accepted_eq, ← hkernel, List.nil_append, hrest]
    · have hfront : s.kernel ++ accepted s.closed waiting =
          c :: (s₁.buffer ++ (s₁.kernel ++ accepted s₁.closed waiting₁)) := by
        rw [h.accepted_eq, ← List.append_assoc, hkernel]
        simp
      rcases hy.source with hy' | ⟨x', rest, hx, -, hrest⟩
      · refine .inr ⟨c :: y, s₁.kernel ++ accepted s₁.closed waiting₁, by simp [hbuffer],
          by simp, ?_⟩
        rw [hfront, hy']
        simp
      · refine .inr ⟨c :: y, rest, by simp [hbuffer], by simp, ?_⟩
        rw [hfront, hrest, hx]
        simp

theorem fgetsLoop_line {n : ℕ} {text t : Bytes} {s s' : Stdin} {waiting : List Arrival}
    (h : fgetsLoop n text s waiting = .line t s') :
    ∃ x more, t = text ++ x ∧ Reads n s waiting x s' more ∧ (n ≠ 0 → text = [] → x ≠ []) := by
  induction n generalizing text s waiting with
  | zero =>
    obtain ⟨rfl, rfl⟩ := by simpa [fgetsLoop] using h
    refine ⟨[], [], by simp, ?_, by simp⟩
    exact ⟨by simp, rfl, fun h => ⟨h, rfl⟩, by simp, by simp, by simp, by simp, by simp⟩
  | succ n ih =>
    rw [fgetsLoop] at h
    split at h
    · next c s₁ waiting₁ hgetc =>
      obtain ⟨more, hc⟩ := getc_byte hgetc
      split at h
      · next hnl =>
        obtain ⟨rfl, rfl⟩ := by simpa using h
        exact ⟨[c], more, rfl, hc.reads_singleton (.inl hnl), by simp⟩
      · next hnl =>
        obtain ⟨y, more₁, rfl, hy, -⟩ := ih h
        exact ⟨c :: y, more ++ more₁, by simp, hc.reads_cons hnl hy, by simp⟩
    · next s₁ hgetc =>
      split at h
      · simp at h
      · next hne =>
        obtain ⟨rfl, rfl⟩ := by simpa using h
        obtain ⟨hclosed, hb, hk, hb', hk', harrived, hpassed⟩ := getc_eof hgetc
        refine ⟨[], [], by simp, ?_, fun _ hnil => absurd hnil hne⟩
        exact ⟨by simp [harrived], hpassed, fun _ => ⟨hclosed, rfl⟩, by simp [hb, hk, hb', hk'],
          by simp, by simp, .inr (.inr ⟨hclosed, by simp [hb, hk]⟩), .inl (by simp [hb, hb'])⟩
    · simp at h

/-- A text that `fgets` returns is not empty and has at most `maxJsonBuffer - 1` bytes. -/
theorem fgets_line {t : Bytes} {s s' : Stdin} {waiting : List Arrival}
    (h : fgets s waiting = .line t s') :
    t ≠ [] ∧ ∃ s₁ more, Reads (maxJsonBuffer - 1) s waiting t s₁ more ∧
      s' = { s₁ with passed := s.passed ++ [t] } := by
  rw [fgets] at h
  split at h
  · next t₁ s₁ hloop =>
    obtain ⟨rfl, rfl⟩ := by simpa using h
    obtain ⟨x, more, rfl, hx, hne⟩ := fgetsLoop_line hloop
    exact ⟨hne (by decide) rfl, s₁, more, hx, by rw [hx.passed_eq]⟩
  · simp at h
  · simp at h

theorem fgetsLoop_eof {n : ℕ} {text : Bytes} {s s' : Stdin} {waiting : List Arrival}
    (h : fgetsLoop n text s waiting = .eof s') : text = [] ∧ getc s waiting = .eof s' := by
  induction n generalizing text s waiting with
  | zero => simp [fgetsLoop] at h
  | succ n ih =>
    rw [fgetsLoop] at h
    split at h
    · split at h
      · simp at h
      · exact absurd (ih h).1 (by simp)
    · next s₁ hgetc =>
      split at h
      · next hnil =>
        obtain rfl : s₁ = s' := by simpa using h
        exact ⟨hnil, hgetc⟩
      · simp at h
    · simp at h

theorem fgets_eof {s s' : Stdin} {waiting : List Arrival} (h : fgets s waiting = .eof s') :
    getc s waiting = .eof s' := by
  rw [fgets] at h
  split at h
  · simp at h
  · next hloop =>
    obtain rfl := by simpa using h
    exact (fgetsLoop_eof hloop).2
  · simp at h

/-! ### Outcomes -/

section Outcomes

variable {s s' : Stdin} {waiting waiting' : List Arrival} {c : UInt8}

/-- The byte is the first of the stream. -/
theorem stream_of_getc (h : getc s waiting = .byte c s' waiting') :
    s.stream waiting = c :: s'.stream waiting' := by
  obtain ⟨more, hc⟩ := getc_byte h
  simp only [stream, unread]
  rcases hc.source with ⟨hbuffer, hkernel, rfl⟩ | ⟨hbuffer, hkernel⟩
  · simp [hbuffer, hkernel, hc.accepted_eq]
  · rw [hbuffer, List.nil_append, hc.accepted_eq, ← List.append_assoc, hkernel]
    simp

theorem closes_of_getc (h : getc s waiting = .byte c s' waiting') :
    closes s'.closed waiting' = closes s.closed waiting := by
  fun_induction getc s waiting with
  | case1 | case2 =>
    obtain ⟨-, rfl, rfl⟩ := by simpa using h
    rfl
  | case3 | case4 => simp at h
  | case5 s hbuffer hkernel hclosed a waiting ih =>
    have hopen : s.closed = false := by simpa using hclosed
    rw [ih h, arrive, if_neg hclosed, hopen, closes]

theorem stream_of_getc_eof (h : getc s waiting = .eof s') :
    s.stream waiting = [] ∧ closes s.closed waiting = true := by
  fun_induction getc s waiting with
  | case1 | case2 | case4 => simp at h
  | case3 s waiting hbuffer hkernel hclosed =>
    simp [stream, unread, hbuffer, hkernel, hclosed, accepted, closes]
  | case5 s hbuffer hkernel hclosed a waiting ih =>
    have hopen : s.closed = false := by simpa using hclosed
    simpa [stream, unread, arrive, hopen, hbuffer, hkernel, accepted, closes] using ih h

theorem stream_of_getc_blocked (h : getc s waiting = .blocked) :
    s.stream waiting = [] ∧ closes s.closed waiting = false := by
  fun_induction getc s waiting with
  | case1 | case2 | case3 => simp at h
  | case4 s hbuffer hkernel hclosed =>
    have hopen : s.closed = false := by simpa using hclosed
    simp [stream, unread, hbuffer, hkernel, hopen, accepted, closes]
  | case5 s hbuffer hkernel hclosed a waiting ih =>
    have hopen : s.closed = false := by simpa using hclosed
    simpa [stream, unread, arrive, hopen, hbuffer, hkernel, accepted, closes] using ih h

/-- A text is returned if the first piece is complete or the input is closed. -/
theorem fgetsLoop_line_eq {n : ℕ} {text t : Bytes} (h : fgetsLoop n text s waiting = .line t s') :
    t = text ++ Lines.firstPiece 10 n (s.stream waiting) ∧
      (Lines.Complete 10 n (s.stream waiting) ∨ closes s.closed waiting = true) := by
  induction n generalizing text s waiting with
  | zero =>
    obtain ⟨rfl, -⟩ := by simpa [fgetsLoop] using h
    exact ⟨by simp [Lines.firstPiece], .inl (Lines.complete_zero 10 _)⟩
  | succ n ih =>
    rw [fgetsLoop] at h
    split at h
    · next c s₁ waiting₁ hgetc =>
      rw [stream_of_getc hgetc, Lines.firstPiece, ← closes_of_getc hgetc]
      split at h
      · next hnl =>
        obtain ⟨rfl, -⟩ := by simpa using h
        exact ⟨by rw [if_pos hnl], .inl (.inl (by simp [hnl]))⟩
      · next hnl =>
        obtain ⟨rfl, hend⟩ := ih h
        rw [if_neg hnl, Lines.complete_cons_iff hnl]
        exact ⟨by simp, hend⟩
    · next hgetc =>
      obtain ⟨hnil, hcloses⟩ := stream_of_getc_eof hgetc
      split at h
      · simp at h
      · obtain ⟨rfl, -⟩ := by simpa using h
        exact ⟨by simp [hnil, Lines.firstPiece], .inr hcloses⟩
    · simp at h

/-- A null pointer is returned at the end of the input. -/
theorem fgetsLoop_eof_eq {n : ℕ} (h : fgetsLoop n [] s waiting = .eof s') :
    s.stream waiting = [] ∧ closes s.closed waiting = true :=
  stream_of_getc_eof (fgetsLoop_eof h).2

/-- The call does not return if the first piece is not complete and the input is not closed. -/
theorem fgetsLoop_blocked_eq {n : ℕ} {text : Bytes} (h : fgetsLoop n text s waiting = .blocked) :
    ¬Lines.Complete 10 n (s.stream waiting) ∧ closes s.closed waiting = false := by
  induction n generalizing text s waiting with
  | zero => simp [fgetsLoop] at h
  | succ n ih =>
    rw [fgetsLoop] at h
    split at h
    · next c s₁ waiting₁ hgetc =>
      rw [stream_of_getc hgetc, ← closes_of_getc hgetc]
      split at h
      · simp at h
      · next hnl =>
        rw [Lines.complete_cons_iff hnl]
        exact ih h
    · split at h <;> simp at h
    · next hgetc =>
      obtain ⟨hnil, hopen⟩ := stream_of_getc_blocked hgetc
      rw [hnil]
      exact ⟨Lines.not_complete_nil, hopen⟩

end Outcomes

/-! ### The stream -/

/-- The bytes that have arrived are the texts returned so far and the two buffers, and the texts
are pieces of them. -/
structure Consistent (s : Stdin) : Prop where
  arrived_eq : s.arrived = s.passed.flatten ++ (s.buffer ++ s.kernel)
  framed : Lines.Framed 10 (maxJsonBuffer - 1) s.closed s.passed (s.buffer ++ s.kernel)

theorem Consistent.arrive {s : Stdin} (h : s.Consistent) (a : Arrival) :
    (s.arrive a).Consistent := by
  rw [Stdin.arrive]
  split
  · exact h
  · next hopen =>
    have hframed := h.framed
    rw [Bool.eq_false_iff.mpr hopen] at hframed
    refine ⟨by simp [h.arrived_eq], ?_⟩
    simpa using hframed.extend a.bytes

theorem Consistent.foldl_arrive {s : Stdin} (h : s.Consistent) (arrivals : List Arrival) :
    (arrivals.foldl Stdin.arrive s).Consistent :=
  Runs.run_induction (P := Consistent) h (fun _ a hs => hs.arrive a) arrivals

/-- **The texts that `fgets` returns are pieces of the stream.** -/
theorem Consistent.fgets {s s' : Stdin} {t : Bytes} {waiting : List Arrival} (h : s.Consistent)
    (ht : s.fgets waiting = .line t s') : s'.Consistent := by
  obtain ⟨hne, s₁, more, hx, rfl⟩ := fgets_line ht
  have hframed : Lines.Framed 10 (maxJsonBuffer - 1) s₁.closed s.passed
      (t ++ (s₁.buffer ++ s₁.kernel)) := by
    rw [← hx.stream_eq, ← List.append_assoc]
    cases hclosed : s.closed with
    | true =>
      obtain ⟨hclosed', hnil⟩ := hx.closed_eq hclosed
      have hframed := h.framed
      rw [hclosed] at hframed
      simpa [hclosed', hnil] using hframed
    | false =>
      have hframed := h.framed
      rw [hclosed] at hframed
      exact hframed.extend more
  refine ⟨?_, hframed.concat ⟨hne, hx.notMem_dropLast⟩ hx.length_le hx.ends⟩
  have harrived : s₁.arrived = s.passed.flatten ++ (s.buffer ++ (s.kernel ++ more)) := by
    rw [hx.arrived_eq, h.arrived_eq]
    simp
  simp [harrived, hx.stream_eq]

/-- At the end of the input everything that has arrived has been returned. -/
theorem Consistent.fgets_eof {s s' : Stdin} {waiting : List Arrival} (h : s.Consistent)
    (heof : s.fgets waiting = .eof s') : s'.Consistent := by
  obtain ⟨hclosed', hb', hk', hb, hk, harrived, hpassed⟩ := getc_eof (Stdin.fgets_eof heof)
  refine ⟨by simp [harrived, hpassed, hb', hk', h.arrived_eq, hb, hk], ?_⟩
  have hframed := h.framed
  rw [hb, hk] at hframed
  rw [hclosed', hpassed, hb', hk']
  cases hclosed : s.closed with
  | true => simpa [hclosed] using hframed
  | false =>
    rw [hclosed] at hframed
    exact hframed.extend []

/-- Nothing is returned behind the end of the input. -/
theorem fgets_ne_line {s : Stdin} (hclosed : s.closed = true) (hb : s.buffer = [])
    (hk : s.kernel = []) (waiting : List Arrival) (t : Bytes) (s' : Stdin) :
    s.fgets waiting ≠ .line t s' := by
  intro h
  obtain ⟨hne, s₁, more, hx, -⟩ := fgets_line h
  have hstream := hx.stream_eq
  rw [hb, hk, (hx.closed_eq hclosed).2] at hstream
  exact hne (List.append_eq_nil_iff.mp hstream.symm).1

theorem consistent_initial (ahead : ℕ) : Consistent { ahead := ahead } := ⟨rfl, trivial⟩

/-- **No line is left behind** in the buffer of the library if no short line stood behind a
terminator in what was in the kernel or arrived. -/
theorem settled_fgets {s s' : Stdin} {t : Bytes} {waiting : List Arrival}
    (hs : Lines.Settled 10 (maxJsonBuffer - 1) s.passed s.buffer)
    (hquiet : Lines.Quiet 10 (maxJsonBuffer - 1) (s.kernel ++ accepted s.closed waiting))
    (ht : s.fgets waiting = .line t s') :
    Lines.Settled 10 (maxJsonBuffer - 1) s'.passed s'.buffer := by
  obtain ⟨hne, s₁, more, hx, rfl⟩ := fgets_line ht
  rcases hx.source with hbuffer | ⟨x', rest, rfl, hne', hrest⟩
  · have hquiet' : Lines.Quiet 10 (maxJsonBuffer - 1) (t ++ (s₁.buffer ++ [])) := by
      rw [List.append_nil, ← hbuffer]
      exact hs.quiet
    simpa using hquiet'.settled (w := []) hne s.passed
  · rw [hrest] at hquiet
    exact hquiet.settled hne' s.passed

end Stdin

end ModbusServer
