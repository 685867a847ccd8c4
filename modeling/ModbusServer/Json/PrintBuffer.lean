import ModbusServer.Foundation.CharArray
import ModbusServer.Json.Print

/-!
# Printing into a buffer

The printing functions of cJSON write into a block of memory that they enlarge on demand. Before
they write, they call `ensure` with an estimate of the bytes they need; it fails if the block is
given by the caller and too small, if a size exceeds `INT_MAX`, or if `realloc` returns a null
pointer. A write outside of the block, or a search for a zero byte that leaves the block, is
recorded as an overrun.

The model keeps every call of `ensure` with its estimate, every write with the zero bytes that are
overwritten later, and the calls of `update_offset`, which finds the end of what was written by its
zero byte.

Source: `cJSON/cJSON.c`, lines 427–612, 901–1027, 1185–1309, 1366–1438, 1538–1598 and
1713–1825.

## Main definitions

* `ModbusServer.PrintBuffer`: the structure `printbuffer`, with its block.
* `ModbusServer.PrintBuffer.ensure`, `ModbusServer.PrintBuffer.updateOffset`.
* `ModbusServer.PrintBuffer.printValue`: values, arrays and objects.
* `ModbusServer.cJSONPrint`, `ModbusServer.cJSONPrintBuffered`,
  `ModbusServer.cJSONPrintPreallocated`.

## Main results

* `ModbusServer.PrintBuffer.outcome_printValue`: what is written, when printing fails, and that no
  write leaves the block.
* `ModbusServer.printing_spec`: the three functions that print.
-/

namespace ModbusServer

open CInt CText

/-- The answers of `malloc` and `realloc`, by the number of the call and the size: a null pointer,
or a block whose new bytes are arbitrary. -/
abbrev Reallocate := ℕ → ℕ → Option (ℕ → UInt8)

/-- The block after `realloc`: the old bytes as far as they fit, and new ones behind them. -/
def resize (b : Bytes) (size : ℕ) (fresh : ℕ → UInt8) : Bytes :=
  (List.range size).map fun i => b.getD i (fresh i)

/-- The structure `printbuffer`, with the number of calls of the allocator so far. The buffer is a
block of memory, or a null pointer. -/
structure PrintBuffer where
  buffer : Option Bytes
  length : ℕ
  offset : ℕ := 0
  depth : ℕ := 0
  noalloc : Bool
  format : Bool
  calls : ℕ := 0
  overrun : Bool := false

namespace PrintBuffer

/-- `ensure`: room for `needed` bytes behind the offset, and for a zero byte. -/
def ensure (reallocate : Reallocate) (needed : ℕ) (p : PrintBuffer) : PrintBuffer × Bool :=
  match p.buffer with
  | none => (p, false)
  | some b =>
    if 0 < p.length ∧ p.length ≤ p.offset then (p, false)
    else if INT_MAX < needed then (p, false)
    else
      let needed := needed + p.offset + 1
      if needed ≤ p.length then (p, true)
      else if p.noalloc then (p, false)
      else if INT_MAX / 2 < needed ∧ INT_MAX < needed then (p, false)
      else
        let newsize := if INT_MAX / 2 < needed then INT_MAX.toNat else needed * 2
        let answer := reallocate p.calls newsize
        let p := { p with calls := p.calls + 1 }
        match answer with
        | none => ({ p with buffer := none, length := 0 }, false)
        | some fresh =>
          ({ p with buffer := some (resize b newsize fresh), length := newsize }, true)

/-- A write to `output[k]` and the bytes behind it, where `output` is at the offset. -/
def poke (k : ℕ) (s : Bytes) (p : PrintBuffer) : PrintBuffer :=
  match p.buffer with
  | none => { p with overrun := true }
  | some b =>
    let i := p.offset + k
    if i + s.length ≤ b.length then
      { p with buffer := some (b.take i ++ (s ++ b.drop (i + s.length))) }
    else { p with overrun := true }

/-- `update_offset`: the offset moves to the next zero byte. -/
def updateOffset (p : PrintBuffer) : PrintBuffer :=
  match p.buffer with
  | none => p
  | some b =>
    if 0 ∈ b.drop p.offset then
      { p with offset := p.offset + (cString (b.drop p.offset)).length }
    else { p with overrun := true }

/-- The next part of a function, unless the part before it returned `false`. -/
def andThen (r : PrintBuffer × Bool) (next : PrintBuffer → PrintBuffer × Bool) :
    PrintBuffer × Bool :=
  if r.2 then next r.1 else r

/-- Room for `needed` bytes, a write, and a step of the offset. -/
def emit (reallocate : Reallocate) (needed : ℕ) (s : Bytes) (advance : ℕ) (p : PrintBuffer) :
    PrintBuffer × Bool :=
  andThen (p.ensure reallocate needed) fun p =>
    ({ p.poke 0 s with offset := p.offset + advance }, true)

/-! ### Numbers and strings -/

section Functions

variable (reallocate : Reallocate)

/-- `print_number`. -/
def printNumber (d : Double) (p : PrintBuffer) : PrintBuffer × Bool :=
  let number_buffer := numberText d
  if 25 < number_buffer.length then (p, false)
  else p.emit reallocate (number_buffer.length + 1) (number_buffer ++ [0]) number_buffer.length

/-- The additional characters for a byte of a string. -/
def escapeCharacters (c : UInt8) : ℕ :=
  if c = 34 ∨ c = 92 ∨ c = 8 ∨ c = 12 ∨ c = 10 ∨ c = 13 ∨ c = 9 then 1
  else if c < 32 then 5
  else 0

/-- The loop that copies a string with escapes to `output[k]`. `sprintf` ends its text with a zero
byte, which the next write overwrites. -/
def copyEscaped : Bytes → ℕ → PrintBuffer → PrintBuffer
  | [], _, p => p
  | c :: s, k, p =>
    if 31 < c ∧ c ≠ 34 ∧ c ≠ 92 then copyEscaped s (k + 1) (p.poke k [c])
    else
      let letters := escapeLetters c
      let p := p.poke k [92]
      if letters.length = 1 then copyEscaped s (k + 2) (p.poke (k + 1) letters)
      else copyEscaped s (k + 6) (p.poke (k + 1) (letters ++ [0]))

/-- `print_string_ptr`. -/
def printStringPtr (input : Bytes) (p : PrintBuffer) : PrintBuffer × Bool :=
  let escapes := (input.map escapeCharacters).sum
  let output_length := input.length + escapes
  andThen (p.ensure reallocate (output_length + 3)) fun p =>
    if escapes = 0 then
      (((p.poke 0 [34]).poke 1 (input.take output_length)).poke (output_length + 1) [34, 0], true)
    else ((copyEscaped input 1 (p.poke 0 [34])).poke (output_length + 1) [34, 0], true)

/-! ### Values -/

/-- One bracket more is open. -/
def deeper (p : PrintBuffer) : PrintBuffer := { p with depth := p.depth + 1 }

/-- A bracket is closed. -/
def shallower (p : PrintBuffer) : PrintBuffer := { p with depth := p.depth - 1 }

mutual

/-- `print_value`, with `print_array` and `print_object`. -/
def printValue : CJson → PrintBuffer → PrintBuffer × Bool
  | .null, p => p.emit reallocate 5 (ascii "null" ++ [0]) 0
  | .bool false, p => p.emit reallocate 6 (ascii "false" ++ [0]) 0
  | .bool true, p => p.emit reallocate 5 (ascii "true" ++ [0]) 0
  | .number d, p => printNumber reallocate d p
  | .string s, p => printStringPtr reallocate s p
  | .array child, p =>
    andThen (p.emit reallocate 1 [91] 1) fun p =>
    andThen (printElements child p.deeper) fun p =>
    andThen (p.emit reallocate 2 [93, 0] 0) fun p => (p.shallower, true)
  | .object child, p =>
    let length := if p.format then 2 else 1
    andThen (p.emit reallocate (length + 1) (123 :: spaceIf p.format [10]) length) fun p =>
    andThen (printMembers child p.deeper) fun p =>
    andThen (p.emit reallocate (if p.format then p.depth + 1 else 2)
      (spaceIf p.format (List.replicate (p.depth - 1) 9) ++ [125, 0]) 0) fun p =>
    (p.shallower, true)

/-- The loop of `print_array`. -/
def printElements : List CJson → PrintBuffer → PrintBuffer × Bool
  | [], p => (p, true)
  | v :: vs, p =>
    andThen (printValue v p) fun p =>
    let p := p.updateOffset
    let length := if p.format then 2 else 1
    andThen
      (if vs.isEmpty then (p, true)
      else p.emit reallocate (length + 1) (44 :: (spaceIf p.format [32] ++ [0])) length) fun p =>
    printElements vs p

/-- The loop of `print_object`. -/
def printMembers : List (Bytes × CJson) → PrintBuffer → PrintBuffer × Bool
  | [], p => (p, true)
  | (name, v) :: ms, p =>
    andThen
      (if p.format then p.emit reallocate p.depth (List.replicate p.depth 9) p.depth
      else (p, true)) fun p =>
    andThen (printStringPtr reallocate name p) fun p =>
    let p := p.updateOffset
    let length := if p.format then 2 else 1
    andThen (p.emit reallocate length (58 :: spaceIf p.format [9]) length) fun p =>
    andThen (printValue v p) fun p =>
    let p := p.updateOffset
    let length := (if p.format then 1 else 0) + if ms.isEmpty then 0 else 1
    andThen (p.emit reallocate (length + 1)
      (commaBefore ms [] ++ (spaceIf p.format [10] ++ [0])) length) fun p =>
    printMembers ms p

end

end Functions

end PrintBuffer

/-! ### Printing a whole value -/

open PrintBuffer

/-- `default_buffer_size` in `print`. -/
def defaultBufferSize : ℕ := 256

/-- `print`, which is `cJSON_Print` or `cJSON_PrintUnformatted`: a block that holds the text and a
zero byte, or a null pointer. The second component records an overrun. -/
def cJSONPrint (reallocate : Reallocate) (format : Bool) (item : CJson) : Option Bytes × Bool :=
  match reallocate 0 defaultBufferSize with
  | none => (none, false)
  | some fresh =>
    let buffer : PrintBuffer :=
      { buffer := some (resize [] defaultBufferSize fresh)
        length := defaultBufferSize
        noalloc := false
        format := format
        calls := 1 }
    let (buffer, success) := printValue reallocate item buffer
    if success then
      let buffer := buffer.updateOffset
      match buffer.buffer, reallocate buffer.calls (buffer.offset + 1) with
      | some b, some fresh => (some (resize b (buffer.offset + 1) fresh), buffer.overrun)
      | _, _ => (none, buffer.overrun)
    else (none, buffer.overrun)

/-- `cJSON_PrintBuffered`: a block that begins with the text and a zero byte, or a null pointer. -/
def cJSONPrintBuffered (reallocate : Reallocate) (item : CJson) (prebuffer : ℤ) (fmt : Bool) :
    Option Bytes × Bool :=
  if prebuffer < 0 then (none, false)
  else
    match reallocate 0 prebuffer.toNat with
    | none => (none, false)
    | some fresh =>
      let p : PrintBuffer :=
        { buffer := some (resize [] prebuffer.toNat fresh)
          length := prebuffer.toNat
          noalloc := false
          format := fmt
          calls := 1 }
      let (p, success) := printValue reallocate item p
      if success then (p.buffer, p.overrun) else (none, p.overrun)

/-- `cJSON_PrintPreallocated` on a block of the caller that has the given length. -/
def cJSONPrintPreallocated (reallocate : Reallocate) (item : CJson) (buffer : Bytes)
    (format : Bool) : PrintBuffer × Bool :=
  printValue reallocate item
    { buffer := some buffer
      length := buffer.length
      noalloc := true
      format := format }

/-! ### What a buffer holds -/

namespace PrintBuffer

/-- The largest size the block can get. -/
def capacity (p : PrintBuffer) : ℕ := if p.noalloc then p.length else INT_MAX.toNat

/-- The block begins with the bytes `s`, and the offset and the depth have the given values. There
is room for a zero byte at the offset, unless the block is empty. -/
structure Holds (format noalloc : Bool) (cap : ℕ) (p : PrintBuffer) (s : Bytes) (o depth : ℕ) :
    Prop where
  buffer : ∃ b, p.buffer = some b ∧ b.length = p.length ∧ s <+: b
  offset : p.offset = o
  depth : p.depth = depth
  format : p.format = format
  noalloc : p.noalloc = noalloc
  capacity : p.capacity = cap
  lt : 0 < p.length → p.offset < p.length
  le : p.length ≤ cap
  cap_le : cap ≤ INT_MAX.toNat
  overrun : p.overrun = false

/-- What is known about a call: there is no overrun, a success has the property `Q`, and the call
succeeds if something `fits` and `realloc` does not fail where it is used. -/
structure Outcome (reallocate : Reallocate) (noalloc : Bool) (r : PrintBuffer × Bool) (fits : Prop)
    (Q : PrintBuffer → Prop) : Prop where
  overrun : r.1.overrun = false
  post : r.2 = true → Q r.1
  complete : (noalloc = false → ∀ k n, (reallocate k n).isSome = true) → fits → r.2 = true

section Rules

variable {reallocate : Reallocate} {format noalloc : Bool} {cap o depth needed k : ℕ}
  {p : PrintBuffer} {s t w : Bytes} {r : PrintBuffer × Bool}
  {next : PrintBuffer → PrintBuffer × Bool} {fits fits' : Prop} {Q Q' : PrintBuffer → Prop}

theorem Outcome.andThen (h : Outcome reallocate noalloc r fits' Q') (hfits : fits → fits')
    (hnext : ∀ p, Q' p → Outcome reallocate noalloc (next p) fits Q) :
    Outcome reallocate noalloc (andThen r next) fits Q := by
  obtain ⟨p, success⟩ := r
  cases success with
  | false =>
    refine ⟨h.overrun, fun hsuccess => absurd hsuccess (by simp [PrintBuffer.andThen]), ?_⟩
    intro hall hfit
    exact absurd (h.complete hall (hfits hfit)) (by simp)
  | true => exact hnext p (h.post rfl)

theorem Outcome.pure (hoverrun : p.overrun = false) (hQ : Q p) :
    Outcome reallocate noalloc (p, true) fits Q :=
  ⟨hoverrun, fun _ => hQ, fun _ _ => rfl⟩

/-- A call that fails has had no room, unless `realloc` has failed. -/
theorem Outcome.not_fits (h : Outcome reallocate noalloc (p, false) fits Q)
    (hall : ∀ k n, (reallocate k n).isSome = true) : ¬fits := fun hfits =>
  absurd (h.complete (fun _ => hall) hfits) (by simp)

theorem Outcome.failure (hoverrun : p.overrun = false) (hfits : ¬fits) :
    Outcome reallocate noalloc (p, false) fits Q :=
  ⟨hoverrun, fun h => absurd h (by simp), fun _ hfit => absurd hfit hfits⟩

/-- A part of what a block begins with. -/
theorem Holds.mono (h : Holds format noalloc cap p s o depth) (hst : t <+: s) :
    Holds format noalloc cap p t o depth := by
  obtain ⟨b, hb, hlen, hprefix⟩ := h.buffer
  exact { h with buffer := ⟨b, hb, hlen, hst.trans hprefix⟩ }

theorem length_resize (b : Bytes) (size : ℕ) (fresh : ℕ → UInt8) :
    (resize b size fresh).length = size := by
  rw [resize, List.length_map, List.length_range]

theorem prefix_resize {b : Bytes} {size : ℕ} (h : b.length ≤ size) (fresh : ℕ → UInt8) :
    b <+: resize b size fresh := by
  rw [List.prefix_iff_eq_take]
  refine List.ext_getElem? fun i => ?_
  by_cases hi : i < b.length
  · have hsize : i < size := by omega
    simp [resize, List.getElem?_range hsize, hi]
  · simp [hi]

/-- `ensure` fails if the size is beyond the capacity, or if `realloc` fails. -/
theorem outcome_ensure (h : Holds format noalloc cap p s o depth) (needed : ℕ) :
    Outcome reallocate noalloc (p.ensure reallocate needed) (o + needed + 1 ≤ cap)
      fun p' => Holds format noalloc cap p' s o depth ∧ o + needed + 1 ≤ p'.length := by
  obtain ⟨b, hb, hlen, hprefix⟩ := h.buffer
  have hcapacity := h.capacity
  have hlt := h.lt
  have hle := h.le
  have hcap := h.cap_le
  have hmax : INT_MAX.toNat = 2147483647 := rfl
  rw [h.offset] at hlt
  simp only [ensure, hb, h.offset]
  split
  · next hfull => exact absurd (hlt hfull.1) (by omega)
  split
  · next hbig =>
    rw [INT_MAX] at hbig
    exact .failure h.overrun (by omega)
  split
  · next hroom => exact .pure h.overrun ⟨h, by omega⟩
  next hroom =>
  rw [PrintBuffer.capacity] at hcapacity
  split
  · next hnoalloc =>
    rw [if_pos hnoalloc] at hcapacity
    exact .failure h.overrun (by omega)
  next hnoalloc =>
  rw [if_neg hnoalloc] at hcapacity
  split
  · next hbig =>
    rw [INT_MAX] at hbig
    exact .failure h.overrun (by omega)
  next hbig =>
  set newsize := if INT_MAX / 2 < ((needed + o + 1 : ℕ) : ℤ) then INT_MAX.toNat
    else (needed + o + 1) * 2 with hnewsize
  have hsize : needed + o + 1 ≤ newsize ∧ newsize ≤ INT_MAX.toNat := by
    rw [hnewsize, hmax]
    split_ifs with hhalf
    · simp only [INT_MAX] at hbig hhalf
      omega
    · simp only [INT_MAX] at hbig hhalf
      omega
  cases hanswer : reallocate p.calls newsize with
  | none =>
    refine ⟨h.overrun, fun hsuccess => absurd hsuccess (by simp), fun hall _ => ?_⟩
    have hsome := hall (h.noalloc.symm.trans (Bool.not_eq_true _ ▸ hnoalloc)) p.calls newsize
    simp [hanswer] at hsome
  | some fresh =>
    have hresize : b <+: resize b newsize fresh := prefix_resize (by omega) fresh
    refine .pure h.overrun ⟨?_, by simp only; omega⟩
    exact
      { buffer := ⟨_, rfl, length_resize .., hprefix.trans hresize⟩
        offset := rfl
        depth := h.depth
        format := h.format
        noalloc := h.noalloc
        capacity := by rw [PrintBuffer.capacity, if_neg hnoalloc, hcapacity]
        lt := fun _ => by simp only; omega
        le := by simp only; omega
        cap_le := hcap
        overrun := h.overrun }

@[simp] theorem length_poke (k : ℕ) (t : Bytes) (p : PrintBuffer) :
    (p.poke k t).length = p.length := by
  rw [poke]
  split
  · rfl
  · simp only
    split <;> rfl

/-- A write behind what the block begins with. -/
theorem Holds.poke (h : Holds format noalloc cap p (s ++ w) s.length depth) (hk : w.length = k)
    (hroom : s.length + k + t.length ≤ p.length) :
    Holds format noalloc cap (p.poke k t) (s ++ w ++ t) s.length depth := by
  obtain ⟨b, hb, hlen, u, rfl⟩ := h.buffer
  have hlength := length_poke k t p
  have hpoke : p.poke k t = { p with buffer := some (s ++ w ++ (t ++ u.drop t.length)) } := by
    have htake : (s ++ w ++ u).take (s.length + k) = s ++ w :=
      List.take_left' (by rw [List.length_append, hk])
    have hdrop : (s ++ w ++ u).drop (s.length + k + t.length) = u.drop t.length := by
      rw [← List.drop_drop, List.drop_left' (by rw [List.length_append, hk])]
    simp only [PrintBuffer.poke, hb, h.offset]
    rw [if_pos (by omega), htake, hdrop]
  rw [hpoke]
  refine { h with buffer := ⟨_, rfl, ?_, ?_⟩ }
  · simp only [List.length_append, List.length_drop] at hlen ⊢
    omega
  · rw [← List.append_assoc]
    exact List.prefix_append _ _

/-- The offset moves on. -/
theorem Holds.advance (h : Holds format noalloc cap p s o depth) (k : ℕ) (hk : o + k < p.length) :
    Holds format noalloc cap { p with offset := p.offset + k } s (o + k) depth :=
  { h with
    offset := by simp only [h.offset]
    lt := fun _ => by simp only [h.offset]; omega }

/-- **Room, a write, and a step of the offset.** -/
theorem outcome_emit (h : Holds format noalloc cap p s s.length depth) {advance : ℕ}
    (ht : t.length ≤ needed + 1) (hadvance : advance ≤ needed) :
    Outcome reallocate noalloc (p.emit reallocate needed t advance) (s.length + needed + 1 ≤ cap)
      fun p' => Holds format noalloc cap p' (s ++ t) (s.length + advance) depth ∧
        s.length + needed + 1 ≤ cap := by
  refine (outcome_ensure h needed).andThen id ?_
  rintro p' ⟨hp', hroom⟩
  have hpoke : Holds format noalloc cap (p'.poke 0 t) (s ++ [] ++ t) s.length depth :=
    Holds.poke (by rwa [List.append_nil]) rfl (by omega)
  have hoffset : (p'.poke 0 t).offset = p'.offset := by rw [hpoke.offset, hp'.offset]
  rw [List.append_nil] at hpoke
  have hadv := hpoke.advance advance (by rw [length_poke]; omega)
  rw [hoffset] at hadv
  have hle := hp'.le
  exact .pure hadv.overrun ⟨hadv, by omega⟩

/-- **`update_offset` finds the end of what was written.** -/
theorem Holds.updateOffset_zero (h : Holds format noalloc cap p (s ++ (t ++ [0])) o depth)
    (ht : 0 ∉ t) (ho : s.length ≤ o ∧ o ≤ s.length + t.length) :
    Holds format noalloc cap p.updateOffset (s ++ (t ++ [0])) (s ++ t).length depth := by
  obtain ⟨b, hb, hlen, u, rfl⟩ := h.buffer
  have hstring : ∃ a, (s ++ (t ++ [0]) ++ u).drop o = a ++ 0 :: u ∧ 0 ∉ a ∧
      o + a.length = (s ++ t).length := by
    obtain ⟨k, rfl⟩ := Nat.exists_eq_add_of_le ho.1
    have hk : k ≤ t.length := by omega
    refine ⟨t.drop k, ?_, fun hmem => ht (List.mem_of_mem_drop hmem), ?_⟩
    · rw [← List.drop_drop, List.append_assoc, List.drop_left, List.append_assoc,
        List.drop_append_of_le_length hk]
      rfl
    · rw [List.length_drop, List.length_append]
      omega
  obtain ⟨a, hdrop, ha, hend⟩ := hstring
  have htext : cString (a ++ 0 :: u) = a := by
    rw [CharArray.cString_append ha, CharArray.cString_zero_cons, List.append_nil]
  have hupdate : p.updateOffset = { p with offset := (s ++ t).length } := by
    simp only [PrintBuffer.updateOffset, hb, h.offset, hdrop, htext, hend]
    rw [if_pos (by simp)]
  rw [hupdate]
  refine
    { h with
      buffer := ⟨_, hb, hlen, ⟨u, rfl⟩⟩
      offset := rfl
      lt := fun _ => ?_ }
  simp only [List.length_append, List.length_singleton] at hlen ⊢
  omega

theorem Holds.updateOffset (h : Holds format noalloc cap p (s ++ (t ++ [0])) o depth) (ht : 0 ∉ t)
    (ho : s.length ≤ o ∧ o ≤ s.length + t.length) :
    Holds format noalloc cap p.updateOffset (s ++ t) (s ++ t).length depth :=
  (h.updateOffset_zero ht ho).mono ⟨[0], by simp⟩

/-! ### Strings -/

theorem length_escapeByte (c : UInt8) : (escapeByte c).length = 1 + escapeCharacters c := by
  have hcases (c : UInt8) : (31 < c ∧ c ≠ 34 ∧ c ≠ 92 → escapeCharacters c = 0) ∧
      (¬(31 < c ∧ c ≠ 34 ∧ c ≠ 92) → (escapeLetters c).length = escapeCharacters c) := by
    revert c
    decide +kernel
  rw [escapeByte]
  split
  · next hc => rw [(hcases c).1 hc, List.length_singleton]
  · next hc => rw [List.length_cons, (hcases c).2 hc, Nat.add_comm]

theorem length_flatMap_escapeByte (s : Bytes) :
    (s.flatMap escapeByte).length = s.length + (s.map escapeCharacters).sum := by
  induction s with
  | nil => rfl
  | cons c s ih =>
    rw [List.flatMap_cons, List.length_append, length_escapeByte, ih, List.map_cons,
      List.sum_cons, List.length_cons]
    omega

/-- Without additional characters a string is copied as it is. -/
theorem flatMap_escapeByte_eq_self {s : Bytes} (h : (s.map escapeCharacters).sum = 0) :
    s.flatMap escapeByte = s := by
  have hbyte (c : UInt8) : escapeCharacters c = 0 → escapeByte c = [c] := by
    revert c
    decide +kernel
  induction s with
  | nil => rfl
  | cons c s ih =>
    rw [List.map_cons, List.sum_cons, Nat.add_eq_zero_iff] at h
    rw [List.flatMap_cons, hbyte c h.1, ih h.2, List.singleton_append]

theorem length_escapeLetters (c : UInt8) :
    (escapeLetters c).length = 1 ∨ (escapeLetters c).length = 5 := by
  rw [escapeLetters]
  split_ifs <;> simp

@[simp] theorem length_copyEscaped (input : Bytes) (k : ℕ) (p : PrintBuffer) :
    (copyEscaped input k p).length = p.length := by
  fun_induction copyEscaped input k p with
  | case1 => rfl
  | case2 c s k p hc ih => rw [ih, length_poke]
  | case3 c s k p hc letters q hl ih => rw [ih, length_poke, length_poke]
  | case4 c s k p hc letters q hl ih => rw [ih, length_poke, length_poke]

/-- The loop that copies a string with its escapes. It needs a byte more for the zero byte that
`sprintf` may write last. -/
theorem Holds.copyEscaped {input : Bytes} (h : Holds format noalloc cap p (s ++ w) s.length depth)
    (hroom : s.length + w.length + (input.flatMap escapeByte).length + 1 ≤ p.length) :
    Holds format noalloc cap (copyEscaped input w.length p) (s ++ w ++ input.flatMap escapeByte)
      s.length depth := by
  induction input generalizing w p with
  | nil => simpa [PrintBuffer.copyEscaped] using h
  | cons c input ih =>
    rw [List.flatMap_cons] at hroom ⊢
    rw [List.length_append] at hroom
    rw [PrintBuffer.copyEscaped]
    split
    · next hc =>
      have hbyte : escapeByte c = [c] := if_pos hc
      rw [hbyte, List.length_singleton] at hroom
      have hpoke := h.poke (t := [c]) rfl (by simp only [List.length_singleton]; omega)
      have hnext := ih (w := w ++ [c]) (by rwa [← List.append_assoc])
        (by simp only [length_poke, List.length_append, List.length_singleton]; omega)
      simpa [hbyte] using hnext
    · next hc =>
      have hbyte : escapeByte c = 92 :: escapeLetters c := if_neg hc
      rw [hbyte, List.length_cons] at hroom
      have hslash := h.poke (t := [92]) rfl (by simp only [List.length_singleton]; omega)
      rw [List.append_assoc] at hslash
      have hlen : (w ++ [92]).length = w.length + 1 := by simp
      rcases length_escapeLetters c with hone | hfive
      · have hpoke := hslash.poke (t := escapeLetters c) hlen (by rw [length_poke]; omega)
        rw [if_pos hone]
        have hnext := ih (w := w ++ [92] ++ escapeLetters c)
          (by rwa [← List.append_assoc])
          (by simp only [length_poke, List.length_append, List.length_singleton]; omega)
        simpa [hbyte, hone] using hnext
      · have hpoke := hslash.poke (t := escapeLetters c ++ [0]) hlen
          (by simp only [length_poke, List.length_append, List.length_singleton]; omega)
        rw [if_neg (by omega)]
        have hnext := ih (w := w ++ [92] ++ escapeLetters c)
          (hpoke.mono ⟨[0], by simp⟩)
          (by simp only [length_poke, List.length_append, List.length_singleton]; omega)
        simpa [hbyte, hfive] using hnext

theorem length_stringText (input : Bytes) :
    (stringText input).length = input.length + (input.map escapeCharacters).sum + 2 := by
  rw [stringText, List.length_cons, List.length_append, length_flatMap_escapeByte,
    List.length_singleton]

/-- **A string between quotes.** -/
theorem outcome_printStringPtr (h : Holds format noalloc cap p s s.length depth) (input : Bytes) :
    Outcome reallocate noalloc (printStringPtr reallocate input p)
      (s.length + (stringText input).length + 2 ≤ cap)
      fun p' => Holds format noalloc cap p' (s ++ (stringText input ++ [0])) s.length depth ∧
        s.length + (stringText input).length + 2 ≤ cap := by
  have htext := length_stringText input
  have hflat := length_flatMap_escapeByte input
  rw [printStringPtr]
  refine (outcome_ensure h (input.length + (input.map escapeCharacters).sum + 3)).andThen
    (fun hfits => by omega) ?_
  rintro p ⟨hp, hroom⟩
  have hle := hp.le
  have hquote : Holds format noalloc cap (p.poke 0 [34]) (s ++ [34]) s.length depth := by
    have hpoke : Holds format noalloc cap (p.poke 0 [34]) (s ++ [] ++ [34]) s.length depth :=
      Holds.poke (by rwa [List.append_nil]) rfl (by simp only [List.length_singleton]; omega)
    rwa [List.append_nil] at hpoke
  have hend {q : PrintBuffer}
      (hq : Holds format noalloc cap q (s ++ ([34] ++ input.flatMap escapeByte)) s.length depth)
      (hlen : q.length = p.length) : Holds format noalloc cap
      (q.poke (input.length + (input.map escapeCharacters).sum + 1) [34, 0])
      (s ++ (stringText input ++ [0])) s.length depth := by
    have hpoke := hq.poke (t := [34, 0])
      (k := input.length + (input.map escapeCharacters).sum + 1)
      (by simp only [List.length_append, List.length_singleton, hflat]; omega)
      (by simp only [List.length_cons, List.length_nil]; omega)
    simpa [stringText] using hpoke
  split
  · next hzero =>
    have hcopy := hquote.poke (t := input) (k := 1) rfl
      (by simp only [length_poke]; omega)
    rw [List.take_of_length_le (by omega)]
    rw [List.append_assoc] at hcopy
    have hlast := hend (by rwa [flatMap_escapeByte_eq_self hzero]) (by simp)
    exact .pure hlast.overrun ⟨hlast, by omega⟩
  · have hcopy : Holds format noalloc cap (copyEscaped input 1 (p.poke 0 [34]))
        (s ++ [34] ++ input.flatMap escapeByte) s.length depth :=
      hquote.copyEscaped (by simp only [length_poke, List.length_singleton]; omega)
    rw [List.append_assoc] at hcopy
    have hlast := hend hcopy (by simp)
    exact .pure hlast.overrun ⟨hlast, by omega⟩

/-! ### Values -/

/-- The text `t` and a zero byte have been written behind `s`. The offset is behind the text of a
number, at the closing bracket of a list, and otherwise still in front of the text. -/
def Wrote (format noalloc : Bool) (cap depth : ℕ) (s t : Bytes) (p : PrintBuffer) : Prop :=
  s.length + t.length + 2 ≤ cap ∧ ∃ o, (s.length ≤ o ∧ o ≤ s.length + t.length) ∧
    Holds format noalloc cap p (s ++ (t ++ [0])) o depth

/-- A value is printed behind whatever is in the block. -/
def Prints (reallocate : Reallocate) (format noalloc : Bool) (cap : ℕ) (v : CJson) : Prop :=
  ∀ {p : PrintBuffer} {s : Bytes} {depth : ℕ}, Holds format noalloc cap p s s.length depth →
    Outcome reallocate noalloc (printValue reallocate v p)
      (s.length + (v.text format depth).length + 2 ≤ cap)
      (Wrote format noalloc cap depth s (v.text format depth))

theorem Wrote.updateOffset (h : Wrote format noalloc cap depth s t p) (ht : 0 ∉ t) :
    Holds format noalloc cap p.updateOffset (s ++ t) (s ++ t).length depth := by
  obtain ⟨-, o, ho, hp⟩ := h
  exact hp.updateOffset ht ho

/-- A literal, written with its zero byte. -/
theorem outcome_literal (h : Holds format noalloc cap p s s.length depth)
    (hneeded : t.length < needed) :
    Outcome reallocate noalloc (p.emit reallocate needed (t ++ [0]) 0)
      (s.length + needed + 1 ≤ cap) (Wrote format noalloc cap depth s t) := by
  refine ⟨?_, ?_, ?_⟩
  all_goals
    have hemit : Outcome reallocate noalloc (p.emit reallocate needed (t ++ [0]) 0) _ _ :=
      outcome_emit h (by simp only [List.length_append, List.length_singleton]; omega) (by omega)
  · exact hemit.overrun
  · intro hsuccess
    obtain ⟨hp, hcap⟩ := hemit.post hsuccess
    exact ⟨by omega, s.length, by omega, hp⟩
  · exact hemit.complete

theorem Outcome.weaken (h : Outcome reallocate noalloc r fits' Q') (hfits : fits → fits')
    (hQ : ∀ p, Q' p → Q p) : Outcome reallocate noalloc r fits Q :=
  ⟨h.overrun, fun hr => hQ _ (h.post hr), fun hall hfit => h.complete hall (hfits hfit)⟩

theorem outcome_printNumber (d : Double) (h : Holds format noalloc cap p s s.length depth) :
    Outcome reallocate noalloc (printNumber reallocate d p)
      (s.length + (numberText d).length + 2 ≤ cap)
      (Wrote format noalloc cap depth s (numberText d)) := by
  have hlen := length_numberText_le d
  rw [printNumber, if_neg (by omega)]
  have hemit : Outcome reallocate noalloc (p.emit reallocate ((numberText d).length + 1)
      (numberText d ++ [0]) (numberText d).length) _ _ :=
    outcome_emit h (by simp) (by omega)
  exact hemit.weaken id fun p' hp' => ⟨by omega, _, ⟨Nat.le_add_right .., le_rfl⟩, hp'.1⟩

theorem text_length_pos (format : Bool) (depth : ℕ) (v : CJson) :
    0 < (v.text format depth).length := by
  obtain ⟨c, t, hcons, -⟩ := exists_text_eq_cons format depth v
  rw [hcons]
  exact Nat.succ_pos _

/-- The separator behind an element, in front of the other elements. -/
theorem outcome_comma (h : Holds format noalloc cap p s s.length depth) (vs : List CJson) :
    Outcome reallocate noalloc
      (if vs.isEmpty then (p, true)
        else p.emit reallocate ((if p.format then 2 else 1) + 1)
          (44 :: (spaceIf p.format [32] ++ [0])) (if p.format then 2 else 1))
      (s.length + (commaBefore vs (spaceIf format [32]) ++ elementsText format depth vs).length +
        2 ≤ cap)
      fun p' => Holds format noalloc cap p' (s ++ commaBefore vs (spaceIf format [32]))
        (s ++ commaBefore vs (spaceIf format [32])).length depth := by
  cases vs with
  | nil => exact .pure h.overrun (by simpa [commaBefore] using h)
  | cons v vs =>
    have hpos := text_length_pos format depth v
    rw [if_neg (by simp), h.format]
    have hemit : Outcome reallocate noalloc (p.emit reallocate ((if format then 2 else 1) + 1)
        (44 :: (spaceIf format [32] ++ [0])) (if format then 2 else 1)) _ _ :=
      outcome_emit h (by cases format <;> simp [spaceIf]) (by omega)
    refine hemit.weaken (fun hfit => ?_) fun p hp => ?_
    · simp only [commaBefore, List.isEmpty_cons, Bool.false_eq_true, if_false, elementsText,
        List.length_append, List.length_cons] at hfit
      cases format <;> simp [spaceIf] at hfit ⊢ <;> omega
    · have hmono := hp.1.mono (t := s ++ 44 :: spaceIf format [32]) ⟨[0], by simp⟩
      have hlen : s.length + (if format then 2 else 1) =
          (s ++ 44 :: spaceIf format [32]).length := by
        cases format <;> simp [spaceIf]
      rw [hlen] at hmono
      simpa [commaBefore] using hmono

/-- **The loop over the elements of an array.** -/
theorem outcome_printElements {vs : List CJson} {n : ℕ} (hfits : ∀ v ∈ vs, v.Fits n)
    (hprints : ∀ v ∈ vs, Prints reallocate format noalloc cap v)
    (h : Holds format noalloc cap p s s.length depth) :
    Outcome reallocate noalloc (printElements reallocate vs p)
      (s.length + (elementsText format depth vs).length + 2 ≤ cap)
      fun p' => Holds format noalloc cap p' (s ++ elementsText format depth vs)
        (s ++ elementsText format depth vs).length depth := by
  induction vs generalizing p s with
  | nil => exact .pure h.overrun (by simpa [elementsText] using h)
  | cons v vs ih =>
    have hzero := zero_notMem_text format (hfits v List.mem_cons_self) depth
    have hlength : (elementsText format depth (v :: vs)).length = (v.text format depth).length +
        (commaBefore vs (spaceIf format [32]) ++ elementsText format depth vs).length := by
      simp [elementsText]
    rw [printElements]
    refine (hprints v List.mem_cons_self h).andThen (fun hfit => by omega) fun p hp => ?_
    have hvalue := hp.updateOffset hzero
    refine (outcome_comma hvalue vs).andThen (fun hfit => by rw [List.length_append]; omega)
      fun p hp => ?_
    have hrest := ih (fun w hw => hfits w (List.mem_cons_of_mem v hw))
      (fun w hw => hprints w (List.mem_cons_of_mem v hw)) hp
    refine hrest.weaken (fun hfit => ?_) fun p hp => ?_
    · simp only [List.length_append] at hlength ⊢
      omega
    · simpa [elementsText] using hp

/-- The tabs in front of a name. -/
theorem outcome_tabs (h : Holds format noalloc cap p s s.length depth) :
    Outcome reallocate noalloc
      (if p.format then p.emit reallocate p.depth (List.replicate p.depth 9) p.depth else (p, true))
      (s.length + (spaceIf format (List.replicate depth 9)).length + 1 ≤ cap)
      fun p' => Holds format noalloc cap p' (s ++ spaceIf format (List.replicate depth 9))
        (s ++ spaceIf format (List.replicate depth 9)).length depth := by
  rw [h.format, h.depth]
  cases format with
  | false => exact .pure h.overrun (by simpa [spaceIf] using h)
  | true =>
    have hemit : Outcome reallocate noalloc
        (p.emit reallocate depth (List.replicate depth 9) depth) _ _ :=
      outcome_emit h (by simp) le_rfl
    refine hemit.weaken (by simp [spaceIf]) fun p hp => ?_
    simpa [spaceIf] using hp.1

/-- What stands between a name and its value. -/
theorem outcome_colon (h : Holds format noalloc cap p s s.length depth) :
    Outcome reallocate noalloc
      (p.emit reallocate (if p.format then 2 else 1) (58 :: spaceIf p.format [9])
        (if p.format then 2 else 1))
      (s.length + (58 :: spaceIf format [9]).length + 1 ≤ cap)
      fun p' => Holds format noalloc cap p' (s ++ 58 :: spaceIf format [9])
        (s ++ 58 :: spaceIf format [9]).length depth := by
  rw [h.format]
  have hlen : (58 :: spaceIf format [9]).length = if format then 2 else 1 := by
    cases format <;> rfl
  have hemit : Outcome reallocate noalloc
      (p.emit reallocate (if format then 2 else 1) (58 :: spaceIf format [9])
        (if format then 2 else 1)) _ _ :=
    outcome_emit h (by omega) le_rfl
  refine hemit.weaken (fun hfit => by omega) fun p hp => ?_
  rw [List.length_append, hlen]
  exact hp.1

/-- What stands behind a member. -/
theorem outcome_line {α : Type} (h : Holds format noalloc cap p s s.length depth) (ms : List α) :
    Outcome reallocate noalloc
      (p.emit reallocate ((if p.format then 1 else 0) + (if ms.isEmpty then 0 else 1) + 1)
        (commaBefore ms [] ++ (spaceIf p.format [10] ++ [0]))
        ((if p.format then 1 else 0) + if ms.isEmpty then 0 else 1))
      (s.length + (commaBefore ms [] ++ spaceIf format [10]).length + 2 ≤ cap)
      fun p' => Holds format noalloc cap p' (s ++ (commaBefore ms [] ++ spaceIf format [10]))
        (s ++ (commaBefore ms [] ++ spaceIf format [10])).length depth := by
  rw [h.format]
  have hlen : (commaBefore ms [] ++ spaceIf format [10]).length =
      (if format then 1 else 0) + if ms.isEmpty then 0 else 1 := by
    cases format <;> cases ms <;> rfl
  have hemit : Outcome reallocate noalloc
      (p.emit reallocate ((if format then 1 else 0) + (if ms.isEmpty then 0 else 1) + 1)
        (commaBefore ms [] ++ (spaceIf format [10] ++ [0]))
        ((if format then 1 else 0) + if ms.isEmpty then 0 else 1)) _ _ :=
    outcome_emit h
      (by rw [← List.append_assoc, List.length_append, hlen, List.length_singleton]; omega)
      (by omega)
  refine hemit.weaken (fun hfit => by omega) fun p hp => ?_
  rw [List.length_append, hlen]
  exact hp.1.mono ⟨[0], by simp⟩

/-- **The loop over the members of an object.** -/
theorem outcome_printMembers {ms : List (Bytes × CJson)} {n : ℕ} (hname : ∀ m ∈ ms, 0 ∉ m.1)
    (hfits : ∀ m ∈ ms, m.2.Fits n) (hprints : ∀ m ∈ ms, Prints reallocate format noalloc cap m.2)
    (h : Holds format noalloc cap p s s.length depth) :
    Outcome reallocate noalloc (printMembers reallocate ms p)
      (s.length + (membersText format depth ms).length + 2 ≤ cap)
      fun p' => Holds format noalloc cap p' (s ++ membersText format depth ms)
        (s ++ membersText format depth ms).length depth := by
  induction ms generalizing p s with
  | nil => exact .pure h.overrun (by simpa [membersText] using h)
  | cons m ms ih =>
    obtain ⟨name, v⟩ := m
    have hzero := zero_notMem_text format (hfits (name, v) List.mem_cons_self) depth
    have hstring := zero_notMem_stringText (hname (name, v) List.mem_cons_self)
    have hpos := text_length_pos format depth v
    have hlength : (membersText format depth ((name, v) :: ms)).length =
        (spaceIf format (List.replicate depth 9)).length + (stringText name).length +
          (58 :: spaceIf format [9]).length + (v.text format depth).length +
          (commaBefore ms [] ++ spaceIf format [10]).length +
          (membersText format depth ms).length := by
      simp only [membersText, List.length_append, List.length_cons]
      omega
    rw [printMembers]
    refine (outcome_tabs h).andThen (fun hfit => by omega) fun p hp => ?_
    refine (outcome_printStringPtr hp name).andThen
      (fun hfit => by rw [List.length_append]; omega) fun p hp => ?_
    have hnamed := hp.1.updateOffset hstring ⟨le_rfl, Nat.le_add_right ..⟩
    refine (outcome_colon hnamed).andThen
      (fun hfit => by simp only [List.length_append] at hlength ⊢; omega) fun p hp => ?_
    refine (hprints (name, v) List.mem_cons_self hp).andThen
      (fun hfit => by simp only [List.length_append] at hlength ⊢; omega) fun p hp => ?_
    have hvalue := hp.updateOffset hzero
    refine (outcome_line hvalue ms).andThen
      (fun hfit => by simp only [List.length_append] at hlength ⊢; omega) fun p hp => ?_
    have hrest := ih (fun e he => hname e (List.mem_cons_of_mem _ he))
      (fun e he => hfits e (List.mem_cons_of_mem _ he))
      (fun e he => hprints e (List.mem_cons_of_mem _ he)) hp
    refine hrest.weaken (fun hfit => ?_) fun p hp => ?_
    · simp only [List.length_append] at hlength ⊢
      omega
    · simpa [membersText] using hp

/-- The depth changes. -/
theorem Holds.deeper (h : Holds format noalloc cap p s o depth) :
    Holds format noalloc cap p.deeper s o (depth + 1) :=
  { h with depth := by rw [PrintBuffer.deeper, h.depth] }

theorem Holds.shallower (h : Holds format noalloc cap p s o (depth + 1)) :
    Holds format noalloc cap p.shallower s o depth :=
  { h with depth := by rw [PrintBuffer.shallower, h.depth, Nat.add_sub_cancel] }

/-- **What printing a value does.** There is no overrun; a success writes the text of the value and
a zero byte; and printing succeeds if and only if the capacity is two bytes larger than the text,
unless `realloc` fails. -/
theorem outcome_printValue {v : CJson} {n : ℕ} (hv : v.Fits n) :
    Prints reallocate format noalloc cap v := by
  induction hv with
  | null =>
    intro p s depth h
    exact (outcome_literal h (by decide)).weaken id fun p hp => hp
  | bool b =>
    intro p s depth h
    cases b with
    | false => exact (outcome_literal h (by decide)).weaken id fun p hp => hp
    | true => exact (outcome_literal h (by decide)).weaken id fun p hp => hp
  | number d => exact fun h => outcome_printNumber d h
  | string hs =>
    intro p s depth h
    exact (outcome_printStringPtr h _).weaken id fun p hp =>
      ⟨hp.2, s.length, ⟨le_rfl, Nat.le_add_right ..⟩, hp.1⟩
  | @array n child hfits ih =>
    intro p s depth h
    have hlength : (CJson.text format depth (.array child)).length =
        (elementsText format (depth + 1) child).length + 2 := by simp [CJson.text]
    rw [printValue]
    have hopen : Outcome reallocate noalloc (p.emit reallocate 1 [91] 1) _ _ :=
      outcome_emit h (by simp) le_rfl
    refine hopen.andThen (fun hfit => by omega) fun p hp => ?_
    have hdeeper :
        Holds format noalloc cap p.deeper (s ++ [91]) (s ++ [91]).length (depth + 1) := by
      rw [List.length_append]
      exact hp.1.deeper
    refine (outcome_printElements hfits (fun v hv => ih v hv) hdeeper).andThen
      (fun hfit => by simp only [List.length_append, List.length_singleton]; omega) fun p hp => ?_
    have hclose : Outcome reallocate noalloc (p.emit reallocate 2 [93, 0] 0) _ _ :=
      outcome_emit hp (by simp) (by omega)
    refine hclose.andThen
      (fun hfit => by simp only [List.length_append, List.length_singleton]; omega) fun p hp => ?_
    obtain ⟨hend, hcap⟩ := hp
    have htext : s ++ [91] ++ elementsText format (depth + 1) child ++ [93, 0] =
        s ++ (CJson.text format depth (.array child) ++ [0]) := by simp [CJson.text]
    have hlen : (s ++ [91] ++ elementsText format (depth + 1) child).length =
        s.length + 1 + (elementsText format (depth + 1) child).length := by
      simp only [List.length_append, List.length_singleton]
    rw [htext] at hend
    exact .pure hend.overrun ⟨by omega, _, by omega, hend.shallower⟩
  | @object n child hname hfits ih =>
    intro p s depth h
    have hlength : (CJson.text format depth (.object child)).length =
        (123 :: spaceIf format [10]).length + (membersText format (depth + 1) child).length +
          (spaceIf format (List.replicate depth 9)).length + 1 := by
      simp only [CJson.text, List.length_append, List.length_cons, List.length_nil]
      omega
    have hbrace : (123 :: spaceIf format [10]).length = if format then 2 else 1 := by
      cases format <;> rfl
    have htabs : (if format then depth + 1 + 1 else 2) =
        (spaceIf format (List.replicate depth 9)).length + 2 := by
      cases format <;> simp [spaceIf]
    rw [printValue]
    simp only [h.format]
    have hopen : Outcome reallocate noalloc (p.emit reallocate ((if format then 2 else 1) + 1)
        (123 :: spaceIf format [10]) (if format then 2 else 1)) _ _ :=
      outcome_emit h (by omega) (by omega)
    refine hopen.andThen (fun hfit => by omega) fun p hp => ?_
    have hdeeper : Holds format noalloc cap p.deeper (s ++ 123 :: spaceIf format [10])
        (s ++ 123 :: spaceIf format [10]).length (depth + 1) := by
      rw [List.length_append, hbrace]
      exact hp.1.deeper
    refine (outcome_printMembers hname hfits (fun m hm => ih m hm) hdeeper).andThen
      (fun hfit => by rw [List.length_append]; omega) fun p hp => ?_
    simp only [hp.format, hp.depth, Nat.add_sub_cancel]
    have hclose : Outcome reallocate noalloc
        (p.emit reallocate (if format then depth + 1 + 1 else 2)
        (spaceIf format (List.replicate depth 9) ++ [125, 0]) 0) _ _ :=
      outcome_emit hp (by rw [List.length_append, htabs]; exact Nat.le_succ _) (by omega)
    have hlen : (s ++ 123 :: spaceIf format [10] ++ membersText format (depth + 1) child).length =
        s.length + (123 :: spaceIf format [10]).length +
          (membersText format (depth + 1) child).length := by
      simp only [List.length_append]
    refine hclose.andThen (fun hfit => by omega) fun p hp => ?_
    obtain ⟨hend, hcap⟩ := hp
    have htext : s ++ 123 :: spaceIf format [10] ++ membersText format (depth + 1) child ++
        (spaceIf format (List.replicate depth 9) ++ [125, 0]) =
        s ++ (CJson.text format depth (.object child) ++ [0]) := by simp [CJson.text]
    rw [htext] at hend
    exact .pure hend.overrun ⟨by omega, _, by omega, hend.shallower⟩

end Rules

end PrintBuffer

/-! ### Whole values -/

section Whole

variable {reallocate : Reallocate} {v : CJson} {n : ℕ}

/-- A block at the start of printing. -/
theorem holds_start {b : Bytes} (noalloc format : Bool) (calls : ℕ)
    (hlen : b.length ≤ INT_MAX.toNat) :
    Holds format noalloc (if noalloc then b.length else INT_MAX.toNat)
      { buffer := some b, length := b.length, noalloc := noalloc, format := format, calls := calls }
      [] 0 0 where
  buffer := ⟨b, rfl, rfl, List.nil_prefix⟩
  offset := rfl
  depth := rfl
  format := rfl
  noalloc := rfl
  capacity := rfl
  lt := id
  le := by
    simp only
    split
    · exact le_rfl
    · exact hlen
  cap_le := by
    split
    · exact hlen
    · exact le_rfl
  overrun := rfl

/-- Printing into a block from its beginning. -/
theorem outcome_start (reallocate : Reallocate) (hv : v.Fits n) (b : Bytes)
    (noalloc format : Bool) (calls : ℕ) (hlen : b.length ≤ INT_MAX.toNat) :
    Outcome reallocate noalloc
      (printValue reallocate v
        { buffer := some b, length := b.length, noalloc := noalloc, format := format,
          calls := calls })
      ((v.text format 0).length + 2 ≤ if noalloc then b.length else INT_MAX.toNat)
      (Wrote format noalloc (if noalloc then b.length else INT_MAX.toNat) 0 [] (v.text format 0)) :=
  (outcome_printValue hv (holds_start noalloc format calls hlen)).weaken
    (fun hfit => by simpa using hfit) fun _ hp => hp

/-- Printing a value into a new block that grows. -/
theorem outcome_grown (reallocate : Reallocate) (hv : v.Fits n) {size : ℕ} (fresh : ℕ → UInt8)
    (format : Bool) (hsize : size ≤ INT_MAX.toNat) :
    Outcome reallocate false
      (printValue reallocate v
        { buffer := some (resize [] size fresh), length := size, noalloc := false, format := format,
          calls := 1 })
      ((v.text format 0).length + 2 ≤ INT_MAX)
      (Wrote format false INT_MAX.toNat 0 [] (v.text format 0)) := by
  have houtcome := outcome_start reallocate hv (resize [] size fresh) false format 1
    (by rwa [length_resize])
  rw [length_resize, if_neg (by simp)] at houtcome
  exact houtcome.weaken (fun hfits => by simp only [INT_MAX] at hfits ⊢; omega) fun _ hp => hp

theorem cString_of_prefix {t b : Bytes} (ht : 0 ∉ t) (hb : t ++ [0] <+: b) : cString b = t := by
  obtain ⟨u, rfl⟩ := hb
  rw [List.append_assoc, CharArray.cString_append ht]
  simp

theorem resize_of_le {b : Bytes} {size : ℕ} (h : size ≤ b.length) (fresh : ℕ → UInt8) :
    resize b size fresh = b.take size := by
  refine List.ext_getElem? fun i => ?_
  by_cases hi : i < size
  · simp [resize, hi, hi.trans_le h]
  · simp [resize, hi]

/-- **Printing into a block of the caller.** Whatever the block holds, nothing is written or read
outside of it; printing succeeds exactly if the block is at least two bytes larger than the text of
the value, and then the string in the block is that text. -/
theorem cJSONPrintPreallocated_spec (hv : v.Fits n) (buffer : Bytes) (format : Bool)
    (hlen : buffer.length ≤ INT_MAX) :
    (cJSONPrintPreallocated reallocate v buffer format).1.overrun = false ∧
    ((cJSONPrintPreallocated reallocate v buffer format).2 = true ↔
      (v.text format 0).length + 2 ≤ buffer.length) ∧
    ((cJSONPrintPreallocated reallocate v buffer format).2 = true →
      ∃ b, (cJSONPrintPreallocated reallocate v buffer format).1.buffer = some b ∧
        b.length = buffer.length ∧ cString b = v.text format 0) := by
  have houtcome := outcome_start reallocate hv buffer true format 0
    (by rw [INT_MAX] at hlen; simp only [INT_MAX]; omega)
  rw [if_pos rfl] at houtcome
  refine ⟨houtcome.overrun, ⟨fun hsuccess => ?_, houtcome.complete (by simp)⟩, fun hsuccess => ?_⟩
  · simpa using (houtcome.post hsuccess).1
  · obtain ⟨-, o, -, hp⟩ := houtcome.post hsuccess
    obtain ⟨b, hb, hlength, hprefix⟩ := hp.buffer
    have hcapacity := hp.capacity
    rw [PrintBuffer.capacity, if_pos hp.noalloc] at hcapacity
    exact ⟨b, hb, by omega, cString_of_prefix (zero_notMem_text format hv 0) hprefix⟩

/-- **Printing into a block that grows.** Whatever `realloc` answers, nothing is written or read
outside of the block, and what is returned is the text of the value with its zero byte; unless
`realloc` fails, something is returned exactly if the text is short enough for an `int`. -/
theorem cJSONPrint_spec (hv : v.Fits n) (format : Bool) :
    (cJSONPrint reallocate format v).2 = false ∧
    (∀ b, (cJSONPrint reallocate format v).1 = some b → b = v.text format 0 ++ [0]) ∧
    ((∀ k size, (reallocate k size).isSome = true) →
      ((cJSONPrint reallocate format v).1.isSome = true ↔
        (v.text format 0).length + 2 ≤ INT_MAX)) := by
  have hzero := zero_notMem_text format hv 0
  rw [cJSONPrint]
  cases hfirst : reallocate 0 defaultBufferSize with
  | none =>
    refine ⟨rfl, by simp, fun hall => ?_⟩
    have hsome := hall 0 defaultBufferSize
    simp [hfirst] at hsome
  | some fresh =>
    have houtcome := outcome_grown reallocate hv fresh format
      (show defaultBufferSize ≤ INT_MAX.toNat by decide)
    simp only
    obtain ⟨⟨p, success⟩, hr⟩ : ∃ r, printValue reallocate v
      { buffer := some (resize [] defaultBufferSize fresh), length := defaultBufferSize,
        noalloc := false, format := format, calls := 1 } = r := ⟨_, rfl⟩
    rw [hr] at houtcome ⊢
    cases success with
    | false =>
      exact ⟨houtcome.overrun, by simp, fun hall => by simpa using houtcome.not_fits hall⟩
    | true =>
      obtain ⟨hcap, o, ho, hp⟩ := houtcome.post rfl
      have hupdate := hp.updateOffset_zero hzero ho
      obtain ⟨b, hb, hlength, hprefix⟩ := hupdate.buffer
      rw [List.nil_append] at hprefix
      have hoffset : p.updateOffset.offset = (v.text format 0).length := hupdate.offset
      have hblock (fresh : ℕ → UInt8) :
          resize b ((v.text format 0).length + 1) fresh = v.text format 0 ++ [0] := by
        obtain ⟨u, rfl⟩ := hprefix
        rw [resize_of_le (by simp), List.take_left' (by simp)]
      simp only [if_true, hb, hoffset]
      cases hlast : reallocate p.updateOffset.calls ((v.text format 0).length + 1) with
      | none =>
        refine ⟨hupdate.overrun, by simp, fun hall => ?_⟩
        have hsome := hall p.updateOffset.calls ((v.text format 0).length + 1)
        simp [hlast] at hsome
      | some fresh =>
        refine ⟨hupdate.overrun, fun b' hb' => ?_, fun _ => ?_⟩
        · obtain rfl := Option.some.inj hb'
          exact hblock fresh
        · simp only [INT_MAX, List.length_nil] at hcap ⊢
          simp only [Option.isSome_some, true_iff]
          omega

/-- Printing into a block of a size of the caller's choice that grows. What is returned begins with
the text of the value and a zero byte. A negative size is refused. -/
theorem cJSONPrintBuffered_spec (hv : v.Fits n) {prebuffer : ℤ} (hhi : prebuffer ≤ INT_MAX)
    (fmt : Bool) :
    (cJSONPrintBuffered reallocate v prebuffer fmt).2 = false ∧
    (∀ b, (cJSONPrintBuffered reallocate v prebuffer fmt).1 = some b →
      cString b = v.text fmt 0) ∧
    ((∀ k size, (reallocate k size).isSome = true) →
      ((cJSONPrintBuffered reallocate v prebuffer fmt).1.isSome = true ↔
        0 ≤ prebuffer ∧ (v.text fmt 0).length + 2 ≤ INT_MAX)) := by
  rw [cJSONPrintBuffered]
  split_ifs with hneg
  · exact ⟨rfl, by simp, fun _ => ⟨by simp, fun h => absurd h.1 (by omega)⟩⟩
  have hlo : 0 ≤ prebuffer := not_lt.mp hneg
  simp only [hlo, true_and]
  cases hfirst : reallocate 0 prebuffer.toNat with
  | none =>
    refine ⟨rfl, by simp, fun hall => ?_⟩
    have hsome := hall 0 prebuffer.toNat
    simp [hfirst] at hsome
  | some fresh =>
    have houtcome := outcome_grown reallocate hv fresh fmt
      (show prebuffer.toNat ≤ INT_MAX.toNat from Int.toNat_le_toNat hhi)
    simp only
    obtain ⟨⟨p, success⟩, hr⟩ : ∃ r, printValue reallocate v
      { buffer := some (resize [] prebuffer.toNat fresh), length := prebuffer.toNat,
        noalloc := false, format := fmt, calls := 1 } = r := ⟨_, rfl⟩
    rw [hr] at houtcome ⊢
    cases success with
    | false =>
      exact ⟨houtcome.overrun, by simp, fun hall => by simpa using houtcome.not_fits hall⟩
    | true =>
      obtain ⟨hcap, o, ho, hp⟩ := houtcome.post rfl
      obtain ⟨b, hb, hlength, hprefix⟩ := hp.buffer
      rw [show (if true = true then (p.buffer, p.overrun) else (none, p.overrun)) =
        (some b, p.overrun) by rw [if_pos rfl, hb]]
      refine ⟨houtcome.overrun, ?_, fun _ => ?_⟩
      · rintro _ ⟨⟩
        exact cString_of_prefix (zero_notMem_text fmt hv 0) hprefix
      · simp only [INT_MAX, List.length_nil] at hcap ⊢
        simp only [Option.isSome_some, true_iff]
        omega

/-- **Printing.** Whatever `realloc` answers and whatever is in the block of the caller, none of the
three functions writes or reads outside of its block. What they return begins with the text of the
value and a zero byte; unless `realloc` fails, they return something exactly if the block of the
caller, or else the range of `int`, has room for the text and two bytes more, and the size that the
caller asks for is not negative. -/
theorem printing_spec (hv : v.Fits n) (format : Bool) (buffer : Bytes)
    (hlen : buffer.length ≤ INT_MAX) {prebuffer : ℤ} (hhi : prebuffer ≤ INT_MAX) :
    ((cJSONPrint reallocate format v).2 = false ∧
      (∀ b, (cJSONPrint reallocate format v).1 = some b → b = v.text format 0 ++ [0]) ∧
      ((∀ k size, (reallocate k size).isSome = true) →
        ((cJSONPrint reallocate format v).1.isSome = true ↔
          (v.text format 0).length + 2 ≤ INT_MAX))) ∧
    ((cJSONPrintBuffered reallocate v prebuffer format).2 = false ∧
      (∀ b, (cJSONPrintBuffered reallocate v prebuffer format).1 = some b →
        cString b = v.text format 0) ∧
      ((∀ k size, (reallocate k size).isSome = true) →
        ((cJSONPrintBuffered reallocate v prebuffer format).1.isSome = true ↔
          0 ≤ prebuffer ∧ (v.text format 0).length + 2 ≤ INT_MAX))) ∧
    ((cJSONPrintPreallocated reallocate v buffer format).1.overrun = false ∧
      ((cJSONPrintPreallocated reallocate v buffer format).2 = true ↔
        (v.text format 0).length + 2 ≤ buffer.length) ∧
      ((cJSONPrintPreallocated reallocate v buffer format).2 = true →
        ∃ b, (cJSONPrintPreallocated reallocate v buffer format).1.buffer = some b ∧
          b.length = buffer.length ∧ cString b = v.text format 0)) :=
  ⟨cJSONPrint_spec hv format, cJSONPrintBuffered_spec hv hhi format,
    cJSONPrintPreallocated_spec hv buffer format hlen⟩

/-- A block of the caller that is one byte too short for `[null]`. -/
theorem printing_spec_null :
    (cJSONPrintPreallocated (fun _ _ => none) (.array [.null]) (List.replicate 7 0) true).2 =
      false := by
  have hprint := @printing_spec (fun _ _ => none) (.array [.null]) 1
    (.array fun v hv => (List.mem_singleton.mp hv).symm ▸ .null) true (List.replicate 7 0)
    (by decide) 0 (by decide)
  rw [← Bool.not_eq_true, hprint.2.2.2.1]
  decide

end Whole

end ModbusServer
