import ModbusServer.Command.Request
import ModbusServer.Foundation.Loops

/-!
# Writing a block of registers

`write_registers` as it is executed: a loop that exchanges the bytes of the caller's words in place,
an exchange of two words, and a loop that copies the words into the registers. It changes nothing
but its block, a second call on what the first has stored restores the words, and for a single word
it does what the chain of datatypes does inline.

Source: `src/utils/byte_order.c`, lines 12–28; `src/json/json_command.c`, lines 94–105.

## Main definitions

* `ModbusServer.writeRegistersInPlace`: the words and the registers behind a call.
* `ModbusServer.ReversibleWrite`: an exact block write that can be undone.

## Main results

* `ModbusServer.writeRegistersInPlace_eq`: the loops permute the words and store them as a block.
* `ModbusServer.reversibleWrite`: every write inside the table is of this kind.
-/

namespace ModbusServer

open CInt CText Loops

/-- `write_registers`: the words and the registers behind the call. -/
def writeRegistersInPlace (start_idx : ℤ) (words : List Word) (order : ByteOrder)
    (registers : List Word) : List Word × List Word :=
  let count := words.length
  let words :=
    if order = .swap then upTo count (fun words i => words.modify i swapBytes) words else words
  let words :=
    if order = .be ∧ count = 2 then
      let tmp := words.getD 0 0
      let words := words.set 0 (words.getD 1 0)
      words.set 1 tmp
    else words
  (words, upTo count (fun registers i => Stores.put registers (start_idx + i, words.getD i 0))
    registers)

/-! ### The loops -/

theorem upTo_put (start : ℤ) (words registers : List Word) :
    upTo words.length (fun registers i => Stores.put registers (start + i, words.getD i 0))
      registers = Stores.apply registers (Stores.block start words) := by
  have hloop : upTo words.length
      (fun registers i => Stores.put registers (start + i, words.getD i 0)) registers =
        Stores.apply registers (Stores.block start (words.take words.length)) := by
    refine upTo_induction
      (P := fun i t => t = Stores.apply registers (Stores.block start (words.take i))) rfl ?_
    rintro i _ hi rfl
    have htake : words.take (i + 1) = words.take i ++ [words.getD i 0] := by
      rw [List.take_add_one, List.getElem?_eq_getElem hi, List.getD_eq_getElem _ _ hi]
      rfl
    rw [htake, Stores.block_concat, Stores.apply_append, List.length_take_of_le hi.le]
    rfl
  rwa [List.take_length] at hloop

/-- The exchange of two words. -/
theorem set_set_eq_exchangeWords (words : List Word) (order : ByteOrder) :
    (if order = .be ∧ words.length = 2 then
      (words.set 0 (words.getD 1 0)).set 1 (words.getD 0 0) else words) =
      exchangeWords words order := by
  rw [exchangeWords]
  split_ifs with hpair
  · obtain ⟨v, w, rfl⟩ := List.length_eq_two.mp hpair.2
    rfl
  · rfl

/-- **The loops** permute the words in place, and store them as a block. -/
theorem writeRegistersInPlace_eq (start_idx : ℤ) (words : List Word) (order : ByteOrder)
    (registers : List Word) : writeRegistersInPlace start_idx words order registers =
      (permuteWords words order,
        Stores.apply registers (writeRegisters start_idx words order)) := by
  have hbytes : (if order = .swap then
      upTo words.length (fun words i => words.modify i swapBytes) words else words) =
        exchangeBytes words order := by
    rw [exchangeBytes, upTo_modify]
  have hlength : words.length = (exchangeBytes words order).length := by
    rw [exchangeBytes]
    split_ifs <;> simp
  have hwords := set_set_eq_exchangeWords (exchangeBytes words order) order
  rw [writeRegistersInPlace]
  simp only [hbytes]
  rw [hlength, hwords, ← permuteWords, ← hlength, ← length_permuteWords words order, upTo_put,
    writeRegisters]

/-! ### Block writes -/

/-- The registers of a block. -/
def registersAt (registers : List Word) (start_idx : ℤ) (count : ℕ) : List Word :=
  (registers.drop start_idx.toNat).take count

/-- A call of `write_registers` changes no register outside of its block; a second call with the
words that it has stored there, and with the same order, leaves the words of the first call; and a
single word is stored as the inline code for the two datatypes of sixteen bits stores it. -/
structure ReversibleWrite (start_idx : ℤ) (words : List Word) (order : ByteOrder)
    (registers : List Word) : Prop where
  length_eq : (writeRegistersInPlace start_idx words order registers).2.length = registers.length
  outside : ∀ i : ℕ, i < start_idx ∨ start_idx + words.length ≤ i →
    (writeRegistersInPlace start_idx words order registers).2[i]? = registers[i]?
  restored :
    let stored := (writeRegistersInPlace start_idx words order registers).2
    registersAt (writeRegistersInPlace start_idx (registersAt stored start_idx words.length) order
      stored).2 start_idx words.length = words
  single : ∀ w, words = [w] → ∀ datatype ∈ [ascii "uint16", ascii "int16"], ∀ d : Double,
    BitVec.ofInt 16 (CJson.number d).valueint = w →
    Stores.apply registers (valueStores start_idx datatype (.number d) order) =
      (writeRegistersInPlace start_idx words order registers).2

/-- **Every write inside the table** is an exact block write that can be undone. -/
theorem reversibleWrite (start_idx : ℤ) (words : List Word) (order : ByteOrder)
    (registers : List Word) (h0 : 0 ≤ start_idx)
    (hend : start_idx + words.length ≤ registers.length) :
    ReversibleWrite start_idx words order registers where
  length_eq := by simp [writeRegistersInPlace_eq]
  outside i hi := by
    rw [writeRegistersInPlace_eq]
    refine Stores.getElem?_apply_block_of_outside ?_
    rwa [length_permuteWords]
  restored := by
    have hblock (ws t : List Word) (hlength : ws.length = words.length)
        (ht : t.length = registers.length) :
        registersAt (writeRegistersInPlace start_idx ws order t).2 start_idx words.length =
          permuteWords ws order := by
      rw [writeRegistersInPlace_eq, writeRegisters, registersAt, ← hlength,
        ← length_permuteWords ws order]
      refine Stores.take_drop_apply_block h0 ?_
      rwa [length_permuteWords, hlength, ht]
    have hfirst := hblock words registers rfl rfl
    dsimp only
    rw [hfirst, hblock _ _ (length_permuteWords words order) (by simp [writeRegistersInPlace_eq]),
      permuteWords_permuteWords]
  single := by
    rintro w rfl datatype hdatatype d rfl
    rw [writeRegistersInPlace_eq, writeRegisters, permuteWords_singleton]
    have hname : ascii "int16" ≠ ascii "uint16" := by decide
    rcases List.mem_pair.mp hdatatype with rfl | rfl
    · simp [valueStores, isNumber]
    · simp [valueStores, isNumber, hname]

/-- A pair of words in the middle of four registers, high word first. -/
theorem reversibleWrite_pair : ReversibleWrite 1 [0x1234, 0x5678] .be [1, 2, 3, 4] :=
  reversibleWrite 1 [0x1234, 0x5678] .be [1, 2, 3, 4] (by decide) (by decide)

example : writeRegistersInPlace 1 [0x1234, 0x5678] .be [1, 2, 3, 4] =
    ([0x5678, 0x1234], [1, 0x5678, 0x1234, 4]) := by decide

end ModbusServer
