import ModbusServer.Foundation.CInt
import ModbusServer.Foundation.CText
import ModbusServer.Foundation.Stores

/-!
# Registers and byte orders

A holding register is a word of sixteen bits. A value of two registers is written in one of three
orders, named by the request: low word first, high word first, or low word first with the two bytes
of each word exchanged. `writeRegisters` permutes the words of a value in place and then stores
them one after the other.

Source: `src/utils/byte_order.c`, lines 5–28, and its copy in `json-modbus-server.c`,
lines 132–138 and 163–178; the two copies differ only in where the table comes from.

## Main definitions

* `ModbusServer.Mapping`: the holding registers of a `modbus_mapping_t`.
* `ModbusServer.ByteOrder`, `ModbusServer.parseByteOrder`.
* `ModbusServer.permuteWords`, `ModbusServer.writeRegisters`.

## Main results

* `ModbusServer.permuteWords_permuteWords`: the permutation of words is an involution.
* `ModbusServer.permuteWords_singleton`: of a single word only `SWAP` exchanges the bytes.
-/

namespace ModbusServer

open CInt CText

/-- A `uint16_t`: the content of a register. -/
abbrev Word := BitVec 16

/-- The holding registers of a `modbus_mapping_t`, `start_registers` being the Modbus address of
the first of them. Their number fits in an `int`.

Source: `modbus.h`, lines 161–174. -/
structure Mapping where
  start_registers : ℤ := 0
  tab_registers : List Word
  length_le : tab_registers.length ≤ INT_MAX := by decide

/-- The field `nb_registers`: how many registers the table was allocated with. -/
def Mapping.nb_registers (mb : Mapping) : ℤ := mb.tab_registers.length

inductive ByteOrder
  | le
  | be
  | swap
  deriving DecidableEq

/-- The order named by a text, which is absent for a null pointer; an unknown name is `LE`. -/
def parseByteOrder : Option Bytes → ByteOrder
  | none => .le
  | some s =>
    if sameLetters s (ascii "LE") then .le
    else if sameLetters s (ascii "BE") then .be
    else if sameLetters s (ascii "SWAP") then .swap
    else .le

/-- The two bytes of a word exchanged: `(w >> 8) | (w << 8)`. -/
def swapBytes (w : Word) : Word := (w >>> 8) ||| (w <<< 8)

/-- The first loop of `write_registers`: `SWAP` exchanges the bytes of every word. -/
def exchangeBytes (words : List Word) (order : ByteOrder) : List Word :=
  if order = .swap then words.map swapBytes else words

/-- The second statement of `write_registers`: `BE` exchanges the two words of a pair. -/
def exchangeWords (words : List Word) (order : ByteOrder) : List Word :=
  if order = .be ∧ words.length = 2 then words.reverse else words

/-- What `write_registers` makes of the words in place before it stores them. -/
def permuteWords (words : List Word) (order : ByteOrder) : List Word :=
  exchangeWords (exchangeBytes words order) order

/-- The stores of `write_registers`: the permuted words at consecutive indices from `start_idx`. -/
def writeRegisters (start_idx : ℤ) (words : List Word) (order : ByteOrder) : List (ℤ × Word) :=
  Stores.block start_idx (permuteWords words order)

/-! ### Permuting words -/

theorem toNat_swapBytes (w : Word) :
    (swapBytes w).toNat = w.toNat % 256 * 256 + w.toNat / 256 := by
  have hlow : w.toNat / 256 < 2 ^ 8 := by omega
  have hhigh : w.toNat * 2 ^ 8 % 2 ^ 16 = (w.toNat % 256) <<< 8 := by
    rw [Nat.shiftLeft_eq]
    omega
  rw [swapBytes, BitVec.toNat_or, BitVec.toNat_ushiftRight, BitVec.toNat_shiftLeft,
    Nat.shiftRight_eq_div_pow, Nat.shiftLeft_eq, hhigh, Nat.or_comm,
    ← Nat.shiftLeft_add_eq_or_of_lt hlow, Nat.shiftLeft_eq]

@[simp] theorem swapBytes_swapBytes (w : Word) : swapBytes (swapBytes w) = w := by
  refine BitVec.eq_of_toNat_eq ?_
  have := w.isLt
  rw [toNat_swapBytes, toNat_swapBytes]
  omega

@[simp] theorem length_permuteWords (words : List Word) (order : ByteOrder) :
    (permuteWords words order).length = words.length := by
  simp only [permuteWords, exchangeWords, exchangeBytes]
  split_ifs <;> simp

/-- Of a single word only `SWAP` exchanges the bytes. -/
theorem permuteWords_singleton (w : Word) (order : ByteOrder) :
    permuteWords [w] order = [if order = .swap then swapBytes w else w] := by
  cases order <;> simp [permuteWords, exchangeWords, exchangeBytes]

/-- Permuting the words twice gives them back. -/
theorem permuteWords_permuteWords (words : List Word) (order : ByteOrder) :
    permuteWords (permuteWords words order) order = words := by
  cases order with
  | le => simp [permuteWords, exchangeWords, exchangeBytes]
  | be =>
    simp only [permuteWords, exchangeWords, exchangeBytes, reduceCtorEq, if_false, true_and]
    split_ifs <;> simp_all
  | swap => simp [permuteWords, exchangeWords, exchangeBytes, Function.comp_def]

end ModbusServer
