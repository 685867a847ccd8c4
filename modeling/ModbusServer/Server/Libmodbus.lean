import Mathlib.Data.Finset.Basic
import Mathlib.Data.Finset.Insert
import Mathlib.Tactic.SplitIfs

/-!
# Contexts and descriptors

What the server sees of libmodbus and of the operating system: contexts that are created and freed,
and descriptors that are opened and closed. Each call that can fail is given its outcome. A call
that opens a descriptor is offered a number, and fails if the number is in use; 0, 1 and 2 are the
standard streams, which stay open. Freeing a context only releases the context, closing it closes
its descriptor, and both ignore a null pointer. A context or a descriptor that is released twice is
recorded as misuse.

Source: the calls in `json-modbus-server.c`, lines 141–144 and 440–684; `modbus.h`, lines 188–208.

## Main definitions

* `ModbusServer.Ctx`: a `modbus_t`.
* `ModbusServer.Os`: the contexts and descriptors that are in use.
* `ModbusServer.Os.newContext`, `ModbusServer.Os.openDescriptor`, `ModbusServer.Os.close`,
  `ModbusServer.Os.modbusFree`, `ModbusServer.Os.modbusClose`.

## Main results

* `ModbusServer.Os.openDescriptor_cases`: a call that opens a descriptor fails, or returns a new
  one.
-/

namespace ModbusServer

/-- A `modbus_t`: the number of the context, its descriptor, -1 if it has none, and its response
timeout in microseconds. -/
structure Ctx where
  id : ℕ
  s : ℤ := -1
  response_timeout : ℕ := 500000
  deriving DecidableEq

/-- The contexts and the descriptors in use, and the descriptors in non-blocking mode. -/
structure Os where
  contexts : Finset ℕ := ∅
  nextContext : ℕ := 0
  descriptors : Finset ℤ := ∅
  nonblocking : Finset ℤ := ∅
  misuse : Bool := false

namespace Os

/-- `modbus_new_tcp` and `modbus_new_rtu`: a new context without a descriptor, or a null pointer. -/
def newContext (os : Os) (success : Bool) : Option Ctx × Os :=
  if success then
    (some { id := os.nextContext },
      { os with
        contexts := insert os.nextContext os.contexts
        nextContext := os.nextContext + 1 })
  else (none, os)

/-- A call that opens a descriptor, with the number it is offered: the descriptor, or -1. -/
def openDescriptor (os : Os) (offer : Option ℤ) : ℤ × Os :=
  match offer with
  | some fd =>
    if 2 < fd ∧ fd ∉ os.descriptors then
      (fd, { os with descriptors := insert fd os.descriptors })
    else (-1, os)
  | none => (-1, os)

/-- `close`. -/
def close (os : Os) (fd : ℤ) : Os :=
  if fd ∈ os.descriptors then
    { os with
      descriptors := os.descriptors.erase fd
      nonblocking := os.nonblocking.erase fd }
  else { os with misuse := true }

/-- `modbus_free`. -/
def modbusFree (os : Os) : Option Ctx → Os
  | some ctx =>
    if ctx.id ∈ os.contexts then { os with contexts := os.contexts.erase ctx.id }
    else { os with misuse := true }
  | none => os

/-- `modbus_close`. -/
def modbusClose (os : Os) : Option Ctx → Os
  | some ctx => if ctx.s ≠ -1 then os.close ctx.s else os
  | none => os

/-- `set_nonblocking`, with the outcome of `fcntl`. -/
def setNonblocking (os : Os) (fd : ℤ) (fcntl : Bool) : Os :=
  if fcntl then { os with nonblocking := insert fd os.nonblocking } else os

/-! ### What the calls change -/

section Calls

variable (os : Os) {fd : ℤ} {ctx : Ctx}

@[simp] theorem contexts_close : (os.close fd).contexts = os.contexts := by
  rw [close]
  split_ifs <;> rfl

@[simp] theorem nextContext_close : (os.close fd).nextContext = os.nextContext := by
  rw [close]
  split_ifs <;> rfl

@[simp] theorem descriptors_close : (os.close fd).descriptors = os.descriptors.erase fd := by
  rw [close]
  split_ifs with hfd
  · rfl
  · exact (Finset.erase_eq_of_notMem hfd).symm

theorem misuse_close (h : fd ∈ os.descriptors) : (os.close fd).misuse = os.misuse := by
  rw [close, if_pos h]

@[simp] theorem descriptors_modbusFree :
    (os.modbusFree (some ctx)).descriptors = os.descriptors := by
  rw [modbusFree]
  split_ifs <;> rfl

@[simp] theorem nextContext_modbusFree :
    (os.modbusFree (some ctx)).nextContext = os.nextContext := by
  rw [modbusFree]
  split_ifs <;> rfl

@[simp] theorem contexts_modbusFree :
    (os.modbusFree (some ctx)).contexts = os.contexts.erase ctx.id := by
  rw [modbusFree]
  split_ifs with hctx
  · rfl
  · exact (Finset.erase_eq_of_notMem hctx).symm

theorem misuse_modbusFree (h : ctx.id ∈ os.contexts) :
    (os.modbusFree (some ctx)).misuse = os.misuse := by
  rw [modbusFree, if_pos h]

/-- A call that opens a descriptor fails, or returns a new one. -/
theorem openDescriptor_cases (offer : Option ℤ) :
    ((∀ fd, offer = some fd → ¬(2 < fd ∧ fd ∉ os.descriptors)) ∧
      os.openDescriptor offer = (-1, os)) ∨
    ∃ fd, (offer = some fd ∧ 2 < fd ∧ fd ∉ os.descriptors) ∧
      os.openDescriptor offer = (fd, { os with descriptors := insert fd os.descriptors }) := by
  cases offer with
  | none => exact .inl ⟨by simp, rfl⟩
  | some fd =>
    by_cases hfd : 2 < fd ∧ fd ∉ os.descriptors
    · exact .inr ⟨fd, ⟨rfl, hfd⟩, if_pos hfd⟩
    · refine .inl ⟨?_, if_neg hfd⟩
      rintro _ ⟨⟩
      exact hfd

end Calls

end Os

end ModbusServer
