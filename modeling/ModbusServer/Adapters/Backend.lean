import ModbusServer.Foundation.Lifetimes
import ModbusServer.Server.MainLoop

/-!
# The back end of the refactored sources

The adapters work on a `ModbusBackend`, which holds what the server program keeps in its globals.
Calls of libmodbus and of the operating system are those of `Server/Libmodbus.lean`, but a call that
opens a descriptor may be offered any number that is not in use. What happens to the contexts of the
RTU link is kept in a log.

The adapters are called with a back end that exists. The messages they write to the log of the
program are left out.

Source: `src/adapters/modbus_backend.h`, `src/adapters/modbus_backend.c`.

## Main definitions

* `ModbusServer.ModbusBackend`, `ModbusServer.modbusBackendCreate`.
* `ModbusServer.Os.openUnused`: a call that opens a descriptor.

## Main results

* `ModbusServer.Os.openUnused_cases`: it fails, or returns a new descriptor.
-/

namespace ModbusServer

/-- `ModbusBackend`, with the environment and what has happened to the contexts of the RTU link. -/
structure ModbusBackend where
  ctx_tcp : Option Ctx
  ctx_rtu : Option Ctx
  mapping : Option Mapping
  tcp_listen_sock : ℤ
  tcp_conn_socks : Fin maxTcpClients → ℤ
  tcp_conn_count : ℤ
  os : Os := {}
  rtuLog : List (Lifetimes.Call ℕ ℤ) := []

/-- `modbus_backend_create`, with the outcome of `malloc`. -/
def modbusBackendCreate (malloc : Bool) : Option ModbusBackend :=
  if malloc then
    some {
      ctx_tcp := none
      ctx_rtu := none
      mapping := none
      tcp_listen_sock := -1
      tcp_conn_count := 0
      tcp_conn_socks := fun _ => -1 }
  else none

/-- `modbus_reply(ctx, query, rc, backend->mapping)` writes the registers of the request. -/
def ModbusBackend.modbusReply (b : ModbusBackend) (r : Receive) : ModbusBackend :=
  { b with mapping := b.mapping.map (·.apply (storeEffects r.written)) }

namespace Os

/-- A call that opens a descriptor, with the number it is offered: the descriptor, or -1. -/
def openUnused (os : Os) (offer : Option ℤ) : ℤ × Os :=
  match offer with
  | some fd =>
    if 0 ≤ fd ∧ fd ∉ os.descriptors then
      (fd, { os with descriptors := insert fd os.descriptors })
    else (-1, os)
  | none => (-1, os)

/-- A call that opens a descriptor fails, or returns a new one. -/
theorem openUnused_cases (os : Os) (offer : Option ℤ) :
    ((∀ fd, offer = some fd → ¬(0 ≤ fd ∧ fd ∉ os.descriptors)) ∧
      os.openUnused offer = (-1, os)) ∨
    ∃ fd, (offer = some fd ∧ 0 ≤ fd ∧ fd ∉ os.descriptors) ∧
      os.openUnused offer = (fd, { os with descriptors := insert fd os.descriptors }) := by
  cases offer with
  | none => exact .inl ⟨by simp, rfl⟩
  | some fd =>
    by_cases hfd : 0 ≤ fd ∧ fd ∉ os.descriptors
    · exact .inr ⟨fd, ⟨rfl, hfd⟩, if_pos hfd⟩
    · refine .inl ⟨?_, if_neg hfd⟩
      rintro _ ⟨⟩
      exact hfd

end Os

theorem modbusBackendCreate_eq {malloc : Bool} {b : ModbusBackend}
    (h : modbusBackendCreate malloc = some b) :
    b.ctx_tcp = none ∧ b.ctx_rtu = none ∧ b.tcp_listen_sock = -1 ∧ b.tcp_conn_count = 0 ∧
      b.tcp_conn_socks = (fun _ => -1) ∧ b.os = {} ∧ b.rtuLog = [] := by
  rw [modbusBackendCreate] at h
  split_ifs at h
  obtain rfl := Option.some.inj h
  exact ⟨rfl, rfl, rfl, rfl, rfl, rfl, rfl⟩

end ModbusServer
