import ModbusServer.Adapters.Backend

/-!
# The RTU adapters

Two files define the functions of the RTU adapter. They create, configure and connect a context with
the same calls, but `core/server_controller.c` composes the attempt to reconnect of the clean-up and
the initialisation, and closes the link when `modbus_receive` reports an error other than `EAGAIN`
or `EWOULDBLOCK`, which `adapters/rtu_adapter.c` only reports.

The outcomes of the calls of libmodbus are given, among them the descriptor that `modbus_get_socket`
finds in a new context.

Source: `src/adapters/rtu_adapter.c`, `src/core/server_controller.c`; the inline copy in
`json-modbus-server.c`, lines 618–638.

## Main definitions

* `ModbusServer.RtuOutcome`: the outcomes of the calls of libmodbus.
* `ModbusServer.RtuAdapter.rtuAdapterInit` and the other functions of `adapters/rtu_adapter.c`.
* `ModbusServer.ServerController.rtuAdapterInit` and the other functions of
  `core/server_controller.c`.

## Main results

* `ModbusServer.interchangeable_iff`: the calls for which the implementations agree.
* `ModbusServer.not_interchangeable`: they do not agree for all calls.
-/

namespace ModbusServer

open Lifetimes

/-- The outcomes of the calls of libmodbus: whether `modbus_new_rtu` succeeds, the descriptor that
`modbus_get_socket` returns, the outcome of `fcntl`, the descriptor that `modbus_connect` is
offered, what `modbus_receive` returns, and whether `modbus_reply` succeeds. -/
structure RtuOutcome where
  new : Bool := false
  socket : ℤ := -1
  fcntl : Bool := true
  connect : Option ℤ := none
  receive : Receive := {}
  reply : Bool := true

/-! ### The calls of libmodbus -/

namespace ModbusBackend

/-- What happens to a context is added to the log. -/
def record (b : ModbusBackend) (log : List (Call ℕ ℤ)) : ModbusBackend :=
  { b with rtuLog := b.rtuLog ++ log }

/-- `modbus_new_rtu`. -/
def modbusNewRtu (b : ModbusBackend) (new : Bool) : ModbusBackend :=
  match b.os.newContext new with
  | (some c, os) => { b with ctx_rtu := some c, os := os }.record [.create c.id]
  | (none, os) => { b with ctx_rtu := none, os := os }

/-- `modbus_close(backend->ctx_rtu)`. -/
def modbusCloseRtu (b : ModbusBackend) (c : Ctx) : ModbusBackend :=
  { b with
    os := b.os.modbusClose (some c)
    ctx_rtu := some { c with s := -1 } }.record [.close c.id]

/-- `modbus_free(backend->ctx_rtu)`, and the null pointer that is assigned behind it. -/
def modbusFreeRtu (b : ModbusBackend) (c : Ctx) : ModbusBackend :=
  { b with
    os := b.os.modbusFree (some c)
    ctx_rtu := none }.record [.free c.id]

/-- The slave address, the debug mode and, for a context with a descriptor, the non-blocking mode
and the response timeout. -/
def configureRtu (b : ModbusBackend) (o : RtuOutcome) (c : Ctx) : ModbusBackend :=
  let b := b.record [.use c.id]
  if o.socket ≠ -1 then
    { b with
      os := b.os.setNonblocking o.socket o.fcntl
      ctx_rtu := some { c with response_timeout := 100000 } }
  else b

/-- `modbus_connect(backend->ctx_rtu)`; the context is freed if it fails. -/
def modbusConnectRtu (b : ModbusBackend) (o : RtuOutcome) (c : Ctx) : ℤ × ModbusBackend :=
  let (fd, os) := b.os.openUnused o.connect
  let b := { b with os := os }.record [.use c.id]
  if fd = -1 then (-1, b.modbusFreeRtu c)
  else
    let b := b.record [.open c.id fd]
    (0, { b with ctx_rtu := b.ctx_rtu.map ({ · with s := fd }) })

/-- A context is created, configured and connected. -/
def openRtu (b : ModbusBackend) (o : RtuOutcome) : ℤ × ModbusBackend :=
  let b := b.modbusNewRtu o.new
  match b.ctx_rtu with
  | none => (-1, b)
  | some c => (b.configureRtu o c).modbusConnectRtu o c

/-- `modbus_receive` and, for a request, `modbus_reply`; `dropped` is the state behind an error. -/
def handleRtu (b : ModbusBackend) (o : RtuOutcome) (dropped : ModbusBackend → ModbusBackend) :
    ℤ × ModbusBackend :=
  match b.ctx_rtu with
  | none => (-1, b)
  | some c =>
    let b := b.record [.use c.id]
    if 0 < o.receive.rc then
      (if o.reply then 1 else -1, (b.modbusReply o.receive).record [.use c.id])
    else if o.receive.rc = -1 then
      if o.receive.again then (0, b) else (-1, dropped b)
    else (0, b)

end ModbusBackend

/-- The four functions of an implementation. -/
structure RtuImplementation where
  init : RtuOutcome → ModbusBackend → ℤ × ModbusBackend
  handle : RtuOutcome → ModbusBackend → ℤ × ModbusBackend
  reconnect : RtuOutcome → ModbusBackend → ℤ × ModbusBackend
  cleanup : ModbusBackend → ModbusBackend

/-! ### `adapters/rtu_adapter.c` -/

namespace RtuAdapter

/-- `rtu_adapter_init`. -/
def rtuAdapterInit (o : RtuOutcome) (b : ModbusBackend) : ℤ × ModbusBackend := b.openRtu o

/-- `rtu_adapter_handle`. -/
def rtuAdapterHandle (o : RtuOutcome) (b : ModbusBackend) : ℤ × ModbusBackend := b.handleRtu o id

/-- `rtu_adapter_reconnect`. -/
def rtuAdapterReconnect (o : RtuOutcome) (b : ModbusBackend) : ℤ × ModbusBackend :=
  match b.ctx_rtu with
  | some c => ((b.modbusCloseRtu c).modbusFreeRtu { c with s := -1 }).openRtu o
  | none => b.openRtu o

/-- `rtu_adapter_cleanup`. -/
def rtuAdapterCleanup (b : ModbusBackend) : ModbusBackend :=
  match b.ctx_rtu with
  | some c => (b.modbusCloseRtu c).modbusFreeRtu { c with s := -1 }
  | none => b

/-- The implementation in `adapters/rtu_adapter.c`. -/
def implementation : RtuImplementation :=
  ⟨rtuAdapterInit, rtuAdapterHandle, rtuAdapterReconnect, rtuAdapterCleanup⟩

end RtuAdapter

/-! ### `core/server_controller.c` -/

namespace ServerController

/-- `rtu_adapter_init`. -/
def rtuAdapterInit (o : RtuOutcome) (b : ModbusBackend) : ℤ × ModbusBackend := b.openRtu o

/-- `rtu_adapter_cleanup`. -/
def rtuAdapterCleanup (b : ModbusBackend) : ModbusBackend :=
  match b.ctx_rtu with
  | some c => (b.modbusCloseRtu c).modbusFreeRtu { c with s := -1 }
  | none => b

/-- `rtu_adapter_handle`. -/
def rtuAdapterHandle (o : RtuOutcome) (b : ModbusBackend) : ℤ × ModbusBackend :=
  b.handleRtu o rtuAdapterCleanup

/-- `rtu_adapter_reconnect`. -/
def rtuAdapterReconnect (o : RtuOutcome) (b : ModbusBackend) : ℤ × ModbusBackend :=
  rtuAdapterInit o (rtuAdapterCleanup b)

/-- The implementation in `core/server_controller.c`. -/
def implementation : RtuImplementation :=
  ⟨rtuAdapterInit, rtuAdapterHandle, rtuAdapterReconnect, rtuAdapterCleanup⟩

end ServerController

/-! ### Calls -/

/-- A call of an implementation with the outcomes of the calls it makes. -/
inductive RtuCall
  | init (o : RtuOutcome)
  | handle (o : RtuOutcome)
  | reconnect (o : RtuOutcome)
  | cleanup

/-- The return code of a call, if it has one, and the back end behind it. -/
def RtuImplementation.call (impl : RtuImplementation) (b : ModbusBackend) :
    RtuCall → Option ℤ × ModbusBackend
  | .init o => Prod.map some id (impl.init o b)
  | .handle o => Prod.map some id (impl.handle o b)
  | .reconnect o => Prod.map some id (impl.reconnect o b)
  | .cleanup => (none, impl.cleanup b)

/-- `modbus_receive` fails with an error other than `EAGAIN` and `EWOULDBLOCK`. -/
def Receive.HardError (r : Receive) : Prop := r.rc = -1 ∧ r.again = false

/-- The call receives from a link, with a hard error. -/
def RtuCall.HardError (b : ModbusBackend) : RtuCall → Prop
  | .handle o => b.ctx_rtu ≠ none ∧ o.receive.HardError
  | _ => False

/-- The implementations return the same code and leave the same back end behind, with the same log
of contexts created, opened, closed and freed; and neither leaves a context behind a hard error. -/
structure Interchangeable (b : ModbusBackend) (call : RtuCall) : Prop where
  agree : RtuAdapter.implementation.call b call = ServerController.implementation.call b call
  recovers : call.HardError b →
    (RtuAdapter.implementation.call b call).2.ctx_rtu = none ∧
      (ServerController.implementation.call b call).2.ctx_rtu = none

/-! ### Agreement -/

/-- The attempt to reconnect is the clean-up and the initialisation in both files. -/
theorem RtuAdapter.rtuAdapterReconnect_eq (o : RtuOutcome) (b : ModbusBackend) :
    rtuAdapterReconnect o b = ServerController.rtuAdapterReconnect o b := by
  rw [rtuAdapterReconnect, ServerController.rtuAdapterReconnect,
    ServerController.rtuAdapterInit, ServerController.rtuAdapterCleanup]
  cases b.ctx_rtu <;> rfl

/-- What is done with an error does not matter for the other outcomes. -/
theorem ModbusBackend.handleRtu_congr {b : ModbusBackend} {o : RtuOutcome}
    (h : ¬(b.ctx_rtu ≠ none ∧ o.receive.HardError)) (f g : ModbusBackend → ModbusBackend) :
    b.handleRtu o f = b.handleRtu o g := by
  rw [handleRtu, handleRtu]
  cases hctx : b.ctx_rtu with
  | none => rfl
  | some c =>
    have herror : ¬o.receive.HardError := fun herror => h ⟨by simp [hctx], herror⟩
    dsimp only
    split_ifs with hreceived hreply herr hagain
    · rfl
    · rfl
    · rfl
    · exact absurd ⟨herr, by simpa using hagain⟩ herror
    · rfl

/-- A hard error is answered with -1 and what is done with it. -/
theorem ModbusBackend.handleRtu_of_hardError {b : ModbusBackend} {o : RtuOutcome} {c : Ctx}
    (hctx : b.ctx_rtu = some c) (herror : o.receive.HardError) (f : ModbusBackend → ModbusBackend) :
    b.handleRtu o f = (-1, f (b.record [.use c.id])) := by
  simp [handleRtu, hctx, herror.1, herror.2]

theorem ServerController.ctx_rtu_rtuAdapterCleanup (b : ModbusBackend) :
    (rtuAdapterCleanup b).ctx_rtu = none := by
  rw [rtuAdapterCleanup]
  cases hctx : b.ctx_rtu with
  | none => exact hctx
  | some c => rfl

/-- The inline copy drops the link as well. -/
theorem ctx_rtu_handleRtu {cfg : Config} {i : Input} {fds : Finset ℤ} {w : Server} {ctx : Ctx}
    (hctx : w.ctx_rtu = some ctx) (hready : cfg.enable_rtu ∧ ctx.s ≠ -1 ∧ ctx.s ∈ fds)
    (herror : i.rtu.HardError) : (handleRtu cfg i fds w).ctx_rtu = none := by
  simp [handleRtu, hctx, hready, herror.1, herror.2]

/-- **The implementations are interchangeable** in exactly the calls that meet no hard error on a
link. Behind a hard error the copy in `main` leaves no context. -/
theorem interchangeable_iff (b : ModbusBackend) (call : RtuCall) :
    (Interchangeable b call ↔ ¬call.HardError b) ∧
      ∀ (cfg : Config) (i : Input) (fds : Finset ℤ) (w : Server) (ctx : Ctx),
        w.ctx_rtu = some ctx → cfg.enable_rtu ∧ ctx.s ≠ -1 ∧ ctx.s ∈ fds → i.rtu.HardError →
        (handleRtu cfg i fds w).ctx_rtu = none := by
  refine ⟨⟨fun h herror => ?_, fun h => ⟨?_, fun herror => absurd herror h⟩⟩,
    fun cfg i fds w ctx => ctx_rtu_handleRtu⟩
  · cases call with
    | handle o =>
      obtain ⟨c, hctx⟩ := Option.ne_none_iff_exists'.mp herror.1
      have hnone := (h.recovers herror).1
      simp [RtuImplementation.call, RtuAdapter.implementation, RtuAdapter.rtuAdapterHandle,
        ModbusBackend.handleRtu_of_hardError hctx herror.2, ModbusBackend.record, hctx] at hnone
    | _ => exact herror
  · cases call with
    | init o => rfl
    | handle o =>
      exact congrArg (Prod.map some id) (ModbusBackend.handleRtu_congr h _ _)
    | reconnect o =>
      exact congrArg (Prod.map some id) (RtuAdapter.rtuAdapterReconnect_eq o b)
    | cleanup => rfl

/-- A link on descriptor 5. -/
def linkedBackend : ModbusBackend where
  ctx_tcp := none
  ctx_rtu := some { id := 0, s := 5 }
  mapping := none
  tcp_listen_sock := -1
  tcp_conn_socks := fun _ => -1
  tcp_conn_count := 0
  os := { contexts := {0}, nextContext := 1, descriptors := {5} }

/-- The device is unplugged: `modbus_receive` fails with a hard error. -/
def unplugged : RtuOutcome where
  receive := { rc := -1 }

/-- Behind `unplugged` one implementation keeps the context and the other has freed it. -/
theorem not_interchangeable : ¬∀ (b : ModbusBackend) (call : RtuCall), Interchangeable b call := by
  intro h
  have hagree := congrArg (fun r => r.2.ctx_rtu.isSome)
    (h linkedBackend (.handle unplugged)).agree
  exact absurd hagree (by decide)

end ModbusServer
