import Mathlib.Data.Finset.Union
import Mathlib.Data.Fintype.Basic
import ModbusServer.Command.ProcessJson
import ModbusServer.Foundation.Runs
import ModbusServer.Server.Libmodbus
import ModbusServer.Server.Stdin

/-!
# The main loop

The loop of `main`, one iteration at a time. An iteration waits in `select`, processes at most one
text from the standard input, starts or stops the server, and then serves the descriptors that were
ready. The input of an iteration gives the outcomes of all calls it can make, the bytes that arrive
on the standard input, and the signals. A signal handler changes only the two flags, so a signal is
delivered at the points where the loop reads them; one that comes while a command is processed acts
like one just before or just behind the command.

Two things that the program does have no defined meaning: a command may store outside of the table,
and a descriptor may be put into an `fd_set` that has no room for it. Here neither changes a
variable, both are recorded, and a descriptor without room in the set is not ready.

The model of an iteration follows the blocks of the loop body. `continue` in the start-up block is
the result `false` of that block. The loop does not go on when `fgets` does not return, or after a
read through the null pointer `mb_mapping`. The function `run_server` of the same file has no
caller.

Source: `json-modbus-server.c`, lines 12–33, 140–161 and 425–688.

## Main definitions

* `ModbusServer.Server`: the globals, with the state of the environment.
* `ModbusServer.Input`: what the environment does during an iteration.
* `ModbusServer.commands`, `ModbusServer.startup`, `ModbusServer.stopServer`,
  `ModbusServer.acceptClient`, `ModbusServer.handleClients`, `ModbusServer.handleRtu`,
  `ModbusServer.reconnect`: the blocks of the loop body.
* `ModbusServer.iteration`, `ModbusServer.serverRun`: an iteration, and a run.
-/

namespace ModbusServer

open CInt CText

/-! ### The state -/

/-- `MAX_TCP_CLIENTS`. -/
def maxTcpClients : ℕ := 10

/-- `FD_SETSIZE`: an `fd_set` has room for the descriptors below it. -/
def fdSetsize : ℤ := 1024

/-- Where the program is: at the head of the loop, in a call of `fgets` that does not return,
behind an access through a null pointer, or returned from `main`. -/
inductive Status
  | atHead
  | waiting
  | crashed
  | returned
  deriving DecidableEq

/-- What the program does apart from printing: it passes a text to `process_json`, which may read
through a null pointer; it sees the end of the input; it enters the start-up block; it calls
`modbus_new_rtu`, `modbus_receive` or `modbus_reply`, the last with a table or without. -/
inductive Event
  | processJson (text : Bytes)
  | nullDereference
  | endOfInput
  | startup
  | newRtu
  | receive (fd : ℤ)
  | reply (mapping : Bool)
  deriving DecidableEq

/-- What has gone over a bound so far: a store into the table, or a descriptor put into an
`fd_set`. -/
structure Overruns where
  table : Bool := false
  fds : Bool := false
  deriving DecidableEq

/-- The globals of the program, the environment, what has been printed on `stdout`, and what the
program has done so far. -/
structure Server where
  flags : Flags := { server_state := .running, running := true }
  mb_mapping : Option Mapping := none
  ctx_tcp : Option Ctx := none
  ctx_rtu : Option Ctx := none
  tcp_listen_sock : ℤ := -1
  tcp_conn_socks : Fin maxTcpClients → ℤ := fun _ => 0
  tcp_conn_count : ℤ := 0
  os : Os := {}
  stdin : Stdin
  stdout : List Bytes := [ascii "\x7b\"ready\":true\x7d\n"]
  trace : List Event := []
  status : Status := .atHead
  overruns : Overruns := {}

/-! ### The environment -/

/-- The points of an iteration at which a signal can be delivered: before each read of a flag. -/
inductive Point
  | head
  | poll
  | maxfd
  | command
  | startup
  | stop
  | connections
  | reconnect
  deriving DecidableEq

/-- The outcome of `select`: an error, which may be an interruption by a signal, or the sockets that
are ready. -/
inductive Select
  | failed (eintr : Bool)
  | ready (sockets : Finset ℤ)

/-- The outcome of `modbus_tcp_accept`: a descriptor, or -1, possibly with the listening socket
closed. -/
inductive Accept
  | connection (fd : ℤ)
  | failed
  | failedClosing

/-- The outcome of `modbus_receive`: its return value, and whether `errno` is `EAGAIN` or
`EWOULDBLOCK`. A request that is answered may write registers; `modbus_reply` itself refuses a write
outside of the table. -/
structure Receive where
  rc : ℤ := 0
  again : Bool := false
  written : List (ℤ × Word) := []

/-- What the environment does during an iteration. -/
structure Input where
  signal : Point → Bool := fun _ => false
  beforeSelect : List Arrival := []
  select : Select := .ready ∅
  afterSelect : List Arrival := []
  waiting : List Arrival := []
  newTcp : Bool := false
  listen : Option ℤ := none
  newRtu : Bool := false
  connect : Option ℤ := none
  newMapping : Bool := false
  accept : Accept := .failed
  client : Fin maxTcpClients → Receive := fun _ => {}
  rtu : Receive := {}
  newRtuAgain : Bool := false
  connectAgain : Option ℤ := none
  fcntl : Bool := true

/-! ### Signals and `select` -/

/-- `signal_handler`, if a signal is delivered at the point. -/
def signalHandler (i : Input) (p : Point) (w : Server) : Server :=
  if i.signal p then { w with flags := { server_state := .stopped, running := false } } else w

/-- The slots of the client table, in their order. -/
def slots : List (Fin maxTcpClients) := List.finRange maxTcpClients

/-- The descriptors that are put into the set for `select`. -/
def watched (cfg : Config) (w : Server) : Finset ℤ :=
  if w.flags.server_state = .running then
    let listen := if cfg.enable_tcp ∧ w.tcp_listen_sock ≠ -1 then {w.tcp_listen_sock} else ∅
    let clients := if cfg.enable_tcp then
      (Finset.univ.image w.tcp_conn_socks).filter (· ≠ -1) else ∅
    let rtu := match w.ctx_rtu with
      | some ctx => if cfg.enable_rtu ∧ ctx.s ≠ -1 then {ctx.s} else ∅
      | none => ∅
    insert 0 (listen ∪ clients ∪ rtu)
  else {0}

/-- The `fd_set` with the descriptors: those it has room for. -/
def fdSet (fds : Finset ℤ) : Finset ℤ := fds.filter (· < fdSetsize)

/-- `FD_SET` for descriptors; one that the set has no room for is recorded. -/
def Server.watch (fds : Finset ℤ) (w : Server) : Server :=
  { w with overruns := { w.overruns with
      fds := w.overruns.fds || decide (∃ fd ∈ fds, fdSetsize ≤ fd) } }

/-- The descriptors in the set given to `select`. -/
def polled (cfg : Config) (w : Server) : Finset ℤ := fdSet (watched cfg w)

/-- The largest descriptor given to `select`. -/
def maxfd (cfg : Config) (w : Server) : ℤ :=
  if w.flags.server_state = .running then
    let m := if cfg.enable_tcp then
      slots.foldl (fun m k => max m (w.tcp_conn_socks k)) (max 0 w.tcp_listen_sock) else 0
    match w.ctx_rtu with
    | some ctx => if cfg.enable_rtu then max m ctx.s else m
    | none => m
  else 0

/-- The set `fds` after `select`, when the sockets are ready: what `select` looks at is the part of
the set below `nfds`. -/
def readyFds (fds : Finset ℤ) (nfds : ℤ) (sockets : Finset ℤ) (stdin : Stdin) : Finset ℤ :=
  fds.filter fun fd => fd < nfds ∧ if fd = 0 then stdin.readable = true else fd ∈ sockets

/-! ### Commands -/

/-- The call of `process_json` with what `fgets` has put into `buf`. -/
def processText (cfg : Config) (i : Input) (buf : Bytes) (w : Server) : Server :=
  let w := signalHandler i .command w
  let text := cString buf
  let (effects, flags) := processJson cfg w.mb_mapping w.flags text
  let null := Effect.nullDereference ∈ effects
  { w with
    flags := flags
    mb_mapping := w.mb_mapping.map (·.apply effects)
    stdout := w.stdout ++ printed effects
    trace := w.trace ++ .processJson text :: if null then [.nullDereference] else []
    status := if null then .crashed else w.status
    overruns := { w.overruns with
      table := w.overruns.table || w.mb_mapping.any (·.overruns effects) } }

/-- The end of the standard input, which is treated as a stop. -/
def endInput (w : Server) : Server :=
  { w with
    flags := { server_state := .stopped, running := false }
    trace := w.trace ++ [.endOfInput] }

/-- The block that reads a text from the standard input. -/
def commands (cfg : Config) (i : Input) (fds : Finset ℤ) (w : Server) : Server :=
  if 0 ∈ fds then
    match (i.afterSelect.foldl Stdin.arrive w.stdin).fgets i.waiting with
    | .line buf stdin => processText cfg i buf { w with stdin := stdin }
    | .eof stdin => endInput { w with stdin := stdin }
    | .blocked => { w with status := .waiting }
  else w

/-! ### Start-up -/

/-- The part of the start-up block for TCP. -/
def startTcp (cfg : Config) (i : Input) (w : Server) : Server × Bool :=
  if cfg.enable_tcp then
    let (ctx, os) := w.os.newContext i.newTcp
    match ctx with
    | none => ({ w with ctx_tcp := none, os := os }, false)
    | some c =>
      let (fd, os) := os.openDescriptor i.listen
      let w := { w with ctx_tcp := some c, tcp_listen_sock := fd, os := os }
      if fd = -1 then (w, false)
      else ({ w with tcp_conn_socks := fun _ => -1, tcp_conn_count := 0 }, true)
  else (w, true)

/-- A new RTU context is given its timeout if it has a descriptor, and connected; if that fails it
is freed. -/
def connectRtu (fcntl : Bool) (offer : Option ℤ) (c : Ctx) (w : Server) : Server × Bool :=
  let (c, os) :=
    if c.s ≠ -1 then ({ c with response_timeout := 100000 }, w.os.setNonblocking c.s fcntl)
    else (c, w.os)
  let (fd, os) := os.openDescriptor offer
  if fd = -1 then ({ w with ctx_rtu := none, os := os.modbusFree (some c) }, false)
  else ({ w with ctx_rtu := some { c with s := fd }, os := os }, true)

/-- The creation of an RTU context and its connection, the same in the start-up block and in the
block that reconnects. -/
def openRtu (new fcntl : Bool) (offer : Option ℤ) (w : Server) : Server × Bool :=
  let (ctx, os) := w.os.newContext new
  let w := { w with ctx_rtu := ctx, os := os, trace := w.trace ++ [.newRtu] }
  match ctx with
  | none => (w, false)
  | some c => connectRtu fcntl offer c w

/-- The part of the start-up block for RTU. -/
def startRtu (cfg : Config) (i : Input) (w : Server) : Server × Bool :=
  if cfg.enable_rtu then openRtu i.newRtu i.fcntl i.connect w else (w, true)

theorem Config.length_replicate_nb_le (cfg : Config) :
    (List.replicate cfg.nb_holding_regs.toNat (0 : BitVec 16)).length ≤ INT_MAX := by
  have hmax := cfg.isInt_nb.2
  rw [List.length_replicate]
  simp only [INT_MAX] at hmax ⊢
  omega

/-- The mapping of the configuration, with all registers zero. -/
def newMapping (cfg : Config) : Mapping where
  start_registers := cfg.holding_regs_start
  tab_registers := List.replicate cfg.nb_holding_regs.toNat 0
  length_le := cfg.length_replicate_nb_le

/-- The line that reports the start of the server. -/
def serverReadyLine (cfg : Config) : Bytes :=
  let bool (b : Bool) := ascii (if b then "true" else "false")
  ascii "\x7b\"status\":\"server_ready\",\"tcp\":" ++ bool cfg.enable_tcp ++
    ascii ",\"rtu\":" ++ bool cfg.enable_rtu ++ ascii ",\"unit_id\":" ++ intText cfg.unit_id ++
    ascii "\x7d\n"

/-- The part of the start-up block for the mapping. -/
def startMapping (cfg : Config) (i : Input) (w : Server) : Server × Bool :=
  if i.newMapping then
    ({ w with mb_mapping := some (newMapping cfg), stdout := w.stdout ++ [serverReadyLine cfg] },
      true)
  else (w, false)

/-- The next part of the start-up block, unless the part before it ended in a `continue`. -/
def orContinue (r : Server × Bool) (next : Server → Server × Bool) : Server × Bool :=
  if r.2 then next r.1 else r

/-- The parts of the start-up block. -/
def startParts (cfg : Config) (i : Input) (w : Server) : Server × Bool :=
  orContinue (startTcp cfg i w) fun w => orContinue (startRtu cfg i w) (startMapping cfg i)

/-- The start-up block; `false` if it ends in a `continue`. -/
def startup (cfg : Config) (i : Input) (w : Server) : Server × Bool :=
  let w := signalHandler i .startup w
  if w.flags.server_state = .running ∧ w.mb_mapping = none then
    startParts cfg i { w with trace := w.trace ++ [.startup] }
  else (w, true)

/-! ### Stopping -/

/-- The body of the loops that close the clients. -/
def closeClient (w : Server) (k : Fin maxTcpClients) : Server :=
  if w.tcp_conn_socks k ≠ -1 then
    { w with
      os := w.os.close (w.tcp_conn_socks k)
      tcp_conn_socks := Function.update w.tcp_conn_socks k (-1) }
  else w

/-- The part of the clean-up for TCP. -/
def releaseTcp (w : Server) : Server :=
  let w := slots.foldl closeClient w
  let os := if w.tcp_listen_sock ≠ -1 then w.os.close w.tcp_listen_sock else w.os
  { w with
    tcp_conn_count := 0
    os := os.modbusFree w.ctx_tcp
    tcp_listen_sock := -1
    ctx_tcp := none }

/-- The part of the clean-up for RTU. -/
def releaseRtu (w : Server) : Server :=
  { w with os := (w.os.modbusClose w.ctx_rtu).modbusFree w.ctx_rtu, ctx_rtu := none }

/-- The two clean-up blocks: everything TCP and RTU is closed and freed, and the mapping is freed.
They differ only in checks for null pointers that `modbus_close` and `modbus_free` make as well. -/
def release (cfg : Config) (w : Server) : Server :=
  let w := if cfg.enable_tcp then releaseTcp w else w
  let w := if cfg.enable_rtu then releaseRtu w else w
  { w with mb_mapping := none }

/-- The block that stops the server. -/
def stopServer (cfg : Config) (i : Input) (w : Server) : Server :=
  let w := signalHandler i .stop w
  if w.flags.server_state = .stopped ∧ w.mb_mapping.isSome then
    let w := release cfg w
    { w with stdout := w.stdout ++ [ascii "\x7b\"status\":\"server_stopped\"\x7d\n"] }
  else w

/-- The end of `main`, behind the loop. -/
def finish (cfg : Config) (w : Server) : Server :=
  let w := if w.mb_mapping.isSome then release cfg w else w
  { w with
    stdout := w.stdout ++ [ascii "\x7b\"status\":\"exited\"\x7d\n"]
    status := .returned }

/-! ### Serving -/

/-- `find_free_tcp_client_slot`. -/
def findFreeTcpClientSlot (w : Server) : Option (Fin maxTcpClients) :=
  slots.find? fun k => w.tcp_conn_socks k = -1

/-- `modbus_tcp_accept(ctx_tcp, &tcp_listen_sock)`, which keeps the descriptor in the context. -/
def modbusTcpAccept (accept : Accept) (w : Server) : ℤ × Server :=
  match accept with
  | .connection fd =>
    let (fd, os) := w.os.openDescriptor (some fd)
    (fd, { w with ctx_tcp := w.ctx_tcp.map ({ · with s := fd }), os := os })
  | .failed => (-1, { w with ctx_tcp := w.ctx_tcp.map ({ · with s := -1 }) })
  | .failedClosing =>
    (-1, { w with
      ctx_tcp := w.ctx_tcp.map ({ · with s := -1 })
      os := w.os.close w.tcp_listen_sock
      tcp_listen_sock := -1 })

/-- The block that accepts a connection. -/
def acceptClient (cfg : Config) (i : Input) (fds : Finset ℤ) (w : Server) : Server :=
  if cfg.enable_tcp ∧ w.tcp_listen_sock ≠ -1 ∧ w.tcp_listen_sock ∈ fds then
    match findFreeTcpClientSlot w with
    | some slot =>
      let (new_conn, w) := modbusTcpAccept i.accept w
      if new_conn ≠ -1 then
        { w with
          tcp_conn_socks := Function.update w.tcp_conn_socks slot new_conn
          tcp_conn_count := w.tcp_conn_count + 1 }
      else w
    | none =>
      let (temp_sock, w) := modbusTcpAccept i.accept w
      if temp_sock ≠ -1 then { w with os := w.os.close temp_sock } else w
  else w

/-- `modbus_reply(ctx, query, rc, mb_mapping)`. -/
def modbusReply (r : Receive) (w : Server) : Server :=
  { w with
    mb_mapping := w.mb_mapping.map (·.apply (storeEffects r.written))
    trace := w.trace ++ [.reply w.mb_mapping.isSome] }

/-- The body of the loop over the clients. -/
def handleClient (i : Input) (fds : Finset ℤ) (w : Server) (k : Fin maxTcpClients) : Server :=
  let fd := w.tcp_conn_socks k
  if fd ≠ -1 ∧ fd ∈ fds then
    let w := { w with
      ctx_tcp := w.ctx_tcp.map ({ · with s := fd })
      trace := w.trace ++ [.receive fd] }
    if 0 < (i.client k).rc then modbusReply (i.client k) w
    else if (i.client k).rc = -1 then
      { w with
        os := w.os.close fd
        tcp_conn_socks := Function.update w.tcp_conn_socks k (-1)
        tcp_conn_count := w.tcp_conn_count - 1 }
    else w
  else w

/-- The block that serves the clients. -/
def handleClients (cfg : Config) (i : Input) (fds : Finset ℤ) (w : Server) : Server :=
  if cfg.enable_tcp then slots.foldl (handleClient i fds) w else w

/-- The block that serves the RTU link, and drops it on an error other than `EAGAIN`. -/
def handleRtu (cfg : Config) (i : Input) (fds : Finset ℤ) (w : Server) : Server :=
  match w.ctx_rtu with
  | none => w
  | some ctx =>
    if cfg.enable_rtu ∧ ctx.s ≠ -1 ∧ ctx.s ∈ fds then
      let w := { w with trace := w.trace ++ [.receive ctx.s] }
      if 0 < i.rtu.rc then modbusReply i.rtu w
      else if i.rtu.rc = -1 ∧ i.rtu.again = false then
        { w with
          os := (w.os.modbusClose (some ctx)).modbusFree (some ctx)
          ctx_rtu := none }
      else w
    else w

/-- The block that tries to reconnect the RTU link. -/
def reconnect (cfg : Config) (i : Input) (w : Server) : Server :=
  let w := signalHandler i .reconnect w
  if cfg.enable_rtu ∧ w.ctx_rtu.isNone ∧ w.flags.server_state = .running then
    (openRtu i.newRtuAgain i.fcntl i.connectAgain w).1
  else w

/-! ### The loop -/

/-- The blocks that serve ready descriptors, up to the end of the RTU block. -/
def serve (cfg : Config) (i : Input) (fds : Finset ℤ) (w : Server) : Server :=
  handleRtu cfg i fds (handleClients cfg i fds (acceptClient cfg i fds w))

/-- The loop body behind the stop block, where `fds` is not empty if `select` returned more than
zero. -/
def connections (cfg : Config) (i : Input) (fds : Finset ℤ) (w : Server) : Server :=
  let w := signalHandler i .connections w
  if w.flags.server_state = .running ∧ fds.Nonempty then reconnect cfg i (serve cfg i fds w) else w

/-- The loop body behind `select`. -/
def afterSelect (cfg : Config) (i : Input) (fds : Finset ℤ) (w : Server) : Server :=
  let w := commands cfg i fds w
  if w.status = .atHead then
    match startup cfg i w with
    | (w, false) => w
    | (w, true) => connections cfg i fds (stopServer cfg i w)
  else w

/-- The state in which `select` is called, and the set and the bound it is called with. -/
def beforeSelect (cfg : Config) (i : Input) (w : Server) : Server × Finset ℤ × ℤ :=
  let w := signalHandler i .poll w
  let fds := polled cfg w
  let w := signalHandler i .maxfd (w.watch (watched cfg w))
  let nfds := maxfd cfg w + 1
  ({ w with stdin := i.beforeSelect.foldl Stdin.arrive w.stdin }, fds, nfds)

/-- An iteration of the loop, from the test of `running` on; the end of `main` if the test fails. -/
def iteration (cfg : Config) (w : Server) (i : Input) : Server :=
  let w := signalHandler i .head w
  if w.flags.running then
    let (w, fds, nfds) := beforeSelect cfg i w
    match i.select with
    | .failed true => w
    | .failed false => finish cfg w
    | .ready sockets => afterSelect cfg i (readyFds fds nfds sockets w.stdin) w
  else finish cfg w

/-- A step of the program. -/
def step (cfg : Config) (w : Server) (i : Input) : Server :=
  match w.status with
  | .atHead => iteration cfg w i
  | .waiting | .crashed | .returned => w

/-- The program when it enters the loop, with a buffer of `ahead + 1` bytes for the input. -/
def initial (ahead : ℕ) : Server := { stdin := { ahead := ahead } }

/-- A run of the program. -/
def serverRun (cfg : Config) (ahead : ℕ) (inputs : List Input) : Server :=
  Runs.run (step cfg) (initial ahead) inputs

end ModbusServer
