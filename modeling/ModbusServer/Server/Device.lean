import ModbusServer.Foundation.Transitions
import ModbusServer.Server.Lifecycle

/-!
# The register device

What the program is for: it keeps a table of registers, which a start creates with all registers
zero and a stop drops, and which commands from the standard input and requests of Modbus clients
change in between. The device has no descriptors, no contexts and no loop, and a start cannot fail.
Its transitions are guarded: it starts when it is meant to run and has no table, it stops when it is
not meant to run and has one, it answers requests when it is meant to run and has a table, and it
does nothing once it is over.

The program refines the device. In every run, whatever the environment does, the table, the flags
and the lines on `stdout` are those at the end of a path of the device. The commands, the end of
the input and the answered requests that the path names are those of the run, in their order, and
its signals and requests are among those of the environment, in their order and with their stores.
So every register of the program holds the last word that a command or a request has stored in it
since the last start, or zero.

Source: `json-modbus-server.c`, lines 140–161 and 425–688.

## Main definitions

* `ModbusServer.Device`, `ModbusServer.Device.Step`: the device.
* `ModbusServer.Server.device`: the device in the program.
* `ModbusServer.Input.offers`: what the environment does to the device during an iteration.
* `ModbusServer.Device.TableSinceStart`: the table and the effects since the last start.

## Main results

* `ModbusServer.explained_serverRun`: the program refines the device.
* `ModbusServer.Device.tableSinceStart_of_path`: the table of the device.
* `ModbusServer.registers_serverRun`: the registers of the program.
-/

namespace ModbusServer

open CText Transitions

/-! ### The device -/

/-- The state of the device: the flags, the table, the lines that have been printed, whether a
command has stored outside of the table, and whether the device is over. -/
structure Device where
  flags : Flags
  table : Option Mapping
  stdout : List Bytes
  overrun : Bool
  ended : Bool

namespace Device

/-- What happens to the device. A command comes with its effects, a request with its stores. -/
inductive Action
  | signal
  | command (text : Bytes) (effects : List Effect)
  | endOfInput
  | start
  | stop
  | request (written : List (ℤ × Word))
  | exit

/-- The transitions of the device. -/
inductive Step (cfg : Config) : Device → Action → Device → Prop
  | signal {d : Device} (hlive : d.ended = false) :
      Step cfg d .signal { d with flags := ⟨.stopped, false⟩ }
  | command {d : Device} (hlive : d.ended = false) (text : Bytes) :
      Step cfg d (.command text (processJson cfg d.table d.flags text).1) { d with
        flags := (processJson cfg d.table d.flags text).2
        table := d.table.map (·.apply (processJson cfg d.table d.flags text).1)
        stdout := d.stdout ++ printed (processJson cfg d.table d.flags text).1
        overrun := d.overrun ||
          d.table.any (·.overruns (processJson cfg d.table d.flags text).1) }
  | endOfInput {d : Device} (hlive : d.ended = false) :
      Step cfg d .endOfInput { d with flags := ⟨.stopped, false⟩ }
  | start {d : Device} (hlive : d.ended = false) (hrunning : d.flags.server_state = .running)
      (hnone : d.table = none) :
      Step cfg d .start { d with
        table := some (newMapping cfg)
        stdout := d.stdout ++ [serverReadyLine cfg] }
  | stop {d : Device} (hlive : d.ended = false) (hstopped : d.flags.server_state = .stopped)
      (hsome : d.table.isSome = true) :
      Step cfg d .stop { d with
        table := none
        stdout := d.stdout ++ [ascii "\x7b\"status\":\"server_stopped\"\x7d\n"] }
  | request {d : Device} (hlive : d.ended = false) (hrunning : d.flags.server_state = .running)
      (hsome : d.table.isSome = true) (written : List (ℤ × Word)) :
      Step cfg d (.request written) { d with
        table := d.table.map (·.apply (storeEffects written)) }
  | exit {d : Device} (hlive : d.ended = false) :
      Step cfg d .exit { d with
        table := none
        stdout := d.stdout ++ [ascii "\x7b\"status\":\"exited\"\x7d\n"]
        ended := true }

/-- The device when the program enters its loop. -/
def initial : Device where
  flags := { server_state := .running, running := true }
  table := none
  stdout := [ascii "\x7b\"ready\":true\x7d\n"]
  overrun := false
  ended := false

end Device

/-! ### What is seen -/

/-- What is seen of the program and of the device: the texts that are passed to `process_json`, the
end of the input, and the requests that are answered, with a table or without. -/
inductive Observation
  | command (text : Bytes)
  | endOfInput
  | request (table : Bool)

/-- What is seen of an event of the program. -/
def Event.observation : Event → Option Observation
  | .processJson text => some (.command text)
  | .endOfInput => some .endOfInput
  | .reply mapping => some (.request mapping)
  | .nullDereference | .startup | .newRtu | .receive _ => none

/-- What is seen of an action of the device, which answers all requests with a table. -/
def Device.Action.observation : Device.Action → Option Observation
  | .command text _ => some (.command text)
  | .endOfInput => some .endOfInput
  | .request _ => some (.request true)
  | .signal | .start | .stop | .exit => none

/-- What has been seen of the program so far. -/
def Server.observations (w : Server) : List Observation := w.trace.filterMap Event.observation

/-- What the environment does to the device: it delivers signals and requests. -/
inductive Offer
  | signal
  | request (written : List (ℤ × Word))

/-- What an action of the device takes of the environment. -/
def Device.Action.offer : Device.Action → Option Offer
  | .signal => some .signal
  | .request written => some (.request written)
  | .command _ _ | .endOfInput | .start | .stop | .exit => none

/-- A request that has been received. -/
def Receive.offers (r : Receive) : List Offer := if 0 < r.rc then [.request r.written] else []

/-- A signal that is delivered at a point. -/
def Input.signalAt (i : Input) (p : Point) : List Offer := if i.signal p then [.signal] else []

/-- What the environment delivers behind the stop block. -/
def Input.served (i : Input) : List Offer :=
  i.signalAt .connections ++
    (slots.flatMap (fun k => (i.client k).offers) ++ i.rtu.offers ++ i.signalAt .reconnect)

/-- What the environment delivers during an iteration, in the order of the blocks. -/
def Input.offers (i : Input) : List Offer :=
  i.signalAt .head ++ i.signalAt .poll ++ i.signalAt .maxfd ++
    (i.signalAt .command ++ (i.signalAt .startup ++ (i.signalAt .stop ++ i.served)))

/-- The device in the program. -/
def Server.device (w : Server) : Device where
  flags := w.flags
  table := w.mb_mapping
  stdout := w.stdout
  overrun := w.overruns.table
  ended := w.status = .returned

/-- The change of the program is one of the device. -/
abbrev Refines (cfg : Config) : List Offer → Server → Server → Prop :=
  Explained (Device.Step cfg) Server.device Server.observations Device.Action.observation
    Device.Action.offer

/-! ### The blocks -/

section Blocks

variable {cfg : Config} {i : Input} {w w' : Server} {offers : List Offer}

theorem ended_device (h : w.status ≠ .returned) : w.device.ended = false := by
  simp [Server.device, h]

theorem observations_append {es : List Event} (h : w'.trace = w.trace ++ es) :
    w'.observations = w.observations ++ es.filterMap Event.observation := by
  rw [Server.observations, h, List.filterMap_append, Server.observations]

/-- What changes neither the device nor what is seen. -/
theorem refines_of_eq (hflags : w'.flags = w.flags) (hmapping : w'.mb_mapping = w.mb_mapping)
    (hstdout : w'.stdout = w.stdout) (hoverruns : w'.overruns = w.overruns)
    (hstatus : w'.status = w.status) (es : List Event) (htrace : w'.trace = w.trace ++ es)
    (hes : es.filterMap Event.observation = []) :
    Refines cfg offers w w' := by
  refine .of_eq ?_ ?_
  · rw [Server.device, hflags, hmapping, hstdout, hoverruns, hstatus, Server.device]
  · rw [observations_append htrace, hes, List.append_nil]

@[simp] theorem observations_signalHandler (i : Input) (p : Point) (w : Server) :
    (signalHandler i p w).observations = w.observations := by
  rw [Server.observations, trace_signalHandler, Server.observations]

theorem refines_signalHandler (hlive : w.status ≠ .returned) (i : Input) (p : Point) :
    Refines cfg (i.signalAt p) w (signalHandler i p w) := by
  rw [signalHandler, Input.signalAt]
  split_ifs
  · exact .single (.signal (ended_device hlive)) (by simp [Server.observations,
      Device.Action.observation]) rfl
  · exact .refl w

theorem refines_processText (hlive : w.status ≠ .returned) (buf : Bytes) :
    Refines cfg (i.signalAt .command) w (processText cfg i buf w) := by
  have hsignal : (signalHandler i .command w).status ≠ .returned := by simpa using hlive
  have hstatus : (processText cfg i buf w).status ≠ .returned := by
    rcases @status_processText cfg i w buf with heq | heq <;> rw [heq]
    · exact hlive
    · simp
  have hended :
      (processText cfg i buf w).device.ended = (signalHandler i .command w).device.ended := by
    rw [ended_device hstatus, ended_device hsignal]
  have hdevice : (processText cfg i buf w).device =
      { (signalHandler i .command w).device with
        flags := (processText cfg i buf w).flags
        table := (processText cfg i buf w).mb_mapping
        stdout := (processText cfg i buf w).stdout
        overrun := (processText cfg i buf w).overruns.table } := by
    simp only [Server.device] at hended ⊢
    rw [hended]
  have hstep : Device.Step cfg (signalHandler i .command w).device
      (.command (cString buf) (processJson cfg (signalHandler i .command w).mb_mapping
        (signalHandler i .command w).flags (cString buf)).1) (processText cfg i buf w).device := by
    rw [hdevice]
    exact .command (ended_device hsignal) (cString buf)
  have hcommand : Refines cfg [] (signalHandler i .command w) (processText cfg i buf w) := by
    refine .single hstep ?_ rfl
    rw [observations_append (trace_processText buf), observations_signalHandler,
      List.filterMap_cons]
    split_ifs <;> rfl
  rw [← List.append_nil (i.signalAt .command)]
  exact (refines_signalHandler hlive i .command).trans hcommand

/-- The command block. -/
theorem refines_commands (hlive : w.status ≠ .returned) (fds : Finset ℤ) :
    Refines cfg (i.signalAt .command) w (commands cfg i fds w) := by
  have hread (s : Stdin) : Refines cfg [] w { w with stdin := s } :=
    refines_of_eq rfl rfl rfl rfl rfl [] (by simp) rfl
  rcases commands_cases cfg i fds w with ⟨-, heq⟩ | ⟨-, buf, s, -, heq⟩ | ⟨-, s, -, heq⟩ |
    ⟨-, -, heq⟩
  · rw [heq]
    exact .refl w
  · rw [heq]
    exact (hread s).trans (refines_processText (w := { w with stdin := s }) hlive buf)
  · rw [heq]
    have hend : Refines cfg [] { w with stdin := s } (endInput { w with stdin := s }) := by
      refine .single (.endOfInput (ended_device hlive)) ?_ rfl
      have htrace : (endInput { w with stdin := s }).trace =
          ({ w with stdin := s } : Server).trace ++ [.endOfInput] := rfl
      rw [observations_append htrace]
      rfl
    exact ((hread s).trans hend).mono (List.nil_sublist _)
  · rw [heq]
    refine .of_eq ?_ rfl
    simp [Server.device, hlive]

theorem refines_startTcp : Refines cfg offers w (startTcp cfg i w).1 := by
  rcases startTcp_cases cfg i w with ⟨-, heq⟩ | ⟨-, -, heq⟩ | ⟨-, -, -, heq⟩ | ⟨-, -, fd, -, heq⟩
  all_goals
    rw [heq]
    exact refines_of_eq rfl rfl rfl rfl rfl [] (by simp) rfl

theorem refines_openRtu (new fcntl : Bool) (offer : Option ℤ) :
    Refines cfg offers w (openRtu new fcntl offer w).1 :=
  refines_of_eq (flags_openRtu w new fcntl offer) (mb_mapping_openRtu w new fcntl offer)
    (stdout_openRtu new fcntl offer w) (keeps_openRtu w new fcntl offer).overruns_eq
    (keeps_openRtu w new fcntl offer).status_eq [.newRtu] (trace_openRtu w new fcntl offer) rfl

theorem refines_startRtu : Refines cfg offers w (startRtu cfg i w).1 := by
  rw [startRtu]
  split_ifs
  · exact refines_openRtu _ _ _
  · exact .refl w

/-- The parts of the start-up block start the device, or leave it as it is. -/
theorem refines_startParts (hlive : w.status ≠ .returned)
    (hrunning : w.flags.server_state = .running) (hnone : w.mb_mapping = none) :
    Refines cfg [] w (startParts cfg i w).1 := by
  have htcp : Refines cfg [] w (startTcp cfg i w).1 := refines_startTcp
  have hrtu : Refines cfg [] w (startRtu cfg i (startTcp cfg i w).1).1 :=
    htcp.trans refines_startRtu
  rcases startParts_cases cfg i w with ⟨-, heq⟩ | ⟨-, -, heq⟩ | ⟨-, -, heq⟩
  · rwa [heq]
  · rwa [heq]
  · rw [heq]
    have hkeeps := (keeps_startTcp cfg i w).trans (keeps_startRtu cfg i (startTcp cfg i w).1)
    have hlive' : (startRtu cfg i (startTcp cfg i w).1).1.status ≠ .returned := by
      rwa [hkeeps.status_eq]
    have hrunning' : (startRtu cfg i (startTcp cfg i w).1).1.flags.server_state = .running := by
      rw [flags_startRtu, flags_startTcp, hrunning]
    have hnone' : (startRtu cfg i (startTcp cfg i w).1).1.mb_mapping = none := by
      rw [mb_mapping_startRtu, mb_mapping_startTcp, hnone]
    have hmapping : Refines cfg [] (startRtu cfg i (startTcp cfg i w).1).1
        (startMapping cfg i (startRtu cfg i (startTcp cfg i w).1).1).1 := by
      rw [startMapping]
      split_ifs
      · refine .single (.start (ended_device hlive') hrunning' hnone') ?_ rfl
        simp [Server.observations, Device.Action.observation]
      · exact .refl _
    exact hrtu.trans hmapping

/-- The start-up block. -/
theorem refines_startup (hlive : w.status ≠ .returned) :
    Refines cfg (i.signalAt .startup) w (startup cfg i w).1 := by
  have hsignal : Refines cfg (i.signalAt .startup) w (signalHandler i .startup w) :=
    refines_signalHandler hlive i .startup
  rcases startup_cases cfg i w with ⟨-, heq⟩ | ⟨⟨hrunning, hnone⟩, heq⟩
  · rwa [heq]
  · rw [heq, ← List.append_nil (i.signalAt .startup)]
    have htraced : Refines cfg [] (signalHandler i .startup w)
        { signalHandler i .startup w with
          trace := (signalHandler i .startup w).trace ++ [.startup] } :=
      refines_of_eq rfl rfl rfl rfl rfl [.startup] rfl rfl
    refine hsignal.trans ?_
    rw [← List.append_nil []]
    refine htraced.trans (refines_startParts ?_ hrunning ?_)
    · simpa using hlive
    · simpa using hnone

/-- The stop block. -/
theorem refines_stopServer (hlive : w.status ≠ .returned) :
    Refines cfg (i.signalAt .stop) w (stopServer cfg i w) := by
  have hsignal : (signalHandler i .stop w).status ≠ .returned := by simpa using hlive
  rw [← List.append_nil (i.signalAt .stop)]
  refine (refines_signalHandler hlive i .stop).trans ?_
  rw [stopServer]
  split_ifs with hstop
  · have hrel := releases_release cfg (signalHandler i .stop w)
    refine .single (a := .stop) ?_ ?_ rfl
    · have hdevice := @Device.Step.stop cfg _ (ended_device hsignal) hstop.1 hstop.2
      simp only [Server.device, hrel.flags_eq, hrel.status_eq, hrel.overruns_eq, stdout_release,
        mb_mapping_release]
      exact hdevice
    · simp [Server.observations, hrel.trace_eq, Device.Action.observation]
  · exact .refl _

/-- The program serves descriptors: it is meant to run and has a table. -/
structure Serving (w : Server) : Prop where
  live : w.status ≠ .returned
  running : w.flags.server_state = .running
  isSome : w.mb_mapping.isSome = true

theorem Serving.of_serves (h : Serving w) (hserves : Serves w w') : Serving w' where
  live := by
    rw [hserves.status_eq]
    exact h.live
  running := by
    rw [hserves.flags_eq]
    exact h.running
  isSome := hserves.mapping

theorem refines_acceptClient (fds : Finset ℤ) :
    Refines cfg [] w (acceptClient cfg i fds w) := by
  have haccept : Refines cfg [] w (modbusTcpAccept i.accept w).2 := by
    cases i.accept <;> exact .of_eq rfl rfl
  rw [acceptClient]
  split_ifs
  · split
    · dsimp only
      split_ifs
      · exact haccept.trans (.of_eq rfl rfl)
      · exact haccept
    · dsimp only
      split_ifs
      · exact haccept.trans (.of_eq rfl rfl)
      · exact haccept
  · exact .refl w

theorem refines_receive (fd : ℤ) (ctx : Option Ctx) :
    Refines cfg [] w { w with ctx_tcp := ctx, trace := w.trace ++ [.receive fd] } :=
  refines_of_eq rfl rfl rfl rfl rfl [.receive fd] rfl rfl

/-- A request is answered by the device. -/
theorem refines_modbusReply (h : Serving w) {r : Receive} (hr : 0 < r.rc) :
    Refines cfg r.offers w (modbusReply r w) := by
  refine .single (.request (ended_device h.live) h.running h.isSome r.written) ?_
    (if_pos hr).symm
  have htrace : (modbusReply r w).trace = w.trace ++ [.reply w.mb_mapping.isSome] := rfl
  rw [observations_append htrace, h.isSome]
  rfl

theorem refines_handleClient (h : Serving w) (fds : Finset ℤ) (k : Fin maxTcpClients) :
    Refines cfg (i.client k).offers w (handleClient i fds w k) := by
  have hreceive := h.of_serves (serves_receive w (w.tcp_conn_socks k)
    (w.ctx_tcp.map ({ · with s := w.tcp_conn_socks k })) h.isSome)
  rw [handleClient]
  dsimp only
  split_ifs with hfd hreply hclose
  · exact (refines_receive _ _).trans (refines_modbusReply hreceive hreply)
  · exact (refines_receive (w.tcp_conn_socks k) w.ctx_tcp).trans (.of_eq rfl rfl)
  · exact (refines_receive _ _).mono (List.nil_sublist _)
  · exact .refl w

theorem refines_handleClients (h : Serving w) (fds : Finset ℤ) :
    Refines cfg (slots.flatMap fun k => (i.client k).offers) w (handleClients cfg i fds w) := by
  rw [handleClients]
  split_ifs
  · exact explained_run (P := Serving)
      (fun w' k hw' => hw'.of_serves (serves_handleClient i w' fds k hw'.isSome))
      (fun w' k hw' => refines_handleClient hw' fds k) h slots
  · exact .refl w

theorem refines_handleRtu (h : Serving w) (fds : Finset ℤ) :
    Refines cfg i.rtu.offers w (handleRtu cfg i fds w) := by
  rw [handleRtu]
  split
  · exact .refl w
  · next ctx hctx =>
    have hreceive := h.of_serves (serves_receive w ctx.s w.ctx_tcp h.isSome)
    dsimp only
    split_ifs with hfd hreply hclose
    · exact (refines_receive _ _).trans (refines_modbusReply hreceive hreply)
    · exact (refines_receive ctx.s w.ctx_tcp).trans (.of_eq rfl rfl)
    · exact (refines_receive _ _).mono (List.nil_sublist _)
    · exact .refl w

theorem refines_serve (h : Serving w) (fds : Finset ℤ) :
    Refines cfg (slots.flatMap (fun k => (i.client k).offers) ++ i.rtu.offers) w
      (serve cfg i fds w) := by
  have haccept := h.of_serves (serves_acceptClient cfg i w fds h.isSome)
  have hclients := haccept.of_serves (serves_handleClients cfg i _ fds haccept.isSome)
  have hserved : Refines cfg (slots.flatMap fun k => (i.client k).offers) w
      (handleClients cfg i fds (acceptClient cfg i fds w)) :=
    (refines_acceptClient fds).trans (refines_handleClients haccept fds)
  exact hserved.trans (refines_handleRtu hclients fds)

theorem refines_reconnect (hlive : w.status ≠ .returned) :
    Refines cfg (i.signalAt .reconnect) w (reconnect cfg i w) := by
  have hsignal : Refines cfg (i.signalAt .reconnect) w (signalHandler i .reconnect w) :=
    refines_signalHandler hlive i .reconnect
  rw [reconnect]
  split_ifs
  · rw [← List.append_nil (i.signalAt .reconnect)]
    exact hsignal.trans (refines_openRtu _ _ _)
  · exact hsignal

/-- The blocks that serve connections. -/
theorem refines_connections (hlive : w.status ≠ .returned) (fds : Finset ℤ)
    (hmapping : w.flags.server_state = .running → w.mb_mapping.isSome = true) :
    Refines cfg i.served w (connections cfg i fds w) := by
  have hsignal : Refines cfg (i.signalAt .connections) w (signalHandler i .connections w) :=
    refines_signalHandler hlive i .connections
  rw [connections, Input.served]
  split_ifs with hserve
  · have hrunning := ((running_signalHandler_iff i .connections w).mp hserve.1).2
    have hserving : Serving (signalHandler i .connections w) :=
      ⟨by simpa using hlive, hserve.1, by simpa using hmapping hrunning⟩
    have hserved := hserving.of_serves (serves_serve cfg i _ fds hserving.isSome)
    exact hsignal.trans ((refines_serve hserving fds).trans (refines_reconnect hserved.live))
  · exact hsignal.mono (List.sublist_append_left _ _)

/-- The end of `main`. -/
theorem refines_finish (hlive : w.status ≠ .returned) : Refines cfg [] w (finish cfg w) := by
  refine .single (a := .exit) ?_ ?_ rfl
  · have hdevice := @Device.Step.exit cfg _ (ended_device hlive)
    have hmapping : (finish cfg w).mb_mapping = none := by
      obtain ⟨w', -, hnone, heq⟩ := finish_cases cfg w
      rw [heq, hnone]
    have hflags : (finish cfg w).flags = w.flags := by
      obtain ⟨w', hrel, -, heq⟩ := finish_cases cfg w
      rw [heq, ← hrel.flags_eq]
    have hoverruns : (finish cfg w).overruns = w.overruns := by
      obtain ⟨w', hrel, -, heq⟩ := finish_cases cfg w
      rw [heq, ← hrel.overruns_eq]
    have hstdout : (finish cfg w).stdout =
        w.stdout ++ [ascii "\x7b\"status\":\"exited\"\x7d\n"] := by
      rw [finish]
      split_ifs
      · simp only [stdout_release]
      · rfl
    simp only [Server.device, hmapping, hflags, hoverruns, hstdout]
    exact hdevice
  · simp [Server.observations, trace_finish, Device.Action.observation]

end Blocks

/-! ### Iterations and runs -/

section Runs

variable {cfg : Config} {w : Server} {i : Input}

theorem refines_atSelect (hlive : w.status ≠ .returned) :
    Refines cfg (i.signalAt .head ++ i.signalAt .poll ++ i.signalAt .maxfd) w
      (atSelect cfg w i) := by
  have hhead : Refines cfg (i.signalAt .head) w (signalHandler i .head w) :=
    refines_signalHandler hlive i .head
  have hpoll : Refines cfg (i.signalAt .poll) _ (signalHandler i .poll (signalHandler i .head w)) :=
    refines_signalHandler (by simpa using hlive) i .poll
  have hwatch : Refines cfg [] _ ((signalHandler i .poll (signalHandler i .head w)).watch
      (watched cfg (signalHandler i .poll (signalHandler i .head w)))) := .of_eq rfl rfl
  have hmaxfd : Refines cfg (i.signalAt .maxfd) _ (signalHandler i .maxfd _) :=
    hwatch.trans (refines_signalHandler (by simpa using hlive) i .maxfd)
  rw [← List.append_nil (i.signalAt .maxfd)]
  exact (hhead.trans hpoll).trans (hmaxfd.trans (.of_eq rfl rfl))

/-- The blocks behind `select`. -/
theorem refines_afterSelect (hlive : w.status ≠ .returned) (fds : Finset ℤ) :
    Refines cfg (i.signalAt .command ++ (i.signalAt .startup ++ (i.signalAt .stop ++ i.served))) w
      (afterSelect cfg i fds w) := by
  have hcommands : Refines cfg (i.signalAt .command) w (commands cfg i fds w) :=
    refines_commands hlive fds
  rw [afterSelect]
  split_ifs with hhead
  · have hlive' : (commands cfg i fds w).status ≠ .returned := by simp [hhead]
    have hstartup : Refines cfg (i.signalAt .startup) (commands cfg i fds w)
        (startup cfg i (commands cfg i fds w)).1 := refines_startup hlive'
    refine hcommands.trans ?_
    have hkeeps := keeps_startup cfg i (commands cfg i fds w)
    rcases hr : startup cfg i (commands cfg i fds w) with ⟨w', goesOn⟩
    rw [hr] at hstartup hkeeps
    have hlive₁ : w'.status ≠ .returned := by
      rw [hkeeps.status_eq]
      exact hlive'
    cases goesOn with
    | false => exact hstartup.mono (List.sublist_append_left _ _)
    | true =>
      have hlive₂ : (stopServer cfg i w').status ≠ .returned := by
        rw [(keeps_stopServer cfg i w').status_eq]
        exact hlive₁
      exact hstartup.trans ((refines_stopServer hlive₁).trans
        (refines_connections hlive₂ fds (isSome_of_running cfg i _ hr)))
  · exact hcommands.mono (List.sublist_append_left _ _)

/-- **A step** of the program is a path of the device. -/
theorem refines_step (cfg : Config) (w : Server) (i : Input) :
    Refines cfg i.offers w (step cfg w i) := by
  by_cases hlive : w.status = .returned
  · have hstep : step cfg w i = w := by rw [step, hlive]
    rw [hstep]
    exact .refl w
  have hselect : Refines cfg _ w (atSelect cfg w i) := refines_atSelect hlive
  have hlive' : (atSelect cfg w i).status ≠ .returned := by simpa using hlive
  rw [Input.offers]
  by_cases hselects : selects w i
  · rw [step_of_selects cfg hselects]
    exact hselect.trans (refines_afterSelect hlive' _)
  · have hfirst : (i.signalAt .head).Sublist (i.signalAt .head ++ i.signalAt .poll ++
        i.signalAt .maxfd ++ (i.signalAt .command ++
          (i.signalAt .startup ++ (i.signalAt .stop ++ i.served)))) := by
      simp only [List.append_assoc]
      exact List.sublist_append_left _ _
    rcases step_of_not_selects cfg hselects with heq | heq | heq | heq
    · rw [heq]
      exact .refl w
    · rw [heq]
      have hfinish : Refines cfg (i.signalAt .head ++ []) w
          (finish cfg (signalHandler i .head w)) :=
        (refines_signalHandler hlive i .head).trans (refines_finish (by simpa using hlive))
      rw [List.append_nil] at hfinish
      exact hfinish.mono hfirst
    · rw [heq]
      exact hselect.mono (List.sublist_append_left _ _)
    · rw [heq]
      exact hselect.trans ((refines_finish hlive').mono (List.nil_sublist _))

/-- **The program refines the device.** In every run the flags, the table and the printed lines are
those at the end of a path of the device that starts when the program enters its loop. -/
theorem explained_serverRun (cfg : Config) (ahead : ℕ) (inputs : List Input) :
    Refines cfg (inputs.flatMap Input.offers) (ModbusServer.initial ahead)
      (serverRun cfg ahead inputs) :=
  explained_run (P := fun _ => True) (fun _ _ _ => trivial) (fun w i _ => refines_step cfg w i)
    trivial inputs

end Runs

/-! ### The table -/

namespace Device

/-- The action creates or drops a table. -/
def Action.IsBoundary : Action → Prop
  | .start | .stop | .exit => True
  | .signal | .command _ _ | .endOfInput | .request _ => False

/-- The effects of an action on the table. -/
def Action.effects : Action → List Effect
  | .command _ effects => effects
  | .request written => storeEffects written
  | .signal | .endOfInput | .start | .stop | .exit => []

/-- The action is a command that stores outside of the table. -/
def Action.overruns (cfg : Config) : Action → Bool
  | .command _ effects => Stores.outside cfg.nb_holding_regs.toNat (stores effects)
  | .signal | .endOfInput | .start | .stop | .request _ | .exit => false

/-- A table is that of the configuration, changed by what has happened since the last start. -/
def TableSinceStart (cfg : Config) (as : List Action) (d : Device) : Prop :=
  ∀ m, d.table = some m → ∃ before since, as = before ++ .start :: since ∧
    (∀ a ∈ since, ¬a.IsBoundary) ∧ m = (newMapping cfg).apply (since.flatMap Action.effects)

variable {cfg : Config} {as : List Action} {d d' : Device} {a : Action}

/-- An action that neither creates nor drops a table. -/
theorem TableSinceStart.concat (h : TableSinceStart cfg as d) (ha : ¬a.IsBoundary)
    (htable : d'.table = d.table.map (·.apply a.effects)) :
    TableSinceStart cfg (as ++ [a]) d' := by
  intro m hm
  rw [htable] at hm
  obtain ⟨m₀, hm₀, rfl⟩ := Option.map_eq_some_iff.mp hm
  obtain ⟨before, since, rfl, hsince, rfl⟩ := h m₀ hm₀
  refine ⟨before, since ++ [a], by simp, ?_, ?_⟩
  · intro b hb
    rcases List.mem_append.mp hb with hb | hb
    · exact hsince b hb
    · rw [List.mem_singleton.mp hb]
      exact ha
  · rw [Mapping.apply_append, List.flatMap_append, List.flatMap_singleton]

/-- A transition of the device. -/
theorem TableSinceStart.step (h : TableSinceStart cfg as d) (hstep : Step cfg d a d') :
    TableSinceStart cfg (as ++ [a]) d' := by
  have hsame (mb : Option Mapping) : mb = mb.map (·.apply []) := by
    cases mb <;> rfl
  cases hstep with
  | signal hlive => exact h.concat (by simp [Action.IsBoundary]) (hsame _)
  | command hlive text => exact h.concat (by simp [Action.IsBoundary]) rfl
  | endOfInput hlive => exact h.concat (by simp [Action.IsBoundary]) (hsame _)
  | start hlive hrunning hnone =>
    rintro m ⟨⟩
    exact ⟨as, [], rfl, by simp, rfl⟩
  | stop hlive hstopped hsome => simp [TableSinceStart]
  | request hlive hrunning hsome written => exact h.concat (by simp [Action.IsBoundary]) rfl
  | exit hlive => simp [TableSinceStart]

/-- A table has the size of the configuration. -/
theorem TableSinceStart.nb_registers_eq (h : TableSinceStart cfg as d) {m : Mapping}
    (hm : d.table = some m) : m.nb_registers = cfg.nb_holding_regs.toNat := by
  obtain ⟨before, since, -, -, rfl⟩ := h m hm
  rw [Mapping.nb_registers_apply, Mapping.nb_registers, newMapping, List.length_replicate]

/-- A transition stores outside of the table only if it is a command that does. -/
theorem TableSinceStart.overrun_step (h : TableSinceStart cfg as d) (hstep : Step cfg d a d') :
    d'.overrun = (d.overrun || a.overruns cfg) := by
  cases hstep with
  | signal hlive => exact (Bool.or_false _).symm
  | command hlive text =>
    simp only [Action.overruns]
    cases htable : d.table with
    | none => rw [stores_processJson_none, Stores.outside_nil, Option.any_none]
    | some m => rw [← h.nb_registers_eq htable, Option.any_some, Mapping.overruns]
  | endOfInput hlive => exact (Bool.or_false _).symm
  | start hlive hrunning hnone => exact (Bool.or_false _).symm
  | stop hlive hstopped hsome => exact (Bool.or_false _).symm
  | request hlive hrunning hsome written => exact (Bool.or_false _).symm
  | exit hlive => exact (Bool.or_false _).symm

/-- **The table of the device** after a path. -/
theorem tableSinceStart_of_path (h : Path (Step cfg) initial as d) : TableSinceStart cfg as d := by
  have hinitial : TableSinceStart cfg [] initial := by simp [TableSinceStart, initial]
  exact h.history (P := TableSinceStart cfg) (fun _ _ _ _ hs hT => hs.step hT) hinitial

/-- The device has stored outside of the table exactly if a command on the path does. -/
theorem overrun_of_path (h : Path (Step cfg) initial as d) :
    d.overrun = as.any (Action.overruns cfg) := by
  have hinitial : TableSinceStart cfg [] initial ∧
      initial.overrun = [].any (Action.overruns cfg) := by simp [TableSinceStart, initial]
  refine (h.history (P := fun as d => TableSinceStart cfg as d ∧
    d.overrun = as.any (Action.overruns cfg)) (fun as d a d' hs hT => ⟨hs.1.step hT, ?_⟩)
    hinitial).2
  rw [hs.1.overrun_step hT, hs.2, List.any_append, List.any_cons, List.any_nil, Bool.or_false]

end Device

/-- **The registers of the program.** Every run is a path of the device: its flags, its table and
its lines are those at the end of the path, its commands, the end of the input and its answered
requests are those of the path, and the signals and the requests of the path are among those of the
environment. A store outside of the table is recorded exactly if a command of the path makes one. As
long as there is a table, it has the size of the configuration, and each register holds the last
word that a command or a request has stored in it since the last start, or zero. -/
theorem registers_serverRun (cfg : Config) (ahead : ℕ) (inputs : List Input) :
    ∃ as, Path (Device.Step cfg) Device.initial as (serverRun cfg ahead inputs).device ∧
      (serverRun cfg ahead inputs).observations = as.filterMap Device.Action.observation ∧
      (as.filterMap Device.Action.offer).Sublist (inputs.flatMap Input.offers) ∧
      (serverRun cfg ahead inputs).overruns.table = as.any (Device.Action.overruns cfg) ∧
      ∀ m, (serverRun cfg ahead inputs).mb_mapping = some m →
        ∃ before since, as = before ++ .start :: since ∧ (∀ a ∈ since, ¬a.IsBoundary) ∧
          m.start_registers = cfg.holding_regs_start ∧
          ∀ i : ℕ, m.tab_registers[i]? = if i < cfg.nb_holding_regs.toNat then
            some ((Stores.lastAt (stores (since.flatMap Device.Action.effects)) i).getD 0)
          else none := by
  obtain ⟨as, hpath, hobs, hoffers⟩ := explained_serverRun cfg ahead inputs
  refine ⟨as, hpath, hobs, hoffers, Device.overrun_of_path hpath, fun m hm => ?_⟩
  obtain ⟨before, since, has, hsince, rfl⟩ := Device.tableSinceStart_of_path hpath m hm
  refine ⟨before, since, has, hsince, rfl, fun i => ?_⟩
  rw [Mapping.tab_registers_apply, Stores.getElem?_apply, newMapping, List.getElem?_replicate]
  split_ifs
  · rfl
  · rfl

end ModbusServer
