import ModbusServer.Server.MainLoop

/-!
# What clients write

A Modbus client or a device on the RTU link can write registers, and nothing else: the words of the
table are read by `modbus_reply` alone. In every run of the program, the flags, the contexts and
descriptors, the table of clients, the lines on `stdout`, everything that is done and the size of
the table are those of the run in which the same requests write nothing.

To blank a state or an input is to forget the words. A block respects blanking if its result,
without the words, is determined by the state and the input without the words; blocks that respect
it can be put together.

Source: `json-modbus-server.c`, lines 140–161, 178–257 and 425–688.

## Main definitions

* `ModbusServer.Server.blank`, `ModbusServer.Input.blank`: a state and an input without words.
* `ModbusServer.Respects`: blocks that respect blanking.

## Main results

* `ModbusServer.respects_step`: a step respects blanking.
* `ModbusServer.blank_serverRun`: what clients write does not matter.
-/

namespace ModbusServer

open CText

/-! ### States and inputs without words -/

/-- A table of the same size whose words are all zero. -/
def Mapping.blank (mb : Mapping) : Mapping :=
  { mb with
    tab_registers := List.replicate mb.tab_registers.length 0
    length_le := by simpa using mb.length_le }

/-- A request that writes nothing. -/
def Receive.blank (r : Receive) : Receive := { r with written := [] }

/-- An input whose requests write nothing. -/
def Input.blank (i : Input) : Input :=
  { i with
    client := fun k => (i.client k).blank
    rtu := i.rtu.blank }

namespace Server

/-- A state whose table has no words but zero. -/
def blank (w : Server) : Server := { w with mb_mapping := w.mb_mapping.map Mapping.blank }

variable (w : Server)

@[simp] theorem flags_blank : w.blank.flags = w.flags := rfl
@[simp] theorem mb_mapping_blank : w.blank.mb_mapping = w.mb_mapping.map Mapping.blank := rfl
@[simp] theorem ctx_tcp_blank : w.blank.ctx_tcp = w.ctx_tcp := rfl
@[simp] theorem ctx_rtu_blank : w.blank.ctx_rtu = w.ctx_rtu := rfl
@[simp] theorem tcp_listen_sock_blank : w.blank.tcp_listen_sock = w.tcp_listen_sock := rfl
@[simp] theorem tcp_conn_socks_blank : w.blank.tcp_conn_socks = w.tcp_conn_socks := rfl
@[simp] theorem tcp_conn_count_blank : w.blank.tcp_conn_count = w.tcp_conn_count := rfl
@[simp] theorem os_blank : w.blank.os = w.os := rfl
@[simp] theorem stdin_blank : w.blank.stdin = w.stdin := rfl
@[simp] theorem stdout_blank : w.blank.stdout = w.stdout := rfl
@[simp] theorem trace_blank : w.blank.trace = w.trace := rfl
@[simp] theorem status_blank : w.blank.status = w.status := rfl

end Server

@[simp] theorem Mapping.blank_blank (mb : Mapping) : mb.blank.blank = mb.blank := by
  simp [blank]

@[simp] theorem Mapping.nb_registers_blank (mb : Mapping) :
    mb.blank.nb_registers = mb.nb_registers := by
  simp [nb_registers, blank]

/-- Stores change words only. -/
@[simp] theorem Mapping.blank_apply (mb : Mapping) (effects : List Effect) :
    (mb.apply effects).blank = mb.blank := by
  simp [blank, apply]

@[simp] theorem blank_newMapping (cfg : Config) : (newMapping cfg).blank = newMapping cfg := by
  simp [Mapping.blank, newMapping]

@[simp] theorem Server.blank_blank (w : Server) : w.blank.blank = w.blank := by
  simp [blank, Function.comp_def]

@[simp] theorem Input.blank_blank (i : Input) : i.blank.blank = i.blank := rfl

/-! ### Blocks that respect blanking -/

/-- The result of the block, without words, is determined by what there is without words. -/
def Respects (f : Input → Server → Server) : Prop :=
  ∀ i w, (f i w).blank = (f i.blank w.blank).blank

/-- The same for a block that may end in a `continue`. -/
def RespectsPair (f : Input → Server → Server × Bool) : Prop :=
  ∀ i w, (f i w).1.blank = (f i.blank w.blank).1.blank ∧ (f i w).2 = (f i.blank w.blank).2

section Rules

variable {f g : Input → Server → Server} {c : Input → Server → Prop}

theorem Respects.comp (hf : Respects f) (hg : Respects g) : Respects fun i w => g i (f i w) := by
  intro i w
  rw [hg i, hf i, hg i.blank (f i.blank w.blank), Input.blank_blank]

/-- What a block does to states that are the same without words. -/
theorem Respects.congr (hf : Respects f) {w w' : Server} (i : Input) (h : w.blank = w'.blank) :
    (f i w).blank = (f i.blank w').blank := by
  rw [hf i w, hf i.blank w', Input.blank_blank, h]

theorem Respects.ite [∀ i w, Decidable (c i w)] (hc : ∀ i w, c i.blank w.blank ↔ c i w)
    (hf : Respects f) (hg : Respects g) :
    Respects fun i w => if c i w then f i w else g i w := by
  intro i w
  dsimp only
  simp only [hc]
  split_ifs
  · exact hf i w
  · exact hg i w

/-- A block that looks at an optional value. -/
theorem Respects.of_option {α : Type} {c : Server → Option α} {h : Input → Server → Server}
    {g : α → Input → Server → Server} (hc : ∀ w, c w.blank = c w) (hf : Respects f)
    (hg : ∀ a, Respects (g a)) (hnone : ∀ i w, c w = none → h i w = f i w)
    (hsome : ∀ a i w, c w = some a → h i w = g a i w) : Respects h := by
  intro i w
  cases hw : c w with
  | none => rw [hnone i w hw, hnone i.blank w.blank ((hc w).trans hw), hf i w]
  | some a => rw [hsome a i w hw, hsome a i.blank w.blank ((hc w).trans hw), hg a i w]

theorem respects_id : Respects fun _ w => w := fun _ w => (w.blank_blank).symm

/-- A block that leaves the table alone. -/
theorem respects_of_frame (hinput : ∀ i w, f i.blank w = f i w)
    (hframe : ∀ i w m, f i { w with mb_mapping := m } = { f i w with mb_mapping := m })
    (hmapping : ∀ i w, (f i w).mb_mapping = w.mb_mapping) : Respects f := by
  intro i w
  have hblank : f i w.blank = (f i w).blank := by
    rw [Server.blank, hframe, ← hmapping i w, Server.blank]
  rw [hinput, hblank, Server.blank_blank]

theorem Respects.foldl {κ : Type} {f : κ → Input → Server → Server} (hf : ∀ k, Respects (f k))
    (ks : List κ) : Respects fun i w => ks.foldl (fun w k => f k i w) w := by
  induction ks with
  | nil => exact respects_id
  | cons k ks ih => exact (hf k).comp ih

end Rules

/-! ### The blocks -/

section Blocks

variable (cfg : Config)

theorem respects_signalHandler (p : Point) : Respects fun i w => signalHandler i p w :=
  .ite (c := fun i _ => i.signal p = true) (fun _ _ => Iff.rfl)
    (respects_of_frame (f := fun _ w => { w with
      flags := { server_state := .stopped, running := false } })
      (fun _ _ => rfl) (fun _ _ _ => rfl) fun _ _ => rfl)
    respects_id

/-- The command processor looks at the size of the table only. -/
theorem processJson_blank (mb_mapping : Option Mapping) (flags : Flags) (text : Bytes) :
    processJson cfg (mb_mapping.map Mapping.blank) flags text =
      processJson cfg mb_mapping flags text := by
  cases mb_mapping with
  | none => rfl
  | some mb => simp only [processJson, processUpdate, Option.map_some, Mapping.nb_registers_blank]

/-- What the command processor does with a line. -/
theorem respects_processed (buf : Bytes) :
    Respects fun _ w =>
      let (effects, flags) := processJson cfg w.mb_mapping w.flags (cString buf)
      let null := Effect.nullDereference ∈ effects
      { w with
        flags := flags
        mb_mapping := w.mb_mapping.map (·.apply effects)
        stdout := w.stdout ++ printed effects
        trace := w.trace ++ .processJson (cString buf) :: if null then [.nullDereference] else []
        status := if null then .crashed else w.status
        overruns := { w.overruns with
          table := w.overruns.table || w.mb_mapping.any (·.overruns effects) } } := by
  intro i w
  have hoverrun (effects : List Effect) :
      (w.mb_mapping.map Mapping.blank).any (·.overruns effects) =
        w.mb_mapping.any (·.overruns effects) := by
    cases w.mb_mapping with
    | none => rfl
    | some mb => simp [Mapping.overruns]
  simp [Server.blank, processJson_blank, Function.comp_def, hoverrun]

theorem respects_processText (buf : Bytes) : Respects fun i w => processText cfg i buf w :=
  (respects_signalHandler .command).comp (respects_processed cfg buf)

theorem respects_commands (fds : Finset ℤ) : Respects fun i w => commands cfg i fds w := by
  intro i w
  have harrive : (i.blank.afterSelect.foldl Stdin.arrive w.blank.stdin).fgets i.blank.waiting =
    (i.afterSelect.foldl Stdin.arrive w.stdin).fgets i.waiting := rfl
  simp only [commands, harrive]
  split_ifs
  · cases (i.afterSelect.foldl Stdin.arrive w.stdin).fgets i.waiting with
    | line buf stdin => exact respects_processText cfg buf i { w with stdin := stdin }
    | eof stdin => simp [endInput, Server.blank, Function.comp_def]
    | blocked => simp [Server.blank, Function.comp_def]
  · simp

theorem respects_startTcp : RespectsPair (startTcp cfg) := by
  intro i w
  have hnew : i.blank.newTcp = i.newTcp := rfl
  have hlisten : i.blank.listen = i.listen := rfl
  simp only [startTcp, hnew, hlisten, Server.os_blank]
  by_cases htcp : cfg.enable_tcp = true
  · simp only [if_pos htcp]
    rcases w.os.newContext i.newTcp with ⟨_ | c, os⟩
    · simp [Server.blank, Function.comp_def]
    · dsimp only
      split_ifs <;> simp [Server.blank, Function.comp_def]
  · simp only [if_neg htcp]
    simp

theorem respects_openRtu (new fcntl : Input → Bool) (offer : Input → Option ℤ)
    (hnew : ∀ i : Input, new i.blank = new i) (hfcntl : ∀ i : Input, fcntl i.blank = fcntl i)
    (hoffer : ∀ i : Input, offer i.blank = offer i) :
    RespectsPair fun i w => openRtu (new i) (fcntl i) (offer i) w := by
  intro i w
  simp only [openRtu, hnew, hfcntl, hoffer, Server.os_blank]
  rcases w.os.newContext (new i) with ⟨_ | c, os⟩
  · simp [Server.blank, Function.comp_def]
  · simp only [connectRtu]
    split_ifs <;> simp [Server.blank, Function.comp_def]

theorem RespectsPair.orContinue {f g : Input → Server → Server × Bool} (hf : RespectsPair f)
    (hg : RespectsPair g) : RespectsPair fun i w => orContinue (f i w) (g i) := by
  intro i w
  obtain ⟨hblank, hgoes⟩ := hf i w
  simp only [ModbusServer.orContinue, hgoes]
  split_ifs
  · have hleft := hg i (f i w).1
    have hright := hg i.blank (f i.blank w.blank).1
    rw [Input.blank_blank, ← hblank] at hright
    exact ⟨hleft.1.trans hright.1.symm, hleft.2.trans hright.2.symm⟩
  · exact ⟨hblank, hgoes⟩

/-- What comes behind a block that may end in a `continue`. -/
theorem RespectsPair.unlessContinue {f : Input → Server → Server × Bool}
    {g : Input → Server → Server} (hf : RespectsPair f) (hg : Respects g) :
    Respects fun i w =>
      match f i w with
      | (w, false) => w
      | (w, true) => g i w := by
  intro i w
  obtain ⟨hblank, hgoes⟩ := hf i w
  dsimp only
  generalize f i w = r at hblank hgoes ⊢
  generalize f i.blank w.blank = r' at hblank hgoes ⊢
  obtain ⟨w₁, _ | _⟩ := r
  · obtain ⟨w₂, _ | _⟩ := r'
    · exact hblank
    · simp at hgoes
  · obtain ⟨w₂, _ | _⟩ := r'
    · simp at hgoes
    · exact hg.congr i hblank

theorem respects_startRtu : RespectsPair (startRtu cfg) := by
  intro i w
  simp only [startRtu]
  split_ifs
  · exact respects_openRtu Input.newRtu Input.fcntl Input.connect (fun _ => rfl) (fun _ => rfl)
      (fun _ => rfl) i w
  · simp

theorem respects_startMapping : RespectsPair (startMapping cfg) := by
  intro i w
  have hnew : i.blank.newMapping = i.newMapping := rfl
  simp only [startMapping, hnew]
  split_ifs <;> simp [Server.blank, Function.comp_def]

theorem respects_startup : RespectsPair (startup cfg) := by
  have hparts : RespectsPair (startParts cfg) :=
    (respects_startTcp cfg).orContinue ((respects_startRtu cfg).orContinue
      (respects_startMapping cfg))
  have hbody : RespectsPair fun i w =>
      if w.flags.server_state = .running ∧ w.mb_mapping = none then
        startParts cfg i { w with trace := w.trace ++ [.startup] }
      else (w, true) := by
    intro i w
    simp only [Server.flags_blank, Server.mb_mapping_blank, Option.map_eq_none_iff]
    split_ifs
    · exact hparts i { w with trace := w.trace ++ [.startup] }
    · simp
  intro i w
  have hsignal := respects_signalHandler .startup i w
  have hleft := hbody i (signalHandler i .startup w)
  have hright := hbody i.blank (signalHandler i.blank .startup w.blank)
  dsimp only at hsignal
  rw [Input.blank_blank, ← hsignal] at hright
  exact ⟨hleft.1.trans hright.1.symm, hleft.2.trans hright.2.symm⟩

theorem respects_closeClient (k : Fin maxTcpClients) : Respects fun _ w => closeClient w k :=
  .ite (c := fun _ w => w.tcp_conn_socks k ≠ -1) (fun _ _ => Iff.rfl)
    (respects_of_frame (f := fun _ w => { w with
      os := w.os.close (w.tcp_conn_socks k)
      tcp_conn_socks := Function.update w.tcp_conn_socks k (-1) })
      (fun _ _ => rfl) (fun _ _ _ => rfl) fun _ _ => rfl)
    respects_id

theorem respects_release : Respects fun _ w => release cfg w := by
  have hclients : Respects fun _ w => slots.foldl closeClient w :=
    .foldl (f := fun k _ w => closeClient w k) respects_closeClient slots
  have htcp : Respects fun _ w => releaseTcp w :=
    hclients.comp (g := fun _ w => { w with
      tcp_conn_count := 0
      os := (if w.tcp_listen_sock ≠ -1 then w.os.close w.tcp_listen_sock else w.os).modbusFree
        w.ctx_tcp
      tcp_listen_sock := -1
      ctx_tcp := none })
      (respects_of_frame (fun _ _ => rfl) (fun _ _ _ => rfl) fun _ _ => rfl)
  have hrtu : Respects fun _ w => releaseRtu w :=
    respects_of_frame (fun _ _ => rfl) (fun _ _ _ => rfl) fun _ _ => rfl
  have hmapping : Respects fun _ w => { w with mb_mapping := none } := fun i w => by
    simp [Server.blank]
  have hfirst : Respects fun _ w => if cfg.enable_tcp then releaseTcp w else w :=
    .ite (fun _ _ => Iff.rfl) htcp respects_id
  have hsecond : Respects fun _ w => if cfg.enable_rtu then releaseRtu w else w :=
    .ite (fun _ _ => Iff.rfl) hrtu respects_id
  exact (hfirst.comp hsecond).comp hmapping

theorem respects_stopServer : Respects fun i w => stopServer cfg i w := by
  have hprint : Respects fun _ w => { release cfg w with
      stdout := (release cfg w).stdout ++ [ascii "\x7b\"status\":\"server_stopped\"\x7d\n"] } :=
    (respects_release cfg).comp (g := fun _ w => { w with
      stdout := w.stdout ++ [ascii "\x7b\"status\":\"server_stopped\"\x7d\n"] })
      (respects_of_frame (fun _ _ => rfl) (fun _ _ _ => rfl) fun _ _ => rfl)
  exact (respects_signalHandler .stop).comp
    (.ite (c := fun _ w => w.flags.server_state = .stopped ∧ w.mb_mapping.isSome)
      (fun _ w => by simp) hprint respects_id)

theorem respects_finish : Respects fun _ w => finish cfg w :=
  Respects.comp
    (.ite (c := fun _ w => w.mb_mapping.isSome) (fun _ w => by simp) (respects_release cfg)
      respects_id)
    (g := fun _ w => { w with
      stdout := w.stdout ++ [ascii "\x7b\"status\":\"exited\"\x7d\n"]
      status := .returned })
    (respects_of_frame (fun _ _ => rfl) (fun _ _ _ => rfl) fun _ _ => rfl)

/-- The descriptor that is accepted does not depend on the words. -/
theorem respects_modbusTcpAccept (i : Input) (w : Server) :
    (modbusTcpAccept i.accept w).1 = (modbusTcpAccept i.blank.accept w.blank).1 ∧
      (modbusTcpAccept i.accept w).2.blank = (modbusTcpAccept i.blank.accept w.blank).2.blank := by
  have haccept : i.blank.accept = i.accept := rfl
  rw [haccept]
  cases i.accept <;> simp [modbusTcpAccept, Server.blank, Function.comp_def]

/-- What is done with the descriptor that is accepted. -/
theorem respects_accepted {f : ℤ → Input → Server → Server} (hf : ∀ fd, Respects (f fd)) :
    Respects fun i w =>
      let (fd, w) := modbusTcpAccept i.accept w
      f fd i w := by
  intro i w
  obtain ⟨hfd, hblank⟩ := respects_modbusTcpAccept i w
  dsimp only
  rw [← hfd]
  exact (hf _).congr i hblank

/-- What is done with a new connection. -/
theorem respects_connection :
    Respects fun i w =>
      match findFreeTcpClientSlot w with
      | some slot =>
        let (new_conn, w) := modbusTcpAccept i.accept w
        if new_conn ≠ -1 then
          { w with
            tcp_conn_socks := Function.update w.tcp_conn_socks slot new_conn
            tcp_conn_count := w.tcp_conn_count + 1 }
        else w
      | none =>
        let (temp_sock, w) := modbusTcpAccept i.accept w
        if temp_sock ≠ -1 then { w with os := w.os.close temp_sock } else w := by
  have hstore (slot : Fin maxTcpClients) (fd : ℤ) : Respects fun _ w =>
      if fd ≠ -1 then
        { w with
          tcp_conn_socks := Function.update w.tcp_conn_socks slot fd
          tcp_conn_count := w.tcp_conn_count + 1 }
      else w :=
    .ite (fun _ _ => Iff.rfl)
      (respects_of_frame (fun _ _ => rfl) (fun _ _ _ => rfl) fun _ _ => rfl) respects_id
  have hclose (fd : ℤ) : Respects fun _ w =>
      if fd ≠ -1 then { w with os := w.os.close fd } else w :=
    .ite (fun _ _ => Iff.rfl)
      (respects_of_frame (fun _ _ => rfl) (fun _ _ _ => rfl) fun _ _ => rfl) respects_id
  exact .of_option (c := findFreeTcpClientSlot) (fun _ => rfl) (respects_accepted hclose)
    (fun slot => respects_accepted (hstore slot)) (fun _ _ hw => by simp only [hw])
    fun _ _ _ hw => by simp only [hw]

theorem respects_acceptClient (fds : Finset ℤ) :
    Respects fun i w => acceptClient cfg i fds w :=
  .ite (c := fun _ w => cfg.enable_tcp ∧ w.tcp_listen_sock ≠ -1 ∧ w.tcp_listen_sock ∈ fds)
    (fun _ _ => Iff.rfl) respects_connection respects_id

theorem respects_modbusReply (r : Input → Receive) : Respects fun i w => modbusReply (r i) w := by
  intro i w
  simp [modbusReply, Server.blank, Function.comp_def]

theorem respects_handleClient (fds : Finset ℤ) (k : Fin maxTcpClients) :
    Respects fun i w => handleClient i fds w k := by
  have hreceive : Respects fun _ w => { w with
      ctx_tcp := w.ctx_tcp.map ({ · with s := w.tcp_conn_socks k })
      trace := w.trace ++ [.receive (w.tcp_conn_socks k)] } :=
    respects_of_frame (fun _ _ => rfl) (fun _ _ _ => rfl) fun _ _ => rfl
  have hclose : Respects fun _ w => { w with
      os := w.os.close (w.tcp_conn_socks k)
      tcp_conn_socks := Function.update w.tcp_conn_socks k (-1)
      tcp_conn_count := w.tcp_conn_count - 1 } :=
    respects_of_frame (fun _ _ => rfl) (fun _ _ _ => rfl) fun _ _ => rfl
  have hanswer := Respects.ite (c := fun i _ => 0 < (i.client k).rc) (fun _ _ => Iff.rfl)
    (respects_modbusReply fun i => i.client k)
    (.ite (c := fun i _ => (i.client k).rc = -1) (fun _ _ => Iff.rfl) hclose respects_id)
  exact .ite (c := fun _ w => w.tcp_conn_socks k ≠ -1 ∧ w.tcp_conn_socks k ∈ fds)
    (fun _ _ => Iff.rfl) (hreceive.comp hanswer) respects_id

theorem respects_handleClients (fds : Finset ℤ) :
    Respects fun i w => handleClients cfg i fds w :=
  .ite (c := fun _ _ => cfg.enable_tcp) (fun _ _ => Iff.rfl)
    (.foldl (f := fun k i w => handleClient i fds w k) (respects_handleClient fds) slots)
    respects_id

theorem respects_handleRtu (fds : Finset ℤ) : Respects fun i w => handleRtu cfg i fds w := by
  have hanswer (ctx : Ctx) := Respects.ite (c := fun i _ => 0 < i.rtu.rc) (fun _ _ => Iff.rfl)
    (respects_modbusReply Input.rtu)
    (.ite (c := fun i _ => i.rtu.rc = -1 ∧ i.rtu.again = false) (fun _ _ => Iff.rfl)
      (respects_of_frame (f := fun _ w => { w with
        os := (w.os.modbusClose (some ctx)).modbusFree (some ctx)
        ctx_rtu := none }) (fun _ _ => rfl) (fun _ _ _ => rfl) fun _ _ => rfl) respects_id)
  have hlink (ctx : Ctx) := Respects.ite
    (c := fun _ _ => cfg.enable_rtu ∧ ctx.s ≠ -1 ∧ ctx.s ∈ fds) (fun _ _ => Iff.rfl)
    (Respects.comp (respects_of_frame (f := fun _ w => { w with
      trace := w.trace ++ [.receive ctx.s] }) (fun _ _ => rfl) (fun _ _ _ => rfl) fun _ _ => rfl)
      (hanswer ctx)) respects_id
  exact .of_option (c := Server.ctx_rtu) (fun _ => rfl) respects_id hlink
    (fun i w hw => by rw [handleRtu, hw]) fun ctx i w hw => by rw [handleRtu, hw]

theorem respects_reconnect : Respects fun i w => reconnect cfg i w := by
  have hopen : Respects fun i w => (openRtu i.newRtuAgain i.fcntl i.connectAgain w).1 :=
    fun i w => (respects_openRtu Input.newRtuAgain Input.fcntl Input.connectAgain (fun _ => rfl)
      (fun _ => rfl) (fun _ => rfl) i w).1
  exact (respects_signalHandler .reconnect).comp
    (.ite (c := fun _ w => cfg.enable_rtu ∧ w.ctx_rtu.isNone ∧ w.flags.server_state = .running)
      (fun _ _ => Iff.rfl) hopen respects_id)

theorem respects_connections (fds : Finset ℤ) : Respects fun i w => connections cfg i fds w := by
  have hserve : Respects fun i w => serve cfg i fds w :=
    ((respects_acceptClient cfg fds).comp (respects_handleClients cfg fds)).comp
      (respects_handleRtu cfg fds)
  exact (respects_signalHandler .connections).comp
    (.ite (c := fun _ w => w.flags.server_state = .running ∧ fds.Nonempty) (fun _ _ => Iff.rfl)
      (hserve.comp (respects_reconnect cfg)) respects_id)

theorem respects_afterSelect (fds : Finset ℤ) :
    Respects fun i w => afterSelect cfg i fds w := by
  have hserved : Respects fun i w => connections cfg i fds (stopServer cfg i w) :=
    (respects_stopServer cfg).comp (respects_connections cfg fds)
  exact (respects_commands cfg fds).comp
    (.ite (c := fun _ w => w.status = .atHead) (fun _ _ => Iff.rfl)
      ((respects_startup cfg).unlessContinue hserved) respects_id)

/-- What is put into the set does not depend on the words. -/
theorem respects_watch : Respects fun _ w => w.watch (watched cfg w) :=
  respects_of_frame (fun _ _ => rfl) (fun _ _ _ => rfl) fun _ _ => rfl

/-- The set and the bound for `select` do not depend on the words. -/
theorem snd_beforeSelect_blank (i : Input) (w : Server) :
    (beforeSelect cfg i.blank w.blank).2 = (beforeSelect cfg i w).2 := by
  have hpoll : (signalHandler i .poll w).blank = (signalHandler i.blank .poll w.blank).blank :=
    respects_signalHandler .poll i w
  have hmaxfd := ((respects_signalHandler .poll).comp
    ((respects_watch cfg).comp (respects_signalHandler .maxfd))) i w
  have hset (w : Server) : polled cfg w = polled cfg w.blank := rfl
  have hbound (w : Server) : maxfd cfg w = maxfd cfg w.blank := rfl
  simp only [beforeSelect] at hmaxfd ⊢
  rw [hset (signalHandler i.blank .poll w.blank), ← hpoll, ← hset,
    hbound (signalHandler i.blank .maxfd _), ← hmaxfd, ← hbound]

/-- The part of an iteration that begins before `select`. -/
theorem respects_selected :
    Respects fun i w =>
      let (w, fds, nfds) := beforeSelect cfg i w
      match i.select with
      | .failed true => w
      | .failed false => finish cfg w
      | .ready sockets => afterSelect cfg i (readyFds fds nfds sockets w.stdin) w := by
  have hselect : Respects fun i w => (beforeSelect cfg i w).1 :=
    ((respects_signalHandler .poll).comp
      ((respects_watch cfg).comp (respects_signalHandler .maxfd))).comp
      (g := fun i w => { w with stdin := i.beforeSelect.foldl Stdin.arrive w.stdin })
      (respects_of_frame (fun _ _ => rfl) (fun _ _ _ => rfl) fun _ _ => rfl)
  intro i w
  have hblank := hselect i w
  have hfds := snd_beforeSelect_blank cfg i w
  dsimp only at hblank ⊢
  generalize beforeSelect cfg i w = r at hblank hfds ⊢
  generalize beforeSelect cfg i.blank w.blank = r' at hblank hfds ⊢
  obtain ⟨w₁, fds⟩ := r
  obtain ⟨w₂, fds'⟩ := r'
  dsimp only at hblank hfds ⊢
  rw [hfds]
  have hinput : i.blank.select = i.select := rfl
  rw [hinput]
  cases i.select with
  | failed eintr =>
    cases eintr with
    | false => exact (respects_finish cfg).congr i hblank
    | true => exact hblank
  | ready sockets =>
    have hstdin : w₁.stdin = w₂.stdin :=
      show w₁.blank.stdin = w₂.blank.stdin by rw [hblank]
    dsimp only
    rw [hstdin]
    exact (respects_afterSelect cfg _).congr i hblank

/-- **A step** respects blanking. -/
theorem respects_step : Respects fun i w => step cfg w i := by
  have hiteration : Respects fun i w => iteration cfg w i :=
    (respects_signalHandler .head).comp
      (.ite (c := fun _ w => w.flags.running = true) (fun _ _ => Iff.rfl) (respects_selected cfg)
        (respects_finish cfg))
  intro i w
  simp only [step, Server.status_blank]
  cases w.status with
  | atHead => exact hiteration i w
  | waiting | crashed | returned => exact respects_id i w

/-- **What clients write does not matter.** A run and the run in which the same requests write
nothing agree in everything but the words of the table. -/
theorem blank_serverRun (ahead : ℕ) (inputs : List Input) :
    (serverRun cfg ahead inputs).blank =
      (serverRun cfg ahead (inputs.map Input.blank)).blank := by
  refine Runs.run_simulation (R := fun w w' : Server => w.blank = w'.blank)
    (Q := fun i i' : Input => i' = i.blank) rfl (fun w w' i i' hw hi => ?_) ?_
  · rw [hi]
    exact (respects_step cfg).congr i hw
  · rw [List.forall₂_map_right_iff]
    exact List.forall₂_refl inputs

end Blocks

end ModbusServer
