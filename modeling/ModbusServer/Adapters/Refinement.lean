import ModbusServer.Adapters.Session
import ModbusServer.Server.Shutdown

/-!
# The adapters and the blocks of `main`

The adapters take over blocks of the loop of `main`: the parts of the start-up and of the clean-up
for TCP and for RTU, the block that accepts a connection, the body of the loop over the clients, and
the two blocks for the RTU link. The loop that calls them is declared in the refactored sources, but
not defined, so a block of `main` is compared with the calls that correspond to it. The block that
serves the RTU link and the block that reconnects follow each other and are taken as one; they
correspond to `rtu_adapter_handle` and, when that has returned -1, `rtu_adapter_reconnect`. Then
the two files that define the RTU adapter do the same, although one of them keeps a dead link until
it is called to reconnect.

In every sequence of blocks the adapters leave in the back end what `main` leaves in its globals,
the words that the requests write into the table of registers among them. The table is made by
neither of them: `main` makes it behind the start-up of the connections, and the back end is given
one, or has none. This does not cover a socket on which TCP cannot listen, since `main` keeps the
context then and the adapter frees it, nor a reply that fails on the RTU link, since `main` only
logs it and the adapter returns -1.

Source: `json-modbus-server.c`, lines 499–535, 553–573 and 579–660; `src/adapters/tcp_adapter.c`,
`src/adapters/rtu_adapter.c`, `src/core/server_controller.c`.

## Main definitions

* `ModbusServer.Block`, `ModbusServer.Block.inMain`, `ModbusServer.Block.inAdapters`: a block, and
  what it is in the two programs.
* `ModbusServer.Block.Covered`: the blocks in which the two agree.
* `ModbusServer.ModbusBackend.Linked`: the invariant.
* `ModbusServer.ReplyOutcomes`, `ModbusServer.servingBlocks`: the outcomes of the replies, and the
  blocks of an iteration that serves.

## Main results

* `ModbusServer.inMain_withBackend`: the globals and the back end behind a block.
* `ModbusServer.blocks_run`: the globals and the back end after every sequence of blocks.
* `ModbusServer.reconnect_serve`: the serving part of the loop body is a sequence of blocks.
* `ModbusServer.reconnect_serve_withBackend`: the serving part with the adapters.
-/

namespace ModbusServer

/-! ### Blocks -/

/-- The RTU context, if there is one, has a descriptor. -/
def ModbusBackend.Linked (b : ModbusBackend) : Prop := ∀ c, b.ctx_rtu = some c → c.s ≠ -1

/-- The blocks of `main` that the adapters take over, with the outcomes of the calls they make. -/
inductive Block
  | startTcp (new : Bool) (listen : Option ℤ)
  | acceptClient (accept : Accept)
  | handleClient (k : Fin maxTcpClients) (receive : Receive) (reply : Bool)
  | releaseTcp
  | startRtu (o : RtuOutcome)
  | serveRtu (o again : RtuOutcome)
  | releaseRtu

/-- The descriptor that `modbus_tcp_accept` is offered. -/
def Accept.offer? : Accept → Option ℤ
  | .connection fd => some fd
  | .failed | .failedClosing => none

/-- What happens while the RTU link is served and, if there is none, connected again. -/
def RtuOutcome.serving (o again : RtuOutcome) : Input where
  rtu := o.receive
  newRtuAgain := again.new
  fcntl := again.fcntl
  connectAgain := again.connect

namespace Block

/-- A block of `main`, in which the descriptor that the block serves is ready. -/
def inMain (cfg : Config) (w : Server) : Block → Server
  | startTcp new listen => (ModbusServer.startTcp cfg { newTcp := new, listen := listen } w).1
  | acceptClient accept =>
    ModbusServer.acceptClient cfg { accept := accept } {w.tcp_listen_sock} w
  | handleClient k receive _ =>
    ModbusServer.handleClient { client := fun _ => receive } {w.tcp_conn_socks k} w k
  | releaseTcp => ModbusServer.releaseTcp w
  | startRtu o =>
    (ModbusServer.startRtu cfg { newRtu := o.new, fcntl := o.fcntl, connect := o.connect } w).1
  | serveRtu o again =>
    let i := o.serving again
    reconnect cfg i (handleRtu cfg i (w.ctx_rtu.elim ∅ fun c => {c.s}) w)
  | releaseRtu => ModbusServer.releaseRtu w

/-- The calls of the adapters for a block. -/
def inAdapters (impl : RtuImplementation) (b : ModbusBackend) : Block → ModbusBackend
  | startTcp new listen => (tcpAdapterInit new listen b).2
  | acceptClient accept => (tcpAdapterAcceptClient accept b).2
  | handleClient k receive reply => (tcpAdapterHandleClient k receive reply b).2
  | releaseTcp => tcpAdapterCleanup b
  | startRtu o => (impl.init o b).2
  | serveRtu o again =>
    let (code, b) := impl.handle o b
    if code = -1 then (impl.reconnect again b).2 else b
  | releaseRtu => impl.cleanup b

/-- No block is offered a standard stream, a TCP context can listen, the block that accepts finds a
listening socket, a new RTU context has no descriptor, and the reply on the RTU link succeeds. -/
def Covered (b : ModbusBackend) : Block → Prop
  | startTcp new listen => new = true → (b.os.openDescriptor listen).1 ≠ -1
  | acceptClient accept => b.tcp_listen_sock ≠ -1 ∧ ∀ fd ∈ accept.offer?, 2 < fd
  | startRtu o => o.socket = -1 ∧ ∀ fd ∈ o.connect, 2 < fd
  | serveRtu o again => o.reply = true ∧ again.socket = -1 ∧ ∀ fd ∈ again.connect, 2 < fd
  | handleClient _ _ _ | releaseTcp | releaseRtu => True

instance decidableCovered (b : ModbusBackend) (block : Block) : Decidable (block.Covered b) :=
  match block with
  | startTcp new listen =>
    inferInstanceAs (Decidable (new = true → (b.os.openDescriptor listen).1 ≠ -1))
  | acceptClient accept =>
    inferInstanceAs (Decidable (b.tcp_listen_sock ≠ -1 ∧ ∀ fd ∈ accept.offer?, 2 < fd))
  | startRtu o => inferInstanceAs (Decidable (o.socket = -1 ∧ ∀ fd ∈ o.connect, 2 < fd))
  | serveRtu o again =>
    inferInstanceAs
      (Decidable (o.reply = true ∧ again.socket = -1 ∧ ∀ fd ∈ again.connect, 2 < fd))
  | handleClient _ _ _ => inferInstanceAs (Decidable True)
  | releaseTcp => inferInstanceAs (Decidable True)
  | releaseRtu => inferInstanceAs (Decidable True)

end Block

/-! ### Calls that open a descriptor -/

/-- Where no standard stream is offered, the two calls are the same. -/
theorem Os.openUnused_eq (os : Os) {offer : Option ℤ} (h : ∀ fd ∈ offer, 2 < fd) :
    os.openUnused offer = os.openDescriptor offer := by
  cases offer with
  | none => rfl
  | some fd =>
    have hfd : 2 < fd := h fd rfl
    have hnonneg : 0 ≤ fd := by omega
    simp [Os.openUnused, Os.openDescriptor, hfd, hnonneg]

/-! ### The blocks for TCP -/

section Tcp

variable {cfg : Config} {b : ModbusBackend}

/-- A context is created and can listen, or none is created. -/
theorem startTcp_withBackend (w : Server) (htcp : cfg.enable_tcp = true) {new : Bool}
    {listen : Option ℤ} (h : new = true → (b.os.openDescriptor listen).1 ≠ -1) :
    (startTcp cfg { newTcp := new, listen := listen } (w.withBackend b)).1 =
      w.withBackend (tcpAdapterInit new listen b).2 := by
  rw [startTcp, if_pos htcp, tcpAdapterInit]
  cases new with
  | false => rfl
  | true =>
    rcases b.os.openDescriptor_cases listen with ⟨-, hfail⟩ | ⟨fd, ⟨rfl, hfd, hunused⟩, -⟩
    · exact absurd (congrArg Prod.fst hfail) (h rfl)
    · have hnonneg : 0 ≤ fd := by omega
      have hne : fd ≠ -1 := by omega
      simp [Server.withBackend, Os.newContext, Os.openDescriptor, Os.openUnused, hfd, hnonneg,
        hunused, hne]

theorem modbusTcpAccept_withBackend (w : Server) {accept : Accept}
    (hlisten : b.tcp_listen_sock ≠ -1) (haccept : ∀ fd ∈ accept.offer?, 2 < fd) :
    modbusTcpAccept accept (w.withBackend b) =
      ((b.modbusTcpAccept accept).1, w.withBackend (b.modbusTcpAccept accept).2) := by
  cases accept with
  | connection fd =>
    have hopen : b.os.openUnused (some fd) = b.os.openDescriptor (some fd) :=
      b.os.openUnused_eq haccept
    simp only [modbusTcpAccept, ModbusBackend.modbusTcpAccept, hopen]
    rfl
  | failed => rfl
  | failedClosing =>
    have hset : (b.setSocket (-1)).tcp_listen_sock ≠ -1 := hlisten
    simp only [modbusTcpAccept, ModbusBackend.modbusTcpAccept, ModbusBackend.closeListen,
      if_pos hset]
    rfl

theorem acceptClient_withBackend (w : Server) (htcp : cfg.enable_tcp = true) {accept : Accept}
    (hlisten : b.tcp_listen_sock ≠ -1) (haccept : ∀ fd ∈ accept.offer?, 2 < fd) :
    acceptClient cfg { accept := accept } {b.tcp_listen_sock} (w.withBackend b) =
      w.withBackend (tcpAdapterAcceptClient accept b).2 := by
  have hready : cfg.enable_tcp ∧ (w.withBackend b).tcp_listen_sock ≠ -1 ∧
      (w.withBackend b).tcp_listen_sock ∈ ({b.tcp_listen_sock} : Finset ℤ) :=
    ⟨htcp, hlisten, Finset.mem_singleton_self _⟩
  have hslot : findFreeTcpClientSlot (w.withBackend b) = b.findFreeTcpClientSlot := rfl
  rw [acceptClient, if_pos hready, tcpAdapterAcceptClient, hslot]
  simp only [modbusTcpAccept_withBackend w hlisten haccept]
  generalize b.modbusTcpAccept accept = r
  cases b.findFreeTcpClientSlot with
  | none =>
    by_cases hfd : r.1 = -1
    · simp only [hfd, ne_eq, not_true_eq_false, if_false]
    · simp only [hfd, ne_eq, not_false_eq_true, if_true]
      rfl
  | some slot =>
    by_cases hfd : r.1 = -1
    · simp only [hfd, ne_eq, not_true_eq_false, if_false, if_true]
    · simp only [hfd, ne_eq, not_false_eq_true, if_false, if_true]
      rfl

/-- The program receives from a client, if there is one; the loop records what it receives and
answers. -/
theorem handleClient_withBackend (w : Server) (k : Fin maxTcpClients) (r : Receive) (reply : Bool) :
    ∃ trace, handleClient { client := fun _ => r } {b.tcp_conn_socks k} (w.withBackend b) k =
      Server.withBackend { w with trace := trace } (tcpAdapterHandleClient k r reply b).2 := by
  have hindex : 0 ≤ (k : ℤ) ∧ (k : ℤ) < maxTcpClients := by omega
  have hsame : (w.withBackend b).tcp_conn_socks k = b.tcp_conn_socks k := rfl
  rw [handleClient, tcpAdapterHandleClient, dif_pos hindex]
  simp only [Int.toNat_natCast, Fin.eta, hsame, Finset.mem_singleton, and_true]
  by_cases hsock : b.tcp_conn_socks k = -1
  · rw [if_neg (not_not_intro hsock), if_pos hsock]
    exact ⟨w.trace, rfl⟩
  · rw [if_pos hsock, if_neg hsock]
    split_ifs with hreceived hreply herror
    · exact ⟨_, rfl⟩
    · exact ⟨_, rfl⟩
    · exact ⟨_, rfl⟩
    · exact ⟨_, rfl⟩

end Tcp

/-! ### The blocks for the RTU link -/

section Rtu

variable {cfg : Config} {b : ModbusBackend} {impl : RtuImplementation}

/-- A context is created and connected. Neither program configures it, since it has no descriptor
before it is connected. -/
theorem openRtu_withBackend (w : Server) {o : RtuOutcome} (hsocket : o.socket = -1)
    (hconnect : ∀ fd ∈ o.connect, 2 < fd) :
    (openRtu o.new o.fcntl o.connect (w.withBackend b)).1 =
      Server.withBackend { w with trace := w.trace ++ [.newRtu] } (b.openRtu o).2 := by
  have hos : (w.withBackend b).os = b.os := rfl
  rw [openRtu, ModbusBackend.openRtu, ModbusBackend.modbusNewRtu, hos]
  cases hnew : o.new with
  | false => rfl
  | true =>
    have hopen := (b.os.newContext true).2.openUnused_eq hconnect
    simp only [Os.newContext, if_true] at hopen
    simp only [connectRtu, ModbusBackend.modbusConnectRtu, ModbusBackend.configureRtu,
      ModbusBackend.record, Os.newContext, hsocket, hopen, if_true, ne_eq, not_true_eq_false,
      if_false]
    split_ifs
    · rfl
    · rfl

/-- While there is a link, the block that reconnects does nothing. -/
theorem reconnect_of_some {w : Server} {i : Input} {c : Ctx} (hi : i.signal .reconnect = false)
    (hctx : w.ctx_rtu = some c) : reconnect cfg i w = w := by
  simp [reconnect, signalHandler, hi, hctx]

theorem reconnect_of_none {w : Server} {i : Input} (hrtu : cfg.enable_rtu = true)
    (hi : i.signal .reconnect = false) (hrunning : w.flags.server_state = .running)
    (hctx : w.ctx_rtu = none) :
    reconnect cfg i w = (openRtu i.newRtuAgain i.fcntl i.connectAgain w).1 := by
  simp [reconnect, signalHandler, hi, hctx, hrtu, hrunning]

/-- The RTU block, unless the link is lost. -/
theorem handleRtu_withBackend (w : Server) (hrtu : cfg.enable_rtu = true) {c : Ctx}
    (hctx : b.ctx_rtu = some c) (hs : c.s ≠ -1) {o : RtuOutcome} (again : RtuOutcome)
    (hreceived : ¬o.receive.HardError) (dropped : ModbusBackend → ModbusBackend) :
    ∃ trace, handleRtu cfg (o.serving again) {c.s} (w.withBackend b) =
      Server.withBackend { w with trace := trace } (b.handleRtu o dropped).2 := by
  have hkept : ¬(o.receive.rc = -1 ∧ o.receive.again = false) := hreceived
  simp only [handleRtu, Server.withBackend, RtuOutcome.serving, ModbusBackend.handleRtu, hctx, hrtu,
    hs, hkept, Finset.mem_singleton, ne_eq, not_false_eq_true, and_self, if_true, if_false,
    ModbusBackend.record, ModbusBackend.modbusReply, modbusReply]
  by_cases hrequest : 0 < o.receive.rc
  · simp only [hrequest, if_true]
    exact ⟨_, rfl⟩
  · by_cases herror : o.receive.rc = -1
    · have hagain : o.receive.again = true := by simpa [herror] using hkept
      simp only [herror, hagain, if_true]
      exact ⟨_, rfl⟩
    · simp only [hrequest, herror, if_false]
      exact ⟨_, rfl⟩

/-- The RTU block, if the link is lost. -/
theorem handleRtu_withBackend_of_hardError (w : Server) (hrtu : cfg.enable_rtu = true) {c : Ctx}
    (hctx : b.ctx_rtu = some c) (hs : c.s ≠ -1) {o : RtuOutcome} (again : RtuOutcome)
    (herror : o.receive.HardError) (log : List (Lifetimes.Call ℕ ℤ)) :
    ∃ trace, handleRtu cfg (o.serving again) {c.s} (w.withBackend b) =
      Server.withBackend { w with trace := trace }
        (RtuAdapter.rtuAdapterCleanup (b.record log)) := by
  refine ⟨w.trace ++ [.receive c.s], ?_⟩
  rw [← releaseRtu_withBackend]
  simp [handleRtu, Server.withBackend, ModbusBackend.record, hctx, RtuOutcome.serving, hrtu, hs,
    herror.1, herror.2, releaseRtu]

/-- While the link is not lost and the reply succeeds, the code of the RTU adapter is not -1. -/
theorem code_handleRtu_ne {c : Ctx} (hctx : b.ctx_rtu = some c) {o : RtuOutcome}
    (hreply : o.reply = true) (hreceived : ¬o.receive.HardError)
    (dropped : ModbusBackend → ModbusBackend) : (b.handleRtu o dropped).1 ≠ -1 := by
  simp only [ModbusBackend.handleRtu, hctx, hreply, if_true]
  split_ifs with hrequest herror hagain
  · simp
  · simp
  · exact absurd ⟨herror, by simpa using hagain⟩ hreceived
  · simp

/-- And then the link stays. -/
theorem ctx_rtu_handleRtu_of_code {o : RtuOutcome} {dropped : ModbusBackend → ModbusBackend}
    (hcode : (b.handleRtu o dropped).1 ≠ -1) :
    (b.handleRtu o dropped).2.ctx_rtu = b.ctx_rtu := by
  rw [ModbusBackend.handleRtu] at hcode ⊢
  split at hcode
  · exact absurd rfl hcode
  · split_ifs at hcode ⊢ with hrequest hreply herror hagain
    · rfl
    · rfl
    · rfl
    · exact absurd rfl hcode
    · rfl

/-- The link is served, and connected again if there is none. -/
theorem serveRtu_withBackend (w : Server) (hrtu : cfg.enable_rtu = true)
    (hrunning : w.flags.server_state = .running)
    (himpl : impl ∈ [RtuAdapter.implementation, ServerController.implementation])
    (hlink : b.Linked) {o again : RtuOutcome} (hreply : o.reply = true)
    (hsocket : again.socket = -1) (hconnect : ∀ fd ∈ again.connect, 2 < fd) :
    ∃ trace, Block.inMain cfg (w.withBackend b) (.serveRtu o again) =
      Server.withBackend { w with trace := trace }
        (Block.inAdapters impl b (.serveRtu o again)) := by
  obtain ⟨dropped, hkept, hhandle⟩ := handle_eq himpl o b
  -- whether the dead link is kept does not matter once it is cleaned up
  have hdropped (b : ModbusBackend) :
      RtuAdapter.rtuAdapterCleanup (dropped b) = RtuAdapter.rtuAdapterCleanup b := by
    rcases hkept with rfl | rfl
    · rfl
    · exact rtuAdapterCleanup_idempotent b
  have hagain (trace : List Event) (b : ModbusBackend) (hctx : b.ctx_rtu = none) :
      ∃ trace', reconnect cfg (o.serving again) (Server.withBackend { w with trace := trace } b) =
        Server.withBackend { w with trace := trace' } (b.openRtu again).2 := by
    refine ⟨trace ++ [.newRtu], ?_⟩
    rw [reconnect_of_none (w := Server.withBackend { w with trace := trace } b) hrtu rfl hrunning
      hctx]
    exact openRtu_withBackend { w with trace := trace } hsocket hconnect
  have hctx' : (w.withBackend b).ctx_rtu = b.ctx_rtu := rfl
  simp only [Block.inMain, Block.inAdapters, hhandle, reconnect_eq himpl, hctx']
  cases hctx : b.ctx_rtu with
  | none =>
    have hcleanup : RtuAdapter.rtuAdapterCleanup b = b := by
      simp [RtuAdapter.rtuAdapterCleanup, hctx]
    have hidle : b.handleRtu o dropped = (-1, b) := by simp [ModbusBackend.handleRtu, hctx]
    have hskip : handleRtu cfg (o.serving again) ∅ (w.withBackend b) = w.withBackend b := by
      simp [handleRtu, hctx', hctx]
    rw [Option.elim_none, hskip, hidle, if_pos rfl, hcleanup]
    exact hagain w.trace b hctx
  | some c =>
    rw [Option.elim_some]
    by_cases herror : o.receive.HardError
    · obtain ⟨trace, hlost⟩ := handleRtu_withBackend_of_hardError w hrtu hctx (hlink c hctx) again
        herror [.use c.id]
      rw [hlost, ModbusBackend.handleRtu_of_hardError hctx herror, if_pos rfl, hdropped]
      exact hagain trace _ (ctx_rtu_rtuAdapterCleanup _)
    · obtain ⟨trace, hserved⟩ :=
        handleRtu_withBackend w hrtu hctx (hlink c hctx) again herror dropped
      have hcode := code_handleRtu_ne hctx hreply herror dropped
      rw [hserved, if_neg hcode]
      exact ⟨trace, reconnect_of_some rfl ((ctx_rtu_handleRtu_of_code hcode).trans hctx)⟩

end Rtu

/-! ### Sequences of blocks -/

section Runs

variable {cfg : Config} {b : ModbusBackend} {impl : RtuImplementation}

theorem ctx_rtu_tcpAdapterInit (new : Bool) (listen : Option ℤ) (b : ModbusBackend) :
    (tcpAdapterInit new listen b).2.ctx_rtu = b.ctx_rtu := by
  rcases tcpAdapterInit_cases new listen b with ⟨-, heq⟩ | ⟨-, heq⟩ | ⟨-, fd, -, heq⟩
  all_goals rw [heq]

theorem ctx_rtu_tcpAdapterAcceptClient (accept : Accept) (b : ModbusBackend) :
    (tcpAdapterAcceptClient accept b).2.ctx_rtu = b.ctx_rtu := by
  rw [tcpAdapterAcceptClient]
  rcases b.modbusTcpAccept_cases accept with heq | heq | ⟨fd, -, heq⟩
  all_goals
    rw [heq]
    cases b.findFreeTcpClientSlot with
    | none => dsimp only; split_ifs <;> rfl
    | some slot => dsimp only; split_ifs <;> rfl

theorem ctx_rtu_tcpAdapterHandleClient (client_index : ℤ) (r : Receive) (reply : Bool)
    (b : ModbusBackend) :
    (tcpAdapterHandleClient client_index r reply b).2.ctx_rtu = b.ctx_rtu := by
  rw [tcpAdapterHandleClient]
  dsimp only
  split_ifs <;> rfl

theorem linked_openRtu (b : ModbusBackend) (o : RtuOutcome) : (b.openRtu o).2.Linked := by
  intro c hctx
  rcases b.openRtu_cases o with ⟨-, heq⟩ | ⟨-, -, c', -, heq⟩ | ⟨-, fd, hfd, c', -, rfl, -, heq⟩
  · simp [heq] at hctx
  · simp [heq] at hctx
  · rw [heq] at hctx
    obtain rfl := Option.some.inj hctx
    omega

theorem ModbusBackend.Linked.of_eq {b' : ModbusBackend} (h : b.Linked)
    (hctx : b'.ctx_rtu = b.ctx_rtu) : b'.Linked :=
  fun c hc => h c (hctx.symm.trans hc)

/-- The RTU context has a descriptor behind every block. -/
protected theorem ModbusBackend.Linked.inAdapters (h : b.Linked)
    (himpl : impl ∈ [RtuAdapter.implementation, ServerController.implementation]) (block : Block) :
    (block.inAdapters impl b).Linked := by
  cases block with
  | startTcp new listen => exact h.of_eq (ctx_rtu_tcpAdapterInit new listen b)
  | acceptClient accept => exact h.of_eq (ctx_rtu_tcpAdapterAcceptClient accept b)
  | handleClient k receive reply => exact h.of_eq (ctx_rtu_tcpAdapterHandleClient k receive reply b)
  | releaseTcp => exact h.of_eq (rtu_tcpAdapterCleanup b).1
  | startRtu o =>
    rw [Block.inAdapters, init_eq himpl]
    exact linked_openRtu b o
  | serveRtu o again =>
    obtain ⟨dropped, -, hhandle⟩ := handle_eq himpl o b
    simp only [Block.inAdapters, hhandle, reconnect_eq himpl]
    split_ifs with hcode
    · exact linked_openRtu _ again
    · exact h.of_eq (ctx_rtu_handleRtu_of_code hcode)
  | releaseRtu =>
    rw [Block.inAdapters, cleanup_eq himpl]
    intro c hctx
    rw [ctx_rtu_rtuAdapterCleanup] at hctx
    cases hctx

/-- **A block** leaves the same in the globals and in the back end. -/
theorem inMain_withBackend (htcp : cfg.enable_tcp = true) (hrtu : cfg.enable_rtu = true)
    (himpl : impl ∈ [RtuAdapter.implementation, ServerController.implementation]) (w : Server)
    (hrunning : w.flags.server_state = .running) (hlink : b.Linked)
    {block : Block} (hblock : block.Covered b) :
    ∃ trace, block.inMain cfg (w.withBackend b) =
      Server.withBackend { w with trace := trace } (block.inAdapters impl b) := by
  cases block with
  | startTcp new listen => exact ⟨w.trace, startTcp_withBackend w htcp hblock⟩
  | acceptClient accept => exact ⟨w.trace, acceptClient_withBackend w htcp hblock.1 hblock.2⟩
  | handleClient k receive reply => exact handleClient_withBackend w k receive reply
  | releaseTcp => exact ⟨w.trace, releaseTcp_withBackend w b⟩
  | startRtu o =>
    refine ⟨w.trace ++ [.newRtu], ?_⟩
    rw [Block.inAdapters, init_eq himpl, Block.inMain, startRtu, if_pos hrtu]
    exact openRtu_withBackend w hblock.1 hblock.2
  | serveRtu o again =>
    exact serveRtu_withBackend w hrtu hrunning himpl hlink hblock.1 hblock.2.1 hblock.2.2
  | releaseRtu =>
    refine ⟨w.trace, ?_⟩
    rw [Block.inAdapters, cleanup_eq himpl]
    exact releaseRtu_withBackend w b

theorem run_withBackend (htcp : cfg.enable_tcp = true) (hrtu : cfg.enable_rtu = true)
    (himpl : impl ∈ [RtuAdapter.implementation, ServerController.implementation]) (w : Server)
    (hrunning : w.flags.server_state = .running) (hlink : b.Linked)
    {blocks : List Block}
    (hblocks : Runs.StepsMeet (Block.inAdapters impl) Block.Covered b blocks) :
    ∃ trace, Runs.run (Block.inMain cfg) (w.withBackend b) blocks =
      Server.withBackend { w with trace := trace }
        (Runs.run (Block.inAdapters impl) b blocks) := by
  induction blocks generalizing b w with
  | nil => exact ⟨w.trace, rfl⟩
  | cons block blocks ih =>
    obtain ⟨trace, hblock⟩ := inMain_withBackend htcp hrtu himpl w hrunning hlink hblocks.1
    rw [Runs.run_cons, Runs.run_cons, hblock]
    exact ih { w with trace := trace } hrunning (hlink.inAdapters himpl block) hblocks.2

/-- A back end that has been created, and given a table or none, has a descriptor in its RTU context
behind every sequence of blocks. -/
theorem linked_run (himpl : impl ∈ [RtuAdapter.implementation, ServerController.implementation])
    {malloc : Bool} (hb : modbusBackendCreate malloc = some b) (mapping : Option Mapping)
    (blocks : List Block) :
    (Runs.run (Block.inAdapters impl) { b with mapping := mapping } blocks).Linked := by
  have hcreated : ModbusBackend.Linked { b with mapping := mapping } := by
    intro c hctx
    simp [(modbusBackendCreate_eq hb).2.1] at hctx
  exact Runs.run_induction hcreated (fun b block h => h.inAdapters himpl block) blocks

/-- **The adapters follow `main`.** From a created back end with any table of registers, or none, in
every sequence of covered blocks the adapters leave in the back end what `main` leaves in its
globals, and the blocks of `main` change nothing else. -/
theorem blocks_run (htcp : cfg.enable_tcp = true) (hrtu : cfg.enable_rtu = true)
    (himpl : impl ∈ [RtuAdapter.implementation, ServerController.implementation]) {malloc : Bool}
    (hb : modbusBackendCreate malloc = some b) (mapping : Option Mapping) (w : Server)
    (hrunning : w.flags.server_state = .running) {blocks : List Block}
    (hblocks : Runs.StepsMeet (Block.inAdapters impl) Block.Covered { b with mapping := mapping }
      blocks) :
    ∃ trace, Runs.run (Block.inMain cfg) (w.withBackend { b with mapping := mapping }) blocks =
      Server.withBackend { w with trace := trace }
        (Runs.run (Block.inAdapters impl) { b with mapping := mapping } blocks) :=
  run_withBackend htcp hrtu himpl w hrunning (linked_run himpl hb mapping []) hblocks

theorem length_threeRegisters_le : ([1, 2, 3] : List Word).length ≤ CInt.INT_MAX := by decide

/-- A table of three registers. -/
def threeRegisters : Mapping where
  tab_registers := [1, 2, 3]
  length_le := length_threeRegisters_le

/-- A client writes the first register, the link is lost and connected again, and both are
closed. -/
def lostLink : List Block :=
  [.startTcp true (some 3), .startRtu { new := true, connect := some 4 },
    .acceptClient (.connection 5),
    .handleClient ⟨0, by decide⟩ { rc := 12, written := [(0, 7)] } true,
    .serveRtu { receive := { rc := -1 } } { new := true, connect := some 4 }, .releaseTcp,
    .releaseRtu]

/-- Behind `lostLink` the first register holds 7. -/
theorem blocks_run_lostLink : ∃ b, modbusBackendCreate true = some b ∧
    ∃ trace, Runs.run (Block.inMain bothModes)
        (Server.withBackend { stdin := { ahead := 0 } } { b with mapping := some threeRegisters })
        lostLink =
      Server.withBackend { stdin := { ahead := 0 }, trace := trace }
        (Runs.run (Block.inAdapters RtuAdapter.implementation)
          { b with mapping := some threeRegisters } lostLink) ∧
      (Runs.run (Block.inAdapters RtuAdapter.implementation)
        { b with mapping := some threeRegisters } lostLink).mapping.map Mapping.tab_registers =
          some [7, 2, 3] := by
  obtain ⟨trace, hrun⟩ := @blocks_run bothModes _ RtuAdapter.implementation rfl rfl (by simp) true
    rfl (some threeRegisters) { stdin := { ahead := 0 } } rfl lostLink (by decide +kernel)
  exact ⟨_, rfl, trace, hrun, by decide +kernel⟩

end Runs

/-! ### An iteration of `main` -/

/-- Whether the replies of an iteration succeed: to the clients, and on the RTU link. `main` logs a
reply that fails and does nothing else, so its own inputs do not say it. -/
structure ReplyOutcomes where
  client : Fin maxTcpClients → Bool
  rtu : Bool

/-- What happens to the RTU link in an iteration, and when it is connected again. -/
def Input.links (i : Input) (replies : ReplyOutcomes) : RtuOutcome × RtuOutcome :=
  ({ receive := i.rtu, reply := replies.rtu },
    { new := i.newRtuAgain, fcntl := i.fcntl, connect := i.connectAgain })

/-- The blocks of an iteration that serves what is ready. -/
def servingBlocks (cfg : Config) (i : Input) (replies : ReplyOutcomes) (fds : Finset ℤ)
    (w : Server) : List Block :=
  let accepting := if w.tcp_listen_sock ≠ -1 ∧ w.tcp_listen_sock ∈ fds then
    [Block.acceptClient i.accept] else []
  let w := acceptClient cfg i fds w
  let clients := slots.filter fun k => w.tcp_conn_socks k ≠ -1 ∧ w.tcp_conn_socks k ∈ fds
  let link := if w.ctx_rtu.all fun c => c.s ∈ fds then
    [Block.serveRtu (i.links replies).1 (i.links replies).2] else []
  accepting ++ clients.map (fun k => Block.handleClient k (i.client k) (replies.client k)) ++ link

section Iteration

variable {cfg : Config} {i : Input} {replies : ReplyOutcomes} {fds : Finset ℤ} {b : ModbusBackend}

theorem acceptClient_eq_run (htcp : cfg.enable_tcp = true) (w : Server) :
    acceptClient cfg i fds w = Runs.run (Block.inMain cfg) w
      (if w.tcp_listen_sock ≠ -1 ∧ w.tcp_listen_sock ∈ fds then [.acceptClient i.accept]
        else []) := by
  by_cases hready : w.tcp_listen_sock ≠ -1 ∧ w.tcp_listen_sock ∈ fds
  · have hsingle : cfg.enable_tcp ∧ w.tcp_listen_sock ≠ -1 ∧
        w.tcp_listen_sock ∈ ({w.tcp_listen_sock} : Finset ℤ) :=
      ⟨htcp, hready.1, Finset.mem_singleton_self _⟩
    rw [if_pos hready, Runs.run_cons, Runs.run_nil, Block.inMain, acceptClient,
      if_pos ⟨htcp, hready⟩, acceptClient, if_pos hsingle]
  · rw [if_neg hready, Runs.run_nil, acceptClient, if_neg fun h => hready h.2]

/-- The turns of the slots whose descriptors are ready. -/
theorem foldl_handleClient_eq_run {ks : List (Fin maxTcpClients)} (hks : ks.Nodup)
    (reply : Fin maxTcpClients → Bool) (w : Server) :
    ks.foldl (handleClient i fds) w = Runs.run (Block.inMain cfg) w
      ((ks.filter fun k => w.tcp_conn_socks k ≠ -1 ∧ w.tcp_conn_socks k ∈ fds).map
        fun k => .handleClient k (i.client k) (reply k)) := by
  induction ks generalizing w with
  | nil => rfl
  | cons k ks ih =>
    obtain ⟨hk, hks⟩ := List.nodup_cons.mp hks
    -- a turn leaves the descriptors of the slots behind it as they are
    have hrest : (ks.filter fun j => (handleClient i fds w k).tcp_conn_socks j ≠ -1 ∧
          (handleClient i fds w k).tcp_conn_socks j ∈ fds) =
        ks.filter fun j => w.tcp_conn_socks j ≠ -1 ∧ w.tcp_conn_socks j ∈ fds :=
      List.filter_congr fun j hj => by rw [handleClient_of_ne (ne_of_mem_of_not_mem hj hk)]
    rw [List.foldl_cons, ih hks, hrest]
    by_cases hready : w.tcp_conn_socks k ≠ -1 ∧ w.tcp_conn_socks k ∈ fds
    · have hsingle : w.tcp_conn_socks k ≠ -1 ∧
          w.tcp_conn_socks k ∈ ({w.tcp_conn_socks k} : Finset ℤ) :=
        ⟨hready.1, Finset.mem_singleton_self _⟩
      have hturn : Block.inMain cfg w (.handleClient k (i.client k) (reply k)) =
          handleClient i fds w k := by
        rw [Block.inMain, handleClient, if_pos hsingle, handleClient, if_pos hready]
      rw [List.filter_cons_of_pos (by simpa using hready), List.map_cons, Runs.run_cons, hturn]
    · rw [List.filter_cons_of_neg (by simpa using hready), handleClient, if_neg hready]

/-- The RTU block and the block that reconnects. -/
theorem reconnect_handleRtu_eq_run (hi : i.signal .reconnect = false) (w : Server) :
    reconnect cfg i (handleRtu cfg i fds w) = Runs.run (Block.inMain cfg) w
      (if w.ctx_rtu.all fun c => c.s ∈ fds then
        [.serveRtu (i.links replies).1 (i.links replies).2] else []) := by
  have hreconnect (w : Server) :
      reconnect cfg i w = reconnect cfg ((i.links replies).1.serving (i.links replies).2) w := by
    simp [reconnect, signalHandler, hi, RtuOutcome.serving, Input.links]
  cases hctx : w.ctx_rtu with
  | none =>
    rw [if_pos (by simp), Runs.run_cons, Runs.run_nil, Block.inMain, hreconnect]
    simp [handleRtu, hctx]
  | some c =>
    by_cases hready : c.s ∈ fds
    · rw [if_pos (by simpa using hready), Runs.run_cons, Runs.run_nil, Block.inMain, hreconnect]
      simp [handleRtu, hctx, hready, RtuOutcome.serving, Input.links]
    · have hidle : handleRtu cfg i fds w = w := by simp [handleRtu, hctx, hready]
      rw [if_neg (by simpa using hready), Runs.run_nil, hidle, reconnect_of_some hi hctx]

/-- **The serving part of the loop body** is a sequence of blocks. -/
theorem reconnect_serve (htcp : cfg.enable_tcp = true) (hi : i.signal .reconnect = false)
    (replies : ReplyOutcomes) (w : Server) : reconnect cfg i (serve cfg i fds w) =
      Runs.run (Block.inMain cfg) w (servingBlocks cfg i replies fds w) := by
  have hslots : slots.Nodup := List.nodup_finRange maxTcpClients
  rw [servingBlocks, Runs.run_append, Runs.run_append, ← acceptClient_eq_run htcp,
    ← foldl_handleClient_eq_run hslots, serve, handleClients, if_pos htcp,
    reconnect_handleRtu_eq_run hi, ctx_rtu_foldl_handleClient]

/-- The blocks of an iteration are covered where the reply on the RTU link succeeds and no standard
stream is offered. -/
theorem covered_servingBlocks (impl : RtuImplementation) (w : Server) (hreply : replies.rtu = true)
    (haccept : ∀ fd ∈ i.accept.offer?, 2 < fd) (hconnect : ∀ fd ∈ i.connectAgain, 2 < fd) :
    Runs.StepsMeet (Block.inAdapters impl) Block.Covered b
      (servingBlocks cfg i replies fds (w.withBackend b)) := by
  have haccepting : Runs.StepsMeet (Block.inAdapters impl) Block.Covered b
      (if b.tcp_listen_sock ≠ -1 ∧ b.tcp_listen_sock ∈ fds then [.acceptClient i.accept]
        else []) := by
    split_ifs with hready
    · exact ⟨⟨hready.1, haccept⟩, trivial⟩
    · trivial
  have hrest {blocks : List Block} (hblocks : ∀ block ∈ blocks, ∀ b, block.Covered b)
      (b : ModbusBackend) : Runs.StepsMeet (Block.inAdapters impl) Block.Covered b blocks :=
    (Runs.stepsMeet_iff_forall_mem.mpr hblocks).of_invariant (P := fun _ => True) trivial
      (fun _ _ _ _ => trivial) fun b _ _ h => h b
  rw [servingBlocks, Runs.stepsMeet_append, Runs.stepsMeet_append]
  refine ⟨⟨haccepting, hrest ?_ _⟩, hrest ?_ _⟩
  · intro block hblock b
    obtain ⟨k, -, rfl⟩ := List.mem_map.mp hblock
    trivial
  · intro block hblock b
    split_ifs at hblock
    · obtain rfl := List.mem_singleton.mp hblock
      exact ⟨hreply, rfl, hconnect⟩
    · cases hblock

/-- **Serving with the adapters.** Behind every sequence of blocks from a created back end with any
table of registers, or none, and where the reply on the RTU link succeeds and no standard stream is
offered, the adapters leave in the back end what the serving part of the loop body leaves in the
globals. -/
theorem reconnect_serve_withBackend (htcp : cfg.enable_tcp = true) (hrtu : cfg.enable_rtu = true)
    {impl : RtuImplementation}
    (himpl : impl ∈ [RtuAdapter.implementation, ServerController.implementation]) {malloc : Bool}
    {b₀ : ModbusBackend} (hb₀ : modbusBackendCreate malloc = some b₀) (mapping : Option Mapping)
    (blocks : List Block)
    (hb : Runs.run (Block.inAdapters impl) { b₀ with mapping := mapping } blocks = b) (w : Server)
    (hrunning : w.flags.server_state = .running) (hi : i.signal .reconnect = false)
    (hreply : replies.rtu = true) (haccept : ∀ fd ∈ i.accept.offer?, 2 < fd)
    (hconnect : ∀ fd ∈ i.connectAgain, 2 < fd) :
    ∃ trace, reconnect cfg i (serve cfg i fds (w.withBackend b)) =
      Server.withBackend { w with trace := trace }
        (Runs.run (Block.inAdapters impl) b
          (servingBlocks cfg i replies fds (w.withBackend b))) := by
  subst hb
  rw [reconnect_serve htcp hi replies]
  exact run_withBackend htcp hrtu himpl w hrunning (linked_run himpl hb₀ mapping blocks)
    (covered_servingBlocks impl w hreply haccept hconnect)

/-- A client writes the second register, which fails to be answered, and the link is lost and
connected again. -/
def replugged : Input where
  client := fun _ => { rc := 12, written := [(1, 8)] }
  rtu := { rc := -1 }
  newRtuAgain := true
  connectAgain := some 4

/-- The replies to the clients fail. -/
def unanswered : ReplyOutcomes := { client := fun _ => false, rtu := true }

/-- A client has written the first register before. -/
theorem reconnect_serve_withBackend_replugged : ∃ b₀, modbusBackendCreate true = some b₀ ∧
    ∃ b, Runs.run (Block.inAdapters RtuAdapter.implementation)
        { b₀ with mapping := some threeRegisters } (lostLink.take 4) = b ∧
      (∃ trace, reconnect bothModes replugged (serve bothModes replugged {4, 5}
          (Server.withBackend { stdin := { ahead := 0 } } b)) =
        Server.withBackend { stdin := { ahead := 0 }, trace := trace }
          (Runs.run (Block.inAdapters RtuAdapter.implementation) b
            (servingBlocks bothModes replugged unanswered {4, 5}
              (Server.withBackend { stdin := { ahead := 0 } } b)))) ∧
      (reconnect bothModes replugged (serve bothModes replugged {4, 5}
        (Server.withBackend { stdin := { ahead := 0 } } b))).mb_mapping.map
          Mapping.tab_registers = some [7, 8, 3] :=
  ⟨_, rfl, _, rfl, @reconnect_serve_withBackend bothModes replugged unanswered {4, 5} _ rfl rfl
    RtuAdapter.implementation (by simp) true _ rfl (some threeRegisters) (lostLink.take 4) rfl
    { stdin := { ahead := 0 } } rfl rfl rfl (by simp [replugged, Accept.offer?])
    (by simp [replugged]), by decide +kernel⟩

end Iteration

end ModbusServer
