import ModbusServer.Server.Polling

/-!
# The server loop without commands

`run_server`, an older form of the loop of `main` that serves the descriptors and does not read the
standard input. It has the same blocks for the clients, but starts the server once, leaves the
program by `exit` if that fails, and never gives up the RTU link. Nothing calls it.

The function is entered in some state of the globals. A signal is delivered where the loop reads
`server_state`; one that comes while the server is started acts like one at the first such point.
Behind the clean-up the pointers keep their values; only the table is taken away with its memory.

While nothing arrives on the standard input, no signal comes and the RTU link does not fail, the
two loops do the same.

Source: `json-modbus-server.c`, lines 261–423.

## Main definitions

* `ModbusServer.runServerStart`: the part before the loop.
* `ModbusServer.runServerCleanup`: the part behind the loop.
* `ModbusServer.runServerStep`, `ModbusServer.runServer`: an iteration, and a run.
* `ModbusServer.Calm`: nothing happens on which the two loops differ.

## Main results

* `ModbusServer.runServer_resources`: what is in use during a run and behind it.
* `ModbusServer.serverRun_eq_runServer`: the two loops do the same on calm inputs.
-/

namespace ModbusServer

/-! ### The function -/

/-- Where `run_server` is: in its loop, behind a call of `exit`, or returned. -/
inductive RunStatus
  | serving
  | exited
  | returned
  deriving DecidableEq

/-- The loop that initialises the client table. -/
def resetClients (w : Server) : Server :=
  { w with tcp_conn_socks := fun _ => -1, tcp_conn_count := 0, trace := w.trace ++ [.startup] }

/-- TCP is initialised; `false` if that ends in a call of `exit`. -/
def runServerTcp (cfg : Config) (i : Input) (w : Server) : Server × Bool :=
  if cfg.enable_tcp then
    let (ctx, os) := w.os.newContext i.newTcp
    match ctx with
    | none => ({ w with ctx_tcp := none, os := os }, false)
    | some c =>
      let (fd, os) := os.openDescriptor i.listen
      ({ w with ctx_tcp := some c, tcp_listen_sock := fd, os := os }, fd ≠ -1)
  else (w, true)

/-- RTU is initialised. The context is not freed if it cannot be connected. -/
def runServerRtu (cfg : Config) (i : Input) (w : Server) : Server × Bool :=
  if cfg.enable_rtu then
    let (ctx, os) := w.os.newContext i.newRtu
    let w := { w with ctx_rtu := ctx, os := os, trace := w.trace ++ [.newRtu] }
    match ctx with
    | none => (w, false)
    | some c =>
      let (fd, os) := w.os.openDescriptor i.connect
      ({ w with ctx_rtu := some { c with s := fd }, os := os }, fd ≠ -1)
  else (w, true)

/-- The mapping is allocated. If that fails the contexts are freed and the RTU link is closed, but
not the listening socket. -/
def runServerMapping (cfg : Config) (i : Input) (w : Server) : Server × Bool :=
  if i.newMapping then
    ({ w with mb_mapping := some (newMapping cfg), stdout := w.stdout ++ [serverReadyLine cfg] },
      true)
  else
    ({ w with os := ((w.os.modbusFree w.ctx_tcp).modbusClose w.ctx_rtu).modbusFree w.ctx_rtu },
      false)

/-- The part before the loop. -/
def runServerStart (cfg : Config) (i : Input) (w : Server) : Server × Bool :=
  orContinue (runServerTcp cfg i (resetClients w)) fun w =>
    orContinue (runServerRtu cfg i w) (runServerMapping cfg i)

/-- The descriptors that are put into the set for `select`. -/
def runServerWatched (cfg : Config) (w : Server) : Finset ℤ :=
  let listen := if cfg.enable_tcp ∧ w.tcp_listen_sock ≠ -1 then {w.tcp_listen_sock} else ∅
  let clients := if cfg.enable_tcp then
    (Finset.univ.image w.tcp_conn_socks).filter (· ≠ -1) else ∅
  let rtu := match w.ctx_rtu with
    | some ctx => if cfg.enable_rtu ∧ ctx.s ≠ -1 then {ctx.s} else ∅
    | none => ∅
  listen ∪ clients ∪ rtu

/-- The set given to `select`. -/
def runServerFds (cfg : Config) (w : Server) : Finset ℤ := fdSet (runServerWatched cfg w)

/-- The largest descriptor given to `select`. -/
def runServerMaxfd (cfg : Config) (w : Server) : ℤ :=
  let m := if cfg.enable_tcp then
    slots.foldl (fun m k => max m (w.tcp_conn_socks k)) (max 0 w.tcp_listen_sock) else 0
  match w.ctx_rtu with
  | some ctx => if cfg.enable_rtu then max m ctx.s else m
  | none => m

/-- The block that serves the RTU link. It only logs an error. -/
def runServerHandleRtu (cfg : Config) (i : Input) (fds : Finset ℤ) (w : Server) : Server :=
  match w.ctx_rtu with
  | none => w
  | some ctx =>
    if cfg.enable_rtu ∧ ctx.s ≠ -1 ∧ ctx.s ∈ fds then
      let w := { w with trace := w.trace ++ [.receive ctx.s] }
      if 0 < i.rtu.rc then modbusReply i.rtu w else w
    else w

/-- The blocks that serve ready descriptors; the one that accepts a connection and the one that
serves the clients are those of `main`. -/
def runServerServe (cfg : Config) (i : Input) (fds : Finset ℤ) (w : Server) : Server :=
  runServerHandleRtu cfg i fds (handleClients cfg i fds (acceptClient cfg i fds w))

/-- The part behind the loop. -/
def runServerCleanup (cfg : Config) (w : Server) : Server :=
  let w :=
    if cfg.enable_tcp then
      let w := slots.foldl closeClient w
      let os := if w.tcp_listen_sock ≠ -1 then w.os.close w.tcp_listen_sock else w.os
      { w with tcp_conn_count := 0, os := os.modbusFree w.ctx_tcp }
    else w
  let w :=
    if cfg.enable_rtu then { w with os := (w.os.modbusClose w.ctx_rtu).modbusFree w.ctx_rtu }
    else w
  { w with mb_mapping := none }

/-- An iteration of the loop; the end of the function if the server has been stopped. -/
def runServerIteration (cfg : Config) (w : Server) (i : Input) : Server × RunStatus :=
  let w := signalHandler i .head w
  if w.flags.server_state = .running then
    let fds := runServerFds cfg w
    let nfds := runServerMaxfd cfg w + 1
    let w := w.watch (runServerWatched cfg w)
    match i.select with
    | .failed _ => (w, .serving)
    | .ready sockets =>
      let fds := readyFds fds nfds sockets w.stdin
      (if fds.Nonempty then runServerServe cfg i fds w else w, .serving)
  else (runServerCleanup cfg w, .returned)

/-- A step of the function. -/
def runServerStep (cfg : Config) (r : Server × RunStatus) (i : Input) : Server × RunStatus :=
  match r.2 with
  | .serving => runServerIteration cfg r.1 i
  | .exited | .returned => r

/-- The function when it reaches its loop, or has called `exit`. -/
def runServerEnter (cfg : Config) (i : Input) (w : Server) : Server × RunStatus :=
  let (w, up) := runServerStart cfg i w
  (w, if up then .serving else .exited)

/-- A run of the function, entered in some state. -/
def runServer (cfg : Config) (w : Server) (i : Input) (inputs : List Input) : Server × RunStatus :=
  Runs.run (runServerStep cfg) (runServerEnter cfg i w) inputs

/-! ### What the blocks do -/

section Blocks

variable {cfg : Config} {w : Server} {i : Input}

/-- TCP is initialised as in `main`, where the client table is initialised at the end. -/
theorem runServerTcp_resetClients (cfg : Config) (i : Input) (w : Server) :
    runServerTcp cfg i (resetClients w) = startTcp cfg i (resetClients w) := by
  rw [runServerTcp, startTcp]
  cases i.newTcp with
  | false => rfl
  | true =>
    simp only [Os.newContext, if_true]
    generalize Os.openDescriptor _ i.listen = r
    obtain ⟨fd, os⟩ := r
    by_cases hfd : fd = -1
    · simp [hfd]
    · simp [hfd, resetClients]

/-- RTU is not initialised, and nothing has been released; or it is initialised as in `main`. -/
theorem runServerRtu_cases (cfg : Config) (i : Input) (w : Server) :
    ((runServerRtu cfg i w).2 = false ∧ (runServerRtu cfg i w).1.os.misuse = w.os.misuse) ∨
    ((startRtu cfg i w).2 = true ∧ runServerRtu cfg i w = startRtu cfg i w) := by
  rw [runServerRtu, startRtu]
  split_ifs
  · cases hnew : i.newRtu with
    | false => exact .inl ⟨rfl, rfl⟩
    | true =>
      rcases (w.os.newContext true).2.openDescriptor_cases i.connect with
        ⟨-, hopen⟩ | ⟨fd, hfd, hopen⟩
      · simp only [Os.newContext, if_true] at hopen ⊢
        simp [hopen]
      · have hne : fd ≠ -1 := by omega
        right
        simp only [openRtu, connectRtu, Os.newContext, if_true] at hopen ⊢
        simp [hopen, hne]
  · exact .inr ⟨rfl, rfl⟩

/-- The clean-up releases what the clean-up of `main` does. -/
theorem os_runServerCleanup (cfg : Config) (w : Server) :
    (runServerCleanup cfg w).os = (release cfg w).os := by
  rw [runServerCleanup, release]
  split_ifs <;> rfl

theorem ctx_rtu_handleClients_acceptClient (cfg : Config) (i : Input) (fds : Finset ℤ)
    (w : Server) : (handleClients cfg i fds (acceptClient cfg i fds w)).ctx_rtu = w.ctx_rtu := by
  have hbody (w : Server) (k : Fin maxTcpClients) : (handleClient i fds w k).ctx_rtu = w.ctx_rtu :=
    (receives_handleClient (P := fun _ => True) i w k fun _ => trivial).2.1
  rw [← (receives_acceptClient (P := fun _ => True) cfg i fds w).2, handleClients]
  split_ifs
  · exact Runs.run_frame hbody slots
  · rfl

/-- The RTU link is never given up. -/
theorem ctx_rtu_runServerServe (cfg : Config) (i : Input) (fds : Finset ℤ) (w : Server) :
    (runServerServe cfg i fds w).ctx_rtu = w.ctx_rtu := by
  rw [← ctx_rtu_handleClients_acceptClient cfg i fds w, runServerServe, runServerHandleRtu]
  split
  · rfl
  · dsimp only
    split_ifs <;> rfl

theorem isSome_runServerServe (fds : Finset ℤ) (h : w.mb_mapping.isSome = true) :
    (runServerServe cfg i fds w).mb_mapping.isSome = true := by
  have haccept := serves_acceptClient cfg i w fds h
  have hclients := (serves_handleClients cfg i _ fds haccept.mapping).mapping
  rw [runServerServe, runServerHandleRtu]
  split
  · exact hclients
  · dsimp only
    split_ifs
    · simpa [modbusReply] using hclients
    · exact hclients
    · exact hclients

protected theorem Owned.runServerServe (h : Owned cfg w) (i : Input) (fds : Finset ℤ) :
    Owned cfg (runServerServe cfg i fds w) := by
  have hclients := (h.acceptClient i fds).handleClients i fds
  rw [ModbusServer.runServerServe, runServerHandleRtu]
  split
  · exact hclients
  · dsimp only
    split_ifs
    · exact hclients.of_eq rfl rfl rfl
    · exact hclients.of_eq rfl rfl rfl
    · exact hclients

end Blocks

/-! ### What is in use -/

section Resources

variable {cfg : Config} {w : Server} {i : Input}

/-- On the way to the loop everything in use is held by one variable, and the contexts of the modes
that are not used are null pointers. -/
structure Starting (cfg : Config) (w : Server) : Prop where
  owned : Owned cfg w
  ctx_tcp_eq : cfg.enable_tcp = false → w.ctx_tcp = none
  ctx_rtu_eq : cfg.enable_rtu = false → w.ctx_rtu = none

/-- The RTU link is connected, if it is used. -/
def Connected (cfg : Config) (w : Server) : Prop :=
  cfg.enable_rtu = true → ∃ ctx, w.ctx_rtu = some ctx ∧ ctx.s ≠ -1

/-- In the loop everything in use is held by one variable, there is a table, and the RTU link is
connected. -/
structure Up (cfg : Config) (w : Server) : Prop where
  owned : Owned cfg w
  mapping : w.mb_mapping.isSome = true
  connected : Connected cfg w

theorem starting_runServerTcp (cfg : Config) (i : Input) (ahead : ℕ) :
    (runServerTcp cfg i (resetClients (initial ahead))).1.os.misuse = false ∧
    ((runServerTcp cfg i (resetClients (initial ahead))).2 = true →
      Starting cfg (runServerTcp cfg i (resetClients (initial ahead))).1 ∧
        (runServerTcp cfg i (resetClients (initial ahead))).1.ctx_rtu = none) := by
  have hidle : Idle cfg (resetClients (initial ahead)) := ⟨rfl, rfl, fun _ => rfl, rfl⟩
  rw [runServerTcp_resetClients]
  rcases startTcp_cases cfg i (resetClients (initial ahead)) with
    ⟨htcp, heq⟩ | ⟨-, -, heq⟩ | ⟨-, -, -, heq⟩ | ⟨henable, -, sock, hsock, heq⟩
  · have howned : Owned cfg (resetClients (initial ahead)) := by
      refine hidle.owned (by simp [heldContext, htcp]) fun p hp => ?_
      cases p with
      | listen => simp [heldDescriptor, htcp]
      | client k => simp [heldDescriptor, htcp]
      | rtu => exact absurd rfl hp
    rw [heq]
    exact ⟨rfl, fun _ => ⟨⟨howned, fun _ => rfl, fun _ => rfl⟩, rfl⟩⟩
  · rw [heq]
    exact ⟨rfl, by simp⟩
  · rw [heq]
    exact ⟨rfl, by simp⟩
  · have howned := hidle.owned_listening henable hsock.2.1
    rw [heq]
    exact ⟨rfl, fun _ => ⟨⟨howned, by simp [henable], fun _ => rfl⟩, rfl⟩⟩

theorem Starting.runServerRtu (h : Starting cfg w) (hctx : w.ctx_rtu = none) (i : Input) :
    (runServerRtu cfg i w).1.os.misuse = false ∧
    ((runServerRtu cfg i w).2 = true →
      Starting cfg (runServerRtu cfg i w).1 ∧ Connected cfg (runServerRtu cfg i w).1) := by
  rcases runServerRtu_cases cfg i w with ⟨hno, hmisuse⟩ | ⟨hup, heq⟩
  · exact ⟨hmisuse.trans h.owned.misuse_eq, by simp [hno]⟩
  rw [heq]
  rw [startRtu] at hup ⊢
  split_ifs at hup ⊢ with henable
  · have howned := h.owned.openRtu henable hctx i.newRtu i.fcntl i.connect
    rcases openRtu_cases w i.newRtu i.fcntl i.connect with
      ⟨-, hopen⟩ | ⟨-, -, hopen⟩ | ⟨-, fd, hfd, hopen⟩
    · simp [hopen] at hup
    · simp [hopen] at hup
    · rw [hopen] at howned ⊢
      refine ⟨howned.misuse_eq, fun _ => ⟨⟨howned, h.ctx_tcp_eq, by simp [henable]⟩, ?_⟩⟩
      exact fun _ => ⟨_, rfl, by dsimp only; omega⟩
  · exact ⟨h.owned.misuse_eq, fun _ => ⟨h, fun henable' => absurd henable' henable⟩⟩

/-- Without a table what is freed has been in use. -/
theorem Starting.runServerMapping (h : Starting cfg w) (hconnected : Connected cfg w) (i : Input) :
    (runServerMapping cfg i w).1.os.misuse = false ∧
    ((runServerMapping cfg i w).2 = true → Up cfg (runServerMapping cfg i w).1) := by
  rw [ModbusServer.runServerMapping]
  split_ifs with hmapping
  · have howned : Owned cfg { w with
        mb_mapping := some (newMapping cfg)
        stdout := w.stdout ++ [serverReadyLine cfg] } := h.owned.of_eq rfl rfl rfl
    exact ⟨howned.misuse_eq, fun _ => ⟨howned, rfl, hconnected⟩⟩
  · have hfreed : Owned cfg { w with os := w.os.modbusFree w.ctx_tcp, ctx_tcp := none } := by
      cases henable : cfg.enable_tcp with
      | true => exact h.owned.freeTcp henable
      | false =>
        rw [h.ctx_tcp_eq henable]
        exact h.owned.of_eq rfl (heldContext_eq (by rw [h.ctx_tcp_eq henable]) rfl) rfl
    refine ⟨?_, by simp⟩
    cases hctx : w.ctx_rtu with
    | none => exact hfreed.misuse_eq
    | some ctx =>
      have henable : cfg.enable_rtu = true := by
        by_contra hdisabled
        simp [h.ctx_rtu_eq (by simpa using hdisabled)] at hctx
      exact (hfreed.dropRtu henable hctx).misuse_eq

theorem up_runServerStart (cfg : Config) (i : Input) (ahead : ℕ) :
    (runServerStart cfg i (initial ahead)).1.os.misuse = false ∧
    ((runServerStart cfg i (initial ahead)).2 = true →
      Up cfg (runServerStart cfg i (initial ahead)).1) := by
  obtain ⟨hmisuse, hstarting⟩ := starting_runServerTcp cfg i ahead
  rw [runServerStart]
  rcases orContinue_cases (runServerTcp cfg i (resetClients (initial ahead))) fun w =>
    orContinue (runServerRtu cfg i w) (runServerMapping cfg i) with ⟨hno, heq⟩ | ⟨htcp, heq⟩
  · rw [heq]
    exact ⟨hmisuse, by simp [hno]⟩
  rw [heq]
  obtain ⟨hstarting, hctx⟩ := hstarting htcp
  obtain ⟨hmisuse, hconnected⟩ := hstarting.runServerRtu hctx i
  generalize (runServerTcp cfg i (resetClients (initial ahead))).1 = w at hmisuse hconnected ⊢
  rcases orContinue_cases (runServerRtu cfg i w) (runServerMapping cfg i) with
    ⟨hno, heq⟩ | ⟨hrtu, heq⟩
  · rw [heq]
    exact ⟨hmisuse, by simp [hno]⟩
  · rw [heq]
    exact (hconnected hrtu).1.runServerMapping (hconnected hrtu).2 i

/-- The invariant: nothing has been released twice; in the loop the server is up; and nothing is in
use behind the clean-up. -/
structure Clean (cfg : Config) (r : Server × RunStatus) : Prop where
  misuse_eq : r.1.os.misuse = false
  up : r.2 = .serving → Up cfg r.1
  released : r.2 = .returned → r.1.os.contexts = ∅ ∧ r.1.os.descriptors = ∅

theorem Up.runServerServe (h : Up cfg w) (i : Input) (fds : Finset ℤ) :
    Up cfg (runServerServe cfg i fds w) where
  owned := h.owned.runServerServe i fds
  mapping := isSome_runServerServe fds h.mapping
  connected := by
    rw [Connected, ctx_rtu_runServerServe]
    exact h.connected

theorem Up.watch (h : Up cfg w) (fds : Finset ℤ) : Up cfg (w.watch fds) :=
  ⟨h.owned.of_eq rfl rfl rfl, h.mapping, h.connected⟩

theorem Clean.of_up (h : Up cfg w) : Clean cfg (w, .serving) :=
  ⟨h.owned.misuse_eq, fun _ => h, by simp⟩

/-- An iteration keeps the invariant. -/
theorem Up.runServerIteration (h : Up cfg w) (i : Input) :
    Clean cfg (runServerIteration cfg w i) := by
  have hsignal : Up cfg (signalHandler i .head w) := by
    rw [signalHandler_eq]
    exact ⟨h.owned.of_eq rfl rfl rfl, h.mapping, h.connected⟩
  rw [ModbusServer.runServerIteration]
  dsimp only
  split_ifs with hrunning
  · have hwatch := hsignal.watch (runServerWatched cfg (signalHandler i .head w))
    split
    · exact .of_up hwatch
    · split_ifs
      · exact .of_up (hwatch.runServerServe i _)
      · exact .of_up hwatch
  · have hidle := hsignal.owned.release
    refine ⟨?_, by simp, fun _ => ⟨?_, ?_⟩⟩
    · rw [os_runServerCleanup]
      exact hidle.misuse_eq
    · rw [os_runServerCleanup]
      exact hidle.contexts_eq
    · rw [os_runServerCleanup]
      exact hidle.descriptors_eq

theorem clean_runServer (cfg : Config) (ahead : ℕ) (i : Input) (inputs : List Input) :
    Clean cfg (runServer cfg (initial ahead) i inputs) := by
  obtain ⟨hmisuse, hup⟩ := up_runServerStart cfg i ahead
  have henter : Clean cfg (runServerEnter cfg i (initial ahead)) := by
    rw [runServerEnter]
    cases hstart : (runServerStart cfg i (initial ahead)).2 with
    | true => simpa [hstart] using Clean.of_up (hup hstart)
    | false => exact ⟨hmisuse, by simp [hstart], by simp [hstart]⟩
  refine Runs.run_induction henter (fun r i hr => ?_) inputs
  rw [runServerStep]
  split
  · next hserving => exact (hr.up hserving).runServerIteration i
  · exact hr
  · exact hr

/-- **The resources of `run_server`.** In every run nothing is released twice. While the loop goes
on, every context and every descriptor in use is held by exactly one variable, and the RTU link has
its descriptor; when the function returns nothing is in use. -/
theorem runServer_resources (cfg : Config) (ahead : ℕ) (i : Input) (inputs : List Input) :
    (runServer cfg (initial ahead) i inputs).1.os.misuse = false ∧
    ((runServer cfg (initial ahead) i inputs).2 = .serving →
      Owned cfg (runServer cfg (initial ahead) i inputs).1 ∧
      (cfg.enable_rtu = true →
        ∃ ctx, (runServer cfg (initial ahead) i inputs).1.ctx_rtu = some ctx ∧
          ctx.s ∈ (runServer cfg (initial ahead) i inputs).1.os.descriptors)) ∧
    ((runServer cfg (initial ahead) i inputs).2 = .returned →
      (runServer cfg (initial ahead) i inputs).1.os.contexts = ∅ ∧
        (runServer cfg (initial ahead) i inputs).1.os.descriptors = ∅) := by
  have hclean := clean_runServer cfg ahead i inputs
  refine ⟨hclean.misuse_eq, fun hserving => ?_, hclean.released⟩
  have hup := hclean.up hserving
  refine ⟨hup.owned, fun henable => ?_⟩
  obtain ⟨ctx, hctx, hs⟩ := hup.connected henable
  refine ⟨ctx, hctx, hup.owned.descriptors.mem (p := .rtu) ?_⟩
  rw [heldDescriptor, if_pos henable, hctx, Option.bind_some, descriptor?_of_ne hs]

end Resources

/-! ### The two loops -/

/-- Nothing happens in the iteration on which the two loops differ: there are no signals, nothing
arrives on the standard input, `select` is at most interrupted, and the RTU link does not fail. -/
structure Calm (i : Input) : Prop where
  signal_eq (p : Point) : i.signal p = false
  beforeSelect_eq : i.beforeSelect = []
  select_ne : i.select ≠ .failed false
  again (hrc : i.rtu.rc = -1) : i.rtu.again = true

/-- A state of `main`, with the client table as `run_server` leaves it when TCP is not used. -/
def Server.withTable (cfg : Config) (w : Server) : Server :=
  if cfg.enable_tcp then w else { w with tcp_conn_socks := fun _ => -1 }

/-- The loop of `main` has served calm inputs since the start of the server. -/
structure Serviceable (cfg : Config) (w : Server) : Prop where
  status_eq : w.status = .atHead
  flags_eq : w.flags = ⟨.running, true⟩
  stdin_eq : w.stdin.readable = false
  mapping : w.mb_mapping.isSome = true
  connected : Connected cfg w

section Agreement

variable {cfg : Config} {w : Server} {i : Input}

theorem Calm.signalHandler_eq (h : Calm i) (p : Point) (w : Server) : signalHandler i p w = w := by
  rw [signalHandler, if_neg (by simp [h.signal_eq p])]

/-- What is ready when nothing can be read from the standard input. -/
theorem readyFds_insert (fds : Finset ℤ) (nfds : ℤ) (sockets : Finset ℤ) {stdin : Stdin}
    (h : stdin.readable = false) :
    readyFds (insert 0 fds) nfds sockets stdin = readyFds fds nfds sockets stdin := by
  rw [readyFds, Finset.filter_insert, if_neg (by simp [h])]
  rfl

theorem zero_notMem_readyFds (fds : Finset ℤ) (nfds : ℤ) (sockets : Finset ℤ) {stdin : Stdin}
    (h : stdin.readable = false) : 0 ∉ readyFds fds nfds sockets stdin := by
  simp [readyFds, h]

/-- The blocks that serve do the same when the RTU link does not fail. -/
theorem Calm.serve_eq (h : Calm i) (cfg : Config) (fds : Finset ℤ) (w : Server) :
    serve cfg i fds w = runServerServe cfg i fds w := by
  have hfails : ¬(i.rtu.rc = -1 ∧ i.rtu.again = false) := fun hfails => by
    simp [h.again hfails.1] at hfails
  rw [serve, runServerServe, handleRtu, runServerHandleRtu]
  generalize handleClients cfg i fds (acceptClient cfg i fds w) = w₁
  cases w₁.ctx_rtu with
  | none => rfl
  | some ctx => simp only [hfails, if_false]

/-- What `main` waits for and serves in an iteration, as `run_server` does it. -/
def serviced (cfg : Config) (i : Input) (w : Server) : Server :=
  let fds := runServerFds cfg w
  let nfds := runServerMaxfd cfg w + 1
  let w := w.watch (runServerWatched cfg w)
  match i.select with
  | .failed _ => w
  | .ready sockets =>
    let fds := readyFds fds nfds sockets w.stdin
    if fds.Nonempty then runServerServe cfg i fds w else w

/-- The part of a calm iteration behind `select`. -/
theorem Serviceable.afterSelect_eq (h : Serviceable cfg w) (hi : Calm i) {fds : Finset ℤ}
    (hfds : 0 ∉ fds) :
    afterSelect cfg i fds w = if fds.Nonempty then runServerServe cfg i fds w else w := by
  have hsome : w.mb_mapping ≠ none := Option.isSome_iff_ne_none.mp h.mapping
  have hrunning : w.flags.server_state = .running := by rw [h.flags_eq]
  have hconnected : ¬(cfg.enable_rtu = true ∧ (runServerServe cfg i fds w).ctx_rtu = none) := by
    rintro ⟨henable, hnone⟩
    obtain ⟨ctx, hctx, -⟩ := h.connected henable
    simp [ctx_rtu_runServerServe, hctx] at hnone
  have hreconnect : reconnect cfg i (runServerServe cfg i fds w) = runServerServe cfg i fds w := by
    rw [reconnect, hi.signalHandler_eq, if_neg]
    exact fun hlost => hconnected ⟨hlost.1, Option.isNone_iff_eq_none.mp hlost.2.1⟩
  simp [afterSelect, commands, hfds, h.status_eq, startup, hi.signalHandler_eq, hsome, stopServer,
    hrunning, connections, hi.serve_eq, hreconnect]

theorem Serviceable.watch (h : Serviceable cfg w) (fds : Finset ℤ) :
    Serviceable cfg (w.watch fds) :=
  ⟨h.status_eq, h.flags_eq, h.stdin_eq, h.mapping, h.connected⟩

/-- The standard input fits into a set. -/
theorem watch_insert_zero (fds : Finset ℤ) (w : Server) :
    w.watch (insert 0 fds) = w.watch fds := by
  have hlarge : (∃ fd ∈ insert 0 fds, fdSetsize ≤ fd) ↔ ∃ fd ∈ fds, fdSetsize ≤ fd := by
    simp [fdSetsize]
  rw [Server.watch, Server.watch, decide_eq_decide.mpr hlarge]

theorem fdSet_insert_zero (fds : Finset ℤ) : fdSet (insert 0 fds) = insert 0 (fdSet fds) := by
  rw [fdSet, Finset.filter_insert, if_pos (by decide), fdSet]

/-- A calm iteration of `main`. -/
theorem Serviceable.step_eq (h : Serviceable cfg w) (hi : Calm i) :
    step cfg w i = serviced cfg i w := by
  have hwatched : watched cfg w = insert 0 (runServerWatched cfg w) := by
    rw [watched, if_pos (by rw [h.flags_eq])]
    rfl
  have hmaxfd (fds : Finset ℤ) : maxfd cfg (w.watch fds) = runServerMaxfd cfg w := by
    rw [maxfd, if_pos (by rw [flags_watch, h.flags_eq])]
    rfl
  have hbefore : beforeSelect cfg i w = (w.watch (runServerWatched cfg w),
      insert 0 (runServerFds cfg w), runServerMaxfd cfg w + 1) := by
    simp only [beforeSelect, hi.signalHandler_eq, hi.beforeSelect_eq, List.foldl_nil, polled,
      hwatched, watch_insert_zero, fdSet_insert_zero, hmaxfd, runServerFds]
  have hwatch := h.watch (runServerWatched cfg w)
  rw [step, h.status_eq]
  dsimp only
  rw [iteration, hi.signalHandler_eq, if_pos (by rw [h.flags_eq]), hbefore, serviced]
  dsimp only
  cases hselect : i.select with
  | failed eintr =>
    cases eintr with
    | true => rfl
    | false => exact absurd hselect hi.select_ne
  | ready sockets =>
    dsimp only
    rw [readyFds_insert _ _ _ hwatch.stdin_eq]
    exact hwatch.afterSelect_eq hi (zero_notMem_readyFds _ _ _ hwatch.stdin_eq)

/-- A calm iteration of `run_server`. -/
theorem Calm.runServerStep_eq (hi : Calm i) (hrunning : w.flags.server_state = .running) :
    runServerStep cfg (w, .serving) i = (serviced cfg i w, .serving) := by
  rw [runServerStep]
  dsimp only
  rw [runServerIteration, hi.signalHandler_eq, if_pos hrunning, serviced]
  cases i.select with
  | failed eintr => rfl
  | ready sockets => rfl

theorem Serviceable.serviced (h : Serviceable cfg w) (hi : Calm i) :
    Serviceable cfg (serviced cfg i w) := by
  have hwatch := h.watch (runServerWatched cfg w)
  have hserve (fds : Finset ℤ) : Serviceable cfg
      (runServerServe cfg i fds (w.watch (runServerWatched cfg w))) := by
    have hserves := serves_serve cfg i _ fds hwatch.mapping
    rw [hi.serve_eq] at hserves
    refine ⟨hserves.status_eq.trans hwatch.status_eq, hserves.flags_eq.trans hwatch.flags_eq, ?_,
      hserves.mapping, ?_⟩
    · rw [hserves.stdin_eq]
      exact hwatch.stdin_eq
    · rw [Connected, ctx_rtu_runServerServe]
      exact hwatch.connected
  rw [ModbusServer.serviced]
  dsimp only
  split
  · exact hwatch
  · split_ifs
    · exact hserve _
    · exact hwatch

theorem withTable_of_tcp (henable : cfg.enable_tcp = true) (w : Server) :
    w.withTable cfg = w := by
  rw [Server.withTable, if_pos henable]

theorem withTable_of_not_tcp (henable : cfg.enable_tcp = false) (w : Server) :
    w.withTable cfg = { w with tcp_conn_socks := fun _ => -1 } := by
  rw [Server.withTable, if_neg (by simp [henable])]

@[simp] theorem flags_withTable (cfg : Config) (w : Server) :
    (w.withTable cfg).flags = w.flags := by
  rw [Server.withTable]
  split_ifs <;> rfl

@[simp] theorem ctx_rtu_withTable (cfg : Config) (w : Server) :
    (w.withTable cfg).ctx_rtu = w.ctx_rtu := by
  rw [Server.withTable]
  split_ifs <;> rfl

/-- A client table that is not used makes no difference to the blocks that serve. -/
theorem runServerServe_withTable (cfg : Config) (i : Input) (fds : Finset ℤ) (w : Server) :
    runServerServe cfg i fds (w.withTable cfg) = (runServerServe cfg i fds w).withTable cfg := by
  cases henable : cfg.enable_tcp with
  | true => rw [withTable_of_tcp henable, withTable_of_tcp henable]
  | false =>
    rw [withTable_of_not_tcp henable, withTable_of_not_tcp henable]
    simp only [runServerServe, acceptClient, handleClients, henable, Bool.false_eq_true, false_and,
      if_false, runServerHandleRtu]
    cases hctx : w.ctx_rtu with
    | none => simp [hctx]
    | some ctx =>
      dsimp only
      split_ifs
      · simp [modbusReply]
      · simp
      · simp [hctx]

theorem serviced_withTable (cfg : Config) (i : Input) (w : Server) :
    serviced cfg i (w.withTable cfg) = (serviced cfg i w).withTable cfg := by
  cases henable : cfg.enable_tcp with
  | true => rw [withTable_of_tcp henable, withTable_of_tcp henable]
  | false =>
    have hwatched : runServerWatched cfg (w.withTable cfg) = runServerWatched cfg w := by
      rw [withTable_of_not_tcp henable]
      simp [runServerWatched, henable]
    have hmaxfd : runServerMaxfd cfg (w.withTable cfg) = runServerMaxfd cfg w := by
      rw [withTable_of_not_tcp henable]
      simp [runServerMaxfd, henable]
    have hwatch (fds : Finset ℤ) : (w.withTable cfg).watch fds = (w.watch fds).withTable cfg := by
      rw [withTable_of_not_tcp henable, withTable_of_not_tcp henable]
      rfl
    have hstdin (w : Server) : (w.withTable cfg).stdin = w.stdin := by
      rw [withTable_of_not_tcp henable]
    rw [serviced, serviced, runServerFds, runServerFds, hwatched, hmaxfd, hwatch]
    cases i.select with
    | failed eintr => rfl
    | ready sockets =>
      dsimp only
      rw [hstdin]
      split_ifs
      · exact runServerServe_withTable cfg i _ _
      · rfl

/-- The two loops go on in the same way. -/
theorem Serviceable.run_eq (h : Serviceable cfg w) (inputs : List Input)
    (hcalm : ∀ i ∈ inputs, Calm i) :
    Runs.run (runServerStep cfg) (w.withTable cfg, .serving) inputs =
      ((Runs.run (step cfg) w inputs).withTable cfg, .serving) := by
  induction inputs generalizing w with
  | nil => rfl
  | cons i inputs ih =>
    have hi := hcalm i (by simp)
    have hrunning : (w.withTable cfg).flags.server_state = .running := by
      rw [flags_withTable, h.flags_eq]
    have hstep : runServerStep cfg (w.withTable cfg, .serving) i = _ := hi.runServerStep_eq hrunning
    rw [Runs.run_cons, Runs.run_cons, hstep, serviced_withTable, h.step_eq hi]
    exact ih (h.serviced hi) fun j hj => hcalm j (by simp [hj])

/-- The state in which `main` enters the start-up block for the first time. -/
def enteringFirst (ahead : ℕ) : Server := { initial ahead with trace := [.startup] }

/-- Where `run_server` is started, `main` is started as well. -/
theorem startTcp_withTable {ahead : ℕ}
    (hup : (runServerTcp cfg i (resetClients (initial ahead))).2 = true) :
    (startTcp cfg i (enteringFirst ahead)).2 = true ∧
      (startTcp cfg i (enteringFirst ahead)).1.withTable cfg =
        (runServerTcp cfg i (resetClients (initial ahead))).1 := by
  rw [runServerTcp_resetClients] at hup ⊢
  rcases startTcp_cases cfg i (resetClients (initial ahead)) with
    ⟨htcp, heq⟩ | ⟨-, -, heq⟩ | ⟨-, -, -, heq⟩ | ⟨henable, hnew, sock, hsock, heq⟩
  · rw [heq, startTcp, if_neg (by simp [htcp]), withTable_of_not_tcp htcp]
    exact ⟨rfl, rfl⟩
  · simp [heq] at hup
  · simp [heq] at hup
  · rw [heq]
    rcases startTcp_cases cfg i (enteringFirst ahead) with
      ⟨htcp, -⟩ | ⟨-, hno, -⟩ | ⟨-, -, hno, -⟩ | ⟨-, -, sock', hsock', heq'⟩
    · simp [henable] at htcp
    · simp [hnew] at hno
    · exact absurd hsock.2 (hno sock hsock.1)
    · obtain rfl : sock' = sock := Option.some.inj (hsock'.1.symm.trans hsock.1)
      rw [heq', withTable_of_tcp henable]
      exact ⟨rfl, rfl⟩

theorem startRtu_withTable (cfg : Config) (i : Input) (w : Server) :
    startRtu cfg i (w.withTable cfg) =
      ((startRtu cfg i w).1.withTable cfg, (startRtu cfg i w).2) := by
  cases henable : cfg.enable_tcp with
  | true => rw [withTable_of_tcp henable, withTable_of_tcp henable]
  | false =>
    rw [withTable_of_not_tcp henable, withTable_of_not_tcp henable, startRtu, startRtu]
    split_ifs
    · rcases openRtu_cases w i.newRtu i.fcntl i.connect with
        ⟨hnew, heq⟩ | ⟨hnew, hno, heq⟩ | ⟨hnew, fd, hfd, heq⟩
      · rw [heq, hnew]
        rfl
      · rw [heq]
        rcases openRtu_cases { w with tcp_conn_socks := fun _ => -1 } i.newRtu i.fcntl
          i.connect with ⟨hnew', -⟩ | ⟨-, -, heq'⟩ | ⟨-, fd, hfd, -⟩
        · simp [hnew] at hnew'
        · rw [heq']
        · exact absurd hfd.2 (hno fd hfd.1)
      · rw [heq]
        rcases openRtu_cases { w with tcp_conn_socks := fun _ => -1 } i.newRtu i.fcntl
          i.connect with ⟨hnew', -⟩ | ⟨-, hno, -⟩ | ⟨-, fd', hfd', heq'⟩
        · simp [hnew] at hnew'
        · exact absurd hfd.2 (hno fd hfd.1)
        · obtain rfl : fd' = fd := Option.some.inj (hfd'.1.symm.trans hfd.1)
          rw [heq']
    · rfl

theorem startMapping_withTable {w' : Server} (hup : (runServerMapping cfg i w').2 = true)
    (heq : w.withTable cfg = w') : (startMapping cfg i w).2 = true ∧
      (startMapping cfg i w).1.withTable cfg = (runServerMapping cfg i w').1 := by
  subst heq
  rw [runServerMapping] at hup ⊢
  split_ifs at hup ⊢ with hmapping
  rw [startMapping, if_pos hmapping]
  refine ⟨rfl, ?_⟩
  cases henable : cfg.enable_tcp with
  | true => rw [withTable_of_tcp henable, withTable_of_tcp henable]
  | false => rw [withTable_of_not_tcp henable, withTable_of_not_tcp henable]

theorem startParts_withTable {ahead : ℕ}
    (hup : (runServerStart cfg i (initial ahead)).2 = true) :
    (startParts cfg i (enteringFirst ahead)).2 = true ∧
      (startParts cfg i (enteringFirst ahead)).1.withTable cfg =
        (runServerStart cfg i (initial ahead)).1 := by
  rw [runServerStart] at hup ⊢
  rcases orContinue_cases (runServerTcp cfg i (resetClients (initial ahead))) fun w =>
    orContinue (runServerRtu cfg i w) (runServerMapping cfg i) with ⟨hno, heq⟩ | ⟨htcp, heq⟩
  · simp [heq, hno] at hup
  rw [heq] at hup ⊢
  obtain ⟨htcp, heqTcp⟩ := startTcp_withTable htcp
  rw [startParts, orContinue, if_pos htcp]
  rw [← heqTcp] at hup ⊢
  generalize (startTcp cfg i (enteringFirst ahead)).1 = w at hup ⊢
  rcases orContinue_cases (runServerRtu cfg i (w.withTable cfg)) (runServerMapping cfg i) with
    ⟨hno, heq⟩ | ⟨hrtu, heq⟩
  · simp [heq, hno] at hup
  rw [heq] at hup ⊢
  rcases runServerRtu_cases cfg i (w.withTable cfg) with ⟨hno, -⟩ | ⟨-, heqRtu⟩
  · simp [hrtu] at hno
  rw [startRtu_withTable] at heqRtu
  rw [heqRtu] at hup hrtu ⊢
  rw [orContinue, if_pos hrtu]
  exact startMapping_withTable hup rfl

/-- The server has been started. -/
theorem serviceable_startParts {ahead : ℕ}
    (hup : (runServerStart cfg i (initial ahead)).2 = true) :
    Serviceable cfg (startParts cfg i (enteringFirst ahead)).1 := by
  have hconnected := ((up_runServerStart cfg i ahead).2 hup).connected
  obtain ⟨hstarted, heq⟩ := startParts_withTable hup
  have hkeeps := keeps_startParts cfg i (enteringFirst ahead)
  refine ⟨hkeeps.status_eq, flags_startParts cfg i _, ?_, ?_, ?_⟩
  · rw [hkeeps.stdin_eq]
    rfl
  · rw [isSome_startParts cfg i _ rfl]
    exact hstarted
  · rw [← heq, Connected, ctx_rtu_withTable] at hconnected
    exact hconnected

/-- The first iteration of `main` starts the server, and serves nothing. -/
theorem Calm.step_initial (hi : Calm i) {ahead : ℕ} {sockets : Finset ℤ}
    (hselect : i.select = .ready sockets)
    (hup : (runServerStart cfg i (initial ahead)).2 = true) :
    step cfg (initial ahead) i = (startParts cfg i (enteringFirst ahead)).1 := by
  obtain ⟨hstarted, -⟩ := startParts_withTable hup
  have hserviceable := serviceable_startParts hup
  -- the slots of the client table are zero, and so is the set given to `select`
  have hwatched : watched cfg (initial ahead) = {0} := by
    have hclients : Finset.univ.image (initial ahead).tcp_conn_socks = {0} :=
      Finset.image_const ⟨(0 : Fin 10), Finset.mem_univ _⟩ 0
    rw [watched, if_pos (show (initial ahead).flags.server_state = .running from rfl), hclients]
    cases henable : cfg.enable_tcp with
    | true => simp [initial]
    | false => simp [initial]
  have hready (nfds : ℤ) : readyFds {0} nfds sockets (initial ahead).stdin = ∅ := by
    rw [← Finset.insert_empty, readyFds_insert ∅ nfds sockets (by rfl)]
    rfl
  have hwatch : (initial ahead).watch {0} = initial ahead := by
    simp [Server.watch, initial, fdSetsize]
  have hset : fdSet {0} = {0} := rfl
  have hbefore : beforeSelect cfg i (initial ahead) =
      (initial ahead, {0}, maxfd cfg (initial ahead) + 1) := by
    simp only [beforeSelect, hi.signalHandler_eq, hi.beforeSelect_eq, List.foldl_nil, polled,
      hwatched, hwatch, hset]
  have hiteration : step cfg (initial ahead) i = afterSelect cfg i ∅ (initial ahead) := by
    rw [step]
    dsimp only [initial]
    rw [← initial, iteration, hi.signalHandler_eq,
      if_pos (show (initial ahead).flags.running = true from rfl), hbefore, hselect]
    exact congrArg (afterSelect cfg i · (initial ahead)) (hready _)
  have hstartup : startup cfg i (initial ahead) = startParts cfg i (enteringFirst ahead) := by
    rw [startup, hi.signalHandler_eq, if_pos ⟨rfl, rfl⟩]
    rfl
  have hrunning : (startParts cfg i (enteringFirst ahead)).1.flags.server_state = .running := by
    rw [hserviceable.flags_eq]
  have hpair : startup cfg i (initial ahead) =
      ((startParts cfg i (enteringFirst ahead)).1, true) := by
    rw [hstartup, ← hstarted]
  rw [hiteration, afterSelect, commands, if_neg (Finset.notMem_empty 0),
    if_pos (show (initial ahead).status = .atHead from rfl), hpair]
  simp [stopServer, connections, hi.signalHandler_eq, hrunning]

/-- **`run_server` agrees with `main`** while nothing arrives on the standard input, no signal comes
and the RTU link does not fail. Where `run_server` starts the server, `main` starts it in its first
iteration, unless `select` is interrupted there; and from then on the two have the same state, up to
the client table when TCP is not used. -/
theorem serverRun_eq_runServer (cfg : Config) (ahead : ℕ) (i : Input) (inputs : List Input)
    (hi : Calm i) (hselect : ∃ sockets, i.select = .ready sockets)
    (hstart : (runServer cfg (initial ahead) i []).2 = .serving) (hcalm : ∀ j ∈ inputs, Calm j) :
    runServer cfg (initial ahead) i inputs =
      ((serverRun cfg ahead (i :: inputs)).withTable cfg, .serving) := by
  obtain ⟨sockets, hselect⟩ := hselect
  have hup : (runServerStart cfg i (initial ahead)).2 = true := by
    by_contra hno
    simp [runServer, runServerEnter, hno] at hstart
  have henter : runServerEnter cfg i (initial ahead) =
      ((startParts cfg i (enteringFirst ahead)).1.withTable cfg, .serving) := by
    rw [(startParts_withTable hup).2]
    simp [runServerEnter, hup]
  rw [runServer, henter, serverRun, Runs.run_cons, hi.step_initial hselect hup]
  exact (serviceable_startParts hup).run_eq inputs hcalm

end Agreement

/-- A server for TCP with one register. -/
def oneRegister : Config where
  enable_tcp := true
  nb_holding_regs := 1
  isInt_start := CInt.isInt_zero
  isInt_nb := CInt.isInt_one

/-- TCP comes up. -/
def listening : Input := { newTcp := true, listen := some 5, newMapping := true }

/-- A client connects and writes the register. -/
def registerWritten : List Input :=
  [{ select := .ready {5}, accept := .connection 6 },
    { select := .ready {6}, client := fun _ => { rc := 12, written := [(0, 7)] } }]

/-- Both loops serve a client. -/
theorem serverRun_eq_runServer_registerWritten :
    runServer oneRegister (initial 4095) listening registerWritten =
      ((serverRun oneRegister 4095 (listening :: registerWritten)).withTable oneRegister,
        .serving) := by
  refine serverRun_eq_runServer oneRegister 4095 listening registerWritten
    ⟨fun _ => rfl, rfl, by simp [listening], fun hrc => absurd hrc (by decide)⟩ ⟨∅, rfl⟩
    (by decide +kernel) fun j hj => ?_
  rcases List.mem_cons.mp hj with rfl | hj
  · exact ⟨fun _ => rfl, rfl, by simp, fun hrc => absurd hrc (by decide)⟩
  · obtain rfl := List.mem_singleton.mp hj
    exact ⟨fun _ => rfl, rfl, by simp, fun hrc => absurd hrc (by decide)⟩

end ModbusServer
