import ModbusServer.Adapters.RtuOwnership
import ModbusServer.Server.Leaks
import ModbusServer.Server.Polling

/-!
# The configuration of the RTU link

The non-blocking mode and the response timeout are set between `modbus_new_rtu` and
`modbus_connect`, if the context has a descriptor there. A new context has none: `modbus_connect`
opens it. So no link is ever configured, and the links of a run are configured exactly if there are
none.

Source: `src/adapters/rtu_adapter.c`, `src/core/server_controller.c`; `json-modbus-server.c`, lines
516–535 and 640–660.

## Main definitions

* `ModbusServer.Configured`: the link is non-blocking and has the short timeout.
* `ModbusServer.RtuCall.Connects`, `ModbusServer.LinkComesUp`: the calls of an adapter, and the
  iterations of the server program, that leave a new link behind.

## Main results

* `ModbusServer.configured_iff`: links are configured in the runs without links.
* `ModbusServer.not_configured`: not all runs are of this kind.
-/

namespace ModbusServer

/-- If there is a context, its descriptor is in non-blocking mode, unless a call of `fcntl` has
failed, and its response timeout is 100 ms. -/
def Configured (fcntlFailed : Prop) (ctx_rtu : Option Ctx) (os : Os) : Prop :=
  ∀ ctx, ctx_rtu = some ctx →
    (ctx.s ∈ os.nonblocking ∨ fcntlFailed) ∧ ctx.response_timeout = 100000

/-- The context has the timeout of a new context. -/
def Unconfigured (ctx_rtu : Option Ctx) : Prop :=
  ∀ ctx, ctx_rtu = some ctx → ctx.response_timeout = 500000

theorem unconfigured_none : Unconfigured none := by
  simp [Unconfigured]

theorem Unconfigured.configured_iff_eq_none {ctx_rtu : Option Ctx} (h : Unconfigured ctx_rtu)
    (fcntlFailed : Prop) (os : Os) : Configured fcntlFailed ctx_rtu os ↔ ctx_rtu = none := by
  constructor
  · intro hconfigured
    refine Option.eq_none_iff_forall_ne_some.mpr fun ctx hctx => ?_
    have hshort := (hconfigured ctx hctx).2
    rw [h ctx hctx] at hshort
    simp at hshort
  · rintro rfl
    simp [Configured]

/-! ### The adapters -/

/-- `modbus_get_socket` finds no descriptor in a new context. -/
def RtuCall.SocketUnset : RtuCall → Prop
  | .init o | .reconnect o => o.socket = -1
  | .handle _ | .cleanup => True

/-- A call of `fcntl` fails. -/
def RtuCall.FcntlFails : RtuCall → Prop
  | .init o | .reconnect o => o.fcntl = false
  | .handle _ | .cleanup => False

/-- The call creates a context and connects it. -/
def RtuCall.Connects : RtuCall → Prop
  | .init o | .reconnect o => o.new = true ∧ ∃ fd, o.connect = some fd ∧ 0 ≤ fd
  | .handle _ | .cleanup => False

section Adapters

variable {b : ModbusBackend} {o : RtuOutcome} {call : RtuCall}

theorem Unconfigured.openRtu (hsocket : o.socket = -1) (b : ModbusBackend) :
    Unconfigured (b.openRtu o).2.ctx_rtu := by
  rcases b.openRtu_cases o with ⟨-, heq⟩ | ⟨-, -, c, -, heq⟩ | ⟨-, fd, -, c, -, -, htimeout, heq⟩
  · rw [heq]
    exact unconfigured_none
  · rw [heq]
    exact unconfigured_none
  · rw [heq]
    rintro _ ⟨⟩
    simpa [hsocket] using htimeout

theorem ctx_rtu_handleRtu_of_dropped (o : RtuOutcome) (b : ModbusBackend)
    {dropped : ModbusBackend → ModbusBackend}
    (hdropped : ∀ b, (dropped b).ctx_rtu = b.ctx_rtu ∨ (dropped b).ctx_rtu = none) :
    (b.handleRtu o dropped).2.ctx_rtu = b.ctx_rtu ∨
      (b.handleRtu o dropped).2.ctx_rtu = none := by
  rw [ModbusBackend.handleRtu]
  cases hctx : b.ctx_rtu with
  | none => exact .inl hctx
  | some c =>
    dsimp only
    split_ifs
    · exact .inl hctx
    · exact .inl hctx
    · exact .inl hctx
    · rcases hdropped (b.record [.use c.id]) with heq | heq
      · exact .inl (heq.trans hctx)
      · exact .inr heq
    · exact .inl hctx

/-- Without a context only the calls that open a link do anything. -/
theorem RtuImplementation.step_of_none {impl : RtuImplementation}
    (himpl : impl ∈ [RtuAdapter.implementation, ServerController.implementation])
    (hctx : b.ctx_rtu = none) : impl.step b call =
      match call with
      | .init o | .reconnect o => (b.openRtu o).2
      | .handle _ | .cleanup => b := by
  simp only [List.mem_cons, List.not_mem_nil, or_false] at himpl
  rcases himpl with rfl | rfl
  · cases call with
    | init o => rfl
    | handle o => simp [step, RtuImplementation.call, RtuAdapter.implementation,
        RtuAdapter.rtuAdapterHandle, ModbusBackend.handleRtu, hctx]
    | reconnect o => simp [step, RtuImplementation.call, RtuAdapter.implementation,
        RtuAdapter.rtuAdapterReconnect, hctx]
    | cleanup => simp [step, RtuImplementation.call, RtuAdapter.implementation,
        RtuAdapter.rtuAdapterCleanup, hctx]
  · cases call with
    | init o => rfl
    | handle o => simp [step, RtuImplementation.call, ServerController.implementation,
        ServerController.rtuAdapterHandle, ModbusBackend.handleRtu, hctx]
    | reconnect o => simp [step, RtuImplementation.call, ServerController.implementation,
        ServerController.rtuAdapterReconnect, ServerController.rtuAdapterInit,
        ServerController.rtuAdapterCleanup, hctx]
    | cleanup => simp [step, RtuImplementation.call, ServerController.implementation,
        ServerController.rtuAdapterCleanup, hctx]

/-- No call configures a link. -/
theorem Unconfigured.step {impl : RtuImplementation}
    (himpl : impl ∈ [RtuAdapter.implementation, ServerController.implementation])
    (h : Unconfigured b.ctx_rtu) (hsocket : call.SocketUnset) :
    Unconfigured (impl.step b call).ctx_rtu := by
  have hold {ctx_rtu : Option Ctx} (hctx : ctx_rtu = b.ctx_rtu ∨ ctx_rtu = none) :
      Unconfigured ctx_rtu := by
    rcases hctx with rfl | rfl
    · exact h
    · exact unconfigured_none
  simp only [List.mem_cons, List.not_mem_nil, or_false] at himpl
  rcases himpl with rfl | rfl
  · cases call with
    | init o => exact .openRtu hsocket b
    | handle o => exact hold (ctx_rtu_handleRtu_of_dropped o b fun _ => .inl rfl)
    | reconnect o =>
      have heq : RtuAdapter.implementation.step b (.reconnect o) =
          ((RtuAdapter.rtuAdapterCleanup b).openRtu o).2 :=
        congrArg Prod.snd (RtuAdapter.rtuAdapterReconnect_eq o b)
      rw [heq]
      exact .openRtu hsocket _
    | cleanup => exact hold (.inr (ctx_rtu_rtuAdapterCleanup b))
  · cases call with
    | init o => exact .openRtu hsocket b
    | handle o =>
      exact hold (ctx_rtu_handleRtu_of_dropped o b fun b =>
        .inr (ServerController.ctx_rtu_rtuAdapterCleanup b))
    | reconnect o => exact .openRtu hsocket _
    | cleanup => exact hold (.inr (ctx_rtu_rtuAdapterCleanup b))

/-- A back end without a link has one exactly behind a call that connects. -/
theorem RtuImplementation.ctx_rtu_step_iff {impl : RtuImplementation}
    (himpl : impl ∈ [RtuAdapter.implementation, ServerController.implementation])
    (hctx : b.ctx_rtu = none) (hempty : b.os.descriptors = ∅) (call : RtuCall) :
    ((impl.step b call).ctx_rtu = none ↔ ¬call.Connects) ∧
      ((impl.step b call).ctx_rtu = none → (impl.step b call).os.descriptors = ∅) := by
  have hopen (o : RtuOutcome) : ((b.openRtu o).2.ctx_rtu = none ↔
      ¬(o.new = true ∧ ∃ fd, o.connect = some fd ∧ 0 ≤ fd)) ∧
      ((b.openRtu o).2.ctx_rtu = none → (b.openRtu o).2.os.descriptors = ∅) := by
    rcases b.openRtu_cases o with ⟨hnew, heq⟩ | ⟨-, hno, c, -, heq⟩ |
      ⟨hnew, fd, hfd, c, -, -, -, heq⟩
    · rw [heq]
      exact ⟨by simp [hnew], fun _ => hempty⟩
    · rw [heq]
      refine ⟨iff_of_true rfl ?_, fun _ => by simpa using hempty⟩
      rintro ⟨-, fd, hconnect, hfd⟩
      exact hno fd hconnect ⟨hfd, by simp [hempty]⟩
    · rw [heq]
      exact ⟨iff_of_false (by simp) (not_not.mpr ⟨hnew, fd, hfd.1, hfd.2.1⟩), by simp⟩
  rw [step_of_none himpl hctx]
  cases call with
  | init o => exact hopen o
  | reconnect o => exact hopen o
  | handle o => exact ⟨iff_of_true hctx id, fun _ => hempty⟩
  | cleanup => exact ⟨iff_of_true hctx id, fun _ => hempty⟩

/-- The links of an adapter are configured exactly if no call connects. -/
theorem configured_calls_iff {malloc : Bool} (hb : modbusBackendCreate malloc = some b)
    {impl : RtuImplementation}
    (himpl : impl ∈ [RtuAdapter.implementation, ServerController.implementation])
    {calls : List RtuCall} (hsocket : ∀ call ∈ calls, call.SocketUnset) :
    (∀ before, before <+: calls →
      Configured (∃ call ∈ before, call.FcntlFails) (Runs.run impl.step b before).ctx_rtu
        (Runs.run impl.step b before).os) ↔
      ∀ call ∈ calls, ¬call.Connects := by
  obtain ⟨-, hctx, -, -, -, hos, -⟩ := modbusBackendCreate_eq hb
  have hunconfigured {before : List RtuCall} (hbefore : before <+: calls) :
      Unconfigured (Runs.run impl.step b before).ctx_rtu := by
    refine Runs.run_of_stepsMeet (P := fun b : ModbusBackend => Unconfigured b.ctx_rtu)
      (C := fun _ call => RtuCall.SocketUnset call) (by simp [Unconfigured, hctx])
      (fun b call h hcall => h.step himpl hcall) ?_
    exact Runs.stepsMeet_iff_forall_mem.mpr fun call hcall => hsocket call (hbefore.subset hcall)
  have hlinks : (∀ before, before <+: calls → (Runs.run impl.step b before).ctx_rtu = none) ↔
      Runs.StepsMeet impl.step (fun _ call => ¬call.Connects) b calls :=
    Runs.forall_prefix_iff_stepsMeet
      (P := fun b : ModbusBackend => b.ctx_rtu = none ∧ b.os.descriptors = ∅)
      (Q := fun b : ModbusBackend => b.ctx_rtu = none) ⟨hctx, by rw [hos]⟩ (fun _ h => h.1)
      (fun b call h => (impl.ctx_rtu_step_iff himpl h.1 h.2 call).1)
      fun b call h hcall => by
        obtain ⟨hiff, hempty⟩ := impl.ctx_rtu_step_iff himpl h.1 h.2 call
        exact ⟨hiff.mpr hcall, hempty (hiff.mpr hcall)⟩
  have hprefixes : (∀ before, before <+: calls →
      Configured (∃ call ∈ before, call.FcntlFails) (Runs.run impl.step b before).ctx_rtu
        (Runs.run impl.step b before).os) ↔
      ∀ before, before <+: calls → (Runs.run impl.step b before).ctx_rtu = none :=
    forall₂_congr fun before hbefore => (hunconfigured hbefore).configured_iff_eq_none _ _
  rw [hprefixes, hlinks, Runs.stepsMeet_iff_forall_mem]

end Adapters

/-! ### The server program -/

/-- A context is created and connected to a descriptor that is not in use. -/
def LinkOpens (new : Bool) (offer : Option ℤ) (w : Server) : Prop :=
  new = true ∧ ∃ fd, offer = some fd ∧ 2 < fd ∧ fd ∉ w.os.descriptors

/-- The state in which the start-up block is entered. -/
def entering (cfg : Config) (w : Server) (i : Input) : Server :=
  { signalHandler i .startup (commanded cfg w i) with
    trace := (signalHandler i .startup (commanded cfg w i)).trace ++ [.startup] }

/-- A link is opened in the iteration: by the start-up block behind TCP, unless a signal stops the
server as soon as it is up; or by the block that reconnects, in a server that was up before. -/
inductive LinkComesUp (cfg : Config) (w : Server) (i : Input) : Prop
  | started (hstarts : Starts cfg w i) (henable : cfg.enable_rtu = true)
    (htcp : (startTcp cfg i (entering cfg w i)).2 = true)
    (hopens : LinkOpens i.newRtu i.connect (startTcp cfg i (entering cfg w i)).1)
    (hstop : ¬(i.newMapping = true ∧ i.signal .stop = true))
  | reconnected (hselects : selects w i) (hatHead : (commanded cfg w i).status = .atHead)
    (hmapping : (commanded cfg w i).mb_mapping.isSome = true)
    (hrunning : (serving cfg w i).flags.server_state = .running)
    (hready : (ready cfg w i).Nonempty) (henable : cfg.enable_rtu = true)
    (hsignal : i.signal .reconnect = false)
    (hopens : LinkOpens i.newRtuAgain i.connectAgain
      (serve cfg i (ready cfg w i) (serving cfg w i)))

/-! ### What the blocks do with the link -/

section Blocks

variable {cfg : Config} {w : Server} {i : Input}

theorem ctx_rtu_startTcp (cfg : Config) (i : Input) (w : Server) :
    (startTcp cfg i w).1.ctx_rtu = w.ctx_rtu := by
  rcases startTcp_cases cfg i w with ⟨-, heq⟩ | ⟨-, -, heq⟩ | ⟨-, -, -, heq⟩ | ⟨-, -, fd, -, heq⟩
  all_goals rw [heq]

theorem ctx_rtu_startMapping (cfg : Config) (i : Input) (w : Server) :
    (startMapping cfg i w).1.ctx_rtu = w.ctx_rtu := by
  rw [startMapping]
  split_ifs <;> rfl

theorem ctx_rtu_release (cfg : Config) (w : Server) :
    (release cfg w).ctx_rtu = if cfg.enable_rtu then none else w.ctx_rtu := by
  have htcp : (if cfg.enable_tcp then releaseTcp w else w).ctx_rtu = w.ctx_rtu := by
    split_ifs
    · exact ctx_rtu_releaseTcp w
    · rfl
  rw [release]
  generalize (if cfg.enable_tcp then releaseTcp w else w) = w₁ at htcp ⊢
  split_ifs
  · rfl
  · exact htcp

/-- The blocks that serve leave the link as it is, or drop it when it was ready. -/
theorem ctx_rtu_serve (cfg : Config) (i : Input) (fds : Finset ℤ) (w : Server) :
    (serve cfg i fds w).ctx_rtu = w.ctx_rtu ∨
      (serve cfg i fds w).ctx_rtu = none ∧ ∃ ctx, w.ctx_rtu = some ctx ∧ ctx.s ∈ fds := by
  have hclients : (handleClients cfg i fds (acceptClient cfg i fds w)).ctx_rtu = w.ctx_rtu := by
    have hbody (w : Server) (k : Fin maxTcpClients) :
        (handleClient i fds w k).ctx_rtu = w.ctx_rtu :=
      (receives_handleClient (P := fun _ => True) i w k fun _ => trivial).2.1
    rw [← (receives_acceptClient (P := fun _ => True) cfg i fds w).2, handleClients]
    split_ifs
    · exact Runs.run_frame hbody slots
    · rfl
  rw [serve, handleRtu]
  generalize handleClients cfg i fds (acceptClient cfg i fds w) = w₁ at hclients ⊢
  rw [← hclients]
  split
  · next hctx => exact .inl rfl
  · next ctx hctx =>
    dsimp only
    split_ifs with hready
    · exact .inl rfl
    · exact .inr ⟨rfl, ctx, hctx, hready.2.2⟩
    · exact .inl rfl
    · exact .inl rfl

theorem ctx_rtu_stopServer_of_none (hctx : w.ctx_rtu = none) :
    (stopServer cfg i w).ctx_rtu = none := by
  have hsignal : (signalHandler i .stop w).ctx_rtu = none := by rw [ctx_rtu_signalHandler, hctx]
  have hrelease : (release cfg (signalHandler i .stop w)).ctx_rtu = none := by
    rw [ctx_rtu_release, hsignal, ite_self]
  rw [stopServer]
  split_ifs
  · exact hrelease
  · exact hsignal

theorem ctx_rtu_finish_of_none (hctx : w.ctx_rtu = none) : (finish cfg w).ctx_rtu = none := by
  have hrelease : (release cfg w).ctx_rtu = none := by rw [ctx_rtu_release, hctx, ite_self]
  rw [finish]
  split_ifs
  · exact hrelease
  · exact hctx

theorem ctx_rtu_openRtu_iff (new fcntl : Bool) (offer : Option ℤ) (w : Server) :
    (openRtu new fcntl offer w).1.ctx_rtu = none ↔ ¬LinkOpens new offer w := by
  rcases openRtu_cases w new fcntl offer with ⟨hnew, heq⟩ | ⟨-, hno, heq⟩ | ⟨hnew, fd, hfd, heq⟩
  · rw [heq]
    exact iff_of_true rfl fun h => by simpa [hnew] using h.1
  · rw [heq]
    refine iff_of_true rfl ?_
    rintro ⟨-, fd, hoffer, hfd⟩
    exact hno fd hoffer hfd
  · rw [heq]
    exact iff_of_false (by simp) (not_not.mpr ⟨hnew, fd, hfd⟩)

/-- The part of the start-up block for RTU leaves a link, or fails, or RTU is not used. -/
theorem ctx_rtu_startRtu_iff (hctx : w.ctx_rtu = none) :
    (startRtu cfg i w).1.ctx_rtu = none ↔
      ¬(cfg.enable_rtu = true ∧ LinkOpens i.newRtu i.connect w) := by
  rw [startRtu]
  split_ifs with henable
  · rw [ctx_rtu_openRtu_iff]
    simp [henable]
  · simp [henable, hctx]

/-- If RTU is used, its part of the start-up block leaves a link or ends in a `continue`. -/
theorem isSome_startRtu (henable : cfg.enable_rtu = true) :
    (startRtu cfg i w).1.ctx_rtu.isSome = (startRtu cfg i w).2 := by
  rw [startRtu, if_pos henable]
  rcases openRtu_cases w i.newRtu i.fcntl i.connect with ⟨-, heq⟩ | ⟨-, -, heq⟩ | ⟨-, fd, -, heq⟩
  all_goals
    rw [heq]
    rfl

/-- A link that has just been connected has a new descriptor. -/
theorem LinkOpens.of_startRtu {ctx : Ctx} (hw : w.ctx_rtu = none)
    (hctx : (startRtu cfg i w).1.ctx_rtu = some ctx) : 2 < ctx.s ∧ ctx.s ∉ w.os.descriptors := by
  rw [startRtu] at hctx
  split_ifs at hctx
  · exact ((opens_openRtu _ _ _ w).link ctx hctx).resolve_left (by simp [hw])
  · simp [hw] at hctx

/-- The block that reconnects opens a link if it can. -/
theorem ctx_rtu_reconnect_iff (hctx : w.ctx_rtu = none) :
    (reconnect cfg i w).ctx_rtu = none ↔ ¬(cfg.enable_rtu = true ∧ i.signal .reconnect = false ∧
      w.flags.server_state = .running ∧ LinkOpens i.newRtuAgain i.connectAgain w) := by
  have hsignal := running_signalHandler_iff i .reconnect w
  have hos : (signalHandler i .reconnect w).os = w.os := by rw [signalHandler_eq]
  rw [reconnect]
  by_cases htry : cfg.enable_rtu = true ∧ (signalHandler i .reconnect w).ctx_rtu.isNone = true ∧
      (signalHandler i .reconnect w).flags.server_state = .running
  · obtain ⟨hquiet, hrunning⟩ := hsignal.mp htry.2.2
    rw [if_pos htry, ctx_rtu_openRtu_iff]
    simp only [LinkOpens, hos, htry.1, hquiet, hrunning, true_and]
  · rw [if_neg htry, ctx_rtu_signalHandler]
    refine iff_of_true hctx ?_
    rintro ⟨henable, hquiet, hrunning, -⟩
    exact htry ⟨henable, by simp [hctx], hsignal.mpr ⟨hquiet, hrunning⟩⟩

/-- The loop body behind the stop block, without a link. -/
theorem ctx_rtu_connections_iff (fds : Finset ℤ) (hctx : w.ctx_rtu = none)
    (hmapping : w.flags.server_state = .running → w.mb_mapping.isSome = true) :
    (connections cfg i fds w).ctx_rtu = none ↔
      ¬((signalHandler i .connections w).flags.server_state = .running ∧ fds.Nonempty ∧
        cfg.enable_rtu = true ∧ i.signal .reconnect = false ∧
        LinkOpens i.newRtuAgain i.connectAgain
          (serve cfg i fds (signalHandler i .connections w))) := by
  have hctx' : (signalHandler i .connections w).ctx_rtu = none := by
    rw [ctx_rtu_signalHandler, hctx]
  rw [connections]
  by_cases hserve : (signalHandler i .connections w).flags.server_state = .running ∧ fds.Nonempty
  · have hserved : (serve cfg i fds (signalHandler i .connections w)).ctx_rtu = none := by
      rcases ctx_rtu_serve cfg i fds (signalHandler i .connections w) with heq | ⟨heq, -⟩
      · rw [heq, hctx']
      · exact heq
    have hrunning := ((running_signalHandler_iff i .connections w).mp hserve.1).2
    have hflags := (serves_serve cfg i (signalHandler i .connections w) fds
      (by simpa using hmapping hrunning)).flags_eq
    rw [if_pos hserve, ctx_rtu_reconnect_iff hserved, hflags]
    simp only [hserve.1, hserve.2, true_and]
  · rw [if_neg hserve]
    refine iff_of_true hctx' ?_
    rintro ⟨hrunning, hready, -⟩
    exact hserve ⟨hrunning, hready⟩

/-- A link that is not ready stays. -/
theorem ctx_rtu_connections_of_some (fds : Finset ℤ) {ctx : Ctx} (hctx : w.ctx_rtu = some ctx)
    (hs : ctx.s ∉ fds) : (connections cfg i fds w).ctx_rtu = some ctx := by
  have hctx' : (signalHandler i .connections w).ctx_rtu = some ctx := by
    rw [ctx_rtu_signalHandler, hctx]
  rw [connections]
  split_ifs
  · have hserved : (serve cfg i fds (signalHandler i .connections w)).ctx_rtu = some ctx := by
      rcases ctx_rtu_serve cfg i fds (signalHandler i .connections w) with heq | ⟨-, ctx', h', hs'⟩
      · rw [heq, hctx']
      · obtain rfl : ctx = ctx' := Option.some.inj (hctx'.symm.trans h')
        exact absurd hs' hs
    rw [reconnect, if_neg, ctx_rtu_signalHandler, hserved]
    rintro ⟨-, hlost, -⟩
    simp [hserved] at hlost
  · exact hctx'

/-- Behind a start-up the new link stays unless a signal stops the server. -/
theorem ctx_rtu_connections_stopServer_iff {fds : Finset ℤ}
    (hrunning : w.flags.server_state = .running) (hmapping : w.mb_mapping.isSome = true)
    (hlink : w.ctx_rtu.isSome = true ↔ cfg.enable_rtu = true)
    (hfresh : ∀ ctx, w.ctx_rtu = some ctx → ctx.s ∉ fds) :
    (connections cfg i fds (stopServer cfg i w)).ctx_rtu = none ↔
      w.ctx_rtu = none ∨ i.signal .stop = true := by
  have hstopped (hctx : (stopServer cfg i w).ctx_rtu = none)
      (hidle : cfg.enable_rtu = false ∨ i.signal .stop = true) :
      (connections cfg i fds (stopServer cfg i w)).ctx_rtu = none := by
    have hsome (h : (stopServer cfg i w).flags.server_state = .running) :
        (stopServer cfg i w).mb_mapping.isSome = true := by
      obtain ⟨-, -, heq⟩ := stopServer_of_running cfg i w h
      rwa [heq]
    rw [ctx_rtu_connections_iff fds hctx hsome]
    rintro ⟨hserves, -, henable, -⟩
    obtain ⟨-, hruns⟩ := (running_signalHandler_iff i .connections _).mp hserves
    obtain ⟨hquiet, -, -⟩ := stopServer_of_running cfg i w hruns
    rcases hidle with hdisabled | hsignal
    · simp [hdisabled] at henable
    · simp [hsignal] at hquiet
  cases hctx : w.ctx_rtu with
  | none =>
    have hdisabled : cfg.enable_rtu = false := by simpa [hctx] using hlink
    exact iff_of_true (hstopped (ctx_rtu_stopServer_of_none hctx) (.inl hdisabled)) (.inl rfl)
  | some ctx =>
    have henable : cfg.enable_rtu = true := hlink.mp (by simp [hctx])
    cases hsignal : i.signal .stop with
    | true =>
      have hstop : (signalHandler i .stop w).flags.server_state = .stopped ∧
          (signalHandler i .stop w).mb_mapping.isSome := by
        simp [signalHandler_eq, hsignal, hmapping]
      have hlost : (stopServer cfg i w).ctx_rtu = none := by
        rw [stopServer, if_pos hstop]
        simp [ctx_rtu_release, henable]
      exact iff_of_true (hstopped hlost (.inr hsignal)) (.inr rfl)
    | false =>
      have hskip : stopServer cfg i w = w := by
        simp [stopServer, signalHandler, hsignal, hrunning]
      rw [hskip, ctx_rtu_connections_of_some fds hctx (hfresh ctx hctx)]
      simp

/-- The loop body behind the start-up block, whose result is given. -/
def behindStartup (cfg : Config) (i : Input) (fds : Finset ℤ) (r : Server × Bool) : Server :=
  if r.2 then connections cfg i fds (stopServer cfg i r.1) else r.1

/-- Behind the mapping the new link is there unless the server comes up and a signal stops it. -/
theorem ctx_rtu_behindStartMapping_iff {fds : Finset ℤ}
    (hrunning : w.flags.server_state = .running)
    (hlink : w.ctx_rtu.isSome = true ↔ cfg.enable_rtu = true)
    (hfresh : ∀ ctx, w.ctx_rtu = some ctx → ctx.s ∉ fds) :
    (behindStartup cfg i fds (startMapping cfg i w)).ctx_rtu = none ↔
      w.ctx_rtu = none ∨ (i.newMapping = true ∧ i.signal .stop = true) := by
  cases hmapping : i.newMapping with
  | false => simp [behindStartup, startMapping, hmapping]
  | true =>
    rw [startMapping, if_pos hmapping, behindStartup, if_pos rfl,
      ctx_rtu_connections_stopServer_iff (by exact hrunning) rfl (by exact hlink)
        (by exact hfresh)]
    simp

/-- The loop body behind a start-up that begins without a link leaves a link exactly if one is
opened and no signal stops the server as soon as it is up. -/
theorem ctx_rtu_behindStartParts_iff {fds : Finset ℤ} (hctx : w.ctx_rtu = none)
    (hrunning : w.flags.server_state = .running)
    (hfresh : ∀ fd, 2 < fd → fd ∉ w.os.descriptors → fd ∉ fds) :
    (behindStartup cfg i fds (startParts cfg i w)).ctx_rtu = none ↔
      ¬(cfg.enable_rtu = true ∧ (startTcp cfg i w).2 = true ∧
        LinkOpens i.newRtu i.connect (startTcp cfg i w).1 ∧
        ¬(i.newMapping = true ∧ i.signal .stop = true)) := by
  have hsubset : w.os.descriptors ⊆ (startTcp cfg i w).1.os.descriptors :=
    (opens_startTcp cfg i w).subset
  have htcpflags : (startTcp cfg i w).1.flags.server_state = .running := by
    rw [flags_startTcp, hrunning]
  have htcpctx : (startTcp cfg i w).1.ctx_rtu = none := by rw [ctx_rtu_startTcp, hctx]
  rcases startParts_cases cfg i w with ⟨htcp, heq⟩ | ⟨htcp, hrtu, heq⟩ | ⟨htcp, hrtu, heq⟩
  · simp [heq, behindStartup, htcp, htcpctx]
  all_goals
    rw [heq]
    generalize (startTcp cfg i w).1 = t at hsubset htcpflags htcpctx hrtu ⊢
    have hopens := @ctx_rtu_startRtu_iff cfg t i htcpctx
  -- The link is not opened.
  · have henable : cfg.enable_rtu = true := by
      by_contra hdisabled
      simp [startRtu, hdisabled] at hrtu
    have hlost : (startRtu cfg i t).1.ctx_rtu = none := by
      rw [← Option.not_isSome_iff_eq_none, isSome_startRtu henable, hrtu]
      simp
    rw [behindStartup, if_neg (by simp [hrtu])]
    exact iff_of_true hlost fun h => hopens.mp hlost ⟨h.1, h.2.2.1⟩
  · have hrtuflags : (startRtu cfg i t).1.flags.server_state = .running := by
      rw [flags_startRtu, htcpflags]
    have hlink : (startRtu cfg i t).1.ctx_rtu.isSome = true ↔ cfg.enable_rtu = true := by
      refine ⟨fun hsome => ?_, fun henable => (isSome_startRtu henable).trans hrtu⟩
      by_contra hdisabled
      simp [startRtu, hdisabled, htcpctx] at hsome
    have hnew (ctx : Ctx) (h : (startRtu cfg i t).1.ctx_rtu = some ctx) : ctx.s ∉ fds := by
      obtain ⟨hlt, hnotMem⟩ := LinkOpens.of_startRtu htcpctx h
      exact hfresh ctx.s hlt fun hmem => hnotMem (hsubset hmem)
    rw [ctx_rtu_behindStartMapping_iff hrtuflags hlink hnew, hopens]
    tauto

end Blocks

section Server

variable {cfg : Config} {w : Server} {i : Input}

theorem unconfigured_openRtu (new fcntl : Bool) (offer : Option ℤ) (w : Server) :
    Unconfigured (openRtu new fcntl offer w).1.ctx_rtu := by
  rcases openRtu_cases w new fcntl offer with ⟨-, heq⟩ | ⟨-, -, heq⟩ | ⟨-, fd, -, heq⟩
  · rw [heq]
    exact unconfigured_none
  · rw [heq]
    exact unconfigured_none
  · rw [heq]
    rintro _ ⟨⟩
    rfl

protected theorem Unconfigured.signalHandler (h : Unconfigured w.ctx_rtu) (i : Input) (p : Point) :
    Unconfigured (signalHandler i p w).ctx_rtu := by
  rwa [ctx_rtu_signalHandler]

protected theorem Unconfigured.release (h : Unconfigured w.ctx_rtu) (cfg : Config) :
    Unconfigured (release cfg w).ctx_rtu := by
  rw [ctx_rtu_release]
  split_ifs
  · exact unconfigured_none
  · exact h

protected theorem Unconfigured.startParts (h : Unconfigured w.ctx_rtu) (cfg : Config) (i : Input) :
    Unconfigured (startParts cfg i w).1.ctx_rtu := by
  have htcp : Unconfigured (startTcp cfg i w).1.ctx_rtu := by rwa [ctx_rtu_startTcp]
  have hrtu : Unconfigured (startRtu cfg i (startTcp cfg i w).1).1.ctx_rtu := by
    rw [startRtu]
    split_ifs
    · exact unconfigured_openRtu _ _ _ _
    · exact htcp
  rcases startParts_cases cfg i w with ⟨-, heq⟩ | ⟨-, -, heq⟩ | ⟨-, -, heq⟩
  · rwa [heq]
  · rwa [heq]
  · rwa [heq, ctx_rtu_startMapping]

protected theorem Unconfigured.startup (h : Unconfigured w.ctx_rtu) (cfg : Config) (i : Input) :
    Unconfigured (startup cfg i w).1.ctx_rtu := by
  have hentered := h.signalHandler i .startup
  rcases startup_cases cfg i w with ⟨-, heq⟩ | ⟨-, heq⟩
  · rwa [heq]
  · rw [heq]
    refine Unconfigured.startParts ?_ cfg i
    exact hentered

protected theorem Unconfigured.stopServer (h : Unconfigured w.ctx_rtu) (cfg : Config) (i : Input) :
    Unconfigured (stopServer cfg i w).ctx_rtu := by
  rw [stopServer]
  split_ifs
  · exact (h.signalHandler i .stop).release cfg
  · exact h.signalHandler i .stop

protected theorem Unconfigured.connections (h : Unconfigured w.ctx_rtu) (cfg : Config) (i : Input)
    (fds : Finset ℤ) : Unconfigured (connections cfg i fds w).ctx_rtu := by
  have hentered := h.signalHandler i .connections
  rw [connections]
  split_ifs
  · have hserve : Unconfigured (serve cfg i fds (signalHandler i .connections w)).ctx_rtu := by
      rcases ctx_rtu_serve cfg i fds (signalHandler i .connections w) with heq | ⟨heq, -⟩
      · rwa [heq]
      · rw [heq]
        exact unconfigured_none
    rw [reconnect]
    split_ifs
    · exact unconfigured_openRtu _ _ _ _
    · exact hserve.signalHandler i .reconnect
  · exact hentered

protected theorem Unconfigured.finish (h : Unconfigured w.ctx_rtu) (cfg : Config) :
    Unconfigured (finish cfg w).ctx_rtu := by
  rw [finish]
  split_ifs
  · exact h.release cfg
  · exact h

/-- No iteration configures a link. -/
theorem unconfigured_step (h : Unconfigured w.ctx_rtu) : Unconfigured (step cfg w i).ctx_rtu := by
  have hblocks : Preserved cfg i fun w => Unconfigured w.ctx_rtu :=
    { signal := fun p w h => h.signalHandler i p
      stdin := fun s w h => h
      watch := fun fds w h => h
      commands := fun fds w h => by rwa [(sameResources_commands cfg i fds w).ctx_rtu_eq]
      startup := fun w h => h.startup cfg i
      stop := fun w h => h.stopServer cfg i
      connections := fun fds w h _ => h.connections cfg i fds
      finish := fun w h => h.finish cfg }
  exact hblocks.step h

/-- What is opened in an iteration that begins without a link is not among the descriptors that
`select` has reported. -/
theorem notMem_ready_of_none (hctx : w.ctx_rtu = none)
    (htabled : cfg.enable_tcp = true → Tabled cfg w) {fd : ℤ} (hlt : 2 < fd)
    (hfd : fd ∉ w.os.descriptors) : fd ∉ ready cfg w i := by
  cases henable : cfg.enable_tcp with
  | true => exact notMem_ready (htabled henable) henable hlt hfd
  | false =>
    have hwatched : watched cfg (signalHandler i .poll (signalHandler i .head w)) = {0} := by
      rw [watched]
      by_cases hrunning :
          (signalHandler i .poll (signalHandler i .head w)).flags.server_state = .running
      · rw [if_pos hrunning]
        simp [henable, hctx]
      · rw [if_neg hrunning]
    intro hmem
    rw [ready] at hmem
    split at hmem
    · simp at hmem
    · next sockets _ =>
      have hzero : fd ∈ polled cfg (signalHandler i .poll (signalHandler i .head w)) :=
        (mem_readyFds.mp hmem).1
      rw [polled, mem_fdSet, hwatched, Finset.mem_singleton] at hzero
      omega

theorem opens_entering (cfg : Config) (w : Server) (i : Input) : Opens w (entering cfg w i) :=
  ((sameResources_commanded cfg w i).trans
    (sameResources_signalHandler i .startup _)).opens.trans (.of_eq rfl rfl rfl)

theorem ctx_rtu_commanded (cfg : Config) (w : Server) (i : Input) :
    (commanded cfg w i).ctx_rtu = w.ctx_rtu :=
  (sameResources_commanded cfg w i).ctx_rtu_eq

/-- In an iteration that enters the start-up block no link comes up by reconnecting. -/
theorem linkComesUp_iff_of_starts (hstarts : Starts cfg w i) :
    LinkComesUp cfg w i ↔ cfg.enable_rtu = true ∧ (startTcp cfg i (entering cfg w i)).2 = true ∧
      LinkOpens i.newRtu i.connect (startTcp cfg i (entering cfg w i)).1 ∧
      ¬(i.newMapping = true ∧ i.signal .stop = true) := by
  constructor
  · rintro (⟨-, henable, htcp, hopens, hstop⟩ | ⟨-, -, hmapping⟩)
    · exact ⟨henable, htcp, hopens, hstop⟩
    · simp [hstarts.2.2.2] at hmapping
  · rintro ⟨henable, htcp, hopens, hstop⟩
    exact .started hstarts henable htcp hopens hstop

theorem step_of_starts (hstarts : Starts cfg w i) :
    step cfg w i = behindStartup cfg i (ready cfg w i) (startParts cfg i (entering cfg w i)) := by
  obtain ⟨hselects, hatHead, hstart⟩ := hstarts
  have hstartup : startup cfg i (commanded cfg w i) = startParts cfg i (entering cfg w i) := by
    rcases startup_cases cfg i (commanded cfg w i) with ⟨hskip, -⟩ | ⟨-, heq⟩
    · exact absurd hstart hskip
    · exact heq
  rw [step_of_selects cfg hselects, afterSelect, ← commanded, if_pos hatHead, hstartup,
    behindStartup]
  rcases startParts cfg i (entering cfg w i) with ⟨w₁, goesOn⟩
  cases goesOn with
  | false => rfl
  | true => rfl

/-- An iteration that enters the start-up block opens a link there, or does not. -/
theorem ctx_rtu_step_iff_of_starts (hctx : w.ctx_rtu = none)
    (htabled : cfg.enable_tcp = true → Tabled cfg w) (hstarts : Starts cfg w i) :
    (step cfg w i).ctx_rtu = none ↔ ¬LinkComesUp cfg w i := by
  have hentering : (entering cfg w i).ctx_rtu = none := by
    change (signalHandler i .startup (commanded cfg w i)).ctx_rtu = none
    rw [ctx_rtu_signalHandler, ctx_rtu_commanded, hctx]
  rw [step_of_starts hstarts, linkComesUp_iff_of_starts hstarts]
  refine ctx_rtu_behindStartParts_iff hentering hstarts.2.2.1 fun fd hlt hfd => ?_
  exact notMem_ready_of_none hctx htabled hlt fun hmem => hfd ((opens_entering cfg w i).subset hmem)

/-- An iteration that does not get behind `select` opens no link. -/
theorem ctx_rtu_step_of_not_selects (hctx : w.ctx_rtu = none) (hselects : ¬selects w i) :
    (step cfg w i).ctx_rtu = none := by
  have hselect : (atSelect cfg w i).ctx_rtu = none :=
    (sameResources_atSelect cfg w i).ctx_rtu_eq.trans hctx
  rcases step_of_not_selects cfg hselects with heq | heq | heq | heq
  · rw [heq, hctx]
  · rw [heq, ctx_rtu_finish_of_none (by rw [ctx_rtu_signalHandler, hctx])]
  · rw [heq, hselect]
  · rw [heq, ctx_rtu_finish_of_none hselect]

/-- An iteration that does not enter the start-up block opens a link when it reconnects, or does
not. -/
theorem ctx_rtu_step_iff_of_not_starts (hctx : w.ctx_rtu = none) (hstarts : ¬Starts cfg w i) :
    (step cfg w i).ctx_rtu = none ↔ ¬LinkComesUp cfg w i := by
  by_cases hselects : selects w i
  · have hcommanded : (commanded cfg w i).ctx_rtu = none := by rw [ctx_rtu_commanded, hctx]
    rw [step_of_selects cfg hselects, afterSelect, ← commanded]
    split_ifs with hatHead
    · rcases startup_cases cfg i (commanded cfg w i) with ⟨hskip, heq⟩ | ⟨hstart, -⟩
      · have hserving : serving cfg w i = signalHandler i .connections
            (stopServer cfg i (signalHandler i .startup (commanded cfg w i))) := by
          rw [serving, heq]
        have hsignal : (signalHandler i .startup (commanded cfg w i)).ctx_rtu = none := by
          rw [ctx_rtu_signalHandler, hcommanded]
        rw [heq]
        dsimp only
        rw [ctx_rtu_connections_iff _ (ctx_rtu_stopServer_of_none hsignal)
          (isSome_of_running cfg i _ heq), ← hserving, not_iff_not]
        constructor
        · rintro ⟨hrunning, hready, henable, hreconnect, hopens⟩
          refine .reconnected hselects hatHead ?_ hrunning hready henable hreconnect hopens
          rw [hserving] at hrunning
          obtain ⟨-, hstop⟩ := (running_signalHandler_iff i .connections _).mp hrunning
          obtain ⟨-, hstartup, -⟩ := stopServer_of_running cfg i _ hstop
          exact Option.isSome_iff_ne_none.mpr fun hnone => hskip ⟨hstartup, hnone⟩
        · rintro (⟨hstarts'⟩ | ⟨-, -, -, hrunning, hready, henable, hreconnect, hopens⟩)
          · exact absurd hstarts' hstarts
          · exact ⟨hrunning, hready, henable, hreconnect, hopens⟩
      · exact absurd ⟨hselects, hatHead, hstart⟩ hstarts
    · refine iff_of_true hcommanded ?_
      rintro (⟨hstarts'⟩ | ⟨-, hatHead'⟩)
      · exact hstarts hstarts'
      · exact hatHead hatHead'
  · refine iff_of_true (ctx_rtu_step_of_not_selects hctx hselects) ?_
    rintro (⟨hstarts'⟩ | ⟨hselects'⟩)
    · exact hstarts hstarts'
    · exact hselects hselects'

/-- An iteration that begins without a link leaves one exactly if a link comes up. -/
theorem ctx_rtu_step_iff (hctx : w.ctx_rtu = none)
    (htabled : cfg.enable_tcp = true → Tabled cfg w) :
    (step cfg w i).ctx_rtu = none ↔ ¬LinkComesUp cfg w i := by
  by_cases hstarts : Starts cfg w i
  · exact ctx_rtu_step_iff_of_starts hctx htabled hstarts
  · exact ctx_rtu_step_iff_of_not_starts hctx hstarts

/-- A link comes up in an iteration that gets back to the head of the loop. -/
theorem LinkComesUp.status_step (h : LinkComesUp cfg w i) : (step cfg w i).status = .atHead := by
  have hbody (hselects : selects w i) (hatHead : (commanded cfg w i).status = .atHead) :
      (step cfg w i).status = .atHead := by
    rw [step_of_selects cfg hselects, (keeps_afterSelect cfg i _ _).status_eq]
    exact hatHead
  cases h with
  | started hstarts => exact hbody hstarts.1 hstarts.2.1
  | reconnected hselects hatHead => exact hbody hselects hatHead

/-- The links of the server program are configured at the head of the loop exactly if none comes
up. -/
theorem configured_serverRun_iff (cfg : Config) (ahead : ℕ) (inputs : List Input) :
    (∀ before, before <+: inputs → (serverRun cfg ahead before).status = .atHead →
      Configured (∃ i ∈ before, i.fcntl = false) (serverRun cfg ahead before).ctx_rtu
        (serverRun cfg ahead before).os) ↔
      Runs.StepsMeet (step cfg) (fun w i => ¬LinkComesUp cfg w i) (initial ahead) inputs := by
  have hunconfigured (before : List Input) :
      Unconfigured (serverRun cfg ahead before).ctx_rtu :=
    Runs.run_induction (P := fun w : Server => Unconfigured w.ctx_rtu)
      (by simp [Unconfigured, initial]) (fun w i h => unconfigured_step h) before
  have hlinks : (∀ before, before <+: inputs → (serverRun cfg ahead before).status = .atHead →
      (serverRun cfg ahead before).ctx_rtu = none) ↔
      Runs.StepsMeet (step cfg) (fun w i => ¬LinkComesUp cfg w i) (initial ahead) inputs := by
    refine Runs.forall_prefix_iff_stepsMeet
      (P := fun w : Server => w.ctx_rtu = none ∧ (cfg.enable_tcp = true → Tabled cfg w))
      (Q := fun w : Server => w.status = .atHead → w.ctx_rtu = none)
      ⟨rfl, fun _ => tabled_initial cfg ahead⟩ (fun w h _ => h.1) (fun w i h => ?_)
      fun w i h hdown => ?_
    · refine ⟨fun hhead hup => ?_, fun hdown _ => (ctx_rtu_step_iff h.1 h.2).mpr hdown⟩
      exact (ctx_rtu_step_iff h.1 h.2).mp (hhead hup.status_step) hup
    · refine ⟨(ctx_rtu_step_iff h.1 h.2).mpr hdown, fun henable => ?_⟩
      exact tabled_step (h.2 henable) henable i
  rw [← hlinks]
  exact forall₃_congr fun before _ _ => (hunconfigured before).configured_iff_eq_none _ _

end Server

/-- **The links are configured** in exactly the runs without links: of each adapter, and of the
server program. -/
theorem configured_iff (malloc : Bool) (b : ModbusBackend) (impl : RtuImplementation)
    (calls : List RtuCall) (cfg : Config) (ahead : ℕ) (inputs : List Input) :
    (modbusBackendCreate malloc = some b →
      impl ∈ [RtuAdapter.implementation, ServerController.implementation] →
      (∀ call ∈ calls, call.SocketUnset) →
      ((∀ before, before <+: calls →
        Configured (∃ call ∈ before, call.FcntlFails) (Runs.run impl.step b before).ctx_rtu
          (Runs.run impl.step b before).os) ↔
        ∀ call ∈ calls, ¬call.Connects)) ∧
    ((∀ before, before <+: inputs → (serverRun cfg ahead before).status = .atHead →
      Configured (∃ i ∈ before, i.fcntl = false) (serverRun cfg ahead before).ctx_rtu
        (serverRun cfg ahead before).os) ↔
      Runs.StepsMeet (step cfg) (fun w i => ¬LinkComesUp cfg w i) (initial ahead) inputs) :=
  ⟨fun hb himpl hsocket => configured_calls_iff hb himpl hsocket,
    configured_serverRun_iff cfg ahead inputs⟩

/-- A device that cannot be connected, and then a new context that cannot be created. -/
def unreachableLink : List RtuCall :=
  [.init { new := true }, .handle {}, .reconnect {}, .cleanup]

theorem configured_iff_unreachableLink : ∃ b, modbusBackendCreate true = some b ∧
    ∀ before, before <+: unreachableLink →
      Configured (∃ call ∈ before, call.FcntlFails)
        (Runs.run RtuAdapter.implementation.step b before).ctx_rtu
        (Runs.run RtuAdapter.implementation.step b before).os :=
  ⟨_, rfl, ((configured_iff true _ RtuAdapter.implementation unreachableLink {} 0 []).1 rfl
    (by simp) (by simp [unreachableLink, RtuCall.SocketUnset])).mpr
    (by simp [unreachableLink, RtuCall.Connects])⟩

/-- RTU only; the device is there. -/
def connectedDevice : List Input :=
  [{ newRtu := true, connect := some 5, newMapping := true }]

/-- The link that `connectedDevice` leaves has not been configured. -/
theorem not_configured : ¬∀ (cfg : Config) (ahead : ℕ) (inputs : List Input),
    ∀ before, before <+: inputs → (serverRun cfg ahead before).status = .atHead →
      Configured (∃ i ∈ before, i.fcntl = false) (serverRun cfg ahead before).ctx_rtu
        (serverRun cfg ahead before).os := by
  intro h
  have hconnected := h { enable_rtu := true, nb_holding_regs := 1 } 4095 connectedDevice
    connectedDevice (List.prefix_refl _) (by decide +kernel)
  obtain ⟨ctx, hctx⟩ : ∃ ctx, (serverRun { enable_rtu := true, nb_holding_regs := 1 } 4095
      connectedDevice).ctx_rtu = some ctx ∧ ctx.response_timeout ≠ 100000 :=
    ⟨{ id := 0, s := 5 }, by decide +kernel⟩
  exact hctx.2 (hconnected ctx hctx.1).2

end ModbusServer
