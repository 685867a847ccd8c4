import ModbusServer.Adapters.ClientView
import ModbusServer.Adapters.Session
import ModbusServer.Command.Memory

/-!
# The table of a back end

The table of a back end is written from two sides: `json_command_process` stores what a line asks
for, and the adapters store what a request asks for that they have received from a client or from
the RTU link. In every interleaving, no store into the table is lost and none is made twice: the
table is that of the beginning with the stores of all calls in their order. The command processor
does not notice the adapters. Its answers and its flags are those of a session in which it is alone.
A line that stores outside of the table is recorded; `modbus_reply` refuses such a request.

Source: `src/json/json_command.c`, `src/adapters/tcp_adapter.c`, `src/adapters/rtu_adapter.c`,
`src/core/server_controller.c`.

## Main definitions

* `ModbusServer.BackendSession`, `ModbusServer.BackendCall`: a back end in use.
* `ModbusServer.AdapterCall.request?`: the request that a call of an adapter answers.
* `ModbusServer.BackendSession.history`: the stores of a sequence of calls.

## Main results

* `ModbusServer.mapping_adapterStep`: what an adapter does to the table.
* `ModbusServer.registers_backendSession`: the table, the flags and the answers after every
  sequence of calls.
-/

namespace ModbusServer

/-! ### Calls -/

/-- A line for the command processor, or a call of one of the adapters. -/
inductive BackendCall
  | json (line : CText.Bytes)
  | adapter (call : AdapterCall)

/-- The line of a call. -/
def BackendCall.line? : BackendCall → Option CText.Bytes
  | .json line => some line
  | .adapter _ => none

/-- A back end in use, with the flags of the command processor, the lines it has printed, and
whether it has stored outside of the table. -/
structure BackendSession where
  backend : ModbusBackend
  flags : Flags
  stdout : List CText.Bytes := []
  overrun : Bool := false

/-- The request that a call of an adapter answers: the call is for a client that is connected, or
there is an RTU link, and a request has been received. -/
def AdapterCall.request? (b : ModbusBackend) : AdapterCall → Option Receive
  | .tcp (.handleClient client_index r _) =>
    if client_index ∈ View.occupiedIndices b ∧ 0 < r.rc then some r else none
  | .rtu (.handle o) => if b.ctx_rtu.isSome ∧ 0 < o.receive.rc then some o.receive else none
  | .tcp (.init _ _) | .tcp (.acceptClient _) | .tcp .cleanup | .rtu (.init _) |
    .rtu (.reconnect _) | .rtu .cleanup => none

/-- The stores of a call. -/
def BackendCall.writes (b : ModbusBackend) : BackendCall → List (ℤ × Word)
  | .json line => b.mapping.elim [] fun mb => lineStores mb.nb_registers line
  | .adapter call => (call.request? b).elim [] Receive.written

namespace BackendSession

/-- What a call does. -/
def step (impl : RtuImplementation) (s : BackendSession) : BackendCall → BackendSession
  | .json line =>
    let (effects, flags) := jsonCommandProcess line s.backend.mapping s.flags
    { backend := { s.backend with mapping := s.backend.mapping.map (·.apply effects) }
      flags := flags
      stdout := s.stdout ++ printed effects
      overrun := s.overrun || s.backend.mapping.any (·.overruns effects) }
  | .adapter call => { s with backend := adapterStep impl s.backend call }

/-- The stores of a sequence of calls, in their order. -/
def history (impl : RtuImplementation) : BackendSession → List BackendCall → List (ℤ × Word)
  | _, [] => []
  | s, call :: calls => call.writes s.backend ++ history impl (s.step impl call) calls

end BackendSession

/-! ### What an adapter does to the table -/

/-- A table, if there is one, after stores. -/
def storeAll (mapping : Option Mapping) (log : List (ℤ × Word)) : Option Mapping :=
  mapping.map (·.apply (storeEffects log))

@[simp] theorem storeAll_nil (mapping : Option Mapping) : storeAll mapping [] = mapping := by
  cases mapping <;> rfl

section Adapters

variable {b : ModbusBackend} {impl : RtuImplementation}

theorem mapping_tcpAdapterAcceptClient (accept : Accept) (b : ModbusBackend) :
    (tcpAdapterAcceptClient accept b).2.mapping = b.mapping := by
  rw [tcpAdapterAcceptClient]
  rcases b.modbusTcpAccept_cases accept with heq | heq | ⟨fd, -, heq⟩
  all_goals
    rw [heq]
    cases b.findFreeTcpClientSlot with
    | none => dsimp only; split_ifs <;> rfl
    | some slot => dsimp only; split_ifs <;> rfl

theorem mapping_tcpAdapterCleanup (b : ModbusBackend) :
    (tcpAdapterCleanup b).mapping = b.mapping := by
  have hclient (b : ModbusBackend) (k : Fin maxTcpClients) :
      (b.closeClient k).mapping = b.mapping := by
    rw [ModbusBackend.closeClient]
    split_ifs <;> rfl
  exact Runs.run_frame (g := ModbusBackend.mapping) hclient (s := b) slots

/-- A request of a client is answered if there is a client and a request has been received. -/
theorem mapping_tcpAdapterHandleClient (client_index : ℤ) (r : Receive) (reply : Bool)
    (b : ModbusBackend) :
    (tcpAdapterHandleClient client_index r reply b).2.mapping =
      if client_index ∈ View.occupiedIndices b ∧ 0 < r.rc then storeAll b.mapping r.written
      else b.mapping := by
  rw [tcpAdapterHandleClient]
  by_cases hindex : 0 ≤ client_index ∧ client_index < maxTcpClients
  · rw [dif_pos hindex]
    obtain ⟨k, rfl⟩ : ∃ k : Fin maxTcpClients, (k : ℤ) = client_index :=
      ⟨⟨client_index.toNat, by omega⟩, Int.toNat_of_nonneg hindex.1⟩
    have hmem : (k : ℤ) ∈ View.occupiedIndices b ↔ b.tcp_conn_socks k ≠ -1 := by
      rw [View.mem_occupiedIndices]
      refine ⟨?_, fun h => ⟨k, h, rfl⟩⟩
      rintro ⟨j, hj, hjk⟩
      rwa [← natCast_fin_injective hjk]
    dsimp only [Int.toNat_natCast]
    simp only [hmem]
    by_cases hsock : b.tcp_conn_socks k = -1
    · simp [hsock]
    · by_cases hrequest : 0 < r.rc
      · have hanswered : b.tcp_conn_socks k ≠ -1 ∧ 0 < r.rc := ⟨hsock, hrequest⟩
        rw [if_neg hsock, if_pos hrequest, if_pos hanswered]
        rfl
      · have hidle : ¬(b.tcp_conn_socks k ≠ -1 ∧ 0 < r.rc) := fun h => hrequest h.2
        rw [if_neg hsock, if_neg hrequest, if_neg hidle]
        split_ifs <;> rfl
  · rw [dif_neg hindex, if_neg]
    rintro ⟨hmem, -⟩
    obtain ⟨k, -, rfl⟩ := View.mem_occupiedIndices.mp hmem
    have := k.isLt
    omega

theorem mapping_openRtu (b : ModbusBackend) (o : RtuOutcome) :
    (b.openRtu o).2.mapping = b.mapping := by
  rcases b.openRtu_cases o with ⟨-, heq⟩ | ⟨-, -, c, -, heq⟩ | ⟨-, fd, -, c, -, -, -, heq⟩
  all_goals rw [heq]

theorem mapping_rtuAdapterCleanup (b : ModbusBackend) :
    (RtuAdapter.rtuAdapterCleanup b).mapping = b.mapping :=
  congrArg Server.mb_mapping (globals_rtuAdapterCleanup b)

/-- A request of the RTU link is answered if there is a link and a request has been received. -/
theorem mapping_handleRtu (b : ModbusBackend) (o : RtuOutcome)
    {dropped : ModbusBackend → ModbusBackend} (hdropped : ∀ b, (dropped b).mapping = b.mapping) :
    (b.handleRtu o dropped).2.mapping =
      if b.ctx_rtu.isSome ∧ 0 < o.receive.rc then storeAll b.mapping o.receive.written
      else b.mapping := by
  rw [ModbusBackend.handleRtu]
  cases hctx : b.ctx_rtu with
  | none => simp
  | some c =>
    by_cases hrequest : 0 < o.receive.rc
    · simp only [hrequest, if_true, Option.isSome_some, and_self]
      rfl
    · simp only [hrequest, if_false, and_false]
      split_ifs
      · rfl
      · exact hdropped _
      · rfl

/-- **A call of an adapter** stores what the request asks for that it answers. -/
theorem mapping_adapterStep
    (himpl : impl ∈ [RtuAdapter.implementation, ServerController.implementation])
    (b : ModbusBackend) (call : AdapterCall) : (adapterStep impl b call).mapping =
      storeAll b.mapping ((call.request? b).elim [] Receive.written) := by
  have helim (c : Prop) [Decidable c] (r : Receive) :
      storeAll b.mapping ((if c then some r else none).elim [] Receive.written) =
        if c then storeAll b.mapping r.written else b.mapping := by
    split_ifs
    · rfl
    · exact storeAll_nil _
  cases call with
  | tcp call =>
    cases call with
    | init new listen =>
      rcases tcpAdapterInit_cases new listen b with ⟨-, heq⟩ | ⟨-, heq⟩ | ⟨-, fd, -, heq⟩
      all_goals
        rw [adapterStep, tcpStep, heq]
        exact (storeAll_nil _).symm
    | acceptClient accept =>
      exact (mapping_tcpAdapterAcceptClient accept b).trans (storeAll_nil _).symm
    | handleClient client_index receive reply =>
      rw [AdapterCall.request?, helim]
      exact mapping_tcpAdapterHandleClient client_index receive reply b
    | cleanup => exact (mapping_tcpAdapterCleanup b).trans (storeAll_nil _).symm
  | rtu call =>
    cases call with
    | init o =>
      have heq := congrArg (fun r => r.2.mapping) (init_eq himpl o b)
      exact (heq.trans (mapping_openRtu b o)).trans (storeAll_nil _).symm
    | handle o =>
      obtain ⟨dropped, hdropped, hhandle⟩ := handle_eq himpl o b
      have heq := congrArg (fun r => r.2.mapping) hhandle
      rw [AdapterCall.request?, helim]
      refine heq.trans (mapping_handleRtu b o ?_)
      rcases hdropped with rfl | rfl
      · exact fun _ => rfl
      · exact mapping_rtuAdapterCleanup
    | reconnect o =>
      have heq := congrArg (fun r => r.2.mapping) (reconnect_eq himpl o b)
      refine heq.trans ((mapping_openRtu _ o).trans ?_)
      exact (mapping_rtuAdapterCleanup b).trans (storeAll_nil _).symm
    | cleanup =>
      have heq := congrArg ModbusBackend.mapping (cleanup_eq himpl b)
      exact (heq.trans (mapping_rtuAdapterCleanup b)).trans (storeAll_nil _).symm

end Adapters

/-! ### Sequences of calls -/

section Sessions

variable {mb mb' : Mapping} {impl : RtuImplementation}

/-- The command processor looks at the size of a table only. -/
theorem jsonCommandProcess_congr (h : mb.nb_registers = mb'.nb_registers) (line : CText.Bytes)
    (flags : Flags) :
    jsonCommandProcess line (some mb) flags = jsonCommandProcess line (some mb') flags := by
  simp only [jsonCommandProcess, jsonCommandUpdateData, h]

/-- What a call does to the table. -/
theorem mapping_step
    (himpl : impl ∈ [RtuAdapter.implementation, ServerController.implementation])
    (s : BackendSession) (call : BackendCall) : (s.step impl call).backend.mapping =
      storeAll s.backend.mapping (call.writes s.backend) := by
  cases call with
  | json line =>
    simp only [BackendSession.step, BackendCall.writes]
    cases s.backend.mapping with
    | none => rfl
    | some mb =>
      have hstores := stores_jsonCommandProcess line mb s.flags
      simp [storeAll, Mapping.apply, hstores]
  | adapter call => exact mapping_adapterStep himpl s.backend call

theorem storeAll_append (mapping : Option Mapping) (log log' : List (ℤ × Word)) :
    storeAll (storeAll mapping log) log' = storeAll mapping (log ++ log') := by
  cases mapping with
  | none => rfl
  | some mb => simp [storeAll, Mapping.apply_append, storeEffects]

/-- The table after a sequence of calls. -/
theorem mapping_run
    (himpl : impl ∈ [RtuAdapter.implementation, ServerController.implementation])
    (s : BackendSession) (calls : List BackendCall) :
    (Runs.run (BackendSession.step impl) s calls).backend.mapping =
      storeAll s.backend.mapping (s.history impl calls) := by
  induction calls generalizing s with
  | nil => exact (storeAll_nil _).symm
  | cons call calls ih =>
    rw [Runs.run_cons, ih, mapping_step himpl, storeAll_append, BackendSession.history]

/-- The session stores outside of the table exactly if a line does. -/
theorem overrun_run
    (himpl : impl ∈ [RtuAdapter.implementation, ServerController.implementation])
    {s : BackendSession} {mb : Mapping} (hmb : s.backend.mapping = some mb)
    (calls : List BackendCall) : (Runs.run (BackendSession.step impl) s calls).overrun =
      (s.overrun || (calls.filterMap BackendCall.line?).any fun line =>
        Stores.outside mb.nb_registers (lineStores mb.nb_registers line)) := by
  induction calls generalizing s mb with
  | nil => exact (Bool.or_false _).symm
  | cons call calls ih =>
    have hmapping := mapping_step himpl s call
    rw [hmb] at hmapping
    rw [Runs.run_cons, ih hmapping, Mapping.nb_registers_apply]
    cases call with
    | json line =>
      simp only [BackendSession.step, hmb, Option.any_some, Mapping.overruns,
        stores_jsonCommandProcess, List.filterMap_cons, BackendCall.line?, List.any_cons,
        Bool.or_assoc]
    | adapter call => rfl

/-- The session of the command processor alone looks like the session with the adapters: it has a
table of the same size. -/
structure Alike (s : BackendSession) (d : Dialog) : Prop where
  mapping : ∃ mb, s.backend.mapping = some mb ∧ mb.nb_registers = d.mapping.nb_registers
  flags_eq : s.flags = d.flags
  stdout_eq : s.stdout = d.stdout

/-- A line is answered in either session the same way. -/
theorem Alike.json {s : BackendSession} {d : Dialog} (h : Alike s d) (line : CText.Bytes) :
    Alike (s.step impl (.json line)) (commandLine d line) := by
  obtain ⟨mb, hmb, hsize⟩ := h.mapping
  have hcall := jsonCommandProcess_congr hsize line d.flags
  refine ⟨⟨_, congrArg (Option.map _) hmb, ?_⟩, ?_, ?_⟩
  · rw [Mapping.nb_registers_apply, hsize, commandLine, Dialog.answer, Mapping.nb_registers_apply]
  · simp only [BackendSession.step, hmb, h.flags_eq, hcall, commandLine, Dialog.answer]
  · simp only [BackendSession.step, hmb, h.flags_eq, h.stdout_eq, hcall, commandLine,
      Dialog.answer]

/-- A call of an adapter is not noticed. -/
theorem Alike.adapter
    (himpl : impl ∈ [RtuAdapter.implementation, ServerController.implementation])
    {s : BackendSession} {d : Dialog} (h : Alike s d) (call : AdapterCall) :
    Alike (s.step impl (.adapter call)) d := by
  obtain ⟨mb, hmb, hsize⟩ := h.mapping
  have hmapping := mapping_step himpl s (.adapter call)
  rw [hmb] at hmapping
  refine ⟨⟨_, hmapping, ?_⟩, h.flags_eq, h.stdout_eq⟩
  rw [Mapping.nb_registers_apply, hsize]

theorem Alike.run
    (himpl : impl ∈ [RtuAdapter.implementation, ServerController.implementation])
    {s : BackendSession} {d : Dialog} (h : Alike s d) (calls : List BackendCall) :
    Alike (Runs.run (BackendSession.step impl) s calls)
      (Runs.run commandLine d (calls.filterMap BackendCall.line?)) := by
  induction calls generalizing s d with
  | nil => exact h
  | cons call calls ih =>
    cases call with
    | json line => exact ih (h.json line)
    | adapter call => exact ih (h.adapter himpl call)

/-- **Two writers, one table.** In every interleaving of lines for the command processor and calls
of the adapters, each register ends with the last word that a line or a request has stored in it, or
with the word it had, and nothing else has been stored to unless a line stores outside of the table;
and the flags and the answers are those of the lines alone. -/
theorem registers_backendSession
    (himpl : impl ∈ [RtuAdapter.implementation, ServerController.implementation])
    {s : BackendSession} (hmb : s.backend.mapping = some mb) (calls : List BackendCall) :
    ∃ mb', (Runs.run (BackendSession.step impl) s calls).backend.mapping = some mb' ∧
      mb'.start_registers = mb.start_registers ∧
      (∀ i : ℕ, mb'.tab_registers[i]? = mb.tab_registers[i]?.map fun w =>
        (Stores.lastAt (s.history impl calls) i).getD w) ∧
      (Runs.run (BackendSession.step impl) s calls).overrun =
        (s.overrun || (calls.filterMap BackendCall.line?).any fun line =>
          Stores.outside mb.nb_registers (lineStores mb.nb_registers line)) ∧
      (Runs.run (BackendSession.step impl) s calls).flags =
        (Runs.run commandLine { mapping := mb, flags := s.flags, stdout := s.stdout }
          (calls.filterMap BackendCall.line?)).flags ∧
      (Runs.run (BackendSession.step impl) s calls).stdout =
        (Runs.run commandLine { mapping := mb, flags := s.flags, stdout := s.stdout }
          (calls.filterMap BackendCall.line?)).stdout := by
  have hmapping := mapping_run himpl s calls
  have halike : Alike s { mapping := mb, flags := s.flags, stdout := s.stdout } :=
    ⟨⟨mb, hmb, rfl⟩, rfl, rfl⟩
  have hrun := halike.run himpl calls
  rw [hmb] at hmapping
  refine ⟨_, hmapping, rfl, fun i => ?_, overrun_run himpl hmb calls, hrun.flags_eq, hrun.stdout_eq⟩
  rw [Mapping.tab_registers_apply, stores_storeEffects, Stores.getElem?_apply]

end Sessions

theorem length_twoRegisters_le : ([0, 0] : List Word).length ≤ CInt.INT_MAX := by decide

/-- A back end with a table of two registers. -/
def tableBackend : ModbusBackend where
  ctx_tcp := none
  ctx_rtu := none
  mapping := some { tab_registers := [0, 0], length_le := length_twoRegisters_le }
  tcp_listen_sock := -1
  tcp_conn_socks := fun _ => -1
  tcp_conn_count := 0

/-- A client and the command processor write the same register, and a client that is not connected
writes the other. -/
def bothSides : List BackendCall :=
  [.adapter (.tcp (.init true (some 3))), .adapter (.tcp (.acceptClient (.connection 4))),
    .adapter (.tcp (.handleClient 0 { rc := 12, written := [(1, 5)] } true)),
    .json (CText.ascii
      "\x7b\"type\":\"x\",\"address\":1,\"datatype\":\"uint16\",\"value\":7\x7d"),
    .adapter (.tcp (.handleClient 1 { rc := 12, written := [(0, 9)] } true))]

theorem registers_backendSession_bothSides : ∃ mb',
    (Runs.run (BackendSession.step RtuAdapter.implementation)
      { backend := tableBackend, flags := ⟨.running, true⟩ } bothSides).backend.mapping =
        some mb' ∧ mb'.tab_registers[0]? = some 0 ∧ mb'.tab_registers[1]? = some 7 := by
  obtain ⟨mb', hmapping, -, hregisters, -, -, -⟩ :=
    @registers_backendSession { tab_registers := [0, 0] } RtuAdapter.implementation (by simp)
      { backend := tableBackend, flags := ⟨.running, true⟩ } rfl bothSides
  refine ⟨mb', hmapping, ?_, ?_⟩
  · rw [hregisters 0]
    decide +kernel
  · rw [hregisters 1]
    decide +kernel

end ModbusServer
