import ModbusServer.Server.Blocks

/-!
# Lost links

The attempt to reconnect a lost RTU link stands inside the block that serves ready descriptors. An
iteration whose `select` times out leaves it out, and a server without TCP clients and without
commands has no other iterations once its link is gone.

Source: `json-modbus-server.c`, lines 477–483 and 579–661; `BUILD.md`, lines 7–12.

## Main definitions

* `ModbusServer.rtuOver`: the state once the RTU phase of an iteration is over.
* `ModbusServer.LinkLost`, `ModbusServer.Retries`: iterations that find the link lost, and that try
  to reconnect it.

## Main results

* `ModbusServer.retries_iff`: the runs in which every iteration that finds the link lost tries to
  reconnect it.
* `ModbusServer.not_retries`: not all runs are of this kind.
-/

namespace ModbusServer

/-- The loop body between the stop block and the attempt to reconnect. -/
def servePhase (cfg : Config) (i : Input) (fds : Finset ℤ) (w : Server) : Server :=
  let w := signalHandler i .connections w
  if w.flags.server_state = .running ∧ fds.Nonempty then serve cfg i fds w else w

section Definitions

variable (cfg : Config) (w : Server) (i : Input)

/-- The state once the RTU phase is over, or at a `continue` in front of it. -/
def rtuOver : Server :=
  match startup cfg i (commanded cfg w i) with
  | (w₁, false) => w₁
  | (w₁, true) => servePhase cfg i (ready cfg w i) (stopServer cfg i w₁)

/-- The iteration goes on behind `select` with a running server, and finds the RTU link lost once
the RTU phase is over, with a table. -/
structure LinkLost : Prop where
  enable_rtu : cfg.enable_rtu = true
  selects : selects w i
  atHead : (commanded cfg w i).status = .atHead
  running : (commanded cfg w i).flags.server_state = .running
  mapping : (rtuOver cfg w i).mb_mapping.isSome = true
  lost : (rtuOver cfg w i).ctx_rtu = none

/-- The iteration calls `modbus_new_rtu` behind the RTU phase. -/
def Retries : Prop :=
  .newRtu ∈ (step cfg w i).trace.drop (rtuOver cfg w i).trace.length

end Definitions

/-! ### The attempt -/

section Iteration

variable {cfg : Config} {w : Server} {i : Input}

/-- The block that reconnects, once the link is lost in a running server. -/
theorem newRtu_mem_reconnect_iff (henable : cfg.enable_rtu = true) (hlost : w.ctx_rtu = none)
    (hrunning : w.flags.server_state = .running) :
    .newRtu ∈ (reconnect cfg i w).trace.drop w.trace.length ↔ i.signal .reconnect = false := by
  have hsignal := running_signalHandler_iff i .reconnect w
  rw [and_iff_left hrunning] at hsignal
  rw [← hsignal, reconnect]
  split_ifs with htry
  · rw [trace_openRtu, trace_signalHandler, List.drop_left]
    simpa using htry.2.2
  · rw [trace_signalHandler, List.drop_length]
    simpa [henable, hlost] using htry

/-- The loop body from the stop block on, in a running server with a table. -/
theorem connections_cases (fds : Finset ℤ) (hmapping : w.mb_mapping.isSome = true)
    (hrunning : w.flags.server_state = .running) :
    ((fds.Nonempty ∧ i.signal .connections = false) ∧
      (servePhase cfg i fds w).flags.server_state = .running ∧
      connections cfg i fds w = reconnect cfg i (servePhase cfg i fds w)) ∨
    (¬(fds.Nonempty ∧ i.signal .connections = false) ∧
      connections cfg i fds w = servePhase cfg i fds w) := by
  have hsignal := running_signalHandler_iff i .connections w
  rw [and_iff_left hrunning] at hsignal
  rw [connections, servePhase, ← hsignal]
  split_ifs with hserve
  · refine .inl ⟨⟨hserve.2, hserve.1⟩, ?_, rfl⟩
    rw [(serves_serve cfg i _ fds (by simpa using hmapping)).flags_eq]
    exact hserve.1
  · exact .inr ⟨fun h => hserve ⟨h.2, h.1⟩, rfl⟩

/-- **An iteration that finds the link lost** tries to reconnect it exactly if `select` reported a
descriptor and no signal has come. -/
theorem LinkLost.retries_iff_ready (h : LinkLost cfg w i) : Retries cfg w i ↔
    (ready cfg w i).Nonempty ∧ i.signal .connections = false ∧ i.signal .reconnect = false := by
  have hstep := step_of_selects cfg h.selects
  have hmapping := h.mapping
  have hlost := h.lost
  rw [Retries, hstep, afterSelect, ← commanded, if_pos h.atHead]
  rw [rtuOver] at hmapping hlost ⊢
  have hcontinue := mb_mapping_startup_of_continue cfg i (commanded cfg w i)
  rcases hr : startup cfg i (commanded cfg w i) with ⟨w₁, goesOn⟩
  rw [hr] at hcontinue
  simp only [hr] at hmapping hlost ⊢
  cases goesOn with
  | false =>
    have hnone : w₁.mb_mapping = none := hcontinue rfl
    simp [hnone] at hmapping
  | true =>
    -- the stop block has left the table, so the server is running
    have hrunning : (stopServer cfg i w₁).flags.server_state = .running := by
      by_contra hstopped
      have hskip : servePhase cfg i (ready cfg w i) (stopServer cfg i w₁) =
          signalHandler i .connections (stopServer cfg i w₁) :=
        if_neg fun hserve => hstopped ((running_signalHandler_iff i .connections _).mp hserve.1).2
      simp only [hskip, mb_mapping_signalHandler] at hmapping
      exact hstopped (running_of_isSome_stopServer cfg i w₁ hmapping)
    have hsome := isSome_of_running cfg i _ hr hrunning
    simp only at hlost ⊢
    rcases connections_cases (ready cfg w i) hsome hrunning with
      ⟨hserve, hrunning', heq⟩ | ⟨hskip, heq⟩
    · rw [heq, newRtu_mem_reconnect_iff h.enable_rtu hlost hrunning']
      exact ⟨fun hsignal => ⟨hserve.1, hserve.2, hsignal⟩, fun hall => hall.2.2⟩
    · rw [heq, List.drop_length]
      simpa using fun hready hsignal => absurd ⟨hready, hsignal⟩ hskip

/-- **Lost links are retried** in every iteration of a run that finds the link lost if and only if
in each of them `select` reported a descriptor and no signal has come. -/
theorem retries_iff (cfg : Config) (ahead : ℕ) (inputs : List Input) :
    Runs.StepsMeet (step cfg) (fun w i => LinkLost cfg w i → Retries cfg w i) (initial ahead)
        inputs ↔
      Runs.StepsMeet (step cfg) (fun w i => LinkLost cfg w i → (ready cfg w i).Nonempty ∧
        i.signal .connections = false ∧ i.signal .reconnect = false) (initial ahead) inputs :=
  Runs.stepsMeet_congr (P := fun _ => True) trivial (fun _ _ _ _ => trivial)
    fun _ _ _ => forall_congr' LinkLost.retries_iff_ready

end Iteration

/-- The server starts with an RTU link on descriptor 5. -/
def linkUp : Input where
  newRtu := true
  connect := some 5
  newMapping := true

/-- The link fails, and the attempt to reconnect it fails as well. -/
def linkDown : Input where
  select := .ready {5}
  rtu := { rc := -1 }

theorem not_retries : ¬∀ (cfg : Config) (ahead : ℕ) (inputs : List Input),
    Runs.StepsMeet (step cfg) (fun w i => LinkLost cfg w i → Retries cfg w i) (initial ahead)
      inputs := by
  intro h
  have hidle := Runs.stepsMeet_iff_forall_prefix.mp
    (h { enable_rtu := true, nb_holding_regs := 1 } 4095 [linkUp, linkDown, {}])
    [linkUp, linkDown] {} List.prefix_rfl
  have hlost : LinkLost { enable_rtu := true, nb_holding_regs := 1 }
      (Runs.run (step { enable_rtu := true, nb_holding_regs := 1 }) (initial 4095)
        [linkUp, linkDown]) {} :=
    ⟨rfl, ⟨by decide +kernel, by decide +kernel, ∅, rfl⟩, by decide +kernel, by decide +kernel,
      by decide +kernel, by decide +kernel⟩
  exact absurd (hidle hlost) (by rw [Retries]; decide +kernel)

end ModbusServer
