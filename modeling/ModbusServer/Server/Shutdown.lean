import ModbusServer.Command.Answers
import ModbusServer.Server.Leaks
import ModbusServer.Server.Polling

/-!
# Shutdown

A stop, the end of the input and a signal clear `running` and set the state to `STATE_STOPPED`, and
the loop tests `running` once in an iteration. What the iteration does behind that test depends on
the state. A `start` that is read in an iteration in which a signal has come sets the state to
`STATE_RUNNING` again; and the blocks that serve test the state once, so a signal that comes while
they are executed does not keep them from answering the requests that are left.

The blocks that serve have a turn for each client and one for the RTU link. A signal that comes in
between is one at the point `reconnect`, where the flags are read the next time, and the number of
turns in front of it is given with the input.

Source: `src/json/json_command.c`, lines 15–49; `json-modbus-server.c`, lines 155–208 and 440–688.

## Main definitions

* `ModbusServer.TimedInput`: an input with the turn in which a signal comes.
* `ModbusServer.FinalIteration`: once `running` is false, nothing is started and nothing served.
* `ModbusServer.SignalTimely`: the iterations in which a signal comes where it is obeyed.

## Main results

* `ModbusServer.finalIteration_iff`: these are the iterations in which a shutdown is final.
* `ModbusServer.shutdown_iff`: the sessions and the runs in which it is.
* `ModbusServer.not_shutdown`: in not all of them it is.
-/

namespace ModbusServer

open CText

/-! ### Turns -/

/-- What the environment does during an iteration, and the number of turns of the blocks that serve
that precede the signal at the point `reconnect`, if there is one. -/
structure TimedInput extends Input where
  turns : ℕ := 0

/-- The state behind the first turns of the blocks that serve: a turn for each slot, and one for the
RTU link. -/
def behindTurns (cfg : Config) (i : Input) (fds : Finset ℤ) (turns : ℕ) (w : Server) : Server :=
  let w := if cfg.enable_tcp then (slots.take turns).foldl (handleClient i fds) w else w
  if maxTcpClients < turns then handleRtu cfg i fds w else w

/-- A request has arrived on the descriptor in the slot. -/
def ClientRequest (i : Input) (fds : Finset ℤ) (w : Server) (k : Fin maxTcpClients) : Prop :=
  w.tcp_conn_socks k ≠ -1 ∧ w.tcp_conn_socks k ∈ fds ∧ 0 < (i.client k).rc

/-- A request has arrived on the RTU link. -/
def RtuRequest (cfg : Config) (i : Input) (fds : Finset ℤ) (w : Server) : Prop :=
  cfg.enable_rtu = true ∧ ∃ ctx, w.ctx_rtu = some ctx ∧ ctx.s ≠ -1 ∧ ctx.s ∈ fds ∧ 0 < i.rtu.rc

/-- A request is left behind the first turns. -/
def RequestLeft (cfg : Config) (i : Input) (fds : Finset ℤ) (turns : ℕ) (w : Server) : Prop :=
  (cfg.enable_tcp = true ∧ ∃ k : Fin maxTcpClients, turns ≤ k ∧ ClientRequest i fds w k) ∨
    (turns ≤ maxTcpClients ∧ RtuRequest cfg i fds w)

/-- The events between two states, where a request is answered exactly if a condition holds. -/
def Replies (R : Prop) (w w' : Server) : Prop :=
  ∃ es, w'.trace = w.trace ++ es ∧ ((∃ mapping, .reply mapping ∈ es) ↔ R)

section Replies

variable {R R' : Prop} {cfg : Config} {i : Input} {fds : Finset ℤ} {w w' w'' : Server}

theorem Replies.refl (h : ¬R) (w : Server) : Replies R w w := ⟨[], by simp, by simp [h]⟩

theorem Replies.trans (h : Replies R w w') (h' : Replies R' w' w'') : Replies (R ∨ R') w w'' := by
  obtain ⟨es, htrace, hes⟩ := h
  obtain ⟨es', htrace', hes'⟩ := h'
  refine ⟨es ++ es', by rw [htrace', htrace, List.append_assoc], ?_⟩
  simp only [List.mem_append, exists_or, hes, hes']

theorem Replies.congr (h : Replies R w w') (hR : R ↔ R') : Replies R' w w' := by
  obtain ⟨es, htrace, hes⟩ := h
  exact ⟨es, htrace, hes.trans hR⟩

/-- What is answered behind a state, in terms of the trace. -/
theorem Replies.drop_iff (h : Replies R w w') :
    (∀ mapping, .reply mapping ∉ w'.trace.drop w.trace.length) ↔ ¬R := by
  obtain ⟨es, htrace, hes⟩ := h
  rw [htrace, List.drop_left, ← hes, not_exists]

theorem replies_handleClient (i : Input) (fds : Finset ℤ) (w : Server) (k : Fin maxTcpClients) :
    Replies (ClientRequest i fds w k) w (handleClient i fds w k) := by
  rw [handleClient]
  dsimp only
  split_ifs with hready hrequest herror
  · refine ⟨[.receive (w.tcp_conn_socks k), .reply w.mb_mapping.isSome], by simp [modbusReply], ?_⟩
    exact iff_of_true ⟨w.mb_mapping.isSome, by simp⟩ ⟨hready.1, hready.2, hrequest⟩
  · refine ⟨[.receive (w.tcp_conn_socks k)], rfl, ?_⟩
    exact iff_of_false (by simp) fun h => hrequest h.2.2
  · refine ⟨[.receive (w.tcp_conn_socks k)], rfl, ?_⟩
    exact iff_of_false (by simp) fun h => hrequest h.2.2
  · exact .refl (fun h => hready ⟨h.1, h.2.1⟩) w

/-- A turn leaves the other slots and the RTU link as they are. -/
theorem handleClient_of_ne {j k : Fin maxTcpClients} (hj : j ≠ k) :
    (handleClient i fds w k).tcp_conn_socks j = w.tcp_conn_socks j := by
  rw [handleClient]
  dsimp only
  split_ifs
  · rfl
  · exact Function.update_of_ne hj _ _
  · rfl
  · rfl

/-- The turns of different slots answer the requests that had arrived on them before the first
turn. -/
theorem replies_foldl_handleClient {ks : List (Fin maxTcpClients)} (hks : ks.Nodup) (w : Server) :
    Replies (∃ k ∈ ks, ClientRequest i fds w k) w (ks.foldl (handleClient i fds) w) := by
  induction ks generalizing w with
  | nil => exact .refl (by simp) w
  | cons k ks ih =>
    obtain ⟨hk, hks⟩ := List.nodup_cons.mp hks
    refine ((replies_handleClient i fds w k).trans (ih hks (handleClient i fds w k))).congr ?_
    have hrest : ∀ j ∈ ks,
        (ClientRequest i fds (handleClient i fds w k) j ↔ ClientRequest i fds w j) := by
      intro j hj
      have hne : j ≠ k := ne_of_mem_of_not_mem hj hk
      rw [ClientRequest, ClientRequest, handleClient_of_ne hne]
    rw [List.exists_mem_cons_iff]
    exact or_congr_right (exists_congr fun j => and_congr_right fun hj => hrest j hj)

theorem foldl_handleClient_of_notMem {ks : List (Fin maxTcpClients)} {j : Fin maxTcpClients}
    (hj : j ∉ ks) (w : Server) :
    (ks.foldl (handleClient i fds) w).tcp_conn_socks j = w.tcp_conn_socks j := by
  induction ks generalizing w with
  | nil => rfl
  | cons k ks ih =>
    obtain ⟨hne, hks⟩ := List.ne_and_not_mem_of_not_mem_cons hj
    rw [List.foldl_cons, ih hks, handleClient_of_ne hne]

theorem ctx_rtu_foldl_handleClient (ks : List (Fin maxTcpClients)) (w : Server) :
    (ks.foldl (handleClient i fds) w).ctx_rtu = w.ctx_rtu := by
  refine Runs.run_frame (fun w k => ?_) ks
  exact (receives_handleClient (P := fun _ => True) i w k fun _ => trivial).2.1

theorem replies_handleRtu (cfg : Config) (i : Input) (fds : Finset ℤ) (w : Server) :
    Replies (RtuRequest cfg i fds w) w (handleRtu cfg i fds w) := by
  rw [handleRtu]
  split
  · next hctx =>
    refine .refl (fun h => ?_) w
    obtain ⟨-, ctx, hctx', -⟩ := h
    simp [hctx] at hctx'
  · next ctx hctx =>
    dsimp only
    have hlink (h : RtuRequest cfg i fds w) :
        (cfg.enable_rtu = true ∧ ctx.s ≠ -1 ∧ ctx.s ∈ fds) ∧ 0 < i.rtu.rc := by
      obtain ⟨henable, ctx', hctx', hs, hfds, hrc⟩ := h
      obtain rfl : ctx = ctx' := Option.some.inj (hctx.symm.trans hctx')
      exact ⟨⟨henable, hs, hfds⟩, hrc⟩
    split_ifs with hready hrequest herror
    · refine ⟨[.receive ctx.s, .reply w.mb_mapping.isSome], by simp [modbusReply], ?_⟩
      exact iff_of_true ⟨w.mb_mapping.isSome, by simp⟩
        ⟨hready.1, ctx, hctx, hready.2.1, hready.2.2, hrequest⟩
    · refine ⟨[.receive ctx.s], rfl, ?_⟩
      exact iff_of_false (by simp) fun h => hrequest (hlink h).2
    · refine ⟨[.receive ctx.s], rfl, ?_⟩
      exact iff_of_false (by simp) fun h => hrequest (hlink h).2
    · exact .refl (fun h => hready (hlink h).1) w

theorem mem_drop_slots {k : Fin maxTcpClients} {turns : ℕ} :
    k ∈ slots.drop turns ↔ turns ≤ k := by
  rw [slots, List.mem_drop_iff_getElem]
  simp only [List.getElem_finRange, List.length_finRange]
  constructor
  · rintro ⟨j, hj, rfl⟩
    exact Nat.le_add_right turns j
  · intro hle
    refine ⟨k - turns, by omega, Fin.ext ?_⟩
    exact Nat.add_sub_cancel' hle

/-- **The turns behind the first ones** answer the requests that are left. -/
theorem replies_behindTurns (cfg : Config) (i : Input) (fds : Finset ℤ) (turns : ℕ) (w : Server) :
    Replies (RequestLeft cfg i fds turns w) (behindTurns cfg i fds turns w)
      (handleRtu cfg i fds (handleClients cfg i fds w)) := by
  rw [behindTurns, handleClients]
  cases henable : cfg.enable_tcp with
  | false =>
    by_cases hturns : maxTcpClients < turns
    · simp only [hturns, if_true]
      exact .refl (fun h => by simp [RequestLeft, henable, hturns.not_ge] at h) _
    · simp only [hturns, if_false]
      refine (replies_handleRtu cfg i fds w).congr ?_
      simp [RequestLeft, henable, not_lt.mp hturns]
  | true =>
    simp only [if_true]
    by_cases hturns : maxTcpClients < turns
    · have htake : slots.take turns = slots := List.take_of_length_le (by
        rw [slots, List.length_finRange]
        exact hturns.le)
      rw [if_pos hturns, htake]
      refine .refl ?_ _
      rintro (⟨-, k, hk, -⟩ | ⟨hle, -⟩)
      · omega
      · exact absurd hle hturns.not_ge
    · rw [if_neg hturns]
      have hslots : slots.foldl (handleClient i fds) w = (slots.drop turns).foldl
          (handleClient i fds) ((slots.take turns).foldl (handleClient i fds) w) := by
        rw [← List.foldl_append, List.take_append_drop]
      have hnodup : slots.Nodup := List.nodup_finRange maxTcpClients
      rw [hslots]
      refine ((replies_foldl_handleClient (hnodup.sublist (List.drop_sublist _ _)) _).trans
        (replies_handleRtu cfg i fds _)).congr ?_
      have hclients (k : Fin maxTcpClients) (hk : k ∈ slots.drop turns) :
          ClientRequest i fds ((slots.take turns).foldl (handleClient i fds) w) k ↔
            ClientRequest i fds w k := by
        have hnotMem : k ∉ slots.take turns := fun h =>
          List.disjoint_take_drop hnodup (le_refl turns) h hk
        rw [ClientRequest, ClientRequest, foldl_handleClient_of_notMem hnotMem]
      rw [RtuRequest, ctx_rtu_foldl_handleClient, ctx_rtu_foldl_handleClient, ← RtuRequest,
        RequestLeft]
      simp only [henable, true_and, not_lt.mp hturns, ← mem_drop_slots]
      exact or_congr_left (exists_congr fun k => and_congr_right fun hk => hclients k hk)

end Replies

/-! ### Iterations -/

section Definitions

variable (cfg : Config) (w : Server) (i : Input)

/-- The flags when `process_json` is called. -/
def commandFlags : Flags := (signalHandler i .command (atSelect cfg w i)).flags

/-- No start is processed in a server that has stopped. -/
def NotRestarted : Prop :=
  ∀ buf s, reads w i → (atRead w i).fgets i.waiting = .line buf s →
    (commandFlags cfg w i).server_state = .stopped → commandOf (cString buf) ≠ some (ascii "start")

/-- The blocks that serve are executed. -/
def ServesReady : Prop :=
  selects w i ∧ (commanded cfg w i).status = .atHead ∧
    (startup cfg i (commanded cfg w i)).2 = true ∧
    (serving cfg w i).flags.server_state = .running ∧ (ready cfg w i).Nonempty

end Definitions

/-- The number of turns of the blocks that serve before `running` is false. -/
def TimedInput.runningTurns (i : TimedInput) (flags : Flags) : ℕ :=
  if flags.running then if i.signal .reconnect then i.turns else maxTcpClients + 1 else 0

/-- Once `running` is false, a start is not answered with `starting`, the start-up block is not
entered, and no request is answered; and at the end of the iteration the state is
`STATE_STOPPED`. -/
structure FinalIteration (cfg : Config) (w : Server) (i : TimedInput) : Prop where
  starting : reads w i.toInput → ∀ buf s, (atRead w i.toInput).fgets i.waiting = .line buf s →
    (commandFlags cfg w i.toInput).running = false → answersStarting
      (processJson cfg w.mb_mapping (commandFlags cfg w i.toInput) (cString buf)).1 = false
  startup : Starts cfg w i.toInput →
    (signalHandler i.toInput .startup (commanded cfg w i.toInput)).flags.running = true
  served : ServesReady cfg w i.toInput → ∀ mapping, .reply mapping ∉
    (serve cfg i.toInput (ready cfg w i.toInput) (serving cfg w i.toInput)).trace.drop
      (behindTurns cfg i.toInput (ready cfg w i.toInput)
        (i.runningTurns (serving cfg w i.toInput).flags) (accepted cfg w i.toInput)).trace.length
  stopped : (step cfg w i.toInput).flags.running = false →
    (step cfg w i.toInput).flags.server_state = .stopped

/-- A signal that comes between the head of the loop and a command does not come before a start, and
one that comes while descriptors are served leaves no request behind. -/
structure SignalTimely (cfg : Config) (w : Server) (i : TimedInput) : Prop where
  command : (i.signal .poll || i.signal .maxfd || i.signal .command) = true →
    reads w i.toInput → ∀ buf s, (atRead w i.toInput).fgets i.waiting = .line buf s →
    commandOf (cString buf) ≠ some (ascii "start")
  serving : i.signal .reconnect = true → ServesReady cfg w i.toInput →
    ¬RequestLeft cfg i.toInput (ready cfg w i.toInput) i.turns (accepted cfg w i.toInput)

/-! ### Flags -/

section Flags

variable {cfg : Config} {w : Server} {i : Input}

theorem together_signalHandler (p : Point) (h : w.flags.Together) :
    (signalHandler i p w).flags.Together := by
  rw [signalHandler_eq]
  dsimp only
  split_ifs
  · simp [Flags.Together]
  · exact h

theorem flags_reconnect (cfg : Config) (i : Input) (w : Server) :
    (reconnect cfg i w).flags = (signalHandler i .reconnect w).flags := by
  rw [reconnect]
  split_ifs
  · exact flags_openRtu _ _ _ _
  · rfl

/-- Behind the command block the flags move together. -/
theorem preservedBehind_together (cfg : Config) (i : Input) :
    PreservedBehind cfg i fun w => w.flags.Together :=
  { signal := fun p w h => together_signalHandler p h
    startup := fun w h => by
      rcases startup_cases cfg i w with ⟨-, heq⟩ | ⟨-, heq⟩
      · rw [heq]
        exact together_signalHandler .startup h
      · rw [heq, flags_startParts]
        exact together_signalHandler .startup h
    stop := fun w h => by
      have hsignal := together_signalHandler (i := i) .stop h
      rw [stopServer]
      split_ifs
      · dsimp only
        rwa [(releases_release cfg _).flags_eq]
      · exact hsignal
    connections := fun fds w h hmapping => by
      have hsignal := together_signalHandler (i := i) .connections h
      rcases connections_ways cfg i w fds hmapping with heq | ⟨hsome, heq⟩
      · rwa [heq]
      · rw [heq, flags_reconnect]
        refine together_signalHandler .reconnect ?_
        rwa [(serves_serve cfg i _ fds hsome).flags_eq] }

theorem together_finish (h : w.flags.Together) : (finish cfg w).flags.Together := by
  obtain ⟨w', hw', -, heq⟩ := finish_cases cfg w
  rw [heq]
  exact hw'.flags_eq ▸ h

theorem together_atSelect (cfg : Config) (i : Input) (h : w.flags.Together) :
    (atSelect cfg w i).flags.Together :=
  together_signalHandler .maxfd (together_signalHandler .poll (together_signalHandler .head h))

/-- An iteration that goes on behind `select` is that of a running server. -/
theorem running_of_selects (h : w.flags.Together) (hselects : selects w i) :
    i.signal .head = false ∧ w.flags.server_state = .running := by
  obtain ⟨-, hrunning, -⟩ := hselects
  exact (running_signalHandler_iff i .head w).mp ((together_signalHandler .head h).mpr hrunning)

/-- When a command is processed the server has stopped if a signal has come since the head of the
loop. -/
theorem commandFlags_stopped_iff (h : w.flags.Together) (hselects : selects w i) :
    (commandFlags cfg w i).server_state = .stopped ↔
      (i.signal .poll || i.signal .maxfd || i.signal .command) = true := by
  obtain ⟨hhead, hrunning⟩ := running_of_selects h hselects
  have hnot : (commandFlags cfg w i).server_state = .running ↔
      i.signal .command = false ∧ i.signal .maxfd = false ∧ i.signal .poll = false := by
    have hselect : (atSelect cfg w i).flags.server_state = .running ↔ i.signal .maxfd = false ∧
        (signalHandler i .poll (signalHandler i .head w)).flags.server_state = .running :=
      running_signalHandler_iff i .maxfd _
    rw [commandFlags, running_signalHandler_iff, hselect, running_signalHandler_iff,
      running_signalHandler_iff]
    simp [hhead, hrunning]
  cases hstate : (commandFlags cfg w i).server_state with
  | running =>
    obtain ⟨hcommand, hmaxfd, hpoll⟩ := hnot.mp hstate
    simp [hcommand, hmaxfd, hpoll]
  | stopped =>
    simp only [hstate] at hnot
    cases hcommand : i.signal .command <;> cases hmaxfd : i.signal .maxfd <;>
      cases hpoll : i.signal .poll <;> simp [hcommand, hmaxfd, hpoll] at hnot ⊢

/-- The command block keeps the flags together if it does not start a server that has stopped. -/
theorem together_commanded (h : w.flags.Together) (hselects : selects w i)
    (hcommand : NotRestarted cfg w i) : (commanded cfg w i).flags.Together := by
  have hselect := together_atSelect cfg i h
  rw [commanded]
  rcases commands_cases cfg i (ready cfg w i) (atSelect cfg w i) with
    ⟨-, heq⟩ | ⟨h0, buf, s, hfgets, heq⟩ | ⟨-, s, -, heq⟩ | ⟨-, -, heq⟩
  · rwa [heq]
  · have hreads : reads w i := ⟨hselects, (zero_mem_ready_iff cfg hselects).mp h0⟩
    rw [stdin_atSelect] at hfgets
    have hflags : (processText cfg i buf { atSelect cfg w i with stdin := s }).flags =
        nextFlags (commandOf (cString buf)) (commandFlags cfg w i) := by
      rw [commandFlags, ← flags_processJson cfg w.mb_mapping, signalHandler_eq, processText,
        signalHandler_eq]
      dsimp only
      rw [mb_mapping_atSelect]
    rw [heq, hflags]
    exact (together_signalHandler .command hselect).nextFlags (hcommand buf s hreads hfgets)
  · rw [heq]
    simp [endInput, Flags.Together]
  · rwa [heq]

end Flags

section Iterations

variable {cfg : Config} {w : Server} {i : TimedInput}

/-- No start is processed behind a signal. -/
theorem SignalTimely.command_iff (cfg : Config) (h : w.flags.Together) :
    ((i.signal .poll || i.signal .maxfd || i.signal .command) = true →
      reads w i.toInput → ∀ buf s, (atRead w i.toInput).fgets i.waiting = .line buf s →
      commandOf (cString buf) ≠ some (ascii "start")) ↔ NotRestarted cfg w i.toInput := by
  constructor
  · intro hcommand buf s hreads hfgets hstopped
    exact hcommand ((commandFlags_stopped_iff h hreads.1).mp hstopped) hreads buf s hfgets
  · intro hcommand hsignal hreads buf s hfgets
    exact hcommand buf s hreads hfgets ((commandFlags_stopped_iff h hreads.1).mpr hsignal)

/-- **A step** keeps the flags together if the signal is timely. -/
theorem SignalTimely.together_step (hi : SignalTimely cfg w i) (h : w.flags.Together) :
    (step cfg w i.toInput).flags.Together := by
  by_cases hselects : selects w i.toInput
  · rw [step_of_selects cfg hselects]
    exact (preservedBehind_together cfg i.toInput).afterSelect _
      (together_commanded h hselects ((SignalTimely.command_iff cfg h).mp hi.command))
  · rcases step_of_not_selects cfg hselects with heq | heq | heq | heq
    · rwa [heq]
    · rw [heq]
      exact together_finish (together_signalHandler .head h)
    · rw [heq]
      exact together_atSelect cfg i.toInput h
    · rw [heq]
      exact together_finish (together_atSelect cfg i.toInput h)

/-- Descriptors are served while `running` is true, up to the turn in which a signal comes. -/
theorem runningTurns_serving (h : w.flags.Together) (hcommand : NotRestarted cfg w i.toInput)
    (hserves : ServesReady cfg w i.toInput) :
    i.runningTurns (serving cfg w i.toInput).flags =
      if i.signal .reconnect then i.turns else maxTcpClients + 1 := by
  have hbehind := preservedBehind_together cfg i.toInput
  have htogether : (serving cfg w i.toInput).flags.Together :=
    hbehind.signal .connections _ (hbehind.stop _ (hbehind.startup _
      (together_commanded h hserves.1 hcommand)))
  rw [TimedInput.runningTurns, if_pos (htogether.mp hserves.2.2.2.1)]

/-- What is served once `running` is false are the requests that a signal leaves behind. -/
theorem served_iff (h : w.flags.Together) (hcommand : NotRestarted cfg w i.toInput)
    (hserves : ServesReady cfg w i.toInput) :
    (∀ mapping, .reply mapping ∉
      (serve cfg i.toInput (ready cfg w i.toInput) (serving cfg w i.toInput)).trace.drop
        (behindTurns cfg i.toInput (ready cfg w i.toInput)
          (i.runningTurns (serving cfg w i.toInput).flags)
          (accepted cfg w i.toInput)).trace.length) ↔
      (i.signal .reconnect = true → ¬RequestLeft cfg i.toInput (ready cfg w i.toInput) i.turns
        (accepted cfg w i.toInput)) := by
  rw [runningTurns_serving h hcommand hserves, serve, ← accepted,
    (replies_behindTurns cfg i.toInput _ _ _).drop_iff]
  cases hsignal : i.signal .reconnect with
  | true => simp
  | false =>
    simp only [Bool.false_eq_true, if_false, false_implies, iff_true]
    rintro (⟨-, k, hk, -⟩ | ⟨hle, -⟩)
    · omega
    · omega

/-- **A shutdown is final** in exactly the iterations in which the signal is timely. -/
theorem finalIteration_iff (h : w.flags.Together) :
    FinalIteration cfg w i ↔ SignalTimely cfg w i := by
  have hcommandFlags := together_signalHandler (i := i.toInput) .command
    (together_atSelect cfg i.toInput h)
  rw [← commandFlags] at hcommandFlags
  have hstarting (buf : Bytes) := answersStarting_processJson_iff cfg w.mb_mapping
    (commandFlags cfg w i.toInput) (cString buf)
  constructor
  · intro hfinal
    have hcommand : NotRestarted cfg w i.toInput := by
      intro buf s hreads hfgets hstopped hstart
      have hanswer := (hstarting buf).mpr ⟨hstart, hstopped⟩
      simp [hfinal.starting hreads buf s hfgets (hcommandFlags.stopped_iff.mp hstopped)] at hanswer
    exact ⟨(SignalTimely.command_iff cfg h).mpr hcommand, fun hsignal hserves =>
      (served_iff h hcommand hserves).mp (hfinal.served hserves) hsignal⟩
  · intro htimely
    have hcommand := (SignalTimely.command_iff cfg h).mp htimely.command
    have hbehind := preservedBehind_together cfg i.toInput
    refine ⟨fun hreads buf s hfgets hrunning => ?_, fun hstarts => ?_, fun hserves => ?_,
      fun hrunning => ?_⟩
    · rw [← Bool.not_eq_true, hstarting buf]
      exact fun hanswer => hcommand buf s hreads hfgets hanswer.2 hanswer.1
    · exact (hbehind.signal .startup _ (together_commanded h hstarts.1 hcommand)).mp hstarts.2.2.1
    · exact (served_iff h hcommand hserves).mpr fun hsignal => htimely.serving hsignal hserves
    · exact (htimely.together_step h).stopped_iff.mpr hrunning

end Iterations

/-- **Shutdown is final** in the sessions in which no start comes behind a stop, and in the runs in
which every signal is timely. -/
theorem shutdown_iff (cfg : Config) (ahead : ℕ) (calls : List (Bytes × Option Mapping))
    (inputs : List TimedInput) :
    (Runs.StepsMeet commandStep FinalCommand { server_state := .running, running := true } calls ↔
      calls.Pairwise fun call call' => commandOf call.1 = some (ascii "stop") →
        commandOf call'.1 ≠ some (ascii "start")) ∧
    (Runs.StepsMeet (fun w i => step cfg w i.toInput) (FinalIteration cfg) (initial ahead) inputs ↔
      Runs.StepsMeet (fun w i => step cfg w i.toInput) (SignalTimely cfg) (initial ahead)
        inputs) := by
  constructor
  · rw [stepsMeet_finalCommand_iff (by simp [Flags.Together]), stepsMeet_notRestarts_iff]
  · exact Runs.stepsMeet_congr (P := fun w : Server => w.flags.Together)
      (by simp [initial, Flags.Together])
      (fun w i h hfinal => ((finalIteration_iff h).mp hfinal).together_step h)
      fun w i h => finalIteration_iff h

/-- A stop, and then a start. -/
def stopThenStart : List (Bytes × Option Mapping) :=
  [(ascii "\x7b\"cmd\":\"stop\"\x7d\n", none), (ascii "\x7b\"cmd\":\"start\"\x7d\n", none)]

/-- A start arrives, and a signal comes just before it is processed. -/
def signalThenStart : List TimedInput :=
  [{ beforeSelect := [{ bytes := ascii "\x7b\"cmd\":\"start\"\x7d\n" }]
     signal := fun p => p = .command }]

/-- Behind `stopThenStart` and `signalThenStart` the state is `STATE_RUNNING`, and `running` is
false. -/
theorem not_shutdown :
    (¬∀ calls : List (Bytes × Option Mapping), Runs.StepsMeet commandStep FinalCommand
      { server_state := .running, running := true } calls) ∧
    ¬∀ (cfg : Config) (ahead : ℕ) (inputs : List TimedInput),
      Runs.StepsMeet (fun w i => step cfg w i.toInput) (FinalIteration cfg) (initial ahead)
        inputs := by
  refine ⟨fun h => ?_, fun h => ?_⟩
  · have hstopped := (h stopThenStart).2.1.stopped (by decide +kernel)
    exact absurd hstopped (by decide +kernel)
  · have hstopped := (h {} 4095 signalThenStart).1.stopped (by decide +kernel)
    exact absurd hstopped (by decide +kernel)

end ModbusServer
