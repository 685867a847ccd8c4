import ModbusServer.Server.MainLoop

/-!
# The blocks of the loop body

What the blocks of an iteration leave as it is. Only two places touch the standard input: bytes
arrive before `select`, and the command block reads. No block behind the command block passes a
text on, sees the end of the input, or ends the program; and a request is answered only behind a
start-up that has left a table.

## Main definitions

* `ModbusServer.Keeps`, `ModbusServer.SameResources`, `ModbusServer.Serves`: what a block leaves as
  it is.
* `ModbusServer.Server.texts`: the texts passed to `process_json` so far.
* `ModbusServer.atSelect`, `ModbusServer.commanded`, `ModbusServer.atRead`: the state when `select`
  returns, the state behind the command block, and the input when it is read.
* `ModbusServer.selects`, `ModbusServer.reads`: the iterations that go on behind `select`, and that
  read from the standard input.

## Main results

* `ModbusServer.step_of_selects`, `ModbusServer.step_of_not_selects`: the ways through an iteration.
* `ModbusServer.Preserved.step`: an iteration preserves what its blocks preserve.
* `ModbusServer.keeps_afterSelect`: what happens behind the command block.
* `ModbusServer.reading_step`: what an iteration does with the standard input.
-/

namespace ModbusServer

open CText

/-! ### Events -/

/-- The events behind the command block: none of them is about the standard input, and requests are
answered with a table. -/
def Event.behindCommands : Event → Bool
  | .startup | .newRtu | .receive _ | .reply true => true
  | .processJson _ | .nullDereference | .endOfInput | .reply false => false

/-- The text that an event passes to `process_json`. -/
def Event.text? : Event → Option Bytes
  | .processJson text => some text
  | _ => none

/-- The texts passed to `process_json` so far. -/
def Server.texts (w : Server) : List Bytes := w.trace.filterMap Event.text?

/-- What the blocks behind the command block leave as it is. -/
structure Keeps (w w' : Server) : Prop where
  stdin_eq : w'.stdin = w.stdin
  status_eq : w'.status = w.status
  overruns_eq : w'.overruns = w.overruns
  exists_trace : ∃ es, w'.trace = w.trace ++ es ∧ ∀ e ∈ es, e.behindCommands = true

/-- What the clean-up leaves as it is. -/
structure Releases (w w' : Server) : Prop where
  flags_eq : w'.flags = w.flags
  stdin_eq : w'.stdin = w.stdin
  trace_eq : w'.trace = w.trace
  status_eq : w'.status = w.status
  overruns_eq : w'.overruns = w.overruns

/-- What signals and the command block leave as it is: the resources, and whether there is a
table. -/
structure SameResources (w w' : Server) : Prop where
  isSome_mapping : w'.mb_mapping.isSome = w.mb_mapping.isSome
  os_eq : w'.os = w.os
  ctx_tcp_eq : w'.ctx_tcp = w.ctx_tcp
  ctx_rtu_eq : w'.ctx_rtu = w.ctx_rtu
  listen_eq : w'.tcp_listen_sock = w.tcp_listen_sock
  socks_eq : w'.tcp_conn_socks = w.tcp_conn_socks
  count_eq : w'.tcp_conn_count = w.tcp_conn_count

/-- The blocks that serve descriptors also leave the flags as they are and the table in place. -/
structure Serves (w w' : Server) : Prop extends Keeps w w' where
  flags_eq : w'.flags = w.flags
  mapping : w'.mb_mapping.isSome = true

section Keeps

variable {w w' w'' : Server}

theorem Keeps.of_eq (hstdin : w'.stdin = w.stdin) (hstatus : w'.status = w.status)
    (hoverruns : w'.overruns = w.overruns) (htrace : w'.trace = w.trace) : Keeps w w' :=
  ⟨hstdin, hstatus, hoverruns, [], by simpa using htrace, by simp⟩

theorem Keeps.refl (w : Server) : Keeps w w := .of_eq rfl rfl rfl rfl

theorem Keeps.trans (h : Keeps w w') (h' : Keeps w' w'') : Keeps w w'' := by
  obtain ⟨es, htrace, hes⟩ := h.exists_trace
  obtain ⟨es', htrace', hes'⟩ := h'.exists_trace
  refine ⟨h'.stdin_eq.trans h.stdin_eq, h'.status_eq.trans h.status_eq,
    h'.overruns_eq.trans h.overruns_eq, es ++ es', ?_, ?_⟩
  · rw [htrace', htrace, List.append_assoc]
  · intro e he
    rcases List.mem_append.mp he with he | he
    · exact hes e he
    · exact hes' e he

theorem Releases.refl (w : Server) : Releases w w := ⟨rfl, rfl, rfl, rfl, rfl⟩

theorem Releases.trans (h : Releases w w') (h' : Releases w' w'') : Releases w w'' :=
  ⟨h'.flags_eq.trans h.flags_eq, h'.stdin_eq.trans h.stdin_eq, h'.trace_eq.trans h.trace_eq,
    h'.status_eq.trans h.status_eq, h'.overruns_eq.trans h.overruns_eq⟩

theorem Releases.keeps (h : Releases w w') : Keeps w w' :=
  .of_eq h.stdin_eq h.status_eq h.overruns_eq h.trace_eq

theorem SameResources.refl (w : Server) : SameResources w w := ⟨rfl, rfl, rfl, rfl, rfl, rfl, rfl⟩

theorem SameResources.trans (h : SameResources w w') (h' : SameResources w' w'') :
    SameResources w w'' where
  isSome_mapping := h'.isSome_mapping.trans h.isSome_mapping
  os_eq := h'.os_eq.trans h.os_eq
  ctx_tcp_eq := h'.ctx_tcp_eq.trans h.ctx_tcp_eq
  ctx_rtu_eq := h'.ctx_rtu_eq.trans h.ctx_rtu_eq
  listen_eq := h'.listen_eq.trans h.listen_eq
  socks_eq := h'.socks_eq.trans h.socks_eq
  count_eq := h'.count_eq.trans h.count_eq

theorem Serves.trans (h : Serves w w') (h' : Serves w' w'') : Serves w w'' :=
  ⟨h.toKeeps.trans h'.toKeeps, h'.flags_eq.trans h.flags_eq, h'.mapping⟩

/-- A loop over the slots, in the list of the states behind its passes. -/
theorem Serves.foldl {body : Server → Fin maxTcpClients → Server}
    (hbody : ∀ w k, w.mb_mapping.isSome = true → Serves w (body w k))
    (h : w.mb_mapping.isSome = true) (ks : List (Fin maxTcpClients)) :
    Serves w (ks.foldl body w) :=
  Runs.run_induction (P := Serves w) ⟨.refl w, rfl, h⟩
    (fun w' k hw' => hw'.trans (hbody w' k hw'.mapping)) ks

end Keeps

/-! ### Signals -/

section Signals

variable (i : Input) (p : Point) (w : Server)

theorem signalHandler_eq : signalHandler i p w =
    { w with flags := if i.signal p then ⟨.stopped, false⟩ else w.flags } := by
  rw [signalHandler]
  split <;> rfl

theorem keeps_signalHandler : Keeps w (signalHandler i p w) := by
  rw [signalHandler_eq]
  exact .of_eq rfl rfl rfl rfl

theorem sameResources_signalHandler : SameResources w (signalHandler i p w) := by
  rw [signalHandler_eq]
  exact ⟨rfl, rfl, rfl, rfl, rfl, rfl, rfl⟩

@[simp] theorem stdin_signalHandler : (signalHandler i p w).stdin = w.stdin :=
  (keeps_signalHandler i p w).stdin_eq

@[simp] theorem status_signalHandler : (signalHandler i p w).status = w.status :=
  (keeps_signalHandler i p w).status_eq

@[simp] theorem trace_signalHandler : (signalHandler i p w).trace = w.trace := by
  rw [signalHandler_eq]

@[simp] theorem overruns_signalHandler : (signalHandler i p w).overruns = w.overruns :=
  (keeps_signalHandler i p w).overruns_eq

@[simp] theorem mb_mapping_signalHandler :
    (signalHandler i p w).mb_mapping = w.mb_mapping := by
  rw [signalHandler_eq]

@[simp] theorem ctx_rtu_signalHandler : (signalHandler i p w).ctx_rtu = w.ctx_rtu := by
  rw [signalHandler_eq]

/-- A signal never starts the server. -/
theorem running_signalHandler_iff :
    (signalHandler i p w).flags.server_state = .running ↔
      i.signal p = false ∧ w.flags.server_state = .running := by
  rw [signalHandler_eq]
  cases i.signal p <;> simp

variable (fds : Finset ℤ)

theorem sameResources_watch : SameResources w (w.watch fds) :=
  ⟨rfl, rfl, rfl, rfl, rfl, rfl, rfl⟩

@[simp] theorem stdin_watch : (w.watch fds).stdin = w.stdin := rfl

@[simp] theorem status_watch : (w.watch fds).status = w.status := rfl

@[simp] theorem trace_watch : (w.watch fds).trace = w.trace := rfl

@[simp] theorem stdout_watch : (w.watch fds).stdout = w.stdout := rfl

@[simp] theorem flags_watch : (w.watch fds).flags = w.flags := rfl

@[simp] theorem mb_mapping_watch : (w.watch fds).mb_mapping = w.mb_mapping := rfl

end Signals

/-! ### Start-up and stop -/

section Blocks

variable (cfg : Config) (i : Input) (w : Server)

/-- TCP is not used, its context is not created, it does not listen, or it is up. -/
theorem startTcp_cases :
    (cfg.enable_tcp = false ∧ startTcp cfg i w = (w, true)) ∨
    (cfg.enable_tcp = true ∧ i.newTcp = false ∧
      startTcp cfg i w = ({ w with ctx_tcp := none }, false)) ∨
    (cfg.enable_tcp = true ∧ i.newTcp = true ∧
      (∀ fd, i.listen = some fd → ¬(2 < fd ∧ fd ∉ w.os.descriptors)) ∧
      startTcp cfg i w =
        ({ w with
          ctx_tcp := some { id := w.os.nextContext }
          tcp_listen_sock := -1
          os := (w.os.newContext true).2 }, false)) ∨
    (cfg.enable_tcp = true ∧ i.newTcp = true ∧
      ∃ fd, (i.listen = some fd ∧ 2 < fd ∧ fd ∉ w.os.descriptors) ∧
      startTcp cfg i w =
        ({ w with
          ctx_tcp := some { id := w.os.nextContext }
          tcp_listen_sock := fd
          tcp_conn_socks := fun _ => -1
          tcp_conn_count := 0
          os := { (w.os.newContext true).2 with
            descriptors := insert fd w.os.descriptors } }, true)) := by
  rw [startTcp]
  cases henable : cfg.enable_tcp with
  | false => exact .inl ⟨rfl, rfl⟩
  | true =>
    right
    cases hnew : i.newTcp with
    | false => exact .inl ⟨rfl, rfl, rfl⟩
    | true =>
      right
      rcases (w.os.newContext true).2.openDescriptor_cases i.listen with
        ⟨hno, hopen⟩ | ⟨fd, hfd, hopen⟩
      · refine .inl ⟨rfl, rfl, hno, ?_⟩
        simp only [Os.newContext, if_true] at hopen ⊢
        simp only [hopen, if_true]
      · refine .inr ⟨rfl, rfl, fd, hfd, ?_⟩
        have hne : fd ≠ -1 := by omega
        simp only [Os.newContext, if_true] at hopen ⊢
        simp only [hopen, hne, if_false]

theorem keeps_startTcp : Keeps w (startTcp cfg i w).1 := by
  rcases startTcp_cases cfg i w with ⟨-, heq⟩ | ⟨-, -, heq⟩ | ⟨-, -, -, heq⟩ | ⟨-, -, fd, -, heq⟩
  all_goals
    rw [heq]
    exact .of_eq rfl rfl rfl rfl

/-- The RTU link is not created, or not connected, or it is up. -/
theorem openRtu_cases (new fcntl : Bool) (offer : Option ℤ) :
    (new = false ∧ openRtu new fcntl offer w =
      ({ w with ctx_rtu := none, trace := w.trace ++ [.newRtu] }, false)) ∨
    (new = true ∧ (∀ fd, offer = some fd → ¬(2 < fd ∧ fd ∉ w.os.descriptors)) ∧
      openRtu new fcntl offer w =
        ({ w with
          ctx_rtu := none
          os := (w.os.newContext true).2.modbusFree (some { id := w.os.nextContext })
          trace := w.trace ++ [.newRtu] }, false)) ∨
    (new = true ∧ ∃ fd, (offer = some fd ∧ 2 < fd ∧ fd ∉ w.os.descriptors) ∧
      openRtu new fcntl offer w =
        ({ w with
          ctx_rtu := some { id := w.os.nextContext, s := fd }
          os := { (w.os.newContext true).2 with descriptors := insert fd w.os.descriptors }
          trace := w.trace ++ [.newRtu] }, true)) := by
  cases new with
  | false => exact .inl ⟨rfl, rfl⟩
  | true =>
    right
    rcases (w.os.newContext true).2.openDescriptor_cases offer with
      ⟨hno, hopen⟩ | ⟨fd, hfd, hopen⟩
    · refine .inl ⟨rfl, hno, ?_⟩
      simp only [openRtu, connectRtu, Os.newContext, if_true] at hopen ⊢
      simp only [ne_eq, not_true_eq_false, if_false, hopen, if_true]
    · refine .inr ⟨rfl, fd, hfd, ?_⟩
      have hne : fd ≠ -1 := by omega
      simp only [openRtu, connectRtu, Os.newContext, if_true] at hopen ⊢
      simp only [ne_eq, not_true_eq_false, if_false, hopen, hne]

theorem keeps_openRtu (new fcntl : Bool) (offer : Option ℤ) :
    Keeps w (openRtu new fcntl offer w).1 := by
  rcases openRtu_cases w new fcntl offer with ⟨-, heq⟩ | ⟨-, -, heq⟩ | ⟨-, fd, -, heq⟩
  all_goals
    rw [heq]
    exact ⟨rfl, rfl, rfl, [.newRtu], rfl, by simp [Event.behindCommands]⟩

theorem keeps_startRtu : Keeps w (startRtu cfg i w).1 := by
  rw [startRtu]
  split_ifs
  · exact keeps_openRtu w _ _ _
  · exact .refl w

theorem keeps_startMapping : Keeps w (startMapping cfg i w).1 := by
  rw [startMapping]
  split_ifs
  · exact .of_eq rfl rfl rfl rfl
  · exact .refl w

theorem mb_mapping_startTcp : (startTcp cfg i w).1.mb_mapping = w.mb_mapping := by
  rcases startTcp_cases cfg i w with ⟨-, heq⟩ | ⟨-, -, heq⟩ | ⟨-, -, -, heq⟩ | ⟨-, -, fd, -, heq⟩
  all_goals rw [heq]

theorem mb_mapping_openRtu (new fcntl : Bool) (offer : Option ℤ) :
    (openRtu new fcntl offer w).1.mb_mapping = w.mb_mapping := by
  rcases openRtu_cases w new fcntl offer with ⟨-, heq⟩ | ⟨-, -, heq⟩ | ⟨-, fd, -, heq⟩
  all_goals rw [heq]

theorem trace_openRtu (new fcntl : Bool) (offer : Option ℤ) :
    (openRtu new fcntl offer w).1.trace = w.trace ++ [.newRtu] := by
  rcases openRtu_cases w new fcntl offer with ⟨-, heq⟩ | ⟨-, -, heq⟩ | ⟨-, fd, -, heq⟩
  all_goals rw [heq]

theorem mb_mapping_startRtu : (startRtu cfg i w).1.mb_mapping = w.mb_mapping := by
  rw [startRtu]
  split_ifs
  · exact mb_mapping_openRtu w _ _ _
  · rfl

theorem orContinue_cases (r : Server × Bool) (next : Server → Server × Bool) :
    (r.2 = false ∧ orContinue r next = r) ∨ (r.2 = true ∧ orContinue r next = next r.1) := by
  rw [orContinue]
  cases hr : r.2 with
  | false => exact .inl ⟨rfl, by simp⟩
  | true => exact .inr ⟨rfl, by simp⟩

/-- The start-up block ends with one of its parts. -/
theorem startParts_cases :
    ((startTcp cfg i w).2 = false ∧ startParts cfg i w = startTcp cfg i w) ∨
    ((startTcp cfg i w).2 = true ∧ (startRtu cfg i (startTcp cfg i w).1).2 = false ∧
      startParts cfg i w = startRtu cfg i (startTcp cfg i w).1) ∨
    ((startTcp cfg i w).2 = true ∧ (startRtu cfg i (startTcp cfg i w).1).2 = true ∧
      startParts cfg i w = startMapping cfg i (startRtu cfg i (startTcp cfg i w).1).1) := by
  rcases orContinue_cases (startTcp cfg i w) fun w =>
    orContinue (startRtu cfg i w) (startMapping cfg i) with ⟨htcp, heq⟩ | ⟨htcp, heq⟩
  · exact .inl ⟨htcp, heq⟩
  · rcases orContinue_cases (startRtu cfg i (startTcp cfg i w).1) (startMapping cfg i) with
      ⟨hrtu, heq'⟩ | ⟨hrtu, heq'⟩
    · exact .inr (.inl ⟨htcp, hrtu, heq.trans heq'⟩)
    · exact .inr (.inr ⟨htcp, hrtu, heq.trans heq'⟩)

theorem keeps_startParts : Keeps w (startParts cfg i w).1 := by
  have htcp := keeps_startTcp cfg i w
  have hrtu := htcp.trans (keeps_startRtu cfg i (startTcp cfg i w).1)
  rcases startParts_cases cfg i w with ⟨-, heq⟩ | ⟨-, -, heq⟩ | ⟨-, -, heq⟩
  · rw [heq]
    exact htcp
  · rw [heq]
    exact hrtu
  · rw [heq]
    exact hrtu.trans (keeps_startMapping cfg i _)

theorem flags_openRtu (new fcntl : Bool) (offer : Option ℤ) :
    (openRtu new fcntl offer w).1.flags = w.flags := by
  rcases openRtu_cases w new fcntl offer with ⟨-, heq⟩ | ⟨-, -, heq⟩ | ⟨-, fd, -, heq⟩
  all_goals rw [heq]

theorem flags_startTcp : (startTcp cfg i w).1.flags = w.flags := by
  rcases startTcp_cases cfg i w with ⟨-, heq⟩ | ⟨-, -, heq⟩ | ⟨-, -, -, heq⟩ | ⟨-, -, fd, -, heq⟩
  all_goals rw [heq]

theorem flags_startRtu : (startRtu cfg i w).1.flags = w.flags := by
  rw [startRtu]
  split_ifs
  · exact flags_openRtu w _ _ _
  · rfl

/-- The start-up block does not change the flags. -/
theorem flags_startParts : (startParts cfg i w).1.flags = w.flags := by
  have hmapping (w : Server) : (startMapping cfg i w).1.flags = w.flags := by
    rw [startMapping]
    split_ifs <;> rfl
  rcases startParts_cases cfg i w with ⟨-, heq⟩ | ⟨-, -, heq⟩ | ⟨-, -, heq⟩
  · rw [heq, flags_startTcp]
  · rw [heq, flags_startRtu, flags_startTcp]
  · rw [heq, hmapping, flags_startRtu, flags_startTcp]

/-- The start-up block leaves a table or ends in a `continue`. -/
theorem isSome_startParts (h : w.mb_mapping = none) :
    (startParts cfg i w).1.mb_mapping.isSome = (startParts cfg i w).2 := by
  have htcp : (startTcp cfg i w).1.mb_mapping = none := by rw [mb_mapping_startTcp, h]
  have hrtu : (startRtu cfg i (startTcp cfg i w).1).1.mb_mapping = none := by
    rw [mb_mapping_startRtu, htcp]
  rcases startParts_cases cfg i w with ⟨hfalse, heq⟩ | ⟨-, hfalse, heq⟩ | ⟨-, -, heq⟩
  · rw [heq, htcp, hfalse, Option.isSome_none]
  · rw [heq, hrtu, hfalse, Option.isSome_none]
  · rw [heq, startMapping]
    split_ifs
    · rfl
    · rw [hrtu, Option.isSome_none]

/-- The start-up block is skipped, or there is no table when it is entered. -/
theorem startup_cases :
    (¬((signalHandler i .startup w).flags.server_state = .running ∧ w.mb_mapping = none) ∧
      startup cfg i w = (signalHandler i .startup w, true)) ∨
    (((signalHandler i .startup w).flags.server_state = .running ∧ w.mb_mapping = none) ∧
      startup cfg i w = startParts cfg i { signalHandler i .startup w with
        trace := (signalHandler i .startup w).trace ++ [.startup] }) := by
  rw [startup]
  split_ifs with hstart
  · exact .inr ⟨by simpa using hstart, rfl⟩
  · exact .inl ⟨by simpa using hstart, rfl⟩

theorem keeps_startup : Keeps w (startup cfg i w).1 := by
  have hsignal := keeps_signalHandler i .startup w
  rcases startup_cases cfg i w with ⟨-, heq⟩ | ⟨-, heq⟩
  · rw [heq]
    exact hsignal
  · rw [heq]
    refine (hsignal.trans ?_).trans (keeps_startParts cfg i _)
    exact ⟨rfl, rfl, rfl, [.startup], rfl, by simp [Event.behindCommands]⟩

/-- Behind a start-up block that did not end in a `continue` there is a table, or the server is not
running. -/
theorem isSome_startup (h : (startup cfg i w).2 = true)
    (hrunning : (startup cfg i w).1.flags.server_state = .running) :
    (startup cfg i w).1.mb_mapping.isSome = true := by
  rcases startup_cases cfg i w with ⟨hskip, heq⟩ | ⟨hstart, heq⟩
  · rw [heq] at hrunning ⊢
    rw [mb_mapping_signalHandler, Option.isSome_iff_ne_none]
    exact fun hnone => hskip ⟨hrunning, hnone⟩
  · rw [heq] at h ⊢
    rw [isSome_startParts _ _ _ (by simpa using hstart.2), h]

/-- A start-up block that ends in a `continue` leaves no table. -/
theorem mb_mapping_startup_of_continue (h : (startup cfg i w).2 = false) :
    (startup cfg i w).1.mb_mapping = none := by
  rcases startup_cases cfg i w with ⟨-, heq⟩ | ⟨hstart, heq⟩
  · rw [heq] at h
    simp at h
  · rw [heq] at h ⊢
    rw [← Option.not_isSome_iff_eq_none, isSome_startParts _ _ _ (by simpa using hstart.2), h]
    simp

/-! ### Cleaning up -/

theorem releases_closeClient (k : Fin maxTcpClients) : Releases w (closeClient w k) := by
  rw [closeClient]
  split_ifs
  · exact ⟨rfl, rfl, rfl, rfl, rfl⟩
  · exact .refl w

theorem releases_releaseTcp : Releases w (releaseTcp w) := by
  have hclients : Releases w (slots.foldl closeClient w) :=
    Runs.run_induction (P := Releases w) (.refl w)
      (fun w' k hw' => hw'.trans (releases_closeClient w' k)) slots
  exact hclients.trans ⟨rfl, rfl, rfl, rfl, rfl⟩

theorem releases_release : Releases w (release cfg w) := by
  rw [release]
  have htcp : Releases w (if cfg.enable_tcp then releaseTcp w else w) := by
    split_ifs
    · exact releases_releaseTcp w
    · exact .refl w
  refine htcp.trans ?_
  split_ifs
  · exact ⟨rfl, rfl, rfl, rfl, rfl⟩
  · exact ⟨rfl, rfl, rfl, rfl, rfl⟩
  · exact ⟨rfl, rfl, rfl, rfl, rfl⟩
  · exact ⟨rfl, rfl, rfl, rfl, rfl⟩

theorem mb_mapping_release : (release cfg w).mb_mapping = none := rfl

theorem keeps_stopServer : Keeps w (stopServer cfg i w) := by
  rw [stopServer]
  have hsignal := keeps_signalHandler i .stop w
  split_ifs
  · exact (hsignal.trans (releases_release cfg _).keeps).trans (.of_eq rfl rfl rfl rfl)
  · exact hsignal

/-- The stop block does not touch a server that runs on. -/
theorem stopServer_of_running (h : (stopServer cfg i w).flags.server_state = .running) :
    i.signal .stop = false ∧ w.flags.server_state = .running ∧ stopServer cfg i w = w := by
  rw [stopServer] at h ⊢
  split_ifs at h ⊢ with hstop
  · have hflags := (releases_release cfg (signalHandler i .stop w)).flags_eq
    simp [hflags, hstop.1] at h
  · obtain ⟨hsignal, hrunning⟩ := (running_signalHandler_iff i .stop w).mp h
    refine ⟨hsignal, hrunning, ?_⟩
    rw [signalHandler, if_neg (by simp [hsignal])]

/-- Behind the start-up and the stop block a running server has a table. -/
theorem isSome_of_running {w₁ : Server} (h : startup cfg i w = (w₁, true))
    (hrunning : (stopServer cfg i w₁).flags.server_state = .running) :
    (stopServer cfg i w₁).mb_mapping.isSome = true := by
  obtain ⟨-, hrunning₁, hstop⟩ := stopServer_of_running cfg i w₁ hrunning
  have hsome := isSome_startup cfg i w
  rw [h] at hsome
  rw [hstop]
  exact hsome rfl hrunning₁

theorem finish_cases : ∃ w', Releases w w' ∧ w'.mb_mapping = none ∧
    finish cfg w = { w' with
      stdout := w'.stdout ++ [ascii "\x7b\"status\":\"exited\"\x7d\n"]
      status := .returned } := by
  cases hmapping : w.mb_mapping with
  | none => exact ⟨w, .refl w, hmapping, by simp [finish, hmapping]⟩
  | some mb =>
    exact ⟨release cfg w, releases_release cfg w, rfl, by simp [finish, hmapping]⟩

theorem stdin_finish : (finish cfg w).stdin = w.stdin := by
  obtain ⟨w', hw', -, heq⟩ := finish_cases cfg w
  rw [heq]
  exact hw'.stdin_eq

theorem trace_finish : (finish cfg w).trace = w.trace := by
  obtain ⟨w', hw', -, heq⟩ := finish_cases cfg w
  rw [heq]
  exact hw'.trace_eq

/-! ### Serving -/

theorem serves_modbusTcpAccept (accept : Accept) (h : w.mb_mapping.isSome = true) :
    Serves w (modbusTcpAccept accept w).2 := by
  cases accept with
  | connection fd => exact ⟨.of_eq rfl rfl rfl rfl, rfl, h⟩
  | failed => exact ⟨.of_eq rfl rfl rfl rfl, rfl, h⟩
  | failedClosing => exact ⟨.of_eq rfl rfl rfl rfl, rfl, h⟩

theorem serves_acceptClient (fds : Finset ℤ) (h : w.mb_mapping.isSome = true) :
    Serves w (acceptClient cfg i fds w) := by
  have haccept := serves_modbusTcpAccept w i.accept h
  rw [acceptClient]
  split_ifs
  · split
    · dsimp only
      split_ifs
      · exact haccept.trans ⟨.of_eq rfl rfl rfl rfl, rfl, haccept.mapping⟩
      · exact haccept
    · dsimp only
      split_ifs
      · exact haccept.trans ⟨.of_eq rfl rfl rfl rfl, rfl, haccept.mapping⟩
      · exact haccept
  · exact ⟨.refl w, rfl, h⟩

theorem serves_modbusReply (r : Receive) (h : w.mb_mapping.isSome = true) :
    Serves w (modbusReply r w) := by
  refine ⟨⟨rfl, rfl, rfl, [.reply w.mb_mapping.isSome], rfl, ?_⟩, rfl,
    by simpa [modbusReply] using h⟩
  simp [h, Event.behindCommands]

theorem serves_receive (fd : ℤ) (ctx : Option Ctx) (h : w.mb_mapping.isSome = true) :
    Serves w { w with ctx_tcp := ctx, trace := w.trace ++ [.receive fd] } :=
  ⟨⟨rfl, rfl, rfl, [.receive fd], rfl, by simp [Event.behindCommands]⟩, rfl, h⟩

theorem serves_handleClient (fds : Finset ℤ) (k : Fin maxTcpClients)
    (h : w.mb_mapping.isSome = true) : Serves w (handleClient i fds w k) := by
  have hreceive := serves_receive w (w.tcp_conn_socks k)
    (w.ctx_tcp.map ({ · with s := w.tcp_conn_socks k })) h
  rw [handleClient]
  dsimp only
  split_ifs
  · exact hreceive.trans (serves_modbusReply _ (i.client k) h)
  · exact hreceive.trans ⟨.of_eq rfl rfl rfl rfl, rfl, h⟩
  · exact hreceive
  · exact ⟨.refl w, rfl, h⟩

theorem serves_handleClients (fds : Finset ℤ) (h : w.mb_mapping.isSome = true) :
    Serves w (handleClients cfg i fds w) := by
  rw [handleClients]
  split_ifs
  · exact .foldl (fun w' k => serves_handleClient i w' fds k) h slots
  · exact ⟨.refl w, rfl, h⟩

theorem serves_handleRtu (fds : Finset ℤ) (h : w.mb_mapping.isSome = true) :
    Serves w (handleRtu cfg i fds w) := by
  rw [handleRtu]
  split
  · exact ⟨.refl w, rfl, h⟩
  · next ctx hctx =>
    have hreceive := serves_receive w ctx.s w.ctx_tcp h
    split_ifs
    · exact hreceive.trans (serves_modbusReply _ i.rtu h)
    · exact hreceive.trans ⟨.of_eq rfl rfl rfl rfl, rfl, h⟩
    · exact hreceive
    · exact ⟨.refl w, rfl, h⟩

theorem serves_serve (fds : Finset ℤ) (h : w.mb_mapping.isSome = true) :
    Serves w (serve cfg i fds w) := by
  have haccept := serves_acceptClient cfg i w fds h
  have hclients := serves_handleClients cfg i _ fds haccept.mapping
  exact (haccept.trans hclients).trans (serves_handleRtu cfg i _ fds hclients.mapping)

theorem keeps_reconnect : Keeps w (reconnect cfg i w) := by
  have hsignal := keeps_signalHandler i .reconnect w
  rw [reconnect]
  split_ifs
  · exact hsignal.trans (keeps_openRtu _ _ _ _)
  · exact hsignal

theorem mb_mapping_reconnect : (reconnect cfg i w).mb_mapping = w.mb_mapping := by
  rw [reconnect]
  split_ifs
  · rw [mb_mapping_openRtu, mb_mapping_signalHandler]
  · rw [mb_mapping_signalHandler]

/-- The connections are not served, or they are served with a table. -/
theorem connections_ways (fds : Finset ℤ)
    (h : w.flags.server_state = .running → w.mb_mapping.isSome = true) :
    connections cfg i fds w = signalHandler i .connections w ∨
    ((signalHandler i .connections w).mb_mapping.isSome = true ∧
      connections cfg i fds w =
        reconnect cfg i (serve cfg i fds (signalHandler i .connections w))) := by
  rw [connections]
  split_ifs with hserve
  · obtain ⟨-, hrunning⟩ := (running_signalHandler_iff i .connections w).mp hserve.1
    exact .inr ⟨by simpa using h hrunning, rfl⟩
  · exact .inl rfl

theorem isSome_reconnect_serve (fds : Finset ℤ) (h : w.mb_mapping.isSome = true) :
    (reconnect cfg i (serve cfg i fds w)).mb_mapping.isSome = true := by
  rw [mb_mapping_reconnect]
  exact (serves_serve cfg i w fds h).mapping

theorem keeps_connections (fds : Finset ℤ)
    (h : w.flags.server_state = .running → w.mb_mapping.isSome = true) :
    Keeps w (connections cfg i fds w) := by
  have hsignal := keeps_signalHandler i .connections w
  rcases connections_ways cfg i w fds h with heq | ⟨hsome, heq⟩
  · rwa [heq]
  · rw [heq]
    exact (hsignal.trans (serves_serve cfg i _ fds hsome).toKeeps).trans (keeps_reconnect cfg i _)

/-- A table behind the stop block is that of a running server. -/
theorem running_of_isSome_stopServer (h : (stopServer cfg i w).mb_mapping.isSome = true) :
    (stopServer cfg i w).flags.server_state = .running := by
  rw [stopServer] at h ⊢
  split_ifs at h ⊢ with hstop
  · simp [mb_mapping_release] at h
  · cases hstate : (signalHandler i .stop w).flags.server_state with
    | running => rfl
    | stopped => exact absurd ⟨hstate, h⟩ hstop

end Blocks

/-! ### Commands -/

section Commands

variable {cfg : Config} {i : Input} {fds : Finset ℤ} {w : Server}

/-- The ways through the command block. -/
theorem commands_cases (cfg : Config) (i : Input) (fds : Finset ℤ) (w : Server) :
    (0 ∉ fds ∧ commands cfg i fds w = w) ∨
    (0 ∈ fds ∧ ∃ buf s,
      (i.afterSelect.foldl Stdin.arrive w.stdin).fgets i.waiting = .line buf s ∧
      commands cfg i fds w = processText cfg i buf { w with stdin := s }) ∨
    (0 ∈ fds ∧ ∃ s, (i.afterSelect.foldl Stdin.arrive w.stdin).fgets i.waiting = .eof s ∧
      commands cfg i fds w = endInput { w with stdin := s }) ∨
    (0 ∈ fds ∧ (i.afterSelect.foldl Stdin.arrive w.stdin).fgets i.waiting = .blocked ∧
      commands cfg i fds w = { w with status := .waiting }) := by
  rw [commands]
  split_ifs with h0
  · right
    split
    · next buf s hline => exact .inl ⟨h0, buf, s, hline, rfl⟩
    · next s heof => exact .inr (.inl ⟨h0, s, heof, rfl⟩)
    · next hblocked => exact .inr (.inr ⟨h0, hblocked, rfl⟩)
  · exact .inl ⟨h0, rfl⟩

@[simp] theorem stdin_processText (buf : Bytes) :
    (processText cfg i buf w).stdin = w.stdin := by
  simp [processText]

theorem trace_processText (buf : Bytes) : (processText cfg i buf w).trace =
    w.trace ++ .processJson (cString buf) ::
      if w.mb_mapping = none ∧ cfg.reachesTable (cString buf) = true then [.nullDereference]
      else [] := by
  simp [processText, nullDereference_mem_processJson_iff]

theorem status_processText (buf : Bytes) : (processText cfg i buf w).status = w.status ∨
    (processText cfg i buf w).status = .crashed := by
  simp only [processText, status_signalHandler]
  split_ifs
  · exact .inr rfl
  · exact .inl rfl

theorem sameResources_processText (cfg : Config) (i : Input) (buf : Bytes) (w : Server) :
    SameResources w (processText cfg i buf w) := by
  refine (sameResources_signalHandler i .command w).trans ?_
  exact ⟨Option.isSome_map .., rfl, rfl, rfl, rfl, rfl, rfl⟩

/-- The command block neither takes resources nor gives any back. -/
theorem sameResources_commands (cfg : Config) (i : Input) (fds : Finset ℤ) (w : Server) :
    SameResources w (commands cfg i fds w) := by
  rcases commands_cases cfg i fds w with ⟨-, heq⟩ | ⟨-, buf, s, -, heq⟩ | ⟨-, s, -, heq⟩ |
    ⟨-, -, heq⟩
  · rw [heq]
    exact .refl w
  · rw [heq]
    have hread : SameResources w { w with stdin := s } := ⟨rfl, rfl, rfl, rfl, rfl, rfl, rfl⟩
    exact hread.trans (sameResources_processText cfg i buf _)
  · rw [heq]
    exact ⟨rfl, rfl, rfl, rfl, rfl, rfl, rfl⟩
  · rw [heq]
    exact ⟨rfl, rfl, rfl, rfl, rfl, rfl, rfl⟩

/-- The command block does not end the program by returning from `main`. -/
theorem status_commands (cfg : Config) (i : Input) (fds : Finset ℤ) (w : Server) :
    (commands cfg i fds w).status = w.status ∨ (commands cfg i fds w).status = .crashed ∨
      (commands cfg i fds w).status = .waiting := by
  rcases commands_cases cfg i fds w with ⟨-, heq⟩ | ⟨-, buf, s, -, heq⟩ | ⟨-, s, -, heq⟩ |
    ⟨-, -, heq⟩
  · exact .inl (by rw [heq])
  · rw [heq]
    rcases status_processText buf with hstatus | hstatus
    · exact .inl hstatus
    · exact .inr (.inl hstatus)
  · exact .inl (by rw [heq]; rfl)
  · exact .inr (.inr (by rw [heq]))

/-- **Behind the command block** nothing is read, nothing is passed on, and requests are answered
with a table. -/
theorem keeps_afterSelect (cfg : Config) (i : Input) (fds : Finset ℤ) (w : Server) :
    Keeps (commands cfg i fds w) (afterSelect cfg i fds w) := by
  rw [afterSelect]
  split_ifs
  · have hstartup := keeps_startup cfg i (commands cfg i fds w)
    split
    · next w₁ h₁ => simpa [h₁] using hstartup
    · next w₁ h₁ =>
      have hw₁ : Keeps (commands cfg i fds w) w₁ := by simpa [h₁] using hstartup
      exact (hw₁.trans (keeps_stopServer cfg i w₁)).trans
        (keeps_connections cfg i _ fds (isSome_of_running cfg i _ h₁))
  · exact .refl _

end Commands

/-! ### Iterations -/

section Iterations

variable (cfg : Config) (w : Server) (i : Input)

/-- The state when `select` returns. -/
def atSelect : Server := (beforeSelect cfg i (signalHandler i .head w)).1

/-- The descriptors that `select` reports. -/
def ready : Finset ℤ :=
  match i.select with
  | .failed _ => ∅
  | .ready sockets =>
    let (w, fds, nfds) := beforeSelect cfg i (signalHandler i .head w)
    readyFds fds nfds sockets w.stdin

/-- The state behind the command block. -/
def commanded : Server := commands cfg i (ready cfg w i) (atSelect cfg w i)

/-- Does the iteration go on behind `select`? -/
def selects : Prop :=
  w.status = .atHead ∧ (signalHandler i .head w).flags.running = true ∧
    ∃ sockets, i.select = .ready sockets

@[simp] theorem stdin_atSelect :
    (atSelect cfg w i).stdin = i.beforeSelect.foldl Stdin.arrive w.stdin := by
  simp [atSelect, beforeSelect]

@[simp] theorem trace_atSelect : (atSelect cfg w i).trace = w.trace := by
  simp [atSelect, beforeSelect]

@[simp] theorem status_atSelect : (atSelect cfg w i).status = w.status := by
  simp [atSelect, beforeSelect]

@[simp] theorem mb_mapping_atSelect : (atSelect cfg w i).mb_mapping = w.mb_mapping := by
  simp [atSelect, beforeSelect]

theorem sameResources_atSelect : SameResources w (atSelect cfg w i) := by
  have hhead := sameResources_signalHandler i .head w
  have hpoll := hhead.trans (sameResources_signalHandler i .poll _)
  have hwatch := hpoll.trans (sameResources_watch _ (watched cfg (signalHandler i .poll
    (signalHandler i .head w))))
  refine (hwatch.trans (sameResources_signalHandler i .maxfd _)).trans ?_
  exact ⟨rfl, rfl, rfl, rfl, rfl, rfl, rfl⟩

theorem sameResources_commanded : SameResources w (commanded cfg w i) :=
  (sameResources_atSelect cfg w i).trans (sameResources_commands cfg i _ _)

variable {w i}

theorem step_of_selects (h : selects w i) :
    step cfg w i = afterSelect cfg i (ready cfg w i) (atSelect cfg w i) := by
  obtain ⟨hstatus, hrunning, sockets, hselect⟩ := h
  simp only [step, hstatus, iteration, hrunning, if_true, hselect, ready, atSelect]

/-- An iteration that does not go on behind `select` has ended before, ends in a `continue`, or ends
the loop. -/
theorem step_of_not_selects (h : ¬selects w i) : step cfg w i = w ∨
    step cfg w i = finish cfg (signalHandler i .head w) ∨
    step cfg w i = atSelect cfg w i ∨ step cfg w i = finish cfg (atSelect cfg w i) := by
  cases hstatus : w.status with
  | atHead =>
    simp only [step, hstatus, iteration]
    by_cases hrunning : (signalHandler i .head w).flags.running = true
    · simp only [hrunning, if_true]
      cases hselect : i.select with
      | failed eintr =>
        cases eintr
        · exact .inr (.inr (.inr rfl))
        · exact .inr (.inr (.inl rfl))
      | ready sockets => exact absurd ⟨hstatus, hrunning, sockets, hselect⟩ h
    · exact .inr (.inl (if_neg hrunning))
  | waiting => exact .inl (by rw [step, hstatus])
  | crashed => exact .inl (by rw [step, hstatus])
  | returned => exact .inl (by rw [step, hstatus])

end Iterations

/-- What the blocks behind the command block preserve. -/
structure PreservedBehind (cfg : Config) (i : Input) (P : Server → Prop) : Prop where
  signal : ∀ p w, P w → P (signalHandler i p w)
  startup : ∀ w, P w → P (startup cfg i w).1
  stop : ∀ w, P w → P (stopServer cfg i w)
  connections : ∀ fds w, P w →
    (w.flags.server_state = .running → w.mb_mapping.isSome = true) → P (connections cfg i fds w)

/-- What every block of an iteration preserves. -/
structure Preserved (cfg : Config) (i : Input) (P : Server → Prop) : Prop
    extends PreservedBehind cfg i P where
  stdin : ∀ s w, P w → P { w with stdin := s }
  watch : ∀ fds w, P w → P (w.watch fds)
  commands : ∀ fds w, P w → P (commands cfg i fds w)
  finish : ∀ w, P w → P (finish cfg w)

section Iterations

variable {cfg : Config} {w : Server} {i : Input} {P : Server → Prop}

theorem PreservedBehind.afterSelect (h : PreservedBehind cfg i P) (fds : Finset ℤ)
    (hw : P (commands cfg i fds w)) : P (afterSelect cfg i fds w) := by
  rw [ModbusServer.afterSelect]
  split_ifs
  · have hstartup := h.startup _ hw
    rcases hr : ModbusServer.startup cfg i (ModbusServer.commands cfg i fds w) with ⟨w₁, goesOn⟩
    rw [hr] at hstartup
    cases goesOn with
    | false => exact hstartup
    | true => exact h.connections _ _ (h.stop _ hstartup) (isSome_of_running cfg i _ hr)
  · exact hw

theorem Preserved.atSelect (h : Preserved cfg i P) (hw : P w) : P (atSelect cfg w i) :=
  h.stdin _ _ (h.signal .maxfd _ (h.watch _ _ (h.signal .poll _ (h.signal .head w hw))))

/-- **An iteration** preserves what all its blocks preserve. -/
theorem Preserved.step (h : Preserved cfg i P) (hw : P w) : P (step cfg w i) := by
  have hselect := h.atSelect hw
  by_cases hselects : selects w i
  · rw [step_of_selects cfg hselects]
    exact h.toPreservedBehind.afterSelect _ (h.commands _ _ hselect)
  · rcases step_of_not_selects cfg hselects with heq | heq | heq | heq
    · rwa [heq]
    · rw [heq]
      exact h.finish _ (h.signal .head w hw)
    · rwa [heq]
    · rw [heq]
      exact h.finish _ hselect

end Iterations

section Iterations

variable (cfg : Config) {w : Server} {i : Input}

theorem mem_fdSet {fds : Finset ℤ} {fd : ℤ} : fd ∈ fdSet fds ↔ fd ∈ fds ∧ fd < fdSetsize :=
  Finset.mem_filter

theorem zero_mem_polled (w : Server) : 0 ∈ polled cfg w := by
  refine mem_fdSet.mpr ⟨?_, by decide⟩
  rw [watched]
  by_cases hrunning : w.flags.server_state = .running
  · rw [if_pos hrunning]
    exact Finset.mem_insert_self 0 _
  · rw [if_neg hrunning]
    exact Finset.mem_singleton_self 0

theorem maxfd_nonneg (w : Server) : 0 ≤ maxfd cfg w := by
  have hclients : 0 ≤ slots.foldl (fun m k => max m (w.tcp_conn_socks k))
      (max 0 w.tcp_listen_sock) :=
    Runs.run_induction (P := fun m => (0 : ℤ) ≤ m) (le_max_left 0 _)
      (fun m k hm => le_max_of_le_left hm) slots
  have htcp : 0 ≤ if cfg.enable_tcp then slots.foldl (fun m k => max m (w.tcp_conn_socks k))
      (max 0 w.tcp_listen_sock) else 0 := by
    split_ifs
    · exact hclients
    · exact le_refl 0
  rw [maxfd]
  by_cases hrunning : w.flags.server_state = .running
  · rw [if_pos hrunning]
    dsimp only
    generalize (if cfg.enable_tcp then slots.foldl (fun m k => max m (w.tcp_conn_socks k))
      (max 0 w.tcp_listen_sock) else 0) = m at htcp ⊢
    cases w.ctx_rtu with
    | none => exact htcp
    | some ctx =>
      dsimp only
      split_ifs
      · exact le_max_of_le_left htcp
      · exact htcp
  · rw [if_neg hrunning]

theorem mem_readyFds {fds sockets : Finset ℤ} {nfds : ℤ} {stdin : Stdin} {fd : ℤ} :
    fd ∈ readyFds fds nfds sockets stdin ↔
      fd ∈ fds ∧ fd < nfds ∧ if fd = 0 then stdin.readable = true else fd ∈ sockets :=
  Finset.mem_filter

theorem zero_mem_ready_iff (h : selects w i) :
    0 ∈ ready cfg w i ↔ (i.beforeSelect.foldl Stdin.arrive w.stdin).readable = true := by
  obtain ⟨-, -, sockets, hselect⟩ := h
  have hpolled := zero_mem_polled cfg (signalHandler i .poll (signalHandler i .head w))
  have hmaxfd (w : Server) : 0 < maxfd cfg w + 1 := Int.lt_add_one_of_le (maxfd_nonneg cfg w)
  simp only [ready, hselect, mem_readyFds, if_true, ← stdin_atSelect cfg w i, atSelect,
    beforeSelect]
  exact ⟨fun h => h.2.2, fun h => ⟨hpolled, hmaxfd _, h⟩⟩

end Iterations

/-! ### The standard input in an iteration -/

/-- Does the iteration read from the standard input? -/
def reads (w : Server) (i : Input) : Prop :=
  selects w i ∧ (i.beforeSelect.foldl Stdin.arrive w.stdin).readable = true

/-- The standard input when it is read. -/
def atRead (w : Server) (i : Input) : Stdin :=
  i.afterSelect.foldl Stdin.arrive (i.beforeSelect.foldl Stdin.arrive w.stdin)

/-- What an iteration does with the standard input. -/
inductive Reading (cfg : Config) (w : Server) (i : Input) (w' : Server) : Prop
  | idle (h : ¬reads w i)
      (stdin_eq : w'.stdin = w.stdin ∨ w'.stdin = i.beforeSelect.foldl Stdin.arrive w.stdin)
      (trace : ∃ es, w'.trace = w.trace ++ es ∧ ∀ e ∈ es, e.behindCommands = true)
  | line (h : reads w i) (buf : Bytes) (s : Stdin)
      (fgets_eq : (atRead w i).fgets i.waiting = .line buf s) (stdin_eq : w'.stdin = s)
      (trace : ∃ es, w'.trace = w.trace ++ (.processJson (cString buf) ::
          if w.mb_mapping = none ∧ cfg.reachesTable (cString buf) = true then [.nullDereference]
          else []) ++ es ∧ ∀ e ∈ es, e.behindCommands = true)
  | eof (h : reads w i) (s : Stdin) (fgets_eq : (atRead w i).fgets i.waiting = .eof s)
      (stdin_eq : w'.stdin = s)
      (trace : ∃ es, w'.trace = w.trace ++ [.endOfInput] ++ es ∧
        ∀ e ∈ es, e.behindCommands = true)
  | blocked (h : reads w i) (fgets_eq : (atRead w i).fgets i.waiting = .blocked)
      (stdin_eq : w'.stdin = i.beforeSelect.foldl Stdin.arrive w.stdin)
      (trace : ∃ es, w'.trace = w.trace ++ es ∧ ∀ e ∈ es, e.behindCommands = true)

/-- **The standard input in an iteration.** -/
theorem reading_step (cfg : Config) (w : Server) (i : Input) :
    Reading cfg w i (step cfg w i) := by
  by_cases hselects : selects w i
  · have hready := zero_mem_ready_iff cfg hselects
    have hkeeps := keeps_afterSelect cfg i (ready cfg w i) (atSelect cfg w i)
    rw [step_of_selects cfg hselects]
    rcases commands_cases cfg i (ready cfg w i) (atSelect cfg w i) with
      ⟨h0, heq⟩ | ⟨h0, buf, s, hfgets, heq⟩ | ⟨h0, s, hfgets, heq⟩ | ⟨h0, hfgets, heq⟩
    · rw [heq] at hkeeps
      refine .idle (fun h => h0 (hready.mpr h.2)) (.inr ?_) ?_
      · simpa using hkeeps.stdin_eq
      · simpa using hkeeps.exists_trace
    · rw [heq] at hkeeps
      rw [stdin_atSelect] at hfgets
      refine .line ⟨hselects, hready.mp h0⟩ buf s hfgets ?_ ?_
      · simpa using hkeeps.stdin_eq
      · simpa [trace_processText] using hkeeps.exists_trace
    · rw [heq] at hkeeps
      rw [stdin_atSelect] at hfgets
      refine .eof ⟨hselects, hready.mp h0⟩ s hfgets ?_ ?_
      · exact hkeeps.stdin_eq
      · simpa [endInput] using hkeeps.exists_trace
    · rw [heq] at hkeeps
      rw [stdin_atSelect] at hfgets
      refine .blocked ⟨hselects, hready.mp h0⟩ hfgets ?_ ?_
      · simpa using hkeeps.stdin_eq
      · simpa using hkeeps.exists_trace
  · have hidle : ¬reads w i := fun h => hselects h.1
    rcases step_of_not_selects cfg hselects with heq | heq | heq | heq
    · exact .idle hidle (.inl (by rw [heq])) ⟨[], by simp [heq]⟩
    · exact .idle hidle (.inl (by simp [heq, stdin_finish])) ⟨[], by simp [heq, trace_finish]⟩
    · exact .idle hidle (.inr (by simp [heq])) ⟨[], by simp [heq]⟩
    · exact .idle hidle (.inr (by simp [heq, stdin_finish])) ⟨[], by simp [heq, trace_finish]⟩

end ModbusServer
