import ModbusServer.Command.Answers
import ModbusServer.Command.ReplyLines
import ModbusServer.Config.Loader
import ModbusServer.Server.Blocks

/-!
# The messages of the life cycle

`server_ready` is printed when a start-up leaves a table of registers, `server_stopped` when the
stop block releases it, and `exited` at the end of `main`. In between, the table tells which message
comes next. The clean-up behind the loop releases a table as well, and prints nothing about it, and
a configuration that cannot be loaded ends the program before the loop.

A message is a line of `stdout` with its status. Everything that is printed ends with a line break,
so the lines are those of the texts; only the datatype that is echoed behind an update can bring a
line of its own, and with it a message that is none of the life cycle. In the runs without such a
line, the messages are balanced exactly if the configuration is loaded and the loop is left without
a table.

Source: `json-modbus-server.c`, lines 155–161, 184–257 and 425–688.

## Main definitions

* `ModbusServer.Balanced`: each `server_ready` has its `server_stopped`, and `exited` is the last.
* `ModbusServer.Phase.next`: the messages that can follow each other.
* `ModbusServer.message?`, `ModbusServer.stdoutLines`: the messages on the lines of `stdout`.
* `ModbusServer.mainRun`: a run of `main`, from the configuration on.
* `ModbusServer.ForgesMessage`: the iterations that echo a line with a message.
* `ModbusServer.LeavesWithTable`: the iterations that leave the loop while there is a table.

## Main results

* `ModbusServer.balanced_iff`: the balanced lists of messages are those that lead to the end.
* `ModbusServer.silent_of_mem_processJson`: the answers to commands have no messages.
* `ModbusServer.lifecycle_iff`: the runs with balanced messages.
* `ModbusServer.not_lifecycleBalanced`: not all runs are of this kind.
-/

namespace ModbusServer

open CText

/-! ### Messages -/

/-- The messages `server_ready`, `server_stopped` and `exited`. -/
inductive Message
  | ready
  | stopped
  | exited
  deriving DecidableEq

/-- Each `ready` is followed by one `stopped`, and `exited` comes at the end. -/
inductive Balanced : List Message → Prop
  | exited : Balanced [.exited]
  | session {ms : List Message} (h : Balanced ms) : Balanced (.ready :: .stopped :: ms)

/-- The server is down, or up, or the program is over. -/
inductive Phase
  | down
  | up
  | over
  deriving DecidableEq

/-- The phase behind a message, if the message can come in this phase. -/
def Phase.next : Phase → Message → Option Phase
  | .down, .ready => some .up
  | .up, .stopped => some .down
  | .down, .exited => some .over
  | _, _ => none

/-- The phase behind a list of messages. -/
def Phase.follow (p : Phase) (ms : List Message) : Option Phase := ms.foldlM Phase.next p

theorem Phase.follow_concat (p : Phase) (ms : List Message) (m : Message) :
    p.follow (ms ++ [m]) = (p.follow ms).bind (·.next m) := by
  simp [Phase.follow, List.foldlM_append]

theorem balanced_of_follow : ∀ ms : List Message, Phase.down.follow ms = some .over → Balanced ms
  | [], h => by simp [Phase.follow] at h
  | .ready :: .stopped :: ms, h => .session (balanced_of_follow ms h)
  | [.exited], _ => .exited
  | [.ready], h => by simp [Phase.follow, Phase.next] at h
  | .ready :: .ready :: ms, h => by simp [Phase.follow, Phase.next] at h
  | .ready :: .exited :: ms, h => by simp [Phase.follow, Phase.next] at h
  | .stopped :: ms, h => by simp [Phase.follow, Phase.next] at h
  | .exited :: m :: ms, h => by simp [Phase.follow, Phase.next] at h

/-- The balanced lists lead from the start to the end. -/
theorem balanced_iff {ms : List Message} : Balanced ms ↔ Phase.down.follow ms = some .over := by
  refine ⟨fun h => ?_, balanced_of_follow ms⟩
  induction h with
  | exited => rfl
  | session _ ih => exact ih

/-! ### Lines -/

/-- The message of a line, by the first member of its object with the name `status`. -/
def message? (line : Bytes) : Option Message :=
  let status := memberString (ascii "status") line
  if status = some (ascii "server_ready") then some .ready
  else if status = some (ascii "server_stopped") then some .stopped
  else if status = some (ascii "exited") then some .exited
  else none

/-- The lines of what has been printed. -/
def stdoutLines (stdout : List Bytes) : List Bytes := Lines.lines 10 stdout.flatten

/-- The messages of what has been printed. -/
def messages (stdout : List Bytes) : List Message := (stdoutLines stdout).filterMap message?

/-- The messages are balanced, and `exited` is the last line. -/
structure LifecycleBalanced (stdout : List Bytes) : Prop where
  balanced : Balanced (messages stdout)
  last : (stdoutLines stdout).getLast?.bind message? = some .exited

/-- Lines, and none of them a message. -/
structure Silent (text : Bytes) : Prop where
  last : text.getLast? = some 10
  messages : (Lines.lines 10 text).filterMap message? = []

/-- The messages so far have led to the phase, and the last line is complete. -/
structure Follows (stdout : List Bytes) (p : Phase) : Prop where
  lineStart : Lines.AtLineStart 10 stdout.flatten
  follow : Phase.down.follow (messages stdout) = some p

section Lines

variable {stdout texts : List Bytes} {text m : Bytes} {msg : Message} {p q : Phase}

theorem lines_of_line (hm : 10 ∉ m) : Lines.lines 10 (m ++ [10]) = [m ++ [10]] := by
  simpa using Lines.lines_append_of_notMem hm []

/-- One line. -/
theorem silent_of_line (hm : 10 ∉ m) (h : message? (m ++ [10]) = none) : Silent (m ++ [10]) :=
  ⟨by simp, by simp [lines_of_line hm, h]⟩

theorem stdoutLines_concat (h : Lines.AtLineStart 10 stdout.flatten) (text : Bytes) :
    stdoutLines (stdout ++ [text]) = stdoutLines stdout ++ Lines.lines 10 text := by
  rw [stdoutLines, List.flatten_append, List.flatten_singleton, Lines.lines_append h, stdoutLines]

theorem lineStart_concat (stdout : List Bytes) (h : text.getLast? = some 10) :
    Lines.AtLineStart 10 (stdout ++ [text]).flatten := by
  have hne : text ≠ [] := by
    rintro rfl
    simp at h
  right
  rw [List.flatten_append, List.flatten_singleton, List.getLast?_append_of_ne_nil _ hne, h]

/-- Texts without messages. -/
theorem Follows.silent (h : Follows stdout p) (htexts : ∀ text ∈ texts, Silent text) :
    Follows (stdout ++ texts) p := by
  induction texts generalizing stdout with
  | nil => simpa using h
  | cons text texts ih =>
    obtain ⟨htext, htexts⟩ := List.forall_mem_cons.mp htexts
    have hstep : Follows (stdout ++ [text]) p := by
      refine ⟨lineStart_concat stdout htext.last, ?_⟩
      rw [messages, stdoutLines_concat h.lineStart, List.filterMap_append, htext.messages,
        List.append_nil]
      exact h.follow
    simpa using ih hstep htexts

/-- A line with a message. -/
theorem messages_print (h : Follows stdout p) (hm : 10 ∉ m)
    (hmsg : message? (m ++ [10]) = some msg) :
    messages (stdout ++ [m ++ [10]]) = messages stdout ++ [msg] := by
  rw [messages, stdoutLines_concat h.lineStart, List.filterMap_append, lines_of_line hm, messages]
  simp [hmsg]

theorem Follows.print (h : Follows stdout p) (hm : 10 ∉ m)
    (hmsg : message? (m ++ [10]) = some msg) (hnext : p.next msg = some q) :
    Follows (stdout ++ [m ++ [10]]) q := by
  refine ⟨lineStart_concat stdout (by simp), ?_⟩
  rw [messages_print h hm hmsg, Phase.follow_concat, h.follow]
  exact hnext

/-- A line that begins with a status. -/
theorem memberString_status {v : Bytes} (hv : IsVerbatim v) (rest : Bytes) :
    memberString (ascii "status") (ascii "\x7b\"status\":\"" ++ (v ++ 34 :: rest)) = some v := by
  have hhead : ascii "\x7b\"status\":\"" = 123 :: 34 :: (ascii "status" ++ [34, 58, 34]) := by
    decide
  have hname : IsVerbatim (ascii "status") := by decide +kernel
  simpa [hhead] using memberString_of_first hname hv rest

theorem newline_notMem_intText (v : ℤ) : 10 ∉ intText v := fun h =>
  absurd (mem_intText_range h).1 (by decide)

/-- The line that reports the start is a message. -/
theorem serverReadyLine_eq (cfg : Config) : ∃ m, serverReadyLine cfg = m ++ [10] ∧ 10 ∉ m ∧
    message? (m ++ [10]) = some .ready := by
  have hhead : ascii "\x7b\"status\":\"server_ready\",\"tcp\":" = ascii "\x7b\"status\":\"" ++
      (ascii "server_ready" ++ 34 :: ascii ",\"tcp\":") := by decide
  have htail : ascii "\x7d\n" = [125] ++ [10] := by decide
  refine ⟨ascii "\x7b\"status\":\"server_ready\",\"tcp\":" ++
    (ascii (if cfg.enable_tcp then "true" else "false") ++ ascii ",\"rtu\":" ++
    ascii (if cfg.enable_rtu then "true" else "false") ++ ascii ",\"unit_id\":" ++
    intText cfg.unit_id ++ [125]), ?_, ?_, ?_⟩
  · simp only [serverReadyLine, htail, List.append_assoc]
  · have hbool (b : Bool) : 10 ∉ ascii (if b then "true" else "false") := by
      cases b <;> decide
    have hascii : 10 ∉ ascii "\x7b\"status\":\"server_ready\",\"tcp\":" ∧
        10 ∉ ascii ",\"rtu\":" ∧ 10 ∉ ascii ",\"unit_id\":" := by decide
    simp [hascii, hbool, newline_notMem_intText]
  · have hstatus := memberString_status (v := ascii "server_ready") (by decide +kernel)
    rw [hhead]
    simp only [List.append_assoc, List.cons_append, message?, hstatus, if_true]

end Lines

/-! ### Answers -/

/-- The lines that a datatype adds to its reply: those behind its first line break. -/
def furtherLines (datatype : Bytes) : List Bytes :=
  (Lines.lines 10 (datatype ++ ascii "\"\x7d\n")).tail

/-- Is the text an update that is accepted, and has its datatype a message on a line of its own? -/
def forgesMessage (cfg : Config) (mb_mapping : Option Mapping) (json_str : Bytes) : Bool :=
  match updateRequest json_str, mb_mapping with
  | some u, some mb =>
    cfg.accepts mb u.address && (furtherLines u.datatype).any fun line => (message? line).isSome
  | _, _ => false

section Answers

variable {cfg : Config} {mb_mapping : Option Mapping} {flags : Flags} {json_str text : Bytes}

/-- A line of JSON with another status, or without one. -/
theorem silent_of_isObjectLine (h : StrictJson.IsObjectLine text) (hm : message? text = none) :
    Silent text := by
  obtain ⟨object, rfl, hobject, -⟩ := h
  exact silent_of_line hobject hm

theorem message?_errorMembers {error : Bytes} (herror : IsVerbatim error) {address : ℤ}
    (haddress : CInt.IsInt address) :
    message? (printObject (errorMembers error address) ++ [10]) = none := by
  have hnames : IsVerbatim (ascii "error") ∧ IsVerbatim (ascii "address") := by
    decide +kernel
  have hint : (Scalar.int address).IsVerbatim := isInt_natAbs_lt haddress
  have hmembers : ∀ m ∈ errorMembers error address, IsVerbatim m.1 ∧ m.2.IsVerbatim := by
    simpa [errorMembers] using ⟨⟨hnames.1, herror⟩, hnames.2, hint⟩
  have hne : errorMembers error address ≠ [] := List.cons_ne_nil _ _
  have hparse := cJSONParse_printObject hne hmembers [10] (by decide)
  have hstatus := memberString_eq_none (ascii "status") hparse (by simp [errorMembers])
    (by simp [errorMembers]; decide)
  simp [message?, hstatus]

theorem silent_indexErrorLine : Silent indexErrorLine := by
  have heq : indexErrorLine = ascii "\x7b\"error\":\"index_out_of_bounds\"\x7d" ++ [10] := by decide
  rw [heq]
  exact silent_of_line (by decide) (by decide +kernel)

theorem silent_addressOutOfRangeLine {address : ℤ} (haddress : CInt.IsInt address) :
    Silent (addressOutOfRangeLine address) := by
  rw [addressOutOfRangeLine_eq]
  exact silent_of_isObjectLine (isObjectLine_errorMembers (by decide) address)
    (message?_errorMembers (by decide +kernel) haddress)

/-- The report of an update has no messages but those on the further lines of its datatype. -/
theorem silent_updatedLine {address : ℤ} {datatype : Bytes}
    (h : ∀ line ∈ furtherLines datatype, message? line = none) :
    Silent (updatedLine address datatype) := by
  have hhead : ascii "\x7b\"status\":\"updated\",\"address\":" = ascii "\x7b\"status\":\"" ++
      (ascii "updated" ++ 34 :: ascii ",\"address\":") := by decide
  have hne : datatype ++ ascii "\"\x7d\n" ≠ [] := by simp [ascii]
  obtain ⟨l, ls, hls⟩ := Lines.exists_lines_eq_cons 10 hne
  have hfront : 10 ∉ ascii "\x7b\"status\":\"updated\",\"address\":" ++ intText address ++
      ascii ",\"datatype\":\"" := by
    have hascii : 10 ∉ ascii "\x7b\"status\":\"updated\",\"address\":" ∧
        10 ∉ ascii ",\"datatype\":\"" := by decide
    simp [hascii, newline_notMem_intText]
  have hfirst : message? (ascii "\x7b\"status\":\"updated\",\"address\":" ++ intText address ++
      ascii ",\"datatype\":\"" ++ l) = none := by
    have hstatus := memberString_status (v := ascii "updated") (by decide +kernel)
    rw [hhead]
    simp only [List.append_assoc, List.cons_append, message?, hstatus]
    decide
  have hlines := Lines.lines_append_of_cons hfront hls
  have hupdated : updatedLine address datatype =
      ascii "\x7b\"status\":\"updated\",\"address\":" ++ intText address ++
        ascii ",\"datatype\":\"" ++ (datatype ++ ascii "\"\x7d\n") := by
    simp [updatedLine]
  rw [furtherLines, hls, List.tail_cons] at h
  refine ⟨?_, ?_⟩
  · rw [hupdated, ← List.append_assoc, List.getLast?_append_of_ne_nil _ (by decide)]
    rfl
  · rw [hupdated, hlines, List.filterMap_cons_none hfirst]
    exact List.filterMap_eq_nil_iff.mpr h

theorem message?_of_mem_processCommand {root : CJson} {update : List Effect}
    (hcmd : isCommand root = true) (h : text ∈ printed (processCommand root flags update).1) :
    message? text = none := by
  have hprint {t : Bytes} (ht : message? t = none) (h : text ∈ printed [.print t]) :
      message? text = none := by
    rw [mem_printed_print.mp h]
    exact ht
  simp only [processCommand] at h
  split_ifs at h with hstop hstart hrunning hstatus
  · exact hprint (by decide +kernel) h
  · exact hprint (by decide +kernel) h
  · exact hprint (by decide +kernel) h
  · cases hstate : flags.server_state with
    | running => exact hprint (by decide +kernel) (hstate ▸ h)
    | stopped => exact hprint (by decide +kernel) (hstate ▸ h)
  · simp [isCommand, hstop, hstart, hstatus] at hcmd

/-- **The answers to commands** have no messages, unless a datatype brings one. -/
theorem silent_of_mem_processJson (hforge : forgesMessage cfg mb_mapping json_str = false)
    (h : text ∈ printed (processJson cfg mb_mapping flags json_str).1) : Silent text := by
  cases hu : updateRequest json_str with
  | none =>
    rcases processJson_ways hu cfg mb_mapping flags with heq | ⟨root, update, hcmd, heq⟩
    · simp [heq] at h
    · rw [heq] at h
      exact silent_of_isObjectLine (isObjectLine_processCommand hcmd flags update text h)
        (message?_of_mem_processCommand hcmd h)
  | some u =>
    cases mb_mapping with
    | none =>
      obtain ⟨root, hroot, hcmd, hread⟩ := exists_of_updateRequest hu
      rw [processJson, hroot] at h
      simp only [processCommand_of_not_isCommand hcmd, processUpdate, hread] at h
      split_ifs at h
      · rw [mem_printed_print.mp h]
        exact silent_addressOutOfRangeLine u.isInt_address
      · rw [mem_printed_print.mp h]
        exact silent_indexErrorLine
      · simp [Effect.print?] at h
    | some mb =>
      rw [processJson_eq_of_some hu] at h
      split_ifs at h with hrange hlt
      · obtain rfl : text = updatedLine u.address u.datatype := by simpa using h
        refine silent_updatedLine ?_
        simpa [forgesMessage, hu, Config.accepts, hrange, hlt] using hforge
      · rw [mem_printed_print.mp h]
        exact silent_indexErrorLine
      · rw [mem_printed_print.mp h]
        exact silent_addressOutOfRangeLine u.isInt_address

/-- The datatype of `forgedLines` has a line with `exited`. -/
example : forgesMessage { nb_holding_regs := 1, isInt_nb := CInt.isInt_one }
    (some { tab_registers := [0] }) forgedLines = true := by
  decide +kernel

end Answers

/-! ### Blocks -/

section Blocks

variable {cfg : Config} {w w' : Server} {i : Input}

/-- The phase of a program that is still in its loop. -/
def Server.phase (w : Server) : Phase := if w.mb_mapping.isSome then .up else .down

/-- At the head of the loop the messages so far have led to the phase. -/
def Tracks (w : Server) : Prop := w.status = .atHead → Follows w.stdout w.phase

theorem Tracks.of_silent (h : Tracks w) (hstdout : w'.stdout = w.stdout)
    (hmapping : w'.mb_mapping.isSome = w.mb_mapping.isSome) (hstatus : w'.status = w.status) :
    Tracks w' := by
  rw [Tracks, Server.phase, hstdout, hmapping, hstatus]
  exact h

theorem Tracks.print (h : Tracks w) {m : Bytes} {msg : Message} (hm : 10 ∉ m)
    (hmsg : message? (m ++ [10]) = some msg) (hstdout : w'.stdout = w.stdout ++ [m ++ [10]])
    (hphase : w.phase.next msg = some w'.phase) (hstatus : w'.status = w.status) : Tracks w' := by
  intro hatHead
  rw [hstdout]
  exact (h (hstatus ▸ hatHead)).print hm hmsg hphase

theorem stdout_signalHandler (i : Input) (p : Point) (w : Server) :
    (signalHandler i p w).stdout = w.stdout := by
  rw [signalHandler_eq]

theorem Tracks.signalHandler (h : Tracks w) (i : Input) (p : Point) :
    Tracks (signalHandler i p w) :=
  h.of_silent (stdout_signalHandler i p w) (by rw [mb_mapping_signalHandler])
    (status_signalHandler i p w)

/-- The answers to a command have no messages, and a command leaves a table or none as it was. -/
theorem Tracks.commands (h : Tracks w) (cfg : Config) (i : Input) (fds : Finset ℤ)
    (hforge : ∀ buf s, 0 ∈ fds →
      (i.afterSelect.foldl Stdin.arrive w.stdin).fgets i.waiting = .line buf s →
      forgesMessage cfg w.mb_mapping (cString buf) = false) :
    Tracks (commands cfg i fds w) := by
  rcases commands_cases cfg i fds w with ⟨-, heq⟩ | ⟨h0, buf, s, hfgets, heq⟩ | ⟨-, s, -, heq⟩ |
    ⟨-, -, heq⟩
  · rwa [heq]
  · rw [heq]
    intro hatHead
    have hstatus : w.status = .atHead := by
      rcases @status_processText cfg i { w with stdin := s } buf with hsame | hcrashed
      · exact hsame.symm.trans hatHead
      · simp [hcrashed] at hatHead
    have hphase : (processText cfg i buf { w with stdin := s }).phase = w.phase := by
      simp [Server.phase, processText]
    rw [hphase]
    have hanswers (flags : Flags) := (h hstatus).silent fun text =>
      @silent_of_mem_processJson cfg w.mb_mapping flags (cString buf) text (hforge buf s h0 hfgets)
    simpa [processText, stdout_signalHandler] using hanswers _
  · rw [heq]
    exact h.of_silent rfl rfl rfl
  · rw [heq]
    intro hatHead
    simp at hatHead

theorem stdout_release (cfg : Config) (w : Server) : (release cfg w).stdout = w.stdout := by
  have hclient (w : Server) (k : Fin maxTcpClients) : (closeClient w k).stdout = w.stdout := by
    rw [closeClient]
    split_ifs <;> rfl
  have htcp : (if cfg.enable_tcp then releaseTcp w else w).stdout = w.stdout := by
    split_ifs
    · exact Runs.run_frame hclient slots
    · rfl
  rw [release]
  generalize (if cfg.enable_tcp then releaseTcp w else w) = w₁ at htcp ⊢
  split_ifs
  · exact htcp
  · exact htcp

theorem stdout_openRtu (new fcntl : Bool) (offer : Option ℤ) (w : Server) :
    (openRtu new fcntl offer w).1.stdout = w.stdout := by
  rcases openRtu_cases w new fcntl offer with ⟨-, heq⟩ | ⟨-, -, heq⟩ | ⟨-, fd, -, heq⟩
  all_goals rw [heq]

theorem stdout_startTcp (cfg : Config) (i : Input) (w : Server) :
    (startTcp cfg i w).1.stdout = w.stdout := by
  rcases startTcp_cases cfg i w with ⟨-, heq⟩ | ⟨-, -, heq⟩ | ⟨-, -, -, heq⟩ | ⟨-, -, fd, -, heq⟩
  all_goals rw [heq]

theorem stdout_startRtu (cfg : Config) (i : Input) (w : Server) :
    (startRtu cfg i w).1.stdout = w.stdout := by
  rw [startRtu]
  split_ifs
  · exact stdout_openRtu _ _ _ w
  · rfl

/-- The parts of the start-up block print `server_ready` when they leave a table. -/
theorem Tracks.startParts (h : Tracks w) (cfg : Config) (i : Input) (hnone : w.mb_mapping = none) :
    Tracks (startParts cfg i w).1 := by
  have htcp : Tracks (startTcp cfg i w).1 :=
    h.of_silent (stdout_startTcp cfg i w) (by rw [mb_mapping_startTcp])
      (keeps_startTcp cfg i w).status_eq
  have hrtu : Tracks (startRtu cfg i (startTcp cfg i w).1).1 :=
    htcp.of_silent (stdout_startRtu cfg i _) (by rw [mb_mapping_startRtu])
      (keeps_startRtu cfg i _).status_eq
  rcases startParts_cases cfg i w with ⟨-, heq⟩ | ⟨-, -, heq⟩ | ⟨-, -, heq⟩
  · rwa [heq]
  · rwa [heq]
  · have hdown : (startRtu cfg i (startTcp cfg i w).1).1.mb_mapping = none := by
      rw [mb_mapping_startRtu, mb_mapping_startTcp, hnone]
    rw [heq, startMapping]
    split_ifs
    · obtain ⟨m, hline, hm, hmsg⟩ := serverReadyLine_eq cfg
      refine hrtu.print hm hmsg ?_ ?_ rfl
      · simp only [hline]
      · simp [Server.phase, hdown, Phase.next]
    · exact hrtu

theorem Tracks.startup (h : Tracks w) (cfg : Config) (i : Input) : Tracks (startup cfg i w).1 := by
  have hsignal := h.signalHandler i .startup
  rcases startup_cases cfg i w with ⟨-, heq⟩ | ⟨⟨-, hnone⟩, heq⟩
  · rwa [heq]
  · rw [heq]
    refine Tracks.startParts ?_ cfg i (by simpa using hnone)
    exact hsignal.of_silent rfl rfl rfl

/-- The stop block prints `server_stopped` when it releases a table. -/
theorem Tracks.stopServer (h : Tracks w) (cfg : Config) (i : Input) :
    Tracks (stopServer cfg i w) := by
  have hsignal := h.signalHandler i .stop
  rw [ModbusServer.stopServer]
  split_ifs with hstop
  · have hline : ascii "\x7b\"status\":\"server_stopped\"\x7d\n" =
        ascii "\x7b\"status\":\"server_stopped\"\x7d" ++ [10] := by decide
    have hmsg : message? (ascii "\x7b\"status\":\"server_stopped\"\x7d" ++ [10]) =
        some .stopped := by decide +kernel
    refine hsignal.print (by decide) hmsg ?_ ?_ (releases_release cfg _).status_eq
    · dsimp only
      rw [stdout_release, hline]
    · have hsome : (ModbusServer.signalHandler i .stop w).phase = .up := by
        rw [Server.phase, if_pos hstop.2]
      rw [hsome, Server.phase, mb_mapping_release]
      rfl
  · exact hsignal

theorem stdout_acceptClient (cfg : Config) (i : Input) (fds : Finset ℤ) (w : Server) :
    (acceptClient cfg i fds w).stdout = w.stdout := by
  have haccept : (modbusTcpAccept i.accept w).2.stdout = w.stdout := by
    cases i.accept <;> rfl
  rw [acceptClient]
  split_ifs
  · split
    · dsimp only
      split_ifs
      · exact haccept
      · exact haccept
    · dsimp only
      split_ifs
      · exact haccept
      · exact haccept
  · rfl

theorem stdout_handleClients (cfg : Config) (i : Input) (fds : Finset ℤ) (w : Server) :
    (handleClients cfg i fds w).stdout = w.stdout := by
  have hclient (w : Server) (k : Fin maxTcpClients) :
      (handleClient i fds w k).stdout = w.stdout := by
    rw [handleClient]
    dsimp only
    split_ifs <;> rfl
  rw [handleClients]
  split_ifs
  · exact Runs.run_frame hclient slots
  · rfl

theorem stdout_handleRtu (cfg : Config) (i : Input) (fds : Finset ℤ) (w : Server) :
    (handleRtu cfg i fds w).stdout = w.stdout := by
  rw [handleRtu]
  split
  · rfl
  · dsimp only
    split_ifs <;> rfl

/-- Nothing is printed while descriptors are served. -/
theorem stdout_serve (cfg : Config) (i : Input) (fds : Finset ℤ) (w : Server) :
    (serve cfg i fds w).stdout = w.stdout := by
  rw [serve, stdout_handleRtu, stdout_handleClients, stdout_acceptClient]

theorem Tracks.connections (h : Tracks w) (cfg : Config) (i : Input) (fds : Finset ℤ)
    (hmapping : w.flags.server_state = .running → w.mb_mapping.isSome = true) :
    Tracks (connections cfg i fds w) := by
  refine h.of_silent ?_ ?_ (keeps_connections cfg i w fds hmapping).status_eq
  · rw [ModbusServer.connections]
    split_ifs
    · rw [reconnect]
      split_ifs
      · rw [stdout_openRtu, stdout_signalHandler, stdout_serve, stdout_signalHandler]
      · rw [stdout_signalHandler, stdout_serve, stdout_signalHandler]
    · exact stdout_signalHandler i .connections w
  · rw [ModbusServer.connections]
    split_ifs with hserve
    · have hsome := hmapping ((running_signalHandler_iff i .connections w).mp hserve.1).2
      rw [mb_mapping_reconnect, hsome]
      exact (serves_serve cfg i _ fds (by simpa using hsome)).mapping
    · rw [mb_mapping_signalHandler]

end Blocks

/-! ### Iterations -/

section Iterations

variable {cfg : Config} {w : Server} {i : Input}

/-- Is a line with a message echoed, if the iteration reads? -/
def forges (cfg : Config) (w : Server) (i : Input) : Bool :=
  match (atRead w i).fgets i.waiting with
  | .line buf _ => forgesMessage cfg w.mb_mapping (cString buf)
  | _ => false

/-- The iteration reads an update, and echoes a line with a message. -/
def ForgesMessage (cfg : Config) (w : Server) (i : Input) : Prop :=
  reads w i ∧ forges cfg w i = true

/-- An iteration that echoes no message keeps the messages in step with the table. -/
theorem tracks_step (h : Tracks w) (hforge : ¬ForgesMessage cfg w i) : Tracks (step cfg w i) := by
  have hbehind : PreservedBehind cfg i Tracks :=
    { signal := fun p w h => h.signalHandler i p
      startup := fun w h => h.startup cfg i
      stop := fun w h => h.stopServer cfg i
      connections := fun fds w h hmapping => h.connections cfg i fds hmapping }
  have hatSelect : Tracks (atSelect cfg w i) :=
    h.of_silent (by simp [atSelect, beforeSelect, stdout_signalHandler]) (by simp) (by simp)
  have hfinish (w' : Server) : Tracks (finish cfg w') := fun hatHead => by
    simp [finish] at hatHead
  by_cases hselects : selects w i
  · rw [step_of_selects cfg hselects]
    refine hbehind.afterSelect _ (hatSelect.commands cfg i _ fun buf s h0 hfgets => ?_)
    have hreads : reads w i := ⟨hselects, (zero_mem_ready_iff cfg hselects).mp h0⟩
    rw [stdin_atSelect] at hfgets
    have hnone : forges cfg w i = false := by simpa using fun htrue => hforge ⟨hreads, htrue⟩
    rw [forges, atRead, hfgets] at hnone
    simpa using hnone
  · rcases step_of_not_selects cfg hselects with heq | heq | heq | heq
    · rwa [heq]
    · rw [heq]
      exact hfinish _
    · rwa [heq]
    · rw [heq]
      exact hfinish _

/-- The iteration leaves the loop: `running` is false at its head, or `select` fails and has not
been interrupted. -/
def LoopEnds (w : Server) (i : Input) : Prop :=
  w.status = .atHead ∧
    ((signalHandler i .head w).flags.running = false ∨ i.select = .failed false)

/-- The iteration leaves the loop while there is a table. -/
def LeavesWithTable (w : Server) (i : Input) : Prop := LoopEnds w i ∧ w.mb_mapping.isSome = true

theorem step_of_loopEnds (h : LoopEnds w i) : ∃ w', step cfg w i = finish cfg w' ∧
    w'.stdout = w.stdout ∧ w'.mb_mapping = w.mb_mapping := by
  obtain ⟨hstatus, hends⟩ := h
  simp only [step, hstatus, iteration]
  by_cases hrunning : (signalHandler i .head w).flags.running = true
  · have hselect := hends.resolve_left (by simp [hrunning])
    simp only [hrunning, if_true, hselect]
    refine ⟨atSelect cfg w i, rfl, ?_, mb_mapping_atSelect cfg w i⟩
    simp [atSelect, beforeSelect, stdout_signalHandler]
  · rw [if_neg hrunning]
    exact ⟨_, rfl, stdout_signalHandler i .head w, mb_mapping_signalHandler i .head w⟩

/-- Nothing else ends the program by a return from `main`. -/
theorem status_step_of_not_loopEnds (h : ¬LoopEnds w i) (hstatus : w.status ≠ .returned) :
    (step cfg w i).status ≠ .returned := by
  by_cases hselects : selects w i
  · rw [step_of_selects cfg hselects, (keeps_afterSelect cfg i _ _).status_eq]
    rcases status_commands cfg i (ready cfg w i) (atSelect cfg w i) with heq | heq | heq
    · rw [heq, status_atSelect]
      exact hstatus
    · simp [heq]
    · simp [heq]
  · cases hw : w.status with
    | atHead =>
      have hrunning : (signalHandler i .head w).flags.running = true := by
        by_contra hfalse
        exact h ⟨hw, .inl (by simpa using hfalse)⟩
      cases hselect : i.select with
      | failed eintr =>
        cases eintr with
        | false => exact absurd ⟨hw, .inr hselect⟩ h
        | true =>
          simp only [step, hw, iteration, hrunning, if_true, hselect]
          have hatSelect := status_atSelect cfg w i
          rw [hw] at hatSelect
          intro hreturned
          exact absurd (hatSelect.symm.trans hreturned) (by decide)
      | ready sockets => exact absurd ⟨hw, hrunning, sockets, hselect⟩ hselects
    | waiting => simp [step, hw]
    | crashed => simp [step, hw]
    | returned => exact absurd hw hstatus

/-- At the end of `main` the messages are balanced if there is no table to release. -/
theorem lifecycleBalanced_finish_iff (h : Follows w.stdout w.phase) :
    LifecycleBalanced (finish cfg w).stdout ↔ w.mb_mapping = none := by
  have hline : ascii "\x7b\"status\":\"exited\"\x7d\n" =
      ascii "\x7b\"status\":\"exited\"\x7d" ++ [10] := by decide
  have hm : 10 ∉ ascii "\x7b\"status\":\"exited\"\x7d" := by decide
  have hexited : message? (ascii "\x7b\"status\":\"exited\"\x7d" ++ [10]) = some .exited := by
    decide +kernel
  have hstdout : (finish cfg w).stdout =
      w.stdout ++ [ascii "\x7b\"status\":\"exited\"\x7d" ++ [10]] := by
    rw [finish, ← hline]
    split_ifs
    · dsimp only
      rw [stdout_release]
    · rfl
  have hbalanced : Balanced (messages (finish cfg w).stdout) ↔ w.mb_mapping = none := by
    rw [balanced_iff, hstdout, messages_print h hm hexited, Phase.follow_concat, h.follow,
      Server.phase]
    cases w.mb_mapping with
    | none => simp [Phase.next]
    | some mb => simp [Phase.next]
  refine ⟨fun hcycle => hbalanced.mp hcycle.balanced, fun hnone => ⟨hbalanced.mpr hnone, ?_⟩⟩
  rw [hstdout, stdoutLines_concat h.lineStart, lines_of_line hm, List.getLast?_concat,
    Option.bind_some, hexited]

/-- An iteration that ends the program unbalances the messages if there is a table. -/
theorem lifecycleBalanced_step_iff (h : Tracks w) :
    ((step cfg w i).status = .returned → LifecycleBalanced (step cfg w i).stdout) ↔
      (w.status = .returned → LifecycleBalanced w.stdout) ∧ ¬LeavesWithTable w i := by
  by_cases hreturned : w.status = .returned
  · have hstep : step cfg w i = w := by rw [step, hreturned]
    have hleaves : ¬LeavesWithTable w i := fun h => by
      have hatHead := h.1.1
      simp [hreturned] at hatHead
    simp [hstep, hleaves]
  · by_cases hends : LoopEnds w i
    · obtain ⟨w', hstep, hstdout, hmapping⟩ := @step_of_loopEnds cfg w i hends
      have hfollows : Follows w'.stdout w'.phase := by
        rw [Server.phase, hstdout, hmapping]
        exact h hends.1
      have hstatus : (step cfg w i).status = .returned := by
        rw [hstep]
        rfl
      rw [hstep] at hstatus ⊢
      simp [hstatus, hreturned, lifecycleBalanced_finish_iff hfollows, hmapping, LeavesWithTable,
        hends]
    · have hgoesOn := @status_step_of_not_loopEnds cfg w i hends hreturned
      simp [hgoesOn, hreturned, LeavesWithTable, hends]

end Iterations

/-! ### Runs -/

/-- A run of `main`: what it has printed on `stdout`, and whether it has ended. -/
structure MainRun where
  stdout : List Bytes
  ended : Bool

/-- The configuration that the loop runs with, if `load_config` returns 0. -/
def mainConfig (file : Option Bytes) : Option Config :=
  let (ret, g) := loadConfig file initialGlobals
  if ret ≠ 0 then none else some g.serverConfig

/-- `main`: without a configuration it exits, and has printed on `stderr` only. -/
def mainRun (file : Option Bytes) (ahead : ℕ) (inputs : List Input) : MainRun :=
  match mainConfig file with
  | none => { stdout := [], ended := true }
  | some cfg =>
    let w := serverRun cfg ahead inputs
    { stdout := w.stdout, ended := w.status = .returned }

theorem mainConfig_eq_some (file : Option Bytes) (h : (loadConfig file initialGlobals).1 = 0) :
    mainConfig file = some (loadConfig file initialGlobals).2.serverConfig :=
  if_neg (not_not.mpr h)

theorem tracks_initial (ahead : ℕ) : Tracks (initial ahead) := fun _ => by
  have hmessages : messages [ascii "\x7b\"ready\":true\x7d\n"] = [] := by decide +kernel
  refine ⟨.inr rfl, ?_⟩
  rw [initial, hmessages]
  rfl

/-- The runs of the loop. -/
theorem lifecycleBalanced_serverRun_iff {cfg : Config} {ahead : ℕ} {inputs : List Input}
    (hforge : Runs.StepsMeet (step cfg) (fun w i => ¬ForgesMessage cfg w i) (initial ahead)
      inputs) :
    ((serverRun cfg ahead inputs).status = .returned →
      LifecycleBalanced (serverRun cfg ahead inputs).stdout) ↔
      Runs.StepsMeet (step cfg) (fun w i => ¬LeavesWithTable w i) (initial ahead) inputs := by
  rw [serverRun, Runs.run_iff_stepsMeet_of_stepsMeet hforge (tracks_initial ahead)
    (fun _ _ => tracks_step)
    (Q := fun w : Server => w.status = .returned → LifecycleBalanced w.stdout)
    fun _ _ h _ => lifecycleBalanced_step_iff h]
  exact and_iff_right fun h => by simp [initial] at h

/-- **The messages of the life cycle.** In a run that echoes no line with a message, the messages
are balanced when the program ends exactly if the configuration is loaded, and the loop is not left
while there is a table. -/
theorem lifecycle_iff (file : Option Bytes) (ahead : ℕ) (inputs : List Input)
    (hforge : ∀ cfg, mainConfig file = some cfg →
      Runs.StepsMeet (step cfg) (fun w i => ¬ForgesMessage cfg w i) (initial ahead) inputs) :
    ((mainRun file ahead inputs).ended = true →
      LifecycleBalanced (mainRun file ahead inputs).stdout) ↔
      ∃ cfg, mainConfig file = some cfg ∧
        Runs.StepsMeet (step cfg) (fun w i => ¬LeavesWithTable w i) (initial ahead) inputs := by
  rw [mainRun]
  cases hconfig : mainConfig file with
  | none =>
    refine iff_of_false (fun h => ?_) (by simp)
    exact absurd (h rfl).last (by simp [stdoutLines])
  | some cfg =>
    simpa using lifecycleBalanced_serverRun_iff (hforge cfg hconfig)

/-- A configuration with one register, served over TCP. -/
def tcpFile : Bytes := ascii "\x7b\"mode\":\"tcp\",\"holding_registers\":[0,1]\x7d"

/-- TCP comes up, and a command stops the server. -/
def stopLine : List Input :=
  [{ newTcp := true, listen := some 5, newMapping := true },
    { beforeSelect := [{ bytes := ascii "\x7b\"cmd\":\"stop\"\x7d\n" }] }, {}]

/-- Behind `stopLine` the messages are `server_ready`, `server_stopped` and `exited`. -/
theorem lifecycle_iff_stopLine : (mainRun (some tcpFile) 4095 stopLine).ended = true ∧
    LifecycleBalanced (mainRun (some tcpFile) 4095 stopLine).stdout := by
  have hended : (mainRun (some tcpFile) 4095 stopLine).ended = true := by decide +kernel
  have hconfig := mainConfig_eq_some (some tcpFile) (by decide +kernel)
  refine ⟨hended, (lifecycle_iff (some tcpFile) 4095 stopLine fun cfg hcfg => ?_).mpr
    ⟨_, hconfig, ?_⟩ hended⟩
  · obtain rfl := Option.some.inj (hconfig.symm.trans hcfg)
    refine ⟨fun h => absurd h.2 (by decide +kernel), fun h => absurd h.2 (by decide +kernel),
      fun h => absurd h.2 (by decide +kernel), trivial⟩
  · refine ⟨fun h => absurd h.2 (by decide), fun h => ?_,
      fun h => absurd h.2 (by decide +kernel), trivial⟩
    rcases h.1.2 with hrunning | hselect
    · exact absurd hrunning (by decide +kernel)
    · exact absurd hselect (by simp)

/-- TCP comes up, and a signal interrupts `select`. -/
def interruptedSelect : List Input :=
  [{ newTcp := true, listen := some 5, newMapping := true },
    { signal := fun p => p = .maxfd, select := .failed true }, {}]

/-- Behind `interruptedSelect` the program returns, and has not printed `server_stopped`. -/
theorem not_lifecycleBalanced : ¬∀ (file : Option Bytes) (ahead : ℕ) (inputs : List Input),
    (mainRun file ahead inputs).ended = true →
      LifecycleBalanced (mainRun file ahead inputs).stdout := by
  intro h
  have hended : (mainRun (some tcpFile) 4095 interruptedSelect).ended = true := by
    decide +kernel
  have hfollow := balanced_iff.mp (h _ _ _ hended).balanced
  have hmessages : messages (mainRun (some tcpFile) 4095 interruptedSelect).stdout =
      [.ready, .exited] := by decide +kernel
  rw [hmessages] at hfollow
  exact absurd hfollow (by decide)

end ModbusServer
