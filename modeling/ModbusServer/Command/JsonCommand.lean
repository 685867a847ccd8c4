import ModbusServer.Command.Request

/-!
# The command processor of the refactored sources

`json_command_process` answers `stop`, `start` and `status` itself and hands every other text to
`json_command_update_data`, which parses it again. The back end is present in every call; the table
it holds may be missing.

The branches on the member `cmd` are those of `process_json` in `json-modbus-server.c`, lines
184–208, and are one definition for both.

Source: `src/json/json_command.c`.

## Main definitions

* `ModbusServer.ServerState`, `ModbusServer.Flags`.
* `ModbusServer.processCommand`: the branches on the member `cmd`.
* `ModbusServer.jsonCommandUpdateData`, `ModbusServer.jsonCommandProcess`.
* `ModbusServer.readRequest`, `ModbusServer.updateRequest`: the update request of a text.
* `ModbusServer.reportsUpdate`, `ModbusServer.Rejected`: what a caller sees of an update.

## Main results

* `ModbusServer.jsonCommandUpdateData_eq_of_some`, `ModbusServer.jsonCommandUpdateData_eq_of_none`,
  `ModbusServer.jsonCommandProcess_eq_of_some`, `ModbusServer.jsonCommandProcess_of_none`: what the
  two functions do with update requests and with other texts.
-/

namespace ModbusServer

open CText

/-- `STATE_STOPPED` and `STATE_RUNNING`. -/
inductive ServerState
  | stopped
  | running
  deriving DecidableEq

/-- The two variables that a command changes apart from the table. -/
structure Flags where
  server_state : ServerState
  running : Bool
  deriving DecidableEq

/-! ### The commands -/

/-- The string of the member `cmd`, if the request has one. -/
def commandName (root : CJson) : Option Bytes :=
  (getObjectItemCaseSensitive root (ascii "cmd")).bind CJson.valuestring

/-- The answer to `status`. -/
def statusLine (state : ServerState) : Bytes :=
  ascii "\x7b\"status\":\"" ++ ascii (if state = .running then "running" else "stopped") ++
    ascii "\"\x7d\n"

/-- The branches on the member `cmd`. A request without one of the three commands has the effects
`update`. -/
def processCommand (root : CJson) (flags : Flags) (update : List Effect) : List Effect × Flags :=
  let cmd := commandName root
  if cmd = some (ascii "stop") then
    ([.print (ascii "\x7b\"status\":\"stopping\"\x7d\n")],
      { server_state := .stopped, running := false })
  else if cmd = some (ascii "start") then
    if flags.server_state = .running then
      ([.print (ascii "\x7b\"error\":\"already_running\"\x7d\n")], flags)
    else
      ([.print (ascii "\x7b\"status\":\"starting\"\x7d\n")],
        { flags with server_state := .running })
  else if cmd = some (ascii "status") then ([.print (statusLine flags.server_state)], flags)
  else (update, flags)

/-! ### The processor -/

/-- `json_command_update_data`, with its return code. -/
def jsonCommandUpdateData (json_str : Bytes) (mapping : Option Mapping) : List Effect × ℤ :=
  match cJSONParse json_str with
  | none => ([], -1)
  | some root =>
    match readUpdate root with
    | none => ([], -1)
    | some u =>
      match mapping with
      | none => ([], -1)
      | some mb =>
        let idx := u.address
        if idx < 0 ∨ mb.nb_registers ≤ idx then
          ([.print (indexOutOfBoundsLine u.address)], -1)
        else
          (storeEffects (valueStores idx u.datatype u.value u.order) ++
            [.print (updatedLine u.address u.datatype)], 0)

/-- `json_command_process`, with the values it leaves in `*state` and `*running`. -/
def jsonCommandProcess (json_str : Bytes) (mapping : Option Mapping) (flags : Flags) :
    List Effect × Flags :=
  match cJSONParse json_str with
  | none => ([.logWarn (ascii "Failed to parse JSON command")], flags)
  | some root => processCommand root flags (jsonCommandUpdateData json_str mapping).1

/-! ### Update requests of a text -/

/-- Is the text one of the three commands? -/
def isCommand (root : CJson) : Bool :=
  commandName root ∈ [some (ascii "stop"), some (ascii "start"), some (ascii "status")]

/-- The update request of a text, whether or not it is a command as well. -/
def readRequest (json_str : Bytes) : Option UpdateRequest :=
  (cJSONParse json_str).bind readUpdate

/-- The update request of a text that parses and is none of the three commands. -/
def updateRequest (json_str : Bytes) : Option UpdateRequest :=
  (cJSONParse json_str).bind fun root => if isCommand root then none else readUpdate root

/-- The effects of an update request whose value is stored from the index `idx` on. -/
def UpdateRequest.effects (u : UpdateRequest) (idx : ℤ) : List Effect :=
  storeEffects (Stores.block idx (u.encoding.getD [])) ++
    [.print (updatedLine u.address u.datatype)]

/-- Does a line report an update? -/
def isUpdatedLine (text : Bytes) : Bool :=
  (ascii "\x7b\"status\":\"updated\"").isPrefixOf text

/-- Is an update reported among the effects? -/
def reportsUpdate (effects : List Effect) : Bool :=
  (printed effects).any isUpdatedLine

/-- Effects that store nothing and report no update. -/
structure Rejected (effects : List Effect) : Prop where
  stores_eq : stores effects = []
  reportsUpdate_eq : reportsUpdate effects = false

/-! ### Reports -/

theorem isUpdatedLine_updatedLine (address : ℤ) (datatype : Bytes) :
    isUpdatedLine (updatedLine address datatype) = true := by
  simp only [isUpdatedLine, List.isPrefixOf_iff_prefix, updatedLine, List.append_assoc]
  exact List.IsPrefix.trans (by decide) (List.prefix_append _ _)

@[simp] theorem stores_effects (u : UpdateRequest) (idx : ℤ) :
    stores (u.effects idx) = Stores.block idx (u.encoding.getD []) := by
  simp [UpdateRequest.effects, Effect.store?]

@[simp] theorem printed_effects (u : UpdateRequest) (idx : ℤ) :
    printed (u.effects idx) = [updatedLine u.address u.datatype] := by
  simp [UpdateRequest.effects, Effect.print?]

@[simp] theorem reportsUpdate_effects (u : UpdateRequest) (idx : ℤ) :
    reportsUpdate (u.effects idx) = true := by
  simp [reportsUpdate, isUpdatedLine_updatedLine]

@[simp] theorem reportsUpdate_nil : reportsUpdate [] = false := rfl

@[simp] theorem reportsUpdate_print (text : Bytes) :
    reportsUpdate [.print text] = isUpdatedLine text := by
  simp [reportsUpdate, printed, Effect.print?]

/-! ### What the processor does -/

/-- A request with one of the three commands stores nothing and reports no update. -/
theorem processCommand_of_isCommand {root : CJson} (h : isCommand root = true) (flags : Flags)
    (update : List Effect) : Rejected (processCommand root flags update).1 := by
  simp only [processCommand]
  split_ifs with hstop hstart hrunning hstatus
  · exact ⟨rfl, rfl⟩
  · exact ⟨rfl, rfl⟩
  · exact ⟨rfl, rfl⟩
  · refine ⟨rfl, ?_⟩
    cases flags.server_state <;> rfl
  · simp [isCommand, hstop, hstart, hstatus] at h

theorem processCommand_of_not_isCommand {root : CJson} (h : isCommand root = false) (flags : Flags)
    (update : List Effect) : processCommand root flags update = (update, flags) := by
  simp only [isCommand, List.mem_cons, List.not_mem_nil, or_false, decide_eq_false_iff_not,
    not_or] at h
  rw [processCommand, if_neg h.1, if_neg h.2.1, if_neg h.2.2]

/-- What `json_command_update_data` does with an update request. -/
theorem jsonCommandUpdateData_eq_of_some {json_str : Bytes} {u : UpdateRequest}
    (h : readRequest json_str = some u) (mb : Mapping) :
    jsonCommandUpdateData json_str (some mb) =
      if 0 ≤ u.address ∧ u.address < mb.nb_registers then (u.effects u.address, 0)
      else ([.print (indexOutOfBoundsLine u.address)], -1) := by
  obtain ⟨root, hroot, hu⟩ := Option.bind_eq_some_iff.mp h
  simp only [jsonCommandUpdateData, hroot, hu, valueStores_eq, UpdateRequest.effects]
  split_ifs with h h' h'
  · omega
  · rfl
  · rfl
  · omega

/-- What `json_command_update_data` does with any other text. -/
theorem jsonCommandUpdateData_eq_of_none {json_str : Bytes} (h : readRequest json_str = none)
    (mapping : Option Mapping) : jsonCommandUpdateData json_str mapping = ([], -1) := by
  rw [readRequest] at h
  rw [jsonCommandUpdateData]
  cases hroot : cJSONParse json_str with
  | none => rfl
  | some root =>
    have hu : readUpdate root = none := by simpa [hroot] using h
    simp only [hu]

/-- An update is accepted, with the return code 0, or rejected with -1. -/
theorem jsonCommandUpdateData_cases (json_str : Bytes) (mb : Mapping) :
    ((jsonCommandUpdateData json_str (some mb)).2 = 0 ∧
        ∃ u, readRequest json_str = some u ∧ (0 ≤ u.address ∧ u.address < mb.nb_registers) ∧
          (jsonCommandUpdateData json_str (some mb)).1 = u.effects u.address) ∨
      ((jsonCommandUpdateData json_str (some mb)).2 = -1 ∧
        Rejected (jsonCommandUpdateData json_str (some mb)).1 ∧
        ∀ u, readRequest json_str = some u →
          ¬(0 ≤ u.address ∧ u.address < mb.nb_registers)) := by
  cases hu : readRequest json_str with
  | none =>
    rw [jsonCommandUpdateData_eq_of_none hu]
    exact .inr ⟨rfl, ⟨rfl, rfl⟩, by simp⟩
  | some u =>
    rw [jsonCommandUpdateData_eq_of_some hu]
    by_cases hin : 0 ≤ u.address ∧ u.address < mb.nb_registers
    · rw [if_pos hin]
      exact .inl ⟨rfl, u, rfl, hin, rfl⟩
    · rw [if_neg hin]
      exact .inr ⟨rfl, ⟨rfl, rfl⟩, by simpa using hin⟩

theorem exists_of_updateRequest {json_str : Bytes} {u : UpdateRequest}
    (h : updateRequest json_str = some u) :
    ∃ root, cJSONParse json_str = some root ∧ isCommand root = false ∧
      readUpdate root = some u := by
  obtain ⟨root, hroot, hu⟩ := Option.bind_eq_some_iff.mp h
  split at hu
  · simp at hu
  · next hcmd => exact ⟨root, hroot, by simpa using hcmd, hu⟩

/-- **Update requests.** A request whose address is the index of a cell has the effects of the
update, any other address is reported; the flags stay as they are. -/
theorem jsonCommandProcess_eq_of_some {json_str : Bytes} {u : UpdateRequest}
    (h : updateRequest json_str = some u) (mb : Mapping) (flags : Flags) :
    jsonCommandProcess json_str (some mb) flags =
      (if 0 ≤ u.address ∧ u.address < mb.nb_registers then u.effects u.address
        else [.print (indexOutOfBoundsLine u.address)], flags) := by
  obtain ⟨root, hroot, hcmd, hu⟩ := exists_of_updateRequest h
  have hread : readRequest json_str = some u := Option.bind_eq_some_iff.mpr ⟨root, hroot, hu⟩
  simp only [jsonCommandProcess, hroot, processCommand_of_not_isCommand hcmd,
    jsonCommandUpdateData_eq_of_some hread]
  split <;> rfl

/-- A text that is no update request does not parse, is a command, or has no update. -/
theorem parse_of_updateRequest_eq_none {json_str : Bytes} (h : updateRequest json_str = none) :
    cJSONParse json_str = none ∨ ∃ root, cJSONParse json_str = some root ∧
      (isCommand root = true ∨ isCommand root = false ∧ readUpdate root = none) := by
  rw [updateRequest] at h
  cases hroot : cJSONParse json_str with
  | none => exact .inl rfl
  | some root =>
    refine .inr ⟨root, rfl, ?_⟩
    cases hcmd : isCommand root with
    | true => exact .inl rfl
    | false => exact .inr ⟨rfl, by simpa [hroot, hcmd] using h⟩

/-- Other texts have no effect, lead to a warning, or are commands. -/
theorem jsonCommandProcess_ways {json_str : Bytes} (h : updateRequest json_str = none)
    (mapping : Option Mapping) (flags : Flags) :
    (jsonCommandProcess json_str mapping flags).1 = [] ∨
    (∃ text, (jsonCommandProcess json_str mapping flags).1 = [.logWarn text]) ∨
    ∃ root update, isCommand root = true ∧
      (jsonCommandProcess json_str mapping flags).1 = (processCommand root flags update).1 := by
  rw [jsonCommandProcess]
  rcases parse_of_updateRequest_eq_none h with hroot | ⟨root, hroot, hcmd | ⟨hcmd, hu⟩⟩
  · rw [hroot]
    exact .inr (.inl ⟨_, rfl⟩)
  · rw [hroot]
    exact .inr (.inr ⟨root, _, hcmd, rfl⟩)
  · have hread : readRequest json_str = none := by simp [readRequest, hroot, hu]
    left
    simp only [hroot, processCommand_of_not_isCommand hcmd, jsonCommandUpdateData_eq_of_none hread]

/-- **Other texts** store nothing and report no update. -/
theorem jsonCommandProcess_of_none {json_str : Bytes} (h : updateRequest json_str = none)
    (mapping : Option Mapping) (flags : Flags) :
    Rejected (jsonCommandProcess json_str mapping flags).1 := by
  rcases jsonCommandProcess_ways h mapping flags with heq | ⟨text, heq⟩ | ⟨root, update, hcmd, heq⟩
  · rw [heq]
    exact ⟨rfl, rfl⟩
  · rw [heq]
    exact ⟨rfl, rfl⟩
  · rw [heq]
    exact processCommand_of_isCommand hcmd flags update

/-- An update request is accepted, with the address as index, or rejected. -/
theorem jsonCommandProcess_cases {json_str : Bytes} {u : UpdateRequest}
    (h : updateRequest json_str = some u) (mb : Mapping) (flags : Flags) :
    ((0 ≤ u.address ∧ u.address < mb.nb_registers) ∧
        (jsonCommandProcess json_str (some mb) flags).1 = u.effects u.address) ∨
      (¬(0 ≤ u.address ∧ u.address < mb.nb_registers) ∧
        Rejected (jsonCommandProcess json_str (some mb) flags).1) := by
  rw [jsonCommandProcess_eq_of_some h]
  by_cases hidx : 0 ≤ u.address ∧ u.address < mb.nb_registers
  · exact .inl ⟨hidx, if_pos hidx⟩
  · exact .inr ⟨hidx, by rw [if_neg hidx]; exact ⟨rfl, rfl⟩⟩

end ModbusServer
