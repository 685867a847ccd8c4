import ModbusServer.Command.Sessions
import ModbusServer.Config.Loader
import ModbusServer.Json.Memory

/-!
# The memory of the callers of the parser

The command processors and the loaders of the configuration with the trees that they parse and
delete. Each way out of a function deletes the tree of its own, if it has one;
`json_command_process` holds its tree while `json_command_update_data` parses the text once more.

A processor that is refused a block does nothing for the line. A session in which blocks are refused
is therefore a session without those lines, and no line leaves a block behind.

Source: `process_json` and `load_config`, `json-modbus-server.c`, lines 50–130 and 180–257;
`src/json/json_command.c`; `src/config/config_loader.c`.

## Main definitions

* `ModbusServer.processJsonIn`, `ModbusServer.jsonCommandProcessIn`: the processors.
* `ModbusServer.loadConfigIn`, `ModbusServer.configLoadIn`: the loaders.
* `ModbusServer.Dialog`: a session with its answers.

## Main results

* `ModbusServer.allOrNothing_processJsonIn`, `ModbusServer.allOrNothing_jsonCommandUpdateDataIn`:
  what the processors do with their trees.
* `ModbusServer.loaders_delete`: what the loaders do.
* `ModbusServer.dialogs_sublist`: sessions in which blocks are refused.
-/

namespace ModbusServer

open Allocation CText

/-! ### The processors -/

/-- The branches on the member `cmd`. Each of them deletes the tree; behind them stands `update`. -/
def processCommandIn (root : Item) (flags : Flags) (update : Heap → List Effect × Heap) (h : Heap) :
    (List Effect × Flags) × Heap :=
  let cmd := commandName root.value
  if cmd = some (ascii "stop") then
    (([.print (ascii "\x7b\"status\":\"stopping\"\x7d\n")],
      { server_state := .stopped, running := false }), root.delete h)
  else if cmd = some (ascii "start") then
    if flags.server_state = .running then
      (([.print (ascii "\x7b\"error\":\"already_running\"\x7d\n")], flags), root.delete h)
    else
      (([.print (ascii "\x7b\"status\":\"starting\"\x7d\n")],
        { flags with server_state := .running }), root.delete h)
  else if cmd = some (ascii "status") then
    (([.print (statusLine flags.server_state)], flags), root.delete h)
  else
    let (effects, h) := update h
    ((effects, flags), h)

/-- The part of `process_json` behind the commands. The program ends where it reads through a null
pointer. -/
def processUpdateIn (cfg : Config) (mb_mapping : Option Mapping) (root : Item) (h : Heap) :
    List Effect × Heap :=
  match readUpdate root.value with
  | none => ([], root.delete h)
  | some u =>
    if !cfg.inRange u.address then ([.print (addressOutOfRangeLine u.address)], root.delete h)
    else
      let idx := CInt.intSub u.address cfg.holding_regs_start
      if idx < 0 then ([.print indexErrorLine], root.delete h)
      else
        match mb_mapping with
        | none => ([.nullDereference], h)
        | some mb =>
          if mb.nb_registers ≤ idx then ([.print indexErrorLine], root.delete h)
          else
            (storeEffects (valueStores idx u.datatype u.value u.order) ++
              [.print (updatedLine u.address u.datatype)], root.delete h)

/-- `process_json`. -/
def processJsonIn (grants : ℕ → Bool) (cfg : Config) (mb_mapping : Option Mapping) (flags : Flags)
    (json_str : Bytes) (h : Heap) : (List Effect × Flags) × Heap :=
  match cJSONParseIn grants json_str h with
  | (none, h) => (([], flags), h)
  | (some root, h) => processCommandIn root flags (processUpdateIn cfg mb_mapping root) h

/-- `json_command_update_data`, with its return code. -/
def jsonCommandUpdateDataIn (grants : ℕ → Bool) (json_str : Bytes) (mapping : Option Mapping)
    (h : Heap) : (List Effect × ℤ) × Heap :=
  match cJSONParseIn grants json_str h with
  | (none, h) => (([], -1), h)
  | (some root, h) =>
    match readUpdate root.value with
    | none => (([], -1), root.delete h)
    | some u =>
      match mapping with
      | none => (([], -1), root.delete h)
      | some mb =>
        let idx := u.address
        if idx < 0 ∨ mb.nb_registers ≤ idx then
          (([.print (indexOutOfBoundsLine u.address)], -1), root.delete h)
        else
          ((storeEffects (valueStores idx u.datatype u.value u.order) ++
            [.print (updatedLine u.address u.datatype)], 0), root.delete h)

/-- `json_command_process`, which deletes its tree behind the update. -/
def jsonCommandProcessIn (grants : ℕ → Bool) (json_str : Bytes) (mapping : Option Mapping)
    (flags : Flags) (h : Heap) : (List Effect × Flags) × Heap :=
  match cJSONParseIn grants json_str h with
  | (none, h) => (([.logWarn (ascii "Failed to parse JSON command")], flags), h)
  | (some root, h) =>
    processCommandIn root flags (fun h =>
      let ((effects, _), h) := jsonCommandUpdateDataIn grants json_str mapping h
      (effects, root.delete h)) h

/-! ### The loaders -/

/-- `load_config` of `json-modbus-server.c`. -/
def loadConfigIn (grants : ℕ → Bool) (file : Option Bytes) (g : Globals) (h : Heap) :
    (ℤ × Globals) × Heap :=
  match file with
  | none => ((-1, g), h)
  | some content =>
    match cJSONParseIn grants (fileText content) h with
    | (none, h) => ((-1, g), h)
    | (some root, h) =>
      let g := g.parseMode root.value
      ((0, { g with toModbusConfig := g.toModbusConfig.parseEntries root.value }), root.delete h)

/-- `config_load` of `src/config/config_loader.c`. -/
def configLoadIn (grants : ℕ → Bool) (file : Option Bytes) (config : ModbusConfig) (h : Heap) :
    (ℤ × ModbusConfig) × Heap :=
  let config := config.setDefaults
  match file with
  | none => ((0, config), h)
  | some content =>
    match cJSONParseIn grants (fileText content) h with
    | (none, h) => ((-1, config), h)
    | (some root, h) =>
      ((0, (config.parseMode root.value).parseEntries root.value), root.delete h)

/-! ### What they do with their trees -/

section Calls

variable {grants : ℕ → Bool} {h h' : Heap} {β : Type} {full idle : β}

/-- A way out that deletes the tree. -/
theorem allOrNothing_delete {root : Item} (hh : h.Named) (hgrows : Grows h h' root.blocks) (x : β) :
    AllOrNothing grants h x idle (x, root.delete h') := by
  refine .all ?_
  rw [← List.append_nil root.blocks] at hgrows
  rw [Item.delete_eq]
  exact hgrows.freeAll hh

/-- A function that parses a text first and has nothing to do if this fails. -/
theorem allOrNothing_parse {text : Bytes} {r : β × Heap} {present : Item → Heap → β × Heap}
    (hh : h.Named)
    (hr : r = match cJSONParseIn grants text h with
      | (none, h) => (idle, h)
      | (some root, h) => present root h)
    (habsent : cJSONParse text = none → full = idle)
    (hpresent : ∀ root h', cJSONParse text = some root.value → Grows h h' root.blocks →
      AllOrNothing grants h full idle (present root h')) :
    AllOrNothing grants h full idle r := by
  subst hr
  have hp := parsed_cJSONParseIn grants text hh
  generalize cJSONParseIn grants text h = p at hp ⊢
  obtain ⟨_ | root, h'⟩ := p
  · obtain ⟨hgrows, hnone⟩ := hp.failure rfl
    exact ⟨hgrows, .inr rfl, fun hg => (habsent (hnone hg)).symm⟩
  · obtain ⟨hvalue, -, hgrows⟩ := hp.success root rfl
    exact hpresent root h' hvalue hgrows

/-- The commands, with what stands behind them. -/
theorem allOrNothing_processCommandIn {root : Item} (flags : Flags) {update : List Effect}
    (updateIn : Heap → List Effect × Heap) (hh : h.Named) (hgrows : Grows h h' root.blocks)
    (hupdate : isCommand root.value = false → AllOrNothing grants h update [] (updateIn h')) :
    AllOrNothing grants h (processCommand root.value flags update) ([], flags)
      (processCommandIn root flags updateIn h') := by
  rw [processCommand, processCommandIn]
  dsimp only
  split_ifs with hstop hstart hrunning hstatus
  · exact allOrNothing_delete hh hgrows _
  · exact allOrNothing_delete hh hgrows _
  · exact allOrNothing_delete hh hgrows _
  · exact allOrNothing_delete hh hgrows _
  · exact (hupdate (by simp [isCommand, hstop, hstart, hstatus])).map (·, flags)

/-- `process_json` frees its tree unless it ends the program. -/
theorem allOrNothing_processJsonIn (grants : ℕ → Bool) {cfg : Config}
    {mb_mapping : Option Mapping} {flags : Flags} {json_str : Bytes} (hh : h.Named)
    (hnull : .nullDereference ∉ (processJson cfg mb_mapping flags json_str).1) :
    AllOrNothing grants h (processJson cfg mb_mapping flags json_str) ([], flags)
      (processJsonIn grants cfg mb_mapping flags json_str h) := by
  rw [processJson] at hnull ⊢
  refine allOrNothing_parse hh rfl (fun hnone => by rw [hnone]) fun root h' hroot hgrows => ?_
  rw [hroot] at hnull ⊢
  dsimp only at hnull
  refine allOrNothing_processCommandIn flags _ hh hgrows fun hcmd => ?_
  rw [processCommand_of_not_isCommand hcmd, processUpdate] at hnull
  rw [processUpdate, processUpdateIn]
  cases hu : readUpdate root.value with
  | none => exact allOrNothing_delete hh hgrows _
  | some u =>
    rw [hu] at hnull
    dsimp only at hnull ⊢
    split_ifs with hrange hneg
    · exact allOrNothing_delete hh hgrows _
    · exact allOrNothing_delete hh hgrows _
    · cases mb_mapping with
      | none => simp [hrange, hneg] at hnull
      | some mb =>
        dsimp only
        split_ifs
        · exact allOrNothing_delete hh hgrows _
        · exact allOrNothing_delete hh hgrows _

theorem allOrNothing_jsonCommandUpdateDataIn (grants : ℕ → Bool) (json_str : Bytes)
    (mapping : Option Mapping) (hh : h.Named) :
    AllOrNothing grants h (jsonCommandUpdateData json_str mapping) ([], -1)
      (jsonCommandUpdateDataIn grants json_str mapping h) := by
  rw [jsonCommandUpdateData]
  refine allOrNothing_parse hh rfl (fun hnone => by rw [hnone]) fun root h' hroot hgrows => ?_
  rw [hroot]
  dsimp only
  cases readUpdate root.value with
  | none => exact allOrNothing_delete hh hgrows _
  | some u =>
    cases mapping with
    | none => exact allOrNothing_delete hh hgrows _
    | some mb =>
      dsimp only
      split_ifs
      · exact allOrNothing_delete hh hgrows _
      · exact allOrNothing_delete hh hgrows _

/-- **The loaders** delete what they have parsed, and they fail only on a file that has no value or
if a block is refused. -/
theorem loaders_delete (grants : ℕ → Bool) (file : Option Bytes) (g : Globals)
    (config : ModbusConfig) (hh : h.Named) :
    AllOrNothing grants h (loadConfig file g) (-1, g) (loadConfigIn grants file g h) ∧
    AllOrNothing grants h (configLoad file config) (-1, config.setDefaults)
      (configLoadIn grants file config h) := by
  cases file with
  | none => exact ⟨.all (.refl h), .all (.refl h)⟩
  | some content =>
    constructor
    · rw [loadConfig]
      refine allOrNothing_parse hh rfl (fun hnone => by rw [hnone]) fun root h' hroot hgrows => ?_
      rw [hroot]
      exact allOrNothing_delete hh hgrows _
    · rw [configLoad]
      refine allOrNothing_parse hh rfl (fun hnone => by rw [hnone]) fun root h' hroot hgrows => ?_
      rw [hroot]
      exact allOrNothing_delete hh hgrows _

/-! ### Sessions -/

/-- A session, with the lines it has printed. -/
structure Dialog extends Session where
  stdout : List Bytes := []

/-- What is seen of a call. -/
def Dialog.answer (d : Dialog) (r : List Effect × Flags) : Dialog where
  mapping := d.mapping.apply r.1
  flags := r.2
  stdout := d.stdout ++ printed r.1

/-- A line that nothing is done for. -/
theorem Dialog.answer_of_idle (d : Dialog) (effects : List Effect) (hstores : stores effects = [])
    (hprinted : printed effects = []) : d.answer (effects, d.flags) = d := by
  have hmapping : d.mapping.apply effects = d.mapping := by
    simp [Mapping.apply, hstores, Stores.apply]
  rw [answer, hmapping, hprinted, List.append_nil]

/-- One call of `process_json` while there is a table. -/
def serverLine (cfg : Config) (d : Dialog) (line : Bytes) : Dialog :=
  d.answer (processJson cfg (some d.mapping) d.flags line)

/-- One call of `json_command_process`. -/
def commandLine (d : Dialog) (line : Bytes) : Dialog :=
  d.answer (jsonCommandProcess line (some d.mapping) d.flags)

/-- A call of `process_json` with the blocks it allocates. -/
def serverLineIn (grants : ℕ → Bool) (cfg : Config) (d : Dialog) (line : Bytes) (h : Heap) :
    Dialog × Heap :=
  (processJsonIn grants cfg (some d.mapping) d.flags line h).map d.answer id

/-- A call of `json_command_process` with the blocks it allocates. -/
def commandLineIn (grants : ℕ → Bool) (d : Dialog) (line : Bytes) (h : Heap) : Dialog × Heap :=
  (jsonCommandProcessIn grants line (some d.mapping) d.flags h).map d.answer id

theorem allOrNothing_serverLineIn (cfg : Config) (d : Dialog) (line : Bytes) (hh : h.Named) :
    AllOrNothing grants h (serverLine cfg d line) d (serverLineIn grants cfg d line h) := by
  have hnull : .nullDereference ∉ (processJson cfg (some d.mapping) d.flags line).1 := by
    simp [nullDereference_mem_processJson_iff]
  have hcall := (allOrNothing_processJsonIn grants hh hnull).map d.answer
  rwa [d.answer_of_idle [] rfl rfl] at hcall

/-- The second tree is deleted before the first. -/
theorem allOrNothing_secondTree (grants : ℕ → Bool) {root : Item} (json_str : Bytes)
    (mapping : Option Mapping) (hh : h.Named) (hgrows : Grows h h' root.blocks) :
    AllOrNothing grants h (jsonCommandUpdateData json_str mapping).1 []
      (let ((effects, _), h) := jsonCommandUpdateDataIn grants json_str mapping h'
      (effects, root.delete h)) := by
  have hsecond := allOrNothing_jsonCommandUpdateDataIn grants json_str mapping
    (hh.of_grows hgrows)
  generalize jsonCommandUpdateDataIn grants json_str mapping h' = r at hsecond ⊢
  obtain ⟨⟨effects, code⟩, h''⟩ := r
  refine ⟨?_, hsecond.outcome.imp (congrArg Prod.fst) (congrArg Prod.fst), fun hg => ?_⟩
  · dsimp only
    rw [Item.delete_eq]
    exact (hgrows.trans hsecond.grows).freeAll hh
  · dsimp only at hg
    rw [Item.delete_eq, granted_freeAll] at hg
    exact congrArg Prod.fst (hsecond.of_granted (hg.of_left hgrows.calls_le))

theorem allOrNothing_commandLineIn (d : Dialog) (line : Bytes) (hh : h.Named) :
    AllOrNothing grants h (commandLine d line) d (commandLineIn grants d line h) := by
  have hwarn := d.answer_of_idle [.logWarn (ascii "Failed to parse JSON command")] rfl rfl
  have hnone := d.answer_of_idle [] rfl rfl
  rw [commandLine, commandLineIn, jsonCommandProcess, jsonCommandProcessIn]
  have hp := parsed_cJSONParseIn grants line hh
  generalize cJSONParseIn grants line h = p at hp ⊢
  obtain ⟨_ | root, h'⟩ := p
  · obtain ⟨hgrows, hexpected⟩ := hp.failure rfl
    refine ⟨hgrows, .inr hwarn, fun hg => ?_⟩
    rw [hexpected hg]
    rfl
  · obtain ⟨hvalue, -, hgrows⟩ := hp.success root rfl
    rw [hvalue]
    have hupdate := allOrNothing_secondTree grants line (some d.mapping) hh hgrows
    have hcall := (allOrNothing_processCommandIn d.flags
      (fun h =>
        let ((effects, _), h) := jsonCommandUpdateDataIn grants line (some d.mapping) h
        (effects, root.delete h)) hh hgrows fun _ => hupdate).map d.answer
    rwa [hnone] at hcall

/-- **Sessions in which blocks are refused.** Whatever the answers of `malloc`, a session of either
processor leaves the live blocks as they were and frees nothing twice, and its table, its flags and
its answers are those of a session without memory over some of its lines, which are all lines if no
block has been refused. -/
theorem dialogs_sublist (grants : ℕ → Bool) (cfg : Config) (d : Dialog) (hh : h.Named)
    (lines : List Bytes) :
    RunsSublist grants h (serverLine cfg) d lines (runIn (serverLineIn grants cfg) d h lines) ∧
    RunsSublist grants h commandLine d lines (runIn (commandLineIn grants) d h lines) :=
  ⟨AllOrNothing.runsSublist (fun d line _ hh => allOrNothing_serverLineIn cfg d line hh) d hh lines,
    AllOrNothing.runsSublist (fun d line _ hh => allOrNothing_commandLineIn d line hh) d hh lines⟩

end Calls

/-- The second tree of an update is refused. -/
theorem dialogs_sublist_refused :
    (runIn (commandLineIn fun k => k ≠ 15)
      { mapping := { tab_registers := [0, 0] }, flags := ⟨.running, true⟩ } {}
      [ascii "\x7b\"type\":\"x\",\"address\":1,\"datatype\":\"uint16\",\"value\":7\x7d",
        ascii "\x7b\"cmd\":\"status\"\x7d"]).2.live = ∅ :=
  (dialogs_sublist (fun k => k ≠ 15) {} _
    (show Heap.Named {} from fun b hb => absurd hb (Finset.notMem_empty b)) _).2.grows.live_eq

/-- A file without a value. -/
theorem loaders_delete_empty :
    (configLoadIn (fun _ => true) (some []) initialGlobals.toModbusConfig {}).2.live = ∅ :=
  (loaders_delete (fun _ => true) (some []) initialGlobals initialGlobals.toModbusConfig
    (show Heap.Named {} from fun b hb => absurd hb (Finset.notMem_empty b))).2.grows.live_eq

end ModbusServer
