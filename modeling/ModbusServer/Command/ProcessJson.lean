import ModbusServer.Command.JsonCommand

/-!
# The command processor of the server program

`process_json` works on the globals of the program: the configured range of the holding registers,
the pointer `mb_mapping`, which is null until the server has started, and the flags. An address is
first checked against the configured range and then, as an index, against the table.

Arithmetic on `int` wraps around. Where the sum of `holding_regs_start` and `nb_holding_regs` leaves
the range of `int`, no address passes the first check (`Config.not_inRange_of_overflow`).

Source: `json-modbus-server.c`, lines 35–36 and 180–257.

## Main definitions

* `ModbusServer.Config`: the configuration.
* `ModbusServer.processUpdate`, `ModbusServer.processJson`.
* `ModbusServer.Config.reachesTable`, `ModbusServer.Config.accepts`: the texts and the addresses
  that get through its checks.

## Main results

* `ModbusServer.processJson_eq_of_some`, `ModbusServer.processJson_of_none`: what the processor does
  with update requests and with other texts.
* `ModbusServer.nullDereference_mem_processJson_iff`: when it reads through a null pointer.
-/

namespace ModbusServer

open CInt CText

/-- The globals set by `load_config` that the command processor and the main loop read. -/
structure Config where
  enable_tcp : Bool := false
  enable_rtu : Bool := false
  unit_id : ℤ := 1
  holding_regs_start : ℤ := 0
  nb_holding_regs : ℤ := 0
  isInt_start : IsInt holding_regs_start := by decide
  isInt_nb : IsInt nb_holding_regs := by decide

/-- The line for an address outside of the configured range. -/
def addressOutOfRangeLine (address : ℤ) : Bytes :=
  ascii "\x7b\"error\":\"address_out_of_range\",\"address\":" ++ intText address ++ ascii "\x7d\n"

/-- The line for an index without a cell. -/
def indexErrorLine : Bytes := ascii "\x7b\"error\":\"index_out_of_bounds\"\x7d\n"

/-- The first check of an address. -/
def Config.inRange (cfg : Config) (addr_val : ℤ) : Bool :=
  !(decide (addr_val < cfg.holding_regs_start) ||
    decide (intAdd cfg.holding_regs_start cfg.nb_holding_regs ≤ addr_val))

/-- The part of `process_json` behind the commands. -/
def processUpdate (cfg : Config) (mb_mapping : Option Mapping) (root : CJson) : List Effect :=
  match readUpdate root with
  | none => []
  | some u =>
    if !cfg.inRange u.address then [.print (addressOutOfRangeLine u.address)]
    else
      let idx := intSub u.address cfg.holding_regs_start
      if idx < 0 then [.print indexErrorLine]
      else
        match mb_mapping with
        | none => [.nullDereference]
        | some mb =>
          if mb.nb_registers ≤ idx then [.print indexErrorLine]
          else
            storeEffects (valueStores idx u.datatype u.value u.order) ++
              [.print (updatedLine u.address u.datatype)]

/-- `process_json`, with the values it leaves in `server_state` and `running`. -/
def processJson (cfg : Config) (mb_mapping : Option Mapping) (flags : Flags) (json_str : Bytes) :
    List Effect × Flags :=
  match cJSONParse json_str with
  | none => ([], flags)
  | some root => processCommand root flags (processUpdate cfg mb_mapping root)

/-! ### Ranges -/

namespace Config

variable {cfg : Config} {a : ℤ}

theorem inRange_iff : cfg.inRange a = true ↔
    cfg.holding_regs_start ≤ a ∧ a < intAdd cfg.holding_regs_start cfg.nb_holding_regs := by
  simp [inRange]

/-- The first check is the range of the configuration if its end is an `int`. -/
theorem inRange_iff_of_isInt (h : IsInt (cfg.holding_regs_start + cfg.nb_holding_regs)) :
    cfg.inRange a = true ↔
      cfg.holding_regs_start ≤ a ∧ a < cfg.holding_regs_start + cfg.nb_holding_regs := by
  rw [inRange_iff, intAdd_eq_add h]

/-- A range whose end is beyond the limit of `int` holds no address. -/
theorem not_inRange_of_overflow
    (h : INT_MAX < cfg.holding_regs_start + cfg.nb_holding_regs) : cfg.inRange a = false := by
  have hstart := cfg.isInt_start
  have hnb := cfg.isInt_nb
  rw [← Bool.not_eq_true, inRange_iff, intAdd_of_max_lt h hstart hnb]
  rw [isInt_iff] at hstart hnb
  omega

end Config

/-! ### What the processor does -/

/-- The index of an address in range is the distance from the start, or negative. -/
theorem intSub_address {cfg : Config} {u : UpdateRequest}
    (hrange : cfg.inRange u.address = true) :
    intSub u.address cfg.holding_regs_start = u.address - cfg.holding_regs_start ∨
      (intSub u.address cfg.holding_regs_start < 0 ∧
        INT_MAX < u.address - cfg.holding_regs_start) := by
  have ha := u.isInt_address
  have hstart := cfg.isInt_start
  have hle := (Config.inRange_iff.mp hrange).1
  by_cases hint : u.address - cfg.holding_regs_start ≤ INT_MAX
  · left
    refine intSub_eq_sub ⟨?_, hint⟩
    rw [INT_MIN]
    omega
  · right
    have hlt : INT_MAX < u.address - cfg.holding_regs_start := by omega
    rw [intSub_of_max_lt hlt ha hstart]
    rw [isInt_iff] at ha hstart
    exact ⟨by omega, hlt⟩

/-- What the update part does once the table exists. -/
theorem processUpdate_eq_of_some {root : CJson} {u : UpdateRequest} (h : readUpdate root = some u)
    (cfg : Config) (mb : Mapping) :
    processUpdate cfg (some mb) root =
      if cfg.inRange u.address then
        if u.address - cfg.holding_regs_start < mb.nb_registers then
          u.effects (u.address - cfg.holding_regs_start)
        else [.print indexErrorLine]
      else [.print (addressOutOfRangeLine u.address)] := by
  have hlen : mb.nb_registers ≤ INT_MAX := mb.length_le
  simp only [processUpdate, h]
  cases hrange : cfg.inRange u.address with
  | false => rfl
  | true =>
    have hle := (Config.inRange_iff.mp hrange).1
    simp only [Bool.not_true, Bool.false_eq_true, if_false, if_true]
    rcases intSub_address hrange with heq | ⟨hneg, hmax⟩
    · rw [heq, if_neg (show ¬u.address - cfg.holding_regs_start < 0 by omega)]
      by_cases hlt : u.address - cfg.holding_regs_start < mb.nb_registers
      · rw [if_neg (not_le.mpr hlt), if_pos hlt, valueStores_eq, UpdateRequest.effects]
      · rw [if_pos (not_lt.mp hlt), if_neg hlt, indexErrorLine]
    · rw [if_pos hneg, if_neg (show ¬u.address - cfg.holding_regs_start < mb.nb_registers by omega),
        indexErrorLine]

/-- **Update requests** once the table exists. -/
theorem processJson_eq_of_some {json_str : Bytes} {u : UpdateRequest}
    (h : updateRequest json_str = some u) (cfg : Config) (mb : Mapping) (flags : Flags) :
    processJson cfg (some mb) flags json_str =
      (if cfg.inRange u.address then
        if u.address - cfg.holding_regs_start < mb.nb_registers then
          u.effects (u.address - cfg.holding_regs_start)
        else [.print indexErrorLine]
      else [.print (addressOutOfRangeLine u.address)], flags) := by
  obtain ⟨root, hroot, hcmd, hu⟩ := exists_of_updateRequest h
  simp only [processJson, hroot, processCommand_of_not_isCommand hcmd,
    processUpdate_eq_of_some hu]

/-- Other texts have no effect, or are commands. -/
theorem processJson_ways {json_str : Bytes} (h : updateRequest json_str = none) (cfg : Config)
    (mb_mapping : Option Mapping) (flags : Flags) :
    (processJson cfg mb_mapping flags json_str).1 = [] ∨
    ∃ root update, isCommand root = true ∧
      (processJson cfg mb_mapping flags json_str).1 = (processCommand root flags update).1 := by
  rw [processJson]
  rcases parse_of_updateRequest_eq_none h with hroot | ⟨root, hroot, hcmd | ⟨hcmd, hu⟩⟩
  · rw [hroot]
    exact .inl rfl
  · rw [hroot]
    exact .inr ⟨root, _, hcmd, rfl⟩
  · left
    simp only [hroot, processCommand_of_not_isCommand hcmd, processUpdate, hu]

/-- **Other texts** store nothing and report no update, whether or not the table exists. -/
theorem processJson_of_none {json_str : Bytes} (h : updateRequest json_str = none) (cfg : Config)
    (mb_mapping : Option Mapping) (flags : Flags) :
    Rejected (processJson cfg mb_mapping flags json_str).1 := by
  rcases processJson_ways h cfg mb_mapping flags with heq | ⟨root, update, hcmd, heq⟩
  · rw [heq]
    exact ⟨rfl, rfl⟩
  · rw [heq]
    exact processCommand_of_isCommand hcmd flags update

/-- Without a table nothing is stored. -/
theorem stores_processJson_none (cfg : Config) (flags : Flags) (json_str : Bytes) :
    stores (processJson cfg none flags json_str).1 = [] := by
  have hupdate (root : CJson) : stores (processUpdate cfg none root) = [] := by
    rw [processUpdate]
    cases readUpdate root with
    | none => rfl
    | some u =>
      dsimp only
      split_ifs <;> rfl
  rw [processJson]
  cases cJSONParse json_str with
  | none => rfl
  | some root =>
    simp only [processCommand]
    split_ifs
    · rfl
    · rfl
    · rfl
    · rfl
    · exact hupdate root

/-! ### Access to the table -/

/-- Does `process_json` look at the table when it is given the text? The text is an update request
whose address passes the checks in front of the first access. -/
def Config.reachesTable (cfg : Config) (json_str : Bytes) : Bool :=
  (updateRequest json_str).any fun u =>
    cfg.inRange u.address && decide (0 ≤ intSub u.address cfg.holding_regs_start)

theorem nullDereference_notMem_processCommand {root : CJson} (h : isCommand root = true)
    (flags : Flags) (update : List Effect) :
    .nullDereference ∉ (processCommand root flags update).1 := by
  simp only [processCommand]
  split_ifs with hstop hstart hrunning hstatus
  · simp
  · simp
  · simp
  · simp
  · simp [isCommand, hstop, hstart, hstatus] at h

theorem nullDereference_notMem_effects (u : UpdateRequest) (idx : ℤ) :
    .nullDereference ∉ u.effects idx := by
  simp [UpdateRequest.effects, storeEffects]

theorem nullDereference_mem_processUpdate_iff {cfg : Config} {mb_mapping : Option Mapping}
    {root : CJson} {u : UpdateRequest} (h : readUpdate root = some u) :
    .nullDereference ∈ processUpdate cfg mb_mapping root ↔ mb_mapping = none ∧
      cfg.inRange u.address = true ∧ 0 ≤ intSub u.address cfg.holding_regs_start := by
  cases mb_mapping with
  | some mb =>
    rw [processUpdate_eq_of_some h]
    split_ifs
    · simp [nullDereference_notMem_effects]
    · simp
    · simp
  | none =>
    simp only [processUpdate, h, true_and]
    split_ifs with hrange hneg
    · simpa using fun hin => absurd hin (by simpa using hrange)
    · simpa using fun _ => hneg
    · simpa using ⟨by simpa using hrange, not_lt.mp hneg⟩

/-- **A null pointer is read** exactly if there is no table and the text reaches for it. -/
theorem nullDereference_mem_processJson_iff {cfg : Config} {mb_mapping : Option Mapping}
    {flags : Flags} {json_str : Bytes} :
    .nullDereference ∈ (processJson cfg mb_mapping flags json_str).1 ↔
      mb_mapping = none ∧ cfg.reachesTable json_str = true := by
  rw [processJson, Config.reachesTable, updateRequest]
  cases hroot : cJSONParse json_str with
  | none => simp
  | some root =>
    cases hcmd : isCommand root with
    | true => simp [nullDereference_notMem_processCommand hcmd, hcmd]
    | false =>
      simp only [processCommand_of_not_isCommand hcmd, Option.bind_some, hcmd, Bool.false_eq_true,
        if_false]
      cases hu : readUpdate root with
      | none => simp [processUpdate, hu]
      | some u => simp [nullDereference_mem_processUpdate_iff hu]

/-! ### Accepted addresses -/

/-- The addresses `process_json` accepts for a given table. -/
def Config.accepts (cfg : Config) (mb : Mapping) (addr_val : ℤ) : Bool :=
  cfg.inRange addr_val && decide (addr_val - cfg.holding_regs_start < mb.nb_registers)

theorem Config.accepts_iff {cfg : Config} {mb : Mapping} {a : ℤ} : cfg.accepts mb a = true ↔
    cfg.inRange a = true ∧ a - cfg.holding_regs_start < mb.nb_registers := by
  simp [accepts]

theorem Config.index_nonneg {cfg : Config} {mb : Mapping} {a : ℤ} (h : cfg.accepts mb a = true) :
    0 ≤ a - cfg.holding_regs_start := by
  have := (inRange_iff.mp (accepts_iff.mp h).1).1
  omega

/-- An update request is accepted, with the distance from the start as index, or rejected. -/
theorem processJson_cases {json_str : Bytes} {u : UpdateRequest}
    (h : updateRequest json_str = some u) (cfg : Config) (mb : Mapping) (flags : Flags) :
    (cfg.accepts mb u.address = true ∧
        (processJson cfg (some mb) flags json_str).1 =
          u.effects (u.address - cfg.holding_regs_start)) ∨
      (cfg.accepts mb u.address = false ∧
        Rejected (processJson cfg (some mb) flags json_str).1) := by
  rw [processJson_eq_of_some h]
  cases hrange : cfg.inRange u.address with
  | false => exact .inr ⟨by simp [Config.accepts, hrange], ⟨rfl, rfl⟩⟩
  | true =>
    by_cases hlt : u.address - cfg.holding_regs_start < mb.nb_registers
    · exact .inl ⟨Config.accepts_iff.mpr ⟨hrange, hlt⟩, by simp [hlt]⟩
    · refine .inr ⟨by simpa [Config.accepts, hrange] using hlt, ?_⟩
      simp only [if_true, if_neg hlt]
      exact ⟨rfl, rfl⟩

end ModbusServer
