import ModbusServer.Config.Loader

/-!
# The range of addresses

`process_json` compares an address with the start of the configured range and with the sum of the
start and the count, and then checks the difference from the start against the table. If the table
has the configured number of registers, the second check never fails, and the two checks are exact
as long as the sum is a value of `int`. The loader takes both numbers from the file as they are, so
the sum may overflow; it is not computed for addresses below the start.

Source: `json-modbus-server.c`, lines 100–113, 217–230 and 537–546.

## Main definitions

* `ModbusServer.ExactRange`: the checks are those of the integers, without overflow.

## Main results

* `ModbusServer.exactRange_iff`: the requests for which they are.
* `ModbusServer.not_exactRange`: a configuration and a request for which they are not.
-/

namespace ModbusServer

open CInt CText

/-- For an update request, the checks let exactly the addresses of the configured range pass, the
sum and the difference do not overflow where they are computed, the index is the distance from the
start, and no address in range is reported as out of bounds. -/
structure ExactRange (cfg : Config) (mb : Mapping) (flags : Flags) (json_str : Bytes)
    (u : UpdateRequest) : Prop where
  accepted_iff : reportsUpdate (processJson cfg (some mb) flags json_str).1 = true ↔
    cfg.holding_regs_start ≤ u.address ∧
      u.address < cfg.holding_regs_start + cfg.nb_holding_regs
  effects_eq : reportsUpdate (processJson cfg (some mb) flags json_str).1 = true →
    (processJson cfg (some mb) flags json_str).1 = u.effects (u.address - cfg.holding_regs_start)
  -- the second operand of `||` is evaluated if the first is false
  sum : ¬u.address < cfg.holding_regs_start →
    IsInt (cfg.holding_regs_start + cfg.nb_holding_regs)
  difference : cfg.inRange u.address = true → IsInt (u.address - cfg.holding_regs_start)
  in_bounds : .print indexErrorLine ∉ (processJson cfg (some mb) flags json_str).1

section Lines

theorem addressOutOfRangeLine_ne (address : ℤ) :
    addressOutOfRangeLine address ≠ indexErrorLine := by
  intro h
  have htake := congrArg (List.take 20) h
  rw [addressOutOfRangeLine, List.append_assoc, List.take_append_of_le_length (by decide)] at htake
  exact absurd htake (by decide)

theorem updatedLine_ne (address : ℤ) (datatype : Bytes) :
    updatedLine address datatype ≠ indexErrorLine := by
  intro h
  have hupdated := isUpdatedLine_updatedLine address datatype
  rw [h] at hupdated
  exact absurd hupdated (by decide)

end Lines

section Range

variable {cfg : Config} {mb : Mapping} {json_str : Bytes} {u : UpdateRequest}

/-- Where the sum does not overflow, or is not computed, the first check is exact. -/
theorem Config.inRange_iff_of_sum {a : ℤ}
    (hsum : ¬a < cfg.holding_regs_start → IsInt (cfg.holding_regs_start + cfg.nb_holding_regs)) :
    cfg.inRange a = true ↔
      cfg.holding_regs_start ≤ a ∧ a < cfg.holding_regs_start + cfg.nb_holding_regs := by
  by_cases hlt : a < cfg.holding_regs_start
  · rw [inRange_iff]
    omega
  · exact inRange_iff_of_isInt (hsum hlt)

/-- With a table of the configured size the second check never fails. -/
theorem processJson_eq_of_table (hmb : mb.nb_registers = cfg.nb_holding_regs)
    (h : updateRequest json_str = some u)
    (hsum : ¬u.address < cfg.holding_regs_start →
      IsInt (cfg.holding_regs_start + cfg.nb_holding_regs)) (flags : Flags) :
    (processJson cfg (some mb) flags json_str).1 =
      if cfg.inRange u.address then u.effects (u.address - cfg.holding_regs_start)
      else [.print (addressOutOfRangeLine u.address)] := by
  rw [processJson_eq_of_some h]
  by_cases hrange : cfg.inRange u.address = true
  · obtain ⟨-, hlt⟩ := (Config.inRange_iff_of_sum hsum).mp hrange
    simp only [hrange, if_true]
    rw [if_pos (by omega)]
  · simp only [hrange]
    rfl

/-- **The checks are exact** for the requests below the start of the range, and for all requests if
the end of the range is a value of `int`. -/
theorem exactRange_iff (cfg : Config) (mb : Mapping) (flags : Flags)
    (hnb : 0 ≤ cfg.nb_holding_regs) (hmb : mb.nb_registers = cfg.nb_holding_regs)
    {json_str : Bytes} {u : UpdateRequest} (h : updateRequest json_str = some u) :
    ExactRange cfg mb flags json_str u ↔ u.address < cfg.holding_regs_start ∨
      cfg.holding_regs_start + cfg.nb_holding_regs ≤ INT_MAX := by
  have hint : IsInt (cfg.holding_regs_start + cfg.nb_holding_regs) ↔
      cfg.holding_regs_start + cfg.nb_holding_regs ≤ INT_MAX := by
    have hstart := cfg.isInt_start
    rw [isInt_iff] at hstart ⊢
    rw [INT_MAX]
    omega
  rw [← hint, or_iff_not_imp_left]
  refine ⟨fun hexact => hexact.sum, fun hsum => ?_⟩
  have hrange := Config.inRange_iff_of_sum hsum
  have heffects := processJson_eq_of_table hmb h hsum flags
  cases hin : cfg.inRange u.address with
  | true =>
    obtain ⟨hle, hlt⟩ := hrange.mp hin
    rw [if_pos hin] at heffects
    refine ⟨?_, fun _ => heffects, hsum, fun _ => ?_, ?_⟩
    · rw [heffects]
      exact iff_of_true (reportsUpdate_effects _ _) ⟨hle, hlt⟩
    · have hcount := cfg.isInt_nb
      rw [isInt_iff] at hcount ⊢
      omega
    · rw [heffects]
      simp [UpdateRequest.effects, storeEffects, (updatedLine_ne _ _).symm]
  | false =>
    rw [hin] at heffects hrange
    refine ⟨?_, fun hreports => ?_, hsum, fun hin' => ?_, ?_⟩
    · rw [heffects]
      exact iff_of_false Bool.false_ne_true (by simpa using hrange)
    · rw [heffects] at hreports
      exact absurd hreports Bool.false_ne_true
    · simp [hin] at hin'
    · rw [heffects]
      simpa using (addressOutOfRangeLine_ne u.address).symm

/-- A range of one register at the largest address. -/
def lastAddress : Bytes :=
  ascii "\x7b\"holding_registers\":\x7b\"start_address\":2147483647,\"count\":1\x7d\x7d"

/-- A value for the largest address. -/
def updateLastAddress : Bytes :=
  ascii ("\x7b\"type\":\"holding_registers\",\"address\":2147483647,\"datatype\":\"uint16\"," ++
    "\"value\":1\x7d")

/-- One register below the largest address: the request is out of range. -/
theorem exactRange_iff_updateLastAddress : ∃ u, updateRequest updateLastAddress = some u ∧
    ExactRange { holding_regs_start := 2147483646, nb_holding_regs := 1 } { tab_registers := [0] }
      { server_state := .running, running := true } updateLastAddress u := by
  have hsome : (updateRequest updateLastAddress).isSome = true := by decide +kernel
  obtain ⟨u, hu⟩ := Option.isSome_iff_exists.mp hsome
  exact ⟨u, hu, (exactRange_iff _ _ _ (by decide) (by decide) hu).mpr (.inr (by decide))⟩

/-- The loader stores the range of `lastAddress`, whose sum overflows when the address is compared
with it. -/
theorem not_exactRange : ¬∀ (content : Bytes) (mb : Mapping) (flags : Flags) (json_str : Bytes)
    (u : UpdateRequest), let cfg := (loadConfig (some content) initialGlobals).2.serverConfig
    0 ≤ cfg.nb_holding_regs → mb.nb_registers = cfg.nb_holding_regs →
      updateRequest json_str = some u → ExactRange cfg mb flags json_str u := by
  intro h
  have haddress : (updateRequest updateLastAddress).map UpdateRequest.address =
      some 2147483647 := by decide +kernel
  obtain ⟨u, hu, haddress⟩ := Option.map_eq_some_iff.mp haddress
  have hrange : (loadConfig (some lastAddress) initialGlobals).2.holding_regs =
      ⟨2147483647, 1, by decide, by decide⟩ := by decide +kernel
  have hexact := h lastAddress { tab_registers := [0] }
    { server_state := .running, running := true } updateLastAddress u (by decide +kernel)
    (by decide +kernel) hu
  have hsum := hexact.sum
  simp only [ModbusConfig.serverConfig, hrange, haddress] at hsum
  exact absurd (hsum (by decide)) (by decide)

end Range

end ModbusServer
