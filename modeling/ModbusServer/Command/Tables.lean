import ModbusServer.Command.ProcessJson

/-!
# The table that a request names

An update request must have a string as its type, which is meant to name the table, such as
`holding_registers` or `coil`. Neither processor looks at the string: every accepted update goes
into the holding registers. So a register changes only for a request that names the holding
registers exactly if the type is this one, or the update changes nothing.

Source: `src/json/json_command.c`, lines 66–118; `json-modbus-server.c`, lines 209–254; the types
are those of `BUILD.md`, lines 154–163, and `test-client.ps1`, lines 46–48.

## Main definitions

* `ModbusServer.NamesHoldingRegisters`: the type of a request.
* `ModbusServer.TouchesNamed`: only the named table is changed.
* `ModbusServer.UpdateRequest.Redundant`: the registers hold the words of an update already.

## Main results

* `ModbusServer.touchesNamed_iff`: the texts for which only the named table is changed.
* `ModbusServer.not_touchesNamed`: not all texts are of this kind.
-/

namespace ModbusServer

open CInt CText

/-- The string of the member `type`. -/
def typeName (root : CJson) : Option Bytes :=
  (getObjectItemCaseSensitive root (ascii "type")).bind CJson.valuestring

/-- The type of the request is that of the holding registers. -/
def NamesHoldingRegisters (json_str : Bytes) : Prop :=
  (cJSONParse json_str).bind typeName = some (ascii "holding_registers")

/-- A holding register is changed only if the request names the holding registers. -/
def TouchesNamed (json_str : Bytes) (mb mb' : Mapping) : Prop :=
  (∃ i : ℕ, mb'.tab_registers[i]? ≠ mb.tab_registers[i]?) → NamesHoldingRegisters json_str

/-- The registers from the index `idx` on hold the words of the update already, if it has any. -/
def UpdateRequest.Redundant (u : UpdateRequest) (mb : Mapping) (idx : ℤ) : Prop :=
  ∀ words, u.encoding = some words →
    ∀ i : ℕ, ∀ c ∈ mb.tab_registers[idx.toNat + i]?, ∀ w ∈ words[i]?, c = w

section Effects

variable {json_str : Bytes} {mb : Mapping} {effects : List Effect}

/-- What stores nothing touches no table. -/
theorem Rejected.touchesNamed (h : Rejected effects) :
    TouchesNamed json_str mb (mb.apply effects) := by
  rintro ⟨i, hi⟩
  rw [Mapping.tab_registers_apply, h.stores_eq, Stores.apply_nil] at hi
  exact absurd rfl hi

/-- An update changes no register exactly if it is redundant. -/
theorem UpdateRequest.redundant_iff {u : UpdateRequest} {idx : ℤ} (h0 : 0 ≤ idx) :
    (mb.apply (u.effects idx)).tab_registers = mb.tab_registers ↔ u.Redundant mb idx := by
  rw [Mapping.tab_registers_apply, stores_effects]
  cases henc : u.encoding with
  | none => simp [Redundant, henc]
  | some words => simpa [Redundant, henc] using Stores.apply_block_eq_self_iff h0

theorem touchesNamed_effects_iff {u : UpdateRequest} {idx : ℤ} (h0 : 0 ≤ idx) :
    TouchesNamed json_str mb (mb.apply (u.effects idx)) ↔
      NamesHoldingRegisters json_str ∨ u.Redundant mb idx := by
  have hsame : (¬∃ i : ℕ, (mb.apply (u.effects idx)).tab_registers[i]? ≠ mb.tab_registers[i]?) ↔
      u.Redundant mb idx := by
    rw [← UpdateRequest.redundant_iff h0, List.ext_getElem?_iff]
    push Not
    rfl
  rw [TouchesNamed, ← hsame]
  tauto

end Effects

/-- **Only the named table is changed** exactly if the request names the holding registers, or is
not accepted, or assigns to registers what they hold already. -/
theorem touchesNamed_iff (json_str : Bytes) (mb : Mapping) (cfg : Config) (flags : Flags) :
    (TouchesNamed json_str mb (mb.apply (jsonCommandUpdateData json_str (some mb)).1) ↔
      NamesHoldingRegisters json_str ∨ ∀ u, readRequest json_str = some u →
        0 ≤ u.address → u.address < mb.nb_registers → u.Redundant mb u.address) ∧
    (TouchesNamed json_str mb (mb.apply (processJson cfg (some mb) flags json_str).1) ↔
      NamesHoldingRegisters json_str ∨ ∀ u, updateRequest json_str = some u →
        cfg.accepts mb u.address = true → u.Redundant mb (u.address - cfg.holding_regs_start)) := by
  constructor
  · rcases jsonCommandUpdateData_cases json_str mb with
      ⟨-, u, hu, ⟨h0, hn⟩, heq⟩ | ⟨-, hrejected, hout⟩
    · rw [heq, touchesNamed_effects_iff h0]
      simp [hu, h0, hn]
    · refine iff_of_true hrejected.touchesNamed (.inr fun u hu h0 hn => ?_)
      exact absurd ⟨h0, hn⟩ (hout u hu)
  · cases hu : updateRequest json_str with
    | none =>
      exact iff_of_true (processJson_of_none hu cfg (some mb) flags).touchesNamed (.inr (by simp))
    | some u =>
      rcases processJson_cases hu cfg mb flags with ⟨haccepts, heq⟩ | ⟨hout, hrejected⟩
      · rw [heq, touchesNamed_effects_iff (Config.index_nonneg haccepts)]
        simp [haccepts]
      · refine iff_of_true hrejected.touchesNamed (.inr fun u' hu' haccepts => ?_)
        obtain rfl : u = u' := Option.some.inj hu'
        simp [hout] at haccepts

/-- A value for the coil 0. -/
def coilAtZero : Bytes :=
  ascii ("\x7b\"type\":\"coil\",\"address\":0,\"datatype\":\"uint16\"," ++
    "\"byte_order\":\"LE\",\"value\":1234\x7d")

/-- Both processors write the value for a coil into a holding register. -/
theorem not_touchesNamed :
    (¬∀ (json_str : Bytes) (mb : Mapping),
      TouchesNamed json_str mb (mb.apply (jsonCommandUpdateData json_str (some mb)).1)) ∧
    ¬∀ (json_str : Bytes) (mb : Mapping) (cfg : Config) (flags : Flags),
      TouchesNamed json_str mb (mb.apply (processJson cfg (some mb) flags json_str).1) := by
  have htype : ¬NamesHoldingRegisters coilAtZero := by
    rw [NamesHoldingRegisters]
    decide +kernel
  refine ⟨fun h => ?_, fun h => ?_⟩
  · exact htype (h coilAtZero { tab_registers := [0] } ⟨0, by decide +kernel⟩)
  · exact htype (h coilAtZero { tab_registers := [0] } { nb_holding_regs := 1 }
      { server_state := .running, running := true } ⟨0, by decide +kernel⟩)

end ModbusServer
