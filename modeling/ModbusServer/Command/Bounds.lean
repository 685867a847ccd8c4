import ModbusServer.Command.ProcessJson

/-!
# Where updates store

The two processors check the index of the first register of an update against the table, and none
of them checks the second register of a datatype that spans two. So every store goes to a cell of
the table, and every update that does not fit is rejected, except for one kind of request: a
datatype of two registers at the last index.

The processors also differ in the cell an address names. `process_json` subtracts the start of the
configured range, `json_command_update_data` does not, while a Modbus client is served from
`tab_registers[a - start_registers]`.

## Main definitions

* `ModbusServer.StaysInside`: no store outside of the table, and no update that does not fit.
* `ModbusServer.SameCell`: an update accepts and stores as a Modbus client is served.

## Main results

* `ModbusServer.staysInside_iff`: when the updates of both processors stay inside of the table.
* `ModbusServer.sameCell_iff`: when the updates of both processors agree with Modbus.
-/

namespace ModbusServer

open CInt CText

/-! ### Stores inside of the table -/

/-- Every store goes to a cell of the table, and an update whose datatype spans more registers than
the table has from the index of the request on is rejected. -/
structure StaysInside (mb : Mapping) (json_str : Bytes) (index : UpdateRequest → ℤ)
    (effects : List Effect) : Prop where
  stores_inside : ∀ s ∈ stores effects, 0 ≤ s.1 ∧ s.1 < mb.nb_registers
  rejects_unfit : ∀ u dt, updateRequest json_str = some u → u.datatype = Datatype.name dt →
    ¬(0 ≤ index u ∧ index u + dt.span ≤ mb.nb_registers) → Rejected effects

/-- The request names a datatype of two registers. -/
def UpdateRequest.IsPair (u : UpdateRequest) : Prop :=
  ∃ dt, u.datatype = Datatype.name dt ∧ dt.span = 2

theorem Datatype.span_le_two (dt : Datatype) : dt.span ≤ 2 := by
  cases dt <;> decide

theorem UpdateRequest.length_encoding_le {u : UpdateRequest} {dt : Datatype}
    (hdt : u.datatype = dt.name) : (u.encoding.getD []).length ≤ dt.span := by
  cases h : u.encoding with
  | none => simp
  | some ws => exact (UpdateRequest.length_of_encoding hdt h).le

theorem UpdateRequest.exists_datatype_of_encoding {u : UpdateRequest}
    (h : u.encoding.getD [] ≠ []) : ∃ dt, u.datatype = Datatype.name dt := by
  cases henc : u.encoding with
  | none => simp [henc] at h
  | some ws =>
    obtain ⟨dt, d, hdt, -, -⟩ := UpdateRequest.encoding_eq_some_iff.mp henc
    exact ⟨dt, hdt⟩

variable {mb : Mapping} {json_str : Bytes} {u : UpdateRequest} {index : UpdateRequest → ℤ}
  {effects : List Effect}

/-- Rejected requests stay inside of the table. -/
theorem Rejected.staysInside (h : Rejected effects) : StaysInside mb json_str index effects where
  stores_inside := by simp [h.stores_eq]
  rejects_unfit _ _ _ _ _ := h

/-- An accepted update stays inside of the table unless it is a pair at the last index. -/
theorem staysInside_effects_iff (index : UpdateRequest → ℤ) (h : updateRequest json_str = some u)
    (h0 : 0 ≤ index u) (hn : index u < mb.nb_registers) :
    StaysInside mb json_str index (u.effects (index u)) ↔
      ¬(u.IsPair ∧ index u + 1 = mb.nb_registers) := by
  constructor
  · rintro hstays ⟨⟨dt, hdt, hspan⟩, hlast⟩
    have hrejected := (hstays.rejects_unfit u dt h hdt (by omega)).reportsUpdate_eq
    simp at hrejected
  · intro hpair
    -- a datatype spans one register, or two below the last index
    have hfits (dt : Datatype) (hdt : u.datatype = dt.name) :
        index u + dt.span ≤ mb.nb_registers := by
      by_contra hspan
      have htwo := dt.span_le_two
      exact hpair ⟨⟨dt, hdt, by omega⟩, by omega⟩
    refine ⟨fun s hs => ?_, fun u' dt hu' hdt hunfit => ?_⟩
    · rw [stores_effects] at hs
      have hidx := Stores.mem_index_of_mem_block hs
      have hne : u.encoding.getD [] ≠ [] := by
        rintro hnil
        simp [hnil] at hs
      obtain ⟨dt, hdt⟩ := UpdateRequest.exists_datatype_of_encoding hne
      have hlen := UpdateRequest.length_encoding_le hdt
      have hfit := hfits dt hdt
      omega
    · obtain rfl : u = u' := Option.some.inj (h.symm.trans hu')
      exact absurd ⟨h0, hfits dt hdt⟩ hunfit

/-- **Stores stay inside of the table** in both processors, exactly unless an accepted update of two
registers starts at the last one. -/
theorem staysInside_iff (json_str : Bytes) (mb : Mapping) (cfg : Config) (flags : Flags) :
    (StaysInside mb json_str UpdateRequest.address
        (jsonCommandProcess json_str (some mb) flags).1 ↔
      ¬∃ u, updateRequest json_str = some u ∧ u.IsPair ∧
        0 ≤ u.address ∧ u.address + 1 = mb.nb_registers) ∧
    (StaysInside mb json_str (fun u => u.address - cfg.holding_regs_start)
        (processJson cfg (some mb) flags json_str).1 ↔
      ¬∃ u, updateRequest json_str = some u ∧ u.IsPair ∧
        cfg.inRange u.address = true ∧
        u.address - cfg.holding_regs_start + 1 = mb.nb_registers) := by
  cases h : updateRequest json_str with
  | none =>
    exact ⟨iff_of_true (jsonCommandProcess_of_none h _ _).staysInside (by simp),
      iff_of_true (processJson_of_none h _ _ _).staysInside (by simp)⟩
  | some u =>
    simp only [Option.some.injEq, exists_eq_left']
    constructor
    · rcases jsonCommandProcess_cases h mb flags with ⟨⟨h0, hn⟩, heq⟩ | ⟨hout, hrej⟩
      · rw [heq, staysInside_effects_iff UpdateRequest.address h h0 hn]
        simp [h0]
      · refine iff_of_true hrej.staysInside ?_
        rintro ⟨-, h0, hlast⟩
        exact hout ⟨h0, by omega⟩
    · rcases processJson_cases h cfg mb flags with ⟨hacc, heq⟩ | ⟨hout, hrej⟩
      · obtain ⟨hrange, hn⟩ := Config.accepts_iff.mp hacc
        rw [heq, staysInside_effects_iff (fun u => u.address - cfg.holding_regs_start) h
          (Config.index_nonneg hacc) hn]
        simp [hrange]
      · refine iff_of_true hrej.staysInside ?_
        rintro ⟨-, hrange, hlast⟩
        rw [← Bool.not_eq_true, Config.accepts_iff] at hout
        exact hout ⟨hrange, by omega⟩

/-- An update of two registers at address 0. -/
def pairAtZero : Bytes :=
  ascii "\x7b\"type\":\"holding_registers\"," ++
    ascii "\"address\":0,\"datatype\":\"uint32\",\"value\":1\x7d"

/-- In a table of one register the second register of `pairAtZero` is stored behind the table. -/
theorem not_staysInside : ¬∀ (json_str : Bytes) (mb : Mapping) (cfg : Config) (flags : Flags),
    StaysInside mb json_str UpdateRequest.address
        (jsonCommandProcess json_str (some mb) flags).1 ∧
      StaysInside mb json_str (fun u => u.address - cfg.holding_regs_start)
        (processJson cfg (some mb) flags json_str).1 := by
  intro h
  have hstays := (h pairAtZero { tab_registers := [0] } {} ⟨.running, true⟩).1.stores_inside (1, 0)
    (by decide +kernel)
  exact absurd hstays (by decide)

/-! ### The cell of an address -/

/-- An update of one register is accepted exactly for the addresses of the mapping, and an accepted
one stores in exactly the cell `serve mb address` that a Modbus client is served from. -/
structure SameCell (serve : Mapping → ℤ → Option ℤ) (mb : Mapping) (u : UpdateRequest)
    (effects : List Effect) : Prop where
  accepts_iff : reportsUpdate effects = true ↔
    mb.start_registers ≤ u.address ∧ u.address < mb.start_registers + mb.nb_registers
  stores_cell : reportsUpdate effects = true →
    ∃ c, serve mb u.address = some c ∧ (stores effects).map Prod.fst = [c]

theorem UpdateRequest.length_encoding_of_span {u : UpdateRequest} {dt : Datatype}
    (hdt : u.datatype = dt.name) (hspan : dt.span = 1) :
    (∃ w, u.encoding = some [w]) ↔ isNumber (some u.value) = true := by
  rw [isNumber_eq_true_iff]
  constructor
  · rintro ⟨w, hw⟩
    obtain ⟨-, d, -, hd, -⟩ := UpdateRequest.encoding_eq_some_iff.mp hw
    exact ⟨d, congrArg some hd⟩
  · rintro ⟨d, hd⟩
    have henc := UpdateRequest.encoding_of_eq hdt (Option.some.inj hd)
    have hlen := UpdateRequest.length_of_encoding hdt henc
    obtain ⟨w, hw⟩ := List.length_eq_one_iff.mp (hlen.trans hspan)
    exact ⟨w, henc.trans (congrArg some hw)⟩

/-- The indices at which an update of one register stores. -/
theorem map_fst_stores_effects_iff {dt : Datatype} (hdt : u.datatype = dt.name)
    (hspan : dt.span = 1) (idx c : ℤ) :
    (stores (u.effects idx)).map Prod.fst = [c] ↔ isNumber (some u.value) = true ∧ idx = c := by
  rw [stores_effects, ← UpdateRequest.length_encoding_of_span hdt hspan]
  cases henc : u.encoding with
  | none => simp
  | some ws =>
    obtain ⟨w, rfl⟩ := List.length_eq_one_iff.mp
      ((UpdateRequest.length_of_encoding hdt henc).trans hspan)
    simp

section Serving

/-! What is assumed of libmodbus: a client that addresses `a` is served from the cell
`a - start_registers`, and refused outside of the mapping. -/

variable {serve : Mapping → ℤ → Option ℤ}
  (hserve : ∀ mb a, serve mb a =
    if mb.start_registers ≤ a ∧ a < mb.start_registers + mb.nb_registers then
      some (a - mb.start_registers)
    else none)

include hserve in
theorem sameCell_effects_iff {dt : Datatype} (hdt : u.datatype = dt.name) (hspan : dt.span = 1)
    (idx : ℤ) : SameCell serve mb u (u.effects idx) ↔
      (mb.start_registers ≤ u.address ∧ u.address < mb.start_registers + mb.nb_registers) ∧
        isNumber (some u.value) = true ∧ idx = u.address - mb.start_registers := by
  constructor
  · rintro ⟨haccepts, hcell⟩
    have hin := haccepts.mp (reportsUpdate_effects u idx)
    obtain ⟨c, hc, hstores⟩ := hcell (reportsUpdate_effects u idx)
    rw [hserve, if_pos hin, Option.some.injEq] at hc
    exact ⟨hin, hc ▸ (map_fst_stores_effects_iff hdt hspan idx c).mp hstores⟩
  · rintro ⟨hin, hnum, hidx⟩
    refine ⟨iff_of_true (reportsUpdate_effects u idx) hin, fun _ => ?_⟩
    exact ⟨idx, by rw [hserve, if_pos hin, hidx],
      (map_fst_stores_effects_iff hdt hspan idx idx).mpr ⟨hnum, rfl⟩⟩

theorem Rejected.sameCell_iff_not (h : Rejected effects) : SameCell serve mb u effects ↔
    ¬(mb.start_registers ≤ u.address ∧ u.address < mb.start_registers + mb.nb_registers) := by
  constructor
  · rintro ⟨haccepts, -⟩ hin
    exact absurd (haccepts.mpr hin) (by simp [h.reportsUpdate_eq])
  · intro hout
    exact ⟨by simp [h.reportsUpdate_eq, hout], by simp [h.reportsUpdate_eq]⟩

include hserve in
/-- **JSON addresses and Modbus addresses.** With libmodbus serving address `a` from the cell
`a - start_registers`, updates through `json_command_process` agree with Modbus exactly if both
refuse the address or the mapping starts at zero, and updates through `process_json` always do, as
long as an accepted value is a number. -/
theorem sameCell_iff (mb : Mapping) (cfg : Config) (flags : Flags)
    (hint : IsInt (mb.start_registers + mb.nb_registers))
    (hstart : cfg.holding_regs_start = mb.start_registers)
    (hnb : cfg.nb_holding_regs = mb.nb_registers)
    (json_str : Bytes) (u : UpdateRequest) (hu : updateRequest json_str = some u)
    (dt : Datatype) (hdt : u.datatype = dt.name) (hspan : dt.span = 1) :
    (SameCell serve mb u (jsonCommandProcess json_str (some mb) flags).1 ↔
      (mb.start_registers = 0 ∧ isNumber (some u.value) = true) ∨
        (¬(0 ≤ u.address ∧ u.address < mb.nb_registers) ∧
          ¬(mb.start_registers ≤ u.address ∧
            u.address < mb.start_registers + mb.nb_registers))) ∧
    (SameCell serve mb u (processJson cfg (some mb) flags json_str).1 ↔
      (mb.start_registers ≤ u.address ∧
        u.address < mb.start_registers + mb.nb_registers → isNumber (some u.value) = true)) := by
  have haccepts : cfg.accepts mb u.address = true ↔
      mb.start_registers ≤ u.address ∧ u.address < mb.start_registers + mb.nb_registers := by
    rw [Config.accepts_iff, Config.inRange_iff_of_isInt (by rwa [hstart, hnb]), hstart, hnb]
    omega
  constructor
  · rcases jsonCommandProcess_cases hu mb flags with ⟨hacc, heq⟩ | ⟨hout, hrej⟩
    · rw [heq, sameCell_effects_iff hserve hdt hspan]
      constructor
      · rintro ⟨-, hnum, hidx⟩
        exact .inl ⟨by omega, hnum⟩
      · rintro (⟨hzero, hnum⟩ | ⟨hout, -⟩)
        · exact ⟨by omega, hnum, by omega⟩
        · exact absurd hacc hout
    · rw [hrej.sameCell_iff_not]
      constructor
      · intro h
        exact .inr ⟨hout, h⟩
      · rintro (⟨hzero, -⟩ | ⟨-, h⟩)
        · simpa [hzero] using hout
        · exact h
  · rcases processJson_cases hu cfg mb flags with ⟨hacc, heq⟩ | ⟨hout, hrej⟩
    · rw [heq, sameCell_effects_iff hserve hdt hspan, hstart]
      simp [haccepts.mp hacc]
    · rw [← Bool.not_eq_true, haccepts] at hout
      rw [hrej.sameCell_iff_not]
      exact iff_of_true hout fun h => absurd h hout

end Serving

/-- The cell from which libmodbus serves an address. -/
def modbusCell (mb : Mapping) (a : ℤ) : Option ℤ :=
  if mb.start_registers ≤ a ∧ a < mb.start_registers + mb.nb_registers then
    some (a - mb.start_registers)
  else none

/-- An update of the register with the Modbus address 40000. -/
def wordAt40000 : Bytes :=
  ascii "\x7b\"type\":\"holding_registers\"," ++
    ascii "\"address\":40000,\"datatype\":\"uint16\",\"value\":7\x7d"

theorem exists_wordAt40000 : ∃ u, updateRequest wordAt40000 = some u ∧ u.address = 40000 ∧
    u.datatype = Datatype.uint16.name ∧ isNumber (some u.value) = true := by
  obtain ⟨u, hu⟩ : ∃ u, updateRequest wordAt40000 = some u :=
    Option.isSome_iff_exists.mp (by decide +kernel)
  have hfields : (updateRequest wordAt40000).map (fun u =>
      (u.address, u.datatype, isNumber (some u.value))) =
        some (40000, Datatype.uint16.name, true) := by
    decide +kernel
  rw [hu, Option.map_some, Option.some.injEq, Prod.mk.injEq, Prod.mk.injEq] at hfields
  exact ⟨u, hu, hfields⟩

/-- The mapping of the shipped configuration, with two registers from address 40000 on. -/
def mappingAt40000 : Mapping := { start_registers := 40000, tab_registers := [0, 0] }

/-- With registers from 40000 on, `wordAt40000` goes to the served cell in one processor only. -/
theorem sameCell_wordAt40000 : ∃ u, updateRequest wordAt40000 = some u ∧
    ¬SameCell modbusCell mappingAt40000 u
      (jsonCommandProcess wordAt40000 (some mappingAt40000) ⟨.running, true⟩).1 ∧
    SameCell modbusCell mappingAt40000 u
      (processJson { holding_regs_start := 40000, nb_holding_regs := 2 } (some mappingAt40000)
        ⟨.running, true⟩ wordAt40000).1 := by
  obtain ⟨u, hu, haddress, hdt, hnum⟩ := exists_wordAt40000
  have h := sameCell_iff (fun _ _ => rfl) mappingAt40000
    { holding_regs_start := 40000, nb_holding_regs := 2 } ⟨.running, true⟩ (by decide) rfl rfl
    wordAt40000 u hu .uint16 hdt rfl
  refine ⟨u, hu, fun hsame => ?_, h.2.mpr fun _ => hnum⟩
  rcases h.1.mp hsame with ⟨hzero, -⟩ | ⟨-, hout⟩
  · exact absurd hzero (by decide)
  · rw [haddress] at hout
    exact hout (by decide)

/-- The register with the Modbus address 40000 cannot be updated through `json_command_process`. -/
theorem not_sameCell : ¬∀ (mb : Mapping) (flags : Flags) (json_str : Bytes) (u : UpdateRequest),
    0 ≤ mb.start_registers → IsInt (mb.start_registers + mb.nb_registers) →
    updateRequest json_str = some u → (∃ dt, u.datatype = Datatype.name dt ∧ dt.span = 1) →
    SameCell modbusCell mb u (jsonCommandProcess json_str (some mb) flags).1 := by
  intro h
  obtain ⟨u, hu, haddress, hdt, -⟩ := exists_wordAt40000
  have hsame := h mappingAt40000 ⟨.running, true⟩ wordAt40000 u (by decide) (by decide) hu
    ⟨.uint16, hdt, rfl⟩
  rcases jsonCommandProcess_cases hu mappingAt40000 ⟨.running, true⟩ with ⟨hin, -⟩ | ⟨-, hrej⟩
  · rw [haddress] at hin
    exact absurd hin (by decide)
  · rw [hrej.sameCell_iff_not, haddress] at hsame
    exact hsame (by decide)

end ModbusServer
