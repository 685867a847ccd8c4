import ModbusServer.Command.ProcessJson
import ModbusServer.Command.Requested

/-!
# Reading values back

The registers of an integer datatype, read back in the byte order that an update asks for, give the
number the update was sent with. The number reaches the store as the field `valueint`,
which is saturated at the limits of `int`, so a `uint32` beyond these limits comes back as the
largest `int`; every other value in the range of its datatype comes back as it is.

## Main definitions

* `ModbusServer.Survives`: an update succeeds, reads back, and changes nothing else.

## Main results

* `ModbusServer.survives_iff`: which numbers survive an update through the two processors.
-/

namespace ModbusServer

open CInt CText

/-! ### Updates -/

/-- The update of a datatype from the index `idx` on is reported, its registers read back as `v` in
the order, and every other register is as before. -/
structure Survives (mb : Mapping) (order : ByteOrder) (dt : Datatype) (idx v : ℤ)
    (effects : List Effect) : Prop where
  succeeds : reportsUpdate effects = true
  reads_back : dt.decode order
    (((mb.apply effects).tab_registers.drop idx.toNat).take dt.span) = v
  frame : ∀ i : ℕ, i < idx ∨ idx + dt.span ≤ i →
    (mb.apply effects).tab_registers[i]? = mb.tab_registers[i]?

theorem Rejected.not_survives {mb : Mapping} {order : ByteOrder} {dt : Datatype} {idx v : ℤ}
    {effects : List Effect} (h : Rejected effects) : ¬Survives mb order dt idx v effects :=
  fun hs => absurd hs.succeeds (by simp [h.reportsUpdate_eq])

/-- An accepted update that fits in the table survives if its number reads back. -/
theorem survives_effects_iff {mb : Mapping} {u : UpdateRequest} {dt : Datatype} {d : Double}
    {idx v : ℤ} (hdt : u.datatype = dt.name) (hd : u.value = .number d) (hrange : dt.InRange v)
    (hv : (d == Float.Model.ofInt v) = true) (h0 : 0 ≤ idx)
    (hfits : idx + dt.span ≤ mb.nb_registers) :
    Survives mb u.order dt idx v (u.effects idx) ↔ ¬(dt = .uint32 ∧ INT_MAX < v) := by
  have henc := UpdateRequest.encoding_of_eq hdt hd
  have hlen : (permuteWords (dt.words d) u.order).length = dt.span := by simp
  have htable : (mb.apply (u.effects idx)).tab_registers =
      Stores.apply mb.tab_registers (Stores.block idx (permuteWords (dt.words d) u.order)) := by
    rw [Mapping.tab_registers_apply, stores_effects, henc, Option.getD_some]
  have hread := registers_effects hdt hd h0 hfits
  rw [← decode_words_eq_iff hrange hv u.order]
  constructor
  · intro h
    rw [← hread]
    exact h.reads_back
  · intro h
    refine ⟨reportsUpdate_effects u idx, by rw [hread, h], fun i hi => ?_⟩
    rw [htable]
    exact Stores.getElem?_apply_block_of_outside (by rwa [hlen])

/-- **Integers survive the encoding.** For every integer of the range of its datatype, in the byte
order that the text asks for, at every index where the datatype fits: an update through
`json_command_process` gives the integer back unless it is a `uint32` beyond the limit of `int`, and
so does an update through `process_json` if moreover the end of the configured range is an `int`.
-/
theorem survives_iff (json_str : Bytes) (u : UpdateRequest) (hu : updateRequest json_str = some u)
    (dt : Datatype) (hdt : u.datatype = dt.name) (d : Double) (hd : u.value = .number d) (v : ℤ)
    (hv : (d == Float.Model.ofInt v) = true) (hrange : dt.InRange v) (mb : Mapping) (cfg : Config)
    (hnb : cfg.nb_holding_regs = mb.nb_registers) (flags : Flags) :
    (0 ≤ u.address → u.address + dt.span ≤ mb.nb_registers →
      (Survives mb (requestedOrder json_str) dt u.address v
          (jsonCommandProcess json_str (some mb) flags).1 ↔
        ¬(dt = .uint32 ∧ INT_MAX < v))) ∧
    (cfg.holding_regs_start ≤ u.address →
      u.address - cfg.holding_regs_start + dt.span ≤ mb.nb_registers →
      (Survives mb (requestedOrder json_str) dt (u.address - cfg.holding_regs_start) v
          (processJson cfg (some mb) flags json_str).1 ↔
        ¬(dt = .uint32 ∧ INT_MAX < v) ∧
          cfg.holding_regs_start + cfg.nb_holding_regs ≤ INT_MAX)) := by
  have hspan := dt.span_pos
  rw [← order_of_updateRequest hu]
  constructor
  · intro h0 hfits
    rcases jsonCommandProcess_cases hu mb flags with ⟨-, heq⟩ | ⟨hout, -⟩
    · rw [heq, survives_effects_iff hdt hd hrange hv h0 hfits]
    · exact absurd ⟨h0, by omega⟩ hout
  · intro h0 hfits
    by_cases hmax : cfg.holding_regs_start + cfg.nb_holding_regs ≤ INT_MAX
    · have hint : IsInt (cfg.holding_regs_start + cfg.nb_holding_regs) := by
        have hstart := cfg.isInt_start.1
        exact ⟨by omega, hmax⟩
      rcases processJson_cases hu cfg mb flags with ⟨-, heq⟩ | ⟨hout, -⟩
      · rw [heq, survives_effects_iff hdt hd hrange hv (by omega) hfits]
        simp [hmax]
      · rw [← Bool.not_eq_true, Config.accepts_iff, Config.inRange_iff_of_isInt hint] at hout
        exact absurd ⟨⟨h0, by omega⟩, by omega⟩ hout
    · have hout := Config.not_inRange_of_overflow (a := u.address) (not_le.mp hmax)
      rcases processJson_cases hu cfg mb flags with ⟨hacc, -⟩ | ⟨-, hrej⟩
      · rw [Config.accepts_iff, hout] at hacc
        simp at hacc
      · exact iff_of_false hrej.not_survives fun h => hmax h.2

/-! ### Two requests -/

/-- An update of an `int32` at address 1, high word first. -/
def int32AtOne : Bytes :=
  ascii "\x7b\"type\":\"holding_registers\"," ++
    ascii "\"address\":1,\"datatype\":\"int32\",\"byte_order\":\"be\",\"value\":-70000\x7d"

/-- An update of a `uint32` beyond the limit of `int`. -/
def uint32AtOne : Bytes :=
  ascii "\x7b\"type\":\"holding_registers\"," ++
    ascii "\"address\":1,\"datatype\":\"uint32\",\"value\":3000000000\x7d"

/-- `int32AtOne` gives `-70000` back through both processors. -/
theorem survives_int32AtOne : requestedOrder int32AtOne = .be ∧
    Survives { tab_registers := [7, 7, 7, 7] } (requestedOrder int32AtOne) .int32 1 (-70000)
      (jsonCommandProcess int32AtOne (some { tab_registers := [7, 7, 7, 7] }) ⟨.running, true⟩).1 ∧
    Survives { tab_registers := [7, 7, 7, 7] } (requestedOrder int32AtOne) .int32 1 (-70000)
      (processJson { nb_holding_regs := 4 } (some { tab_registers := [7, 7, 7, 7] })
        ⟨.running, true⟩ int32AtOne).1 := by
  obtain ⟨u, d, hu, haddress, hdt, hd, hv⟩ : ∃ u d, updateRequest int32AtOne = some u ∧
      u.address = 1 ∧ u.datatype = Datatype.int32.name ∧ u.value = .number d ∧
      (d == Float.Model.ofInt (-70000)) = true := exists_request (by decide +kernel)
  have h := survives_iff int32AtOne u hu .int32 hdt d hd (-70000) hv (by decide)
    { tab_registers := [7, 7, 7, 7] } { nb_holding_regs := 4 } rfl ⟨.running, true⟩
  rw [haddress] at h
  exact ⟨by decide +kernel, (h.1 (by decide) (by decide)).mpr (by decide),
    (h.2 (by decide) (by decide)).mpr (by decide)⟩

/-- `uint32AtOne` is stored as the largest `int`. -/
theorem not_survives : ¬∀ (json_str : Bytes) (u : UpdateRequest) (dt : Datatype) (d : Double)
    (v : ℤ) (mb : Mapping) (flags : Flags), updateRequest json_str = some u → u.datatype = dt.name →
    u.value = .number d → (d == Float.Model.ofInt v) = true → dt.InRange v → 0 ≤ u.address →
    u.address + dt.span ≤ mb.nb_registers →
    Survives mb (requestedOrder json_str) dt u.address v
      (jsonCommandProcess json_str (some mb) flags).1 := by
  intro h
  obtain ⟨u, d, hu, haddress, hdt, hd, hv⟩ : ∃ u d, updateRequest uint32AtOne = some u ∧
      u.address = 1 ∧ u.datatype = Datatype.uint32.name ∧ u.value = .number d ∧
      (d == Float.Model.ofInt 3000000000) = true := exists_request (by decide +kernel)
  have hsurvives := h uint32AtOne u .uint32 d 3000000000 { tab_registers := [7, 7, 7, 7] }
    ⟨.running, true⟩ hu hdt hd hv (by decide) (by rw [haddress]; decide) (by rw [haddress]; decide)
  rw [← order_of_updateRequest hu] at hsurvives
  rcases jsonCommandProcess_cases hu { tab_registers := [7, 7, 7, 7] } ⟨.running, true⟩ with
    ⟨-, heq⟩ | ⟨hout, -⟩
  · rw [heq] at hsurvives
    refine (survives_effects_iff hdt hd (by decide) hv ?_ ?_).mp hsurvives ⟨rfl, by decide⟩
    · rw [haddress]
      decide
    · rw [haddress]
      decide
  · rw [haddress] at hout
    exact hout (by decide)

end ModbusServer
