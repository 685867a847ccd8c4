import ModbusServer.Command.ProcessJson
import ModbusServer.Command.Requested

/-!
# What an update reply says

Both processors report an update behind the chain of datatypes, whether or not one of its arms was
taken, and they check only the first register of the update. The report is true if the registers of
the request, read in the byte order that it asks for, give its number: so the request must name one
of the five datatypes, have as value a number that the datatype holds and that reaches the store,
and fit in the table.

## Main definitions

* `ModbusServer.Assigned`: every register of the datatype has been assigned, and together they give
  the number.
* `ModbusServer.TellsTruth`: what an update reply promises.

## Main results

* `ModbusServer.tellsTruth_iff`: for which texts the replies of both processors are true.
-/

namespace ModbusServer

open CInt CText

/-- The request names a datatype and has a number as value; the registers that the datatype spans
from the index `idx` on were all assigned, and read in the order they give the number. -/
def Assigned (mb : Mapping) (order : ByteOrder) (u : UpdateRequest) (idx : ℤ)
    (effects : List Effect) : Prop :=
  ∃ dt d, u.datatype = Datatype.name dt ∧ u.value = .number d ∧ 0 ≤ idx ∧
    dt.Gives order (((mb.apply effects).tab_registers.drop idx.toNat).take dt.span) d ∧
    ∀ k < dt.span, ∃ w, Stores.lastAt (stores effects) (idx + k) = some w ∧
      (mb.apply effects).tab_registers[idx.toNat + k]? = some w

/-- An accepted request is an update whose registers have been assigned, and a request that is not
accepted has changed no register. -/
structure TellsTruth (mb : Mapping) (order : ByteOrder) (request : Option UpdateRequest)
    (index : UpdateRequest → ℤ) (accepted : Prop) (effects : List Effect) : Prop where
  updated : accepted → ∃ u, request = some u ∧ Assigned mb order u (index u) effects
  rejected : ¬accepted → (mb.apply effects).tab_registers = mb.tab_registers

/-- The request names a datatype, has as value a number that the datatype keeps, and fits from the
index `idx` on. -/
def UpdateRequest.Storable (u : UpdateRequest) (mb : Mapping) (idx : ℤ) : Prop :=
  ∃ dt d, u.datatype = Datatype.name dt ∧ u.value = .number d ∧ dt.Keeps d ∧
    idx + dt.span ≤ mb.nb_registers

theorem assigned_effects_iff {mb : Mapping} {u : UpdateRequest} {idx : ℤ} (h0 : 0 ≤ idx) :
    Assigned mb u.order u idx (u.effects idx) ↔ u.Storable mb idx := by
  constructor
  · rintro ⟨dt, d, hdt, hd, -, hgives, hcells⟩
    have hspan := dt.span_pos
    -- the last register of the datatype is a cell of the table
    have hfits : idx + dt.span ≤ mb.nb_registers := by
      obtain ⟨w, -, hw⟩ := hcells (dt.span - 1) (by omega)
      obtain ⟨hlt, -⟩ := List.getElem?_eq_some_iff.mp hw
      rw [Mapping.tab_registers_apply, Stores.length_apply] at hlt
      rw [Mapping.nb_registers]
      omega
    rw [registers_effects hdt hd h0 hfits, gives_words_iff] at hgives
    exact ⟨dt, d, hdt, hd, hgives, hfits⟩
  · rintro ⟨dt, d, hdt, hd, hkeeps, hfits⟩
    have hread := registers_effects hdt hd h0 hfits
    refine ⟨dt, d, hdt, hd, h0, by rw [hread]; exact gives_words_iff.mpr hkeeps, fun k hk => ?_⟩
    have hlen : k < (permuteWords (dt.words d) u.order).length := by simpa using hk
    refine ⟨_, (lastAt_effects hdt hd idx k).trans (List.getElem?_eq_getElem hlen), ?_⟩
    rw [← List.getElem?_eq_getElem hlen, ← hread, List.getElem?_take, if_pos hk,
      List.getElem?_drop]

variable {mb : Mapping} {order : ByteOrder} {request : Option UpdateRequest} {u : UpdateRequest}
  {index : UpdateRequest → ℤ} {accepted : Prop} {effects : List Effect}

theorem Rejected.tellsTruth (h : Rejected effects) (hacc : ¬accepted) :
    TellsTruth mb order request index accepted effects where
  updated ha := absurd ha hacc
  rejected _ := by rw [Mapping.tab_registers_apply, h.stores_eq, Stores.apply_nil]

theorem tellsTruth_effects_iff (index : UpdateRequest → ℤ) (hu : request = some u)
    (hacc : accepted) (h0 : 0 ≤ index u) :
    TellsTruth mb u.order request index accepted (u.effects (index u)) ↔
      u.Storable mb (index u) := by
  rw [← assigned_effects_iff h0]
  constructor
  · intro h
    obtain ⟨u', hu', hassigned⟩ := h.updated hacc
    obtain rfl : u = u' := Option.some.inj (hu.symm.trans hu')
    exact hassigned
  · intro h
    exact ⟨fun _ => ⟨u, hu, h⟩, fun hrej => absurd hacc hrej⟩

/-- **What the replies say is true** exactly if every update whose first register is in the table
names a datatype, has as value a number that the datatype keeps, and fits. The return code of
`json_command_update_data` is 0 or -1, and 0 exactly if the update is reported. -/
theorem tellsTruth_iff (json_str : Bytes) (mb : Mapping) (cfg : Config) (flags : Flags) :
    ((jsonCommandUpdateData json_str (some mb)).2 = 0 ∨
      (jsonCommandUpdateData json_str (some mb)).2 = -1) ∧
    ((jsonCommandUpdateData json_str (some mb)).2 = 0 ↔
      reportsUpdate (jsonCommandUpdateData json_str (some mb)).1 = true) ∧
    (TellsTruth mb (requestedOrder json_str) (readRequest json_str) UpdateRequest.address
        ((jsonCommandUpdateData json_str (some mb)).2 = 0)
        (jsonCommandUpdateData json_str (some mb)).1 ↔
      ∀ u, readRequest json_str = some u → 0 ≤ u.address → u.address < mb.nb_registers →
        u.Storable mb u.address) ∧
    (TellsTruth mb (requestedOrder json_str) (updateRequest json_str)
        (fun u => u.address - cfg.holding_regs_start)
        (reportsUpdate (processJson cfg (some mb) flags json_str).1 = true)
        (processJson cfg (some mb) flags json_str).1 ↔
      ∀ u, updateRequest json_str = some u → cfg.accepts mb u.address = true →
        u.Storable mb (u.address - cfg.holding_regs_start)) := by
  have hdata := jsonCommandUpdateData_cases json_str mb
  refine ⟨?code, ?report, ?data, ?process⟩
  case code =>
    rcases hdata with ⟨hcode, -⟩ | ⟨hcode, -⟩
    · exact .inl hcode
    · exact .inr hcode
  case report =>
    rcases hdata with ⟨hcode, u, -, -, heq⟩ | ⟨hcode, hrej, -⟩
    · simp [hcode, heq]
    · simp [hcode, hrej.reportsUpdate_eq]
  case data =>
    rcases hdata with ⟨hcode, u, hu, ⟨h0, hn⟩, heq⟩ | ⟨hcode, hrej, hout⟩
    · rw [heq, ← order_of_readRequest hu,
        tellsTruth_effects_iff UpdateRequest.address hu hcode h0]
      simp [hu, h0, hn]
    · refine iff_of_true (hrej.tellsTruth (by simp [hcode])) fun u hu h0 hn => ?_
      exact absurd ⟨h0, hn⟩ (hout u hu)
  case process =>
    cases hu : updateRequest json_str with
    | none =>
      have hrej := processJson_of_none hu cfg (some mb) flags
      exact iff_of_true (hrej.tellsTruth (by simp [hrej.reportsUpdate_eq])) (by simp)
    | some u =>
      rcases processJson_cases hu cfg mb flags with ⟨hacc, heq⟩ | ⟨hout, hrej⟩
      · rw [heq, ← order_of_updateRequest hu,
          tellsTruth_effects_iff (fun u => u.address - cfg.holding_regs_start) rfl
          (reportsUpdate_effects _ _) (Config.index_nonneg hacc)]
        simp [hacc]
      · refine iff_of_true (hrej.tellsTruth (by simp [hrej.reportsUpdate_eq])) fun u' hu' hacc => ?_
        obtain rfl : u = u' := Option.some.inj hu'
        simp [hout] at hacc

/-- An update of a datatype that does not exist. -/
def doubleAtZero : Bytes :=
  ascii "\x7b\"type\":\"holding_registers\"," ++
    ascii "\"address\":0,\"datatype\":\"double\",\"value\":1\x7d"

/-- `doubleAtZero` is reported as an update and stores nothing. -/
theorem not_tellsTruth : ¬∀ (json_str : Bytes) (mb : Mapping) (cfg : Config) (flags : Flags),
    TellsTruth mb (requestedOrder json_str) (readRequest json_str) UpdateRequest.address
        ((jsonCommandUpdateData json_str (some mb)).2 = 0)
        (jsonCommandUpdateData json_str (some mb)).1 ∧
      TellsTruth mb (requestedOrder json_str) (updateRequest json_str)
        (fun u => u.address - cfg.holding_regs_start)
        (reportsUpdate (processJson cfg (some mb) flags json_str).1 = true)
        (processJson cfg (some mb) flags json_str).1 := by
  intro h
  obtain ⟨u, hu, dt, d, hdt, -⟩ := (h doubleAtZero { tab_registers := [0] } {}
    ⟨.running, true⟩).1.updated (by decide +kernel)
  have hname : (readRequest doubleAtZero).map UpdateRequest.datatype = some (ascii "double") := by
    decide +kernel
  rw [hu, Option.map_some, Option.some.injEq, hdt] at hname
  revert hname
  cases dt <;> decide

end ModbusServer
