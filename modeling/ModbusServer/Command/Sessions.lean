import ModbusServer.Command.Bounds
import ModbusServer.Command.Requested
import ModbusServer.Foundation.Runs

/-!
# Sessions

A session is a list of lines given to `json_command_process` with the same table throughout. The
stores of a line do not depend on the contents of the table, so the table after a session is the
table before it with the stores of all lines applied in their order, and a register holds the word
of the last update that assigned it. That word is the one of the number and the byte order that the
line asks for, as long as the integer part of the number is an `int`: the store is done with
`valueint`, which is saturated.

## Main definitions

* `ModbusServer.Session`, `ModbusServer.processLine`, `ModbusServer.session`.
* `ModbusServer.assigned`: the word a line assigns to a register.
* `ModbusServer.StoresInt`: a line whose number is not saturated.

## Main results

* `ModbusServer.tab_registers_session`: the table after a session.
* `ModbusServer.lastWriter`: the last writer wins.
-/

namespace ModbusServer

open CText

/-- The table and the flags between two lines. -/
structure Session where
  mapping : Mapping
  flags : Flags

/-- One call of `json_command_process`. -/
def processLine (s : Session) (line : Bytes) : Session :=
  let (effects, flags) := jsonCommandProcess line (some s.mapping) s.flags
  { mapping := s.mapping.apply effects, flags := flags }

/-- The lines of a session, one after the other. -/
def session (s : Session) (lines : List Bytes) : Session :=
  Runs.run processLine s lines

/-- The word that a line assigns to the register `i` of a table of `n` registers: the line is an
update of a supported datatype by a number, its address is the index of a cell, the register is one
of those it spans, and the word is the one that encodes the number there in the order of the
line. -/
def assigned (n : ℤ) (i : ℕ) (line : Bytes) : Option Word :=
  (updateRequest line).bind fun u =>
    match Datatype.ofName u.datatype, u.value with
    | some dt, .number d =>
      if 0 ≤ u.address ∧ u.address < n ∧ u.address ≤ i then
        (dt.encode (requestedOrder line) d).bind fun ws => ws[(i - u.address).toNat]?
      else none
    | _, _ => none

/-- If the line is an accepted update of an integer datatype by a number, the integer part of the
number is an `int`. -/
def StoresInt (n : ℤ) (line : Bytes) : Prop :=
  ∀ u dt d, updateRequest line = some u → u.datatype = Datatype.name dt → u.value = .number d →
    0 ≤ u.address → u.address < n → dt = .float ∨ IntPart d

/-- The stores of a line with a table of `n` registers. -/
def lineStores (n : ℤ) (line : Bytes) : List (ℤ × Word) :=
  match updateRequest line with
  | some u =>
    if 0 ≤ u.address ∧ u.address < n then Stores.block u.address (u.encoding.getD []) else []
  | none => []

/-! ### The stores of a line -/

theorem stores_jsonCommandProcess (line : Bytes) (mb : Mapping) (flags : Flags) :
    stores (jsonCommandProcess line (some mb) flags).1 = lineStores mb.nb_registers line := by
  rw [lineStores]
  cases hu : updateRequest line with
  | none => exact (jsonCommandProcess_of_none hu _ _).stores_eq
  | some u =>
    rcases jsonCommandProcess_cases hu mb flags with ⟨hin, heq⟩ | ⟨hout, hrej⟩
    · simp only [heq, stores_effects, if_pos hin]
    · simp only [hrej.stores_eq, if_neg hout]

/-- The word that an update of a supported datatype by a number assigns. -/
theorem assigned_of_eq {n : ℤ} {line : Bytes} {u : UpdateRequest} {dt : Datatype} {d : Double}
    (hu : updateRequest line = some u) (hdt : u.datatype = dt.name) (hd : u.value = .number d)
    (i : ℕ) : assigned n i line =
      if 0 ≤ u.address ∧ u.address < n ∧ u.address ≤ i then
        (dt.encode (requestedOrder line) d).bind fun ws => ws[(i - u.address).toNat]?
      else none := by
  rw [assigned, hu, Option.bind_some, Datatype.ofName_eq_some_iff.mpr hdt, hd]

/-- The last store of a line into a register is the word that the line assigns to it. -/
theorem lastAt_lineStores {n : ℤ} {line : Bytes} (h : StoresInt n line) (i : ℕ) :
    Stores.lastAt (lineStores n line) i = assigned n i line := by
  rw [lineStores]
  cases hu : updateRequest line with
  | none => rw [assigned, hu]; rfl
  | some u =>
    simp only
    by_cases henc : ∃ dt d, u.datatype = Datatype.name dt ∧ u.value = .number d
    · obtain ⟨dt, d, hdt, hd⟩ := henc
      rw [assigned_of_eq hu hdt hd]
      by_cases hin : 0 ≤ u.address ∧ u.address < n
      · rw [if_pos hin, Stores.lastAt_block, UpdateRequest.encoding_of_eq hdt hd,
          encode_eq (h u dt d hu hdt hd hin.1 hin.2), order_of_updateRequest hu]
        by_cases hle : u.address ≤ i
        · rw [if_pos hle, if_pos ⟨hin.1, hin.2, hle⟩]
          rfl
        · rw [if_neg hle, if_neg fun h => hle h.2.2]
      · rw [if_neg hin, if_neg fun h => hin ⟨h.1, h.2.1⟩, Stores.lastAt_nil]
    · have hnone : u.encoding = none := by
        refine Option.eq_none_iff_forall_ne_some.mpr fun ws hws => henc ?_
        obtain ⟨dt, d, hdt, hd, -⟩ := UpdateRequest.encoding_eq_some_iff.mp hws
        exact ⟨dt, d, hdt, hd⟩
      have hassigned : assigned n i line = none := by
        rw [assigned, hu, Option.bind_some]
        split
        · next dt d hdt hd => exact absurd ⟨dt, d, Datatype.ofName_eq_some_iff.mp hdt, hd⟩ henc
        · rfl
      rw [hassigned, hnone, Option.getD_none, Stores.block_nil, ite_self, Stores.lastAt_nil]

theorem tab_registers_processLine (s : Session) (line : Bytes) :
    (processLine s line).mapping.tab_registers =
      Stores.apply s.mapping.tab_registers (lineStores s.mapping.nb_registers line) := by
  rw [← stores_jsonCommandProcess line s.mapping s.flags]
  rfl

theorem nb_registers_processLine (s : Session) (line : Bytes) :
    (processLine s line).mapping.nb_registers = s.mapping.nb_registers :=
  Mapping.nb_registers_apply _ _

theorem session_cons (s : Session) (line : Bytes) (lines : List Bytes) :
    session s (line :: lines) = session (processLine s line) lines := rfl

/-- The table after a session. -/
theorem tab_registers_session (s : Session) (lines : List Bytes) :
    (session s lines).mapping.tab_registers =
      Stores.apply s.mapping.tab_registers (lines.flatMap (lineStores s.mapping.nb_registers)) := by
  induction lines generalizing s with
  | nil => rfl
  | cons line lines ih =>
    rw [session_cons, ih, nb_registers_processLine, tab_registers_processLine, List.flatMap_cons,
      Stores.apply_append]

theorem nb_registers_session (s : Session) (lines : List Bytes) :
    (session s lines).mapping.nb_registers = s.mapping.nb_registers := by
  rw [Mapping.nb_registers, tab_registers_session, Stores.length_apply, Mapping.nb_registers]

/-- A store of a line is one of an accepted update of a datatype by a number, into a register that
the datatype spans. -/
theorem exists_of_mem_lineStores {n : ℤ} {line : Bytes} {s : ℤ × Word}
    (hs : s ∈ lineStores n line) : ∃ u dt, updateRequest line = some u ∧
      (0 ≤ u.address ∧ u.address < n) ∧ u.datatype = Datatype.name dt ∧
      isNumber (some u.value) = true ∧ u.address ≤ s.1 ∧ s.1 < u.address + dt.span := by
  rw [lineStores] at hs
  cases hu : updateRequest line with
  | none => simp [hu] at hs
  | some u =>
    rw [hu] at hs
    simp only at hs
    split at hs
    · next hin =>
      cases henc : u.encoding with
      | none => simp [henc] at hs
      | some ws =>
        obtain ⟨dt, d, hdt, hd, -⟩ := UpdateRequest.encoding_eq_some_iff.mp henc
        have hidx := Stores.mem_index_of_mem_block hs
        have hlen := UpdateRequest.length_encoding_le hdt
        exact ⟨u, dt, rfl, hin, hdt, by rw [hd]; rfl, by omega⟩
    · simp at hs

/-- The stores of an update are within the registers that its datatype spans. -/
theorem mem_lineStores {n : ℤ} {line : Bytes} {u : UpdateRequest} {dt : Datatype} {s : ℤ × Word}
    (hu : updateRequest line = some u) (hdt : u.datatype = dt.name) (hs : s ∈ lineStores n line) :
    0 ≤ u.address ∧ u.address < n ∧ u.address ≤ s.1 ∧ s.1 < u.address + dt.span := by
  obtain ⟨u', dt', hu', hin, hdt', -, hidx⟩ := exists_of_mem_lineStores hs
  obtain rfl : u = u' := Option.some.inj (hu.symm.trans hu')
  obtain rfl : dt = dt' := Datatype.name_injective (hdt.symm.trans hdt')
  exact ⟨hin.1, hin.2, hidx⟩

/-- A line whose update of two registers starts below the last one stores in registers only. -/
theorem lineStores_inside {n : ℤ} {line : Bytes}
    (hpair : ∀ u, updateRequest line = some u → u.IsPair → 0 ≤ u.address → u.address < n →
      u.address < n - 1) : ∀ s ∈ lineStores n line, 0 ≤ s.1 ∧ s.1 < n := by
  intro s hs
  obtain ⟨u, dt, hu, hin, hdt, -, hidx⟩ := exists_of_mem_lineStores hs
  -- the datatype spans one register, or two and starts below the last one
  rcases Nat.lt_or_ge dt.span 2 with hone | htwo
  · omega
  · have hspan : dt.span = 2 := le_antisymm dt.span_le_two htwo
    have hlast := hpair u hu ⟨dt, hdt, hspan⟩ hin.1 hin.2
    omega

/-- A line stores nothing if its update is rejected, names no datatype, or has no number. -/
theorem lineStores_eq_nil {n : ℤ} {line : Bytes}
    (hidle : ∀ u, updateRequest line = some u → ¬(0 ≤ u.address ∧ u.address < n) ∨
      (∀ dt, u.datatype ≠ Datatype.name dt) ∨ isNumber (some u.value) = false) :
    lineStores n line = [] := by
  refine List.eq_nil_iff_forall_not_mem.mpr fun s hs => ?_
  obtain ⟨u, dt, hu, hin, hdt, hvalue, -⟩ := exists_of_mem_lineStores hs
  rcases hidle u hu with hout | hname | hnone
  · exact hout hin
  · exact hname dt hdt
  · simp [hvalue] at hnone

/-- **The last writer wins.** In a session whose accepted updates of two registers all start below
the last one, every store goes to a register; and if no number is saturated, each register ends with
the word of the last update that assigned it. Lines that are no updates, rejected updates, and
updates of an unsupported datatype or by a value that is no number leave the table as it is; updates
leave the flags as they are; updates of disjoint registers commute. -/
theorem lastWriter (s : Session) (lines : List Bytes)
    (hpairs : ∀ line ∈ lines, ∀ u, updateRequest line = some u → u.IsPair → 0 ≤ u.address →
      u.address < s.mapping.nb_registers → u.address < s.mapping.nb_registers - 1) :
    ((∀ line ∈ lines, StoresInt s.mapping.nb_registers line) →
      ∀ i : ℕ, (session s lines).mapping.tab_registers[i]? =
        s.mapping.tab_registers[i]?.map fun w =>
          (lines.filterMap (assigned s.mapping.nb_registers i)).getLast?.getD w) ∧
    (∀ before line after, lines = before ++ line :: after →
      ∀ st ∈ stores (jsonCommandProcess line (some (session s before).mapping)
        (session s before).flags).1, 0 ≤ st.1 ∧ st.1 < s.mapping.nb_registers) ∧
    (∀ line, (∀ u, updateRequest line = some u →
        ¬(0 ≤ u.address ∧ u.address < s.mapping.nb_registers) ∨
          (∀ dt, u.datatype ≠ Datatype.name dt) ∨ isNumber (some u.value) = false) →
      (processLine s line).mapping.tab_registers = s.mapping.tab_registers) ∧
    (∀ line u, updateRequest line = some u → (processLine s line).flags = s.flags) ∧
    (∀ line line' u u' dt dt', updateRequest line = some u → updateRequest line' = some u' →
      u.datatype = Datatype.name dt → u'.datatype = Datatype.name dt' →
      (u.address + dt.span ≤ u'.address ∨ u'.address + dt'.span ≤ u.address) →
      (processLine (processLine s line) line').mapping.tab_registers =
        (processLine (processLine s line') line).mapping.tab_registers) := by
  refine ⟨?last, ?inside, ?idle, ?flags, ?commute⟩
  case last =>
    intro hints i
    rw [tab_registers_session, Stores.getElem?_apply, Stores.lastAt_flatMap,
      List.filterMap_congr fun line hline => lastAt_lineStores (hints line hline) i]
  case inside =>
    intro before line after hlines st hst
    rw [stores_jsonCommandProcess, nb_registers_session] at hst
    exact lineStores_inside (hpairs line (by simp [hlines])) st hst
  case idle =>
    intro line hidle
    rw [tab_registers_processLine, lineStores_eq_nil hidle, Stores.apply_nil]
  case flags =>
    intro line u hu
    rw [processLine, jsonCommandProcess_eq_of_some hu]
  case commute =>
    intro line line' u u' dt dt' hu hu' hdt hdt' hdisjoint
    simp only [tab_registers_processLine, nb_registers_processLine]
    refine Stores.apply_comm _ fun st hst st' hst' heq => ?_
    have h := mem_lineStores hu hdt hst
    have h' := mem_lineStores hu' hdt' hst'
    omega

/-- A stop between an update of two registers and an update of the first of them. -/
def overlappingLines : List Bytes :=
  [pairAtZero, ascii "\x7b\"cmd\":\"stop\"\x7d",
    ascii "\x7b\"type\":\"holding_registers\"," ++
      ascii "\"address\":0,\"datatype\":\"int16\",\"value\":-1\x7d"]

/-- What a line of integers stores is not saturated. -/
theorem storesInt_of_all {n : ℤ} {line : Bytes}
    (h : (updateRequest line).all (fun u => u.denotes u.value.valueint) = true) :
    StoresInt n line := by
  intro u dt d hu _ hd _ _
  have hdenotes : u.denotes u.value.valueint = true := by simpa [hu] using h
  rw [UpdateRequest.denotes, hd] at hdenotes
  exact .inr (intPart_of_beq (isInt_saturate d) hdenotes)

theorem lastWriter_overlappingLines :
    (session ⟨{ tab_registers := [5, 5, 5] }, ⟨.running, true⟩⟩ overlappingLines
      ).mapping.tab_registers[0]? =
        some ((overlappingLines.filterMap (assigned 3 0)).getLast?.getD 5) ∧
    (session ⟨{ tab_registers := [5, 5, 5] }, ⟨.running, true⟩⟩ overlappingLines
      ).mapping.tab_registers[0]? = some 65535 := by
  have haddress : ∀ line ∈ overlappingLines,
      (updateRequest line).all (fun u => u.address == 0) = true := by
    decide +kernel
  have hdenotes : ∀ line ∈ overlappingLines,
      (updateRequest line).all (fun u => u.denotes u.value.valueint) = true := by
    decide +kernel
  have h := lastWriter ⟨{ tab_registers := [5, 5, 5] }, ⟨.running, true⟩⟩ overlappingLines
    fun line hline u hu _ _ _ => by
      have hzero : u.address = 0 := by simpa [hu] using haddress line hline
      rw [hzero]
      decide
  exact ⟨h.1 (fun line hline => storesInt_of_all (hdenotes line hline)) 0, by decide +kernel⟩

/-- An update of a `uint32` beyond the limit of `int`. -/
def uint32AtZero : Bytes :=
  ascii "\x7b\"type\":\"holding_registers\"," ++
    ascii "\"address\":0,\"datatype\":\"uint32\",\"value\":3000000000\x7d"

/-- The low word of 3000000000 is 24064; `uint32AtZero` stores 65535. -/
theorem not_lastWriter : ¬∀ (s : Session) (lines : List Bytes),
    (∀ line ∈ lines, ∀ u, updateRequest line = some u → u.IsPair → 0 ≤ u.address →
      u.address < s.mapping.nb_registers → u.address < s.mapping.nb_registers - 1) →
    ∀ i : ℕ, (session s lines).mapping.tab_registers[i]? =
      s.mapping.tab_registers[i]?.map fun w =>
        (lines.filterMap (assigned s.mapping.nb_registers i)).getLast?.getD w := by
  intro h
  obtain ⟨u, d, hu, haddress, hdt, hd, hv⟩ : ∃ u d, updateRequest uint32AtZero = some u ∧
      u.address = 0 ∧ u.datatype = Datatype.uint32.name ∧ u.value = .number d ∧
      (d == Float.Model.ofInt 3000000000) = true := exists_request (by decide +kernel)
  have horder : requestedOrder uint32AtZero = .le := by decide +kernel
  have hvalue := (BinaryValues.beq_ofInt_iff (by decide)).mp hv
  have hencode : Datatype.uint32.encode .le d = some [24064, 45776] := by
    rw [Datatype.encode, Datatype.code, hvalue, Option.map_some, BinaryValues.integerPart_intCast]
    decide
  have hassigned : assigned 3 0 uint32AtZero = some 24064 := by
    rw [assigned_of_eq hu hdt hd, haddress, horder, hencode]
    decide
  have hlast := h ⟨{ tab_registers := [5, 5, 5] }, ⟨.running, true⟩⟩ [uint32AtZero]
    (fun line hline u' hu' _ _ _ => by
      obtain rfl := List.mem_singleton.mp hline
      obtain rfl : u = u' := Option.some.inj (hu.symm.trans hu')
      rw [haddress]
      decide) 0
  have hstored : (session ⟨{ tab_registers := [5, 5, 5] }, ⟨.running, true⟩⟩ [uint32AtZero]
      ).mapping.tab_registers[0]? = some 65535 := by
    decide +kernel
  have hword : some (65535 : Word) = some ((([uint32AtZero].filterMap (assigned 3 0)).getLast?).getD
      5) := hstored.symm.trans hlast
  simp [hassigned] at hword

end ModbusServer
