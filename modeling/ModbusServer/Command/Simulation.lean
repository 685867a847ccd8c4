import ModbusServer.Command.Sessions
import ModbusServer.Json.Printed

/-!
# The two processors on the same requests

`process_json` expects addresses that count from the start of the configured range,
`json_command_process` expects indices into the table. On requests whose addresses are lowered by
that start the second one does what the first one does, if the addresses are integers of the type
`int`: the same stores into a table of the configured size, and the same flags.

Both read the `valueint` of an address. A fraction just below the start is refused by
`process_json`; lowered it is a negative fraction, whose `valueint` is zero, so that
`json_command_process` stores in the first register.

Source: `json-modbus-server.c`, lines 163–257; `src/json/json_command.c`, lines 9–123.

## Main definitions

* `ModbusServer.LowersAddress`: a request with its address lowered.
* `ModbusServer.LowersLine`: the same for the texts of two requests.
* `ModbusServer.IntAddress`: a text whose address is an `int`, if it is a number.
* `ModbusServer.processJsonLine`: one call of `process_json`.

## Main results

* `ModbusServer.lowersLine_printObject`: lowering the numeral of a printed request.
* `ModbusServer.processJson_simulates`: the two processors agree after every command.
-/

namespace ModbusServer

open CInt CText

/-! ### Lowered addresses -/

/-- The second number is the first one minus `s`. -/
def IsLowered (s : ℤ) (a a' : Double) : Prop :=
  ∃ q, BinaryValues.value a.unpack = some q ∧ BinaryValues.value a'.unpack = some (q - s)

/-- The second number is the address `a` lowered by `s`, or `a` itself where no `double` is the
difference. -/
def LowersNumber (s : ℤ) (a a' : Double) : Prop :=
  IsLowered s a a' ∨ a' = a ∧ ∀ d, ¬IsLowered s a d

/-- A member of a request and the same member with its address lowered: the members differ only if
they are numbers with the name `address`. -/
inductive LowersMember (s : ℤ) : Bytes × CJson → Bytes × CJson → Prop
  | address {a a' : Double} (h : LowersNumber s a a') :
    LowersMember s (ascii "address", .number a) (ascii "address", .number a')
  | other {m : Bytes × CJson} (h : m.1 = ascii "address" → isNumber (some m.2) = false) :
    LowersMember s m m

/-- A request and the same request with every numeric address lowered. -/
inductive LowersAddress (s : ℤ) : CJson → CJson → Prop
  | object {child child' : List (Bytes × CJson)} (h : List.Forall₂ (LowersMember s) child child') :
    LowersAddress s (.object child) (.object child')
  | other {root : CJson} (h : ∀ child, root ≠ .object child) : LowersAddress s root root

/-- The texts of a request and of the same request with every numeric address lowered. -/
def LowersLine (s : ℤ) (line line' : Bytes) : Prop :=
  Option.Rel (LowersAddress s) (cJSONParse line) (cJSONParse line')

/-- The address of the request in a text is an `int`, if it is a number. -/
def IntAddress (line : Bytes) : Prop :=
  ∀ root a, cJSONParse line = some root →
    getObjectItemCaseSensitive root (ascii "address") = some (.number a) →
    ∃ v, IsInt v ∧ (a == Float.Model.ofInt v) = true

/-- One call of `process_json`, once the table exists. -/
def processJsonLine (cfg : Config) (s : Session) (line : Bytes) : Session :=
  let (effects, flags) := processJson cfg (some s.mapping) s.flags line
  { mapping := s.mapping.apply effects, flags := flags }

/-! ### Lowered requests -/

theorem natAbs_sub_lt {s v : ℤ} (hs : IsInt s) (hv : IsInt v) : (v - s).natAbs < 2 ^ 53 := by
  rw [isInt_iff] at hs hv
  omega

/-- The `valueint` of an `int` that is lowered. -/
theorem LowersNumber.saturate_eq {s v : ℤ} {a a' : Double} (h : LowersNumber s a a')
    (hs : IsInt s) (hv : IsInt v) (ha : (a == Float.Model.ofInt v) = true) :
    saturate a = v ∧ saturate a' = max INT_MIN (min (v - s) INT_MAX) := by
  have hsize : v.natAbs < 2 ^ 53 := by
    rw [isInt_iff] at hv
    omega
  have hvalue := (BinaryValues.beq_ofInt_iff hsize).mp ha
  obtain ⟨q, hq, hq'⟩ : IsLowered s a a' := by
    refine h.resolve_right fun hnone => hnone.2 (Float.Model.ofInt (v - s)) ⟨v, hvalue, ?_⟩
    rw [BinaryValues.value_ofInt (natAbs_sub_lt hs hv), Int.cast_sub]
  obtain rfl : (v : ℚ) = q := Option.some.inj (hvalue.symm.trans hq)
  rw [← Int.cast_sub] at hq'
  rw [saturate_of_value hq, saturate_of_value hq', BinaryValues.integerPart_intCast,
    BinaryValues.integerPart_intCast]
  refine ⟨?_, rfl⟩
  rw [isInt_iff] at hv
  simp only [INT_MIN, INT_MAX]
  omega

section Lowered

variable {s : ℤ} {root root' : CJson} {child child' : List (Bytes × CJson)}

theorem LowersMember.name_eq {m m' : Bytes × CJson} (h : LowersMember s m m') : m'.1 = m.1 := by
  cases h with
  | address h => rfl
  | other h => rfl

/-- The members that are found under a name correspond to each other. -/
theorem rel_getObjectItem (h : LowersAddress s root root') (name : Bytes) :
    Option.Rel (fun j j' => LowersMember s (name, j) (name, j'))
      (getObjectItemCaseSensitive root name) (getObjectItemCaseSensitive root' name) := by
  cases h with
  | object h =>
    simp only [getObjectItemCaseSensitive]
    induction h with
    | nil => exact .none
    | @cons m m' child child' hm _ ih =>
      rw [List.find?_cons, List.find?_cons, hm.name_eq]
      by_cases hname : m.1 = name
      · obtain ⟨n, j⟩ := m
        obtain ⟨n', j'⟩ := m'
        obtain rfl : n' = n := hm.name_eq
        obtain rfl : n' = name := hname
        simpa using hm
      · simpa [hname] using ih
  | other h =>
    have hnone : getObjectItemCaseSensitive root name = none := by
      cases root with
      | object child => exact absurd rfl (h child)
      | _ => rfl
    rw [hnone]
    exact .none

/-- Every member but the address is as it was. -/
theorem getObjectItem_of_lowers (h : LowersAddress s root root') (name : Bytes)
    (hname : name ≠ ascii "address") :
    getObjectItemCaseSensitive root' name = getObjectItemCaseSensitive root name := by
  have hrel := rel_getObjectItem h name
  generalize getObjectItemCaseSensitive root name = j at hrel ⊢
  generalize getObjectItemCaseSensitive root' name = j' at hrel ⊢
  cases hrel with
  | none => rfl
  | some hm =>
    cases hm with
    | address h => exact absurd rfl hname
    | other h => rfl

/-- The address is lowered, or it is not a number and as it was. -/
theorem address_of_lowers (h : LowersAddress s root root') :
    (∃ a a', getObjectItemCaseSensitive root (ascii "address") = some (.number a) ∧
      getObjectItemCaseSensitive root' (ascii "address") = some (.number a') ∧
      LowersNumber s a a') ∨
    (isNumber (getObjectItemCaseSensitive root (ascii "address")) = false ∧
      getObjectItemCaseSensitive root' (ascii "address") =
        getObjectItemCaseSensitive root (ascii "address")) := by
  have hrel := rel_getObjectItem h (ascii "address")
  generalize getObjectItemCaseSensitive root (ascii "address") = j at hrel ⊢
  generalize getObjectItemCaseSensitive root' (ascii "address") = j' at hrel ⊢
  cases hrel with
  | none => exact .inr ⟨rfl, rfl⟩
  | some hm =>
    cases hm with
    | address h => exact .inl ⟨_, _, rfl, rfl, h⟩
    | other h => exact .inr ⟨h rfl, rfl⟩

/-- The second update is the first one with its address lowered. -/
structure LowersUpdate (s : ℤ) (u u' : UpdateRequest) : Prop where
  address_eq : u'.address = max INT_MIN (min (u.address - s) INT_MAX)
  datatype_eq : u'.datatype = u.datatype
  byte_order_eq : u'.byte_order = u.byte_order
  value_eq : u'.value = u.value

/-- A lowered request passes the checks on its members if the request does. -/
theorem rel_readUpdate (h : LowersAddress s root root') (hs : IsInt s)
    (hint : ∀ a, getObjectItemCaseSensitive root (ascii "address") = some (.number a) →
      ∃ v, IsInt v ∧ (a == Float.Model.ofInt v) = true) :
    Option.Rel (LowersUpdate s) (readUpdate root) (readUpdate root') := by
  have htype := getObjectItem_of_lowers h (ascii "type") (by decide)
  have hdatatype := getObjectItem_of_lowers h (ascii "datatype") (by decide)
  have horder := getObjectItem_of_lowers h (ascii "byte_order") (by decide)
  have hvalue := getObjectItem_of_lowers h (ascii "value") (by decide)
  rcases address_of_lowers h with ⟨a, a', ha, ha', hlowers⟩ | ⟨hnum, haddr⟩
  · have haddress : saturate a' = max INT_MIN (min (saturate a - s) INT_MAX) := by
      obtain ⟨v, hv, hav⟩ := hint a ha
      obtain ⟨hsat, hsat'⟩ := hlowers.saturate_eq hs hv hav
      rw [hsat', hsat]
    simp only [readUpdate, htype, hdatatype, horder, hvalue, ha, ha']
    split
    · next a₀ d v ha₀ hd hv =>
      obtain rfl : a = a₀ := by simpa using ha₀
      simp only [hd, hv]
      split_ifs
      · exact .some ⟨haddress, rfl, rfl, rfl⟩
      · exact .none
    · next hne =>
      split
      · next a₀ d v _ hd hv => exact absurd hv (hne a d v rfl hd)
      · exact .none
  · have hnone : readUpdate root = none := by
      refine Option.eq_none_iff_forall_ne_some.mpr fun u hu => ?_
      obtain ⟨-, ⟨a, ha, -⟩, -⟩ := readUpdate_eq_some_iff.mp hu
      simp [ha, isNumber] at hnum
    have hsame : readUpdate root' = readUpdate root := by
      simp only [readUpdate, htype, hdatatype, horder, hvalue, haddr]
    rw [hsame, hnone]
    exact .none

theorem commandName_of_lowers (h : LowersAddress s root root') :
    commandName root' = commandName root := by
  rw [commandName, commandName, getObjectItem_of_lowers h (ascii "cmd") (by decide)]

theorem isCommand_of_lowers (h : LowersAddress s root root') :
    isCommand root' = isCommand root := by
  rw [isCommand, isCommand, commandName_of_lowers h]

/-- A text with a lowered request is an update if the text of the request is. -/
theorem rel_updateRequest {line line' : Bytes} (h : LowersLine s line line') (hs : IsInt s)
    (hint : IntAddress line) :
    Option.Rel (LowersUpdate s) (updateRequest line) (updateRequest line') := by
  rw [updateRequest, updateRequest]
  rw [LowersLine] at h
  rw [IntAddress] at hint
  generalize cJSONParse line = j at h hint ⊢
  generalize cJSONParse line' = j' at h ⊢
  cases h with
  | none => exact .none
  | some hroot =>
    simp only [Option.bind_some, isCommand_of_lowers hroot]
    split_ifs
    · exact .none
    · exact rel_readUpdate hroot hs fun a => hint _ a rfl

theorem LowersUpdate.encoding_eq {u u' : UpdateRequest} (h : LowersUpdate s u u') :
    u'.encoding = u.encoding := by
  simp only [UpdateRequest.encoding, UpdateRequest.order, h.datatype_eq, h.byte_order_eq,
    h.value_eq]

end Lowered

/-! ### Printed requests -/

/-- The member of a printed request with its address lowered. -/
def lowerMember (s : ℤ) : Bytes × Scalar → Bytes × Scalar
  | (name, .int v) => (name, .int (if name = ascii "address" then v - s else v))
  | (name, .text t) => (name, .text t)

theorem lowersMember_item {s : ℤ} (hs : IsInt s) {name : Bytes} {v : Scalar}
    (h : ∀ a, v = .int a → name = ascii "address" → IsInt a) :
    LowersMember s (name, v.item)
      ((lowerMember s (name, v)).1, (lowerMember s (name, v)).2.item) := by
  cases v with
  | text t => exact .other fun _ => rfl
  | int a =>
    by_cases hname : name = ascii "address"
    · subst hname
      have ha := h a rfl rfl
      have hsize : a.natAbs < 2 ^ 53 := by
        rw [isInt_iff] at ha
        omega
      simp only [lowerMember, if_true]
      refine .address (.inl ⟨a, BinaryValues.value_ofInt hsize, ?_⟩)
      rw [BinaryValues.value_ofInt (natAbs_sub_lt hs ha), Int.cast_sub]
    · simp only [lowerMember, hname, if_false]
      exact .other fun h => absurd h hname

theorem isVerbatim_lowerMember {s : ℤ} (hs : IsInt s) {m : Bytes × Scalar}
    (h : IsVerbatim m.1 ∧ m.2.IsVerbatim)
    (haddress : ∀ a, m = (ascii "address", .int a) → IsInt a) :
    IsVerbatim (lowerMember s m).1 ∧ (lowerMember s m).2.IsVerbatim := by
  obtain ⟨name, t | v⟩ := m
  · exact h
  · refine ⟨h.1, ?_⟩
    simp only [lowerMember]
    split_ifs with hname
    · exact natAbs_sub_lt hs (haddress v (by rw [hname]))
    · exact h.2

/-- **Printed requests.** Lowering the numeral of the address lowers the address of the request. -/
theorem lowersLine_printObject {s : ℤ} (hs : IsInt s) {ms : List (Bytes × Scalar)} (hms : ms ≠ [])
    (h : ∀ m ∈ ms, IsVerbatim m.1 ∧ m.2.IsVerbatim)
    (haddress : ∀ a, (ascii "address", .int a) ∈ ms → IsInt a) :
    LowersLine s (printObject ms) (printObject (ms.map (lowerMember s))) := by
  have hlower : ∀ m ∈ ms.map (lowerMember s), IsVerbatim m.1 ∧ m.2.IsVerbatim :=
    List.forall_mem_map.mpr fun m hm =>
      isVerbatim_lowerMember hs (h m hm) fun a ha => haddress a (ha ▸ hm)
  have hparse := cJSONParse_printObject hms h [] (by simp)
  have hparse' := cJSONParse_printObject (by simpa using hms) hlower [] (by simp)
  rw [List.append_nil] at hparse hparse'
  rw [LowersLine, hparse, hparse', List.map_map]
  refine .some (.object ?_)
  rw [List.forall₂_map_left_iff, List.forall₂_map_right_iff, List.forall₂_same]
  rintro ⟨name, v⟩ hm
  refine lowersMember_item hs fun a hv hname => haddress a ?_
  rwa [← hname, ← hv]

/-- The address of a printed request is an `int` if its numeral is. -/
theorem intAddress_printObject {ms : List (Bytes × Scalar)} (hms : ms ≠ [])
    (h : ∀ m ∈ ms, IsVerbatim m.1 ∧ m.2.IsVerbatim)
    (haddress : ∀ a, (ascii "address", .int a) ∈ ms → IsInt a) :
    IntAddress (printObject ms) := by
  intro root a hroot hget
  have hparse := cJSONParse_printObject hms h [] (by simp)
  rw [List.append_nil, hroot, Option.some.injEq] at hparse
  rw [hparse, getObjectItemCaseSensitive, Option.map_eq_some_iff] at hget
  obtain ⟨⟨name, j⟩, hfind, rfl⟩ := hget
  obtain rfl : name = ascii "address" := by simpa using List.find?_some hfind
  obtain ⟨⟨name, v⟩, hm, heq⟩ := List.mem_map.mp (List.mem_of_find?_eq_some hfind)
  obtain ⟨rfl, hv⟩ := Prod.mk.inj heq
  cases v with
  | text t => simp [Scalar.item] at hv
  | int b =>
    have hb := haddress b hm
    obtain rfl : Float.Model.ofInt b = a := by simpa [Scalar.item] using hv
    refine ⟨b, hb, BinaryIntegers.ofInt_beq_self ?_⟩
    rw [isInt_iff] at hb
    omega

/-! ### The flags -/

/-- The flags behind a request depend on its command only. -/
theorem processCommand_snd_congr {root root' : CJson} (h : commandName root' = commandName root)
    (flags : Flags) (update update' : List Effect) :
    (processCommand root' flags update').2 = (processCommand root flags update).2 := by
  simp only [processCommand, h]
  split_ifs <;> rfl

theorem flags_of_lowers {s : ℤ} {line line' : Bytes} (h : LowersLine s line line') (cfg : Config)
    (mb mb' : Option Mapping) (flags : Flags) :
    (jsonCommandProcess line' mb' flags).2 = (processJson cfg mb flags line).2 := by
  rw [jsonCommandProcess, processJson]
  rw [LowersLine] at h
  generalize cJSONParse line = j at h ⊢
  generalize hj' : cJSONParse line' = j' at h ⊢
  cases h with
  | none => rfl
  | some hroot => exact processCommand_snd_congr (commandName_of_lowers hroot) flags _ _

/-! ### The simulation -/

section Simulation

variable {cfg : Config} {mb : Mapping} {line line' : Bytes}

/-- The stores of an update that `process_json` accepts, and none for any other text. -/
theorem stores_processJson (cfg : Config) (mb : Mapping) (flags : Flags) (line : Bytes) :
    stores (processJson cfg (some mb) flags line).1 =
      match updateRequest line with
      | some u =>
        if cfg.accepts mb u.address = true then
          Stores.block (u.address - cfg.holding_regs_start) (u.encoding.getD [])
        else []
      | none => [] := by
  cases hu : updateRequest line with
  | none => exact (processJson_of_none hu _ _ _).stores_eq
  | some u =>
    rcases processJson_cases hu cfg mb flags with ⟨hacc, heq⟩ | ⟨hout, hrej⟩
    · simp only [heq, stores_effects, if_pos hacc]
    · simp [hrej.stores_eq, hout]

/-- An address is accepted by `process_json` exactly if the lowered address is the index of a
register, and then it is the lowered address that is used as the index. -/
theorem accepts_iff_of_lowers (hstart : 0 ≤ cfg.holding_regs_start)
    (hend : IsInt (cfg.holding_regs_start + cfg.nb_holding_regs))
    (hmb : mb.nb_registers = cfg.nb_holding_regs) {u u' : UpdateRequest}
    (h : LowersUpdate cfg.holding_regs_start u u') :
    (cfg.accepts mb u.address = true ↔ 0 ≤ u'.address ∧ u'.address < mb.nb_registers) ∧
      (cfg.accepts mb u.address = true → u.address - cfg.holding_regs_start = u'.address) := by
  have haddress := h.address_eq
  have hint := u.isInt_address
  rw [Config.accepts_iff, Config.inRange_iff_of_isInt hend, hmb]
  rw [isInt_iff] at hint hend
  simp only [INT_MIN, INT_MAX] at haddress
  omega

/-- The same stores. -/
theorem lineStores_of_lowers (hstart : 0 ≤ cfg.holding_regs_start)
    (hend : IsInt (cfg.holding_regs_start + cfg.nb_holding_regs))
    (hmb : mb.nb_registers = cfg.nb_holding_regs)
    (h : LowersLine cfg.holding_regs_start line line') (hint : IntAddress line) (flags : Flags) :
    lineStores mb.nb_registers line' = stores (processJson cfg (some mb) flags line).1 := by
  rw [stores_processJson, lineStores]
  have hrel := rel_updateRequest h cfg.isInt_start hint
  generalize updateRequest line = r at hrel ⊢
  generalize updateRequest line' = r' at hrel ⊢
  cases hrel with
  | none => rfl
  | some hu =>
    obtain ⟨hacc, hidx⟩ := accepts_iff_of_lowers hstart hend hmb hu
    simp only [hu.encoding_eq, ← hacc]
    split_ifs with haccept
    · rw [hidx haccept]
    · rfl

/-- One call of each processor on the same table. -/
theorem processLine_of_lowers (hstart : 0 ≤ cfg.holding_regs_start)
    (hend : IsInt (cfg.holding_regs_start + cfg.nb_holding_regs)) {s : Session}
    (hmb : s.mapping.nb_registers = cfg.nb_holding_regs)
    (h : LowersLine cfg.holding_regs_start line line') (hint : IntAddress line) :
    processJsonLine cfg s line = processLine s line' := by
  have hstores : stores (jsonCommandProcess line' (some s.mapping) s.flags).1 =
      stores (processJson cfg (some s.mapping) s.flags line).1 := by
    rw [stores_jsonCommandProcess, lineStores_of_lowers hstart hend hmb h hint s.flags]
  have hflags := flags_of_lowers h cfg (some s.mapping) (some s.mapping) s.flags
  simp only [processJsonLine, processLine, Mapping.apply, hstores, hflags]

/-- The stores of an update that is no pair at the last index are inside of the table. -/
theorem stores_inside_of_not_pair {flags : Flags}
    (hpair : ∀ u, updateRequest line = some u → u.IsPair →
      0 ≤ u.address - cfg.holding_regs_start →
      u.address - cfg.holding_regs_start ≠ mb.nb_registers - 1) :
    ∀ st ∈ stores (processJson cfg (some mb) flags line).1,
      0 ≤ st.1 ∧ st.1 < mb.nb_registers := by
  cases hu : updateRequest line with
  | none => simp [(processJson_of_none hu _ _ _).stores_eq]
  | some u =>
    rcases processJson_cases hu cfg mb flags with ⟨hacc, heq⟩ | ⟨-, hrej⟩
    · have hlt := (Config.accepts_iff.mp hacc).2
      have hnonneg := Config.index_nonneg hacc
      have hstays := staysInside_effects_iff (fun u => u.address - cfg.holding_regs_start) hu
        hnonneg hlt
      rw [heq]
      refine (hstays.mpr fun ⟨hupair, hlast⟩ => ?_).stores_inside
      exact hpair u hu hupair hnonneg (by omega)
    · simp [hrej.stores_eq]

end Simulation

/-- **The processors agree.** Requests for `process_json` whose addresses are of the type `int`, and
the same requests with lowered addresses for `json_command_process`, leave the same table and the
same flags after every command; as no update of two registers starts at the last register, no store
of either goes outside of the table. -/
theorem processJson_simulates (cfg : Config) (mb : Mapping) (flags : Flags)
    (lines lines' : List Bytes) (hstart : 0 ≤ cfg.holding_regs_start)
    (hend : IsInt (cfg.holding_regs_start + cfg.nb_holding_regs))
    (hmb : mb.nb_registers = cfg.nb_holding_regs)
    (hlower : List.Forall₂ (LowersLine cfg.holding_regs_start) lines lines')
    (hint : ∀ line ∈ lines, IntAddress line)
    (hpair : ∀ line ∈ lines, ∀ u, updateRequest line = some u → u.IsPair →
      0 ≤ u.address - cfg.holding_regs_start →
      u.address - cfg.holding_regs_start ≠ cfg.nb_holding_regs - 1) (k : ℕ) :
    let s := session ⟨mb, flags⟩ (lines'.take k)
    Runs.run (processJsonLine cfg) ⟨mb, flags⟩ (lines.take k) = s ∧
      (∀ line ∈ lines[k]?, ∀ st ∈ stores (processJson cfg (some s.mapping) s.flags line).1,
        0 ≤ st.1 ∧ st.1 < mb.nb_registers) ∧
      (∀ line' ∈ lines'[k]?, ∀ st ∈ stores (jsonCommandProcess line' (some s.mapping) s.flags).1,
        0 ≤ st.1 ∧ st.1 < mb.nb_registers) := by
  intro s
  have hsize : s.mapping.nb_registers = mb.nb_registers := nb_registers_session _ _
  have hinside : ∀ line ∈ lines[k]?,
      ∀ st ∈ stores (processJson cfg (some s.mapping) s.flags line).1,
        0 ≤ st.1 ∧ st.1 < mb.nb_registers := by
    intro line hline st hst
    rw [← hsize]
    refine stores_inside_of_not_pair (fun u hu hupair hnonneg => ?_) st hst
    rw [hsize, hmb]
    exact hpair line (List.mem_of_getElem? hline) u hu hupair hnonneg
  refine ⟨?_, hinside, ?_⟩
  · have hstep : ∀ s t line line', (s = t ∧ s.mapping.nb_registers = cfg.nb_holding_regs) →
        IntAddress line ∧ LowersLine cfg.holding_regs_start line line' →
          processJsonLine cfg s line = processLine t line' ∧
            (processJsonLine cfg s line).mapping.nb_registers = cfg.nb_holding_regs := by
      rintro s _ line line' ⟨rfl, hs⟩ ⟨hint, hline⟩
      rw [processLine_of_lowers hstart hend hs hline hint, nb_registers_processLine]
      exact ⟨rfl, hs⟩
    exact (Runs.run_simulation (R := fun s t => s = t ∧ s.mapping.nb_registers =
      cfg.nb_holding_regs) ⟨rfl, hmb⟩ hstep
      (List.forall₂_take k ((List.forall₂_and_left lines lines').mpr ⟨hint, hlower⟩))).1
  · intro line' hline' st hst
    obtain ⟨hlength, hget⟩ := List.forall₂_iff_get.mp hlower
    obtain ⟨hk', rfl⟩ := List.getElem?_eq_some_iff.mp hline'
    have hk : k < lines.length := by omega
    have hlowers : LowersLine cfg.holding_regs_start lines[k] lines'[k] := hget k hk hk'
    rw [stores_jsonCommandProcess,
      lineStores_of_lowers hstart hend (hsize.trans hmb) hlowers
        (hint _ (List.getElem_mem hk)) s.flags] at hst
    exact hinside lines[k] (List.getElem?_eq_getElem hk) st hst

/-- An update of one register, and a stop. -/
def updateAt (address : ℤ) : List (Bytes × Scalar) :=
  [(ascii "type", .text (ascii "holding_registers")), (ascii "address", .int address),
    (ascii "datatype", .text (ascii "uint16")), (ascii "value", .int 7)]

@[inherit_doc updateAt]
def stopRequest : List (Bytes × Scalar) := [(ascii "cmd", .text (ascii "stop"))]

theorem isVerbatim_updateAt {a : ℤ} (ha : IsInt a) :
    ∀ m ∈ updateAt a, IsVerbatim m.1 ∧ m.2.IsVerbatim := by
  rw [isInt_iff] at ha
  simp only [updateAt, List.forall_mem_cons, List.not_mem_nil, false_imp_iff, implies_true,
    and_true]
  refine ⟨?_, ⟨?_, show a.natAbs < 2 ^ 53 by omega⟩, ?_, ?_⟩
  all_goals decide +kernel

theorem isInt_of_mem_updateAt {a b : ℤ} (ha : IsInt a)
    (hb : (ascii "address", Scalar.int b) ∈ updateAt a) : IsInt b := by
  have hvalue : ascii "address" ≠ ascii "value" := by decide
  obtain rfl : b = a := by simpa [updateAt, hvalue] using hb
  exact ha

theorem lowersLine_updateAt {s a : ℤ} (hs : IsInt s) (ha : IsInt a) :
    LowersLine s (printObject (updateAt a)) (printObject (updateAt (a - s))) := by
  have hname : ascii "type" ≠ ascii "address" ∧ ascii "datatype" ≠ ascii "address" ∧
      ascii "value" ≠ ascii "address" := by decide
  have hmap : (updateAt a).map (lowerMember s) = updateAt (a - s) := by
    simp [updateAt, lowerMember, hname]
  rw [← hmap]
  exact lowersLine_printObject hs (List.cons_ne_nil _ _) (isVerbatim_updateAt ha)
    fun _ => isInt_of_mem_updateAt ha

theorem intAddress_updateAt {a : ℤ} (ha : IsInt a) : IntAddress (printObject (updateAt a)) :=
  intAddress_printObject (List.cons_ne_nil _ _) (isVerbatim_updateAt ha)
    fun _ => isInt_of_mem_updateAt ha

/-- Two requests for a table that starts at 40000, the second one below it, and a stop. -/
theorem processJson_simulates_updateAt :
    Runs.run (processJsonLine { holding_regs_start := 40000, nb_holding_regs := 2 })
        ⟨{ tab_registers := [0, 0] }, ⟨.running, true⟩⟩
        [printObject (updateAt 40001), printObject (updateAt 5), printObject stopRequest] =
      session ⟨{ tab_registers := [0, 0] }, ⟨.running, true⟩⟩
        [printObject (updateAt 1), printObject (updateAt (-39995)), printObject stopRequest] ∧
    (session ⟨{ tab_registers := [0, 0] }, ⟨.running, true⟩⟩
        [printObject (updateAt 1), printObject (updateAt (-39995)), printObject stopRequest]
      ).mapping.tab_registers = [0, 7] := by
  have hfar : LowersLine 40000 (printObject (updateAt 40001)) (printObject (updateAt 1)) :=
    lowersLine_updateAt (by decide) (by decide)
  have hnear : LowersLine 40000 (printObject (updateAt 5)) (printObject (updateAt (-39995))) :=
    lowersLine_updateAt (by decide) (by decide)
  have hstop : LowersLine 40000 (printObject stopRequest) (printObject stopRequest) :=
    lowersLine_printObject (by decide) (List.cons_ne_nil _ _) (by decide +kernel)
      (by simp [stopRequest])
  have hint : ∀ line ∈ [printObject (updateAt 40001), printObject (updateAt 5),
      printObject stopRequest], IntAddress line := by
    simp only [List.forall_mem_cons, List.not_mem_nil, false_imp_iff, implies_true, and_true]
    exact ⟨intAddress_updateAt (by decide), intAddress_updateAt (by decide),
      intAddress_printObject (List.cons_ne_nil _ _) (by decide +kernel) (by simp [stopRequest])⟩
  have hdatatype : ∀ line ∈ [printObject (updateAt 40001), printObject (updateAt 5),
      printObject stopRequest],
      (updateRequest line).all (fun u => u.datatype = Datatype.uint16.name) = true := by
    decide +kernel
  have h := processJson_simulates { holding_regs_start := 40000, nb_holding_regs := 2 }
    { tab_registers := [0, 0] } ⟨.running, true⟩
    [printObject (updateAt 40001), printObject (updateAt 5), printObject stopRequest]
    [printObject (updateAt 1), printObject (updateAt (-39995)), printObject stopRequest]
    (by decide) (by decide) (by decide) (.cons hfar (.cons hnear (.cons hstop .nil))) hint
    (fun line hline u hu ⟨dt, hdt, hspan⟩ _ _ => by
      have hname : u.datatype = Datatype.uint16.name := by simpa [hu] using hdatatype line hline
      obtain rfl : dt = .uint16 := Datatype.name_injective (hdt.symm.trans hname)
      exact absurd hspan (by decide)) 3
  simp only [List.take_succ_cons, List.take_zero] at h
  exact ⟨h.1, by decide +kernel⟩

/-! ### An address between two integers -/

/-- A string or a number as data. -/
def CJson.scalar? : CJson → Option (Bytes ⊕ UInt64)
  | .string s => some (.inl s)
  | .number d => some (.inr d.toBits)
  | _ => none

/-- The members of an object as data. -/
def CJson.members : CJson → List (Bytes × Option (Bytes ⊕ UInt64))
  | .object child => child.map fun m => (m.1, m.2.scalar?)
  | _ => []

theorem CJson.eq_of_scalar? {j j' : CJson} {k : Bytes ⊕ UInt64} (h : j.scalar? = some k)
    (h' : j'.scalar? = some k) : j = j' := by
  cases j with
  | string s =>
    obtain rfl := Option.some.inj h
    cases j' with
    | string t => simpa [scalar?] using h'.symm
    | _ => simp [scalar?] at h'
  | number d =>
    obtain rfl := Option.some.inj h
    cases j' with
    | number d' =>
      obtain ⟨bits, hvalid⟩ := d
      obtain ⟨bits', hvalid'⟩ := d'
      simpa [scalar?] using h'.symm
    | _ => simp [scalar?] at h'
  | _ => simp [scalar?] at h

/-- The members of an object with a lowered address, as data. -/
def LowersData (s : ℤ) (k k' : Bytes × Option (Bytes ⊕ UInt64)) : Prop :=
  k' = k ∧ k.2.isSome ∧ k.1 ≠ ascii "address" ∨
    ∃ a a' : Double, k = (ascii "address", some (.inr a.toBits)) ∧
      k' = (ascii "address", some (.inr a'.toBits)) ∧ IsLowered s a a'

theorem lowersMember_of_data {s : ℤ} {m m' : Bytes × CJson}
    (h : LowersData s (m.1, m.2.scalar?) (m'.1, m'.2.scalar?)) : LowersMember s m m' := by
  obtain ⟨name, j⟩ := m
  obtain ⟨name', j'⟩ := m'
  simp only [LowersData, Prod.mk.injEq] at h
  rcases h with ⟨⟨rfl, hj⟩, hsome, hname⟩ | ⟨a, a', ⟨rfl, hj⟩, ⟨rfl, hj'⟩, hlowered⟩
  · obtain ⟨k, hk⟩ := Option.isSome_iff_exists.mp hsome
    obtain rfl : j = j' := CJson.eq_of_scalar? hk (hj.trans hk)
    exact .other fun h => absurd h hname
  · obtain rfl : j = .number a := CJson.eq_of_scalar? hj rfl
    obtain rfl : j' = .number a' := CJson.eq_of_scalar? hj' rfl
    exact .address (.inl hlowered)

theorem lowersLine_of_data {s : ℤ} {line line' : Bytes}
    {k k' : List (Bytes × Option (Bytes ⊕ UInt64))} (hne : k ≠ [])
    (hline : (cJSONParse line).map CJson.members = some k)
    (hline' : (cJSONParse line').map CJson.members = some k')
    (h : List.Forall₂ (LowersData s) k k') : LowersLine s line line' := by
  obtain ⟨root, hroot, rfl⟩ := Option.map_eq_some_iff.mp hline
  obtain ⟨root', hroot', rfl⟩ := Option.map_eq_some_iff.mp hline'
  rw [LowersLine, hroot, hroot']
  cases root with
  | object child =>
    cases root' with
    | object child' =>
      simp only [CJson.members, List.forall₂_map_left_iff, List.forall₂_map_right_iff] at h
      exact .some (.object (h.imp fun _ _ => lowersMember_of_data))
    | _ =>
      have hlength := h.length_eq
      simp [CJson.members] at hlength hne
      exact absurd hlength hne
  | _ => simp [CJson.members] at hne

/-- An update of one register with the text of a number as its address. -/
def updateAtText (address : Bytes) : Bytes :=
  ascii "\x7b\"type\":\"holding_registers\",\"address\":" ++ address ++
    ascii ",\"datatype\":\"uint16\",\"value\":7\x7d"

/-- The number 39999.5, which is lowered by 40000 to the number -0.5. -/
theorem isLowered_half : IsLowered 40000 (Float.Model.ofScientific 399995 (-1))
    (Float.Model.ofScientific 5 (-1)).neg := by
  have h : (Float.Model.ofScientific 399995 (-1)).unpack =
      .finite .positive 5497489419403264 (-37) (by decide) := by
    rfl
  have h' : (Float.Model.ofScientific 5 (-1)).neg.unpack =
      .finite .negative 4503599627370496 (-53) (by decide) := by
    rfl
  refine ⟨79999 / 2, ?_, ?_⟩
  · rw [h, BinaryValues.value, BinaryValues.signed]
    norm_num
  · rw [h', BinaryValues.value, BinaryValues.signed]
    norm_num

/-- The members of an update as data. -/
def updateData (a : Double) : List (Bytes × Option (Bytes ⊕ UInt64)) :=
  [(ascii "type", some (.inl (ascii "holding_registers"))),
    (ascii "address", some (.inr a.toBits)), (ascii "datatype", some (.inl (ascii "uint16"))),
    (ascii "value", some (.inr (Float.Model.ofInt 7).toBits))]

theorem lowersLine_half :
    LowersLine 40000 (updateAtText (ascii "39999.5")) (updateAtText (ascii "-0.5")) := by
  have hline : (cJSONParse (updateAtText (ascii "39999.5"))).map CJson.members =
      some (updateData (Float.Model.ofScientific 399995 (-1))) := by decide +kernel
  have hline' : (cJSONParse (updateAtText (ascii "-0.5"))).map CJson.members =
      some (updateData (Float.Model.ofScientific 5 (-1)).neg) := by decide +kernel
  refine lowersLine_of_data (List.cons_ne_nil _ _) hline hline' ?_
  refine .cons (.inl ⟨rfl, rfl, by decide⟩) (.cons (.inr ⟨_, _, rfl, rfl, isLowered_half⟩)
    (.cons (.inl ⟨rfl, rfl, by decide⟩) (.cons (.inl ⟨rfl, rfl, by decide⟩) .nil)))

/-- The address 39999.5 is below a table that starts at 40000; lowered it is -0.5, and the first
register is written. -/
theorem not_processJson_simulates : ¬∀ (cfg : Config) (mb : Mapping) (flags : Flags)
    (lines lines' : List Bytes), 0 ≤ cfg.holding_regs_start →
    IsInt (cfg.holding_regs_start + cfg.nb_holding_regs) →
    mb.nb_registers = cfg.nb_holding_regs →
    List.Forall₂ (LowersLine cfg.holding_regs_start) lines lines' →
    (∀ line ∈ lines, ∀ u, updateRequest line = some u → u.IsPair →
      0 ≤ u.address - cfg.holding_regs_start →
      u.address - cfg.holding_regs_start ≠ cfg.nb_holding_regs - 1) →
    Runs.run (processJsonLine cfg) ⟨mb, flags⟩ lines = session ⟨mb, flags⟩ lines' := by
  intro h
  have hdatatype : (updateRequest (updateAtText (ascii "39999.5"))).all
      (fun u => u.datatype = Datatype.uint16.name) = true := by
    decide +kernel
  have heq := h { holding_regs_start := 40000, nb_holding_regs := 2 } { tab_registers := [0, 0] }
    ⟨.running, true⟩ [updateAtText (ascii "39999.5")] [updateAtText (ascii "-0.5")] (by decide)
    (by decide) (by decide) (.cons lowersLine_half .nil)
    (fun line hline u hu ⟨dt, hdt, hspan⟩ _ _ => by
      obtain rfl := List.mem_singleton.mp hline
      have hname : u.datatype = Datatype.uint16.name := by simpa [hu] using hdatatype
      obtain rfl : dt = .uint16 := Datatype.name_injective (hdt.symm.trans hname)
      exact absurd hspan (by decide))
  have hleft : (Runs.run (processJsonLine { holding_regs_start := 40000, nb_holding_regs := 2 })
      ⟨{ tab_registers := [0, 0] }, ⟨.running, true⟩⟩ [updateAtText (ascii "39999.5")]
      ).mapping.tab_registers = [0, 0] := by
    decide +kernel
  have hright : (session ⟨{ tab_registers := [0, 0] }, ⟨.running, true⟩⟩
      [updateAtText (ascii "-0.5")]).mapping.tab_registers = [7, 0] := by
    decide +kernel
  rw [heq, hright] at hleft
  exact absurd hleft (by decide)

end ModbusServer
