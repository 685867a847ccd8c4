import ModbusServer.Json.Parser
import ModbusServer.Registers.ByteOrder

/-!
# Update requests

What the two command processors share: the lines they print, the checks on the members of an update
request, and the chain of datatypes that turns the value of a request into stores. Over the chain
stands its specification: the five datatypes, how many registers each spans, and the words that
encode a number.

What a processor does is recorded as a list of effects, in the order in which they happen. A store
carries its index whether or not the table has such a cell.

Source: `src/json/json_command.c`, lines 56–123; the copy in `json-modbus-server.c`, lines 209–257,
reads the same members and has the same chain.

## Main definitions

* `ModbusServer.Effect`, `ModbusServer.stores`, `ModbusServer.printed`.
* `ModbusServer.UpdateRequest`, `ModbusServer.readUpdate`.
* `ModbusServer.valueStores`: the chain of datatypes.
* `ModbusServer.Datatype`, `ModbusServer.UpdateRequest.encoding`: its specification.

## Main results

* `ModbusServer.readUpdate_eq_some_iff`: which requests pass the checks.
* `ModbusServer.valueStores_eq`: the chain stores the encoding of the value, or nothing.
-/

namespace ModbusServer

open CInt CText

/-! ### Effects -/

/-- An action of a command processor that can be seen from outside. -/
inductive Effect
  /-- A text printed on `stdout`. -/
  | print (text : Bytes)
  /-- A call of `log_warn`. -/
  | logWarn (text : Bytes)
  /-- A store of a word into `tab_registers`. -/
  | store (index : ℤ) (word : Word)
  /-- A read through the null pointer `mb_mapping`; nothing follows it. -/
  | nullDereference
  deriving DecidableEq

/-- The store of an effect. -/
def Effect.store? : Effect → Option (ℤ × Word)
  | store i w => some (i, w)
  | _ => none

/-- The text an effect prints on `stdout`. -/
def Effect.print? : Effect → Option Bytes
  | print text => some text
  | _ => none

/-- The stores among the effects, in their order. -/
def stores (effects : List Effect) : List (ℤ × Word) :=
  effects.filterMap Effect.store?

/-- The texts printed on `stdout`, in their order. -/
def printed (effects : List Effect) : List Bytes :=
  effects.filterMap Effect.print?

/-- The table after the effects. -/
def Mapping.apply (mb : Mapping) (effects : List Effect) : Mapping :=
  { mb with
    tab_registers := Stores.apply mb.tab_registers (stores effects)
    length_le := by simpa using mb.length_le }

/-- Do the effects store outside of the table? -/
def Mapping.overruns (mb : Mapping) (effects : List Effect) : Bool :=
  Stores.outside mb.nb_registers (stores effects)

/-- The effects of a list of stores. -/
def storeEffects (log : List (ℤ × Word)) : List Effect :=
  log.map fun s => .store s.1 s.2

@[simp] theorem stores_nil : stores [] = [] := rfl

@[simp] theorem stores_cons (e : Effect) (effects : List Effect) :
    stores (e :: effects) = e.store?.toList ++ stores effects := by
  rw [stores, List.filterMap_cons]
  cases e.store? <;> rfl

@[simp] theorem stores_append (effects effects' : List Effect) :
    stores (effects ++ effects') = stores effects ++ stores effects' :=
  List.filterMap_append

@[simp] theorem printed_nil : printed [] = [] := rfl

@[simp] theorem printed_cons (e : Effect) (effects : List Effect) :
    printed (e :: effects) = e.print?.toList ++ printed effects := by
  rw [printed, List.filterMap_cons]
  cases e.print? <;> rfl

@[simp] theorem printed_append (effects effects' : List Effect) :
    printed (effects ++ effects') = printed effects ++ printed effects' :=
  List.filterMap_append

@[simp] theorem stores_storeEffects (log : List (ℤ × Word)) : stores (storeEffects log) = log := by
  induction log with
  | nil => rfl
  | cons s log ih => simpa [storeEffects, Effect.store?] using ih

@[simp] theorem printed_storeEffects (log : List (ℤ × Word)) : printed (storeEffects log) = [] := by
  simp [printed, storeEffects, Effect.print?, Function.comp_def]

theorem Mapping.tab_registers_apply (mb : Mapping) (effects : List Effect) :
    (mb.apply effects).tab_registers = Stores.apply mb.tab_registers (stores effects) := rfl

theorem Mapping.apply_append (mb : Mapping) (effects effects' : List Effect) :
    (mb.apply effects).apply effects' = mb.apply (effects ++ effects') := by
  simp [Mapping.apply, Stores.apply_append]

@[simp] theorem Mapping.nb_registers_apply (mb : Mapping) (effects : List Effect) :
    (mb.apply effects).nb_registers = mb.nb_registers := by
  simp [Mapping.apply, Mapping.nb_registers]

/-! ### Lines on `stdout` -/

/-- The line that reports an update. -/
def updatedLine (address : ℤ) (datatype : Bytes) : Bytes :=
  ascii "\x7b\"status\":\"updated\",\"address\":" ++ intText address ++
    ascii ",\"datatype\":\"" ++ datatype ++ ascii "\"\x7d\n"

/-- The line of `json_command_update_data` for an address without a cell. -/
def indexOutOfBoundsLine (address : ℤ) : Bytes :=
  ascii "\x7b\"error\":\"index_out_of_bounds\",\"address\":" ++ intText address ++ ascii "\x7d\n"

/-! ### The members of a request -/

/-- The members of an update request that passed the checks on their presence and types: the
`valueint` of the address, the datatype, the text that names the byte order, a null pointer if its
member is not a string, and the value. -/
structure UpdateRequest where
  address : ℤ
  isInt_address : IsInt address
  datatype : Bytes
  byte_order : Option Bytes
  value : CJson

/-- The name of the byte order: `"LE"` if the member is absent, a null pointer if it is not a
string. -/
def orderName : Option CJson → Option Bytes
  | some order_it => order_it.valuestring
  | none => some (ascii "LE")

/-- The checks on the members: `type` and `datatype` are strings, `address` is a number and `value`
is present. -/
def readUpdate (root : CJson) : Option UpdateRequest :=
  let type := getObjectItemCaseSensitive root (ascii "type")
  let addr := getObjectItemCaseSensitive root (ascii "address")
  let datatype := getObjectItemCaseSensitive root (ascii "datatype")
  let order_it := getObjectItemCaseSensitive root (ascii "byte_order")
  let val := getObjectItemCaseSensitive root (ascii "value")
  match addr, datatype, val with
  | some (.number a), some (.string d), some v =>
    if isString type then
      some {
        address := saturate a
        isInt_address := isInt_saturate a
        datatype := d
        byte_order := orderName order_it
        value := v }
    else none
  | _, _, _ => none

/-- The byte order of a request. -/
def UpdateRequest.order (u : UpdateRequest) : ByteOrder := parseByteOrder u.byte_order

/-- A request passes the checks exactly when its type and datatype are strings, its address is a
number and a value is present. -/
theorem readUpdate_eq_some_iff {root : CJson} {u : UpdateRequest} :
    readUpdate root = some u ↔
      isString (getObjectItemCaseSensitive root (ascii "type")) = true ∧
      (∃ a, getObjectItemCaseSensitive root (ascii "address") = some (.number a) ∧
        u.address = saturate a) ∧
      getObjectItemCaseSensitive root (ascii "datatype") = some (.string u.datatype) ∧
      getObjectItemCaseSensitive root (ascii "value") = some u.value ∧
      u.byte_order = orderName (getObjectItemCaseSensitive root (ascii "byte_order")) := by
  obtain ⟨address, isInt_address, datatype, byte_order, value⟩ := u
  rw [readUpdate]
  split
  · next a d v haddr hdatatype hval =>
    rw [haddr, hdatatype, hval]
    constructor
    · intro h
      split at h
      · next htype =>
        obtain ⟨rfl, rfl, rfl, rfl⟩ := by simpa using h
        exact ⟨htype, ⟨a, rfl, rfl⟩, rfl, rfl, rfl⟩
      · simp at h
    · rintro ⟨htype, ⟨a', ha, rfl⟩, hd, hv, rfl⟩
      obtain rfl : a = a' := by simpa using ha
      obtain rfl : d = datatype := by simpa using hd
      obtain rfl : v = value := by simpa using hv
      exact if_pos htype
  · next hne =>
    refine iff_of_false (by simp) ?_
    rintro ⟨-, ⟨a, haddr, -⟩, hdatatype, hval, -⟩
    exact hne a datatype value haddr hdatatype hval

/-! ### The chain of datatypes -/

/-- The stores of the chain of datatypes, for a value whose first register has the index `idx`. A
datatype outside of the chain, and a value that is not a number, store nothing. -/
def valueStores (idx : ℤ) (datatype : Bytes) (val : CJson) (bo : ByteOrder) : List (ℤ × Word) :=
  if datatype = ascii "uint16" ∧ isNumber (some val) then
    let v := BitVec.ofInt 16 val.valueint
    [(idx, if bo = .swap then swapBytes v else v)]
  else if datatype = ascii "int16" ∧ isNumber (some val) then
    let v := BitVec.ofInt 16 val.valueint
    [(idx, if bo = .swap then swapBytes v else v)]
  else if (datatype = ascii "uint32" ∨ datatype = ascii "int32") ∧ isNumber (some val) then
    let u := BitVec.ofInt 32 val.valueint
    writeRegisters idx [u.setWidth 16, (u >>> 16).setWidth 16] bo
  else if datatype = ascii "float" ∧ isNumber (some val) then
    let u := castFloat val.valuedouble
    writeRegisters idx [u.setWidth 16, (u >>> 16).setWidth 16] bo
  else []

/-! ### Datatypes -/

/-- The datatypes a request can name. -/
inductive Datatype
  | uint16
  | int16
  | uint32
  | int32
  | float
  deriving DecidableEq

namespace Datatype

/-- The name of a datatype in a request. -/
def name : Datatype → Bytes
  | uint16 => ascii "uint16"
  | int16 => ascii "int16"
  | uint32 => ascii "uint32"
  | int32 => ascii "int32"
  | float => ascii "float"

/-- How many registers a value spans. -/
def span : Datatype → ℕ
  | uint16 | int16 => 1
  | uint32 | int32 | float => 2

/-- The datatype with a given name. -/
def ofName (s : Bytes) : Option Datatype :=
  [uint16, int16, uint32, int32, float].find? fun dt => s = dt.name

/-- The words of a number, low word first: the integers in two's complement, `float` as the bits of
the nearest binary32 number. -/
def words (dt : Datatype) (d : Double) : List Word :=
  match dt with
  | uint16 | int16 => [BitVec.ofInt 16 (saturate d)]
  | uint32 | int32 =>
    let u := BitVec.ofInt 32 (saturate d)
    [u.setWidth 16, (u >>> 16).setWidth 16]
  | float =>
    let u := castFloat d
    [u.setWidth 16, (u >>> 16).setWidth 16]

@[simp] theorem length_words (dt : Datatype) (d : Double) : (dt.words d).length = dt.span := by
  cases dt <;> rfl

theorem span_pos (dt : Datatype) : 0 < dt.span := by
  cases dt <;> decide

theorem name_injective : Function.Injective name := by
  intro dt dt'
  cases dt <;> cases dt' <;> decide

theorem ofName_eq_some_iff {s : Bytes} {dt : Datatype} : ofName s = some dt ↔ s = dt.name := by
  constructor
  · intro h
    simpa using List.find?_some h
  · rintro rfl
    cases dt <;> rfl

end Datatype

/-- The words a request assigns to its registers, in the order of the registers, if its datatype is
one of the five and its value a number. -/
def UpdateRequest.encoding (u : UpdateRequest) : Option (List Word) :=
  match Datatype.ofName u.datatype, u.value with
  | some dt, .number d => some (permuteWords (dt.words d) u.order)
  | _, _ => none

namespace UpdateRequest

variable {u : UpdateRequest} {ws : List Word}

theorem encoding_eq_some_iff : u.encoding = some ws ↔
    ∃ dt d, u.datatype = Datatype.name dt ∧ u.value = .number d ∧
      ws = permuteWords (dt.words d) u.order := by
  rw [encoding]
  split
  · next dt d hdt hd =>
    rw [Datatype.ofName_eq_some_iff] at hdt
    constructor
    · intro h
      exact ⟨dt, d, hdt, hd, (Option.some.inj h).symm⟩
    · rintro ⟨dt', d', hdt', hd', rfl⟩
      obtain rfl : dt = dt' := Datatype.name_injective (hdt.symm.trans hdt')
      obtain rfl : d = d' := by simpa [hd] using hd'
      rfl
  · next hne =>
    refine iff_of_false (by simp) ?_
    rintro ⟨dt, d, hdt, hd, -⟩
    exact hne dt d (Datatype.ofName_eq_some_iff.mpr hdt) hd

theorem encoding_of_eq {dt : Datatype} {d : Double} (hdt : u.datatype = dt.name)
    (hd : u.value = .number d) : u.encoding = some (permuteWords (dt.words d) u.order) :=
  encoding_eq_some_iff.mpr ⟨dt, d, hdt, hd, rfl⟩

theorem length_of_encoding {dt : Datatype} (hdt : u.datatype = dt.name)
    (h : u.encoding = some ws) : ws.length = dt.span := by
  obtain ⟨dt', d, hdt', -, rfl⟩ := encoding_eq_some_iff.mp h
  obtain rfl : dt = dt' := Datatype.name_injective (hdt.symm.trans hdt')
  simp

end UpdateRequest

/-- **The chain of datatypes** stores the encoding of the value from the index on, or nothing if
there is no encoding. -/
theorem valueStores_eq (idx : ℤ) (u : UpdateRequest) :
    valueStores idx u.datatype u.value u.order = Stores.block idx (u.encoding.getD []) := by
  by_cases henc : ∃ dt d, u.datatype = Datatype.name dt ∧ u.value = .number d
  · obtain ⟨dt, d, hdt, hd⟩ := henc
    rw [UpdateRequest.encoding_of_eq hdt hd, hdt, hd, Option.getD_some]
    cases dt with
    | uint16 =>
      rw [valueStores, if_pos ⟨rfl, rfl⟩, Datatype.words, permuteWords_singleton,
        Stores.block_cons, Stores.block_nil]
      rfl
    | int16 =>
      rw [valueStores, if_neg (fun h => absurd h.1 (by decide)), if_pos ⟨rfl, rfl⟩, Datatype.words,
        permuteWords_singleton, Stores.block_cons, Stores.block_nil]
      rfl
    | uint32 =>
      rw [valueStores, if_neg (fun h => absurd h.1 (by decide)),
        if_neg (fun h => absurd h.1 (by decide)),
        if_pos ⟨.inl rfl, rfl⟩]
      rfl
    | int32 =>
      rw [valueStores, if_neg (fun h => absurd h.1 (by decide)),
        if_neg (fun h => absurd h.1 (by decide)),
        if_pos ⟨.inr rfl, rfl⟩]
      rfl
    | float =>
      rw [valueStores, if_neg (fun h => absurd h.1 (by decide)),
        if_neg (fun h => absurd h.1 (by decide)),
        if_neg (fun h => absurd h.1 (by decide)), if_pos ⟨rfl, rfl⟩]
      rfl
  · have hnone : u.encoding = none := by
      refine Option.eq_none_iff_forall_ne_some.mpr fun ws hws => henc ?_
      obtain ⟨dt, d, hdt, hd, -⟩ := UpdateRequest.encoding_eq_some_iff.mp hws
      exact ⟨dt, d, hdt, hd⟩
    have harm {s : Bytes} (hs : (Datatype.ofName s).isSome) :
        ¬(u.datatype = s ∧ isNumber (some u.value) = true) := by
      rintro ⟨rfl, hnum⟩
      obtain ⟨dt, hdt⟩ := Option.isSome_iff_exists.mp hs
      obtain ⟨d, hd⟩ := isNumber_eq_true_iff.mp hnum
      exact henc ⟨dt, d, Datatype.ofName_eq_some_iff.mp hdt, Option.some.inj hd⟩
    have hint32 : ¬((u.datatype = ascii "uint32" ∨ u.datatype = ascii "int32") ∧
        isNumber (some u.value) = true) := by
      rintro ⟨hs | hs, hnum⟩
      · exact harm rfl ⟨hs, hnum⟩
      · exact harm rfl ⟨hs, hnum⟩
    rw [valueStores, if_neg (harm rfl), if_neg (harm rfl), if_neg hint32, if_neg (harm rfl), hnone]
    rfl

end ModbusServer
