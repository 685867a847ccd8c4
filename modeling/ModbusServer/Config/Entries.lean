import ModbusServer.Config.Agreement

/-!
# The types of the entries

What a document configures is stated by paths: a setting is the value of the first member with its
name if that has the type of the setting, and its default otherwise. `config_load` tests the type of
every entry but one: in an area that is given by an array, the first two elements are taken for
numbers. And it copies the device without the zero byte at the end if there is no room for it.

Source: `src/config/config_loader.c`, lines 8–104; `src/config/config.h`;
`get_object_item`, `cJSON/cJSON.c`, lines 1880–1910.

## Main definitions

* `ModbusServer.FirstMember`: the member of an object that a name leads to.
* `ModbusServer.GivenOr`: a value that is given, or the default.
* `ModbusServer.DeviceTerminated`: the device is a string.
* `ModbusServer.TypedEntries`: every setting is the value of an entry of its type, or the default.

## Main results

* `ModbusServer.firstMember_iff`: `cJSON_GetObjectItem` finds the first member.
* `ModbusServer.deviceTerminated_iff`: the documents that leave a string in the device.
* `ModbusServer.typedEntries_iff`: the documents whose entries are read by their types.
* `ModbusServer.not_deviceTerminated`, `ModbusServer.not_typedEntries`: not all documents are of
  this kind.
-/

namespace ModbusServer

open CText

/-! ### Members -/

/-- `item` belongs to the first member of `object` whose name has the letters of `key`. -/
def FirstMember (object : CJson) (key : Bytes) (item : CJson) : Prop :=
  ∃ before name behind, object = .object (before ++ (name, item) :: behind) ∧
    sameLetters key name = true ∧ ∀ m ∈ before, sameLetters key m.1 = false

/-- `item` belongs to the first member `key` of the first member `serial`. -/
def SerialMember (root : CJson) (key : Bytes) (item : CJson) : Prop :=
  ∃ serial, FirstMember root (ascii "serial") serial ∧ FirstMember serial key item

theorem firstMember_iff {object : CJson} {key : Bytes} {item : CJson} :
    FirstMember object key item ↔ getObjectItem object key = some item := by
  constructor
  · rintro ⟨before, name, behind, rfl, hname, hbefore⟩
    have hfind : (before ++ (name, item) :: behind).find? (fun m => sameLetters key m.1) =
        some (name, item) :=
      List.find?_eq_some_iff_append.mpr
        ⟨hname, before, behind, rfl, fun m hm => by simp [hbefore m hm]⟩
    simp [getObjectItem, hfind]
  · intro h
    cases object with
    | object child =>
      obtain ⟨⟨name, item⟩, hfind, rfl⟩ := Option.map_eq_some_iff.mp h
      obtain ⟨hname, before, behind, rfl, hbefore⟩ := List.find?_eq_some_iff_append.mp hfind
      exact ⟨before, name, behind, rfl, hname, fun m hm => by simpa using hbefore m hm⟩
    | _ => cases h

/-- Members of anything but an object are not found. -/
theorem serialMember_iff {root : CJson} {key : Bytes} {item : CJson} :
    SerialMember root key item ↔
      ∃ child, getObjectItem root (ascii "serial") = some (.object child) ∧
        getObjectItem (.object child) key = some item := by
  constructor
  · rintro ⟨serial, hserial, hitem⟩
    obtain ⟨before, name, behind, rfl, -⟩ := id hitem
    exact ⟨_, firstMember_iff.mp hserial, firstMember_iff.mp hitem⟩
  · rintro ⟨child, hserial, hitem⟩
    exact ⟨_, firstMember_iff.mpr hserial, firstMember_iff.mpr hitem⟩

theorem readString_eq_some_iff {object : CJson} {key s : Bytes} :
    readString object key = some s ↔ getObjectItem object key = some (.string s) := by
  rw [readString]
  rcases getObjectItem object key with _ | (_ | _ | _ | _ | _ | _) <;> simp

/-- The device of the document is a string in the object `serial`. -/
theorem device?_eq_some_iff {root : CJson} {d : Bytes} :
    device? root = some d ↔ SerialMember root (ascii "device") (.string d) := by
  rw [serialMember_iff, device?]
  rcases getObjectItem root (ascii "serial") with _ | (_ | _ | _ | _ | _ | child)
  case some.object => simp [readString_eq_some_iff]
  all_goals simp

/-! ### Given values and defaults -/

section GivenOr

variable {α : Type} {Given : α → Prop} {default value : α}

/-- The value is given, or it is the default, and none is given. -/
def GivenOr (Given : α → Prop) (default value : α) : Prop :=
  Given value ∨ (∀ a, ¬Given a) ∧ value = default

theorem givenOr_iff_getD {o : Option α} (h : ∀ a, Given a ↔ o = some a) :
    GivenOr Given default value ↔ value = o.getD default := by
  rw [GivenOr, funext fun a => propext (h a)]
  cases o with
  | none => simp
  | some a => simp [eq_comm]

end GivenOr

/-- The value of a number. -/
def NumberAt (Member : CJson → Prop) (value : ℤ) : Prop :=
  ∃ d, Member (.number d) ∧ value = (CJson.number d).valueint

/-- What `f` makes of a string. -/
def StringAt {α : Type} (Member : CJson → Prop) (f : Bytes → α) (value : α) : Prop :=
  ∃ s, Member (.string s) ∧ value = f s

/-- An area: two members of an object that are numbers, or two numbers at the head of an array. -/
inductive Area : CJson → ℤ × ℤ → Prop
  | object {o : CJson} {s c : Double} (hstart : FirstMember o (ascii "start_address") (.number s))
      (hcount : FirstMember o (ascii "count") (.number c)) :
      Area o ((CJson.number s).valueint, (CJson.number c).valueint)
  | array (s c : Double) (rest : List CJson) :
      Area (.array (.number s :: .number c :: rest))
        ((CJson.number s).valueint, (CJson.number c).valueint)

/-- The area that the document gives under a name. -/
def AreaAt (root : CJson) (name : Bytes) (value : ℤ × ℤ) : Prop :=
  ∃ item, FirstMember root name item ∧ Area item value

/-- What `config_load` leaves for a document. -/
def ModbusConfig.loaded (root : CJson) (config : ModbusConfig) : ModbusConfig :=
  (config.setDefaults.parseMode root).parseEntries root

theorem configLoad_of_parse {content : Bytes} {root : CJson}
    (hroot : cJSONParse (fileText content) = some root) (config : ModbusConfig) :
    configLoad (some content) config = (0, config.loaded root) := by
  rw [configLoad, hroot]
  rfl

/-! ### The device -/

/-- The device that the file configures. -/
def ConfiguredDevice (file : Option Bytes) (d : Bytes) : Prop :=
  ∃ content root, file = some content ∧ cJSONParse (fileText content) = some root ∧
    SerialMember root (ascii "device") (.string d)

/-- If `config_load` returns 0, the array holds a zero byte, and in front of the first one the first
63 bytes of the device that is configured, or the default. -/
def DeviceTerminated (file : Option Bytes) (config : ModbusConfig) : Prop :=
  (configLoad file config).1 = 0 →
    (0 : UInt8) ∈ (configLoad file config).2.serial_device.bytes ∧
      GivenOr (fun t => ∃ d, ConfiguredDevice file d ∧ t = (cString d).take 63) defaultDevice
        (configLoad file config).2.serial_device.text

section Device

variable (root : CJson) (config : ModbusConfig)

theorem text_setDefaults : config.setDefaults.serial_device.text = defaultDevice :=
  CharArray.text_strcpy config.serial_device (by decide) (by decide)

theorem last_setDefaults : config.setDefaults.serial_device.last = config.serial_device.last :=
  @CharArray.last_strcpy 63 config.serial_device defaultDevice (by decide)

theorem serial_device_loaded : (config.loaded root).serial_device =
    match device? root with
    | some d => config.setDefaults.serial_device.strncpy d 63 (by decide)
    | none => config.setDefaults.serial_device := by
  cases hdevice : device? root <;>
    simp only [ModbusConfig.loaded, serial_device_parseEntries, serial_device_parseMode, hdevice]

/-- The text in the array is that of the document if there is room for the zero byte, or one at the
end of the array before. -/
theorem text_serial_device_iff :
    GivenOr (StringAt (SerialMember root (ascii "device")) fun d => (cString d).take 63)
        defaultDevice (config.loaded root).serial_device.text ↔
      ∀ d, SerialMember root (ascii "device") (.string d) →
        (cString d).length < 63 ∨ config.serial_device.last = 0 := by
  have hgiven (t : Bytes) : StringAt (SerialMember root (ascii "device"))
      (fun d => (cString d).take 63) t ↔
        (device? root).map (fun d => (cString d).take 63) = some t := by
    simp [StringAt, ← device?_eq_some_iff, eq_comm]
  rw [givenOr_iff_getD hgiven, serial_device_loaded]
  simp only [← device?_eq_some_iff]
  cases device? root with
  | none => simp [text_setDefaults]
  | some d => simp [CharArray.text_strncpy_eq_take_iff, last_setDefaults]

end Device

/-- A text of at most 63 bytes is terminated. -/
theorem length_lt_of_givenOr {file : Option Bytes} {t : Bytes}
    (h : GivenOr (fun t => ∃ d, ConfiguredDevice file d ∧ t = (cString d).take 63)
      defaultDevice t) : t.length < 64 := by
  rcases h with ⟨d, -, rfl⟩ | ⟨-, rfl⟩
  · exact Nat.lt_succ_of_le (List.length_take_le 63 _)
  · decide

/-- **The device** is a terminated string exactly if the file configures none of 63 bytes or more,
or the last byte of the array was zero before. -/
theorem deviceTerminated_iff (file : Option Bytes) (config : ModbusConfig) :
    DeviceTerminated file config ↔
      ∀ d, ConfiguredDevice file d → (cString d).length < 63 ∨ config.serial_device.last = 0 := by
  have hterminated (h : GivenOr (fun t => ∃ d, ConfiguredDevice file d ∧ t = (cString d).take 63)
      defaultDevice (configLoad file config).2.serial_device.text) :
      (0 : UInt8) ∈ (configLoad file config).2.serial_device.bytes :=
    CharArray.zero_mem_bytes (length_lt_of_givenOr h)
  rw [DeviceTerminated, imp_congr_right fun _ => and_iff_right_of_imp hterminated]
  cases file with
  | none =>
    have hnone (d : Bytes) : ¬ConfiguredDevice none d := fun ⟨_, _, hfile, _⟩ => by cases hfile
    exact iff_of_true (fun _ => .inr ⟨fun _ ⟨d, hd, _⟩ => hnone d hd, text_setDefaults config⟩)
      fun d hd => absurd hd (hnone d)
  | some content =>
    cases hroot : cJSONParse (fileText content) with
    | none =>
      refine iff_of_true (fun hcode => ?_) fun d ⟨_, root, hfile, hsome, _⟩ => ?_
      · simp [configLoad, hroot] at hcode
      · obtain rfl := Option.some.inj hfile
        rw [hroot] at hsome
        cases hsome
    | some root =>
      have hdevice (d : Bytes) : ConfiguredDevice (some content) d ↔
          SerialMember root (ascii "device") (.string d) := by
        simp [ConfiguredDevice, hroot]
      rw [configLoad_of_parse hroot]
      simp only [hdevice, forall_const]
      exact text_serial_device_iff root config

/-- A file with a device of 63 bytes. -/
def longDevice : Bytes :=
  ascii "\x7b\"serial\":\x7b\"device\":\"" ++ List.replicate 63 97 ++ ascii "\"\x7d\x7d"

/-- Memory that nothing has cleared. -/
def unclearedConfig : ModbusConfig :=
  { initialGlobals.toModbusConfig with serial_device := ⟨List.replicate 64 255, by decide⟩ }

/-- The array holds no zero byte behind `longDevice`. -/
theorem not_deviceTerminated : ¬∀ (file : Option Bytes) (config : ModbusConfig),
    DeviceTerminated file config := by
  intro h
  have hzero := (h (some longDevice) unclearedConfig (by decide +kernel)).1
  exact absurd hzero (by decide +kernel)

/-! ### Entries -/

/-- Every setting is the value of the entry that the document has for it, if that has the type of
the setting, and the default otherwise. -/
structure TypedEntries (root : CJson) (config : ModbusConfig) : Prop where
  enable_tcp : GivenOr
    (StringAt (FirstMember root (ascii "mode")) fun s => strstr s (ascii "tcp"))
    true config.enable_tcp
  enable_rtu : GivenOr
    (StringAt (FirstMember root (ascii "mode")) fun s => strstr s (ascii "rtu"))
    false config.enable_rtu
  tcp_port : GivenOr (NumberAt (FirstMember root (ascii "tcp_port"))) 1502 config.tcp_port
  unit_id : GivenOr (NumberAt (FirstMember root (ascii "unit_id"))) 1 config.unit_id
  serial_device : GivenOr
    (StringAt (SerialMember root (ascii "device")) fun d => (cString d).take 63)
    defaultDevice config.serial_device.text
  baudrate : GivenOr (NumberAt (SerialMember root (ascii "baudrate"))) 9600 config.baudrate
  parity : GivenOr (StringAt (SerialMember root (ascii "parity")) fun d => d.headD 0)
    78 config.parity
  data_bits : GivenOr (NumberAt (SerialMember root (ascii "data_bits"))) 8 config.data_bits
  stop_bits : GivenOr (NumberAt (SerialMember root (ascii "stop_bits"))) 1 config.stop_bits
  coils : GivenOr (AreaAt root (ascii "coils")) (0, 0) (config.coils.start, config.coils.nb)
  input_bits : GivenOr (AreaAt root (ascii "input_bits")) (0, 0)
    (config.input_bits.start, config.input_bits.nb)
  holding_regs : GivenOr (AreaAt root (ascii "holding_registers")) (0, 0)
    (config.holding_regs.start, config.holding_regs.nb)
  input_regs : GivenOr (AreaAt root (ascii "input_registers")) (0, 0)
    (config.input_regs.start, config.input_regs.nb)

/-- An area that is given by an array starts with two numbers, or with two items whose `valueint` is
zero. -/
def NumbersFirst (root : CJson) (name : Bytes) : Prop :=
  ∀ s c rest, FirstMember root name (.array (s :: c :: rest)) →
    (isNumber (some s) = true ∧ isNumber (some c) = true) ∨ (s.valueint = 0 ∧ c.valueint = 0)

/-- The names of the areas. -/
def areaNames : List Bytes :=
  [ascii "coils", ascii "input_bits", ascii "holding_registers", ascii "input_registers"]

section Members

variable {root object : CJson} {child : List (Bytes × CJson)} {key name : Bytes}

theorem givenOr_readInt (value : ℤ) :
    GivenOr (NumberAt (FirstMember object key)) value (readInt object key value) := by
  rw [GivenOr, readInt]
  simp only [NumberAt, firstMember_iff]
  rcases getObjectItem object key with _ | (_ | _ | _ | _ | _ | _) <;> simp

theorem givenOr_readString {α : Type} (f : Bytes → α) (default : α) :
    GivenOr (StringAt (FirstMember object key) f) default
      (((readString object key).map f).getD default) := by
  refine (givenOr_iff_getD fun a => ?_).mpr rfl
  simp [StringAt, firstMember_iff, readString_eq_some_iff, eq_comm]

theorem serialMember_eq (hserial : getObjectItem root (ascii "serial") = some (.object child)) :
    SerialMember root key = FirstMember (.object child) key := by
  funext item
  simp [serialMember_iff, firstMember_iff, hserial]

theorem not_serialMember {item : CJson}
    (hserial : ∀ child, getObjectItem root (ascii "serial") ≠ some (.object child)) :
    ¬SerialMember root key item := fun h => by
  obtain ⟨child, hchild, -⟩ := serialMember_iff.mp h
  exact hserial child hchild

theorem parseSerial_eq_self
    (hserial : ∀ child, getObjectItem root (ascii "serial") ≠ some (.object child))
    (config : ModbusConfig) : config.parseSerial root = config := by
  rw [ModbusConfig.parseSerial]
  split
  · next child h => exact absurd h (hserial child)
  · rfl

end Members

section Areas

variable {root : CJson} {child : List (Bytes × CJson)} {name : Bytes} {p : ℤ × ℤ}

theorem area_object_iff : Area (.object child) p ↔
    ∃ s c, getObjectItem (.object child) (ascii "start_address") = some (.number s) ∧
      getObjectItem (.object child) (ascii "count") = some (.number c) ∧
        p = ((CJson.number s).valueint, (CJson.number c).valueint) := by
  simp only [← firstMember_iff]
  constructor
  · rintro ⟨hstart, hcount⟩
    exact ⟨_, _, hstart, hcount, rfl⟩
  · rintro ⟨s, c, hstart, hcount, rfl⟩
    exact .object hstart hcount

theorem area_array_iff {l : List CJson} : Area (.array l) p ↔
    ∃ s c rest, l = .number s :: .number c :: rest ∧
      p = ((CJson.number s).valueint, (CJson.number c).valueint) := by
  constructor
  · rintro ⟨hstart, -⟩
    · obtain ⟨_, _, _, hobject, -⟩ := hstart
      cases hobject
    · exact ⟨_, _, _, rfl, rfl⟩
  · rintro ⟨s, c, rest, rfl, rfl⟩
    exact .array s c rest

/-- Two items are read by their types if both are numbers, or if zeros are read. -/
theorem givenOr_area_cons_iff (s c : CJson) (rest : List CJson) :
    GivenOr (Area (.array (s :: c :: rest))) (0, 0) (s.valueint, c.valueint) ↔
      (isNumber (some s) = true ∧ isNumber (some c) = true) ∨
        (s.valueint = 0 ∧ c.valueint = 0) := by
  by_cases hnumbers : isNumber (some s) = true ∧ isNumber (some c) = true
  · refine iff_of_true (.inl ?_) (.inl hnumbers)
    obtain ⟨⟨a, ha⟩, ⟨b, hb⟩⟩ := And.imp isNumber_eq_true_iff.mp isNumber_eq_true_iff.mp hnumbers
    obtain ⟨rfl, rfl⟩ := And.intro (Option.some.inj ha) (Option.some.inj hb)
    exact .array a b rest
  · have hnone (p : ℤ × ℤ) : ¬Area (.array (s :: c :: rest)) p := fun h => by
      obtain ⟨a, b, _, hitems, -⟩ := area_array_iff.mp h
      simp only [List.cons.injEq] at hitems
      obtain ⟨rfl, rfl, -⟩ := hitems
      exact hnumbers ⟨rfl, rfl⟩
    simp [GivenOr, hnone, hnumbers]

/-- The other areas are read by their types, or not at all. -/
theorem givenOr_area_of_not_array {item : CJson} (hitem : getObjectItem root name = some item)
    (harray : ∀ s c rest, item ≠ .array (s :: c :: rest)) :
    GivenOr (Area item) (0, 0)
      ((parseRegConfig root name {}).start, (parseRegConfig root name {}).nb) := by
  rw [parseRegConfig, hitem]
  cases item with
  | object child =>
    dsimp only
    split
    · next s c hstart hcount => exact .inl (area_object_iff.mpr ⟨s, c, hstart, hcount, rfl⟩)
    · next hother =>
      refine .inr ⟨fun p hp => ?_, rfl⟩
      obtain ⟨s, c, hstart, hcount, -⟩ := area_object_iff.mp hp
      exact hother s c hstart hcount
  | array l =>
    refine .inr ⟨fun p hp => ?_, ?_⟩
    · obtain ⟨s, c, rest, rfl, -⟩ := area_array_iff.mp hp
      exact harray _ _ _ rfl
    · rcases l with _ | ⟨s, _ | ⟨c, rest⟩⟩
      · rfl
      · rfl
      · exact absurd rfl (harray s c rest)
  | _ =>
    refine .inr ⟨?_, rfl⟩
    rintro p ⟨⟨_, _, _, hobject, -⟩, -⟩
    cases hobject

/-- An area is read by the types of its items unless it is an array that starts with others. -/
theorem givenOr_parseRegConfig_iff (root : CJson) (name : Bytes) :
    GivenOr (AreaAt root name) (0, 0)
        ((parseRegConfig root name {}).start, (parseRegConfig root name {}).nb) ↔
      NumbersFirst root name := by
  have hnamed : AreaAt root name = fun p => ∃ item, getObjectItem root name = some item ∧
      Area item p := by
    funext p
    simp only [AreaAt, firstMember_iff]
  rw [hnamed]
  simp only [NumbersFirst, firstMember_iff]
  cases hitem : getObjectItem root name with
  | none => simp [GivenOr, parseRegConfig, hitem]
  | some item =>
    simp only [Option.some.injEq, exists_eq_left']
    by_cases harray : ∃ s c rest, item = .array (s :: c :: rest)
    · obtain ⟨s, c, rest, rfl⟩ := harray
      have hread : ((parseRegConfig root name {}).start, (parseRegConfig root name {}).nb) =
          (s.valueint, c.valueint) := by
        rw [parseRegConfig, hitem]
      rw [hread, givenOr_area_cons_iff]
      constructor
      · rintro h s' c' rest' heq
        simp only [CJson.array.injEq, List.cons.injEq] at heq
        obtain ⟨rfl, rfl, -⟩ := heq
        exact h
      · exact fun h => h s c rest rfl
    · refine iff_of_true (givenOr_area_of_not_array hitem fun s c rest heq =>
        harray ⟨s, c, rest, heq⟩) fun s c rest heq => absurd ⟨s, c, rest, heq⟩ harray

end Areas

/-! ### What is left -/

section Loaded

variable (root : CJson) (config : ModbusConfig)

/-- The mode changes no other entry. -/
theorem entriesAgree_setDefaults :
    EntriesAgree (config.setDefaults.parseMode root) config.setDefaults := by
  rw [ModbusConfig.parseMode]
  cases readString root (ascii "mode") with
  | none => exact ⟨rfl, rfl, rfl, rfl, rfl, rfl, rfl, rfl, rfl, rfl⟩
  | some s => exact ⟨rfl, rfl, rfl, rfl, rfl, rfl, rfl, rfl, rfl, rfl⟩

/-- The entries at the top are read by their types. -/
theorem givenOr_loaded_top :
    GivenOr (StringAt (FirstMember root (ascii "mode")) fun s => strstr s (ascii "tcp"))
        true (config.loaded root).enable_tcp ∧
      GivenOr (StringAt (FirstMember root (ascii "mode")) fun s => strstr s (ascii "rtu"))
        false (config.loaded root).enable_rtu ∧
      GivenOr (NumberAt (FirstMember root (ascii "tcp_port"))) 1502
        (config.loaded root).tcp_port ∧
      GivenOr (NumberAt (FirstMember root (ascii "unit_id"))) 1 (config.loaded root).unit_id := by
  have htcp : (config.loaded root).enable_tcp =
      ((readString root (ascii "mode")).map fun s => strstr s (ascii "tcp")).getD true := by
    rw [ModbusConfig.loaded, enable_tcp_parseEntries, ModbusConfig.parseMode]
    cases readString root (ascii "mode") <;> rfl
  have hrtu : (config.loaded root).enable_rtu =
      ((readString root (ascii "mode")).map fun s => strstr s (ascii "rtu")).getD false := by
    rw [ModbusConfig.loaded, enable_rtu_parseEntries, ModbusConfig.parseMode]
    cases readString root (ascii "mode") <;> rfl
  have hentries := entriesAgree_setDefaults root config
  have hport : (config.loaded root).tcp_port = readInt root (ascii "tcp_port") 1502 := by
    simp only [ModbusConfig.loaded, ModbusConfig.parseEntries, ModbusConfig.parseSerial]
    split <;> exact congrArg (readInt root (ascii "tcp_port")) hentries.tcp_port
  have hunit : (config.loaded root).unit_id = readInt root (ascii "unit_id") 1 := by
    simp only [ModbusConfig.loaded, ModbusConfig.parseEntries, ModbusConfig.parseSerial]
    split <;> exact congrArg (readInt root (ascii "unit_id")) hentries.unit_id
  rw [htcp, hrtu, hport, hunit]
  exact ⟨givenOr_readString _ _, givenOr_readString _ _, givenOr_readInt _, givenOr_readInt _⟩

/-- The entries of `serial` other than the device are read by their types. -/
theorem givenOr_loaded_serial :
    GivenOr (NumberAt (SerialMember root (ascii "baudrate"))) 9600
        (config.loaded root).baudrate ∧
      GivenOr (StringAt (SerialMember root (ascii "parity")) fun d => d.headD 0) 78
        (config.loaded root).parity ∧
      GivenOr (NumberAt (SerialMember root (ascii "data_bits"))) 8
        (config.loaded root).data_bits ∧
      GivenOr (NumberAt (SerialMember root (ascii "stop_bits"))) 1
        (config.loaded root).stop_bits := by
  have hentries := entriesAgree_setDefaults root config
  by_cases hserial : ∃ child, getObjectItem root (ascii "serial") = some (.object child)
  · obtain ⟨child, hserial⟩ := hserial
    simp only [ModbusConfig.loaded, ModbusConfig.parseEntries, ModbusConfig.parseSerial, hserial,
      serialMember_eq hserial, hentries.baudrate, hentries.parity, hentries.data_bits,
      hentries.stop_bits]
    refine ⟨givenOr_readInt _, ?_, givenOr_readInt _, givenOr_readInt _⟩
    have hparity := @givenOr_readString (.object child) (ascii "parity") UInt8
      (fun d => d.headD 0) 78
    cases hread : readString (.object child) (ascii "parity") <;> rwa [hread] at hparity
  · have hserial (child : List (Bytes × CJson)) :
        getObjectItem root (ascii "serial") ≠ some (.object child) := fun h => hserial ⟨child, h⟩
    have hnumber (key : Bytes) (v : ℤ) : ¬NumberAt (SerialMember root key) v := by
      rintro ⟨d, hd, -⟩
      exact not_serialMember hserial hd
    have hstring (key : Bytes) (v : UInt8) :
        ¬StringAt (SerialMember root key) (fun d => d.headD 0) v := by
      rintro ⟨d, hd, -⟩
      exact not_serialMember hserial hd
    simp only [ModbusConfig.loaded, ModbusConfig.parseEntries, parseSerial_eq_self hserial]
    exact ⟨.inr ⟨hnumber _, hentries.baudrate⟩, .inr ⟨hstring _, hentries.parity⟩,
      .inr ⟨hnumber _, hentries.data_bits⟩, .inr ⟨hnumber _, hentries.stop_bits⟩⟩

/-- The areas are read one by one. -/
theorem areas_loaded : (config.loaded root).coils = parseRegConfig root (ascii "coils") {} ∧
    (config.loaded root).input_bits = parseRegConfig root (ascii "input_bits") {} ∧
    (config.loaded root).holding_regs = parseRegConfig root (ascii "holding_registers") {} ∧
    (config.loaded root).input_regs = parseRegConfig root (ascii "input_registers") {} := by
  have hentries := entriesAgree_setDefaults root config
  simp only [ModbusConfig.loaded, ModbusConfig.parseEntries, ModbusConfig.parseSerial]
  split <;> exact ⟨congrArg _ hentries.coils, congrArg _ hentries.input_bits,
    congrArg _ hentries.holding_regs, congrArg _ hentries.input_regs⟩

end Loaded

/-- **The entries** of a document are read by their types exactly if no area is given by an array
that starts with something other than two numbers, unless its values are zeros, and the device is
copied as a whole. -/
theorem typedEntries_iff (content : Bytes) (config : ModbusConfig) :
    (∀ root, cJSONParse (fileText content) = some root →
      TypedEntries root (configLoad (some content) config).2) ↔
    ∀ root, cJSONParse (fileText content) = some root →
      (∀ name ∈ areaNames, NumbersFirst root name) ∧
        ∀ d, SerialMember root (ascii "device") (.string d) →
          (cString d).length < 63 ∨ config.serial_device.last = 0 := by
  refine forall_congr' fun root => imp_congr_right fun hroot => ?_
  rw [configLoad_of_parse hroot, ← text_serial_device_iff]
  obtain ⟨hcoils, hinput_bits, hholding_regs, hinput_regs⟩ := areas_loaded root config
  simp only [areaNames, List.forall_mem_cons, List.not_mem_nil, false_implies, implies_true,
    and_true, ← givenOr_parseRegConfig_iff, ← hcoils, ← hinput_bits, ← hholding_regs,
    ← hinput_regs]
  constructor
  · intro h
    exact ⟨⟨h.coils, h.input_bits, h.holding_regs, h.input_regs⟩, h.serial_device⟩
  · rintro ⟨⟨hcoils, hinput_bits, hholding_regs, hinput_regs⟩, hdevice⟩
    obtain ⟨htcp, hrtu, hport, hunit⟩ := givenOr_loaded_top root config
    obtain ⟨hbaudrate, hparity, hdata, hstop⟩ := givenOr_loaded_serial root config
    exact ⟨htcp, hrtu, hport, hunit, hdevice, hbaudrate, hparity, hdata, hstop, hcoils,
      hinput_bits, hholding_regs, hinput_regs⟩

/-- The area of the coils as an array with a string. -/
def untypedCoils : Bytes := ascii "\x7b\"coils\":[\"a\",5]\x7d"

/-- Does an array start with something other than a number, and then with a positive number? -/
def startsUntyped : CJson → Bool
  | .array (s :: c :: _) => !isNumber (some s) && 0 < c.valueint
  | _ => false

/-- `untypedCoils` configures five coils. -/
theorem not_typedEntries : ¬∀ (content : Bytes) (config : ModbusConfig) (root : CJson),
    cJSONParse (fileText content) = some root →
      TypedEntries root (configLoad (some content) config).2 := by
  intro h
  have huntyped : ((cJSONParse (fileText untypedCoils)).bind fun root =>
      (getObjectItem root (ascii "coils")).map startsUntyped) = some true := by decide +kernel
  obtain ⟨root, hroot, hitem⟩ := Option.bind_eq_some_iff.mp huntyped
  obtain ⟨item, hitem, hstarts⟩ := Option.map_eq_some_iff.mp hitem
  have hcoils := (h untypedCoils initialGlobals.toModbusConfig root hroot).coils
  rw [configLoad_of_parse hroot, (areas_loaded root _).1, givenOr_parseRegConfig_iff] at hcoils
  rcases item with _ | _ | _ | _ | (_ | ⟨s, _ | ⟨c, rest⟩⟩) | _
  case array.cons.cons =>
    simp only [startsUntyped, Bool.and_eq_true, Bool.not_eq_true', decide_eq_true_eq] at hstarts
    rcases hcoils s c rest (firstMember_iff.mpr hitem) with ⟨hnumber, -⟩ | ⟨-, hzero⟩
    · exact absurd hnumber (by simp [hstarts.1])
    · omega
  all_goals exact absurd hstarts Bool.false_ne_true

end ModbusServer
