import ModbusServer.Config.Loader
import ModbusServer.Server.MainLoop

/-!
# When the two loaders agree

The loaders read all entries but the mode the same way, so what they leave can differ in three
places only: in the flag for TCP, if the mode is not given or not a string; in the flags, if the
mode tells more than its first 15 bytes; and in the device, if it fills the array up to the last
byte, which only the globals are known to have zero.

## Main definitions

* `ModbusServer.LoadersAgree`: the two loaders have the same outcome.
* `ModbusServer.LoadersMeet`: the files for which they have.

## Main results

* `ModbusServer.loadersAgree_iff`: these are exactly the files for which the loaders agree.
* `ModbusServer.SettingsAgree.serverRun_eq`: the server runs the same way with settings that agree.
* `ModbusServer.not_loadersAgree`: a file for which they do not.
-/

namespace ModbusServer

open CText

/-! ### Agreement -/

/-- The two structures agree in what is not a flag and not the device. -/
structure EntriesAgree (c c' : ModbusConfig) : Prop where
  tcp_port : c.tcp_port = c'.tcp_port
  baudrate : c.baudrate = c'.baudrate
  parity : c.parity = c'.parity
  data_bits : c.data_bits = c'.data_bits
  stop_bits : c.stop_bits = c'.stop_bits
  unit_id : c.unit_id = c'.unit_id
  coils : c.coils = c'.coils
  input_bits : c.input_bits = c'.input_bits
  holding_regs : c.holding_regs = c'.holding_regs
  input_regs : c.input_regs = c'.input_regs

/-- The two structures agree, the device as a string. -/
structure SettingsAgree (c c' : ModbusConfig) : Prop extends EntriesAgree c c' where
  enable_tcp : c.enable_tcp = c'.enable_tcp
  enable_rtu : c.enable_rtu = c'.enable_rtu
  serial_device : c.serial_device.text = c'.serial_device.text

/-- For a file, `load_config` and `config_load` return the same code and leave the same settings. -/
structure LoadersAgree (content : Bytes) (config : ModbusConfig) : Prop where
  code : (loadConfig (some content) initialGlobals).1 = (configLoad (some content) config).1
  settings : SettingsAgree (loadConfig (some content) initialGlobals).2.toModbusConfig
    (configLoad (some content) config).2

/-! ### The condition -/

/-- The device that a document gives. -/
def device? (root : CJson) : Option Bytes :=
  match getObjectItem root (ascii "serial") with
  | some (.object child) => readString (.object child) (ascii "device")
  | _ => none

/-- The first 15 bytes of the mode tell as much as the mode. -/
def ModeFits (mode : Bytes) : Prop :=
  ∀ name ∈ [ascii "tcp", ascii "rtu"], strstr ((cString mode).take 15) name = strstr mode name

/-- The file holds a document with a mode that fits, and with a device of less than 63 bytes, if
any; the length of the device does not matter if the last byte of the caller's array is zero. -/
def LoadersMeet (content : Bytes) (config : ModbusConfig) : Prop :=
  ∃ root, cJSONParse (fileText content) = some root ∧
    (∃ mode, readString root (ascii "mode") = some mode ∧ ModeFits mode) ∧
    ∀ d, device? root = some d → (cString d).length < 63 ∨ config.serial_device.last = 0

/-! ### Entries -/

section Entries

variable {root : CJson} {c c' : ModbusConfig}

theorem EntriesAgree.parseEntries (h : EntriesAgree c c') (root : CJson) :
    EntriesAgree (c.parseEntries root) (c'.parseEntries root) := by
  simp only [ModbusConfig.parseEntries, ModbusConfig.parseSerial]
  split
  · next child hserial =>
    exact ⟨by simp [h.tcp_port], by simp [h.baudrate], by simp [h.parity], by simp [h.data_bits],
      by simp [h.stop_bits], by simp [h.unit_id], by simp [h.coils], by simp [h.input_bits],
      by simp [h.holding_regs], by simp [h.input_regs]⟩
  · exact ⟨by simp [h.tcp_port], h.baudrate, h.parity, h.data_bits, h.stop_bits,
      by simp [h.unit_id], by simp [h.coils], by simp [h.input_bits], by simp [h.holding_regs],
      by simp [h.input_regs]⟩

theorem enable_tcp_parseEntries (c : ModbusConfig) (root : CJson) :
    (c.parseEntries root).enable_tcp = c.enable_tcp := by
  simp only [ModbusConfig.parseEntries, ModbusConfig.parseSerial]
  split <;> rfl

theorem enable_rtu_parseEntries (c : ModbusConfig) (root : CJson) :
    (c.parseEntries root).enable_rtu = c.enable_rtu := by
  simp only [ModbusConfig.parseEntries, ModbusConfig.parseSerial]
  split <;> rfl

theorem serial_device_parseEntries (c : ModbusConfig) (root : CJson) :
    (c.parseEntries root).serial_device =
      match device? root with
      | some d => c.serial_device.strncpy d 63 (by decide)
      | none => c.serial_device := by
  rcases hserial : getObjectItem root (ascii "serial") with _ | (_ | _ | _ | _ | _ | child)
  case some.object =>
    cases hdevice : readString (.object child) (ascii "device") <;>
      simp only [ModbusConfig.parseEntries, ModbusConfig.parseSerial, device?, hserial, hdevice]
  all_goals simp only [ModbusConfig.parseEntries, ModbusConfig.parseSerial, device?, hserial]

/-- The devices are the same for two structures that had the same device, where the first array ends
in a zero byte, if the device fits or the second array ends in a zero byte as well. -/
theorem text_serial_device_parseEntries_iff (root : CJson)
    (htext : c.serial_device.text = c'.serial_device.text) (hlast : c.serial_device.last = 0) :
    (c.parseEntries root).serial_device.text = (c'.parseEntries root).serial_device.text ↔
      ∀ d, device? root = some d → (cString d).length < 63 ∨ c'.serial_device.last = 0 := by
  rw [serial_device_parseEntries, serial_device_parseEntries]
  cases device? root with
  | none => simpa using htext
  | some d =>
    dsimp only
    rw [(CharArray.text_strncpy_eq_take_iff c.serial_device d).mpr (.inr hlast), eq_comm,
      CharArray.text_strncpy_eq_take_iff]
    simp

theorem settingsAgree_parseEntries_iff (h : EntriesAgree c c') (root : CJson) :
    SettingsAgree (c.parseEntries root) (c'.parseEntries root) ↔
      (c.enable_tcp = c'.enable_tcp ∧ c.enable_rtu = c'.enable_rtu) ∧
        (c.parseEntries root).serial_device.text = (c'.parseEntries root).serial_device.text := by
  constructor
  · rintro ⟨-, htcp, hrtu, hdevice⟩
    simp only [enable_tcp_parseEntries, enable_rtu_parseEntries] at htcp hrtu
    exact ⟨⟨htcp, hrtu⟩, hdevice⟩
  · rintro ⟨⟨htcp, hrtu⟩, hdevice⟩
    refine ⟨h.parseEntries root, ?_, ?_, hdevice⟩
    · simpa only [enable_tcp_parseEntries] using htcp
    · simpa only [enable_rtu_parseEntries] using hrtu

end Entries

/-! ### The mode -/

section Mode

variable (root : CJson) (config : ModbusConfig)

theorem serial_device_globals_parseMode (g : Globals) :
    (g.parseMode root).serial_device = g.serial_device := by
  rw [Globals.parseMode]
  split <;> rfl

theorem serial_device_parseMode : (config.parseMode root).serial_device = config.serial_device := by
  rw [ModbusConfig.parseMode]
  split <;> rfl

/-- Up to the flags, both loaders have the same defaults. -/
theorem entriesAgree_parseMode : EntriesAgree (initialGlobals.parseMode root).toModbusConfig
    (config.setDefaults.parseMode root) := by
  rw [Globals.parseMode, ModbusConfig.parseMode]
  cases readString root (ascii "mode") with
  | none => exact ⟨rfl, rfl, rfl, rfl, rfl, rfl, rfl, rfl, rfl, rfl⟩
  | some s => exact ⟨rfl, rfl, rfl, rfl, rfl, rfl, rfl, rfl, rfl, rfl⟩

/-- What `strstr` finds in the global `mode`. -/
theorem strstr_strncpy (s name : Bytes) :
    strstr (initialGlobals.mode.strncpy s 15 (by decide)).bytes name =
      strstr ((cString s).take 15) name := by
  have htext := (CharArray.text_strncpy_eq_take_iff initialGlobals.mode s).mpr (.inr (by decide))
  have hzero : (0 : UInt8) ∉ (cString s).take 15 := fun h =>
    zero_notMem_cString s (List.mem_of_mem_take h)
  rw [strstr, strstr, cString_of_notMem hzero, ← htext]
  rfl

/-- The flags are the same if there is a mode that fits. -/
theorem flags_parseMode_iff :
    ((initialGlobals.parseMode root).enable_tcp = (config.setDefaults.parseMode root).enable_tcp ∧
      (initialGlobals.parseMode root).enable_rtu = (config.setDefaults.parseMode root).enable_rtu) ↔
      ∃ mode, readString root (ascii "mode") = some mode ∧ ModeFits mode := by
  rw [Globals.parseMode, ModbusConfig.parseMode]
  cases readString root (ascii "mode") with
  | none => simp [initialGlobals, ModbusConfig.setDefaults]
  | some s => simp [strstr_strncpy, ModeFits]

/-- Both loaders start with the same device. -/
theorem text_defaultDevice : initialGlobals.serial_device.text =
    config.setDefaults.serial_device.text := by
  have hzero : (0 : UInt8) ∉ defaultDevice := by decide
  exact (CharArray.text_ofText hzero (by decide)).trans
    (CharArray.text_strcpy config.serial_device hzero (by decide)).symm

end Mode

/-- **The loaders agree** for exactly the files that meet the condition. -/
theorem loadersAgree_iff (content : Bytes) (config : ModbusConfig) :
    LoadersAgree content config ↔ LoadersMeet content config := by
  cases hparse : cJSONParse (fileText content) with
  | none =>
    refine iff_of_false (fun h => ?_) fun ⟨root, hroot, _⟩ => by simp [hparse] at hroot
    have htcp := h.settings.enable_tcp
    simp [loadConfig, configLoad, hparse, initialGlobals, ModbusConfig.setDefaults] at htcp
  | some root =>
    have hload : loadConfig (some content) initialGlobals = (0, { initialGlobals.parseMode root with
        toModbusConfig := (initialGlobals.parseMode root).toModbusConfig.parseEntries root }) := by
      rw [loadConfig, hparse]
    have hconfig : configLoad (some content) config =
        (0, (config.setDefaults.parseMode root).parseEntries root) := by
      rw [configLoad, hparse]
    have htext : (initialGlobals.parseMode root).serial_device.text =
        (config.setDefaults.parseMode root).serial_device.text := by
      rw [serial_device_globals_parseMode, serial_device_parseMode]
      exact text_defaultDevice config
    have hzero : (initialGlobals.parseMode root).serial_device.last = 0 := by
      rw [serial_device_globals_parseMode]
      decide
    have hdevice := text_serial_device_parseEntries_iff root htext hzero
    have hlast : (config.setDefaults.parseMode root).serial_device.last =
        config.serial_device.last := by
      rw [serial_device_parseMode]
      exact @CharArray.last_strcpy 63 config.serial_device defaultDevice (by decide)
    have hsettings := settingsAgree_parseEntries_iff (entriesAgree_parseMode root config) root
    rw [flags_parseMode_iff, hdevice, hlast] at hsettings
    constructor
    · rintro ⟨-, h⟩
      rw [hload, hconfig] at h
      exact ⟨root, hparse, hsettings.mp h⟩
    · rintro ⟨root', hroot, h⟩
      obtain rfl : root = root' := Option.some.inj (hparse.symm.trans hroot)
      refine ⟨by rw [hload, hconfig], ?_⟩
      rw [hload, hconfig]
      exact hsettings.mpr h

/-- With settings that agree the server runs the same way. -/
theorem SettingsAgree.serverRun_eq {c c' : ModbusConfig} (h : SettingsAgree c c') (ahead : ℕ)
    (inputs : List Input) : serverRun c.serverConfig ahead inputs =
      serverRun c'.serverConfig ahead inputs := by
  have hconfig : c.serverConfig = c'.serverConfig := by
    simp [ModbusConfig.serverConfig, h.enable_tcp, h.enable_rtu, h.unit_id, h.holding_regs]
  rw [hconfig]

/-- With an empty document TCP is off in one loader, and on in the other. -/
theorem not_loadersAgree : ¬∀ (content : Bytes) (config : ModbusConfig),
    content.length ≤ 2047 → (cJSONParse content).isSome = true → LoadersAgree content config := by
  intro h
  have htcp := (h (ascii "\x7b\x7d") initialGlobals.toModbusConfig (by decide)
    (by decide +kernel)).settings.enable_tcp
  exact absurd htcp (by decide +kernel)

end ModbusServer
