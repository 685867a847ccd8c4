import ModbusServer.Command.ProcessJson
import ModbusServer.Foundation.CharArray
import ModbusServer.Json.Parser

/-!
# The two loaders of the configuration

The server program reads its configuration into globals, the module `config` reads it into a
structure of the caller. Both read at most 2047 bytes of the file, and both keep the values that
they had for what is missing in the file or has another type. They start from different values: the
globals are initialised as a whole, with TCP switched off and a mode that nothing has looked at; the
structure of the caller may hold anything, and gets the defaults field by field.

Source: `json-modbus-server.c`, lines 33–130; `src/config/config_loader.c`;
`src/config/config.h`.

## Main definitions

* `ModbusServer.ModbusConfig`, `ModbusServer.Globals`: what the loaders fill in.
* `ModbusServer.ModbusConfig.parseEntries`: the entries that both loaders read the same way.
* `ModbusServer.loadConfig`, `ModbusServer.configLoad`: the loaders.
* `ModbusServer.ModbusConfig.serverConfig`: what the main loop reads of it.
-/

namespace ModbusServer

open CInt CText

/-! ### The data -/

/-- An area of registers: its first address and the number of its cells. -/
structure RegRange where
  start : ℤ := 0
  nb : ℤ := 0
  isInt_start : IsInt start := by decide
  isInt_nb : IsInt nb := by decide
  deriving DecidableEq

/-- `ModbusConfig`. -/
structure ModbusConfig where
  enable_tcp : Bool
  enable_rtu : Bool
  tcp_port : ℤ
  serial_device : CharArray 64
  baudrate : ℤ
  parity : UInt8
  data_bits : ℤ
  stop_bits : ℤ
  unit_id : ℤ
  coils : RegRange
  input_bits : RegRange
  holding_regs : RegRange
  input_regs : RegRange

/-- The globals that `load_config` sets. They have the names of the fields of `ModbusConfig`; the
text of the mode is kept as well. -/
structure Globals extends ModbusConfig where
  mode : CharArray 16

/-- The text `/dev/ttyUSB0`. -/
def defaultDevice : Bytes := ascii "/dev/ttyUSB0"

/-- The initialisers of the globals. -/
def initialGlobals : Globals where
  enable_tcp := false
  enable_rtu := false
  tcp_port := 1502
  serial_device := .ofText defaultDevice (by decide)
  baudrate := 9600
  parity := 78
  data_bits := 8
  stop_bits := 1
  unit_id := 1
  coils := {}
  input_bits := {}
  holding_regs := {}
  input_regs := {}
  mode := .ofText (ascii "tcp") (by decide)

/-! ### Entries -/

/-- An entry that is a number replaces the value. -/
def readInt (object : CJson) (string : Bytes) (value : ℤ) : ℤ :=
  match getObjectItem object string with
  | some (.number d) => (CJson.number d).valueint
  | _ => value

/-- An entry that is a string. -/
def readString (object : CJson) (string : Bytes) : Option Bytes :=
  match getObjectItem object string with
  | some (.string s) => some s
  | _ => none

/-- `PARSE_REG_CONFIG`: an area is given by an object with two numbers, or by an array of at least
two items of any type. -/
def parseRegConfig (root : CJson) (name : Bytes) (range : RegRange) : RegRange :=
  match getObjectItem root name with
  | some (.object child) =>
    match getObjectItem (.object child) (ascii "start_address"),
      getObjectItem (.object child) (ascii "count") with
    | some (.number s), some (.number c) =>
      ⟨(CJson.number s).valueint, (CJson.number c).valueint, CJson.isInt_valueint _,
        CJson.isInt_valueint _⟩
    | _, _ => range
  | some (.array (s :: c :: _)) =>
    ⟨s.valueint, c.valueint, CJson.isInt_valueint _, CJson.isInt_valueint _⟩
  | _ => range

namespace ModbusConfig

/-- The entry `serial`. -/
def parseSerial (root : CJson) (config : ModbusConfig) : ModbusConfig :=
  match getObjectItem root (ascii "serial") with
  | some (.object child) =>
    let j := CJson.object child
    { config with
      serial_device :=
        match readString j (ascii "device") with
        | some d => config.serial_device.strncpy d 63 (by decide)
        | none => config.serial_device
      baudrate := readInt j (ascii "baudrate") config.baudrate
      parity :=
        match readString j (ascii "parity") with
        | some d => d.headD 0
        | none => config.parity
      data_bits := readInt j (ascii "data_bits") config.data_bits
      stop_bits := readInt j (ascii "stop_bits") config.stop_bits }
  | _ => config

/-- All entries but the mode, which both loaders read the same way. -/
def parseEntries (root : CJson) (config : ModbusConfig) : ModbusConfig :=
  let config := { config with
    tcp_port := readInt root (ascii "tcp_port") config.tcp_port
    unit_id := readInt root (ascii "unit_id") config.unit_id }
  let config := config.parseSerial root
  { config with
    coils := parseRegConfig root (ascii "coils") config.coils
    input_bits := parseRegConfig root (ascii "input_bits") config.input_bits
    holding_regs := parseRegConfig root (ascii "holding_registers") config.holding_regs
    input_regs := parseRegConfig root (ascii "input_registers") config.input_regs }

end ModbusConfig

/-! ### The loaders -/

/-- The text in `buf`, which has room for 2047 bytes of the file. -/
def fileText (content : Bytes) : Bytes := content.take 2047

/-- The entry `mode` in `load_config`: it is cut off after 15 bytes. -/
def Globals.parseMode (root : CJson) (g : Globals) : Globals :=
  match readString root (ascii "mode") with
  | some s =>
    let mode := g.mode.strncpy s 15 (by decide)
    { g with
      mode := mode
      enable_tcp := strstr mode.bytes (ascii "tcp")
      enable_rtu := strstr mode.bytes (ascii "rtu") }
  | none => g

/-- `load_config` of `json-modbus-server.c`, where a missing file is `none`. -/
def loadConfig (file : Option Bytes) (g : Globals) : ℤ × Globals :=
  match file with
  | none => (-1, g)
  | some content =>
    match cJSONParse (fileText content) with
    | none => (-1, g)
    | some root =>
      let g := g.parseMode root
      (0, { g with toModbusConfig := g.toModbusConfig.parseEntries root })

namespace ModbusConfig

/-- The defaults that `config_load` sets. -/
def setDefaults (config : ModbusConfig) : ModbusConfig where
  enable_tcp := true
  enable_rtu := false
  tcp_port := 1502
  unit_id := 1
  coils := {}
  input_bits := {}
  holding_regs := {}
  input_regs := {}
  serial_device := config.serial_device.strcpy defaultDevice (by decide)
  baudrate := 9600
  parity := 78
  data_bits := 8
  stop_bits := 1

/-- The entry `mode` in `config_load`. -/
def parseMode (root : CJson) (config : ModbusConfig) : ModbusConfig :=
  match readString root (ascii "mode") with
  | some s =>
    { config with
      enable_tcp := strstr s (ascii "tcp")
      enable_rtu := strstr s (ascii "rtu") }
  | none => config

end ModbusConfig

/-- `config_load` of `src/config/config_loader.c`, for the memory of the caller. -/
def configLoad (file : Option Bytes) (config : ModbusConfig) : ℤ × ModbusConfig :=
  let config := config.setDefaults
  match file with
  | none => (0, config)
  | some content =>
    match cJSONParse (fileText content) with
    | none => (-1, config)
    | some root => (0, (config.parseMode root).parseEntries root)

/-- What the command processor and the main loop read. -/
def ModbusConfig.serverConfig (config : ModbusConfig) : Config where
  enable_tcp := config.enable_tcp
  enable_rtu := config.enable_rtu
  unit_id := config.unit_id
  holding_regs_start := config.holding_regs.start
  nb_holding_regs := config.holding_regs.nb
  isInt_start := config.holding_regs.isInt_start
  isInt_nb := config.holding_regs.isInt_nb

end ModbusServer
