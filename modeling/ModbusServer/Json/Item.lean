import ModbusServer.Json.Number

/-!
# JSON items

A parsed JSON value. The constructors carry what the parser stores for each type; the fields a
reader of the C structure sees on any item, such as `valuestring` and `valueint`, are functions, so
that a field always agrees with the type of the item. A pointer to an item that may be null is an
`Option`, and the type tests and the lookup take such pointers.

Source: `cJSON/cJSON.h`, lines 87–123; `get_object_item`, `cJSON/cJSON.c`, lines 1880–1910.

## Main definitions

* `ModbusServer.CJson`: a parsed value.
* `ModbusServer.CJson.valuestring`, `ModbusServer.CJson.valueint`,
  `ModbusServer.CJson.valuedouble`.
* `ModbusServer.isString`, `ModbusServer.isNumber`.
* `ModbusServer.getObjectItemCaseSensitive`, `ModbusServer.getObjectItem`.
-/

namespace ModbusServer

open CText

/-- A JSON item. Strings and names are read as C strings and hold no zero byte. -/
inductive CJson
  | null
  | bool (b : Bool)
  | number (valuedouble : Double)
  | string (valuestring : Bytes)
  | array (child : List CJson)
  | object (child : List (Bytes × CJson))

namespace CJson

/-- The field `valuestring`, which is a null pointer unless the item is a string. -/
def valuestring : CJson → Option Bytes
  | string s => some s
  | _ => none

/-- The field `valueint`: set for numbers and for `true`, zero otherwise. -/
def valueint : CJson → ℤ
  | number d => saturate d
  | bool true => 1
  | _ => 0

/-- The field `valuedouble`, zero unless the item is a number. -/
def valuedouble : CJson → Double
  | number d => d
  | _ => Float.Model.ofInt 0

end CJson

/-- `cJSON_IsString`. -/
def isString : Option CJson → Bool
  | some (.string _) => true
  | _ => false

/-- `cJSON_IsNumber`. -/
def isNumber : Option CJson → Bool
  | some (.number _) => true
  | _ => false

/-- `cJSON_GetObjectItemCaseSensitive`: the first member of an object with the given name. The
children of an array have no names, and the search ends at the first of them. -/
def getObjectItemCaseSensitive (object : CJson) (name : Bytes) : Option CJson :=
  match object with
  | .object child => (child.find? fun m => m.1 = name).map Prod.snd
  | _ => none

/-- `cJSON_GetObjectItem`: the same without regard to the case of letters. -/
def getObjectItem (object : CJson) (string : Bytes) : Option CJson :=
  match object with
  | .object child => (child.find? fun m => sameLetters string m.1).map Prod.snd
  | _ => none

namespace CJson

theorem isInt_valueint (item : CJson) : CInt.IsInt item.valueint := by
  cases item with
  | number d => exact isInt_saturate d
  | bool b => cases b <;> decide
  | _ => exact (by decide : CInt.IsInt 0)

end CJson

theorem isNumber_eq_true_iff {j : Option CJson} :
    isNumber j = true ↔ ∃ d, j = some (.number d) := by
  rcases j with _ | (_ | _ | _ | _ | _ | _) <;> simp [isNumber]

end ModbusServer
