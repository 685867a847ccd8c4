import ModbusServer.Command.JsonCommand

/-!
# What a request asks for

The byte order that a request names and the registers that hold its number, said without the
functions of the program: the order is read off the text, and the number is the value of the JSON
number, neither saturated nor cast.

Source: `src/utils/byte_order.h` names the orders, `BUILD.md`, lines 154–163, the members of a
request.

## Main definitions

* `ModbusServer.requestedOrder`: the byte order that a text asks for.
* `ModbusServer.Datatype.decode`, `ModbusServer.Datatype.Gives`: reading registers.
* `ModbusServer.Datatype.encode`: the registers for a number.

## Main results

* `ModbusServer.order_eq_requestedOrder`: the program finds the order that is asked for.
* `ModbusServer.lowFirst_permuteWords`: reading undoes the permutation of the words.
* `ModbusServer.gives_words_iff`: which numbers read back.
* `ModbusServer.encode_eq`: whose words are stored.
-/

namespace ModbusServer

open CInt CText

/-! ### Byte orders -/

/-- A letter as a capital one. -/
def toUpper (c : UInt8) : UInt8 := if 97 ≤ c ∧ c ≤ 122 then c - 32 else c

namespace ByteOrder

/-- The name of an order. -/
def name : ByteOrder → Bytes
  | le => ascii "LE"
  | be => ascii "BE"
  | swap => ascii "SWAP"

/-- The order with a name, in letters of any case; any other text stands for `LE`. -/
def named (s : Bytes) : ByteOrder :=
  ([le, be, swap].find? fun order => s.map toUpper = order.name).getD le

/-- The words of a value with the low word first, from registers that hold them in an order. -/
def lowFirst (order : ByteOrder) (registers : List Word) : List Word :=
  match order with
  | le => registers
  | be => registers.reverse
  | swap => registers.map fun w => BitVec.ofNat 16 (w.toNat % 256 * 256 + w.toNat / 256)

end ByteOrder

/-- The order that a text asks for: the one that its member `byte_order` names, and `LE` without
such a string. -/
def requestedOrder (json_str : Bytes) : ByteOrder :=
  match (cJSONParse json_str).bind (getObjectItemCaseSensitive · (ascii "byte_order")) with
  | some (.string s) => .named s
  | _ => .le

theorem toUpper_toLower (c : UInt8) : toUpper (toLower c) = toUpper c := by
  simp only [toUpper, toLower]
  split_ifs <;> grind

theorem toLower_toUpper (c : UInt8) : toLower (toUpper c) = toLower c := by
  simp only [toUpper, toLower]
  split_ifs <;> grind

/-- Texts have the same letters if they have the same capital letters. -/
theorem sameLetters_iff {s t : Bytes} :
    sameLetters s t = true ↔ s.map toUpper = t.map toUpper := by
  have hupper (s : Bytes) : (s.map toLower).map toUpper = s.map toUpper := by
    simp [toUpper_toLower]
  have hlower (s : Bytes) : (s.map toUpper).map toLower = s.map toLower := by
    simp [toLower_toUpper]
  rw [sameLetters, decide_eq_true_iff]
  constructor
  · intro h
    rw [← hupper s, h, hupper]
  · intro h
    rw [← hlower s, h, hlower]

theorem parseByteOrder_some (s : Bytes) : parseByteOrder (some s) = .named s := by
  have hname (order : ByteOrder) : sameLetters s order.name = true ↔
      s.map toUpper = order.name := by
    rw [sameLetters_iff]
    cases order <;> exact Iff.rfl
  have hbe : ascii "BE" ≠ ascii "LE" := by decide
  have hswap : ascii "SWAP" ≠ ascii "LE" ∧ ascii "SWAP" ≠ ascii "BE" := by decide
  have hle' := hname .le
  have hbe' := hname .be
  have hswap' := hname .swap
  simp only [ByteOrder.name] at hle' hbe' hswap'
  simp only [parseByteOrder, ByteOrder.named, List.find?, ByteOrder.name, hle', hbe', hswap']
  split_ifs with h h' h''
  · simp [h]
  · simp [h', hbe]
  · simp [h'', hswap]
  · simp [h, h', h'']

/-- **The program finds the order** that the text asks for. -/
theorem order_eq_requestedOrder {json_str : Bytes} {root : CJson} {u : UpdateRequest}
    (hroot : cJSONParse json_str = some root) (hu : readUpdate root = some u) :
    u.order = requestedOrder json_str := by
  obtain ⟨-, -, -, -, horder⟩ := readUpdate_eq_some_iff.mp hu
  rw [UpdateRequest.order, horder, requestedOrder, hroot, Option.bind_some]
  cases getObjectItemCaseSensitive root (ascii "byte_order") with
  | none => rfl
  | some item =>
    cases item with
    | string s => exact parseByteOrder_some s
    | _ => rfl

theorem order_of_readRequest {json_str : Bytes} {u : UpdateRequest}
    (h : readRequest json_str = some u) : u.order = requestedOrder json_str := by
  obtain ⟨root, hroot, hu⟩ := Option.bind_eq_some_iff.mp h
  exact order_eq_requestedOrder hroot hu

theorem order_of_updateRequest {json_str : Bytes} {u : UpdateRequest}
    (h : updateRequest json_str = some u) : u.order = requestedOrder json_str := by
  obtain ⟨root, hroot, -, hu⟩ := exists_of_updateRequest h
  exact order_eq_requestedOrder hroot hu

/-! ### Reading registers -/

/-- The number whose words are given with the low word first. -/
def wordsValue (words : List Word) : ℕ := Nat.ofDigits (2 ^ 16) (words.map BitVec.toNat)

namespace Datatype

/-- Are values of the type in two's complement? -/
def signed : Datatype → Bool
  | int16 | int32 => true
  | uint16 | uint32 | float => false

/-- The integers of a datatype; `float` has none. -/
def InRange (dt : Datatype) (v : ℤ) : Prop :=
  match dt with
  | uint16 => 0 ≤ v ∧ v < 2 ^ 16
  | int16 => -2 ^ 15 ≤ v ∧ v < 2 ^ 15
  | uint32 => 0 ≤ v ∧ v < 2 ^ 32
  | int32 => -2 ^ 31 ≤ v ∧ v < 2 ^ 31
  | float => False

instance (dt : Datatype) (v : ℤ) : Decidable (dt.InRange v) :=
  match dt with
  | uint16 | int16 | uint32 | int32 => inferInstanceAs (Decidable (_ ∧ _))
  | float => inferInstanceAs (Decidable False)

/-- The number in the registers of an integer datatype. -/
def decode (dt : Datatype) (order : ByteOrder) (registers : List Word) : ℤ :=
  let n : ℤ := wordsValue (order.lowFirst registers)
  if dt.signed then n.bmod (2 ^ (16 * dt.span)) else n

/-- The registers, read in an order, give the number: an integer of the datatype, or the nearest
binary32 number. -/
def Gives (dt : Datatype) (order : ByteOrder) (registers : List Word) (d : Double) : Prop :=
  match dt with
  | float => wordsValue (order.lowFirst registers) = (castFloat d).toNat
  | uint16 | int16 | uint32 | int32 =>
    ∃ v, dt.InRange v ∧ (d == Float.Model.ofInt v) = true ∧ dt.decode order registers = v

/-- The integer that stands for a number: its integer part, or the bits of the nearest binary32
number. Infinities and not-a-number have no integer part. -/
def code (dt : Datatype) (d : Double) : Option ℤ :=
  match dt with
  | float => some (castFloat d).toNat
  | uint16 | int16 | uint32 | int32 =>
    (BinaryValues.value d.unpack).map BinaryValues.integerPart

/-- The registers that hold a number in an order, in two's complement. -/
def encode (dt : Datatype) (order : ByteOrder) (d : Double) : Option (List Word) :=
  (dt.code d).map fun n =>
    order.lowFirst ((List.range dt.span).map fun k => BitVec.ofInt 16 (n / 2 ^ (16 * k)))

end Datatype

/-- Reading registers in an order undoes the permutation of `write_registers`. -/
theorem lowFirst_permuteWords {words : List Word} (h : words.length ≤ 2) (order : ByteOrder) :
    order.lowFirst (permuteWords words order) = words := by
  cases order with
  | le => simp [ByteOrder.lowFirst, permuteWords, exchangeWords, exchangeBytes]
  | be =>
    rcases words with _ | ⟨w, _ | ⟨w', _ | ⟨w'', ws⟩⟩⟩
    · rfl
    · rfl
    · rfl
    · simp at h
  | swap =>
    have hswap (w : Word) : BitVec.ofNat 16 ((swapBytes w).toNat % 256 * 256 +
        (swapBytes w).toNat / 256) = w := by
      rw [← toNat_swapBytes, swapBytes_swapBytes, BitVec.ofNat_toNat, BitVec.setWidth_eq]
    simp [ByteOrder.lowFirst, permuteWords, exchangeWords, exchangeBytes, Function.comp_def, hswap]

/-- Reading and permuting are the same exchange. -/
theorem permuteWords_eq_lowFirst {words : List Word} (h : words.length ≤ 2) (order : ByteOrder) :
    permuteWords words order = order.lowFirst words := by
  have hshort : (permuteWords words order).length ≤ 2 := by simpa using h
  have hread := lowFirst_permuteWords hshort order
  rw [permuteWords_permuteWords] at hread
  exact hread.symm

theorem wordsValue_pair (u : BitVec 32) :
    wordsValue [u.setWidth 16, (u >>> 16).setWidth 16] = u.toNat := by
  have hlt := u.isLt
  simp only [wordsValue, List.map_cons, List.map_nil, Nat.ofDigits_cons, Nat.ofDigits_nil,
    BitVec.toNat_setWidth, BitVec.toNat_ushiftRight, Nat.shiftRight_eq_div_pow]
  omega

/-- The words of an integer datatype denote `valueint` modulo the size of the type. -/
theorem wordsValue_words {dt : Datatype} (hdt : dt ≠ .float) (d : Double) :
    (wordsValue (dt.words d) : ℤ) = saturate d % 2 ^ (16 * dt.span) := by
  cases dt with
  | uint16 | int16 =>
    simp [wordsValue, Datatype.words, Datatype.span, BitVec.toNat_ofInt]
    omega
  | uint32 | int32 =>
    rw [Datatype.words, wordsValue_pair, BitVec.toNat_ofInt]
    simp [Datatype.span]
    omega
  | float => exact absurd rfl hdt

theorem Datatype.length_words_le (dt : Datatype) (d : Double) : (dt.words d).length ≤ 2 := by
  rw [Datatype.length_words]
  cases dt <;> decide

theorem Datatype.InRange.natAbs_lt {dt : Datatype} {v : ℤ} (h : dt.InRange v) :
    v.natAbs < 2 ^ 53 := by
  cases dt <;> simp only [Datatype.InRange] at h <;> omega

/-- **Which numbers read back**: all but the `uint32` numbers beyond the limit of `int`. -/
theorem decode_words_eq_iff {dt : Datatype} {d : Double} {v : ℤ} (hrange : dt.InRange v)
    (hd : (d == Float.Model.ofInt v) = true) (order : ByteOrder) :
    dt.decode order (permuteWords (dt.words d) order) = v ↔ ¬(dt = .uint32 ∧ INT_MAX < v) := by
  have hdt : dt ≠ .float := by
    rintro rfl
    exact hrange
  have hsat := saturate_of_beq hrange.natAbs_lt hd
  simp only [Datatype.decode, lowFirst_permuteWords (dt.length_words_le d), wordsValue_words hdt,
    hsat, INT_MIN, INT_MAX]
  cases dt with
  | uint16 | uint32 =>
    simp only [Datatype.InRange] at hrange
    simp [Datatype.signed, Datatype.span]
    omega
  | int16 | int32 =>
    simp only [Datatype.InRange] at hrange
    have hmod (k : ℕ) (x : ℤ) : (x % 2 ^ k).bmod (2 ^ k) = x.bmod (2 ^ k) := by
      simpa using Int.emod_bmod x (2 ^ k)
    have hsat' : max (-2147483648) (min v 2147483647) = v := by omega
    simp only [Datatype.signed, Datatype.span, if_true, reduceCtorEq, false_and, not_false_eq_true,
      iff_true, hmod, hsat']
    exact Int.bmod_eq_of_le (by omega) (by omega)
  | float => exact absurd rfl hdt

/-- The datatype holds the number, and the number reaches the store: any number is held by `float`,
and an integer datatype holds the integers of its range, which must be of the type `int`. -/
def Datatype.Keeps (dt : Datatype) (d : Double) : Prop :=
  dt = .float ∨ ∃ v, dt.InRange v ∧ (d == Float.Model.ofInt v) = true ∧ v ≤ INT_MAX

/-- **Which numbers are given back** by the words that are stored for them. -/
theorem gives_words_iff {dt : Datatype} {d : Double} {order : ByteOrder} :
    dt.Gives order (permuteWords (dt.words d) order) d ↔ dt.Keeps d := by
  by_cases hdt : dt = .float
  · subst hdt
    refine iff_of_true ?_ (.inl rfl)
    rw [Datatype.Gives, lowFirst_permuteWords (Datatype.length_words_le .float d)]
    exact wordsValue_pair (castFloat d)
  · have hgives : dt.Gives order (permuteWords (dt.words d) order) d ↔
        ∃ v, dt.InRange v ∧ (d == Float.Model.ofInt v) = true ∧
          dt.decode order (permuteWords (dt.words d) order) = v := by
      cases dt with
      | float => exact absurd rfl hdt
      | _ => exact Iff.rfl
    rw [hgives, Datatype.Keeps, or_iff_right hdt]
    refine exists_congr fun v => and_congr_right fun hrange => and_congr_right fun hd => ?_
    rw [decode_words_eq_iff hrange hd]
    cases dt with
    | uint32 => simp
    | float => exact absurd rfl hdt
    | uint16 | int16 | int32 =>
      simp only [Datatype.InRange] at hrange
      simp only [reduceCtorEq, false_and, not_false_eq_true, INT_MAX, true_iff]
      omega

/-! ### Registers behind an update -/

section Update

variable {u : UpdateRequest} {dt : Datatype} {d : Double}

/-- The last store of an update into each of its registers. -/
theorem lastAt_effects (hdt : u.datatype = dt.name) (hd : u.value = .number d) (idx : ℤ) (k : ℕ) :
    Stores.lastAt (stores (u.effects idx)) (idx + k) =
      (permuteWords (dt.words d) u.order)[k]? := by
  rw [stores_effects, UpdateRequest.encoding_of_eq hdt hd, Option.getD_some, Stores.lastAt_block,
    if_pos (show idx ≤ idx + k by omega), add_sub_cancel_left, Int.toNat_natCast]

/-- The registers of an update that fits in the table. -/
theorem registers_effects {mb : Mapping} (hdt : u.datatype = dt.name) (hd : u.value = .number d)
    {idx : ℤ} (h0 : 0 ≤ idx) (hfits : idx + dt.span ≤ mb.nb_registers) :
    ((mb.apply (u.effects idx)).tab_registers.drop idx.toNat).take dt.span =
      permuteWords (dt.words d) u.order := by
  have hlen : (permuteWords (dt.words d) u.order).length = dt.span := by simp
  rw [Mapping.tab_registers_apply, stores_effects, UpdateRequest.encoding_of_eq hdt hd,
    Option.getD_some, ← hlen]
  exact Stores.take_drop_apply_block h0 (by rw [hlen]; exact hfits)

end Update

/-! ### Encoding numbers -/

/-- The two words of an integer. -/
theorem words_pair {u : BitVec 32} {n : ℤ} (h : u = BitVec.ofInt 32 n) :
    [u.setWidth 16, (u >>> 16).setWidth 16] =
      [BitVec.ofInt 16 (n / 2 ^ (16 * 0)), BitVec.ofInt 16 (n / 2 ^ (16 * 1))] := by
  subst h
  simp only [List.cons.injEq, and_true]
  constructor
  · refine BitVec.eq_of_toNat_eq ?_
    simp only [BitVec.toNat_setWidth, BitVec.toNat_ofInt]
    omega
  · refine BitVec.eq_of_toNat_eq ?_
    simp only [BitVec.toNat_setWidth, BitVec.toNat_ushiftRight, BitVec.toNat_ofInt,
      Nat.shiftRight_eq_div_pow]
    omega

/-- The number has an integer part of the type `int`. -/
def IntPart (d : Double) : Prop :=
  ∃ q, BinaryValues.value d.unpack = some q ∧ IsInt (BinaryValues.integerPart q)

/-- An integer of the type `int` is its own integer part. -/
theorem intPart_of_beq {d : Double} {v : ℤ} (hv : IsInt v)
    (hd : (d == Float.Model.ofInt v) = true) : IntPart d := by
  have hsize : v.natAbs < 2 ^ 53 := by
    rw [isInt_iff] at hv
    omega
  exact ⟨v, (BinaryValues.beq_ofInt_iff hsize).mp hd, by simpa using hv⟩

/-- Does the value of a request denote an integer? -/
def UpdateRequest.denotes (u : UpdateRequest) (v : ℤ) : Bool :=
  match u.value with
  | .number d => d == Float.Model.ofInt v
  | _ => false

theorem exists_request {text : Bytes} {address v : ℤ} {dt : Datatype}
    (h : (updateRequest text).map (fun u => (u.address, u.datatype, u.denotes v)) =
      some (address, dt.name, true)) :
    ∃ u d, updateRequest text = some u ∧ u.address = address ∧ u.datatype = dt.name ∧
      u.value = .number d ∧ (d == Float.Model.ofInt v) = true := by
  obtain ⟨u, hu, hfields⟩ := Option.map_eq_some_iff.mp h
  rw [Prod.mk.injEq, Prod.mk.injEq, UpdateRequest.denotes] at hfields
  obtain ⟨haddress, hdt, hdenotes⟩ := hfields
  split at hdenotes
  · next d hd => exact ⟨u, d, hu, haddress, hdt, hd, hdenotes⟩
  · simp at hdenotes

/-- **Whose words are stored**: those of the number, if its integer part is an `int`. -/
theorem encode_eq {dt : Datatype} {d : Double} (hd : dt = .float ∨ IntPart d) (order : ByteOrder) :
    dt.encode order d = some (permuteWords (dt.words d) order) := by
  have hint (hdt : dt ≠ .float) :
      (BinaryValues.value d.unpack).map BinaryValues.integerPart = some (saturate d) := by
    obtain ⟨q, hq, hint⟩ := hd.resolve_left hdt
    rw [isInt_iff] at hint
    rw [saturate_of_value hq, hq, Option.map_some]
    simp only [INT_MAX, INT_MIN]
    congr 1
    omega
  rw [permuteWords_eq_lowFirst (dt.length_words_le d)]
  cases dt with
  | uint16 | int16 =>
    rw [Datatype.encode, Datatype.code, hint (by decide), Option.map_some]
    simp [Datatype.span, Datatype.words]
  | uint32 | int32 =>
    rw [Datatype.encode, Datatype.code, hint (by decide), Option.map_some, Datatype.words,
      words_pair rfl]
    rfl
  | float =>
    have hu : castFloat d = BitVec.ofInt 32 (castFloat d).toNat := by
      rw [BitVec.ofInt_natCast, BitVec.ofNat_toNat, BitVec.setWidth_eq]
    rw [Datatype.encode, Datatype.code, Option.map_some, Datatype.words, words_pair hu]
    rfl

end ModbusServer
