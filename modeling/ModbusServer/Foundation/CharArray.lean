import ModbusServer.Foundation.CText

/-!
# Character arrays

Arrays of a fixed number of bytes, and the functions of the C library that copy a string into one.
`strncpy` does not end the string that it copies if there is no room left, so the text of the array
may go on with what the array held before.

## Main definitions

* `CText.CharArray`: an array of `n` bytes, and `CText.CharArray.text`, the string in it.
* `CText.CharArray.ofText`, `CText.CharArray.strcpy`, `CText.CharArray.strncpy`: how a string gets
  into an array.
* `CText.strstr`: does a string occur in another?

## Main results

* `CText.CharArray.text_strncpy`: the text behind `strncpy`.
* `CText.CharArray.text_strncpy_eq_take_iff`: when a copy of all bytes but the last is cut off at
  the end of the array.
-/

namespace CText

/-- `strstr(haystack, needle) != NULL`. -/
def strstr (haystack needle : Bytes) : Bool := decide (needle <:+: cString haystack)

/-- An array of `n` bytes. -/
structure CharArray (n : ℕ) where
  bytes : Bytes
  length_eq : bytes.length = n

namespace CharArray

variable {n k : ℕ}

/-- The string in the array: the whole array if it holds no zero byte. -/
def text (a : CharArray n) : Bytes := cString a.bytes

/-- The last byte. -/
def last (a : CharArray (k + 1)) : UInt8 :=
  a.bytes.get ⟨k, by rw [a.length_eq]; exact Nat.lt_succ_self k⟩

/-- An array that is initialised with a string. -/
def ofText (src : Bytes) (h : src.length ≤ n) : CharArray n where
  bytes := src ++ List.replicate (n - src.length) 0
  length_eq := by rw [List.length_append, List.length_replicate]; omega

/-- `strcpy`, if there is room for the string and the zero byte. -/
def strcpy (a : CharArray n) (src : Bytes) (h : src.length < n) : CharArray n where
  bytes := src ++ 0 :: a.bytes.drop (src.length + 1)
  length_eq := by
    rw [List.length_append, List.length_cons, List.length_drop, a.length_eq]
    omega

/-- `strncpy(a, src, k)`: the first `k` bytes of the string, filled up with zero bytes. -/
def strncpy (a : CharArray n) (src : Bytes) (k : ℕ) (hk : k ≤ n) : CharArray n where
  bytes := (cString src).take k ++
    (List.replicate (k - (cString src).length) 0 ++ a.bytes.drop k)
  length_eq := by
    simp only [List.length_append, List.length_take, List.length_replicate, List.length_drop,
      a.length_eq]
    omega

/-- Bytes without a zero byte in front are part of the text. -/
theorem cString_append {s : Bytes} (hs : (0 : UInt8) ∉ s) (t : Bytes) :
    cString (s ++ t) = s ++ cString t := by
  refine List.takeWhile_append_of_pos fun c hc => ?_
  simpa using fun h0 : c = 0 => hs (h0 ▸ hc)

@[simp] theorem cString_zero_cons (t : Bytes) : cString (0 :: t) = [] := by simp [cString]

theorem cString_replicate_append (m : ℕ) (t : Bytes) :
    cString (List.replicate m 0 ++ t) = if m = 0 then cString t else [] := by
  cases m with
  | zero => rfl
  | succ m => simp [List.replicate_succ]

theorem text_ofText {src : Bytes} (hsrc : (0 : UInt8) ∉ src) (h : src.length ≤ n) :
    (ofText src h).text = src := by
  have htail : cString (List.replicate (n - src.length) 0) = [] := by
    cases n - src.length with
    | zero => rfl
    | succ m => simp [List.replicate_succ]
  rw [text, ofText, cString_append hsrc, htail, List.append_nil]

theorem text_strcpy (a : CharArray n) {src : Bytes} (hsrc : (0 : UInt8) ∉ src)
    (h : src.length < n) : (a.strcpy src h).text = src := by
  rw [text, strcpy, cString_append hsrc, cString_zero_cons, List.append_nil]

/-- The text behind `strncpy`: the string, or as much of it as is copied, and then what the array
held before. -/
theorem text_strncpy (a : CharArray n) (src : Bytes) (hk : k ≤ n) :
    (a.strncpy src k hk).text = (cString src).take k ++
      if (cString src).length < k then [] else cString (a.bytes.drop k) := by
  have htake : (0 : UInt8) ∉ (cString src).take k := fun h =>
    zero_notMem_cString src (List.mem_of_mem_take h)
  rw [text, strncpy, cString_append htake, cString_replicate_append]
  congr 1
  by_cases hlt : (cString src).length < k
  · rw [if_neg (by omega), if_pos hlt]
  · rw [if_pos (by omega), if_neg hlt]

/-- A text that does not fill the array ends at a zero byte. -/
theorem zero_mem_bytes {a : CharArray n} (h : a.text.length < n) : (0 : UInt8) ∈ a.bytes := by
  by_contra hzero
  rw [text, cString_of_notMem hzero, a.length_eq] at h
  exact lt_irrefl n h

theorem drop_bytes (a : CharArray (k + 1)) : a.bytes.drop k = [a.last] := by
  have hlt : k < a.bytes.length := by rw [a.length_eq]; exact Nat.lt_succ_self k
  rw [List.drop_eq_getElem_cons hlt, List.drop_eq_nil_of_le (by rw [a.length_eq])]
  rfl

/-- `strcpy` leaves what is behind the zero byte. -/
theorem last_strcpy (a : CharArray (k + 1)) {src : Bytes} (h : src.length < k) :
    (a.strcpy src (Nat.lt_succ_of_lt h)).last = a.last := by
  have hdrop := drop_bytes (a.strcpy src (Nat.lt_succ_of_lt h))
  have hskip (l : Bytes) : (src ++ 0 :: l.drop (src.length + 1)).drop k = l.drop k := by
    obtain ⟨m, rfl⟩ := Nat.exists_eq_add_of_lt h
    rw [Nat.add_assoc, ← List.drop_drop, List.drop_left, List.drop_succ_cons, List.drop_drop]
    congr 1
    omega
  rw [strcpy, hskip, drop_bytes] at hdrop
  exact (List.singleton_inj.mp hdrop).symm

/-- A copy of all bytes but the last is cut off at the end of the array if the string is shorter or
the last byte is zero. -/
theorem text_strncpy_eq_take_iff (a : CharArray (k + 1)) (src : Bytes) :
    (a.strncpy src k (Nat.le_succ k)).text = (cString src).take k ↔
      (cString src).length < k ∨ a.last = 0 := by
  have hlast : cString [a.last] = [] ↔ a.last = 0 := by
    by_cases hzero : a.last = 0
    · simp [hzero]
    · simp [cString, hzero]
  rw [text_strncpy, drop_bytes]
  by_cases hlt : (cString src).length < k
  · simp [hlt]
  · simp [hlt, hlast]

end CharArray

end CText
