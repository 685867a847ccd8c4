import Mathlib.Data.Int.Order.Basic
import Mathlib.Data.List.Basic
import Mathlib.Tactic.Common

/-!
# Logs of stores into a table

A program that only writes into a table is described by the list of its stores, in the order in
which they happen. The index of a store is any integer: a store outside of the table does not
touch the table, and whether that happens is read off the log. What a cell holds after the log
has been applied is the value of the last store to it, or what it held before.

## Main definitions

* `Stores.put`, `Stores.apply`: the table after one store, and after a log.
* `Stores.lastAt`: the value of the last store of a log to an index.
* `Stores.block`: the stores of a list of values at consecutive indices.
* `Stores.outside`: does a log store outside of a table?

## Main results

* `Stores.getElem?_apply`: a cell holds the last value stored to it.
* `Stores.lastAt_append`, `Stores.lastAt_flatMap`: last stores of composed logs.
* `Stores.lastAt_block`: what a block stores where.
* `Stores.take_drop_apply_block`: a block reads back as it was written.
* `Stores.apply_block_eq_self_iff`: a block that changes nothing.
* `Stores.apply_comm`: logs that share no index commute.
-/

namespace Stores

variable {α β : Type*}

/-- The table after the store of a value at an index. -/
def put (t : List α) (s : ℤ × α) : List α :=
  if 0 ≤ s.1 then t.set s.1.toNat s.2 else t

/-- The table after the stores of a log, the head of the log first. -/
def apply (t : List α) (log : List (ℤ × α)) : List α :=
  log.foldl put t

/-- The value of the last store of the log to the index `i`. -/
def lastAt (log : List (ℤ × α)) (i : ℤ) : Option α :=
  (log.filter fun s => s.1 = i).getLast?.map Prod.snd

/-- Does the log store outside of a table of `n` cells? -/
def outside (n : ℤ) (log : List (ℤ × α)) : Bool :=
  log.any fun s => s.1 < 0 ∨ n ≤ s.1

/-- The stores of the values `ws` at consecutive indices from `start`. -/
def block (start : ℤ) (ws : List α) : List (ℤ × α) :=
  ws.mapIdx fun i w => (start + i, w)

@[simp] theorem outside_nil (n : ℤ) : outside n ([] : List (ℤ × α)) = false := rfl

@[simp] theorem length_put (t : List α) (s : ℤ × α) : (put t s).length = t.length := by
  rw [put]
  split <;> simp

@[simp] theorem apply_nil (t : List α) : apply t [] = t := rfl

@[simp] theorem apply_cons (t : List α) (s : ℤ × α) (log : List (ℤ × α)) :
    apply t (s :: log) = apply (put t s) log := rfl

theorem apply_append (t : List α) (log log' : List (ℤ × α)) :
    apply t (log ++ log') = apply (apply t log) log' :=
  List.foldl_append

@[simp] theorem length_apply (t : List α) (log : List (ℤ × α)) :
    (apply t log).length = t.length := by
  induction log generalizing t with
  | nil => rfl
  | cons s log ih => rw [apply_cons, ih, length_put]

@[simp] theorem lastAt_nil (i : ℤ) : lastAt ([] : List (ℤ × α)) i = none := rfl

theorem lastAt_append (log log' : List (ℤ × α)) (i : ℤ) :
    lastAt (log ++ log') i = (lastAt log' i).or (lastAt log i) := by
  rw [lastAt, List.filter_append, List.getLast?_append]
  cases h : (log'.filter fun s => s.1 = i).getLast? <;> simp [lastAt, h]

theorem lastAt_singleton (s : ℤ × α) (i : ℤ) :
    lastAt [s] i = if s.1 = i then some s.2 else none := by
  rw [lastAt]
  split <;> simp_all

theorem lastAt_cons (s : ℤ × α) (log : List (ℤ × α)) (i : ℤ) :
    lastAt (s :: log) i = (lastAt log i).or (if s.1 = i then some s.2 else none) := by
  rw [← List.singleton_append, lastAt_append, lastAt_singleton]

theorem lastAt_eq_none_iff {log : List (ℤ × α)} {i : ℤ} :
    lastAt log i = none ↔ ∀ s ∈ log, s.1 ≠ i := by
  simp [lastAt]

/-- The last store of a log made of pieces is the last store of the last piece that has one. -/
theorem lastAt_flatMap (f : β → List (ℤ × α)) (l : List β) (i : ℤ) :
    lastAt (l.flatMap f) i = (l.filterMap fun b => lastAt (f b) i).getLast? := by
  induction l with
  | nil => rfl
  | cons b l ih =>
    rw [List.flatMap_cons, lastAt_append, ih, List.filterMap_cons]
    cases lastAt (f b) i with
    | none => simp
    | some a => rw [List.getLast?_cons]; cases (l.filterMap _).getLast? <;> rfl

/-! ### Blocks -/

@[simp] theorem block_nil (start : ℤ) : block start ([] : List α) = [] := rfl

@[simp] theorem block_cons (start : ℤ) (w : α) (ws : List α) :
    block start (w :: ws) = (start, w) :: block (start + 1) ws := by
  simp only [block, List.mapIdx_cons, Int.natCast_add, Int.natCast_one, Int.natCast_zero]
  grind

theorem block_concat (start : ℤ) (ws : List α) (w : α) :
    block start (ws ++ [w]) = block start ws ++ [(start + ws.length, w)] := by
  simp [block, List.mapIdx_append]

/-- The indices of a block are those from its start on, one for each value. -/
theorem exists_mem_block_iff {start i : ℤ} {ws : List α} :
    (∃ s ∈ block start ws, s.1 = i) ↔ start ≤ i ∧ i < start + ws.length := by
  induction ws generalizing start with
  | nil =>
    simp only [block_nil, List.not_mem_nil, false_and, exists_false, List.length_nil, false_iff]
    omega
  | cons w ws ih =>
    simp only [block_cons, List.mem_cons, exists_eq_or_imp, ih, List.length_cons]
    omega

theorem mem_index_of_mem_block {start : ℤ} {ws : List α} {s : ℤ × α} (h : s ∈ block start ws) :
    start ≤ s.1 ∧ s.1 < start + ws.length :=
  exists_mem_block_iff.mp ⟨s, h, rfl⟩

/-- A block stores at index `i` the value at position `i - start`. -/
theorem lastAt_block (start i : ℤ) (ws : List α) :
    lastAt (block start ws) i = if start ≤ i then ws[(i - start).toNat]? else none := by
  induction ws generalizing start with
  | nil => simp
  | cons w ws ih =>
    rw [block_cons, lastAt_cons, ih]
    rcases Int.lt_trichotomy start i with hlt | rfl | hgt
    · have hpos : (i - start).toNat = (i - (start + 1)).toNat + 1 := by omega
      rw [if_pos (show start + 1 ≤ i by omega), if_neg (show ¬start = i by omega),
        if_pos (show start ≤ i by omega), hpos]
      simp
    · rw [if_neg (show ¬start + 1 ≤ start by omega), if_pos rfl, if_pos (Int.le_refl start)]
      simp
    · rw [if_neg (show ¬start + 1 ≤ i by omega), if_neg (show ¬start = i by omega),
        if_neg (show ¬start ≤ i by omega)]
      rfl

/-! ### Cells -/

theorem getElem?_put (t : List α) (s : ℤ × α) (i : ℕ) :
    (put t s)[i]? = t[i]?.map fun a => if s.1 = i then s.2 else a := by
  rw [put]
  split
  · next h =>
    rw [List.getElem?_set]
    by_cases hi : s.1.toNat = i
    · have hs : s.1 = i := by omega
      rw [if_pos hi]
      by_cases hlt : s.1.toNat < t.length
      · rw [if_pos hlt, List.getElem?_eq_getElem (hi ▸ hlt)]
        simp [hs]
      · rw [if_neg hlt, List.getElem?_eq_none (by omega)]
        rfl
    · have hs : s.1 ≠ i := by omega
      simp [hi, hs]
  · next h =>
    have hs : s.1 ≠ i := by omega
    simp [hs]

/-- **Last writer wins.** After a log of stores a cell holds the last value stored to it, and what
it held before if there is none. -/
theorem getElem?_apply (t : List α) (log : List (ℤ × α)) (i : ℕ) :
    (apply t log)[i]? = t[i]?.map fun a => (lastAt log i).getD a := by
  induction log generalizing t with
  | nil => simp
  | cons s log ih =>
    rw [apply_cons, ih, getElem?_put, lastAt_cons, Option.map_map]
    congr 1
    funext a
    cases lastAt log i <;> simp [apply_ite, Option.getD]
    split <;> rfl

/-- A log that does not write a cell leaves it as it is. -/
theorem getElem?_apply_of_forall_ne {t : List α} {log : List (ℤ × α)} {i : ℕ}
    (h : ∀ s ∈ log, s.1 ≠ i) : (apply t log)[i]? = t[i]? := by
  rw [getElem?_apply, lastAt_eq_none_iff.mpr h]
  simp

/-- Logs that share no index commute. -/
theorem apply_comm (t : List α) {log log' : List (ℤ × α)}
    (h : ∀ s ∈ log, ∀ s' ∈ log', s.1 ≠ s'.1) :
    apply (apply t log) log' = apply (apply t log') log := by
  refine List.ext_getElem? fun i => ?_
  simp only [getElem?_apply, Option.map_map]
  congr 1
  funext a
  by_cases hlog : ∀ s ∈ log, s.1 ≠ i
  · simp [lastAt_eq_none_iff.mpr hlog]
  · obtain ⟨s, hs, hi⟩ : ∃ s ∈ log, s.1 = i := by simpa using hlog
    have hlog' : ∀ s' ∈ log', s'.1 ≠ i := fun s' hs' => hi ▸ (h s hs s' hs').symm
    simp [lastAt_eq_none_iff.mpr hlog']

/-! ### Cells of a block -/

theorem getElem?_apply_block (t : List α) (start : ℤ) (ws : List α) (i : ℕ) :
    (apply t (block start ws))[i]? =
      t[i]?.map fun a => if start ≤ i then ws[(i - start).toNat]?.getD a else a := by
  rw [getElem?_apply, lastAt_block]
  split <;> rfl

/-- A block within the table reads back as it was written. -/
theorem take_drop_apply_block {t : List α} {start : ℤ} {ws : List α} (h0 : 0 ≤ start)
    (h : start + ws.length ≤ t.length) :
    ((apply t (block start ws)).drop start.toNat).take ws.length = ws := by
  refine List.ext_getElem? fun i => ?_
  rw [List.getElem?_take]
  split
  · next hi =>
    have hpos : start.toNat + i < t.length := by omega
    have hidx : ((start.toNat + i : ℕ) - start).toNat = i := by omega
    have hle : start ≤ (start.toNat + i : ℕ) := by omega
    rw [List.getElem?_drop, getElem?_apply_block, List.getElem?_eq_getElem hpos, Option.map_some,
      if_pos hle, hidx, List.getElem?_eq_getElem hi, Option.getD_some]
  · next hi => rw [List.getElem?_eq_none (by omega)]

/-- A block changes nothing exactly if the cells hold its values already. -/
theorem apply_block_eq_self_iff {t : List α} {start : ℤ} {ws : List α} (h0 : 0 ≤ start) :
    apply t (block start ws) = t ↔
      ∀ i : ℕ, ∀ a ∈ t[start.toNat + i]?, ∀ w ∈ ws[i]?, a = w := by
  constructor
  · intro h i a ha w hw
    have hcell := getElem?_apply_block t start ws (start.toNat + i)
    have hpos : ((start.toNat + i : ℕ) - start).toNat = i := by omega
    rw [h, Option.mem_def.mp ha, Option.map_some, if_pos (by omega), hpos, Option.mem_def.mp hw,
      Option.getD_some] at hcell
    exact Option.some.inj hcell
  · intro h
    refine List.ext_getElem? fun i => ?_
    rw [getElem?_apply_block]
    split_ifs with hle
    · obtain ⟨j, rfl⟩ : ∃ j : ℕ, i = start.toNat + j := ⟨i - start.toNat, by omega⟩
      have hpos : ((start.toNat + j : ℕ) - start).toNat = j := by omega
      rw [hpos]
      cases ha : t[start.toNat + j]? with
      | none => rfl
      | some a =>
        cases hw : ws[j]? with
        | none => rfl
        | some w => exact congrArg some (h j a ha w hw).symm
    · exact Option.map_id'

/-- A block changes nothing outside of its range. -/
theorem getElem?_apply_block_of_outside {t : List α} {start : ℤ} {ws : List α} {i : ℕ}
    (h : i < start ∨ start + ws.length ≤ i) : (apply t (block start ws))[i]? = t[i]? := by
  refine getElem?_apply_of_forall_ne fun s hs => ?_
  have := mem_index_of_mem_block hs
  omega

end Stores
