import Mathlib.Data.Finset.Card
import Mathlib.Data.Fintype.Card
import Mathlib.Logic.Function.Basic

/-!
# Tables of slots

A table has finitely many slots, and a value that marks the free ones. The number of occupied slots
grows by one when a free slot is filled and shrinks by one when an occupied slot is emptied.

## Main definitions

* `Slots.occupied`: the slots that are not free.

## Main results

* `Slots.card_occupied_fill`, `Slots.card_occupied_empty`: the number of occupied slots.
* `Slots.foldl_empty`: a loop that empties the slots.
-/

namespace Slots

variable {K V : Type*} [Fintype K] [DecidableEq V] {free v : V} {s : K → V} {k : K}

/-- The slots of the table that are not free. -/
def occupied (free : V) (s : K → V) : Finset K :=
  Finset.univ.filter fun k => s k ≠ free

@[simp] theorem mem_occupied : k ∈ occupied free s ↔ s k ≠ free := by simp [occupied]

@[simp] theorem occupied_const : occupied free (fun _ : K => free) = ∅ := by
  simp [occupied]

theorem card_occupied_le (free : V) (s : K → V) : (occupied free s).card ≤ Fintype.card K :=
  Finset.card_le_univ _

variable [DecidableEq K]

theorem occupied_fill (hv : v ≠ free) :
    occupied free (Function.update s k v) = insert k (occupied free s) := by
  ext j
  by_cases hj : j = k
  · simp [hj, hv]
  · simp [hj]

theorem occupied_empty : occupied free (Function.update s k free) = (occupied free s).erase k := by
  ext j
  by_cases hj : j = k
  · simp [hj]
  · simp [hj]

/-- A free slot is filled. -/
theorem card_occupied_fill (hk : s k = free) (hv : v ≠ free) :
    (occupied free (Function.update s k v)).card = (occupied free s).card + 1 := by
  rw [occupied_fill hv, Finset.card_insert_of_notMem (by simpa using hk)]

/-- An occupied slot is emptied. -/
theorem card_occupied_empty (hk : s k ≠ free) :
    (occupied free (Function.update s k free)).card + 1 = (occupied free s).card := by
  rw [occupied_empty, Finset.card_erase_add_one (by simpa using hk)]

omit [Fintype K] [DecidableEq V] in
/-- A loop whose body empties one slot empties all the slots it goes through. -/
theorem foldl_empty {σ : Type*} {body : σ → K → σ} {table : σ → K → V}
    (hbody : ∀ s k, table (body s k) = Function.update (table s) k free) (ks : List K) (s : σ)
    (h : k ∈ ks ∨ table s k = free) : table (ks.foldl body s) k = free := by
  induction ks generalizing s with
  | nil => exact h.resolve_left List.not_mem_nil
  | cons j ks ih =>
    refine ih (body s j) ?_
    rw [hbody]
    by_cases hj : k = j
    · exact .inr (by rw [hj, Function.update_self])
    · rw [Function.update_of_ne hj]
      exact h.imp_left fun hmem => (List.mem_cons.mp hmem).resolve_left hj

end Slots
