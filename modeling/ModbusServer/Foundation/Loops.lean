import Mathlib.Data.List.Basic
import Mathlib.Data.List.Range
import Mathlib.Tactic.Common

/-!
# Counted loops

The loop `for (i = 0; i < n; i++)` over a state, with the rule for its invariants. A loop that
changes the elements of a list one after the other, and reads no other element, maps the list.

## Main definitions

* `Loops.upTo`: the state behind the loop.

## Main results

* `Loops.upTo_induction`: an invariant that every turn keeps holds behind the loop.
* `Loops.upTo_modify`: a loop that changes each element in place.
-/

namespace Loops

variable {σ α : Type*}

/-- The state behind the turns `0`, …, `n - 1` of a loop. -/
def upTo (n : ℕ) (body : σ → ℕ → σ) (s : σ) : σ :=
  (List.range n).foldl body s

variable {n : ℕ} {body : σ → ℕ → σ} {s : σ}

@[simp] theorem upTo_zero : upTo 0 body s = s := rfl

theorem upTo_succ : upTo (n + 1) body s = body (upTo n body s) n := by
  simp [upTo, List.range_succ]

/-- What holds in front of the loop, and is carried from each turn to the next, holds behind it. -/
theorem upTo_induction {P : ℕ → σ → Prop} (h0 : P 0 s)
    (hstep : ∀ i s, i < n → P i s → P (i + 1) (body s i)) : P n (upTo n body s) := by
  induction n with
  | zero => exact h0
  | succ n ih =>
    rw [upTo_succ]
    exact hstep n _ n.lt_succ_self (ih fun i s hi => hstep i s (Nat.lt_succ_of_lt hi))

/-- A loop that changes each element of a list in place maps the list. -/
theorem upTo_modify (f : α → α) (l : List α) :
    upTo l.length (fun l i => l.modify i f) l = l.map f := by
  have hmodify : ∀ j, (upTo l.length (fun l i => l.modify i f) l)[j]? =
      l[j]?.map fun a => if j < l.length then f a else a := by
    refine upTo_induction
      (P := fun i l' => ∀ j : ℕ, l'[j]? = l[j]?.map fun a => if j < i then f a else a) (by simp) ?_
    intro i l' _ hl' j
    rw [List.getElem?_modify, hl']
    rcases Nat.lt_trichotomy j i with hlt | rfl | hgt
    · simp [hlt, Nat.ne_of_gt hlt, Nat.lt_succ_of_lt hlt]
    · simp
    · simp [Nat.ne_of_lt hgt, Nat.lt_asymm hgt, Nat.not_lt.mpr hgt]
  refine List.ext_getElem? fun j => ?_
  rw [hmodify, List.getElem?_map]
  by_cases hj : j < l.length
  · simp [hj]
  · simp [hj]

end Loops
