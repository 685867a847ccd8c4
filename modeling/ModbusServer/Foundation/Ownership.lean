import Mathlib.Data.Finset.Basic
import Mathlib.Logic.Function.Basic

/-!
# Ownership

Resources that are acquired and released, and places that hold them. As long as a resource is put
into an empty place when it is acquired, and taken out of its place when it is released, every live
resource is held in exactly one place and no other resource is held anywhere.

## Main definitions

* `Ownership.Owns`: every live resource is held in exactly one place.
* `Ownership.Holds`: what is held is live and held in one place, and other resources may be lost.

## Main results

* `Ownership.Owns.acquire`, `Ownership.Owns.release`: the two operations.
* `Ownership.Owns.eq_empty`: when nothing is held nothing is live.
* `Ownership.Holds.acquire`, `Ownership.Holds.release`, `Ownership.Holds.forget`: the operations
  where resources may be lost.
-/

namespace Ownership

variable {P V : Type*}

/-- Every live resource is held in exactly one place, and what is held is live. -/
structure Owns (held : P → Option V) (live : Finset V) : Prop where
  mem_iff : ∀ v, v ∈ live ↔ ∃ p, held p = some v
  injective : ∀ p q v, held p = some v → held q = some v → p = q

/-- Different places hold different resources, all of them live; there may be others. -/
structure Holds (held : P → Option V) (live : Finset V) : Prop where
  mem : ∀ p v, held p = some v → v ∈ live
  injective : ∀ p q v, held p = some v → held q = some v → p = q

namespace Holds

variable {held : P → Option V} {live : Finset V} {p : P} {v : V}

/-- Nothing is held. -/
theorem of_forall_eq_none (hnone : ∀ p, held p = none) : Holds held live where
  mem p v hp := by simp [hnone] at hp
  injective p q v hp := by simp [hnone] at hp

variable [DecidableEq P]

/-- A new resource goes into a place; what was there before is forgotten. -/
theorem acquire [DecidableEq V] (h : Holds held live) (hv : v ∉ live) :
    Holds (Function.update held p (some v)) (insert v live) where
  mem q u hq := by
    by_cases hqp : q = p
    · subst hqp
      rw [Function.update_self] at hq
      exact Finset.mem_insert.mpr (.inl (Option.some.inj hq).symm)
    · rw [Function.update_of_ne hqp] at hq
      exact Finset.mem_insert_of_mem (h.mem q u hq)
  injective q r u hq hr := by
    by_cases hqp : q = p <;> by_cases hrp : r = p
    · rw [hqp, hrp]
    · subst hqp
      rw [Function.update_self] at hq
      rw [Function.update_of_ne hrp, ← Option.some.inj hq] at hr
      exact absurd (h.mem r v hr) hv
    · subst hrp
      rw [Function.update_self] at hr
      rw [Function.update_of_ne hqp, ← Option.some.inj hr] at hq
      exact absurd (h.mem q v hq) hv
    · rw [Function.update_of_ne hqp] at hq
      rw [Function.update_of_ne hrp] at hr
      exact h.injective q r u hq hr

/-- A place forgets what it holds. -/
theorem forget (h : Holds held live) (p : P) : Holds (Function.update held p none) live where
  mem q u hq := by
    by_cases hqp : q = p
    · subst hqp
      simp at hq
    · rw [Function.update_of_ne hqp] at hq
      exact h.mem q u hq
  injective q r u hq hr := by
    by_cases hqp : q = p
    · subst hqp
      simp at hq
    · by_cases hrp : r = p
      · subst hrp
        simp at hr
      · rw [Function.update_of_ne hqp] at hq
        rw [Function.update_of_ne hrp] at hr
        exact h.injective q r u hq hr

/-- A resource that is released is taken out of its place. -/
theorem release [DecidableEq V] (h : Holds held live) (hp : held p = some v) :
    Holds (Function.update held p none) (live.erase v) where
  mem q u hq := by
    have hmem := (h.forget p).mem q u hq
    by_cases hqp : q = p
    · subst hqp
      simp at hq
    · rw [Function.update_of_ne hqp] at hq
      refine Finset.mem_erase.mpr ⟨?_, hmem⟩
      rintro rfl
      exact hqp (h.injective q p u hq hp)
  injective := (h.forget p).injective

end Holds

namespace Owns

variable {held : P → Option V} {live : Finset V} {p : P} {v : V}

theorem holds (h : Owns held live) : Holds held live where
  mem p v hp := (h.mem_iff v).mpr ⟨p, hp⟩
  injective := h.injective

theorem mem (h : Owns held live) (hp : held p = some v) : v ∈ live :=
  (h.mem_iff v).mpr ⟨p, hp⟩

/-- Nothing is live and nothing is held. -/
theorem of_forall_eq_none (hnone : ∀ p, held p = none) : Owns held ∅ where
  mem_iff v := by simp [hnone]
  injective p q v hp := by simp [hnone] at hp

/-- When nothing is held nothing is live. -/
theorem eq_empty (h : Owns held live) (hnone : ∀ p, held p = none) : live = ∅ := by
  refine Finset.eq_empty_of_forall_notMem fun v hv => ?_
  obtain ⟨p, hp⟩ := (h.mem_iff v).mp hv
  simp [hnone] at hp

variable [DecidableEq P] [DecidableEq V]

/-- A new resource goes into an empty place. -/
theorem acquire (h : Owns held live) (hp : held p = none) (hv : v ∉ live) :
    Owns (Function.update held p (some v)) (insert v live) where
  mem_iff u := by
    rw [Finset.mem_insert, h.mem_iff]
    constructor
    · rintro (rfl | ⟨q, hq⟩)
      · exact ⟨p, Function.update_self p _ _⟩
      · have hne : q ≠ p := by
          rintro rfl
          simp [hp] at hq
        exact ⟨q, by rw [Function.update_of_ne hne, hq]⟩
    · rintro ⟨q, hq⟩
      by_cases hne : q = p
      · subst hne
        rw [Function.update_self] at hq
        exact .inl (Option.some.inj hq).symm
      · rw [Function.update_of_ne hne] at hq
        exact .inr ⟨q, hq⟩
  injective := (h.holds.acquire hv).injective

/-- A resource that is released is taken out of its place. -/
theorem release (h : Owns held live) (hp : held p = some v) :
    Owns (Function.update held p none) (live.erase v) where
  mem_iff u := by
    rw [Finset.mem_erase, h.mem_iff]
    constructor
    · rintro ⟨hne, q, hq⟩
      have hqp : q ≠ p := by
        rintro rfl
        exact hne (Option.some.inj (hq.symm.trans hp))
      exact ⟨q, by rw [Function.update_of_ne hqp, hq]⟩
    · rintro ⟨q, hq⟩
      by_cases hqp : q = p
      · subst hqp
        simp at hq
      · rw [Function.update_of_ne hqp] at hq
        refine ⟨?_, q, hq⟩
        rintro rfl
        exact hqp (h.injective q p u hq hp)
  injective := (h.holds.forget p).injective

end Owns

end Ownership
