import Mathlib.Data.List.Basic
import Mathlib.Tactic.Common

/-!
# Runs of a step function

A system that reads one input at each step is its step function; a run is the fold of the step
function over a list of inputs. What holds at the start and is preserved by every step holds after
every run, and what is preserved only by steps that meet a condition holds after every run whose
steps all meet it.

## Main definitions

* `Runs.run`: the state after a run.
* `Runs.StepsMeet`: every step of a run meets a condition.

## Main results

* `Runs.stepsMeet_iff_forall_prefix`: what the steps of a run are.
* `Runs.run_induction`, `Runs.run_of_stepsMeet`: the two induction rules.
* `Runs.run_frame`: what no step changes.
* `Runs.run_iff_stepsMeet_of_stepsMeet`, `Runs.forall_prefix_iff_stepsMeet`: the exact condition on
  the steps.
* `Runs.run_eq_of_absorbing`: nothing happens after an absorbing state.
* `Runs.run_simulation`: a relation between two systems that every pair of steps preserves.
-/

namespace Runs

variable {σ ι : Type*} (step : σ → ι → σ)

/-- The state after the inputs, the head of the list first. -/
def run (s : σ) (inputs : List ι) : σ :=
  inputs.foldl step s

/-- The condition holds at each step of the run, of the state before the step and its input. -/
def StepsMeet (C : σ → ι → Prop) : σ → List ι → Prop
  | _, [] => True
  | s, i :: inputs => C s i ∧ StepsMeet C (step s i) inputs

instance decidableStepsMeet (C : σ → ι → Prop) [∀ s i, Decidable (C s i)] (s : σ) :
    ∀ inputs, Decidable (StepsMeet step C s inputs)
  | [] => .isTrue trivial
  | i :: inputs =>
    have := decidableStepsMeet C (step s i) inputs
    inferInstanceAs (Decidable (C s i ∧ StepsMeet step C (step s i) inputs))

variable {step} {C D : σ → ι → Prop} {P : σ → Prop} {s : σ} {i : ι} {inputs inputs' : List ι}

@[simp] theorem run_nil : run step s [] = s := rfl

@[simp] theorem run_cons : run step s (i :: inputs) = run step (step s i) inputs := rfl

theorem run_append : run step s (inputs ++ inputs') = run step (run step s inputs) inputs' :=
  List.foldl_append

theorem run_concat : run step s (inputs ++ [i]) = step (run step s inputs) i := by
  simp [run_append]

@[simp] theorem stepsMeet_nil : StepsMeet step C s [] := trivial

@[simp] theorem stepsMeet_cons :
    StepsMeet step C s (i :: inputs) ↔ C s i ∧ StepsMeet step C (step s i) inputs := Iff.rfl

theorem stepsMeet_append : StepsMeet step C s (inputs ++ inputs') ↔
    StepsMeet step C s inputs ∧ StepsMeet step C (run step s inputs) inputs' := by
  induction inputs generalizing s with
  | nil => simp
  | cons i inputs ih => simp [ih, and_assoc]

theorem stepsMeet_concat : StepsMeet step C s (inputs ++ [i]) ↔
    StepsMeet step C s inputs ∧ C (run step s inputs) i := by
  simp [stepsMeet_append]

/-- The steps of a run are those that follow the runs over its beginnings. -/
theorem stepsMeet_iff_forall_prefix : StepsMeet step C s inputs ↔
    ∀ before i, before ++ [i] <+: inputs → C (run step s before) i := by
  constructor
  · rintro h before i ⟨after, rfl⟩
    exact (stepsMeet_concat.mp (stepsMeet_append.mp h).1).2
  · intro h
    induction inputs generalizing s with
    | nil => trivial
    | cons i inputs ih =>
      refine ⟨h [] i (by simp), ih fun before j hprefix => ?_⟩
      exact h (i :: before) j (List.cons_prefix_cons.mpr ⟨rfl, hprefix⟩)

/-- Steps that meet a condition and keep an invariant meet what follows from the two. -/
theorem StepsMeet.of_invariant (h : StepsMeet step C s inputs) (h0 : P s)
    (hstep : ∀ s i, P s → C s i → P (step s i)) (hCD : ∀ s i, P s → C s i → D s i) :
    StepsMeet step D s inputs := by
  induction inputs generalizing s with
  | nil => trivial
  | cons i inputs ih => exact ⟨hCD s i h0 h.1, ih h.2 (hstep s i h0 h.1)⟩

/-- Two conditions that are equivalent under an invariant, which steps that meet them keep. -/
theorem stepsMeet_congr (h0 : P s) (hstep : ∀ s i, P s → C s i → P (step s i))
    (hCD : ∀ s i, P s → (C s i ↔ D s i)) :
    StepsMeet step C s inputs ↔ StepsMeet step D s inputs :=
  ⟨fun h => h.of_invariant h0 hstep fun s i hs => (hCD s i hs).mp,
    fun h => h.of_invariant h0 (fun s i hs hD => hstep s i hs ((hCD s i hs).mpr hD))
      fun s i hs => (hCD s i hs).mpr⟩

/-- What holds at the start and is preserved by every step holds after every run. -/
theorem run_induction (h0 : P s) (hstep : ∀ s i, P s → P (step s i)) (inputs : List ι) :
    P (run step s inputs) := by
  induction inputs generalizing s with
  | nil => exact h0
  | cons i inputs ih => exact ih (hstep s i h0)

/-- What holds at the start and is preserved by the steps that meet the condition holds after every
run whose steps meet it. -/
theorem run_of_stepsMeet (h0 : P s) (hstep : ∀ s i, P s → C s i → P (step s i))
    (h : StepsMeet step C s inputs) : P (run step s inputs) := by
  induction inputs generalizing s with
  | nil => exact h0
  | cons i inputs ih => exact ih (hstep s i h0 h.1) h.2

/-- A condition on the inputs alone. -/
theorem stepsMeet_iff_forall_mem {D : ι → Prop} :
    StepsMeet step (fun _ i => D i) s inputs ↔ ∀ i ∈ inputs, D i := by
  induction inputs generalizing s with
  | nil => simp
  | cons i inputs ih => simp [ih]

/-- Where a property holds after a step exactly if the step meets a condition, as long as an
invariant holds that such steps keep, it holds in all states of a run exactly if all steps meet the
condition. -/
theorem forall_prefix_iff_stepsMeet {Q : σ → Prop} (h0 : P s) (hQ : ∀ s, P s → Q s)
    (hstep : ∀ s i, P s → (Q (step s i) ↔ C s i)) (hkeep : ∀ s i, P s → C s i → P (step s i)) :
    (∀ before, before <+: inputs → Q (run step s before)) ↔ StepsMeet step C s inputs := by
  induction inputs generalizing s with
  | nil => simpa using hQ s h0
  | cons i inputs ih =>
    have hi : Q (step s i) ↔ C s i := hstep s i h0
    constructor
    · intro h
      have hC : C s i := hi.mp (h [i] (by simp))
      refine ⟨hC, (ih (hkeep s i h0 hC)).mp fun before hbefore => ?_⟩
      exact h (i :: before) (List.cons_prefix_cons.mpr ⟨rfl, hbefore⟩)
    · rintro ⟨hC, hrest⟩ before hbefore
      cases before with
      | nil => exact hQ s h0
      | cons j before =>
        obtain ⟨rfl, htail⟩ := List.cons_prefix_cons.mp hbefore
        exact (ih (hkeep s j h0 hC)).mpr hrest before htail

/-- What no step changes is the same after every run. -/
theorem run_frame {β : Type*} {g : σ → β} (hstep : ∀ s i, g (step s i) = g s) (inputs : List ι) :
    g (run step s inputs) = g s :=
  run_induction (P := fun s' => g s' = g s) rfl (fun s' i h => (hstep s' i).trans h) inputs

/-- A property that a step adds a condition to holds after a run exactly if it holds at the start
and every step meets the condition; the steps may be taken to meet another condition, and to keep
an invariant then. -/
theorem run_iff_stepsMeet_of_stepsMeet {Q : σ → Prop} (hD : StepsMeet step D s inputs) (h0 : P s)
    (hinv : ∀ s i, P s → D s i → P (step s i))
    (hstep : ∀ s i, P s → D s i → (Q (step s i) ↔ Q s ∧ C s i)) :
    Q (run step s inputs) ↔ Q s ∧ StepsMeet step C s inputs := by
  induction inputs generalizing s with
  | nil => simp
  | cons i inputs ih =>
    rw [run_cons, ih hD.2 (hinv s i h0 hD.1), hstep s i h0 hD.1, stepsMeet_cons, and_assoc]

theorem run_iff_stepsMeet (hstep : ∀ s i, P (step s i) ↔ P s ∧ C s i) :
    P (run step s inputs) ↔ P s ∧ StepsMeet step C s inputs :=
  run_iff_stepsMeet_of_stepsMeet (P := fun _ => True) (D := fun _ _ => True)
    (stepsMeet_iff_forall_mem.mpr fun _ _ => trivial) trivial (fun _ _ _ _ => trivial)
    fun s i _ _ => hstep s i

/-- A relation between the states of two systems that is preserved by steps on related inputs holds
after runs on related inputs. -/
theorem run_simulation {τ κ : Type*} {step' : τ → κ → τ} {R : σ → τ → Prop} {Q : ι → κ → Prop}
    {t : τ} {inputs' : List κ} (h0 : R s t)
    (hstep : ∀ s t i j, R s t → Q i j → R (step s i) (step' t j))
    (h : List.Forall₂ Q inputs inputs') : R (run step s inputs) (run step' t inputs') := by
  induction h generalizing s t with
  | nil => exact h0
  | cons hij _ ih => exact ih (hstep s t _ _ h0 hij)

/-- A run stays in a state that no step leaves. -/
theorem run_eq_of_absorbing (h : ∀ i, step s i = s) (inputs : List ι) : run step s inputs = s := by
  induction inputs with
  | nil => rfl
  | cons i inputs ih => rw [run_cons, h, ih]

end Runs
