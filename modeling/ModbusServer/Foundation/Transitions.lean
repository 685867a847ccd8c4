import Mathlib.Data.List.Basic
import Mathlib.Tactic.Common
import ModbusServer.Foundation.Runs

/-!
# Labelled transitions

A system that is described by a relation between a state, a label and a next state, and its paths.
A program refines such a system under a function from its states to the states of the system: what
the program does in a run is what the labels of a path say, as far as they can be seen, and the path
takes nothing from the environment that it has not been offered.

## Main definitions

* `Transitions.Path`: a path, with its labels.
* `Transitions.Explained`: a change of a program that is a path, what can be seen of it, and what it
  takes of an offer.

## Main results

* `Transitions.Path.history`: what the labels so far and the state have in common.
* `Transitions.Explained.trans`: changes one after the other.
* `Transitions.explained_run`: a run whose steps are explained.
-/

namespace Transitions

variable {σ α β γ δ ι : Type*}

section Path

variable (T : σ → α → σ → Prop)

/-- A path with its labels, the first label at the head. -/
inductive Path : σ → List α → σ → Prop
  | nil (s : σ) : Path s [] s
  | cons {s s' s'' : σ} {a : α} {as : List α} (h : T s a s') (hs : Path s' as s'') :
      Path s (a :: as) s''

variable {T} {s s' s'' : σ} {a : α} {as as' : List α}

theorem Path.single (h : T s a s') : Path T s [a] s' := .cons h (.nil s')

theorem Path.append (h : Path T s as s') (h' : Path T s' as' s'') : Path T s (as ++ as') s'' := by
  induction h with
  | nil => exact h'
  | cons hstep _ ih => exact .cons hstep (ih h')

/-- What a transition makes of the labels so far holds at the end of a path. -/
theorem Path.history {P : List α → σ → Prop}
    (hstep : ∀ as s a s', P as s → T s a s' → P (as ++ [a]) s') (h : Path T s as s')
    {before : List α} (hs : P before s) : P (before ++ as) s' := by
  induction h generalizing before with
  | nil => rwa [List.append_nil]
  | cons hT _ ih =>
    have hrest := ih (hstep _ _ _ _ hs hT)
    rwa [List.append_assoc, List.singleton_append] at hrest

end Path

section Explained

variable (T : σ → α → σ → Prop) (abs : γ → σ) (observed : γ → List β) (visible : α → Option β)
  (taken : α → Option δ)

/-- The change of the program is a path of the system, what has been observed of it are the visible
labels of the path, and what the path takes is offered, in this order. -/
def Explained (offers : List δ) (c c' : γ) : Prop :=
  ∃ as, Path T (abs c) as (abs c') ∧ observed c' = observed c ++ as.filterMap visible ∧
    (as.filterMap taken).Sublist offers

variable {T abs observed visible taken} {c c' c'' : γ} {offers offers' : List δ}

/-- What neither the system nor the observations see. -/
theorem Explained.of_eq (habs : abs c' = abs c) (hobs : observed c' = observed c) :
    Explained T abs observed visible taken offers c c' := by
  refine ⟨[], ?_, by simpa using hobs, List.nil_sublist offers⟩
  rw [habs]
  exact .nil _

theorem Explained.refl (c : γ) : Explained T abs observed visible taken offers c c :=
  .of_eq rfl rfl

theorem Explained.mono (h : Explained T abs observed visible taken offers c c')
    (hoffers : offers.Sublist offers') : Explained T abs observed visible taken offers' c c' := by
  obtain ⟨as, hpath, hobs, htaken⟩ := h
  exact ⟨as, hpath, hobs, htaken.trans hoffers⟩

theorem Explained.trans (h : Explained T abs observed visible taken offers c c')
    (h' : Explained T abs observed visible taken offers' c' c'') :
    Explained T abs observed visible taken (offers ++ offers') c c'' := by
  obtain ⟨as, hpath, hobs, htaken⟩ := h
  obtain ⟨as', hpath', hobs', htaken'⟩ := h'
  refine ⟨as ++ as', hpath.append hpath', ?_, ?_⟩
  · rw [hobs', hobs, List.filterMap_append, List.append_assoc]
  · rw [List.filterMap_append]
    exact htaken.append htaken'

/-- A change that is one transition. -/
theorem Explained.single {a : α} (h : T (abs c) a (abs c'))
    (hobs : observed c' = observed c ++ (visible a).toList) (htaken : (taken a).toList = offers) :
    Explained T abs observed visible taken offers c c' := by
  refine ⟨[a], .single h, ?_, ?_⟩
  · rw [hobs]
    cases hvisible : visible a <;> simp [hvisible]
  · rw [← htaken]
    cases htake : taken a <;> simp [htake]

/-- **Refinement.** A run whose steps are explained, as long as an invariant holds, is explained by
the offers of its inputs. -/
theorem explained_run {step : γ → ι → γ} {offer : ι → List δ} {P : γ → Prop}
    (hP : ∀ c i, P c → P (step c i))
    (hstep : ∀ c i, P c → Explained T abs observed visible taken (offer i) c (step c i))
    (hc : P c) (inputs : List ι) :
    Explained T abs observed visible taken (inputs.flatMap offer) c (Runs.run step c inputs) := by
  induction inputs generalizing c with
  | nil => exact .refl c
  | cons i inputs ih =>
    rw [List.flatMap_cons]
    exact (hstep c i hc).trans (ih (hP c i hc))

end Explained

end Transitions
