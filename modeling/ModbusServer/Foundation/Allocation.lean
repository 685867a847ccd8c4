import Mathlib.Data.Finset.Basic
import Mathlib.Data.Finset.Union
import Mathlib.Data.List.Perm.Basic
import Mathlib.Data.List.Perm.Lattice
import Mathlib.Tactic.SplitIfs
import ModbusServer.Foundation.Runs

/-!
# Allocation

Blocks of memory that are allocated and freed. Each call of the allocator is granted or refused, and
a block is named by the number of the call that has returned it, so that names are not used twice.
A block that is freed while it is not live is recorded as misuse.

A computation that ends with a list of blocks it has allocated, and has freed all others, grows the
heap by this list. Growth composes, and freeing a part of the list takes that part away again; a
computation that frees all it has allocated leaves the live blocks as they were.

## Main definitions

* `Allocation.Heap`, with `Allocation.Heap.malloc`, `Allocation.Heap.free` and
  `Allocation.Heap.freeAll`.
* `Allocation.Grows`: how a heap grows by a list of blocks.
* `Allocation.Granted`: all calls between two heaps are granted.
* `Allocation.AllOrNothing`: a computation that does all of its work or nothing.

## Main results

* `Allocation.grows_malloc`, `Allocation.Grows.trans`: the rules for growth.
* `Allocation.Grows.freeAll`: blocks are freed again.
* `Allocation.AllOrNothing.runsSublist`: a run of such computations.
-/

namespace Allocation

/-- The live blocks, the number of calls of the allocator so far, and whether a block has been freed
that was not live. -/
structure Heap where
  live : Finset ℕ := ∅
  calls : ℕ := 0
  misuse : Bool := false
  deriving DecidableEq

namespace Heap

/-- A call of the allocator, which is granted or refused. -/
def malloc (grants : ℕ → Bool) (h : Heap) : Option ℕ × Heap :=
  if grants h.calls then
    (some h.calls, { h with live := insert h.calls h.live, calls := h.calls + 1 })
  else (none, { h with calls := h.calls + 1 })

/-- A block is freed. -/
def free (h : Heap) (b : ℕ) : Heap :=
  if b ∈ h.live then { h with live := h.live.erase b } else { h with misuse := true }

/-- Blocks are freed, the head of the list first. -/
def freeAll (h : Heap) (bs : List ℕ) : Heap := bs.foldl free h

@[simp] theorem freeAll_nil (h : Heap) : h.freeAll [] = h := rfl

@[simp] theorem freeAll_cons (h : Heap) (b : ℕ) (bs : List ℕ) :
    h.freeAll (b :: bs) = (h.free b).freeAll bs := rfl

theorem freeAll_append (h : Heap) (bs cs : List ℕ) :
    h.freeAll (bs ++ cs) = (h.freeAll bs).freeAll cs := List.foldl_append

@[simp] theorem calls_free (h : Heap) (b : ℕ) : (h.free b).calls = h.calls := by
  rw [free]
  split_ifs <;> rfl

@[simp] theorem calls_freeAll (h : Heap) (bs : List ℕ) : (h.freeAll bs).calls = h.calls := by
  induction bs generalizing h with
  | nil => rfl
  | cons b bs ih => rw [freeAll_cons, ih, calls_free]

/-- The live blocks have been returned by calls of the allocator. -/
def Named (h : Heap) : Prop := ∀ b ∈ h.live, b < h.calls

end Heap

open Heap

variable {grants : ℕ → Bool} {h h' h'' : Heap} {b : ℕ} {bs cs : List ℕ}

/-- All calls of the allocator between two heaps are granted. -/
def Granted (grants : ℕ → Bool) (h h' : Heap) : Prop :=
  ∀ k, h.calls ≤ k → k < h'.calls → grants k = true

/-- A heap grows by blocks: these are new and different, the blocks that were live are still live,
and nothing has been freed that was not live. -/
structure Grows (h h' : Heap) (bs : List ℕ) : Prop where
  mem_live_iff : ∀ b, b ∈ h'.live ↔ b ∈ h.live ∨ b ∈ bs
  nodup : bs.Nodup
  new : ∀ b ∈ bs, h.calls ≤ b ∧ b < h'.calls
  calls_le : h.calls ≤ h'.calls
  misuse_eq : h'.misuse = h.misuse

theorem Granted.refl (grants : ℕ → Bool) (h : Heap) : Granted grants h h :=
  fun _ hle hlt => absurd hle (by omega)

theorem Granted.trans (hg : Granted grants h h') (hg' : Granted grants h' h'') :
    Granted grants h h'' := fun k hle hlt =>
  if hk : k < h'.calls then hg k hle hk else hg' k (by omega) hlt

/-- Freeing asks for nothing. -/
theorem granted_freeAll (h h' : Heap) (bs : List ℕ) :
    Granted grants h (h'.freeAll bs) ↔ Granted grants h h' := by
  rw [Granted, calls_freeAll, Granted]

/-- What is granted in all is granted at the end. -/
theorem Granted.of_left (hg : Granted grants h h'') (hle : h.calls ≤ h'.calls) :
    Granted grants h' h'' := fun k hk hlt => hg k (hle.trans hk) hlt

/-- What is granted in all is granted at the beginning. -/
theorem Granted.of_right (hg : Granted grants h h'') (hle : h'.calls ≤ h''.calls) :
    Granted grants h h' := fun k hk hlt => hg k hk (hlt.trans_le hle)

theorem Grows.refl (h : Heap) : Grows h h [] := ⟨by simp, by simp, by simp, le_rfl, rfl⟩

theorem Grows.perm (hg : Grows h h' bs) (hperm : bs.Perm cs) : Grows h h' cs :=
  ⟨fun b => by rw [hg.mem_live_iff, hperm.mem_iff], hperm.nodup_iff.mp hg.nodup,
    fun b hb => hg.new b (hperm.mem_iff.mpr hb), hg.calls_le, hg.misuse_eq⟩

/-- Growth composes. -/
theorem Grows.trans (hg : Grows h h' bs) (hg' : Grows h' h'' cs) : Grows h h'' (bs ++ cs) where
  mem_live_iff b := by rw [hg'.mem_live_iff, hg.mem_live_iff, List.mem_append, or_assoc]
  nodup := by
    refine List.nodup_append.mpr ⟨hg.nodup, hg'.nodup, fun b hb c hc hbc => ?_⟩
    have hlt := (hg.new b hb).2
    have hle := (hg'.new c hc).1
    omega
  new b hb := by
    rcases List.mem_append.mp hb with hb | hb
    · exact ⟨(hg.new b hb).1, (hg.new b hb).2.trans_le hg'.calls_le⟩
    · exact ⟨hg.calls_le.trans (hg'.new b hb).1, (hg'.new b hb).2⟩
  calls_le := hg.calls_le.trans hg'.calls_le
  misuse_eq := hg'.misuse_eq.trans hg.misuse_eq

/-- A call that is granted returns a new block. -/
theorem grows_malloc (hm : h.malloc grants = (some b, h')) :
    Grows h h' [b] ∧ Granted grants h h' := by
  rw [malloc] at hm
  split_ifs at hm with hgrant
  · obtain ⟨hb, rfl⟩ := Prod.mk.inj hm
    obtain rfl := Option.some.inj hb
    refine ⟨⟨fun c => ?_, by simp, by simp, Nat.le_succ _, rfl⟩, fun k hle hlt => ?_⟩
    · simp [or_comm]
    · obtain rfl : k = h.calls := le_antisymm (Nat.lt_succ_iff.mp hlt) hle
      exact hgrant
  · simp at hm

/-- A call that is refused changes nothing. -/
theorem grows_malloc_none (hm : h.malloc grants = (none, h')) :
    Grows h h' [] ∧ ¬Granted grants h h' := by
  rw [malloc] at hm
  split_ifs at hm with hgrant
  · simp at hm
  · obtain ⟨-, rfl⟩ := Prod.mk.inj hm
    refine ⟨⟨by simp, by simp, by simp, Nat.le_succ _, rfl⟩, fun hg => hgrant ?_⟩
    exact hg h.calls le_rfl (Nat.lt_succ_self _)

theorem Heap.Named.of_grows (hh : h.Named) (hg : Grows h h' bs) : h'.Named := fun b hb => by
  rcases (hg.mem_live_iff b).mp hb with hb | hb
  · exact (hh b hb).trans_le hg.calls_le
  · exact (hg.new b hb).2

/-- A block is freed that is the last of those allocated. -/
theorem Grows.free (hh : h.Named) (hg : Grows h h' (b :: bs)) : Grows h (h'.free b) bs := by
  have hlive : b ∈ h'.live := (hg.mem_live_iff b).mpr (.inr (by simp))
  have hfree : h'.free b = { h' with live := h'.live.erase b } := if_pos hlive
  obtain ⟨hnot, hnodup⟩ := List.nodup_cons.mp hg.nodup
  have hold : b ∉ h.live := fun hb => by
    have hlt := hh b hb
    have hle := (hg.new b (by simp)).1
    omega
  rw [hfree]
  refine ⟨fun c => ?_, hnodup, fun c hc => hg.new c (by simp [hc]), hg.calls_le, hg.misuse_eq⟩
  by_cases hc : c = b
  · simp [hc, hold, hnot]
  · simp [hc, hg.mem_live_iff]

/-- **Blocks are freed** in any order. -/
theorem Grows.freeAll (hh : h.Named) (hg : Grows h h' (cs ++ bs)) : Grows h (h'.freeAll cs) bs := by
  induction cs generalizing h' with
  | nil => exact hg
  | cons c cs ih => exact ih (hg.free hh)

/-- A computation that frees all it has allocated leaves the live blocks as they were. -/
theorem Grows.live_eq (hg : Grows h h' []) : h'.live = h.live :=
  Finset.ext fun b => by simp [hg.mem_live_iff]

/-! ### All or nothing -/

/-- A computation frees all it has allocated. It ends with `full`, or it has done nothing and ends
with `idle`, and this only if a block has been refused. -/
structure AllOrNothing {β : Type*} (grants : ℕ → Bool) (h : Heap) (full idle : β)
    (r : β × Heap) : Prop where
  grows : Grows h r.2 []
  outcome : r.1 = full ∨ r.1 = idle
  of_granted : Granted grants h r.2 → r.1 = full

/-- A run of steps that allocate. -/
def runIn {σ ι : Type*} (stepIn : σ → ι → Heap → σ × Heap) (s : σ) (h : Heap) (inputs : List ι) :
    σ × Heap :=
  Runs.run (fun p i => stepIn p.1 i p.2) (s, h) inputs

/-- A run frees all it has allocated. Its end is that of a run of `step` over some of the inputs,
which are all of them if no block has been refused. -/
structure RunsSublist {σ ι : Type*} (grants : ℕ → Bool) (h : Heap) (step : σ → ι → σ) (s : σ)
    (inputs : List ι) (r : σ × Heap) : Prop where
  grows : Grows h r.2 []
  exists_kept : ∃ kept : List ι, kept.Sublist inputs ∧ r.1 = Runs.run step s kept ∧
    (Granted grants h r.2 → kept = inputs)

namespace AllOrNothing

variable {β γ σ ι : Type*} {full idle : β} {r : β × Heap}

theorem map (f : β → γ) (hr : AllOrNothing grants h full idle r) :
    AllOrNothing grants h (f full) (f idle) (f r.1, r.2) :=
  ⟨hr.grows, hr.outcome.imp (congrArg f) (congrArg f), fun hg => congrArg f (hr.of_granted hg)⟩

theorem all (hg : Grows h h' []) : AllOrNothing grants h full idle (full, h') :=
  ⟨hg, .inl rfl, fun _ => rfl⟩

/-- **A run** of computations that do all or nothing. -/
theorem runsSublist {step : σ → ι → σ} {stepIn : σ → ι → Heap → σ × Heap}
    (hstep : ∀ s i h, h.Named → AllOrNothing grants h (step s i) s (stepIn s i h)) (s : σ)
    (hh : h.Named) (inputs : List ι) :
    RunsSublist grants h step s inputs (runIn stepIn s h inputs) := by
  induction inputs generalizing s h with
  | nil => exact ⟨.refl h, [], .slnil, rfl, fun _ => rfl⟩
  | cons i inputs ih =>
    have hfirst := hstep s i h hh
    rw [runIn, Runs.run_cons]
    dsimp only
    generalize stepIn s i h = r at hfirst ⊢
    obtain ⟨s', h'⟩ := r
    obtain ⟨hgrows, kept, hkept, hrun, hall⟩ := ih s' (hh.of_grows hfirst.grows)
    refine ⟨hfirst.grows.trans hgrows, ?_⟩
    by_cases hfull : s' = step s i
    · refine ⟨i :: kept, hkept.cons_cons i, ?_, fun hg => ?_⟩
      · rw [Runs.run_cons, ← hfull]
        exact hrun
      · rw [hall (hg.of_left hfirst.grows.calls_le)]
    · have hidle : s' = s := hfirst.outcome.resolve_left hfull
      refine ⟨kept, hkept.cons i, ?_, fun hg => ?_⟩
      · rw [← hidle]
        exact hrun
      · exact absurd (hfirst.of_granted (hg.of_right hgrows.calls_le)) hfull

end AllOrNothing

end Allocation
