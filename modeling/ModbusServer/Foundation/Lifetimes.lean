import Mathlib.Data.List.Basic
import Mathlib.Logic.Function.Basic

/-!
# Lifetimes

Resources that are created, used and freed, and that may open a handle in between. A log of what
happens to them is orderly if no resource is used before it is created or after it is freed, none
opens a second handle, and each closes its handle before it is freed. The resources that are live at
the end of an orderly log, and the handles they have open, are what the log leaves behind.

## Main definitions

* `Lifetimes.Call`: what happens to a resource.
* `Lifetimes.replay`: what an orderly log leaves behind.

## Main results

* `Lifetimes.replay_append`: logs are replayed in pieces.
-/

namespace Lifetimes

variable {V H : Type*}

/-- What happens to a resource. -/
inductive Call (V H : Type*)
  | create (v : V)
  | use (v : V)
  | open (v : V) (h : H)
  | close (v : V)
  | free (v : V)

/-- The resources that are live, each with its handle if it has one open. -/
abbrev Live (V H : Type*) := V → Option (Option H)

/-- No resource is live. -/
def nothing : Live V H := fun _ => none

variable [DecidableEq V]

/-- One resource is live and has its handle open. -/
def only (v : V) (h : H) : Live V H := Function.update nothing v (some (some h))

/-- The effect of an action, if it is in order. -/
def act [DecidableEq H] (live : Live V H) : Call V H → Option (Live V H)
  | .create v => if live v = none then some (Function.update live v (some none)) else none
  | .use v => if live v ≠ none then some live else none
  | .open v h => if live v = some none then some (Function.update live v (some (some h))) else none
  | .close v => if live v ≠ none then some (Function.update live v (some none)) else none
  | .free v => if live v = some none then some (Function.update live v none) else none

/-- What a log leaves behind, if it is orderly. -/
def replay [DecidableEq H] (live : Live V H) (log : List (Call V H)) : Option (Live V H) :=
  log.foldlM act live

variable [DecidableEq H] {live live' : Live V H} {log log' : List (Call V H)} {a : Call V H}
  {v : V} {h : H}

@[simp] theorem replay_nil : replay live [] = some live := rfl

@[simp] theorem replay_cons : replay live (a :: log) = (act live a).bind (replay · log) := rfl

/-- Logs are replayed in pieces. -/
theorem replay_append (hlog : replay live log = some live') :
    replay live (log ++ log') = replay live' log' := by
  rw [replay, List.foldlM_append]
  rw [replay] at hlog
  rw [hlog]
  rfl

/-! ### A single resource -/

@[simp] theorem act_create : act (nothing : Live V H) (.create v) =
    some (Function.update nothing v (some none)) := by simp [act, nothing]

@[simp] theorem act_use_created : act (Function.update (nothing : Live V H) v (some none))
    (.use v) = some (Function.update nothing v (some none)) := by simp [act]

@[simp] theorem act_open_created : act (Function.update (nothing : Live V H) v (some none))
    (.open v h) = some (only v h) := by simp [act, only]

@[simp] theorem act_free_created : act (Function.update (nothing : Live V H) v (some none))
    (.free v) = some nothing := by
  simp [act, nothing]

@[simp] theorem act_use_only : act (only v h) (.use v) = some (only v h) := by simp [act, only]

@[simp] theorem act_close_only : act (only v h) (.close v) =
    some (Function.update nothing v (some none)) := by simp [act, only]

end Lifetimes
