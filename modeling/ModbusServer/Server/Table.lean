import ModbusServer.Server.Blocks

/-!
# The table before it exists

The command block comes before the start-up block, so in the first iteration, and in every iteration
behind a start-up that was abandoned, `process_json` works without a table. It does not check for
one. Requests are answered only behind a start-up that has left a table.

Source: `json-modbus-server.c`, lines 217–257, 485–551 and 579–626.

## Main results

* `ModbusServer.tableSafe_iff`: the runs in which the table is not used before it exists.
* `ModbusServer.not_tableSafe`: not all runs are of this kind.
-/

namespace ModbusServer

open CText

/-- Up to now the table has been used only where it exists: `process_json` has not read through a
null pointer, and no request has been answered without a table. -/
structure TableSafe (w : Server) : Prop where
  access : .nullDereference ∉ w.trace
  reply : .reply false ∉ w.trace

/-- A text that the iteration reads while there is no table does not reach for it. -/
def WaitsForTable (cfg : Config) (w : Server) (i : Input) : Prop :=
  w.mb_mapping = none → reads w i → ∀ buf s,
    (atRead w i).fgets i.waiting = .line buf s → cfg.reachesTable (cString buf) = false

/-- An iteration whose events in front of the others are `es`. -/
theorem tableSafe_iff_of_trace {w w' : Server} (es : List Event) {es' : List Event}
    (htrace : w'.trace = w.trace ++ es ++ es') (hes' : ∀ e ∈ es', e.behindCommands = true) :
    TableSafe w' ↔ TableSafe w ∧ .nullDereference ∉ es ∧ .reply false ∉ es := by
  have hnull : .nullDereference ∉ es' := fun h => by simpa [Event.behindCommands] using hes' _ h
  have hreply : .reply false ∉ es' := fun h => by simpa [Event.behindCommands] using hes' _ h
  constructor
  · rintro ⟨haccess, hrep⟩
    simp only [htrace, List.mem_append, not_or] at haccess hrep
    exact ⟨⟨haccess.1.1, hrep.1.1⟩, haccess.1.2, hrep.1.2⟩
  · rintro ⟨⟨haccess, hrep⟩, haccess', hrep'⟩
    exact ⟨by simp [htrace, haccess, haccess', hnull], by simp [htrace, hrep, hrep', hreply]⟩

theorem tableSafe_step (cfg : Config) (w : Server) (i : Input) :
    TableSafe (step cfg w i) ↔ TableSafe w ∧ WaitsForTable cfg w i := by
  cases reading_step cfg w i with
  | idle h _ htrace =>
    obtain ⟨es, htrace, hes⟩ := htrace
    have hwaits : WaitsForTable cfg w i := fun _ hreads => absurd hreads h
    rw [tableSafe_iff_of_trace [] (by simpa using htrace) hes]
    simp [hwaits]
  | line h buf s hfgets _ htrace =>
    obtain ⟨es, htrace, hes⟩ := htrace
    rw [tableSafe_iff_of_trace _ htrace hes]
    refine and_congr_right fun _ => ?_
    have hwaits : WaitsForTable cfg w i ↔
        ¬(w.mb_mapping = none ∧ cfg.reachesTable (cString buf) = true) := by
      rw [not_and, Bool.not_eq_true]
      refine ⟨fun hw hnone => hw hnone h buf s hfgets, fun hw hnone _ buf' s' hfgets' => ?_⟩
      obtain ⟨rfl, -⟩ := Stdin.Fgets.line.inj (hfgets'.symm.trans hfgets)
      exact hw hnone
    rw [hwaits]
    split_ifs with hnull
    · simp [hnull]
    · simp [hnull]
  | eof h s hfgets _ htrace =>
    obtain ⟨es, htrace, hes⟩ := htrace
    have hwaits : WaitsForTable cfg w i := fun _ _ buf s' hline => by simp [hfgets] at hline
    rw [tableSafe_iff_of_trace _ htrace hes]
    simp [hwaits]
  | blocked h hfgets _ htrace =>
    obtain ⟨es, htrace, hes⟩ := htrace
    have hwaits : WaitsForTable cfg w i := fun _ _ buf s' hline => by simp [hfgets] at hline
    rw [tableSafe_iff_of_trace [] (by simpa using htrace) hes]
    simp [hwaits]

/-- **The table before it exists.** In a run the table is used only where it exists if and only if
no text that is read while there is none reaches for it. -/
theorem tableSafe_iff (cfg : Config) (ahead : ℕ) (inputs : List Input) :
    TableSafe (serverRun cfg ahead inputs) ↔
      Runs.StepsMeet (step cfg) (WaitsForTable cfg) (initial ahead) inputs := by
  have hinitial : TableSafe (initial ahead) := ⟨List.not_mem_nil, List.not_mem_nil⟩
  rw [serverRun, Runs.run_iff_stepsMeet (tableSafe_step cfg), and_iff_right hinitial]

/-- A line that updates the register at address 0. -/
def updateAtZero : Bytes :=
  ascii "\x7b\"type\":\"holding_registers\",\"address\":0," ++
    ascii "\"datatype\":\"uint16\",\"value\":1\x7d\n"

/-- The update arrives before the first iteration, when there is no table. -/
def earlyUpdate : Input where
  beforeSelect := [{ bytes := updateAtZero }]

theorem not_tableSafe : ¬∀ (cfg : Config) (ahead : ℕ) (inputs : List Input),
    TableSafe (serverRun cfg ahead inputs) := by
  intro h
  have haccess : .nullDereference ∉
      (serverRun { enable_tcp := true, nb_holding_regs := 10 } 4095 [earlyUpdate]).trace :=
    (h _ _ _).access
  exact absurd (by decide +kernel) haccess

end ModbusServer
