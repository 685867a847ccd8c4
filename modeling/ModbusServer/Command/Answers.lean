import ModbusServer.Command.ProcessJson
import ModbusServer.Foundation.Runs

/-!
# The answers to commands and the flags

What the two command processors print, and what they leave in `server_state` and `running`. They
clear `running` together with the state, but a `start` looks at the state alone, so behind a `stop`
it is answered as if the server could still be started.

Source: `src/json/json_command.c`, lines 15–49; `json-modbus-server.c`, lines 184–257.

## Main definitions

* `ModbusServer.UpdateAnswer`: what is printed for a text that is no command.
* `ModbusServer.commandOf`: the command that a text gives.
* `ModbusServer.nextFlags`: the flags behind a command.
* `ModbusServer.FinalCommand`: a line behind which a stop is still a stop.

## Main results

* `ModbusServer.flags_processJson`, `ModbusServer.answersStarting_processJson_iff`: the flags and
  the answer `starting`, and the same for `json_command_process`.
* `ModbusServer.finalCommand_iff`: the lines that do not start a server that has stopped.
* `ModbusServer.stepsMeet_notRestarts_iff`: the sessions without such lines.
-/

namespace ModbusServer

open CText

/-! ### Answers -/

/-- What is printed for a text that is no command. -/
inductive UpdateAnswer : Bytes → Prop
  | addressOutOfRange (address : ℤ) : UpdateAnswer (addressOutOfRangeLine address)
  | indexError : UpdateAnswer indexErrorLine
  | indexOutOfBounds (address : ℤ) : UpdateAnswer (indexOutOfBoundsLine address)
  | updated (address : ℤ) (datatype : Bytes) : UpdateAnswer (updatedLine address datatype)

theorem mem_printed_print {text t : Bytes} : text ∈ printed [.print t] ↔ text = t := by
  simp [Effect.print?]

theorem mem_printed_update {text t : Bytes} (log : List (ℤ × Word)) :
    text ∈ printed (storeEffects log ++ [.print t]) ↔ text = t := by
  simp [Effect.print?]

theorem updateAnswer_of_mem_processUpdate {cfg : Config} {mb_mapping : Option Mapping}
    {root : CJson} {text : Bytes} (h : text ∈ printed (processUpdate cfg mb_mapping root)) :
    UpdateAnswer text := by
  simp only [processUpdate] at h
  split at h
  · simp at h
  · next u _ =>
    split_ifs at h
    · rw [mem_printed_print.mp h]
      exact .addressOutOfRange u.address
    · rw [mem_printed_print.mp h]
      exact .indexError
    · split at h
      · simp [Effect.print?] at h
      · split_ifs at h
        · rw [mem_printed_print.mp h]
          exact .indexError
        · rw [(mem_printed_update _).mp h]
          exact .updated u.address u.datatype

theorem updateAnswer_of_mem_jsonCommandUpdateData {json_str : Bytes} {mapping : Option Mapping}
    {text : Bytes} (h : text ∈ printed (jsonCommandUpdateData json_str mapping).1) :
    UpdateAnswer text := by
  simp only [jsonCommandUpdateData] at h
  split at h
  · simp at h
  · split at h
    · simp at h
    · next u _ =>
      split at h
      · simp at h
      · split_ifs at h
        · rw [mem_printed_print.mp h]
          exact .indexOutOfBounds u.address
        · rw [(mem_printed_update _).mp h]
          exact .updated u.address u.datatype

/-- Is a start answered with `starting`? -/
def answersStarting (effects : List Effect) : Bool :=
  (printed effects).any (ascii "\x7b\"status\":\"starting\"").isPrefixOf

/-- The answer to a text that is no command is not `starting`. -/
theorem answersStarting_eq_false {effects : List Effect}
    (h : ∀ text ∈ printed effects, UpdateAnswer text) : answersStarting effects = false := by
  refine List.any_eq_false.mpr fun text htext => ?_
  cases h text htext with
  | addressOutOfRange => exact Bool.false_ne_true
  | indexError => exact Bool.false_ne_true
  | indexOutOfBounds => exact Bool.false_ne_true
  | updated => exact Bool.false_ne_true

/-! ### Flags -/

/-- The command that a text gives. -/
def commandOf (json_str : Bytes) : Option Bytes := (cJSONParse json_str).bind commandName

/-- The flags behind a command. -/
def nextFlags (cmd : Option Bytes) (flags : Flags) : Flags :=
  if cmd = some (ascii "stop") then { server_state := .stopped, running := false }
  else if cmd = some (ascii "start") then { flags with server_state := .running }
  else flags

theorem flags_processCommand (root : CJson) (flags : Flags) (update : List Effect) :
    (processCommand root flags update).2 = nextFlags (commandName root) flags := by
  simp only [processCommand, nextFlags]
  split_ifs with hstop hstart hrunning
  · rfl
  · rw [← hrunning]
  · rfl
  · rfl
  · rfl

theorem answersStarting_processCommand_iff {root : CJson} {flags : Flags} {update : List Effect}
    (hupdate : answersStarting update = false) :
    answersStarting (processCommand root flags update).1 = true ↔
      commandName root = some (ascii "start") ∧ flags.server_state = .stopped := by
  have hstopped : flags.server_state = .stopped ↔ ¬flags.server_state = .running := by
    cases flags.server_state <;> simp
  simp only [processCommand, hstopped]
  split_ifs with hstop hstart hrunning hstatus
  · refine iff_of_false Bool.false_ne_true fun h => ?_
    exact absurd (hstop.symm.trans h.1) (by decide)
  · exact iff_of_false Bool.false_ne_true fun h => h.2 hrunning
  · exact iff_of_true rfl ⟨hstart, hrunning⟩
  · refine iff_of_false ?_ fun h => hstart h.1
    cases flags.server_state <;> exact Bool.false_ne_true
  · exact iff_of_false (by simp [hupdate]) fun h => hstart h.1

theorem flags_processJson (cfg : Config) (mb_mapping : Option Mapping) (flags : Flags)
    (json_str : Bytes) :
    (processJson cfg mb_mapping flags json_str).2 = nextFlags (commandOf json_str) flags := by
  rw [processJson, commandOf]
  cases cJSONParse json_str with
  | none => rfl
  | some root => exact flags_processCommand root flags _

theorem flags_jsonCommandProcess (json_str : Bytes) (mapping : Option Mapping) (flags : Flags) :
    (jsonCommandProcess json_str mapping flags).2 = nextFlags (commandOf json_str) flags := by
  rw [jsonCommandProcess, commandOf]
  cases cJSONParse json_str with
  | none => rfl
  | some root => exact flags_processCommand root flags _

/-- A start is answered with `starting` if the state is `STATE_STOPPED`. -/
theorem answersStarting_processJson_iff (cfg : Config) (mb_mapping : Option Mapping)
    (flags : Flags) (json_str : Bytes) :
    answersStarting (processJson cfg mb_mapping flags json_str).1 = true ↔
      commandOf json_str = some (ascii "start") ∧ flags.server_state = .stopped := by
  rw [processJson, commandOf]
  cases cJSONParse json_str with
  | none => exact iff_of_false Bool.false_ne_true fun h => by simp at h
  | some root =>
    exact answersStarting_processCommand_iff
      (answersStarting_eq_false fun _ => updateAnswer_of_mem_processUpdate)

theorem answersStarting_jsonCommandProcess_iff (json_str : Bytes) (mapping : Option Mapping)
    (flags : Flags) :
    answersStarting (jsonCommandProcess json_str mapping flags).1 = true ↔
      commandOf json_str = some (ascii "start") ∧ flags.server_state = .stopped := by
  rw [jsonCommandProcess, commandOf]
  cases cJSONParse json_str with
  | none => exact iff_of_false Bool.false_ne_true fun h => by simp at h
  | some root =>
    exact answersStarting_processCommand_iff
      (answersStarting_eq_false fun _ => updateAnswer_of_mem_jsonCommandUpdateData)

/-! ### Sessions -/

/-- The flags behind a line that is given to `json_command_process` with a table. -/
def commandStep (flags : Flags) (call : Bytes × Option Mapping) : Flags :=
  (jsonCommandProcess call.1 call.2 flags).2

/-- Once `running` is false, the line is not answered with `starting`, and the state behind it is
`STATE_STOPPED`. -/
structure FinalCommand (flags : Flags) (call : Bytes × Option Mapping) : Prop where
  starting : flags.running = false →
    answersStarting (jsonCommandProcess call.1 call.2 flags).1 = false
  stopped : (commandStep flags call).running = false →
    (commandStep flags call).server_state = .stopped

/-- The line does not start a server that has stopped. -/
def NotRestarts (flags : Flags) (call : Bytes × Option Mapping) : Prop :=
  flags.server_state = .stopped → commandOf call.1 ≠ some (ascii "start")

/-- The two flags move together. -/
def Flags.Together (flags : Flags) : Prop := flags.server_state = .running ↔ flags.running = true

section Sessions

variable {flags : Flags} {call : Bytes × Option Mapping}

theorem Flags.Together.stopped_iff (h : flags.Together) :
    flags.server_state = .stopped ↔ flags.running = false := by
  have hnot := not_congr h
  rw [Bool.not_eq_true] at hnot
  rw [← hnot]
  cases flags.server_state <;> simp

theorem finalCommand_iff (h : flags.Together) :
    FinalCommand flags call ↔ NotRestarts flags call := by
  have hstarting := answersStarting_jsonCommandProcess_iff call.1 call.2 flags
  constructor
  · rintro ⟨hfinal, -⟩ hstopped hstart
    have hanswer := hstarting.mpr ⟨hstart, hstopped⟩
    simp [hfinal (h.stopped_iff.mp hstopped)] at hanswer
  · intro hrestarts
    refine ⟨fun hrunning => ?_, fun hrunning => ?_⟩
    · rw [← Bool.not_eq_true, hstarting]
      exact fun hanswer => hrestarts hanswer.2 hanswer.1
    · rw [commandStep, flags_jsonCommandProcess, nextFlags] at hrunning ⊢
      split_ifs at hrunning ⊢ with hstop hstart
      · rfl
      · exact absurd hstart (hrestarts (h.stopped_iff.mpr hrunning))
      · exact h.stopped_iff.mpr hrunning

/-- The flags move together as long as nothing is started behind a stop. -/
theorem Flags.Together.nextFlags (h : flags.Together) {cmd : Option Bytes}
    (hrestarts : flags.server_state = .stopped → cmd ≠ some (ascii "start")) :
    (nextFlags cmd flags).Together := by
  rw [ModbusServer.nextFlags]
  split_ifs with hstop hstart
  · simp [Flags.Together]
  · have hrunning : flags.server_state = .running := by
      cases hstate : flags.server_state with
      | running => rfl
      | stopped => exact absurd hstart (hrestarts hstate)
    simp [Flags.Together, h.mp hrunning]
  · exact h

theorem stepsMeet_finalCommand_iff (h : flags.Together) (calls : List (Bytes × Option Mapping)) :
    Runs.StepsMeet commandStep FinalCommand flags calls ↔
      Runs.StepsMeet commandStep NotRestarts flags calls := by
  refine Runs.stepsMeet_congr h (fun flags call h hfinal => ?_) fun flags call h =>
    finalCommand_iff h
  rw [commandStep, flags_jsonCommandProcess]
  exact h.nextFlags ((finalCommand_iff h).mp hfinal)

theorem commandStep_stopped (hcall : commandOf call.1 ≠ some (ascii "start")) :
    commandStep { server_state := .stopped, running := false } call =
      { server_state := .stopped, running := false } := by
  rw [commandStep, flags_jsonCommandProcess, nextFlags, if_neg hcall, ite_self]

theorem commandStep_running : commandStep { server_state := .running, running := true } call =
    if commandOf call.1 = some (ascii "stop") then { server_state := .stopped, running := false }
    else { server_state := .running, running := true } := by
  rw [commandStep, flags_jsonCommandProcess, nextFlags]
  split_ifs <;> rfl

/-- From a stopped server: no line starts it. -/
theorem stepsMeet_notRestarts_stopped_iff (calls : List (Bytes × Option Mapping)) :
    Runs.StepsMeet commandStep NotRestarts { server_state := .stopped, running := false } calls ↔
      ∀ call ∈ calls, commandOf call.1 ≠ some (ascii "start") := by
  induction calls with
  | nil => simp
  | cons call calls ih =>
    rw [Runs.stepsMeet_cons, List.forall_mem_cons]
    constructor
    · rintro ⟨hcall, hcalls⟩
      rw [commandStep_stopped (hcall rfl)] at hcalls
      exact ⟨hcall rfl, ih.mp hcalls⟩
    · rintro ⟨hcall, hcalls⟩
      rw [commandStep_stopped hcall]
      exact ⟨fun _ => hcall, ih.mpr hcalls⟩

/-- From a running server: no line that starts it comes behind one that stops it. -/
theorem stepsMeet_notRestarts_iff (calls : List (Bytes × Option Mapping)) :
    Runs.StepsMeet commandStep NotRestarts { server_state := .running, running := true } calls ↔
      calls.Pairwise fun call call' => commandOf call.1 = some (ascii "stop") →
        commandOf call'.1 ≠ some (ascii "start") := by
  induction calls with
  | nil => simp
  | cons call calls ih =>
    rw [Runs.stepsMeet_cons, List.pairwise_cons, commandStep_running]
    by_cases hstop : commandOf call.1 = some (ascii "stop")
    · rw [if_pos hstop, stepsMeet_notRestarts_stopped_iff]
      constructor
      · rintro ⟨-, hcalls⟩
        refine ⟨fun call' hcall' _ => hcalls call' hcall', ?_⟩
        exact List.pairwise_of_forall_mem_list fun _ _ call' hcall' _ => hcalls call' hcall'
      · rintro ⟨hcalls, -⟩
        exact ⟨by simp [NotRestarts], fun call' hcall' => hcalls call' hcall' hstop⟩
    · rw [if_neg hstop, ih]
      simp [NotRestarts, hstop]

end Sessions

end ModbusServer
