import ModbusServer.Server.Blocks

/-!
# Lines and commands

The texts that are passed to `process_json` against the lines of the standard input. `fgets` cuts a
line that does not fit into the buffer into pieces, each of which is passed on, and a zero byte
hides the rest of a line. `select` looks at the kernel only, so a line that the library has read
ahead waits there for the next byte.

Source: `json-modbus-server.c`, lines 180–208, 437–443 and 477–494.

## Main definitions

* `ModbusServer.OneCommandPerLine`: the texts are the lines.
* `ModbusServer.NothingBehind`: every short line that has arrived has been passed on.

## Main results

* `ModbusServer.oneCommandPerLine_iff`, `ModbusServer.nothingBehind_iff`: the runs in which this is
  so.
* `ModbusServer.not_oneCommandPerLine`, `ModbusServer.not_nothingBehind`: not all runs are of this
  kind.
-/

namespace ModbusServer

open CText

/-! ### The texts of a run -/

theorem texts_of_trace {w w' : Server} (es : List Event) {es' : List Event}
    (htrace : w'.trace = w.trace ++ es ++ es') (hes' : ∀ e ∈ es', e.behindCommands = true) :
    w'.texts = w.texts ++ es.filterMap Event.text? := by
  have hnil : es'.filterMap Event.text? = [] := by
    refine List.filterMap_eq_nil_iff.mpr fun e he => ?_
    cases e <;> first | rfl | simpa [Event.behindCommands] using hes' _ he
  rw [Server.texts, htrace, List.filterMap_append, List.filterMap_append, hnil, List.append_nil,
    Server.texts]

theorem endOfInput_notMem {es : List Event} (h : ∀ e ∈ es, e.behindCommands = true) :
    .endOfInput ∉ es := fun he => by simpa [Event.behindCommands] using h _ he

/-- The texts are what is seen of the pieces that `fgets` has returned, and at the end of the input
nothing is left. -/
structure InputOk (w : Server) : Prop where
  consistent : w.stdin.Consistent
  texts_eq : w.texts = w.stdin.passed.map cString
  atEnd : .endOfInput ∈ w.trace →
    w.stdin.closed = true ∧ w.stdin.buffer = [] ∧ w.stdin.kernel = []

theorem InputOk.of_idle {w w' : Server} {es : List Event} (hw : InputOk w)
    (hconsistent : w'.stdin.Consistent) (hpassed : w'.stdin.passed = w.stdin.passed)
    (hclosed : w.stdin.closed = true → w'.stdin = w.stdin)
    (htrace : w'.trace = w.trace ++ es) (hes : ∀ e ∈ es, e.behindCommands = true) :
    InputOk w' where
  consistent := hconsistent
  texts_eq := by
    rw [texts_of_trace [] (by simpa using htrace) hes, hpassed, ← hw.texts_eq]
    exact List.append_nil _
  atEnd hend := by
    rw [htrace, List.mem_append, or_iff_left (endOfInput_notMem hes)] at hend
    have hended := hw.atEnd hend
    rw [hclosed hended.1]
    exact hended

theorem inputOk_step (cfg : Config) (w : Server) (i : Input) (hw : InputOk w) :
    InputOk (step cfg w i) := by
  have hbefore := hw.consistent.foldl_arrive i.beforeSelect
  have hconsistent : (atRead w i).Consistent := hbefore.foldl_arrive i.afterSelect
  have hpassed : (atRead w i).passed = w.stdin.passed := by simp [atRead]
  have hclosed : w.stdin.closed = true → i.beforeSelect.foldl Stdin.arrive w.stdin = w.stdin :=
    Stdin.foldl_arrive_of_closed w.stdin i.beforeSelect
  have hended : .endOfInput ∈ w.trace → atRead w i = w.stdin := fun hend => by
    have hc := (hw.atEnd hend).1
    rw [atRead, hclosed hc, Stdin.foldl_arrive_of_closed _ _ hc]
  cases reading_step cfg w i with
  | idle h hstdin htrace =>
    obtain ⟨es, htrace, hes⟩ := htrace
    rcases hstdin with hstdin | hstdin
    · exact hw.of_idle (hstdin ▸ hw.consistent) (by rw [hstdin]) (fun _ => hstdin) htrace hes
    · exact hw.of_idle (hstdin ▸ hbefore) (by simp [hstdin]) (fun hc => hstdin.trans (hclosed hc))
        htrace hes
  | line h buf s hfgets hstdin htrace =>
    obtain ⟨es, htrace, hes⟩ := htrace
    obtain ⟨-, s₁, more, hx, rfl⟩ := Stdin.fgets_line hfgets
    refine ⟨hstdin ▸ hconsistent.fgets hfgets, ?_, fun hend => ?_⟩
    · rw [texts_of_trace _ htrace hes, hw.texts_eq, hstdin, hpassed, List.map_append]
      split_ifs <;> rfl
    · have hold : .endOfInput ∈ w.trace := by
        rw [htrace, List.append_assoc, List.mem_append, List.mem_append] at hend
        rcases hend with hend | hend | hend
        · exact hend
        · split_ifs at hend <;> simp at hend
        · exact absurd hend (endOfInput_notMem hes)
      obtain ⟨hc, hb, hk⟩ := hw.atEnd hold
      rw [hended hold] at hfgets
      exact absurd hfgets (Stdin.fgets_ne_line hc hb hk _ _ _)
  | eof h s hfgets hstdin htrace =>
    obtain ⟨es, htrace, hes⟩ := htrace
    obtain ⟨hc, hb, hk, -, -, -, hs⟩ := Stdin.getc_eof (Stdin.fgets_eof hfgets)
    refine ⟨hstdin ▸ hconsistent.fgets_eof hfgets, ?_, fun _ => hstdin ▸ ⟨hc, hb, hk⟩⟩
    rw [texts_of_trace _ htrace hes, hw.texts_eq, hstdin, hs, hpassed]
    exact List.append_nil _
  | blocked h hfgets hstdin htrace =>
    obtain ⟨es, htrace, hes⟩ := htrace
    exact hw.of_idle (hstdin ▸ hbefore) (by simp [hstdin]) (fun hc => hstdin.trans (hclosed hc))
      htrace hes

theorem inputOk_run (cfg : Config) (ahead : ℕ) (inputs : List Input) :
    InputOk (serverRun cfg ahead inputs) :=
  Runs.run_induction ⟨Stdin.consistent_initial ahead, rfl, fun h => absurd h List.not_mem_nil⟩
    (inputOk_step cfg) inputs

/-! ### One line, one command -/

/-- The texts passed to `process_json` are the first lines that have arrived, each passed whole and
once; at the end of the input they are all lines. -/
structure OneCommandPerLine (w : Server) : Prop where
  prefix_lines : w.texts <+: Lines.lines 10 w.stdin.arrived
  all_at_end : .endOfInput ∈ w.trace → w.texts = Lines.lines 10 w.stdin.arrived

theorem InputOk.prefix_lines_iff {w : Server} (hw : InputOk w) (seen : Bytes → Bytes)
    (hseen : ∀ p, seen p <+: p) :
    w.stdin.passed.map seen <+: Lines.lines 10 w.stdin.arrived ↔
      ∀ l ∈ (Lines.lines 10 w.stdin.arrived).take w.texts.length,
        l.length ≤ Stdin.maxJsonBuffer - 1 ∧ seen l = l := by
  have hlength : w.texts.length = w.stdin.passed.length := by rw [hw.texts_eq, List.length_map]
  rw [hlength, hw.consistent.arrived_eq]
  exact hw.consistent.framed.prefix_lines_iff hseen

/-- A list of lines that is all that has arrived is the list of all lines. -/
theorem eq_lines_of_prefix {pieces : List Bytes} {stream : Bytes}
    (h : pieces <+: Lines.lines 10 stream) (hall : stream = pieces.flatten) :
    pieces = Lines.lines 10 stream := by
  obtain ⟨rest, hrest⟩ := h
  have hflatten : rest.flatten = [] := by
    have := Lines.flatten_lines 10 stream
    rw [← hrest, List.flatten_append, hall] at this
    simpa using this
  have hnil : rest = [] := by
    refine List.eq_nil_iff_forall_not_mem.mpr fun l hl => ?_
    have hmem : l ∈ Lines.lines 10 stream := hrest ▸ List.mem_append_right pieces hl
    exact Lines.ne_nil_of_mem_lines hmem (List.flatten_eq_nil_iff.mp hflatten l hl)
  rw [← hrest, hnil, List.append_nil]

/-- **One line, one command.** The texts of a run are the lines of the input if and only if every
line up to the last text fits into the buffer and has no zero byte. -/
theorem oneCommandPerLine_iff (cfg : Config) (ahead : ℕ) (inputs : List Input) :
    OneCommandPerLine (serverRun cfg ahead inputs) ↔
      ∀ l ∈ (Lines.lines 10 (serverRun cfg ahead inputs).stdin.arrived).take
          (serverRun cfg ahead inputs).texts.length,
        l.length ≤ Stdin.maxJsonBuffer - 1 ∧ 0 ∉ l := by
  have hw := inputOk_run cfg ahead inputs
  generalize serverRun cfg ahead inputs = w at hw
  have htexts := hw.prefix_lines_iff cString cString_prefix_self
  rw [← hw.texts_eq] at htexts
  simp only [cString_eq_self_iff] at htexts
  refine ⟨fun h => htexts.mp h.prefix_lines, fun hlines => ⟨htexts.mpr hlines, fun hend => ?_⟩⟩
  -- nothing is left in the buffers, so the pieces are all lines, and they are seen whole
  obtain ⟨-, hb, hk⟩ := hw.atEnd hend
  have harrived : w.stdin.arrived = w.stdin.passed.flatten := by
    rw [hw.consistent.arrived_eq, hb, hk, List.append_nil, List.append_nil]
  have hpassed : w.stdin.passed = Lines.lines 10 w.stdin.arrived := by
    have hpieces := (hw.prefix_lines_iff id fun p => List.prefix_rfl).mpr
      fun l hl => ⟨(hlines l hl).1, rfl⟩
    rw [List.map_id] at hpieces
    exact eq_lines_of_prefix hpieces harrived
  rw [hw.texts_eq, List.length_map, hpassed, List.take_length] at hlines
  rw [hw.texts_eq, ← hpassed]
  have hseen : w.stdin.passed.map cString = w.stdin.passed.map id :=
    List.map_congr_left fun l hl => cString_of_notMem (hlines l (hpassed ▸ hl)).2
  rw [hseen, List.map_id]

/-- A line that hides a stop command behind the first 511 bytes. -/
def hiddenStop : Bytes :=
  ascii "\x7b\"note\":\"" ++ List.replicate 502 32 ++ ascii "\x7b\"cmd\":\"stop\"\x7d\n"

/-- The line arrives, and the input is read twice. -/
def hiddenStopInputs : List Input :=
  [{ beforeSelect := [{ bytes := hiddenStop }] }, { beforeSelect := [{ bytes := [10] }] }]

theorem not_oneCommandPerLine : ¬∀ (cfg : Config) (ahead : ℕ) (inputs : List Input),
    OneCommandPerLine (serverRun cfg ahead inputs) := by
  intro h
  have hprefix := (h {} 4095 hiddenStopInputs).prefix_lines
  exact absurd hprefix (by decide +kernel)

/-! ### Nothing is left behind -/

/-- Every line of at most 511 bytes that has arrived with its terminator has been passed to
`process_json`, in its place. -/
def NothingBehind (w : Server) : Prop :=
  ∀ p l q, w.stdin.arrived = p ++ (l ++ q) → Lines.AtLineStart 10 p →
    Lines.IsShortLine 10 (Stdin.maxJsonBuffer - 1) l →
      ∃ before after, w.stdin.passed = before ++ l :: after ∧ before.flatten = p ∧
        w.texts[before.length]? = some (cString l)

/-- In the iteration `select` reports that the standard input is not readable. -/
def QuietSelect (w : Server) (i : Input) : Prop :=
  selects w i ∧ (i.beforeSelect.foldl Stdin.arrive w.stdin).readable = false

/-- No line waits in the buffer of the library. -/
def BufferSettled (w : Server) : Prop :=
  Lines.Settled 10 (Stdin.maxJsonBuffer - 1) w.stdin.passed w.stdin.buffer

/-- When the iteration reads, what is in the kernel and what arrives until `fgets` returns has no
line behind a terminator. -/
def OneLineAtATime (w : Server) (i : Input) : Prop :=
  reads w i → Lines.Quiet 10 (Stdin.maxJsonBuffer - 1)
    ((atRead w i).kernel ++ Stdin.accepted (atRead w i).closed i.waiting)

/-- With an empty kernel nothing is left behind exactly if no line waits in the library. -/
theorem InputOk.nothingBehind_iff_settled {w : Server} (hw : InputOk w)
    (hkernel : w.stdin.kernel = []) :
    NothingBehind w ↔ BufferSettled w := by
  have harrived := hw.consistent.arrived_eq
  rw [hkernel, List.append_nil] at harrived
  constructor
  · intro h
    refine Lines.Settled.of_exists_piece fun p l q hstream hp hl => ?_
    obtain ⟨before, after, hpassed, hbefore, -⟩ := h p l q (harrived.trans hstream) hp hl
    exact ⟨before, after, hpassed, hbefore⟩
  · intro hsettled p l q hstream hp hl
    have hframed := hw.consistent.framed
    rw [hkernel, List.append_nil] at hframed
    obtain ⟨before, after, hpassed, hbefore⟩ :=
      hsettled.exists_piece hframed (harrived ▸ hstream) hp hl
    refine ⟨before, after, hpassed, hbefore, ?_⟩
    rw [hw.texts_eq, hpassed]
    simp

protected theorem InputOk.atSelect {w : Server} (hw : InputOk w) (cfg : Config) (i : Input) :
    InputOk (atSelect cfg w i) := by
  have htrace : (atSelect cfg w i).trace = w.trace ++ [] := by simp
  refine hw.of_idle ?_ (by simp) (fun hclosed => ?_) htrace (by simp)
  · simpa using hw.consistent.foldl_arrive i.beforeSelect
  · simpa using Stdin.foldl_arrive_of_closed w.stdin i.beforeSelect hclosed

theorem InputOk.nothingBehind_atSelect_iff {w : Server} {i : Input} (hw : InputOk w)
    (cfg : Config) (hquiet : QuietSelect w i) :
    NothingBehind (atSelect cfg w i) ↔ BufferSettled w := by
  have hreadable := hquiet.2
  rw [Stdin.readable, Bool.or_eq_false_iff, Bool.not_eq_false', List.isEmpty_iff] at hreadable
  rw [(hw.atSelect cfg i).nothingBehind_iff_settled (by simpa using hreadable.1)]
  simp [BufferSettled]

theorem bufferSettled_step (cfg : Config) (w : Server) (i : Input) (hw : BufferSettled w)
    (hline : OneLineAtATime w i) : BufferSettled (step cfg w i) := by
  rw [BufferSettled] at hw ⊢
  cases reading_step cfg w i with
  | idle h hstdin =>
    rcases hstdin with hstdin | hstdin
    · rwa [hstdin]
    · simpa [hstdin] using hw
  | line h buf s hfgets hstdin =>
    rw [hstdin]
    exact Stdin.settled_fgets (by simpa [atRead] using hw) (hline h) hfgets
  | eof h s hfgets hstdin =>
    obtain ⟨-, hb, -, hb', -, -, hpassed⟩ := Stdin.getc_eof (Stdin.fgets_eof hfgets)
    rw [hstdin, hb, hpassed]
    rw [atRead, Stdin.buffer_foldl_arrive, Stdin.buffer_foldl_arrive] at hb'
    simpa [atRead, hb'] using hw
  | blocked h hfgets hstdin => simpa [hstdin] using hw

/-- **Nothing is left behind.** At every quiet `select` of a run every short line that has arrived
has been passed on if and only if at each of them no line waits in the buffer of the library. This
is so in every run in which the lines arrive one at a time. -/
theorem nothingBehind_iff (cfg : Config) (ahead : ℕ) (inputs : List Input) :
    (Runs.StepsMeet (step cfg)
        (fun w i => QuietSelect w i → NothingBehind (atSelect cfg w i)) (initial ahead) inputs ↔
      Runs.StepsMeet (step cfg)
        (fun w i => QuietSelect w i → BufferSettled w) (initial ahead) inputs) ∧
    (Runs.StepsMeet (step cfg) OneLineAtATime (initial ahead) inputs →
      Runs.StepsMeet (step cfg)
        (fun w i => QuietSelect w i → NothingBehind (atSelect cfg w i))
        (initial ahead) inputs) := by
  have hinitial : InputOk (initial ahead) := inputOk_run cfg ahead []
  have hsettled : BufferSettled (initial ahead) :=
    Lines.Settled.of_exists_piece fun p l q hstream _ hl => by
      obtain ⟨m, -, rfl⟩ := hl.exists_eq
      simp [initial] at hstream
  constructor
  · refine Runs.stepsMeet_congr hinitial (fun w i hw _ => inputOk_step cfg w i hw) fun w i hw => ?_
    exact forall_congr' fun hquiet => hw.nothingBehind_atSelect_iff cfg hquiet
  · intro h
    refine h.of_invariant (P := fun w => InputOk w ∧ BufferSettled w) ⟨hinitial, hsettled⟩ ?_ ?_
    · exact fun w i hw hline =>
        ⟨inputOk_step cfg w i hw.1, bufferSettled_step cfg w i hw.2 hline⟩
    · exact fun w i hw _ hquiet => (hw.1.nothingBehind_atSelect_iff cfg hquiet).mpr hw.2

/-- A line that asks for the status. -/
def askStatus : Bytes := ascii "\x7b\"cmd\":\"status\"\x7d\n"

/-- A line that stops the server. -/
def askStop : Bytes := ascii "\x7b\"cmd\":\"stop\"\x7d\n"

/-- The two lines arrive together. -/
def burst : Input where
  beforeSelect := [{ bytes := askStatus ++ askStop }]

theorem not_nothingBehind_of_passed {w : Server} (hpassed : w.stdin.passed = [askStatus])
    (harrived : w.stdin.arrived = askStatus ++ askStop) : ¬NothingBehind w := by
  intro h
  have hstop : Lines.IsShortLine 10 (Stdin.maxJsonBuffer - 1) askStop :=
    ⟨⟨askStop.dropLast, by decide, by decide⟩, by decide⟩
  obtain ⟨before, after, hall, hbefore, -⟩ :=
    h askStatus askStop [] (by simpa using harrived) (.inr (by decide)) hstop
  have hlength := congrArg List.length (hpassed.symm.trans hall)
  cases before with
  | nil => exact absurd hbefore (by decide)
  | cons p before =>
    simp only [List.length_cons, List.length_append, List.length_nil] at hlength
    omega

theorem not_nothingBehind : ¬∀ (cfg : Config) (ahead : ℕ) (inputs : List Input),
    Runs.StepsMeet (step cfg) (fun w i => QuietSelect w i → NothingBehind (atSelect cfg w i))
      (initial ahead) inputs := by
  intro h
  have hsecond := Runs.stepsMeet_iff_forall_prefix.mp (h {} 4095 [burst, {}]) [burst] {}
    List.prefix_rfl
  have hquiet : QuietSelect (Runs.run (step {}) (initial 4095) [burst]) {} :=
    ⟨⟨by decide +kernel, by decide +kernel, ∅, rfl⟩, by decide +kernel⟩
  exact absurd (hsecond hquiet)
    (not_nothingBehind_of_passed (by decide +kernel) (by decide +kernel))

end ModbusServer
