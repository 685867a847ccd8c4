import ModbusServer.Adapters.Rtu

/-!
# The context of the RTU link

The context of a back end is the only one that is live, it is connected, and the log of what has
happened to it and to its predecessors is orderly: no context is used after it has been freed, none
is freed twice or dropped, and each closes its descriptor before it is freed.

Source: `src/adapters/rtu_adapter.c`, `src/core/server_controller.c`.

## Main definitions

* `ModbusServer.RtuOwned`: the invariant.

## Main results

* `ModbusServer.RtuOwned.openRtu`, `ModbusServer.RtuOwned.cleanup`: a link is opened, and closed.
* `ModbusServer.rtuOwned_run`: the invariant holds after every sequence of calls of each
  implementation.
-/

namespace ModbusServer

open Lifetimes

/-- The contexts that are live according to the variable. -/
def ModbusBackend.rtuLive (b : ModbusBackend) : Live ℕ ℤ :=
  match b.ctx_rtu with
  | some c => only c.id c.s
  | none => nothing

/-- The context of the variable is the only one in use, it is connected to the only descriptor in
use, nothing has been released twice, and the log is orderly and leaves just this context behind. -/
structure RtuOwned (b : ModbusBackend) : Prop where
  contexts_eq : b.os.contexts = b.ctx_rtu.elim ∅ fun c => {c.id}
  descriptors_eq : b.os.descriptors = b.ctx_rtu.elim ∅ fun c => {c.s}
  connected : ∀ c, b.ctx_rtu = some c → c.s ≠ -1
  orderly : replay nothing b.rtuLog = some b.rtuLive
  misuse_eq : b.os.misuse = false

/-- The adapter is initialised without a context. -/
def RtuCall.Allowed (b : ModbusBackend) : RtuCall → Prop
  | .init _ => b.ctx_rtu = none
  | .handle _ | .reconnect _ | .cleanup => True

instance RtuCall.decidableAllowed (b : ModbusBackend) (call : RtuCall) :
    Decidable (call.Allowed b) :=
  match call with
  | .init _ => inferInstanceAs (Decidable (b.ctx_rtu = none))
  | .handle _ => inferInstanceAs (Decidable True)
  | .reconnect _ => inferInstanceAs (Decidable True)
  | .cleanup => inferInstanceAs (Decidable True)

/-- The back end behind a call. -/
def RtuImplementation.step (impl : RtuImplementation) (b : ModbusBackend) (call : RtuCall) :
    ModbusBackend :=
  (impl.call b call).2

/-! ### Opening a link -/

section Calls

variable {b : ModbusBackend} {o : RtuOutcome}

/-- What is in use once a context is created and configured. -/
def ModbusBackend.configuredOs (b : ModbusBackend) (o : RtuOutcome) : Os :=
  if o.socket ≠ -1 then (b.os.newContext true).2.setNonblocking o.socket o.fcntl
  else (b.os.newContext true).2

@[simp] theorem ModbusBackend.descriptors_configuredOs (b : ModbusBackend) (o : RtuOutcome) :
    (b.configuredOs o).descriptors = b.os.descriptors := by
  rw [configuredOs]
  split_ifs
  · rw [Os.setNonblocking]
    split_ifs <;> rfl
  · rfl

@[simp] theorem ModbusBackend.contexts_configuredOs (b : ModbusBackend) (o : RtuOutcome) :
    (b.configuredOs o).contexts = insert b.os.nextContext b.os.contexts := by
  rw [configuredOs]
  split_ifs
  · rw [Os.setNonblocking]
    split_ifs <;> rfl
  · rfl

@[simp] theorem ModbusBackend.misuse_configuredOs (b : ModbusBackend) (o : RtuOutcome) :
    (b.configuredOs o).misuse = b.os.misuse := by
  rw [configuredOs]
  split_ifs
  · rw [Os.setNonblocking]
    split_ifs <;> rfl
  · rfl

/-- The context is not created, or it is not connected and freed, or it is connected to a new
descriptor. -/
theorem ModbusBackend.openRtu_cases (b : ModbusBackend) (o : RtuOutcome) :
    (o.new = false ∧ b.openRtu o = (-1, { b with ctx_rtu := none })) ∨
    (o.new = true ∧ (∀ fd, o.connect = some fd → ¬(0 ≤ fd ∧ fd ∉ b.os.descriptors)) ∧
      ∃ c : Ctx, c.id = b.os.nextContext ∧ b.openRtu o = (-1, { b with
        ctx_rtu := none
        os := (b.configuredOs o).modbusFree (some c)
        rtuLog := b.rtuLog ++ [.create c.id, .use c.id, .use c.id, .free c.id] })) ∨
    (o.new = true ∧ ∃ fd, (o.connect = some fd ∧ 0 ≤ fd ∧ fd ∉ b.os.descriptors) ∧
      ∃ c : Ctx, c.id = b.os.nextContext ∧ c.s = fd ∧
        c.response_timeout = (if o.socket ≠ -1 then 100000 else 500000) ∧
        b.openRtu o = (0, { b with
          ctx_rtu := some c
          os := { b.configuredOs o with descriptors := insert fd b.os.descriptors }
          rtuLog := b.rtuLog ++ [.create c.id, .use c.id, .use c.id, .open c.id fd] })) := by
  cases hnew : o.new with
  | false => exact .inl ⟨rfl, by simp [openRtu, modbusNewRtu, Os.newContext, hnew]⟩
  | true =>
    right
    -- the context once it is configured
    set c₀ : Ctx := if o.socket ≠ -1 then { id := b.os.nextContext, response_timeout := 100000 }
      else { id := b.os.nextContext } with hc₀
    have hid : c₀.id = b.os.nextContext := by
      rw [hc₀]
      split_ifs <;> rfl
    have hconfigured : (b.modbusNewRtu true).configureRtu o { id := b.os.nextContext } = { b with
        ctx_rtu := some c₀
        os := b.configuredOs o
        rtuLog := b.rtuLog ++ [.create c₀.id, .use c₀.id] } := by
      rw [hid, hc₀, configureRtu, configuredOs]
      split_ifs <;> simp [modbusNewRtu, Os.newContext, record]
    have hopen : b.openRtu o =
        ((b.modbusNewRtu true).configureRtu o { id := b.os.nextContext }).modbusConnectRtu o
          { id := b.os.nextContext } := by
      rw [openRtu, hnew]
      rfl
    rw [hopen, hconfigured, modbusConnectRtu]
    rcases (b.configuredOs o).openUnused_cases o.connect with ⟨hno, heq⟩ | ⟨fd, hfd, heq⟩
    · refine .inl ⟨rfl, by simpa using hno, { id := b.os.nextContext }, rfl, ?_⟩
      simp [heq, record, modbusFreeRtu, hid]
    · have hne : fd ≠ -1 := by omega
      rw [descriptors_configuredOs] at hfd heq
      refine .inr ⟨rfl, fd, hfd, { c₀ with s := fd }, hid, rfl, ?_, ?_⟩
      · rw [hc₀]
        split_ifs <;> rfl
      · simp [heq, hne, record, hid]

/-- What happens behind an orderly log. -/
theorem RtuOwned.orderly_append (h : RtuOwned b) {log : List (Call ℕ ℤ)} {live : Live ℕ ℤ}
    (hlog : replay b.rtuLive log = some live) : replay nothing (b.rtuLog ++ log) = some live := by
  rw [replay_append h.orderly, hlog]

/-- A link is opened when there is none. -/
protected theorem RtuOwned.openRtu (h : RtuOwned b) (hctx : b.ctx_rtu = none) (o : RtuOutcome) :
    RtuOwned (b.openRtu o).2 := by
  have hcontexts : b.os.contexts = ∅ := by simpa [hctx] using h.contexts_eq
  have hdescriptors : b.os.descriptors = ∅ := by simpa [hctx] using h.descriptors_eq
  have hlive : b.rtuLive = nothing := by rw [ModbusBackend.rtuLive, hctx]
  rcases b.openRtu_cases o with ⟨-, heq⟩ | ⟨-, -, c, hc, heq⟩ | ⟨-, fd, hfd, c, hc, rfl, -, heq⟩
  · rw [heq]
    have horderly := h.orderly
    rw [hlive] at horderly
    exact ⟨hcontexts, hdescriptors, by simp, horderly, h.misuse_eq⟩
  · rw [heq]
    refine ⟨by simp [hcontexts, hc], by simp [hdescriptors], by simp, h.orderly_append ?_, ?_⟩
    · rw [hlive]
      simp [ModbusBackend.rtuLive]
    · exact (Os.misuse_modbusFree _ (by simp [hc])).trans (by simpa using h.misuse_eq)
  · rw [heq]
    refine ⟨by simp [hcontexts, hc], by simp [hdescriptors], ?_, h.orderly_append ?_,
      by simpa using h.misuse_eq⟩
    · rintro _ ⟨⟩
      omega
    · rw [hlive]
      simp [ModbusBackend.rtuLive]

theorem rtuAdapterCleanup_of_some {c : Ctx} (hctx : b.ctx_rtu = some c) :
    RtuAdapter.rtuAdapterCleanup b = { b with
      ctx_rtu := none
      os := (b.os.modbusClose (some c)).modbusFree (some { c with s := -1 })
      rtuLog := b.rtuLog ++ [.close c.id, .free c.id] } := by
  simp [RtuAdapter.rtuAdapterCleanup, hctx, ModbusBackend.modbusFreeRtu,
    ModbusBackend.modbusCloseRtu, ModbusBackend.record]

theorem ctx_rtu_rtuAdapterCleanup (b : ModbusBackend) :
    (RtuAdapter.rtuAdapterCleanup b).ctx_rtu = none :=
  ServerController.ctx_rtu_rtuAdapterCleanup b

/-- The link is closed and its context freed. -/
protected theorem RtuOwned.cleanup (h : RtuOwned b) :
    RtuOwned (RtuAdapter.rtuAdapterCleanup b) := by
  cases hctx : b.ctx_rtu with
  | none =>
    rw [RtuAdapter.rtuAdapterCleanup, hctx]
    exact h
  | some c =>
    have hcontexts : b.os.contexts = {c.id} := by simpa [hctx] using h.contexts_eq
    have hdescriptors : b.os.descriptors = {c.s} := by simpa [hctx] using h.descriptors_eq
    have hclose : b.os.modbusClose (some c) = b.os.close c.s := if_pos (h.connected c hctx)
    have hlive : b.rtuLive = only c.id c.s := by rw [ModbusBackend.rtuLive, hctx]
    rw [rtuAdapterCleanup_of_some hctx, hclose]
    refine ⟨by simp [hcontexts], by simp [hdescriptors], by simp, h.orderly_append ?_, ?_⟩
    · rw [hlive]
      simp [ModbusBackend.rtuLive]
    · have hfree := @Os.misuse_modbusFree (b.os.close c.s) { c with s := -1 }
        (by simp [hcontexts])
      exact hfree.trans ((Os.misuse_close _ (by simp [hdescriptors])).trans h.misuse_eq)

/-- The clean-up does nothing without a context. -/
theorem rtuAdapterCleanup_idempotent (b : ModbusBackend) :
    RtuAdapter.rtuAdapterCleanup (RtuAdapter.rtuAdapterCleanup b) =
      RtuAdapter.rtuAdapterCleanup b := by
  rw [RtuAdapter.rtuAdapterCleanup.eq_def (RtuAdapter.rtuAdapterCleanup b),
    ctx_rtu_rtuAdapterCleanup]

/-- The context of the variable is used. -/
theorem RtuOwned.use (h : RtuOwned b) {b' : ModbusBackend} {c : Ctx} (hctx : b.ctx_rtu = some c)
    (hctx' : b'.ctx_rtu = b.ctx_rtu) (hos : b'.os = b.os)
    (hlog : b'.rtuLog = b.rtuLog ++ [.use c.id]) : RtuOwned b' where
  contexts_eq := by rw [hos, hctx', h.contexts_eq]
  descriptors_eq := by rw [hos, hctx', h.descriptors_eq]
  connected := by rw [hctx']; exact h.connected
  orderly := by
    have hlive : b'.rtuLive = b.rtuLive := by
      rw [ModbusBackend.rtuLive, hctx', ModbusBackend.rtuLive]
    rw [hlog, hlive]
    refine h.orderly_append ?_
    simp [ModbusBackend.rtuLive, hctx]
  misuse_eq := by rw [hos, h.misuse_eq]

/-- A request is received, and the link may be dropped. -/
protected theorem RtuOwned.handleRtu (h : RtuOwned b) (o : RtuOutcome)
    {dropped : ModbusBackend → ModbusBackend}
    (hdropped : ∀ b, RtuOwned b → RtuOwned (dropped b)) :
    RtuOwned (b.handleRtu o dropped).2 := by
  rw [ModbusBackend.handleRtu]
  cases hctx : b.ctx_rtu with
  | none => exact h
  | some c =>
    have hreceive : RtuOwned (b.record [.use c.id]) := h.use hctx rfl rfl rfl
    dsimp only
    split_ifs with hreceived hreply herror hagain
    · exact hreceive.use hctx rfl rfl rfl
    · exact hreceive.use hctx rfl rfl rfl
    · exact hreceive
    · exact hdropped _ hreceive
    · exact hreceive

end Calls

/-! ### Sequences of calls -/

section Runs

variable {b : ModbusBackend} {call : RtuCall}

/-- **The invariant** is kept by every call of `adapters/rtu_adapter.c`. -/
theorem RtuOwned.rtuAdapter_step (h : RtuOwned b) (hcall : call.Allowed b) :
    RtuOwned (RtuAdapter.implementation.step b call) := by
  cases call with
  | init o => exact h.openRtu hcall o
  | handle o => exact h.handleRtu o fun _ => id
  | reconnect o =>
    have heq : RtuAdapter.implementation.step b (.reconnect o) =
        ((RtuAdapter.rtuAdapterCleanup b).openRtu o).2 := by
      exact congrArg Prod.snd (RtuAdapter.rtuAdapterReconnect_eq o b)
    rw [heq]
    exact h.cleanup.openRtu (ctx_rtu_rtuAdapterCleanup b) o
  | cleanup => exact h.cleanup

/-- **The invariant** is kept by every call of `core/server_controller.c`. -/
theorem RtuOwned.serverController_step (h : RtuOwned b) (hcall : call.Allowed b) :
    RtuOwned (ServerController.implementation.step b call) := by
  cases call with
  | init o => exact h.openRtu hcall o
  | handle o => exact h.handleRtu o fun _ => RtuOwned.cleanup
  | reconnect o => exact h.cleanup.openRtu (ctx_rtu_rtuAdapterCleanup b) o
  | cleanup => exact h.cleanup

theorem rtuOwned_of_modbusBackendCreate {malloc : Bool} (h : modbusBackendCreate malloc = some b) :
    RtuOwned b := by
  obtain ⟨-, hctx, -, -, -, hos, hlog⟩ := modbusBackendCreate_eq h
  refine ⟨?_, ?_, by simp [hctx], ?_, by rw [hos]⟩
  · rw [hos, hctx]
    rfl
  · rw [hos, hctx]
    rfl
  · rw [hlog, ModbusBackend.rtuLive, hctx]
    rfl

end Runs

/-- **The context of the RTU link** is owned by the back end after every sequence of calls of each
implementation, and the clean-up is idempotent and leaves no context. -/
theorem rtuOwned_run {malloc : Bool} {b : ModbusBackend} (hb : modbusBackendCreate malloc = some b)
    {impl : RtuImplementation}
    (himpl : impl ∈ [RtuAdapter.implementation, ServerController.implementation])
    {calls : List RtuCall} (hcalls : Runs.StepsMeet impl.step RtuCall.Allowed b calls) :
    RtuOwned (Runs.run impl.step b calls) ∧
      impl.cleanup (impl.cleanup (Runs.run impl.step b calls)) =
        impl.cleanup (Runs.run impl.step b calls) ∧
      (impl.cleanup (Runs.run impl.step b calls)).ctx_rtu = none ∧
      (impl.cleanup (Runs.run impl.step b calls)).os.contexts = ∅ := by
  have hrun : RtuOwned (Runs.run impl.step b calls) := by
    simp only [List.mem_cons, List.not_mem_nil, or_false] at himpl
    rcases himpl with rfl | rfl
    · exact Runs.run_of_stepsMeet (rtuOwned_of_modbusBackendCreate hb)
        (fun _ _ h hcall => h.rtuAdapter_step hcall) hcalls
    · exact Runs.run_of_stepsMeet (rtuOwned_of_modbusBackendCreate hb)
        (fun _ _ h hcall => h.serverController_step hcall) hcalls
  have hcleanup : impl.cleanup = RtuAdapter.rtuAdapterCleanup := by
    simp only [List.mem_cons, List.not_mem_nil, or_false] at himpl
    rcases himpl with rfl | rfl <;> rfl
  rw [hcleanup]
  refine ⟨hrun, rtuAdapterCleanup_idempotent _, ctx_rtu_rtuAdapterCleanup _, ?_⟩
  rw [hrun.cleanup.contexts_eq, ctx_rtu_rtuAdapterCleanup]
  rfl

/-- A link comes up, fails, is opened again, and is closed twice. -/
def failingLink : List RtuCall :=
  [.init { new := true, connect := some 5 }, .handle { receive := { rc := -1 } },
    .reconnect { new := true, connect := some 5 }, .cleanup, .cleanup]

theorem rtuOwned_run_failingLink : ∃ b, modbusBackendCreate true = some b ∧
    RtuOwned (Runs.run ServerController.implementation.step b failingLink) ∧
      (ServerController.implementation.cleanup
        (Runs.run ServerController.implementation.step b failingLink)).ctx_rtu = none :=
  ⟨_, rfl, by
    have hrun := @rtuOwned_run true _ rfl ServerController.implementation (by simp) failingLink
      (by decide +kernel)
    exact ⟨hrun.1, hrun.2.2.1⟩⟩

end ModbusServer
