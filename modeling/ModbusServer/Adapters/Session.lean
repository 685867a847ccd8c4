import ModbusServer.Adapters.RtuOwnership
import ModbusServer.Adapters.Tcp

/-!
# Both adapters on one back end

A back end is created, used by the TCP adapter and by one of the two RTU adapters in any order, and
cleaned up by both before it is destroyed; `modbus_backend_destroy` leaves everything but the memory
of the back end to them. The adapters share what is in use: a descriptor that one of them opens may
have been closed by the other, and contexts are numbered in the order in which either creates them.

The fields of a back end are globals of the server program, so the rules for these globals carry
over: in every sequence of calls, everything in use is held by exactly one field. The clean-ups are
the two parts of the clean-up of `main`.

Source: `src/adapters/modbus_backend.c`, `src/adapters/tcp_adapter.c`,
`src/adapters/rtu_adapter.c`, `src/core/server_controller.c`.

## Main definitions

* `ModbusServer.Server.withBackend`, `ModbusServer.ModbusBackend.globals`: a back end as globals of
  the server program.
* `ModbusServer.AdapterCall`, `ModbusServer.adapterStep`: the calls of both adapters.
* `ModbusServer.BackendOwned`: the invariant.

## Main results

* `ModbusServer.BackendOwned.tcpStep`, `ModbusServer.BackendOwned.rtuStep`: the invariant is kept
  by the calls of each adapter.
* `ModbusServer.backendOwned_run`: the invariant holds after every sequence of calls, and the
  clean-ups leave nothing in use.
-/

namespace ModbusServer

open Lifetimes Ownership

/-! ### A back end as globals -/

/-- The mode that uses both TCP and RTU. -/
def bothModes : Config where
  enable_tcp := true
  enable_rtu := true
  isInt_start := CInt.isInt_zero
  isInt_nb := CInt.isInt_zero

/-- The server program with the fields of a back end as its globals. -/
def Server.withBackend (w : Server) (b : ModbusBackend) : Server :=
  { w with
    mb_mapping := b.mapping
    ctx_tcp := b.ctx_tcp
    ctx_rtu := b.ctx_rtu
    tcp_listen_sock := b.tcp_listen_sock
    tcp_conn_socks := b.tcp_conn_socks
    tcp_conn_count := b.tcp_conn_count
    os := b.os }

/-- The fields of a back end as globals of the server program. -/
def ModbusBackend.globals (b : ModbusBackend) : Server where
  mb_mapping := b.mapping
  ctx_tcp := b.ctx_tcp
  ctx_rtu := b.ctx_rtu
  tcp_listen_sock := b.tcp_listen_sock
  tcp_conn_socks := b.tcp_conn_socks
  tcp_conn_count := b.tcp_conn_count
  os := b.os
  stdin := { ahead := 0 }

/-- A call of one of the adapters. -/
inductive AdapterCall
  | tcp (call : TcpCall)
  | rtu (call : RtuCall)

/-- The back end behind a call. -/
def adapterStep (impl : RtuImplementation) (b : ModbusBackend) : AdapterCall → ModbusBackend
  | .tcp call => tcpStep b call
  | .rtu call => impl.step b call

/-- Each adapter is used as if it were alone. -/
def AdapterCall.Allowed (b : ModbusBackend) : AdapterCall → Prop
  | .tcp call => call.Allowed b
  | .rtu call => call.Allowed b

instance AdapterCall.decidableAllowed (b : ModbusBackend) (call : AdapterCall) :
    Decidable (call.Allowed b) :=
  match call with
  | .tcp call => inferInstanceAs (Decidable (call.Allowed b))
  | .rtu call => inferInstanceAs (Decidable (call.Allowed b))

/-- Everything in use is held by exactly one field and nothing has been released twice; without a
context TCP holds nothing, the counter counts the occupied slots, the RTU context is connected, and
the log of what has happened to the RTU contexts is orderly and leaves just this one behind. -/
structure BackendOwned (b : ModbusBackend) : Prop where
  owned : Owned bothModes b.globals
  idle : b.ctx_tcp = none → ∀ p, b.tcpDescriptor p = none
  counted : b.Counted
  connected : ∀ c, b.ctx_rtu = some c → c.s ≠ -1
  orderly : replay nothing b.rtuLog = some b.rtuLive

section Rules

variable {b b' : ModbusBackend} {w w' : Server}

/-- A descriptor that may be one of the standard streams is opened into an empty variable. -/
theorem Owned.openUnused {cfg : Config} (h : Owned cfg w) {p : Place} (fd : ℤ)
    (hp : heldDescriptor cfg w p = none) (hfd : 0 ≤ fd ∧ fd ∉ w.os.descriptors)
    (hos : w'.os = { w.os with descriptors := insert fd w.os.descriptors })
    (hcontext : heldContext cfg w' = heldContext cfg w)
    (hdescriptor : heldDescriptor cfg w' =
      Function.update (heldDescriptor cfg w) p (descriptor? fd)) : Owned cfg w' where
  contexts := by rw [hos, hcontext]; exact h.contexts
  descriptors := by
    rw [hos, hdescriptor, descriptor?_of_ne (by omega)]
    exact h.descriptors.acquire hp hfd.2
  fresh := by rw [hos]; exact h.fresh
  misuse_eq := by rw [hos]; exact h.misuse_eq

/-- The non-blocking mode of a descriptor does not matter. -/
theorem Owned.of_os {cfg : Config} (h : Owned cfg w) (hcontexts : w'.os.contexts = w.os.contexts)
    (hnext : w'.os.nextContext = w.os.nextContext)
    (hdescriptors : w'.os.descriptors = w.os.descriptors) (hmisuse : w'.os.misuse = w.os.misuse)
    (hcontext : heldContext cfg w' = heldContext cfg w)
    (hdescriptor : heldDescriptor cfg w' = heldDescriptor cfg w) : Owned cfg w' where
  contexts := by rw [hcontexts, hcontext]; exact h.contexts
  descriptors := by rw [hdescriptors, hdescriptor]; exact h.descriptors
  fresh := by rw [hcontexts, hnext]; exact h.fresh
  misuse_eq := by rw [hmisuse]; exact h.misuse_eq

/-- The clean-up of the TCP adapter is that of `main`. -/
theorem releaseTcp_withBackend (w : Server) (b : ModbusBackend) :
    releaseTcp (w.withBackend b) = w.withBackend (tcpAdapterCleanup b) := by
  have hclient (b : ModbusBackend) (k : Fin maxTcpClients) :
      closeClient (w.withBackend b) k = w.withBackend (b.closeClient k) := by
    by_cases hk : b.tcp_conn_socks k ≠ -1
    · rw [ModbusBackend.closeClient, if_pos hk, closeClient]
      exact if_pos hk
    · rw [ModbusBackend.closeClient, if_neg hk, closeClient]
      exact if_neg hk
  have hclients (ks : List (Fin maxTcpClients)) :
      ks.foldl closeClient (w.withBackend b) =
        w.withBackend (ks.foldl ModbusBackend.closeClient b) := by
    refine Runs.run_simulation (R := fun w' b => w' = w.withBackend b) (Q := Eq) rfl
      (fun w' b k l hw hkl => ?_) (List.forall₂_refl ks)
    rw [hw, ← hkl, hclient]
  rw [releaseTcp, hclients]
  rfl

theorem globals_tcpAdapterCleanup (b : ModbusBackend) :
    (tcpAdapterCleanup b).globals = releaseTcp b.globals :=
  (releaseTcp_withBackend b.globals b).symm

/-- The clean-up of the RTU adapters is that of `main`. -/
theorem releaseRtu_withBackend (w : Server) (b : ModbusBackend) :
    releaseRtu (w.withBackend b) = w.withBackend (RtuAdapter.rtuAdapterCleanup b) := by
  cases hctx : b.ctx_rtu with
  | none => simp [RtuAdapter.rtuAdapterCleanup, releaseRtu, Server.withBackend, hctx,
      Os.modbusClose, Os.modbusFree]
  | some c =>
    rw [rtuAdapterCleanup_of_some hctx]
    simp only [releaseRtu, Server.withBackend, hctx]
    rfl

theorem globals_rtuAdapterCleanup (b : ModbusBackend) :
    (RtuAdapter.rtuAdapterCleanup b).globals = releaseRtu b.globals :=
  (releaseRtu_withBackend b.globals b).symm

end Rules

/-! ### The calls of the TCP adapter -/

section Tcp

variable {b b' : ModbusBackend}

/-- What changes neither the contexts and descriptors nor the log. -/
theorem BackendOwned.of_owned (h : BackendOwned b) (howned : Owned bothModes b'.globals)
    (hidle : b'.ctx_tcp = none → ∀ p, b'.tcpDescriptor p = none) (hcounted : b'.Counted)
    (hrtu : b'.ctx_rtu = b.ctx_rtu) (hlog : b'.rtuLog = b.rtuLog) : BackendOwned b' where
  owned := howned
  idle := hidle
  counted := hcounted
  connected := by rw [hrtu]; exact h.connected
  orderly := by
    have hlive : b'.rtuLive = b.rtuLive := by
      rw [ModbusBackend.rtuLive, hrtu, ModbusBackend.rtuLive]
    rw [hlog, hlive]
    exact h.orderly

/-- While there is no TCP context, TCP holds nothing. -/
theorem BackendOwned.tcp_eq (h : BackendOwned b) (hctx : b.ctx_tcp = none) :
    b.tcp_listen_sock = -1 ∧ ∀ k, b.tcp_conn_socks k = -1 :=
  ⟨descriptor?_eq_none_iff.mp (h.idle hctx none),
    fun k => descriptor?_eq_none_iff.mp (h.idle hctx (some k))⟩

/-- A context is created for TCP. -/
theorem BackendOwned.createTcp (h : BackendOwned b) (hctx : b.ctx_tcp = none) :
    Owned bothModes { b.globals with
      ctx_tcp := some { id := b.os.nextContext }
      tcp_listen_sock := -1
      tcp_conn_socks := fun _ => -1
      os := (b.os.newContext true).2 } := by
  obtain ⟨hlisten, hsocks⟩ := h.tcp_eq hctx
  have hnone : heldContext bothModes b.globals .tcp = none := by
    simp [heldContext, ModbusBackend.globals, hctx]
  refine h.owned.create hnone rfl (heldContext_eq_update_tcp rfl rfl) ?_
  exact heldDescriptor_eq hlisten.symm (funext fun k => (hsocks k).symm) rfl

protected theorem BackendOwned.init (h : BackendOwned b) (hctx : b.ctx_tcp = none) (new : Bool)
    (listen : Option ℤ) : BackendOwned (tcpAdapterInit new listen b).2 := by
  obtain ⟨hlisten, hsocks⟩ := h.tcp_eq hctx
  have hempty : b.tcp_conn_socks = fun _ => -1 := funext hsocks
  have hcreated := h.createTcp hctx
  rcases tcpAdapterInit_cases new listen b with ⟨-, heq⟩ | ⟨-, heq⟩ | ⟨-, fd, hfd, heq⟩
  · rw [heq]
    refine h.of_owned (h.owned.of_eq rfl ?_ rfl) (fun _ => h.idle hctx) h.counted rfl rfl
    exact heldContext_eq (by simp [ModbusBackend.globals, hctx]) rfl
  · rw [heq]
    have hfreed : Owned bothModes { b.globals with
        ctx_tcp := none
        tcp_listen_sock := -1
        os := (b.os.newContext true).2.modbusFree (some { id := b.os.nextContext }) } := by
      refine hcreated.free (l := .tcp) { id := b.os.nextContext } rfl rfl
        (heldContext_eq_update_tcp rfl rfl) (heldDescriptor_eq rfl hempty rfl)
    refine h.of_owned hfreed (fun _ p => ?_) h.counted rfl rfl
    cases p with
    | none => rfl
    | some k => exact h.idle hctx (some k)
  · rw [heq]
    refine h.of_owned ?_ (by simp) (by simp [ModbusBackend.Counted]) rfl rfl
    exact hcreated.openUnused (p := .listen) fd rfl hfd rfl (heldContext_eq rfl rfl)
      (heldDescriptor_eq_update_listen rfl rfl rfl)

/-- The descriptor in the TCP context does not matter. -/
theorem BackendOwned.setSocket (h : BackendOwned b) (s : ℤ) : BackendOwned (b.setSocket s) := by
  refine h.of_owned (h.owned.of_eq rfl (heldContext_eq_of_socket rfl rfl) rfl) (fun hnone => ?_)
    h.counted rfl rfl
  exact h.idle (by simpa [ModbusBackend.setSocket] using hnone)

theorem BackendOwned.closeListen (h : BackendOwned b) : BackendOwned b.closeListen := by
  refine h.of_owned (h.owned.closeListen rfl) (fun hnone p => ?_) h.counted rfl rfl
  cases p with
  | none => rfl
  | some k => exact h.idle hnone (some k)

protected theorem BackendOwned.acceptClient (h : BackendOwned b) (hctx : b.ctx_tcp ≠ none)
    (accept : Accept) : BackendOwned (tcpAdapterAcceptClient accept b).2 := by
  have hsocket (s : ℤ) : (b.setSocket s).ctx_tcp ≠ none := by
    simpa [ModbusBackend.setSocket] using hctx
  have hcases := b.modbusTcpAccept_cases accept
  rw [tcpAdapterAcceptClient]
  cases hslot : b.findFreeTcpClientSlot with
  | none =>
    rcases hcases with heq | heq | ⟨fd, hfd, heq⟩
    · simpa only [heq, ne_eq, not_true_eq_false, if_false] using h.setSocket _
    · simpa only [heq, ne_eq, not_true_eq_false, if_false] using (h.setSocket _).closeListen
    · have hne : fd ≠ -1 := by omega
      simp only [heq, ne_eq, hne, not_false_eq_true, if_true]
      refine (h.setSocket fd).of_owned ?_ (fun hnone => absurd hnone (hsocket fd)) h.counted rfl rfl
      exact (h.setSocket fd).owned.open_close fd hfd.2 rfl rfl rfl
  | some slot =>
    have hfree : b.tcp_conn_socks slot = -1 := by simpa using List.find?_some hslot
    rcases hcases with heq | heq | ⟨fd, hfd, heq⟩
    · simpa only [heq, if_true] using h.setSocket _
    · simpa only [heq, if_true] using (h.setSocket _).closeListen
    · have hne : fd ≠ -1 := by omega
      simp only [heq, hne, if_false]
      refine (h.setSocket fd).of_owned ?_ (fun hnone => absurd hnone (hsocket fd)) ?_ rfl rfl
      · refine (h.setSocket fd).owned.openUnused (p := .client slot) fd ?_ hfd rfl
          (heldContext_eq rfl rfl) (heldDescriptor_eq_update_client rfl slot fd rfl rfl rfl)
        exact descriptor?_eq_none_iff.mpr hfree
      · have hcounted := h.counted
        rw [ModbusBackend.Counted] at hcounted ⊢
        have hfill := Slots.card_occupied_fill hfree hne
        simp only [ModbusBackend.setSocket, hcounted, hfill]
        norm_cast

protected theorem BackendOwned.handleClient (h : BackendOwned b) (hctx : b.ctx_tcp ≠ none)
    (client_index : ℤ) (r : Receive) (reply : Bool) :
    BackendOwned (tcpAdapterHandleClient client_index r reply b).2 := by
  have hsocket (s : ℤ) : (b.setSocket s).ctx_tcp ≠ none := by
    simpa [ModbusBackend.setSocket] using hctx
  rw [tcpAdapterHandleClient]
  by_cases hindex : 0 ≤ client_index ∧ client_index < maxTcpClients
  · rw [dif_pos hindex]
    dsimp only
    split_ifs with hsock hreceived hreply herror
    · exact h
    · have hset := h.setSocket (b.tcp_conn_socks ⟨client_index.toNat, by omega⟩)
      exact hset.of_owned (hset.owned.of_eq rfl rfl rfl) hset.idle hset.counted rfl rfl
    · have hset := h.setSocket (b.tcp_conn_socks ⟨client_index.toNat, by omega⟩)
      exact hset.of_owned (hset.owned.of_eq rfl rfl rfl) hset.idle hset.counted rfl rfl
    · have hset := h.setSocket (b.tcp_conn_socks ⟨client_index.toNat, by omega⟩)
      refine hset.of_owned ?_ (fun hnone => absurd hnone (hsocket _)) ?_ rfl rfl
      · exact hset.owned.close (p := .client ⟨client_index.toNat, by omega⟩) _
          (descriptor?_of_ne hsock) rfl (heldContext_eq rfl rfl)
          (heldDescriptor_eq_update_client rfl _ (-1) rfl rfl rfl)
      · have hcounted := h.counted
        rw [ModbusBackend.Counted] at hcounted ⊢
        have hempty := Slots.card_occupied_empty hsock
        simp only [ModbusBackend.setSocket, hcounted]
        omega
    · exact h.setSocket _
  · rw [dif_neg hindex]
    exact h

/-- The clean-up leaves the RTU link as it is. -/
theorem rtu_tcpAdapterCleanup (b : ModbusBackend) :
    (tcpAdapterCleanup b).ctx_rtu = b.ctx_rtu ∧ (tcpAdapterCleanup b).rtuLog = b.rtuLog := by
  have hclient (b : ModbusBackend) (k : Fin maxTcpClients) :
      ((b.closeClient k).ctx_rtu, (b.closeClient k).rtuLog) = (b.ctx_rtu, b.rtuLog) := by
    rw [ModbusBackend.closeClient]
    split_ifs <;> rfl
  have hclients := Runs.run_frame (g := fun b : ModbusBackend => (b.ctx_rtu, b.rtuLog)) hclient
    (s := b) slots
  exact Prod.mk.inj hclients

/-- The clean-up leaves nothing to TCP. -/
protected theorem BackendOwned.cleanup (h : BackendOwned b) :
    BackendOwned (tcpAdapterCleanup b) := by
  obtain ⟨howned, -, hdescriptor⟩ := h.owned.releaseTcp rfl
  rw [← globals_tcpAdapterCleanup] at howned hdescriptor
  have hnone (p : Option (Fin maxTcpClients)) : (tcpAdapterCleanup b).tcpDescriptor p = none := by
    cases p with
    | none => exact hdescriptor .listen (by simp)
    | some k => exact hdescriptor (.client k) (by simp)
  have hsocks : (tcpAdapterCleanup b).tcp_conn_socks = fun _ => -1 :=
    funext fun k => descriptor?_eq_none_iff.mp (hnone (some k))
  obtain ⟨hrtu, hlog⟩ := rtu_tcpAdapterCleanup b
  refine h.of_owned howned (fun _ => hnone) ?_ hrtu hlog
  rw [ModbusBackend.Counted, hsocks, Slots.occupied_const]
  rfl

/-- **The TCP adapter** keeps the invariant. -/
theorem BackendOwned.tcpStep (h : BackendOwned b) {call : TcpCall} (hcall : call.Allowed b) :
    BackendOwned (tcpStep b call) := by
  cases call with
  | init new listen => exact h.init hcall new listen
  | acceptClient accept => exact h.acceptClient hcall accept
  | handleClient client_index receive reply =>
    exact h.handleClient hcall client_index receive reply
  | cleanup => exact h.cleanup

end Tcp

/-! ### The calls of the RTU adapters -/

section Rtu

variable {b b' : ModbusBackend}

/-- What changes nothing of TCP. -/
theorem BackendOwned.of_rtu (h : BackendOwned b) (howned : Owned bothModes b'.globals)
    (htcp : b'.ctx_tcp = b.ctx_tcp) (hlisten : b'.tcp_listen_sock = b.tcp_listen_sock)
    (hsocks : b'.tcp_conn_socks = b.tcp_conn_socks) (hcount : b'.tcp_conn_count = b.tcp_conn_count)
    (hconnected : ∀ c, b'.ctx_rtu = some c → c.s ≠ -1)
    (horderly : replay nothing b'.rtuLog = some b'.rtuLive) : BackendOwned b' where
  owned := howned
  idle hnone p := by
    have hidle := h.idle (htcp ▸ hnone) p
    cases p with
    | none => rwa [ModbusBackend.tcpDescriptor, hlisten]
    | some k => rwa [ModbusBackend.tcpDescriptor, hsocks]
  counted := by
    rw [ModbusBackend.Counted, hcount, hsocks]
    exact h.counted
  connected := hconnected
  orderly := horderly

theorem BackendOwned.orderly_append (h : BackendOwned b) {log : List (Call ℕ ℤ)} {live : Live ℕ ℤ}
    (hlog : replay b.rtuLive log = some live) : replay nothing (b.rtuLog ++ log) = some live := by
  rw [replay_append h.orderly, hlog]

@[simp] theorem ModbusBackend.nextContext_configuredOs (b : ModbusBackend) (o : RtuOutcome) :
    (b.configuredOs o).nextContext = b.os.nextContext + 1 := by
  rw [configuredOs]
  split_ifs
  · rw [Os.setNonblocking]
    split_ifs <;> rfl
  · rfl

/-- A link is opened when there is none. -/
protected theorem BackendOwned.openRtu (h : BackendOwned b) (hctx : b.ctx_rtu = none)
    (o : RtuOutcome) : BackendOwned (b.openRtu o).2 := by
  have hlive : b.rtuLive = nothing := by rw [ModbusBackend.rtuLive, hctx]
  have hnone : heldContext bothModes b.globals .rtu = none := by
    simp [heldContext, ModbusBackend.globals, hctx]
  have hcreated (c : Ctx) (hc : c.id = b.os.nextContext) (hs : c.s = -1) :
      Owned bothModes { b.globals with ctx_rtu := some c, os := b.configuredOs o } := by
    have hheld : heldContext bothModes { b.globals with
          ctx_rtu := some c
          os := (b.os.newContext true).2 } =
        Function.update (heldContext bothModes b.globals) .rtu (some c.id) :=
      heldContext_eq_update_rtu rfl rfl
    rw [hc] at hheld
    have hnew : Owned bothModes { b.globals with
        ctx_rtu := some c
        os := (b.os.newContext true).2 } := by
      refine h.owned.create hnone rfl hheld (heldDescriptor_eq rfl rfl ?_)
      simp [ModbusBackend.globals, hctx, hs]
    refine hnew.of_os ?_ ?_ ?_ ?_ rfl rfl
    · simp [Os.newContext]
    · simp [Os.newContext]
    · simp [Os.newContext]
    · simp [Os.newContext]
  rcases b.openRtu_cases o with ⟨-, heq⟩ | ⟨-, -, c, hc, heq⟩ | ⟨-, fd, hfd, c, hc, rfl, -, heq⟩
  · rw [heq]
    refine h.of_rtu (h.owned.of_eq rfl (heldContext_eq rfl ?_) (heldDescriptor_eq rfl rfl ?_))
      rfl rfl rfl rfl (by simp) ?_
    · simp [ModbusBackend.globals, hctx]
    · simp [ModbusBackend.globals, hctx]
    · have horderly := h.orderly
      rwa [hlive] at horderly
  · rw [heq]
    refine h.of_rtu ?_ rfl rfl rfl rfl (by simp) (h.orderly_append ?_)
    · have hnew := hcreated { c with s := -1 } hc rfl
      exact hnew.free (l := .rtu) { c with s := -1 } rfl rfl (heldContext_eq_update_rtu rfl rfl)
        (heldDescriptor_eq rfl rfl rfl)
    · rw [hlive]
      simp [ModbusBackend.rtuLive]
  · rw [heq]
    refine h.of_rtu ?_ rfl rfl rfl rfl ?_ (h.orderly_append ?_)
    · have hnew := hcreated { c with s := -1 } hc rfl
      refine hnew.openUnused (p := .rtu) c.s rfl ?_ ?_ (heldContext_eq rfl rfl)
        (heldDescriptor_eq_update_rtu rfl rfl rfl)
      · simpa using hfd.2
      · simp [ModbusBackend.globals]
    · rintro _ ⟨⟩
      omega
    · rw [hlive]
      simp [ModbusBackend.rtuLive]

/-- The link is closed and its context freed. -/
protected theorem BackendOwned.cleanupRtu (h : BackendOwned b) :
    BackendOwned (RtuAdapter.rtuAdapterCleanup b) := by
  have howned := h.owned.releaseRtu rfl
  rw [← globals_rtuAdapterCleanup] at howned
  cases hctx : b.ctx_rtu with
  | none =>
    rw [RtuAdapter.rtuAdapterCleanup, hctx]
    exact h
  | some c =>
    have hlive : b.rtuLive = only c.id c.s := by rw [ModbusBackend.rtuLive, hctx]
    rw [rtuAdapterCleanup_of_some hctx] at howned ⊢
    refine h.of_rtu howned rfl rfl rfl rfl (by simp) (h.orderly_append ?_)
    rw [hlive]
    simp [ModbusBackend.rtuLive]

/-- The context of the variable is used. -/
theorem BackendOwned.use (h : BackendOwned b) {c : Ctx} (hctx : b.ctx_rtu = some c)
    (hctx' : b'.ctx_rtu = b.ctx_rtu) (hlog : b'.rtuLog = b.rtuLog ++ [.use c.id])
    (htcp : b'.ctx_tcp = b.ctx_tcp) (hlisten : b'.tcp_listen_sock = b.tcp_listen_sock)
    (hsocks : b'.tcp_conn_socks = b.tcp_conn_socks) (hcount : b'.tcp_conn_count = b.tcp_conn_count)
    (hos : b'.os = b.os) : BackendOwned b' := by
  have hlive : b'.rtuLive = b.rtuLive := by
    rw [ModbusBackend.rtuLive, hctx', ModbusBackend.rtuLive]
  refine h.of_rtu ?_ htcp hlisten hsocks hcount (by rw [hctx']; exact h.connected) ?_
  · refine h.owned.of_eq hos (heldContext_eq ?_ ?_) (heldDescriptor_eq hlisten hsocks ?_)
    · rw [ModbusBackend.globals, ModbusBackend.globals, htcp]
    · rw [ModbusBackend.globals, ModbusBackend.globals, hctx']
    · rw [ModbusBackend.globals, ModbusBackend.globals, hctx']
  · rw [hlog, hlive]
    refine h.orderly_append ?_
    simp [ModbusBackend.rtuLive, hctx]

/-- A request is received, and the link may be dropped. -/
protected theorem BackendOwned.handleRtu (h : BackendOwned b) (o : RtuOutcome)
    {dropped : ModbusBackend → ModbusBackend}
    (hdropped : ∀ b, BackendOwned b → BackendOwned (dropped b)) :
    BackendOwned (b.handleRtu o dropped).2 := by
  rw [ModbusBackend.handleRtu]
  cases hctx : b.ctx_rtu with
  | none => exact h
  | some c =>
    have hreceive : BackendOwned (b.record [.use c.id]) := h.use hctx rfl rfl rfl rfl rfl rfl rfl
    dsimp only
    split_ifs with hreceived hreply herror hagain
    · exact hreceive.use hctx rfl rfl rfl rfl rfl rfl rfl
    · exact hreceive.use hctx rfl rfl rfl rfl rfl rfl rfl
    · exact hreceive
    · exact hdropped _ hreceive
    · exact hreceive

section Implementations

variable {impl : RtuImplementation}

theorem init_eq (himpl : impl ∈ [RtuAdapter.implementation, ServerController.implementation])
    (o : RtuOutcome) (b : ModbusBackend) : impl.init o b = b.openRtu o := by
  simp only [List.mem_cons, List.not_mem_nil, or_false] at himpl
  rcases himpl with rfl | rfl <;> rfl

/-- The files differ in what they do with a link behind an error. -/
theorem handle_eq (himpl : impl ∈ [RtuAdapter.implementation, ServerController.implementation])
    (o : RtuOutcome) (b : ModbusBackend) : ∃ dropped : ModbusBackend → ModbusBackend,
      (dropped = id ∨ dropped = RtuAdapter.rtuAdapterCleanup) ∧
        impl.handle o b = b.handleRtu o dropped := by
  simp only [List.mem_cons, List.not_mem_nil, or_false] at himpl
  rcases himpl with rfl | rfl
  · exact ⟨id, .inl rfl, rfl⟩
  · exact ⟨RtuAdapter.rtuAdapterCleanup, .inr rfl, rfl⟩

/-- A call to reconnect cleans up and creates a new context, in both files. -/
theorem reconnect_eq (himpl : impl ∈ [RtuAdapter.implementation, ServerController.implementation])
    (o : RtuOutcome) (b : ModbusBackend) :
    impl.reconnect o b = (RtuAdapter.rtuAdapterCleanup b).openRtu o := by
  simp only [List.mem_cons, List.not_mem_nil, or_false] at himpl
  rcases himpl with rfl | rfl
  · exact RtuAdapter.rtuAdapterReconnect_eq o b
  · rfl

theorem cleanup_eq (himpl : impl ∈ [RtuAdapter.implementation, ServerController.implementation])
    (b : ModbusBackend) : impl.cleanup b = RtuAdapter.rtuAdapterCleanup b := by
  simp only [List.mem_cons, List.not_mem_nil, or_false] at himpl
  rcases himpl with rfl | rfl <;> rfl

end Implementations

/-- **The RTU adapters** keep the invariant. -/
theorem BackendOwned.rtuStep (h : BackendOwned b) {impl : RtuImplementation}
    (himpl : impl ∈ [RtuAdapter.implementation, ServerController.implementation]) {call : RtuCall}
    (hcall : call.Allowed b) : BackendOwned (impl.step b call) := by
  cases call with
  | init o =>
    have heq : impl.step b (.init o) = (b.openRtu o).2 := congrArg Prod.snd (init_eq himpl o b)
    rw [heq]
    exact h.openRtu hcall o
  | handle o =>
    obtain ⟨dropped, hdropped, hhandle⟩ := handle_eq himpl o b
    have heq : impl.step b (.handle o) = (b.handleRtu o dropped).2 := congrArg Prod.snd hhandle
    rw [heq]
    rcases hdropped with rfl | rfl
    · exact h.handleRtu o fun _ => id
    · exact h.handleRtu o fun _ => BackendOwned.cleanupRtu
  | reconnect o =>
    have heq : impl.step b (.reconnect o) = ((RtuAdapter.rtuAdapterCleanup b).openRtu o).2 :=
      congrArg Prod.snd (reconnect_eq himpl o b)
    rw [heq]
    exact h.cleanupRtu.openRtu (ctx_rtu_rtuAdapterCleanup b) o
  | cleanup =>
    have heq : impl.step b .cleanup = RtuAdapter.rtuAdapterCleanup b := cleanup_eq himpl b
    rw [heq]
    exact h.cleanupRtu

end Rtu

/-! ### Sequences of calls -/

theorem backendOwned_of_modbusBackendCreate {malloc : Bool} {b : ModbusBackend}
    (h : modbusBackendCreate malloc = some b) : BackendOwned b := by
  have hidle := (tcpOwned_of_modbusBackendCreate h).1.idle
  have hcounted := (tcpOwned_of_modbusBackendCreate h).2
  have horderly := (rtuOwned_of_modbusBackendCreate h).orderly
  obtain ⟨hctx, hrtu, -, -, -, hos, -⟩ := modbusBackendCreate_eq h
  have hnothing : Idle bothModes b.globals := by
    refine ⟨?_, ?_, fun _ => hrtu, ?_⟩
    · rw [ModbusBackend.globals, hos]
    · rw [ModbusBackend.globals, hos]
    · rw [ModbusBackend.globals, hos]
  refine ⟨hnothing.owned ?_ fun p hp => ?_, hidle, hcounted, by simp [hrtu], horderly⟩
  · simp [heldContext, ModbusBackend.globals, hctx]
  · cases p with
    | listen => exact hidle hctx none
    | client k => exact hidle hctx (some k)
    | rtu => exact absurd rfl hp

/-- Both clean-ups leave nothing in use. -/
theorem BackendOwned.nothing_in_use {b : ModbusBackend} (h : BackendOwned b)
    (htcp : b.ctx_tcp = none) (hrtu : b.ctx_rtu = none) :
    b.os.contexts = ∅ ∧ b.os.descriptors = ∅ ∧ b.os.misuse = false := by
  have hidle : Idle bothModes b.globals := by
    refine h.owned.idle (fun l => ?_) fun p => ?_
    · cases l with
      | tcp => simp [heldContext, ModbusBackend.globals, htcp]
      | rtu => simp [heldContext, ModbusBackend.globals, hrtu]
    · cases p with
      | listen => exact h.idle htcp none
      | client k => exact h.idle htcp (some k)
      | rtu => simp [heldDescriptor, ModbusBackend.globals, hrtu]
  exact ⟨hidle.contexts_eq, hidle.descriptors_eq, hidle.misuse_eq⟩

/-- **Both adapters on one back end.** In every sequence of calls of the TCP adapter and of one of
the RTU adapters, whatever their order, everything in use is held by exactly one field, nothing is
released twice, and no RTU context is used after it has been freed. When both have cleaned up, in
either order, nothing is in use. -/
theorem backendOwned_run {malloc : Bool} {b : ModbusBackend}
    (hb : modbusBackendCreate malloc = some b) {impl : RtuImplementation}
    (himpl : impl ∈ [RtuAdapter.implementation, ServerController.implementation])
    {calls : List AdapterCall}
    (hcalls : Runs.StepsMeet (adapterStep impl) AdapterCall.Allowed b calls) :
    BackendOwned (Runs.run (adapterStep impl) b calls) ∧
      ∀ b' ∈ [impl.cleanup (tcpAdapterCleanup (Runs.run (adapterStep impl) b calls)),
          tcpAdapterCleanup (impl.cleanup (Runs.run (adapterStep impl) b calls))],
        b'.os.contexts = ∅ ∧ b'.os.descriptors = ∅ ∧ b'.os.misuse = false := by
  have hstep (b : ModbusBackend) (call : AdapterCall) (h : BackendOwned b)
      (hcall : call.Allowed b) : BackendOwned (adapterStep impl b call) := by
    cases call with
    | tcp call => exact h.tcpStep hcall
    | rtu call => exact h.rtuStep himpl hcall
  have hrun : BackendOwned (Runs.run (adapterStep impl) b calls) :=
    Runs.run_of_stepsMeet (backendOwned_of_modbusBackendCreate hb) hstep hcalls
  have hcleanup : impl.cleanup = RtuAdapter.rtuAdapterCleanup := funext (cleanup_eq himpl)
  generalize Runs.run (adapterStep impl) b calls = b₁ at hrun ⊢
  rw [hcleanup]
  refine ⟨hrun, fun b' hb' => ?_⟩
  simp only [List.mem_cons, List.not_mem_nil, or_false] at hb'
  rcases hb' with rfl | rfl
  · refine hrun.cleanup.cleanupRtu.nothing_in_use ?_ (ctx_rtu_rtuAdapterCleanup _)
    exact congrArg Server.ctx_tcp (globals_rtuAdapterCleanup (tcpAdapterCleanup b₁))
  · refine hrun.cleanupRtu.cleanup.nothing_in_use rfl ?_
    rw [(rtu_tcpAdapterCleanup _).1, ctx_rtu_rtuAdapterCleanup]

/-- The link takes the descriptor of a client that has left. -/
def sharedDescriptor : List AdapterCall :=
  [.tcp (.init true (some 3)), .tcp (.acceptClient (.connection 4)),
    .tcp (.handleClient 0 { rc := -1 } false), .rtu (.init { new := true, connect := some 4 }),
    .tcp (.acceptClient (.connection 5)), .rtu (.handle { receive := { rc := -1 } }),
    .tcp (.acceptClient (.connection 4))]

theorem backendOwned_run_sharedDescriptor : ∃ b, modbusBackendCreate true = some b ∧
    BackendOwned (Runs.run (adapterStep ServerController.implementation) b sharedDescriptor) :=
  ⟨_, rfl, by
    have hrun := @backendOwned_run true _ rfl ServerController.implementation (by simp)
      sharedDescriptor (by decide +kernel)
    exact hrun.1⟩

end ModbusServer
