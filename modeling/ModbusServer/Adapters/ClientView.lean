import ModbusServer.Adapters.Tcp

/-!
# The clients as a caller sees them

A caller of the TCP adapter that goes by the return codes keeps a set of live clients: it adds the
slot that a successful accept returns, and removes the index for which handling a client returns
-1, which the header calls a disconnected client. When a reply cannot be sent the adapter returns
-1 too, and keeps the slot. So the set is that of the occupied slots until a reply fails.

Source: `src/adapters/tcp_adapter.c`, lines 44–93; `src/adapters/tcp_adapter.h`, lines 16–30.

## Main definitions

* `ModbusServer.ClientCall`: the calls that serve clients.
* `ModbusServer.View`: a back end and the set that the caller keeps.
* `ModbusServer.View.Exact`: the set is that of the occupied slots.

## Main results

* `ModbusServer.View.exact_step_iff`: when a call keeps the set exact.
* `ModbusServer.exactView_iff`: the runs in which the set is exact behind every call.
* `ModbusServer.not_exactView`: not all runs are of this kind.
-/

namespace ModbusServer

open Slots

/-! ### The view of the caller -/

/-- A call that serves clients, with the outcomes of the calls it makes. -/
inductive ClientCall
  | acceptClient (accept : Accept)
  | handleClient (client_index : ℤ) (receive : Receive) (reply : Bool)

/-- The return code of a call, and the back end behind it. -/
def ClientCall.result (b : ModbusBackend) : ClientCall → ℤ × ModbusBackend
  | .acceptClient accept => tcpAdapterAcceptClient accept b
  | .handleClient client_index receive reply => tcpAdapterHandleClient client_index receive reply b

/-- What the caller makes of its set of live clients when a call returns `rc`. -/
def ClientCall.note (live : Finset ℤ) (rc : ℤ) : ClientCall → Finset ℤ
  | .acceptClient _ => if rc = -1 then live else insert rc live
  | .handleClient client_index _ _ => if rc = -1 then live.erase client_index else live

/-- A back end, and the set of live clients that the caller keeps. -/
structure View where
  backend : ModbusBackend
  live : Finset ℤ := ∅

namespace View

/-- A call, and the note that the caller takes of it. -/
def step (v : View) (call : ClientCall) : View where
  backend := (call.result v.backend).2
  live := call.note v.live (call.result v.backend).1

/-- The indices of the occupied slots. -/
def occupiedIndices (b : ModbusBackend) : Finset ℤ :=
  (occupied (-1) b.tcp_conn_socks).image fun k : Fin maxTcpClients => (k : ℤ)

/-- The set of the caller is that of the occupied slots. -/
def Exact (v : View) : Prop := v.live = occupiedIndices v.backend

instance (v : View) : Decidable v.Exact := inferInstanceAs (Decidable (v.live = _))

end View

namespace ClientCall

/-- A client is handled only if its slot is occupied. -/
def OnClient (b : ModbusBackend) : ClientCall → Prop
  | acceptClient _ => True
  | handleClient client_index _ _ => client_index ∈ View.occupiedIndices b

instance decidableOnClient (b : ModbusBackend) (call : ClientCall) : Decidable (call.OnClient b) :=
  match call with
  | acceptClient _ => inferInstanceAs (Decidable True)
  | handleClient client_index _ _ =>
    inferInstanceAs (Decidable (client_index ∈ View.occupiedIndices b))

/-- A request of a client in the table is received, and the reply to it fails. -/
def ReplyFails (b : ModbusBackend) : ClientCall → Prop
  | acceptClient _ => False
  | handleClient client_index receive reply =>
    client_index ∈ View.occupiedIndices b ∧ 0 < receive.rc ∧ reply = false

instance decidableReplyFails (b : ModbusBackend) (call : ClientCall) :
    Decidable (call.ReplyFails b) :=
  match call with
  | acceptClient _ => inferInstanceAs (Decidable False)
  | handleClient client_index receive reply =>
    inferInstanceAs (Decidable (client_index ∈ View.occupiedIndices b ∧ 0 < receive.rc ∧
      reply = false))

end ClientCall

/-! ### The calls -/

section Calls

variable {b : ModbusBackend}

theorem natCast_fin_injective : Function.Injective fun k : Fin maxTcpClients => (k : ℤ) := by
  intro j k hjk
  exact Fin.ext (Int.ofNat_inj.mp hjk)

theorem View.mem_occupiedIndices {i : ℤ} :
    i ∈ View.occupiedIndices b ↔ ∃ k, b.tcp_conn_socks k ≠ -1 ∧ (k : ℤ) = i := by
  simp [View.occupiedIndices]

/-- A client gets the slot that is returned, or the table stays as it is. -/
theorem tcpAdapterAcceptClient_cases (accept : Accept) (b : ModbusBackend) :
    ((tcpAdapterAcceptClient accept b).1 = -1 ∧
      (tcpAdapterAcceptClient accept b).2.tcp_conn_socks = b.tcp_conn_socks) ∨
    ∃ (slot : Fin maxTcpClients) (fd : ℤ), fd ≠ -1 ∧
      (tcpAdapterAcceptClient accept b).1 = slot ∧
      (tcpAdapterAcceptClient accept b).2.tcp_conn_socks =
        Function.update b.tcp_conn_socks slot fd := by
  have hcases := b.modbusTcpAccept_cases accept
  rw [tcpAdapterAcceptClient]
  cases b.findFreeTcpClientSlot with
  | none =>
    left
    rcases hcases with heq | heq | ⟨fd, hfd, heq⟩
    · simp [heq, ModbusBackend.setSocket]
    · simp [heq, ModbusBackend.setSocket, ModbusBackend.closeListen]
    · have hne : fd ≠ -1 := by omega
      simp [heq, hne, ModbusBackend.setSocket]
  | some slot =>
    rcases hcases with heq | heq | ⟨fd, hfd, heq⟩
    · left
      simp [heq, ModbusBackend.setSocket]
    · left
      simp [heq, ModbusBackend.setSocket, ModbusBackend.closeListen]
    · have hne : fd ≠ -1 := by omega
      refine .inr ⟨slot, fd, hne, ?_⟩
      simp [heq, hne, ModbusBackend.setSocket]

/-- An index without a client is refused; the slot of a client that has gone is emptied; any other
client keeps its slot, and -1 is returned if the reply fails. -/
theorem tcpAdapterHandleClient_cases (client_index : ℤ) (r : Receive) (reply : Bool)
    (b : ModbusBackend) :
    (client_index ∉ View.occupiedIndices b ∧
      tcpAdapterHandleClient client_index r reply b = (-1, b)) ∨
    ∃ k : Fin maxTcpClients, (k : ℤ) = client_index ∧ b.tcp_conn_socks k ≠ -1 ∧
      ((r.rc = -1 ∧ (tcpAdapterHandleClient client_index r reply b).1 = -1 ∧
        (tcpAdapterHandleClient client_index r reply b).2.tcp_conn_socks =
          Function.update b.tcp_conn_socks k (-1)) ∨
      (r.rc ≠ -1 ∧ ((tcpAdapterHandleClient client_index r reply b).1 = -1 ↔
          0 < r.rc ∧ reply = false) ∧
        (tcpAdapterHandleClient client_index r reply b).2.tcp_conn_socks =
          b.tcp_conn_socks)) := by
  rw [tcpAdapterHandleClient]
  by_cases hindex : 0 ≤ client_index ∧ client_index < maxTcpClients
  · rw [dif_pos hindex]
    obtain ⟨k, rfl⟩ : ∃ k : Fin maxTcpClients, (k : ℤ) = client_index :=
      ⟨⟨client_index.toNat, by omega⟩, Int.toNat_of_nonneg hindex.1⟩
    dsimp only [Int.toNat_natCast]
    by_cases hsock : b.tcp_conn_socks k = -1
    · refine .inl ⟨fun hmem => ?_, if_pos hsock⟩
      obtain ⟨j, hj, hjk⟩ := View.mem_occupiedIndices.mp hmem
      obtain rfl : j = k := natCast_fin_injective hjk
      exact hj hsock
    · refine .inr ⟨k, rfl, hsock, ?_⟩
      rw [if_neg hsock]
      by_cases hrequest : 0 < r.rc
      · rw [if_pos hrequest]
        refine .inr ⟨by omega, ?_, rfl⟩
        cases reply <;> simp [hrequest]
      · rw [if_neg hrequest]
        by_cases hgone : r.rc = -1
        · rw [if_pos hgone]
          exact .inl ⟨hgone, rfl, rfl⟩
        · rw [if_neg hgone]
          exact .inr ⟨hgone, by simp [hrequest], rfl⟩
  · rw [dif_neg hindex]
    refine .inl ⟨fun hmem => hindex ?_, rfl⟩
    obtain ⟨k, -, rfl⟩ := View.mem_occupiedIndices.mp hmem
    have := k.isLt
    omega

end Calls

/-! ### Runs -/

/-- **A call** keeps the set of the caller exact unless it fails to send a reply. -/
theorem View.exact_step_iff {v : View} (h : v.Exact) (call : ClientCall) :
    (v.step call).Exact ↔ ¬call.ReplyFails v.backend := by
  rw [View.Exact] at h
  rw [View.Exact, View.step, h]
  cases call with
  | acceptClient accept =>
    refine iff_of_true ?_ id
    rcases tcpAdapterAcceptClient_cases accept v.backend with ⟨hrc, hsocks⟩ |
      ⟨slot, fd, hfd, hrc, hsocks⟩
    · simp [ClientCall.note, ClientCall.result, hrc, View.occupiedIndices, hsocks]
    · have hne : (slot : ℤ) ≠ -1 := by omega
      simp [ClientCall.note, ClientCall.result, hrc, hne, View.occupiedIndices, hsocks,
        occupied_fill hfd]
  | handleClient client_index r reply =>
    rw [ClientCall.ReplyFails, ClientCall.note, ClientCall.result]
    rcases tcpAdapterHandleClient_cases client_index r reply v.backend with ⟨hfree, heq⟩ |
      ⟨k, rfl, hsock, ⟨hgone, hrc, hsocks⟩ | ⟨hgone, hrc, hsocks⟩⟩
    · rw [heq]
      exact iff_of_true (Finset.erase_eq_of_notMem hfree) fun hfails => hfree hfails.1
    · refine iff_of_true ?_ (by simp [hgone])
      simp only [hrc, if_true, View.occupiedIndices, hsocks, occupied_empty]
      exact (Finset.image_erase natCast_fin_injective _ k).symm
    · have hmem : (k : ℤ) ∈ View.occupiedIndices v.backend :=
        View.mem_occupiedIndices.mpr ⟨k, hsock, rfl⟩
      have hsame : View.occupiedIndices (tcpAdapterHandleClient k r reply v.backend).2 =
          View.occupiedIndices v.backend := by
        rw [View.occupiedIndices, hsocks, ← View.occupiedIndices]
      rw [hsame]
      simp only [hmem, true_and]
      rw [← hrc]
      split_ifs with hfails
      · exact iff_of_false (fun h => Finset.erase_eq_self.mp h hmem) (not_not.mpr hfails)
      · exact iff_of_true rfl hfails

/-- **The set of the caller is exact** behind every call of a run, from a back end that has just
been initialised, exactly if no reply in it fails. -/
theorem exactView_iff {new : Bool} {listen : Option ℤ} {b₀ b : ModbusBackend}
    (hinit : tcpAdapterInit new listen b₀ = (0, b)) (calls : List ClientCall) :
    (∀ before, before <+: calls → (Runs.run View.step { backend := b } before).Exact) ↔
      Runs.StepsMeet View.step (fun v call => ¬call.ReplyFails v.backend) { backend := b }
        calls := by
  have hsocks : b.tcp_conn_socks = fun _ => -1 := by
    rcases tcpAdapterInit_cases new listen b₀ with ⟨-, heq⟩ | ⟨-, heq⟩ | ⟨-, fd, -, heq⟩
    · simp [heq] at hinit
    · simp [heq] at hinit
    · rw [heq] at hinit
      obtain ⟨-, rfl⟩ := Prod.mk.inj hinit
      rfl
  refine Runs.forall_prefix_iff_stepsMeet (P := View.Exact) ?_ (fun _ => id)
    (fun v call h => View.exact_step_iff h call)
    fun v call h hcall => (View.exact_step_iff h call).mpr hcall
  rw [View.Exact, View.occupiedIndices, hsocks, occupied_const, Finset.image_empty]

/-- A client connects, and the reply to its first request fails. -/
def lostReply : List ClientCall :=
  [.acceptClient (.connection 6), .handleClient 0 { rc := 12 } false]

/-- A client is served until it leaves. -/
def servedClient : List ClientCall :=
  [.acceptClient (.connection 6), .handleClient 0 { rc := 12 } true,
    .handleClient 0 { rc := -1 } true]

theorem exactView_iff_servedClient : ∃ b₀ b, tcpAdapterInit true (some 5) b₀ = (0, b) ∧
    ∀ before, before <+: servedClient → (Runs.run View.step { backend := b } before).Exact := by
  have hinit : tcpAdapterInit true (some 5) ((modbusBackendCreate true).get rfl) = (0, _) := rfl
  exact ⟨_, _, hinit, (exactView_iff hinit servedClient).mpr (by decide +kernel)⟩

/-- Behind `lostReply` the caller has no client, and the first slot is occupied. -/
theorem not_exactView : ¬∀ (new : Bool) (listen : Option ℤ) (b₀ b : ModbusBackend)
    (calls : List ClientCall), tcpAdapterInit new listen b₀ = (0, b) →
    Runs.StepsMeet View.step (fun v call => call.OnClient v.backend) { backend := b } calls →
      (Runs.run View.step { backend := b } calls).Exact := by
  intro h
  have hexact := h true (some 5) ((modbusBackendCreate true).get rfl) _ lostReply rfl
    (by decide +kernel)
  exact absurd hexact (by decide +kernel)

end ModbusServer
