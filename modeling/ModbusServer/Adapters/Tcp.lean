import ModbusServer.Adapters.Backend
import ModbusServer.Foundation.Slots
import ModbusServer.Server.Resources

/-!
# The TCP adapter

The listening socket and the table of clients of a back end. A call of libmodbus is given its
outcome, and the functions return the code of the source with the back end they leave behind.

The invariant says that every descriptor in use is held by the listening socket or by one slot, that
nothing is held without a context, and that the counter counts the occupied slots. The adapter keeps
it in every sequence of calls that initialises a back end without a context and serves one with a
context.

Source: `src/adapters/tcp_adapter.c`.

## Main definitions

* `ModbusServer.tcpAdapterInit`, `ModbusServer.tcpAdapterAcceptClient`,
  `ModbusServer.tcpAdapterHandleClient`, `ModbusServer.tcpAdapterCleanup`.
* `ModbusServer.TcpCall`, `ModbusServer.tcpStep`: the calls as steps.
* `ModbusServer.TcpOwned`: the invariant.
* `ModbusServer.ClientTable`: what the table of clients says about the descriptors in use.

## Main results

* `ModbusServer.TcpOwned.tcpStep`: the invariant is kept by every call.
* `ModbusServer.clientTable_run`: the table of clients after every sequence of calls.
-/

namespace ModbusServer

open Ownership Slots

/-! ### The functions -/

/-- `tcp_adapter_init`, with the outcomes of `modbus_new_tcp` and `modbus_tcp_listen`. -/
def tcpAdapterInit (new : Bool) (listen : Option ℤ) (b : ModbusBackend) : ℤ × ModbusBackend :=
  let (ctx, os) := b.os.newContext new
  let b := { b with ctx_tcp := ctx, os := os }
  match ctx with
  | none => (-1, b)
  | some c =>
    let (fd, os) := b.os.openUnused listen
    let b := { b with tcp_listen_sock := fd, os := os }
    if fd = -1 then (-1, { b with os := b.os.modbusFree (some c), ctx_tcp := none })
    else (0, { b with tcp_conn_socks := fun _ => -1, tcp_conn_count := 0 })

/-- `find_free_tcp_client_slot`. -/
def ModbusBackend.findFreeTcpClientSlot (b : ModbusBackend) : Option (Fin maxTcpClients) :=
  slots.find? fun i => b.tcp_conn_socks i = -1

/-- `modbus_set_socket(backend->ctx_tcp, s)`. -/
def ModbusBackend.setSocket (b : ModbusBackend) (s : ℤ) : ModbusBackend :=
  { b with ctx_tcp := b.ctx_tcp.map ({ · with s := s }) }

/-- `platform_close_fd(backend->tcp_listen_sock)`, if it is not -1. -/
def ModbusBackend.closeListen (b : ModbusBackend) : ModbusBackend :=
  { b with
    os := if b.tcp_listen_sock ≠ -1 then b.os.close b.tcp_listen_sock else b.os
    tcp_listen_sock := -1 }

/-- `modbus_tcp_accept(backend->ctx_tcp, &backend->tcp_listen_sock)`, which keeps the descriptor in
the context. -/
def ModbusBackend.modbusTcpAccept (b : ModbusBackend) (accept : Accept) : ℤ × ModbusBackend :=
  match accept with
  | .connection fd =>
    let (fd, os) := b.os.openUnused (some fd)
    (fd, { b.setSocket fd with os := os })
  | .failed => (-1, b.setSocket (-1))
  | .failedClosing => (-1, (b.setSocket (-1)).closeListen)

/-- `tcp_adapter_accept_client`. -/
def tcpAdapterAcceptClient (accept : Accept) (b : ModbusBackend) : ℤ × ModbusBackend :=
  match b.findFreeTcpClientSlot with
  | none =>
    let (temp_sock, b) := b.modbusTcpAccept accept
    (-1, if temp_sock ≠ -1 then { b with os := b.os.close temp_sock } else b)
  | some slot =>
    let (new_conn, b) := b.modbusTcpAccept accept
    if new_conn = -1 then (-1, b)
    else
      (slot, { b with
        tcp_conn_socks := Function.update b.tcp_conn_socks slot new_conn
        tcp_conn_count := b.tcp_conn_count + 1 })

/-- `tcp_adapter_handle_client`, with the outcomes of `modbus_receive` and `modbus_reply`. -/
def tcpAdapterHandleClient (client_index : ℤ) (r : Receive) (reply : Bool) (b : ModbusBackend) :
    ℤ × ModbusBackend :=
  if h : 0 ≤ client_index ∧ client_index < maxTcpClients then
    let k : Fin maxTcpClients := ⟨client_index.toNat, by omega⟩
    let sock := b.tcp_conn_socks k
    if sock = -1 then (-1, b)
    else
      let b := b.setSocket sock
      if 0 < r.rc then (if reply then 1 else -1, b.modbusReply r)
      else if r.rc = -1 then
        (-1, { b with
          os := b.os.close sock
          tcp_conn_socks := Function.update b.tcp_conn_socks k (-1)
          tcp_conn_count := b.tcp_conn_count - 1 })
      else (0, b)
  else (-1, b)

/-- The body of the loop that closes the clients. -/
def ModbusBackend.closeClient (b : ModbusBackend) (k : Fin maxTcpClients) : ModbusBackend :=
  if b.tcp_conn_socks k ≠ -1 then
    { b with
      os := b.os.close (b.tcp_conn_socks k)
      tcp_conn_socks := Function.update b.tcp_conn_socks k (-1) }
  else b

/-- `tcp_adapter_cleanup`. -/
def tcpAdapterCleanup (b : ModbusBackend) : ModbusBackend :=
  let b := { slots.foldl ModbusBackend.closeClient b with tcp_conn_count := 0 }.closeListen
  { b with os := b.os.modbusFree b.ctx_tcp, ctx_tcp := none }

/-! ### Sequences of calls -/

/-- A call of the adapter with the outcomes of the calls it makes. -/
inductive TcpCall
  | init (new : Bool) (listen : Option ℤ)
  | acceptClient (accept : Accept)
  | handleClient (client_index : ℤ) (receive : Receive) (reply : Bool)
  | cleanup

/-- The back end behind a call. -/
def tcpStep (b : ModbusBackend) : TcpCall → ModbusBackend
  | .init new listen => (tcpAdapterInit new listen b).2
  | .acceptClient accept => (tcpAdapterAcceptClient accept b).2
  | .handleClient client_index receive reply =>
    (tcpAdapterHandleClient client_index receive reply b).2
  | .cleanup => tcpAdapterCleanup b

/-- The adapter is initialised without a context, and serves with one. -/
def TcpCall.Allowed (b : ModbusBackend) : TcpCall → Prop
  | .init _ _ => b.ctx_tcp = none
  | .acceptClient _ | .handleClient _ _ _ => b.ctx_tcp ≠ none
  | .cleanup => True

instance TcpCall.decidableAllowed (b : ModbusBackend) (call : TcpCall) :
    Decidable (call.Allowed b) :=
  match call with
  | .init _ _ => inferInstanceAs (Decidable (b.ctx_tcp = none))
  | .acceptClient _ => inferInstanceAs (Decidable (b.ctx_tcp ≠ none))
  | .handleClient _ _ _ => inferInstanceAs (Decidable (b.ctx_tcp ≠ none))
  | .cleanup => inferInstanceAs (Decidable True)

/-- What the listening socket, in the place `none`, and the slots hold. -/
def ModbusBackend.tcpDescriptor (b : ModbusBackend) : Option (Fin maxTcpClients) → Option ℤ
  | none => descriptor? b.tcp_listen_sock
  | some k => descriptor? (b.tcp_conn_socks k)

/-- Every descriptor in use is held in one place, without a context nothing is held, and nothing has
been released twice. -/
structure TcpOwned (b : ModbusBackend) : Prop where
  descriptors : Owns b.tcpDescriptor b.os.descriptors
  context : ∀ ctx, b.ctx_tcp = some ctx → ctx.id ∈ b.os.contexts
  idle : b.ctx_tcp = none → ∀ p, b.tcpDescriptor p = none
  misuse_eq : b.os.misuse = false

/-- The counter counts the occupied slots. -/
def ModbusBackend.Counted (b : ModbusBackend) : Prop :=
  b.tcp_conn_count = (occupied (-1) b.tcp_conn_socks).card

/-- What the table of clients says: the counter is the number of occupied slots and at most the size
of the table, the slots hold different descriptors, none of them the listening socket, these and the
listening socket are the descriptors in use, and nothing has been closed twice. -/
structure ClientTable (b : ModbusBackend) : Prop where
  count_eq : b.tcp_conn_count = (occupied (-1) b.tcp_conn_socks).card
  count_le : b.tcp_conn_count ≤ maxTcpClients
  injective : ∀ k l, b.tcp_conn_socks k ≠ -1 → b.tcp_conn_socks k = b.tcp_conn_socks l → k = l
  ne_listen : ∀ k, b.tcp_conn_socks k ≠ -1 → b.tcp_conn_socks k ≠ b.tcp_listen_sock
  mem_descriptors_iff : ∀ fd, fd ∈ b.os.descriptors ↔
    fd ≠ -1 ∧ (fd = b.tcp_listen_sock ∨ ∃ k, fd = b.tcp_conn_socks k)
  misuse_eq : b.os.misuse = false

/-! ### The rules -/

section Rules

variable {b b' : ModbusBackend}

theorem tcpDescriptor_eq_update_listen (hsocks : b'.tcp_conn_socks = b.tcp_conn_socks) :
    b'.tcpDescriptor =
      Function.update b.tcpDescriptor none (descriptor? b'.tcp_listen_sock) := by
  funext p
  cases p with
  | none => rw [Function.update_self, ModbusBackend.tcpDescriptor]
  | some k =>
    rw [Function.update_of_ne (by simp), ModbusBackend.tcpDescriptor, hsocks,
      ModbusBackend.tcpDescriptor]

theorem tcpDescriptor_eq_update_client (k : Fin maxTcpClients) (fd : ℤ)
    (hsocks : b'.tcp_conn_socks = Function.update b.tcp_conn_socks k fd)
    (hlisten : b'.tcp_listen_sock = b.tcp_listen_sock) :
    b'.tcpDescriptor = Function.update b.tcpDescriptor (some k) (descriptor? fd) := by
  funext p
  cases p with
  | none =>
    rw [Function.update_of_ne (by simp), ModbusBackend.tcpDescriptor, hlisten,
      ModbusBackend.tcpDescriptor]
  | some j =>
    rw [ModbusBackend.tcpDescriptor, hsocks]
    by_cases hj : j = k
    · rw [hj, Function.update_self, Function.update_self]
    · rw [Function.update_of_ne hj, Function.update_of_ne (by simpa using hj),
        ModbusBackend.tcpDescriptor]

/-- What does not touch the context, the places and what is in use. -/
theorem TcpOwned.of_eq (h : TcpOwned b) (hctx : b'.ctx_tcp = b.ctx_tcp) (hos : b'.os = b.os)
    (hheld : b'.tcpDescriptor = b.tcpDescriptor) : TcpOwned b' where
  descriptors := by
    rw [hos, hheld]
    exact h.descriptors
  context := by
    rw [hctx, hos]
    exact h.context
  idle := by
    rw [hctx, hheld]
    exact h.idle
  misuse_eq := by rw [hos]; exact h.misuse_eq

/-- The descriptor in the context does not matter. -/
protected theorem TcpOwned.setSocket (h : TcpOwned b) (s : ℤ) : TcpOwned (b.setSocket s) where
  descriptors := h.descriptors
  context ctx hctx := by
    obtain ⟨c, hc, rfl⟩ := Option.map_eq_some_iff.mp hctx
    exact h.context c hc
  idle hnone := h.idle (by simpa [ModbusBackend.setSocket] using hnone)
  misuse_eq := h.misuse_eq

/-- A descriptor is opened into an empty place. -/
theorem TcpOwned.open (h : TcpOwned b) {p : Option (Fin maxTcpClients)} (fd : ℤ)
    (hp : b.tcpDescriptor p = none) (hfd : 0 ≤ fd ∧ fd ∉ b.os.descriptors)
    (hctx : b.ctx_tcp ≠ none) (hctx' : b'.ctx_tcp = b.ctx_tcp)
    (hos : b'.os = { b.os with descriptors := insert fd b.os.descriptors })
    (hheld : b'.tcpDescriptor = Function.update b.tcpDescriptor p (descriptor? fd)) :
    TcpOwned b' where
  descriptors := by
    rw [hos, hheld, descriptor?_of_ne (by omega)]
    exact h.descriptors.acquire hp hfd.2
  context ctx hmem := by
    rw [hos]
    exact h.context ctx (hctx' ▸ hmem)
  idle hnone := absurd (hctx' ▸ hnone) hctx
  misuse_eq := by rw [hos]; exact h.misuse_eq

/-- A descriptor is closed and its place emptied. -/
theorem TcpOwned.close (h : TcpOwned b) {p : Option (Fin maxTcpClients)} (fd : ℤ)
    (hp : b.tcpDescriptor p = some fd) (hctx' : b'.ctx_tcp = b.ctx_tcp)
    (hos : b'.os = b.os.close fd)
    (hheld : b'.tcpDescriptor = Function.update b.tcpDescriptor p (descriptor? (-1))) :
    TcpOwned b' where
  descriptors := by
    rw [hos, hheld, Os.descriptors_close, descriptor?_neg_one]
    exact h.descriptors.release hp
  context ctx hmem := by
    rw [hos, Os.contexts_close]
    exact h.context ctx (hctx' ▸ hmem)
  idle hnone q := by
    have hempty := h.idle (hctx' ▸ hnone) p
    simp [hp] at hempty
  misuse_eq := by
    rw [hos, Os.misuse_close _ (h.descriptors.mem hp)]
    exact h.misuse_eq

/-- A descriptor is opened and closed again. -/
theorem TcpOwned.open_close (h : TcpOwned b) (fd : ℤ) (hfd : fd ∉ b.os.descriptors)
    (hctx' : b'.ctx_tcp = b.ctx_tcp)
    (hos : b'.os = Os.close { b.os with descriptors := insert fd b.os.descriptors } fd)
    (hheld : b'.tcpDescriptor = b.tcpDescriptor) : TcpOwned b' where
  descriptors := by
    rw [hos, hheld, Os.descriptors_close, Finset.erase_insert hfd]
    exact h.descriptors
  context ctx hmem := by
    rw [hos, Os.contexts_close]
    exact h.context ctx (hctx' ▸ hmem)
  idle hnone := by
    rw [hheld]
    exact h.idle (hctx' ▸ hnone)
  misuse_eq := by
    rw [hos, Os.misuse_close _ (Finset.mem_insert_self fd _)]
    exact h.misuse_eq

/-- What a table of clients says follows from the invariant. -/
theorem TcpOwned.clientTable (h : TcpOwned b) (hcount : b.Counted) : ClientTable b := by
  have hclient (k : Fin maxTcpClients) (hk : b.tcp_conn_socks k ≠ -1) :
      b.tcpDescriptor (some k) = some (b.tcp_conn_socks k) := descriptor?_of_ne hk
  refine ⟨hcount, ?_, fun k l hk hkl => ?_, fun k hk hlisten => ?_, fun fd => ?_, h.misuse_eq⟩
  · have hle := card_occupied_le (-1) b.tcp_conn_socks
    rw [Fintype.card_fin] at hle
    rw [hcount]
    exact_mod_cast hle
  · have hl := hclient l (hkl ▸ hk)
    rw [← hkl] at hl
    exact Option.some.inj (h.descriptors.injective _ _ _ (hclient k hk) hl)
  · have hnone : b.tcpDescriptor none = some (b.tcp_conn_socks k) := by
      rw [ModbusBackend.tcpDescriptor, ← hlisten, descriptor?_of_ne hk]
    exact absurd (h.descriptors.injective _ _ _ (hclient k hk) hnone) (by simp)
  · rw [h.descriptors.mem_iff]
    constructor
    · rintro ⟨p, hp⟩
      cases p with
      | none =>
        obtain ⟨hne, rfl⟩ := descriptor?_eq_some_iff.mp hp
        exact ⟨hne, .inl rfl⟩
      | some k =>
        obtain ⟨hne, rfl⟩ := descriptor?_eq_some_iff.mp hp
        exact ⟨hne, .inr ⟨k, rfl⟩⟩
    · rintro ⟨hne, rfl | ⟨k, rfl⟩⟩
      · exact ⟨none, descriptor?_of_ne hne⟩
      · exact ⟨some k, descriptor?_of_ne hne⟩

end Rules

/-! ### The functions keep the invariant -/

section Functions

variable {b : ModbusBackend}

/-- The listening socket is closed. -/
protected theorem TcpOwned.closeListen (h : TcpOwned b) : TcpOwned b.closeListen := by
  by_cases hlisten : b.tcp_listen_sock = -1
  · have heq : b.closeListen = b := by
      rw [ModbusBackend.closeListen, if_neg (not_not.mpr hlisten), ← hlisten]
    rwa [heq]
  · refine h.close (p := none) b.tcp_listen_sock (descriptor?_of_ne hlisten) rfl ?_
      (tcpDescriptor_eq_update_listen rfl)
    simp [ModbusBackend.closeListen, hlisten]

/-- `modbus_tcp_accept` fails, possibly with the listening socket closed, or returns a new
descriptor. -/
theorem ModbusBackend.modbusTcpAccept_cases (b : ModbusBackend) (accept : Accept) :
    b.modbusTcpAccept accept = (-1, b.setSocket (-1)) ∨
    b.modbusTcpAccept accept = (-1, (b.setSocket (-1)).closeListen) ∨
    ∃ fd, (0 ≤ fd ∧ fd ∉ b.os.descriptors) ∧ b.modbusTcpAccept accept =
      (fd, { b.setSocket fd with
        os := { b.os with descriptors := insert fd b.os.descriptors } }) := by
  cases accept with
  | connection fd =>
    rcases b.os.openUnused_cases (some fd) with ⟨-, hopen⟩ | ⟨fd', ⟨⟨⟩, hfd⟩, hopen⟩
    · exact .inl (by simp only [modbusTcpAccept, hopen]; rfl)
    · exact .inr (.inr ⟨fd, hfd, by simp only [modbusTcpAccept, hopen]⟩)
  | failed => exact .inl rfl
  | failedClosing => exact .inr (.inl rfl)

/-- The adapter is initialised, or there is no context. -/
theorem tcpAdapterInit_cases (new : Bool) (listen : Option ℤ) (b : ModbusBackend) :
    (new = false ∧ tcpAdapterInit new listen b = (-1, { b with ctx_tcp := none })) ∨
    (new = true ∧ tcpAdapterInit new listen b = (-1, { b with
      ctx_tcp := none
      tcp_listen_sock := -1
      os := (b.os.newContext true).2.modbusFree (some { id := b.os.nextContext }) })) ∨
    (new = true ∧ ∃ fd, (0 ≤ fd ∧ fd ∉ b.os.descriptors) ∧
      tcpAdapterInit new listen b = (0, { b with
        ctx_tcp := some { id := b.os.nextContext }
        tcp_listen_sock := fd
        tcp_conn_socks := fun _ => -1
        tcp_conn_count := 0
        os := { (b.os.newContext true).2 with
          descriptors := insert fd b.os.descriptors } })) := by
  cases new with
  | false => exact .inl ⟨rfl, rfl⟩
  | true =>
    rcases (b.os.newContext true).2.openUnused_cases listen with
      ⟨-, hopen⟩ | ⟨fd, ⟨-, hfd⟩, hopen⟩
    · refine .inr (.inl ⟨rfl, ?_⟩)
      simp only [Os.newContext, if_true] at hopen
      simp [tcpAdapterInit, Os.newContext, hopen]
    · refine .inr (.inr ⟨rfl, fd, hfd, ?_⟩)
      have hne : fd ≠ -1 := by omega
      simp only [Os.newContext, if_true] at hopen
      simp [tcpAdapterInit, Os.newContext, hopen, hne]

/-- A back end that holds nothing. -/
theorem TcpOwned.of_idle (h : TcpOwned b) (hidle : ∀ p, b.tcpDescriptor p = none)
    {b' : ModbusBackend} (hctx : b'.ctx_tcp = none) (hheld : b'.tcpDescriptor = b.tcpDescriptor)
    (hdescriptors : b'.os.descriptors = b.os.descriptors) (hmisuse : b'.os.misuse = false) :
    TcpOwned b' where
  descriptors := by
    rw [hheld, hdescriptors]
    exact h.descriptors
  context := by simp [hctx]
  idle _ := by
    rw [hheld]
    exact hidle
  misuse_eq := hmisuse

/-- The adapter is initialised. -/
protected theorem TcpOwned.init (h : TcpOwned b) (hcount : b.Counted) (hctx : b.ctx_tcp = none)
    (new : Bool) (listen : Option ℤ) :
    TcpOwned (tcpAdapterInit new listen b).2 ∧ (tcpAdapterInit new listen b).2.Counted := by
  have hidle := h.idle hctx
  have hempty : b.os.descriptors = ∅ := h.descriptors.eq_empty hidle
  have hlisten : b.tcp_listen_sock = -1 := descriptor?_eq_none_iff.mp (hidle none)
  rcases tcpAdapterInit_cases new listen b with ⟨-, heq⟩ | ⟨-, heq⟩ | ⟨-, fd, hfd, heq⟩
  · rw [heq]
    exact ⟨h.of_idle hidle rfl rfl rfl h.misuse_eq, hcount⟩
  · rw [heq]
    refine ⟨h.of_idle hidle rfl ?_ (Os.descriptors_modbusFree _) ?_, hcount⟩
    · funext p
      cases p with
      | none => rw [ModbusBackend.tcpDescriptor, ModbusBackend.tcpDescriptor, hlisten]
      | some k => rfl
    · rw [Os.misuse_modbusFree _ (Finset.mem_insert_self _ _)]
      exact h.misuse_eq
  · rw [heq]
    refine ⟨⟨?_, ?_, by simp, h.misuse_eq⟩, by simp [ModbusBackend.Counted]⟩
    · have hheld : ModbusBackend.tcpDescriptor { b with
          ctx_tcp := some { id := b.os.nextContext }
          tcp_listen_sock := fd
          tcp_conn_socks := fun _ => -1
          tcp_conn_count := 0
          os := { (b.os.newContext true).2 with descriptors := insert fd b.os.descriptors } } =
          Function.update b.tcpDescriptor none (some fd) := by
        funext p
        cases p with
        | none => exact descriptor?_of_ne (show fd ≠ -1 by omega)
        | some k => simp [ModbusBackend.tcpDescriptor, ← hidle (some k)]
      rw [hheld]
      exact h.descriptors.acquire (hidle none) hfd.2
    · rintro _ ⟨⟩
      exact Finset.mem_insert_self _ _

/-- A client is accepted. -/
protected theorem TcpOwned.acceptClient (h : TcpOwned b) (hcount : b.Counted)
    (hctx : b.ctx_tcp ≠ none) (accept : Accept) :
    TcpOwned (tcpAdapterAcceptClient accept b).2 ∧
      (tcpAdapterAcceptClient accept b).2.Counted := by
  have hsocket (s : ℤ) : (b.setSocket s).ctx_tcp ≠ none := by
    simpa [ModbusBackend.setSocket] using hctx
  have hcases := b.modbusTcpAccept_cases accept
  rw [tcpAdapterAcceptClient]
  cases hslot : b.findFreeTcpClientSlot with
  | none =>
    rcases hcases with heq | heq | ⟨fd, hfd, heq⟩
    · simpa only [heq, ne_eq, not_true_eq_false, if_false] using ⟨h.setSocket _, hcount⟩
    · simpa only [heq, ne_eq, not_true_eq_false, if_false] using
        ⟨(h.setSocket _).closeListen, hcount⟩
    · have hne : fd ≠ -1 := by omega
      simp only [heq, ne_eq, hne, not_false_eq_true, if_true]
      exact ⟨(h.setSocket fd).open_close fd hfd.2 rfl rfl rfl, hcount⟩
  | some slot =>
    have hfree : b.tcp_conn_socks slot = -1 := by simpa using List.find?_some hslot
    rcases hcases with heq | heq | ⟨fd, hfd, heq⟩
    · simpa only [heq, if_true] using ⟨h.setSocket _, hcount⟩
    · simpa only [heq, if_true] using ⟨(h.setSocket _).closeListen, hcount⟩
    · have hne : fd ≠ -1 := by omega
      simp only [heq, hne, if_false]
      constructor
      · refine (h.setSocket fd).open (p := some slot) fd ?_ hfd (hsocket fd) rfl rfl
          (tcpDescriptor_eq_update_client slot fd rfl rfl)
        exact descriptor?_eq_none_iff.mpr hfree
      · rw [ModbusBackend.Counted] at hcount ⊢
        have hfill := card_occupied_fill hfree hne
        simp only [ModbusBackend.setSocket, hcount, hfill]
        norm_cast

/-- A client is served. -/
protected theorem TcpOwned.handleClient (h : TcpOwned b) (hcount : b.Counted) (client_index : ℤ)
    (r : Receive) (reply : Bool) :
    TcpOwned (tcpAdapterHandleClient client_index r reply b).2 ∧
      (tcpAdapterHandleClient client_index r reply b).2.Counted := by
  rw [tcpAdapterHandleClient]
  by_cases hindex : 0 ≤ client_index ∧ client_index < maxTcpClients
  · rw [dif_pos hindex]
    dsimp only
    split_ifs with hsock hreceived hreply herror
    · exact ⟨h, hcount⟩
    · exact ⟨(h.setSocket _).of_eq rfl rfl rfl, hcount⟩
    · exact ⟨(h.setSocket _).of_eq rfl rfl rfl, hcount⟩
    · refine ⟨(h.setSocket _).close (p := some _) _ (descriptor?_of_ne hsock) rfl rfl
        (tcpDescriptor_eq_update_client _ (-1) rfl rfl), ?_⟩
      rw [ModbusBackend.Counted] at hcount ⊢
      have hempty := card_occupied_empty hsock
      simp only [ModbusBackend.setSocket, hcount]
      omega
    · exact ⟨h.setSocket _, hcount⟩
  · rw [dif_neg hindex]
    exact ⟨h, hcount⟩

/-- The body of the loop that closes the clients. -/
protected theorem TcpOwned.closeClient (h : TcpOwned b) (k : Fin maxTcpClients) :
    TcpOwned (b.closeClient k) := by
  rw [ModbusBackend.closeClient]
  split_ifs with hk
  · exact h.close (p := some k) _ (descriptor?_of_ne hk) rfl rfl
      (tcpDescriptor_eq_update_client k (-1) rfl rfl)
  · exact h

theorem ModbusBackend.tcp_conn_socks_closeClient (b : ModbusBackend) (k : Fin maxTcpClients) :
    (b.closeClient k).tcp_conn_socks = Function.update b.tcp_conn_socks k (-1) := by
  rw [closeClient]
  split_ifs with hk
  · rfl
  · rw [not_not] at hk
    rw [← hk, Function.update_eq_self]

/-- When nothing is held, the context is freed and nothing is in use. -/
theorem TcpOwned.free_context (h : TcpOwned b) (hidle : ∀ p, b.tcpDescriptor p = none) :
    TcpOwned { b with os := b.os.modbusFree b.ctx_tcp, ctx_tcp := none } ∧
      (b.os.modbusFree b.ctx_tcp).descriptors = ∅ := by
  have hempty := h.descriptors.eq_empty hidle
  cases hctx : b.ctx_tcp with
  | none => exact ⟨h.of_idle hidle rfl rfl rfl h.misuse_eq, hempty⟩
  | some ctx =>
    have hdescriptors : (b.os.modbusFree (some ctx)).descriptors = b.os.descriptors :=
      Os.descriptors_modbusFree _
    refine ⟨h.of_idle hidle rfl rfl hdescriptors ?_, hdescriptors.trans hempty⟩
    exact (Os.misuse_modbusFree _ (h.context ctx hctx)).trans h.misuse_eq

/-- The clean-up closes everything. -/
protected theorem TcpOwned.cleanup (h : TcpOwned b) :
    TcpOwned (tcpAdapterCleanup b) ∧ (tcpAdapterCleanup b).Counted ∧
      (tcpAdapterCleanup b).os.descriptors = ∅ := by
  have hclients : TcpOwned (slots.foldl ModbusBackend.closeClient b) :=
    Runs.run_induction (P := TcpOwned) h (fun _ k h => h.closeClient k) slots
  have hsocks : (slots.foldl ModbusBackend.closeClient b).tcp_conn_socks = fun _ => -1 :=
    funext fun k => foldl_empty ModbusBackend.tcp_conn_socks_closeClient slots b
      (.inl (List.mem_finRange k))
  rw [tcpAdapterCleanup]
  generalize slots.foldl ModbusBackend.closeClient b = b₁ at hclients hsocks ⊢
  have hclosed : TcpOwned ({ b₁ with tcp_conn_count := 0 } : ModbusBackend).closeListen :=
    TcpOwned.closeListen (hclients.of_eq rfl rfl rfl)
  have hidle (p : Option (Fin maxTcpClients)) :
      ({ b₁ with tcp_conn_count := 0 } : ModbusBackend).closeListen.tcpDescriptor p = none := by
    cases p with
    | none => rfl
    | some k => simp [ModbusBackend.tcpDescriptor, ModbusBackend.closeListen, hsocks]
  obtain ⟨howned, hempty⟩ := hclosed.free_context hidle
  exact ⟨howned, by simp [ModbusBackend.Counted, ModbusBackend.closeListen, hsocks], hempty⟩

/-- **The invariant** is kept by every call. -/
protected theorem TcpOwned.tcpStep (h : TcpOwned b) (hcount : b.Counted) {call : TcpCall}
    (hcall : call.Allowed b) : TcpOwned (tcpStep b call) ∧ (tcpStep b call).Counted := by
  cases call with
  | init new listen => exact h.init hcount hcall new listen
  | acceptClient accept => exact h.acceptClient hcount hcall accept
  | handleClient client_index receive reply =>
    exact h.handleClient hcount client_index receive reply
  | cleanup => exact ⟨h.cleanup.1, h.cleanup.2.1⟩

/-- A new back end. -/
theorem tcpOwned_of_modbusBackendCreate {malloc : Bool}
    (h : modbusBackendCreate malloc = some b) : TcpOwned b ∧ b.Counted := by
  obtain ⟨hctx, -, hlisten, hcount, hsocks, hos, -⟩ := modbusBackendCreate_eq h
  have hidle (p : Option (Fin maxTcpClients)) : b.tcpDescriptor p = none := by
    cases p with
    | none => rw [ModbusBackend.tcpDescriptor, hlisten, descriptor?_neg_one]
    | some k => rw [ModbusBackend.tcpDescriptor, hsocks, descriptor?_neg_one]
  refine ⟨⟨?_, by simp [hctx], fun _ => hidle, by rw [hos]⟩, ?_⟩
  · rw [hos]
    exact .of_forall_eq_none hidle
  · simp [ModbusBackend.Counted, hcount, hsocks]

end Functions

/-- **The table of clients** agrees with the descriptors in use after every sequence of calls, and
after the clean-up nothing is in use. -/
theorem clientTable_run {malloc : Bool} {b : ModbusBackend}
    (hb : modbusBackendCreate malloc = some b) {calls : List TcpCall}
    (hcalls : Runs.StepsMeet tcpStep TcpCall.Allowed b calls) :
    ClientTable (Runs.run tcpStep b calls) ∧
      (tcpAdapterCleanup (Runs.run tcpStep b calls)).os.descriptors = ∅ := by
  have hrun : TcpOwned (Runs.run tcpStep b calls) ∧ (Runs.run tcpStep b calls).Counted :=
    Runs.run_of_stepsMeet (P := fun b => TcpOwned b ∧ b.Counted)
      (tcpOwned_of_modbusBackendCreate hb) (fun _ _ h hcall => h.1.tcpStep h.2 hcall) hcalls
  exact ⟨hrun.1.clientTable hrun.2, hrun.1.cleanup.2.2⟩

/-- Two clients connect, the first leaves, and another one gets its descriptor. -/
def threeClients : List TcpCall :=
  [.init true (some 3), .acceptClient (.connection 4), .acceptClient (.connection 5),
    .handleClient 0 { rc := -1 } false, .acceptClient (.connection 4)]

theorem clientTable_run_threeClients : ∃ b, modbusBackendCreate true = some b ∧
    ClientTable (Runs.run tcpStep b threeClients) ∧
      (tcpAdapterCleanup (Runs.run tcpStep b threeClients)).os.descriptors = ∅ :=
  ⟨_, rfl, clientTable_run (show modbusBackendCreate true = some _ from rfl) (by decide +kernel)⟩

end ModbusServer
