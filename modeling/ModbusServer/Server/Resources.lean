import ModbusServer.Foundation.Ownership
import ModbusServer.Foundation.Slots
import ModbusServer.Server.Blocks

/-!
# Contexts and descriptors of the server

Which variable holds which context and which descriptor. The blocks of the loop body that create
and free contexts, and open and close descriptors, keep every context and every descriptor in use in
exactly one variable, and the clean-up leaves nothing in use.

Source: `json-modbus-server.c`, lines 496–535, 553–577 and 579–660.

## Main definitions

* `ModbusServer.heldContext`, `ModbusServer.heldDescriptor`: what the variables hold.
* `ModbusServer.Owned`, `ModbusServer.Idle`: everything in use is held by one variable, and nothing
  is in use.

## Main results

* `ModbusServer.Owned.create`, `ModbusServer.Owned.free`, `ModbusServer.Owned.open`,
  `ModbusServer.Owned.close`: the rules for the calls.
* `ModbusServer.Owned.release`: the clean-up leaves nothing in use.
-/

namespace ModbusServer

open Ownership

/-! ### What the variables hold -/

/-- The variables that hold contexts: `ctx_tcp` and `ctx_rtu`. -/
inductive Link
  | tcp
  | rtu
  deriving DecidableEq

/-- The variables that hold descriptors: `tcp_listen_sock`, the slots of `tcp_conn_socks`, and the
context in `ctx_rtu`. -/
inductive Place
  | listen
  | client (k : Fin maxTcpClients)
  | rtu
  deriving DecidableEq

/-- The descriptor in a variable, which is -1 if there is none. -/
def descriptor? (fd : ℤ) : Option ℤ := if fd = -1 then none else some fd

/-- The context a variable holds, in a mode that uses it. -/
def heldContext (cfg : Config) (w : Server) : Link → Option ℕ
  | .tcp => if cfg.enable_tcp then w.ctx_tcp.map Ctx.id else none
  | .rtu => if cfg.enable_rtu then w.ctx_rtu.map Ctx.id else none

/-- The descriptor a variable holds, in a mode that uses it. -/
def heldDescriptor (cfg : Config) (w : Server) : Place → Option ℤ
  | .listen => if cfg.enable_tcp then descriptor? w.tcp_listen_sock else none
  | .client k => if cfg.enable_tcp then descriptor? (w.tcp_conn_socks k) else none
  | .rtu => if cfg.enable_rtu then w.ctx_rtu.bind fun ctx => descriptor? ctx.s else none

/-- Every context and every descriptor in use is held by exactly one variable, the contexts to come
are new, and nothing has been released twice. -/
structure Owned (cfg : Config) (w : Server) : Prop where
  contexts : Owns (heldContext cfg w) w.os.contexts
  descriptors : Owns (heldDescriptor cfg w) w.os.descriptors
  fresh : ∀ c ∈ w.os.contexts, c < w.os.nextContext
  misuse_eq : w.os.misuse = false

/-- Nothing is in use, there is no RTU context, and nothing has been released twice. -/
structure Idle (cfg : Config) (w : Server) : Prop where
  contexts_eq : w.os.contexts = ∅
  descriptors_eq : w.os.descriptors = ∅
  ctx_rtu_eq : cfg.enable_rtu = true → w.ctx_rtu = none
  misuse_eq : w.os.misuse = false

@[simp] theorem descriptor?_neg_one : descriptor? (-1) = none := rfl

theorem descriptor?_of_ne {fd : ℤ} (h : fd ≠ -1) : descriptor? fd = some fd := if_neg h

theorem descriptor?_eq_none_iff {fd : ℤ} : descriptor? fd = none ↔ fd = -1 := by
  rw [descriptor?]
  split_ifs with h
  · simp [h]
  · simp [h]

theorem descriptor?_eq_some_iff {fd fd' : ℤ} :
    descriptor? fd = some fd' ↔ fd ≠ -1 ∧ fd = fd' := by
  rw [descriptor?]
  split_ifs with h
  · simp [h]
  · simp [h]

section Rules

variable {cfg : Config} {w w' : Server}

theorem heldContext_eq (htcp : w'.ctx_tcp.map Ctx.id = w.ctx_tcp.map Ctx.id)
    (hrtu : w'.ctx_rtu.map Ctx.id = w.ctx_rtu.map Ctx.id) :
    heldContext cfg w' = heldContext cfg w := by
  funext l
  cases l with
  | tcp => simp only [heldContext, htcp]
  | rtu => simp only [heldContext, hrtu]

theorem heldContext_eq_update_tcp (henable : cfg.enable_tcp = true)
    (hrtu : w'.ctx_rtu = w.ctx_rtu) :
    heldContext cfg w' =
      Function.update (heldContext cfg w) .tcp (w'.ctx_tcp.map Ctx.id) := by
  funext l
  cases l with
  | tcp => rw [Function.update_self, heldContext, if_pos henable]
  | rtu => rw [Function.update_of_ne (by simp), heldContext, heldContext, hrtu]

theorem heldContext_eq_update_rtu (henable : cfg.enable_rtu = true)
    (htcp : w'.ctx_tcp = w.ctx_tcp) :
    heldContext cfg w' =
      Function.update (heldContext cfg w) .rtu (w'.ctx_rtu.map Ctx.id) := by
  funext l
  cases l with
  | tcp => rw [Function.update_of_ne (by simp), heldContext, heldContext, htcp]
  | rtu => rw [Function.update_self, heldContext, if_pos henable]

theorem heldDescriptor_eq (hlisten : w'.tcp_listen_sock = w.tcp_listen_sock)
    (hsocks : w'.tcp_conn_socks = w.tcp_conn_socks)
    (hrtu : (w'.ctx_rtu.bind fun ctx => descriptor? ctx.s) =
      w.ctx_rtu.bind fun ctx => descriptor? ctx.s) :
    heldDescriptor cfg w' = heldDescriptor cfg w := by
  funext p
  cases p with
  | listen => simp only [heldDescriptor, hlisten]
  | client k => simp only [heldDescriptor, hsocks]
  | rtu => simp only [heldDescriptor, hrtu]

theorem heldDescriptor_eq_update_listen (henable : cfg.enable_tcp = true)
    (hsocks : w'.tcp_conn_socks = w.tcp_conn_socks) (hrtu : w'.ctx_rtu = w.ctx_rtu) :
    heldDescriptor cfg w' =
      Function.update (heldDescriptor cfg w) .listen (descriptor? w'.tcp_listen_sock) := by
  funext p
  cases p with
  | listen => rw [Function.update_self, heldDescriptor, if_pos henable]
  | client k => rw [Function.update_of_ne (by simp), heldDescriptor, heldDescriptor, hsocks]
  | rtu => rw [Function.update_of_ne (by simp), heldDescriptor, heldDescriptor, hrtu]

theorem heldDescriptor_eq_update_client (henable : cfg.enable_tcp = true) (k : Fin maxTcpClients)
    (fd : ℤ) (hsocks : w'.tcp_conn_socks = Function.update w.tcp_conn_socks k fd)
    (hlisten : w'.tcp_listen_sock = w.tcp_listen_sock) (hrtu : w'.ctx_rtu = w.ctx_rtu) :
    heldDescriptor cfg w' =
      Function.update (heldDescriptor cfg w) (.client k) (descriptor? fd) := by
  funext p
  cases p with
  | listen => rw [Function.update_of_ne (by simp), heldDescriptor, heldDescriptor, hlisten]
  | client j =>
    rw [heldDescriptor, if_pos henable, hsocks]
    by_cases hj : j = k
    · rw [hj, Function.update_self, Function.update_self]
    · rw [Function.update_of_ne hj, Function.update_of_ne (by simpa using hj), heldDescriptor,
        if_pos henable]
  | rtu => rw [Function.update_of_ne (by simp), heldDescriptor, heldDescriptor, hrtu]

theorem heldDescriptor_eq_update_rtu (henable : cfg.enable_rtu = true)
    (hlisten : w'.tcp_listen_sock = w.tcp_listen_sock)
    (hsocks : w'.tcp_conn_socks = w.tcp_conn_socks) :
    heldDescriptor cfg w' = Function.update (heldDescriptor cfg w) .rtu
      (w'.ctx_rtu.bind fun ctx => descriptor? ctx.s) := by
  funext p
  cases p with
  | listen => rw [Function.update_of_ne (by simp), heldDescriptor, heldDescriptor, hlisten]
  | client k => rw [Function.update_of_ne (by simp), heldDescriptor, heldDescriptor, hsocks]
  | rtu => rw [Function.update_self, heldDescriptor, if_pos henable]

/-! ### The rules -/

/-- What does not touch the variables and what is in use. -/
theorem Owned.of_eq (h : Owned cfg w) (hos : w'.os = w.os)
    (hcontext : heldContext cfg w' = heldContext cfg w)
    (hdescriptor : heldDescriptor cfg w' = heldDescriptor cfg w) : Owned cfg w' where
  contexts := by rw [hos, hcontext]; exact h.contexts
  descriptors := by rw [hos, hdescriptor]; exact h.descriptors
  fresh := by rw [hos]; exact h.fresh
  misuse_eq := by rw [hos]; exact h.misuse_eq

/-- A descriptor is opened and closed again. -/
theorem Owned.open_close (h : Owned cfg w) (fd : ℤ) (hfd : fd ∉ w.os.descriptors)
    (hos : w'.os = Os.close { w.os with descriptors := insert fd w.os.descriptors } fd)
    (hcontext : heldContext cfg w' = heldContext cfg w)
    (hdescriptor : heldDescriptor cfg w' = heldDescriptor cfg w) : Owned cfg w' where
  contexts := by rw [hos, hcontext, Os.contexts_close]; exact h.contexts
  descriptors := by
    rw [hos, hdescriptor, Os.descriptors_close, Finset.erase_insert hfd]
    exact h.descriptors
  fresh := by rw [hos, Os.contexts_close, Os.nextContext_close]; exact h.fresh
  misuse_eq := by
    rw [hos, Os.misuse_close _ (Finset.mem_insert_self fd _)]
    exact h.misuse_eq

theorem Idle.of_eq (h : Idle cfg w) (hos : w'.os = w.os) (hrtu : w'.ctx_rtu = w.ctx_rtu) :
    Idle cfg w' := by
  refine ⟨?_, ?_, ?_, ?_⟩
  · rw [hos, h.contexts_eq]
  · rw [hos, h.descriptors_eq]
  · rw [hrtu]
    exact h.ctx_rtu_eq
  · rw [hos, h.misuse_eq]

/-- When the variables hold nothing, nothing is in use. -/
theorem Owned.idle (h : Owned cfg w) (hcontext : ∀ l, heldContext cfg w l = none)
    (hdescriptor : ∀ p, heldDescriptor cfg w p = none) : Idle cfg w where
  contexts_eq := h.contexts.eq_empty hcontext
  descriptors_eq := h.descriptors.eq_empty hdescriptor
  ctx_rtu_eq henable := by simpa [heldContext, henable] using hcontext .rtu
  misuse_eq := h.misuse_eq

/-- When nothing is in use, and the variables of TCP hold nothing, the invariant of a server with a
table holds as well. -/
theorem Idle.owned (h : Idle cfg w) (hcontext : heldContext cfg w .tcp = none)
    (hdescriptor : ∀ p, p ≠ .rtu → heldDescriptor cfg w p = none) : Owned cfg w where
  contexts := by
    rw [h.contexts_eq]
    refine .of_forall_eq_none fun l => ?_
    cases l with
    | tcp => exact hcontext
    | rtu => simpa [heldContext] using h.ctx_rtu_eq
  descriptors := by
    rw [h.descriptors_eq]
    refine .of_forall_eq_none fun p => ?_
    by_cases hp : p = .rtu
    · rw [hp, heldDescriptor]
      split_ifs with henable
      · rw [h.ctx_rtu_eq henable, Option.bind_none]
      · rfl
    · exact hdescriptor p hp
  fresh := by simp [h.contexts_eq]
  misuse_eq := h.misuse_eq

/-- A context is created in an empty variable. -/
theorem Owned.create (h : Owned cfg w) {l : Link} (hl : heldContext cfg w l = none)
    (hos : w'.os = (w.os.newContext true).2)
    (hcontext : heldContext cfg w' =
      Function.update (heldContext cfg w) l (some w.os.nextContext))
    (hdescriptor : heldDescriptor cfg w' = heldDescriptor cfg w) : Owned cfg w' where
  contexts := by
    rw [hos, hcontext]
    exact h.contexts.acquire hl fun hmem => absurd (h.fresh _ hmem) (lt_irrefl _)
  descriptors := by rw [hos, hdescriptor]; exact h.descriptors
  fresh c hc := by
    rw [hos] at hc ⊢
    rcases Finset.mem_insert.mp hc with rfl | hc
    · exact Nat.lt_succ_self _
    · exact Nat.lt_succ_of_lt (h.fresh c hc)
  misuse_eq := by rw [hos]; exact h.misuse_eq

/-- A context is freed and its variable emptied. -/
theorem Owned.free (h : Owned cfg w) {l : Link} (ctx : Ctx)
    (hl : heldContext cfg w l = some ctx.id) (hos : w'.os = w.os.modbusFree (some ctx))
    (hcontext : heldContext cfg w' = Function.update (heldContext cfg w) l none)
    (hdescriptor : heldDescriptor cfg w' = heldDescriptor cfg w) : Owned cfg w' where
  contexts := by
    rw [hos, hcontext, Os.contexts_modbusFree]
    exact h.contexts.release hl
  descriptors := by rw [hos, hdescriptor, Os.descriptors_modbusFree]; exact h.descriptors
  fresh c hc := by
    rw [hos, Os.contexts_modbusFree] at hc
    rw [hos, Os.nextContext_modbusFree]
    exact h.fresh c (Finset.mem_of_mem_erase hc)
  misuse_eq := by
    rw [hos, Os.misuse_modbusFree _ (h.contexts.mem hl)]
    exact h.misuse_eq

/-- A descriptor is opened into an empty variable. -/
theorem Owned.open (h : Owned cfg w) {p : Place} (fd : ℤ) (hp : heldDescriptor cfg w p = none)
    (hfd : 2 < fd ∧ fd ∉ w.os.descriptors)
    (hos : w'.os = { w.os with descriptors := insert fd w.os.descriptors })
    (hcontext : heldContext cfg w' = heldContext cfg w)
    (hdescriptor : heldDescriptor cfg w' =
      Function.update (heldDescriptor cfg w) p (descriptor? fd)) : Owned cfg w' where
  contexts := by rw [hos, hcontext]; exact h.contexts
  descriptors := by
    rw [hos, hdescriptor, descriptor?_of_ne (by omega)]
    exact h.descriptors.acquire hp hfd.2
  fresh := by rw [hos]; exact h.fresh
  misuse_eq := by rw [hos]; exact h.misuse_eq

/-- A descriptor is closed and its variable emptied. -/
theorem Owned.close (h : Owned cfg w) {p : Place} (fd : ℤ)
    (hp : heldDescriptor cfg w p = some fd) (hos : w'.os = w.os.close fd)
    (hcontext : heldContext cfg w' = heldContext cfg w)
    (hdescriptor : heldDescriptor cfg w' =
      Function.update (heldDescriptor cfg w) p (descriptor? (-1))) : Owned cfg w' where
  contexts := by rw [hos, hcontext, Os.contexts_close]; exact h.contexts
  descriptors := by
    rw [hos, hdescriptor, Os.descriptors_close, descriptor?_neg_one]
    exact h.descriptors.release hp
  fresh := by rw [hos, Os.contexts_close, Os.nextContext_close]; exact h.fresh
  misuse_eq := by
    rw [hos, Os.misuse_close _ (h.descriptors.mem hp)]
    exact h.misuse_eq

end Rules

/-! ### Releasing -/

section Release

variable {cfg : Config} {w w' : Server}

protected theorem Owned.closeClient (h : Owned cfg w) (henable : cfg.enable_tcp = true)
    (k : Fin maxTcpClients) : Owned cfg (closeClient w k) := by
  rw [closeClient]
  split_ifs with hk
  · refine h.close (p := .client k) (w.tcp_conn_socks k) ?_ rfl rfl ?_
    · rw [heldDescriptor, if_pos henable, descriptor?_of_ne hk]
    · exact heldDescriptor_eq_update_client henable k (-1) rfl rfl rfl
  · exact h

theorem tcp_conn_socks_closeClient (w : Server) (k : Fin maxTcpClients) :
    (closeClient w k).tcp_conn_socks = Function.update w.tcp_conn_socks k (-1) := by
  rw [closeClient]
  split_ifs with hk
  · rfl
  · rw [not_not] at hk
    rw [← hk, Function.update_eq_self]

/-- The loop that closes the clients empties all slots. -/
theorem tcp_conn_socks_foldl_closeClient (w : Server) (k : Fin maxTcpClients) :
    (slots.foldl closeClient w).tcp_conn_socks k = -1 :=
  Slots.foldl_empty tcp_conn_socks_closeClient slots w (.inl (List.mem_finRange k))

/-- The RTU context is closed and freed. -/
theorem Owned.dropRtu (h : Owned cfg w) (henable : cfg.enable_rtu = true) {ctx : Ctx}
    (hctx : w.ctx_rtu = some ctx) :
    Owned cfg { w with
      os := (w.os.modbusClose (some ctx)).modbusFree (some ctx)
      ctx_rtu := none } := by
  have hclosed : Owned cfg { w with
      os := w.os.modbusClose (some ctx)
      ctx_rtu := some { ctx with s := -1 } } := by
    by_cases hs : ctx.s = -1
    · have hsame : some { ctx with s := -1 } = w.ctx_rtu := by rw [hctx, ← hs]
      refine h.of_eq ?_ (heldContext_eq rfl (by rw [hsame]))
        (heldDescriptor_eq rfl rfl (by rw [hsame]))
      simp [Os.modbusClose, hs]
    · refine h.close (p := .rtu) ctx.s ?_ ?_ (heldContext_eq rfl (by simp [hctx]))
        (heldDescriptor_eq_update_rtu henable rfl rfl)
      · rw [heldDescriptor, if_pos henable, hctx, Option.bind_some, descriptor?_of_ne hs]
      · simp [Os.modbusClose, hs]
  refine hclosed.free (l := .rtu) ctx ?_ rfl (heldContext_eq_update_rtu henable rfl)
    (heldDescriptor_eq rfl rfl rfl)
  rw [heldContext, if_pos henable]
  rfl

theorem Owned.closeListen (h : Owned cfg w) (henable : cfg.enable_tcp = true) :
    Owned cfg { w with
      os := if w.tcp_listen_sock ≠ -1 then w.os.close w.tcp_listen_sock else w.os
      tcp_listen_sock := -1 } := by
  by_cases hlisten : w.tcp_listen_sock = -1
  · refine h.of_eq (by simp [hlisten]) rfl (heldDescriptor_eq ?_ rfl rfl)
    exact hlisten.symm
  · refine h.close (p := .listen) w.tcp_listen_sock ?_ (by simp [hlisten]) rfl
      (heldDescriptor_eq_update_listen henable rfl rfl)
    rw [heldDescriptor, if_pos henable, descriptor?_of_ne hlisten]

theorem Owned.freeTcp (h : Owned cfg w) (henable : cfg.enable_tcp = true) :
    Owned cfg { w with os := w.os.modbusFree w.ctx_tcp, ctx_tcp := none } := by
  cases hctx : w.ctx_tcp with
  | none => exact h.of_eq rfl (heldContext_eq (by simp [hctx]) rfl) rfl
  | some ctx =>
    refine h.free (l := .tcp) ctx ?_ rfl (heldContext_eq_update_tcp henable rfl) rfl
    rw [heldContext, if_pos henable, hctx, Option.map_some]

/-- The part of the clean-up for TCP leaves no TCP variable with anything in it. -/
protected theorem Owned.releaseTcp (h : Owned cfg w) (henable : cfg.enable_tcp = true) :
    Owned cfg (releaseTcp w) ∧ heldContext cfg (releaseTcp w) .tcp = none ∧
      ∀ p, p ≠ .rtu → heldDescriptor cfg (releaseTcp w) p = none := by
  have hclients : Owned cfg (slots.foldl closeClient w) :=
    Runs.run_induction (P := Owned cfg) h (fun w' k hw' => hw'.closeClient henable k) slots
  refine ⟨((hclients.closeListen henable).freeTcp henable).of_eq rfl rfl rfl, ?_, fun p hp => ?_⟩
  · simp [heldContext, releaseTcp]
  · cases p with
    | listen => simp [heldDescriptor, releaseTcp]
    | client k =>
      simp [heldDescriptor, releaseTcp, tcp_conn_socks_foldl_closeClient]
    | rtu => exact absurd rfl hp

protected theorem Owned.releaseRtu (h : Owned cfg w) (henable : cfg.enable_rtu = true) :
    Owned cfg (releaseRtu w) := by
  cases hctx : w.ctx_rtu with
  | none =>
    rw [releaseRtu, hctx]
    exact h.of_eq rfl (heldContext_eq rfl (by rw [hctx])) (heldDescriptor_eq rfl rfl (by rw [hctx]))
  | some ctx =>
    rw [releaseRtu, hctx]
    exact h.dropRtu henable hctx

/-- **The clean-up** leaves nothing in use. -/
protected theorem Owned.release (h : Owned cfg w) : Idle cfg (release cfg w) := by
  have htcp : Owned cfg (if cfg.enable_tcp then releaseTcp w else w) ∧
      heldContext cfg (if cfg.enable_tcp then releaseTcp w else w) .tcp = none ∧
      ∀ p, p ≠ .rtu →
        heldDescriptor cfg (if cfg.enable_tcp then releaseTcp w else w) p = none := by
    split_ifs with henable
    · exact h.releaseTcp henable
    · refine ⟨h, if_neg henable, fun p hp => ?_⟩
      cases p with
      | listen => exact if_neg henable
      | client k => exact if_neg henable
      | rtu => exact absurd rfl hp
  rw [release]
  generalize (if cfg.enable_tcp then releaseTcp w else w) = w₁ at htcp ⊢
  obtain ⟨hw₁, hcontext, hdescriptor⟩ := htcp
  by_cases henable : cfg.enable_rtu = true
  · rw [if_pos henable]
    refine ((hw₁.releaseRtu henable).idle (fun l => ?_) fun p => ?_).of_eq rfl rfl
    · cases l with
      | tcp => exact hcontext
      | rtu => simp [heldContext, releaseRtu]
    · cases p with
      | listen => exact hdescriptor .listen (by simp)
      | client k => exact hdescriptor (.client k) (by simp)
      | rtu => simp [heldDescriptor, releaseRtu]
  · rw [if_neg henable]
    refine (hw₁.idle (fun l => ?_) fun p => ?_).of_eq rfl rfl
    · cases l with
      | tcp => exact hcontext
      | rtu => exact if_neg henable
    · cases p with
      | listen => exact hdescriptor .listen (by simp)
      | client k => exact hdescriptor (.client k) (by simp)
      | rtu => exact if_neg henable

end Release

/-! ### Opening -/

section Open

variable {cfg : Config} {w : Server}

/-- Opening an RTU link. -/
protected theorem Owned.openRtu (h : Owned cfg w) (henable : cfg.enable_rtu = true)
    (hctx : w.ctx_rtu = none) (new fcntl : Bool) (offer : Option ℤ) :
    Owned cfg (openRtu new fcntl offer w).1 := by
  have hnone : heldContext cfg w .rtu = none := by simp [heldContext, hctx]
  have hnew : Owned cfg { w with
      ctx_rtu := some { id := w.os.nextContext }
      os := (w.os.newContext true).2 } := by
    refine h.create hnone rfl (heldContext_eq_update_rtu henable rfl) ?_
    exact heldDescriptor_eq rfl rfl (by rw [hctx]; rfl)
  rcases openRtu_cases w new fcntl offer with ⟨-, heq⟩ | ⟨-, -, heq⟩ | ⟨-, fd, hfd, heq⟩
  · rw [heq]
    exact h.of_eq rfl (heldContext_eq rfl (by rw [hctx])) (heldDescriptor_eq rfl rfl (by rw [hctx]))
  · rw [heq]
    refine hnew.free (l := .rtu) { id := w.os.nextContext } ?_ rfl
      (heldContext_eq_update_rtu henable rfl) ?_
    · rw [heldContext, if_pos henable, Option.map_some]
    · exact heldDescriptor_eq rfl rfl rfl
  · rw [heq]
    refine hnew.open (p := .rtu) fd ?_ hfd.2 rfl (heldContext_eq rfl rfl)
      (heldDescriptor_eq_update_rtu henable rfl rfl)
    simp [heldDescriptor]

/-- TCP comes up when nothing is in use. -/
theorem Idle.owned_listening (h : Idle cfg w) (henable : cfg.enable_tcp = true) {sock : ℤ}
    (hsock : 2 < sock) :
    Owned cfg { w with
      ctx_tcp := some { id := w.os.nextContext }
      tcp_listen_sock := sock
      tcp_conn_socks := fun _ => -1
      tcp_conn_count := 0
      os := { (w.os.newContext true).2 with descriptors := insert sock w.os.descriptors } } := by
  have hidle : Idle cfg { w with
      ctx_tcp := none
      tcp_listen_sock := -1
      tcp_conn_socks := fun _ => -1 } := h.of_eq rfl rfl
  have hempty := hidle.owned (by simp [heldContext]) fun p hp => by
    cases p with
    | listen => simp [heldDescriptor]
    | client k => simp [heldDescriptor]
    | rtu => exact absurd rfl hp
  have hcreated : Owned cfg { w with
      ctx_tcp := some { id := w.os.nextContext }
      tcp_listen_sock := -1
      tcp_conn_socks := fun _ => -1
      os := (w.os.newContext true).2 } :=
    hempty.create (l := .tcp) (by simp [heldContext]) rfl (heldContext_eq_update_tcp henable rfl)
      (heldDescriptor_eq rfl rfl rfl)
  refine hcreated.open (p := .listen) sock (by simp [heldDescriptor]) ⟨hsock, ?_⟩ rfl
    (heldContext_eq rfl rfl) (heldDescriptor_eq_update_listen henable rfl rfl)
  simp [Os.newContext, h.descriptors_eq]

end Open

/-! ### Serving -/

section Serve

variable {cfg : Config} {w w' : Server} {i : Input}

/-- `modbus_tcp_accept` leaves a descriptor or -1 in the context, and may close the listening
socket. -/
theorem modbusTcpAccept_cases (accept : Accept) (w : Server) : ∃ s : ℤ,
    modbusTcpAccept accept w = (-1, { w with ctx_tcp := w.ctx_tcp.map ({ · with s := s }) }) ∨
    ((2 < s ∧ s ∉ w.os.descriptors) ∧ modbusTcpAccept accept w =
      (s, { w with
        ctx_tcp := w.ctx_tcp.map ({ · with s := s })
        os := { w.os with descriptors := insert s w.os.descriptors } })) ∨
    modbusTcpAccept accept w =
      (-1, { w with
        ctx_tcp := w.ctx_tcp.map ({ · with s := s })
        os := w.os.close w.tcp_listen_sock
        tcp_listen_sock := -1 }) := by
  cases accept with
  | connection fd =>
    rcases w.os.openDescriptor_cases (some fd) with ⟨-, hopen⟩ | ⟨fd', ⟨⟨⟩, hfd⟩, hopen⟩
    · exact ⟨-1, .inl (by simp only [modbusTcpAccept, hopen])⟩
    · exact ⟨fd, .inr (.inl ⟨hfd, by simp only [modbusTcpAccept, hopen]⟩)⟩
  | failed => exact ⟨-1, .inl rfl⟩
  | failedClosing => exact ⟨-1, .inr (.inr rfl)⟩

/-- The descriptor in the TCP context does not matter. -/
theorem heldContext_eq_of_socket {s : ℤ} (htcp : w'.ctx_tcp = w.ctx_tcp.map ({ · with s := s }))
    (hrtu : w'.ctx_rtu = w.ctx_rtu) : heldContext cfg w' = heldContext cfg w := by
  refine heldContext_eq ?_ (by rw [hrtu])
  rw [htcp, Option.map_map]
  rfl

/-- What the block that accepts a connection does: nothing; or `modbus_tcp_accept` fails, possibly
with the listening socket closed; or the new descriptor is closed again, or put into a free slot. -/
inductive Accepting (cfg : Config) (w : Server) : Server → Prop
  | idle : Accepting cfg w w
  | failed (s : ℤ) : Accepting cfg w { w with ctx_tcp := w.ctx_tcp.map ({ · with s := s }) }
  | closing (henable : cfg.enable_tcp = true) (hlisten : w.tcp_listen_sock ≠ -1) (s : ℤ) :
    Accepting cfg w { w with
      ctx_tcp := w.ctx_tcp.map ({ · with s := s })
      os := w.os.close w.tcp_listen_sock
      tcp_listen_sock := -1 }
  | refused (fd : ℤ) (hfd : 2 < fd ∧ fd ∉ w.os.descriptors) :
    Accepting cfg w { w with
      ctx_tcp := w.ctx_tcp.map ({ · with s := fd })
      os := Os.close { w.os with descriptors := insert fd w.os.descriptors } fd }
  | connected (henable : cfg.enable_tcp = true) (fd : ℤ) (hfd : 2 < fd ∧ fd ∉ w.os.descriptors)
      (slot : Fin maxTcpClients) (hslot : w.tcp_conn_socks slot = -1) :
    Accepting cfg w { w with
      ctx_tcp := w.ctx_tcp.map ({ · with s := fd })
      os := { w.os with descriptors := insert fd w.os.descriptors }
      tcp_conn_socks := Function.update w.tcp_conn_socks slot fd
      tcp_conn_count := w.tcp_conn_count + 1 }

theorem accepting_acceptClient (cfg : Config) (i : Input) (fds : Finset ℤ) (w : Server) :
    Accepting cfg w (acceptClient cfg i fds w) := by
  rw [acceptClient]
  split_ifs with hlisten
  · obtain ⟨s, hcases⟩ := modbusTcpAccept_cases i.accept w
    cases hslot : findFreeTcpClientSlot w with
    | some slot =>
      rcases hcases with heq | ⟨hs, heq⟩ | heq
      · simpa only [heq, ne_eq, not_true_eq_false, if_false] using .failed s
      · -- the new descriptor goes into the free slot
        have hne : s ≠ -1 := by omega
        simp only [heq, ne_eq, hne, not_false_eq_true, if_true]
        exact .connected hlisten.1 s hs slot (by simpa using List.find?_some hslot)
      · simpa only [heq, ne_eq, not_true_eq_false, if_false] using
          .closing hlisten.1 hlisten.2.1 s
    | none =>
      rcases hcases with heq | ⟨hs, heq⟩ | heq
      · simpa only [heq, ne_eq, not_true_eq_false, if_false] using .failed s
      · have hne : s ≠ -1 := by omega
        simp only [heq, ne_eq, hne, not_false_eq_true, if_true]
        exact .refused s hs
      · simpa only [heq, ne_eq, not_true_eq_false, if_false] using
          .closing hlisten.1 hlisten.2.1 s
  · exact .idle

protected theorem Owned.acceptClient (h : Owned cfg w) (i : Input) (fds : Finset ℤ) :
    Owned cfg (acceptClient cfg i fds w) := by
  have haccept := accepting_acceptClient cfg i fds w
  generalize acceptClient cfg i fds w = w' at haccept ⊢
  cases haccept with
  | idle => exact h
  | failed s => exact h.of_eq rfl (heldContext_eq_of_socket rfl rfl) rfl
  | closing henable hlisten s =>
    refine h.close (p := .listen) w.tcp_listen_sock ?_ rfl (heldContext_eq_of_socket rfl rfl)
      (heldDescriptor_eq_update_listen henable rfl rfl)
    rw [heldDescriptor, if_pos henable, descriptor?_of_ne hlisten]
  | refused fd hfd => exact h.open_close fd hfd.2 rfl (heldContext_eq_of_socket rfl rfl) rfl
  | connected henable fd hfd slot hslot =>
    refine h.open (p := .client slot) fd ?_ hfd rfl (heldContext_eq_of_socket rfl rfl)
      (heldDescriptor_eq_update_client henable slot fd rfl rfl rfl)
    rw [heldDescriptor, if_pos henable, hslot, descriptor?_neg_one]

protected theorem Owned.handleClient (h : Owned cfg w) (henable : cfg.enable_tcp = true)
    (fds : Finset ℤ)
    (k : Fin maxTcpClients) : Owned cfg (handleClient i fds w k) := by
  rw [handleClient]
  dsimp only
  split_ifs with hready
  · exact h.of_eq rfl (heldContext_eq_of_socket rfl rfl) rfl
  · refine h.close (p := .client k) (w.tcp_conn_socks k) ?_ rfl (heldContext_eq_of_socket rfl rfl)
      (heldDescriptor_eq_update_client henable k (-1) rfl rfl rfl)
    rw [heldDescriptor, if_pos henable, descriptor?_of_ne hready.1]
  · exact h.of_eq rfl (heldContext_eq_of_socket rfl rfl) rfl
  · exact h

protected theorem Owned.handleClients (h : Owned cfg w) (i : Input) (fds : Finset ℤ) :
    Owned cfg (handleClients cfg i fds w) := by
  rw [handleClients]
  split_ifs with henable
  · exact Runs.run_induction (P := Owned cfg) h (fun w' k hw' => hw'.handleClient henable fds k)
      slots
  · exact h

protected theorem Owned.handleRtu (h : Owned cfg w) (i : Input) (fds : Finset ℤ) :
    Owned cfg (handleRtu cfg i fds w) := by
  rw [handleRtu]
  split
  · exact h
  · next ctx hctx =>
    split_ifs with hready
    · exact h.of_eq rfl rfl rfl
    · exact (h.dropRtu hready.1 hctx).of_eq rfl rfl rfl
    · exact h.of_eq rfl rfl rfl
    · exact h

protected theorem Owned.reconnect (h : Owned cfg w) (i : Input) :
    Owned cfg (reconnect cfg i w) := by
  have hsignal : Owned cfg (signalHandler i .reconnect w) := by
    rw [signalHandler_eq]
    exact h.of_eq rfl rfl rfl
  rw [reconnect]
  split_ifs with hlost
  · exact hsignal.openRtu hlost.1 (Option.isNone_iff_eq_none.mp hlost.2.1) _ _ _
  · exact hsignal

end Serve

end ModbusServer
