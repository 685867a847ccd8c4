import ModbusServer.Server.Resources

/-!
# The table of clients

Between the start of the server and its stop the counter of clients agrees with the table, and what
the variables hold is open. A start-up that is abandoned can lose descriptors, but what the
variables hold is open even then; only the slots are not yet valid: they are all zero before the
first start-up.

Source: `json-modbus-server.c`, lines 28–31, 496–551 and 579–661.

## Main definitions

* `ModbusServer.Attached`: what the variables hold is open, in different places.
* `ModbusServer.Tabled`: the invariant.

## Main results

* `ModbusServer.tabled_step`: the invariant is kept by every iteration.
* `ModbusServer.tabled_serverRun`: the invariant holds in every run.
-/

namespace ModbusServer

open Ownership Slots

/-! ### The invariant -/

/-- What the variables hold is in use and held by one variable, the RTU context is connected, and
the descriptors in use are none of the standard streams. -/
structure Attached (cfg : Config) (w : Server) : Prop where
  holds : Holds (heldDescriptor cfg w) w.os.descriptors
  linked : ∀ ctx, w.ctx_rtu = some ctx → cfg.enable_rtu = true ∧ ctx.s ≠ -1
  two_lt : ∀ fd ∈ w.os.descriptors, 2 < fd

/-- The server with a table of free slots. -/
def Server.withoutClients (w : Server) : Server := { w with tcp_conn_socks := fun _ => -1 }

/-- The counter of clients counts the occupied slots. -/
def Server.Counted (w : Server) : Prop :=
  w.tcp_conn_count = (occupied (-1) w.tcp_conn_socks).card

/-- With a table of registers what the variables hold is in use, and the clients are counted;
without one the slots do not count, and they are all zero or all free. -/
def Tabled (cfg : Config) (w : Server) : Prop :=
  (w.mb_mapping = none ∧ Attached cfg w.withoutClients ∧
    ((∀ k, w.tcp_conn_socks k = 0) ∨ ∀ k, w.tcp_conn_socks k = -1)) ∨
  (w.mb_mapping.isSome = true ∧ Attached cfg w ∧ w.Counted)

section Rules

variable {cfg : Config} {w w' : Server}

theorem Attached.of_eq (h : Attached cfg w) (hos : w'.os = w.os)
    (hheld : heldDescriptor cfg w' = heldDescriptor cfg w) (hrtu : w'.ctx_rtu = w.ctx_rtu) :
    Attached cfg w' where
  holds := by rw [hos, hheld]; exact h.holds
  linked := by rw [hrtu]; exact h.linked
  two_lt := by rw [hos]; exact h.two_lt

/-- A descriptor is opened and closed again. -/
theorem Attached.open_close (h : Attached cfg w) (fd : ℤ) (hfd : fd ∉ w.os.descriptors)
    (hos : w'.os = Os.close { w.os with descriptors := insert fd w.os.descriptors } fd)
    (hheld : heldDescriptor cfg w' = heldDescriptor cfg w) (hrtu : w'.ctx_rtu = w.ctx_rtu) :
    Attached cfg w' := by
  have hdescriptors : w'.os.descriptors = w.os.descriptors := by
    rw [hos, Os.descriptors_close, Finset.erase_insert hfd]
  exact ⟨by rw [hheld, hdescriptors]; exact h.holds, by rw [hrtu]; exact h.linked,
    by rw [hdescriptors]; exact h.two_lt⟩

/-- A descriptor is opened into a variable, which may lose another one. -/
theorem Attached.open (h : Attached cfg w) (p : Place) (fd : ℤ)
    (hfd : 2 < fd ∧ fd ∉ w.os.descriptors)
    (hdescriptors : w'.os.descriptors = insert fd w.os.descriptors)
    (hheld : heldDescriptor cfg w' =
      Function.update (heldDescriptor cfg w) p (descriptor? fd))
    (hlinked : ∀ ctx, w'.ctx_rtu = some ctx → cfg.enable_rtu = true ∧ ctx.s ≠ -1) :
    Attached cfg w' where
  holds := by
    rw [hdescriptors, hheld, descriptor?_of_ne (by omega)]
    exact h.holds.acquire hfd.2
  linked := hlinked
  two_lt fd' hfd' := by
    rw [hdescriptors] at hfd'
    rcases Finset.mem_insert.mp hfd' with rfl | hfd'
    · exact hfd.1
    · exact h.two_lt fd' hfd'

/-- A descriptor is closed and its variable emptied. -/
theorem Attached.close (h : Attached cfg w) {p : Place} (fd : ℤ)
    (hp : heldDescriptor cfg w p = some fd)
    (hdescriptors : w'.os.descriptors = w.os.descriptors.erase fd)
    (hheld : heldDescriptor cfg w' =
      Function.update (heldDescriptor cfg w) p (descriptor? (-1)))
    (hlinked : ∀ ctx, w'.ctx_rtu = some ctx → cfg.enable_rtu = true ∧ ctx.s ≠ -1) :
    Attached cfg w' where
  holds := by
    rw [hdescriptors, hheld, descriptor?_neg_one]
    exact h.holds.release hp
  linked := hlinked
  two_lt fd' hfd' := by
    rw [hdescriptors] at hfd'
    exact h.two_lt fd' (Finset.mem_of_mem_erase hfd')

/-- A variable is overwritten and loses its descriptor. -/
theorem Attached.forget (h : Attached cfg w) (p : Place)
    (hdescriptors : w'.os.descriptors = w.os.descriptors)
    (hheld : heldDescriptor cfg w' =
      Function.update (heldDescriptor cfg w) p (descriptor? (-1)))
    (hlinked : ∀ ctx, w'.ctx_rtu = some ctx → cfg.enable_rtu = true ∧ ctx.s ≠ -1) :
    Attached cfg w' where
  holds := by
    rw [hdescriptors, hheld, descriptor?_neg_one]
    exact h.holds.forget p
  linked := hlinked
  two_lt := by rw [hdescriptors]; exact h.two_lt

/-- What does not touch the variables, what is in use, and whether there is a table. -/
theorem Tabled.of_same (h : Tabled cfg w) (hsame : SameResources w w') : Tabled cfg w' := by
  have hrtu := hsame.ctx_rtu_eq
  rcases h with ⟨hnone, hattached, hslots⟩ | ⟨hsome, hattached, hcounted⟩
  · refine .inl ⟨?_,
      hattached.of_eq hsame.os_eq (heldDescriptor_eq hsame.listen_eq rfl ?_) hrtu, ?_⟩
    · rw [← Option.not_isSome_iff_eq_none, hsame.isSome_mapping, hnone]
      simp
    · exact congrArg (Option.bind · _) hrtu
    · rwa [hsame.socks_eq]
  · refine .inr ⟨hsame.isSome_mapping.trans hsome,
      hattached.of_eq hsame.os_eq (heldDescriptor_eq hsame.listen_eq hsame.socks_eq ?_) hrtu, ?_⟩
    · rw [hrtu]
    · rwa [Server.Counted, hsame.count_eq, hsame.socks_eq]

/-- A table of free slots. -/
theorem Attached.tabled (h : Attached cfg w) (hsocks : w.tcp_conn_socks = fun _ => -1)
    (hcount : w.tcp_conn_count = 0) : Tabled cfg w := by
  cases hmapping : w.mb_mapping with
  | none =>
    exact .inl ⟨hmapping, h.of_eq rfl (heldDescriptor_eq rfl hsocks.symm rfl) rfl,
      .inr fun k => congrFun hsocks k⟩
  | some mb =>
    exact .inr ⟨by rw [hmapping]; rfl, h, by rw [Server.Counted, hcount, hsocks]; simp⟩

end Rules

/-! ### Start-up -/

section Start

variable {cfg : Config} {w : Server}

theorem tcp_conn_socks_openRtu (new fcntl : Bool) (offer : Option ℤ) :
    (openRtu new fcntl offer w).1.tcp_conn_socks = w.tcp_conn_socks := by
  rcases openRtu_cases w new fcntl offer with ⟨-, heq⟩ | ⟨-, -, heq⟩ | ⟨-, fd, -, heq⟩
  all_goals rw [heq]

theorem tcp_conn_count_openRtu (new fcntl : Bool) (offer : Option ℤ) :
    (openRtu new fcntl offer w).1.tcp_conn_count = w.tcp_conn_count := by
  rcases openRtu_cases w new fcntl offer with ⟨-, heq⟩ | ⟨-, -, heq⟩ | ⟨-, fd, -, heq⟩
  all_goals rw [heq]

/-- An RTU link is opened; a link that was there before is lost. -/
protected theorem Attached.openRtu (h : Attached cfg w) (henable : cfg.enable_rtu = true)
    (new fcntl : Bool) (offer : Option ℤ) : Attached cfg (openRtu new fcntl offer w).1 := by
  rcases openRtu_cases w new fcntl offer with ⟨-, heq⟩ | ⟨-, -, heq⟩ | ⟨-, fd, hfd, heq⟩
  · rw [heq]
    exact h.forget .rtu rfl (heldDescriptor_eq_update_rtu henable rfl rfl) (by simp)
  · rw [heq]
    exact h.forget .rtu (Os.descriptors_modbusFree _)
      (heldDescriptor_eq_update_rtu henable rfl rfl) (by simp)
  · rw [heq]
    refine h.open .rtu fd hfd.2 rfl (heldDescriptor_eq_update_rtu henable rfl rfl) ?_
    rintro _ ⟨⟩
    exact ⟨henable, show fd ≠ -1 by omega⟩

/-- TCP comes up with a table of free slots, or the slots stay as they are. -/
protected theorem Attached.startTcp (h : Attached cfg w.withoutClients)
    (henable : cfg.enable_tcp = true) (i : Input) :
    ((startTcp cfg i w).2 = false ∧ Attached cfg (startTcp cfg i w).1.withoutClients ∧
      (startTcp cfg i w).1.tcp_conn_socks = w.tcp_conn_socks) ∨
    ((startTcp cfg i w).2 = true ∧ Attached cfg (startTcp cfg i w).1 ∧
      (startTcp cfg i w).1.tcp_conn_socks = (fun _ => -1) ∧
      (startTcp cfg i w).1.tcp_conn_count = 0) := by
  rcases startTcp_cases cfg i w with ⟨htcp, -⟩ | ⟨-, -, heq⟩ | ⟨-, -, -, heq⟩ |
    ⟨-, -, sock, hsock, heq⟩
  · simp [henable] at htcp
  · rw [heq]
    exact .inl ⟨rfl, h.of_eq rfl rfl rfl, rfl⟩
  · rw [heq]
    exact .inl ⟨rfl, h.forget .listen rfl (heldDescriptor_eq_update_listen henable rfl rfl)
      h.linked, rfl⟩
  · rw [heq]
    exact .inr ⟨rfl, h.open .listen sock hsock.2 rfl
      (heldDescriptor_eq_update_listen henable rfl rfl) h.linked, rfl, rfl⟩

/-- **The start-up block** leaves a table of registers with a table of free slots. -/
theorem Attached.tabled_startParts (h : Attached cfg w.withoutClients)
    (henable : cfg.enable_tcp = true) (hnone : w.mb_mapping = none)
    (hslots : (∀ k, w.tcp_conn_socks k = 0) ∨ ∀ k, w.tcp_conn_socks k = -1) (i : Input) :
    Tabled cfg (startParts cfg i w).1 := by
  rcases h.startTcp henable i with ⟨hno, htcp, hsocks⟩ | ⟨hup, htcp, hsocks, hcount⟩
  · have heq : startParts cfg i w = startTcp cfg i w := by
      rw [startParts, orContinue, if_neg (by simp [hno])]
    rw [heq]
    exact .inl ⟨by rw [mb_mapping_startTcp, hnone], htcp, by rwa [hsocks]⟩
  · have hrtu : Attached cfg (startRtu cfg i (startTcp cfg i w).1).1 ∧
        (startRtu cfg i (startTcp cfg i w).1).1.tcp_conn_socks = (fun _ => -1) ∧
        (startRtu cfg i (startTcp cfg i w).1).1.tcp_conn_count = 0 := by
      rw [startRtu]
      split_ifs with hrtu
      · exact ⟨htcp.openRtu hrtu _ _ _, by rw [tcp_conn_socks_openRtu, hsocks],
          by rw [tcp_conn_count_openRtu, hcount]⟩
      · exact ⟨htcp, hsocks, hcount⟩
    rcases startParts_cases cfg i w with ⟨hno, -⟩ | ⟨-, -, heq⟩ | ⟨-, -, heq⟩
    · simp [hup] at hno
    · rw [heq]
      exact hrtu.1.tabled hrtu.2.1 hrtu.2.2
    · rw [heq, startMapping]
      split_ifs
      · refine Attached.tabled ?_ hrtu.2.1 hrtu.2.2
        exact hrtu.1.of_eq rfl rfl rfl
      · exact hrtu.1.tabled hrtu.2.1 hrtu.2.2

end Start

/-! ### Stopping -/

section Stop

variable {cfg : Config} {w : Server}

theorem descriptors_closeClient_subset (w : Server) (k : Fin maxTcpClients) :
    (closeClient w k).os.descriptors ⊆ w.os.descriptors := by
  rw [closeClient]
  split_ifs
  · simpa using Finset.erase_subset _ _
  · exact Finset.Subset.refl _

theorem Os.descriptors_modbusFree_eq (os : Os) (ctx : Option Ctx) :
    (os.modbusFree ctx).descriptors = os.descriptors := by
  cases ctx with
  | none => rfl
  | some ctx => exact os.descriptors_modbusFree

theorem Os.descriptors_modbusClose_subset (os : Os) (ctx : Option Ctx) :
    (os.modbusClose ctx).descriptors ⊆ os.descriptors := by
  cases ctx with
  | none => exact Finset.Subset.refl _
  | some ctx =>
    rw [modbusClose]
    split_ifs
    · rw [descriptors_close]
      exact Finset.erase_subset _ _
    · exact Finset.Subset.refl _

theorem descriptors_releaseTcp_subset (w : Server) :
    (releaseTcp w).os.descriptors ⊆ w.os.descriptors := by
  have hclients : (slots.foldl closeClient w).os.descriptors ⊆ w.os.descriptors :=
    Runs.run_induction (P := fun w' => w'.os.descriptors ⊆ w.os.descriptors)
      (Finset.Subset.refl _)
      (fun w' k hw' => (descriptors_closeClient_subset w' k).trans hw') slots
  rw [releaseTcp]
  simp only [Os.descriptors_modbusFree_eq]
  split_ifs
  · rw [Os.descriptors_close]
    exact (Finset.erase_subset _ _).trans hclients
  · exact hclients

/-- The clean-up opens nothing. -/
theorem descriptors_release_subset (cfg : Config) (w : Server) :
    (release cfg w).os.descriptors ⊆ w.os.descriptors := by
  have htcp : (if cfg.enable_tcp then releaseTcp w else w).os.descriptors ⊆ w.os.descriptors := by
    split_ifs
    · exact descriptors_releaseTcp_subset w
    · exact Finset.Subset.refl _
  rw [release]
  generalize (if cfg.enable_tcp then releaseTcp w else w) = w₁ at htcp ⊢
  have hrtu : (releaseRtu w₁).os.descriptors ⊆ w₁.os.descriptors := by
    rw [releaseRtu]
    simp only [Os.descriptors_modbusFree_eq]
    exact Os.descriptors_modbusClose_subset _ _
  by_cases henable : cfg.enable_rtu = true
  · rw [if_pos henable]
    exact hrtu.trans htcp
  · rw [if_neg henable]
    exact htcp

theorem ctx_rtu_releaseTcp (w : Server) : (releaseTcp w).ctx_rtu = w.ctx_rtu := by
  have hbody (w : Server) (k : Fin maxTcpClients) : (closeClient w k).ctx_rtu = w.ctx_rtu := by
    rw [closeClient]
    split_ifs <;> rfl
  exact Runs.run_frame hbody slots

/-- **The clean-up** leaves nothing in the variables. -/
theorem Attached.tabled_release (h : Attached cfg w) (henable : cfg.enable_tcp = true) :
    Tabled cfg (release cfg w) := by
  have hlisten : (release cfg w).tcp_listen_sock = -1 := by
    rw [release, if_pos henable]
    split_ifs <;> rfl
  have hsocks : (release cfg w).tcp_conn_socks = fun _ => -1 := by
    have hclients : (releaseTcp w).tcp_conn_socks = fun _ => -1 :=
      funext fun k => tcp_conn_socks_foldl_closeClient w k
    rw [release, if_pos henable]
    split_ifs
    · exact hclients
    · exact hclients
  have hcount : (release cfg w).tcp_conn_count = 0 := by
    rw [release, if_pos henable]
    split_ifs <;> rfl
  have hrtu : (release cfg w).ctx_rtu = none := by
    rw [release, if_pos henable]
    split_ifs with hrtu
    · rfl
    · have hclients : (releaseTcp w).ctx_rtu = w.ctx_rtu := ctx_rtu_releaseTcp w
      refine hclients.trans (Option.eq_none_iff_forall_ne_some.mpr fun ctx hctx => ?_)
      exact absurd (h.linked ctx hctx).1 hrtu
  refine Attached.tabled ⟨.of_forall_eq_none fun p => ?_, by simp [hrtu], fun fd hfd => ?_⟩ hsocks
    hcount
  · cases p with
    | listen => simp [heldDescriptor, hlisten]
    | client k => simp [heldDescriptor, hsocks]
    | rtu => simp [heldDescriptor, hrtu]
  · exact h.two_lt fd (descriptors_release_subset cfg w hfd)

end Stop

/-! ### Serving -/

section Serve

variable {cfg : Config} {w : Server} {i : Input}

/-- A connection is accepted. -/
protected theorem Attached.acceptClient (h : Attached cfg w) (hcounted : w.Counted) (i : Input)
    (fds : Finset ℤ) :
    Attached cfg (acceptClient cfg i fds w) ∧ (acceptClient cfg i fds w).Counted := by
  have haccept := accepting_acceptClient cfg i fds w
  generalize acceptClient cfg i fds w = w' at haccept ⊢
  cases haccept with
  | idle => exact ⟨h, hcounted⟩
  | failed s => exact ⟨h.of_eq rfl rfl rfl, hcounted⟩
  | closing henable hlisten s =>
    refine ⟨h.close (p := .listen) w.tcp_listen_sock ?_ (Os.descriptors_close _)
      (heldDescriptor_eq_update_listen henable rfl rfl) h.linked, hcounted⟩
    rw [heldDescriptor, if_pos henable, descriptor?_of_ne hlisten]
  | refused fd hfd => exact ⟨h.open_close fd hfd.2 rfl rfl rfl, hcounted⟩
  | connected henable fd hfd slot hslot =>
    refine ⟨h.open (.client slot) fd hfd rfl
      (heldDescriptor_eq_update_client henable slot fd rfl rfl rfl) h.linked, ?_⟩
    have hfill := card_occupied_fill hslot (show fd ≠ -1 by omega)
    rw [Server.Counted] at hcounted ⊢
    simp only [hcounted, hfill]
    norm_cast

/-- A client is served. -/
protected theorem Attached.handleClient (h : Attached cfg w) (hcounted : w.Counted)
    (henable : cfg.enable_tcp = true) (fds : Finset ℤ) (k : Fin maxTcpClients) :
    Attached cfg (handleClient i fds w k) ∧ (handleClient i fds w k).Counted := by
  rw [handleClient]
  dsimp only
  split_ifs with hready hreceived herror
  · exact ⟨h.of_eq rfl rfl rfl, hcounted⟩
  · refine ⟨h.close (p := .client k) (w.tcp_conn_socks k) ?_ (Os.descriptors_close _)
      (heldDescriptor_eq_update_client henable k (-1) rfl rfl rfl) h.linked, ?_⟩
    · rw [heldDescriptor, if_pos henable, descriptor?_of_ne hready.1]
    · have hempty := card_occupied_empty hready.1
      rw [Server.Counted] at hcounted ⊢
      simp only [hcounted]
      omega
  · exact ⟨h.of_eq rfl rfl rfl, hcounted⟩
  · exact ⟨h, hcounted⟩

protected theorem Attached.handleClients (h : Attached cfg w) (hcounted : w.Counted)
    (henable : cfg.enable_tcp = true) (fds : Finset ℤ) :
    Attached cfg (handleClients cfg i fds w) ∧ (handleClients cfg i fds w).Counted := by
  rw [handleClients, if_pos henable]
  exact Runs.run_induction (P := fun w => Attached cfg w ∧ w.Counted) ⟨h, hcounted⟩
    (fun w' k hw' => hw'.1.handleClient hw'.2 henable fds k) slots

/-- The RTU link is served, and dropped on an error. -/
protected theorem Attached.handleRtu (h : Attached cfg w) (hcounted : w.Counted)
    (fds : Finset ℤ) :
    Attached cfg (handleRtu cfg i fds w) ∧ (handleRtu cfg i fds w).Counted := by
  rw [handleRtu]
  split
  · exact ⟨h, hcounted⟩
  · next ctx hctx =>
    dsimp only
    split_ifs with hready hreceived herror
    · exact ⟨h.of_eq rfl rfl rfl, hcounted⟩
    · refine ⟨h.close (p := .rtu) ctx.s ?_ ?_ (heldDescriptor_eq_update_rtu hready.1 rfl rfl)
        (by simp), hcounted⟩
      · rw [heldDescriptor, if_pos hready.1, hctx, Option.bind_some, descriptor?_of_ne hready.2.1]
      · simp [Os.modbusClose, hready.2.1]
    · exact ⟨h.of_eq rfl rfl rfl, hcounted⟩
    · exact ⟨h, hcounted⟩

protected theorem Attached.reconnect (h : Attached cfg w) (hcounted : w.Counted) (i : Input) :
    Attached cfg (reconnect cfg i w) ∧ (reconnect cfg i w).Counted := by
  have hsignal : Attached cfg (signalHandler i .reconnect w) ∧
      (signalHandler i .reconnect w).Counted := by
    rw [signalHandler_eq]
    exact ⟨h.of_eq rfl rfl rfl, hcounted⟩
  rw [reconnect]
  split_ifs with hlost
  · refine ⟨hsignal.1.openRtu hlost.1 _ _ _, ?_⟩
    rw [Server.Counted, tcp_conn_count_openRtu, tcp_conn_socks_openRtu]
    exact hsignal.2
  · exact hsignal

end Serve

/-! ### Iterations -/

section Iterations

variable {cfg : Config} {w : Server} {i : Input}

protected theorem Tabled.signalHandler (h : Tabled cfg w) (i : Input) (p : Point) :
    Tabled cfg (signalHandler i p w) :=
  h.of_same (sameResources_signalHandler i p w)

protected theorem Tabled.startup (h : Tabled cfg w) (henable : cfg.enable_tcp = true) (i : Input) :
    Tabled cfg (startup cfg i w).1 := by
  rcases startup_cases cfg i w with ⟨-, heq⟩ | ⟨⟨-, hnone⟩, heq⟩
  · rw [heq]
    exact h.signalHandler i .startup
  · rw [heq]
    rcases h.signalHandler i .startup with ⟨hnone', hattached, hslots⟩ | ⟨hsome, -⟩
    · have hentered : Attached cfg ({ signalHandler i .startup w with
          trace := (signalHandler i .startup w).trace ++ [.startup] } : Server).withoutClients :=
        hattached.of_eq rfl rfl rfl
      exact hentered.tabled_startParts henable hnone' hslots i
    · exact absurd hsome (by rw [mb_mapping_signalHandler, hnone]; simp)

protected theorem Tabled.stopServer (h : Tabled cfg w) (henable : cfg.enable_tcp = true)
    (i : Input) : Tabled cfg (stopServer cfg i w) := by
  rw [stopServer]
  split_ifs with hstop
  · rcases h.signalHandler i .stop with ⟨hnone, -⟩ | ⟨-, hattached, -⟩
    · exact absurd hstop.2 (by rw [hnone]; simp)
    · exact (hattached.tabled_release henable).of_same ⟨rfl, rfl, rfl, rfl, rfl, rfl, rfl⟩
  · exact h.signalHandler i .stop

protected theorem Tabled.finish (h : Tabled cfg w) (henable : cfg.enable_tcp = true) :
    Tabled cfg (finish cfg w) := by
  rw [finish]
  rcases h with ⟨hnone, hattached, hslots⟩ | ⟨hsome, hattached, -⟩
  · rw [if_neg (by simp [hnone])]
    exact .inl ⟨hnone, hattached.of_eq rfl rfl rfl, hslots⟩
  · rw [if_pos hsome]
    exact (hattached.tabled_release henable).of_same ⟨rfl, rfl, rfl, rfl, rfl, rfl, rfl⟩

/-- The connections are served with a table. -/
protected theorem Tabled.connections (h : Tabled cfg w) (henable : cfg.enable_tcp = true)
    (i : Input) (fds : Finset ℤ)
    (htable : w.flags.server_state = .running → w.mb_mapping.isSome = true) :
    Tabled cfg (connections cfg i fds w) := by
  rcases connections_ways cfg i w fds htable with heq | ⟨hsome, heq⟩
  · rw [heq]
    exact h.signalHandler i .connections
  · rw [heq]
    rcases h.signalHandler i .connections with ⟨hnone, -⟩ | ⟨-, hattached, hcounted⟩
    · exact absurd hsome (by rw [hnone]; simp)
    · obtain ⟨haccept, hcounted⟩ := hattached.acceptClient hcounted i fds
      obtain ⟨hclients, hcounted⟩ := haccept.handleClients hcounted henable fds
      obtain ⟨hrtu, hcounted⟩ := hclients.handleRtu hcounted fds
      exact .inr ⟨isSome_reconnect_serve cfg i _ fds hsome, hrtu.reconnect hcounted i⟩

/-- **The invariant** is kept by every iteration. -/
theorem tabled_step (h : Tabled cfg w) (henable : cfg.enable_tcp = true) (i : Input) :
    Tabled cfg (step cfg w i) := by
  have hblocks : Preserved cfg i (Tabled cfg) :=
    { signal := fun p w h => h.signalHandler i p
      stdin := fun s w h => h.of_same ⟨rfl, rfl, rfl, rfl, rfl, rfl, rfl⟩
      watch := fun fds w h => h.of_same (sameResources_watch w fds)
      commands := fun fds w h => h.of_same (sameResources_commands cfg i fds w)
      startup := fun w h => h.startup henable i
      stop := fun w h => h.stopServer henable i
      connections := fun fds w h htable => h.connections henable i fds htable
      finish := fun w h => h.finish henable }
  exact hblocks.step h

theorem tabled_initial (cfg : Config) (ahead : ℕ) : Tabled cfg (initial ahead) := by
  refine .inl ⟨rfl, ⟨.of_forall_eq_none fun p => ?_, by simp [initial, Server.withoutClients], ?_⟩,
    .inl fun _ => rfl⟩
  · cases p with
    | listen => simp [heldDescriptor, initial, Server.withoutClients]
    | client k => simp [heldDescriptor, Server.withoutClients]
    | rtu => simp [heldDescriptor, initial, Server.withoutClients]
  · simp [initial, Server.withoutClients]

theorem tabled_serverRun (henable : cfg.enable_tcp = true) (ahead : ℕ) (inputs : List Input) :
    Tabled cfg (serverRun cfg ahead inputs) :=
  Runs.run_induction (tabled_initial cfg ahead) (fun _ i h => tabled_step h henable i) inputs

end Iterations

end ModbusServer
