import ModbusServer.Server.Clients

/-!
# Polling and serving

`select` is given everything that the variables hold and that an `fd_set` has room for, and only
what it reports is served. What is opened between `select` and the blocks that serve was not in use
before, so `select` has not reported it. The program never compares a descriptor with `FD_SETSIZE`:
one that is too large is put into a slot, and is never served.

Source: `json-modbus-server.c`, lines 440–483 and 579–661.

## Main definitions

* `ModbusServer.ClientsAgree`: the table of clients at the head of the loop, and what is polled.
* `ModbusServer.Input.Gives`: a descriptor that the environment gives out.
* `ModbusServer.accepted`: the state when the loop over the clients begins.
* `ModbusServer.ReceivesReady`: the calls of `modbus_receive` in an iteration.

## Main results

* `ModbusServer.Server.All.step`: what all descriptors given out have in common.
* `ModbusServer.clients_run`: when polling and serving agree in every run.
-/

namespace ModbusServer

open Ownership Slots

/-! ### What is polled -/

/-- The set and the bound that an iteration gives to `select`. -/
def selectArgs (cfg : Config) (w : Server) (i : Input) : Finset ℤ × ℤ :=
  (beforeSelect cfg i (signalHandler i .head w)).2

/-- A variable holds the descriptor: the listening socket, a slot, or the context of the RTU
link. -/
def Server.Holding (w : Server) (fd : ℤ) : Prop :=
  (w.tcp_listen_sock = fd ∧ fd ≠ -1) ∨ (∃ k, w.tcp_conn_socks k = fd ∧ fd ≠ -1) ∨
    ∃ ctx, w.ctx_rtu = some ctx ∧ ctx.s = fd

/-- The counter of clients is the number of occupied slots and at most the size of the table, the
slots hold different descriptors in use, and a running server polls everything that the variables
hold. -/
structure ClientsAgree (cfg : Config) (w : Server) : Prop where
  count_eq : w.tcp_conn_count = (occupied (-1) w.tcp_conn_socks).card
  count_le : w.tcp_conn_count ≤ maxTcpClients
  injective : ∀ k l, w.tcp_conn_socks k ≠ -1 → w.tcp_conn_socks k = w.tcp_conn_socks l → k = l
  mem_descriptors : ∀ k, w.tcp_conn_socks k ≠ -1 → w.tcp_conn_socks k ∈ w.os.descriptors
  polled : ∀ i, (atSelect cfg w i).flags.server_state = .running → ∀ fd, w.Holding fd →
    fd ∈ (selectArgs cfg w i).1 ∧ fd < (selectArgs cfg w i).2

section Polled

variable {cfg : Config} {w : Server} {fd : ℤ}

theorem mem_watched (henable : cfg.enable_tcp = true)
    (hlinked : ∀ ctx, w.ctx_rtu = some ctx → cfg.enable_rtu = true ∧ ctx.s ≠ -1)
    (hrunning : w.flags.server_state = .running) (hfd : w.Holding fd) : fd ∈ watched cfg w := by
  rw [watched, if_pos hrunning]
  simp only [henable, true_and, if_true, Finset.mem_insert, Finset.mem_union]
  right
  rcases hfd with ⟨rfl, hne⟩ | ⟨k, rfl, hne⟩ | ⟨ctx, hctx, rfl⟩
  · exact .inl (.inl (by simp [hne]))
  · exact .inl (.inr (by simp [hne]))
  · exact .inr (by simp [hctx, hlinked ctx hctx])

/-- The largest of the slots. -/
theorem le_foldl_max {ι : Type*} (f : ι → ℤ) (l : List ι) (m : ℤ) :
    m ≤ l.foldl (fun m k => max m (f k)) m ∧ ∀ k ∈ l, f k ≤ l.foldl (fun m k => max m (f k)) m := by
  induction l generalizing m with
  | nil => simp
  | cons j l ih =>
    obtain ⟨hm, hl⟩ := ih (max m (f j))
    refine ⟨(le_max_left _ _).trans hm, fun k hk => ?_⟩
    rcases List.mem_cons.mp hk with rfl | hk
    · exact (le_max_right _ _).trans hm
    · exact hl k hk

theorem le_maxfd (henable : cfg.enable_tcp = true)
    (hlinked : ∀ ctx, w.ctx_rtu = some ctx → cfg.enable_rtu = true ∧ ctx.s ≠ -1)
    (hrunning : w.flags.server_state = .running) (hfd : w.Holding fd) : fd ≤ maxfd cfg w := by
  obtain ⟨hlisten, hslots⟩ := le_foldl_max w.tcp_conn_socks slots (max 0 w.tcp_listen_sock)
  have htcp : ∀ fd, (w.tcp_listen_sock = fd ∧ fd ≠ -1) ∨
      (∃ k, w.tcp_conn_socks k = fd ∧ fd ≠ -1) →
      fd ≤ slots.foldl (fun m k => max m (w.tcp_conn_socks k)) (max 0 w.tcp_listen_sock) := by
    rintro _ (⟨rfl, -⟩ | ⟨k, rfl, -⟩)
    · exact (le_max_right _ _).trans hlisten
    · exact hslots k (List.mem_finRange k)
  rw [maxfd, if_pos hrunning]
  simp only [henable, if_true]
  cases hctx : w.ctx_rtu with
  | none =>
    refine htcp fd ?_
    simpa [Server.Holding, hctx] using hfd
  | some ctx =>
    simp only [(hlinked ctx hctx).1, if_true]
    rcases hfd with hfd | hfd | ⟨ctx', hctx', rfl⟩
    · exact le_max_of_le_left (htcp fd (.inl hfd))
    · exact le_max_of_le_left (htcp fd (.inr hfd))
    · obtain rfl : ctx = ctx' := Option.some.inj (hctx.symm.trans hctx')
      exact le_max_right _ _

/-- What is watched is the standard input, or held by a variable. -/
theorem holding_of_mem_watched (hfd : fd ∈ watched cfg w) : fd = 0 ∨ w.Holding fd := by
  rw [watched] at hfd
  by_cases hrunning : w.flags.server_state = .running
  · rw [if_pos hrunning] at hfd
    simp only [Finset.mem_insert, Finset.mem_union] at hfd
    rcases hfd with rfl | (hlisten | hclient) | hrtu
    · exact .inl rfl
    · split_ifs at hlisten with h
      · obtain rfl := Finset.mem_singleton.mp hlisten
        exact .inr (.inl ⟨rfl, h.2⟩)
      · simp at hlisten
    · split_ifs at hclient
      · obtain ⟨hmem, hne⟩ := Finset.mem_filter.mp hclient
        obtain ⟨k, -, hk⟩ := Finset.mem_image.mp hmem
        exact .inr (.inr (.inl ⟨k, hk, hne⟩))
      · simp at hclient
    · cases hctx : w.ctx_rtu with
      | none => simp [hctx] at hrtu
      | some ctx =>
        rw [hctx] at hrtu
        dsimp only at hrtu
        split_ifs at hrtu
        · exact .inr (.inr (.inr ⟨ctx, hctx, (Finset.mem_singleton.mp hrtu).symm⟩))
        · simp at hrtu
  · rw [if_neg hrunning] at hfd
    exact .inl (Finset.mem_singleton.mp hfd)

theorem Attached.mem_listen (h : Attached cfg w) (henable : cfg.enable_tcp = true)
    (hne : w.tcp_listen_sock ≠ -1) : w.tcp_listen_sock ∈ w.os.descriptors :=
  h.holds.mem .listen _ (by rw [heldDescriptor, if_pos henable, descriptor?_of_ne hne])

theorem Attached.mem_client (h : Attached cfg w) (henable : cfg.enable_tcp = true)
    {k : Fin maxTcpClients} (hne : w.tcp_conn_socks k ≠ -1) :
    w.tcp_conn_socks k ∈ w.os.descriptors :=
  h.holds.mem (.client k) _ (by rw [heldDescriptor, if_pos henable, descriptor?_of_ne hne])

theorem Attached.mem_rtu (h : Attached cfg w) {ctx : Ctx} (hctx : w.ctx_rtu = some ctx) :
    ctx.s ∈ w.os.descriptors := by
  obtain ⟨henable, hne⟩ := h.linked ctx hctx
  exact h.holds.mem .rtu _ (by
    rw [heldDescriptor, if_pos henable, hctx, Option.bind_some, descriptor?_of_ne hne])

/-- What a variable holds is in use; the slots may be zero before the first start-up. -/
theorem Tabled.mem_descriptors (h : Tabled cfg w) (henable : cfg.enable_tcp = true)
    (hfd : w.Holding fd) : fd = 0 ∨ fd ∈ w.os.descriptors := by
  rcases h with ⟨-, hattached, hslots⟩ | ⟨-, hattached, -⟩
  · rcases hfd with ⟨rfl, hne⟩ | ⟨k, rfl, hne⟩ | ⟨ctx, hctx, rfl⟩
    · exact .inr (hattached.mem_listen henable hne)
    · rcases hslots with hzero | hfree
      · exact .inl (hzero k)
      · exact absurd (hfree k) hne
    · exact .inr (hattached.mem_rtu hctx)
  · rcases hfd with ⟨rfl, hne⟩ | ⟨k, rfl, hne⟩ | ⟨ctx, hctx, rfl⟩
    · exact .inr (hattached.mem_listen henable hne)
    · exact .inr (hattached.mem_client henable hne)
    · exact .inr (hattached.mem_rtu hctx)

end Polled

section Heads

variable {cfg : Config} {w : Server} {i : Input} {fd : ℤ}

/-- What `select` reports is the standard input or was in use when it was called. -/
theorem mem_descriptors_of_mem_ready (h : Tabled cfg w) (henable : cfg.enable_tcp = true)
    (hfd : fd ∈ ready cfg w i) : fd = 0 ∨ fd ∈ w.os.descriptors := by
  rw [ready] at hfd
  split at hfd
  · simp at hfd
  · next sockets _ =>
    have hpolled : fd ∈ polled cfg (signalHandler i .poll (signalHandler i .head w)) :=
      (mem_readyFds.mp hfd).1
    have hsignal : (signalHandler i .poll (signalHandler i .head w)).os = w.os := by
      rw [signalHandler_eq, signalHandler_eq]
    rcases holding_of_mem_watched (mem_fdSet.mp hpolled).1 with rfl | hholding
    · exact .inl rfl
    · rw [← hsignal]
      exact ((h.signalHandler i .head).signalHandler i .poll).mem_descriptors henable hholding

/-- **The table of clients** at the head of the loop is right, and everything is polled, exactly if
the descriptors that a running server holds fit into the set. -/
theorem Attached.clientsAgree_iff (h : Attached cfg w) (hcounted : w.Counted)
    (henable : cfg.enable_tcp = true) : ClientsAgree cfg w ↔
      (w.flags.server_state = .running → ∀ fd, w.Holding fd → fd < fdSetsize) := by
  have hclient (k : Fin maxTcpClients) (hk : w.tcp_conn_socks k ≠ -1) :
      heldDescriptor cfg w (.client k) = some (w.tcp_conn_socks k) := by
    rw [heldDescriptor, if_pos henable, descriptor?_of_ne hk]
  constructor
  · intro hagree hrunning fd hfd
    exact (mem_fdSet.mp (hagree.polled {} hrunning fd hfd).1).2
  intro hfits
  refine ⟨hcounted, ?_, fun k l hk hkl => ?_, fun k hk => h.mem_client henable hk,
    fun i hrunning fd hfd => ?_⟩
  · have hle := card_occupied_le (-1) w.tcp_conn_socks
    rw [Fintype.card_fin] at hle
    rw [hcounted]
    exact_mod_cast hle
  · have hl := hclient l (hkl ▸ hk)
    rw [← hkl] at hl
    simpa using h.holds.injective _ _ _ (hclient k hk) hl
  · -- no signal has come up to the call of `select`
    have hmaxfd : (signalHandler i .maxfd ((signalHandler i .poll (signalHandler i .head w)).watch
        (watched cfg (signalHandler i .poll (signalHandler i .head w))))).flags.server_state =
          .running := hrunning
    have hpoll : (signalHandler i .poll (signalHandler i .head w)).flags.server_state = .running :=
      ((running_signalHandler_iff i .maxfd _).mp hmaxfd).2
    have hhead := ((running_signalHandler_iff i .head w).mp
      ((running_signalHandler_iff i .poll _).mp hpoll).2).2
    have hsame : ∀ p w, (signalHandler i p w).Holding fd ↔ w.Holding fd := by
      intro p w
      rw [signalHandler_eq]
      rfl
    have hrtu : ∀ p w, (signalHandler i p w).ctx_rtu = w.ctx_rtu :=
      fun p w => ctx_rtu_signalHandler i p w
    have hwatch : ∀ fds w, (Server.watch fds w).Holding fd ↔ w.Holding fd := fun _ _ => Iff.rfl
    have hwatchRtu : ∀ fds w, (Server.watch fds w).ctx_rtu = w.ctx_rtu := fun _ _ => rfl
    constructor
    · refine mem_fdSet.mpr ⟨mem_watched henable ?_ hpoll ?_, hfits hhead fd hfd⟩
      · simpa only [hrtu] using h.linked
      · simpa only [hsame] using hfd
    · refine Int.lt_add_one_of_le (le_maxfd henable ?_ hmaxfd ?_)
      · simpa only [hrtu, hwatchRtu] using h.linked
      · simpa only [hsame, hwatch] using hfd

end Heads

/-! ### What is given out -/

/-- The environment gives out the descriptor: to the listening socket, to the RTU link or to a
client. -/
def Input.Gives (i : Input) (fd : ℤ) : Prop :=
  i.listen = some fd ∨ i.connect = some fd ∨ i.connectAgain = some fd ∨ i.accept = .connection fd

section Given

variable {cfg : Config} {w : Server} {i : Input} {P : ℤ → Prop}

/-- All descriptors in use have the property. -/
def Server.All (P : ℤ → Prop) (w : Server) : Prop := ∀ fd ∈ w.os.descriptors, P fd

theorem Server.All.mono (h : w.All P) {w' : Server}
    (hsubset : w'.os.descriptors ⊆ w.os.descriptors) : w'.All P :=
  fun fd hfd => h fd (hsubset hfd)

theorem Server.All.insert (h : w.All P) {w' : Server} {fd : ℤ} (hfd : P fd)
    (hinsert : w'.os.descriptors = insert fd w.os.descriptors) : w'.All P := by
  intro fd' hfd'
  rw [hinsert] at hfd'
  rcases Finset.mem_insert.mp hfd' with rfl | hfd'
  · exact hfd
  · exact h fd' hfd'

theorem Server.All.of_same (h : w.All P) {w' : Server} (hsame : SameResources w w') : w'.All P :=
  h.mono (by rw [hsame.os_eq])

theorem Server.All.openRtu (h : w.All P) (new fcntl : Bool) {offer : Option ℤ}
    (hP : ∀ fd, offer = some fd → P fd) : (openRtu new fcntl offer w).1.All P := by
  rcases openRtu_cases w new fcntl offer with ⟨-, heq⟩ | ⟨-, -, heq⟩ | ⟨-, fd, hfd, heq⟩
  · rw [heq]
    exact h.mono (Finset.Subset.refl _)
  · rw [heq]
    exact h.mono (by rw [Os.descriptors_modbusFree]; exact Finset.Subset.refl _)
  · rw [heq]
    exact h.insert (hP fd hfd.1) rfl

theorem Server.All.startTcp (h : w.All P) (cfg : Config) (hP : ∀ fd, i.Gives fd → P fd) :
    (startTcp cfg i w).1.All P := by
  rcases startTcp_cases cfg i w with ⟨-, heq⟩ | ⟨-, -, heq⟩ | ⟨-, -, -, heq⟩ |
    ⟨-, -, fd, hfd, heq⟩
  · rwa [heq]
  · rw [heq]
    exact h.mono (Finset.Subset.refl _)
  · rw [heq]
    exact h.mono (Finset.Subset.refl _)
  · rw [heq]
    exact h.insert (hP fd (.inl hfd.1)) rfl

theorem Server.All.startRtu (h : w.All P) (cfg : Config) (hP : ∀ fd, i.Gives fd → P fd) :
    (startRtu cfg i w).1.All P := by
  rw [ModbusServer.startRtu]
  split_ifs
  · exact h.openRtu _ _ fun fd hfd => hP fd (.inr (.inl hfd))
  · exact h

theorem Server.All.startMapping (h : w.All P) (cfg : Config) (i : Input) :
    (startMapping cfg i w).1.All P := by
  rw [ModbusServer.startMapping]
  split_ifs
  · exact h.mono (Finset.Subset.refl _)
  · exact h

theorem Server.All.startup (h : w.All P) (hP : ∀ fd, i.Gives fd → P fd) :
    (startup cfg i w).1.All P := by
  have hparts {w : Server} (h : w.All P) : (startParts cfg i w).1.All P := by
    have htcp := h.startTcp cfg hP
    have hrtu := htcp.startRtu cfg hP
    rcases startParts_cases cfg i w with ⟨-, heq⟩ | ⟨-, -, heq⟩ | ⟨-, -, heq⟩
    · rwa [heq]
    · rwa [heq]
    · rw [heq]
      exact hrtu.startMapping cfg i
  have hsignal : (signalHandler i .startup w).All P :=
    h.of_same (sameResources_signalHandler i .startup w)
  rcases startup_cases cfg i w with ⟨-, heq⟩ | ⟨-, heq⟩
  · rwa [heq]
  · rw [heq]
    exact hparts (hsignal.mono (Finset.Subset.refl _))

theorem Server.All.acceptClient (h : w.All P) (hP : ∀ fd, i.Gives fd → P fd) (fds : Finset ℤ) :
    (acceptClient cfg i fds w).All P := by
  have haccept : (modbusTcpAccept i.accept w).2.All P := by
    cases hoffer : i.accept with
    | connection fd =>
      simp only [modbusTcpAccept]
      rcases w.os.openDescriptor_cases (some fd) with ⟨-, heq⟩ | ⟨fd', ⟨hfd', -⟩, heq⟩
      · exact h.mono (by rw [heq])
      · refine h.insert (hP fd' (.inr (.inr (.inr ?_)))) (by rw [heq])
        rw [hoffer, Option.some.inj hfd']
    | failed => exact h.mono (Finset.Subset.refl _)
    | failedClosing => exact h.mono (by
        simp only [modbusTcpAccept, Os.descriptors_close]
        exact Finset.erase_subset _ _)
  rw [ModbusServer.acceptClient]
  generalize modbusTcpAccept i.accept w = r at haccept ⊢
  obtain ⟨fd, w'⟩ := r
  split_ifs
  · split
    · dsimp only
      split_ifs
      · exact haccept.mono (Finset.Subset.refl _)
      · exact haccept
    · dsimp only
      split_ifs
      · exact haccept.mono (by
          rw [Os.descriptors_close]
          exact Finset.erase_subset _ _)
      · exact haccept
  · exact h

theorem Server.All.handleClients (h : w.All P) (cfg : Config) (i : Input) (fds : Finset ℤ) :
    (handleClients cfg i fds w).All P := by
  rw [ModbusServer.handleClients]
  split_ifs
  · refine Runs.run_induction (P := Server.All P) h (fun w k hw => ?_) slots
    rw [handleClient]
    dsimp only
    split_ifs
    · exact hw.mono (Finset.Subset.refl _)
    · exact hw.mono (by
        rw [Os.descriptors_close]
        exact Finset.erase_subset _ _)
    · exact hw.mono (Finset.Subset.refl _)
    · exact hw
  · exact h

theorem Server.All.handleRtu (h : w.All P) (cfg : Config) (i : Input) (fds : Finset ℤ) :
    (handleRtu cfg i fds w).All P := by
  rw [ModbusServer.handleRtu]
  split
  · exact h
  · dsimp only
    split_ifs
    · exact h.mono (Finset.Subset.refl _)
    · exact h.mono (by
        rw [Os.descriptors_modbusFree]
        exact Os.descriptors_modbusClose_subset _ _)
    · exact h.mono (Finset.Subset.refl _)
    · exact h

theorem Server.All.connections (h : w.All P) (hP : ∀ fd, i.Gives fd → P fd) (fds : Finset ℤ) :
    (connections cfg i fds w).All P := by
  have hsignal : (signalHandler i .connections w).All P :=
    h.of_same (sameResources_signalHandler i .connections w)
  rw [ModbusServer.connections]
  split_ifs
  · have haccept :
        (ModbusServer.acceptClient cfg i fds (signalHandler i .connections w)).All P :=
      hsignal.acceptClient hP fds
    have hserve := (haccept.handleClients cfg i fds).handleRtu cfg i fds
    rw [ModbusServer.reconnect]
    split_ifs
    · exact (hserve.of_same (sameResources_signalHandler i .reconnect _)).openRtu _ _ fun fd hfd =>
        hP fd (.inr (.inr (.inl hfd)))
    · exact hserve.of_same (sameResources_signalHandler i .reconnect _)
  · exact hsignal

/-- What all descriptors given out have in common is kept by every iteration. -/
theorem Server.All.step (h : w.All P) (hP : ∀ fd, i.Gives fd → P fd) : (step cfg w i).All P := by
  have hblocks : Preserved cfg i (Server.All P) :=
    { signal := fun p w h => h.of_same (sameResources_signalHandler i p w)
      stdin := fun _ _ h => h
      watch := fun _ _ h => h
      commands := fun fds w h => h.of_same (sameResources_commands cfg i fds w)
      startup := fun w h => h.startup hP
      stop := fun w h => by
        have hsignal := h.of_same (sameResources_signalHandler i .stop w)
        rw [stopServer]
        split_ifs
        · exact hsignal.mono (descriptors_release_subset cfg _)
        · exact hsignal
      connections := fun fds w h _ => h.connections hP fds
      finish := fun w h => by
        rw [finish]
        split_ifs
        · exact h.mono (descriptors_release_subset cfg w)
        · exact h }
  exact hblocks.step h

end Given

/-! ### What is opened behind `select` -/

/-- What happens between `select` and the blocks that serve: nothing is closed, and what has been
put into a variable was not in use. -/
structure Opens (w w' : Server) : Prop where
  subset : w.os.descriptors ⊆ w'.os.descriptors
  socks : ∀ k, w'.tcp_conn_socks k = w.tcp_conn_socks k ∨ w'.tcp_conn_socks k = -1
  link : ∀ ctx, w'.ctx_rtu = some ctx →
    w.ctx_rtu = some ctx ∨ (2 < ctx.s ∧ ctx.s ∉ w.os.descriptors)

section Opens

variable {cfg : Config} {w w' w'' : Server} {i : Input}

theorem Opens.of_eq (hos : w'.os = w.os) (hsocks : w'.tcp_conn_socks = w.tcp_conn_socks)
    (hrtu : w'.ctx_rtu = w.ctx_rtu) : Opens w w' :=
  ⟨by rw [hos], fun k => .inl (by rw [hsocks]), fun ctx hctx => .inl (hrtu ▸ hctx)⟩

theorem Opens.trans (h : Opens w w') (h' : Opens w' w'') : Opens w w'' where
  subset := h.subset.trans h'.subset
  socks k := by
    rcases h'.socks k with hk | hk
    · rw [hk]
      exact h.socks k
    · exact .inr hk
  link ctx hctx := by
    rcases h'.link ctx hctx with hctx | ⟨hlt, hnew⟩
    · exact h.link ctx hctx
    · exact .inr ⟨hlt, fun hmem => hnew (h.subset hmem)⟩

theorem SameResources.opens (h : SameResources w w') : Opens w w' :=
  .of_eq h.os_eq h.socks_eq h.ctx_rtu_eq

theorem opens_startTcp (cfg : Config) (i : Input) (w : Server) : Opens w (startTcp cfg i w).1 := by
  rcases startTcp_cases cfg i w with ⟨-, heq⟩ | ⟨-, -, heq⟩ | ⟨-, -, -, heq⟩ | ⟨-, -, fd, -, heq⟩
  · rw [heq]
    exact .of_eq rfl rfl rfl
  · rw [heq]
    exact .of_eq rfl rfl rfl
  · rw [heq]
    exact ⟨Finset.Subset.refl _, fun _ => .inl rfl, fun _ => .inl⟩
  · rw [heq]
    exact ⟨Finset.subset_insert _ _, fun _ => .inr rfl, fun _ => .inl⟩

theorem opens_openRtu (new fcntl : Bool) (offer : Option ℤ) (w : Server) :
    Opens w (openRtu new fcntl offer w).1 := by
  rcases openRtu_cases w new fcntl offer with ⟨-, heq⟩ | ⟨-, -, heq⟩ | ⟨-, fd, hfd, heq⟩
  · rw [heq]
    exact ⟨Finset.Subset.refl _, fun _ => .inl rfl, by simp⟩
  · rw [heq]
    refine ⟨?_, fun _ => .inl rfl, by simp⟩
    rw [Os.descriptors_modbusFree]
    exact Finset.Subset.refl _
  · rw [heq]
    refine ⟨Finset.subset_insert _ _, fun _ => .inl rfl, ?_⟩
    rintro _ ⟨⟩
    exact .inr hfd.2

theorem opens_startup (cfg : Config) (i : Input) (w : Server) : Opens w (startup cfg i w).1 := by
  have hrtu (w : Server) : Opens w (startRtu cfg i w).1 := by
    rw [startRtu]
    split_ifs
    · exact opens_openRtu _ _ _ w
    · exact .of_eq rfl rfl rfl
  have hmapping (w : Server) : Opens w (startMapping cfg i w).1 := by
    rw [startMapping]
    split_ifs
    · exact .of_eq rfl rfl rfl
    · exact .of_eq rfl rfl rfl
  have hparts (w : Server) : Opens w (startParts cfg i w).1 := by
    have htcp := opens_startTcp cfg i w
    rcases startParts_cases cfg i w with ⟨-, heq⟩ | ⟨-, -, heq⟩ | ⟨-, -, heq⟩
    · rwa [heq]
    · rw [heq]
      exact htcp.trans (hrtu _)
    · rw [heq]
      exact (htcp.trans (hrtu _)).trans (hmapping _)
  have hsignal := (sameResources_signalHandler i .startup w).opens
  rcases startup_cases cfg i w with ⟨-, heq⟩ | ⟨-, heq⟩
  · rwa [heq]
  · rw [heq]
    refine (hsignal.trans ?_).trans (hparts _)
    exact .of_eq rfl rfl rfl

end Opens

/-! ### What is served -/

/-- The events between two states, where the calls of `modbus_receive` are on descriptors with a
property. -/
def Receives (P : ℤ → Prop) (w w' : Server) : Prop :=
  ∃ es, w'.trace = w.trace ++ es ∧ ∀ fd, .receive fd ∈ es → P fd

section Receives

variable {P : ℤ → Prop} {cfg : Config} {w w' w'' : Server} {i : Input}

theorem Receives.of_trace (es : List Event) (htrace : w'.trace = w.trace ++ es)
    (hes : ∀ fd, .receive fd ∉ es) : Receives P w w' :=
  ⟨es, htrace, fun fd hfd => absurd hfd (hes fd)⟩

theorem Receives.refl (w : Server) : Receives P w w := .of_trace [] (by simp) (by simp)

theorem Receives.trans (h : Receives P w w') (h' : Receives P w' w'') : Receives P w w'' := by
  obtain ⟨es, htrace, hes⟩ := h
  obtain ⟨es', htrace', hes'⟩ := h'
  refine ⟨es ++ es', by rw [htrace', htrace, List.append_assoc], fun fd hfd => ?_⟩
  rcases List.mem_append.mp hfd with hfd | hfd
  · exact hes fd hfd
  · exact hes' fd hfd

theorem receives_signalHandler (i : Input) (p : Point) (w : Server) :
    Receives P w (signalHandler i p w) := .of_trace [] (by simp) (by simp)

theorem receives_commands (cfg : Config) (i : Input) (fds : Finset ℤ) (w : Server) :
    Receives P w (commands cfg i fds w) := by
  rcases commands_cases cfg i fds w with ⟨-, heq⟩ | ⟨-, buf, s, -, heq⟩ | ⟨-, s, -, heq⟩ |
    ⟨-, -, heq⟩
  · rw [heq]
    exact .refl w
  · refine .of_trace _ (by rw [heq, trace_processText]) fun fd => ?_
    split_ifs <;> simp
  · exact .of_trace [.endOfInput] (by rw [heq]; rfl) (by simp)
  · exact .of_trace [] (by simp [heq]) (by simp)

theorem receives_openRtu (new fcntl : Bool) (offer : Option ℤ) (w : Server) :
    Receives P w (openRtu new fcntl offer w).1 :=
  .of_trace [.newRtu] (trace_openRtu w new fcntl offer) (by simp)

theorem receives_startup (cfg : Config) (i : Input) (w : Server) :
    Receives P w (startup cfg i w).1 := by
  have htcp (w : Server) : Receives P w (startTcp cfg i w).1 := by
    refine .of_trace [] ?_ (by simp)
    rcases startTcp_cases cfg i w with ⟨-, heq⟩ | ⟨-, -, heq⟩ | ⟨-, -, -, heq⟩ |
      ⟨-, -, fd, -, heq⟩
    all_goals simp [heq]
  have hrtu (w : Server) : Receives P w (startRtu cfg i w).1 := by
    rw [startRtu]
    split_ifs
    · exact receives_openRtu _ _ _ w
    · exact .refl w
  have hmapping (w : Server) : Receives P w (startMapping cfg i w).1 := by
    rw [startMapping]
    split_ifs
    · exact .of_trace [] (by simp) (by simp)
    · exact .refl w
  have hparts (w : Server) : Receives P w (startParts cfg i w).1 := by
    rcases startParts_cases cfg i w with ⟨-, heq⟩ | ⟨-, -, heq⟩ | ⟨-, -, heq⟩
    · rw [heq]
      exact htcp w
    · rw [heq]
      exact (htcp w).trans (hrtu _)
    · rw [heq]
      exact ((htcp w).trans (hrtu _)).trans (hmapping _)
  have hsignal : Receives P w (signalHandler i .startup w) := receives_signalHandler i .startup w
  rcases startup_cases cfg i w with ⟨-, heq⟩ | ⟨-, heq⟩
  · rwa [heq]
  · rw [heq]
    refine (hsignal.trans ?_).trans (hparts _)
    exact .of_trace [.startup] rfl (by simp)

theorem receives_stopServer (cfg : Config) (i : Input) (w : Server) :
    Receives P w (stopServer cfg i w) := by
  refine .of_trace [] ?_ (by simp)
  rw [stopServer]
  split_ifs
  · simpa using (releases_release cfg (signalHandler i .stop w)).trace_eq
  · simp

theorem receives_reconnect (cfg : Config) (i : Input) (w : Server) :
    Receives P w (reconnect cfg i w) := by
  rw [reconnect]
  split_ifs
  · exact (receives_signalHandler i .reconnect w).trans (receives_openRtu _ _ _ _)
  · exact receives_signalHandler i .reconnect w

/-- The accept block receives nothing, and leaves the RTU link as it is. -/
theorem receives_acceptClient (cfg : Config) (i : Input) (fds : Finset ℤ) (w : Server) :
    Receives P w (acceptClient cfg i fds w) ∧ (acceptClient cfg i fds w).ctx_rtu = w.ctx_rtu := by
  have haccept := accepting_acceptClient cfg i fds w
  generalize acceptClient cfg i fds w = w' at haccept ⊢
  cases haccept with
  | idle => exact ⟨.refl w, rfl⟩
  | failed s => exact ⟨.of_trace [] (by simp) (by simp), rfl⟩
  | closing henable hlisten s => exact ⟨.of_trace [] (by simp) (by simp), rfl⟩
  | refused fd hfd => exact ⟨.of_trace [] (by simp) (by simp), rfl⟩
  | connected henable fd hfd slot hslot => exact ⟨.of_trace [] (by simp) (by simp), rfl⟩

theorem Receives.of_receive {fd : ℤ} (hfd : P fd) (es : List Event)
    (htrace : w'.trace = w.trace ++ .receive fd :: es) (hes : ∀ fd, .receive fd ∉ es) :
    Receives P w w' := by
  refine ⟨.receive fd :: es, htrace, fun fd' hfd' => ?_⟩
  rcases List.mem_cons.mp hfd' with heq | hmem
  · rwa [Event.receive.inj heq]
  · exact absurd hmem (hes fd')

/-- The body of the loop over the clients receives from its slot, and leaves the other slots and the
RTU link as they are. -/
theorem receives_handleClient {fds : Finset ℤ} (i : Input) (w : Server) (k : Fin maxTcpClients)
    (hP : w.tcp_conn_socks k ∈ fds → P (w.tcp_conn_socks k)) :
    Receives P w (handleClient i fds w k) ∧ (handleClient i fds w k).ctx_rtu = w.ctx_rtu ∧
      ∀ j, (handleClient i fds w k).tcp_conn_socks j = w.tcp_conn_socks j ∨
        (handleClient i fds w k).tcp_conn_socks j = -1 := by
  rw [handleClient]
  dsimp only
  split_ifs with hready hreceived herror
  · have htrace : (modbusReply (i.client k) { w with
        ctx_tcp := w.ctx_tcp.map ({ · with s := w.tcp_conn_socks k })
        trace := w.trace ++ [.receive (w.tcp_conn_socks k)] }).trace =
        w.trace ++ .receive (w.tcp_conn_socks k) :: [.reply w.mb_mapping.isSome] := by
      simp [modbusReply]
    exact ⟨.of_receive (hP hready.2) _ htrace (by simp), rfl, fun _ => .inl rfl⟩
  · refine ⟨.of_receive (hP hready.2) [] rfl (by simp), rfl, fun j => ?_⟩
    by_cases hj : j = k
    · exact .inr (by simp [hj])
    · exact .inl (Function.update_of_ne hj _ _)
  · exact ⟨.of_receive (hP hready.2) [] rfl (by simp), rfl, fun _ => .inl rfl⟩
  · exact ⟨.refl w, rfl, fun _ => .inl rfl⟩

/-- The loop over the clients receives from the slots as they are when it begins. -/
theorem receives_handleClients {fds : Finset ℤ} (cfg : Config) (i : Input) (w : Server)
    (hneg : -1 ∉ fds) (hP : ∀ k, w.tcp_conn_socks k ∈ fds → P (w.tcp_conn_socks k)) :
    Receives P w (handleClients cfg i fds w) ∧ (handleClients cfg i fds w).ctx_rtu = w.ctx_rtu := by
  rw [handleClients]
  split_ifs
  · suffices hloop : (Receives P w (slots.foldl (handleClient i fds) w) ∧
        (slots.foldl (handleClient i fds) w).ctx_rtu = w.ctx_rtu) ∧
        ∀ j, (slots.foldl (handleClient i fds) w).tcp_conn_socks j = w.tcp_conn_socks j ∨
          (slots.foldl (handleClient i fds) w).tcp_conn_socks j = -1 from hloop.1
    refine Runs.run_induction (P := fun w' => (Receives P w w' ∧ w'.ctx_rtu = w.ctx_rtu) ∧
      ∀ j, w'.tcp_conn_socks j = w.tcp_conn_socks j ∨ w'.tcp_conn_socks j = -1)
      ⟨⟨.refl w, rfl⟩, fun _ => .inl rfl⟩ ?_ slots
    rintro w' k ⟨⟨hreceives, hrtu⟩, hsocks⟩
    -- the slot is as it was when the loop began, or it has been emptied
    have hslot : w'.tcp_conn_socks k ∈ fds → P (w'.tcp_conn_socks k) := by
      intro hmem
      rcases hsocks k with hk | hk
      · rw [hk] at hmem ⊢
        exact hP k hmem
      · exact absurd (hk ▸ hmem) hneg
    obtain ⟨hbody, hbodyRtu, hbodySocks⟩ := receives_handleClient i w' k hslot
    refine ⟨⟨hreceives.trans hbody, hbodyRtu.trans hrtu⟩, fun j => ?_⟩
    rcases hbodySocks j with hj | hj
    · rw [hj]
      exact hsocks j
    · exact .inr hj
  · exact ⟨.refl w, rfl⟩

/-- The RTU block receives from the link. -/
theorem receives_handleRtu {fds : Finset ℤ} (cfg : Config) (i : Input) (w : Server)
    (hP : ∀ ctx, w.ctx_rtu = some ctx → ctx.s ∈ fds → P ctx.s) :
    Receives P w (handleRtu cfg i fds w) := by
  rw [handleRtu]
  split
  · exact .refl w
  · next ctx hctx =>
    dsimp only
    split_ifs with hready hreceived herror
    · have htrace : (modbusReply i.rtu { w with trace := w.trace ++ [.receive ctx.s] }).trace =
          w.trace ++ .receive ctx.s :: [.reply w.mb_mapping.isSome] := by
        simp [modbusReply]
      exact .of_receive (hP ctx hctx hready.2.2) _ htrace (by simp)
    · exact .of_receive (hP ctx hctx hready.2.2) [] rfl (by simp)
    · exact .of_receive (hP ctx hctx hready.2.2) [] rfl (by simp)
    · exact .refl w

/-- The blocks that serve receive from the clients and the link as they are behind the accept
block. -/
theorem receives_serve {fds : Finset ℤ} (cfg : Config) (i : Input) (w : Server)
    (hneg : -1 ∉ fds)
    (hclient : ∀ k, (acceptClient cfg i fds w).tcp_conn_socks k ∈ fds →
      P ((acceptClient cfg i fds w).tcp_conn_socks k))
    (hlink : ∀ ctx, (acceptClient cfg i fds w).ctx_rtu = some ctx → ctx.s ∈ fds → P ctx.s) :
    Receives P w (serve cfg i fds w) := by
  have haccept := (receives_acceptClient (P := P) cfg i fds w).1
  obtain ⟨hclients, hrtu⟩ := receives_handleClients cfg i _ hneg hclient
  refine (haccept.trans hclients).trans (receives_handleRtu cfg i _ fun ctx hctx => ?_)
  exact hlink ctx (hrtu ▸ hctx)

end Receives

/-! ### Iterations -/

section Definitions

variable (cfg : Config) (w : Server) (i : Input)

/-- The state in which the descriptors are served, if the iteration comes there. -/
def serving : Server :=
  signalHandler i .connections (stopServer cfg i (startup cfg i (commanded cfg w i)).1)

/-- The state when the loop over the clients begins. -/
def accepted : Server := acceptClient cfg i (ready cfg w i) (serving cfg w i)

/-- `modbus_receive` is called on descriptors that `select` has reported and that a slot or the RTU
link held when it was called. A client that has been accepted since, and a link that has been opened
since, is not among those that `select` has reported. -/
structure ReceivesReady : Prop where
  receive : ∀ fd, .receive fd ∈ (step cfg w i).trace.drop w.trace.length →
    fd ∈ ready cfg w i ∧
      ((∃ k, w.tcp_conn_socks k = fd) ∨ ∃ ctx, w.ctx_rtu = some ctx ∧ ctx.s = fd)
  client : (serving cfg w i).flags.server_state = .running → ∀ k,
    (accepted cfg w i).tcp_conn_socks k ≠ w.tcp_conn_socks k →
    (accepted cfg w i).tcp_conn_socks k ∉ ready cfg w i
  link : (serving cfg w i).flags.server_state = .running → ∀ ctx,
    (accepted cfg w i).ctx_rtu = some ctx → w.ctx_rtu ≠ some ctx → ctx.s ∉ ready cfg w i

end Definitions

section Iterations

variable {cfg : Config} {w : Server} {i : Input}

/-- Nothing has been closed when the descriptors of a running server are served. -/
theorem opens_serving (hrunning : (serving cfg w i).flags.server_state = .running) :
    Opens w (serving cfg w i) := by
  have hcommanded := (sameResources_commanded cfg w i).opens
  obtain ⟨-, hstop⟩ := (running_signalHandler_iff i .connections _).mp hrunning
  obtain ⟨-, -, hskip⟩ := stopServer_of_running cfg i _ hstop
  rw [serving, hskip]
  exact (hcommanded.trans (opens_startup cfg i _)).trans
    (sameResources_signalHandler i .connections _).opens

/-- A descriptor that was not in use is not reported. -/
theorem notMem_ready (h : Tabled cfg w) (henable : cfg.enable_tcp = true) {fd : ℤ}
    (hlt : 2 < fd) (hfd : fd ∉ w.os.descriptors) : fd ∉ ready cfg w i := by
  intro hmem
  rcases mem_descriptors_of_mem_ready h henable hmem with rfl | hopen
  · omega
  · exact hfd hopen

theorem neg_one_notMem_ready (h : Tabled cfg w) (henable : cfg.enable_tcp = true) :
    -1 ∉ ready cfg w i := by
  have htwo : ∀ fd ∈ w.os.descriptors, 2 < fd := by
    rcases h with ⟨-, hattached, -⟩ | ⟨-, hattached, -⟩
    · exact hattached.two_lt
    · exact hattached.two_lt
  intro hmem
  rcases mem_descriptors_of_mem_ready h henable hmem with hzero | hopen
  · simp at hzero
  · have := htwo _ hopen
    omega

/-- A client that has been accepted since `select` is not reported. -/
theorem accepted_notMem_ready (h : Tabled cfg w) (henable : cfg.enable_tcp = true)
    (hrunning : (serving cfg w i).flags.server_state = .running) {k : Fin maxTcpClients}
    (hk : (accepted cfg w i).tcp_conn_socks k ≠ w.tcp_conn_socks k) :
    (accepted cfg w i).tcp_conn_socks k ∉ ready cfg w i := by
  have hopens := opens_serving hrunning
  have hneg := neg_one_notMem_ready (i := i) h henable
  have hold (hserving : (serving cfg w i).tcp_conn_socks k ≠ w.tcp_conn_socks k) :
      (serving cfg w i).tcp_conn_socks k ∉ ready cfg w i := by
    rw [(hopens.socks k).resolve_left hserving]
    exact hneg
  have haccept := accepting_acceptClient cfg i (ready cfg w i) (serving cfg w i)
  rw [← accepted] at haccept
  generalize accepted cfg w i = w' at haccept hk ⊢
  cases haccept with
  | idle => exact hold hk
  | failed s => exact hold hk
  | closing _ hlisten s => exact hold hk
  | refused fd hfd => exact hold hk
  | connected _ fd hfd slot hslot =>
    by_cases hj : k = slot
    · rw [hj]
      simp only [Function.update_self]
      exact notMem_ready h henable hfd.1 fun hmem => hfd.2 (hopens.subset hmem)
    · simp only [Function.update_of_ne hj] at hk ⊢
      exact hold hk

/-- A link that has been opened since `select` is not reported. -/
theorem link_notMem_ready (h : Tabled cfg w) (henable : cfg.enable_tcp = true)
    (hrunning : (serving cfg w i).flags.server_state = .running) {ctx : Ctx}
    (hctx : (accepted cfg w i).ctx_rtu = some ctx) (hne : w.ctx_rtu ≠ some ctx) :
    ctx.s ∉ ready cfg w i := by
  have hrtu : (accepted cfg w i).ctx_rtu = (serving cfg w i).ctx_rtu :=
    (receives_acceptClient (P := fun _ => True) cfg i _ _).2
  rw [hrtu] at hctx
  rcases (opens_serving hrunning).link ctx hctx with hsame | ⟨hlt, hnew⟩
  · exact absurd hsame hne
  · exact notMem_ready h henable hlt hnew

/-- `select` has reported the descriptor, and a slot or the RTU link held it then. -/
def Reported (cfg : Config) (w : Server) (i : Input) (fd : ℤ) : Prop :=
  fd ∈ ready cfg w i ∧ ((∃ k, w.tcp_conn_socks k = fd) ∨ ∃ ctx, w.ctx_rtu = some ctx ∧ ctx.s = fd)

/-- The blocks that serve receive on descriptors that `select` has reported. -/
theorem receives_serving (h : Tabled cfg w) (henable : cfg.enable_tcp = true)
    (hrunning : (serving cfg w i).flags.server_state = .running) :
    Receives (Reported cfg w i) (serving cfg w i)
      (reconnect cfg i (serve cfg i (ready cfg w i) (serving cfg w i))) := by
  refine (receives_serve cfg i _ (neg_one_notMem_ready h henable)
    (fun k hk => ⟨hk, .inl ⟨k, ?_⟩⟩) fun ctx hctx hs => ⟨hs, .inr ⟨ctx, ?_, rfl⟩⟩).trans
    (receives_reconnect cfg i _)
  · by_contra hne
    exact accepted_notMem_ready h henable hrunning (Ne.symm hne) hk
  · by_contra hne
    exact link_notMem_ready h henable hrunning hctx hne hs

theorem receives_step (h : Tabled cfg w) (henable : cfg.enable_tcp = true) (i : Input) :
    Receives (Reported cfg w i) w (step cfg w i) := by
  have hfinish (w' : Server) : Receives (Reported cfg w i) w' (finish cfg w') :=
    .of_trace [] (by simp [trace_finish]) (by simp)
  have hselect : Receives (Reported cfg w i) w (atSelect cfg w i) :=
    .of_trace [] (by simp) (by simp)
  by_cases hselects : selects w i
  · have hcommanded : Receives (Reported cfg w i) w (commanded cfg w i) :=
      hselect.trans (receives_commands cfg i (ready cfg w i) _)
    rw [step_of_selects cfg hselects, afterSelect, ← commanded]
    split_ifs with hatHead
    · have hstartup := hcommanded.trans (receives_startup cfg i (commanded cfg w i))
      rcases hr : startup cfg i (commanded cfg w i) with ⟨w₁, goesOn⟩
      rw [hr] at hstartup
      cases goesOn with
      | false => exact hstartup
      | true =>
        have hserving : signalHandler i .connections (stopServer cfg i w₁) = serving cfg w i := by
          rw [serving, hr]
        have hto := (hstartup.trans (receives_stopServer cfg i w₁)).trans
          (receives_signalHandler i .connections _)
        simp only [connections]
        rw [hserving] at hto ⊢
        split_ifs with hserve
        · exact hto.trans (receives_serving h henable hserve.1)
        · exact hto
    · exact hcommanded
  · rcases step_of_not_selects cfg hselects with heq | heq | heq | heq
    · rw [heq]
      exact .refl w
    · rw [heq]
      exact (receives_signalHandler i .head w).trans (hfinish _)
    · rwa [heq]
    · rw [heq]
      exact hselect.trans (hfinish _)

/-- **The calls of `modbus_receive`** in an iteration. -/
theorem Tabled.receivesReady (h : Tabled cfg w) (henable : cfg.enable_tcp = true) (i : Input) :
    ReceivesReady cfg w i := by
  refine ⟨?_, fun hrunning k => accepted_notMem_ready h henable hrunning,
    fun hrunning ctx => link_notMem_ready h henable hrunning⟩
  obtain ⟨es, htrace, hes⟩ := receives_step h henable i
  rw [htrace, List.drop_left]
  exact hes

/-- The descriptors that a running server holds fit into an `fd_set`. -/
def Server.Fits (w : Server) : Prop :=
  w.flags.server_state = .running → ∀ fd, w.Holding fd → fd < fdSetsize

theorem Tabled.lt_fdSetsize (h : Tabled cfg w) (henable : cfg.enable_tcp = true)
    (hall : w.All (· < fdSetsize)) {fd : ℤ} (hfd : w.Holding fd) : fd < fdSetsize := by
  rcases h.mem_descriptors henable hfd with rfl | hmem
  · decide
  · exact hall fd hmem

/-- Where the descriptors in use fit, none is put into a set that has no room for it. -/
theorem Tabled.fds_atSelect (h : Tabled cfg w) (henable : cfg.enable_tcp = true)
    (hall : w.All (· < fdSetsize)) (hfds : w.overruns.fds = false) :
    (atSelect cfg w i).overruns.fds = false := by
  have hpoll : Tabled cfg (signalHandler i .poll (signalHandler i .head w)) :=
    (h.signalHandler i .head).signalHandler i .poll
  have hsmall : (signalHandler i .poll (signalHandler i .head w)).All (· < fdSetsize) :=
    (hall.of_same (sameResources_signalHandler i .head w)).of_same
      (sameResources_signalHandler i .poll _)
  have hfits : ¬∃ fd ∈ watched cfg (signalHandler i .poll (signalHandler i .head w)),
      fdSetsize ≤ fd := by
    rintro ⟨fd, hfd, hlarge⟩
    rcases holding_of_mem_watched hfd with rfl | hholding
    · exact absurd hlarge (by decide)
    · exact absurd (hpoll.lt_fdSetsize henable hsmall hholding) (not_lt.mpr hlarge)
  simp only [atSelect, beforeSelect, overruns_signalHandler, Server.watch, hfds,
    decide_eq_false hfits, Bool.or_self]

theorem fds_commands (cfg : Config) (i : Input) (fds : Finset ℤ) (w : Server) :
    (commands cfg i fds w).overruns.fds = w.overruns.fds := by
  rcases commands_cases cfg i fds w with ⟨-, heq⟩ | ⟨-, buf, s, -, heq⟩ | ⟨-, s, -, heq⟩ |
    ⟨-, -, heq⟩
  · rw [heq]
  · simp [heq, processText]
  · simp [heq, endInput]
  · rw [heq]

theorem Tabled.fds_step (h : Tabled cfg w) (henable : cfg.enable_tcp = true)
    (hall : w.All (· < fdSetsize)) (hfds : w.overruns.fds = false) :
    (step cfg w i).overruns.fds = false := by
  have hselect := h.fds_atSelect (i := i) henable hall hfds
  have hfinish (w : Server) : (finish cfg w).overruns = w.overruns := by
    obtain ⟨w', hreleases, -, heq⟩ := finish_cases cfg w
    rw [heq, ← hreleases.overruns_eq]
  by_cases hselects : selects w i
  · rw [step_of_selects cfg hselects, (keeps_afterSelect cfg i _ _).overruns_eq, fds_commands]
    exact hselect
  · rcases step_of_not_selects cfg hselects with heq | heq | heq | heq
    · rw [heq, hfds]
    · rw [heq, hfinish, overruns_signalHandler, hfds]
    · rw [heq, hselect]
    · rw [heq, hfinish, hselect]

/-- Where no descriptor is given out that is too large, the descriptors of a server fit, and none is
put into a set that has no room for it. -/
theorem fits_serverRun (henable : cfg.enable_tcp = true) (ahead : ℕ) {inputs : List Input}
    (hgives : ∀ i ∈ inputs, ∀ fd, i.Gives fd → fd < fdSetsize) :
    (serverRun cfg ahead inputs).Fits ∧ (serverRun cfg ahead inputs).overruns.fds = false := by
  have hrun : Tabled cfg (serverRun cfg ahead inputs) ∧
      (serverRun cfg ahead inputs).All (· < fdSetsize) ∧
      (serverRun cfg ahead inputs).overruns.fds = false :=
    Runs.run_of_stepsMeet
      (P := fun w => Tabled cfg w ∧ w.All (· < fdSetsize) ∧ w.overruns.fds = false)
      ⟨tabled_initial cfg ahead, by simp [Server.All, initial], rfl⟩
      (fun w i ⟨htabled, hall, hfds⟩ hi => ⟨tabled_step htabled henable i, hall.step hi,
        htabled.fds_step henable hall hfds⟩)
      (Runs.stepsMeet_iff_forall_mem.mpr hgives)
  exact ⟨fun _ fd hfd => hrun.1.lt_fdSetsize henable hrun.2.1 hfd, hrun.2.2⟩

/-- **Polling and serving agree** in a run with TCP, exactly as long as the descriptors fit into an
`fd_set`: whenever there is a table of registers, and nothing has been put outside of a set so far,
the table of clients is right and everything is polled exactly if they do. Where no descriptor is
given out that is too large, they do, nothing is put outside of a set, and in every iteration only
what `select` has reported is served. -/
theorem clients_run (henable : cfg.enable_tcp = true) (ahead : ℕ) (inputs : List Input) :
    ((serverRun cfg ahead inputs).overruns.fds = false →
      (serverRun cfg ahead inputs).mb_mapping.isSome = true →
        (ClientsAgree cfg (serverRun cfg ahead inputs) ↔ (serverRun cfg ahead inputs).Fits)) ∧
    ((∀ i ∈ inputs, ∀ fd, i.Gives fd → fd < fdSetsize) →
      (serverRun cfg ahead inputs).Fits ∧ (serverRun cfg ahead inputs).overruns.fds = false ∧
        ∀ i, (∀ fd, i.Gives fd → fd < fdSetsize) →
          ReceivesReady cfg (serverRun cfg ahead inputs) i) := by
  have htabled := tabled_serverRun henable ahead inputs
  refine ⟨fun _ hsome => ?_, fun hgives => ?_⟩
  · rcases htabled with ⟨hnone, -⟩ | ⟨-, hattached, hcounted⟩
    · simp [hnone] at hsome
    · exact hattached.clientsAgree_iff hcounted henable
  · obtain ⟨hfits, hfds⟩ := fits_serverRun henable ahead hgives
    exact ⟨hfits, hfds, fun i _ => htabled.receivesReady henable i⟩

/-- TCP comes up, a client connects, leaves, and another one gets its descriptor. -/
def reusedDescriptor : List Input :=
  [{ newTcp := true, listen := some 5, newMapping := true },
    { select := .ready {5}, accept := .connection 6 },
    { select := .ready {6}, client := fun _ => { rc := -1 } },
    { select := .ready {5}, accept := .connection 6 }]

theorem clients_run_reusedDescriptor : ∃ cfg : Config, cfg.enable_tcp = true ∧
    ClientsAgree cfg (serverRun cfg 4095 reusedDescriptor) ∧
      ReceivesReady cfg (serverRun cfg 4095 reusedDescriptor) {} := by
  have hgives : ∀ i ∈ reusedDescriptor, ∀ fd, i.Gives fd → fd < fdSetsize := by
    simp [reusedDescriptor, Input.Gives, fdSetsize]
  have hrun := (@clients_run { enable_tcp := true, nb_holding_regs := 1 } rfl 4095
    reusedDescriptor).2 hgives
  refine ⟨_, rfl, ?_, hrun.2.2 {} (by simp [Input.Gives])⟩
  exact ((clients_run rfl 4095 reusedDescriptor).1 hrun.2.1 (by decide +kernel)).mpr hrun.1

/-- TCP comes up, and a client gets a descriptor for which an `fd_set` has no room. -/
def largeDescriptor : List Input :=
  [{ newTcp := true, listen := some 5, newMapping := true },
    { select := .ready {5}, accept := .connection 1024 }]

/-- The client is in the table, and is not polled. -/
theorem not_clientsAgree : ∃ cfg : Config, cfg.enable_tcp = true ∧
    (serverRun cfg 4095 largeDescriptor).overruns.fds = false ∧
    (serverRun cfg 4095 largeDescriptor).mb_mapping.isSome = true ∧
      ¬ClientsAgree cfg (serverRun cfg 4095 largeDescriptor) := by
  refine ⟨{ enable_tcp := true, nb_holding_regs := 1 }, rfl, by decide +kernel, by decide +kernel,
    fun hagree => ?_⟩
  have hslot : (serverRun { enable_tcp := true, nb_holding_regs := 1 } 4095
      largeDescriptor).tcp_conn_socks (0 : Fin 10) = 1024 := by decide +kernel
  have hpolled := (hagree.polled {} (by decide +kernel) 1024
    (.inr (.inl ⟨(0 : Fin 10), hslot, by decide⟩))).1
  exact absurd (mem_fdSet.mp hpolled).2 (by decide)

end Iterations

end ModbusServer
