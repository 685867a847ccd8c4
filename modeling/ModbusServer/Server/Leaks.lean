import ModbusServer.Server.Resources

/-!
# Leaks

While there is a table, every context and every descriptor in use is held by exactly one variable;
while there is none, nothing is in use. A start-up that fails behind its first success breaks this:
the next one overwrites what it has left, and `main` releases nothing where there is no table.

Source: `json-modbus-server.c`, lines 496–577, 618–660 and 664–684.

## Main definitions

* `ModbusServer.CleanStart`: the outcomes of a start-up that leave nothing behind.
* `ModbusServer.Holding`: the invariant.
* `ModbusServer.NoLeak`: nothing is lost, nothing is released twice, and nothing remains.

## Main results

* `ModbusServer.holding_step`: the invariant is kept by an iteration whose start-up is clean.
* `ModbusServer.noLeak_iff`: the runs in which nothing is lost.
* `ModbusServer.not_noLeak`: not all runs are of this kind.
-/

namespace ModbusServer

/-! ### Starting -/

/-- The outcomes of the calls of a start-up leave nothing behind: a start-up with TCP fails at its
first call or succeeds; without TCP it may also fail to connect the RTU link. -/
def CleanStart (cfg : Config) (i : Input) : Prop :=
  if cfg.enable_tcp then
    i.newTcp = false ∨ ∃ sock, i.listen = some sock ∧ 2 < sock ∧
      (cfg.enable_rtu = true → i.newRtu = true ∧ ∃ fd, i.connect = some fd ∧ 2 < fd ∧ fd ≠ sock) ∧
      i.newMapping = true
  else cfg.enable_rtu = true → i.newRtu = false ∨ (∀ fd, i.connect = some fd → fd ≤ 2) ∨
    i.newMapping = true

section Start

variable {cfg : Config} {w : Server}

/-- The invariant: nothing is in use while there is no table, and everything in use is held by one
variable while there is one. -/
def Holding (cfg : Config) (w : Server) : Prop :=
  (w.mb_mapping = none ∧ Idle cfg w) ∨ (w.mb_mapping.isSome = true ∧ Owned cfg w)

theorem Owned.holding_startMapping {i : Input} (h : Owned cfg w) (hmapping : i.newMapping = true) :
    Holding cfg (startMapping cfg i w).1 := by
  rw [startMapping, if_pos hmapping]
  exact .inr ⟨rfl, h.of_eq rfl rfl rfl⟩

theorem startParts_of_tcp {i : Input} {w₁ : Server} (h : startTcp cfg i w = (w₁, true)) :
    startParts cfg i w = orContinue (startRtu cfg i w₁) (startMapping cfg i) := by
  rw [startParts, h]
  exact if_pos rfl

/-- A clean start-up without TCP. -/
theorem Idle.holding_of_not_tcp {i : Input} (h : Idle cfg w) (hnone : w.mb_mapping = none)
    (htcp : cfg.enable_tcp = false) (hstart : startTcp cfg i w = (w, true))
    (hclean : cfg.enable_rtu = true → i.newRtu = false ∨ (∀ fd, i.connect = some fd → fd ≤ 2) ∨
      i.newMapping = true) : Holding cfg (startParts cfg i w).1 := by
  have hplaces (w' : Server) (p : Place) (hp : p ≠ .rtu) : heldDescriptor cfg w' p = none := by
    cases p with
    | listen => simp [heldDescriptor, htcp]
    | client k => simp [heldDescriptor, htcp]
    | rtu => exact absurd rfl hp
  have howned : Owned cfg w := h.owned (by simp [heldContext, htcp]) (hplaces w)
  rw [startParts_of_tcp hstart, startRtu]
  split_ifs with henable
  · have hctx := h.ctx_rtu_eq henable
    have hopen := howned.openRtu henable hctx i.newRtu i.fcntl i.connect
    rcases openRtu_cases w i.newRtu i.fcntl i.connect with
      ⟨-, heq⟩ | ⟨-, -, heq⟩ | ⟨hnew, fd, hfd, heq⟩
    · rw [heq]
      exact .inl ⟨hnone, h.of_eq rfl hctx.symm⟩
    · rw [heq] at hopen ⊢
      refine .inl ⟨hnone, hopen.idle (fun l => ?_) fun p => ?_⟩
      · cases l with
        | tcp => simp [heldContext, htcp]
        | rtu => simp [heldContext]
      · by_cases hp : p = .rtu
        · simp [hp, heldDescriptor]
        · exact hplaces _ p hp
    · have hmapping : i.newMapping = true := by
        rcases hclean henable with hno | hno | hmapping
        · simp [hnew] at hno
        · have := hno fd hfd.1
          omega
        · exact hmapping
      rw [heq] at hopen ⊢
      exact hopen.holding_startMapping hmapping
  · cases hmapping : i.newMapping with
    | false => exact .inl ⟨by simp [orContinue, startMapping, hmapping, hnone], by
        simpa [orContinue, startMapping, hmapping] using h⟩
    | true => exact howned.holding_startMapping hmapping

/-- **A clean start-up** keeps the invariant. -/
theorem Idle.holding_startParts {i : Input} (h : Idle cfg w) (hnone : w.mb_mapping = none)
    (hclean : CleanStart cfg i) : Holding cfg (startParts cfg i w).1 := by
  rw [CleanStart] at hclean
  rcases startTcp_cases cfg i w with ⟨htcp, heq⟩ | ⟨htcp, -, heq⟩ | ⟨htcp, hnew, hno, -⟩ |
    ⟨htcp, hnew, sock, hsock, heq⟩
  · rw [if_neg (by simp [htcp])] at hclean
    exact h.holding_of_not_tcp hnone htcp heq hclean
  · rw [startParts, heq]
    exact .inl ⟨hnone, h.of_eq rfl rfl⟩
  · rw [if_pos htcp, hnew] at hclean
    obtain ⟨sock, hlisten, hsock, -⟩ := hclean.resolve_left (by simp)
    exact absurd ⟨hsock, by simp [h.descriptors_eq]⟩ (hno sock hlisten)
  · rw [if_pos htcp, hnew] at hclean
    obtain ⟨sock', hlisten, -, hrtu, hmapping⟩ := hclean.resolve_left (by simp)
    obtain rfl : sock' = sock := Option.some.inj (hlisten.symm.trans hsock.1)
    obtain ⟨w₁, heq₁, howned, hctx, hdescriptors⟩ : ∃ w₁, startTcp cfg i w = (w₁, true) ∧
        Owned cfg w₁ ∧ (cfg.enable_rtu = true → w₁.ctx_rtu = none) ∧
        w₁.os.descriptors = insert sock' w.os.descriptors :=
      ⟨_, heq, h.owned_listening htcp hsock.2.1, h.ctx_rtu_eq, rfl⟩
    rw [startParts_of_tcp heq₁, startRtu]
    split_ifs with henable
    · have hopen := howned.openRtu henable (hctx henable) i.newRtu i.fcntl i.connect
      obtain ⟨hnewRtu, fd, hconnect, hfd, hne⟩ := hrtu henable
      rcases openRtu_cases w₁ i.newRtu i.fcntl i.connect with
        ⟨hno, -⟩ | ⟨-, hno, -⟩ | ⟨-, fd', -, heq'⟩
      · simp [hnewRtu] at hno
      · exact absurd ⟨hfd, by simp [hdescriptors, h.descriptors_eq, hne]⟩ (hno fd hconnect)
      · rw [heq'] at hopen ⊢
        exact hopen.holding_startMapping hmapping
    · exact howned.holding_startMapping hmapping

/-- A start-up that succeeds is clean. -/
theorem cleanStart_of_startParts {i : Input} (hup : (startParts cfg i w).2 = true) :
    CleanStart cfg i := by
  rcases startParts_cases cfg i w with ⟨hno, heq⟩ | ⟨-, hno, heq⟩ | ⟨htcp, hrtu, heq⟩
  · simp [heq, hno] at hup
  · simp [heq, hno] at hup
  · have hmapping : i.newMapping = true := by
      rw [heq, startMapping] at hup
      split_ifs at hup with hmapping
      exact hmapping
    rw [CleanStart]
    rcases startTcp_cases cfg i w with ⟨htcp', -⟩ | ⟨-, -, heq'⟩ | ⟨-, -, -, heq'⟩ |
      ⟨htcp', -, sock, hsock, heq'⟩
    · rw [if_neg (by simp [htcp'])]
      exact fun _ => .inr (.inr hmapping)
    · simp [heq'] at htcp
    · simp [heq'] at htcp
    · rw [if_pos htcp']
      refine .inr ⟨sock, hsock.1, hsock.2.1, fun henable => ?_, hmapping⟩
      rw [startRtu, if_pos henable] at hrtu
      rcases openRtu_cases (startTcp cfg i w).1 i.newRtu i.fcntl i.connect with
        ⟨-, hlink⟩ | ⟨-, -, hlink⟩ | ⟨hnew, fd, hfd, -⟩
      · simp [hlink] at hrtu
      · simp [hlink] at hrtu
      · refine ⟨hnew, fd, hfd.1, hfd.2.1, ?_⟩
        rintro rfl
        exact hfd.2.2 (by simp [heq'])

/-- Opening an RTU link frees no other context. -/
theorem mem_contexts_openRtu {c : ℕ} (hc : c ∈ w.os.contexts) (hlt : c < w.os.nextContext)
    (new fcntl : Bool) (offer : Option ℤ) :
    c ∈ (openRtu new fcntl offer w).1.os.contexts := by
  rcases openRtu_cases w new fcntl offer with ⟨-, heq⟩ | ⟨-, -, heq⟩ | ⟨-, fd, -, heq⟩
  · rw [heq]
    exact hc
  · rw [heq]
    simp only [Os.contexts_modbusFree]
    exact Finset.mem_erase.mpr ⟨Nat.ne_of_lt hlt, Finset.mem_insert_of_mem hc⟩
  · rw [heq]
    exact Finset.mem_insert_of_mem hc

theorem os_startMapping (cfg : Config) (i : Input) (w : Server) :
    (startMapping cfg i w).1.os = w.os := by
  rw [startMapping]
  split_ifs <;> rfl

/-- A context that TCP has created stays in use through the rest of the start-up block. -/
theorem mem_contexts_startParts {i : Input} {c : ℕ}
    (hc : c ∈ (startTcp cfg i w).1.os.contexts)
    (hlt : c < (startTcp cfg i w).1.os.nextContext) :
    c ∈ (startParts cfg i w).1.os.contexts := by
  have hrtu : c ∈ (startRtu cfg i (startTcp cfg i w).1).1.os.contexts := by
    rw [startRtu]
    split_ifs
    · exact mem_contexts_openRtu hc hlt _ _ _
    · exact hc
  rcases startParts_cases cfg i w with ⟨-, heq⟩ | ⟨-, -, heq⟩ | ⟨-, -, heq⟩
  · rwa [heq]
  · rwa [heq]
  · rwa [heq, os_startMapping]

/-- **A start-up that is not clean** leaves a context in use. -/
theorem Idle.contexts_nonempty {i : Input} (h : Idle cfg w) (hunclean : ¬CleanStart cfg i) :
    (startParts cfg i w).1.os.contexts.Nonempty := by
  rw [CleanStart] at hunclean
  rcases startTcp_cases cfg i w with ⟨htcp, heq⟩ | ⟨htcp, hnew, -⟩ | ⟨-, -, -, heq⟩ |
    ⟨-, -, sock, -, heq⟩
  · rw [if_neg (by simp [htcp])] at hunclean
    push Not at hunclean
    obtain ⟨henable, hnew, ⟨fd, hconnect, hfd⟩, hmapping⟩ := hunclean
    rw [startParts_of_tcp heq, startRtu, if_pos henable]
    rcases openRtu_cases w i.newRtu i.fcntl i.connect with
      ⟨hno, -⟩ | ⟨-, hno, -⟩ | ⟨-, fd', -, heq'⟩
    · exact absurd hno hnew
    · exact absurd ⟨hfd, by simp [h.descriptors_eq]⟩ (hno fd hconnect)
    · rw [heq', orContinue, if_pos rfl, os_startMapping]
      exact ⟨w.os.nextContext, Finset.mem_insert_self ..⟩
  · rw [if_pos htcp] at hunclean
    exact absurd (.inl hnew) hunclean
  · refine ⟨w.os.nextContext, mem_contexts_startParts ?_ ?_⟩
    · simp [heq, Os.newContext]
    · simp [heq, Os.newContext]
  · refine ⟨w.os.nextContext, mem_contexts_startParts ?_ ?_⟩
    · simp [heq, Os.newContext]
    · simp [heq, Os.newContext]

end Start

/-! ### Runs -/

section Runs

variable {cfg : Config} {w w' : Server} {i : Input}

/-- What does not touch the variables, what is in use, and whether there is a table. -/
theorem Holding.of_same (h : Holding cfg w) (hsame : SameResources w w') : Holding cfg w' := by
  rcases h with ⟨hnone, hidle⟩ | ⟨hsome, howned⟩
  · refine .inl ⟨?_, hidle.of_eq hsame.os_eq hsame.ctx_rtu_eq⟩
    rw [← Option.not_isSome_iff_eq_none, hsame.isSome_mapping, hnone]
    simp
  · exact .inr ⟨hsame.isSome_mapping.trans hsome, howned.of_eq hsame.os_eq
      (heldContext_eq (by rw [hsame.ctx_tcp_eq]) (by rw [hsame.ctx_rtu_eq]))
      (heldDescriptor_eq hsame.listen_eq hsame.socks_eq (by rw [hsame.ctx_rtu_eq]))⟩

protected theorem Holding.signalHandler (h : Holding cfg w) (i : Input) (p : Point) :
    Holding cfg (signalHandler i p w) :=
  h.of_same (sameResources_signalHandler i p w)

protected theorem Holding.stopServer (h : Holding cfg w) (i : Input) :
    Holding cfg (stopServer cfg i w) := by
  rw [stopServer]
  split_ifs with hstop
  · rcases h.signalHandler i .stop with ⟨hnone, -⟩ | ⟨-, howned⟩
    · exact absurd hstop.2 (by rw [hnone]; simp)
    · exact .inl ⟨rfl, howned.release.of_eq rfl rfl⟩
  · exact h.signalHandler i .stop

protected theorem Holding.finish (h : Holding cfg w) : Holding cfg (finish cfg w) := by
  rw [finish]
  rcases h with ⟨hnone, hidle⟩ | ⟨hsome, howned⟩
  · rw [if_neg (by simp [hnone])]
    exact .inl ⟨hnone, hidle.of_eq rfl rfl⟩
  · rw [if_pos hsome]
    exact .inl ⟨rfl, howned.release.of_eq rfl rfl⟩

/-- The connections are served with a table. -/
protected theorem Holding.connections (h : Holding cfg w) (i : Input) (fds : Finset ℤ)
    (htable : w.flags.server_state = .running → w.mb_mapping.isSome = true) :
    Holding cfg (connections cfg i fds w) := by
  rcases connections_ways cfg i w fds htable with heq | ⟨hsome, heq⟩
  · rw [heq]
    exact h.signalHandler i .connections
  · rw [heq]
    rcases h.signalHandler i .connections with ⟨hnone, -⟩ | ⟨-, howned⟩
    · exact absurd hsome (by rw [hnone]; simp)
    · have howned' : Owned cfg (serve cfg i fds (signalHandler i .connections w)) :=
        ((howned.acceptClient i fds).handleClients i fds).handleRtu i fds
      exact .inr ⟨isSome_reconnect_serve cfg i _ fds hsome, howned'.reconnect i⟩

/-- The start-up block is entered: the iteration goes on behind `select` and the command block, the
server is running, and there is no table. -/
def Starts (cfg : Config) (w : Server) (i : Input) : Prop :=
  selects w i ∧ (commanded cfg w i).status = .atHead ∧
    (signalHandler i .startup (commanded cfg w i)).flags.server_state = .running ∧
    (commanded cfg w i).mb_mapping = none

protected theorem Holding.startup (h : Holding cfg w)
    (hclean : (signalHandler i .startup w).flags.server_state = .running →
      w.mb_mapping = none → CleanStart cfg i) : Holding cfg (startup cfg i w).1 := by
  rcases startup_cases cfg i w with ⟨-, heq⟩ | ⟨⟨hrunning, hnone⟩, heq⟩
  · rw [heq]
    exact h.signalHandler i .startup
  · rw [heq]
    rcases h.signalHandler i .startup with ⟨hnone', hidle⟩ | ⟨hsome, -⟩
    · have hidle' : Idle cfg { signalHandler i .startup w with
          trace := (signalHandler i .startup w).trace ++ [.startup] } :=
        hidle.of_eq rfl rfl
      exact hidle'.holding_startParts hnone' (hclean hrunning hnone)
    · exact absurd hsome (by rw [mb_mapping_signalHandler, hnone]; simp)

theorem holding_step (h : Holding cfg w) (hclean : Starts cfg w i → CleanStart cfg i) :
    Holding cfg (step cfg w i) := by
  have hselect : Holding cfg (atSelect cfg w i) := h.of_same (sameResources_atSelect cfg w i)
  by_cases hselects : selects w i
  · have hcommanded : Holding cfg (commanded cfg w i) := h.of_same (sameResources_commanded cfg w i)
    rw [step_of_selects cfg hselects, afterSelect, ← commanded]
    split_ifs with hatHead
    · have hstartup := hcommanded.startup (i := i) fun hrunning hnone =>
        hclean ⟨hselects, hatHead, hrunning, hnone⟩
      rcases hr : startup cfg i (commanded cfg w i) with ⟨w₁, goesOn⟩
      rw [hr] at hstartup
      cases goesOn with
      | false => exact hstartup
      | true =>
        exact (hstartup.stopServer i).connections i _ (isSome_of_running cfg i _ hr)
    · exact hcommanded
  · rcases step_of_not_selects cfg hselects with heq | heq | heq | heq
    · rwa [heq]
    · rw [heq]
      exact (h.signalHandler i .head).finish
    · rwa [heq]
    · rw [heq]
      exact hselect.finish

/-- Nothing is lost: a context in use is that of `ctx_tcp` or `ctx_rtu`, a descriptor in use is that
of `tcp_listen_sock`, of a slot, or of the context in `ctx_rtu`, nothing has been released twice,
and nothing remains when `main` has returned. -/
structure NoLeak (w : Server) : Prop where
  contexts : ∀ c ∈ w.os.contexts, (∃ ctx, w.ctx_tcp = some ctx ∧ ctx.id = c) ∨
    ∃ ctx, w.ctx_rtu = some ctx ∧ ctx.id = c
  descriptors : ∀ fd ∈ w.os.descriptors, w.tcp_listen_sock = fd ∨
    (∃ k, w.tcp_conn_socks k = fd) ∨ ∃ ctx, w.ctx_rtu = some ctx ∧ ctx.s = fd
  misuse_eq : w.os.misuse = false
  returned : w.status = .returned → w.os.contexts = ∅ ∧ w.os.descriptors = ∅

theorem Holding.noLeak (h : Holding cfg w)
    (hreturned : w.status = .returned → w.mb_mapping = none) : NoLeak w := by
  rcases h with ⟨-, hidle⟩ | ⟨hsome, howned⟩
  · exact ⟨by simp [hidle.contexts_eq], by simp [hidle.descriptors_eq], hidle.misuse_eq,
      fun _ => ⟨hidle.contexts_eq, hidle.descriptors_eq⟩⟩
  · refine ⟨fun c hc => ?_, fun fd hfd => ?_, howned.misuse_eq, fun hstatus => ?_⟩
    · obtain ⟨l, hl⟩ := (howned.contexts.mem_iff c).mp hc
      cases l with
      | tcp => exact .inl (by simpa using (Option.ite_none_right_eq_some.mp hl).2)
      | rtu => exact .inr (by simpa using (Option.ite_none_right_eq_some.mp hl).2)
    · have hvalue {s : ℤ} (hs : descriptor? s = some fd) : s = fd :=
        Option.some.inj (Option.ite_none_left_eq_some.mp hs).2
      obtain ⟨p, hp⟩ := (howned.descriptors.mem_iff fd).mp hfd
      cases p with
      | listen => exact .inl (hvalue (Option.ite_none_right_eq_some.mp hp).2)
      | client k => exact .inr (.inl ⟨k, hvalue (Option.ite_none_right_eq_some.mp hp).2⟩)
      | rtu =>
        obtain ⟨ctx, hctx, hs⟩ := Option.bind_eq_some_iff.mp (Option.ite_none_right_eq_some.mp hp).2
        exact .inr (.inr ⟨ctx, hctx, hvalue hs⟩)
    · simp [hreturned hstatus] at hsome

/-- `main` returns without a table. -/
theorem mb_mapping_of_returned_step (hw : w.status = .returned → w.mb_mapping = none)
    (hreturned : (step cfg w i).status = .returned) : (step cfg w i).mb_mapping = none := by
  have hfinish (w : Server) : (finish cfg w).mb_mapping = none := by
    obtain ⟨w', -, hnone, heq⟩ := finish_cases cfg w
    rw [heq, hnone]
  by_cases hselects : selects w i
  · rw [step_of_selects cfg hselects, (keeps_afterSelect cfg i _ _).status_eq] at hreturned
    rcases status_commands cfg i (ready cfg w i) (atSelect cfg w i) with
      hstatus | hstatus | hstatus
    · simp [hstatus, hselects.1] at hreturned
    · simp [hstatus] at hreturned
    · simp [hstatus] at hreturned
  · rcases step_of_not_selects cfg hselects with heq | heq | heq | heq
    · rw [heq] at hreturned ⊢
      exact hw hreturned
    · rw [heq, hfinish]
    · rw [heq] at hreturned ⊢
      rw [mb_mapping_atSelect]
      exact hw (by simpa using hreturned)
    · rw [heq, hfinish]

/-- A signal at the head of the loop. -/
def terminate : Input where
  signal p := p = .head

theorem not_selects_terminate (w : Server) : ¬selects w terminate := by
  rintro ⟨-, hrunning, -⟩
  simp [signalHandler, terminate] at hrunning

/-- **A start-up that is not clean** is a loss when `main` returns. -/
theorem Holding.not_noLeak (h : Holding cfg w) (hstarts : Starts cfg w i)
    (hunclean : ¬CleanStart cfg i) : ¬NoLeak (step cfg (step cfg w i) terminate) := by
  obtain ⟨hselects, hatHead, hrunning, hnone⟩ := hstarts
  have hidle : Idle cfg (commanded cfg w i) := by
    rcases h.of_same (sameResources_commanded cfg w i) with ⟨-, hidle⟩ | ⟨hsome, -⟩
    · exact hidle
    · exact absurd hsome (by rw [hnone]; simp)
  -- the start-up block is entered and ends in a `continue`
  obtain ⟨w₁, hw₁, hidle₁, hnone₁, hstatus₁⟩ : ∃ w₁,
      startup cfg i (commanded cfg w i) = startParts cfg i w₁ ∧ Idle cfg w₁ ∧
        w₁.mb_mapping = none ∧ w₁.status = .atHead := by
    rcases startup_cases cfg i (commanded cfg w i) with ⟨hskip, -⟩ | ⟨-, heq⟩
    · exact absurd ⟨hrunning, hnone⟩ hskip
    · refine ⟨_, heq, hidle.of_eq ?_ (ctx_rtu_signalHandler ..), by simpa using hnone,
        by simpa using hatHead⟩
      rw [signalHandler_eq]
  have hcontinue : (startParts cfg i w₁).2 = false := by
    rw [← Bool.not_eq_true]
    exact fun hup => hunclean (cleanStart_of_startParts hup)
  have hstep : step cfg w i = (startParts cfg i w₁).1 := by
    rw [step_of_selects cfg hselects, afterSelect, ← commanded, if_pos hatHead, hw₁]
    rcases hparts : startParts cfg i w₁ with ⟨w₂, goesOn⟩
    rw [hparts] at hcontinue
    cases hcontinue
    rfl
  have hmapping : (step cfg w i).mb_mapping = none := by
    rw [hstep, ← Option.not_isSome_iff_eq_none, isSome_startParts _ _ _ hnone₁, hcontinue]
    simp
  have hstatus : (step cfg w i).status = .atHead := by
    rw [hstep, (keeps_startParts cfg i w₁).status_eq, hstatus₁]
  -- nothing is released behind the loop, because there is no table
  have hend : step cfg (step cfg w i) terminate =
      finish cfg (signalHandler terminate .head (step cfg w i)) := by
    rw [step.eq_def cfg (step cfg w i), hstatus, iteration, if_neg]
    simp [signalHandler, terminate]
  intro hleak
  obtain ⟨c, hc⟩ := hidle₁.contexts_nonempty hunclean
  rw [← hstep] at hc
  have hempty := (hleak.returned (by rw [hend, finish])).1
  rw [hend, finish, if_neg (by simp [hmapping]), signalHandler_eq] at hempty
  exact absurd hc (by rw [hempty]; exact Finset.notMem_empty c)

/-- **Nothing is lost** in a run, and in the run that a signal ends in its place, if and only if
every start-up of the run is clean. -/
theorem noLeak_iff (cfg : Config) (ahead : ℕ) (inputs : List Input) :
    (∀ before, before <+: inputs → NoLeak (serverRun cfg ahead before) ∧
      NoLeak (serverRun cfg ahead (before ++ [terminate]))) ↔
      Runs.StepsMeet (step cfg) (fun w i => Starts cfg w i → CleanStart cfg i) (initial ahead)
        inputs := by
  have hinitial : Holding cfg (initial ahead) := .inl ⟨rfl, rfl, rfl, fun _ => rfl, rfl⟩
  have hrun {inputs : List Input} (hclean : Runs.StepsMeet (step cfg)
      (fun w i => Starts cfg w i → CleanStart cfg i) (initial ahead) inputs) :
      Holding cfg (serverRun cfg ahead inputs) ∧ ((serverRun cfg ahead inputs).status = .returned →
        (serverRun cfg ahead inputs).mb_mapping = none) :=
    Runs.run_of_stepsMeet
      (P := fun w => Holding cfg w ∧ (w.status = .returned → w.mb_mapping = none))
      ⟨hinitial, fun _ => rfl⟩
      (fun w i hw hclean => ⟨holding_step hw.1 hclean, mb_mapping_of_returned_step hw.2⟩) hclean
  constructor
  · intro h
    induction inputs using List.reverseRecOn with
    | nil => trivial
    | append_singleton inputs i ih =>
      have hclean := ih fun before hbefore =>
        h before (hbefore.trans (List.prefix_append inputs [i]))
      refine Runs.stepsMeet_concat.mpr ⟨hclean, fun hstarts => ?_⟩
      by_contra hunclean
      have hleak := (h (inputs ++ [i]) List.prefix_rfl).2
      rw [serverRun, Runs.run_concat, Runs.run_concat] at hleak
      exact (hrun hclean).1.not_noLeak hstarts hunclean hleak
  · rintro h before ⟨after, rfl⟩
    have hclean := (Runs.stepsMeet_append.mp h).1
    have hbefore := hrun hclean
    have hafter := hrun (Runs.stepsMeet_concat.mpr ⟨hclean, fun hstarts =>
      absurd hstarts.1 (not_selects_terminate _)⟩)
    exact ⟨hbefore.1.noLeak hbefore.2, hafter.1.noLeak hafter.2⟩

/-- TCP gets its context, and does not listen; the next start-up does. -/
def listenFails : List Input :=
  [{ newTcp := true }, { newTcp := true, listen := some 5, newMapping := true }]

theorem not_noLeak : ¬∀ (cfg : Config) (ahead : ℕ) (inputs : List Input),
    NoLeak (serverRun cfg ahead inputs) := by
  intro h
  have hcontexts := (h { enable_tcp := true, nb_holding_regs := 1 } 4095 listenFails).contexts 0
    (by decide +kernel)
  rcases hcontexts with ⟨ctx, hctx, hid⟩ | ⟨ctx, hctx, -⟩
  · have htcp : ((serverRun { enable_tcp := true, nb_holding_regs := 1 } 4095 listenFails
        ).ctx_tcp.map Ctx.id) = some 1 := by decide +kernel
    rw [hctx, Option.map_some, hid] at htcp
    simp at htcp
  · have hrtu : (serverRun { enable_tcp := true, nb_holding_regs := 1 } 4095 listenFails
        ).ctx_rtu = none := by decide +kernel
    simp [hrtu] at hctx

end Runs

end ModbusServer
