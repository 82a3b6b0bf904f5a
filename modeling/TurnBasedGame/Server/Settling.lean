import TurnBasedGame.Server.Quiescence

/-!
# The work of the process

What comes in from outside is worked off in boundedly many steps: every byte
read, every chunk, every error and every connection allows for so many steps
of the goroutines, whatever their order.  A packet with a wrapped length field
can be empty and is then cut off again and again; since no handler survives
an empty packet, there are never more of them than fit into the channel.

So when nothing more comes in, the process comes to rest after these steps:
all its goroutines wait, or one of them has panicked.
-/

namespace TurnBasedGame
namespace Server

open Kernel
open PacketFramer

section Settling

/-- Packets without a header, between the framer and the handler. -/
def emptyPackets (k : Connection) : Nat :=
  (k.ch ++ k.reader.inHand).countP (fun p => p.data.isEmpty)

/-- How far a reader is from its next read. -/
def readerWork : ReaderState → Nat
  | .pushing => 1
  | .sending _ => 6
  | .failing _ => 2
  | _ => 0

def handlerWork : HandlerState → Nat
  | .handling _ => 3
  | _ => 0

/-- The steps that a connection has before it. -/
def Connection.work (k : Connection) : Nat :=
  6 * k.framer.live.length + 6 * (framerChanCap + 1 - emptyPackets k) +
    readerWork k.reader + 4 * k.ch.length + handlerWork k.handler +
    k.errch.length

/-- The steps that a game has before it. -/
def gameWork (s : TCPServer) (g : GamePtr) : Nat :=
  2 * (s.game g).ch.length + (s.game g).holding.toList.length

/-- The steps that what comes in to a connection gives rise to. -/
def ConnectionEvent.cost : ConnectionEvent → Nat
  | .read data => 6 * data.length + 1
  | .readError _ => 2
  | _ => 0

/-- The steps that what comes in gives rise to. -/
def inputCost : ProcessEvent → Nat
  | .handleConnection _ _ => 6 * (framerChanCap + 1)
  | .connection _ e _ => e.cost
  | _ => 0

/-- What a step takes off the work of its connection. -/
def ConnectionEvent.relief : ConnectionEvent → Nat
  | .handled => 3
  | .report | .pull | .send | .authPacket | .takePacket | .takeError => 1
  | _ => 0

/-- The steps of its own that a connection takes on an event. -/
def ConnectionEvent.ownSteps : ConnectionEvent → Nat
  | .report | .pull | .send | .authPacket | .takePacket | .handled
  | .takeError => 1
  | _ => 0

/-- The steps of its own that the process takes on an event. -/
def ownSteps : ProcessEvent → Nat
  | .connection _ e _ => e.ownSteps
  | .receive _ => 1
  | .broadCast _ => 1
  | _ => 0

theorem ownSteps_of_internal
    {e : ProcessEvent}
    (h : Internal e) :
    ownSteps e = 1 := by
  cases e with
  | connection c e n => cases e <;> first | rfl | exact h.elim
  | receive g => rfl
  | broadCast g => rfl
  | _ => exact h.elim

/-- What comes in is not a step of the process. -/
theorem inputCost_of_internal
    {e : ProcessEvent}
    (h : Internal e) :
    inputCost e = 0 := by
  cases e with
  | connection c e n => cases e <;> first | rfl | exact h.elim
  | receive g => rfl
  | broadCast g => rfl
  | _ => exact h.elim

section Connection

/-- A packet whose type was read is not empty. -/
theorem isEmpty_of_getType
    {p : Packet} {t : PacketType}
    (h : p.getType = .ok t) :
    p.data.isEmpty = false := by
  obtain ⟨data⟩ := p
  cases data with
  | nil => cases h
  | cons b rest => rfl

/-- A pull that returns no packet leaves the framer alone. -/
theorem pull_same
    {p p' : PacketFramer} {res : Pulled}
    (h : p.InRange)
    (pull : p.pull = .ok (res, p'))
    (none : ∀ pkt, res ≠ .packet pkt) :
    p' = p := by
  rw [h.pull_eq] at pull
  cases hverdict : verdict p.live with
  | waiting =>
      simp only [hverdict, Except.ok.injEq, Prod.mk.injEq] at pull
      exact pull.2.symm
  | rejected err =>
      simp only [hverdict, Except.ok.injEq, Prod.mk.injEq] at pull
      exact pull.2.symm
  | complete n =>
      simp only [hverdict, Except.ok.injEq, Prod.mk.injEq] at pull
      exact absurd pull.1.symm (none _)

/-- A step works something off, and brings in at most its cost. -/
theorem GoroutineMove.work
    {t : ConnectionTransition}
    (m : GoroutineMove t)
    (inRange : t.pre.framer.InRange)
    (capacity : WithinCapacity t.pre) :
    t.post.work + t.event.relief ≤ t.pre.work + t.event.cost := by
  cases m with
  | @read k data p reader short fill =>
      have hlive : p.live.length ≤ k.framer.live.length + data.length := by
        have hrange : k.framer.InRange := inRange
        rw [hrange.fill_eq, Except.ok.injEq] at fill
        rw [← fill, hrange.filled_live, List.length_append, List.length_take]
        omega
      simp only [Connection.work, emptyPackets, readerWork, reader,
        ReaderState.inHand, ConnectionEvent.relief, ConnectionEvent.cost]
      omega
  | eof k reader =>
      simp [Connection.work, emptyPackets, readerWork, reader,
        ReaderState.inHand, ConnectionEvent.relief]
  | readError k err reader =>
      simp only [Connection.work, emptyPackets, readerWork, reader,
        ReaderState.inHand, ConnectionEvent.relief, ConnectionEvent.cost]
      omega
  | report k reader room =>
      simp only [Connection.work, emptyPackets, readerWork, reader,
        ReaderState.inHand, ConnectionEvent.relief, List.length_append,
        List.length_singleton]
      omega
  | @pulled k pkt p reader pull =>
      have hrange : k.framer.InRange := inRange
      obtain ⟨n, -, hle, hdata, hlive⟩ := pull_packet hrange pull
      -- the packet takes bytes off, or is one more empty one
      have hroom : k.ch.countP (fun p => p.data.isEmpty) ≤ framerChanCap :=
        List.countP_le_length.trans capacity.ch
      simp only [Connection.work, emptyPackets, readerWork, reader,
        ReaderState.inHand, ConnectionEvent.relief, ConnectionEvent.cost,
        List.countP_append, List.countP_singleton, List.countP_nil, hdata,
        hlive, List.length_drop]
      by_cases hn : n = 0
      · simp only [hn, List.take_zero, List.isEmpty_nil, if_true]
        omega
      · omega
  | @waited k p reader pull =>
      have hp := pull_same inRange pull (by simp)
      simp only [Connection.work, emptyPackets, readerWork, reader,
        ReaderState.inHand, ConnectionEvent.relief, hp]
      omega
  | @rejected k err p reader pull =>
      have hp := pull_same inRange pull (by simp)
      simp only [Connection.work, emptyPackets, readerWork, reader,
        ReaderState.inHand, ConnectionEvent.relief, hp]
      omega
  | send k reader room =>
      simp only [Connection.work, emptyPackets, readerWork, reader,
        ReaderState.inHand, ConnectionEvent.relief, List.append_nil,
        List.length_append, List.length_singleton]
      omega
  | authPassed k handler front passes =>
      have hfull := isEmpty_of_getType
        (TCPServer.authenticate_passes passes).1
      simp only [Connection.work, emptyPackets, handler, handlerWork,
        ConnectionEvent.relief, front, List.cons_append, List.countP_cons,
        hfull, Bool.false_eq_true, if_false, List.length_cons]
      omega
  | @authFailed k id p rest err handler front fails =>
      have hfull : p.data.isEmpty = false := by
        cases htype : p.getType with
        | error e =>
            simp [TCPServer.authenticate, htype, bind, Except.bind] at fails
        | ok t => exact isEmpty_of_getType htype
      simp only [Connection.work, emptyPackets, handler, handlerWork,
        ConnectionEvent.relief, front, List.cons_append, List.countP_cons,
        hfull, Bool.false_eq_true, if_false, List.length_cons]
      omega
  | authTimeout k handler =>
      simp [Connection.work, emptyPackets, handler, handlerWork,
        ConnectionEvent.relief]
  | takePacket k handler front typed =>
      have hfull := isEmpty_of_getType typed
      simp only [Connection.work, emptyPackets, handler, handlerWork,
        ConnectionEvent.relief, front, List.cons_append, List.countP_cons,
        hfull, Bool.false_eq_true, if_false, List.length_cons]
      omega
  | handled k handler =>
      simp only [Connection.work, emptyPackets, handler, handlerWork,
        ConnectionEvent.relief]
      omega
  | takeError k handler front =>
      simp only [Connection.work, emptyPackets, handler, handlerWork,
        ConnectionEvent.relief, front, List.length_cons]
      omega
  | quit k handler =>
      simp [Connection.work, emptyPackets, handler, handlerWork,
        ConnectionEvent.relief]

end Connection

section Games

open TCPServer

variable {g : GamePtr} {t : ServerTransition}

/-- What a step does to the work of a game. -/
theorem ChannelStep.work
    (h : ChannelStep g t) :
    gameWork t.post g + (dequeued g t).length + (relayed g t).length =
      gameWork t.pre g + 2 * (queued g t).length := by
  have hchannel := congrArg List.length h.channel
  have hhand := congrArg List.length h.hand
  simp only [List.length_append, List.length_map] at hchannel hhand
  simp only [gameWork]
  omega

/-- The game whose channel or loop a step is about. -/
def targetGame (t : ServerTransition) : GamePtr :=
  match t.event with
  | .packet c _ _ => (t.pre.client c).gamePump.getD 0
  | .receive g => g
  | .broadCast g => g
  | _ => 0

/-- A step does nothing to the channels and loops of other games. -/
theorem idle_of_ne_target
    (h : g ≠ targetGame t) :
    queued g t = [] ∧ dequeued g t = [] ∧ relayed g t = [] := by
  obtain ⟨pre, event, out, post⟩ := t
  cases event with
  | packet c p n =>
      refine ⟨?_, rfl, rfl⟩
      have hpump : (pre.client c).gamePump ≠ some g := by
        intro hg
        exact h (by simp [targetGame, hg])
      simp [queued, hpump]
  | receive g' =>
      have hne : g' ≠ g := Ne.symm h
      exact ⟨rfl, by simp [dequeued, hne], rfl⟩
  | broadCast g' =>
      have hne : g' ≠ g := Ne.symm h
      exact ⟨rfl, rfl, by simp [relayed, hne]⟩
  | _ => exact ⟨rfl, rfl, rfl⟩

/-- Games that do not exist have no work. -/
theorem finite_gameWork
    {s : TCPServer}
    (hinv : Inv s) :
    (Function.support (gameWork s)).Finite := by
  refine (Finset.range s.allocated).finite_toSet.subset (fun g hg => ?_)
  rw [Finset.mem_coe, Finset.mem_range]
  by_contra hge
  obtain ⟨-, hch, hholding⟩ := hinv.unallocated g (Nat.le_of_not_lt hge)
  exact hg (by simp [gameWork, hch, hholding])

/-- What a step does to the work of all games. -/
theorem total_gameWork
    (m : Move t)
    (hinv : Inv t.pre) :
    total (gameWork t.post) + (dequeued (targetGame t) t).length +
        (relayed (targetGame t) t).length =
      total (gameWork t.pre) + 2 * (queued (targetGame t) t).length := by
  have hothers : ∀ g, g ≠ targetGame t →
      gameWork t.post g = gameWork t.pre g := by
    intro g hg
    obtain ⟨hqueued, hdequeued, hrelayed⟩ := idle_of_ne_target hg
    have hwork := (channelStep_of_move (g := g) m hinv).work
    simpa [hqueued, hdequeued, hrelayed] using hwork
  have hchanged := total_add_of_changed (finite_gameWork hinv)
    (targetGame t) hothers
  have hwork := (channelStep_of_move (g := targetGame t) m hinv).work
  omega

end Games

/-- The steps that an open connection has before it. -/
def connectionWork (s : Process) (c : ClientPtr) : Nat :=
  if s.server.conn c = .absent then 0 else (s.conn c).work

/-- The steps that the process has before it if nothing more comes in. -/
noncomputable def Process.work (s : Process) : Nat :=
  total (connectionWork s) + total (gameWork s.server)

section Run

variable {vf : ValidationFunc} {tr : List ProcessTransition} {s : Process}

theorem connectionWork_le
    (s : Process) (c : ClientPtr) :
    connectionWork s c ≤ (s.conn c).work := by
  unfold connectionWork
  split_ifs
  · exact Nat.zero_le _
  · exact Nat.le_refl _

theorem connectionWork_of_opened
    {c : ClientPtr}
    (opened : Opened c s) :
    connectionWork s c = (s.conn c).work :=
  if_neg opened

/-- The connection an event starts. -/
def startedBy : ProcessEvent → ClientPtr
  | .handleConnection c _ => c
  | _ => 0

/-- Finitely many connections are open. -/
theorem finite_connectionWork
    (run : ProcessRun vf tr s) :
    (Function.support (connectionWork s)).Finite := by
  refine (((tr.map Transition.event).finite_toSet).image startedBy).subset
    (fun c hc => ?_)
  have hopened : Opened c s := fun habsent => hc (if_pos habsent)
  obtain ⟨n, hn⟩ := started_of_opened run hopened
  exact ⟨.handleConnection c n, hn, rfl⟩

/-- A new connection may be sent so many empty packets, and nothing else. -/
theorem work_newConnection
    (id : ClientID) :
    (newConnection id).work = 6 * (framerChanCap + 1) := by
  simp [Connection.work, emptyPackets, newConnection, readerWork, handlerWork,
    ReaderState.inHand]

/-- An own step takes something off, beside the packet it may queue. -/
theorem relief_of_joint
    {c : ClientPtr} {k k' : Connection} {e : ConnectionEvent} {n : GameDraw}
    {out : List Packet} {ev : TCPServer.Event} {server : TCPServer}
    (agrees : server.conn c = k.handler.connState)
    (m : GoroutineMove ⟨k, e, out, k'⟩)
    (requests : serverEvent c k n e = some ev)
    (writes : List Write) (server' : TCPServer) (g : GamePtr) :
    2 * (queued g ⟨server, ev, writes, server'⟩).length + e.ownSteps ≤
      e.relief := by
  have hauth : ∀ {p : Packet} {id : ClientID},
      k.handler = .authenticating id → ev = .packet c p n →
        queued g ⟨server, ev, writes, server'⟩ = [] := by
    rintro p id hhandler rfl
    rw [hhandler] at agrees
    exact queued_of_conn (by simp [agrees, HandlerState.connState])
  cases m with
  | authPassed k handler front passes =>
      simp only [serverEvent, front, List.head?_cons, Option.map_some,
        Option.some.injEq] at requests
      rw [hauth handler requests.symm]
      exact Nat.le_refl _
  | authFailed k handler front fails =>
      simp only [serverEvent, front, List.head?_cons, Option.map_some,
        Option.some.injEq] at requests
      rw [hauth handler requests.symm]
      exact Nat.le_refl _
  | handled k handler =>
      have hone := queued_length_le g
        (⟨server, ev, writes, server'⟩ : ServerTransition)
      simp only [ConnectionEvent.ownSteps, ConnectionEvent.relief]
      omega
  | authTimeout k handler => cases requests; exact Nat.le_refl _
  | takeError k handler front => cases requests; exact Nat.le_refl _
  | quit k handler => cases requests; exact Nat.le_refl _
  | _ => cases requests

theorem ownSteps_le_relief
    (e : ConnectionEvent) :
    e.ownSteps ≤ e.relief := by
  cases e <;> simp [ConnectionEvent.ownSteps, ConnectionEvent.relief]

/-- No channel of a connection exceeds its capacity. -/
theorem withinCapacity_client
    (run : ProcessRun vf tr s)
    (c : ClientPtr) :
    WithinCapacity (s.conn c) := by
  obtain ⟨id, hrun⟩ := connectionRun_fresh run c
  exact withinCapacity_of_run hrun (withinCapacity_newConnection id)

/-- When one connection changes, so does the work of all connections. -/
theorem total_connectionWork
    (run : ProcessRun vf tr s)
    (s' : Process) (c : ClientPtr)
    (others : ∀ d, d ≠ c →
      s'.server.conn d = s.server.conn d ∧ s'.conn d = s.conn d) :
    total (connectionWork s') + connectionWork s c =
      total (connectionWork s) + connectionWork s' c := by
  refine total_add_of_changed (finite_connectionWork run) c (fun d hd => ?_)
  obtain ⟨hserver, hconn⟩ := others d hd
  rw [connectionWork, connectionWork, hserver, hconn]

/-- The loops of games leave the connections alone. -/
theorem connectionWork_of_loop
    (s : Process)
    {ev : TCPServer.Event} {out : List Write} {server : TCPServer}
    (valid : serverSystem.Valid ⟨s.server, ev, out, server⟩)
    (loop : handlerOf ev = none) :
    connectionWork { s with server := server } = connectionWork s := by
  funext c
  rw [connectionWork, connectionWork,
    conn_of_other valid (d := c) (by simp [loop])]

/-- A step works something off, and brings in at most its cost. -/
theorem ProcessMove.work
    {t : ProcessTransition}
    (run : ProcessRun vf tr t.pre)
    (m : ProcessMove t) :
    t.post.work + ownSteps t.event ≤ t.pre.work + inputCost t.event := by
  have hinv := inv_of_run (serverRun_of_run run)
  cases m with
  | accept s c listening fresh => exact Nat.le_refl _
  | @started s c n server out accepted valid =>
      have hgames := total_gameWork (TCPServer.move_of_valid valid) hinv
      have hconns := total_connectionWork run
        { s.setConnection c (newConnection (generateClientId n)) with
          server := server } c (fun d hd =>
          ⟨conn_of_other valid (by simpa [handlerOf] using Ne.symm hd),
            Function.update_of_ne hd _ _⟩)
      have hafter := connectionWork_le
        { s.setConnection c (newConnection (generateClientId n)) with
          server := server } c
      simp only [queued, dequeued, relayed, List.length_nil] at hgames
      simp only [Process.setConnection, Function.update_self,
        work_newConnection] at hafter hconns
      simp only [Process.work, Process.setConnection, inputCost, ownSteps]
      omega
  | @alone s c e n k out opened enabled valid silent =>
      have hwork := (goroutineMove_of_valid valid).work
        (readerInv_client run c).inRange (withinCapacity_client run c)
      have hconns := total_connectionWork run (s.setConnection c k) c
        (fun d hd => ⟨rfl, Function.update_of_ne hd _ _⟩)
      have hbefore := connectionWork_of_opened opened
      have hafter := connectionWork_le (s.setConnection c k) c
      have hown := ownSteps_le_relief e
      simp only [Process.setConnection, Function.update_self] at hafter hconns
      simp only [Process.work, Process.setConnection, inputCost, ownSteps]
        at hwork ⊢
      omega
  | @joint s c e n k out ev server writes opened enabled valid requests
      serverValid =>
      have hmove := goroutineMove_of_valid valid
      have hwork := hmove.work (readerInv_client run c).inRange
        (withinCapacity_client run c)
      have hgames := total_gameWork (TCPServer.move_of_valid serverValid) hinv
      have hagrees : s.server.conn c = (s.conn c).handler.connState :=
        ((coupled_of_run run).clients c).opened opened
      have hown := relief_of_joint hagrees hmove requests writes server
        (targetGame ⟨s.server, ev, writes, server⟩)
      have hconns := total_connectionWork run
        { s.setConnection c k with server := server } c (fun d hd =>
          ⟨conn_of_other serverValid
            (by simpa [handlerOf_request requests] using Ne.symm hd),
            Function.update_of_ne hd _ _⟩)
      have hbefore := connectionWork_of_opened opened
      have hafter := connectionWork_le
        { s.setConnection c k with server := server } c
      simp only [Process.setConnection, Function.update_self] at hafter hconns
      simp only [Process.work, Process.setConnection, inputCost, ownSteps]
        at hwork hgames ⊢
      omega
  | @receive s g server out valid =>
      have hmove := TCPServer.move_of_valid valid
      have hgames := total_gameWork hmove hinv
      have hone : (dequeued g
          (⟨s.server, .receive g, out, server⟩ : ServerTransition)).length =
          1 := by
        cases hmove with
        | receive s g idle front => simp [dequeued, front]
        | close s c closes => cases closes
      simp only [targetGame, queued, List.length_nil, hone] at hgames
      have hconns := connectionWork_of_loop s valid rfl
      simp only [Process.work, hconns, inputCost, ownSteps]
      omega
  | @broadCast s g server out valid =>
      have hmove := TCPServer.move_of_valid valid
      have hgames := total_gameWork hmove hinv
      have hone : (relayed g
          (⟨s.server, .broadCast g, out, server⟩ : ServerTransition)).length =
          1 := by
        cases hmove with
        | broadCast s g holding writes => simp [relayed, holding]
        | close s c closes => cases closes
      simp only [targetGame, queued, List.length_nil, hone] at hgames
      have hconns := connectionWork_of_loop s valid rfl
      simp only [Process.work, hconns, inputCost, ownSteps]
      omega
  | closeQuitch s unclosed => exact Nat.le_refl _
  | closeListener s closed listening => exact Nat.le_refl _

/-- At the start there is nothing to do. -/
theorem work_newProcess
    (vf : ValidationFunc) :
    (newProcess vf).work = 0 := by
  have hconns : total (connectionWork (newProcess vf)) = 0 :=
    total_of_rest (fun _ => rfl)
  have hgames : total (gameWork (newProcess vf).server) = 0 :=
    total_of_rest (fun _ => rfl)
  rw [Process.work, hconns, hgames]

/-- The work of a run, from any reachable state. -/
theorem work_of_run
    (run : ProcessRun vf tr s)
    {tr' : List ProcessTransition} {s' : Process}
    (cont : processSystem.Run s tr' s') :
    (tr'.map (fun t => ownSteps t.event)).sum + s'.work ≤
      s.work + (tr'.map (fun t => inputCost t.event)).sum :=
  cont.spent_add_le (fun s => ∃ tr, ProcessRun vf tr s) Process.work
    (fun t => ownSteps t.event) (fun t => inputCost t.event) ⟨tr, run⟩
    (fun t valid ⟨_, hrun⟩ => ⟨_, hrun.snoc t valid⟩)
    (fun _ valid ⟨_, hrun⟩ => (processMove_of_valid valid).work hrun)

/--
The work of the process is bounded by what comes in.  In every run and for
every order of its steps, the goroutines take at most six steps for each byte
read, one for each read, two for each read error and 66 for each connection.
-/
theorem work_bound
    (run : ProcessRun vf tr s) :
    (tr.map (fun t => ownSteps t.event)).sum ≤
      (tr.map (fun t => inputCost t.event)).sum := by
  have hwork := work_of_run System.Run.nil run
  rw [work_newProcess, Nat.zero_add] at hwork
  exact (Nat.le_add_right _ _).trans hwork

/-- Two clients meet in a game, and one game state is relayed. -/
theorem work_bound_relay :
    ∃ tr s, ProcessRun nopValidationFunc tr s ∧
      tr.map Transition.event = relayRun ∧
      (tr.map (fun t => ownSteps t.event)).sum = 25 ∧
      25 ≤ (tr.map (fun t => inputCost t.event)).sum := by
  have hexec : (processSystem.exec (newProcess nopValidationFunc)
      relayRun).map (fun r => (r.1.map (fun t => ownSteps t.event)).sum) =
      some 25 := by
    decide +kernel
  obtain ⟨tr, s, hrun, hevents, hend⟩ := System.run_of_exec hexec
  exact ⟨tr, s, hrun, hevents, hend, hend ▸ work_bound hrun⟩

/-- The goroutines take no further step of their own. -/
def AtRest (s : Process) : Prop :=
  Quiescent s ∨ ∃ e, Internal e ∧ processSystem.step s e = .panic

/--
The process comes to rest.  From every reachable state, the steps that the
goroutines take while nothing comes in are bounded by what has come in before;
and they can be continued until all goroutines wait or one has panicked.
-/
theorem settles
    (run : ProcessRun vf tr s) :
    (∀ tr' s', processSystem.Run s tr' s' →
      (∀ t ∈ tr', Internal t.event) →
        (tr.map (fun t => ownSteps t.event)).sum + tr'.length ≤
          (tr.map (fun t => inputCost t.event)).sum) ∧
    ∃ tr' s', processSystem.Run s tr' s' ∧
      (∀ t ∈ tr', Internal t.event) ∧ AtRest s' := by
  constructor
  · intro tr' s' cont hinternal
    have hspent : tr'.map (fun t => ownSteps t.event) =
        tr'.map (fun _ => 1) :=
      List.map_congr_left (fun t ht => ownSteps_of_internal (hinternal t ht))
    have hgiven : tr'.map (fun t => inputCost t.event) =
        tr'.map (fun _ => 0) :=
      List.map_congr_left (fun t ht => inputCost_of_internal (hinternal t ht))
    have hwork := work_of_run System.Run.nil (run.append cont)
    rw [work_newProcess, List.map_append, List.map_append, hspent,
      hgiven] at hwork
    simp only [List.sum_append, List.map_const', List.sum_replicate,
      smul_eq_mul, Nat.mul_one, Nat.mul_zero] at hwork
    omega
  · have hless : ∀ t, processSystem.Valid t → Internal t.event →
        (∃ tr, ProcessRun vf tr t.pre) → t.post.work < t.pre.work := by
      rintro t valid hinternal ⟨_, hrun⟩
      have hwork := (processMove_of_valid valid).work hrun
      rw [ownSteps_of_internal hinternal,
        inputCost_of_internal hinternal] at hwork
      exact hwork
    exact System.exists_stuck (fun s => ∃ tr, ProcessRun vf tr s) Internal
      Process.work (fun t valid ⟨_, hrun⟩ => ⟨_, hrun.snoc t valid⟩) hless s
      ⟨tr, run⟩

/-- In the middle of the same run, when the game state has just been read. -/
theorem settles_relay :
    ∃ tr s, ProcessRun nopValidationFunc tr s ∧
      tr.map Transition.event = relayRun.take 27 ∧
      ∃ tr' s', processSystem.Run s tr' s' ∧
        (∀ t ∈ tr', Internal t.event) ∧ AtRest s' := by
  have hexec : (processSystem.exec (newProcess nopValidationFunc)
      (relayRun.take 27)).map (fun _ => ()) = some () := by
    decide +kernel
  obtain ⟨tr, s, hrun, hevents, -⟩ := System.run_of_exec hexec
  exact ⟨tr, s, hrun, hevents, (settles hrun).2⟩

end Run

end Settling

end Server
end TurnBasedGame
