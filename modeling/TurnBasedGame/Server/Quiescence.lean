import TurnBasedGame.Server.GameChannel
import TurnBasedGame.Server.ReaderEnd

/-!
# When nothing can move

The goroutines of the process wait for each other: a reader for room in `C`,
a handler for a packet in `C` or for room in the channel of its game, the loop
of a game for a packet.  The module looks at the states in which none of them
can take a step of its own, and shows that they wait for nothing but the
outside: all game states sent were relayed, and every connection has served
all packets that its framer has cut off, unless its handler has returned or
waits at the channel of no game.
-/

namespace TurnBasedGame
namespace Server

open Kernel
open PacketFramer

section Quiescence

/-- Steps of a connection that need nothing from outside the process. -/
def OwnStep : ConnectionEvent → Prop
  | .report => True
  | .pull => True
  | .send => True
  | .authPacket => True
  | .takePacket => True
  | .handled => True
  | .takeError => True
  | _ => False

/-- Steps of the process that need nothing from outside the process. -/
def Internal : ProcessEvent → Prop
  | .connection _ e _ => OwnStep e
  | .receive _ => True
  | .broadCast _ => True
  | _ => False

/-- No goroutine can take a step of its own. -/
def Quiescent (s : Process) : Prop :=
  ∀ e, Internal e → processSystem.step s e = .blocked

/-- A request to send a game state to a game without room in its channel. -/
structure NoRoom (s : TCPServer) (c : ClientPtr) (p : Packet) : Prop where
  type : p.getType = .ok packetGameState
  size : packetHeaderSize + gsDataOffset ≤ p.data.length
  own : (s.client c).clientID = embeddedID p
  full : ∀ g, (s.client c).gamePump = some g →
    gameChanCap ≤ (s.game g).ch.length

/-- A handler that waits at the nil channel of a client without a game. -/
structure Wedged (c : ClientPtr) (s : Process) : Prop where
  handling : ∃ p, (s.conn c).handler = .handling p ∧ NoRoom s.server c p
  noPump : (s.server.client c).gamePump = none

/-- A reader that waits for input, or for room in `C`, or has returned. -/
def ReaderWaits (k : Connection) : Prop :=
  match k.reader with
  | .reading => True
  | .returned => True
  | .sending _ => framerChanCap ≤ k.ch.length
  | _ => False

/-- A handler that waits for a packet or an error. -/
structure HandlerWaits (k : Connection) : Prop where
  hand : k.handler.inHand = []
  ch : k.ch = []
  errch : k.handler = .looping → k.errch = []

/-- Where the goroutines of a connection wait. -/
structure Waits (c : ClientPtr) (s : Process) : Prop where
  reader : ReaderWaits (s.conn c)
  handler : (s.conn c).handler = .returned ∨ Wedged c s ∨
    HandlerWaits (s.conn c)

section Blocked

variable {s : Process} {c : ClientPtr} {e : ConnectionEvent} {n : GameDraw}

/-- Where a step of an open connection waits. -/
theorem connection_blocked_iff
    (opened : Opened c s)
    (enabled : Enabled s c e) :
    processSystem.step s (.connection c e n) = .blocked ↔
      connectionStep (s.conn c) e = .blocked ∨
        ∃ k out ev, connectionStep (s.conn c) e = .next k out ∧
          serverEvent c (s.conn c) n e = some ev ∧
          TCPServer.step s.server ev = .blocked := by
  have hopened : s.server.conn c ≠ .absent := opened
  simp only [processSystem, Process.step, Process.connectionEvent, hopened,
    ne_eq, not_false_eq_true, enabled, and_self, if_true]
  cases hstep : connectionStep (s.conn c) e with
  | blocked => simp
  | panic => simp
  | next k out =>
      cases hrequest : serverEvent c (s.conn c) n e with
      | none => simp
      | some ev => simp

/-- A client whose connection returns is not waited for. -/
theorem returnConnection_not_blocked
    (s : TCPServer) (c : ClientPtr) :
    TCPServer.returnConnection s c ≠ .blocked := by
  rw [TCPServer.returnConnection_eq]
  simp

/-- When the request of a game state waits. -/
theorem gameStateHandler_blocked_iff
    {s : TCPServer} {p : Packet}
    (type : p.getType = .ok packetGameState) :
    TCPServer.gameStateHandler p c n s = .ok none ↔ NoRoom s c p := by
  simp only [TCPServer.gameStateHandler, bind, Except.bind, pure, Except.pure]
  by_cases hsize : packetHeaderSize + gsDataOffset ≤ p.data.length
  swap
  · -- the client id is out of the range of the data
    refine ⟨fun h => ?_, fun h => absurd h.size hsize⟩
    cases hdata : p.getData with
    | error err => simp [hdata] at h
    | ok data =>
        obtain ⟨hheader, rfl⟩ := getData_eq_ok_iff.mp hdata
        have hshort : p.payload.length < gsDataOffset := by
          rw [Packet.payload, List.length_drop]
          omega
        simp [hdata, gameStateClientID_panic hshort] at h
  have hlong : gsDataOffset ≤ p.payload.length := by
    rw [Packet.payload, List.length_drop]
    omega
  simp only [getData_eq_ok_iff.mpr ⟨Nat.le_of_add_right_le hsize, rfl⟩,
    gameStateClientID_ok hlong]
  by_cases hown : (s.client c).clientID = embeddedID p
  swap
  · have hother : (s.client c).clientID ≠
        (p.payload.take gsDataOffset).drop gsClientIdOffset := hown
    rw [if_pos hother]
    exact ⟨fun h => (by cases h), fun h => absurd h.own hown⟩
  have hsame : (s.client c).clientID =
      (p.payload.take gsDataOffset).drop gsClientIdOffset := hown
  rw [if_neg (not_not.mpr hsame)]
  cases hpump : (s.client c).gamePump with
  | none => exact ⟨fun _ => ⟨type, hsize, hown, by simp [hpump]⟩, fun _ => rfl⟩
  | some g =>
      by_cases hroom : (s.game g).ch.length < gameChanCap
      · simp only [hroom, if_true]
        refine ⟨fun h => (by cases h), fun h => ?_⟩
        exact absurd (h.full g hpump) (Nat.not_le.mpr hroom)
      · simp only [hroom, if_false, true_iff]
        refine ⟨type, hsize, hown, fun g' hg' => ?_⟩
        rw [hpump] at hg'
        cases hg'
        exact Nat.le_of_not_lt hroom

/-- Of the handlers in the table only one can wait. -/
theorem noRoom_of_handler
    {s : TCPServer} {p : Packet} {t : PacketType} {handler : HandlerFunc}
    (type : p.getType = .ok t)
    (registered : TCPServer.handlers t = some handler)
    (waits : handler p c n s = .ok none) :
    NoRoom s c p := by
  rcases TCPServer.handlers_cases registered with
    ⟨rfl, rfl⟩ | ⟨rfl, rfl⟩ | ⟨rfl, rfl⟩ | ⟨rfl, rfl⟩ | ⟨rfl, rfl⟩ |
      ⟨rfl, rfl⟩ | ⟨rfl, rfl⟩
  · cases waits
  · cases waits
  · cases hdata : p.getData <;>
      simp [TCPServer.joinGameHandler, hdata, bind, Except.bind, pure,
        Except.pure] at waits
  · cases hdata : p.getData <;>
      simp [TCPServer.startGameHandler, hdata, bind, Except.bind, pure,
        Except.pure] at waits
  · exact (gameStateHandler_blocked_iff type).mp waits
  · simp [TCPServer.leaveGameHandler, GameManager.disconnect_eq, bind,
      Except.bind, pure, Except.pure] at waits
  · simp [TCPServer.disconnectHandler, TCPServer.disconnect_eq, bind,
      Except.bind, pure, Except.pure] at waits

/-- A handler waits only for room in the channel of a game. -/
theorem dispatch_blocked_iff
    {s : TCPServer} {p : Packet} :
    TCPServer.dispatch s c p n = .blocked ↔ NoRoom s c p := by
  unfold TCPServer.dispatch
  constructor
  · intro h
    cases htype : p.getType with
    | error err => simp [htype] at h
    | ok t =>
        simp only [htype] at h
        cases hhandler : TCPServer.handlers t with
        | none => simp [hhandler] at h
        | some handler =>
            simp only [hhandler] at h
            cases hrun : handler p c n s with
            | error err => simp [hrun] at h
            | ok res =>
                cases res with
                | some e => simp [hrun] at h
                | none =>
                    exact noRoom_of_handler htype hhandler hrun
  · intro h
    have hhandler : TCPServer.handlers packetGameState =
        some TCPServer.gameStateHandler := rfl
    simp only [h.type, hhandler,
      (gameStateHandler_blocked_iff h.type).mpr h]

/-- The loop of a game waits only for a packet. -/
theorem receive_blocked
    {s : TCPServer} {g : GamePtr}
    (h : TCPServer.step s (.receive g) = .blocked) :
    (s.game g).holding ≠ none ∨ (s.game g).ch = [] := by
  cases hholding : (s.game g).holding with
  | some p => exact Or.inl (by simp)
  | none =>
      refine Or.inr ?_
      cases hch : (s.game g).ch with
      | nil => rfl
      | cons p rest =>
          simp only [TCPServer.step, TCPServer.receive, hholding, hch] at h
          split at h <;> cases h

/-- The loop of a game never waits in a broadcast. -/
theorem broadCast_blocked
    {s : TCPServer} {g : GamePtr}
    (h : TCPServer.step s (.broadCast g) = .blocked) :
    (s.game g).holding = none := by
  cases hholding : (s.game g).holding with
  | none => rfl
  | some p =>
      simp only [TCPServer.step, TCPServer.finishBroadCast, hholding] at h
      split at h <;> cases h

end Blocked

section Quiet

variable {s : Process} {c : ClientPtr}

/-- The loops of all games wait for a packet. -/
theorem Quiescent.games
    (h : Quiescent s) (g : GamePtr) :
    (s.server.game g).holding = none ∧ (s.server.game g).ch = [] := by
  have hbroad := h (.broadCast g) trivial
  have hreceive := h (.receive g) trivial
  simp only [processSystem, Process.step, Outcome.map_eq_blocked_iff]
    at hbroad hreceive
  have hholding := broadCast_blocked hbroad
  exact ⟨hholding, (receive_blocked hreceive).resolve_left (by simp [hholding])⟩

/-- A step that is not enabled waits in the connection or at the server. -/
theorem Quiescent.connection
    (h : Quiescent s)
    (opened : Opened c s)
    {e : ConnectionEvent}
    (own : OwnStep e) :
    connectionStep (s.conn c) e = .blocked ∨
      ∃ k out ev, connectionStep (s.conn c) e = .next k out ∧
        serverEvent c (s.conn c) 0 e = some ev ∧
        TCPServer.step s.server ev = .blocked := by
  have henabled : Enabled s c e := by
    cases e <;> first | exact trivial | exact own.elim
  exact (connection_blocked_iff opened henabled).mp (h (.connection c e 0) own)

/-- Where the reader waits. -/
theorem Quiescent.reader
    (h : Quiescent s)
    (opened : Opened c s)
    (inv : ReaderInv (s.conn c)) :
    ReaderWaits (s.conn c) := by
  unfold ReaderWaits
  cases hreader : (s.conn c).reader with
  | reading => trivial
  | returned => trivial
  | pushing =>
      -- a pull never waits
      rcases h.connection opened (e := .pull) trivial with
        hwait | ⟨k, out, ev, -, hrequest, -⟩
      · simp only [connectionStep, hreader, inv.inRange.pull_eq] at hwait
        cases hverdict : verdict (s.conn c).framer.live <;>
          simp [hverdict] at hwait
      · cases hrequest
  | sending pkt =>
      rcases h.connection opened (e := .send) trivial with
        hwait | ⟨k, out, ev, -, hrequest, -⟩
      · simp only [connectionStep, hreader] at hwait
        split_ifs at hwait with hroom
        exact Nat.le_of_not_lt hroom
      · cases hrequest
  | failing err =>
      -- no error was sent before, so there is room for this one
      have hempty : (s.conn c).errch = [] :=
        inv.errch_nil (by simp [hreader])
      rcases h.connection opened (e := .report) trivial with
        hwait | ⟨k, out, ev, -, hrequest, -⟩
      · simp [connectionStep, hreader, hempty, errchCap] at hwait
      · cases hrequest

/-- Where the handler waits. -/
theorem Quiescent.handler
    (h : Quiescent s)
    (opened : Opened c s)
    (coupled : CoupledAt c s) :
    (s.conn c).handler = .returned ∨ Wedged c s ∨
      HandlerWaits (s.conn c) := by
  have hconn := coupled.opened opened
  cases hhandler : (s.conn c).handler with
  | returned => exact Or.inl rfl
  | authenticating id =>
      refine Or.inr (Or.inr ⟨by simp [hhandler, HandlerState.inHand], ?_,
        by simp [hhandler]⟩)
      rw [hhandler] at hconn
      cases hch : (s.conn c).ch with
      | nil => rfl
      | cons p rest =>
          exfalso
          rcases h.connection opened (e := .authPacket) trivial with
            hwait | ⟨k, out, ev, -, hrequest, hserver⟩
          · simp only [connectionStep, hhandler, hch] at hwait
            split at hwait <;> cases hwait
          · simp only [serverEvent, hch, List.head?_cons, Option.map_some,
              Option.some.injEq] at hrequest
            subst hrequest
            simp only [TCPServer.step, hconn, HandlerState.connState,
              TCPServer.authenticatePacket] at hserver
            split at hserver
            · cases hserver
            · exact returnConnection_not_blocked _ c hserver
            · cases hserver
  | looping =>
      refine Or.inr (Or.inr ⟨by simp [hhandler, HandlerState.inHand], ?_,
        fun _ => ?_⟩)
      · cases hch : (s.conn c).ch with
        | nil => rfl
        | cons p rest =>
            exfalso
            rcases h.connection opened (e := .takePacket) trivial with
              hwait | ⟨k, out, ev, -, hrequest, -⟩
            · simp only [connectionStep, hhandler, hch] at hwait
              split at hwait <;> cases hwait
            · cases hrequest
      · cases herrch : (s.conn c).errch with
        | nil => rfl
        | cons err rest =>
            exfalso
            rcases h.connection opened (e := .takeError) trivial with
              hwait | ⟨k, out, ev, -, hrequest, hserver⟩
            · simp [connectionStep, hhandler, herrch] at hwait
            · simp only [serverEvent, Option.some.injEq] at hrequest
              subst hrequest
              rw [hhandler] at hconn
              simp only [TCPServer.step, hconn,
                HandlerState.connState] at hserver
              exact returnConnection_not_blocked _ c hserver
  | handling p =>
      refine Or.inr (Or.inl ?_)
      rw [hhandler] at hconn
      rcases h.connection opened (e := .handled) trivial with
        hwait | ⟨k, out, ev, -, hrequest, hserver⟩
      · simp [connectionStep, hhandler] at hwait
      · simp only [serverEvent, hhandler, Option.some.injEq] at hrequest
        subst hrequest
        simp only [TCPServer.step, hconn, HandlerState.connState] at hserver
        have hnoRoom := dispatch_blocked_iff.mp hserver
        refine ⟨⟨p, hhandler, hnoRoom⟩, ?_⟩
        -- the channel of a game would have room
        by_contra hpump
        obtain ⟨g, hg⟩ := Option.ne_none_iff_exists'.mp hpump
        have hroom := hnoRoom.full g hg
        rw [(h.games g).2] at hroom
        cases hroom

/-- A step that waits in its connection waits. -/
theorem blocked_of_connection
    {e : ConnectionEvent} {n : GameDraw}
    (h : connectionStep (s.conn c) e = .blocked) :
    processSystem.step s (.connection c e n) = .blocked := by
  simp only [processSystem, Process.step, Process.connectionEvent, h]
  split_ifs <;> rfl

/-- The goroutines of a connection that wait take no step of their own. -/
theorem Waits.blocked
    (h : Waits c s)
    (opened : Opened c s)
    (coupled : CoupledAt c s)
    {e : ConnectionEvent} {n : GameDraw}
    (own : OwnStep e) :
    processSystem.step s (.connection c e n) = .blocked := by
  obtain ⟨hreader, hhandler⟩ := h
  unfold ReaderWaits at hreader
  cases e with
  | report =>
      refine blocked_of_connection ?_
      cases hr : (s.conn c).reader <;> simp [hr, connectionStep] at hreader ⊢
  | pull =>
      refine blocked_of_connection ?_
      cases hr : (s.conn c).reader <;> simp [hr, connectionStep] at hreader ⊢
  | send =>
      refine blocked_of_connection ?_
      cases hr : (s.conn c).reader <;>
        simp [hr, connectionStep] at hreader ⊢
      exact hreader
  | authPacket =>
      refine blocked_of_connection ?_
      rcases hhandler with hh | ⟨⟨p, hh, -⟩, -⟩ | ⟨-, hch, -⟩
      · simp [connectionStep, hh]
      · simp [connectionStep, hh]
      · cases hh : (s.conn c).handler <;> simp [connectionStep, hh, hch]
  | takePacket =>
      refine blocked_of_connection ?_
      rcases hhandler with hh | ⟨⟨p, hh, -⟩, -⟩ | ⟨-, hch, -⟩
      · simp [connectionStep, hh]
      · simp [connectionStep, hh]
      · cases hh : (s.conn c).handler <;> simp [connectionStep, hh, hch]
  | takeError =>
      refine blocked_of_connection ?_
      rcases hhandler with hh | ⟨⟨p, hh, -⟩, -⟩ | ⟨-, -, herrch⟩
      · simp [connectionStep, hh]
      · simp [connectionStep, hh]
      · cases hh : (s.conn c).handler <;> simp [connectionStep, hh]
        simp [herrch hh]
  | handled =>
      rcases hhandler with hh | ⟨⟨p, hh, hnoRoom⟩, -⟩ | ⟨hhand, -, -⟩
      · exact blocked_of_connection (by simp [connectionStep, hh])
      · -- the handler is at a send on a nil channel
        have hconn := coupled.opened opened
        rw [hh] at hconn
        have henabled : Enabled s c .handled := trivial
        refine (connection_blocked_iff opened henabled).mpr (Or.inr
          ⟨{ s.conn c with handler := .looping }, [], .packet c p n, ?_, ?_,
            ?_⟩)
        · simp only [connectionStep, hh]
        · simp only [serverEvent, hh]
        · simp only [TCPServer.step, hconn, HandlerState.connState]
          exact dispatch_blocked_iff.mpr hnoRoom
      · refine blocked_of_connection ?_
        cases hh : (s.conn c).handler <;>
          simp [connectionStep, hh, HandlerState.inHand] at hhand ⊢
  | _ => exact own.elim

/-- A process is quiet when all its goroutines wait. -/
theorem quiescent_of_waits
    (games : ∀ g, (s.server.game g).holding = none ∧
      (s.server.game g).ch = [])
    (waits : ∀ c, Opened c s → Waits c s)
    (coupled : ∀ c, CoupledAt c s) :
    Quiescent s := by
  intro e hinternal
  cases e with
  | connection c e n =>
      by_cases hopened : Opened c s
      · exact (waits c hopened).blocked hopened (coupled c) hinternal
      · have habsent : s.server.conn c = .absent := not_not.mp hopened
        simp [processSystem, Process.step, Process.connectionEvent, habsent]
  | receive g =>
      obtain ⟨hholding, hch⟩ := games g
      simp [processSystem, Process.step, TCPServer.step, TCPServer.receive,
        hholding, hch]
  | broadCast g =>
      simp [processSystem, Process.step, TCPServer.step,
        TCPServer.finishBroadCast, (games g).1]
  | _ => exact hinternal.elim

end Quiet

section Run

variable {vf : ValidationFunc} {tr : List ProcessTransition} {s : Process}

/-- The framer of every connection is in order. -/
theorem readerInv_client
    (run : ProcessRun vf tr s)
    (c : ClientPtr) :
    ReaderInv (s.conn c) := by
  obtain ⟨id, hrun⟩ := connectionRun_fresh run c
  exact readerInv_of_run hrun (.newConnection id)

/--
When no goroutine can take a step of its own, every packet queued for a game
was handed to `broadCast`, in order, and every connection has handed all
packets that its framer has cut off to the server and waits for more, or has
returned, or its handler waits for ever since it has a game state for no game.
-/
theorem quiescent_served
    (run : ProcessRun vf tr s)
    (quiet : Quiescent s) :
    (∀ g, ((serverTrace tr).flatMap (queued g)).map Prod.snd =
      (serverTrace tr).flatMap (relayed g)) ∧
    ∀ c, Opened c s →
      (s.conn c).handler = .returned ∨ Wedged c s ∨
        (served c tr = sentPackets (clientFramerTrace c tr) ∧
          ((s.conn c).reader = .reading ∨
            (s.conn c).reader = .returned)) := by
  refine ⟨fun g => ?_, fun c hopened => ?_⟩
  · obtain ⟨hholding, hch⟩ := quiet.games g
    rw [queued_log (serverRun_of_run run) g, inFlight, hholding, hch]
    simp
  · have hreader := quiet.reader hopened (readerInv_client run c)
    rcases quiet.handler hopened ((coupled_of_run run).clients c) with
      hreturned | hwedged | ⟨hhand, hch, -⟩
    · exact Or.inl hreturned
    · exact Or.inr (Or.inl hwedged)
    refine Or.inr (Or.inr ?_)
    unfold ReaderWaits at hreader
    have hqueue := served_queue run c
    cases hr : (s.conn c).reader with
    | reading =>
        refine ⟨?_, Or.inl rfl⟩
        simpa [Connection.queue, hhand, hch, hr, ReaderState.inHand]
          using hqueue
    | returned =>
        refine ⟨?_, Or.inr rfl⟩
        simpa [Connection.queue, hhand, hch, hr, ReaderState.inHand]
          using hqueue
    | sending pkt =>
        rw [hr, hch] at hreader
        cases hreader
    | pushing => simp [hr] at hreader
    | failing err => simp [hr] at hreader

/-- An open connection was started by some step of the run. -/
theorem started_of_opened
    (run : ProcessRun vf tr s)
    {c : ClientPtr}
    (opened : Opened c s) :
    ∃ n, .handleConnection c n ∈ tr.map Transition.event := by
  obtain ⟨t, ht, ⟨n, hevent, -⟩, -⟩ := (connectionRun_of_run run c).2 opened
  exact ⟨n, List.mem_map.mpr ⟨t, ht, hevent⟩⟩

/-- After a relayed game state all goroutines wait. -/
theorem quiescent_relay :
    ∃ tr s, processSystem.exec (newProcess nopValidationFunc) relayRun =
        some (tr, s) ∧ Quiescent s ∧
      (∀ c ∈ [0, 1], Opened c s ∧ (s.conn c).handler = .looping) := by
  have hend : (processSystem.exec (newProcess nopValidationFunc)
      relayRun).map (fun r => (r.2.server.allocated,
        (r.2.server.game 0).holding, (r.2.server.game 0).ch,
        [0, 1].all (fun c => decide (r.2.server.conn c ≠ .absent ∧
          (r.2.conn c).reader = .reading ∧ (r.2.conn c).handler = .looping ∧
          (r.2.conn c).ch = [] ∧ (r.2.conn c).errch = [])))) =
      some (1, none, [], true) := by
    decide +kernel
  obtain ⟨⟨tr, s⟩, hexec, hend⟩ := Option.map_eq_some_iff.mp hend
  obtain ⟨hrun, hevents⟩ := processSystem.exec_run relayRun _ hexec
  simp only [Prod.mk.injEq, List.all_eq_true, decide_eq_true_eq] at hend
  obtain ⟨hallocated, hholding, hch, hconns⟩ := hend
  refine ⟨tr, s, hexec, quiescent_of_waits (fun g => ?_)
    (fun c hopened => ?_) (coupled_of_run hrun).clients,
    fun c hc => ⟨(hconns c hc).1, (hconns c hc).2.2.1⟩⟩
  · by_cases hg : g = 0
    · rw [hg]
      exact ⟨hholding, hch⟩
    · have hinv := inv_of_run (serverRun_of_run hrun)
      obtain ⟨-, hch', hholding'⟩ := hinv.unallocated g
        (by rw [hallocated]; exact Nat.one_le_iff_ne_zero.mpr hg)
      exact ⟨hholding', hch'⟩
  · obtain ⟨n, hn⟩ := started_of_opened hrun hopened
    rw [hevents] at hn
    have hc : c ∈ [0, 1] := by
      simp only [relayRun, connects, sends, List.mem_append, List.mem_cons,
        List.not_mem_nil, reduceCtorEq, ProcessEvent.handleConnection.injEq,
        false_or, or_false] at hn
      rcases hn with ⟨rfl, -⟩ | ⟨rfl, -⟩
      · exact List.mem_cons_self
      · exact List.mem_cons_of_mem _ List.mem_cons_self
    obtain ⟨-, hreader, hhandler, hempty, herrch⟩ := hconns c hc
    exact ⟨by simp [ReaderWaits, hreader],
      Or.inr (Or.inr ⟨by simp [hhandler, HandlerState.inHand], hempty,
        fun _ => herrch⟩)⟩

/-- There the creator of the game has been served all its packets. -/
theorem quiescent_served_relay :
    ∃ tr s, ProcessRun nopValidationFunc tr s ∧
      tr.map Transition.event = relayRun ∧ Quiescent s ∧
      served 0 tr = sentPackets (clientFramerTrace 0 tr) := by
  obtain ⟨tr, s, hexec, hquiet, hconns⟩ := quiescent_relay
  obtain ⟨hrun, hevents⟩ := processSystem.exec_run relayRun _ hexec
  obtain ⟨hopened, hlooping⟩ := hconns 0 (by simp)
  refine ⟨tr, s, hrun, hevents, hquiet, ?_⟩
  rcases (quiescent_served hrun hquiet).2 0 hopened with
    hreturned | ⟨⟨p, hhandling, -⟩, -⟩ | ⟨hserved, -⟩
  · cases hlooping.symm.trans hreturned
  · cases hlooping.symm.trans hhandling
  · exact hserved

end Run

end Quiescence

end Server
end TurnBasedGame
