import TurnBasedGame.Server.PacketSafety
import TurnBasedGame.Server.Quiescence

/-!
# What stops the process

A goroutine that panics stops the whole process, and with it the connections
of all other clients.  The module lists the steps that panic in a reachable
state of the process, for every goroutine: those on packets too short for what
is read from them, the validation function where it panics itself, and a
second `Close`.

A client whose framer meets neither a length field that wraps around nor a short
game state never stops the process, whatever the other clients send.  This is
about what the framer makes of the bytes: a client whose packets are all well
formed is on the safe side only if each of them leaves room in the buffer for
one more read, since the framer loses bytes of longer ones.
-/

namespace TurnBasedGame
namespace Server

open Kernel
open PacketFramer

section Crashes

/-- Packets on which `authenticate` slices out of range. -/
def AuthPanics (p : Packet) : Prop :=
  p.data.length ≤ 1 ∨
    (p.getType = .ok packetAuth ∧ p.data.length < packetHeaderSize)

/-- Packets on which their request handler slices out of range. -/
def HandlerPanics (p : Packet) : Prop :=
  p.data.length ≤ 1 ∨
    ((p.getType = .ok packetJoinGame ∨ p.getType = .ok packetStartGame) ∧
      p.data.length < packetHeaderSize) ∨
    TCPServer.ShortGameState p

/-- The steps of a connection that panic. -/
def ConnectionCrash (k : Connection) : ConnectionEvent → Prop
  | .authPacket => ∃ id p rest, k.handler = .authenticating id ∧
      k.ch = p :: rest ∧ AuthPanics p
  | .takePacket => ∃ p rest, k.handler = .looping ∧
      k.ch = p :: rest ∧ p.data.length ≤ 1
  | .handled => ∃ p, k.handler = .handling p ∧ HandlerPanics p
  | _ => False

/-- The steps of the process that panic. -/
def Crashes (s : Process) : ProcessEvent → Prop
  | .connection c e _ => Opened c s ∧ ConnectionCrash (s.conn c) e
  | .broadCast g => ∃ p err, (s.server.game g).holding = some p ∧
      (s.server.game g).validationFunc p = .error err
  | .closeQuitch => s.quitch = true
  | _ => False

section Packet

variable {p : Packet}

/-- The type of a packet is read from its second byte. -/
theorem getType_error_iff :
    (∃ err, p.getType = .error err) ↔ p.data.length ≤ 1 := by
  obtain ⟨data⟩ := p
  match data with
  | [] => exact ⟨fun _ => by simp, fun _ => ⟨_, rfl⟩⟩
  | [b] => exact ⟨fun _ => by simp, fun _ => ⟨_, rfl⟩⟩
  | v :: b :: rest => simp [getType_cons]

/-- The data of a packet starts behind its header. -/
theorem getData_error_iff :
    (∃ err, p.getData = .error err) ↔ p.data.length < packetHeaderSize := by
  constructor
  · rintro ⟨err, herr⟩
    by_contra hlong
    rw [getData_ok (Nat.le_of_not_lt hlong)] at herr
    cases herr
  · intro hshort
    cases hdata : p.getData with
    | error err => exact ⟨err, rfl⟩
    | ok data =>
        exact absurd (getData_eq_ok_iff.mp hdata).1 (Nat.not_le.mpr hshort)

theorem authenticate_error_iff
    {id : ClientID} :
    (∃ err, TCPServer.authenticate id p = .error err) ↔ AuthPanics p := by
  unfold TCPServer.authenticate AuthPanics
  cases htype : p.getType with
  | error err =>
      have hshort := getType_error_iff.mp ⟨err, htype⟩
      simp [bind, Except.bind, hshort]
  | ok t =>
      have hlong : ¬ p.data.length ≤ 1 := fun hshort => by
        obtain ⟨err, herr⟩ := getType_error_iff.mpr hshort
        cases herr.symm.trans htype
      by_cases ht : t = packetAuth
      swap
      · simp [bind, Except.bind, pure, Except.pure, ht, hlong]
      subst ht
      rw [← getData_error_iff]
      cases hdata : p.getData with
      | error err => simp [bind, Except.bind, hlong]
      | ok data =>
          by_cases hid : data = id <;>
            simp [bind, Except.bind, pure, Except.pure, hid, hlong]

/-- Of the handlers, these read the data of their packet. -/
theorem short_panic_iff
    {t : PacketType} {handler : HandlerFunc} {c : ClientPtr} {n : GameDraw}
    {s : TCPServer}
    (short : p.data.length < packetHeaderSize)
    (registered : TCPServer.handlers t = some handler) :
    (∃ err, handler p c n s = .error err) ↔
      t = packetJoinGame ∨ t = packetStartGame ∨ t = packetGameState := by
  obtain ⟨err, hdata⟩ := getData_error_iff.mpr short
  rcases TCPServer.handlers_cases registered with
    ⟨rfl, rfl⟩ | ⟨rfl, rfl⟩ | ⟨rfl, rfl⟩ | ⟨rfl, rfl⟩ | ⟨rfl, rfl⟩ |
      ⟨rfl, rfl⟩ | ⟨rfl, rfl⟩
  · refine iff_of_false ?_ (by decide)
    rintro ⟨_, h⟩
    cases h
  · refine iff_of_false ?_ (by decide)
    rintro ⟨_, h⟩
    cases h
  · refine iff_of_true ⟨err, ?_⟩ (by decide)
    simp [TCPServer.joinGameHandler, hdata, bind, Except.bind]
  · refine iff_of_true ⟨err, ?_⟩ (by decide)
    simp [TCPServer.startGameHandler, hdata, bind, Except.bind]
  · refine iff_of_true ⟨err, ?_⟩ (by decide)
    simp [TCPServer.gameStateHandler, hdata, bind, Except.bind]
  · refine iff_of_false ?_ (by decide)
    rintro ⟨_, h⟩
    simp [TCPServer.leaveGameHandler, GameManager.disconnect_eq, bind,
      Except.bind, pure, Except.pure] at h
  · refine iff_of_false ?_ (by decide)
    rintro ⟨_, h⟩
    simp [TCPServer.disconnectHandler, TCPServer.disconnect_eq, bind,
      Except.bind, pure, Except.pure] at h

/-- When serving a packet panics, for packets of any length. -/
theorem dispatch_panic_iff_any
    {s : TCPServer} {c : ClientPtr} {n : GameDraw} :
    TCPServer.dispatch s c p n = .panic ↔ HandlerPanics p := by
  cases htype : p.getType with
  | error err =>
      have hshort := getType_error_iff.mp ⟨err, htype⟩
      exact iff_of_true (by simp [TCPServer.dispatch, htype]) (Or.inl hshort)
  | ok t =>
      have hlong : ¬ p.data.length ≤ 1 := fun hshort => by
        obtain ⟨err, herr⟩ := getType_error_iff.mpr hshort
        cases herr.symm.trans htype
      by_cases hheader : packetHeaderSize ≤ p.data.length
      · rw [TCPServer.dispatch_panic_iff_short hheader]
        simp [HandlerPanics, hlong, Nat.not_lt.mpr hheader]
      have hshort : p.data.length < packetHeaderSize :=
        Nat.lt_of_not_le hheader
      have hstate : p.data.length < packetHeaderSize + gsDataOffset :=
        Nat.lt_of_lt_of_le hshort (Nat.le_add_right _ _)
      rw [TCPServer.dispatch_panic_iff htype]
      simp only [HandlerPanics, hlong, htype, Except.ok.injEq, hshort,
        and_true, false_or, TCPServer.ShortGameState, hstate]
      constructor
      · rintro ⟨handler, err, hregistered, herr⟩
        have hcases := (short_panic_iff hshort hregistered).mp ⟨err, herr⟩
        tauto
      · intro ht
        have hregistered : ∃ handler, TCPServer.handlers t = some handler := by
          rcases ht with (rfl | rfl) | rfl <;> exact ⟨_, rfl⟩
        obtain ⟨handler, hregistered⟩ := hregistered
        obtain ⟨err, herr⟩ := (short_panic_iff (c := c) (n := n) (s := s)
          hshort hregistered).mpr (by tauto)
        exact ⟨handler, err, hregistered, herr⟩

end Packet

section Steps

variable {vf : ValidationFunc} {tr : List ProcessTransition} {s : Process}
variable {c : ClientPtr} {e : ConnectionEvent} {n : GameDraw}

/-- A step of an open connection panics in the connection or at the server. -/
theorem connection_panic_iff
    (opened : Opened c s)
    (enabled : Enabled s c e) :
    processSystem.step s (.connection c e n) = .panic ↔
      connectionStep (s.conn c) e = .panic ∨
        ∃ k out ev, connectionStep (s.conn c) e = .next k out ∧
          serverEvent c (s.conn c) n e = some ev ∧
          TCPServer.step s.server ev = .panic := by
  have hopened : s.server.conn c ≠ .absent := opened
  simp only [processSystem, Process.step, Process.connectionEvent, hopened,
    ne_eq, not_false_eq_true, enabled, and_self, if_true]
  cases hstep : connectionStep (s.conn c) e with
  | blocked => simp
  | panic => simp
  | next k out =>
      cases hevent : serverEvent c (s.conn c) n e with
      | none => simp
      | some ev => simp

/-- The steps that panic in the goroutines of the connection. -/
theorem connectionStep_panic_iff
    {k : Connection}
    (inRange : k.framer.InRange) :
    connectionStep k e = .panic ↔ e ≠ .handled ∧ ConnectionCrash k e := by
  cases e with
  | read data =>
      refine iff_of_false ?_ (fun h => h.2)
      cases hreader : k.reader <;>
        simp [connectionStep, hreader, inRange.fill_eq]
      split_ifs <;> simp
  | pull =>
      refine iff_of_false ?_ (fun h => h.2)
      cases hreader : k.reader <;> simp [connectionStep, hreader]
      rw [inRange.pull_eq]
      cases verdict k.framer.live <;> simp
  | eof =>
      refine iff_of_false ?_ (fun h => h.2)
      cases hreader : k.reader <;> simp [connectionStep, hreader]
  | readError err =>
      refine iff_of_false ?_ (fun h => h.2)
      cases hreader : k.reader <;> simp [connectionStep, hreader]
  | report =>
      refine iff_of_false ?_ (fun h => h.2)
      cases hreader : k.reader <;> simp [connectionStep, hreader]
      split_ifs <;> simp
  | send =>
      refine iff_of_false ?_ (fun h => h.2)
      cases hreader : k.reader <;> simp [connectionStep, hreader]
      split_ifs <;> simp
  | authTimeout =>
      refine iff_of_false ?_ (fun h => h.2)
      cases hhandler : k.handler <;> simp [connectionStep, hhandler]
  | takeError =>
      refine iff_of_false ?_ (fun h => h.2)
      cases hhandler : k.handler <;> cases herrch : k.errch <;>
        simp [connectionStep, hhandler, herrch]
  | quit =>
      refine iff_of_false ?_ (fun h => h.2)
      cases hhandler : k.handler <;> simp [connectionStep, hhandler]
  | handled =>
      refine iff_of_false ?_ (fun h => h.1 rfl)
      cases hhandler : k.handler <;> simp [connectionStep, hhandler]
  | authPacket =>
      simp only [ne_eq, reduceCtorEq, not_false_eq_true, true_and,
        ConnectionCrash]
      cases hhandler : k.handler with
      | authenticating id =>
          cases hch : k.ch with
          | nil => simp [connectionStep, hhandler, hch]
          | cons p rest =>
              simp only [connectionStep, hhandler, hch,
                HandlerState.authenticating.injEq, List.cons.injEq]
              cases hauth : TCPServer.authenticate id p with
              | error err =>
                  exact iff_of_true rfl ⟨id, p, rest, rfl, ⟨rfl, rfl⟩,
                    authenticate_error_iff.mp ⟨err, hauth⟩⟩
              | ok res =>
                  refine iff_of_false (by cases res <;> simp) ?_
                  rintro ⟨id', p', rest', rfl, ⟨rfl, rfl⟩, hpanics⟩
                  obtain ⟨err, herr⟩ := authenticate_error_iff.mpr hpanics
                  cases herr.symm.trans hauth
      | _ => simp [connectionStep, hhandler]
  | takePacket =>
      simp only [ne_eq, reduceCtorEq, not_false_eq_true, true_and,
        ConnectionCrash]
      cases hhandler : k.handler with
      | looping =>
          cases hch : k.ch with
          | nil => simp [connectionStep, hhandler, hch]
          | cons p rest =>
              simp only [connectionStep, hhandler, hch, List.cons.injEq]
              cases htype : p.getType with
              | error err =>
                  exact iff_of_true rfl ⟨p, rest, trivial, ⟨rfl, rfl⟩,
                    getType_error_iff.mp ⟨err, htype⟩⟩
              | ok t =>
                  refine iff_of_false (by simp) ?_
                  rintro ⟨p', rest', -, ⟨rfl, rfl⟩, hshort⟩
                  obtain ⟨err, herr⟩ := getType_error_iff.mpr hshort
                  cases herr.symm.trans htype
      | _ => simp [connectionStep, hhandler]

/-- What the connection asks of the server panics only in a handler. -/
theorem server_panic_iff
    {k k' : Connection} {out : List Packet} {ev : TCPServer.Event}
    {server : TCPServer}
    (agrees : server.conn c = k.handler.connState)
    (m : GoroutineMove ⟨k, e, out, k'⟩)
    (requests : serverEvent c k n e = some ev) :
    TCPServer.step server ev = .panic ↔ e = .handled ∧ ConnectionCrash k e := by
  cases m with
  | authPassed k handler front passes =>
      simp only [serverEvent, front, List.head?_cons, Option.map_some,
        Option.some.injEq] at requests
      rw [handler] at agrees
      simp [← requests, TCPServer.step, agrees, HandlerState.connState,
        TCPServer.authenticatePacket, passes]
  | authFailed k handler front fails =>
      simp only [serverEvent, front, List.head?_cons, Option.map_some,
        Option.some.injEq] at requests
      rw [handler] at agrees
      simp [← requests, TCPServer.step, agrees, HandlerState.connState,
        TCPServer.authenticatePacket, fails, TCPServer.returnConnection_eq]
  | authTimeout k handler =>
      cases requests
      rw [handler] at agrees
      simp [TCPServer.step, agrees, HandlerState.connState,
        TCPServer.returnConnection_eq]
  | @handled k p handler =>
      simp only [serverEvent, handler, Option.some.injEq] at requests
      rw [handler] at agrees
      simp only [← requests, TCPServer.step, agrees, HandlerState.connState,
        dispatch_panic_iff_any, true_and, ConnectionCrash, handler,
        HandlerState.handling.injEq, exists_eq_left']
  | takeError k handler front =>
      cases requests
      rw [handler] at agrees
      simp [TCPServer.step, agrees, HandlerState.connState,
        TCPServer.returnConnection_eq]
  | quit k handler =>
      cases requests
      rw [handler] at agrees
      simp [TCPServer.step, agrees, HandlerState.connState,
        TCPServer.returnConnection_eq]
  | _ => cases requests

/-- The steps of a connection that panic, in a reachable state. -/
theorem connection_panic_iff_crash
    (run : ProcessRun vf tr s) :
    processSystem.step s (.connection c e n) = .panic ↔
      Opened c s ∧ ConnectionCrash (s.conn c) e := by
  have hinRange := (readerInv_client run c).inRange
  have hcoupled := (coupled_of_run run).clients c
  by_cases hopened : Opened c s
  swap
  · have habsent : s.server.conn c = .absent := not_not.mp hopened
    simp [processSystem, Process.step, Process.connectionEvent, habsent,
      hopened]
  by_cases henabled : Enabled s c e
  swap
  · -- such steps neither are possible nor would panic
    have hcrash : ¬ ConnectionCrash (s.conn c) e := by
      cases e <;> first | exact id | exact absurd trivial henabled
    simp [processSystem, Process.step, Process.connectionEvent, henabled,
      hcrash]
  rw [connection_panic_iff hopened henabled,
    connectionStep_panic_iff hinRange]
  constructor
  · rintro (⟨hother, hcrash⟩ | ⟨k, out, ev, hnext, hevent, hpanic⟩)
    · exact ⟨hopened, hcrash⟩
    · have hvalid : connectionSystem.Valid ⟨s.conn c, e, out, k⟩ := hnext
      exact ⟨hopened, ((server_panic_iff (hcoupled.opened hopened)
        (goroutineMove_of_valid hvalid) hevent).mp hpanic).2⟩
  · rintro ⟨-, hcrash⟩
    by_cases hhandled : e = .handled
    swap
    · exact Or.inl ⟨hhandled, hcrash⟩
    subst hhandled
    obtain ⟨p, hp, hpanics⟩ := hcrash
    have hnext : connectionStep (s.conn c) .handled =
        .next { s.conn c with handler := .looping } [] := by
      simp [connectionStep, hp]
    have hvalid : connectionSystem.Valid ⟨s.conn c, .handled, [],
      { s.conn c with handler := .looping }⟩ := hnext
    have hevent : serverEvent c (s.conn c) n .handled = some (.packet c p n) := by
      simp [serverEvent, hp]
    exact Or.inr ⟨_, _, _, hnext, hevent, (server_panic_iff
      (hcoupled.opened hopened) (goroutineMove_of_valid hvalid) hevent).mpr
      ⟨rfl, p, hp, hpanics⟩⟩

/-- A broadcast panics when the validation of its packet does. -/
theorem broadCast_panic_iff
    {tr : List ServerTransition} {s : TCPServer}
    (run : ServerRun vf tr s) (g : GamePtr) :
    TCPServer.step s (.broadCast g) = .panic ↔
      ∃ p err, (s.game g).holding = some p ∧
        (s.game g).validationFunc p = .error err := by
  simp only [TCPServer.step, TCPServer.finishBroadCast]
  cases hholding : (s.game g).holding with
  | none => simp
  | some p =>
      have hp : Relayable p :=
        relayable_of_inFlight run (g := g) (by simp [inFlight, hholding])
      simp only [hp.broadCast_eq, Option.some.injEq, exists_eq_left',
        exists_and_left]
      cases (s.game g).validationFunc p with
      | error err => simp
      | ok res => cases res <;> simp

/--
Exactly these steps panic in a reachable state of the process: a handler that
takes a packet without a type, authenticates with or serves a packet too short
for what it reads; a broadcast whose validation panics; and a second `Close`.
A call of a handler is one step here, so what two of them do to one map at the
same time is not among them.
-/
theorem panics_iff
    (run : ProcessRun vf tr s) (e : ProcessEvent) :
    processSystem.step s e = .panic ↔ Crashes s e := by
  have hserver := serverRun_of_run run
  cases e with
  | connection c e n => exact connection_panic_iff_crash run
  | accept c =>
      refine iff_of_false ?_ id
      simp only [processSystem, Process.step]
      split_ifs <;> simp
  | handleConnection c n =>
      refine iff_of_false ?_ id
      simp only [processSystem, Process.step, Process.handleConnection]
      split_ifs
      · rw [Outcome.map_eq_panic_iff]
        simp only [TCPServer.step, TCPServer.acceptConnection]
        cases s.server.conn c <;> simp
      · simp
  | receive g =>
      refine iff_of_false ?_ id
      simp only [processSystem, Process.step, Outcome.map_eq_panic_iff]
      exact receive_safe hserver g
  | broadCast g =>
      simp only [processSystem, Process.step, Outcome.map_eq_panic_iff]
      exact broadCast_panic_iff hserver g
  | closeQuitch =>
      simp only [processSystem, Process.step, Crashes]
      split_ifs with hclosed <;> simp [hclosed]
  | closeListener =>
      refine iff_of_false ?_ id
      simp only [processSystem, Process.step]
      split_ifs <;> simp

/-- The packets a connection has in hand were cut off its own stream. -/
theorem sent_of_queue
    (run : ProcessRun vf tr s)
    {p : Packet}
    (hp : p ∈ (s.conn c).queue) :
    p ∈ sentPackets (clientFramerTrace c tr) := by
  rw [← served_queue run c]
  exact List.mem_append_right _ hp

/-- The framer of a client meets nothing that breaks the format. -/
structure KeepsFormat (c : ClientPtr) (tr : List ProcessTransition) :
    Prop where
  unwrapped : ∀ t ∈ clientFramerTrace c tr, t.event = .pull →
    ¬ LengthWraps t.pre.framer.live
  long : ∀ p ∈ sentPackets (clientFramerTrace c tr),
    ¬ TCPServer.ShortGameState p

/--
What a client has sent so far is the beginning of well-formed packets, each
leaving room in the buffer for one more read, and none a short game state.
-/
structure SendsFormat (c : ClientPtr) (tr : List ProcessTransition)
    (pkts : List WirePacket) : Prop where
  small : ∀ p ∈ pkts, p.bytes.length + readSize ≤ packetMaxSize + 1
  long : ∀ p ∈ pkts, ¬ TCPServer.ShortGameState ⟨p.bytes⟩
  stream : readBytes c tr <+: (pkts.map WirePacket.bytes).flatten

/-- However its bytes are cut into reads, its framer meets just these. -/
theorem SendsFormat.keepsFormat
    {pkts : List WirePacket}
    (run : ProcessRun vf tr s)
    (sends : SendsFormat c tr pkts) :
    KeepsFormat c tr := by
  obtain ⟨-, hfollows, hwraps⟩ :=
    follows_of_server run c pkts sends.small sends.stream
  refine ⟨fun t ht _ => hwraps t ht, fun p hp => ?_⟩
  obtain ⟨rest, hrest, -⟩ := hfollows.sent
  have hmem : p.data ∈ pkts.map WirePacket.bytes := by
    rw [hrest]
    exact List.mem_append_left _ (List.mem_map_of_mem hp)
  obtain ⟨pkt, hpkt, hdata⟩ := List.mem_map.mp hmem
  have hlong := sends.long pkt hpkt
  rwa [hdata] at hlong

/-- What is in the queue of such a client is long enough for the server. -/
theorem KeepsFormat.size
    (run : ProcessRun vf tr s)
    (keeps : KeepsFormat c tr)
    {p : Packet}
    (hp : p ∈ (s.conn c).queue) :
    packetHeaderSize ≤ p.data.length ∧ ¬ TCPServer.ShortGameState p := by
  have hsent := sent_of_queue run hp
  refine ⟨?_, keeps.long p hsent⟩
  have hframe := sentPackets_isFrame (clientFramerRun run c) keeps.unwrapped
    p.data (List.mem_map_of_mem hsent)
  exact ((isFrame_iff p.data).mp hframe).1

/-- Such a client never stops the process. -/
theorem KeepsFormat.safe
    (run : ProcessRun vf tr s)
    (keeps : KeepsFormat c tr) :
    ¬ ConnectionCrash (s.conn c) e := by
  have hheader : ∀ {p : Packet}, packetHeaderSize ≤ p.data.length →
      ¬ p.data.length ≤ 1 := by
    intro p hp
    simp only [packetHeaderSize] at hp
    omega
  cases e with
  | authPacket =>
      rintro ⟨id, p, rest, -, hch, hpanics⟩
      obtain ⟨hsize, -⟩ := keeps.size run (p := p)
        (by simp [Connection.queue, hch])
      rcases hpanics with hshort | ⟨-, hshort⟩
      · exact hheader hsize hshort
      · exact Nat.not_lt.mpr hsize hshort
  | takePacket =>
      rintro ⟨p, rest, -, hch, hshort⟩
      exact hheader (keeps.size run (p := p)
        (by simp [Connection.queue, hch])).1 hshort
  | handled =>
      rintro ⟨p, hhandler, hpanics⟩
      obtain ⟨hsize, hstate⟩ := keeps.size run (p := p)
        (by simp [Connection.queue, hhandler, HandlerState.inHand])
      rcases hpanics with hshort | ⟨-, hshort⟩ | hshort
      · exact hheader hsize hshort
      · exact Nat.not_lt.mpr hsize hshort
      · exact hstate hshort
  | _ => exact id

/-- The validation function of `main` gets through all queued packets. -/
theorem validateGamePkt_safe
    {p : Packet}
    (hp : Relayable p) :
    ∀ err, validateGamePkt p ≠ .error err := by
  intro err
  obtain ⟨state, hstate⟩ := hp.logged
  simp [validateGamePkt, hp.getData, hstate, bind, Except.bind, pure,
    Except.pure]

/--
The process is only stopped by clients whose framers meet something that breaks
the format.  Where the validation gets through queued packets, the loops of the
games never panic.  No step of a connection panics whose framer has met neither
a wrapped length nor a short game state, whatever the others have sent; and this
is so for every client that sends well-formed packets, none a short game state
and each leaving room for one more read.
-/
theorem crash_isolated
    (run : ProcessRun vf tr s)
    (safe : ∀ p, Relayable p → ∀ err, vf p ≠ .error err) :
    (∀ g, processSystem.step s (.receive g) ≠ .panic ∧
      processSystem.step s (.broadCast g) ≠ .panic) ∧
    (∀ c, KeepsFormat c tr → ∀ e n,
      processSystem.step s (.connection c e n) ≠ .panic) ∧
    ∀ c pkts, SendsFormat c tr pkts → KeepsFormat c tr := by
  have hserver := serverRun_of_run run
  refine ⟨fun g => ⟨?_, ?_⟩, fun c keeps e n hpanic => ?_,
    fun c pkts sends => sends.keepsFormat run⟩
  · simp only [processSystem, Process.step, ne_eq, Outcome.map_eq_panic_iff]
    exact receive_safe hserver g
  · simp only [processSystem, Process.step, ne_eq, Outcome.map_eq_panic_iff]
    rw [broadCast_panic_iff hserver g, (validationFunc_of_run hserver).2 g]
    rintro ⟨p, err, hholding, herr⟩
    exact safe p (relayable_of_inFlight hserver (g := g)
      (by simp [inFlight, hholding])) err herr
  · exact keeps.safe run ((connection_panic_iff_crash run).mp hpanic).2

/-- A game state that ends before the client id. -/
def shortState : Packet :=
  constructPacket encBytes packetGameState [1, 0]

/-- Two clients connect, and the first sends a game state without an id. -/
def crashRun : List ProcessEvent :=
  connects 0 0 ++ connects 1 1 ++ (sends 0 shortState 0).take 5

theorem crash_exec :
    ∃ tr s, ProcessRun validateGamePkt tr s ∧
      tr.map Transition.event = crashRun ∧
      processSystem.step s (.connection 0 .handled 0) = .panic ∧
      SendsFormat 1 tr [authWire 1] := by
  have hexec : (processSystem.exec (newProcess validateGamePkt)
      crashRun).map (fun r => ((r.2.conn 0).handler, r.2.server.conn 0,
        readBytes 1 r.1)) =
      some (.handling shortState, .serving, (authWire 1).bytes) := by
    decide +kernel
  obtain ⟨tr, s, hrun, hevents, hend⟩ := System.run_of_exec hexec
  simp only [Prod.mk.injEq] at hend
  obtain ⟨hhandler, hconn, hbytes⟩ := hend
  refine ⟨tr, s, hrun, hevents, ?_, ?_, ?_, ?_⟩
  · have hopened : Opened 0 s := by simp [Opened, hconn]
    have hshort : TCPServer.ShortGameState shortState := by decide
    exact (connection_panic_iff_crash hrun).mpr
      ⟨hopened, shortState, hhandler, Or.inr (Or.inr hshort)⟩
  · exact List.forall_mem_singleton.mpr (by decide +kernel)
  · exact List.forall_mem_singleton.mpr (by decide +kernel)
  · simp [hbytes]

/-- Its handler stops the process. -/
theorem panics_iff_crash :
    ∃ tr s, ProcessRun validateGamePkt tr s ∧
      tr.map Transition.event = crashRun ∧
      Crashes s (.connection 0 .handled 0) := by
  obtain ⟨tr, s, hrun, hevents, hpanic, -⟩ := crash_exec
  exact ⟨tr, s, hrun, hevents, (panics_iff hrun _).mp hpanic⟩

/-- The other client has no part in this. -/
theorem crash_isolated_crash :
    ∃ tr s, ProcessRun validateGamePkt tr s ∧
      tr.map Transition.event = crashRun ∧
      ∀ e n, processSystem.step s (.connection 1 e n) ≠ .panic := by
  obtain ⟨tr, s, hrun, hevents, -, hsends⟩ := crash_exec
  obtain ⟨-, hsafe, hkeeps⟩ := crash_isolated hrun
    (fun _ hp => validateGamePkt_safe hp)
  exact ⟨tr, s, hrun, hevents, hsafe 1 (hkeeps 1 _ hsends)⟩

end Steps

end Crashes

end Server
end TurnBasedGame
