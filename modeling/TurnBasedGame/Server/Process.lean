import TurnBasedGame.Server.Authentication
import TurnBasedGame.Server.Goroutines

/-!
# The server process

All goroutines of the process together: the accept loop, the reader and the
handler of every connection, and the loop of every game, over one shared state
of the server.  An event is one step of one of these goroutines, and they may be
interleaved in any order.  The steps on the channels of a connection are as
small as the source has them, but a call of a request handler or of
`t.disconnect` is one step, and so is a call of `broadCast` with all its writes:
what happens when two of these overlap is left to the modules that split them.

A step in which the handler of a connection acts on the shared state is at the
same time a step of the connection and a step of the server.  The socket of a
client is open as long as the client is a key of `t.clients`: `t.disconnect`
deletes the key and closes the socket.

The module shows that the process is the composition of its parts: every run
is a run of the server and, for every connection, a run of its two goroutines.
-/

namespace TurnBasedGame
namespace Server

open Kernel

section Process

/-- The state of the whole process. -/
structure Process where
  server : TCPServer
  /-- The goroutines of each connection, once `handleConnection` runs. -/
  conn : ClientPtr → Connection
  /-- The connections that `Accept` has returned. -/
  accepted : ClientPtr → Bool
  /-- `quitch` is closed. -/
  quitch : Bool
  /-- The listener is open. -/
  listening : Bool

/-- What the goroutines of the process do next. -/
inductive ProcessEvent
  | accept (c : ClientPtr)
  /-- `handleConnection` registers its client and sends it the drawn id. -/
  | handleConnection (c : ClientPtr) (n : ClientDraw)
  /-- A goroutine of a connection; `n` is drawn if it creates a game. -/
  | connection (c : ClientPtr) (e : ConnectionEvent) (n : GameDraw)
  | receive (g : GamePtr)
  | broadCast (g : GamePtr)
  /-- The first statement of `Close`. -/
  | closeQuitch
  /-- The second statement of `Close`. -/
  | closeListener
deriving DecidableEq, Repr

/-- What a step of a connection does to the server, if anything. -/
def serverEvent (c : ClientPtr) (k : Connection) (n : GameDraw) :
    ConnectionEvent → Option TCPServer.Event
  | .authPacket => k.ch.head?.map (fun p => .packet c p n)
  | .authTimeout => some (.authTimeout c)
  | .handled =>
      match k.handler with
      | .handling p => some (.packet c p n)
      | _ => none
  | .takeError => some (.readError c)
  | .quit => some (.quit c)
  | _ => none

/-- What a step of a connection needs from outside the connection. -/
def Enabled (s : Process) (c : ClientPtr) : ConnectionEvent → Prop
  -- a read on a closed socket returns an error that is not `io.EOF`
  | .read _ => s.server.clients c = true
  | .eof => s.server.clients c = true
  | .quit => s.quitch = true
  | _ => True

instance (s : Process) (c : ClientPtr) :
    (e : ConnectionEvent) → Decidable (Enabled s c e)
  | .read _ => inferInstanceAs (Decidable (_ = _))
  | .eof => inferInstanceAs (Decidable (_ = _))
  | .quit => inferInstanceAs (Decidable (_ = _))
  | .readError _ | .report | .pull | .send | .authPacket | .authTimeout
  | .takePacket | .handled | .takeError => .isTrue trivial

namespace Process

/-- Move the goroutines of a connection on. -/
def setConnection (s : Process) (c : ClientPtr) (k : Connection) : Process :=
  { s with conn := Function.update s.conn c k }

/-- A step of a goroutine of a connection. -/
def connectionEvent
    (s : Process) (c : ClientPtr) (e : ConnectionEvent) (n : GameDraw) :
    Outcome Process Write :=
  if s.server.conn c ≠ .absent ∧ Enabled s c e then
    match connectionStep (s.conn c) e with
    | .blocked => .blocked
    | .panic => .panic
    | .next k _ =>
        match serverEvent c (s.conn c) n e with
        | none => .next (s.setConnection c k) []
        | some ev =>
            (TCPServer.step s.server ev).map (fun server =>
              { s.setConnection c k with server := server })
  else
    .blocked

/-- `go t.handleConnection(client)`, up to the write in `authenticate`. -/
def handleConnection (s : Process) (c : ClientPtr) (n : ClientDraw) :
    Outcome Process Write :=
  if s.accepted c then
    (TCPServer.step s.server (.accept c n)).map (fun server =>
      { s.setConnection c (newConnection (generateClientId n)) with
        server := server })
  else
    .blocked

/-- One atomic step of the process. -/
def step (s : Process) : ProcessEvent → Outcome Process Write
  | .accept c =>
      if s.listening ∧ ¬ s.accepted c then
        .next { s with accepted := Function.update s.accepted c true } []
      else
        .blocked
  | .handleConnection c n => s.handleConnection c n
  | .connection c e n => s.connectionEvent c e n
  | .receive g =>
      (TCPServer.step s.server (.receive g)).map (fun server =>
        { s with server := server })
  | .broadCast g =>
      (TCPServer.step s.server (.broadCast g)).map (fun server =>
        { s with server := server })
  | .closeQuitch =>
      -- closing a closed channel panics
      if s.quitch then .panic else .next { s with quitch := true } []
  | .closeListener =>
      if s.quitch ∧ s.listening then
        .next { s with listening := false } []
      else
        .blocked

end Process

/-- The process with all its goroutines. -/
def processSystem : System Process ProcessEvent Write where
  step := Process.step

/-- The process when `Start` has returned. -/
def newProcess (vf : ValidationFunc) : Process where
  server := TCPServer.newTCPServer vf
  conn := fun _ => newConnection []
  accepted := fun _ => false
  quitch := false
  listening := true

abbrev ProcessTransition := Transition Process ProcessEvent Write

/-- Runs of the process from its start. -/
def ProcessRun
    (vf : ValidationFunc) (tr : List ProcessTransition) (s : Process) :
    Prop :=
  processSystem.Run (newProcess vf) tr s

/-- Everything a step of the process can do. -/
inductive ProcessMove : ProcessTransition → Prop
  | accept (s : Process) (c : ClientPtr)
      (listening : s.listening = true)
      (fresh : s.accepted c = false) :
      ProcessMove ⟨s, .accept c, [],
        { s with accepted := Function.update s.accepted c true }⟩
  | started (s : Process) (c : ClientPtr) (n : ClientDraw)
      {server : TCPServer} {out : List Write}
      (accepted : s.accepted c = true)
      (valid : serverSystem.Valid ⟨s.server, .accept c n, out, server⟩) :
      ProcessMove ⟨s, .handleConnection c n, out,
        { s.setConnection c (newConnection (generateClientId n)) with
          server := server }⟩
  | alone (s : Process) (c : ClientPtr) (e : ConnectionEvent) (n : GameDraw)
      {k : Connection} {out : List Packet}
      (opened : s.server.conn c ≠ .absent)
      (enabled : Enabled s c e)
      (valid : connectionSystem.Valid ⟨s.conn c, e, out, k⟩)
      (silent : serverEvent c (s.conn c) n e = none) :
      ProcessMove ⟨s, .connection c e n, [], s.setConnection c k⟩
  | joint (s : Process) (c : ClientPtr) (e : ConnectionEvent) (n : GameDraw)
      {k : Connection} {out : List Packet} {ev : TCPServer.Event}
      {server : TCPServer} {writes : List Write}
      (opened : s.server.conn c ≠ .absent)
      (enabled : Enabled s c e)
      (valid : connectionSystem.Valid ⟨s.conn c, e, out, k⟩)
      (requests : serverEvent c (s.conn c) n e = some ev)
      (serverValid : serverSystem.Valid ⟨s.server, ev, writes, server⟩) :
      ProcessMove ⟨s, .connection c e n, writes,
        { s.setConnection c k with server := server }⟩
  | receive (s : Process) (g : GamePtr) {server : TCPServer}
      {out : List Write}
      (valid : serverSystem.Valid ⟨s.server, .receive g, out, server⟩) :
      ProcessMove ⟨s, .receive g, out, { s with server := server }⟩
  | broadCast (s : Process) (g : GamePtr) {server : TCPServer}
      {out : List Write}
      (valid : serverSystem.Valid ⟨s.server, .broadCast g, out, server⟩) :
      ProcessMove ⟨s, .broadCast g, out, { s with server := server }⟩
  | closeQuitch (s : Process)
      (unclosed : s.quitch = false) :
      ProcessMove ⟨s, .closeQuitch, [], { s with quitch := true }⟩
  | closeListener (s : Process)
      (closed : s.quitch = true)
      (listening : s.listening = true) :
      ProcessMove ⟨s, .closeListener, [], { s with listening := false }⟩

/-- Inversion of the steps of the process. -/
theorem processMove_of_valid
    {t : ProcessTransition}
    (valid : processSystem.Valid t) :
    ProcessMove t := by
  obtain ⟨s, event, out, s'⟩ := t
  have hstep : s.step event = .next s' out := valid
  cases event with
  | accept c =>
      simp only [Process.step] at hstep
      split_ifs at hstep with hcond
      simp only [Outcome.next.injEq] at hstep
      obtain ⟨rfl, rfl⟩ := hstep
      exact .accept s c hcond.1 (by simpa using hcond.2)
  | handleConnection c n =>
      simp only [Process.step, Process.handleConnection] at hstep
      split_ifs at hstep with haccepted
      obtain ⟨server, hserver, rfl⟩ := Outcome.map_eq_next_iff.mp hstep
      exact .started s c n haccepted hserver
  | connection c e n =>
      simp only [Process.step, Process.connectionEvent] at hstep
      split_ifs at hstep with hcond
      obtain ⟨hopened, henabled⟩ := hcond
      cases hconn : connectionStep (s.conn c) e with
      | blocked => simp [hconn] at hstep
      | panic => simp [hconn] at hstep
      | next k pkts =>
          simp only [hconn] at hstep
          cases hrequest : serverEvent c (s.conn c) n e with
          | none =>
              simp only [hrequest, Outcome.next.injEq] at hstep
              obtain ⟨rfl, rfl⟩ := hstep
              exact .alone s c e n hopened henabled hconn hrequest
          | some ev =>
              simp only [hrequest] at hstep
              obtain ⟨server, hserver, rfl⟩ := Outcome.map_eq_next_iff.mp hstep
              exact .joint s c e n hopened henabled hconn hrequest hserver
  | receive g =>
      obtain ⟨server, hserver, rfl⟩ := Outcome.map_eq_next_iff.mp hstep
      exact .receive s g hserver
  | broadCast g =>
      obtain ⟨server, hserver, rfl⟩ := Outcome.map_eq_next_iff.mp hstep
      exact .broadCast s g hserver
  | closeQuitch =>
      simp only [Process.step] at hstep
      split_ifs at hstep with hclosed
      simp only [Outcome.next.injEq] at hstep
      obtain ⟨rfl, rfl⟩ := hstep
      exact .closeQuitch s (by simpa using hclosed)
  | closeListener =>
      simp only [Process.step] at hstep
      split_ifs at hstep with hcond
      simp only [Outcome.next.injEq] at hstep
      obtain ⟨rfl, rfl⟩ := hstep
      exact .closeListener s hcond.1 hcond.2

/-- Where the server sees a connection whose handler has come this far. -/
def HandlerState.connState : HandlerState → ConnState
  | .authenticating id => .authenticating id
  | .looping => .serving
  | .handling _ => .serving
  | .returned => .returned

/-- What the server knows of a connection and its goroutines. -/
structure CoupledAt (c : ClientPtr) (s : Process) : Prop where
  unopened : s.server.conn c = .absent → s.conn c = newConnection []
  opened : s.server.conn c ≠ .absent →
    s.server.conn c = (s.conn c).handler.connState
  accepted : s.server.conn c ≠ .absent → s.accepted c = true

/-- What the goroutines of the process know of each other. -/
structure Coupled (s : Process) : Prop where
  clients : ∀ c, CoupledAt c s
  listening : s.listening = false → s.quitch = true

theorem coupled_newProcess
    (vf : ValidationFunc) :
    Coupled (newProcess vf) where
  clients := fun _ => ⟨fun _ => rfl, fun h => absurd rfl h,
    fun h => absurd rfl h⟩
  listening := fun h => by cases h

/-- Steps that do not touch a connection. -/
theorem CoupledAt.untouched
    {c : ClientPtr} {s s' : Process}
    (h : CoupledAt c s)
    (server : s'.server.conn c = s.server.conn c)
    (conn : s'.conn c = s.conn c)
    (accepted : s'.accepted c = s.accepted c) :
    CoupledAt c s' := by
  obtain ⟨hunopened, hopened, haccepted⟩ := h
  constructor
  · rwa [server, conn]
  · rwa [server, conn]
  · rwa [server, accepted]

section Handler

variable {c : ClientPtr} {k k' : Connection} {e : ConnectionEvent}
variable {n : GameDraw} {out : List Packet}

/-- Only steps that ask the server for something move a handler on. -/
theorem connState_of_silent
    (m : GoroutineMove ⟨k, e, out, k'⟩)
    (silent : serverEvent c k n e = none) :
    k'.handler.connState = k.handler.connState := by
  cases m with
  | authPassed k handler front => simp [serverEvent, front] at silent
  | authFailed k handler front => simp [serverEvent, front] at silent
  | handled k handler => simp [serverEvent, handler] at silent
  | takePacket k handler front typed => simp [handler, HandlerState.connState]
  | authTimeout => cases silent
  | takeError => cases silent
  | quit => cases silent
  | _ => rfl

/-- The state a connection of the server is left in when it returns. -/
theorem returnConnection_conn
    {s s' : TCPServer} {writes : List Write}
    (h : TCPServer.returnConnection s c = .next s' writes) :
    s'.conn c = .returned := by
  rw [TCPServer.returnConnection_eq, Outcome.next.injEq] at h
  rw [← h.1]
  simp [TCPServer.setConn]

/-- A step of both keeps handler and server in agreement. -/
theorem connState_of_joint
    {s s' : TCPServer} {ev : TCPServer.Event} {writes : List Write}
    (agrees : s.conn c = k.handler.connState)
    (m : GoroutineMove ⟨k, e, out, k'⟩)
    (requests : serverEvent c k n e = some ev)
    (serverValid : serverSystem.Valid ⟨s, ev, writes, s'⟩) :
    s'.conn c = k'.handler.connState := by
  have hserver : TCPServer.step s ev = .next s' writes := serverValid
  cases m with
  | authPassed k handler front passes =>
      simp only [serverEvent, front, List.head?_cons, Option.map_some,
        Option.some.injEq] at requests
      rw [handler] at agrees
      simp only [← requests, TCPServer.step, agrees, HandlerState.connState,
        TCPServer.authenticatePacket, passes] at hserver
      rw [← (Outcome.next.inj hserver).1]
      simp [TCPServer.setConn, HandlerState.connState]
  | authFailed k handler front fails =>
      simp only [serverEvent, front, List.head?_cons, Option.map_some,
        Option.some.injEq] at requests
      rw [handler] at agrees
      simp only [← requests, TCPServer.step, agrees, HandlerState.connState,
        TCPServer.authenticatePacket, fails] at hserver
      exact returnConnection_conn hserver
  | authTimeout k handler =>
      simp only [serverEvent, Option.some.injEq] at requests
      rw [handler] at agrees
      simp only [← requests, TCPServer.step, agrees,
        HandlerState.connState] at hserver
      exact returnConnection_conn hserver
  | @handled k p handler =>
      simp only [serverEvent, handler, Option.some.injEq] at requests
      rw [handler] at agrees
      have hdispatch : TCPServer.dispatch s c p n = .next s' writes := by
        simpa only [← requests, TCPServer.step, agrees,
          HandlerState.connState] using hserver
      rw [(TCPServer.dispatched_of_dispatch hdispatch).conn, agrees]
      rfl
  | takeError k handler front =>
      simp only [serverEvent, Option.some.injEq] at requests
      rw [handler] at agrees
      simp only [← requests, TCPServer.step, agrees,
        HandlerState.connState] at hserver
      exact returnConnection_conn hserver
  | quit k handler =>
      simp only [serverEvent, Option.some.injEq] at requests
      rw [handler] at agrees
      simp only [← requests, TCPServer.step, agrees,
        HandlerState.connState] at hserver
      exact returnConnection_conn hserver
  | _ => cases requests

/-- What a connection asks of the server is asked by its own client. -/
theorem handlerOf_request
    {ev : TCPServer.Event}
    (requests : serverEvent c k n e = some ev) :
    handlerOf ev = some c := by
  cases e with
  | authPacket =>
      obtain ⟨p, -, rfl⟩ := Option.map_eq_some_iff.mp requests
      rfl
  | handled =>
      simp only [serverEvent] at requests
      split at requests
      case h_1 => cases requests; rfl
      case h_2 => cases requests
  | authTimeout => cases requests; rfl
  | takeError => cases requests; rfl
  | quit => cases requests; rfl
  | _ => cases requests

end Handler

/-- Events of the server leave the connections of other clients alone. -/
theorem conn_of_other
    {s s' : TCPServer} {ev : TCPServer.Event} {out : List Write}
    (valid : serverSystem.Valid ⟨s, ev, out, s'⟩)
    {d : ClientPtr}
    (other : handlerOf ev ≠ some d) :
    s'.conn d = s.conn d :=
  ((TCPServer.move_of_valid valid).untouched other).conn

/-- No connection is forgotten by the server. -/
theorem opened_of_valid
    {s s' : TCPServer} {ev : TCPServer.Event} {out : List Write}
    (valid : serverSystem.Valid ⟨s, ev, out, s'⟩)
    {c : ClientPtr}
    (opened : s.conn c ≠ .absent) :
    s'.conn c ≠ .absent := by
  have hm := TCPServer.move_of_valid valid
  by_cases hown : handlerOf ev = some c
  swap
  · rw [(hm.untouched hown).conn]
    exact opened
  cases hm with
  | accept _ _ _ conn =>
      cases hown
      exact absurd conn opened
  | authenticate _ _ _ _ conn passes => cases hown; simp
  | close _ _ closes =>
      rw [TCPServer.handlerOf_of_closes closes] at hown
      cases hown
      simp [TCPServer.setConn]
  | dispatch _ _ _ _ conn d => rwa [d.conn]
  | receive => cases hown
  | broadCast => cases hown

/-- Every step of the process keeps its goroutines in agreement. -/
theorem Coupled.move
    {t : ProcessTransition}
    (m : ProcessMove t)
    (h : Coupled t.pre) :
    Coupled t.post := by
  cases m with
  | accept s c listening fresh =>
      refine ⟨fun d => ?_, h.listening⟩
      have hd : CoupledAt d s := h.clients d
      refine ⟨hd.unopened, hd.opened, fun hopened => ?_⟩
      by_cases hdc : d = c
      · simp [hdc]
      · simpa [hdc] using hd.accepted hopened
  | @started s c n server out accepted valid =>
      refine ⟨fun d => ?_, h.listening⟩
      by_cases hdc : d = c
      · subst hdc
        have hself : server.conn d =
            .authenticating (generateClientId n) := by
          cases TCPServer.move_of_valid valid with
          | accept => simp
          | close _ _ closes => cases closes
        refine ⟨fun habsent => ?_, fun _ => ?_, fun _ => accepted⟩
        · exact absurd (hself.symm.trans habsent) (by simp)
        · simp [hself, Process.setConnection, newConnection,
            HandlerState.connState]
      · refine (h.clients d).untouched ?_ ?_ rfl
        · exact conn_of_other valid (by simpa [handlerOf] using Ne.symm hdc)
        · simp [Process.setConnection, hdc]
  | @alone s c e n k out opened enabled valid silent =>
      refine ⟨fun d => ?_, h.listening⟩
      by_cases hdc : d = c
      · subst hdc
        have hd : CoupledAt d s := h.clients d
        have hsame := connState_of_silent (goroutineMove_of_valid valid) silent
        refine ⟨fun habsent => absurd habsent opened, fun _ => ?_,
          hd.accepted⟩
        simp [Process.setConnection, hsame, hd.opened opened]
      · refine (h.clients d).untouched rfl ?_ rfl
        simp [Process.setConnection, hdc]
  | @joint s c e n k out ev server writes opened enabled valid requests
      serverValid =>
      refine ⟨fun d => ?_, h.listening⟩
      by_cases hdc : d = c
      · subst hdc
        have hd : CoupledAt d s := h.clients d
        have hself : server.conn d = k.handler.connState :=
          connState_of_joint (hd.opened opened) (goroutineMove_of_valid valid)
            requests serverValid
        have hpost := opened_of_valid serverValid opened
        refine ⟨fun habsent => absurd habsent hpost, fun _ => ?_,
          fun _ => hd.accepted opened⟩
        simp [Process.setConnection, hself]
      · refine (h.clients d).untouched ?_ ?_ rfl
        · exact conn_of_other serverValid
            (by simpa [handlerOf_request requests] using Ne.symm hdc)
        · simp [Process.setConnection, hdc]
  | receive s g valid =>
      refine ⟨fun d => (h.clients d).untouched ?_ rfl rfl, h.listening⟩
      exact conn_of_other valid (by simp [handlerOf])
  | broadCast s g valid =>
      refine ⟨fun d => (h.clients d).untouched ?_ rfl rfl, h.listening⟩
      exact conn_of_other valid (by simp [handlerOf])
  | closeQuitch s unclosed =>
      exact ⟨fun d => (h.clients d).untouched rfl rfl rfl, fun _ => rfl⟩
  | closeListener s closed listening =>
      exact ⟨fun d => (h.clients d).untouched rfl rfl rfl, fun _ => closed⟩

/-- The step of the server in a step of the process. -/
def requestView (t : ProcessTransition) :
    Option (TCPServer.Event × List Write) :=
  match t.event with
  | .handleConnection c n => some (.accept c n, t.out)
  | .connection c e n =>
      (serverEvent c (t.pre.conn c) n e).map (fun ev => (ev, t.out))
  | .receive g => some (.receive g, t.out)
  | .broadCast g => some (.broadCast g, t.out)
  | .accept _ => none
  | .closeQuitch => none
  | .closeListener => none

/-- The packets a step of a connection delivers on `C`. -/
def deliveredOn (k : Connection) : ConnectionEvent → List Packet
  | .send => k.reader.inHand
  | _ => []

/-- The step of a connection in a step of the process. -/
def connectionView (c : ClientPtr) (t : ProcessTransition) :
    Option (ConnectionEvent × List Packet) :=
  match t.event with
  | .connection d e _ =>
      if d = c then some (e, deliveredOn (t.pre.conn c) e) else none
  | _ => none

/-- The steps of the server in a run of the process. -/
def serverTrace (tr : List ProcessTransition) : List ServerTransition :=
  shown Process.server requestView tr

/-- The steps of a connection in a run of the process. -/
def connectionTrace (c : ClientPtr) (tr : List ProcessTransition) :
    List ConnectionTransition :=
  shown (fun s => s.conn c) (connectionView c) tr

/-- What a step of a connection delivers. -/
theorem out_eq_deliveredOn
    {k k' : Connection} {e : ConnectionEvent} {out : List Packet}
    (m : GoroutineMove ⟨k, e, out, k'⟩) :
    out = deliveredOn k e := by
  cases m with
  | send k reader room => simp [deliveredOn, reader, ReaderState.inHand]
  | _ => rfl

/-- A step of the process is a step of the server, or leaves it alone. -/
theorem ProcessMove.server
    {t : ProcessTransition}
    (m : ProcessMove t) :
    System.Run.Projects serverSystem Process.server requestView t := by
  cases m with
  | accept s c listening fresh => exact ⟨fun _ => rfl, by simp [requestView]⟩
  | started s c n accepted valid =>
      refine ⟨fun hview => (by cases hview), fun i out hview => ?_⟩
      cases hview
      exact valid
  | alone s c e n opened enabled valid silent =>
      refine ⟨fun _ => rfl, fun i out hview => ?_⟩
      simp [requestView, silent] at hview
  | joint s c e n opened enabled valid requests serverValid =>
      refine ⟨fun hview => ?_, fun i out hview => ?_⟩
      · simp [requestView, requests] at hview
      · simp only [requestView, requests, Option.map_some, Option.some.injEq,
          Prod.mk.injEq] at hview
        obtain ⟨rfl, rfl⟩ := hview
        exact serverValid
  | receive s g valid =>
      refine ⟨fun hview => (by cases hview), fun i out hview => ?_⟩
      cases hview
      exact valid
  | broadCast s g valid =>
      refine ⟨fun hview => (by cases hview), fun i out hview => ?_⟩
      cases hview
      exact valid
  | closeQuitch s unclosed => exact ⟨fun _ => rfl, by simp [requestView]⟩
  | closeListener s closed listening =>
      exact ⟨fun _ => rfl, by simp [requestView]⟩

/-- What the server writes is what the process writes. -/
theorem ProcessMove.out_eq
    {t : ProcessTransition}
    (m : ProcessMove t) :
    (shownStep Process.server requestView t).toList.flatMap Transition.out =
      t.out := by
  cases m with
  | joint s c e n opened enabled valid requests serverValid =>
      simp [shownStep, requestView, requests]
  | alone s c e n opened enabled valid silent =>
      simp [shownStep, requestView, silent]
  | _ => simp [shownStep, requestView]

/-- The goroutines of the connection have been started. -/
def Opened (c : ClientPtr) (s : Process) : Prop :=
  s.server.conn c ≠ .absent

/-- The step that starts the goroutines of a connection. -/
def StartsConnection (c : ClientPtr) (t : ProcessTransition) : Prop :=
  ∃ n, t.event = .handleConnection c n ∧
    t.post.conn c = newConnection (generateClientId n)

section Connection

variable {c : ClientPtr} {t : ProcessTransition}

/-- A step that does not touch a connection. -/
theorem opens_of_untouched
    (view : connectionView c t = none)
    (server : t.post.server.conn c = t.pre.server.conn c)
    (conn : t.post.conn c = t.pre.conn c) :
    System.Run.Opens connectionSystem (fun s => s.conn c) (Opened c)
      (StartsConnection c) (connectionView c) t where
  unopened := fun _ => view
  opened := fun h h' => absurd (by rwa [Opened, server] at h') h
  stays := fun h => by rwa [Opened, server]
  projects := fun _ => ⟨fun _ => conn, by simp [view]⟩

/-- A step of one of the goroutines of a connection. -/
theorem opens_of_own
    {e : ConnectionEvent} {out : List Packet}
    (view : connectionView c t = some (e, out))
    (opened : Opened c t.pre)
    (stays : Opened c t.post)
    (valid : connectionSystem.Valid
      ⟨t.pre.conn c, e, out, t.post.conn c⟩) :
    System.Run.Opens connectionSystem (fun s => s.conn c) (Opened c)
      (StartsConnection c) (connectionView c) t where
  unopened := fun h => absurd opened h
  opened := fun h => absurd opened h
  stays := fun _ => stays
  projects := by
    refine fun _ => ⟨by simp [view], fun i o hview => ?_⟩
    rw [view] at hview
    cases hview
    exact valid

/-- What a step of the process is for a connection. -/
theorem ProcessMove.connection
    (m : ProcessMove t)
    (c : ClientPtr) :
    System.Run.Opens connectionSystem (fun s => s.conn c) (Opened c)
      (StartsConnection c) (connectionView c) t := by
  cases m with
  | accept s d listening fresh => exact opens_of_untouched rfl rfl rfl
  | @started s d n server out accepted valid =>
      by_cases hcd : c = d
      · subst hcd
        have hfirst : s.server.conn c = .absent := by
          cases TCPServer.move_of_valid valid with
          | accept _ _ _ conn => exact conn
          | close _ _ closes => cases closes
        refine ⟨fun _ => rfl, fun _ _ => ⟨n, rfl, ?_⟩,
          fun h => absurd hfirst h, fun h => absurd hfirst h⟩
        simp [Process.setConnection]
      · refine opens_of_untouched rfl ?_ ?_
        · exact conn_of_other valid (by simpa [handlerOf] using Ne.symm hcd)
        · simp [Process.setConnection, hcd]
  | @alone s d e n k out opened enabled valid silent =>
      by_cases hdc : d = c
      · subst hdc
        refine opens_of_own (if_pos rfl) opened opened ?_
        rw [← out_eq_deliveredOn (goroutineMove_of_valid valid)]
        simp only [Process.setConnection, Function.update_self]
        exact valid
      · refine opens_of_untouched (if_neg hdc) rfl ?_
        simp [Process.setConnection, Ne.symm hdc]
  | @joint s d e n k out ev server writes opened enabled valid requests
      serverValid =>
      by_cases hdc : d = c
      · subst hdc
        refine opens_of_own (if_pos rfl) opened
          (opened_of_valid serverValid opened) ?_
        rw [← out_eq_deliveredOn (goroutineMove_of_valid valid)]
        simp only [Process.setConnection, Function.update_self]
        exact valid
      · refine opens_of_untouched (if_neg hdc) ?_ ?_
        · exact conn_of_other serverValid
            (by simpa [handlerOf_request requests] using hdc)
        · simp [Process.setConnection, Ne.symm hdc]
  | receive s g valid =>
      exact opens_of_untouched rfl (conn_of_other valid (by simp [handlerOf]))
        rfl
  | broadCast s g valid =>
      exact opens_of_untouched rfl (conn_of_other valid (by simp [handlerOf]))
        rfl
  | closeQuitch s unclosed => exact opens_of_untouched rfl rfl rfl
  | closeListener s closed listening => exact opens_of_untouched rfl rfl rfl

end Connection

variable {vf : ValidationFunc} {tr : List ProcessTransition} {s : Process}

theorem processMove_of_run
    (run : ProcessRun vf tr s) :
    ∀ t ∈ tr, ProcessMove t :=
  fun t ht => processMove_of_valid (run.valid_of_mem t ht)

theorem coupled_of_run
    (run : ProcessRun vf tr s) :
    Coupled s :=
  run.invariant (coupled_newProcess vf)
    (fun _ valid h => h.move (processMove_of_valid valid))

/-- The process runs the server. -/
theorem serverRun_of_run
    (run : ProcessRun vf tr s) :
    ServerRun vf (serverTrace tr) s.server :=
  run.shown_run (I := fun _ => True) trivial (fun _ _ _ => trivial)
    (fun _ valid _ => (processMove_of_valid valid).server)

/-- The process runs the goroutines of a connection once they are started. -/
theorem connectionRun_of_run
    (run : ProcessRun vf tr s)
    (c : ClientPtr) :
    (¬ Opened c s → connectionTrace c tr = []) ∧
      (Opened c s → ∃ t ∈ tr, StartsConnection c t ∧
        connectionSystem.Run (t.post.conn c) (connectionTrace c tr)
          (s.conn c)) := by
  refine run.opened_run (I := fun _ => True) trivial ?_
    (fun _ _ _ => trivial)
    (fun _ valid _ => (processMove_of_valid valid).connection c)
  exact fun h => h rfl

/-- The server writes what the process writes. -/
theorem serverTrace_out
    (run : ProcessRun vf tr s) :
    (serverTrace tr).flatMap Transition.out = tr.flatMap Transition.out :=
  flatMap_shown (fun t ht => (processMove_of_run run t ht).out_eq)

/-- A client is issued the id that was drawn for it. -/
theorem issued_of_accept
    {tr : List ServerTransition} {s : TCPServer}
    (run : ServerRun vf tr s)
    {t : ServerTransition}
    (ht : t ∈ tr)
    {c : ClientPtr} {n : ClientDraw}
    (event : t.event = .accept c n) :
    issued c tr = some (generateClientId n) := by
  obtain ⟨first, rest, rfl⟩ := List.append_of_mem ht
  obtain ⟨hfirst, hvalid, -⟩ := run.before
  have habsent : t.pre.conn c = .absent := by
    have hstep : TCPServer.step t.pre t.event = .next t.post t.out := hvalid
    simp only [event, TCPServer.step, TCPServer.acceptConnection] at hstep
    split at hstep
    case h_1 habsent => exact habsent
    case h_2 => cases hstep
  have hnone := ((connHistory_of_run hfirst c).absent habsent).1
  have hin : issuedIn c t = some (generateClientId n) := by
    simp only [issuedIn, event, if_true]
  rw [issued] at hnone ⊢
  rw [List.findSome?_append, hnone, Option.none_or, List.findSome?_cons, hin]

/-- A connection is accepted, and its client returns the id it was sent. -/
def connects (c : ClientPtr) (n : ClientDraw) : List ProcessEvent :=
  [.accept c, .handleConnection c n,
    .connection c (.read
      (constructPacket encBytes packetAuth (generateClientId n)).data) 0,
    .connection c .pull 0, .connection c .send 0, .connection c .pull 0,
    .connection c .authPacket 0]

/-- A client sends a packet, and the server handles it. -/
def sends (c : ClientPtr) (p : Packet) (n : GameDraw) : List ProcessEvent :=
  [.connection c (.read p.data) 0, .connection c .pull 0,
    .connection c .send 0, .connection c .pull 0,
    .connection c .takePacket 0, .connection c .handled n]

/-- Two clients meet in a game, and one sends the other a game state. -/
def relayRun : List ProcessEvent :=
  connects 0 0 ++ connects 1 1 ++
    sends 0 (constructPacket encString packetCreateGame []) 7 ++
    sends 1 (constructPacket encString packetJoinGame (generateGameId 7)) 0 ++
    sends 0 (statePacket 0 [9]) 0 ++ [.receive 0, .broadCast 0]

/--
The process is made of its parts.  In every run, for every order of the steps
of its goroutines: the steps of the server are a run of the server, with the
same writes; no channel of a game exceeds its capacity; the steps of an open
connection are a run of its reader and its handler from the id the server has
issued to it; the server and the handler agree on where the handler is; and the
two channels of the connection stay within their capacities.
-/
theorem process_parts
    (run : ProcessRun vf tr s) :
    ServerRun vf (serverTrace tr) s.server ∧
    (serverTrace tr).flatMap Transition.out = tr.flatMap Transition.out ∧
    (∀ g, (s.server.game g).ch.length ≤ gameChanCap) ∧
    ∀ c, Opened c s →
      ∃ id, issued c (serverTrace tr) = some id ∧
        connectionSystem.Run (newConnection id) (connectionTrace c tr)
          (s.conn c) ∧
        s.server.conn c = (s.conn c).handler.connState ∧
        s.accepted c = true ∧ WithinCapacity (s.conn c) := by
  have hserver := serverRun_of_run run
  refine ⟨hserver, serverTrace_out run, channel_capacity hserver,
    fun c hopened => ?_⟩
  obtain ⟨t, ht, ⟨n, hevent, hstart⟩, hrun⟩ :=
    (connectionRun_of_run run c).2 hopened
  have hshown : (⟨t.pre.server, .accept c n, t.out, t.post.server⟩ :
      ServerTransition) ∈ serverTrace tr :=
    mem_shown.mpr ⟨t, ht, .accept c n, t.out, by simp [requestView, hevent], rfl⟩
  rw [hstart] at hrun
  have hcoupled := (coupled_of_run run).clients c
  exact ⟨generateClientId n, issued_of_accept hserver hshown rfl, hrun,
    hcoupled.opened hopened, hcoupled.accepted hopened,
    withinCapacity_of_run hrun (withinCapacity_newConnection _)⟩

/-- The same for the two clients of a relayed game state. -/
theorem process_parts_relay :
    ∃ tr s, ProcessRun nopValidationFunc tr s ∧
      tr.map Transition.event = relayRun ∧
      (s.server.game 0).clients = [0, 1] ∧
      ∃ id, issued 1 (serverTrace tr) = some id ∧
        connectionSystem.Run (newConnection id) (connectionTrace 1 tr)
          (s.conn 1) := by
  have hexec : (processSystem.exec (newProcess nopValidationFunc)
      relayRun).map (fun r => ((r.2.server.game 0).clients,
        r.2.server.conn 1)) = some ([0, 1], .serving) := by
    decide +kernel
  obtain ⟨tr, s, hrun, hevents, hend⟩ := System.run_of_exec hexec
  simp only [Prod.mk.injEq] at hend
  obtain ⟨-, -, -, hconns⟩ := process_parts hrun
  obtain ⟨id, hissued, hconn, -⟩ := hconns 1
    (by simp [Opened, hend.2])
  exact ⟨tr, s, hrun, hevents, hend.1, id, hissued, hconn⟩

end Process

end Server
end TurnBasedGame
