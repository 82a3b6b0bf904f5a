import TurnBasedGame.Kernel.Transition
import TurnBasedGame.Server.Game

/-!
# The server

The server as a transition system over atomic handler calls.  Each accepted
connection has a goroutine that authenticates its client and then takes packet
after packet from the framer; each game has a goroutine that takes packets
from the game's channel and broadcasts them.  An event names the goroutine
that moves and what it gets from outside: a packet framed on the connection,
a draw of the random number generator, a time-out.

A handler stops the process when it panics, and is blocked for as long as it
waits at a channel; writes to connections succeed and are recorded in order.
-/

namespace TurnBasedGame
namespace Server

open Kernel

section Server

/-- A handler returns (`some`), or waits at a channel (`none`), or panics. -/
abbrev HandlerFunc :=
  Packet → ClientPtr → GameDraw → TCPServer → Checked (Option Effect)

namespace TCPServer

def healthCheckReqHandler : HandlerFunc := fun _ c _ s =>
  return some ⟨s,
    [writePacket c encString packetHealthCheckRes (textBytes "Im alive :D")],
    none⟩

def createGameHandler : HandlerFunc := fun _ c n s =>
  return some (GameManager.createNewGame s c n)

def joinGameHandler : HandlerFunc := fun p c _ s => do
  let data ← p.getData
  return some (GameManager.joinGame s c data)

def startGameHandler : HandlerFunc := fun p c _ s => do
  let data ← p.getData
  return some (GameManager.startGame s c data)

def gameStateHandler : HandlerFunc := fun p c _ s => do
  let data ← p.getData
  let id ← gameStateClientID data
  if (s.client c).clientID ≠ id then
    return some ⟨s, [], some .invalidAuthId⟩
  match (s.client c).gamePump with
  -- a send on a nil channel waits forever
  | none => return none
  | some g =>
      let game := s.game g
      if game.ch.length < gameChanCap then
        return some ⟨s.setGame g { game with ch := game.ch ++ [p] }, [], none⟩
      else
        return none

def leaveGameHandler : HandlerFunc := fun _ c _ s => do
  let e ← GameManager.disconnect s c
  return some e

/-- `t.disconnect`; the error of the game manager is ignored. -/
def disconnect (s : TCPServer) (c : ClientPtr) : Checked Effect := do
  let s := s.setRegistered c false
  let e ← GameManager.disconnect s c
  return { e with err := none }

def disconnectHandler : HandlerFunc := fun _ c _ s => do
  let e ← disconnect s c
  return some e

/-- The handlers that `registerHandlers` puts into the table. -/
def handlers (t : PacketType) : Option HandlerFunc :=
  if t = packetHealthCheckReq then some healthCheckReqHandler
  else if t = packetCreateGame then some createGameHandler
  else if t = packetJoinGame then some joinGameHandler
  else if t = packetStartGame then some startGameHandler
  else if t = packetGameState then some gameStateHandler
  else if t = packetLeaveGame then some leaveGameHandler
  else if t = packetDisconnect then some disconnectHandler
  else none

/-- The packet that reports the error of a handler to the client. -/
def errorWrite (c : ClientPtr) (err : ServerError) : Write :=
  writePacket c encString packetError (constructErrorData err)

/-- All writes of a request: those of its handler, and a reported error. -/
def replies (c : ClientPtr) (e : Effect) : List Write :=
  match e.err with
  | none => e.writes
  | some err => e.writes ++ [errorWrite c err]

/-- One packet in the loop of `handleConnection`. -/
def dispatch
    (s : TCPServer) (c : ClientPtr) (p : Packet) (n : GameDraw) :
    Outcome TCPServer Write :=
  match p.getType with
  | .error _ => .panic
  | .ok t =>
      match handlers t with
      | none => .next s []
      | some handler =>
          match handler p c n s with
          | .error _ => .panic
          | .ok none => .blocked
          | .ok (some e) => .next e.server (replies c e)

/-- `handleConnection` returns, running the deferred `t.disconnect`. -/
def returnConnection (s : TCPServer) (c : ClientPtr) :
    Outcome TCPServer Write :=
  match disconnect s c with
  | .error _ => .panic
  | .ok e => .next (e.server.setConn c .returned) e.writes

/-- The error `authenticate` returns on the first packet, if any. -/
def authenticate (id : ClientID) (p : Packet) :
    Checked (Option ServerError) := do
  let t ← p.getType
  if t ≠ packetAuth then
    return some .invalidAuthPkt
  let data ← p.getData
  if data ≠ id then
    return some .invalidAuthId
  return none

/-- The first packet framed on a connection. -/
def authenticatePacket
    (s : TCPServer) (c : ClientPtr) (id : ClientID) (p : Packet) :
    Outcome TCPServer Write :=
  match authenticate id p with
  | .error _ => .panic
  | .ok (some _) => returnConnection s c
  | .ok none =>
      .next ((s.setClient c { s.client c with clientID := id }).setConn c
        .serving) []

/-- A connection is accepted, registered and sent the id issued to it. -/
def acceptConnection
    (s : TCPServer) (c : ClientPtr) (n : ClientDraw) :
    Outcome TCPServer Write :=
  match s.conn c with
  | .absent =>
      let s := s.setClient c newClient
      let s := s.setRegistered c true
      let id := generateClientId n
      .next (s.setConn c (.authenticating id))
        [writePacket c encBytes packetAuth id]
  | _ => .blocked

/-- `readLoop` takes a packet from the channel and logs its game state. -/
def receive (s : TCPServer) (g : GamePtr) : Outcome TCPServer Write :=
  let game := s.game g
  match game.holding, game.ch with
  | none, pkt :: rest =>
      let logged : Checked (GameState × List UInt8) := do
        let data ← pkt.getData
        let state ← gameState data
        let stateData ← gameStateData data
        return (state, stateData)
      match logged with
      | .error _ => .panic
      | .ok _ =>
          .next (s.setGame g { game with ch := rest, holding := some pkt }) []
  | _, _ => .blocked

/-- The range loop of `broadCast`. -/
def broadCastWrites (s : TCPServer) (pkt : Packet) :
    List ClientPtr → Checked (List Write)
  | [] => return []
  | c :: rest => do
      let data ← pkt.getData
      let id ← gameStateClientID data
      let writes ← broadCastWrites s pkt rest
      if (s.client c).clientID = id then
        return writes
      return ⟨c, pkt.data⟩ :: writes

/-- The writes of a whole `broadCast` call, none when validation fails. -/
def broadCast (s : TCPServer) (game : Game) (pkt : Packet) :
    Checked (List Write) := do
  let err ← game.validationFunc pkt
  match err with
  | some _ => return []
  | none =>
      let data ← pkt.getData
      let _ ← gameStateData data
      broadCastWrites s pkt game.clients

/-- `readLoop` broadcasts the packet it has received. -/
def finishBroadCast (s : TCPServer) (g : GamePtr) : Outcome TCPServer Write :=
  let game := s.game g
  match game.holding with
  | none => .blocked
  | some pkt =>
      match broadCast s game pkt with
      | .error _ => .panic
      | .ok writes => .next (s.setGame g { game with holding := none }) writes

/-- What the goroutines of the server do next. -/
inductive Event
  | accept (c : ClientPtr) (n : ClientDraw)
  | packet (c : ClientPtr) (p : Packet) (n : GameDraw)
  | authTimeout (c : ClientPtr)
  /-- The loop of `handleConnection` finds an error in `errch`. -/
  | readError (c : ClientPtr)
  /-- The loop of `handleConnection` finds `quitch` closed. -/
  | quit (c : ClientPtr)
  | receive (g : GamePtr)
  | broadCast (g : GamePtr)
deriving DecidableEq, Repr

/-- One atomic step of the server. -/
def step (s : TCPServer) : Event → Outcome TCPServer Write
  | .accept c n => acceptConnection s c n
  | .packet c p n =>
      match s.conn c with
      | .authenticating id => authenticatePacket s c id p
      | .serving => dispatch s c p n
      | _ => .blocked
  | .authTimeout c =>
      match s.conn c with
      | .authenticating _ => returnConnection s c
      | _ => .blocked
  | .readError c =>
      match s.conn c with
      | .serving => returnConnection s c
      | _ => .blocked
  | .quit c =>
      match s.conn c with
      | .serving => returnConnection s c
      | _ => .blocked
  | .receive g => receive s g
  | .broadCast g => finishBroadCast s g

/-- The contents of a game pointer before it is allocated. -/
def noGame (vf : ValidationFunc) : Game where
  clients := []
  id := []
  ch := []
  holding := none
  validationFunc := vf

/-- The server before the first connection. -/
def newTCPServer (vf : ValidationFunc) : TCPServer where
  conn := fun _ => .absent
  client := fun _ => newClient
  clients := fun _ => false
  game := fun _ => noGame vf
  allocated := 0
  games := fun _ => none
  validationFunc := vf

end TCPServer

/-- The server with its connections and games. -/
def serverSystem : System TCPServer TCPServer.Event Write where
  step := TCPServer.step

abbrev ServerTransition := Transition TCPServer TCPServer.Event Write

/-- Runs of the server from its start. -/
def ServerRun
    (vf : ValidationFunc) (tr : List ServerTransition) (s : TCPServer) :
    Prop :=
  serverSystem.Run (TCPServer.newTCPServer vf) tr s

/-- A client connects and answers with the id issued to it. -/
def signIn (c : ClientPtr) (n : ClientDraw) : List TCPServer.Event :=
  [.accept c n,
    .packet c (constructPacket encBytes packetAuth (generateClientId n)) 0]

/-- A game-state packet with the given client id embedded. -/
def statePacket (n : ClientDraw) (data : List UInt8) : Packet :=
  constructPacket encBytes packetGameState
    ([gsVersion, 0] ++ generateClientId n ++ data)

end Server

end Server
end TurnBasedGame
