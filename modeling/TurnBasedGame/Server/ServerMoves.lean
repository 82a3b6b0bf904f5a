import TurnBasedGame.Server.Server

/-!
# The moves of the server

What one step of the server can do, said once: every step is one of the moves
below, each an explicit update of the state together with its guard and the
packets it writes.  The invariants of the server are derived from the moves,
not from the code of the handlers.
-/

namespace TurnBasedGame
namespace Server

open Kernel

section ServerMoves

/-- The client whose handler takes an event; none for the loop of a game. -/
def handlerOf : TCPServer.Event → Option ClientPtr
  | .accept c _ => some c
  | .packet c _ _ => some c
  | .authTimeout c => some c
  | .readError c => some c
  | .quit c => some c
  | .receive _ => none
  | .broadCast _ => none

namespace TCPServer

/-- A connection was accepted and sent its id. -/
def accepted (s : TCPServer) (c : ClientPtr) (id : ClientID) : TCPServer :=
  { s with
    client := Function.update s.client c newClient
    clients := Function.update s.clients c true
    conn := Function.update s.conn c (.authenticating id) }

/-- A client has proved that it knows its id. -/
def authenticated (s : TCPServer) (c : ClientPtr) (id : ClientID) :
    TCPServer :=
  { s with
    client := Function.update s.client c { s.client c with clientID := id }
    conn := Function.update s.conn c .serving }

/-- A client has created a game with the drawn id. -/
def created (s : TCPServer) (c : ClientPtr) (n : GameDraw) : TCPServer :=
  { s with
    game := Function.update s.game s.allocated (newGame c s.validationFunc n)
    allocated := s.allocated + 1
    games := Function.update s.games (generateGameId n) (some s.allocated)
    client := Function.update s.client c
      { s.client c with
        gameID := generateGameId n, gamePump := some s.allocated } }

/-- A client has joined a game. -/
def joined (s : TCPServer) (c : ClientPtr) (g : GamePtr) : TCPServer :=
  { s with
    game := Function.update s.game g
      { s.game g with clients := (s.game g).clients ++ [c] }
    client := Function.update s.client c
      { s.client c with gameID := (s.game g).id, gamePump := some g } }

/-- A client was removed from a game. -/
def left (s : TCPServer) (c : ClientPtr) (g : GamePtr) : TCPServer :=
  { s with
    game := Function.update s.game g
      { s.game g with clients := (s.game g).clients.erase c }
    client := Function.update s.client c { s.client c with gameID := [] } }

/-- A packet was sent on the channel of a game. -/
def enqueued (s : TCPServer) (g : GamePtr) (p : Packet) : TCPServer :=
  s.setGame g { s.game g with ch := (s.game g).ch ++ [p] }

/-- `readLoop` has received a packet, leaving `rest` in the channel. -/
def received
    (s : TCPServer) (g : GamePtr) (p : Packet) (rest : List Packet) :
    TCPServer :=
  s.setGame g { s.game g with ch := rest, holding := some p }

/-- `readLoop` has finished its broadcast. -/
def broadcasted (s : TCPServer) (g : GamePtr) : TCPServer :=
  s.setGame g { s.game g with holding := none }

section SignIn

variable (s : TCPServer) (c : ClientPtr) (id : ClientID)

@[simp] theorem accepted_client_self :
    (s.accepted c id).client c = newClient := by
  simp [accepted]

@[simp] theorem accepted_client_other
    {d : ClientPtr} (h : d ≠ c) :
    (s.accepted c id).client d = s.client d := by
  simp [accepted, h]

@[simp] theorem accepted_conn_self :
    (s.accepted c id).conn c = .authenticating id := by
  simp [accepted]

@[simp] theorem accepted_conn_other
    {d : ClientPtr} (h : d ≠ c) :
    (s.accepted c id).conn d = s.conn d := by
  simp [accepted, h]

@[simp] theorem authenticated_client_self :
    (s.authenticated c id).client c = { s.client c with clientID := id } := by
  simp [authenticated]

@[simp] theorem authenticated_client_other
    {d : ClientPtr} (h : d ≠ c) :
    (s.authenticated c id).client d = s.client d := by
  simp [authenticated, h]

@[simp] theorem authenticated_conn_self :
    (s.authenticated c id).conn c = .serving := by
  simp [authenticated]

@[simp] theorem authenticated_conn_other
    {d : ClientPtr} (h : d ≠ c) :
    (s.authenticated c id).conn d = s.conn d := by
  simp [authenticated, h]

end SignIn

section Created

variable (s : TCPServer) (c : ClientPtr) (n : GameDraw)

@[simp] theorem created_game_new :
    (s.created c n).game s.allocated = newGame c s.validationFunc n := by
  simp [created]

@[simp] theorem created_game_old
    {g : GamePtr} (h : g ≠ s.allocated) :
    (s.created c n).game g = s.game g := by
  simp [created, h]

@[simp] theorem created_client_self :
    (s.created c n).client c =
      { s.client c with
        gameID := generateGameId n, gamePump := some s.allocated } := by
  simp [created]

@[simp] theorem created_client_other
    {d : ClientPtr} (h : d ≠ c) :
    (s.created c n).client d = s.client d := by
  simp [created, h]

@[simp] theorem created_games_new :
    (s.created c n).games (generateGameId n) = some s.allocated := by
  simp [created]

@[simp] theorem created_games_old
    {id : GameID} (h : id ≠ generateGameId n) :
    (s.created c n).games id = s.games id := by
  simp [created, h]

end Created

section Joined

variable (s : TCPServer) (c : ClientPtr) (g : GamePtr)

@[simp] theorem joined_client_self :
    (s.joined c g).client c =
      { s.client c with gameID := (s.game g).id, gamePump := some g } := by
  simp [joined]

@[simp] theorem joined_client_other
    {d : ClientPtr} (h : d ≠ c) :
    (s.joined c g).client d = s.client d := by
  simp [joined, h]

@[simp] theorem joined_game_self :
    (s.joined c g).game g =
      { s.game g with clients := (s.game g).clients ++ [c] } := by
  simp [joined]

@[simp] theorem joined_game_other
    {g' : GamePtr} (h : g' ≠ g) :
    (s.joined c g).game g' = s.game g' := by
  simp [joined, h]

@[simp] theorem joined_game_id
    (g' : GamePtr) :
    ((s.joined c g).game g').id = (s.game g').id := by
  by_cases hg : g' = g <;> simp [hg]

/-- Joining a game adds one member to it, and none to the other games. -/
theorem mem_joined
    {d : ClientPtr} {g' : GamePtr} :
    d ∈ ((s.joined c g).game g').clients ↔
      d ∈ (s.game g').clients ∨ (d = c ∧ g' = g) := by
  by_cases hg : g' = g <;> simp [hg]

end Joined

section Left

variable (s : TCPServer) (c : ClientPtr) (g : GamePtr)

@[simp] theorem left_client_self :
    (s.left c g).client c = { s.client c with gameID := [] } := by
  simp [left]

@[simp] theorem left_client_other
    {d : ClientPtr} (h : d ≠ c) :
    (s.left c g).client d = s.client d := by
  simp [left, h]

/-- A client that leaves keeps the right to send on the channel. -/
@[simp] theorem left_gamePump
    (d : ClientPtr) :
    ((s.left c g).client d).gamePump = (s.client d).gamePump := by
  by_cases hd : d = c <;> simp [hd]

@[simp] theorem left_game_self :
    (s.left c g).game g =
      { s.game g with clients := (s.game g).clients.erase c } := by
  simp [left]

@[simp] theorem left_game_other
    {g' : GamePtr} (h : g' ≠ g) :
    (s.left c g).game g' = s.game g' := by
  simp [left, h]

@[simp] theorem left_game_id
    (g' : GamePtr) :
    ((s.left c g).game g').id = (s.game g').id := by
  by_cases hg : g' = g <;> simp [hg]

/-- Leaving a game adds no member to any game. -/
theorem mem_of_left
    {d : ClientPtr} {g' : GamePtr}
    (h : d ∈ ((s.left c g).game g').clients) :
    d ∈ (s.game g').clients := by
  by_cases hg : g' = g
  · subst hg
    rw [left_game_self] at h
    exact List.mem_of_mem_erase h
  · rwa [left_game_other s c g hg] at h

/-- The other members of a game stay in it. -/
theorem mem_left_of_ne
    {d : ClientPtr} {g' : GamePtr}
    (h : d ∈ (s.game g').clients)
    (hdc : d ≠ c) :
    d ∈ ((s.left c g).game g').clients := by
  by_cases hg : g' = g
  · subst hg
    rw [left_game_self]
    exact (List.mem_erase_of_ne hdc).mpr h
  · rwa [left_game_other s c g hg]

/-- A client that was listed once is not listed after it has left. -/
theorem not_mem_left
    (nodup : (s.game g).clients.Nodup) :
    c ∉ ((s.left c g).game g).clients := by
  rw [left_game_self]
  exact nodup.not_mem_erase

end Left

section Channel

variable (s : TCPServer) (g g' : GamePtr)

/-- What goes through a channel does not change who is in the games. -/
theorem setGame_clients
    {game : Game}
    (h : game.clients = (s.game g).clients) :
    ((s.setGame g game).game g').clients = (s.game g').clients := by
  by_cases hg : g' = g
  · subst hg
    simpa using h
  · simp [hg]

@[simp] theorem enqueued_clients
    (p : Packet) :
    ((s.enqueued g p).game g').clients = (s.game g').clients :=
  setGame_clients s g g' rfl

@[simp] theorem received_clients
    (p : Packet) (rest : List Packet) :
    ((s.received g p rest).game g').clients = (s.game g').clients :=
  setGame_clients s g g' rfl

@[simp] theorem broadcasted_clients :
    ((s.broadcasted g).game g').clients = (s.game g').clients :=
  setGame_clients s g g' rfl

end Channel

end TCPServer

namespace GameManager

/-- What `Disconnect` does, without the bounds checks of `removeClient`. -/
def departed (s : TCPServer) (c : ClientPtr) : Effect :=
  if (s.client c).gameID = [] then
    ⟨s, [], some .clientNotInGame⟩
  else
    match s.games (s.client c).gameID with
    | none => ⟨s, [], some .invalidGameDisconnect⟩
    | some g =>
        ⟨s.left c g, [writePacket c encString packetLeaveGameSuccess []], none⟩

theorem disconnect_eq
    (s : TCPServer) (c : ClientPtr) :
    disconnect s c = .ok (departed s c) := by
  unfold disconnect departed
  by_cases hgame : (s.client c).gameID = []
  · simp [hgame, pure, Except.pure]
  · simp only [List.length_eq_zero_iff, hgame, if_false, bind, Except.bind,
      pure, Except.pure, removeClient_eq]
    cases s.games (s.client c).gameID with
    | none => rfl
    | some g => rfl

/-- The three ways a disconnect ends. -/
theorem departed_cases
    (s : TCPServer) (c : ClientPtr) :
    ((s.client c).gameID = [] ∧
        departed s c = ⟨s, [], some .clientNotInGame⟩) ∨
      ((s.client c).gameID ≠ [] ∧ s.games (s.client c).gameID = none ∧
        departed s c = ⟨s, [], some .invalidGameDisconnect⟩) ∨
      ∃ g, (s.client c).gameID ≠ [] ∧
        s.games (s.client c).gameID = some g ∧
        departed s c =
          ⟨s.left c g, [writePacket c encString packetLeaveGameSuccess []],
            none⟩ := by
  unfold departed
  by_cases hgame : (s.client c).gameID = []
  · exact Or.inl ⟨hgame, by rw [if_pos hgame]⟩
  · rw [if_neg hgame]
    cases hg : s.games (s.client c).gameID with
    | none => exact Or.inr (Or.inl ⟨hgame, rfl, rfl⟩)
    | some g => exact Or.inr (Or.inr ⟨g, hgame, rfl, rfl⟩)

/-- A disconnect does not touch the other clients. -/
theorem departed_client_other
    (s : TCPServer) {c d : ClientPtr}
    (h : d ≠ c) :
    (departed s c).server.client d = s.client d := by
  rcases departed_cases s c with
    ⟨-, heq⟩ | ⟨-, -, heq⟩ | ⟨g, -, -, heq⟩ <;> rw [heq]
  simp [h]

/-- A disconnect does not move the handling of any connection on. -/
theorem departed_conn
    (s : TCPServer) (c : ClientPtr) :
    (departed s c).server.conn = s.conn := by
  rcases departed_cases s c with
    ⟨-, heq⟩ | ⟨-, -, heq⟩ | ⟨g, -, -, heq⟩ <;> rw [heq]
  rfl

/-- A disconnect does not touch the table of clients. -/
theorem departed_registered
    (s : TCPServer) (c : ClientPtr) :
    (departed s c).server.clients = s.clients := by
  rcases departed_cases s c with
    ⟨-, heq⟩ | ⟨-, -, heq⟩ | ⟨g, -, -, heq⟩ <;> rw [heq]
  rfl

/-- A disconnect does not touch the registry and makes no game. -/
theorem departed_games
    (s : TCPServer) (c : ClientPtr) :
    (departed s c).server.games = s.games ∧
      (departed s c).server.allocated = s.allocated := by
  rcases departed_cases s c with
    ⟨-, heq⟩ | ⟨-, -, heq⟩ | ⟨g, -, -, heq⟩ <;> rw [heq]
  · exact ⟨rfl, rfl⟩
  · exact ⟨rfl, rfl⟩
  · exact ⟨rfl, rfl⟩

/-- A disconnect does not change the id of any client. -/
theorem departed_clientID
    (s : TCPServer) (c d : ClientPtr) :
    ((departed s c).server.client d).clientID = (s.client d).clientID := by
  rcases departed_cases s c with
    ⟨-, heq⟩ | ⟨-, -, heq⟩ | ⟨g, -, -, heq⟩ <;> rw [heq]
  by_cases hdc : d = c <;> simp [hdc]

/-- A disconnect takes the right to send from no client. -/
theorem departed_gamePump
    (s : TCPServer) (c d : ClientPtr) :
    ((departed s c).server.client d).gamePump = (s.client d).gamePump := by
  rcases departed_cases s c with
    ⟨-, heq⟩ | ⟨-, -, heq⟩ | ⟨g, -, -, heq⟩ <;> rw [heq]
  exact TCPServer.left_gamePump s c g d

/-- A disconnect adds no member to any game. -/
theorem mem_of_departed
    {s : TCPServer} {c d : ClientPtr} {g : GamePtr}
    (h : d ∈ ((departed s c).server.game g).clients) :
    d ∈ (s.game g).clients := by
  rcases departed_cases s c with
    ⟨-, heq⟩ | ⟨-, -, heq⟩ | ⟨g', -, -, heq⟩ <;> rw [heq] at h
  · exact h
  · exact h
  · exact s.mem_of_left c g' h

/-- The other members of a game stay in it when a client is disconnected. -/
theorem mem_departed
    {s : TCPServer} {c d : ClientPtr} {g : GamePtr}
    (h : d ∈ (s.game g).clients)
    (hdc : d ≠ c) :
    d ∈ ((departed s c).server.game g).clients := by
  rcases departed_cases s c with
    ⟨-, heq⟩ | ⟨-, -, heq⟩ | ⟨g', -, -, heq⟩ <;> rw [heq]
  · exact h
  · exact h
  · exact s.mem_left_of_ne c g' h hdc

/-- A disconnect only writes to the client it disconnects. -/
theorem departed_dest
    (s : TCPServer) (c : ClientPtr) :
    ∀ w ∈ (departed s c).writes, w.dest = c := by
  rcases departed_cases s c with
    ⟨-, heq⟩ | ⟨-, -, heq⟩ | ⟨g, -, -, heq⟩ <;> rw [heq] <;>
    simp [writePacket]

theorem createNewGame_eq
    {s : TCPServer} {c : ClientPtr}
    (h : (s.client c).gameID = [])
    (n : GameDraw) :
    createNewGame s c n =
      ⟨s.created c n,
        [writePacket c encString packetCreateGameSuccess (generateGameId n)],
        none⟩ := by
  simp [createNewGame, h, newGame, TCPServer.allocGame, TCPServer.setGame,
    TCPServer.registerGame, TCPServer.setClient, TCPServer.created]

theorem createNewGame_refused
    {s : TCPServer} {c : ClientPtr}
    (h : (s.client c).gameID ≠ [])
    (n : GameDraw) :
    createNewGame s c n = ⟨s, [], some .invalidCreateGameAttempt⟩ := by
  simp [createNewGame, h]

theorem joinGame_eq
    {s : TCPServer} {c : ClientPtr} {id : GameID} {g : GamePtr}
    (h : (s.client c).gameID = [])
    (hlen : id.length = 6)
    (hg : s.games id = some g) :
    joinGame s c id =
      ⟨s.joined c g,
        [writePacket c encString packetJoinGameSuccess (s.game g).id],
        none⟩ := by
  simp [joinGame, h, hlen, hg, TCPServer.setGame, TCPServer.setClient,
    TCPServer.joined]

theorem joinGame_refused
    {s : TCPServer} {c : ClientPtr} {id : GameID}
    (h : (s.client c).gameID ≠ []) :
    joinGame s c id = ⟨s, [], some .invalidGameJoinAttempt⟩ := by
  simp [joinGame, h]

theorem joinGame_unknown
    {s : TCPServer} {c : ClientPtr} {id : GameID}
    (h : (s.client c).gameID = [])
    (hid : id.length ≠ 6 ∨ s.games id = none) :
    joinGame s c id = ⟨s, [], some .invalidGameId⟩ := by
  by_cases hlen : id.length = 6
  · have hnone : s.games id = none := by
      rcases hid with hid | hid
      · exact absurd hlen hid
      · exact hid
    simp [joinGame, h, hlen, hnone]
  · simp [joinGame, h, hlen]

end GameManager

namespace TCPServer

open GameManager

/-- A client disconnected by the server: `t.disconnect`. -/
def closed (s : TCPServer) (c : ClientPtr) : Effect :=
  departed (s.setRegistered c false) c

theorem disconnect_eq
    (s : TCPServer) (c : ClientPtr) :
    disconnect s c =
      .ok { s.closed c with err := none } := by
  simp [disconnect, GameManager.disconnect_eq, closed, bind, Except.bind,
    pure, Except.pure]

/-- The server's disconnect takes the client out of its table. -/
theorem closed_registered
    (s : TCPServer) (c : ClientPtr) :
    (s.closed c).server.clients = Function.update s.clients c false :=
  departed_registered (s.setRegistered c false) c

/-- Why a request handler refuses a packet. -/
inductive Refuses (s : TCPServer) (c : ClientPtr) :
    Packet → ServerError → Prop
  | create {p : Packet}
      (type : p.getType = .ok packetCreateGame)
      (inGame : (s.client c).gameID ≠ []) :
      Refuses s c p .invalidCreateGameAttempt
  | joinInGame {p : Packet} {data : List UInt8}
      (type : p.getType = .ok packetJoinGame)
      (data_eq : p.getData = .ok data)
      (inGame : (s.client c).gameID ≠ []) :
      Refuses s c p .invalidGameJoinAttempt
  | joinUnknown {p : Packet} {data : List UInt8}
      (type : p.getType = .ok packetJoinGame)
      (data_eq : p.getData = .ok data)
      (noGame : (s.client c).gameID = [])
      (unknown : data.length ≠ 6 ∨ s.games data = none) :
      Refuses s c p .invalidGameId
  | start {p : Packet} {data : List UInt8}
      (type : p.getType = .ok packetStartGame)
      (data_eq : p.getData = .ok data)
      (unknown : s.games data = none) :
      Refuses s c p .invalidGameId
  | state {p : Packet} {data : List UInt8} {id : ClientID}
      (type : p.getType = .ok packetGameState)
      (data_eq : p.getData = .ok data)
      (embedded : gameStateClientID data = .ok id)
      (other : (s.client c).clientID ≠ id) :
      Refuses s c p .invalidAuthId
  | leaveNoGame {p : Packet}
      (type : p.getType = .ok packetLeaveGame)
      (noGame : (s.client c).gameID = []) :
      Refuses s c p .clientNotInGame
  | leaveUnregistered {p : Packet}
      (type : p.getType = .ok packetLeaveGame)
      (inGame : (s.client c).gameID ≠ [])
      (unregistered : s.games (s.client c).gameID = none) :
      Refuses s c p .invalidGameDisconnect

/-- The events on which `handleConnection` returns. -/
inductive Closes (s : TCPServer) (c : ClientPtr) : Event → Prop
  | badPacket {id : ClientID} {p : Packet} {err : ServerError}
      (n : GameDraw)
      (conn : s.conn c = .authenticating id)
      (fails : authenticate id p = .ok (some err)) :
      Closes s c (.packet c p n)
  | timeout {id : ClientID}
      (conn : s.conn c = .authenticating id) :
      Closes s c (.authTimeout c)
  | readError
      (conn : s.conn c = .serving) :
      Closes s c (.readError c)
  | quit
      (conn : s.conn c = .serving) :
      Closes s c (.quit c)

/-- What a served packet can lead to. -/
inductive Dispatched (s : TCPServer) (c : ClientPtr) (p : Packet)
    (n : GameDraw) : TCPServer → List Write → Prop
  | ignored {t : PacketType}
      (type : p.getType = .ok t)
      (noHandler : handlers t = none) :
      Dispatched s c p n s []
  | refused {err : ServerError}
      (refuses : Refuses s c p err) :
      Dispatched s c p n s [errorWrite c err]
  | healthy
      (type : p.getType = .ok packetHealthCheckReq) :
      Dispatched s c p n s [writePacket c encString packetHealthCheckRes
        (textBytes "Im alive :D")]
  | created
      (type : p.getType = .ok packetCreateGame)
      (noGame : (s.client c).gameID = []) :
      Dispatched s c p n (s.created c n)
        [writePacket c encString packetCreateGameSuccess (generateGameId n)]
  | joined {id : GameID} {g : GamePtr}
      (type : p.getType = .ok packetJoinGame)
      (data_eq : p.getData = .ok id)
      (noGame : (s.client c).gameID = [])
      (length_eq : id.length = 6)
      (registered : s.games id = some g) :
      Dispatched s c p n (s.joined c g)
        [writePacket c encString packetJoinGameSuccess (s.game g).id]
  | started {id : GameID} {g : GamePtr}
      (type : p.getType = .ok packetStartGame)
      (data_eq : p.getData = .ok id)
      (registered : s.games id = some g) :
      Dispatched s c p n s []
  | sent {data : List UInt8} {id : ClientID} {g : GamePtr}
      (type : p.getType = .ok packetGameState)
      (data_eq : p.getData = .ok data)
      (embedded : gameStateClientID data = .ok id)
      (own : (s.client c).clientID = id)
      (pump : (s.client c).gamePump = some g)
      (room : (s.game g).ch.length < gameChanCap) :
      Dispatched s c p n (s.enqueued g p) []
  | left {g : GamePtr}
      (type : p.getType = .ok packetLeaveGame)
      (inGame : (s.client c).gameID ≠ [])
      (registered : s.games (s.client c).gameID = some g) :
      Dispatched s c p n (s.left c g)
        [writePacket c encString packetLeaveGameSuccess []]
  | disconnected
      (type : p.getType = .ok packetDisconnect) :
      Dispatched s c p n (s.closed c).server (s.closed c).writes

/-- Serving a packet does not touch the other clients. -/
theorem Dispatched.client_other
    {s s' : TCPServer} {c d : ClientPtr} {p : Packet} {n : GameDraw}
    {out : List Write}
    (m : Dispatched s c p n s' out)
    (h : d ≠ c) :
    s'.client d = s.client d := by
  cases m with
  | created => simp [h]
  | joined => simp [h]
  | left => simp [h]
  | disconnected => exact departed_client_other _ h
  | _ => rfl

/-- Serving a packet leaves the other clients in the table as they are. -/
theorem Dispatched.registered_other
    {s s' : TCPServer} {c d : ClientPtr} {p : Packet} {n : GameDraw}
    {out : List Write}
    (m : Dispatched s c p n s' out)
    (h : d ≠ c) :
    s'.clients d = s.clients d := by
  cases m with
  | disconnected => simp [closed_registered, h]
  | _ => rfl

/-- Serving a packet does not change the id of any client. -/
theorem Dispatched.clientID
    {s s' : TCPServer} {c : ClientPtr} {p : Packet} {n : GameDraw}
    {out : List Write}
    (m : Dispatched s c p n s' out)
    (d : ClientPtr) :
    (s'.client d).clientID = (s.client d).clientID := by
  cases m with
  | created => by_cases hdc : d = c <;> simp [hdc]
  | joined => by_cases hdc : d = c <;> simp [hdc]
  | left => by_cases hdc : d = c <;> simp [hdc]
  | disconnected => exact departed_clientID _ c d
  | _ => rfl

/-- Serving a packet does not end the handling of any connection. -/
theorem Dispatched.conn
    {s s' : TCPServer} {c : ClientPtr} {p : Packet} {n : GameDraw}
    {out : List Write}
    (m : Dispatched s c p n s' out) :
    s'.conn = s.conn := by
  cases m with
  | disconnected => exact departed_conn _ c
  | _ => rfl

/-- Serving a packet adds no other client to a game. -/
theorem Dispatched.mem_clients
    {s s' : TCPServer} {c d : ClientPtr} {p : Packet} {n : GameDraw}
    {out : List Write} {g : GamePtr}
    (m : Dispatched s c p n s' out)
    (h : d ∈ (s'.game g).clients) :
    d = c ∨ d ∈ (s.game g).clients := by
  cases m with
  | created =>
      by_cases hg : g = s.allocated
      · exact Or.inl (by simpa [hg, newGame] using h)
      · exact Or.inr (by simpa [hg] using h)
  | @joined id g' =>
      rcases (mem_joined s c g').mp h with hmem | ⟨hdc, -⟩
      · exact Or.inr hmem
      · exact Or.inl hdc
  | sent => exact Or.inr (by simpa using h)
  | @left g' => exact Or.inr (s.mem_of_left c g' h)
  | disconnected =>
      exact Or.inr (mem_of_departed (s := s.setRegistered c false) h)
  | _ => exact Or.inr h

/-- Serving a packet only writes to the client that sent it. -/
theorem Dispatched.dest
    {s s' : TCPServer} {c : ClientPtr} {p : Packet} {n : GameDraw}
    {out : List Write}
    (m : Dispatched s c p n s' out) :
    ∀ w ∈ out, w.dest = c := by
  cases m with
  | disconnected => exact departed_dest _ c
  | _ => simp [writePacket, errorWrite]

/-- Everything a step of the server can do. -/
inductive Move : ServerTransition → Prop
  | accept (s : TCPServer) (c : ClientPtr) (n : ClientDraw)
      (conn : s.conn c = .absent) :
      Move ⟨s, .accept c n, [writePacket c encBytes packetAuth
        (generateClientId n)], s.accepted c (generateClientId n)⟩
  | authenticate (s : TCPServer) (c : ClientPtr) (p : Packet) (n : GameDraw)
      {id : ClientID}
      (conn : s.conn c = .authenticating id)
      (passes : authenticate id p = .ok none) :
      Move ⟨s, .packet c p n, [], s.authenticated c id⟩
  | close (s : TCPServer) (c : ClientPtr) {e : Event}
      (closes : Closes s c e) :
      Move ⟨s, e, (s.closed c).writes,
        (s.closed c).server.setConn c .returned⟩
  | dispatch (s : TCPServer) (c : ClientPtr) (p : Packet) (n : GameDraw)
      {s' : TCPServer} {out : List Write}
      (conn : s.conn c = .serving)
      (dispatched : Dispatched s c p n s' out) :
      Move ⟨s, .packet c p n, out, s'⟩
  | receive (s : TCPServer) (g : GamePtr) {p : Packet} {rest : List Packet}
      (idle : (s.game g).holding = none)
      (front : (s.game g).ch = p :: rest) :
      Move ⟨s, .receive g, [], s.received g p rest⟩
  | broadCast (s : TCPServer) (g : GamePtr) {p : Packet} {out : List Write}
      (holding : (s.game g).holding = some p)
      (writes : broadCast s (s.game g) p = .ok out) :
      Move ⟨s, .broadCast g, out, s.broadcasted g⟩

/-- Nothing is done to a client, and it is put into no list. -/
structure Untouched (d : ClientPtr) (s s' : TCPServer) : Prop where
  client : s'.client d = s.client d
  conn : s'.conn d = s.conn d
  registered : s'.clients d = s.clients d
  members : ∀ g, d ∈ (s'.game g).clients → d ∈ (s.game g).clients

/-- The event on which a connection returns is one of its handler. -/
theorem handlerOf_of_closes
    {s : TCPServer} {c : ClientPtr} {e : Event}
    (closes : Closes s c e) :
    handlerOf e = some c := by
  cases closes <;> rfl

/-- A move does nothing to the clients of the other handlers. -/
theorem Move.untouched
    {t : ServerTransition} {d : ClientPtr}
    (m : Move t)
    (other : handlerOf t.event ≠ some d) :
    Untouched d t.pre t.post := by
  have hne : ∀ {c : ClientPtr}, handlerOf t.event = some c → d ≠ c := by
    rintro c hc rfl
    exact other hc
  cases m with
  | accept s c n conn =>
      have hdc : d ≠ c := hne rfl
      exact ⟨by simp [hdc], by simp [hdc], by simp [accepted, hdc],
        fun _ hmem => hmem⟩
  | authenticate s c p n conn passes =>
      have hdc : d ≠ c := hne rfl
      exact ⟨by simp [hdc], by simp [hdc], rfl, fun _ hmem => hmem⟩
  | close s c closes =>
      have hdc : d ≠ c := hne (handlerOf_of_closes closes)
      refine ⟨departed_client_other _ hdc, ?_, ?_, fun g hmem => ?_⟩
      · simp [setConn, hdc, closed, departed_conn, setRegistered]
      · simp [setConn, closed_registered, hdc]
      · exact mem_of_departed (s := s.setRegistered c false) hmem
  | dispatch s c p n conn d' =>
      have hdc : d ≠ c := hne rfl
      exact ⟨d'.client_other hdc, congrFun d'.conn d, d'.registered_other hdc,
        fun g hmem => (d'.mem_clients hmem).resolve_left hdc⟩
  | receive s g idle front =>
      exact ⟨rfl, rfl, rfl, fun g' hmem => by simpa using hmem⟩
  | broadCast s g holding writes =>
      exact ⟨rfl, rfl, rfl, fun g' hmem => by simpa using hmem⟩

/-- All that a handler writes goes to its own client. -/
theorem Move.dest
    {t : ServerTransition}
    (m : Move t)
    (handler : ∀ g, t.event ≠ .broadCast g) :
    ∀ w ∈ t.out, handlerOf t.event = some w.dest := by
  intro w hw
  cases m with
  | accept s c n conn => rw [List.mem_singleton.mp hw]; rfl
  | authenticate => cases hw
  | close s c closes =>
      rw [departed_dest _ c w hw]
      exact handlerOf_of_closes closes
  | dispatch s c p n conn d => exact congrArg some (d.dest w hw).symm
  | receive => cases hw
  | broadCast s g => exact absurd rfl (handler g)

/-- A packet on a serving connection is dispatched. -/
theorem Move.dispatched
    {t : ServerTransition} {c : ClientPtr} {p : Packet} {n : GameDraw}
    (m : Move t)
    (event : t.event = .packet c p n)
    (conn : t.pre.conn c = .serving) :
    Dispatched t.pre c p n t.post t.out := by
  cases m with
  | dispatch s d q n' conn' d' =>
      cases event
      exact d'
  | authenticate s d q n' conn' passes =>
      cases event
      rw [show s.conn c = _ from conn'] at conn
      cases conn
  | close s d closes =>
      cases closes with
      | badPacket n' conn' fails =>
          cases event
          rw [show s.conn c = _ from conn'] at conn
          cases conn
      | timeout => cases event
      | readError => cases event
      | quit => cases event
  | accept => cases event
  | receive => cases event
  | broadCast => cases event

/-- The reason for which authentication passes a packet. -/
theorem authenticate_passes
    {id : ClientID} {p : Packet}
    (h : authenticate id p = .ok none) :
    p.getType = .ok packetAuth ∧ p.getData = .ok id := by
  unfold authenticate at h
  cases htype : p.getType with
  | error e => simp [htype, bind, Except.bind] at h
  | ok t =>
      simp only [htype, bind, Except.bind, pure, Except.pure] at h
      by_cases ht : t = packetAuth
      swap
      · simp [ht] at h
      cases hdata : p.getData with
      | error e => simp [ht, hdata] at h
      | ok data =>
          by_cases hid : data = id
          · simp [ht, hid]
          · simp [ht, hdata, hid] at h

/-- The handler of a packet type, by cases on the type. -/
theorem handlers_cases
    {t : PacketType} {handler : HandlerFunc}
    (h : handlers t = some handler) :
    (t = packetHealthCheckReq ∧ handler = healthCheckReqHandler) ∨
      (t = packetCreateGame ∧ handler = createGameHandler) ∨
      (t = packetJoinGame ∧ handler = joinGameHandler) ∨
      (t = packetStartGame ∧ handler = startGameHandler) ∨
      (t = packetGameState ∧ handler = gameStateHandler) ∨
      (t = packetLeaveGame ∧ handler = leaveGameHandler) ∨
      (t = packetDisconnect ∧ handler = disconnectHandler) := by
  unfold handlers at h
  split_ifs at h <;> simp_all

section Handlers

variable {s : TCPServer} {c : ClientPtr} {p : Packet} {n : GameDraw}
variable {e : Effect}

theorem createGameHandler_spec
    (type : p.getType = .ok packetCreateGame)
    (h : createGameHandler p c n s = .ok (some e)) :
    Dispatched s c p n e.server (replies c e) := by
  have he : createNewGame s c n = e := by
    simpa [createGameHandler, pure, Except.pure] using h
  subst he
  by_cases hgame : (s.client c).gameID = []
  · rw [createNewGame_eq hgame]
    exact .created type hgame
  · rw [createNewGame_refused hgame]
    exact .refused (.create type hgame)

theorem joinGameHandler_spec
    (type : p.getType = .ok packetJoinGame)
    (h : joinGameHandler p c n s = .ok (some e)) :
    Dispatched s c p n e.server (replies c e) := by
  cases hdata : p.getData with
  | error err => simp [joinGameHandler, hdata, bind, Except.bind] at h
  | ok data =>
      have he : joinGame s c data = e := by
        simpa [joinGameHandler, hdata, bind, Except.bind, pure,
          Except.pure] using h
      subst he
      by_cases hgame : (s.client c).gameID = []
      swap
      · rw [joinGame_refused hgame]
        exact .refused (.joinInGame type hdata hgame)
      by_cases hunknown : data.length ≠ 6 ∨ s.games data = none
      · rw [joinGame_unknown hgame hunknown]
        exact .refused (.joinUnknown type hdata hgame hunknown)
      · simp only [not_or, not_not] at hunknown
        obtain ⟨hlen, hsome⟩ := hunknown
        obtain ⟨g, hg⟩ := Option.ne_none_iff_exists'.mp hsome
        rw [joinGame_eq hgame hlen hg]
        exact .joined type hdata hgame hlen hg

theorem startGameHandler_spec
    (type : p.getType = .ok packetStartGame)
    (h : startGameHandler p c n s = .ok (some e)) :
    Dispatched s c p n e.server (replies c e) := by
  cases hdata : p.getData with
  | error err => simp [startGameHandler, hdata, bind, Except.bind] at h
  | ok data =>
      have he : startGame s c data = e := by
        simpa [startGameHandler, hdata, bind, Except.bind, pure,
          Except.pure] using h
      subst he
      unfold startGame
      cases hg : s.games data with
      | none => exact .refused (.start type hdata hg)
      | some g => exact .started type hdata hg

theorem gameStateHandler_spec
    (type : p.getType = .ok packetGameState)
    (h : gameStateHandler p c n s = .ok (some e)) :
    Dispatched s c p n e.server (replies c e) := by
  simp only [gameStateHandler, bind, Except.bind, pure, Except.pure] at h
  cases hdata : p.getData with
  | error err => simp [hdata] at h
  | ok data =>
      cases hid : gameStateClientID data with
      | error err => simp [hdata, hid] at h
      | ok id =>
          simp only [hdata, hid] at h
          by_cases hown : (s.client c).clientID = id
          swap
          · have he : (⟨s, [], some .invalidAuthId⟩ : Effect) = e := by
              simpa [hown] using h
            subst he
            exact .refused (.state type hdata hid hown)
          rw [if_neg (by simp [hown])] at h
          cases hpump : (s.client c).gamePump with
          | none => simp [hpump] at h
          | some g =>
              by_cases hroom : (s.game g).ch.length < gameChanCap
              swap
              · simp [hpump, hroom] at h
              · have he : (⟨s.enqueued g p, [], none⟩ : Effect) = e := by
                  simpa [hpump, hroom, enqueued] using h
                subst he
                exact .sent type hdata hid hown hpump hroom

theorem leaveGameHandler_spec
    (type : p.getType = .ok packetLeaveGame)
    (h : leaveGameHandler p c n s = .ok (some e)) :
    Dispatched s c p n e.server (replies c e) := by
  have he : departed s c = e := by
    simpa [leaveGameHandler, GameManager.disconnect_eq, bind, Except.bind,
      pure, Except.pure] using h
  subst he
  rcases departed_cases s c with
    ⟨hgame, heq⟩ | ⟨hgame, hnone, heq⟩ | ⟨g, hgame, hg, heq⟩ <;> rw [heq]
  · exact .refused (.leaveNoGame type hgame)
  · exact .refused (.leaveUnregistered type hgame hnone)
  · exact .left type hgame hg

theorem disconnectHandler_spec
    (type : p.getType = .ok packetDisconnect)
    (h : disconnectHandler p c n s = .ok (some e)) :
    Dispatched s c p n e.server (replies c e) := by
  have he : { s.closed c with err := none } = e := by
    simpa [disconnectHandler, TCPServer.disconnect_eq, bind, Except.bind,
      pure, Except.pure] using h
  subst he
  exact .disconnected type

/-- Inversion of the dispatch of a packet. -/
theorem dispatched_of_dispatch
    {s' : TCPServer} {out : List Write}
    (h : dispatch s c p n = .next s' out) :
    Dispatched s c p n s' out := by
  unfold dispatch at h
  cases htype : p.getType with
  | error err => simp [htype] at h
  | ok t =>
      simp only [htype] at h
      cases hhandler : handlers t with
      | none =>
          simp only [hhandler, Outcome.next.injEq] at h
          obtain ⟨rfl, rfl⟩ := h
          exact .ignored htype hhandler
      | some handler =>
          simp only [hhandler] at h
          cases hrun : handler p c n s with
          | error err => simp [hrun] at h
          | ok res =>
              cases res with
              | none => simp [hrun] at h
              | some e =>
                  simp only [hrun, Outcome.next.injEq] at h
                  obtain ⟨rfl, rfl⟩ := h
                  rcases handlers_cases hhandler with
                    ⟨rfl, rfl⟩ | ⟨rfl, rfl⟩ | ⟨rfl, rfl⟩ | ⟨rfl, rfl⟩ |
                      ⟨rfl, rfl⟩ | ⟨rfl, rfl⟩ | ⟨rfl, rfl⟩
                  · have he : e = ⟨s, [writePacket c encString
                        packetHealthCheckRes (textBytes "Im alive :D")],
                        none⟩ := by
                      simpa [healthCheckReqHandler, pure, Except.pure]
                        using hrun.symm
                    subst he
                    exact .healthy htype
                  · exact createGameHandler_spec htype hrun
                  · exact joinGameHandler_spec htype hrun
                  · exact startGameHandler_spec htype hrun
                  · exact gameStateHandler_spec htype hrun
                  · exact leaveGameHandler_spec htype hrun
                  · exact disconnectHandler_spec htype hrun

end Handlers

/-- Inversion of the return of a connection. -/
theorem returnConnection_eq
    (s : TCPServer) (c : ClientPtr) :
    returnConnection s c =
      .next ((s.closed c).server.setConn c .returned) (s.closed c).writes := by
  simp [returnConnection, TCPServer.disconnect_eq]

/-- Inversion of the steps of the server. -/
theorem move_of_valid
    {t : ServerTransition}
    (valid : serverSystem.Valid t) :
    Move t := by
  obtain ⟨s, event, out, s'⟩ := t
  have hstep : step s event = .next s' out := valid
  cases event with
  | accept c n =>
      simp only [step, acceptConnection] at hstep
      cases hconn : s.conn c with
      | absent =>
          simp only [hconn, Outcome.next.injEq] at hstep
          obtain ⟨rfl, rfl⟩ := hstep
          exact .accept s c n hconn
      | authenticating id => simp [hconn] at hstep
      | serving => simp [hconn] at hstep
      | returned => simp [hconn] at hstep
  | packet c p n =>
      simp only [step] at hstep
      cases hconn : s.conn c with
      | absent => simp [hconn] at hstep
      | authenticating id =>
          simp only [hconn, authenticatePacket] at hstep
          cases hauth : authenticate id p with
          | error err => simp [hauth] at hstep
          | ok res =>
              cases res with
              | none =>
                  simp only [hauth, Outcome.next.injEq] at hstep
                  obtain ⟨rfl, rfl⟩ := hstep
                  exact .authenticate s c p n hconn hauth
              | some err =>
                  simp only [hauth, returnConnection_eq,
                    Outcome.next.injEq] at hstep
                  obtain ⟨rfl, rfl⟩ := hstep
                  exact .close s c (.badPacket n hconn hauth)
      | serving =>
          simp only [hconn] at hstep
          exact .dispatch s c p n hconn (dispatched_of_dispatch hstep)
      | returned => simp [hconn] at hstep
  | authTimeout c =>
      simp only [step] at hstep
      cases hconn : s.conn c with
      | authenticating id =>
          simp only [hconn, returnConnection_eq, Outcome.next.injEq] at hstep
          obtain ⟨rfl, rfl⟩ := hstep
          exact .close s c (.timeout hconn)
      | absent => simp [hconn] at hstep
      | serving => simp [hconn] at hstep
      | returned => simp [hconn] at hstep
  | readError c =>
      simp only [step] at hstep
      cases hconn : s.conn c with
      | serving =>
          simp only [hconn, returnConnection_eq, Outcome.next.injEq] at hstep
          obtain ⟨rfl, rfl⟩ := hstep
          exact .close s c (.readError hconn)
      | absent => simp [hconn] at hstep
      | authenticating id => simp [hconn] at hstep
      | returned => simp [hconn] at hstep
  | quit c =>
      simp only [step] at hstep
      cases hconn : s.conn c with
      | serving =>
          simp only [hconn, returnConnection_eq, Outcome.next.injEq] at hstep
          obtain ⟨rfl, rfl⟩ := hstep
          exact .close s c (.quit hconn)
      | absent => simp [hconn] at hstep
      | authenticating id => simp [hconn] at hstep
      | returned => simp [hconn] at hstep
  | receive g =>
      simp only [step, receive] at hstep
      cases hhold : (s.game g).holding with
      | some p => simp [hhold] at hstep
      | none =>
          cases hch : (s.game g).ch with
          | nil => simp [hhold, hch] at hstep
          | cons p rest =>
              simp only [hhold, hch] at hstep
              split at hstep
              · cases hstep
              · simp only [Outcome.next.injEq] at hstep
                obtain ⟨rfl, rfl⟩ := hstep
                exact .receive s g hhold hch
  | broadCast g =>
      simp only [step, finishBroadCast] at hstep
      cases hhold : (s.game g).holding with
      | none => simp [hhold] at hstep
      | some p =>
          cases hwrites : broadCast s (s.game g) p with
          | error err => simp [hhold, hwrites] at hstep
          | ok out' =>
              simp only [hhold, hwrites, Outcome.next.injEq] at hstep
              obtain ⟨rfl, rfl⟩ := hstep
              exact .broadCast s g hhold hwrites

end TCPServer

end ServerMoves

end Server
end TurnBasedGame
