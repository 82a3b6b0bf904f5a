import TurnBasedGame.Server.ServerInvariant

/-!
# The server with separate replies

`CreateNewGame`, `JoinGame` and `Disconnect` change who is in a game and write
a reply to the client, and the loop of the game may broadcast between the two.
Here the membership update and the reply are steps of their own; every other
handler call, and a whole `broadCast`, is still one step.

Between its update and its reply a handler is busy, so nothing that concerns
the fields of its client can happen.  With the outstanding replies carried out
in advance, a run of these smaller steps is therefore a run of the server, and
everything that is known of the runs of the server holds here too.
-/

namespace TurnBasedGame
namespace Server

open Kernel

section SplitServer

/-- What a handler has left to do after its membership update. -/
inductive Pending
  /-- `CreateNewGame` has registered the game. -/
  | created (g : GamePtr) (id : GameID)
  /-- `JoinGame` has appended the client. -/
  | joined (g : GamePtr) (id : GameID)
  /-- `Disconnect` has removed the client. -/
  | left
  /-- The same, called by a `handleConnection` that returns. -/
  | closed
deriving DecidableEq, Repr

namespace GameManager

/-- `CreateNewGame` up to its write, if it gets there. -/
def createNewGameUpdate (s : TCPServer) (c : ClientPtr) (n : GameDraw) :
    Option (TCPServer × Pending) :=
  if (s.client c).gameID.length ≠ 0 then
    none
  else
    let game := newGame c s.validationFunc n
    let g := s.allocated
    let s := s.allocGame game
    let s := s.registerGame game.id g
    some (s, .created g game.id)

/-- `JoinGame` up to its write, if it gets there. -/
def joinGameUpdate (s : TCPServer) (c : ClientPtr) (id : GameID) :
    Option (TCPServer × Pending) :=
  if (s.client c).gameID.length ≠ 0 then
    none
  else if id.length ≠ 6 then
    none
  else
    match s.games id with
    | none => none
    | some g =>
        let game := s.game g
        let s := s.setGame g { game with clients := game.clients ++ [c] }
        some (s, .joined g game.id)

/-- `Disconnect` up to its write, if it gets there. -/
def disconnectUpdate (s : TCPServer) (c : ClientPtr) :
    Checked (Option TCPServer) := do
  if (s.client c).gameID.length = 0 then
    return none
  match s.games (s.client c).gameID with
  | none => return none
  | some g =>
      let game := s.game g
      let clients ← removeClient game.clients c
      let s := s.setGame g { game with clients := clients }
      let s := s.setClient c { s.client c with gameID := [] }
      return some s

/-- The rest of the call, from its write on. -/
def reply (s : TCPServer) (c : ClientPtr) : Pending → Effect
  | .created g id =>
      let write := writePacket c encString packetCreateGameSuccess id
      let s := s.setClient c
        { s.client c with gameID := id, gamePump := some g }
      ⟨s, [write], none⟩
  | .joined g id =>
      let write := writePacket c encString packetJoinGameSuccess id
      let s := s.setClient c
        { s.client c with gameID := id, gamePump := some g }
      ⟨s, [write], none⟩
  | .left => ⟨s, [writePacket c encString packetLeaveGameSuccess []], none⟩
  | .closed =>
      ⟨s.setConn c .returned,
        [writePacket c encString packetLeaveGameSuccess []], none⟩

variable {s s' : TCPServer} {c : ClientPtr} {r : Pending}

/-- The two parts of `CreateNewGame` make the whole. -/
theorem reply_createNewGameUpdate
    {n : GameDraw}
    (h : createNewGameUpdate s c n = some (s', r)) :
    createNewGame s c n = reply s' c r := by
  unfold createNewGameUpdate at h
  unfold createNewGame
  split_ifs at h ⊢ with hgame
  cases h
  rfl

/-- The two parts of `JoinGame` make the whole. -/
theorem reply_joinGameUpdate
    {id : GameID}
    (h : joinGameUpdate s c id = some (s', r)) :
    joinGame s c id = reply s' c r := by
  unfold joinGameUpdate at h
  unfold joinGame
  split_ifs at h ⊢ with hgame hlength
  cases hg : s.games id with
  | none => simp [hg] at h
  | some g =>
      simp only [hg, Option.some.injEq, Prod.mk.injEq] at h
      obtain ⟨rfl, rfl⟩ := h
      rfl

/-- The two parts of `Disconnect` make the whole. -/
theorem reply_disconnectUpdate
    (h : disconnectUpdate s c = .ok (some s')) :
    departed s c = reply s' c .left := by
  unfold disconnectUpdate at h
  simp only [removeClient_eq, bind, Except.bind, pure, Except.pure] at h
  unfold departed
  by_cases hgame : (s.client c).gameID = []
  · simp [hgame] at h
  · rw [if_neg hgame]
    rw [if_neg (by simpa using hgame)] at h
    cases hg : s.games (s.client c).gameID with
    | none => simp [hg] at h
    | some g =>
        simp only [hg, Except.ok.injEq, Option.some.injEq] at h
        subst h
        rfl

end GameManager

open TCPServer

/-- `t.disconnect` up to the write of the game manager, if it gets there. -/
def TCPServer.disconnectUpdate (s : TCPServer) (c : ClientPtr) (r : Pending) :
    Checked (Option (ClientPtr × TCPServer × Pending)) := do
  let update ← GameManager.disconnectUpdate (s.setRegistered c false) c
  return update.map (c, ·, r)

/-- An event of the server up to the reply of its membership update, if any. -/
def membershipUpdate (s : TCPServer) :
    Event → Checked (Option (ClientPtr × TCPServer × Pending))
  | .packet c p n =>
      match s.conn c with
      | .authenticating id => do
          let err ← authenticate id p
          match err with
          | none => return none
          | some _ => s.disconnectUpdate c .closed
      | .serving => do
          let t ← p.getType
          if t = packetCreateGame then
            return (GameManager.createNewGameUpdate s c n).map (c, ·)
          else if t = packetJoinGame then do
            let data ← p.getData
            return (GameManager.joinGameUpdate s c data).map (c, ·)
          else if t = packetLeaveGame then do
            let update ← GameManager.disconnectUpdate s c
            return update.map (c, ·, .left)
          else if t = packetDisconnect then
            s.disconnectUpdate c .left
          else
            return none
      | _ => return none
  | .authTimeout c =>
      match s.conn c with
      | .authenticating _ => s.disconnectUpdate c .closed
      | _ => return none
  | .readError c =>
      match s.conn c with
      | .serving => s.disconnectUpdate c .closed
      | _ => return none
  | .quit c =>
      match s.conn c with
      | .serving => s.disconnectUpdate c .closed
      | _ => return none
  | _ => return none

/-- The server, and the replies its handlers still have to write. -/
structure SplitState where
  server : TCPServer
  pending : ClientPtr → Option Pending

/-- What the goroutines do next. -/
inductive SplitEvent
  | server (e : Event)
  /-- The handler of a client writes its reply and returns. -/
  | reply (c : ClientPtr)
deriving DecidableEq, Repr

/-- A step of the server, up to the reply where there is one. -/
def splitStep (s : SplitState) : SplitEvent → Outcome SplitState Write
  | .server e =>
      -- a handler that has a reply to write takes nothing else
      if (handlerOf e).any (fun c => (s.pending c).isSome) then
        .blocked
      else
        match membershipUpdate s.server e with
        | .error _ => .panic
        | .ok (some (c, server, r)) =>
            .next ⟨server, Function.update s.pending c (some r)⟩ []
        | .ok none =>
            match TCPServer.step s.server e with
            | .blocked => .blocked
            | .panic => .panic
            | .next server out => .next ⟨server, s.pending⟩ out
  | .reply c =>
      match s.pending c with
      | none => .blocked
      | some r =>
          let e := GameManager.reply s.server c r
          .next ⟨e.server, Function.update s.pending c none⟩ e.writes

/-- The server with its replies as separate steps. -/
def splitSystem : System SplitState SplitEvent Write where
  step := splitStep

abbrev SplitTransition := Transition SplitState SplitEvent Write

/-- Runs of the split server from its start. -/
def SplitRun
    (vf : ValidationFunc) (tr : List SplitTransition) (s : SplitState) :
    Prop :=
  splitSystem.Run ⟨newTCPServer vf, fun _ => none⟩ tr s

/-- What a client will be once its handler has replied. -/
def Pending.client (cl : Client) : Option Pending → Client
  | some (.created g id) => { cl with gameID := id, gamePump := some g }
  | some (.joined g id) => { cl with gameID := id, gamePump := some g }
  | _ => cl

/-- What a connection will be once its handler has replied. -/
def Pending.conn (st : ConnState) : Option Pending → ConnState
  | some .closed => .returned
  | _ => st

/-- The server with the outstanding replies carried out. -/
def SplitState.whole (s : SplitState) : TCPServer :=
  { s.server with
    client := fun c => Pending.client (s.server.client c) (s.pending c)
    conn := fun c => Pending.conn (s.server.conn c) (s.pending c) }

section Whole

variable {s : TCPServer} {pending : ClientPtr → Option Pending} {c : ClientPtr}

/-- A reply that is written does not change what is expected of the server. -/
theorem whole_reply
    (s : TCPServer) (r : Pending) (hidle : pending c = none) :
    SplitState.whole ⟨(GameManager.reply s c r).server, pending⟩ =
      SplitState.whole ⟨s, Function.update pending c (some r)⟩ := by
  have hclient : ∀ d, Pending.client ((GameManager.reply s c r).server.client d)
      (pending d) =
        Pending.client (s.client d) (Function.update pending c (some r) d) := by
    intro d
    by_cases hdc : d = c
    · subst hdc
      cases r <;> simp [GameManager.reply, setClient, setConn, Pending.client,
        hidle]
    · cases r <;> simp [GameManager.reply, setClient, setConn, hdc]
  have hconn : ∀ d, Pending.conn ((GameManager.reply s c r).server.conn d)
      (pending d) =
        Pending.conn (s.conn d) (Function.update pending c (some r) d) := by
    intro d
    by_cases hdc : d = c
    · subst hdc
      cases r <;> simp [GameManager.reply, setClient, setConn, Pending.conn,
        hidle]
    · cases r <;> simp [GameManager.reply, setClient, setConn, hdc]
  simp only [SplitState.whole, hclient, hconn]
  cases r <;> rfl

theorem whole_client
    (hidle : pending c = none) :
    (SplitState.whole ⟨s, pending⟩).client c = s.client c := by
  simp [SplitState.whole, hidle, Pending.client]

theorem whole_conn
    (hidle : pending c = none) :
    (SplitState.whole ⟨s, pending⟩).conn c = s.conn c := by
  simp [SplitState.whole, hidle, Pending.conn]

/-- No reply changes the id of a client. -/
theorem whole_clientID
    (s : TCPServer) (pending : ClientPtr → Option Pending) (d : ClientPtr) :
    ((SplitState.whole ⟨s, pending⟩).client d).clientID =
      (s.client d).clientID := by
  unfold SplitState.whole Pending.client
  dsimp only
  split <;> rfl

theorem whole_setClient
    (hidle : pending c = none) (cl : Client) :
    SplitState.whole ⟨s.setClient c cl, pending⟩ =
      (SplitState.whole ⟨s, pending⟩).setClient c cl := by
  have hclient : (fun d =>
      Pending.client (Function.update s.client c cl d) (pending d)) =
        Function.update (fun d => Pending.client (s.client d) (pending d))
          c cl := by
    funext d
    by_cases hdc : d = c
    · subst hdc
      simp [hidle, Pending.client]
    · simp [hdc]
  simp only [SplitState.whole, setClient, hclient]

theorem whole_setConn
    (hidle : pending c = none) (st : ConnState) :
    SplitState.whole ⟨s.setConn c st, pending⟩ =
      (SplitState.whole ⟨s, pending⟩).setConn c st := by
  have hconn : (fun d =>
      Pending.conn (Function.update s.conn c st d) (pending d)) =
        Function.update (fun d => Pending.conn (s.conn d) (pending d))
          c st := by
    funext d
    by_cases hdc : d = c
    · subst hdc
      simp [hidle, Pending.conn]
    · simp [hdc]
  simp only [SplitState.whole, setConn, hconn]

theorem whole_created
    (hidle : pending c = none) (n : GameDraw) :
    SplitState.whole ⟨s.created c n, pending⟩ =
      (SplitState.whole ⟨s, pending⟩).created c n := by
  have hcreated : s.created c n =
      (((s.allocGame (newGame c s.validationFunc n)).registerGame
        (generateGameId n) s.allocated).setClient c { s.client c with
          gameID := generateGameId n, gamePump := some s.allocated }) := rfl
  rw [hcreated, whole_setClient hidle]
  unfold created
  rw [whole_client hidle]
  rfl

theorem whole_joined
    (hidle : pending c = none) (g : GamePtr) :
    SplitState.whole ⟨s.joined c g, pending⟩ =
      (SplitState.whole ⟨s, pending⟩).joined c g := by
  have hjoined : s.joined c g = (s.setGame g { s.game g with
      clients := (s.game g).clients ++ [c] }).setClient c { s.client c with
        gameID := (s.game g).id, gamePump := some g } := rfl
  rw [hjoined, whole_setClient hidle]
  unfold joined
  rw [whole_client hidle]
  rfl

theorem whole_left
    (hidle : pending c = none) (g : GamePtr) :
    SplitState.whole ⟨s.left c g, pending⟩ =
      (SplitState.whole ⟨s, pending⟩).left c g := by
  have hleft : s.left c g = (s.setGame g { s.game g with
      clients := (s.game g).clients.erase c }).setClient c { s.client c with
        gameID := [] } := rfl
  rw [hleft, whole_setClient hidle]
  unfold TCPServer.left
  rw [whole_client hidle]
  rfl

/-- A handler's effect, seen with the replies of the other handlers. -/
def Effect.whole (pending : ClientPtr → Option Pending) (e : Effect) : Effect :=
  { e with server := SplitState.whole ⟨e.server, pending⟩ }

theorem whole_createNewGame
    (hidle : pending c = none) (n : GameDraw) :
    GameManager.createNewGame (SplitState.whole ⟨s, pending⟩) c n =
      (GameManager.createNewGame s c n).whole pending := by
  have hclient := whole_client (s := s) hidle
  by_cases hgame : (s.client c).gameID = []
  · rw [GameManager.createNewGame_eq hgame,
      GameManager.createNewGame_eq (by rw [hclient]; exact hgame),
      ← whole_created hidle]
    rfl
  · rw [GameManager.createNewGame_refused hgame,
      GameManager.createNewGame_refused (by rw [hclient]; exact hgame)]
    rfl

theorem whole_joinGame
    (hidle : pending c = none) (id : GameID) :
    GameManager.joinGame (SplitState.whole ⟨s, pending⟩) c id =
      (GameManager.joinGame s c id).whole pending := by
  have hclient := whole_client (s := s) hidle
  by_cases hgame : (s.client c).gameID = []
  swap
  · rw [GameManager.joinGame_refused hgame,
      GameManager.joinGame_refused (by rw [hclient]; exact hgame)]
    rfl
  have hgame' : ((SplitState.whole ⟨s, pending⟩).client c).gameID = [] := by
    rw [hclient]
    exact hgame
  by_cases hunknown : id.length ≠ 6 ∨ s.games id = none
  · rw [GameManager.joinGame_unknown hgame hunknown,
      GameManager.joinGame_unknown hgame' hunknown]
    rfl
  · simp only [not_or, not_not] at hunknown
    obtain ⟨hlen, hsome⟩ := hunknown
    obtain ⟨g, hg⟩ := Option.ne_none_iff_exists'.mp hsome
    rw [GameManager.joinGame_eq hgame hlen hg,
      GameManager.joinGame_eq hgame' hlen hg, ← whole_joined hidle]
    rfl

theorem whole_departed
    (hidle : pending c = none) :
    GameManager.departed (SplitState.whole ⟨s, pending⟩) c =
      (GameManager.departed s c).whole pending := by
  unfold GameManager.departed Effect.whole
  rw [whole_client hidle]
  split_ifs
  · rfl
  · have hgames : (SplitState.whole ⟨s, pending⟩).games = s.games := rfl
    rw [hgames]
    cases s.games (s.client c).gameID with
    | none => rfl
    | some g => simp only [whole_left hidle]

theorem whole_closed
    (hidle : pending c = none) :
    (SplitState.whole ⟨s, pending⟩).closed c = (s.closed c).whole pending :=
  whole_departed (s := s.setRegistered c false) hidle

/-- What a handler returns is the same whatever others have to reply. -/
theorem whole_handler
    {t : PacketType} {handler : HandlerFunc}
    (hidle : pending c = none)
    (h : handlers t = some handler)
    (p : Packet) (n : GameDraw) :
    handler p c n (SplitState.whole ⟨s, pending⟩) =
      (handler p c n s).map (Option.map (Effect.whole pending)) := by
  rcases handlers_cases h with ⟨-, rfl⟩ | ⟨-, rfl⟩ | ⟨-, rfl⟩ | ⟨-, rfl⟩ |
    ⟨-, rfl⟩ | ⟨-, rfl⟩ | ⟨-, rfl⟩
  · rfl
  · simp [createGameHandler, whole_createNewGame hidle, pure, Except.pure,
      Except.map]
  · unfold joinGameHandler
    cases p.getData with
    | error e => rfl
    | ok data =>
        simp [whole_joinGame hidle, bind, Except.bind, pure, Except.pure,
          Except.map]
  · unfold startGameHandler
    cases p.getData with
    | error e => rfl
    | ok data =>
        have hgames : (SplitState.whole ⟨s, pending⟩).games = s.games := rfl
        simp only [GameManager.startGame, hgames, bind, Except.bind, pure,
          Except.pure, Except.map]
        cases s.games data <;> rfl
  · unfold gameStateHandler
    rw [whole_client hidle]
    cases p.getData with
    | error e => rfl
    | ok data =>
        cases hid : gameStateClientID data with
        | error e => simp [hid, bind, Except.bind, Except.map]
        | ok id =>
            simp only [hid, bind, Except.bind]
            split_ifs
            · rfl
            · cases (s.client c).gamePump with
              | none => rfl
              | some g =>
                  have hch : ((SplitState.whole ⟨s, pending⟩).game g).ch =
                      (s.game g).ch := rfl
                  simp only [hch]
                  split_ifs <;> rfl
  · simp [leaveGameHandler, GameManager.disconnect_eq, whole_departed hidle,
      bind, Except.bind, pure, Except.pure, Except.map]
  · simp [disconnectHandler, TCPServer.disconnect_eq, whole_closed hidle,
      bind, Except.bind, pure, Except.pure, Except.map, Effect.whole]

theorem whole_dispatch
    {s' : TCPServer} {p : Packet} {n : GameDraw} {out : List Write}
    (hidle : pending c = none)
    (h : dispatch s c p n = .next s' out) :
    dispatch (SplitState.whole ⟨s, pending⟩) c p n =
      .next (SplitState.whole ⟨s', pending⟩) out := by
  unfold dispatch at h ⊢
  cases htype : p.getType with
  | error err => simp [htype] at h
  | ok t =>
      simp only [htype] at h ⊢
      cases hhandler : handlers t with
      | none =>
          simp only [hhandler, Outcome.next.injEq] at h ⊢
          obtain ⟨rfl, rfl⟩ := h
          exact ⟨rfl, rfl⟩
      | some handler =>
          simp only [hhandler, whole_handler hidle hhandler] at h ⊢
          cases hrun : handler p c n s with
          | error err => simp [hrun] at h
          | ok res =>
              cases res with
              | none => simp [hrun] at h
              | some e =>
                  simp only [hrun, Outcome.next.injEq] at h
                  obtain ⟨rfl, rfl⟩ := h
                  rfl

theorem whole_returnConnection
    {s' : TCPServer} {out : List Write}
    (hidle : pending c = none)
    (h : returnConnection s c = .next s' out) :
    returnConnection (SplitState.whole ⟨s, pending⟩) c =
      .next (SplitState.whole ⟨s', pending⟩) out := by
  rw [returnConnection_eq] at h ⊢
  simp only [Outcome.next.injEq] at h
  obtain ⟨rfl, rfl⟩ := h
  rw [whole_closed hidle, whole_setConn hidle]
  rfl

/-- What is broadcast does not depend on the replies outstanding. -/
theorem whole_broadCast
    (s : TCPServer) (pending : ClientPtr → Option Pending)
    (game : Game) (p : Packet) :
    broadCast (SplitState.whole ⟨s, pending⟩) game p =
      broadCast s game p := by
  have hloop : ∀ clients : List ClientPtr,
      broadCastWrites (SplitState.whole ⟨s, pending⟩) p clients =
        broadCastWrites s p clients := by
    intro clients
    induction clients with
    | nil => rfl
    | cons c rest ih =>
        simp only [broadCastWrites, ih, whole_clientID]
  simp only [broadCast, hloop]

theorem whole_acceptConnection
    {s' : TCPServer} {n : ClientDraw} {out : List Write}
    (hidle : pending c = none)
    (h : acceptConnection s c n = .next s' out) :
    acceptConnection (SplitState.whole ⟨s, pending⟩) c n =
      .next (SplitState.whole ⟨s', pending⟩) out := by
  simp only [acceptConnection, whole_conn hidle] at h ⊢
  cases hconn : s.conn c with
  | absent =>
      simp only [hconn, Outcome.next.injEq] at h ⊢
      obtain ⟨rfl, rfl⟩ := h
      rw [whole_setConn hidle]
      refine ⟨congrArg (fun s => TCPServer.setConn s c _) ?_, rfl⟩
      exact congrArg (fun s => TCPServer.setRegistered s c true)
        (whole_setClient hidle newClient).symm
  | authenticating id => simp [hconn] at h
  | serving => simp [hconn] at h
  | returned => simp [hconn] at h

theorem whole_authenticatePacket
    {s' : TCPServer} {id : ClientID} {p : Packet} {out : List Write}
    (hidle : pending c = none)
    (h : authenticatePacket s c id p = .next s' out) :
    authenticatePacket (SplitState.whole ⟨s, pending⟩) c id p =
      .next (SplitState.whole ⟨s', pending⟩) out := by
  simp only [authenticatePacket] at h ⊢
  cases hauth : authenticate id p with
  | error err => simp [hauth] at h
  | ok res =>
      cases res with
      | some err =>
          simp only [hauth] at h ⊢
          exact whole_returnConnection hidle h
      | none =>
          simp only [hauth, Outcome.next.injEq] at h ⊢
          obtain ⟨rfl, rfl⟩ := h
          rw [whole_setConn hidle, whole_setClient hidle, whole_client hidle]
          exact ⟨rfl, rfl⟩

theorem whole_receive
    {s' : TCPServer} {g : GamePtr} {out : List Write}
    (h : receive s g = .next s' out) :
    receive (SplitState.whole ⟨s, pending⟩) g =
      .next (SplitState.whole ⟨s', pending⟩) out := by
  have hgame : (SplitState.whole ⟨s, pending⟩).game g = s.game g := rfl
  simp only [receive, hgame] at h ⊢
  cases hhold : (s.game g).holding with
  | some p => simp [hhold] at h
  | none =>
      cases hch : (s.game g).ch with
      | nil => simp [hhold, hch] at h
      | cons p rest =>
          simp only [hhold, hch] at h ⊢
          split at h
          · cases h
          · simp only [Outcome.next.injEq] at h ⊢
            obtain ⟨rfl, rfl⟩ := h
            exact ⟨rfl, rfl⟩

theorem whole_finishBroadCast
    {s' : TCPServer} {g : GamePtr} {out : List Write}
    (h : finishBroadCast s g = .next s' out) :
    finishBroadCast (SplitState.whole ⟨s, pending⟩) g =
      .next (SplitState.whole ⟨s', pending⟩) out := by
  have hgame : (SplitState.whole ⟨s, pending⟩).game g = s.game g := rfl
  simp only [finishBroadCast, hgame, whole_broadCast] at h ⊢
  cases hhold : (s.game g).holding with
  | none => simp [hhold] at h
  | some p =>
      simp only [hhold] at h ⊢
      cases hwrites : broadCast s (s.game g) p with
      | error err => simp [hwrites] at h
      | ok out' =>
          simp only [hwrites, Outcome.next.injEq] at h ⊢
          obtain ⟨rfl, rfl⟩ := h
          exact ⟨rfl, rfl⟩

/-- A step of one handler is the same whatever others have to reply. -/
theorem whole_step
    {s' : TCPServer} {e : Event} {out : List Write}
    (hidle : ∀ c, handlerOf e = some c → pending c = none)
    (h : TCPServer.step s e = .next s' out) :
    TCPServer.step (SplitState.whole ⟨s, pending⟩) e =
      .next (SplitState.whole ⟨s', pending⟩) out := by
  cases e with
  | accept c n => exact whole_acceptConnection (hidle c rfl) h
  | packet c p n =>
      have hc := hidle c rfl
      simp only [step, whole_conn hc] at h ⊢
      cases hconn : s.conn c with
      | absent => simp [hconn] at h
      | authenticating id =>
          simp only [hconn] at h ⊢
          exact whole_authenticatePacket hc h
      | serving =>
          simp only [hconn] at h ⊢
          exact whole_dispatch hc h
      | returned => simp [hconn] at h
  | authTimeout c =>
      have hc := hidle c rfl
      simp only [step, whole_conn hc] at h ⊢
      cases hconn : s.conn c with
      | authenticating id =>
          simp only [hconn] at h ⊢
          exact whole_returnConnection hc h
      | _ => simp [hconn] at h
  | readError c =>
      have hc := hidle c rfl
      simp only [step, whole_conn hc] at h ⊢
      cases hconn : s.conn c with
      | serving =>
          simp only [hconn] at h ⊢
          exact whole_returnConnection hc h
      | _ => simp [hconn] at h
  | quit c =>
      have hc := hidle c rfl
      simp only [step, whole_conn hc] at h ⊢
      cases hconn : s.conn c with
      | serving =>
          simp only [hconn] at h ⊢
          exact whole_returnConnection hc h
      | _ => simp [hconn] at h
  | receive g => exact whole_receive h
  | broadCast g => exact whole_finishBroadCast h

end Whole

section Update

variable {s s' : TCPServer} {c : ClientPtr} {r : Pending} {e : Event}

/-- What an update can be, and the reply it leaves to write. -/
inductive Updated (s : TCPServer) (c : ClientPtr) : TCPServer → Pending → Prop
  | created {s' : TCPServer} {r : Pending} (n : GameDraw)
      (update : GameManager.createNewGameUpdate s c n = some (s', r)) :
      Updated s c s' r
  | joined {s' : TCPServer} {r : Pending} (id : GameID)
      (update : GameManager.joinGameUpdate s c id = some (s', r)) :
      Updated s c s' r
  | left {s' : TCPServer}
      (update : GameManager.disconnectUpdate s c = .ok (some s')) :
      Updated s c s' .left
  | closed {s' : TCPServer} (r : Pending)
      (leaves : r = .left ∨ r = .closed)
      (update :
        GameManager.disconnectUpdate (s.setRegistered c false) c =
          .ok (some s')) :
      Updated s c s' r

theorem disconnectUpdate_eq_some
    {u : ClientPtr × TCPServer × Pending}
    (h : s.disconnectUpdate c r = .ok (some u)) :
    ∃ s', u = (c, s', r) ∧
      GameManager.disconnectUpdate (s.setRegistered c false) c =
        .ok (some s') := by
  unfold TCPServer.disconnectUpdate at h
  cases hupdate : GameManager.disconnectUpdate (s.setRegistered c false) c with
  | error err => simp [hupdate, bind, Except.bind] at h
  | ok res =>
      cases res with
      | none => simp [hupdate, bind, Except.bind, pure, Except.pure] at h
      | some s' =>
          have hu : (c, s', r) = u := by
            simpa [hupdate, bind, Except.bind, pure, Except.pure] using h
          exact ⟨s', hu.symm, rfl⟩

/-- A connection that returns while its client is in a game. -/
theorem returnConnection_of_update
    (update : GameManager.disconnectUpdate (s.setRegistered c false) c =
      .ok (some s')) :
    returnConnection s c =
      .next (GameManager.reply s' c .closed).server
        (GameManager.reply s' c .closed).writes := by
  have hclosed : s.closed c = GameManager.reply s' c .left :=
    GameManager.reply_disconnectUpdate update
  rw [returnConnection_eq, hclosed]
  rfl

/-- A packet whose handler succeeds. -/
theorem dispatch_eq_next
    {t : PacketType} {handler : HandlerFunc} {p : Packet} {n : GameDraw}
    {s' : TCPServer} {writes : List Write}
    (type : p.getType = .ok t)
    (registered : handlers t = some handler)
    (run : handler p c n s = .ok (some ⟨s', writes, none⟩)) :
    dispatch s c p n = .next s' writes := by
  simp [dispatch, type, registered, run, replies]

/-- The update of a served packet and its reply make the dispatch. -/
theorem dispatch_of_update
    {u : ClientPtr × TCPServer × Pending} {p : Packet} {n : GameDraw}
    (conn : s.conn c = .serving)
    (h : membershipUpdate s (.packet c p n) = .ok (some u)) :
    u.1 = c ∧ Updated s c u.2.1 u.2.2 ∧
      dispatch s c p n =
        .next (GameManager.reply u.2.1 c u.2.2).server
          (GameManager.reply u.2.1 c u.2.2).writes := by
  simp only [membershipUpdate, conn, bind, Except.bind] at h
  cases htype : p.getType with
  | error err => simp [htype] at h
  | ok t =>
      simp only [htype] at h
      split_ifs at h with hcreate hjoin hleave hdisconnect
      · subst hcreate
        simp only [pure, Except.pure, Except.ok.injEq,
          Option.map_eq_some_iff] at h
        obtain ⟨⟨s', r⟩, hupdate, rfl⟩ := h
        refine ⟨rfl, .created n hupdate, dispatch_eq_next htype rfl ?_⟩
        rw [createGameHandler, GameManager.reply_createNewGameUpdate hupdate]
        cases r <;> rfl
      · subst hjoin
        cases hdata : p.getData with
        | error err => simp [hdata] at h
        | ok data =>
            simp only [hdata, pure, Except.pure, Except.ok.injEq,
              Option.map_eq_some_iff] at h
            obtain ⟨⟨s', r⟩, hupdate, rfl⟩ := h
            refine ⟨rfl, .joined data hupdate,
              dispatch_eq_next htype rfl ?_⟩
            simp only [joinGameHandler, hdata, bind, Except.bind,
              GameManager.reply_joinGameUpdate hupdate]
            cases r <;> rfl
      · subst hleave
        cases hupdate : GameManager.disconnectUpdate s c with
        | error err => simp [hupdate] at h
        | ok res =>
            simp only [hupdate, pure, Except.pure, Except.ok.injEq,
              Option.map_eq_some_iff] at h
            obtain ⟨s', rfl, rfl⟩ := h
            refine ⟨rfl, .left hupdate, dispatch_eq_next htype rfl ?_⟩
            simp only [leaveGameHandler, GameManager.disconnect_eq,
              GameManager.reply_disconnectUpdate hupdate, bind, Except.bind,
              pure, Except.pure]
            rfl
      · subst hdisconnect
        obtain ⟨s', rfl, hupdate⟩ := disconnectUpdate_eq_some h
        refine ⟨rfl, .closed .left (Or.inl rfl) hupdate,
          dispatch_eq_next htype rfl ?_⟩
        have hclosed : s.closed c = GameManager.reply s' c .left :=
          GameManager.reply_disconnectUpdate hupdate
        simp only [disconnectHandler, TCPServer.disconnect_eq, hclosed, bind,
          Except.bind, pure, Except.pure]
      · simp [pure, Except.pure] at h

/-- A membership update and its reply make the step of the server. -/
theorem step_of_update
    {u : ClientPtr × TCPServer × Pending}
    (h : membershipUpdate s e = .ok (some u)) :
    handlerOf e = some u.1 ∧ Updated s u.1 u.2.1 u.2.2 ∧
      TCPServer.step s e =
        .next (GameManager.reply u.2.1 u.1 u.2.2).server
          (GameManager.reply u.2.1 u.1 u.2.2).writes := by
  have hreturn : ∀ {c : ClientPtr}, handlerOf e = some c →
      TCPServer.step s e = returnConnection s c →
      s.disconnectUpdate c .closed = .ok (some u) →
      handlerOf e = some u.1 ∧ Updated s u.1 u.2.1 u.2.2 ∧
        TCPServer.step s e =
          .next (GameManager.reply u.2.1 u.1 u.2.2).server
            (GameManager.reply u.2.1 u.1 u.2.2).writes := by
    intro c hhandler hstep hupdate
    obtain ⟨s', rfl, hupdate'⟩ := disconnectUpdate_eq_some hupdate
    exact ⟨hhandler, .closed _ (Or.inr rfl) hupdate',
      hstep.trans (returnConnection_of_update hupdate')⟩
  cases e with
  | accept c n => simp [membershipUpdate, pure, Except.pure] at h
  | receive g => simp [membershipUpdate, pure, Except.pure] at h
  | broadCast g => simp [membershipUpdate, pure, Except.pure] at h
  | authTimeout c =>
      cases hconn : s.conn c with
      | authenticating id =>
          simp only [membershipUpdate, hconn] at h
          exact hreturn rfl (by simp [step, hconn]) h
      | _ => simp [membershipUpdate, hconn, pure, Except.pure] at h
  | readError c =>
      cases hconn : s.conn c with
      | serving =>
          simp only [membershipUpdate, hconn] at h
          exact hreturn rfl (by simp [step, hconn]) h
      | _ => simp [membershipUpdate, hconn, pure, Except.pure] at h
  | quit c =>
      cases hconn : s.conn c with
      | serving =>
          simp only [membershipUpdate, hconn] at h
          exact hreturn rfl (by simp [step, hconn]) h
      | _ => simp [membershipUpdate, hconn, pure, Except.pure] at h
  | packet c p n =>
      cases hconn : s.conn c with
      | absent => simp [membershipUpdate, hconn, pure, Except.pure] at h
      | returned => simp [membershipUpdate, hconn, pure, Except.pure] at h
      | serving =>
          obtain ⟨hc, hupdated, hdispatch⟩ := dispatch_of_update hconn h
          have hstep : TCPServer.step s (.packet c p n) =
              dispatch s c p n := by
            simp [step, hconn]
          rw [hstep, hc]
          exact ⟨rfl, hupdated, hdispatch⟩
      | authenticating id =>
          simp only [membershipUpdate, hconn, bind, Except.bind] at h
          cases hauth : authenticate id p with
          | error err => simp [hauth] at h
          | ok res =>
              cases res with
              | none => simp [hauth, pure, Except.pure] at h
              | some err =>
                  simp only [hauth] at h
                  exact hreturn rfl
                    (by simp [step, hconn, authenticatePacket, hauth]) h

/-- The step of the server that a step of the split server stands for. -/
def serverView (t : SplitTransition) : Option (Event × List Write) :=
  match t.event with
  | .reply _ => none
  | .server e =>
      match TCPServer.step t.pre.whole e with
      | .next _ out => some (e, out)
      | _ => some (e, [])

/-- The inversion of a step of the split server. -/
inductive SplitMove : SplitTransition → Prop
  | updated
      {s : SplitState} {e : Event} {c : ClientPtr} {server : TCPServer}
      {r : Pending}
      (idle : ∀ d, handlerOf e = some d → s.pending d = none)
      (update : membershipUpdate s.server e = .ok (some (c, server, r))) :
      SplitMove ⟨s, .server e, [],
        ⟨server, Function.update s.pending c (some r)⟩⟩
  | stepped
      {s : SplitState} {e : Event} {server : TCPServer} {out : List Write}
      (idle : ∀ d, handlerOf e = some d → s.pending d = none)
      (noUpdate : membershipUpdate s.server e = .ok none)
      (step : TCPServer.step s.server e = .next server out) :
      SplitMove ⟨s, .server e, out, ⟨server, s.pending⟩⟩
  | replied
      {s : SplitState} {c : ClientPtr} {r : Pending}
      (pending : s.pending c = some r) :
      SplitMove ⟨s, .reply c, (GameManager.reply s.server c r).writes,
        ⟨(GameManager.reply s.server c r).server,
          Function.update s.pending c none⟩⟩

theorem splitMove_of_valid
    {t : SplitTransition}
    (valid : splitSystem.Valid t) :
    SplitMove t := by
  obtain ⟨s, event, out, s'⟩ := t
  have hstep : splitStep s event = .next s' out := valid
  cases event with
  | reply c =>
      simp only [splitStep] at hstep
      cases hpending : s.pending c with
      | none => simp [hpending] at hstep
      | some r =>
          simp only [hpending, Outcome.next.injEq] at hstep
          obtain ⟨rfl, rfl⟩ := hstep
          exact .replied hpending
  | server e =>
      simp only [splitStep] at hstep
      split_ifs at hstep with hbusy
      have hidle : ∀ d, handlerOf e = some d → s.pending d = none := by
        intro d hd
        simpa [hd] using hbusy
      cases hupdate : membershipUpdate s.server e with
      | error err => simp [hupdate] at hstep
      | ok res =>
          cases res with
          | some u =>
              obtain ⟨c, server, r⟩ := u
              simp only [hupdate, Outcome.next.injEq] at hstep
              obtain ⟨rfl, rfl⟩ := hstep
              exact .updated hidle hupdate
          | none =>
              cases hserver : TCPServer.step s.server e with
              | blocked => simp [hupdate, hserver] at hstep
              | panic => simp [hupdate, hserver] at hstep
              | next server out' =>
                  simp only [hupdate, hserver, Outcome.next.injEq] at hstep
                  obtain ⟨rfl, rfl⟩ := hstep
                  exact .stepped hidle hupdate hserver

/-- A reply is invisible to the server as a whole. -/
theorem SplitMove.hidden
    {t : SplitTransition}
    (m : SplitMove t)
    (view : serverView t = none) :
    t.post.whole = t.pre.whole := by
  cases m with
  | updated idle update =>
      simp only [serverView] at view
      split at view <;> cases view
  | stepped idle noUpdate step =>
      simp only [serverView] at view
      split at view <;> cases view
  | @replied s c r pending =>
      have hidle : Function.update s.pending c none c = none := by simp
      have hreply := whole_reply s.server r hidle
      rw [Function.update_idem, ← pending, Function.update_eq_self] at hreply
      exact hreply

/-- Every other step is a step of the server as a whole. -/
theorem SplitMove.visible
    {t : SplitTransition} {e : Event} {out : List Write}
    (m : SplitMove t)
    (view : serverView t = some (e, out)) :
    TCPServer.step t.pre.whole e = .next t.post.whole out := by
  have hview : ∀ {e' : Event} {post : TCPServer} {out' : List Write},
      t.event = .server e' →
      TCPServer.step t.pre.whole e' = .next post out' →
        post = t.post.whole →
          TCPServer.step t.pre.whole e = .next t.post.whole out := by
    intro e' post out' hevent hstep hpost
    simp only [serverView, hevent, hstep, Option.some.injEq,
      Prod.mk.injEq] at view
    obtain ⟨rfl, rfl⟩ := view
    rw [hstep, hpost]
  cases m with
  | @updated s e' c server r idle update =>
      obtain ⟨hhandler, -, hstep⟩ := step_of_update update
      exact hview rfl (whole_step idle hstep)
        (whole_reply server r (idle c hhandler))
  | stepped idle noUpdate step => exact hview rfl (whole_step idle step) rfl
  | replied => simp [serverView] at view

/-- The run of the server that a run of the split server stands for. -/
def wholeRun (tr : List SplitTransition) : List ServerTransition :=
  tr.filterMap (fun t => (serverView t).map
    (fun io => ⟨t.pre.whole, io.1, io.2, t.post.whole⟩))

/-- Every run of the split server is a run of the server. -/
theorem whole_run
    {vf : ValidationFunc} {tr : List SplitTransition} {s : SplitState}
    (run : SplitRun vf tr s) :
    ServerRun vf (wholeRun tr) s.whole :=
  run.refines (A := serverSystem) (I := fun _ => True) SplitState.whole
    serverView trivial (fun _ _ _ => trivial)
    (fun _ valid _ view => (splitMove_of_valid valid).hidden view)
    (fun _ _ _ valid _ view => (splitMove_of_valid valid).visible view)

theorem whole_inv
    {vf : ValidationFunc} {tr : List SplitTransition} {s : SplitState}
    (run : SplitRun vf tr s) :
    Inv s.whole :=
  inv_of_run (whole_run run)

/-- A step in which no game id is drawn that is registered already. -/
def SplitFresh (t : SplitTransition) : Prop :=
  match t.event with
  | .server e => DrawsFreshAt t.pre.server e
  | .reply _ => True

instance : DecidablePred SplitFresh
  | ⟨s, .server e, _, _⟩ =>
      inferInstanceAs (Decidable (DrawsFreshAt s.server e))
  | ⟨_, .reply _, _, _⟩ => .isTrue trivial

theorem whole_drawsFresh
    {s : SplitState} {e : Event}
    (idle : ∀ d, handlerOf e = some d → s.pending d = none)
    (fresh : DrawsFreshAt s.server e) :
    DrawsFreshAt s.whole e := by
  cases e with
  | packet c p n =>
      have hclient := whole_client (s := s.server) (idle c rfl)
      have hconn := whole_conn (s := s.server) (idle c rfl)
      intro serving type noGame
      refine fresh ?_ type ?_
      · rwa [← hconn]
      · rwa [← hclient]
  | _ => trivial

/-- With fresh draws no game of the server as a whole is overwritten. -/
theorem whole_allRegistered
    {vf : ValidationFunc} {tr : List SplitTransition} {s : SplitState}
    (run : SplitRun vf tr s)
    (fresh : ∀ t ∈ tr, SplitFresh t) :
    AllRegistered s.whole := by
  refine allRegistered_of_run (whole_run run) fun t' ht' => ?_
  obtain ⟨t, ht, hview⟩ := List.mem_filterMap.mp ht'
  obtain ⟨⟨e, out⟩, hio, rfl⟩ := Option.map_eq_some_iff.mp hview
  have hevent : t.event = .server e := by
    unfold serverView at hio
    split at hio
    · cases hio
    · split at hio <;> cases hio <;> assumption
  have hfresh : DrawsFreshAt t.pre.server e := by
    have h := fresh t ht
    rw [SplitFresh, hevent] at h
    exact h
  refine whole_drawsFresh ?_ hfresh
  cases splitMove_of_valid (run.valid_of_mem t ht) with
  | updated idle update =>
      cases hevent
      exact idle
  | stepped idle noUpdate step =>
      cases hevent
      exact idle
  | replied pending => cases hevent

end Update

end SplitServer

end Server
end TurnBasedGame
