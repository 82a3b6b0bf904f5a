import TurnBasedGame.Server.ServerInvariant

/-!
# The session of a client

What the server promises to each of its clients, as an automaton that knows
nothing of the other clients: a session is outside any game or in a game, and
every request has its replies and its next session.  All a session learns of
the shared registry is whether a requested id is registered at the moment of
the request.

Every run of the server, seen from one client, is a run of this automaton.
-/

namespace TurnBasedGame
namespace Server

open Kernel

section SessionRefinement

open TCPServer

/-- What a client is to the server. -/
inductive Session
  | outside
  | inGame (id : GameID)
deriving DecidableEq, Repr

/-- The requests of a client, with what the server finds out about them. -/
inductive Request
  | healthCheck
  | createGame (drawn : GameID)
  | joinGame (id : GameID) (registered : Bool)
  | leaveGame
  | startGame (registered : Bool)
  | gameState (own : Bool)
  /-- A disconnect packet, or the end of the connection. -/
  | disconnect
  /-- A packet without a handler. -/
  | unknown
deriving DecidableEq, Repr

/-- What a client can be told in reply to a request. -/
inductive Reply
  | healthCheckRes
  | createGameSuccess (id : GameID)
  | joinGameSuccess (id : GameID)
  | leaveGameSuccess
  | error (err : ServerError)
deriving DecidableEq, Repr

namespace Session

/-- The next session and the replies. -/
def answer (s : Session) : Request → Session × List Reply
  | .healthCheck => (s, [.healthCheckRes])
  | .createGame drawn =>
      match s with
      | .outside => (.inGame drawn, [.createGameSuccess drawn])
      | .inGame _ => (s, [.error .invalidCreateGameAttempt])
  | .joinGame id registered =>
      match s with
      | .outside =>
          if registered then (.inGame id, [.joinGameSuccess id])
          else (s, [.error .invalidGameId])
      | .inGame _ => (s, [.error .invalidGameJoinAttempt])
  | .leaveGame =>
      match s with
      | .outside => (s, [.error .clientNotInGame])
      | .inGame _ => (.outside, [.leaveGameSuccess])
  | .startGame registered =>
      if registered then (s, []) else (s, [.error .invalidGameId])
  | .gameState own =>
      if own then (s, []) else (s, [.error .invalidAuthId])
  | .disconnect =>
      match s with
      | .outside => (s, [])
      | .inGame _ => (.outside, [.leaveGameSuccess])
  | .unknown => (s, [])

end Session

/-- The automaton of one client. -/
def sessionSystem : System Session Request Reply where
  step s r := .next (s.answer r).1 (s.answer r).2

/-- The packet a reply is written as. -/
def Reply.write (c : ClientPtr) : Reply → Write
  | .healthCheckRes =>
      writePacket c encString packetHealthCheckRes (textBytes "Im alive :D")
  | .createGameSuccess id => writePacket c encString packetCreateGameSuccess id
  | .joinGameSuccess id => writePacket c encString packetJoinGameSuccess id
  | .leaveGameSuccess => writePacket c encString packetLeaveGameSuccess []
  | .error err => errorWrite c err

/-- The session of a client in a state of the server. -/
def session (c : ClientPtr) (s : TCPServer) : Session :=
  if (s.client c).gameID = [] then .outside
  else .inGame (s.client c).gameID

theorem session_outside
    {c : ClientPtr} {s : TCPServer}
    (h : (s.client c).gameID = []) :
    session c s = .outside := by
  simp [session, h]

theorem session_inGame
    {c : ClientPtr} {s : TCPServer}
    (h : (s.client c).gameID ≠ []) :
    session c s = .inGame (s.client c).gameID := by
  simp [session, h]

theorem session_congr
    {c : ClientPtr} {s s' : TCPServer}
    (h : (s'.client c).gameID = (s.client c).gameID) :
    session c s' = session c s := by
  simp [session, h]

/-- The request a packet of the given type makes. -/
def requestOf
    (s : TCPServer) (c : ClientPtr) (p : Packet) (n : GameDraw)
    (t : PacketType) : Request :=
  if t = packetHealthCheckReq then .healthCheck
  else if t = packetCreateGame then .createGame (generateGameId n)
  else if t = packetJoinGame then
    .joinGame p.payload (s.games p.payload).isSome
  else if t = packetStartGame then .startGame (s.games p.payload).isSome
  else if t = packetGameState then
    .gameState (decide ((s.client c).clientID = embeddedID p))
  else if t = packetLeaveGame then .leaveGame
  else if t = packetDisconnect then .disconnect
  else .unknown

section RequestOf

variable (s : TCPServer) (c : ClientPtr) (p : Packet) (n : GameDraw)

theorem requestOf_createGame :
    requestOf s c p n packetCreateGame = .createGame (generateGameId n) :=
  rfl

theorem requestOf_joinGame :
    requestOf s c p n packetJoinGame =
      .joinGame p.payload (s.games p.payload).isSome :=
  rfl

theorem requestOf_startGame :
    requestOf s c p n packetStartGame =
      .startGame (s.games p.payload).isSome :=
  rfl

theorem requestOf_gameState :
    requestOf s c p n packetGameState =
      .gameState (decide ((s.client c).clientID = embeddedID p)) :=
  rfl

theorem requestOf_leaveGame :
    requestOf s c p n packetLeaveGame = .leaveGame :=
  rfl

theorem requestOf_disconnect :
    requestOf s c p n packetDisconnect = .disconnect :=
  rfl

end RequestOf

/-- The request the server serves for a client in a step. -/
def request (c : ClientPtr) (t : ServerTransition) : Option Request :=
  match t.event with
  | .packet d p n =>
      match t.pre.conn d, p.getType with
      | .serving, .ok type =>
          if d = c then some (requestOf t.pre c p n type) else none
      | _, _ => none
  | .readError d => if d = c then some .disconnect else none
  | .quit d => if d = c then some .disconnect else none
  | _ => none

/-- A step as the session of a client sees it. -/
def sessionView (c : ClientPtr) (t : ServerTransition) :
    Option (Request × List Reply) :=
  (request c t).map (fun r => (r, ((session c t.pre).answer r).2))

/-- A run as the session of a client sees it. -/
def sessionTrace (c : ClientPtr) (tr : List ServerTransition) :
    List (Transition Session Request Reply) :=
  tr.filterMap (fun t => (sessionView c t).map
    (fun io => ⟨session c t.pre, io.1, io.2, session c t.post⟩))

theorem request_packet
    {c : ClientPtr} {t : ServerTransition} {p : Packet} {n : GameDraw}
    {type : PacketType}
    (event : t.event = .packet c p n)
    (conn : t.pre.conn c = .serving)
    (htype : p.getType = .ok type) :
    request c t = some (requestOf t.pre c p n type) := by
  simp [request, event, conn, htype]

theorem request_other
    {c d : ClientPtr} {t : ServerTransition} {p : Packet} {n : GameDraw}
    (event : t.event = .packet d p n)
    (other : d ≠ c) :
    request c t = none := by
  simp only [request, event, other, if_false]
  split <;> rfl

/-- What serving a request does to the server and to its client. -/
structure Serves (c : ClientPtr) (r : Request) (s : TCPServer)
    (out : List Write) (s' : TCPServer) : Prop where
  next : session c s' = ((session c s).answer r).1
  writes : out = ((session c s).answer r).2.map (Reply.write c)
  /-- A request that fails changes nothing at all. -/
  failed : ∀ err, ((session c s).answer r).2 = [.error err] → s' = s

namespace Serves

variable {c : ClientPtr} {s : TCPServer}

/-- A request that is answered and changes nothing. -/
theorem same
    {r : Request} {out : List Write}
    (next : ((session c s).answer r).1 = session c s)
    (writes : out = ((session c s).answer r).2.map (Reply.write c)) :
    Serves c r s out s :=
  ⟨next.symm, writes, fun _ _ => rfl⟩

/-- A disconnect is never answered by an error. -/
theorem disconnect_succeeds
    (s : TCPServer) (err : ServerError) :
    ((session c s).answer .disconnect).2 ≠ [.error err] := by
  by_cases hgame : (s.client c).gameID = []
  · rw [session_outside hgame]
    simp [Session.answer]
  · rw [session_inGame hgame]
    simp [Session.answer]

/-- A disconnect, whether asked for or at the end of the connection. -/
theorem departed
    (h : Inv s) :
    Serves c .disconnect s (GameManager.departed s c).writes
      (GameManager.departed s c).server := by
  rcases GameManager.departed_cases s c with
    ⟨hgame, heq⟩ | ⟨hgame, hnone, -⟩ | ⟨g, hgame, -, heq⟩
  · rw [heq]
    refine .same ?_ ?_ <;> rw [session_outside hgame] <;> rfl
  · exact absurd hnone (h.inGame c hgame).1
  · rw [heq]
    have hout : session c (s.left c g) = .outside :=
      session_outside (by simp)
    refine ⟨?_, ?_, ?_⟩
    · rw [hout, session_inGame hgame]
      rfl
    · rw [session_inGame hgame]
      rfl
    · exact fun err herr => absurd herr (disconnect_succeeds s err)

theorem closed
    (h : Inv s) :
    Serves c .disconnect s (s.closed c).writes (s.closed c).server := by
  obtain ⟨hnext, hwrites, -⟩ := departed (c := c) (h.setRegistered c false)
  exact ⟨hnext, hwrites, fun err herr => absurd herr (disconnect_succeeds s err)⟩

/-- A request that a handler refuses is refused by the session. -/
theorem refused
    (h : Inv s) {p : Packet} {n : GameDraw} {err : ServerError}
    (refuses : Refuses s c p err) :
    ∃ type, p.getType = .ok type ∧
      Serves c (requestOf s c p n type) s [errorWrite c err] s := by
  cases refuses with
  | create type inGame =>
      refine ⟨_, type, .same ?_ ?_⟩ <;> rw [session_inGame inGame] <;> rfl
  | joinInGame type data_eq inGame =>
      refine ⟨_, type, .same ?_ ?_⟩ <;> rw [session_inGame inGame] <;> rfl
  | @joinUnknown data type data_eq noGame unknown =>
      obtain ⟨-, rfl⟩ := getData_eq_ok_iff.mp data_eq
      have hnone : s.games p.payload = none := by
        rcases unknown with hlen | hnone
        · -- an id that is registered has six digits
          cases hg : s.games p.payload with
          | none => rfl
          | some g =>
              obtain ⟨hlt, hid⟩ := h.registered _ g hg
              exact absurd (hid ▸ h.id_length g hlt) hlen
        · exact hnone
      have hreq : requestOf s c p n packetJoinGame =
          .joinGame p.payload false := by
        rw [requestOf_joinGame, hnone]
        rfl
      refine ⟨_, type, ?_⟩
      rw [hreq]
      refine .same ?_ ?_ <;> rw [session_outside noGame] <;> rfl
  | @start data type data_eq unknown =>
      obtain ⟨-, rfl⟩ := getData_eq_ok_iff.mp data_eq
      have hreq : requestOf s c p n packetStartGame = .startGame false := by
        rw [requestOf_startGame, unknown]
        rfl
      refine ⟨_, type, ?_⟩
      rw [hreq]
      exact .same rfl rfl
  | @state data id type data_eq embedded other =>
      obtain ⟨-, rfl⟩ := getData_eq_ok_iff.mp data_eq
      obtain ⟨-, rfl⟩ := gameStateClientID_eq_ok_iff.mp embedded
      have hreq : requestOf s c p n packetGameState = .gameState false := by
        simp [requestOf_gameState, embeddedID, other]
      refine ⟨_, type, ?_⟩
      rw [hreq]
      exact .same rfl rfl
  | leaveNoGame type noGame =>
      refine ⟨_, type, .same ?_ ?_⟩ <;> rw [session_outside noGame] <;> rfl
  | leaveUnregistered type inGame unregistered =>
      exact absurd unregistered (h.inGame c inGame).1

/-- Every packet that is dispatched is served as its session has it. -/
theorem dispatched
    (h : Inv s) {p : Packet} {n : GameDraw}
    {s' : TCPServer} {out : List Write}
    (d : Dispatched s c p n s' out) :
    ∃ type, p.getType = .ok type ∧
      Serves c (requestOf s c p n type) s out s' := by
  cases d with
  | @ignored t type noHandler =>
      have hreq : requestOf s c p n t = .unknown := by
        unfold handlers at noHandler
        unfold requestOf
        split_ifs at noHandler ⊢
        rfl
      refine ⟨_, type, ?_⟩
      rw [hreq]
      exact .same rfl rfl
  | refused refuses => exact refused h refuses
  | healthy type => exact ⟨_, type, .same rfl rfl⟩
  | created type noGame =>
      have hin : session c (s.created c n) = .inGame (generateGameId n) := by
        have hid : ((s.created c n).client c).gameID = generateGameId n := by
          simp
        have hlen := generateGameId_length n
        rw [session_inGame, hid]
        intro hnil
        rw [← hid, hnil] at hlen
        cases hlen
      refine ⟨_, type, ⟨?_, ?_, ?_⟩⟩
      · rw [hin, session_outside noGame]
        rfl
      · rw [session_outside noGame]
        rfl
      · intro err herr
        rw [session_outside noGame] at herr
        simp [requestOf_createGame, Session.answer] at herr
  | @joined id g type data_eq noGame length_eq registered =>
      obtain ⟨-, rfl⟩ := getData_eq_ok_iff.mp data_eq
      obtain ⟨hlt, hid⟩ := h.registered _ g registered
      have hself : ((s.joined c g).client c).gameID = p.payload := by
        simp [hid]
      have hin : session c (s.joined c g) = .inGame p.payload := by
        rw [session_inGame, hself]
        rw [hself, ← hid]
        exact h.id_ne_nil hlt
      have hreq : requestOf s c p n packetJoinGame =
          .joinGame p.payload true := by
        rw [requestOf_joinGame, registered]
        rfl
      refine ⟨_, type, ?_⟩
      rw [hreq]
      refine ⟨?_, ?_, ?_⟩
      · rw [hin, session_outside noGame]
        rfl
      · rw [session_outside noGame, hid]
        rfl
      · intro err herr
        rw [session_outside noGame] at herr
        simp [Session.answer] at herr
  | @started id g type data_eq registered =>
      obtain ⟨-, rfl⟩ := getData_eq_ok_iff.mp data_eq
      have hreq : requestOf s c p n packetStartGame = .startGame true := by
        rw [requestOf_startGame, registered]
        rfl
      refine ⟨_, type, ?_⟩
      rw [hreq]
      exact .same rfl rfl
  | @sent data id g type data_eq embedded own pump room =>
      obtain ⟨-, rfl⟩ := getData_eq_ok_iff.mp data_eq
      obtain ⟨-, rfl⟩ := gameStateClientID_eq_ok_iff.mp embedded
      have hreq : requestOf s c p n packetGameState = .gameState true := by
        simp [requestOf_gameState, embeddedID, own]
      refine ⟨_, type, ?_⟩
      rw [hreq]
      refine ⟨rfl, rfl, ?_⟩
      intro err herr
      simp [Session.answer] at herr
  | @left g type inGame registered =>
      have hdeparted : GameManager.departed s c = ⟨s.left c g,
          [writePacket c encString packetLeaveGameSuccess []], none⟩ := by
        simp [GameManager.departed, inGame, registered]
      have hserves := departed (c := c) h
      rw [hdeparted] at hserves
      obtain ⟨hnext, hwrites, -⟩ := hserves
      rw [session_inGame inGame] at hnext hwrites
      refine ⟨_, type, ⟨?_, ?_, ?_⟩⟩
      · rw [hnext, session_inGame inGame]
        rfl
      · rw [session_inGame inGame]
        rfl
      · intro err herr
        rw [session_inGame inGame] at herr
        simp [requestOf_leaveGame, Session.answer] at herr
  | disconnected type =>
      refine ⟨_, type, ?_⟩
      rw [requestOf_disconnect]
      exact closed h

end Serves

/-- A step in which no request of the client is served. -/
structure Bypasses (c : ClientPtr) (t : ServerTransition) : Prop where
  same : session c t.post = session c t.pre
  /-- All it can bring the client is its id or a broadcast. -/
  writes : ∀ w ∈ t.out, w.dest = c →
    (∃ n, t.event = .accept c n) ∨ ∃ g, t.event = .broadCast g

/-- A step that serves a request does what the session has for it. -/
theorem serves_of_move
    {c : ClientPtr} {t : ServerTransition} {r : Request}
    (m : Move t)
    (h : Inv t.pre)
    (hr : request c t = some r) :
    Serves c r t.pre t.out t.post := by
  have hend : ∀ (s : TCPServer) (d : ClientPtr), Inv s →
      (if d = c then some Request.disconnect else none) = some r →
        Serves c r s (s.closed d).writes
          ((s.closed d).server.setConn d .returned) := by
    intro s d hinv hr
    split_ifs at hr with hdc
    cases hr
    subst hdc
    obtain ⟨hnext, hwrites, -⟩ := Serves.closed (c := d) hinv
    exact ⟨hnext, hwrites, fun err herr =>
      absurd herr (Serves.disconnect_succeeds s err)⟩
  cases m with
  | accept s d n conn => cases hr
  | authenticate s d p n conn passes =>
      simp [request, show s.conn d = _ from conn] at hr
  | close s d closes =>
      cases closes with
      | badPacket n conn fails =>
          simp [request, show s.conn d = _ from conn] at hr
      | timeout conn => cases hr
      | readError conn => exact hend s d h hr
      | quit conn => exact hend s d h hr
  | dispatch s d p n conn d' =>
      obtain ⟨type, htype, hserves⟩ := Serves.dispatched h d'
      by_cases hdc : d = c
      · subst hdc
        rw [request_packet rfl conn htype] at hr
        cases hr
        exact hserves
      · rw [request_other rfl hdc] at hr
        cases hr
  | receive s g idle front => cases hr
  | broadCast s g holding writes => cases hr

/-- A connection that ends before its client is served. -/
theorem bypasses_of_outsider
    {c : ClientPtr} {s : TCPServer} {id : ClientID}
    (h : Inv s)
    (conn : s.conn c = .authenticating id)
    (e : Event) :
    Bypasses c ⟨s, e, (s.closed c).writes,
      (s.closed c).server.setConn c .returned⟩ := by
  have hnew := (h.outsider c (Or.inr ⟨id, conn⟩)).1
  have hclosed : s.closed c =
      ⟨s.setRegistered c false, [], some .clientNotInGame⟩ := by
    simp [closed, GameManager.departed, TCPServer.setRegistered, hnew,
      newClient]
  rw [hclosed]
  exact ⟨rfl, by simp⟩

/-- The other steps leave the session alone. -/
theorem bypasses_of_move
    {c : ClientPtr} {t : ServerTransition}
    (m : Move t)
    (h : Inv t.pre)
    (hr : request c t = none) :
    Bypasses c t := by
  by_cases hown : handlerOf t.event = some c
  swap
  · refine ⟨session_congr ?_, fun w hw hdest => ?_⟩
    · rw [(m.untouched hown).client]
    · by_contra hnot
      simp only [not_or, not_exists] at hnot
      exact hown (hdest ▸ m.dest hnot.2 w hw)
  cases m with
  | accept s d n conn =>
      cases hown
      have hnew : s.client c = newClient := (h.outsider c (Or.inl conn)).1
      exact ⟨session_congr (by simp [hnew]), fun _ _ _ => Or.inl ⟨n, rfl⟩⟩
  | authenticate s d p n conn passes =>
      cases hown
      exact ⟨session_congr (by simp), by simp⟩
  | close s d closes =>
      cases closes with
      | badPacket n conn fails =>
          cases hown
          exact bypasses_of_outsider h conn _
      | timeout conn =>
          cases hown
          exact bypasses_of_outsider h conn _
      | readError conn =>
          cases hown
          simp [request] at hr
      | quit conn =>
          cases hown
          simp [request] at hr
  | dispatch s d p n conn d' =>
      cases hown
      obtain ⟨type, htype, -⟩ := Serves.dispatched h d'
      rw [request_packet rfl conn htype] at hr
      cases hr
  | receive => cases hown
  | broadCast => cases hown

/-- The requests of a client, in order, are answered by its session. -/
theorem sessionTrace_run
    {vf : ValidationFunc} {tr : List ServerTransition} {s : TCPServer}
    (run : ServerRun vf tr s)
    (c : ClientPtr) :
    sessionSystem.Run .outside (sessionTrace c tr) (session c s) := by
  refine run.refines (A := sessionSystem) (I := Inv) (session c)
    (sessionView c) (inv_newTCPServer vf) (fun _ => Inv.valid) ?_ ?_
  · intro t valid h hview
    have hr : request c t = none := by simpa [sessionView] using hview
    exact (bypasses_of_move (move_of_valid valid) h hr).same
  · intro t r out valid h hview
    simp only [sessionView, Option.map_eq_some_iff, Prod.mk.injEq] at hview
    obtain ⟨r', hr, rfl, rfl⟩ := hview
    rw [(serves_of_move (move_of_valid valid) h hr).next]
    rfl

end SessionRefinement

end Server
end TurnBasedGame
