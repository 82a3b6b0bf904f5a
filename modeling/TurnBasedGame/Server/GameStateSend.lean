import TurnBasedGame.Server.GameChannel

/-!
# Sending a game state

A game-state request ends with a send on the channel the client remembers
from the last game it has entered.  The handler checks the embedded id and
nothing else: a client that has entered no game has no channel, and a send on
a nil channel waits for ever, with it the goroutine of the connection.

The module reads the last game entered off the history of a run and gives the
exact condition under which a request is refused or reaches the `readLoop` of
a registered game.
-/

namespace TurnBasedGame
namespace Server

open Kernel

section GameStateSend

open TCPServer

/-- The game a join request leads to. -/
def joinTarget (s : TCPServer) (p : Packet) : Option GamePtr :=
  match p.getData with
  | .ok id => if id.length = 6 then s.games id else none
  | .error _ => none

/-- The game a packet lets a client without a game enter. -/
def entryOf (s : TCPServer) (p : Packet) : Option GamePtr :=
  if p.getType = .ok packetCreateGame then some s.allocated
  else if p.getType = .ok packetJoinGame then joinTarget s p
  else none

/-- The game a client enters in a step. -/
def enteredIn (c : ClientPtr) (t : ServerTransition) : Option GamePtr :=
  match t.event with
  | .packet d p _ =>
      if d = c ∧ t.pre.conn c = .serving ∧ (t.pre.client c).gameID = [] then
        entryOf t.pre p
      else
        none
  | _ => none

/-- The game a client has entered last in a run. -/
def entered (c : ClientPtr) (tr : List ServerTransition) : Option GamePtr :=
  (tr.filterMap (enteredIn c)).getLast?

theorem entered_snoc
    (c : ClientPtr) (tr : List ServerTransition) (t : ServerTransition) :
    entered c (tr ++ [t]) = (enteredIn c t).or (entered c tr) := by
  cases h : enteredIn c t <;> simp [entered, h]

/-- A packet of another connection lets a client enter no game. -/
theorem enteredIn_other
    {c d : ClientPtr} {s s' : TCPServer} {p : Packet} {n : GameDraw}
    {out : List Write}
    (h : d ≠ c) :
    enteredIn c ⟨s, .packet d p n, out, s'⟩ = none := by
  simp [enteredIn, h]

/-- A connection that is not served lets its client enter no game. -/
theorem enteredIn_of_conn
    {c d : ClientPtr} {s s' : TCPServer} {p : Packet} {n : GameDraw}
    {out : List Write}
    (conn : s.conn d ≠ .serving) :
    enteredIn c ⟨s, .packet d p n, out, s'⟩ = none := by
  by_cases hdc : d = c
  · subst hdc
    simp [enteredIn, conn]
  · exact enteredIn_other hdc

/-- Only creating and joining a game let a client enter one. -/
theorem entryOf_none
    {s : TCPServer} {p : Packet} {t : PacketType}
    (type : p.getType = .ok t)
    (create : t ≠ packetCreateGame)
    (join : t ≠ packetJoinGame) :
    entryOf s p = none := by
  simp [entryOf, type, create, join]

theorem entryOf_create
    {s : TCPServer} {p : Packet}
    (type : p.getType = .ok packetCreateGame) :
    entryOf s p = some s.allocated := by
  rw [entryOf, if_pos type]

theorem entryOf_join
    {s : TCPServer} {p : Packet} {id : GameID}
    (type : p.getType = .ok packetJoinGame)
    (data_eq : p.getData = .ok id) :
    entryOf s p = if id.length = 6 then s.games id else none := by
  have hne : ¬ packetJoinGame = packetCreateGame := by decide
  rw [entryOf, type, if_neg (by simpa using hne), if_pos rfl, joinTarget,
    data_eq]

/-- A served packet sets the channel to that of the game entered. -/
theorem Dispatched.gamePump
    {s s' : TCPServer} {c : ClientPtr} {p : Packet} {n : GameDraw}
    {out : List Write}
    (d : Dispatched s c p n s' out) :
    (s'.client c).gamePump =
      (if (s.client c).gameID = [] then entryOf s p else none).or
        (s.client c).gamePump := by
  have hnone : ∀ {t : PacketType}, p.getType = .ok t →
      t ≠ packetCreateGame → t ≠ packetJoinGame →
        (if (s.client c).gameID = [] then entryOf s p else none).or
            (s.client c).gamePump =
          (s.client c).gamePump := by
    intro t htype hcreate hjoin
    rw [entryOf_none htype hcreate hjoin]
    simp
  cases d with
  | ignored type noHandler =>
      refine (hnone type ?_ ?_).symm
      · rintro rfl
        cases noHandler
      · rintro rfl
        cases noHandler
  | refused refuses =>
      cases refuses with
      | create type inGame => simp [inGame]
      | joinInGame type data_eq inGame => simp [inGame]
      | joinUnknown type data_eq noGame unknown =>
          have hentry : entryOf s p = none := by
            rw [entryOf_join type data_eq]
            rcases unknown with hlen | hnone
            · rw [if_neg hlen]
            · simp [hnone]
          simp [hentry]
      | start type => exact (hnone type (by decide) (by decide)).symm
      | state type => exact (hnone type (by decide) (by decide)).symm
      | leaveNoGame type => exact (hnone type (by decide) (by decide)).symm
      | leaveUnregistered type =>
          exact (hnone type (by decide) (by decide)).symm
  | healthy type => exact (hnone type (by decide) (by decide)).symm
  | created type noGame => simp [noGame, entryOf_create type]
  | joined type data_eq noGame length_eq registered =>
      simp [noGame, entryOf_join type data_eq, length_eq, registered]
  | started type => exact (hnone type (by decide) (by decide)).symm
  | sent type => exact (hnone type (by decide) (by decide)).symm
  | left type =>
      rw [left_gamePump]
      exact (hnone type (by decide) (by decide)).symm
  | disconnected type =>
      rw [closed, GameManager.departed_gamePump]
      exact (hnone type (by decide) (by decide)).symm

/-- A step of another handler lets a client enter no game. -/
theorem enteredIn_of_handler
    {c : ClientPtr} {t : ServerTransition}
    (other : handlerOf t.event ≠ some c) :
    enteredIn c t = none := by
  obtain ⟨s, event, out, s'⟩ := t
  cases event with
  | packet d p n => exact enteredIn_other fun hdc => other (congrArg some hdc)
  | _ => rfl

/-- A step sets the channel of a client to that of the game it enters. -/
theorem gamePump_of_move
    {t : ServerTransition}
    (m : Move t)
    (hinv : Inv t.pre)
    (c : ClientPtr) :
    (t.post.client c).gamePump =
      (enteredIn c t).or (t.pre.client c).gamePump := by
  by_cases hown : handlerOf t.event = some c
  swap
  · rw [enteredIn_of_handler hown, (m.untouched hown).client]
    rfl
  cases m with
  | accept s d n conn =>
      cases hown
      have hnew : s.client c = newClient :=
        (hinv.outsider c (Or.inl conn)).1
      simp [enteredIn, hnew]
  | @authenticate s d p n id conn passes =>
      cases hown
      rw [enteredIn_of_conn (by simp [conn])]
      simp
  | close s d closes =>
      have hnone : ∀ e s' out, Closes s d e →
          enteredIn c ⟨s, e, out, s'⟩ = none := by
        intro e s' out closes
        cases closes with
        | badPacket n conn => exact enteredIn_of_conn (by simp [conn])
        | timeout => rfl
        | readError => rfl
        | quit => rfl
      rw [hnone _ _ _ closes]
      exact GameManager.departed_gamePump (s.setRegistered d false) d c
  | dispatch s d p n conn d' =>
      cases hown
      have hentered : ∀ s' out,
          enteredIn c ⟨s, .packet c p n, out, s'⟩ =
            if (s.client c).gameID = [] then entryOf s p else none := by
        intro s' out
        simp [enteredIn, conn]
      rw [hentered]
      exact Dispatched.gamePump d'
  | receive => cases hown
  | broadCast => cases hown

variable {vf : ValidationFunc} {tr : List ServerTransition} {s : TCPServer}

/-- The channel of a client is that of the game it has entered last. -/
theorem gamePump_eq_entered
    (run : ServerRun vf tr s)
    (c : ClientPtr) :
    (s.client c).gamePump = entered c tr := by
  refine run.history_induction
    (J := fun tr s => (s.client c).gamePump = entered c tr) rfl ?_
  intro tr t hrun valid ih
  rw [entered_snoc, ← ih]
  exact gamePump_of_move (move_of_valid valid) (inv_of_run hrun) c

/-- What the handler does with a game state that has an embedded id. -/
theorem gameStateHandler_eq
    {p : Packet}
    (hsize : gsDataOffset ≤ p.payload.length)
    (s : TCPServer) (c : ClientPtr) (n : GameDraw) :
    gameStateHandler p c n s =
      if (s.client c).clientID ≠ embeddedID p then
        .ok (some ⟨s, [], some .invalidAuthId⟩)
      else
        match (s.client c).gamePump with
        | none => .ok none
        | some g =>
            if (s.game g).ch.length < gameChanCap then
              .ok (some ⟨s.enqueued g p, [], none⟩)
            else
              .ok none := by
  have hheader : packetHeaderSize ≤ p.data.length := by
    rw [Packet.payload, List.length_drop] at hsize
    simp only [gsDataOffset] at hsize
    omega
  have hdata : p.getData = .ok p.payload := getData_ok hheader
  have hid : gameStateClientID p.payload = .ok (embeddedID p) :=
    gameStateClientID_ok hsize
  by_cases hown : (s.client c).clientID = embeddedID p
  · cases hpump : (s.client c).gamePump with
    | none =>
        simp [gameStateHandler, hdata, hid, hown, hpump, bind, Except.bind,
          pure, Except.pure]
    | some g =>
        simp [gameStateHandler, hdata, hid, hown, hpump, enqueued, bind,
          Except.bind, pure, Except.pure]
  · simp [gameStateHandler, hdata, hid, hown, bind, Except.bind, pure,
      Except.pure]

/--
The `readLoop` of a game was started and is not stuck: it takes the packet in
front of the channel, or is about to finish a broadcast.
-/
structure Receiving (s : TCPServer) (g : GamePtr) : Prop where
  started : g < s.allocated
  takes : ∀ p rest, (s.game g).holding = none → (s.game g).ch = p :: rest →
    step s (.receive g) = .next (s.received g p rest) []
  finishes : ∀ p, (s.game g).holding = some p →
    step s (.broadCast g) ≠ .blocked

/-- In every reachable state the `readLoop` of every game is receiving. -/
theorem receiving_of_run
    (run : ServerRun vf tr s)
    {g : GamePtr}
    (started : g < s.allocated) :
    Receiving s g := by
  refine ⟨started, ?_, ?_⟩
  · intro p rest idle front
    have hp : Relayable p := by
      refine relayable_of_inFlight (g := g) run ?_
      simp [inFlight, front]
    obtain ⟨state, hstate⟩ := hp.logged
    have hdata : gameStateData p.payload =
        .ok (p.payload.drop gsDataOffset) := sliceFrom_ok hp.payload_length
    simp [step, receive, idle, front, hp.getData, hstate, hdata, bind,
      Except.bind, pure, Except.pure, received]
  · intro p holding
    simp only [step, finishBroadCast, holding]
    cases broadCast s (s.game g) p <;> simp

/--
How a game-state request should end: it is refused and changes nothing, or it
is a send on the channel of a registered game whose `readLoop` is receiving.
-/
inductive EndsWell (s : TCPServer) (c : ClientPtr) (p : Packet)
    (n : GameDraw) : Prop
  | refused (err : ServerError)
      (handler : gameStateHandler p c n s = .ok (some ⟨s, [], some err⟩))
  | sends (g : GamePtr)
      (handler : gameStateHandler p c n s =
        if (s.game g).ch.length < gameChanCap then
          .ok (some ⟨s.enqueued g p, [], none⟩)
        else
          .ok none)
      (pump : (s.client c).gamePump = some g)
      (registered : s.games (s.game g).id = some g)
      (receiving : Receiving s g)

/--
Sending a game state.  In every reachable state, a game-state request ends
well exactly when the embedded id is not that of the client, or the client
has entered a game before and the one it entered last is still registered.
-/
theorem gameState_endsWell_iff
    (run : ServerRun vf tr s)
    (c : ClientPtr) (p : Packet) (n : GameDraw)
    (hsize : gsDataOffset ≤ p.payload.length) :
    EndsWell s c p n ↔
      (s.client c).clientID ≠ embeddedID p ∨
        ∃ g, entered c tr = some g ∧ s.games (s.game g).id = some g := by
  have hpump := gamePump_eq_entered run c
  have hhandler := gameStateHandler_eq hsize s c n
  constructor
  · intro hends
    by_cases hown : (s.client c).clientID = embeddedID p
    swap
    · exact Or.inl hown
    refine Or.inr ?_
    cases hends with
    | sends g handler pump registered receiving =>
        exact ⟨g, hpump.symm.trans pump, registered⟩
    | refused err handler =>
        rw [hhandler, if_neg (by simp [hown])] at handler
        cases hg : (s.client c).gamePump with
        | none => simp [hg] at handler
        | some g =>
            simp only [hg] at handler
            split_ifs at handler
            · simp at handler
            · cases handler
  · intro hcond
    by_cases hown : (s.client c).clientID = embeddedID p
    swap
    · refine .refused .invalidAuthId ?_
      rw [hhandler, if_pos hown]
    obtain ⟨g, hentered, hreg⟩ := hcond.resolve_left (not_not_intro hown)
    have hg : (s.client c).gamePump = some g := hpump.trans hentered
    refine .sends g ?_ hg hreg
      (receiving_of_run run ((inv_of_run run).pump c g hg))
    rw [hhandler, if_neg (by simp [hown]), hg]

/-- Without a channel the handler waits for ever. -/
theorem waits_of_nilPump
    {s : TCPServer} {c : ClientPtr} {p : Packet}
    (hsize : gsDataOffset ≤ p.payload.length)
    (own : (s.client c).clientID = embeddedID p)
    (pump : (s.client c).gamePump = none)
    (n : GameDraw) :
    gameStateHandler p c n s = .ok none ∧ ¬ EndsWell s c p n := by
  have hwaits : gameStateHandler p c n s = .ok none := by
    rw [gameStateHandler_eq hsize, if_neg (by simp [own]), pump]
  refine ⟨hwaits, fun hends => ?_⟩
  cases hends with
  | refused err handler =>
      rw [hwaits] at handler
      simp at handler
  | sends g handler pump' =>
      rw [pump] at pump'
      cases pump'

/-- A client signs in and sends a game state without being in a game. -/
theorem gameState_waits_forever :
    ∃ tr s, ServerRun nopValidationFunc tr s ∧
      tr.map Transition.event = signIn 0 0 ∧ s.conn 0 = .serving ∧
      gsDataOffset ≤ (statePacket 0 [1]).payload.length ∧
      (s.client 0).gamePump = none ∧
      gameStateHandler (statePacket 0 [1]) 0 0 s = .ok none ∧
      ¬ EndsWell s 0 (statePacket 0 [1]) 0 := by
  have hexec : (serverSystem.exec (newTCPServer nopValidationFunc)
      (signIn 0 0)).map (fun r => (r.2.conn 0, (r.2.client 0).gamePump,
        decide ((r.2.client 0).clientID = embeddedID (statePacket 0 [1])))) =
      some (.serving, none, true) := by
    decide +kernel
  obtain ⟨tr, s, hrun, hevents, hend⟩ := System.run_of_exec hexec
  simp only [Prod.mk.injEq, decide_eq_true_eq] at hend
  obtain ⟨hconn, hpump, hown⟩ := hend
  have hsize : gsDataOffset ≤ (statePacket 0 [1]).payload.length := by
    decide +kernel
  exact ⟨tr, s, hrun, hevents, hconn, hsize, hpump,
    waits_of_nilPump hsize hown hpump 0⟩

/-- After it has created a game, its game state is sent to that game. -/
theorem gameState_endsWell_created :
    ∃ tr s, ServerRun nopValidationFunc tr s ∧
      tr.map Transition.event = signIn 0 0 ++
        [.packet 0 (constructPacket encString packetCreateGame []) 7] ∧
      EndsWell s 0 (statePacket 0 [1]) 0 := by
  have hexec : (serverSystem.exec (newTCPServer nopValidationFunc)
      (signIn 0 0 ++
        [.packet 0 (constructPacket encString packetCreateGame []) 7])).map
      (fun r => (entered 0 r.1, r.2.games (r.2.game 0).id)) =
      some (some 0, some 0) := by
    decide +kernel
  obtain ⟨tr, s, hrun, hevents, hend⟩ := System.run_of_exec hexec
  simp only [Prod.mk.injEq] at hend
  obtain ⟨hentered, hreg⟩ := hend
  exact ⟨tr, s, hrun, hevents,
    (gameState_endsWell_iff hrun 0 (statePacket 0 [1]) 0
      (by decide +kernel)).mpr (Or.inr ⟨0, hentered, hreg⟩)⟩

end GameStateSend

end Server
end TurnBasedGame
