import TurnBasedGame.Server.Broadcast
import TurnBasedGame.Server.SplitServer

/-!
# Game states between membership replies

A client that reads its connection takes itself to be in a game from the reply
to its create or join request until the reply to its leave request.  Leaving
takes the client out of the member list before the reply is written, so no
game state can follow that reply.  Creating and joining put it into the list
before the reply is written, so a broadcast that falls between the two sends
it game states of a game it has not been told of.
-/

namespace TurnBasedGame
namespace Server

open Kernel

section MembershipReplies

open TCPServer

/-- What a packet tells its client: it is in a game now, or it has left. -/
def membershipReply (w : Write) : Option Bool :=
  match Packet.getType ⟨w.data⟩ with
  | .error _ => none
  | .ok t =>
      if t = packetCreateGameSuccess ∨ t = packetJoinGameSuccess then
        some true
      else if t = packetLeaveGameSuccess then
        some false
      else
        none

/-- Whether a client is in a game by what it has been told, after one write. -/
def toldBy (c : ClientPtr) (told : Bool) (w : Write) : Bool :=
  if w.dest = c then (membershipReply w).getD told else told

/-- Whether a client is in a game by what it has been told. -/
def toldIn (c : ClientPtr) (ws : List Write) : Bool :=
  ws.foldl (toldBy c) false

def IsGameState (w : Write) : Prop :=
  Packet.getType ⟨w.data⟩ = .ok packetGameState

instance : DecidablePred IsGameState := fun _ =>
  inferInstanceAs (Decidable (_ = _))

/--
Among the packets written to a client, game states come only while it is in a
game by the replies before them.
-/
def Bracketed (c : ClientPtr) : Bool → List Write → Prop
  | _, [] => True
  | told, w :: rest =>
      (w.dest = c → IsGameState w → told = true) ∧
        Bracketed c (toldBy c told w) rest

instance decidableBracketed (c : ClientPtr) :
    (told : Bool) → (ws : List Write) → Decidable (Bracketed c told ws)
  | _, [] => .isTrue trivial
  | told, w :: rest =>
      @instDecidableAnd _ _ inferInstance
        (decidableBracketed c (toldBy c told w) rest)

/-- All packets written in a run, in their order. -/
def written (tr : List SplitTransition) : List Write :=
  tr.flatMap Transition.out

/-- The id of the game a reply announces; none where the client has left. -/
def Pending.announces : Pending → Option GameID
  | .created _ id => some id
  | .joined _ id => some id
  | .left => none
  | .closed => none

/-- A client carries a game id, or has the reply to its leaving to come. -/
def Inside (s : SplitState) (c : ClientPtr) : Prop :=
  (s.server.client c).gameID ≠ [] ∨
    ∃ r, s.pending c = some r ∧ r.announces = none

/-- The handler of a client still has to write that it is in a game. -/
def Entering (s : SplitState) (c : ClientPtr) : Prop :=
  ∃ r, s.pending c = some r ∧ r.announces.isSome

/-- A step broadcasts a packet that is due to a client. -/
def BroadcastsTo (c : ClientPtr) (t : SplitTransition) : Prop :=
  ∃ g p, t.event = .server (.broadCast g) ∧
    (t.pre.server.game g).holding = some p ∧ Due c g t.pre.server p

section Scan

variable {c : ClientPtr} {told : Bool} {ws : List Write}

theorem bracketed_append
    (c : ClientPtr) (told : Bool) (ws ws' : List Write) :
    Bracketed c told (ws ++ ws') ↔
      Bracketed c told ws ∧ Bracketed c (ws.foldl (toldBy c) told) ws' := by
  induction ws generalizing told with
  | nil => simp [Bracketed]
  | cons w rest ih =>
      simp only [List.cons_append, Bracketed, List.foldl_cons, ih]
      exact and_assoc.symm

/-- Packets that are no membership replies tell nothing. -/
theorem foldl_toldBy
    (quiet : ∀ w ∈ ws, membershipReply w = none) :
    ws.foldl (toldBy c) told = told := by
  induction ws with
  | nil => rfl
  | cons w rest ih =>
      have hw : toldBy c told w = told := by
        simp [toldBy, quiet w]
      rw [List.foldl_cons, hw]
      exact ih fun w' hw' => quiet w' (List.mem_cons_of_mem w hw')

theorem bracketed_of_noGameState
    (none : ∀ w ∈ ws, ¬ IsGameState w) :
    Bracketed c told ws := by
  induction ws generalizing told with
  | nil => trivial
  | cons w rest ih =>
      exact ⟨fun _ hstate => absurd hstate (none w (by simp)),
        ih fun w' hw' => none w' (List.mem_cons_of_mem w hw')⟩

/-- Game states without replies among them. -/
theorem bracketed_iff_of_gameStates
    (states : ∀ w ∈ ws, IsGameState w ∧ membershipReply w = none) :
    Bracketed c told ws ↔ ((∃ w ∈ ws, w.dest = c) → told = true) := by
  induction ws with
  | nil => simp [Bracketed]
  | cons w rest ih =>
      have hw : toldBy c told w = told := by
        simp [toldBy, (states w (by simp)).2]
      rw [Bracketed, hw,
        ih fun w' hw' => states w' (List.mem_cons_of_mem w hw')]
      constructor
      · rintro ⟨hhead, hrest⟩ ⟨w', hw', hdest⟩
        rcases List.mem_cons.mp hw' with rfl | hw'
        · exact hhead hdest (states w' (by simp)).1
        · exact hrest ⟨w', hw', hdest⟩
      · intro hall
        exact ⟨fun hdest _ => hall ⟨w, by simp, hdest⟩,
          fun ⟨w', hw', hdest⟩ =>
            hall ⟨w', List.mem_cons_of_mem w hw', hdest⟩⟩

theorem written_snoc
    (tr : List SplitTransition) (t : SplitTransition) :
    written (tr ++ [t]) = written tr ++ t.out := by
  simp [written]

theorem toldIn_snoc
    (c : ClientPtr) (tr : List SplitTransition) (t : SplitTransition) :
    toldIn c (written (tr ++ [t])) =
      t.out.foldl (toldBy c) (toldIn c (written tr)) := by
  rw [written_snoc, toldIn, List.foldl_append]
  rfl

end Scan

section Quiet

variable {s s' : TCPServer} {c : ClientPtr} {e : Event} {out : List Write}

/-- What a packet written by the server tells its client, by its type. -/
theorem membershipReply_writePacket
    (c : ClientPtr) (enc : Encoding) {type : PacketType}
    (htype : type < 64) (henc : enc < 4)
    (data : List UInt8) :
    membershipReply (writePacket c enc type data) =
      if type = packetCreateGameSuccess ∨ type = packetJoinGameSuccess then
        some true
      else if type = packetLeaveGameSuccess then some false else none := by
  rw [membershipReply, getType_writePacket c enc htype henc data]

/-- A disconnect that makes no update does nothing. -/
theorem departed_of_noUpdate
    (h : GameManager.disconnectUpdate s c = .ok none) :
    (GameManager.departed s c).server = s ∧
      (GameManager.departed s c).writes = [] := by
  rcases GameManager.departed_cases s c with
    ⟨-, heq⟩ | ⟨-, -, heq⟩ | ⟨g, hgame, hg, -⟩
  · rw [heq]
    exact ⟨rfl, rfl⟩
  · rw [heq]
    exact ⟨rfl, rfl⟩
  · have hlength : (s.client c).gameID.length ≠ 0 := by simpa using hgame
    simp [GameManager.disconnectUpdate, hlength, hg,
      GameManager.removeClient_eq, bind, Except.bind, pure,
      Except.pure] at h

theorem closed_of_noUpdate
    {r : Pending}
    (h : s.disconnectUpdate c r = .ok none) :
    (s.closed c).server = s.setRegistered c false ∧
      (s.closed c).writes = [] := by
  refine departed_of_noUpdate ?_
  unfold TCPServer.disconnectUpdate at h
  cases hupdate : GameManager.disconnectUpdate (s.setRegistered c false) c with
  | error err => simp [hupdate, bind, Except.bind] at h
  | ok res =>
      cases res with
      | none => rfl
      | some s' => simp [hupdate, bind, Except.bind, pure, Except.pure] at h

/-- Where a connection returns, the update is that of `Disconnect`. -/
theorem membershipUpdate_of_closes
    (closes : Closes s c e) :
    membershipUpdate s e = s.disconnectUpdate c .closed := by
  cases closes with
  | badPacket n conn fails =>
      simp [membershipUpdate, conn, fails, bind, Except.bind]
  | timeout conn => simp [membershipUpdate, conn]
  | readError conn => simp [membershipUpdate, conn]
  | quit conn => simp [membershipUpdate, conn]

/-- The packets of a broadcast are game states, sent to whom they are due. -/
theorem broadCast_gameStates
    {p : Packet} {g : GamePtr}
    (relayable : Relayable p)
    (writes : broadCast s (s.game g) p = .ok out) :
    (∀ w ∈ out, IsGameState w ∧ membershipReply w = none) ∧
      ∀ c, (∃ w ∈ out, w.dest = c) ↔ Due c g s p := by
  have hstate : ∀ c, IsGameState ⟨c, p.data⟩ ∧
      membershipReply ⟨c, p.data⟩ = none := by
    intro c
    have htype : Packet.getType ⟨p.data⟩ = .ok packetGameState :=
      relayable.type
    refine ⟨htype, ?_⟩
    rw [membershipReply, htype]
    rfl
  rw [relayable.broadCast_eq] at writes
  cases hvf : (s.game g).validationFunc p with
  | error err => simp [hvf] at writes
  | ok res =>
      cases res with
      | some err =>
          have hout : out = [] := by simpa [hvf] using writes.symm
          subst hout
          exact ⟨by simp, fun c => by simp [Due, hvf]⟩
      | none =>
          simp only [hvf, Except.ok.injEq] at writes
          subst writes
          constructor
          · intro w hw
            obtain ⟨c, -, rfl⟩ := List.mem_map.mp hw
            exact hstate c
          · intro c
            simp [Due, hvf]

/-- A step without a membership update tells no client anything. -/
theorem quiet_of_noUpdate
    (noUpdate : membershipUpdate s e = .ok none)
    (step : TCPServer.step s e = .next s' out)
    (newcomer : ∀ c, handlerOf e = some c → s.conn c = .absent →
      (s.client c).gameID = [])
    (relayable : ∀ g p, (s.game g).holding = some p → Relayable p) :
    (∀ w ∈ out, membershipReply w = none) ∧
      ∀ d, (s'.client d).gameID = (s.client d).gameID := by
  have hwrite : ∀ {c : ClientPtr} {enc : Encoding} {type : PacketType}
      {data : List UInt8}, type < 64 → enc < 4 →
      ¬ (type = packetCreateGameSuccess ∨ type = packetJoinGameSuccess) →
      type ≠ packetLeaveGameSuccess →
      ∀ w ∈ [writePacket c enc type data], membershipReply w = none := by
    intro c enc type data htype henc henter hleave w hw
    rw [List.mem_singleton.mp hw, membershipReply_writePacket c enc htype henc,
      if_neg henter, if_neg hleave]
  have hmove : Move ⟨s, e, out, s'⟩ := move_of_valid step
  generalize ht : (⟨s, e, out, s'⟩ : ServerTransition) = t at hmove
  cases hmove with
  | accept s c n conn =>
      cases ht
      refine ⟨hwrite (by decide) (by decide) (by decide) (by decide), ?_⟩
      intro d
      by_cases hdc : d = c
      · subst hdc
        simp [newcomer d rfl conn, newClient]
      · simp [hdc]
  | authenticate s c p n conn passes =>
      cases ht
      refine ⟨by simp, fun d => ?_⟩
      by_cases hdc : d = c <;> simp [hdc]
  | close s c closes =>
      cases ht
      rw [membershipUpdate_of_closes closes] at noUpdate
      obtain ⟨hserver, hwrites⟩ := closed_of_noUpdate noUpdate
      rw [hserver, hwrites]
      exact ⟨by simp, fun _ => rfl⟩
  | dispatch s c p n conn d =>
      cases ht
      simp only [membershipUpdate, conn, bind, Except.bind] at noUpdate
      cases d with
      | ignored => exact ⟨by simp, fun _ => rfl⟩
      | refused =>
          exact ⟨hwrite (by decide) (by decide) (by decide) (by decide),
            fun _ => rfl⟩
      | healthy =>
          exact ⟨hwrite (by decide) (by decide) (by decide) (by decide),
            fun _ => rfl⟩
      | started => exact ⟨by simp, fun _ => rfl⟩
      | sent => exact ⟨by simp, fun _ => rfl⟩
      | created type noGame =>
          simp [type, GameManager.createNewGameUpdate, noGame, pure,
            Except.pure] at noUpdate
      | joined type data_eq noGame length_eq registered =>
          simp [type, data_eq, GameManager.joinGameUpdate, noGame, length_eq,
            registered, packetJoinGame, packetCreateGame, pure,
            Except.pure] at noUpdate
      | left type inGame registered =>
          have hlength : (s.client c).gameID.length ≠ 0 := by
            simpa using inGame
          simp [type, GameManager.disconnectUpdate, hlength, registered,
            GameManager.removeClient_eq, packetLeaveGame, packetJoinGame,
            packetCreateGame, bind, Except.bind, pure,
            Except.pure] at noUpdate
      | disconnected type =>
          have hclosing : s.disconnectUpdate c .left = .ok none := by
            simpa [type, packetDisconnect, packetLeaveGame, packetJoinGame,
              packetCreateGame] using noUpdate
          obtain ⟨hserver, hwrites⟩ := closed_of_noUpdate hclosing
          rw [hserver, hwrites]
          exact ⟨by simp, fun _ => rfl⟩
  | receive s g idle front =>
      cases ht
      exact ⟨by simp, fun _ => rfl⟩
  | broadCast s g holding writes =>
      cases ht
      obtain ⟨hstates, -⟩ :=
        broadCast_gameStates (relayable g _ holding) writes
      exact ⟨fun w hw => (hstates w hw).2, fun _ => rfl⟩

end Quiet

section Told

variable {vf : ValidationFunc} {tr : List SplitTransition} {s : SplitState}

/-- A leaving client had a game id and has none after the update. -/
theorem disconnectUpdate_gameID
    {s s' : TCPServer} {c : ClientPtr}
    (h : GameManager.disconnectUpdate s c = .ok (some s')) :
    (s.client c).gameID ≠ [] ∧ (s'.client c).gameID = [] ∧
      ∀ d, d ≠ c → s'.client d = s.client d := by
  unfold GameManager.disconnectUpdate at h
  simp only [GameManager.removeClient_eq, bind, Except.bind, pure,
    Except.pure] at h
  split_ifs at h with hgame
  · simp at h
  · cases hg : s.games (s.client c).gameID with
    | none => simp [hg] at h
    | some g =>
        simp only [hg, Except.ok.injEq, Option.some.injEq] at h
        subst h
        refine ⟨by simpa using hgame, by simp [setClient], fun d hd => ?_⟩
        simp [setClient, TCPServer.setGame, hd]

/-- What an update does to the game ids, by the reply it leaves to write. -/
structure GameIDsUpdated
    (c : ClientPtr) (r : Pending) (s s' : TCPServer) : Prop where
  others : ∀ d, d ≠ c → s'.client d = s.client d
  noGame : (s'.client c).gameID = []
  leaves : (s.client c).gameID ≠ [] ↔ r.announces = none
  id_ne_nil : ∀ id, r.announces = some id → id ≠ []

theorem Updated.gameIDs
    {s s' : TCPServer} {c : ClientPtr} {r : Pending}
    (u : Updated s c s' r)
    (named : ∀ id g, s.games id = some g → (s.game g).id = id) :
    GameIDsUpdated c r s s' := by
  cases u with
  | created n update =>
      unfold GameManager.createNewGameUpdate at update
      split_ifs at update with hgame
      cases update
      have hnone : (s.client c).gameID = [] := by simpa using hgame
      refine ⟨fun _ _ => rfl, hnone, by simp [hnone, Pending.announces], ?_⟩
      rintro id hid rfl
      have hlength := generateGameId_length n
      rw [show generateGameId n = [] from Option.some.inj hid] at hlength
      cases hlength
  | joined id update =>
      unfold GameManager.joinGameUpdate at update
      split_ifs at update with hgame hlength
      cases hg : s.games id with
      | none => simp [hg] at update
      | some g =>
          simp only [hg, Option.some.injEq, Prod.mk.injEq] at update
          obtain ⟨rfl, rfl⟩ := update
          have hnone : (s.client c).gameID = [] := by simpa using hgame
          refine ⟨fun _ _ => rfl, hnone, by simp [hnone, Pending.announces],
            ?_⟩
          rintro id' hid' rfl
          have hid : id = [] :=
            (named id g hg).symm.trans (Option.some.inj hid')
          simp [hid] at hlength
  | left update =>
      obtain ⟨hgame, hnone, hothers⟩ := disconnectUpdate_gameID update
      exact ⟨hothers, hnone, iff_of_true hgame rfl, fun id hid => by cases hid⟩
  | closed r leaves update =>
      obtain ⟨hgame, hnone, hothers⟩ :=
        disconnectUpdate_gameID (s := s.setRegistered c false) update
      have hr : r.announces = none := by
        rcases leaves with rfl | rfl <;> rfl
      exact ⟨hothers, hnone, iff_of_true hgame hr,
        fun id hid => by simp [hr] at hid⟩

/-- What a reply writes. -/
theorem reply_writes
    (s : TCPServer) (c : ClientPtr) (r : Pending) :
    ∃ w, (GameManager.reply s c r).writes = [w] ∧ w.dest = c ∧
      membershipReply w = some r.announces.isSome := by
  cases r with
  | created g id =>
      exact ⟨_, rfl, rfl,
        membershipReply_writePacket c encString (by decide) (by decide) id⟩
  | joined g id =>
      exact ⟨_, rfl, rfl,
        membershipReply_writePacket c encString (by decide) (by decide) id⟩
  | left =>
      exact ⟨_, rfl, rfl,
        membershipReply_writePacket c encString (by decide) (by decide) []⟩
  | closed =>
      exact ⟨_, rfl, rfl,
        membershipReply_writePacket c encString (by decide) (by decide) []⟩

/-- The game ids after a reply. -/
theorem reply_gameID
    (s : TCPServer) (c : ClientPtr) (r : Pending) :
    ((GameManager.reply s c r).server.client c).gameID =
        r.announces.getD (s.client c).gameID ∧
      ∀ d, d ≠ c →
        (GameManager.reply s c r).server.client d = s.client d := by
  cases r <;> simp +contextual [GameManager.reply, Pending.announces, setClient,
    setConn]

/-- What the clients have been told, against the state of the server. -/
structure ToldInv (tr : List SplitTransition) (s : SplitState) : Prop where
  told : ∀ c, toldIn c (written tr) = true ↔ Inside s c
  waiting : ∀ c, s.pending c ≠ none → (s.server.client c).gameID = []
  entering : ∀ c r id, s.pending c = some r → r.announces = some id → id ≠ []

/-- The packets that the loops of the games have in hand. -/
theorem relayable_of_splitRun
    (run : SplitRun vf tr s)
    {g : GamePtr} {p : Packet}
    (holding : (s.server.game g).holding = some p) :
    Relayable p := by
  have hwhole : (s.whole.game g).holding = some p := holding
  have hmem : p ∈ inFlight g s.whole := by
    simp [inFlight, hwhole]
  exact relayable_of_inFlight (whole_run run) hmem

theorem quiet_of_stepped
    {e : Event} {server : TCPServer} {out : List Write}
    (run : SplitRun vf tr s)
    (idle : ∀ d, handlerOf e = some d → s.pending d = none)
    (noUpdate : membershipUpdate s.server e = .ok none)
    (step : TCPServer.step s.server e = .next server out) :
    (∀ w ∈ out, membershipReply w = none) ∧
      ∀ d, (server.client d).gameID = (s.server.client d).gameID := by
  refine quiet_of_noUpdate noUpdate step (fun c hc habsent => ?_)
    (fun g p hp => relayable_of_splitRun run hp)
  have hidle := idle c hc
  have habsent' : s.whole.conn c = .absent := by
    rw [← habsent]
    exact whole_conn hidle
  have hnew := ((whole_inv run).outsider c (Or.inl habsent')).1
  have hclient : s.whole.client c = s.server.client c := whole_client hidle
  rw [← hclient, hnew]
  rfl

theorem ToldInv.updated
    {c : ClientPtr} {server : TCPServer} {r : Pending}
    (h : ToldInv tr s)
    (hidle : s.pending c = none)
    (updated : GameIDsUpdated c r s.server server)
    {t : SplitTransition}
    (out : t.out = []) :
    ToldInv (tr ++ [t]) ⟨server, Function.update s.pending c (some r)⟩ := by
  refine ⟨fun d => ?_, fun d hd => ?_, fun d r' id' hd hr' => ?_⟩
  · rw [toldIn_snoc, out, List.foldl_nil, h.told d]
    by_cases hdc : d = c
    · subst hdc
      simp [Inside, hidle, updated.noGame, updated.leaves]
    · simp [Inside, updated.others d hdc, hdc]
  · by_cases hdc : d = c
    · subst hdc
      exact updated.noGame
    · rw [updated.others d hdc]
      exact h.waiting d (by simpa [hdc] using hd)
  · by_cases hdc : d = c
    · subst hdc
      have hrr' : r = r' := by simpa using hd
      exact updated.id_ne_nil id' (hrr' ▸ hr')
    · exact h.entering d r' id' (by simpa [hdc] using hd) hr'

theorem ToldInv.replied
    {c : ClientPtr} {r : Pending}
    (h : ToldInv tr s)
    (pending : s.pending c = some r)
    {t : SplitTransition}
    (out : t.out = (GameManager.reply s.server c r).writes) :
    ToldInv (tr ++ [t]) ⟨(GameManager.reply s.server c r).server,
      Function.update s.pending c none⟩ := by
  obtain ⟨w, hwrites, hdest, hreply⟩ := reply_writes s.server c r
  obtain ⟨hself, hother⟩ := reply_gameID s.server c r
  have hwaiting := h.waiting c (by simp [pending])
  refine ⟨fun d => ?_, fun d hd => ?_, fun d r' id' hd hr' => ?_⟩
  · rw [toldIn_snoc, out, hwrites, List.foldl_cons, List.foldl_nil]
    by_cases hdc : d = c
    · subst hdc
      rw [toldBy, if_pos hdest, hreply, Option.getD_some]
      cases hr : r.announces with
      | none => simp [Inside, hself, hr, hwaiting]
      | some id =>
          have hid := h.entering d r id pending hr
          simp [Inside, hself, hr, hid]
    · rw [toldBy, if_neg (by rw [hdest]; exact fun heq => hdc heq.symm),
        h.told d]
      simp [Inside, hother d hdc, hdc]
  · by_cases hdc : d = c
    · subst hdc
      simp at hd
    · rw [hother d hdc]
      exact h.waiting d (by simpa [hdc] using hd)
  · by_cases hdc : d = c
    · subst hdc
      simp at hd
    · exact h.entering d r' id' (by simpa [hdc] using hd) hr'

theorem ToldInv.move
    {t : SplitTransition}
    (run : SplitRun vf tr t.pre)
    (m : SplitMove t)
    (h : ToldInv tr t.pre) :
    ToldInv (tr ++ [t]) t.post := by
  cases m with
  | @updated s e c server r idle update =>
      obtain ⟨hhandler, hupdated, -⟩ := step_of_update update
      have hids := hupdated.gameIDs
        fun id g hg => ((whole_inv run).registered id g hg).2
      exact h.updated (idle c hhandler) hids rfl
  | @stepped s e server out idle noUpdate step =>
      obtain ⟨hquiet, hgame⟩ := quiet_of_stepped run idle noUpdate step
      refine ⟨fun d => ?_, fun d hd => ?_, h.entering⟩
      · rw [toldIn_snoc, foldl_toldBy hquiet, h.told d]
        simp [Inside, hgame]
      · rw [← h.waiting d hd]
        exact hgame d
  | replied pending => exact h.replied pending rfl

theorem toldInv_of_run
    (run : SplitRun vf tr s) :
    ToldInv tr s := by
  refine run.history_induction (J := ToldInv) ⟨fun c => ?_, fun c hc => ?_,
    fun c r id hc => ?_⟩
    (fun _ _ hrun valid h => h.move hrun (splitMove_of_valid valid))
  · simp [written, toldIn, Inside, newTCPServer, newClient]
  · exact absurd rfl hc
  · cases hc

/-- The game states a step sends to a client that is not in a game. -/
theorem bracketed_step
    {t : SplitTransition}
    (run : SplitRun vf tr t.pre)
    (m : SplitMove t)
    (c : ClientPtr) :
    Bracketed c (toldIn c (written tr)) t.out ↔
      (BroadcastsTo c t → Inside t.pre c) := by
  have htold := (toldInv_of_run run).told c
  cases m with
  | @updated s e d server r idle update =>
      refine iff_of_true trivial ?_
      rintro ⟨g, p, hevent, -, -⟩
      cases hevent
      simp [membershipUpdate, pure, Except.pure] at update
  | @stepped s e server out idle noUpdate step =>
      have hmove : Move ⟨s.server, e, out, server⟩ := move_of_valid step
      by_cases hbroadcast : ∃ g, e = .broadCast g
      · obtain ⟨g, rfl⟩ := hbroadcast
        generalize ht : (⟨s.server, .broadCast g, out, server⟩ :
          ServerTransition) = t at hmove
        cases hmove with
        | @broadCast s' g' p out' holding writes =>
            cases ht
            obtain ⟨hstates, hdest⟩ := broadCast_gameStates
              (relayable_of_splitRun run holding) writes
            change Bracketed c _ out ↔ _
            rw [bracketed_iff_of_gameStates hstates, hdest, htold]
            constructor
            · rintro hdue ⟨g', p', hevent, hholding, hdue'⟩
              cases hevent
              have hholding' : (s.server.game g).holding = some p' := hholding
              rw [holding] at hholding'
              cases hholding'
              exact hdue hdue'
            · intro hto hdue
              exact hto ⟨g, p, rfl, holding, hdue⟩
        | accept => cases ht
        | authenticate => cases ht
        | close s d closes =>
            cases ht
            cases closes
        | dispatch => cases ht
        | receive => cases ht
      · refine iff_of_true (bracketed_of_noGameState ?_) ?_
        · exact fun w hw => not_gameState_of_move hmove
            (fun g heq => hbroadcast ⟨g, heq⟩) hw
        · rintro ⟨g, p, hevent, -, -⟩
          cases hevent
          exact absurd ⟨g, rfl⟩ hbroadcast
  | @replied s d r pending =>
      obtain ⟨w, hwrites, -, hreply⟩ := reply_writes s.server d r
      refine iff_of_true (bracketed_of_noGameState ?_) ?_
      · intro w' hw' hstate
        change w' ∈ (GameManager.reply s.server d r).writes at hw'
        rw [hwrites, List.mem_singleton] at hw'
        subst hw'
        rw [membershipReply, show Packet.getType _ = _ from hstate] at hreply
        cases hreply
      · rintro ⟨g, p, hevent, -, -⟩
        cases hevent

theorem bracketed_iff_inside
    (run : SplitRun vf tr s)
    (c : ClientPtr) :
    Bracketed c false (written tr) ↔
      ∀ t ∈ tr, BroadcastsTo c t → Inside t.pre c := by
  refine run.history_induction
    (J := fun tr _ => Bracketed c false (written tr) ↔
      ∀ t ∈ tr, BroadcastsTo c t → Inside t.pre c)
    (iff_of_true trivial fun t ht => by cases ht) ?_
  intro tr t hrun valid ih
  have hstep := bracketed_step hrun (splitMove_of_valid valid) c
  rw [written_snoc, bracketed_append, ih]
  change _ ∧ Bracketed c (toldIn c (written tr)) t.out ↔ _
  rw [hstep]
  constructor
  · rintro ⟨hbefore, hlast⟩ t' ht'
    rcases List.mem_append.mp ht' with ht' | ht'
    · exact hbefore t' ht'
    · rw [List.mem_singleton.mp ht']
      exact hlast
  · intro hall
    exact ⟨fun t' ht' => hall t' (List.mem_append_left _ ht'),
      hall t (by simp)⟩

/-- With fresh draws a listed client is inside, or has not been told so yet. -/
theorem inside_iff_of_member
    (run : SplitRun vf tr s)
    (fresh : ∀ t ∈ tr, SplitFresh t)
    {c : ClientPtr} {g : GamePtr}
    (member : c ∈ (s.server.game g).clients) :
    Inside s c ↔ ¬ Entering s c := by
  have hinv := whole_inv run
  have hmember : c ∈ (s.whole.game g).clients := member
  have hreg := whole_allRegistered run fresh g
    (hinv.allocated_of_member hmember)
  have hid := (hinv.member c g hmember hreg).1
  have hne : (s.whole.client c).gameID ≠ [] := by
    rw [hid]
    exact hinv.id_ne_nil (hinv.allocated_of_member hmember)
  cases hpending : s.pending c with
  | none =>
      have hclient : s.whole.client c = s.server.client c :=
        whole_client hpending
      rw [hclient] at hne
      exact iff_of_true (Or.inl hne) fun ⟨r, hr, _⟩ => by
        rw [hpending] at hr
        cases hr
  | some r =>
      have hgame := (toldInv_of_run run).waiting c (by simp [hpending])
      have hr : r.announces.isSome := by
        by_contra hleaves
        refine hne ?_
        have hclient : s.whole.client c =
            Pending.client (s.server.client c) (some r) := by
          rw [← hpending]
          rfl
        rw [hclient]
        cases r with
        | created g id => simp [Pending.announces] at hleaves
        | joined g id => simp [Pending.announces] at hleaves
        | left => exact hgame
        | closed => exact hgame
      refine iff_of_false ?_ fun hnot => hnot ⟨r, hpending, hr⟩
      rintro (hinside | ⟨r', hr', hleaves⟩)
      · exact hinside hgame
      · rw [hpending] at hr'
        cases hr'
        rw [hleaves] at hr
        cases hr

/--
Game states between membership replies, for every run and every client.  The
game states written to a client all come while it is in a game by the replies
before them if and only if no broadcast is due to it while it carries no game
id and has no reply to its leaving to come; and where no game id is drawn while
it is registered, if and only if no broadcast is due to it between its entry
into the member list and the reply that announces it.
-/
theorem bracketed_iff
    (run : SplitRun vf tr s)
    (c : ClientPtr) :
    (Bracketed c false (written tr) ↔
      ∀ t ∈ tr, BroadcastsTo c t → Inside t.pre c) ∧
    ((∀ t ∈ tr, SplitFresh t) →
      (Bracketed c false (written tr) ↔
        ∀ t ∈ tr, BroadcastsTo c t → ¬ Entering t.pre c)) := by
  have hinside := bracketed_iff_inside run c
  refine ⟨hinside, fun hfresh => hinside.trans ?_⟩
  refine forall₂_congr fun t ht => forall_congr' fun hto => ?_
  obtain ⟨g, p, -, -, hdue⟩ := hto
  obtain ⟨first, rest, rfl⟩ := List.append_of_mem ht
  exact inside_iff_of_member run.before.1
    (fun t' ht' => hfresh t' (List.mem_append_left _ ht')) hdue.2.1

end Told

/-- Two clients, of which the first creates a game and is told so. -/
def createAndReply : List SplitEvent :=
  (signIn 0 0 ++ signIn 1 1).map .server ++
    [.server (.packet 0 (constructPacket encString packetCreateGame []) 7),
      .reply 0]

/-- The second client joins the game, up to the reply. -/
def joins : SplitEvent :=
  .server (.packet 1 (constructPacket encString packetJoinGame
    (generateGameId 7)) 0)

/-- A game state of the first client is sent and broadcast. -/
def relays : List SplitEvent :=
  [.server (.packet 0 (statePacket 0 [9]) 0), .server (.receive 0),
    .server (.broadCast 0)]

/-- The types of the packets written to a client, in their order. -/
def typesWritten (c : ClientPtr) (tr : List SplitTransition) :
    List (Option PacketType) :=
  ((written tr).filter (fun w => w.dest = c)).map
    (fun w => (Packet.getType ⟨w.data⟩).toOption)

/--
A client has been appended to the member list and the reply to its request is
still to be written when the game broadcasts: it is sent the game state first.
-/
theorem gameState_before_reply :
    ∃ tr s, SplitRun nopValidationFunc tr s ∧
      tr.map Transition.event =
        createAndReply ++ [joins] ++ relays ++ [.reply 1] ∧
      typesWritten 1 tr =
        [some packetAuth, some packetGameState, some packetJoinGameSuccess] ∧
      ¬ Bracketed 1 false (written tr) := by
  have hexec : (splitSystem.exec ⟨newTCPServer nopValidationFunc, fun _ => none⟩
      (createAndReply ++ [joins] ++ relays ++ [.reply 1])).map
        (fun r => decide (typesWritten 1 r.1 =
            [some packetAuth, some packetGameState,
              some packetJoinGameSuccess] ∧
          ¬ Bracketed 1 false (written r.1))) = some true := by
    decide +kernel
  obtain ⟨tr, s, hrun, hevents, hend⟩ := System.run_of_exec hexec
  obtain ⟨htypes, hnot⟩ := of_decide_eq_true hend
  exact ⟨tr, s, hrun, hevents, htypes, hnot⟩

/-- When the reply is written first, the client is told before the state. -/
theorem bracketed_reply_first :
    ∃ tr s, SplitRun nopValidationFunc tr s ∧
      tr.map Transition.event =
        createAndReply ++ [joins, .reply 1] ++ relays ∧
      typesWritten 1 tr =
        [some packetAuth, some packetJoinGameSuccess, some packetGameState] ∧
      Bracketed 1 false (written tr) := by
  have hexec : (splitSystem.exec ⟨newTCPServer nopValidationFunc, fun _ => none⟩
      (createAndReply ++ [joins, .reply 1] ++ relays)).map
        (fun r => decide (typesWritten 1 r.1 =
            [some packetAuth, some packetJoinGameSuccess,
              some packetGameState] ∧
          ∀ t ∈ r.1, SplitFresh t ∧
            (t.event = .server (.broadCast 0) → t.pre.pending 1 = none))) =
      some true := by
    decide +kernel
  obtain ⟨tr, s, hrun, hevents, hend⟩ := System.run_of_exec hexec
  obtain ⟨htypes, hsteps⟩ := of_decide_eq_true hend
  refine ⟨tr, s, hrun, hevents, htypes, ((bracketed_iff hrun 1).2
    fun t ht => (hsteps t ht).1).mpr ?_⟩
  rintro t ht ⟨g, p, hevent, -, -⟩ ⟨r, hr, -⟩
  have hmem : t.event ∈ tr.map Transition.event := List.mem_map_of_mem ht
  rw [hevents, hevent] at hmem
  have hg : g = 0 := by
    simpa [createAndReply, joins, relays, signIn] using hmem
  subst hg
  rw [(hsteps t ht).2 hevent] at hr
  cases hr

end MembershipReplies

end Server
end TurnBasedGame
