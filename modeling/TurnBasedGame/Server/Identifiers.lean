import TurnBasedGame.Server.Broadcast
import TurnBasedGame.Server.GameStateSend

/-!
# Issued identifiers and their parsers

The generators render a drawn number in decimal digits; the accessors of a
game state cut out eight bytes, and `JoinGame` only looks up ids of six.  The
widths agree for every number that can be drawn, so that an issued client id
is read back from every payload it is embedded in.

The id of a game is read back as well, but what it names is an entry of the
registry: it leads to the game it was issued for exactly until the same id is
drawn once more.
-/

namespace TurnBasedGame
namespace Server

open Kernel

section Identifiers

open TCPServer

/-- Decimal digits, of a given number. -/
def Digits (k : Nat) (id : List UInt8) : Prop :=
  id.length = k ∧ ∀ b ∈ id, 48 ≤ b ∧ b ≤ 57

/-- The data of a game-state packet with a client id embedded. -/
def stateData
    (v type : UInt8) (id : ClientID) (data : List UInt8) : List UInt8 :=
  [v, type] ++ id ++ data

/-- What is left of a game-state request after its identity check: the send. -/
def sendGameState
    (s : TCPServer) (c : ClientPtr) (p : Packet) : Checked (Option Effect) :=
  match (s.client c).gamePump with
  | none => .ok none
  | some g =>
      if (s.game g).ch.length < gameChanCap then
        .ok (some ⟨s.enqueued g p, [], none⟩)
      else
        .ok none

/--
A client id is read back from the data it is embedded in, and the request of
a packet with that data passes the identity check for this client only.
-/
structure ReadBack
    (id : ClientID) (v type : UInt8) (trailing : List UInt8) : Prop where
  clientID : gameStateClientID (stateData v type id trailing) = .ok id
  data : gameStateData (stateData v type id trailing) = .ok trailing
  accepted : ∀ p c n s, p.getData = .ok (stateData v type id trailing) →
    (s.client c).clientID = id →
      gameStateHandler p c n s = sendGameState s c p
  rejected : ∀ p c n s, p.getData = .ok (stateData v type id trailing) →
    (s.client c).clientID ≠ id →
      gameStateHandler p c n s = .ok (some ⟨s, [], some .invalidAuthId⟩)

/-- Whether an event makes the server create a game under the id. -/
def DrawsIdAt (id : GameID) (s : TCPServer) : Event → Prop
  | .packet c p n =>
      s.conn c = .serving ∧ p.getType = .ok packetCreateGame ∧
        (s.client c).gameID = [] ∧ generateGameId n = id
  | _ => False

instance (id : GameID) (s : TCPServer) :
    (e : Event) → Decidable (DrawsIdAt id s e)
  | .packet _ _ _ => inferInstanceAs (Decidable (_ ∧ _ ∧ _ ∧ _))
  | .accept _ _ => .isFalse not_false
  | .authTimeout _ => .isFalse not_false
  | .readError _ => .isFalse not_false
  | .quit _ => .isFalse not_false
  | .receive _ => .isFalse not_false
  | .broadCast _ => .isFalse not_false

/-- A step in which a game is created under the id. -/
def DrawsId (id : GameID) (t : ServerTransition) : Prop :=
  DrawsIdAt id t.pre t.event

instance (id : GameID) : DecidablePred (DrawsId id) := fun t =>
  inferInstanceAs (Decidable (DrawsIdAt id t.pre t.event))

/-- The effect of a request by which a client joins a game. -/
structure Enters
    (s : TCPServer) (c : ClientPtr) (g : GamePtr) (e : Effect) : Prop where
  succeeds : e.err = none
  replied : e.writes =
    [writePacket c encString packetJoinGameSuccess (s.game g).id]
  listed : (e.server.game g).clients = (s.game g).clients ++ [c]
  carried : (e.server.client c).gameID = (s.game g).id
  pump : (e.server.client c).gamePump = some g

section Digits

theorem digits_decimalBytes
    {n k : Nat}
    (h : (decimalBytes n).length = k) :
    Digits k (decimalBytes n) := by
  refine ⟨h, fun b hb => ?_⟩
  obtain ⟨c, hc, rfl⟩ := List.mem_map.mp hb
  have hdigit : c.isDigit :=
    Nat.isDigit_of_mem_toDigits (by omega) (by omega) hc
  simp only [Char.isDigit, Bool.and_eq_true, decide_eq_true_eq] at hdigit
  have hlo : 48 ≤ c.toNat := hdigit.1
  have hhi : c.toNat ≤ 57 := hdigit.2
  have hbyte : (UInt8.ofNat c.toNat).toNat = c.toNat := by
    rw [UInt8.toNat_ofNat']
    omega
  rw [UInt8.le_iff_toNat_le, UInt8.le_iff_toNat_le, hbyte]
  exact ⟨hlo, hhi⟩

/-- Every client id that can be issued has eight digits. -/
theorem digits_generateClientId
    (n : ClientDraw) :
    Digits 8 (generateClientId n) := by
  refine ⟨generateClientId_length n, fun b hb => ?_⟩
  rcases List.mem_append.mp hb with hpad | hdigit
  · rw [List.eq_of_mem_replicate hpad]
    decide
  · exact (digits_decimalBytes rfl).2 b hdigit

/-- Every game id that can be issued has six digits. -/
theorem digits_generateGameId
    (n : GameDraw) :
    Digits 6 (generateGameId n) :=
  digits_decimalBytes (generateGameId_length n)

/-- Whatever has eight bytes is read back from where it is embedded. -/
theorem readBack_of_length
    {id : ClientID}
    (h : id.length = 8)
    (v type : UInt8) (trailing : List UInt8) :
    ReadBack id v type trailing := by
  have hlen : gsDataOffset ≤ (stateData v type id trailing).length := by
    simp only [stateData, List.length_append, List.length_cons, h,
      List.length_nil, gsDataOffset]
    omega
  have hcut : ((stateData v type id trailing).take gsDataOffset).drop
      gsClientIdOffset = id := by
    simp [stateData, gsDataOffset, gsClientIdOffset, ← h]
  have hembedded : ∀ {p : Packet},
      p.getData = .ok (stateData v type id trailing) →
        gsDataOffset ≤ p.payload.length ∧ embeddedID p = id := by
    intro p hp
    obtain ⟨-, hpayload⟩ := getData_eq_ok_iff.mp hp
    rw [embeddedID, hpayload]
    exact ⟨hlen, hcut⟩
  constructor
  case clientID => rw [gameStateClientID_ok hlen, hcut]
  case data =>
    rw [gameStateData, sliceFrom_ok hlen]
    simp [stateData, gsDataOffset, ← h]
  case accepted =>
    intro p c n s hp hown
    obtain ⟨hsize, hid⟩ := hembedded hp
    rw [gameStateHandler_eq hsize, hid, if_neg (not_not.mpr hown)]
    rfl
  case rejected =>
    intro p c n s hp hother
    obtain ⟨hsize, hid⟩ := hembedded hp
    rw [gameStateHandler_eq hsize, hid, if_pos hother]

end Digits

section Registry

variable {s : TCPServer} {id : GameID} {g : GamePtr}

/-- Serving a request to create a game, for a client in no game. -/
theorem dispatch_create
    {c : ClientPtr} {p : Packet}
    (type : p.getType = .ok packetCreateGame)
    (noGame : (s.client c).gameID = [])
    (n : GameDraw) :
    dispatch s c p n = .next (s.created c n)
      [writePacket c encString packetCreateGameSuccess
        (generateGameId n)] := by
  have hhandler : handlers packetCreateGame = some createGameHandler := rfl
  simp only [dispatch, type, hhandler, createGameHandler,
    GameManager.createNewGame_eq noGame, replies, pure, Except.pure]

/-- A step that draws the id registers a new game under it. -/
theorem games_of_draws
    {t : ServerTransition}
    (valid : serverSystem.Valid t)
    (draws : DrawsId id t) :
    t.post.games id = some t.pre.allocated ∧
      t.post.allocated = t.pre.allocated + 1 := by
  obtain ⟨s, event, out, s'⟩ := t
  cases event with
  | packet c p n =>
      obtain ⟨conn, type, noGame, rfl⟩ := draws
      have hstep : step s (.packet c p n) = .next s' out := valid
      simp only at conn noGame
      simp only [step, conn, dispatch_create type noGame,
        Outcome.next.injEq] at hstep
      rw [← hstep.1]
      exact ⟨created_games_new s c n, rfl⟩
  | _ => exact draws.elim

/-- Every other step leaves the entry of the id as it is. -/
theorem games_of_not_draws
    {t : ServerTransition}
    (m : Move t)
    (other : ¬ DrawsId id t) :
    t.post.games id = t.pre.games id ∧ t.pre.allocated ≤ t.post.allocated := by
  have hclosed : ∀ (s : TCPServer) (c : ClientPtr),
      (s.closed c).server.games id = s.games id ∧
        s.allocated ≤ (s.closed c).server.allocated := by
    intro s c
    obtain ⟨hgames, halloc⟩ :=
      GameManager.departed_games (s.setRegistered c false) c
    exact ⟨congrFun hgames id, halloc.ge⟩
  cases m with
  | accept => exact ⟨rfl, le_rfl⟩
  | authenticate => exact ⟨rfl, le_rfl⟩
  | close s c closes => exact hclosed s c
  | dispatch s c p n conn d =>
      cases d with
      | created type noGame =>
          have hne : id ≠ generateGameId n := fun heq =>
            other ⟨conn, type, noGame, heq.symm⟩
          exact ⟨created_games_old s c n hne, Nat.le_succ _⟩
      | disconnected => exact hclosed s c
      | _ => exact ⟨rfl, le_rfl⟩
  | receive => exact ⟨rfl, le_rfl⟩
  | broadCast => exact ⟨rfl, le_rfl⟩

/--
An id that is registered stays registered, and for the same game exactly as
long as it is not drawn again.
-/
theorem registered_iff
    {s₀ : TCPServer} {tr : List ServerTransition}
    (run : serverSystem.Run s₀ tr s)
    (registered : s₀.games id = some g)
    (allocated : g < s₀.allocated) :
    g < s.allocated ∧ s.games id ≠ none ∧
      (s.games id = some g ↔ ∀ t ∈ tr, ¬ DrawsId id t) := by
  refine run.history_induction
    (J := fun tr s => g < s.allocated ∧ s.games id ≠ none ∧
      (s.games id = some g ↔ ∀ t ∈ tr, ¬ DrawsId id t)) ?_ ?_
  · exact ⟨allocated, by simp [registered], by simp [registered]⟩
  · intro tr t _ valid ⟨hlt, hsome, hiff⟩
    by_cases hdraws : DrawsId id t
    · obtain ⟨hgames, halloc⟩ := games_of_draws valid hdraws
      rw [hgames, halloc]
      refine ⟨Nat.lt_succ_of_lt hlt, by simp, ?_⟩
      constructor
      · intro heq
        have hg : t.pre.allocated = g := Option.some.inj heq
        exact absurd hg.symm hlt.ne
      · exact fun hnone => absurd hdraws (hnone t (by simp))
    · obtain ⟨hgames, halloc⟩ :=
        games_of_not_draws (move_of_valid valid) hdraws
      rw [hgames]
      refine ⟨hlt.trans_le halloc, hsome, hiff.trans ?_⟩
      simp [or_imp, forall_and, hdraws]

/-- A client in no game joins the game its id is registered for. -/
theorem enters_iff
    {d : ClientPtr}
    (noGame : (s.client d).gameID = [])
    (length_eq : id.length = 6)
    (registered : s.games id ≠ none) :
    Enters s d g (GameManager.joinGame s d id) ↔ s.games id = some g := by
  obtain ⟨g', hg'⟩ := Option.ne_none_iff_exists'.mp registered
  rw [GameManager.joinGame_eq noGame length_eq hg']
  constructor
  · intro h
    have hpump := h.pump
    simp only [joined_client_self] at hpump
    rw [hg', hpump]
  · intro hg
    rw [hg'] at hg
    cases hg
    exact ⟨rfl, rfl, by simp, by simp, by simp⟩

end Registry

section Runs

variable {vf : ValidationFunc} {tr : List ServerTransition} {s : TCPServer}

/-- A reply that a game was created is written by the step that created it. -/
theorem created_of_reply
    (run : ServerRun vf tr s)
    {t : ServerTransition} (ht : t ∈ tr)
    {w : Write} (hw : w ∈ t.out)
    (success : Packet.getType ⟨w.data⟩ = .ok packetCreateGameSuccess) :
    ∃ c n, t.post = t.pre.created c n ∧
      w = writePacket c encString packetCreateGameSuccess
        (generateGameId n) := by
  have hnot : ∀ g, t.event ≠ .broadCast g := by
    intro g hevent
    obtain ⟨t', -, c, hc⟩ := queued_of_broadCast run ht hevent hw
    obtain ⟨-, -, htype, -⟩ := mem_queued.mp hc
    rw [success] at htype
    cases htype
  cases handlerWrite_of_move (moves_of_run run t ht) hnot hw with
  | created event conn type noGame post => exact ⟨_, _, post, rfl⟩
  | other kind =>
      rw [getType_writePacket _ _ kind.2.1 kind.1] at success
      exact absurd (Except.ok.inj success) kind.2.2.1

/--
Issued ids and their parsers.  Every client id that can be issued has eight
digits and every game id six; every issued client id is read back from the
payloads it is embedded in, with the data behind it, and passes the identity
check for its client only; and the payload of a reply that a game was created
is six bytes long, and read back as a request to join by a client in no game it
leads to this very game exactly when its id was not drawn again since.
-/
theorem issued_ids_iff
    (run : ServerRun vf tr s) :
    (∀ n, Digits 8 (generateClientId n)) ∧
    (∀ n, Digits 6 (generateGameId n)) ∧
    (∀ n v type trailing,
      ReadBack (generateClientId n) v type trailing) ∧
    ∀ first t rest, tr = first ++ t :: rest → ∀ w ∈ t.out,
      Packet.getType ⟨w.data⟩ = .ok packetCreateGameSuccess →
        ∃ id g, Packet.getData ⟨w.data⟩ = .ok id ∧ id.length = 6 ∧
          (t.post.client w.dest).gamePump = some g ∧
          ∀ d p n, (s.client d).gameID = [] → p.getData = .ok id →
            ∃ e, joinGameHandler p d n s = .ok (some e) ∧
              (Enters s d g e ↔ ∀ t' ∈ rest, ¬ DrawsId id t') := by
  refine ⟨digits_generateClientId, digits_generateGameId, fun n =>
    readBack_of_length (generateClientId_length n), ?_⟩
  rintro first t rest rfl w hw success
  obtain ⟨c, n, hpost, rfl⟩ := created_of_reply run (by simp) hw success
  have hid : (writePacket c encString packetCreateGameSuccess
      (generateGameId n)).dest = c := rfl
  have hrest : serverSystem.Run (t.pre.created c n) rest s :=
    hpost ▸ run.before.2.2
  obtain ⟨-, hsome, hiff⟩ := registered_iff hrest
    (created_games_new t.pre c n) (Nat.lt_succ_self t.pre.allocated)
  refine ⟨generateGameId n, t.pre.allocated, ?_, generateGameId_length n, ?_,
    ?_⟩
  · exact (constructPacket_read _ (by decide) (by decide)).2.2
  · rw [hpost, hid, created_client_self]
  · intro d p m noGame hdata
    refine ⟨GameManager.joinGame s d (generateGameId n), ?_, ?_⟩
    · simp only [joinGameHandler, hdata, bind, Except.bind, pure,
        Except.pure]
    · rw [enters_iff noGame (generateGameId_length n) hsome, hiff]

end Runs

/-- Three clients sign in, and two of them create a game each. -/
def twoGames (n : GameDraw) : List Event :=
  signIn 0 0 ++ signIn 1 1 ++ signIn 2 2 ++
    [.packet 0 (constructPacket encString packetCreateGame []) 7,
      .packet 1 (constructPacket encString packetCreateGame []) n]

/-- The reply to the first of them, and what is checked of the run behind it. -/
theorem exists_reply_of_exec
    (n : GameDraw) (f : List ServerTransition → TCPServer → Bool)
    (h : (serverSystem.exec (newTCPServer nopValidationFunc)
      (twoGames n)).map (fun r =>
        match r.1.drop 6 with
        | [] => false
        | t :: rest => decide (t.out =
            [writePacket 0 encString packetCreateGameSuccess
              (generateGameId 7)] ∧
            (t.post.client 0).gamePump = some 0 ∧
            (r.2.client 2).gameID = [] ∧ f rest r.2 = true)) =
      some true) :
    ∃ tr s first t rest w, ServerRun nopValidationFunc tr s ∧
      tr.map Transition.event = twoGames n ∧ tr = first ++ t :: rest ∧
      w ∈ t.out ∧ Packet.getType ⟨w.data⟩ = .ok packetCreateGameSuccess ∧
      Packet.getData ⟨w.data⟩ = .ok (generateGameId 7) ∧
      (t.post.client w.dest).gamePump = some 0 ∧
      (s.client 2).gameID = [] ∧ f rest s = true := by
  obtain ⟨tr, s, hrun, hevents, hend⟩ := System.run_of_exec h
  cases hdrop : tr.drop 6 with
  | nil => simp [hdrop] at hend
  | cons t rest =>
      simp only [hdrop, decide_eq_true_eq] at hend
      obtain ⟨hout, hpump, hgame, hf⟩ := hend
      have hread := constructPacket_read (generateGameId 7)
        (by decide : encString < 4) (by decide : packetCreateGameSuccess < 64)
      refine ⟨tr, s, tr.take 6, t, rest, _, hrun, hevents, ?_,
        by rw [hout]; exact List.mem_singleton_self _, hread.2.1, hread.2.2,
        hpump, hgame, hf⟩
      rw [← hdrop, List.take_append_drop]

/--
When the second game gets the id of the first, a client that reads the first
reply back joins the second game.
-/
theorem reply_leads_astray :
    ∃ tr s first t rest w, ServerRun nopValidationFunc tr s ∧
      tr.map Transition.event = twoGames 7 ∧ tr = first ++ t :: rest ∧
      w ∈ t.out ∧ Packet.getType ⟨w.data⟩ = .ok packetCreateGameSuccess ∧
      Packet.getData ⟨w.data⟩ = .ok (generateGameId 7) ∧
      (t.post.client w.dest).gamePump = some 0 ∧
      (s.client 2).gameID = [] ∧
      Enters s 2 1 (GameManager.joinGame s 2 (generateGameId 7)) ∧
      ¬ Enters s 2 0 (GameManager.joinGame s 2 (generateGameId 7)) := by
  obtain ⟨tr, s, first, t, rest, w, hrun, hevents, hsplit, hw, htype, hdata,
    hpump, hgame, hend⟩ := exists_reply_of_exec 7
      (fun _ s => decide (s.games (generateGameId 7) = some 1))
      (by decide +kernel)
  have hreg : s.games (generateGameId 7) = some 1 := of_decide_eq_true hend
  have henters : ∀ g,
      Enters s 2 g (GameManager.joinGame s 2 (generateGameId 7)) ↔
        s.games (generateGameId 7) = some g :=
    fun g => enters_iff hgame (generateGameId_length 7) (by simp [hreg])
  refine ⟨tr, s, first, t, rest, w, hrun, hevents, hsplit, hw, htype, hdata,
    hpump, hgame, (henters 1).mpr hreg, fun h => ?_⟩
  have hfirst := (henters 0).mp h
  rw [hreg] at hfirst
  cases hfirst

/-- When it gets another id, the client joins the first game. -/
theorem issued_ids_second :
    ∃ tr s e, ServerRun nopValidationFunc tr s ∧
      tr.map Transition.event = twoGames 8 ∧
      joinGameHandler (constructPacket encString packetJoinGame
        (generateGameId 7)) 2 0 s = .ok (some e) ∧ Enters s 2 0 e := by
  obtain ⟨tr, s, first, t, rest, w, hrun, hevents, hsplit, hw, htype, hdata,
    hpump, hgame, hend⟩ := exists_reply_of_exec 8
      (fun rest _ => rest.all (fun t' => ¬ DrawsId (generateGameId 7) t'))
      (by decide +kernel)
  obtain ⟨id, g, hid, -, hg, hjoin⟩ :=
    (issued_ids_iff hrun).2.2.2 first t rest hsplit w hw htype
  rw [hdata] at hid
  rw [hpump] at hg
  cases hid
  cases hg
  obtain ⟨e, he, hiff⟩ := hjoin 2 (constructPacket encString packetJoinGame
    (generateGameId 7)) 0 hgame
    (constructPacket_read _ (by decide) (by decide)).2.2
  refine ⟨tr, s, e, hrun, hevents, he, hiff.mpr fun t' ht' => ?_⟩
  simp only [List.all_eq_true, decide_eq_true_eq] at hend
  exact hend t' ht'

end Identifiers

end Server
end TurnBasedGame
