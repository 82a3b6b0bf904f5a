import TurnBasedGame.Server.ServerMoves

/-!
# Panics of the request handlers

Which packets stop the process when a serving connection dispatches them.
Every handler but one only needs the packet to have a header.  The handler of
game-state packets slices the embedded client id out of the data without
looking at the length of the data first.
-/

namespace TurnBasedGame
namespace Server

open Kernel

section PacketSafety

namespace TCPServer

/-- The game-state data ends before the embedded client id does. -/
def ShortGameState (p : Packet) : Prop :=
  p.getType = .ok packetGameState ∧
    p.data.length < packetHeaderSize + gsDataOffset

instance : DecidablePred ShortGameState := fun _ =>
  inferInstanceAs (Decidable (_ ∧ _))

/-- A packet as long as its header has a type. -/
theorem getType_ok
    {p : Packet}
    (h : packetHeaderSize ≤ p.data.length) :
    ∃ t, p.getType = .ok t := by
  match p, h with
  | ⟨v :: b :: rest⟩, _ => exact ⟨_, getType_cons v b rest⟩

/-- A packet on a serving connection is dispatched. -/
theorem step_packet
    {s : TCPServer} {c : ClientPtr}
    (conn : s.conn c = .serving)
    (p : Packet) (n : GameDraw) :
    serverSystem.step s (.packet c p n) = dispatch s c p n := by
  simp [serverSystem, step, conn]

section Handlers

variable {s : TCPServer} {c : ClientPtr} {p : Packet} {n : GameDraw}

/-- The game-state handler slices out of range on short data only. -/
theorem gameStateHandler_panic_iff
    (h : packetHeaderSize ≤ p.data.length) :
    (∃ e, gameStateHandler p c n s = .error e) ↔
      p.data.length < packetHeaderSize + gsDataOffset := by
  have hdata := getData_ok h
  have hlen : (p.data.drop packetHeaderSize).length =
      p.data.length - packetHeaderSize := List.length_drop
  constructor
  · rintro ⟨e, herr⟩
    by_contra hlong
    have hlong' : gsDataOffset ≤ (p.data.drop packetHeaderSize).length := by
      omega
    have hid := gameStateClientID_ok hlong'
    simp only [gameStateHandler, bind, Except.bind, pure, Except.pure, hdata,
      hid] at herr
    split_ifs at herr with hown
    cases hpump : (s.client c).gamePump with
    | none => simp [hpump] at herr
    | some g =>
        simp only [hpump] at herr
        split_ifs at herr
  · intro hshort
    refine ⟨.sliceOutOfRange, ?_⟩
    have hshort' : (p.data.drop packetHeaderSize).length < gsDataOffset := by
      omega
    have hid := gameStateClientID_panic hshort'
    simp only [gameStateHandler, bind, Except.bind, hdata, hid]

/-- The other handlers stay in bounds on every packet with a header. -/
theorem handlers_safe
    (h : packetHeaderSize ≤ p.data.length)
    {t : PacketType} {handler : HandlerFunc}
    (hhandler : handlers t = some handler)
    (hother : t ≠ packetGameState) :
    ∃ e, handler p c n s = .ok e := by
  have hdata := getData_ok h
  rcases handlers_cases hhandler with
    ⟨-, rfl⟩ | ⟨-, rfl⟩ | ⟨-, rfl⟩ | ⟨-, rfl⟩ | ⟨rfl, -⟩ | ⟨-, rfl⟩ | ⟨-, rfl⟩
  · exact ⟨_, rfl⟩
  · exact ⟨_, rfl⟩
  · simp [joinGameHandler, hdata, bind, Except.bind, pure, Except.pure]
  · simp [startGameHandler, hdata, bind, Except.bind, pure, Except.pure]
  · exact absurd rfl hother
  · simp [leaveGameHandler, GameManager.disconnect_eq, bind, Except.bind,
      pure, Except.pure]
  · simp [disconnectHandler, TCPServer.disconnect_eq, bind, Except.bind,
      pure, Except.pure]

/-- A dispatch panics exactly when the handler it finds does. -/
theorem dispatch_panic_iff
    {t : PacketType}
    (htype : p.getType = .ok t) :
    dispatch s c p n = .panic ↔
      ∃ handler e, handlers t = some handler ∧ handler p c n s = .error e := by
  unfold dispatch
  simp only [htype]
  cases hhandler : handlers t with
  | none => simp
  | some handler =>
      cases hrun : handler p c n s with
      | error e => simp [hrun]
      | ok res =>
          cases res with
          | none => simp [hrun]
          | some e => simp [hrun]

/-- Among packets with a header, short game-state packets are what panics. -/
theorem dispatch_panic_iff_short
    (h : packetHeaderSize ≤ p.data.length) :
    dispatch s c p n = .panic ↔ ShortGameState p := by
  obtain ⟨t, htype⟩ := getType_ok h
  rw [dispatch_panic_iff htype]
  constructor
  · rintro ⟨handler, e, hhandler, herr⟩
    by_cases ht : t = packetGameState
    · subst ht
      have hgs : handlers packetGameState = some gameStateHandler := rfl
      rw [hgs] at hhandler
      cases hhandler
      exact ⟨htype, (gameStateHandler_panic_iff h).mp ⟨e, herr⟩⟩
    · obtain ⟨e', hok⟩ := handlers_safe (s := s) (c := c) (n := n) h
        hhandler ht
      rw [hok] at herr
      cases herr
  · rintro ⟨hgs, hshort⟩
    have ht : t = packetGameState := by
      rw [htype] at hgs
      exact Except.ok.inj hgs
    obtain ⟨e, herr⟩ := (gameStateHandler_panic_iff (s := s) (c := c)
      (n := n) h).mpr hshort
    exact ⟨gameStateHandler, e, by rw [ht]; rfl, herr⟩

end Handlers

/--
A serving connection gets through any well formed packet without a panic
exactly when the packet is not a game-state packet with less than ten bytes
of data.
-/
theorem packet_safe_iff
    {s : TCPServer} {c : ClientPtr} {p : Packet}
    (conn : s.conn c = .serving)
    (wellFormed : WellFormed p)
    (n : GameDraw) :
    serverSystem.step s (.packet c p n) ≠ .panic ↔ ¬ ShortGameState p := by
  rw [step_packet conn, ne_eq, dispatch_panic_iff_short wellFormed.size]

/-- A client that has just signed in stops the server with an empty packet. -/
theorem gameState_empty_panics :
    ∃ tr s, ServerRun nopValidationFunc tr s ∧
      tr.map Transition.event = signIn 0 0 ∧
      s.conn 0 = .serving ∧
      WellFormed (constructPacket encBytes packetGameState []) ∧
      (constructPacket encBytes packetGameState []).data.length <
        packetMaxSize ∧
      serverSystem.step s
        (.packet 0 (constructPacket encBytes packetGameState []) 0) =
          .panic := by
  have hexec : (serverSystem.exec (newTCPServer nopValidationFunc)
      (signIn 0 0)).map (fun r => r.2.conn 0) = some .serving := by
    decide +kernel
  obtain ⟨tr, s, hrun, hevents, hconn⟩ := System.run_of_exec hexec
  refine ⟨tr, s, hrun, hevents, hconn,
    wellFormed_constructPacket _ _ (by decide), by decide, ?_⟩
  rw [step_packet hconn]
  exact (dispatch_panic_iff_short (by decide)).mpr (by decide)

/-- A game state that carries the id of its sender is long enough. -/
theorem gameState_safe :
    ∃ tr s, ServerRun nopValidationFunc tr s ∧ s.conn 0 = .serving ∧
      (s.client 0).gamePump = some 0 ∧
      (statePacket 0 []).payload.length = gsDataOffset ∧
      serverSystem.step s (.packet 0 (statePacket 0 []) 0) ≠ .panic := by
  have hexec : (serverSystem.exec (newTCPServer nopValidationFunc)
      (signIn 0 0 ++
        [.packet 0 (constructPacket encString packetCreateGame []) 7])).map
          (fun r => (r.2.conn 0, (r.2.client 0).gamePump)) =
      some (.serving, some 0) := by
    decide +kernel
  obtain ⟨tr, s, hrun, -, hend⟩ := System.run_of_exec hexec
  simp only [Prod.mk.injEq] at hend
  obtain ⟨hconn, hpump⟩ := hend
  have hsize : (statePacket 0 []).payload.length = gsDataOffset := by
    decide +kernel
  exact ⟨tr, s, hrun, hconn, hpump, hsize, (packet_safe_iff hconn
    (wellFormed_constructPacket _ _ (by decide +kernel)) 0).mpr
    (by decide +kernel)⟩

end TCPServer

end PacketSafety

end Server
end TurnBasedGame
