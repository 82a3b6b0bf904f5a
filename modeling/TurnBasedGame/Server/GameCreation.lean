import TurnBasedGame.Server.ServerInvariant

/-!
# Creating a game among others

A new game is entered into the registry under a drawn id, whether or not a
game is registered under it.  The games that were there are left alone exactly
when none has the drawn id; otherwise the older game stays with its members
but can no longer be found by them.
-/

namespace TurnBasedGame
namespace Server

open Kernel

section GameCreation

open TCPServer

/--
Creating a game adds one entry to the registry and disturbs no game that is
registered: its entry and its members stay, and as long as no registered id is
drawn later, a member that still has its id is listed in it and is removed
from it by a disconnect.
-/
structure CreatesApart (s : TCPServer) (c : ClientPtr) (n : GameDraw) :
    Prop where
  oneEntry : ∃ id g, s.games id = none ∧
    (GameManager.createNewGame s c n).server.games =
      Function.update s.games id (some g)
  keeps : ∀ id g, s.games id = some g →
    (GameManager.createNewGame s c n).server.games id = some g ∧
      ((GameManager.createNewGame s c n).server.game g).clients =
        (s.game g).clients
  disconnects : ∀ id g d, s.games id = some g → d ∈ (s.game g).clients →
    ∀ tr s', serverSystem.Run (GameManager.createNewGame s c n).server tr s' →
      (∀ t ∈ tr, DrawsFresh t) → (s'.client d).gameID = id →
        d ∈ (s'.game g).clients ∧
          ∃ e, GameManager.disconnect s' d = .ok e ∧
            (e.server.game g).clients = (s'.game g).clients.erase d ∧
            d ∉ (e.server.game g).clients

/-- A game can be found under its id, also by the client that carries it. -/
structure Findable (id : GameID) (g : GamePtr) (d : ClientPtr)
    (s : TCPServer) : Prop where
  registered : s.games id = some g
  pump : (s.client d).gameID = id → (s.client d).gamePump = some g

namespace Findable

variable {id : GameID} {g : GamePtr} {d : ClientPtr} {s : TCPServer}

/-- Steps that leave the registry and the game of the client alone. -/
theorem frame
    (h : Findable id g d s) {s' : TCPServer}
    (games : s'.games = s.games)
    (gameID : (s'.client d).gameID = (s.client d).gameID)
    (pump : (s'.client d).gamePump = (s.client d).gamePump) :
    Findable id g d s' := by
  refine ⟨by rw [games]; exact h.registered, fun hid => ?_⟩
  rw [pump]
  exact h.pump (gameID ▸ hid)

/-- Steps after which the client is in no game. -/
theorem vacant
    (h : Findable id g d s) (ne : id ≠ []) {s' : TCPServer}
    (games : s'.games = s.games)
    (noGame : (s'.client d).gameID = []) :
    Findable id g d s' :=
  ⟨by rw [games]; exact h.registered,
    fun hid => absurd (hid.symm.trans noGame) ne⟩

theorem created
    (h : Findable id g d s) {n : GameDraw}
    (fresh : s.games (generateGameId n) = none)
    (c : ClientPtr) :
    Findable id g d (s.created c n) := by
  have hne : id ≠ generateGameId n := by
    intro heq
    have hreg := h.registered
    rw [heq, fresh] at hreg
    cases hreg
  constructor
  · simpa [hne] using h.registered
  · intro hid
    by_cases hdc : d = c
    · subst hdc
      simp [hne.symm] at hid
    · simp only [TCPServer.created, Function.update_of_ne hdc] at hid ⊢
      exact h.pump hid

theorem joined
    (h : Findable id g d s) (hinv : Inv s)
    {id' : GameID} {g' : GamePtr}
    (registered : s.games id' = some g')
    (c : ClientPtr) :
    Findable id g d (s.joined c g') := by
  refine ⟨h.registered, fun hid => ?_⟩
  by_cases hdc : d = c
  · subst hdc
    have hid' : (s.game g').id = id := by
      simpa using hid
    have hsame : id' = id :=
      (hinv.registered id' g' registered).2.symm.trans hid'
    rw [hsame, h.registered] at registered
    simpa using registered.symm
  · simp only [TCPServer.joined, Function.update_of_ne hdc] at hid ⊢
    exact h.pump hid

theorem departed
    (h : Findable id g d s) (ne : id ≠ []) (c : ClientPtr) :
    Findable id g d (GameManager.departed s c).server := by
  rcases GameManager.departed_cases s c with
    ⟨-, heq⟩ | ⟨-, -, heq⟩ | ⟨g', -, -, heq⟩ <;> rw [heq]
  · exact h
  · exact h
  · by_cases hdc : d = c
    · exact h.vacant ne rfl (by simp [hdc])
    · exact h.frame rfl (by simp [hdc])
        (by simp [hdc])

theorem closed
    (h : Findable id g d s) (ne : id ≠ []) (c : ClientPtr) :
    Findable id g d (s.closed c).server := by
  have hset : Findable id g d (s.setRegistered c false) :=
    h.frame rfl rfl rfl
  exact hset.departed ne c

/-- Steps that draw no registered id keep a game findable. -/
theorem move
    {t : ServerTransition}
    (m : Move t)
    (fresh : DrawsFresh t)
    (hinv : Inv t.pre)
    (ne : id ≠ [])
    (h : Findable id g d t.pre) :
    Findable id g d t.post := by
  cases m with
  | accept s c n conn =>
      by_cases hdc : d = c
      · exact h.vacant ne rfl (by simp [hdc, newClient])
      · exact h.frame rfl (by simp [hdc])
          (by simp [hdc])
  | authenticate s c p n conn passes =>
      refine h.frame rfl ?_ ?_ <;>
        by_cases hdc : d = c <;> simp [hdc]
  | close s c closes => exact (h.closed ne c).frame rfl rfl rfl
  | dispatch s c p n conn d' =>
      cases d' with
      | ignored => exact h
      | refused => exact h
      | healthy => exact h
      | created type noGame => exact h.created (fresh conn type noGame) c
      | joined type data_eq noGame length_eq registered =>
          exact h.joined hinv registered c
      | started => exact h
      | sent => exact h.frame rfl rfl rfl
      | left type inGame registered =>
          have hdeparted := h.departed ne c
          simpa [GameManager.departed, inGame, registered] using hdeparted
      | disconnected => exact h.closed ne c
  | receive s g' idle front => exact h.frame rfl rfl rfl
  | broadCast s g' holding writes => exact h.frame rfl rfl rfl

/-- So do whole runs of such steps. -/
theorem run
    {tr : List ServerTransition} {s' : TCPServer}
    (run : serverSystem.Run s tr s')
    (fresh : ∀ t ∈ tr, DrawsFresh t)
    (hinv : Inv s)
    (ne : id ≠ [])
    (h : Findable id g d s) :
    Inv s' ∧ Findable id g d s' :=
  run.invariant_where (I := fun s => Inv s ∧ Findable id g d s) ⟨hinv, h⟩
    (fun _ valid ht hpre => ⟨hpre.1.valid valid,
      Findable.move (move_of_valid valid) ht hpre.1 ne hpre.2⟩) fresh

/-- A client that carries the id of a findable game is removed from it. -/
theorem disconnects
    (h : Findable id g d s)
    (hinv : Inv s)
    (ne : id ≠ [])
    (hid : (s.client d).gameID = id) :
    d ∈ (s.game g).clients ∧
      ∃ e, GameManager.disconnect s d = .ok e ∧
        (e.server.game g).clients = (s.game g).clients.erase d ∧
        d ∉ (e.server.game g).clients := by
  have hin : (s.client d).gameID ≠ [] := hid ▸ ne
  have hreg : s.games (s.client d).gameID = some g := hid ▸ h.registered
  obtain ⟨-, g', hpump, -, hmem⟩ := hinv.inGame d hin
  rw [h.pump hid] at hpump
  cases hpump
  have hdeparted : (GameManager.departed s d).server = s.left d g := by
    simp [GameManager.departed, hin, hreg]
  have herase : ((GameManager.departed s d).server.game g).clients =
      (s.game g).clients.erase d := by
    simp [hdeparted]
  refine ⟨hmem, _, GameManager.disconnect_eq s d, herase, ?_⟩
  rw [herase]
  exact (hinv.nodup g).not_mem_erase

end Findable

/-- One new entry in the registry means that its id was not registered. -/
theorem fresh_of_oneEntry
    {s : TCPServer} {c : ClientPtr} {n : GameDraw}
    (noGame : (s.client c).gameID = [])
    (h : ∃ id g, s.games id = none ∧
      (GameManager.createNewGame s c n).server.games =
        Function.update s.games id (some g)) :
    s.games (generateGameId n) = none := by
  obtain ⟨id, g, hnone, hgames⟩ := h
  rw [GameManager.createNewGame_eq noGame n] at hgames
  have hid := congrFun hgames id
  by_cases heq : id = generateGameId n
  · exact heq ▸ hnone
  · simp [heq, hnone] at hid

/-- A game with a fresh id is created apart from the others. -/
theorem createsApart_of_fresh
    {s : TCPServer} {c : ClientPtr} {n : GameDraw}
    (hinv : Inv s)
    (conn : s.conn c = .serving)
    (noGame : (s.client c).gameID = [])
    (fresh : s.games (generateGameId n) = none) :
    CreatesApart s c n := by
  have hserver : (GameManager.createNewGame s c n).server = s.created c n := by
    rw [GameManager.createNewGame_eq noGame n]
  constructor
  case oneEntry =>
    exact ⟨_, s.allocated, fresh, by rw [hserver]; rfl⟩
  case keeps =>
    intro id g hg
    have hlt := (hinv.registered id g hg).1
    have hne : id ≠ generateGameId n := by
      intro heq
      rw [heq, fresh] at hg
      cases hg
    rw [hserver]
    constructor
    · simpa [hne] using hg
    · simp [hlt.ne]
  case disconnects =>
    intro id g d hg hmem tr s' hrun hfresh hid
    rw [hserver] at hrun
    obtain ⟨hlt, hgid⟩ := hinv.registered id g hg
    have hne : id ≠ [] := hgid ▸ hinv.id_ne_nil hlt
    have hpump := (hinv.member d g hmem (by rw [hgid]; exact hg)).2
    have hfind : Findable id g d s := ⟨hg, fun _ => hpump⟩
    obtain ⟨hinv', hfind'⟩ := (hfind.created fresh c).run hrun hfresh
      (hinv.created conn noGame n) hne
    exact hfind'.disconnects hinv' hne hid

/--
In every reachable state, a client without a game creates one apart from all
registered games exactly when no game is registered under the id it draws.
-/
theorem createsApart_iff
    {vf : ValidationFunc} {tr : List ServerTransition} {s : TCPServer}
    (run : ServerRun vf tr s)
    {c : ClientPtr}
    (conn : s.conn c = .serving)
    (noGame : (s.client c).gameID = [])
    (n : GameDraw) :
    CreatesApart s c n ↔ s.games (generateGameId n) = none :=
  ⟨fun h => fresh_of_oneEntry noGame h.oneEntry,
    createsApart_of_fresh (inv_of_run run) conn noGame⟩

/-- Two clients, of which the first has created a game. -/
def createEvents : List Event :=
  signIn 0 0 ++ signIn 1 1 ++
    [.packet 0 (constructPacket encString packetCreateGame []) 7]

/-- The second creates a game with the same id, then the first one leaves. -/
def collideEvents : List Event :=
  createEvents ++
    [.packet 1 (constructPacket encString packetCreateGame []) 7,
      .packet 0 (constructPacket encString packetLeaveGame []) 0]

/--
When the second client draws the id of the first game, the registry gains no
entry, and the first client stays listed in its game after it has left.
-/
theorem createNewGame_collides :
    (∃ tr s, ServerRun nopValidationFunc tr s ∧
      tr.map Transition.event = createEvents ∧
      s.conn 1 = .serving ∧ (s.client 1).gameID = [] ∧
      s.games (generateGameId 7) = some 0 ∧ ¬ CreatesApart s 1 7) ∧
    ∃ tr s, ServerRun nopValidationFunc tr s ∧
      tr.map Transition.event = collideEvents ∧
      s.games (generateGameId 7) = some 1 ∧
      (s.client 0).gameID = [] ∧ (s.game 0).clients = [0] := by
  have hexec : (serverSystem.exec (newTCPServer nopValidationFunc)
      createEvents).map (fun r => (r.2.conn 1, (r.2.client 1).gameID,
        r.2.games (generateGameId 7))) = some (.serving, [], some 0) := by
    decide +kernel
  have hexec' : (serverSystem.exec (newTCPServer nopValidationFunc)
      collideEvents).map (fun r => (r.2.games (generateGameId 7),
        (r.2.client 0).gameID, (r.2.game 0).clients)) =
      some (some 1, [], [0]) := by
    decide +kernel
  constructor
  · obtain ⟨tr, s, hrun, hevents, hend⟩ := System.run_of_exec hexec
    simp only [Prod.mk.injEq] at hend
    obtain ⟨hconn, hgame, hgames⟩ := hend
    refine ⟨tr, s, hrun, hevents, hconn, hgame, hgames, fun h => ?_⟩
    have hnone := fresh_of_oneEntry hgame h.oneEntry
    rw [hgames] at hnone
    cases hnone
  · obtain ⟨tr, s, hrun, hevents, hend⟩ := System.run_of_exec hexec'
    simp only [Prod.mk.injEq] at hend
    obtain ⟨hgames, hgame, hclients⟩ := hend
    exact ⟨tr, s, hrun, hevents, hgames, hgame, hclients⟩

/-- With another draw the second client does not disturb the first game. -/
theorem createsApart_second :
    ∃ tr s, ServerRun nopValidationFunc tr s ∧
      tr.map Transition.event = createEvents ∧ CreatesApart s 1 8 := by
  have hexec : (serverSystem.exec (newTCPServer nopValidationFunc)
      createEvents).map (fun r => (r.2.conn 1, (r.2.client 1).gameID,
        r.2.games (generateGameId 8))) = some (.serving, [], none) := by
    decide +kernel
  obtain ⟨tr, s, hrun, hevents, hend⟩ := System.run_of_exec hexec
  simp only [Prod.mk.injEq] at hend
  obtain ⟨hconn, hgame, hgames⟩ := hend
  exact ⟨tr, s, hrun, hevents,
    (createsApart_iff hrun hconn hgame 8).mpr hgames⟩

end GameCreation

end Server
end TurnBasedGame
