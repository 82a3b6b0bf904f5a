import TurnBasedGame.Server.ServerMoves

/-!
# The invariant of the server

The link between a client and its game is kept in three places: the game id
and the channel of the client, and the member list of the game.  The registry
can be overwritten by a game whose id is drawn a second time, so a client may
belong to a game that is no longer registered; what holds in every reachable
state is collected here.  The second invariant adds what holds when no id is
ever drawn a second time.
-/

namespace TurnBasedGame
namespace Server

open Kernel

section ServerInvariant

/-- What holds in every reachable state of the server. -/
structure Inv (s : TCPServer) : Prop where
  /-- A registered game exists and has the id it is registered under. -/
  registered : ∀ id g, s.games id = some g →
    g < s.allocated ∧ (s.game g).id = id
  /-- Games that do not exist are empty. -/
  unallocated : ∀ g, s.allocated ≤ g →
    (s.game g).clients = [] ∧ (s.game g).ch = [] ∧ (s.game g).holding = none
  id_length : ∀ g, g < s.allocated → (s.game g).id.length = 6
  nodup : ∀ g, (s.game g).clients.Nodup
  pump : ∀ c g, (s.client c).gamePump = some g → g < s.allocated
  /-- A client with a game id is a member of the game it can send to. -/
  inGame : ∀ c, (s.client c).gameID ≠ [] →
    s.games (s.client c).gameID ≠ none ∧
      ∃ g, (s.client c).gamePump = some g ∧
        (s.game g).id = (s.client c).gameID ∧ c ∈ (s.game g).clients
  /-- The members of a registered game are in it. -/
  member : ∀ c g, c ∈ (s.game g).clients →
    s.games (s.game g).id = some g →
    (s.client c).gameID = (s.game g).id ∧ (s.client c).gamePump = some g
  /-- Before authentication a client has no id and no game. -/
  outsider : ∀ c, (s.conn c = .absent ∨ ∃ id, s.conn c = .authenticating id) →
    s.client c = newClient ∧ ∀ g, c ∉ (s.game g).clients

theorem inv_newTCPServer
    (vf : ValidationFunc) :
    Inv (TCPServer.newTCPServer vf) := by
  constructor <;>
    simp [TCPServer.newTCPServer, TCPServer.noGame, newClient]

namespace Inv

open TCPServer

variable {s : TCPServer}

/-- A game with a member exists. -/
theorem allocated_of_member
    (h : Inv s) {c : ClientPtr} {g : GamePtr}
    (hmem : c ∈ (s.game g).clients) :
    g < s.allocated := by
  by_contra hge
  rw [(h.unallocated g (Nat.le_of_not_lt hge)).1] at hmem
  cases hmem

/-- The id of a game that exists is not the empty id of a client. -/
theorem id_ne_nil
    (h : Inv s) {g : GamePtr}
    (hg : g < s.allocated) :
    (s.game g).id ≠ [] := by
  intro hid
  have hlen := h.id_length g hg
  rw [hid] at hlen
  cases hlen

/-- A client without a game id is in no registered game. -/
theorem not_mem_of_noGame
    (h : Inv s) {c : ClientPtr} {g : GamePtr}
    (noGame : (s.client c).gameID = [])
    (hreg : s.games (s.game g).id = some g) :
    c ∉ (s.game g).clients := by
  intro hmem
  have hgid := (h.member c g hmem hreg).1
  rw [noGame] at hgid
  exact h.id_ne_nil (h.allocated_of_member hmem) hgid.symm

/-- Steps that leave members, game ids and the registry alone. -/
theorem frame
    (h : Inv s) {s' : TCPServer}
    (games : s'.games = s.games)
    (allocated : s'.allocated = s.allocated)
    (members : ∀ g, (s'.game g).clients = (s.game g).clients)
    (ids : ∀ g, (s'.game g).id = (s.game g).id)
    (empty : ∀ g, s.allocated ≤ g →
      (s'.game g).ch = [] ∧ (s'.game g).holding = none)
    (gameIDs : ∀ c, (s'.client c).gameID = (s.client c).gameID)
    (pumps : ∀ c, (s'.client c).gamePump = (s.client c).gamePump)
    (outsider : ∀ c,
      (s'.conn c = .absent ∨ ∃ id, s'.conn c = .authenticating id) →
      s'.client c = newClient ∧ ∀ g, c ∉ (s.game g).clients) :
    Inv s' where
  registered := by
    intro id g hg
    rw [games] at hg
    rw [allocated, ids]
    exact h.registered id g hg
  unallocated := by
    intro g hg
    rw [allocated] at hg
    rw [members]
    exact ⟨(h.unallocated g hg).1, empty g hg⟩
  id_length := by
    intro g hg
    rw [allocated] at hg
    rw [ids]
    exact h.id_length g hg
  nodup := by
    intro g
    rw [members]
    exact h.nodup g
  pump := by
    intro c g hg
    rw [pumps] at hg
    rw [allocated]
    exact h.pump c g hg
  inGame := by
    intro c hc
    rw [gameIDs] at hc
    rw [gameIDs, pumps, games]
    obtain ⟨hreg, g, hpump, hid, hmem⟩ := h.inGame c hc
    exact ⟨hreg, g, hpump, by rw [ids, hid], by rw [members]; exact hmem⟩
  member := by
    intro c g hmem hreg
    rw [members] at hmem
    rw [ids, games] at hreg
    rw [gameIDs, pumps, ids]
    exact h.member c g hmem hreg
  outsider := by
    intro c hc
    obtain ⟨hnew, hout⟩ := outsider c hc
    exact ⟨hnew, fun g => by rw [members]; exact hout g⟩

theorem accepted
    (h : Inv s) {c : ClientPtr}
    (conn : s.conn c = .absent)
    (id : ClientID) :
    Inv (s.accepted c id) := by
  obtain ⟨hnew, hout⟩ := h.outsider c (Or.inl conn)
  have hclient : (s.accepted c id).client = s.client := by
    simp only [TCPServer.accepted]
    rw [← hnew, Function.update_eq_self]
  refine h.frame rfl rfl (fun _ => rfl) (fun _ => rfl)
    (fun g hg => (h.unallocated g hg).2) (fun d => by rw [hclient])
    (fun d => by rw [hclient]) ?_
  intro d hd
  rw [hclient]
  by_cases hdc : d = c
  · rw [hdc]
    exact ⟨hnew, hout⟩
  · refine h.outsider d ?_
    simpa [hdc] using hd

theorem authenticated
    (h : Inv s) (c : ClientPtr) (id : ClientID) :
    Inv (s.authenticated c id) := by
  refine h.frame rfl rfl (fun _ => rfl) (fun _ => rfl)
    (fun g hg => (h.unallocated g hg).2) ?_ ?_ ?_
  · intro d
    by_cases hdc : d = c <;> simp [hdc]
  · intro d
    by_cases hdc : d = c <;> simp [hdc]
  · intro d hd
    by_cases hdc : d = c
    · simp [hdc] at hd
    · have hd' := h.outsider d
        (by simpa [hdc] using hd)
      simpa [hdc] using hd'

theorem setRegistered
    (h : Inv s) (c : ClientPtr) (b : Bool) :
    Inv (s.setRegistered c b) :=
  h.frame rfl rfl (fun _ => rfl) (fun _ => rfl)
    (fun g hg => (h.unallocated g hg).2) (fun _ => rfl) (fun _ => rfl)
    h.outsider

theorem returned
    (h : Inv s) (c : ClientPtr) :
    Inv (s.setConn c .returned) := by
  refine h.frame rfl rfl (fun _ => rfl) (fun _ => rfl)
    (fun g hg => (h.unallocated g hg).2) (fun _ => rfl) (fun _ => rfl) ?_
  intro d hd
  by_cases hdc : d = c
  · simp [TCPServer.setConn, hdc] at hd
  · exact h.outsider d (by simpa [TCPServer.setConn, hdc] using hd)

/-- Steps that only change what is in the channel of a game. -/
theorem setGame
    (h : Inv s) {g : GamePtr} {game : Game}
    (members : game.clients = (s.game g).clients)
    (id : game.id = (s.game g).id)
    (allocated : g < s.allocated) :
    Inv (s.setGame g game) := by
  refine h.frame rfl rfl ?_ ?_ ?_ (fun _ => rfl) (fun _ => rfl) h.outsider
  · intro g'
    by_cases hg : g' = g
    · subst hg
      simpa using members
    · simp [hg]
  · intro g'
    by_cases hg : g' = g
    · subst hg
      simpa using id
    · simp [hg]
  · intro g' hg'
    have hg : g' ≠ g := fun heq => by
      subst heq
      exact absurd allocated (Nat.not_lt.mpr hg')
    simpa [hg] using (h.unallocated g' hg').2

/-- A client that is not signed in is not one that is served. -/
theorem ne_of_outsider
    {c d : ClientPtr}
    (conn : s.conn c = .serving)
    (outside : s.conn d = .absent ∨ ∃ id, s.conn d = .authenticating id) :
    d ≠ c := by
  rintro rfl
  rw [conn] at outside
  rcases outside with hd | ⟨id, hd⟩ <;> cases hd

theorem created
    (h : Inv s) {c : ClientPtr}
    (conn : s.conn c = .serving)
    (noGame : (s.client c).gameID = [])
    (n : GameDraw) :
    Inv (s.created c n) := by
  constructor
  case registered =>
    intro id g hg
    by_cases hid : id = generateGameId n
    · subst hid
      rw [created_games_new] at hg
      cases hg
      exact ⟨Nat.lt_succ_self _, by rw [created_game_new]; rfl⟩
    · rw [created_games_old s c n hid] at hg
      obtain ⟨hlt, hgid⟩ := h.registered id g hg
      refine ⟨Nat.lt_succ_of_lt hlt, ?_⟩
      rw [created_game_old s c n hlt.ne]
      exact hgid
  case unallocated =>
    intro g hg
    have hlt : s.allocated < g := hg
    rw [created_game_old s c n hlt.ne']
    exact h.unallocated g hlt.le
  case id_length =>
    intro g hg
    rcases Nat.lt_succ_iff_lt_or_eq.mp hg with hlt | rfl
    · rw [created_game_old s c n hlt.ne]
      exact h.id_length g hlt
    · rw [created_game_new]
      exact generateGameId_length n
  case nodup =>
    intro g
    by_cases hg : g = s.allocated
    · rw [hg, created_game_new]
      exact List.nodup_singleton c
    · rw [created_game_old s c n hg]
      exact h.nodup g
  case pump =>
    intro d g hd
    by_cases hdc : d = c
    · rw [hdc, created_client_self] at hd
      cases hd
      exact Nat.lt_succ_self _
    · rw [created_client_other s c n hdc] at hd
      exact Nat.lt_succ_of_lt (h.pump d g hd)
  case inGame =>
    intro d hd
    by_cases hdc : d = c
    · rw [hdc, created_client_self, created_games_new]
      refine ⟨by simp, s.allocated, rfl, ?_⟩
      rw [created_game_new]
      exact ⟨rfl, by simp [newGame]⟩
    · rw [created_client_other s c n hdc] at hd ⊢
      obtain ⟨hreg, g, hpump, hid, hmem⟩ := h.inGame d hd
      refine ⟨?_, g, hpump, ?_⟩
      · by_cases hdraw : (s.client d).gameID = generateGameId n
        · simp [hdraw]
        · rw [created_games_old s c n hdraw]
          exact hreg
      · rw [created_game_old s c n (h.pump d g hpump).ne]
        exact ⟨hid, hmem⟩
  case member =>
    intro d g hmem hreg
    by_cases hg : g = s.allocated
    · subst hg
      rw [created_game_new] at hmem ⊢
      have hdc : d = c := by simpa [newGame] using hmem
      rw [hdc, created_client_self]
      exact ⟨rfl, rfl⟩
    · rw [created_game_old s c n hg] at hmem hreg ⊢
      have hid : (s.game g).id ≠ generateGameId n := by
        intro heq
        rw [heq, created_games_new] at hreg
        exact hg (Option.some.inj hreg).symm
      rw [created_games_old s c n hid] at hreg
      have hdc : d ≠ c := by
        rintro rfl
        exact h.not_mem_of_noGame noGame hreg hmem
      rw [created_client_other s c n hdc]
      exact h.member d g hmem hreg
  case outsider =>
    intro d hd
    have hdc : d ≠ c := ne_of_outsider conn hd
    obtain ⟨hnew, hout⟩ := h.outsider d hd
    rw [created_client_other s c n hdc]
    refine ⟨hnew, fun g => ?_⟩
    by_cases hg : g = s.allocated
    · rw [hg, created_game_new]
      simpa [newGame] using hdc
    · rw [created_game_old s c n hg]
      exact hout g

theorem joined
    (h : Inv s) {c : ClientPtr} {id : GameID} {g : GamePtr}
    (conn : s.conn c = .serving)
    (noGame : (s.client c).gameID = [])
    (registered : s.games id = some g) :
    Inv (s.joined c g) := by
  obtain ⟨hlt, rfl⟩ := h.registered id g registered
  have hnot : c ∉ (s.game g).clients := h.not_mem_of_noGame noGame registered
  constructor
  case registered =>
    intro id' g' hg'
    rw [joined_game_id]
    exact h.registered id' g' hg'
  case unallocated =>
    intro g' hg'
    have hne : g' ≠ g := (hlt.trans_le hg').ne'
    rw [joined_game_other s c g hne]
    exact h.unallocated g' hg'
  case id_length =>
    intro g' hg'
    rw [joined_game_id]
    exact h.id_length g' hg'
  case nodup =>
    intro g'
    by_cases hg' : g' = g
    · rw [hg', joined_game_self]
      refine List.nodup_append.mpr
        ⟨h.nodup g, List.nodup_singleton c, fun a ha b hb => ?_⟩
      rw [List.mem_singleton.mp hb]
      exact fun heq => hnot (heq ▸ ha)
    · rw [joined_game_other s c g hg']
      exact h.nodup g'
  case pump =>
    intro d g' hd
    by_cases hdc : d = c
    · rw [hdc, joined_client_self] at hd
      cases hd
      exact hlt
    · rw [joined_client_other s c g hdc] at hd
      exact h.pump d g' hd
  case inGame =>
    intro d hd
    by_cases hdc : d = c
    · rw [hdc, joined_client_self]
      refine ⟨?_, g, rfl, joined_game_id s c g g, ?_⟩
      · exact Option.ne_none_iff_exists'.mpr ⟨g, registered⟩
      · exact (mem_joined s c g).mpr (Or.inr ⟨rfl, rfl⟩)
    · rw [joined_client_other s c g hdc] at hd ⊢
      obtain ⟨hreg, g', hpump, hid, hmem⟩ := h.inGame d hd
      refine ⟨hreg, g', hpump, ?_, (mem_joined s c g).mpr (Or.inl hmem)⟩
      rw [joined_game_id]
      exact hid
  case member =>
    intro d g' hmem hreg
    rw [joined_game_id] at hreg ⊢
    rcases (mem_joined s c g).mp hmem with hmem' | ⟨rfl, rfl⟩
    · have hdc : d ≠ c := by
        rintro rfl
        exact h.not_mem_of_noGame noGame hreg hmem'
      rw [joined_client_other s c g hdc]
      exact h.member d g' hmem' hreg
    · rw [joined_client_self]
      exact ⟨rfl, rfl⟩
  case outsider =>
    intro d hd
    have hdc : d ≠ c := ne_of_outsider conn hd
    obtain ⟨hnew, hout⟩ := h.outsider d hd
    rw [joined_client_other s c g hdc]
    refine ⟨hnew, fun g' hmem => ?_⟩
    rcases (mem_joined s c g).mp hmem with hmem | ⟨heq, -⟩
    · exact hout g' hmem
    · exact hdc heq

theorem left
    (h : Inv s) {c : ClientPtr} {g : GamePtr}
    (registered : s.games (s.client c).gameID = some g) :
    Inv (s.left c g) := by
  obtain ⟨hlt, hgid⟩ := h.registered _ g registered
  constructor
  case registered =>
    intro id' g' hg'
    rw [left_game_id]
    exact h.registered id' g' hg'
  case unallocated =>
    intro g' hg'
    have hne : g' ≠ g := (hlt.trans_le hg').ne'
    rw [left_game_other s c g hne]
    exact h.unallocated g' hg'
  case id_length =>
    intro g' hg'
    rw [left_game_id]
    exact h.id_length g' hg'
  case nodup =>
    intro g'
    by_cases hg' : g' = g
    · rw [hg', left_game_self]
      exact (h.nodup g).erase c
    · rw [left_game_other s c g hg']
      exact h.nodup g'
  case pump =>
    intro d g' hd
    rw [left_gamePump] at hd
    exact h.pump d g' hd
  case inGame =>
    intro d hd
    by_cases hdc : d = c
    · rw [hdc, left_client_self] at hd
      exact absurd rfl hd
    · rw [left_client_other s c g hdc] at hd ⊢
      obtain ⟨hreg, g', hpump, hid, hmem⟩ := h.inGame d hd
      refine ⟨hreg, g', hpump, ?_, ?_⟩
      · rw [left_game_id]
        exact hid
      · exact mem_left_of_ne s c g hmem hdc
  case member =>
    intro d g' hmem hreg
    rw [left_game_id] at hreg ⊢
    have hbefore := mem_of_left s c g hmem
    obtain ⟨hdid, hpump⟩ := h.member d g' hbefore hreg
    have hdc : d ≠ c := by
      rintro rfl
      -- the registered game with the client's id is the one it left
      have hreg' : s.games (s.game g').id = some g' := hreg
      rw [← hdid, registered] at hreg'
      cases hreg'
      exact s.not_mem_left d g (h.nodup g) hmem
    rw [left_client_other s c g hdc]
    exact ⟨hdid, hpump⟩
  case outsider =>
    intro d hd
    obtain ⟨hnew, hout⟩ := h.outsider d hd
    have hdc : d ≠ c := by
      rintro rfl
      rw [hnew] at hgid
      exact h.id_ne_nil hlt hgid
    rw [left_client_other s c g hdc]
    exact ⟨hnew, fun g' hmem => hout g' (mem_of_left s c g hmem)⟩

/-- A disconnect keeps the invariant, whichever way it ends. -/
theorem departed
    (h : Inv s) (c : ClientPtr) :
    Inv (GameManager.departed s c).server := by
  rcases GameManager.departed_cases s c with
    ⟨-, heq⟩ | ⟨-, -, heq⟩ | ⟨g, -, hg, heq⟩ <;> rw [heq]
  · exact h
  · exact h
  · exact h.left hg

theorem closed
    (h : Inv s) (c : ClientPtr) :
    Inv (s.closed c).server :=
  (h.setRegistered c false).departed c

theorem dispatched
    (h : Inv s) {c : ClientPtr} {p : Packet} {n : GameDraw}
    {s' : TCPServer} {out : List Write}
    (conn : s.conn c = .serving)
    (d : Dispatched s c p n s' out) :
    Inv s' := by
  cases d with
  | ignored => exact h
  | refused => exact h
  | healthy => exact h
  | created type noGame => exact h.created conn noGame n
  | joined type data_eq noGame length_eq registered =>
      exact h.joined conn noGame registered
  | started => exact h
  | sent type data_eq embedded own pump room =>
      exact h.setGame rfl rfl (h.pump c _ pump)
  | left type inGame registered => exact h.left registered
  | disconnected => exact h.closed c

/-- Every step of the server keeps the invariant. -/
theorem move
    {t : ServerTransition}
    (m : Move t)
    (h : Inv t.pre) :
    Inv t.post := by
  cases m with
  | accept s c n conn => exact h.accepted conn _
  | authenticate s c p n conn passes => exact h.authenticated c _
  | close s c closes => exact (h.closed c).returned c
  | dispatch s c p n conn d => exact h.dispatched conn d
  | receive s g idle front =>
      refine h.setGame rfl rfl ?_
      by_contra hge
      have hempty := (h.unallocated g (Nat.le_of_not_lt hge)).2.1
      rw [show (s.game g).ch = _ from front] at hempty
      cases hempty
  | broadCast s g holding writes =>
      refine h.setGame rfl rfl ?_
      by_contra hge
      have hempty := (h.unallocated g (Nat.le_of_not_lt hge)).2.2
      rw [show (s.game g).holding = _ from holding] at hempty
      cases hempty

theorem valid
    {t : ServerTransition}
    (valid : serverSystem.Valid t)
    (h : Inv t.pre) :
    Inv t.post :=
  Inv.move (move_of_valid valid) h

end Inv

/-- After a disconnect the client is in no game. -/
theorem GameManager.departed_gameID
    {s : TCPServer}
    (h : Inv s) (c : ClientPtr) :
    ((departed s c).server.client c).gameID = [] := by
  rcases departed_cases s c with
    ⟨hgame, heq⟩ | ⟨hgame, hnone, heq⟩ | ⟨g, -, -, heq⟩ <;> rw [heq]
  · exact hgame
  · exact absurd hnone (h.inGame c hgame).1
  · simp

/-- The invariant holds in every reachable state. -/
theorem inv_of_run
    {vf : ValidationFunc} {tr : List ServerTransition} {s : TCPServer}
    (run : ServerRun vf tr s) :
    Inv s :=
  run.invariant (inv_newTCPServer vf) (fun _ => Inv.valid)

/-- The invariant holds before every step of a run. -/
theorem inv_of_run_pre
    {vf : ValidationFunc} {tr : List ServerTransition} {s : TCPServer}
    (run : ServerRun vf tr s) :
    ∀ t ∈ tr, Inv t.pre :=
  run.invariant_pre (inv_newTCPServer vf) (fun _ => Inv.valid)

/-- Every recorded step of a run is one of the moves of the server. -/
theorem moves_of_run
    {vf : ValidationFunc} {tr : List ServerTransition} {s : TCPServer}
    (run : ServerRun vf tr s) :
    ∀ t ∈ tr, TCPServer.Move t :=
  fun t ht => TCPServer.move_of_valid (run.valid_of_mem t ht)

/-- Where an event makes the server draw a game id, it is not registered. -/
def DrawsFreshAt (s : TCPServer) : TCPServer.Event → Prop
  | .packet c p n =>
      s.conn c = .serving → p.getType = .ok packetCreateGame →
        (s.client c).gameID = [] → s.games (generateGameId n) = none
  | _ => True

instance (s : TCPServer) :
    (e : TCPServer.Event) → Decidable (DrawsFreshAt s e)
  | .packet _ _ _ => inferInstanceAs (Decidable (_ → _ → _ → _))
  | .accept _ _ => .isTrue trivial
  | .authTimeout _ => .isTrue trivial
  | .readError _ => .isTrue trivial
  | .quit _ => .isTrue trivial
  | .receive _ => .isTrue trivial
  | .broadCast _ => .isTrue trivial

/-- A step that draws no id that is registered already. -/
def DrawsFresh (t : ServerTransition) : Prop :=
  DrawsFreshAt t.pre t.event

instance : DecidablePred DrawsFresh := fun t =>
  inferInstanceAs (Decidable (DrawsFreshAt t.pre t.event))

/-- Every game is registered. -/
def AllRegistered (s : TCPServer) : Prop :=
  ∀ g, g < s.allocated → s.games (s.game g).id = some g

namespace AllRegistered

open TCPServer

variable {s : TCPServer}

/-- Steps that leave the registry and the ids of the games alone. -/
theorem frame
    (h : AllRegistered s) {s' : TCPServer}
    (games : s'.games = s.games)
    (allocated : s'.allocated = s.allocated)
    (ids : ∀ g, (s'.game g).id = (s.game g).id) :
    AllRegistered s' := by
  intro g hg
  rw [allocated] at hg
  rw [games, ids]
  exact h g hg

theorem setGame
    (h : AllRegistered s) {g : GamePtr} {game : Game}
    (id : game.id = (s.game g).id) :
    AllRegistered (s.setGame g game) := by
  refine h.frame rfl rfl (fun g' => ?_)
  by_cases hg : g' = g
  · subst hg
    simpa using id
  · simp [hg]

theorem created
    (h : AllRegistered s) {n : GameDraw}
    (fresh : s.games (generateGameId n) = none)
    (c : ClientPtr) :
    AllRegistered (s.created c n) := by
  intro g hg
  rcases Nat.lt_succ_iff_lt_or_eq.mp hg with hlt | rfl
  · have hold := h g hlt
    have hid : (s.game g).id ≠ generateGameId n := by
      intro heq
      rw [heq, fresh] at hold
      cases hold
    simpa [hlt.ne, hid] using hold
  · simp [newGame]

theorem joined
    (h : AllRegistered s) (c : ClientPtr) (g : GamePtr) :
    AllRegistered (s.joined c g) :=
  h.frame rfl rfl (joined_game_id s c g)

theorem left
    (h : AllRegistered s) (c : ClientPtr) (g : GamePtr) :
    AllRegistered (s.left c g) :=
  h.frame rfl rfl (left_game_id s c g)

theorem departed
    (h : AllRegistered s) (c : ClientPtr) :
    AllRegistered (GameManager.departed s c).server := by
  rcases GameManager.departed_cases s c with
    ⟨-, heq⟩ | ⟨-, -, heq⟩ | ⟨g, -, -, heq⟩ <;> rw [heq]
  · exact h
  · exact h
  · exact h.left c g

theorem closed
    (h : AllRegistered s) (c : ClientPtr) :
    AllRegistered (s.closed c).server := by
  have hset : AllRegistered (s.setRegistered c false) := h
  exact hset.departed c

/-- Every step that draws a fresh id, if any, keeps all games registered. -/
theorem move
    {t : ServerTransition}
    (m : Move t)
    (fresh : DrawsFresh t)
    (h : AllRegistered t.pre) :
    AllRegistered t.post := by
  cases m with
  | accept s c n conn => exact h
  | authenticate s c p n conn passes => exact h
  | close s c closes => exact h.closed c
  | dispatch s c p n conn d =>
      cases d with
      | ignored => exact h
      | refused => exact h
      | healthy => exact h
      | created type noGame => exact h.created (fresh conn type noGame) c
      | joined => exact h.joined c _
      | started => exact h
      | sent => exact h.setGame rfl
      | left => exact h.left c _
      | disconnected => exact h.closed c
  | receive s g idle front => exact h.setGame rfl
  | broadCast s g holding writes => exact h.setGame rfl

end AllRegistered

/-- When no id is drawn twice, every game stays registered. -/
theorem allRegistered_of_run
    {vf : ValidationFunc} {tr : List ServerTransition} {s : TCPServer}
    (run : ServerRun vf tr s)
    (fresh : ∀ t ∈ tr, DrawsFresh t) :
    AllRegistered s :=
  run.invariant_where (fun _ hg => absurd hg (Nat.not_lt_zero _))
    (fun _ valid ht h =>
      AllRegistered.move (TCPServer.move_of_valid valid) ht h) fresh

/-- Under the same condition this also holds before every step. -/
theorem allRegistered_of_run_pre
    {vf : ValidationFunc} {tr : List ServerTransition} {s : TCPServer}
    (run : ServerRun vf tr s)
    (fresh : ∀ t ∈ tr, DrawsFresh t) :
    ∀ t ∈ tr, AllRegistered t.pre := by
  intro t ht
  obtain ⟨first, rest, rfl⟩ := List.append_of_mem ht
  exact allRegistered_of_run run.before.1
    (fun t' ht' => fresh t' (List.mem_append_left _ ht'))

end ServerInvariant

end Server
end TurnBasedGame
