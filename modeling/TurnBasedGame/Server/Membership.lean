import TurnBasedGame.Server.ServerInvariant

/-!
# Membership

A client is listed in a registered game exactly when it carries the id of the
game, and then once.  The statement is about runs in which no game id is drawn
while it is registered; then no game is ever lost from the registry, and
leaving a game removes the client from every list it is in.
-/

namespace TurnBasedGame
namespace Server

open Kernel

section Membership

open TCPServer

/-- A client whose connection has been handled to the end is in no game. -/
def ReturnedOut (s : TCPServer) : Prop :=
  ∀ c, s.conn c = .returned → (s.client c).gameID = []

/-- A client is removed by its step: it had a game id and now has none. -/
def Leaves (c : ClientPtr) (t : ServerTransition) : Prop :=
  (t.pre.client c).gameID ≠ [] ∧ (t.post.client c).gameID = []

namespace GameManager

/--
Where every game is registered, a disconnect deletes the client from all
member lists and keeps the order of the others.
-/
theorem departed_clients
    {s : TCPServer}
    (h : Inv s) (hall : AllRegistered s)
    (c : ClientPtr) (g : GamePtr) :
    ((departed s c).server.game g).clients =
      (s.game g).clients.filter (· != c) := by
  have hkeep : c ∉ (s.game g).clients →
      (s.game g).clients = (s.game g).clients.filter (· != c) := by
    intro hnot
    refine (List.filter_eq_self.mpr fun d hd => ?_).symm
    simpa using fun hdc : d = c => hnot (hdc ▸ hd)
  have hreg : c ∈ (s.game g).clients → s.games (s.game g).id = some g :=
    fun hmem => hall g (h.allocated_of_member hmem)
  rcases departed_cases s c with
    ⟨hgame, heq⟩ | ⟨hgame, hnone, -⟩ | ⟨g', -, hg', heq⟩
  · rw [heq]
    exact hkeep fun hmem => h.not_mem_of_noGame hgame (hreg hmem) hmem
  · exact absurd hnone (h.inGame c hgame).1
  · rw [heq]
    by_cases hg : g = g'
    · subst hg
      simpa using (h.nodup g).erase_eq_filter c
    · have hnot : c ∉ (s.game g).clients := by
        intro hmem
        have hid := (h.member c g hmem (hreg hmem)).1
        rw [hid, hreg hmem] at hg'
        exact hg (Option.some.inj hg')
      simpa [hg] using hkeep hnot

end GameManager

/-- The disconnect of the server acts on games as that of the manager. -/
theorem closed_clients
    {s : TCPServer}
    (h : Inv s) (hall : AllRegistered s)
    (c : ClientPtr) (g : GamePtr) :
    ((s.closed c).server.game g).clients =
      (s.game g).clients.filter (· != c) :=
  GameManager.departed_clients (h.setRegistered c false)
    (hall.frame rfl rfl (fun _ => rfl)) c g

theorem ReturnedOut.valid
    {t : ServerTransition}
    (valid : serverSystem.Valid t)
    (h : Inv t.pre ∧ ReturnedOut t.pre) :
    Inv t.post ∧ ReturnedOut t.post := by
  obtain ⟨hinv, hret⟩ := h
  refine ⟨hinv.valid valid, fun d hd => ?_⟩
  have hmove := move_of_valid valid
  by_cases hown : handlerOf t.event = some d
  swap
  · have hsame := hmove.untouched hown
    rw [hsame.conn] at hd
    rw [hsame.client]
    exact hret d hd
  cases hmove with
  | accept s c n conn =>
      cases hown
      simp at hd
  | authenticate s c p n conn passes =>
      cases hown
      simp at hd
  | close s c closes =>
      obtain rfl : c = d :=
        Option.some.inj ((handlerOf_of_closes closes).symm.trans hown)
      exact GameManager.departed_gameID (hinv.setRegistered c false) c
  | dispatch s c p n conn d' =>
      cases hown
      have hserving : _ = ConnState.serving :=
        (congrFun d'.conn d).trans conn
      rw [hserving] at hd
      cases hd
  | receive => cases hown
  | broadCast => cases hown

/-- In every reachable state the handled connections are in no game. -/
theorem returnedOut_of_run
    {vf : ValidationFunc} {tr : List ServerTransition} {s : TCPServer}
    (run : ServerRun vf tr s) :
    ReturnedOut s :=
  (run.invariant (I := fun s => Inv s ∧ ReturnedOut s)
    ⟨inv_newTCPServer vf, fun _ h => by cases h⟩
    (fun _ => ReturnedOut.valid)).2

/-- The step in which a client leaves deletes it from all member lists. -/
theorem Leaves.clients
    {c : ClientPtr} {t : ServerTransition}
    (leaves : Leaves c t)
    (m : Move t)
    (hinv : Inv t.pre) (hall : AllRegistered t.pre)
    (g : GamePtr) :
    (t.post.game g).clients = (t.pre.game g).clients.filter (· != c) := by
  obtain ⟨hbefore, hafter⟩ := leaves
  have hown : handlerOf t.event = some c := by
    by_contra hother
    rw [(m.untouched hother).client] at hafter
    exact hbefore hafter
  cases m with
  | accept s d n conn =>
      cases hown
      rw [show s.client c = newClient from
        (hinv.outsider c (Or.inl conn)).1] at hbefore
      exact absurd rfl hbefore
  | @authenticate s d p n id conn passes =>
      cases hown
      simp only [authenticated_client_self] at hafter
      exact absurd hafter hbefore
  | close s d closes =>
      obtain rfl : d = c :=
        Option.some.inj ((handlerOf_of_closes closes).symm.trans hown)
      exact closed_clients hinv hall d g
  | dispatch s d p n conn d' =>
      cases hown
      cases d' with
      | ignored => exact absurd hafter hbefore
      | refused => exact absurd hafter hbefore
      | healthy => exact absurd hafter hbefore
      | created type noGame => exact absurd noGame hbefore
      | joined type data_eq noGame => exact absurd noGame hbefore
      | started => exact absurd hafter hbefore
      | sent => exact absurd hafter hbefore
      | left type inGame registered =>
          have hdeparted := GameManager.departed_clients hinv hall c g
          simpa [GameManager.departed, inGame, registered] using hdeparted
      | disconnected => exact closed_clients hinv hall c g
  | receive => cases hown
  | broadCast => cases hown

/-- How often a client is listed in a registered game. -/
theorem count_clients
    {s : TCPServer}
    (hinv : Inv s) (hall : AllRegistered s)
    {id : GameID} {g : GamePtr}
    (registered : s.games id = some g)
    (c : ClientPtr) :
    (s.game g).clients.count c =
      if (s.client c).gameID = (s.game g).id then 1 else 0 := by
  obtain ⟨hlt, rfl⟩ := hinv.registered id g registered
  split_ifs with hid
  · have hin : (s.client c).gameID ≠ [] := hid ▸ hinv.id_ne_nil hlt
    obtain ⟨-, g', hpump, hid', hmem⟩ := hinv.inGame c hin
    have hg' := hall g' (hinv.pump c g' hpump)
    rw [hid', hid, registered] at hg'
    cases hg'
    exact List.count_eq_one_of_mem (hinv.nodup g) hmem
  · exact List.count_eq_zero.mpr fun hmem =>
      hid (hinv.member c g hmem registered).1

/-- A client that is handled to the end is in no list of any game. -/
theorem not_mem_of_returned
    {s : TCPServer}
    (hinv : Inv s) (hall : AllRegistered s) (hret : ReturnedOut s)
    {c : ClientPtr}
    (returned : s.conn c = .returned)
    (g : GamePtr) :
    c ∉ (s.game g).clients := fun hmem =>
  hinv.not_mem_of_noGame (hret c returned)
    (hall g (hinv.allocated_of_member hmem)) hmem

/--
The membership invariant.  In every run in which no game id is drawn while it
is registered: a client is listed once in the registered game whose id it
carries and in no other registered game; a game id carried by a client is
registered; a client is in no game once its connection was handled to the end;
and whenever a client leaves, the other members stay in their order.
-/
theorem membership
    {vf : ValidationFunc} {tr : List ServerTransition} {s : TCPServer}
    (run : ServerRun vf tr s)
    (fresh : ∀ t ∈ tr, DrawsFresh t) :
    (∀ c id g, s.games id = some g → (s.game g).id = id ∧
      (s.game g).clients.count c =
        if (s.client c).gameID = (s.game g).id then 1 else 0) ∧
    (∀ c, (s.client c).gameID ≠ [] →
      ∃ g, s.games (s.client c).gameID = some g) ∧
    (∀ c, s.conn c = .returned → ∀ g, c ∉ (s.game g).clients) ∧
    (∀ t ∈ tr, ∀ c, Leaves c t → ∀ g,
      (t.post.game g).clients = (t.pre.game g).clients.filter (· != c)) := by
  have hinv := inv_of_run run
  have hall := allRegistered_of_run run fresh
  refine ⟨?_, ?_, ?_, ?_⟩
  · intro c id g hg
    exact ⟨(hinv.registered id g hg).2, count_clients hinv hall hg c⟩
  · intro c hc
    exact Option.ne_none_iff_exists'.mp (hinv.inGame c hc).1
  · intro c hc
    exact not_mem_of_returned hinv hall (returnedOut_of_run run) hc
  · intro t ht c hleaves
    exact hleaves.clients (moves_of_run run t ht) (inv_of_run_pre run t ht)
      (allRegistered_of_run_pre run fresh t ht)

/-- Three clients in one game, of which the second leaves again. -/
def leaveEvents : List Event :=
  signIn 0 0 ++ signIn 1 1 ++ signIn 2 2 ++
    [.packet 0 (constructPacket encString packetCreateGame []) 7,
      .packet 1 (constructPacket encString packetJoinGame
        (generateGameId 7)) 0,
      .packet 2 (constructPacket encString packetJoinGame
        (generateGameId 7)) 0,
      .packet 1 (constructPacket encString packetLeaveGame []) 0]

/-- The two that stay are each listed once. -/
theorem membership_leave :
    ∃ tr s, ServerRun nopValidationFunc tr s ∧
      tr.map Transition.event = leaveEvents ∧
      s.games (generateGameId 7) = some 0 ∧
      (s.game 0).clients = [0, 2] ∧
      ∀ c, (s.game 0).clients.count c =
        if (s.client c).gameID = (s.game 0).id then 1 else 0 := by
  have hexec : (serverSystem.exec (newTCPServer nopValidationFunc)
      leaveEvents).map (fun r => (r.2.games (generateGameId 7),
        (r.2.game 0).clients, r.1.all (fun t => decide (DrawsFresh t)))) =
      some (some 0, [0, 2], true) := by
    decide +kernel
  obtain ⟨tr, s, hrun, hevents, hend⟩ := System.run_of_exec hexec
  simp only [Prod.mk.injEq, List.all_eq_true, decide_eq_true_eq] at hend
  obtain ⟨hgame, hclients, hfresh⟩ := hend
  obtain ⟨hcount, -⟩ := membership hrun hfresh
  exact ⟨tr, s, hrun, hevents, hgame, hclients,
    fun c => (hcount c _ 0 hgame).2⟩

end Membership

end Server
end TurnBasedGame
