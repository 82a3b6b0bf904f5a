import TurnBasedGame.Server.AfterDisconnect

/-!
# Tearing a connection down twice

A client that disconnects is disconnected again when `handleConnection`
returns.  Between the two calls the other clients and the games go on; none of
their steps brings the client back into the table, into a game or into a
member list, so that the second call has nothing left to do.
-/

namespace TurnBasedGame
namespace Server

open Kernel

section Teardown

open TCPServer

/-- What `t.disconnect` does is done for the client. -/
structure TornDown (c : ClientPtr) (s : TCPServer) : Prop where
  noGame : (s.client c).gameID = []
  unregistered : s.clients c = false

variable {s : TCPServer} {c : ClientPtr}

/-- `t.disconnect` tears its client down, whatever state it is in. -/
theorem tornDown_closed
    (hinv : Inv s) (c : ClientPtr) :
    TornDown c (s.closed c).server where
  noGame := GameManager.departed_gameID (hinv.setRegistered c false) c
  unregistered := by simp [closed_registered]

/-- Steps of the other clients and of the games leave a client torn down. -/
theorem TornDown.move
    {t : ServerTransition}
    (m : Move t)
    (other : handlerOf t.event ≠ some c)
    (h : TornDown c t.pre) :
    TornDown c t.post := by
  have huntouched := m.untouched other
  constructor
  · rw [huntouched.client]
    exact h.noGame
  · rw [huntouched.registered]
    exact h.unregistered

/-- So do whole runs of them. -/
theorem TornDown.run
    {s' : TCPServer} {tr : List ServerTransition}
    (run : serverSystem.Run s tr s')
    (others : ∀ t ∈ tr, handlerOf t.event ≠ some c)
    (h : TornDown c s) :
    TornDown c s' :=
  run.invariant_where (I := TornDown c)
    (C := fun t => handlerOf t.event ≠ some c) h
    (fun _ valid other hpre => hpre.move (move_of_valid valid) other) others

/-- For a client that is torn down, `t.disconnect` does nothing. -/
theorem TornDown.closed
    (h : TornDown c s) :
    s.closed c = ⟨s, [], some .clientNotInGame⟩ := by
  have hset : s.setRegistered c false = s := by
    have hupdate : Function.update s.clients c false = s.clients := by
      rw [← h.unregistered, Function.update_eq_self]
    simp only [setRegistered, hupdate]
  rw [TCPServer.closed, hset, GameManager.departed, if_pos h.noGame]

/--
Teardown is idempotent.  In every reachable state and for every client,
`t.disconnect` returns, and after any run of the other clients and of the
games it changes nothing and writes nothing when it is called once more; the
`handleConnection` that returns then only ends.
-/
theorem teardown_idempotent
    {vf : ValidationFunc} {tr : List ServerTransition}
    (run : ServerRun vf tr s) (c : ClientPtr) :
    ∃ e, disconnect s c = .ok e ∧
      ∀ tr' s', serverSystem.Run e.server tr' s' →
        (∀ t ∈ tr', handlerOf t.event ≠ some c) →
          disconnect s' c = .ok ⟨s', [], none⟩ ∧
          returnConnection s' c = .next (s'.setConn c .returned) [] := by
  refine ⟨_, disconnect_eq s c, fun tr' s' hrun hothers => ?_⟩
  have hdown : TornDown c s' :=
    (tornDown_closed (inv_of_run run) c).run hrun hothers
  have hsecond : disconnect s' c = .ok ⟨s', [], none⟩ := by
    rw [disconnect_eq, hdown.closed]
  exact ⟨hsecond, by simp only [returnConnection, hsecond]⟩

/-- Two clients in a game, of which the second disconnects. -/
def secondDisconnects : List Event :=
  signIn 0 0 ++ signIn 1 1 ++
    [.packet 0 (constructPacket encString packetCreateGame []) 7,
      .packet 1 (constructPacket encString packetJoinGame
        (generateGameId 7)) 0]

/-- Then a third one connects, joins the game and sees the first one leave. -/
def othersGoOn : List Event :=
  signIn 2 2 ++
    [.packet 2 (constructPacket encString packetJoinGame
        (generateGameId 7)) 0,
      .packet 0 (constructPacket encString packetLeaveGame []) 0]

/-- The second connection returns without a further effect. -/
theorem teardown_idempotent_join :
    ∃ tr s e tr' s', ServerRun nopValidationFunc tr s ∧
      tr.map Transition.event = secondDisconnects ∧
      disconnect s 1 = .ok e ∧ serverSystem.Run e.server tr' s' ∧
      tr'.map Transition.event = othersGoOn ∧
      (s'.game 0).clients = [2] ∧ disconnect s' 1 = .ok ⟨s', [], none⟩ := by
  have hexec : (serverSystem.exec (newTCPServer nopValidationFunc)
      secondDisconnects).bind (fun r =>
        (serverSystem.exec (r.2.closed 1).server othersGoOn).map
          (fun q => (q.1.all (fun t => handlerOf t.event ≠ some 1),
            (q.2.game 0).clients))) = some (true, [2]) := by
    decide +kernel
  obtain ⟨r, hfirst, hrest⟩ := Option.bind_eq_some_iff.mp hexec
  obtain ⟨hrun, hevents⟩ := serverSystem.exec_run _ _ hfirst
  obtain ⟨tr', s', hrun', hevents', hend⟩ := System.run_of_exec hrest
  simp only [Prod.mk.injEq, List.all_eq_true, decide_eq_true_eq] at hend
  obtain ⟨hothers, hclients⟩ := hend
  obtain ⟨e, he, hafter⟩ := teardown_idempotent hrun 1
  have hserver : e.server = (r.2.closed 1).server := by
    rw [disconnect_eq] at he
    cases he
    rfl
  rw [← hserver] at hrun'
  exact ⟨r.1, r.2, e, tr', s', hrun, hevents, he, hrun', hevents', hclients,
    (hafter tr' s' hrun' hothers).1⟩

end Teardown

end Server
end TurnBasedGame
