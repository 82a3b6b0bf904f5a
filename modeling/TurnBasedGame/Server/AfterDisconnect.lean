import TurnBasedGame.Server.Authentication

/-!
# After a disconnect

`disconnectHandler` removes its client from the table of clients and from its
game and closes the connection, but it returns to the loop of
`handleConnection`, which ends only when it finds an error in `errch` or
`quitch` closed.  What the framer has put into `C` until then is served as
before: a client can create a game after it has disconnected.

The module states that nothing is served after a disconnect, and proves it for
exactly the sequences of packets in which no packet with a handler follows a
disconnect packet.
-/

namespace TurnBasedGame
namespace Server

open Kernel

section AfterDisconnect

open TCPServer

/-- A packet with a type for which a handler is registered. -/
def Handled (p : Packet) : Prop :=
  ∃ t handler, p.getType = .ok t ∧ handlers t = some handler

/-- The packet that the loop of `handleConnection` takes from `C`. -/
def loopPacket (c : ClientPtr) (s : TCPServer) : Event → Option Packet
  | .packet d p _ => if d = c ∧ s.conn c = .serving then some p else none
  | _ => none

/-- The packets the loop has taken from `C` in a run. -/
def loopPackets (c : ClientPtr) (tr : List ServerTransition) : List Packet :=
  tr.filterMap (fun t => loopPacket c t.pre t.event)

/-- A step that runs `disconnectHandler` for the client. -/
def Disconnects (c : ClientPtr) (t : ServerTransition) : Prop :=
  ∃ p, loopPacket c t.pre t.event = some p ∧
    p.getType = .ok packetDisconnect

/-- No packet with a handler follows a disconnect packet. -/
def QuietAfterDisconnect (ps : List Packet) : Prop :=
  ps.Pairwise (fun p q => p.getType = .ok packetDisconnect → ¬ Handled q)

/-- A step that serves nothing to the client and leaves it outside. -/
structure StaysOut (c : ClientPtr) (t : ServerTransition) : Prop where
  unserved : ¬ RunsHandler t.pre c t.event
  inert : ∀ p n, t.event = .packet c p n → t.post = t.pre ∧ t.out = []
  noGame : (t.post.client c).gameID = []
  unregistered : t.post.clients c = false
  unlisted : ∀ g, c ∈ (t.post.game g).clients → c ∈ (t.pre.game g).clients

/--
After a disconnect, every step of the run leaves the client outside, and the
event that is tried at its end calls no handler for the client.
-/
def NothingServed (c : ClientPtr) (tr : List ServerTransition)
    (s : TCPServer) (e : Event) : Prop :=
  ∀ first d rest, tr = first ++ d :: rest → Disconnects c d →
    (∀ t ∈ rest, StaysOut c t) ∧ ¬ RunsHandler s c e

/-- A client whose connection was closed, still served or not. -/
structure Outside (c : ClientPtr) (s : TCPServer) : Prop where
  conn : s.conn c = .serving ∨ s.conn c = .returned
  noGame : (s.client c).gameID = []
  unregistered : s.clients c = false

/-- A handler is called exactly for the packets that have one. -/
theorem runsHandler_iff
    {s : TCPServer} {c : ClientPtr} {e : Event} :
    RunsHandler s c e ↔ ∃ p, loopPacket c s e = some p ∧ Handled p := by
  cases e with
  | packet d p n =>
      constructor
      · rintro ⟨rfl, hconn, hhandled⟩
        exact ⟨p, by simp [loopPacket, hconn], hhandled⟩
      · rintro ⟨q, hq, hhandled⟩
        simp only [loopPacket] at hq
        split_ifs at hq with hloop
        cases hq
        exact ⟨hloop.1, hloop.2, hhandled⟩
  | _ => simp [RunsHandler, loopPacket]

/-- `t.disconnect` leaves its client outside. -/
theorem outside_closed
    {s : TCPServer}
    (hinv : Inv s)
    {c : ClientPtr}
    (conn : s.conn c = .serving) :
    Outside c (s.closed c).server where
  conn := Or.inl (by rw [closed, GameManager.departed_conn]; exact conn)
  noGame := GameManager.departed_gameID (hinv.setRegistered c false) c
  unregistered := by simp [closed_registered]

/-- Serving a disconnect packet is `t.disconnect`. -/
theorem dispatch_disconnect
    {p : Packet}
    (type : p.getType = .ok packetDisconnect)
    (s : TCPServer) (c : ClientPtr) (n : GameDraw) :
    dispatch s c p n = .next (s.closed c).server (s.closed c).writes := by
  have hhandler : handlers packetDisconnect = some disconnectHandler := rfl
  simp only [dispatch, type, hhandler, disconnectHandler,
    TCPServer.disconnect_eq, replies, bind, Except.bind, pure, Except.pure]

/-- After `disconnectHandler` has run, the client is outside. -/
theorem outside_of_disconnects
    {c : ClientPtr} {t : ServerTransition}
    (valid : serverSystem.Valid t)
    (hinv : Inv t.pre)
    (disconnects : Disconnects c t) :
    Outside c t.post := by
  obtain ⟨p, hp, type⟩ := disconnects
  obtain ⟨s, event, out, s'⟩ := t
  cases event with
  | packet d q n =>
      simp only [loopPacket] at hp
      split_ifs at hp with hloop
      obtain ⟨rfl, conn⟩ := hloop
      cases hp
      have hstep : step s (.packet d p n) = .next s' out := valid
      simp only [step, conn, dispatch_disconnect type,
        Outcome.next.injEq] at hstep
      rw [← hstep.1]
      exact outside_closed hinv conn
  | _ => cases hp

/-- Steps that do not touch the client leave it outside. -/
theorem Outside.untouched
    {c : ClientPtr} {s s' : TCPServer}
    (h : Outside c s)
    (same : Untouched c s s') :
    Outside c s' where
  conn := by
    rw [same.conn]
    exact h.conn
  noGame := by
    rw [same.client]
    exact h.noGame
  unregistered := by
    rw [same.registered]
    exact h.unregistered

/-- A packet that has no handler changes nothing. -/
theorem Dispatched.eq_of_not_handled
    {s s' : TCPServer} {c : ClientPtr} {p : Packet} {n : GameDraw}
    {out : List Write}
    (d : Dispatched s c p n s' out)
    (h : ¬ Handled p) :
    s' = s ∧ out = [] := by
  cases d with
  | ignored => exact ⟨rfl, rfl⟩
  | refused refuses =>
      refine absurd ?_ h
      cases refuses with
      | create type => exact ⟨_, _, type, rfl⟩
      | joinInGame type => exact ⟨_, _, type, rfl⟩
      | joinUnknown type => exact ⟨_, _, type, rfl⟩
      | start type => exact ⟨_, _, type, rfl⟩
      | state type => exact ⟨_, _, type, rfl⟩
      | leaveNoGame type => exact ⟨_, _, type, rfl⟩
      | leaveUnregistered type => exact ⟨_, _, type, rfl⟩
  | healthy type => exact absurd ⟨_, _, type, rfl⟩ h
  | created type => exact absurd ⟨_, _, type, rfl⟩ h
  | joined type => exact absurd ⟨_, _, type, rfl⟩ h
  | started type => exact absurd ⟨_, _, type, rfl⟩ h
  | sent type => exact absurd ⟨_, _, type, rfl⟩ h
  | left type => exact absurd ⟨_, _, type, rfl⟩ h
  | disconnected type => exact absurd ⟨_, _, type, rfl⟩ h

/-- A connection that is neither served nor returned is not outside. -/
theorem Outside.ne
    {c d : ClientPtr} {s : TCPServer}
    (h : Outside c s)
    (conn : s.conn d = .absent ∨ ∃ id, s.conn d = .authenticating id) :
    c ≠ d := by
  rintro rfl
  rcases h.conn with hc | hc <;> rw [hc] at conn <;> simp at conn

/-- Where no handler is called for a client that is outside, it stays out. -/
theorem Outside.move
    {c : ClientPtr} {t : ServerTransition}
    (m : Move t)
    (hinv : Inv t.pre)
    (h : Outside c t.pre)
    (quiet : ¬ RunsHandler t.pre c t.event) :
    Outside c t.post ∧ StaysOut c t := by
  have hstays : Outside c t.post →
      (∀ p n, t.event = .packet c p n → t.post = t.pre ∧ t.out = []) →
      (∀ g, c ∈ (t.post.game g).clients → c ∈ (t.pre.game g).clients) →
        Outside c t.post ∧ StaysOut c t :=
    fun hpost hinert hlists =>
      ⟨hpost, quiet, hinert, hpost.noGame, hpost.unregistered, hlists⟩
  by_cases hown : handlerOf t.event = some c
  swap
  · have hsame := m.untouched hown
    refine hstays (h.untouched hsame) (fun p n hevent => ?_) hsame.members
    rw [hevent] at hown
    exact absurd rfl hown
  cases m with
  | accept s d n conn =>
      cases hown
      exact absurd rfl (h.ne (Or.inl conn))
  | @authenticate s d p n id conn passes =>
      cases hown
      exact absurd rfl (h.ne (Or.inr ⟨id, conn⟩))
  | @close s d e closes =>
      obtain rfl : d = c :=
        Option.some.inj ((handlerOf_of_closes closes).symm.trans hown)
      have hout : Outside d ((s.closed d).server.setConn d .returned) :=
        ⟨Or.inr (by simp [TCPServer.setConn]),
          GameManager.departed_gameID (hinv.setRegistered d false) d,
          by simp [TCPServer.setConn, closed_registered]⟩
      refine hstays hout (fun p n' he => ?_) (fun g hmem =>
        GameManager.mem_of_departed (s := s.setRegistered d false) hmem)
      cases closes with
      | badPacket n conn =>
          have hne := h.ne (Or.inr ⟨_, conn⟩)
          exact absurd rfl hne
      | timeout => cases he
      | readError => cases he
      | quit => cases he
  | dispatch s d p n conn d' =>
      cases hown
      have hhandled : ¬ Handled p := fun hp => quiet ⟨rfl, conn, hp⟩
      obtain ⟨rfl, rfl⟩ := Dispatched.eq_of_not_handled d' hhandled
      exact hstays h (fun _ _ _ => ⟨rfl, rfl⟩) (fun _ hmem => hmem)
  | receive => cases hown
  | broadCast => cases hown

variable {vf : ValidationFunc} {tr : List ServerTransition} {s : TCPServer}

/-- A client that is outside and served nothing stays out in a whole run. -/
theorem staysOut_of_run
    {s₀ : TCPServer} {c : ClientPtr}
    (run : serverSystem.Run s₀ tr s)
    (hinv : Inv s₀)
    (h : Outside c s₀)
    (quiet : ∀ t ∈ tr, ¬ RunsHandler t.pre c t.event) :
    ∀ t ∈ tr, StaysOut c t := by
  intro t ht
  obtain ⟨first, rest, rfl⟩ := List.append_of_mem ht
  obtain ⟨hfirst, hvalid, -⟩ := run.before
  have hpre : Inv t.pre ∧ Outside c t.pre :=
    hfirst.invariant_where (I := fun s => Inv s ∧ Outside c s)
      (C := fun t => ¬ RunsHandler t.pre c t.event) ⟨hinv, h⟩
      (fun t valid hquiet hpre =>
        ⟨hpre.1.valid valid,
          (hpre.2.move (move_of_valid valid) hpre.1 hquiet).1⟩)
      (fun t' ht' => quiet t' (List.mem_append_left _ ht'))
  exact (hpre.2.move (move_of_valid hvalid) hpre.1 (quiet t ht)).2

/-- A condition on what follows an element is a condition on all pairs. -/
theorem pairwise_of_append_cons
    {α : Type*} {R : α → α → Prop} {l : List α}
    (h : ∀ first a rest, l = first ++ a :: rest → ∀ b ∈ rest, R a b) :
    l.Pairwise R := by
  induction l with
  | nil => exact .nil
  | cons a rest ih =>
      refine .cons (h [] a rest rfl) (ih fun first b rest' hrest => ?_)
      exact h (a :: first) b rest' (by rw [hrest]; rfl)

/-- Where nothing is served, no packet with a handler has come. -/
theorem quiet_of_nothingServed
    {c : ClientPtr} {e : Event}
    (hserved : NothingServed c tr s e) :
    QuietAfterDisconnect
      (loopPackets c tr ++ (loopPacket c s e).toList) := by
  rw [QuietAfterDisconnect, List.pairwise_append, loopPackets,
    List.pairwise_filterMap]
  refine ⟨?_, ?_, ?_⟩
  · apply pairwise_of_append_cons
    intro first d rest hsplit t ht p hp q hq type hhandled
    obtain ⟨hstays, -⟩ := hserved first d rest hsplit ⟨p, hp, type⟩
    exact (hstays t ht).unserved (runsHandler_iff.mpr ⟨q, hq, hhandled⟩)
  · cases loopPacket c s e <;> simp
  · intro p hp q hq type hhandled
    obtain ⟨d, hd, hp⟩ := List.mem_filterMap.mp hp
    obtain ⟨first, rest, hsplit⟩ := List.append_of_mem hd
    obtain ⟨-, hlast⟩ := hserved first d rest hsplit ⟨p, hp, type⟩
    exact hlast (runsHandler_iff.mpr
      ⟨q, Option.mem_toList.mp hq, hhandled⟩)

/-- Where no packet with a handler comes, nothing is served. -/
theorem nothingServed_of_quiet
    (run : ServerRun vf tr s)
    {c : ClientPtr} {e : Event}
    (quiet : QuietAfterDisconnect
      (loopPackets c tr ++ (loopPacket c s e).toList)) :
    NothingServed c tr s e := by
  rw [QuietAfterDisconnect, List.pairwise_append, loopPackets,
    List.pairwise_filterMap] at quiet
  obtain ⟨hpairs, -, hlast⟩ := quiet
  rintro first d rest rfl ⟨p, hp, type⟩
  obtain ⟨hfirst, hvalid, hrest⟩ := System.Run.before run
  have hinv := inv_of_run hfirst
  have houtside := outside_of_disconnects hvalid hinv ⟨p, hp, type⟩
  obtain ⟨-, hafter, -⟩ := List.pairwise_append.mp hpairs
  obtain ⟨hafter, -⟩ := List.pairwise_cons.mp hafter
  constructor
  · refine staysOut_of_run hrest (hinv.valid hvalid) houtside
      fun t ht hruns => ?_
    obtain ⟨q, hq, hhandled⟩ := runsHandler_iff.mp hruns
    exact hafter t ht p hp q hq type hhandled
  · intro hruns
    obtain ⟨q, hq, hhandled⟩ := runsHandler_iff.mp hruns
    refine hlast p ?_ q (Option.mem_toList.mpr hq) type hhandled
    exact List.mem_filterMap.mpr ⟨d, by simp, hp⟩

/--
After a disconnect.  In every run, with any event tried at its end, nothing is
served to a client after its disconnect handler has run exactly when no packet
with a handler follows a disconnect packet in what the loop takes from `C`.
-/
theorem nothing_served_iff
    (run : ServerRun vf tr s)
    (c : ClientPtr) (e : Event) :
    NothingServed c tr s e ↔
      QuietAfterDisconnect
        (loopPackets c tr ++ (loopPacket c s e).toList) :=
  ⟨quiet_of_nothingServed, nothingServed_of_quiet run⟩

/-- A client signs in and sends two packets, the first a disconnect. -/
def disconnectThen (p : Packet) : List Event :=
  signIn 0 0 ++ [.packet 0 (constructPacket encString packetDisconnect []) 0,
    .packet 0 p 7]

/-- Its request to create a game is served after the disconnect. -/
theorem served_after_disconnect :
    ∃ tr s, ServerRun nopValidationFunc tr s ∧
      tr.map Transition.event =
        disconnectThen (constructPacket encString packetCreateGame []) ∧
      s.clients 0 = false ∧ (s.client 0).gameID = generateGameId 7 ∧
      (s.game 0).clients = [0] ∧ ∀ e, ¬ NothingServed 0 tr s e := by
  have hexec : (serverSystem.exec (newTCPServer nopValidationFunc)
      (disconnectThen (constructPacket encString packetCreateGame []))).map
      (fun r => (r.2.clients 0, (r.2.client 0).gameID, (r.2.game 0).clients,
        loopPackets 0 r.1)) =
      some (false, generateGameId 7, [0],
        [constructPacket encString packetDisconnect [],
          constructPacket encString packetCreateGame []]) := by
    decide +kernel
  obtain ⟨tr, s, hrun, hevents, hend⟩ := System.run_of_exec hexec
  simp only [Prod.mk.injEq] at hend
  obtain ⟨hreg, hgame, hclients, hpackets⟩ := hend
  refine ⟨tr, s, hrun, hevents, hreg, hgame, hclients, fun e hserved => ?_⟩
  have hquiet := quiet_of_nothingServed hserved
  rw [hpackets] at hquiet
  obtain ⟨hafter, -⟩ := List.pairwise_cons.mp hquiet
  exact hafter (constructPacket encString packetCreateGame []) (by simp) rfl
    ⟨packetCreateGame, createGameHandler, rfl, rfl⟩

/-- A packet of another type is dropped. -/
theorem nothing_served_short :
    ∃ tr s, ServerRun nopValidationFunc tr s ∧
      tr.map Transition.event =
        disconnectThen (constructPacket encString packetError []) ∧
      NothingServed 0 tr s (.readError 0) := by
  have hexec : (serverSystem.exec (newTCPServer nopValidationFunc)
      (disconnectThen (constructPacket encString packetError []))).map
      (fun r => loopPackets 0 r.1) =
      some [constructPacket encString packetDisconnect [],
        constructPacket encString packetError []] := by
    decide +kernel
  obtain ⟨tr, s, hrun, hevents, hpackets⟩ := System.run_of_exec hexec
  refine ⟨tr, s, hrun, hevents, (nothing_served_iff hrun 0 _).mpr ?_⟩
  have hpackets' : loopPackets 0 tr =
      [constructPacket encString packetDisconnect [],
        constructPacket encString packetError []] := hpackets
  rw [hpackets']
  refine .cons ?_ (.cons (by simp [loopPacket]) .nil)
  intro q hq _
  cases List.mem_singleton.mp hq
  rintro ⟨t, handler, htype, hhandler⟩
  cases htype
  cases hhandler

end AfterDisconnect

end Server
end TurnBasedGame
