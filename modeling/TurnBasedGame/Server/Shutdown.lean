import TurnBasedGame.Server.Membership
import TurnBasedGame.Server.Settling

/-!
# Closing the server

`Close` closes `quitch` and the listener.  No connection is accepted any more,
and those that were accepted before come to an end after boundedly many steps
of the goroutines, in whatever order: their handlers return, remove them from
the table and take them out of their games.  The exception are handlers that
wait at the nil channel of a client without a game: they never return.
-/

namespace TurnBasedGame
namespace Server

open Kernel
open PacketFramer

section Shutdown

/-- Steps that need nothing but time from outside once `quitch` is closed. -/
def Closing : ProcessEvent → Prop
  | .handleConnection _ _ => True
  | .connection _ .authTimeout _ => True
  | .connection _ .quit _ => True
  | e => Internal e

/-- A connection that is over for the server: its client carries no game id. -/
structure ShutDown (c : ClientPtr) (s : Process) : Prop where
  handler : (s.conn c).handler = .returned
  unregistered : s.server.clients c = false
  outside : (s.server.client c).gameID = []

/-- The end of a handler is still to come. -/
def handlerDuty : HandlerState → Nat
  | .returned => 0
  | _ => 1

/-- A step with which a handler returns, in the same number. -/
def ConnectionEvent.leaving : ConnectionEvent → Nat
  | .authTimeout => 1
  | .quit => 1
  | _ => 0

/--
What an accepted connection has before it: its start, with the work this
allows for, and the end of its handler.
-/
def duty (s : Process) (c : ClientPtr) : Nat :=
  if s.server.conn c = .absent then
    if s.accepted c then 6 * (framerChanCap + 1) + 2 else 0
  else
    handlerDuty (s.conn c).handler

/-- A bound on the steps until the process is shut down. -/
noncomputable def Process.remaining (s : Process) : Nat :=
  s.work + total (duty s)

/-- No handler comes back. -/
theorem GoroutineMove.duty
    {t : ConnectionTransition}
    (m : GoroutineMove t) :
    handlerDuty t.post.handler + t.event.leaving ≤
      handlerDuty t.pre.handler := by
  cases m with
  | authPassed k handler => simp [handlerDuty, handler, ConnectionEvent.leaving]
  | authFailed k handler => simp [handlerDuty, handler, ConnectionEvent.leaving]
  | authTimeout k handler =>
      simp [handlerDuty, handler, ConnectionEvent.leaving]
  | takePacket k handler => simp [handlerDuty, handler, ConnectionEvent.leaving]
  | handled k handler => simp [handlerDuty, handler, ConnectionEvent.leaving]
  | takeError k handler => simp [handlerDuty, handler, ConnectionEvent.leaving]
  | quit k handler => simp [handlerDuty, handler, ConnectionEvent.leaving]
  | _ => simp [ConnectionEvent.leaving]

/-- A closing step of a connection is its own, or its handler returns. -/
theorem closing_connection
    {c : ClientPtr} {e : ConnectionEvent} {n : GameDraw}
    (h : Closing (.connection c e n)) :
    1 ≤ e.ownSteps + e.leaving ∧ e.cost = 0 := by
  cases e <;> first | exact ⟨Nat.le_refl 1, rfl⟩ | exact h.elim

section Run

variable {vf : ValidationFunc} {tr : List ProcessTransition} {s : Process}
variable {c : ClientPtr}

/-- Finitely many connections were accepted. -/
theorem finite_accepted
    (run : ProcessRun vf tr s) :
    {c | s.accepted c = true}.Finite := by
  refine run.invariant (I := fun s => {c | s.accepted c = true}.Finite) ?_ ?_
  · simp [newProcess]
  · intro t valid h
    cases processMove_of_valid valid with
    | accept s c listening fresh =>
        refine (h.insert c).subset fun d hd => ?_
        by_cases hdc : d = c
        · exact Or.inl hdc
        · exact Or.inr (by simpa [hdc] using hd)
    | _ => exact h

/-- Connections that were not accepted have no duty. -/
theorem finite_duty
    (run : ProcessRun vf tr s) :
    (Function.support (duty s)).Finite := by
  refine (finite_accepted run).subset fun c hc => ?_
  by_cases habsent : s.server.conn c = .absent
  · by_contra hnot
    have hno : ¬ s.accepted c = true := hnot
    exact hc (by simp [duty, habsent, hno])
  · exact ((coupled_of_run run).clients c).accepted habsent

/-- When one connection changes, so do the duties of all connections. -/
theorem total_duty
    (run : ProcessRun vf tr s)
    (s' : Process) (c : ClientPtr)
    (others : ∀ d, d ≠ c → s'.server.conn d = s.server.conn d ∧
      s'.conn d = s.conn d ∧ s'.accepted d = s.accepted d) :
    total (duty s') + duty s c = total (duty s) + duty s' c := by
  refine total_add_of_changed (finite_duty run) c (fun d hd => ?_)
  obtain ⟨hserver, hconn, haccepted⟩ := others d hd
  rw [duty, duty, hserver, hconn, haccepted]

theorem duty_of_opened
    (opened : Opened c s) :
    duty s c = handlerDuty (s.conn c).handler :=
  if_neg opened

/-- The loops of games leave the duties alone. -/
theorem duty_of_loop
    (s : Process)
    {ev : TCPServer.Event} {out : List Write} {server : TCPServer}
    (valid : serverSystem.Valid ⟨s.server, ev, out, server⟩)
    (loop : handlerOf ev = none) :
    duty { s with server := server } = duty s := by
  funext c
  rw [duty, duty, conn_of_other valid (d := c) (by simp [loop])]

/-- The server knows a connection from its start. -/
theorem conn_of_accept
    {s s' : TCPServer} {n : ClientDraw} {out : List Write}
    (valid : serverSystem.Valid ⟨s, .accept c n, out, s'⟩) :
    s.conn c = .absent ∧ s'.conn c ≠ .absent := by
  cases TCPServer.move_of_valid valid with
  | accept s c n conn => exact ⟨conn, by simp⟩
  | close s c closes => cases closes

/-- Each closing step brings the end closer. -/
theorem remaining_lt
    {t : ProcessTransition}
    (run : ProcessRun vf tr t.pre)
    (m : ProcessMove t)
    (closing : Closing t.event) :
    t.post.remaining < t.pre.remaining := by
  have hwork := m.work run
  cases m with
  | accept s c listening fresh => exact closing.elim
  | @started s c n server out accepted valid =>
      have hrun : ProcessRun vf tr s := run
      obtain ⟨habsent, hopened⟩ := conn_of_accept valid
      have hduties := total_duty hrun
        { s.setConnection c (newConnection (generateClientId n)) with
          server := server } c (fun d hd =>
          ⟨conn_of_other valid (by simpa [handlerOf] using Ne.symm hd),
            Function.update_of_ne hd _ _, rfl⟩)
      have hbefore : duty s c = 6 * (framerChanCap + 1) + 2 := by
        simp [duty, habsent, accepted]
      have hafter : duty { s.setConnection c
          (newConnection (generateClientId n)) with server := server } c =
            1 := by
        rw [duty, if_neg hopened]
        simp [Process.setConnection, newConnection, handlerDuty]
      simp only [Process.setConnection] at hduties hafter
      simp only [Process.remaining, Process.setConnection, inputCost,
        ownSteps] at hwork ⊢
      omega
  | @alone s c e n k out opened enabled valid silent =>
      have hrun : ProcessRun vf tr s := run
      obtain ⟨hone, hcost⟩ := closing_connection closing
      have hmove := (goroutineMove_of_valid valid).duty
      have hduties := total_duty hrun (s.setConnection c k) c
        (fun d hd => ⟨rfl, Function.update_of_ne hd _ _, rfl⟩)
      have hbefore := duty_of_opened opened
      have hafter : duty (s.setConnection c k) c = handlerDuty k.handler := by
        rw [duty_of_opened (s := s.setConnection c k) opened]
        simp [Process.setConnection]
      simp only [Process.remaining, inputCost, ownSteps] at hwork hmove ⊢
      omega
  | @joint s c e n k out ev server writes opened enabled valid requests
      serverValid =>
      have hrun : ProcessRun vf tr s := run
      obtain ⟨hone, hcost⟩ := closing_connection closing
      have hmove := (goroutineMove_of_valid valid).duty
      have hduties := total_duty hrun
        { s.setConnection c k with server := server } c (fun d hd =>
          ⟨conn_of_other serverValid
            (by simpa [handlerOf_request requests] using Ne.symm hd),
            Function.update_of_ne hd _ _, rfl⟩)
      have hbefore := duty_of_opened opened
      have hafter : duty { s.setConnection c k with server := server } c =
          handlerDuty k.handler := by
        rw [duty, if_neg (opened_of_valid serverValid opened)]
        simp [Process.setConnection]
      simp only [Process.setConnection] at hduties hafter
      simp only [Process.remaining, Process.setConnection, inputCost,
        ownSteps] at hwork hmove ⊢
      omega
  | @receive s g server out valid =>
      have hduties := duty_of_loop s valid rfl
      simp only [Process.remaining, inputCost, ownSteps, hduties] at hwork ⊢
      omega
  | @broadCast s g server out valid =>
      have hduties := duty_of_loop s valid rfl
      simp only [Process.remaining, inputCost, ownSteps, hduties] at hwork ⊢
      omega
  | closeQuitch s unclosed => exact closing.elim
  | closeListener s closed listening => exact closing.elim

/-- No closing step is possible. -/
def Drained (s : Process) : Prop :=
  ∀ e, Closing e → processSystem.step s e = .blocked

theorem Drained.quiescent
    (h : Drained s) :
    Quiescent s := by
  intro e hinternal
  refine h e ?_
  cases e with
  | connection c e n => cases e <;> first | exact trivial | exact hinternal
  | handleConnection c n => trivial
  | _ => exact hinternal

/-- Every accepted connection has been started. -/
theorem Drained.opened
    (h : Drained s)
    (accepted : s.accepted c = true) :
    Opened c s := by
  intro habsent
  have hblocked := h (.handleConnection c 0) trivial
  simp [processSystem, Process.step, Process.handleConnection, accepted,
    TCPServer.step, TCPServer.acceptConnection, habsent, Outcome.map]
    at hblocked

/-- Every handler has returned, unless it waits at a nil channel. -/
theorem Drained.handler
    (h : Drained s)
    (quitch : s.quitch = true)
    (opened : Opened c s)
    (coupled : CoupledAt c s) :
    (s.conn c).handler = .returned ∨ Wedged c s := by
  rcases h.quiescent.handler opened coupled with hreturned | hwedged | hwaits
  · exact Or.inl hreturned
  · exact Or.inr hwedged
  have hconn := coupled.opened opened
  have htimer : Enabled s c .authTimeout := trivial
  have hquit : Enabled s c .quit := quitch
  cases hhandler : (s.conn c).handler with
  | returned => exact Or.inl rfl
  | handling p =>
      have hhand := hwaits.hand
      simp [hhandler, HandlerState.inHand] at hhand
  | authenticating id =>
      rw [hhandler] at hconn
      exfalso
      rcases (connection_blocked_iff opened htimer).mp
        (h (.connection c .authTimeout 0) trivial) with
          hwait | ⟨k, out, ev, -, hevent, hserver⟩
      · simp [connectionStep, hhandler] at hwait
      · cases hevent
        simp only [TCPServer.step, hconn, HandlerState.connState] at hserver
        exact returnConnection_not_blocked _ c hserver
  | looping =>
      rw [hhandler] at hconn
      exfalso
      rcases (connection_blocked_iff opened hquit).mp
        (h (.connection c .quit 0) trivial) with
          hwait | ⟨k, out, ev, -, hevent, hserver⟩
      · simp [connectionStep, hhandler] at hwait
      · cases hevent
        simp only [TCPServer.step, hconn, HandlerState.connState] at hserver
        exact returnConnection_not_blocked _ c hserver

section Wedged

/-- Steps that touch neither the handler nor its client. -/
theorem Wedged.untouched
    {s' : Process}
    (h : Wedged c s)
    (handler : (s'.conn c).handler = (s.conn c).handler)
    (client : s'.server.client c = s.server.client c) :
    Wedged c s' := by
  obtain ⟨⟨p, hp, htype, hsize, hown, -⟩, hpump⟩ := h
  rw [← client] at hown hpump
  exact ⟨⟨p, handler.trans hp, htype, hsize, hown, by simp [hpump]⟩, hpump⟩

theorem Wedged.opened
    (h : Wedged c s)
    (coupled : CoupledAt c s) :
    Opened c s := by
  intro habsent
  obtain ⟨p, hp, -⟩ := h.handling
  rw [coupled.unopened habsent] at hp
  cases hp

/-- A handler that waits in a request takes no other step. -/
theorem handler_of_handling
    {k k' : Connection} {e : ConnectionEvent} {out : List Packet} {p : Packet}
    (m : GoroutineMove ⟨k, e, out, k'⟩)
    (handling : k.handler = .handling p) :
    e = .handled ∨ k'.handler = k.handler ∧
      ∀ c n, serverEvent c k n e = none := by
  cases m with
  | authPassed k handler => cases handling.symm.trans handler
  | authFailed k handler => cases handling.symm.trans handler
  | authTimeout k handler => cases handling.symm.trans handler
  | takePacket k handler => cases handling.symm.trans handler
  | takeError k handler => cases handling.symm.trans handler
  | quit k handler => cases handling.symm.trans handler
  | handled k handler => exact Or.inl rfl
  | _ => exact Or.inr ⟨rfl, fun _ _ => rfl⟩

/-- The server does not serve the packet of a handler at a nil channel. -/
theorem Wedged.blocked
    (h : Wedged c s)
    (coupled : CoupledAt c s)
    {n : GameDraw} {ev : TCPServer.Event} {out : List Write}
    {server : TCPServer}
    (requests : serverEvent c (s.conn c) n .handled = some ev)
    (valid : serverSystem.Valid ⟨s.server, ev, out, server⟩) :
    False := by
  have hconn := coupled.opened (h.opened coupled)
  obtain ⟨p, hp, hroom⟩ := h.handling
  rw [hp] at hconn
  simp only [serverEvent, hp, Option.some.injEq] at requests
  have hstep : TCPServer.step s.server ev = .next server out := valid
  simp only [← requests, TCPServer.step, hconn, HandlerState.connState,
    dispatch_blocked_iff.mpr hroom] at hstep
  cases hstep

/-- A handler at a nil channel stays there. -/
theorem wedged_of_move
    {t : ProcessTransition}
    (m : ProcessMove t)
    (coupled : CoupledAt c t.pre)
    (h : Wedged c t.pre) :
    Wedged c t.post := by
  have hopened := h.opened coupled
  obtain ⟨p, hp, -⟩ := h.handling
  cases m with
  | accept s d listening fresh => exact h.untouched rfl rfl
  | @started s d n server out accepted valid =>
      have hdc : c ≠ d := by
        rintro rfl
        exact hopened (conn_of_accept valid).1
      have hother : handlerOf (.accept d n) ≠ some c := by
        simpa [handlerOf] using hdc.symm
      refine h.untouched ?_
        ((TCPServer.move_of_valid valid).untouched hother).client
      simp [Process.setConnection, hdc]
  | @alone s d e n k out opened enabled valid silent =>
      refine h.untouched ?_ rfl
      by_cases hdc : c = d
      · subst hdc
        rcases handler_of_handling (goroutineMove_of_valid valid) hp with
          rfl | ⟨hsame, -⟩
        · have hhandler : (s.conn c).handler = .handling p := hp
          simp [serverEvent, hhandler] at silent
        · simpa [Process.setConnection] using hsame
      · simp [Process.setConnection, hdc]
  | @joint s d e n k out ev server writes opened enabled valid requests
      serverValid =>
      by_cases hdc : c = d
      · subst hdc
        rcases handler_of_handling (goroutineMove_of_valid valid) hp with
          rfl | ⟨-, hsilent⟩
        · exact (h.blocked coupled requests serverValid).elim
        · cases (hsilent c n).symm.trans requests
      · have hother : handlerOf ev ≠ some c := by
          simpa [handlerOf_request requests] using Ne.symm hdc
        refine h.untouched ?_
          ((TCPServer.move_of_valid serverValid).untouched hother).client
        simp [Process.setConnection, hdc]
  | @receive s g server out valid =>
      exact h.untouched rfl ((TCPServer.move_of_valid valid).untouched
        (by simp [handlerOf])).client
  | @broadCast s g server out valid =>
      exact h.untouched rfl ((TCPServer.move_of_valid valid).untouched
        (by simp [handlerOf])).client
  | closeQuitch s unclosed => exact h.untouched rfl rfl
  | closeListener s closed listening => exact h.untouched rfl rfl

end Wedged

/-- Without a listener nothing is accepted. -/
theorem accepted_of_move
    {t : ProcessTransition}
    (m : ProcessMove t)
    (closed : t.pre.listening = false) :
    t.post.listening = false ∧ t.post.accepted = t.pre.accepted := by
  cases m with
  | accept s d listening fresh => cases listening.symm.trans closed
  | closeListener s quitch listening => cases listening.symm.trans closed
  | _ => exact ⟨closed, rfl⟩

/--
Closing the server.  Once `Close` has run, no connection is accepted any more;
the steps that the goroutines take by themselves are bounded, for any order of
them, and can be taken until none is left or one panics.  When none is left,
every connection that was ever accepted is over: its handler has returned, and
its client carries no game id and is in no table; or its handler waits at a nil
channel, and such a handler stays there for good.  Where no registered game id
was drawn again, a client whose connection is over is in no list of any game.
-/
theorem shutdown
    (run : ProcessRun vf tr s)
    (quitch : s.quitch = true)
    (closed : s.listening = false) :
    (∃ bound, ∀ tr' s', processSystem.Run s tr' s' →
      s'.accepted = s.accepted ∧
        ((∀ t ∈ tr', Closing t.event) → tr'.length ≤ bound)) ∧
    (∃ tr' s', processSystem.Run s tr' s' ∧
      (∀ t ∈ tr', Closing t.event) ∧
        (Drained s' ∨ ∃ e, Closing e ∧ processSystem.step s' e = .panic)) ∧
    (Drained s → ∀ c, s.accepted c = true → ShutDown c s ∨ Wedged c s) ∧
    (∀ c, Wedged c s → ∀ tr' s', processSystem.Run s tr' s' →
      Wedged c s') ∧
    ((∀ t ∈ serverTrace tr, DrawsFresh t) → ∀ c, ShutDown c s →
      ∀ g, c ∉ (s.server.game g).clients) := by
  have hreach : ∃ tr, ProcessRun vf tr s := ⟨tr, run⟩
  have hkeep : ∀ t, processSystem.Valid t → (∃ tr, ProcessRun vf tr t.pre) →
      ∃ tr, ProcessRun vf tr t.post :=
    fun t valid ⟨_, hrun⟩ => ⟨_, hrun.snoc t valid⟩
  have hless : ∀ t, processSystem.Valid t → Closing t.event →
      (∃ tr, ProcessRun vf tr t.pre) → t.post.remaining < t.pre.remaining :=
    fun t valid hclosing ⟨_, hrun⟩ =>
      remaining_lt hrun (processMove_of_valid valid) hclosing
  refine ⟨⟨s.remaining, fun tr' s' cont => ⟨?_, fun hclosing => ?_⟩⟩,
    System.exists_stuck (fun s => ∃ tr, ProcessRun vf tr s) Closing
      Process.remaining hkeep hless s hreach,
    fun hdrained c haccepted => ?_, fun c hwedged tr' s' cont => ?_,
    fun fresh c hdown => ?_⟩
  · refine (cont.invariant (I := fun s' => s'.listening = false ∧
      s'.accepted = s.accepted) ⟨closed, rfl⟩ fun t valid hpre => ?_).2
    obtain ⟨hlistening, haccepted⟩ :=
      accepted_of_move (processMove_of_valid valid) hpre.1
    exact ⟨hlistening, haccepted.trans hpre.2⟩
  · have hlength := cont.length_add_le (fun s => ∃ tr, ProcessRun vf tr s)
      (fun t => Closing t.event) Process.remaining hreach hkeep hless hclosing
    exact (Nat.le_add_right _ _).trans hlength
  · have hopened := hdrained.opened haccepted
    have hcoupled := (coupled_of_run run).clients c
    refine (hdrained.handler quitch hopened hcoupled).imp_left fun hhandler => ?_
    have hconn := conn_of_returned run hhandler
    have hserver := serverRun_of_run run
    exact ⟨hhandler, unregistered_of_returned hserver c hconn,
      returnedOut_of_run hserver c hconn⟩
  · refine (cont.invariant (I := fun s => (∃ tr, ProcessRun vf tr s) ∧
      Wedged c s) ⟨hreach, hwedged⟩ fun t valid ⟨⟨tr, hrun⟩, h⟩ => ?_).2
    exact ⟨hkeep t valid ⟨tr, hrun⟩, wedged_of_move (processMove_of_valid valid)
      ((coupled_of_run hrun).clients c) h⟩
  · have hserver := serverRun_of_run run
    exact not_mem_of_returned (inv_of_run hserver)
      (allRegistered_of_run hserver fresh) (returnedOut_of_run hserver)
      (conn_of_returned run hdown.handler)

/--
A client creates a game, and another one sends a game state to none.  Then the
server closes, and the handler of the first returns.
-/
def closeRun : List ProcessEvent :=
  connects 0 0 ++ connects 1 1 ++
    sends 0 (constructPacket encString packetCreateGame []) 7 ++
    (sends 1 (statePacket 1 [1]) 0).take 5 ++
    [.closeQuitch, .closeListener, .connection 0 .quit 0]

/-- The first is out of its game, and the handler of the other stays. -/
theorem shutdown_wedged :
    ∃ tr s, ProcessRun nopValidationFunc tr s ∧
      tr.map Transition.event = closeRun ∧
      (∃ bound, ∀ tr' s', processSystem.Run s tr' s' →
        s'.accepted = s.accepted ∧
          ((∀ t ∈ tr', Closing t.event) → tr'.length ≤ bound)) ∧
      (s.server.games (generateGameId 7)).isSome = true ∧
      (∀ g, 0 ∉ (s.server.game g).clients) ∧
      Wedged 1 s ∧
      ∀ tr' s', processSystem.Run s tr' s' → Wedged 1 s' := by
  have hexec : (processSystem.exec (newProcess nopValidationFunc)
      closeRun).map (fun r : List ProcessTransition × Process => (
        (r.2.server.games (generateGameId 7)).isSome,
        decide (r.2.quitch = true ∧ r.2.listening = false ∧
          ∀ t ∈ serverTrace r.1, DrawsFresh t),
        decide ((r.2.conn 0).handler = .returned ∧
          r.2.server.clients 0 = false ∧ (r.2.server.client 0).gameID = []),
        decide ((r.2.conn 1).handler = .handling (statePacket 1 [1]) ∧
          (r.2.server.client 1).gamePump = none ∧
          (r.2.server.client 1).clientID =
            embeddedID (statePacket 1 [1])))) =
      some (true, true, true, true) := by
    decide +kernel
  obtain ⟨tr, s, hrun, hevents, hend⟩ := System.run_of_exec hexec
  simp only [Prod.mk.injEq, decide_eq_true_eq] at hend
  obtain ⟨hgame, ⟨hquitch, hlistening, hfresh⟩, ⟨hreturned, hclient, hout⟩,
    hhandler, hpump, hown⟩ := hend
  have htype : (statePacket 1 [1]).getType = .ok packetGameState := by
    decide +kernel
  have hsize : packetHeaderSize + gsDataOffset ≤
      (statePacket 1 [1]).data.length := by
    decide +kernel
  have hwedged : Wedged 1 s :=
    ⟨⟨_, hhandler, htype, hsize, hown, by simp [hpump]⟩, hpump⟩
  obtain ⟨hbound, -, -, hforever, houtside⟩ :=
    shutdown hrun hquitch hlistening
  exact ⟨tr, s, hrun, hevents, hbound, hgame,
    houtside hfresh 0 ⟨hreturned, hclient, hout⟩, hwedged,
    hforever 1 hwedged⟩

end Run

end Shutdown

end Server
end TurnBasedGame
