import TurnBasedGame.Server.Broadcast
import TurnBasedGame.Server.Settling

/-!
# Delivery to the members of a game

What the loop of a game broadcasts from some state on is what is in flight
there and what is queued after it, in this order.  So a game state waits for at
most ten others; and once the process is at rest, a client that was in the game
all the time has been written every game state of the others.
-/

namespace TurnBasedGame
namespace Server

open Kernel

section Delivery

open TCPServer

variable {vf : ValidationFunc} {tr tr' : List ProcessTransition}
variable {s s' : Process} {g : GamePtr} {d : ClientPtr}

/-- The steps of the server in the rest of a run. -/
theorem serverRun_of_cont
    (cont : processSystem.Run s tr' s') :
    serverSystem.Run s.server (serverTrace tr') s'.server :=
  cont.shown_run (I := fun _ => True) trivial (fun _ _ _ => trivial)
    (fun _ valid _ => (processMove_of_valid valid).server)

/-- The packets queued for a game in a run, in order. -/
def queuedFor (g : GamePtr) (tr : List ProcessTransition) : List Packet :=
  ((serverTrace tr).flatMap (queued g)).map Prod.snd

/-- The packets broadcast in a game in a run, in order. -/
def relayedIn (g : GamePtr) (tr : List ProcessTransition) : List Packet :=
  (serverTrace tr).flatMap (relayed g)

/-- What is in flight or queued later is broadcast or in flight later. -/
theorem inFlight_log
    (run : ProcessRun vf tr s)
    (cont : processSystem.Run s tr' s')
    (g : GamePtr) :
    inFlight g s.server ++ queuedFor g tr' =
      relayedIn g tr' ++ inFlight g s'.server := by
  have hbefore := queued_log (serverRun_of_run run) g
  have hwhole := queued_log (serverRun_of_run (run.append cont)) g
  have hsplit : serverTrace (tr ++ tr') = serverTrace tr ++ serverTrace tr' :=
    shown_append tr tr'
  rw [hsplit, List.flatMap_append, List.flatMap_append, List.map_append,
    hbefore, List.append_assoc, List.append_assoc] at hwhole
  exact List.append_cancel_left hwhole

/-- So many packets of a game are in flight at most. -/
def maxInFlight : Nat := gameChanCap + 1

theorem inFlight_length_le
    {vf : ValidationFunc} {tr : List ServerTransition} {s : TCPServer}
    (run : ServerRun vf tr s) (g : GamePtr) :
    (inFlight g s).length ≤ maxInFlight := by
  have hch := channel_capacity run g
  have hhand : (s.game g).holding.toList.length ≤ 1 := by
    cases (s.game g).holding <;> simp
  rw [inFlight, List.length_append, maxInFlight]
  omega

/-- A loop that has something in flight can go on. -/
theorem loop_step
    (run : ProcessRun vf tr s)
    (safe : ∀ p, Relayable p → ∀ err, vf p ≠ .error err)
    (waiting : inFlight g s.server ≠ []) :
    ∃ t, t.pre = s ∧ processSystem.Valid t ∧
      (t.event = .receive g ∨ t.event = .broadCast g) := by
  have hserver := serverRun_of_run run
  cases hholding : (s.server.game g).holding with
  | some p =>
      have hp : Relayable p := relayable_of_inFlight hserver (g := g)
        (by simp [inFlight, hholding])
      have hcast := hp.broadCast_eq s.server (s.server.game g)
      rw [(validationFunc_of_run hserver).2 g] at hcast
      obtain ⟨writes, hwrites⟩ : ∃ writes,
          broadCast s.server (s.server.game g) p = .ok writes := by
        cases hvf : vf p with
        | error err => exact absurd hvf (safe p hp err)
        | ok res => cases res <;> exact ⟨_, by rw [hcast, hvf]⟩
      refine ⟨⟨s, .broadCast g, writes, { s with
        server := s.server.broadcasted g }⟩, rfl, ?_, Or.inr rfl⟩
      simp [System.Valid, processSystem, Process.step, TCPServer.step,
        finishBroadCast, hholding, hwrites, Outcome.map, broadcasted]
  | none =>
      cases hch : (s.server.game g).ch with
      | nil => simp [inFlight, hholding, hch] at waiting
      | cons p rest =>
          have hp : Relayable p := relayable_of_inFlight hserver (g := g)
            (by simp [inFlight, hch])
          obtain ⟨state, hstate⟩ := hp.logged
          have hdata : gameStateData p.payload =
              .ok (p.payload.drop gsDataOffset) :=
            sliceFrom_ok hp.payload_length
          refine ⟨⟨s, .receive g, [], { s with
            server := s.server.received g p rest }⟩, rfl, ?_, Or.inl rfl⟩
          simp [System.Valid, processSystem, Process.step, TCPServer.step,
            receive, hholding, hch, hp.getData, hstate, hdata, Outcome.map,
            received, bind, Except.bind, pure, Except.pure]

/--
A game state waits for at most ten others.  At most eleven game states are in
flight in a game; the broadcasts that follow take them in order, so that after
eleven of them all have been broadcast, whatever else is queued; and where the
validation does not panic, the loop of the game can always go on.
-/
theorem relay_bounded
    (run : ProcessRun vf tr s)
    (safe : ∀ p, Relayable p → ∀ err, vf p ≠ .error err)
    (g : GamePtr) :
    (inFlight g s.server).length ≤ 11 ∧
    (∀ tr' s', processSystem.Run s tr' s' →
      (relayedIn g tr' <+: inFlight g s.server ∨
        inFlight g s.server <+: relayedIn g tr') ∧
      (11 ≤ (relayedIn g tr').length →
        inFlight g s.server <+: relayedIn g tr')) ∧
    (inFlight g s.server ≠ [] → ∃ t, t.pre = s ∧ processSystem.Valid t ∧
      (t.event = .receive g ∨ t.event = .broadCast g)) := by
  have hlength := inFlight_length_le (serverRun_of_run run) g
  refine ⟨hlength, fun tr' s' cont => ?_, loop_step run safe⟩
  have hlog := inFlight_log run cont g
  have hleft : inFlight g s.server <+:
      relayedIn g tr' ++ inFlight g s'.server :=
    ⟨_, hlog⟩
  have hright : relayedIn g tr' <+:
      relayedIn g tr' ++ inFlight g s'.server :=
    List.prefix_append _ _
  refine ⟨List.prefix_or_prefix_of_prefix hright hleft, fun hmany => ?_⟩
  exact List.prefix_of_prefix_length_le hleft hright (hlength.trans hmany)

section Member

/-- The id of a client in a game does not change. -/
theorem clientID_of_member
    {t : ServerTransition}
    (m : Move t)
    (hinv : Inv t.pre)
    (member : d ∈ (t.pre.game g).clients) :
    (t.post.client d).clientID = (t.pre.client d).clientID := by
  cases m with
  | accept s c n conn =>
      have hdc : d ≠ c := by
        rintro rfl
        exact (hinv.outsider d (Or.inl conn)).2 g member
      simp [hdc]
  | authenticate s c p n conn passes =>
      have hdc : d ≠ c := by
        rintro rfl
        exact (hinv.outsider d (Or.inr ⟨_, conn⟩)).2 g member
      simp [hdc]
  | close s c closes =>
      exact GameManager.departed_clientID (s.setRegistered c false) c d
  | dispatch s c p n conn dispatched => exact dispatched.clientID d
  | receive s g' idle front => rfl
  | broadCast s g' holding writes => rfl

variable {tr : List ServerTransition} {s s' : TCPServer}

/-- What is broadcast in a game while a client is in it. -/
theorem delivered_of_member
    {tr₀ : List ServerTransition}
    (run : ServerRun vf tr₀ s)
    (cont : serverSystem.Run s tr s')
    (stays : ∀ t ∈ tr, d ∈ (t.pre.game g).clients) :
    tr.flatMap (delivered d g) =
      ((tr.flatMap (relayed g)).filter (fun p => vf p = .ok none ∧
        (s.client d).clientID ≠ embeddedID p)).map Packet.data := by
  have hstep : ∀ t ∈ tr, delivered d g t =
      ((relayed g t).filter (fun p => vf p = .ok none ∧
        (s.client d).clientID ≠ embeddedID p)).map Packet.data := by
    intro t ht
    obtain ⟨before, after, rfl⟩ := List.append_of_mem ht
    obtain ⟨hbefore, hvalid, -⟩ := cont.before
    have hpre : ServerRun vf (tr₀ ++ before) t.pre := run.append hbefore
    have hinv := inv_of_run hpre
    have hid : (t.pre.client d).clientID = (s.client d).clientID :=
      (hbefore.invariant_where (C := fun t => d ∈ (t.pre.game g).clients)
        (I := fun s'' => Inv s'' ∧
          (s''.client d).clientID = (s.client d).clientID)
        ⟨inv_of_run run, rfl⟩
        (fun t' valid member hpre' => ⟨hpre'.1.valid valid,
          (clientID_of_member (move_of_valid valid) hpre'.1 member).trans
            hpre'.2⟩)
        (fun t' ht' => stays t' (List.mem_append_left _ ht'))).2
    have hmember := stays t (by simp)
    rw [delivered_eq (move_of_valid hvalid) (hinv.nodup g)
      (fun p hp => relayable_of_inFlight hpre hp), markedFor,
      List.filter_map, List.map_map]
    refine congrArg _ (List.filter_congr fun p _ => ?_)
    simp [Due, (validationFunc_of_run hpre).2 g, hmember, hid]
  rw [List.filter_flatMap, List.map_flatMap]
  exact List.flatMap_congr hstep

end Member

/--
Complete delivery.  While a client stays in a game it is written, each once
and in order, game states of others that pass the validation, from those in
flight at the start and those queued later; and when the process is at rest,
it has been written all of them.  A call of `broadCast` is one step here: a
member that leaves while its loop runs can make it miss another one.
-/
theorem relay_complete
    (run : ProcessRun vf tr s)
    (cont : processSystem.Run s tr' s')
    (stays : ∀ t ∈ serverTrace tr', d ∈ (t.pre.game g).clients) :
    (serverTrace tr').flatMap (delivered d g) <+:
        ((inFlight g s.server ++ queuedFor g tr').filter (fun p =>
          vf p = .ok none ∧ (s.server.client d).clientID ≠
            embeddedID p)).map Packet.data ∧
    (Quiescent s' → (serverTrace tr').flatMap (delivered d g) =
        ((inFlight g s.server ++ queuedFor g tr').filter (fun p =>
          vf p = .ok none ∧ (s.server.client d).clientID ≠
            embeddedID p)).map Packet.data) := by
  have hdelivered := delivered_of_member (serverRun_of_run run)
    (serverRun_of_cont cont) stays
  have hlog := inFlight_log run cont g
  rw [hdelivered, hlog]
  refine ⟨?_, fun quiet => ?_⟩
  · rw [List.filter_append, List.map_append]
    exact List.prefix_append _ _
  · obtain ⟨hholding, hch⟩ := quiet.games g
    simp [inFlight, hholding, hch, relayedIn]

/-- The last eight steps of the run relay a game state, to the other client. -/
theorem relay_complete_relay :
    ∃ tr s tr' s', ProcessRun nopValidationFunc tr s ∧
      processSystem.Run s tr' s' ∧
      (tr ++ tr').map Transition.event = relayRun ∧ Quiescent s' ∧
      (serverTrace tr').flatMap (delivered 1 0) =
        ((inFlight 0 s.server ++ queuedFor 0 tr').filter (fun p =>
          nopValidationFunc p = .ok none ∧ (s.server.client 1).clientID ≠
            embeddedID p)).map Packet.data ∧
      (serverTrace tr').flatMap (delivered 1 0) =
        [(statePacket 0 [9]).data] := by
  obtain ⟨tr, s', hexec, hquiet, -⟩ := quiescent_relay
  obtain ⟨hrun, hevents⟩ := processSystem.exec_run relayRun _ hexec
  have hend : (processSystem.exec (newProcess nopValidationFunc)
      relayRun).map (fun r => ((serverTrace (r.1.drop 26)).all (fun t =>
          decide (1 ∈ (t.pre.game 0).clients)),
        (serverTrace (r.1.drop 26)).flatMap (delivered 1 0))) =
      some (true, [(statePacket 0 [9]).data]) := by
    decide +kernel
  simp only [hexec, Option.map_some, Option.some.injEq, Prod.mk.injEq,
    List.all_eq_true, decide_eq_true_eq] at hend
  obtain ⟨hstays, hdelivered⟩ := hend
  have hsplit : processSystem.Run (newProcess nopValidationFunc)
      (tr.take 26 ++ tr.drop 26) s' := by
    rwa [List.take_append_drop]
  obtain ⟨s, hbefore, hafter⟩ := hsplit.exists_middle
  exact ⟨tr.take 26, s, tr.drop 26, s', hbefore, hafter,
    by rw [List.take_append_drop]; exact hevents, hquiet,
    (relay_complete hbefore hafter hstays).2 hquiet, hdelivered⟩

/-- Before the loop of the game takes it, the game state is in flight. -/
theorem relay_bounded_relay :
    ∃ tr s, ProcessRun nopValidationFunc tr s ∧
      tr.map Transition.event = relayRun.take 32 ∧
      inFlight 0 s.server = [statePacket 0 [9]] ∧
      ∃ t, t.pre = s ∧ processSystem.Valid t ∧
        (t.event = .receive 0 ∨ t.event = .broadCast 0) := by
  have hexec : (processSystem.exec (newProcess nopValidationFunc)
      (relayRun.take 32)).map (fun r => inFlight 0 r.2.server) =
      some [statePacket 0 [9]] := by
    decide +kernel
  obtain ⟨tr, s, hrun, hevents, hend⟩ := System.run_of_exec hexec
  have hbounded := relay_bounded hrun
    (fun p _ err h => by cases h) 0
  exact ⟨tr, s, hrun, hevents, hend, hbounded.2.2 (by simp [hend])⟩

end Delivery

end Server
end TurnBasedGame
