import TurnBasedGame.Server.Authentication

/-!
# Who can inject into a game

Membership is recorded by the game id of a client and by the list of the game,
but the right to send is recorded by `gamePump`, which a disconnect leaves in
place.  So a client that sends game states while it is in no game still
reaches the game it left last.  This is the only way in which a client that is
not a member gets a packet into the channel of a game.

A packet that is in the channel when its sender leaves is broadcast all the
same; the second result is about runs in which that does not happen either.
-/

namespace TurnBasedGame
namespace Server

open Kernel

section Injection

open TCPServer

/-- Packets enter the channels of games from current members only. -/
def InjectedByMembers (tr : List ServerTransition) : Prop :=
  ∀ t ∈ tr, ∀ g c p, (c, p) ∈ queued g t →
    c ∈ (t.pre.game g).clients ∧
      (t.pre.client c).gameID = (t.pre.game g).id

/-- A game-state packet with its sender's own id is sent from within a game. -/
def SendsInGameAt (s : TCPServer) : Event → Prop
  | .packet c p _ =>
      s.conn c = .serving → p.getType = .ok packetGameState →
        (s.client c).clientID = embeddedID p → (s.client c).gameID ≠ []
  | _ => True

instance (s : TCPServer) : (e : Event) → Decidable (SendsInGameAt s e)
  | .packet _ _ _ => inferInstanceAs (Decidable (_ → _ → _ → _))
  | .accept _ _ => .isTrue trivial
  | .authTimeout _ => .isTrue trivial
  | .readError _ => .isTrue trivial
  | .quit _ => .isTrue trivial
  | .receive _ => .isTrue trivial
  | .broadCast _ => .isTrue trivial

/-- The step sends no game state from outside any game. -/
def SendsInGame (t : ServerTransition) : Prop :=
  SendsInGameAt t.pre t.event

instance : DecidablePred SendsInGame := fun t =>
  inferInstanceAs (Decidable (SendsInGameAt t.pre t.event))

/-- The event makes a served client leave its game. -/
def Departs (s : TCPServer) (c : ClientPtr) : Event → Prop
  | .packet d p _ => d = c ∧ s.conn c = .serving ∧
      (p.getType = .ok packetLeaveGame ∨ p.getType = .ok packetDisconnect)
  | .readError d => d = c
  | .quit d => d = c
  | _ => False

instance (s : TCPServer) (c : ClientPtr) :
    (e : Event) → Decidable (Departs s c e)
  | .packet d _ _ => inferInstanceAs (Decidable (d = c ∧ _ ∧ (_ ∨ _)))
  | .readError d => inferInstanceAs (Decidable (d = c))
  | .quit d => inferInstanceAs (Decidable (d = c))
  | .accept _ _ => .isFalse id
  | .authTimeout _ => .isFalse id
  | .receive _ => .isFalse id
  | .broadCast _ => .isFalse id

/-- A client that leaves has no packet in flight in its game. -/
def LeavesDrained (t : ServerTransition) : Prop :=
  ∀ c, Departs t.pre c t.event → ∀ g, c ∈ (t.pre.game g).clients →
    ∀ p ∈ inFlight g t.pre, embeddedID p ≠ (t.pre.client c).clientID

/-- Only the client whose handler acts can leave, and a game that exists. -/
theorem leavesDrained_of_allocated
    {t : ServerTransition}
    (hinv : Inv t.pre)
    (drained : ∀ c ∈ handlerOf t.event, Departs t.pre c t.event →
      ∀ g < t.pre.allocated, c ∈ (t.pre.game g).clients →
        ∀ p ∈ inFlight g t.pre, embeddedID p ≠ (t.pre.client c).clientID) :
    LeavesDrained t := by
  intro c hdeparts g hmem
  refine drained c ?_ hdeparts g (hinv.allocated_of_member hmem) hmem
  cases hevent : t.event with
  | packet d p n =>
      rw [hevent] at hdeparts
      exact congrArg some hdeparts.1
  | readError d =>
      rw [hevent] at hdeparts
      exact congrArg some hdeparts
  | quit d =>
      rw [hevent] at hdeparts
      exact congrArg some hdeparts
  | _ =>
      rw [hevent] at hdeparts
      exact hdeparts.elim

/-- A queued packet comes from a member if its sender is in a game. -/
theorem injected_of_inGame
    {t : ServerTransition} {g : GamePtr} {c : ClientPtr} {p : Packet}
    (hinv : Inv t.pre)
    (hc : (c, p) ∈ queued g t)
    (inGame : (t.pre.client c).gameID ≠ []) :
    c ∈ (t.pre.game g).clients ∧
      (t.pre.client c).gameID = (t.pre.game g).id := by
  obtain ⟨-, -, -, -, hpump⟩ := mem_queued.mp hc
  obtain ⟨-, g', hpump', hid, hmem⟩ := hinv.inGame c inGame
  rw [hpump] at hpump'
  cases hpump'
  exact ⟨hmem, hid.symm⟩

/-- Every packet in flight carries the id of a current member. -/
def Backed (s : TCPServer) : Prop :=
  ∀ g, ∀ p ∈ inFlight g s,
    ∃ d ∈ (s.game g).clients, (s.client d).clientID = embeddedID p

namespace Backed

variable {s : TCPServer}

/-- Steps that only add members and only take packets out of flight. -/
theorem grow
    (h : Backed s) {s' : TCPServer}
    (flight : ∀ g, ∀ p ∈ inFlight g s', p ∈ inFlight g s)
    (members : ∀ g, ∀ d ∈ (s.game g).clients, d ∈ (s'.game g).clients)
    (ids : ∀ g, ∀ d ∈ (s.game g).clients,
      (s'.client d).clientID = (s.client d).clientID) :
    Backed s' := by
  intro g p hp
  obtain ⟨d, hd, hid⟩ := h g p (flight g p hp)
  exact ⟨d, members g d hd, (ids g d hd).trans hid⟩

/-- A disconnect of a client that has nothing in flight in its game. -/
theorem departed
    (h : Backed s) (c : ClientPtr)
    (drained : ∀ g, c ∈ (s.game g).clients →
      ∀ p ∈ inFlight g s, embeddedID p ≠ (s.client c).clientID) :
    Backed (GameManager.departed s c).server := by
  intro g p hp
  have hp' : p ∈ inFlight g s := by
    obtain ⟨hch, hholding⟩ := departed_channel s c g
    rwa [inFlight, hch, hholding] at hp
  obtain ⟨d, hd, hid⟩ := h g p hp'
  have hdc : d ≠ c := by
    rintro rfl
    exact drained g hd p hp' hid.symm
  refine ⟨d, ?_, by rw [GameManager.departed_clientID, hid]⟩
  exact GameManager.mem_departed hd hdc

theorem closed
    (h : Backed s) (c : ClientPtr)
    (drained : ∀ g, c ∈ (s.game g).clients →
      ∀ p ∈ inFlight g s, embeddedID p ≠ (s.client c).clientID) :
    Backed (s.closed c).server := by
  have hset : Backed (s.setRegistered c false) := h
  exact hset.departed c drained

/-- A client without a game is in the way of no packet when it is closed. -/
theorem closed_outsider
    (h : Backed s) (c : ClientPtr)
    (out : ∀ g, c ∉ (s.game g).clients) :
    Backed (s.closed c).server :=
  h.closed c fun g hmem => absurd hmem (out g)

theorem dispatched
    (h : Backed s) (hinv : Inv s) {c : ClientPtr} {p : Packet}
    {n : GameDraw} {s' : TCPServer} {out : List Write}
    (conn : s.conn c = .serving)
    (d : Dispatched s c p n s' out)
    (sends : SendsInGame ⟨s, .packet c p n, out, s'⟩)
    (drained : LeavesDrained ⟨s, .packet c p n, out, s'⟩) :
    Backed s' := by
  cases d with
  | ignored => exact h
  | refused => exact h
  | healthy => exact h
  | started => exact h
  | created type noGame =>
      refine h.grow ?_ ?_ (fun _ d _ => ?_)
      · intro g q hq
        by_cases hg : g = s.allocated
        · simp [inFlight, hg, newGame] at hq
        · simpa [inFlight, hg] using hq
      · intro g d hd
        have hg := hinv.allocated_of_member hd
        simpa [hg.ne] using hd
      · by_cases hdc : d = c <;> simp [hdc]
  | @joined id g' =>
      refine h.grow ?_ ?_ (fun _ d _ => ?_)
      · intro g q hq
        by_cases hg : g = g'
        · subst hg
          simpa [inFlight] using hq
        · simpa [inFlight, hg] using hq
      · intro g d hd
        exact (s.mem_joined c g').mpr (Or.inl hd)
      · by_cases hdc : d = c <;> simp [hdc]
  | @sent data id g' type data_eq embedded own pump room =>
      obtain ⟨-, rfl⟩ := getData_eq_ok_iff.mp data_eq
      obtain ⟨-, rfl⟩ := gameStateClientID_eq_ok_iff.mp embedded
      have hin := sends conn type own
      obtain ⟨-, g, hpump, -, hmem⟩ := hinv.inGame c hin
      rw [pump] at hpump
      cases hpump
      intro g q hq
      by_cases hg : g = g'
      · subst hg
        have hq' : q ∈ inFlight g s ∨ q = p := by
          simpa [inFlight, enqueued, or_assoc] using hq
        rcases hq' with hq' | rfl
        · obtain ⟨d, hd, hid⟩ := h g q hq'
          exact ⟨d, by simpa using hd, hid⟩
        · exact ⟨c, by simpa using hmem, own⟩
      · have hq' : q ∈ inFlight g s := by
          simpa [inFlight, enqueued, hg] using hq
        obtain ⟨d, hd, hid⟩ := h g q hq'
        exact ⟨d, by simpa using hd, hid⟩
  | left type inGame registered =>
      have hdeparted := h.departed c
        (drained c ⟨rfl, conn, Or.inl type⟩)
      simpa [GameManager.departed, inGame, registered] using hdeparted
  | disconnected type =>
      exact h.closed c (drained c ⟨rfl, conn, Or.inr type⟩)

/-- Steps that meet both conditions keep all packets in flight backed. -/
theorem move
    {t : ServerTransition}
    (m : Move t)
    (hinv : Inv t.pre)
    (cond : SendsInGame t ∧ LeavesDrained t)
    (h : Backed t.pre) :
    Backed t.post := by
  obtain ⟨hsends, hdrained⟩ := cond
  cases m with
  | accept s c n conn =>
      refine h.grow (fun _ _ hp => hp) (fun _ _ hd => hd) (fun g d hd => ?_)
      have hdc : d ≠ c := by
        rintro rfl
        exact (hinv.outsider d (Or.inl conn)).2 g hd
      simp [hdc]
  | @authenticate s c p n id conn passes =>
      refine h.grow (fun _ _ hp => hp) (fun _ _ hd => hd) (fun g d hd => ?_)
      have hdc : d ≠ c := by
        rintro rfl
        exact (hinv.outsider d (Or.inr ⟨id, conn⟩)).2 g hd
      simp [hdc]
  | close s c closes =>
      have hclosed : Backed (s.closed c).server := by
        cases closes with
        | @badPacket id p err n conn fails =>
            exact h.closed_outsider c
              (hinv.outsider c (Or.inr ⟨id, conn⟩)).2
        | @timeout id conn =>
            exact h.closed_outsider c
              (hinv.outsider c (Or.inr ⟨id, conn⟩)).2
        | readError conn => exact h.closed c (hdrained c rfl)
        | quit conn => exact h.closed c (hdrained c rfl)
      exact hclosed
  | dispatch s c p n conn d =>
      exact h.dispatched hinv conn d hsends hdrained
  | receive s g' idle front =>
      refine h.grow ?_ ?_ (fun _ _ _ => rfl)
      · intro g q hq
        by_cases hg : g = g'
        · subst hg
          simpa [inFlight, received, idle, front] using hq
        · simpa [inFlight, received, hg] using hq
      · intro g d hd
        simpa using hd
  | broadCast s g' holding writes =>
      refine h.grow ?_ ?_ (fun _ _ _ => rfl)
      · intro g q hq
        by_cases hg : g = g'
        · subst hg
          have hch : q ∈ (s.game g).ch := by
            simpa [inFlight, broadcasted] using hq
          exact List.mem_append_right _ hch
        · simpa [inFlight, broadcasted, hg] using hq
      · intro g d hd
        simpa using hd

/-- So do runs of such steps. -/
theorem of_run
    {vf : ValidationFunc} {tr : List ServerTransition}
    (run : ServerRun vf tr s)
    (cond : ∀ t ∈ tr, SendsInGame t ∧ LeavesDrained t) :
    Backed s :=
  (run.invariant_where (I := fun s => Inv s ∧ Backed s)
    ⟨inv_newTCPServer vf, fun g p hp => by
      simp [inFlight, newTCPServer, noGame] at hp⟩
    (fun _ valid ht h => ⟨h.1.valid valid,
      Backed.move (move_of_valid valid) h.1 ht h.2⟩) cond).2

end Backed

/-- A packet that is broadcast was in flight before the step. -/
theorem inFlight_of_relayed
    {t : ServerTransition} {g : GamePtr} {p : Packet}
    (hp : p ∈ relayed g t) :
    p ∈ inFlight g t.pre := by
  unfold relayed at hp
  split at hp
  case h_1 g' hevent =>
    split_ifs at hp with hg
    · exact List.mem_append_left _ hp
    · cases hp
  case h_2 => cases hp

/--
In every run, packets enter the channels of games from current members only
exactly when every client that sends with its own id is in a game.  If also no
client leaves a game in which it has a packet in flight, and no id is issued
twice, no packet is ever broadcast in a game that carries the id of a client
outside of it.
-/
theorem injection
    {vf : ValidationFunc} {tr : List ServerTransition} {s : TCPServer}
    (run : ServerRun vf tr s) :
    (InjectedByMembers tr ↔ ∀ t ∈ tr, SendsInGame t) ∧
    ((∀ t ∈ tr, SendsInGame t ∧ LeavesDrained t) → DistinctIDs tr →
      ∀ t ∈ tr, ∀ g, ∀ p ∈ relayed g t, ∀ c id, SignedIn c id tr →
        c ∉ (t.pre.game g).clients → embeddedID p ≠ id) := by
  refine ⟨⟨?_, ?_⟩, ?_⟩
  · intro h t ht
    cases event : t.event with
    | packet c p n =>
        rw [SendsInGame, event]
        intro conn type own hnone
        obtain ⟨g, hg⟩ := exists_queued (moves_of_run run t ht) event conn
          type own
        obtain ⟨hmem, hid⟩ := h t ht g c p hg
        have hinv := inv_of_run_pre run t ht
        exact hinv.id_ne_nil (hinv.allocated_of_member hmem)
          (hid.symm.trans hnone)
    | _ =>
        rw [SendsInGame, event]
        trivial
  · intro h t ht g c p hc
    obtain ⟨⟨n, event⟩, conn, type, own, -⟩ := mem_queued.mp hc
    have hsends := h t ht
    rw [SendsInGame, event] at hsends
    exact injected_of_inGame (inv_of_run_pre run t ht) hc
      (hsends conn type own)
  · intro hcond hdistinct t ht g p hp c id hid hout hpid
    obtain ⟨first, rest, rfl⟩ := List.append_of_mem ht
    have hbacked := Backed.of_run run.before.1
      (fun t' ht' => hcond t' (List.mem_append_left _ ht'))
    obtain ⟨d, hd, hdid⟩ := hbacked g p (inFlight_of_relayed hp)
    have hpre := connHistory_of_run run.before.1 d
    obtain ⟨id', hid'⟩ := hpre.member g hd
    rw [hpre.known id' hid'] at hdid
    have hsame : d = c := by
      refine hdistinct d c id ?_ hid.issued_eq
      rw [← hpid, ← hdid]
      exact (hid'.append _).issued_eq
    exact hout (hsame ▸ hd)

/-- The creator of a game leaves it and sends a game state afterwards. -/
def injectEvents : List Event :=
  signIn 0 0 ++ signIn 1 1 ++
    [.packet 0 (constructPacket encString packetCreateGame []) 7,
      .packet 1 (constructPacket encString packetJoinGame
        (generateGameId 7)) 0,
      .packet 0 (constructPacket encString packetLeaveGame []) 0,
      .packet 0 (statePacket 0 [9]) 0,
      .receive 0,
      .broadCast 0]

/-- What is queued, with whether its sender is listed in the game. -/
def queuedBy (g : GamePtr) (t : ServerTransition) :
    List (ClientPtr × Packet × Bool) :=
  (queued g t).map (fun cp =>
    (cp.1, cp.2, decide (cp.1 ∈ (t.pre.game g).clients)))

/-- The game state reaches the former opponent. -/
theorem injection_after_leave :
    ∃ tr s, ServerRun nopValidationFunc tr s ∧
      tr.map Transition.event = injectEvents ∧
      tr.flatMap (queuedBy 0) = [(0, statePacket 0 [9], false)] ∧
      (tr.getLast?.map (fun t => ((t.pre.game 0).clients, t.out))) =
        some ([1], [⟨1, (statePacket 0 [9]).data⟩]) ∧
      ¬ InjectedByMembers tr := by
  have hexec : (serverSystem.exec (newTCPServer nopValidationFunc)
      injectEvents).map (fun r => (r.1.flatMap (queuedBy 0),
        r.1.getLast?.map (fun t => ((t.pre.game 0).clients, t.out)))) =
      some ([(0, statePacket 0 [9], false)],
        some ([1], [⟨1, (statePacket 0 [9]).data⟩])) := by
    decide +kernel
  obtain ⟨tr, s, hrun, hevents, hend⟩ := System.run_of_exec hexec
  simp only [Prod.mk.injEq] at hend
  obtain ⟨hqueued, hlast⟩ := hend
  refine ⟨tr, s, hrun, hevents, hqueued, hlast, fun h => ?_⟩
  have hmem : (0, statePacket 0 [9], false) ∈ tr.flatMap (queuedBy 0) := by
    rw [hqueued]
    exact List.mem_singleton_self _
  obtain ⟨t, ht, hmem⟩ := List.mem_flatMap.mp hmem
  obtain ⟨⟨c, p⟩, hc, heq⟩ := List.mem_map.mp hmem
  simp only [Prod.mk.injEq, decide_eq_false_iff_not] at heq
  exact heq.2.2 (h t ht 0 c p hc).1

/-- The creator of a game leaves it when its game state is out. -/
def drainedEvents : List Event :=
  signIn 0 0 ++ signIn 1 1 ++
    [.packet 0 (constructPacket encString packetCreateGame []) 7,
      .packet 1 (constructPacket encString packetJoinGame
        (generateGameId 7)) 0,
      .packet 0 (statePacket 0 [9]) 0,
      .receive 0,
      .broadCast 0,
      .packet 0 (constructPacket encString packetLeaveGame []) 0,
      .packet 1 (statePacket 1 [5]) 0,
      .receive 0,
      .broadCast 0]

/-- What is broadcast afterwards does not carry its id. -/
theorem injection_member :
    ∃ tr s, ServerRun nopValidationFunc tr s ∧
      tr.map Transition.event = drainedEvents ∧
      tr.flatMap (queuedBy 0) =
        [(0, statePacket 0 [9], true), (1, statePacket 1 [5], true)] ∧
      InjectedByMembers tr ∧
      ∃ t ∈ tr, relayed 0 t = [statePacket 1 [5]] ∧
        (t.pre.game 0).clients = [1] ∧
        embeddedID (statePacket 1 [5]) ≠ generateClientId 0 := by
  have hexec : (serverSystem.exec (newTCPServer nopValidationFunc)
      drainedEvents).map (fun r => (r.1.flatMap (queuedBy 0),
        r.1.all (fun t => decide (SendsInGame t ∧
          ∀ c ∈ handlerOf t.event, Departs t.pre c t.event →
            ∀ g < t.pre.allocated, c ∈ (t.pre.game g).clients →
              ∀ p ∈ inFlight g t.pre,
                embeddedID p ≠ (t.pre.client c).clientID)),
        decide (∀ x ∈ r.1.filterMap issues, ∀ y ∈ r.1.filterMap issues,
          x.2 = y.2 → x.1 = y.1),
        decide (issued 0 r.1 = some (generateClientId 0) ∧
          firstPacket 0 r.1 = some (constructPacket encBytes packetAuth
            (generateClientId 0))),
        r.1.getLast?.map (fun t => decide (relayed 0 t =
          [statePacket 1 [5]] ∧ (t.pre.game 0).clients = [1])))) =
      some ([(0, statePacket 0 [9], true), (1, statePacket 1 [5], true)],
        true, true, true, some true) := by
    decide +kernel
  obtain ⟨tr, s, hrun, hevents, hend⟩ := System.run_of_exec hexec
  simp only [Prod.mk.injEq, List.all_eq_true, decide_eq_true_eq,
    Option.map_eq_some_iff] at hend
  obtain ⟨hqueued, hsteps, hissues, ⟨hissued, hfirst⟩, t, hlast, hrelayed,
    hclients⟩ := hend
  have ht : t ∈ tr := List.mem_of_getLast? hlast
  have hcond : ∀ t ∈ tr, SendsInGame t ∧ LeavesDrained t := fun t ht =>
    ⟨(hsteps t ht).1,
      leavesDrained_of_allocated (inv_of_run_pre hrun t ht) (hsteps t ht).2⟩
  have hsigned : SignedIn 0 (generateClientId 0) tr :=
    ⟨hissued, _, hfirst, by decide +kernel, by decide +kernel⟩
  obtain ⟨hmembers, houtsiders⟩ := injection hrun
  refine ⟨tr, s, hrun, hevents, hqueued,
    hmembers.mpr fun t ht => (hcond t ht).1, t, ht, hrelayed, hclients, ?_⟩
  exact houtsiders hcond (distinctIDs_of_issues hissues) t ht 0 _
    (by rw [hrelayed]; exact List.mem_cons_self) 0 _ hsigned
    (by rw [hclients]; decide)

end Injection

end Server
end TurnBasedGame
