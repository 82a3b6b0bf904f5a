import TurnBasedGame.Kernel.Log
import TurnBasedGame.Server.Authentication

/-!
# Broadcast delivery and order

For each game there is one log of the packets taken out of its channel, and
for each client the packets of that log that are due to it.  What a client is
sent on behalf of the game is what is due to it, so all members see the
packets they have in common in one order, the order in which `readLoop` took
them out of the channel.
-/

namespace TurnBasedGame
namespace Server

open Kernel

section Broadcast

open TCPServer

/-- What is written to a client on behalf of a game in a step. -/
def delivered (c : ClientPtr) (g : GamePtr) (t : ServerTransition) :
    List (List UInt8) :=
  match t.event with
  | .broadCast g' =>
      if g' = g then (t.out.filter (fun w => w.dest = c)).map Write.data
      else []
  | _ => []

/--
A packet is due to a client if it passes the validation function of the game
while the client is in the game and carries the id of another client.
-/
def Due (c : ClientPtr) (g : GamePtr) (s : TCPServer) (p : Packet) : Prop :=
  (s.game g).validationFunc p = .ok none ∧ c ∈ (s.game g).clients ∧
    (s.client c).clientID ≠ embeddedID p

instance (c : ClientPtr) (g : GamePtr) (s : TCPServer) :
    DecidablePred (Due c g s) := fun _ =>
  inferInstanceAs (Decidable (_ ∧ _ ∧ _))

/-- The packet a step broadcasts, marked if it is due to the client. -/
def markedFor (c : ClientPtr) (g : GamePtr) (t : ServerTransition) :
    List (Packet × Bool) :=
  (relayed g t).map (fun p => (p, decide (Due c g t.pre p)))

/-- The packets due to a client, with their positions among those dequeued. -/
def dueTo (c : ClientPtr) (g : GamePtr) (tr : List ServerTransition) :
    List (Packet × Nat) :=
  marked (tr.flatMap (markedFor c g))

/-- The packets a client puts into the channel of a game. -/
def queuedFrom (c : ClientPtr) (g : GamePtr)
    (tr : List ServerTransition) : List Packet :=
  ((tr.flatMap (queued g)).filter (fun cp => cp.1 = c)).map Prod.snd

variable {vf : ValidationFunc} {tr : List ServerTransition} {s : TCPServer}
variable {c : ClientPtr} {g : GamePtr}

theorem markedFor_map_fst
    (c : ClientPtr) (g : GamePtr) (tr : List ServerTransition) :
    (tr.flatMap (markedFor c g)).map Prod.fst = tr.flatMap (relayed g) := by
  rw [List.map_flatMap]
  congr 1
  funext t
  rw [markedFor, List.map_map]
  exact List.map_id _

/-- The writes of one broadcast to one client. -/
theorem filter_dest
    {clients : List ClientPtr}
    (hnodup : clients.Nodup)
    (P : ClientPtr → Prop) [DecidablePred P]
    (data : List UInt8) (c : ClientPtr) :
    ((((clients.filter (fun d => P d)).map
      (fun d => (⟨d, data⟩ : Write))).filter (fun w => w.dest = c)).map
        Write.data) =
      if c ∈ clients ∧ P c then [data] else [] := by
  have hfilter : (clients.filter (fun d => P d)).filter (fun d => d = c) =
      if c ∈ clients ∧ P c then [c] else [] := by
    have hnodup' : (clients.filter (fun d => P d)).Nodup :=
      hnodup.filter _
    rw [List.filter_eq]
    split_ifs with hc
    · have hmem : c ∈ clients.filter (fun d => P d) := by simpa using hc
      rw [List.count_eq_one_of_mem hnodup' hmem]
      rfl
    · have hmem : c ∉ clients.filter (fun d => P d) := by simpa using hc
      rw [List.count_eq_zero.mpr hmem]
      rfl
  rw [List.filter_map, List.map_map]
  have hcomp : (fun w : Write => decide (w.dest = c)) ∘
      (fun d => (⟨d, data⟩ : Write)) = fun d => decide (d = c) := rfl
  rw [hcomp, hfilter]
  split_ifs <;> rfl

/-- A step delivers to a client what it broadcasts and is due to it. -/
theorem delivered_eq
    {t : ServerTransition}
    (m : Move t)
    (nodup : ((t.pre.game g).clients).Nodup)
    (relayable : ∀ p ∈ inFlight g t.pre, Relayable p) :
    delivered c g t =
      ((markedFor c g t).filter Prod.snd).map (fun x => x.1.data) := by
  cases m with
  | broadCast s g' holding writes =>
      by_cases hg : g' = g
      swap
      · simp [delivered, markedFor, relayed, hg]
      subst hg
      rename_i p out
      have hp : Relayable p := relayable p (by simp [inFlight, holding])
      have hrelayed : relayed g' ⟨s, .broadCast g', out,
          s.broadcasted g'⟩ = [p] := by
        simp [relayed, holding]
      rw [markedFor, hrelayed]
      rw [hp.broadCast_eq] at writes
      cases hvf : (s.game g').validationFunc p with
      | error e => simp [hvf] at writes
      | ok err =>
          cases err with
          | some err =>
              have hout : out = [] := by simpa [hvf] using writes.symm
              simp [delivered, hout, Due, hvf]
          | none =>
              have hout := by simpa only [hvf, Except.ok.injEq] using writes
              have hdest := filter_dest nodup
                (fun d => (s.client d).clientID ≠ embeddedID p) p.data c
              simp only [delivered, if_true, ← hout]
              rw [hdest]
              by_cases hdue : c ∈ (s.game g').clients ∧
                  (s.client c).clientID ≠ embeddedID p
              · simp [Due, hvf, hdue]
              · rw [if_neg hdue]
                simp [Due, hvf, hdue]
  | accept => rfl
  | authenticate => rfl
  | close s d closes => cases closes <;> rfl
  | dispatch => rfl
  | receive => rfl

/-- What a whole run delivers to a client is what is due to it. -/
theorem delivered_eq_dueTo
    (run : ServerRun vf tr s)
    (c : ClientPtr) (g : GamePtr) :
    tr.flatMap (delivered c g) =
      (dueTo c g tr).map (fun x => x.1.data) := by
  have hstep : ∀ t ∈ tr, delivered c g t =
      ((markedFor c g t).filter Prod.snd).map (fun x => x.1.data) := by
    intro t ht
    obtain ⟨first, rest, rfl⟩ := List.append_of_mem ht
    exact delivered_eq (moves_of_run run t ht)
      ((inv_of_run_pre run t ht).nodup g)
      (fun p hp => relayable_of_inFlight run.before.1 hp)
  have hdue : (dueTo c g tr).map (fun x => x.1.data) =
      ((tr.flatMap (markedFor c g)).filter Prod.snd).map
        (fun x => x.1.data) := by
    have hfst := congrArg (List.map Packet.data)
      (marked_map_fst (tr.flatMap (markedFor c g)))
    rwa [List.map_map, List.map_map] at hfst
  rw [hdue, List.filter_flatMap, List.map_flatMap]
  exact List.flatMap_congr hstep

/-- The packets due to a client are among those dequeued, in order. -/
theorem dueTo_sublist
    (run : ServerRun vf tr s)
    (c : ClientPtr) (g : GamePtr) :
    (dueTo c g tr).Sublist (tr.flatMap (dequeued g)).zipIdx := by
  have hsub := marked_sublist (tr.flatMap (markedFor c g))
  rw [markedFor_map_fst] at hsub
  refine hsub.trans ?_
  rw [hand_log run g, List.zipIdx_append]
  exact List.sublist_append_left _ _

/-- With distinct ids, a sender is known by the id its packets carry. -/
theorem queuedFrom_eq
    (run : ServerRun vf tr s)
    (distinct : DistinctIDs tr)
    {id : ClientID}
    (signedIn : SignedIn c id tr) :
    ((tr.flatMap (queued g)).map Prod.snd).filter
        (fun p => embeddedID p = id) =
      queuedFrom c g tr := by
  rw [queuedFrom, List.filter_map]
  congr 1
  refine List.filter_congr fun cp hcp => ?_
  obtain ⟨t, ht, hc⟩ := List.mem_flatMap.mp hcp
  have hid := signedIn_of_queued run ht hc
  have hiff : embeddedID cp.2 = id ↔ cp.1 = c := by
    constructor
    · intro heq
      exact distinct cp.1 c id (heq ▸ hid.issued_eq) signedIn.issued_eq
    · intro heq
      rw [heq] at hid
      exact hid.unique signedIn
  simp [hiff]

/-- What is taken out of the channel of one sender was queued first. -/
theorem dequeued_prefix
    (run : ServerRun vf tr s)
    (distinct : DistinctIDs tr)
    {id : ClientID}
    (signedIn : SignedIn c id tr) :
    (tr.flatMap (dequeued g)).filter (fun p => embeddedID p = id) <+:
      queuedFrom c g tr := by
  rw [← queuedFrom_eq run distinct signedIn, channel_log run g,
    List.filter_append]
  exact List.prefix_append _ _

/-- The packets the handlers construct have the type they are given. -/
theorem getType_writePacket
    (c : ClientPtr) (enc : Encoding) {type : PacketType}
    (htype : type < 64) (henc : enc < 4)
    (data : List UInt8) :
    Packet.getType ⟨(writePacket c enc type data).data⟩ = .ok type :=
  (constructPacket_read data henc htype).2.1

/--
What a handler writes in a step: the reply to a request that created a game,
or a packet of a type that is neither that nor a game state.
-/
inductive HandlerWrite (t : ServerTransition) : Write → Prop
  | created {c : ClientPtr} {p : Packet} {n : GameDraw}
      (event : t.event = .packet c p n)
      (conn : t.pre.conn c = .serving)
      (type : p.getType = .ok packetCreateGame)
      (noGame : (t.pre.client c).gameID = [])
      (post : t.post = t.pre.created c n) :
      HandlerWrite t
        (writePacket c encString packetCreateGameSuccess (generateGameId n))
  | other {c : ClientPtr} {enc : Encoding} {type : PacketType}
      {data : List UInt8}
      (kind : enc < 4 ∧ type < 64 ∧ type ≠ packetCreateGameSuccess ∧
        type ≠ packetGameState) :
      HandlerWrite t (writePacket c enc type data)

/-- The writes of all steps but broadcasts are writes of handlers. -/
theorem handlerWrite_of_move
    {t : ServerTransition}
    (m : Move t)
    (event : ∀ g, t.event ≠ .broadCast g)
    {w : Write}
    (hw : w ∈ t.out) :
    HandlerWrite t w := by
  have hclosed : ∀ (s : TCPServer) (c : ClientPtr),
      w ∈ (s.closed c).writes → HandlerWrite t w := by
    intro s c hw
    rcases GameManager.departed_cases (s.setRegistered c false) c with
      ⟨-, heq⟩ | ⟨-, -, heq⟩ | ⟨g, -, -, heq⟩ <;> rw [closed, heq] at hw
    · cases hw
    · cases hw
    · rw [List.mem_singleton.mp hw]
      exact .other (by decide)
  cases m with
  | accept s c n conn =>
      rw [List.mem_singleton.mp hw]
      exact .other (by decide)
  | authenticate => cases hw
  | close s c closes => exact hclosed s c hw
  | dispatch s c p n conn d =>
      cases d with
      | ignored => cases hw
      | started => cases hw
      | sent => cases hw
      | disconnected => exact hclosed s c hw
      | created type noGame =>
          rw [List.mem_singleton.mp hw]
          exact .created rfl conn type noGame rfl
      | _ =>
          rw [List.mem_singleton.mp hw]
          exact .other (by decide)
  | receive => cases hw
  | broadCast s g => exact absurd rfl (event g)

/-- No step but a broadcast writes a game-state packet. -/
theorem not_gameState_of_move
    {t : ServerTransition}
    (m : Move t)
    (event : ∀ g, t.event ≠ .broadCast g)
    {w : Write}
    (hw : w ∈ t.out) :
    Packet.getType ⟨w.data⟩ ≠ .ok packetGameState := by
  cases handlerWrite_of_move m event hw with
  | created =>
      rw [getType_writePacket _ _ (by decide) (by decide)]
      decide
  | other kind =>
      rw [getType_writePacket _ _ kind.2.1 kind.1]
      exact fun heq => kind.2.2.2 (Except.ok.inj heq)

/--
Broadcast delivery and order, for every run and every game.  What was queued
was dequeued in that order or is in the channel, and what was dequeued was
broadcast once in that order or is in hand.  A client is sent exactly what
is due to it of the packets dequeued, each once and in order, and game states
are written by broadcasts only.  With distinct ids, the packets dequeued of
each sender are a prefix of those it queued.  Any two clients receive
the packets they have in common in the same order.
-/
theorem broadcast_delivery
    (run : ServerRun vf tr s)
    (g : GamePtr) :
    ((tr.flatMap (queued g)).map Prod.snd =
      tr.flatMap (dequeued g) ++ (s.game g).ch) ∧
    (tr.flatMap (dequeued g) =
      tr.flatMap (relayed g) ++ (s.game g).holding.toList) ∧
    (∀ c, tr.flatMap (delivered c g) =
        (dueTo c g tr).map (fun x => x.1.data) ∧
      (dueTo c g tr).Sublist (tr.flatMap (dequeued g)).zipIdx) ∧
    (∀ t ∈ tr, (∀ g, t.event ≠ .broadCast g) → ∀ w ∈ t.out,
      Packet.getType ⟨w.data⟩ ≠ .ok packetGameState) ∧
    (DistinctIDs tr → ∀ c id, SignedIn c id tr →
      (tr.flatMap (dequeued g)).filter (fun p => embeddedID p = id) <+:
        queuedFrom c g tr) ∧
    (∀ c d, (dueTo c g tr).filter (· ∈ dueTo d g tr) =
      (dueTo d g tr).filter (· ∈ dueTo c g tr)) := by
  refine ⟨channel_log run g, hand_log run g, ?_, ?_, ?_, ?_⟩
  · intro c
    exact ⟨delivered_eq_dueTo run c g, dueTo_sublist run c g⟩
  · intro t ht event w hw
    exact not_gameState_of_move (moves_of_run run t ht) event hw
  · intro hdistinct c id hid
    exact dequeued_prefix run hdistinct hid
  · intro c d
    refine marked_common ?_
    rw [markedFor_map_fst, markedFor_map_fst]

/-- Two members of a game send one game state each. -/
def relayEvents : List Event :=
  signIn 0 0 ++ signIn 1 1 ++
    [.packet 0 (constructPacket encString packetCreateGame []) 7,
      .packet 1 (constructPacket encString packetJoinGame
        (generateGameId 7)) 0,
      .packet 0 (statePacket 0 [9]) 0,
      .packet 1 (statePacket 1 [5]) 0,
      .receive 0, .broadCast 0, .receive 0, .broadCast 0]

/-- Each of them receives the game state of the other. -/
theorem broadcast_delivery_two :
    ∃ tr s, ServerRun nopValidationFunc tr s ∧
      tr.map Transition.event = relayEvents ∧
      dueTo 0 0 tr = [(statePacket 1 [5], 1)] ∧
      dueTo 1 0 tr = [(statePacket 0 [9], 0)] ∧
      tr.flatMap (delivered 1 0) = [(statePacket 0 [9]).data] := by
  have hexec : (serverSystem.exec (newTCPServer nopValidationFunc)
      relayEvents).map (fun r => (dueTo 0 0 r.1, dueTo 1 0 r.1)) =
      some ([(statePacket 1 [5], 1)], [(statePacket 0 [9], 0)]) := by
    decide +kernel
  obtain ⟨tr, s, hrun, hevents, hend⟩ := System.run_of_exec hexec
  simp only [Prod.mk.injEq] at hend
  obtain ⟨hzero, hone⟩ := hend
  obtain ⟨-, -, hdelivered, -⟩ := broadcast_delivery hrun 0
  exact ⟨tr, s, hrun, hevents, hzero, hone,
    by rw [(hdelivered 1).1, hone]; rfl⟩

end Broadcast

end Server
end TurnBasedGame
