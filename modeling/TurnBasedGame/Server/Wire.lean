import TurnBasedGame.Server.Broadcast
import TurnBasedGame.Server.Pipeline

/-!
# From the server to the clients

The way back: what the server writes to a client, and what a client that reads
with a framer of its own makes of it.  Everything the server writes is a frame,
also the game states, which it relays byte for byte as they were cut from the
stream of their sender.  So the writes to a client can be taken apart again,
and a game state that a client gets can be traced back to the socket of the
client whose id it carries.
-/

namespace TurnBasedGame
namespace Server

open Kernel
open PacketFramer

section Wire

/-- The most data a handler puts into a packet of its own. -/
def maxReplySize : Nat := 256

/-- A packet that a handler makes for its client. -/
structure IsReply (w : Write) : Prop where
  made : ∃ enc type data, w.data = (constructPacket enc type data).data ∧
    enc < 4 ∧ type < 64 ∧ type ≠ packetGameState ∧
      data.length ≤ maxReplySize

theorem isReply_writePacket
    (c : ClientPtr) {enc : Encoding} {type : PacketType} {data : List UInt8}
    (kind : enc < 4 ∧ type < 64 ∧ type ≠ packetGameState)
    (size : data.length ≤ maxReplySize) :
    IsReply (writePacket c enc type data) :=
  ⟨enc, type, data, rfl, kind.1, kind.2.1, kind.2.2, size⟩

/-- Every error fits into a reply. -/
theorem constructErrorData_length
    (err : ServerError) :
    (constructErrorData err).length ≤ maxReplySize := by
  cases err <;> decide +kernel

/-- A reply is a frame and no game state. -/
theorem IsReply.isFrame
    {w : Write}
    (h : IsReply w) :
    packetFraming.IsFrame w.data ∧
      Packet.getType ⟨w.data⟩ ≠ .ok packetGameState := by
  obtain ⟨enc, type, data, hdata, henc, htype, hother, hlen⟩ := h.made
  simp only [maxReplySize] at hlen
  have hsize : data.length + packetHeaderSize < packetMaxSize := by
    simp only [packetHeaderSize, packetMaxSize]
    omega
  have hframe := WirePacket.isFrame ⟨enc, type, data, henc, htype, hsize⟩
  rw [hdata]
  refine ⟨hframe, ?_⟩
  rw [(constructPacket_read data henc htype).2.1]
  simpa using hother

section Replies

open TCPServer

/-- What a disconnect writes. -/
theorem isReply_departed
    (s : TCPServer) (c : ClientPtr) :
    ∀ w ∈ (GameManager.departed s c).writes, IsReply w := by
  intro w hw
  rcases GameManager.departed_cases s c with
    ⟨-, heq⟩ | ⟨-, -, heq⟩ | ⟨g, -, -, heq⟩ <;> rw [heq] at hw
  · cases hw
  · cases hw
  · rw [List.mem_singleton.mp hw]
    exact isReply_writePacket c (by decide) (Nat.zero_le _)

/-- What the request handlers write. -/
theorem TCPServer.Dispatched.isReply
    {s s' : TCPServer} {c : ClientPtr} {p : Packet} {n : GameDraw}
    {out : List Write}
    (hinv : Inv s)
    (d : Dispatched s c p n s' out) :
    ∀ w ∈ out, IsReply w := by
  intro w hw
  cases d with
  | ignored => cases hw
  | started => cases hw
  | sent => cases hw
  | refused refuses =>
      rw [List.mem_singleton.mp hw]
      exact isReply_writePacket c (by decide) (constructErrorData_length _)
  | healthy =>
      rw [List.mem_singleton.mp hw]
      exact isReply_writePacket c (by decide) (by decide +kernel)
  | created =>
      rw [List.mem_singleton.mp hw]
      exact isReply_writePacket c (by decide)
        (by rw [generateGameId_length]; decide)
  | joined type data_eq noGame length_eq registered =>
      obtain ⟨hlt, -⟩ := hinv.registered _ _ registered
      rw [List.mem_singleton.mp hw]
      exact isReply_writePacket c (by decide)
        (by rw [hinv.id_length _ hlt]; decide)
  | left =>
      rw [List.mem_singleton.mp hw]
      exact isReply_writePacket c (by decide) (Nat.zero_le _)
  | disconnected => exact isReply_departed _ c w hw

/-- All writes but those of a broadcast are replies. -/
theorem TCPServer.Move.isReply
    {t : ServerTransition}
    (m : Move t)
    (hinv : Inv t.pre)
    (event : ∀ g, t.event ≠ .broadCast g) :
    ∀ w ∈ t.out, IsReply w := by
  intro w hw
  cases m with
  | accept s c n conn =>
      rw [List.mem_singleton.mp hw]
      exact isReply_writePacket c (by decide)
        (by rw [generateClientId_length]; decide)
  | authenticate => cases hw
  | close s c closes => exact isReply_departed _ c w hw
  | dispatch s c p n conn d => exact d.isReply hinv w hw
  | receive => cases hw
  | broadCast s g holding writes => exact absurd rfl (event g)

end Replies

/-- A packet that a framer sends with a whole header is a frame. -/
theorem isFrame_of_sent
    {tr : List FramerTransition} {s : FramerState}
    (run : framerSystem.Run freshFramer tr s)
    {p : Packet}
    (hp : p ∈ sentPackets tr)
    (hsize : packetHeaderSize ≤ p.data.length) :
    packetFraming.IsFrame p.data := by
  obtain ⟨t, ht, hout⟩ := List.mem_flatMap.mp hp
  have move := framerMove_of_run run newPacketFramer_inRange t ht
  refine move.isFrame (fun _ hwraps => ?_) p hout
  cases move with
  | emitted q n complete =>
      -- a wrapped length is shorter than a header
      have hlt := lengthField_lt q.live
      have hn := Verdict.complete.inj
        (complete.symm.trans (LengthWraps.complete hwraps))
      rw [List.mem_singleton.mp hout, List.length_take] at hsize
      simp only [packetHeaderSize] at hsize hn
      omega
  | _ => cases hout

variable {vf : ValidationFunc} {tr : List ProcessTransition} {s : Process}
variable {c d : ClientPtr} {g : GamePtr}

/-- A packet of a client was sent by its framer. -/
theorem sent_of_served
    (run : ProcessRun vf tr s)
    {p : Packet}
    (hp : p ∈ served c tr) :
    p ∈ sentPackets (clientFramerTrace c tr) := by
  rw [← served_queue run c]
  exact List.mem_append_left _ hp

/-- A packet that a client has put into a game was served to it. -/
theorem served_of_queued
    {t : ServerTransition} {p : Packet}
    (ht : t ∈ serverTrace tr)
    (h : (c, p) ∈ queued g t) :
    p ∈ served c tr := by
  obtain ⟨⟨n, hevent⟩, -⟩ := mem_queued.mp h
  exact List.mem_flatMap.mpr ⟨t, ht, by simp [framedIn, hevent]⟩

/-- Whom a broadcast writes to. -/
theorem due_of_broadCast
    {tr : List ServerTransition} {s : TCPServer}
    (run : ServerRun vf tr s)
    {t : ServerTransition}
    (ht : t ∈ tr)
    (event : t.event = .broadCast g)
    {w : Write}
    (hw : w ∈ t.out) :
    w.dest ∈ (t.pre.game g).clients ∧
      (t.pre.client w.dest).clientID ≠ embeddedID ⟨w.data⟩ ∧
      Relayable ⟨w.data⟩ := by
  obtain ⟨first, rest, rfl⟩ := List.append_of_mem ht
  obtain ⟨hfirst, hvalid, -⟩ := run.before
  have hrelayable : ∀ p ∈ inFlight g t.pre, Relayable p :=
    fun p hp => relayable_of_inFlight hfirst hp
  have heq := delivered_eq (c := w.dest) (g := g)
    (TCPServer.move_of_valid hvalid) ((inv_of_run hfirst).nodup g) hrelayable
  have hmem : w.data ∈ delivered w.dest g t := by
    simp only [delivered, event, if_true, List.mem_map, List.mem_filter]
    exact ⟨w, ⟨hw, by simp⟩, rfl⟩
  rw [heq] at hmem
  obtain ⟨⟨p, b⟩, hfilter, hdata⟩ := List.mem_map.mp hmem
  obtain ⟨hmarked, hb⟩ := List.mem_filter.mp hfilter
  obtain ⟨q, hq, hpair⟩ := List.mem_map.mp hmarked
  simp only [Prod.mk.injEq] at hpair hb
  obtain ⟨rfl, rfl⟩ := hpair
  have hdue : Due w.dest g t.pre q := by simpa using hb
  have hflight : q ∈ inFlight g t.pre := by
    simp only [relayed, event, if_true] at hq
    exact List.mem_append_left _ hq
  have hpkt : (⟨w.data⟩ : Packet) = q := by
    rw [← hdata]
  rw [hpkt]
  exact ⟨hdue.2.1, hdue.2.2, hrelayable q hflight⟩

/-- Where a game state that a client is written comes from. -/
structure Relayed (c d : ClientPtr) (tr : List ProcessTransition)
    (data : List UInt8) : Prop where
  /-- It was served to another client. -/
  served : ⟨data⟩ ∈ served c tr
  other : c ≠ d
  /-- That client has the id it carries, and has proved so. -/
  signedIn : SignedIn c (embeddedID ⟨data⟩) (serverTrace tr)

/-- What a broadcast writes was served to the client whose id it carries. -/
theorem relayed_of_broadCast
    (run : ProcessRun vf tr s)
    {t : ServerTransition}
    (ht : t ∈ serverTrace tr)
    (event : t.event = .broadCast g)
    {w : Write}
    (hw : w ∈ t.out) :
    packetFraming.IsFrame w.data ∧
      Packet.getType ⟨w.data⟩ = .ok packetGameState ∧
      ∃ c, Relayed c w.dest tr w.data := by
  have hserver := serverRun_of_run run
  obtain ⟨hmember, hother, hrelayable⟩ := due_of_broadCast hserver ht event hw
  obtain ⟨t', ht', c, hqueued⟩ := queued_of_broadCast hserver ht event hw
  have hserved := served_of_queued ht' hqueued
  have hsigned := signedIn_of_queued hserver ht' hqueued
  have hheader : packetHeaderSize ≤ w.data.length :=
    (Nat.le_add_right _ _).trans hrelayable.size
  refine ⟨isFrame_of_sent (clientFramerRun run c) (sent_of_served run hserved)
    hheader, hrelayable.type, c, hserved, ?_, hsigned⟩
  rintro rfl
  -- a member has signed in, and its id has not changed since
  obtain ⟨first, rest, hsplit⟩ := List.append_of_mem ht
  rw [hsplit] at hserver hsigned
  obtain ⟨hfirst, -, -⟩ := hserver.before
  have hhistory := connHistory_of_run hfirst w.dest
  obtain ⟨id, hid⟩ := hhistory.member g hmember
  have hsame := (hid.append (t :: rest)).unique hsigned
  exact hother ((hhistory.known id hid).trans hsame)

/-- Every write is a reply of a handler or a relayed game state. -/
theorem write_cases
    (run : ProcessRun vf tr s)
    {w : Write}
    (hw : w ∈ tr.flatMap Transition.out) :
    packetFraming.IsFrame w.data ∧
      (IsReply w ∨
        Packet.getType ⟨w.data⟩ = .ok packetGameState ∧
          ∃ c, Relayed c w.dest tr w.data) := by
  have hserver := serverRun_of_run run
  rw [← serverTrace_out run] at hw
  obtain ⟨t, ht, hout⟩ := List.mem_flatMap.mp hw
  by_cases hevent : ∃ g, t.event = .broadCast g
  · obtain ⟨g, hevent⟩ := hevent
    obtain ⟨hframe, htype, hrelayed⟩ := relayed_of_broadCast run ht hevent hout
    exact ⟨hframe, Or.inr ⟨htype, hrelayed⟩⟩
  · obtain ⟨first, rest, hsplit⟩ := List.append_of_mem ht
    rw [hsplit] at hserver
    obtain ⟨hfirst, hvalid, -⟩ := hserver.before
    have hreply := (TCPServer.move_of_valid hvalid).isReply
      (inv_of_run hfirst) (fun g h => hevent ⟨g, h⟩) w hout
    exact ⟨hreply.isFrame.1, Or.inl hreply⟩

/-- The writes to a client, in order. -/
def sentTo (d : ClientPtr) (tr : List ProcessTransition) :
    List (List UInt8) :=
  ((tr.flatMap Transition.out).filter (fun w => w.dest = d)).map Write.data

theorem mem_sentTo
    {d : ClientPtr} {tr : List ProcessTransition} {data : List UInt8} :
    data ∈ sentTo d tr ↔ ⟨d, data⟩ ∈ tr.flatMap Transition.out := by
  simp only [sentTo, List.mem_map, List.mem_filter, decide_eq_true_eq]
  constructor
  · rintro ⟨w, ⟨hw, rfl⟩, rfl⟩
    exact hw
  · exact fun hw => ⟨⟨d, data⟩, ⟨hw, rfl⟩, rfl⟩

/-- A client that reads with a framer follows what is written to it. -/
theorem follows_of_client
    (run : ProcessRun vf tr s)
    (d : ClientPtr)
    {reads : List FramerTransition} {f : FramerState}
    (client : framerSystem.Run freshFramer reads f)
    (fits : ∀ t ∈ reads, ChunkFits t)
    (stream : (pushedChunks reads).flatten <+: (sentTo d tr).flatten) :
    Follows (sentTo d tr) reads f :=
  (follows_of_run (fun _ hp => (write_cases run (mem_sentTo.mp hp)).1)
    client fits stream).1

/--
From the server to a client.  In every run of the process, every write is a
well-formed frame.  So a client that reads its socket through a framer, however
what it has got so far was cut into reads that fit into the buffer, gets the
packets written to it, each once and in order, and all that have arrived
completely once the framer waits.
-/
theorem response_stream
    (run : ProcessRun vf tr s)
    (d : ClientPtr)
    {reads : List FramerTransition} {f : FramerState}
    (client : framerSystem.Run freshFramer reads f)
    (fits : ∀ t ∈ reads, ChunkFits t)
    (stream : (pushedChunks reads).flatten <+: (sentTo d tr).flatten) :
    (∀ w ∈ tr.flatMap Transition.out, packetFraming.IsFrame w.data) ∧
    (sentPackets reads).map Packet.data <+: sentTo d tr ∧
    (f.looping = false →
      (sentPackets reads).map Packet.data =
        (packetFraming.split (pushedChunks reads).flatten).1) := by
  have hfollows := follows_of_client run d client fits stream
  obtain ⟨rest, hrest, -⟩ := hfollows.sent
  exact ⟨fun w hw => (write_cases run hw).1, ⟨rest, hrest.symm⟩,
    hfollows.sent_all (fun p hp => (write_cases run (mem_sentTo.mp hp)).1)⟩

/--
Game states are authentic end to end.  A game state that a client takes from
its own stream, through a framer and in reads that fit into its buffer, was
taken by the server from the stream of another client, byte for byte; that
client was issued the id it carries and has returned it; and where no id is
issued twice, no other connection has that id.
-/
theorem relay_authentic
    (run : ProcessRun vf tr s)
    (d : ClientPtr)
    {reads : List FramerTransition} {f : FramerState}
    (client : framerSystem.Run freshFramer reads f)
    (fits : ∀ t ∈ reads, ChunkFits t)
    (stream : (pushedChunks reads).flatten <+: (sentTo d tr).flatten)
    {p : Packet}
    (hp : p ∈ sentPackets reads)
    (type : p.getType = .ok packetGameState) :
    ∃ c, c ≠ d ∧ p ∈ sentPackets (clientFramerTrace c tr) ∧
      SignedIn c (embeddedID p) (serverTrace tr) ∧
      (DistinctIDs (serverTrace tr) → ∀ c',
        issued c' (serverTrace tr) = some (embeddedID p) → c' = c) := by
  obtain ⟨rest, hrest, -⟩ :=
    (follows_of_client run d client fits stream).sent
  have hmem : p.data ∈ sentTo d tr := by
    rw [hrest]
    exact List.mem_append_left _ (List.mem_map_of_mem hp)
  rcases (write_cases run (mem_sentTo.mp hmem)).2 with hreply |
    ⟨-, c, hrelayed⟩
  · exact absurd type hreply.isFrame.2
  · refine ⟨c, hrelayed.other, sent_of_served run hrelayed.served,
      hrelayed.signedIn, fun distinct c' hissued => ?_⟩
    exact distinct c' c _ hissued hrelayed.signedIn.issued_eq

/-- What the second client of a relayed game state is written. -/
def relayBytes : List UInt8 :=
  (constructPacket encBytes packetAuth (generateClientId 1)).data ++
    (constructPacket encString packetJoinGameSuccess (generateGameId 7)).data ++
    (statePacket 0 [9]).data

/-- It reads this in two reads. -/
def relayReads : List FramerEvent :=
  [.push (relayBytes.take 15), .pull, .pull, .push (relayBytes.drop 15),
    .pull, .pull, .pull]

/-- The process writes these bytes, and the client can read them so. -/
theorem relay_exec :
    ∃ tr s reads f, ProcessRun nopValidationFunc tr s ∧
      tr.map Transition.event = relayRun ∧
      framerSystem.Run freshFramer reads f ∧
      reads.map Transition.event = relayReads ∧
      (∀ t ∈ reads, ChunkFits t) ∧
      (pushedChunks reads).flatten <+: (sentTo 1 tr).flatten ∧
      f.looping = false ∧ statePacket 0 [9] ∈ sentPackets reads := by
  have hexec : (processSystem.exec (newProcess nopValidationFunc)
      relayRun).map (fun r => (sentTo 1 r.1).flatten) = some relayBytes := by
    decide +kernel
  have hreads : (framerSystem.exec freshFramer relayReads).map (fun r =>
      (r.1.all (fun t => decide (ChunkFits t)), (pushedChunks r.1).flatten,
        r.2.looping, decide (statePacket 0 [9] ∈ sentPackets r.1))) =
      some (true, relayBytes, false, true) := by
    decide +kernel
  obtain ⟨tr, s, hrun, hevents, hsent⟩ := System.run_of_exec hexec
  obtain ⟨reads, f, hclient, hread, hend⟩ := System.run_of_exec hreads
  simp only [Prod.mk.injEq, decide_eq_true_eq, List.all_eq_true] at hend
  obtain ⟨hfits, hpushed, hwaits, hmem⟩ := hend
  exact ⟨tr, s, reads, f, hrun, hevents, hclient, hread, hfits,
    by rw [hpushed, hsent], hwaits, hmem⟩

/-- The client gets what it was written. -/
theorem response_stream_relay :
    ∃ tr s reads f, ProcessRun nopValidationFunc tr s ∧
      tr.map Transition.event = relayRun ∧
      framerSystem.Run freshFramer reads f ∧
      reads.map Transition.event = relayReads ∧
      (sentPackets reads).map Packet.data <+: sentTo 1 tr ∧
      (sentPackets reads).map Packet.data =
        (packetFraming.split (pushedChunks reads).flatten).1 := by
  obtain ⟨tr, s, reads, f, hrun, hevents, hclient, hread, hfits, hstream,
    hwaits, -⟩ := relay_exec
  obtain ⟨-, hprefix, hall⟩ := response_stream hrun 1 hclient hfits hstream
  exact ⟨tr, s, reads, f, hrun, hevents, hclient, hread, hprefix,
    hall hwaits⟩

/-- It gets the game state, from the first client. -/
theorem relay_authentic_relay :
    ∃ tr s reads f, ProcessRun nopValidationFunc tr s ∧
      tr.map Transition.event = relayRun ∧
      framerSystem.Run freshFramer reads f ∧
      statePacket 0 [9] ∈ sentPackets reads ∧
      ∃ c, c ≠ 1 ∧ statePacket 0 [9] ∈ sentPackets (clientFramerTrace c tr) ∧
        SignedIn c (embeddedID (statePacket 0 [9])) (serverTrace tr) := by
  obtain ⟨tr, s, reads, f, hrun, hevents, hclient, -, hfits, hstream,
    -, hmem⟩ := relay_exec
  obtain ⟨c, hother, hframed, hsigned, -⟩ := relay_authentic hrun 1 hclient
    hfits hstream hmem (by decide +kernel)
  exact ⟨tr, s, reads, f, hrun, hevents, hclient, hmem, c, hother, hframed,
    hsigned⟩

end Wire

end Server
end TurnBasedGame
