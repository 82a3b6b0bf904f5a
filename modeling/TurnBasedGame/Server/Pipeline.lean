import TurnBasedGame.Server.Authentication
import TurnBasedGame.Server.Process
import TurnBasedGame.Server.StreamRuns

/-!
# From the socket to the handler

The way of a request: bytes are read from the socket into the framer, the
framer cuts packets off its buffer, the reader sends them on `C`, and the
handler takes them from there and runs the request handlers.  Each stage hands
on what it got, once and in order, whatever else the process does meanwhile.

So what the server serves to a client is read off the bytes of its own socket:
it is the beginning of the sequence of frames these bytes consist of.
-/

namespace TurnBasedGame
namespace Server

open Kernel
open PacketFramer

section Pipeline

/-- The packet a handler is working on. -/
def HandlerState.inHand : HandlerState → List Packet
  | .handling p => [p]
  | _ => []

/-- The packets of a connection between its framer and the server. -/
def Connection.queue (k : Connection) : List Packet :=
  k.handler.inHand ++ k.ch ++ k.reader.inHand

/-- The packets a step of a connection hands to the server. -/
def servedBy (t : ConnectionTransition) : List Packet :=
  match t.event with
  | .authPacket => t.pre.ch.head?.toList
  | .handled => t.pre.handler.inHand
  | _ => []

/-- No packet is lost, repeated or overtaken on its way to the server. -/
theorem GoroutineMove.queue_balance
    {t : ConnectionTransition}
    (m : GoroutineMove t) :
    t.pre.queue ++ framedBy t = servedBy t ++ t.post.queue := by
  cases m with
  | read k data reader short fill =>
      simp [Connection.queue, framedBy, servedBy, ReaderState.inHand, reader]
  | eof k reader =>
      simp [Connection.queue, framedBy, servedBy, ReaderState.inHand, reader]
  | readError k err reader =>
      simp [Connection.queue, framedBy, servedBy, ReaderState.inHand, reader]
  | report k reader room =>
      simp [Connection.queue, framedBy, servedBy, ReaderState.inHand, reader]
  | pulled k reader pull =>
      simp [Connection.queue, framedBy, servedBy, ReaderState.inHand, reader]
  | waited k reader pull =>
      simp [Connection.queue, framedBy, servedBy, ReaderState.inHand, reader]
  | rejected k reader pull =>
      simp [Connection.queue, framedBy, servedBy, ReaderState.inHand, reader]
  | send k reader room =>
      simp [Connection.queue, framedBy, servedBy, ReaderState.inHand, reader]
  | authPassed k handler front passes =>
      simp [Connection.queue, framedBy, servedBy, HandlerState.inHand,
        handler, front]
  | authFailed k handler front fails =>
      simp [Connection.queue, framedBy, servedBy, HandlerState.inHand,
        handler, front]
  | authTimeout k handler =>
      simp [Connection.queue, framedBy, servedBy, HandlerState.inHand, handler]
  | takePacket k handler front typed =>
      simp [Connection.queue, framedBy, servedBy, HandlerState.inHand,
        handler, front]
  | handled k handler =>
      simp [Connection.queue, framedBy, servedBy, HandlerState.inHand, handler]
  | takeError k handler front =>
      simp [Connection.queue, framedBy, servedBy, HandlerState.inHand, handler]
  | quit k handler =>
      simp [Connection.queue, framedBy, servedBy, HandlerState.inHand, handler]

variable {k₀ k : Connection} {tr : List ConnectionTransition}

/-- What was framed was handed to the server or is in the queue, in order. -/
theorem queue_log
    (run : connectionSystem.Run k₀ tr k) :
    k₀.queue ++ tr.flatMap framedBy = tr.flatMap servedBy ++ k.queue :=
  run.conservation (I := fun _ => True) Connection.queue framedBy servedBy
    trivial (fun _ _ _ => trivial)
    (fun _ valid _ => (goroutineMove_of_valid valid).queue_balance)

/-- The framer of a connection sends what is framed. -/
theorem sentPackets_framerTrace
    (tr : List ConnectionTransition) :
    sentPackets (framerTrace tr) = tr.flatMap framedBy := by
  refine flatMap_shown (fun t _ => ?_)
  obtain ⟨pre, event, out, post⟩ := t
  cases event <;> simp [shownStep, framerView, framedBy]

/-- The chunks a connection reads from its socket. -/
def readChunks (tr : List ConnectionTransition) : List (List UInt8) :=
  tr.filterMap (fun t =>
    match t.event with
    | .read data => some data
    | _ => none)

theorem pushedChunks_framerTrace
    (tr : List ConnectionTransition) :
    pushedChunks (framerTrace tr) = readChunks tr := by
  induction tr with
  | nil => rfl
  | cons t rest ih =>
      obtain ⟨pre, event, out, post⟩ := t
      simp only [pushedChunks, framerTrace, readChunks] at ih ⊢
      cases event <;>
        simp [shown, shownStep, framerView] at ih ⊢ <;> exact ih

/-- No read returns more than the slice it reads into has room for. -/
theorem readChunks_short
    (run : connectionSystem.Run k₀ tr k) :
    ∀ data ∈ readChunks tr, data.length ≤ readSize := by
  intro data hdata
  obtain ⟨t, ht, hread⟩ := List.mem_filterMap.mp hdata
  have m := goroutineMove_of_valid (run.valid_of_mem t ht)
  cases m with
  | read k data' reader short fill =>
      cases hread
      exact short
  | _ => cases hread

section Served

variable {vf : ValidationFunc} {tr : List ProcessTransition} {s : Process}
variable {c : ClientPtr}

/-- The packets of a client that the server gets in a run of the process. -/
def served (c : ClientPtr) (tr : List ProcessTransition) : List Packet :=
  (serverTrace tr).flatMap (fun t => (framedIn c t).toList)

/-- The bytes read from the socket of a client in a run of the process. -/
def readBytes (c : ClientPtr) (tr : List ProcessTransition) : List UInt8 :=
  (readChunks (connectionTrace c tr)).flatten

/-- The steps of the framer of a client in a run of the process. -/
def clientFramerTrace (c : ClientPtr) (tr : List ProcessTransition) :
    List FramerTransition :=
  framerTrace (connectionTrace c tr)

/-- What a step asks of the server is what the connection hands to it. -/
theorem framedIn_request
    {k k' : Connection} {e : ConnectionEvent} {n : GameDraw}
    {out : List Packet} {ev : TCPServer.Event}
    (s s' : TCPServer) (writes : List Write)
    (m : GoroutineMove ⟨k, e, out, k'⟩)
    (requests : serverEvent c k n e = some ev) :
    (framedIn c ⟨s, ev, writes, s'⟩).toList = servedBy ⟨k, e, out, k'⟩ := by
  cases m with
  | authPassed k handler front passes =>
      simp only [serverEvent, front, List.head?_cons, Option.map_some,
        Option.some.injEq] at requests
      subst requests
      simp [framedIn, servedBy, front]
  | authFailed k handler front fails =>
      simp only [serverEvent, front, List.head?_cons, Option.map_some,
        Option.some.injEq] at requests
      subst requests
      simp [framedIn, servedBy, front]
  | handled k handler =>
      simp only [serverEvent, handler, Option.some.injEq] at requests
      subst requests
      simp [framedIn, servedBy, HandlerState.inHand, handler]
  | authTimeout k handler => cases requests; rfl
  | takeError k handler front => cases requests; rfl
  | quit k handler => cases requests; rfl
  | _ => cases requests

/-- A step that asks nothing of the server hands nothing to it. -/
theorem servedBy_of_silent
    {k k' : Connection} {e : ConnectionEvent} {n : GameDraw}
    {out : List Packet}
    (m : GoroutineMove ⟨k, e, out, k'⟩)
    (silent : serverEvent c k n e = none) :
    servedBy ⟨k, e, out, k'⟩ = [] := by
  cases m with
  | authPassed k handler front => simp [serverEvent, front] at silent
  | authFailed k handler front => simp [serverEvent, front] at silent
  | handled k handler => simp [serverEvent, handler] at silent
  | _ => rfl

/-- The server gets the packets of a client from its own connection. -/
theorem ProcessMove.served
    {t : ProcessTransition}
    (m : ProcessMove t)
    (c : ClientPtr) :
    (shownStep Process.server requestView t).toList.flatMap
        (fun t => (framedIn c t).toList) =
      (shownStep (fun s => s.conn c) (connectionView c) t).toList.flatMap
        servedBy := by
  cases m with
  | accept s d listening fresh => rfl
  | started s d n accepted valid => rfl
  | @alone s d e n k out opened enabled valid silent =>
      by_cases hdc : d = c
      · subst hdc
        have hserved := servedBy_of_silent (goroutineMove_of_valid valid) silent
        rw [out_eq_deliveredOn (goroutineMove_of_valid valid)] at hserved
        simpa [shownStep, requestView, silent, connectionView,
          Process.setConnection] using hserved.symm
      · simp [shownStep, requestView, silent, connectionView, hdc]
  | @joint s d e n k out ev server writes opened enabled valid requests
      serverValid =>
      by_cases hdc : d = c
      · subst hdc
        have hframed := framedIn_request s.server server writes
          (goroutineMove_of_valid valid) requests
        rw [out_eq_deliveredOn (goroutineMove_of_valid valid)] at hframed
        simpa [shownStep, requestView, requests, connectionView,
          Process.setConnection] using hframed
      · have hother : framedIn c
            (⟨s.server, ev, writes, server⟩ : ServerTransition) = none :=
          (unnoticed_of_handler
            (by simpa [handlerOf_request requests] using hdc)).2
        simp [shownStep, requestView, requests, connectionView, hdc, hother]
  | receive s g valid => rfl
  | broadCast s g valid => rfl
  | closeQuitch s unclosed => rfl
  | closeListener s closed listening => rfl

theorem served_eq
    (run : ProcessRun vf tr s)
    (c : ClientPtr) :
    served c tr = (connectionTrace c tr).flatMap servedBy := by
  have hserver : served c tr = tr.flatMap (fun t =>
      (shownStep (fun s => s.conn c) (connectionView c) t).toList.flatMap
        servedBy) :=
    flatMap_shown (fun t ht => (processMove_of_run run t ht).served c)
  rw [hserver]
  exact (flatMap_shown (fun t _ => rfl)).symm

/-- A connection starts with an empty framer and nothing in its queue. -/
theorem connectionRun_fresh
    (run : ProcessRun vf tr s)
    (c : ClientPtr) :
    ∃ id, connectionSystem.Run (newConnection id) (connectionTrace c tr)
      (s.conn c) := by
  obtain ⟨hclosed, hopen⟩ := connectionRun_of_run run c
  by_cases h : Opened c s
  · obtain ⟨t, -, ⟨n, -, hstart⟩, hrun⟩ := hopen h
    exact ⟨generateClientId n, hstart ▸ hrun⟩
  · rw [hclosed h, ((coupled_of_run run).clients c).unopened
      (by simpa [Opened] using h)]
    exact ⟨[], .nil⟩

/-- The framer of a client runs from a fresh one. -/
theorem clientFramerRun
    (run : ProcessRun vf tr s)
    (c : ClientPtr) :
    framerSystem.Run freshFramer (clientFramerTrace c tr)
      (framerPart (s.conn c)) := by
  obtain ⟨id, hrun⟩ := connectionRun_fresh run c
  exact framerRun_of_run hrun

/-- Served, queued and framed packets of a client are the same sequence. -/
theorem served_queue
    (run : ProcessRun vf tr s)
    (c : ClientPtr) :
    served c tr ++ (s.conn c).queue =
      sentPackets (clientFramerTrace c tr) := by
  obtain ⟨id, hrun⟩ := connectionRun_fresh run c
  rw [served_eq run, clientFramerTrace, sentPackets_framerTrace]
  exact (queue_log hrun).symm

theorem pushedChunks_client
    (c : ClientPtr) (tr : List ProcessTransition) :
    (pushedChunks (clientFramerTrace c tr)).flatten = readBytes c tr := by
  rw [clientFramerTrace, pushedChunks_framerTrace, readBytes]

/--
From the socket to the server.  In every run of the process and for every
client, the packets the server got, then those in the queue, then the bytes in
the buffer are the bytes its framer took in, in order; these are all bytes read
from its socket where every read fits.  Where moreover no length field wraps
around, the packets the server got are the first frames of the bytes read, the
queued ones are the next, and those still in the buffer are the last.
-/
theorem request_pipeline
    (run : ProcessRun vf tr s)
    (c : ClientPtr) :
    (((served c tr ++ (s.conn c).queue).map Packet.data).flatten ++
        (s.conn c).framer.live =
      (clientFramerTrace c tr).flatMap takenIn) ∧
    ((∀ t ∈ clientFramerTrace c tr, ChunkFits t) →
      (clientFramerTrace c tr).flatMap takenIn = readBytes c tr ∧
      ((∀ t ∈ clientFramerTrace c tr, t.event = .pull →
          ¬ LengthWraps t.pre.framer.live) →
        (served c tr).map Packet.data ++
            ((s.conn c).queue.map Packet.data ++
              (packetFraming.split (s.conn c).framer.live).1) =
          (packetFraming.split (readBytes c tr)).1)) := by
  have hrun := clientFramerRun run c
  have hqueue := served_queue run c
  refine ⟨?_, fun fits => ?_⟩
  · rw [hqueue]
    exact sent_live_eq_takenIn hrun
  · have hall : (clientFramerTrace c tr).flatMap takenIn =
        readBytes c tr := by
      rw [takenIn_of_chunkFits fits, pushedChunks_client]
    refine ⟨hall, fun unwrapped => ?_⟩
    have hsplit := sent_eq_split hrun unwrapped
    rw [← hqueue, hall, List.map_append, List.append_assoc] at hsplit
    exact hsplit

/--
The framer of the server follows a client that sends such packets, and meets no
length that wraps around.
-/
theorem follows_of_server
    (run : ProcessRun vf tr s)
    (c : ClientPtr)
    (pkts : List WirePacket)
    (small : ∀ p ∈ pkts, p.bytes.length + readSize ≤ packetMaxSize + 1)
    (stream : readBytes c tr <+: (pkts.map WirePacket.bytes).flatten) :
    (∀ p ∈ pkts.map WirePacket.bytes, packetFraming.IsFrame p) ∧
      Follows (pkts.map WirePacket.bytes) (clientFramerTrace c tr)
        (framerPart (s.conn c)) ∧
      ∀ t ∈ clientFramerTrace c tr, ¬ LengthWraps t.pre.framer.live := by
  have hframes : ∀ p ∈ pkts.map WirePacket.bytes, packetFraming.IsFrame p := by
    intro p hp
    obtain ⟨pkt, -, rfl⟩ := List.mem_map.mp hp
    exact pkt.isFrame
  have hsmall : ∀ p ∈ pkts.map WirePacket.bytes, Small p := by
    intro p hp
    obtain ⟨pkt, hpkt, rfl⟩ := List.mem_map.mp hp
    exact small pkt hpkt
  obtain ⟨id, hconn⟩ := connectionRun_fresh run c
  have hshort : ∀ data ∈ pushedChunks (clientFramerTrace c tr),
      data.length ≤ readSize := by
    rw [clientFramerTrace, pushedChunks_framerTrace]
    exact readChunks_short hconn
  have hrun := clientFramerRun run c
  have hstream : (pushedChunks (clientFramerTrace c tr)).flatten <+:
      (pkts.map WirePacket.bytes).flatten := by
    rwa [pushedChunks_client]
  have hfits := fits_of_small hframes hsmall hrun hshort hstream
  exact ⟨hframes, follows_of_run hframes hrun hfits hstream⟩

/--
A client that sends well-formed packets, each leaving room in the buffer for
one more read, is served exactly these, in order: however its bytes are cut
into reads and whatever the other goroutines do, the packets the server got
and those in the queue are the first packets sent, and once the reader waits
for more input they are all packets that have arrived completely.
-/
theorem request_stream
    (run : ProcessRun vf tr s)
    (c : ClientPtr)
    (pkts : List WirePacket)
    (small : ∀ p ∈ pkts, p.bytes.length + readSize ≤ packetMaxSize + 1)
    (stream : readBytes c tr <+: (pkts.map WirePacket.bytes).flatten) :
    (served c tr ++ (s.conn c).queue).map Packet.data <+:
        pkts.map WirePacket.bytes ∧
    ((s.conn c).reader = .reading →
      (served c tr ++ (s.conn c).queue).map Packet.data =
        (packetFraming.split (readBytes c tr)).1) := by
  obtain ⟨hframes, hfollows, -⟩ := follows_of_server run c pkts small stream
  obtain ⟨rest, hrest, -⟩ := hfollows.sent
  rw [served_queue run]
  refine ⟨⟨rest, hrest.symm⟩, fun hreading => ?_⟩
  rw [← pushedChunks_client]
  exact hfollows.sent_all hframes
    (by simp [framerPart, ReaderState.inPush, hreading])

theorem encBytes_lt : encBytes < 4 := by
  decide

theorem packetAuth_lt : packetAuth < 64 := by
  decide

/-- An id is within the limits that the server advertises. -/
theorem clientId_size_lt
    (n : ClientDraw) :
    (generateClientId n).length + packetHeaderSize < packetMaxSize := by
  rw [generateClientId_length]
  decide

/-- The packet with which a client returns its id. -/
def authWire (n : ClientDraw) : WirePacket where
  enc := encBytes
  pktType := packetAuth
  payload := generateClientId n
  enc_lt := encBytes_lt
  pktType_lt := packetAuth_lt
  size_lt := clientId_size_lt n

/-- What the first client of a relayed game state sends before it. -/
def relayPackets : List Packet :=
  [constructPacket encBytes packetAuth (generateClientId 0),
    constructPacket encString packetCreateGame []]

/-- They are within the limits that the server advertises. -/
theorem relayPackets_wire :
    ∃ pkts : List WirePacket,
      pkts.map WirePacket.bytes = relayPackets.map Packet.data ∧
      ∀ p ∈ pkts, p.bytes.length + readSize ≤ packetMaxSize + 1 := by
  have hsmall : ∀ data ∈ relayPackets.map Packet.data,
      data.length + readSize ≤ packetMaxSize + 1 := by
    decide +kernel
  refine ⟨[authWire 0,
    ⟨encString, packetCreateGame, [], by decide, by decide, by decide⟩], rfl,
    fun p hp => hsmall p.bytes ?_⟩
  exact List.mem_map_of_mem (f := WirePacket.bytes) hp

/-- It signs in and creates a game, and is about to send a game state. -/
theorem request_stream_relay :
    ∃ tr s, ProcessRun nopValidationFunc tr s ∧
      tr.map Transition.event = relayRun.take 20 ∧
      (s.conn 0).reader = .reading ∧
      (served 0 tr ++ (s.conn 0).queue).map Packet.data =
        (packetFraming.split (readBytes 0 tr)).1 ∧
      served 0 tr = relayPackets := by
  have hexec : (processSystem.exec (newProcess nopValidationFunc)
      (relayRun.take 20)).map (fun r => ((r.2.conn 0).reader,
        served 0 r.1, readBytes 0 r.1)) =
      some (.reading, relayPackets,
        (relayPackets.map Packet.data).flatten) := by
    decide +kernel
  obtain ⟨tr, s, hrun, hevents, hend⟩ := System.run_of_exec hexec
  simp only [Prod.mk.injEq] at hend
  obtain ⟨hreader, hserved, hbytes⟩ := hend
  obtain ⟨pkts, hpkts, hsmall⟩ := relayPackets_wire
  have hstream := request_stream hrun 0 pkts hsmall (by rw [hbytes, hpkts])
  exact ⟨tr, s, hrun, hevents, hreader, hstream.2 hreader, hserved⟩

/-- Its three packets are the frames of the bytes it has sent. -/
theorem request_pipeline_relay :
    ∃ tr s, ProcessRun nopValidationFunc tr s ∧
      tr.map Transition.event = relayRun ∧
      served 0 tr = relayPackets ++ [statePacket 0 [9]] ∧
      ((served 0 tr ++ (s.conn 0).queue).map Packet.data).flatten ++
          (s.conn 0).framer.live = readBytes 0 tr ∧
      (served 0 tr).map Packet.data ++
          ((s.conn 0).queue.map Packet.data ++
            (packetFraming.split (s.conn 0).framer.live).1) =
        (packetFraming.split (readBytes 0 tr)).1 := by
  have hexec : (processSystem.exec (newProcess nopValidationFunc)
      relayRun).map (fun r => (served 0 r.1,
        (clientFramerTrace 0 r.1).all (fun t => decide (ChunkFits t)),
        (clientFramerTrace 0 r.1).all (fun t => decide
          (lengthField t.pre.framer.live + packetHeaderSize < 65536)))) =
      some (relayPackets ++ [statePacket 0 [9]], true, true) := by
    decide +kernel
  obtain ⟨tr, s, hrun, hevents, hend⟩ := System.run_of_exec hexec
  simp only [Prod.mk.injEq, List.all_eq_true, decide_eq_true_eq] at hend
  obtain ⟨hserved, hfits, hsmall⟩ := hend
  obtain ⟨hbytes, hframes⟩ := request_pipeline hrun 0
  obtain ⟨hall, hsplit⟩ := hframes hfits
  refine ⟨tr, s, hrun, hevents, hserved, hbytes.trans hall, hsplit ?_⟩
  exact fun t ht _ hwraps =>
    absurd hwraps.large (Nat.not_le.mpr (hsmall t ht))

end Served

end Pipeline

end Server
end TurnBasedGame
