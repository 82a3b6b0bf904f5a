import TurnBasedGame.Server.FramerRuns
import TurnBasedGame.Server.Server

/-!
# A connection

One connection as two goroutines: the reader, which feeds what it reads to the
framer, and the handler, which authenticates the client and then takes packets
from the channel of the framer.  They share the channel `C`, which holds ten
packets, and `errch`, which holds one error.  The steps are as small as the
source has them: one read, one pull, one send or receive on a channel.

What a request handler does with a packet is left open here: it takes some
time, or forever.

The steps are inverted once, event by event and with the guards of the source.
Where the index of the framer is in range, what they do follows from the bytes
in its buffer.
-/

namespace TurnBasedGame
namespace Server

open Kernel
open PacketFramer

section Connection

/-- Size of the slice `FrameWithReader` reads into. -/
def readSize : Nat := 100

/-- Capacity of the channel of a framer. -/
def framerChanCap : Nat := 10

/-- Capacity of the error channel of a framer. -/
def errchCap : Nat := 1

/-- Where `FrameWithReader` is. -/
inductive ReaderState
  /-- In `reader.Read`. -/
  | reading
  /-- In the loop of `push`. -/
  | pushing
  /-- At the send of a packet in the loop of `push`. -/
  | sending (pkt : Packet)
  /-- At the send of a read error. -/
  | failing (err : String)
  | returned
deriving DecidableEq, Repr

/-- Where `handleConnection` is. -/
inductive HandlerState
  | authenticating (id : ClientID)
  | looping
  /-- In the request handler of a packet. -/
  | handling (pkt : Packet)
  | returned
deriving DecidableEq, Repr

structure Connection where
  framer : PacketFramer
  reader : ReaderState
  /-- What the last call of `push` returned; the reader ignores it. -/
  pushErr : Option ServerError
  ch : List Packet
  errch : List String
  handler : HandlerState
deriving DecidableEq, Repr

/-- What the two goroutines do next. -/
inductive ConnectionEvent
  | read (data : List UInt8)
  | eof
  | readError (err : String)
  | report
  | pull
  | send
  | authPacket
  | authTimeout
  | takePacket
  | handled
  | takeError
  | quit
deriving DecidableEq, Repr

/-- One step; its outputs are the packets delivered on `C`. -/
def connectionStep (s : Connection) :
    ConnectionEvent → Outcome Connection Packet
  | .read data =>
      match s.reader with
      | .reading =>
          if data.length ≤ readSize then
            match s.framer.fill data with
            | .ok p => .next { s with framer := p, reader := .pushing } []
            | .error _ => .panic
          else
            .blocked
      | _ => .blocked
  | .eof =>
      match s.reader with
      -- nothing is sent on `errch`
      | .reading => .next { s with reader := .returned } []
      | _ => .blocked
  | .readError err =>
      match s.reader with
      | .reading => .next { s with reader := .failing err } []
      | _ => .blocked
  | .report =>
      match s.reader with
      | .failing err =>
          if s.errch.length < errchCap then
            .next { s with errch := s.errch ++ [err], reader := .returned } []
          else
            .blocked
      | _ => .blocked
  | .pull =>
      match s.reader with
      | .pushing =>
          match s.framer.pull with
          | .ok (.packet pkt, p) =>
              .next { s with framer := p, reader := .sending pkt } []
          | .ok (.nothing, p) =>
              .next { s with
                framer := p, reader := .reading, pushErr := none } []
          | .ok (.failed err, p) =>
              -- the send of this error on `errch` is commented out
              .next { s with
                framer := p, reader := .reading, pushErr := some err } []
          | .error _ => .panic
      | _ => .blocked
  | .send =>
      match s.reader with
      | .sending pkt =>
          if s.ch.length < framerChanCap then
            .next { s with ch := s.ch ++ [pkt], reader := .pushing } [pkt]
          else
            .blocked
      | _ => .blocked
  | .authPacket =>
      match s.handler, s.ch with
      | .authenticating id, p :: rest =>
          match TCPServer.authenticate id p with
          | .error _ => .panic
          | .ok (some _) => .next { s with ch := rest, handler := .returned } []
          | .ok none => .next { s with ch := rest, handler := .looping } []
      | _, _ => .blocked
  | .authTimeout =>
      match s.handler with
      | .authenticating _ => .next { s with handler := .returned } []
      | _ => .blocked
  | .takePacket =>
      match s.handler, s.ch with
      | .looping, p :: rest =>
          match p.getType with
          | .error _ => .panic
          | .ok _ => .next { s with ch := rest, handler := .handling p } []
      | _, _ => .blocked
  | .handled =>
      match s.handler with
      | .handling _ => .next { s with handler := .looping } []
      | _ => .blocked
  | .takeError =>
      match s.handler, s.errch with
      | .looping, _ :: rest =>
          .next { s with errch := rest, handler := .returned } []
      | _, _ => .blocked
  | .quit =>
      match s.handler with
      | .looping => .next { s with handler := .returned } []
      | _ => .blocked

/-- A connection with its reader and its handler. -/
def connectionSystem : System Connection ConnectionEvent Packet where
  step := connectionStep

/-- A connection whose client was just sent its id. -/
def newConnection (id : ClientID) : Connection where
  framer := newPacketFramer
  reader := .reading
  pushErr := none
  ch := []
  errch := []
  handler := .authenticating id

abbrev ConnectionTransition :=
  Transition Connection ConnectionEvent Packet

/-- One step of the reader or the handler of a connection. -/
inductive GoroutineMove : ConnectionTransition → Prop
  | read (k : Connection) (data : List UInt8) {p : PacketFramer}
      (reader : k.reader = .reading)
      (short : data.length ≤ readSize)
      (fill : k.framer.fill data = .ok p) :
      GoroutineMove ⟨k, .read data, [],
        { k with framer := p, reader := .pushing }⟩
  | eof (k : Connection)
      (reader : k.reader = .reading) :
      GoroutineMove ⟨k, .eof, [], { k with reader := .returned }⟩
  | readError (k : Connection) (err : String)
      (reader : k.reader = .reading) :
      GoroutineMove ⟨k, .readError err, [],
        { k with reader := .failing err }⟩
  | report (k : Connection) {err : String}
      (reader : k.reader = .failing err)
      (room : k.errch.length < errchCap) :
      GoroutineMove ⟨k, .report, [],
        { k with errch := k.errch ++ [err], reader := .returned }⟩
  | pulled (k : Connection) {pkt : Packet} {p : PacketFramer}
      (reader : k.reader = .pushing)
      (pull : k.framer.pull = .ok (.packet pkt, p)) :
      GoroutineMove ⟨k, .pull, [],
        { k with framer := p, reader := .sending pkt }⟩
  | waited (k : Connection) {p : PacketFramer}
      (reader : k.reader = .pushing)
      (pull : k.framer.pull = .ok (.nothing, p)) :
      GoroutineMove ⟨k, .pull, [],
        { k with framer := p, reader := .reading, pushErr := none }⟩
  | rejected (k : Connection) {err : ServerError} {p : PacketFramer}
      (reader : k.reader = .pushing)
      (pull : k.framer.pull = .ok (.failed err, p)) :
      GoroutineMove ⟨k, .pull, [],
        { k with framer := p, reader := .reading, pushErr := some err }⟩
  | send (k : Connection) {pkt : Packet}
      (reader : k.reader = .sending pkt)
      (room : k.ch.length < framerChanCap) :
      GoroutineMove ⟨k, .send, [pkt],
        { k with ch := k.ch ++ [pkt], reader := .pushing }⟩
  | authPassed (k : Connection) {id : ClientID} {p : Packet}
      {rest : List Packet}
      (handler : k.handler = .authenticating id)
      (front : k.ch = p :: rest)
      (passes : TCPServer.authenticate id p = .ok none) :
      GoroutineMove ⟨k, .authPacket, [],
        { k with ch := rest, handler := .looping }⟩
  | authFailed (k : Connection) {id : ClientID} {p : Packet}
      {rest : List Packet} {err : ServerError}
      (handler : k.handler = .authenticating id)
      (front : k.ch = p :: rest)
      (fails : TCPServer.authenticate id p = .ok (some err)) :
      GoroutineMove ⟨k, .authPacket, [],
        { k with ch := rest, handler := .returned }⟩
  | authTimeout (k : Connection) {id : ClientID}
      (handler : k.handler = .authenticating id) :
      GoroutineMove ⟨k, .authTimeout, [], { k with handler := .returned }⟩
  | takePacket (k : Connection) {p : Packet} {rest : List Packet}
      {type : PacketType}
      (handler : k.handler = .looping)
      (front : k.ch = p :: rest)
      (typed : p.getType = .ok type) :
      GoroutineMove ⟨k, .takePacket, [],
        { k with ch := rest, handler := .handling p }⟩
  | handled (k : Connection) {p : Packet}
      (handler : k.handler = .handling p) :
      GoroutineMove ⟨k, .handled, [], { k with handler := .looping }⟩
  | takeError (k : Connection) {err : String} {rest : List String}
      (handler : k.handler = .looping)
      (front : k.errch = err :: rest) :
      GoroutineMove ⟨k, .takeError, [],
        { k with errch := rest, handler := .returned }⟩
  | quit (k : Connection)
      (handler : k.handler = .looping) :
      GoroutineMove ⟨k, .quit, [], { k with handler := .returned }⟩

/-- Inversion of the steps of a connection, in any state. -/
theorem goroutineMove_of_valid
    {t : ConnectionTransition}
    (valid : connectionSystem.Valid t) :
    GoroutineMove t := by
  obtain ⟨k, event, out, k'⟩ := t
  have hstep : connectionStep k event = .next k' out := valid
  cases event with
  | read data =>
      simp only [connectionStep] at hstep
      split at hstep
      case h_1 hreader =>
        split_ifs at hstep with hshort
        split at hstep
        case h_1 p hfill =>
          obtain ⟨rfl, rfl⟩ := Outcome.next.inj hstep
          exact .read k data hreader hshort hfill
        case h_2 => cases hstep
      case h_2 => cases hstep
  | eof =>
      simp only [connectionStep] at hstep
      split at hstep
      case h_1 hreader =>
        obtain ⟨rfl, rfl⟩ := Outcome.next.inj hstep
        exact .eof k hreader
      case h_2 => cases hstep
  | readError err =>
      simp only [connectionStep] at hstep
      split at hstep
      case h_1 hreader =>
        obtain ⟨rfl, rfl⟩ := Outcome.next.inj hstep
        exact .readError k err hreader
      case h_2 => cases hstep
  | report =>
      simp only [connectionStep] at hstep
      split at hstep
      case h_1 err hreader =>
        split_ifs at hstep with hroom
        obtain ⟨rfl, rfl⟩ := Outcome.next.inj hstep
        exact .report k hreader hroom
      case h_2 => cases hstep
  | pull =>
      simp only [connectionStep] at hstep
      split at hstep
      case h_1 hreader =>
        split at hstep
        case h_1 pkt p hpull =>
          obtain ⟨rfl, rfl⟩ := Outcome.next.inj hstep
          exact .pulled k hreader hpull
        case h_2 p hpull =>
          obtain ⟨rfl, rfl⟩ := Outcome.next.inj hstep
          exact .waited k hreader hpull
        case h_3 err p hpull =>
          obtain ⟨rfl, rfl⟩ := Outcome.next.inj hstep
          exact .rejected k hreader hpull
        case h_4 => cases hstep
      case h_2 => cases hstep
  | send =>
      simp only [connectionStep] at hstep
      split at hstep
      case h_1 pkt hreader =>
        split_ifs at hstep with hroom
        obtain ⟨rfl, rfl⟩ := Outcome.next.inj hstep
        exact .send k hreader hroom
      case h_2 => cases hstep
  | authPacket =>
      simp only [connectionStep] at hstep
      split at hstep
      case h_1 id p rest hhandler hfront =>
        split at hstep
        case h_1 => cases hstep
        case h_2 err hfails =>
          obtain ⟨rfl, rfl⟩ := Outcome.next.inj hstep
          exact .authFailed k hhandler hfront hfails
        case h_3 hpasses =>
          obtain ⟨rfl, rfl⟩ := Outcome.next.inj hstep
          exact .authPassed k hhandler hfront hpasses
      case h_2 => cases hstep
  | authTimeout =>
      simp only [connectionStep] at hstep
      split at hstep
      case h_1 id hhandler =>
        obtain ⟨rfl, rfl⟩ := Outcome.next.inj hstep
        exact .authTimeout k hhandler
      case h_2 => cases hstep
  | takePacket =>
      simp only [connectionStep] at hstep
      split at hstep
      case h_1 p rest hhandler hfront =>
        split at hstep
        case h_1 => cases hstep
        case h_2 type htyped =>
          obtain ⟨rfl, rfl⟩ := Outcome.next.inj hstep
          exact .takePacket k hhandler hfront htyped
      case h_2 => cases hstep
  | handled =>
      simp only [connectionStep] at hstep
      split at hstep
      case h_1 p hhandler =>
        obtain ⟨rfl, rfl⟩ := Outcome.next.inj hstep
        exact .handled k hhandler
      case h_2 => cases hstep
  | takeError =>
      simp only [connectionStep] at hstep
      split at hstep
      case h_1 err rest hhandler hfront =>
        obtain ⟨rfl, rfl⟩ := Outcome.next.inj hstep
        exact .takeError k hhandler hfront
      case h_2 => cases hstep
  | quit =>
      simp only [connectionStep] at hstep
      split at hstep
      case h_1 hhandler =>
        obtain ⟨rfl, rfl⟩ := Outcome.next.inj hstep
        exact .quit k hhandler
      case h_2 => cases hstep

/-- What the handler alone can do to its own state and the channels. -/
inductive HandlerMove (s : Connection) : Connection → Prop
  | authPassed {id : ClientID} {p : Packet} {rest : List Packet}
      (handler : s.handler = .authenticating id)
      (front : s.ch = p :: rest) :
      HandlerMove s { s with ch := rest, handler := .looping }
  | authFailed {id : ClientID} {p : Packet} {rest : List Packet}
      (handler : s.handler = .authenticating id)
      (front : s.ch = p :: rest) :
      HandlerMove s { s with ch := rest, handler := .returned }
  | taken {p : Packet} {rest : List Packet}
      (handler : s.handler = .looping)
      (front : s.ch = p :: rest) :
      HandlerMove s { s with ch := rest, handler := .handling p }
  | handled {p : Packet}
      (handler : s.handler = .handling p) :
      HandlerMove s { s with handler := .looping }
  | error {err : String} {rest : List String}
      (handler : s.handler = .looping)
      (front : s.errch = err :: rest) :
      HandlerMove s { s with errch := rest, handler := .returned }
  | stopped
      (handler : s.handler ≠ .returned) :
      HandlerMove s { s with handler := .returned }

/--
Everything a step of a connection can do, in terms of the bytes in its framer;
what the handler does is left to `HandlerMove`.
-/
inductive ConnectionMove : ConnectionTransition → Prop
  | read (s : Connection) (data : List UInt8)
      (reader : s.reader = .reading) :
      ConnectionMove ⟨s, .read data, [],
        { s with framer := s.framer.filled data, reader := .pushing }⟩
  | eof (s : Connection)
      (reader : s.reader = .reading) :
      ConnectionMove ⟨s, .eof, [], { s with reader := .returned }⟩
  | readError (s : Connection) (err : String)
      (reader : s.reader = .reading) :
      ConnectionMove ⟨s, .readError err, [],
        { s with reader := .failing err }⟩
  | report (s : Connection) {err : String}
      (reader : s.reader = .failing err) :
      ConnectionMove ⟨s, .report, [],
        { s with errch := s.errch ++ [err], reader := .returned }⟩
  | pulled (s : Connection) {n : Nat}
      (reader : s.reader = .pushing)
      (complete : verdict s.framer.live = .complete n) :
      ConnectionMove ⟨s, .pull, [],
        { s with
          framer := s.framer.cutFront n
          reader := .sending ⟨s.framer.live.take n⟩ }⟩
  | waited (s : Connection)
      (reader : s.reader = .pushing)
      (waiting : verdict s.framer.live = .waiting) :
      ConnectionMove ⟨s, .pull, [],
        { s with reader := .reading, pushErr := none }⟩
  | rejected (s : Connection) {err : ServerError}
      (reader : s.reader = .pushing)
      (rejects : verdict s.framer.live = .rejected err) :
      ConnectionMove ⟨s, .pull, [],
        { s with reader := .reading, pushErr := some err }⟩
  | send (s : Connection) {pkt : Packet}
      (reader : s.reader = .sending pkt) :
      ConnectionMove ⟨s, .send, [pkt],
        { s with ch := s.ch ++ [pkt], reader := .pushing }⟩
  | handler (s : Connection) {e : ConnectionEvent} {s' : Connection}
      (notEof : e ≠ .eof)
      (notPull : e ≠ .pull)
      (move : HandlerMove s s') :
      ConnectionMove ⟨s, e, [], s'⟩

/-- The moves of the goroutines, for a framer whose index is in range. -/
theorem GoroutineMove.connectionMove
    {t : ConnectionTransition}
    (m : GoroutineMove t)
    (h : t.pre.framer.InRange) :
    ConnectionMove t := by
  cases m with
  | @read k data p reader short fill =>
      have hrange : k.framer.InRange := h
      rw [hrange.fill_eq data, Except.ok.injEq] at fill
      subst fill
      exact .read k data reader
  | eof k reader => exact .eof k reader
  | readError k err reader => exact .readError k err reader
  | report k reader room => exact .report k reader
  | @pulled k pkt p reader pull =>
      have hrange : k.framer.InRange := h
      rw [hrange.pull_eq] at pull
      cases hverdict : verdict k.framer.live with
      | complete n =>
          simp only [hverdict, Except.ok.injEq, Prod.mk.injEq,
            Pulled.packet.injEq] at pull
          obtain ⟨rfl, rfl⟩ := pull
          exact .pulled k reader hverdict
      | waiting => simp [hverdict] at pull
      | rejected err => simp [hverdict] at pull
  | @waited k p reader pull =>
      have hrange : k.framer.InRange := h
      rw [hrange.pull_eq] at pull
      cases hverdict : verdict k.framer.live with
      | waiting =>
          simp only [hverdict, Except.ok.injEq, Prod.mk.injEq,
            true_and] at pull
          subst pull
          exact .waited k reader hverdict
      | complete n => simp [hverdict] at pull
      | rejected err => simp [hverdict] at pull
  | @rejected k err p reader pull =>
      have hrange : k.framer.InRange := h
      rw [hrange.pull_eq] at pull
      cases hverdict : verdict k.framer.live with
      | rejected err' =>
          simp only [hverdict, Except.ok.injEq, Prod.mk.injEq,
            Pulled.failed.injEq] at pull
          obtain ⟨rfl, rfl⟩ := pull
          exact .rejected k reader hverdict
      | complete n => simp [hverdict] at pull
      | waiting => simp [hverdict] at pull
  | send k reader room => exact .send k reader
  | authPassed k handler front passes =>
      exact .handler k (by simp) (by simp) (.authPassed handler front)
  | authFailed k handler front fails =>
      exact .handler k (by simp) (by simp) (.authFailed handler front)
  | authTimeout k handler =>
      exact .handler k (by simp) (by simp) (.stopped (by simp [handler]))
  | takePacket k handler front typed =>
      exact .handler k (by simp) (by simp) (.taken handler front)
  | handled k handler =>
      exact .handler k (by simp) (by simp) (.handled handler)
  | takeError k handler front =>
      exact .handler k (by simp) (by simp) (.error handler front)
  | quit k handler =>
      exact .handler k (by simp) (by simp) (.stopped (by simp [handler]))

theorem connectionMove_of_valid
    {t : ConnectionTransition}
    (valid : connectionSystem.Valid t)
    (h : t.pre.framer.InRange) :
    ConnectionMove t :=
  (goroutineMove_of_valid valid).connectionMove h

/-- The handler does not touch the framer or the reader. -/
theorem HandlerMove.frame
    {s s' : Connection}
    (m : HandlerMove s s') :
    s'.framer = s.framer ∧ s'.reader = s.reader ∧ s'.pushErr = s.pushErr := by
  cases m <;> exact ⟨rfl, rfl, rfl⟩

/-- Every step of a connection keeps the index of its framer in range. -/
theorem ConnectionMove.inRange
    {t : ConnectionTransition}
    (m : ConnectionMove t)
    (h : t.pre.framer.InRange) :
    t.post.framer.InRange := by
  cases m with
  | read s data reader => exact h.filled data
  | pulled s reader complete => exact h.cutFront (h.complete_le complete)
  | handler s notEof notPull move =>
      rw [show _ = s.framer from move.frame.1]
      exact h
  | _ => exact h

variable {s₀ s : Connection} {tr : List ConnectionTransition}

/-- Every recorded step of a run is one of the moves of a connection. -/
theorem connectionMove_of_run
    (run : connectionSystem.Run s₀ tr s)
    (h : s₀.framer.InRange) :
    ∀ t ∈ tr, ConnectionMove t := by
  intro t ht
  have hpre := run.invariant_pre (I := fun s => s.framer.InRange) h
    (fun _ valid hpre => (connectionMove_of_valid valid hpre).inRange hpre)
  exact connectionMove_of_valid (run.valid_of_mem t ht) (hpre t ht)

end Connection

end Server
end TurnBasedGame
