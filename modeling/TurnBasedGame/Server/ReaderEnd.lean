import TurnBasedGame.Kernel.Progress
import TurnBasedGame.Server.EndOfStream
import TurnBasedGame.Server.Pipeline

/-!
# How a reader ends

`FrameWithReader` runs in a goroutine of its own.  It sends at most one error,
and never waits for room in `errch` to do so.  When `handleConnection` returns,
the socket is closed and nobody receives from `C` any more: the reader then
ends after a few steps, unless the packets it still has to send do not fit into
`C`; in that case it waits at the send forever.
-/

namespace TurnBasedGame
namespace Server

open Kernel
open PacketFramer

section ReaderEnd

/-- At least so many packets can be cut off the front of the bytes. -/
inductive CutsAtLeast : Nat → List UInt8 → Prop
  | zero (w : List UInt8) : CutsAtLeast 0 w
  | succ {w : List UInt8} {n k : Nat}
      (complete : verdict w = .complete k)
      (rest : CutsAtLeast n (w.drop k)) :
      CutsAtLeast (n + 1) w

theorem cutsAtLeast_succ_iff
    {w : List UInt8} {n : Nat} :
    CutsAtLeast (n + 1) w ↔
      ∃ k, verdict w = .complete k ∧ CutsAtLeast n (w.drop k) := by
  constructor
  · rintro (_ | ⟨complete, rest⟩)
    exact ⟨_, complete, rest⟩
  · rintro ⟨k, complete, rest⟩
    exact .succ complete rest

instance : (n : Nat) → DecidablePred (CutsAtLeast n)
  | 0, w => .isTrue (.zero w)
  | n + 1, w =>
      have := fun k => instDecidablePredListUInt8CutsAtLeast n (w.drop k)
      match h : verdict w with
      | .complete k =>
          decidable_of_iff (CutsAtLeast n (w.drop k))
            ⟨.succ h, fun hcuts => by
              obtain ⟨k', hk, hrest⟩ := cutsAtLeast_succ_iff.mp hcuts
              rwa [Verdict.complete.inj (h.symm.trans hk)]⟩
      | .waiting => .isFalse fun hcuts => by
          obtain ⟨k', hk, -⟩ := cutsAtLeast_succ_iff.mp hcuts
          cases h.symm.trans hk
      | .rejected err => .isFalse fun hcuts => by
          obtain ⟨k', hk, -⟩ := cutsAtLeast_succ_iff.mp hcuts
          cases h.symm.trans hk

/-- Free places in the channel of the framer. -/
def Connection.room (k : Connection) : Nat :=
  framerChanCap - k.ch.length

/-- The reader has more packets to send than fit into the channel. -/
def Overfull (k : Connection) : Prop :=
  match k.reader with
  | .pushing => CutsAtLeast (k.room + 1) k.framer.live
  | .sending _ => CutsAtLeast k.room k.framer.live
  | _ => False

instance (k : Connection) : Decidable (Overfull k) :=
  match h : k.reader with
  | .pushing =>
      decidable_of_iff (CutsAtLeast (k.room + 1) k.framer.live)
        (by simp [Overfull, h])
  | .sending _ =>
      decidable_of_iff (CutsAtLeast k.room k.framer.live)
        (by simp [Overfull, h])
  | .reading => .isFalse (by simp [Overfull, h])
  | .failing _ => .isFalse (by simp [Overfull, h])
  | .returned => .isFalse (by simp [Overfull, h])

/-- Events that bring nothing in from the socket. -/
def NoInput : ConnectionEvent → Prop
  | .read _ => False
  | .eof => False
  | _ => True

/-- How far a reader is from its end, apart from what it has to send. -/
def readerRank : ReaderState → Nat
  | .pushing => 4
  | .sending _ => 3
  | .reading => 2
  | .failing _ => 1
  | .returned => 0

/-- Bounds the steps a reader can take without input and without a receiver. -/
def remaining (k : Connection) : Nat :=
  2 * k.room + readerRank k.reader

/-- The reader waits at the send of a packet into a full channel. -/
def AtSend (k : Connection) : Prop :=
  ∃ pkt, k.reader = .sending pkt ∧ framerChanCap ≤ k.ch.length

/-- A reader without input and without a receiver. -/
structure Abandoned (k : Connection) : Prop where
  inv : ReaderInv k
  capacity : WithinCapacity k
  returned : k.handler = .returned

/-- What a step of an abandoned reader does. -/
structure AbandonedStep (k k' : Connection) : Prop where
  abandoned : Abandoned k'
  notAtSend : ¬ AtSend k
  decreases : remaining k' < remaining k
  overfull : Overfull k' ↔ Overfull k

/-- A pull that returns a packet has cut it off the front. -/
theorem pull_packet
    {p p' : PacketFramer} {pkt : Packet}
    (h : p.InRange)
    (pull : p.pull = .ok (.packet pkt, p')) :
    ∃ n, verdict p.live = .complete n ∧ n ≤ p.live.length ∧
      pkt.data = p.live.take n ∧ p'.live = p.live.drop n := by
  rw [h.pull_eq] at pull
  cases hverdict : verdict p.live with
  | waiting => simp [hverdict] at pull
  | rejected err => simp [hverdict] at pull
  | complete n =>
      simp only [hverdict, Except.ok.injEq, Prod.mk.injEq] at pull
      have hle := h.complete_le hverdict
      obtain ⟨hpkt, rfl⟩ := pull
      cases hpkt
      exact ⟨n, rfl, by rwa [h.live_length], rfl, h.cutFront_live hle⟩

/-- A pull that returns no packet has found none in front. -/
theorem pull_no_packet
    {p p' : PacketFramer} {res : Pulled}
    (h : p.InRange)
    (pull : p.pull = .ok (res, p'))
    (none : ∀ pkt, res ≠ .packet pkt) :
    ∀ n, verdict p.live ≠ .complete n := by
  intro n hverdict
  rw [h.pull_eq, hverdict] at pull
  simp only [Except.ok.injEq, Prod.mk.injEq] at pull
  exact none _ pull.1.symm

/-- A reader at the send has more packets than fit into the channel. -/
theorem AtSend.overfull
    {k : Connection}
    (h : AtSend k) :
    Overfull k := by
  obtain ⟨pkt, hreader, hfull⟩ := h
  have hzero : k.room = 0 := Nat.sub_eq_zero_of_le hfull
  simp only [Overfull, hreader, hzero]
  exact .zero _

/-- A reader that has ended has nothing more to send. -/
theorem Overfull.running
    {k : Connection}
    (h : Overfull k) :
    k.reader ≠ .returned := by
  intro hreader
  simp only [Overfull, hreader] at h

variable {t : ConnectionTransition}

/-- Only a receiver lets a reader at the send go on. -/
theorem not_atSend_of_move
    (m : GoroutineMove t)
    (returned : t.pre.handler = .returned) :
    ¬ AtSend t.pre := by
  rintro ⟨pkt, hreader, hfull⟩
  cases m with
  | send k reader room => exact Nat.not_lt.mpr hfull room
  | read k data reader => cases reader.symm.trans hreader
  | eof k reader => cases reader.symm.trans hreader
  | readError k err reader => cases reader.symm.trans hreader
  | report k reader => cases reader.symm.trans hreader
  | pulled k reader => cases reader.symm.trans hreader
  | waited k reader => cases reader.symm.trans hreader
  | rejected k reader => cases reader.symm.trans hreader
  | authPassed k handler => cases handler.symm.trans returned
  | authFailed k handler => cases handler.symm.trans returned
  | authTimeout k handler => cases handler.symm.trans returned
  | takePacket k handler => cases handler.symm.trans returned
  | handled k handler => cases handler.symm.trans returned
  | takeError k handler => cases handler.symm.trans returned
  | quit k handler => cases handler.symm.trans returned

/-- The steps of an abandoned reader lead to its end, or to a full channel. -/
theorem Abandoned.move
    (valid : connectionSystem.Valid t)
    (h : Abandoned t.pre)
    (noInput : NoInput t.event) :
    AbandonedStep t.pre t.post := by
  have m := goroutineMove_of_valid valid
  have hinv := ReaderInv.move
    (connectionMove_of_valid valid h.inv.inRange) h.inv
  have hcapacity := h.capacity.move m
  have hreturned := h.returned
  have hfree := not_atSend_of_move m hreturned
  have hrange := h.inv.inRange
  cases m with
  | read => exact noInput.elim
  | eof => exact noInput.elim
  | readError k err reader =>
      refine ⟨⟨hinv, hcapacity, hreturned⟩, hfree, ?_, ?_⟩
      · simp [remaining, Connection.room, readerRank, reader]
      · simp [Overfull, reader]
  | report k reader room =>
      refine ⟨⟨hinv, hcapacity, hreturned⟩, hfree, ?_, ?_⟩
      · simp [remaining, Connection.room, readerRank, reader]
      · simp [Overfull, reader]
  | @pulled k pkt p reader pull =>
      refine ⟨⟨hinv, hcapacity, hreturned⟩, hfree, ?_, ?_⟩
      · simp [remaining, Connection.room, readerRank, reader]
      · obtain ⟨n, hverdict, -, -, hlive⟩ := pull_packet hrange pull
        simp only [Overfull, reader, Connection.room, hlive,
          cutsAtLeast_succ_iff, hverdict, Verdict.complete.injEq,
          exists_eq_left']
  | @waited k p reader pull =>
      refine ⟨⟨hinv, hcapacity, hreturned⟩, hfree, ?_, ?_⟩
      · simp [remaining, Connection.room, readerRank, reader]
      · have hnone := pull_no_packet hrange pull (by simp)
        simp only [Overfull, reader, cutsAtLeast_succ_iff, false_iff]
        exact fun ⟨n, hverdict, _⟩ => hnone n hverdict
  | @rejected k err p reader pull =>
      refine ⟨⟨hinv, hcapacity, hreturned⟩, hfree, ?_, ?_⟩
      · simp [remaining, Connection.room, readerRank, reader]
      · have hnone := pull_no_packet hrange pull (by simp)
        simp only [Overfull, reader, cutsAtLeast_succ_iff, false_iff]
        exact fun ⟨n, hverdict, _⟩ => hnone n hverdict
  | @send k pkt reader room =>
      have hroom : framerChanCap - (k.ch ++ [pkt]).length + 1 =
          framerChanCap - k.ch.length := by
        rw [List.length_append, List.length_singleton]
        omega
      refine ⟨⟨hinv, hcapacity, hreturned⟩, hfree, ?_, ?_⟩
      · simp only [remaining, Connection.room, readerRank, reader]
        omega
      · simp only [Overfull, reader, Connection.room, hroom]
  | authPassed k handler => cases handler.symm.trans hreturned
  | authFailed k handler => cases handler.symm.trans hreturned
  | authTimeout k handler => cases handler.symm.trans hreturned
  | takePacket k handler => cases handler.symm.trans hreturned
  | handled k handler => cases handler.symm.trans hreturned
  | takeError k handler => cases handler.symm.trans hreturned
  | quit k handler => cases handler.symm.trans hreturned

/-- What a reader does when it gets nothing from its socket any more. -/
def ReaderEvent : ConnectionEvent → Prop
  | .readError _ => True
  | .report => True
  | .pull => True
  | .send => True
  | _ => False

/-- An abandoned reader can go on until it ends or waits at the send. -/
theorem Abandoned.exists_step
    {k : Connection}
    (h : Abandoned k)
    (free : ¬ AtSend k)
    (running : k.reader ≠ .returned) :
    ∃ e, ReaderEvent e ∧ ∃ k' out, connectionStep k e = .next k' out := by
  cases hreader : k.reader with
  | reading =>
      refine ⟨.readError "", trivial, ?_⟩
      simp only [connectionStep, hreader]
      exact ⟨_, _, rfl⟩
  | pushing =>
      refine ⟨.pull, trivial, ?_⟩
      simp only [connectionStep, hreader, h.inv.inRange.pull_eq]
      cases verdict k.framer.live <;> exact ⟨_, _, rfl⟩
  | sending pkt =>
      have hroom : k.ch.length < framerChanCap :=
        Nat.lt_of_not_le fun hfull => free ⟨pkt, hreader, hfull⟩
      refine ⟨.send, trivial, ?_⟩
      simp only [connectionStep, hreader, hroom, if_true]
      exact ⟨_, _, rfl⟩
  | failing err =>
      -- no error was sent before
      have hempty : k.errch = [] := h.inv.errch_nil running
      refine ⟨.report, trivial, ?_⟩
      simp only [connectionStep, hreader, hempty]
      exact ⟨_, _, rfl⟩
  | returned => exact absurd hreader running

/-- The socket of a connection is closed when its handler has returned. -/
theorem unregistered_of_returned
    {vf : ValidationFunc} {tr : List ServerTransition} {s : TCPServer}
    (run : ServerRun vf tr s)
    (c : ClientPtr) :
    s.conn c = .returned → s.clients c = false := by
  refine run.invariant (I := fun s => s.conn c = .returned →
    s.clients c = false) (fun h => by cases h) (fun t valid hpre hpost => ?_)
  have m := TCPServer.move_of_valid valid
  by_cases hown : handlerOf t.event = some c
  swap
  · have hsame := m.untouched hown
    rw [hsame.conn] at hpost
    rw [hsame.registered]
    exact hpre hpost
  cases m with
  | accept s d n conn => cases hown; simp at hpost
  | authenticate s d p n conn passes => cases hown; simp at hpost
  | close s d closes =>
      rw [TCPServer.handlerOf_of_closes closes] at hown
      cases hown
      simp [TCPServer.setConn, TCPServer.closed_registered]
  | dispatch s d p n conn dispatched =>
      cases hown
      rw [dispatched.conn, conn] at hpost
      cases hpost
  | receive => cases hown
  | broadCast => cases hown

section Run

variable {vf : ValidationFunc} {tr : List ProcessTransition} {s : Process}
variable {c : ClientPtr}

/-- When a handler has returned, its reader is abandoned. -/
theorem abandoned_of_returned
    (run : ProcessRun vf tr s)
    (returned : (s.conn c).handler = .returned) :
    Abandoned (s.conn c) := by
  obtain ⟨id, hrun⟩ := connectionRun_fresh run c
  exact ⟨readerInv_of_run hrun (.newConnection id),
    withinCapacity_of_run hrun (withinCapacity_newConnection id), returned⟩

/-- The server knows that it has returned. -/
theorem conn_of_returned
    (run : ProcessRun vf tr s)
    (returned : (s.conn c).handler = .returned) :
    s.server.conn c = .returned := by
  have hcoupled := (coupled_of_run run).clients c
  have hopened : Opened c s := by
    intro habsent
    rw [hcoupled.unopened habsent] at returned
    cases returned
  rw [hcoupled.opened hopened, returned]
  rfl

/-- Its connection is open, and its socket closed. -/
theorem closed_of_returned
    (run : ProcessRun vf tr s)
    (returned : (s.conn c).handler = .returned) :
    Opened c s ∧ s.server.clients c = false := by
  have hconn := conn_of_returned run returned
  refine ⟨fun habsent => ?_,
    unregistered_of_returned (serverRun_of_run run) c hconn⟩
  cases hconn.symm.trans habsent

/-- What a connection did was enabled. -/
theorem enabled_of_view
    {t : ProcessTransition} {e : ConnectionEvent} {out : List Packet}
    (m : ProcessMove t)
    (view : connectionView c t = some (e, out)) :
    Enabled t.pre c e := by
  cases m with
  | alone s d e' n opened enabled =>
      simp only [connectionView] at view
      split_ifs at view with hdc
      cases view
      exact hdc ▸ enabled
  | joint s d e' n opened enabled =>
      simp only [connectionView] at view
      split_ifs at view with hdc
      cases view
      exact hdc ▸ enabled
  | _ => cases view

/-- What the process does to an abandoned reader. -/
theorem abandonedStep_of_valid
    (run : ProcessRun vf tr s)
    (returned : (s.conn c).handler = .returned)
    {t : ProcessTransition}
    (pre : t.pre = s)
    (valid : processSystem.Valid t) :
    (connectionView c t = none ∧ t.post.conn c = t.pre.conn c) ∨
      ((connectionView c t).isSome ∧
        AbandonedStep (t.pre.conn c) (t.post.conn c)) := by
  subst pre
  obtain ⟨hopened, hclosed⟩ := closed_of_returned run returned
  have m := processMove_of_valid valid
  have hproj := (m.connection c).projects hopened
  cases hview : connectionView c t with
  | none => exact Or.inl ⟨rfl, hproj.hidden hview⟩
  | some io =>
      obtain ⟨e, out⟩ := io
      refine Or.inr ⟨rfl, (abandoned_of_returned run returned).move
        (t := ⟨t.pre.conn c, e, out, t.post.conn c⟩)
        (hproj.visible e out hview) ?_⟩
      have henabled := enabled_of_view m hview
      -- nothing can be read from a closed socket
      cases e with
      | read data => exact absurd (hclosed.symm.trans henabled) (by simp)
      | eof => exact absurd (hclosed.symm.trans henabled) (by simp)
      | _ => trivial

/-- A reachable state in which the handler of a client has returned. -/
structure HandlerGone (vf : ValidationFunc) (c : ClientPtr) (s : Process) :
    Prop where
  reachable : ∃ tr, ProcessRun vf tr s
  returned : (s.conn c).handler = .returned

/-- It stays returned, and the room for the reader's packets the same. -/
theorem HandlerGone.step
    {t : ProcessTransition}
    (h : HandlerGone vf c t.pre)
    (valid : processSystem.Valid t) :
    HandlerGone vf c t.post ∧
      (Overfull (t.post.conn c) ↔ Overfull (t.pre.conn c)) ∧
      remaining (t.post.conn c) + (connectionView c t).toList.length ≤
        remaining (t.pre.conn c) := by
  obtain ⟨tr, hrun⟩ := h.reachable
  have hreach : ∃ tr, ProcessRun vf tr t.post := ⟨_, hrun.snoc t valid⟩
  rcases abandonedStep_of_valid hrun h.returned rfl valid with
    ⟨hview, hsame⟩ | ⟨hview, hstep⟩
  · refine ⟨⟨hreach, ?_⟩, ?_, ?_⟩
    · rw [hsame]
      exact h.returned
    · rw [hsame]
    · simp [hview, hsame]
  · refine ⟨⟨hreach, hstep.abandoned.returned⟩, hstep.overfull, ?_⟩
    obtain ⟨io, hio⟩ := Option.isSome_iff_exists.mp hview
    rw [hio]
    exact hstep.decreases

/-- All that can happen after a handler has returned. -/
theorem HandlerGone.run
    (h : HandlerGone vf c s)
    {tr' : List ProcessTransition} {s' : Process}
    (cont : processSystem.Run s tr' s') :
    HandlerGone vf c s' ∧ (Overfull (s'.conn c) ↔ Overfull (s.conn c)) ∧
      (connectionTrace c tr').length + remaining (s'.conn c) ≤
        remaining (s.conn c) := by
  have hinv := cont.invariant (I := fun s' => HandlerGone vf c s' ∧
    (Overfull (s'.conn c) ↔ Overfull (s.conn c))) ⟨h, Iff.rfl⟩
    (fun t valid hpre => ⟨(hpre.1.step valid).1,
      (hpre.1.step valid).2.1.trans hpre.2⟩)
  refine ⟨hinv.1, hinv.2, ?_⟩
  rw [connectionTrace, length_shown]
  have hcount := cont.spent_add_le (HandlerGone vf c)
    (fun s => remaining (s.conn c))
    (fun t => (connectionView c t).toList.length) (fun _ => 0) h
    (fun t valid hpre => (hpre.step valid).1)
    (fun t valid hpre => (hpre.step valid).2.2)
  simpa using hcount

/-- The reader can always take its next step. -/
theorem valid_reader
    (opened : Opened c s)
    {e : ConnectionEvent} {k : Connection} {out : List Packet}
    (reader : ReaderEvent e)
    (step : connectionStep (s.conn c) e = .next k out) :
    processSystem.Valid ⟨s, .connection c e 0, [], s.setConnection c k⟩ := by
  have hopened : s.server.conn c ≠ .absent := opened
  cases e with
  | readError | report | pull | send =>
      simp [System.Valid, processSystem, Process.step,
        Process.connectionEvent, hopened, Enabled, step, serverEvent]
  | _ => exact reader.elim

/-- The reader can run until it ends or waits at the send. -/
theorem HandlerGone.exists_rest
    (h : HandlerGone vf c s) :
    ∃ tr' s', processSystem.Run s tr' s' ∧
      ((s'.conn c).reader = .returned ∨ AtSend (s'.conn c)) := by
  have hprogress : ∀ s, HandlerGone vf c s →
      ¬ ((s.conn c).reader = .returned ∨ AtSend (s.conn c)) →
        ∃ t : ProcessTransition, t.pre = s ∧ processSystem.Valid t ∧ True ∧
          HandlerGone vf c t.post ∧
          remaining (t.post.conn c) < remaining (s.conn c) := by
    intro s hgone hnot
    obtain ⟨hrunning, hfree⟩ := not_or.mp hnot
    obtain ⟨tr, hrun⟩ := hgone.reachable
    obtain ⟨e, hreader, k, out, hstep⟩ :=
      (abandoned_of_returned hrun hgone.returned).exists_step hfree hrunning
    have hopened := (closed_of_returned hrun hgone.returned).1
    have hvalid := valid_reader hopened hreader hstep
    obtain ⟨hpost, -, hless⟩ := hgone.step hvalid
    refine ⟨_, rfl, hvalid, trivial, hpost, ?_⟩
    simpa [connectionView] using hless
  obtain ⟨tr', s', hrun, -, -, hdone⟩ := System.exists_run_to
    (HandlerGone vf c) _ (fun _ => True) (fun s => remaining (s.conn c))
    hprogress s h
  exact ⟨tr', s', hrun, hdone⟩

/-- A reader that waits at the send waits there for good. -/
theorem HandlerGone.stays
    (h : HandlerGone vf c s)
    (atSend : AtSend (s.conn c))
    {tr' : List ProcessTransition} {s' : Process}
    (cont : processSystem.Run s tr' s') :
    s'.conn c = s.conn c := by
  refine (cont.invariant (I := fun s' => HandlerGone vf c s' ∧
    s'.conn c = s.conn c) ⟨h, rfl⟩ (fun t valid hpre => ?_)).2
  obtain ⟨hgone, hsame⟩ := hpre
  obtain ⟨tr, hrun⟩ := hgone.reachable
  refine ⟨(hgone.step valid).1, ?_⟩
  rcases abandonedStep_of_valid hrun hgone.returned rfl valid with
    ⟨-, hkept⟩ | ⟨-, hstep⟩
  · exact hkept.trans hsame
  · rw [← hsame] at atSend
    exact absurd atSend hstep.notAtSend

/--
How a reader ends.  Once the handler of a connection has returned, the reader
takes at most 24 more steps, whatever else the process does.  It can still run
to its end, and from every later state, exactly when the packets it has left
fit into the channel.  Otherwise it never ends; it can run until it waits at
the send into the full channel, and there it waits for good.
-/
theorem reader_ends_iff
    (run : ProcessRun vf tr s)
    (c : ClientPtr)
    (returned : (s.conn c).handler = .returned) :
    (∀ tr' s', processSystem.Run s tr' s' →
      (connectionTrace c tr').length ≤ 24) ∧
    ((∀ tr' s', processSystem.Run s tr' s' →
        ∃ tr'' s'', processSystem.Run s' tr'' s'' ∧
          (s''.conn c).reader = .returned) ↔
      ¬ Overfull (s.conn c)) ∧
    (Overfull (s.conn c) → ∀ tr' s', processSystem.Run s tr' s' →
      (s'.conn c).reader ≠ .returned ∧
      (∃ tr'' s'', processSystem.Run s' tr'' s'' ∧ AtSend (s''.conn c)) ∧
      (AtSend (s'.conn c) → ∀ tr'' s'', processSystem.Run s' tr'' s'' →
        s''.conn c = s'.conn c)) := by
  have hgone : HandlerGone vf c s := ⟨⟨tr, run⟩, returned⟩
  refine ⟨fun tr' s' cont => ?_, ⟨fun hends hover => ?_, ?_⟩, ?_⟩
  · obtain ⟨-, -, hcount⟩ := hgone.run cont
    have hrank : readerRank (s.conn c).reader ≤ 4 := by
      cases (s.conn c).reader <;> simp [readerRank]
    simp only [remaining, Connection.room, framerChanCap] at hcount
    omega
  · obtain ⟨tr'', s'', hrun, hreader⟩ := hends [] s .nil
    exact ((hgone.run hrun).2.1.mpr hover).running hreader
  · intro hfits tr' s' cont
    obtain ⟨tr'', s'', hrun, hrest⟩ := (hgone.run cont).1.exists_rest
    refine ⟨tr'', s'', hrun, hrest.resolve_right fun hsend => hfits ?_⟩
    exact (hgone.run (cont.append hrun)).2.1.mp hsend.overfull
  · intro hover tr' s' cont
    obtain ⟨hgone', hover', -⟩ := hgone.run cont
    refine ⟨(hover'.mpr hover).running, ?_,
      fun hsend tr'' s'' hrun => hgone'.stays hsend hrun⟩
    obtain ⟨tr'', s'', hrun, hrest⟩ := hgone'.exists_rest
    refine ⟨tr'', s'', hrun, hrest.resolve_left ?_⟩
    exact ((hgone.run (cont.append hrun)).2.1.mpr hover).running

/-- A client that sends 25 packets at once, none of them its id. -/
def floods : List ProcessEvent :=
  [.accept 0, .handleConnection 0 0,
    .connection 0 (.read (List.replicate 25 [1, 129, 0, 0]).flatten) 0,
    .connection 0 .pull 0, .connection 0 .send 0,
    .connection 0 .authPacket 0]

/-- Its reader is left waiting at the send. -/
theorem reader_ends_flood :
    ∃ tr s, ProcessRun nopValidationFunc tr s ∧
      tr.map Transition.event = floods ∧
      (s.conn 0).handler = .returned ∧ Overfull (s.conn 0) ∧
      ∃ tr' s', processSystem.Run s tr' s' ∧ AtSend (s'.conn 0) := by
  have hexec : (processSystem.exec (newProcess nopValidationFunc)
      floods).map (fun r => ((r.2.conn 0).handler,
        decide (Overfull (r.2.conn 0)))) = some (.returned, true) := by
    decide +kernel
  obtain ⟨tr, s, hrun, hevents, hend⟩ := System.run_of_exec hexec
  simp only [Prod.mk.injEq, decide_eq_true_eq] at hend
  obtain ⟨hreturned, hover⟩ := hend
  obtain ⟨-, -, hwaits⟩ := reader_ends_iff hrun 0 hreturned
  exact ⟨tr, s, hrun, hevents, hreturned, hover, (hwaits hover [] s .nil).2.1⟩

end Run

end ReaderEnd

end Server
end TurnBasedGame
