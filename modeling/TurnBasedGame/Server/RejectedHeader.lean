import TurnBasedGame.Server.Connection

/-!
# Rejected headers

A header of another version, or with a length that is too large, is rejected
by `pull` and stays in front of the live bytes: `push` only adds bytes behind
it.  The reader ignores the error and goes on pushing what it reads.

The module proves that the error is permanent, and what it costs: bytes are
taken in and never given out, so that the receive buffer stays within its
bound exactly as long as not too many of them arrive behind a rejected header.
-/

namespace TurnBasedGame
namespace Server

open Kernel
open PacketFramer

section RejectedHeader

/-- The framer rejects the header in front of the bytes. -/
def Rejects (w : List UInt8) : Prop :=
  ∃ err, verdict w = .rejected err

instance : DecidablePred Rejects := fun w =>
  match h : verdict w with
  | .rejected err => .isTrue ⟨err, h⟩
  | .waiting => .isFalse fun ⟨_, herr⟩ => by cases h.symm.trans herr
  | .complete _ => .isFalse fun ⟨_, herr⟩ => by cases h.symm.trans herr

/-- The bytes of a header that the framer rejects. -/
theorem verdict_rejected_append
    {w : List UInt8} {err : ServerError}
    (h : verdict w = .rejected err)
    (v : List UInt8) :
    verdict (w ++ v) = .rejected err := by
  have hlen : packetHeaderSize ≤ w.length := by
    by_contra hshort
    rw [verdict, if_pos (by omega)] at h
    cases h
  have hhead : (w ++ v).head? = w.head? := by
    cases w with
    | nil => simp [packetHeaderSize] at hlen
    | cons b rest => rfl
  have hfull : fullLength (w ++ v) = fullLength w := by
    rw [fullLength, fullLength, lengthField_append v hlen]
  have hlen' : ¬ (w ++ v).length < packetHeaderSize := by
    rw [List.length_append]
    omega
  rw [verdict, if_neg (by omega)] at h
  rw [verdict, if_neg hlen', hhead, hfull]
  split_ifs at h ⊢ with hversion hmax
  · exact h
  · exact h

section Permanent

variable {p : PacketFramer} {err : ServerError}

/-- A pull that fails leaves the framer alone, with a whole header in front. -/
theorem pull_failed
    {p' : PacketFramer}
    (hpull : p.pull = .ok (.failed err, p')) :
    p' = p ∧ (packetHeaderSize : Int) ≤ p.idx := by
  unfold pull at hpull
  by_cases hshort : p.idx < packetHeaderSize
  · rw [if_pos hshort] at hpull
    cases hpull
  refine ⟨?_, not_lt.mp hshort⟩
  rw [if_neg hshort] at hpull
  cases hv : index p.buf 0 with
  | error e => simp [hv, bind, Except.bind] at hpull
  | ok v =>
      simp only [hv, bind, Except.bind] at hpull
      by_cases hversion : v ≠ version
      · rw [if_pos hversion] at hpull
        cases hpull
        rfl
      rw [if_neg hversion] at hpull
      cases hlen : getPacketLength p.buf with
      | error e => simp [hlen] at hpull
      | ok pktLen =>
          simp only [hlen] at hpull
          split_ifs at hpull with hmax hfits
          · cases hpull
            rfl
          · generalize
              (pktLen + UInt16.ofNat packetHeaderSize).toNat = n at hpull
            cases hfront : sliceTo p.buf n with
            | error e => simp [hfront] at hpull
            | ok front =>
                cases htail : sliceFrom p.buf n with
                | error e => simp [hfront, htail] at hpull
                | ok tail => simp [hfront, htail, pure, Except.pure] at hpull
          · cases hpull

/-- In a buffer that holds its index, the header in front is rejected. -/
theorem verdict_of_pull_failed
    {p' : PacketFramer}
    (hp : p.InBounds)
    (hpull : p.pull = .ok (.failed err, p')) :
    verdict p.live = .rejected err := by
  rw [hp.pull_eq] at hpull
  cases hverdict : verdict p.live with
  | waiting => simp [hverdict] at hpull
  | complete n => simp [hverdict] at hpull
  | rejected err' =>
      simp only [hverdict, Except.ok.injEq, Prod.mk.injEq,
        Pulled.failed.injEq] at hpull
      rw [hpull.1]

/-- The header stays in front whatever is taken in behind it. -/
theorem filled_rejected
    (hp : p.InBounds)
    (h : verdict p.live = .rejected err)
    (data : List UInt8) :
    verdict (p.filled data).live = .rejected err := by
  rw [hp.filled_live data]
  exact verdict_rejected_append h _

/-- A push behind a rejected header returns the error and sends nothing. -/
theorem push_rejected
    (hp : p.InBounds)
    (h : verdict p.live = .rejected err)
    (fuel : Nat) (data : List UInt8) :
    p.push (fuel + 1) data =
      .ok ⟨[], p.filled data, .returned (some err)⟩ := by
  have hpull :
      (p.filled data).pull = .ok (.failed err, p.filled data) := by
    rw [(hp.filled data).pull_eq, filled_rejected hp h data]
  rw [hp.push_eq_drain, drain_failed hpull]

/-- Every byte pushed moves the index or the end of the buffer. -/
theorem filled_total
    (hp : p.InBounds)
    (data : List UInt8) :
    (p.filled data).idx.toNat + (p.filled data).buf.length =
      p.idx.toNat + p.buf.length + data.length := by
  have hnonneg := hp.nonneg
  have hacc : p.accepted data ≤ data.length := Nat.min_le_right _ _
  rw [hp.filled_buf_length data]
  simp only [PacketFramer.filled]
  omega

/-- Pushes behind a rejected header leave it there and send nothing. -/
theorem pushAll_rejected
    (hp : p.InBounds)
    (h : verdict p.live = .rejected err)
    (fuel : Nat) (chunks : List (List UInt8)) :
    ∃ q, PacketFramer.pushAll (fuel + 1) p chunks =
        .ok ⟨[], q, .returned none⟩ ∧
      q.InBounds ∧ verdict q.live = .rejected err ∧
      q.idx.toNat + q.buf.length =
        p.idx.toNat + p.buf.length + chunks.flatten.length := by
  induction chunks generalizing p with
  | nil => exact ⟨p, rfl, hp, h, rfl⟩
  | cons data rest ih =>
      obtain ⟨q, hpush, hq, hverdict, htotal⟩ :=
        ih (hp.filled data) (filled_rejected hp h data)
      refine ⟨q, ?_, hq, hverdict, ?_⟩
      · exact PacketFramer.pushAll_returned (push_rejected hp h fuel data)
          rfl hpush
      · rw [htotal, filled_total hp data, List.flatten_cons,
          List.length_append]
        omega

/-- A framer whose index has left its buffer can take in nothing. -/
theorem push_panics
    (hidx : (p.buf.length : Int) < p.idx)
    (fuel : Nat) (data : List UInt8) :
    p.push fuel data = .error .sliceOutOfRange := by
  have hfree : sliceFromInt p.buf p.idx = .error .sliceOutOfRange := by
    rw [sliceFromInt, if_neg (by omega), sliceFrom, if_neg (by omega)]
  simp only [PacketFramer.push, fill, hfree, bind, Except.bind]

/--
A rejected header is permanent.  In every state of a framer in which a pull
fails, every later call of `push` returns the same error and no packet is
sent, whatever the chunks are.  (In a state whose index lies outside the
buffer, which no framer reaches, every call of `push` is a run-time failure.)
-/
theorem rejected_permanent
    {p' : PacketFramer}
    (hpull : p.pull = .ok (.failed err, p')) :
    (p.idx ≤ p.buf.length →
      ∀ fuel chunks data, ∃ q q',
        PacketFramer.pushAll (fuel + 1) p' chunks =
          .ok ⟨[], q, .returned none⟩ ∧
        q.push (fuel + 1) data = .ok ⟨[], q', .returned (some err)⟩) ∧
    (p.buf.length < p.idx →
      ∀ fuel data, p'.push fuel data = .error .sliceOutOfRange) := by
  obtain ⟨rfl, hheader⟩ := pull_failed hpull
  simp only [packetHeaderSize] at hheader
  constructor
  · intro hidx fuel chunks data
    have hp : p'.InBounds := ⟨by omega, by omega⟩
    have hverdict := verdict_of_pull_failed hp hpull
    obtain ⟨q, hpushAll, hq, hrejected, -⟩ :=
      pushAll_rejected hp hverdict fuel chunks
    exact ⟨q, _, hpushAll, push_rejected hq hrejected fuel data⟩
  · exact fun hidx fuel data => push_panics hidx fuel data

/-- A header of version 2, in the buffer and half outside of it. -/
theorem rejected_permanent_version :
    (∃ q q',
      PacketFramer.pushAll 1 (newPacketFramer.filled [2, 0, 0, 0])
          [[1, 129, 0, 0], List.replicate 2000 1] =
        .ok ⟨[], q, .returned none⟩ ∧
      q.push 1 [1, 129, 0, 0] =
        .ok ⟨[], q', .returned (some .versionMismatch)⟩) ∧
    PacketFramer.push 1 ⟨[2, 0, 0, 0], 5⟩ [1] =
      .error .sliceOutOfRange := by
  have hp := newPacketFramer_inRange.filled [2, 0, 0, 0]
  have hlive : (newPacketFramer.filled [2, 0, 0, 0]).live =
      [2, 0, 0, 0] := by
    decide +kernel
  have hpull : (newPacketFramer.filled [2, 0, 0, 0]).pull =
      .ok (.failed .versionMismatch,
        newPacketFramer.filled [2, 0, 0, 0]) := by
    rw [hp.pull_eq, hlive]
    rfl
  have hout : PacketFramer.pull ⟨[2, 0, 0, 0], 5⟩ =
      .ok (.failed .versionMismatch, ⟨[2, 0, 0, 0], 5⟩) := rfl
  exact ⟨(rejected_permanent hpull).1 (by decide +kernel) 0 _ _,
    (rejected_permanent hout).2 (by decide) 1 [1]⟩

end Permanent

section BufferBound

/-- A framer that waits holds less than the longest packet it accepts. -/
theorem verdict_waiting_length
    {w : List UInt8}
    (h : verdict w = .waiting)
    (hlen : w.length < 65536) :
    w.length + 1 < packetMaxSize := by
  unfold verdict at h
  split_ifs at h with hshort hversion hmax hfits
  · simp only [packetHeaderSize] at hshort
    simp only [packetMaxSize]
    omega
  · rw [Nat.mod_eq_of_lt hlen] at hfits
    omega

/-- The longest buffer a framer should ever have. -/
def bufBound : Nat := packetMaxSize + readSize

/-- The chunk of a step, where it is a push, is as short as a read. -/
def ShortRead (t : FramerTransition) : Prop :=
  ∀ data, t.event = .push data → data.length ≤ readSize

/-- Behind a rejected header, no push fills in more than the bound. -/
def RejectedFits (t : FramerTransition) : Prop :=
  ∀ data, t.event = .push data → Rejects t.pre.framer.live →
    t.pre.framer.live.length + data.length ≤ bufBound

/-- The buffer is within its bound, and a call returns for a reason. -/
structure Bounded (s : FramerState) : Prop where
  inRange : s.framer.InRange
  bound : s.framer.buf.length ≤ bufBound
  idle : s.looping = false →
    verdict s.framer.live = .waiting ∨ Rejects s.framer.live

theorem freshFramer_bounded :
    Bounded freshFramer where
  inRange := newPacketFramer_inRange
  bound := by
    simp [freshFramer, newPacketFramer, bufBound]
  idle := fun _ => Or.inl rfl

/-- A chunk makes the buffer as long as the live bytes and the chunk. -/
theorem filled_buf_length_eq
    {p : PacketFramer}
    (hp : p.InRange)
    (data : List UInt8) :
    (p.filled data).buf.length =
      max p.buf.length (p.live.length + data.length) := by
  have hle := hp.le_buf
  rw [hp.filled_buf_length data, hp.live_length, accepted]
  omega

/-- Steps that meet the condition keep the buffer within its bound. -/
theorem FramerMove.bounded
    {t : FramerTransition}
    (move : FramerMove t)
    (short : ShortRead t)
    (fits : RejectedFits t)
    (h : Bounded t.pre) :
    Bounded t.post := by
  refine ⟨move.inRange h.inRange, ?_, ?_⟩
  · cases move with
    | filled p data =>
        have hdata := short data rfl
        have hbound : p.buf.length ≤ bufBound := h.bound
        have hlen : p.live.length + data.length ≤ bufBound := by
          rcases h.idle rfl with hwait | hreject
          · have hlive : p.live.length = p.idx.toNat := h.inRange.live_length
            have hle : p.idx.toNat ≤ p.buf.length := h.inRange.le_buf
            have hmax : p.live.length + 1 < packetMaxSize :=
              verdict_waiting_length hwait (by
                simp only [bufBound, packetMaxSize, readSize] at hbound
                omega)
            simp only [bufBound]
            omega
          · exact fits data rfl hreject
        simp only [filled_buf_length_eq h.inRange data]
        exact max_le hbound hlen
    | emitted p n complete => simpa using h.bound
    | returned p stops => exact h.bound
  · cases move with
    | filled p data => exact fun hidle => by cases hidle
    | emitted p n complete => exact fun hidle => by cases hidle
    | returned p stops =>
        intro _
        cases hverdict : verdict p.live with
        | waiting => exact Or.inl rfl
        | rejected err => exact Or.inr ⟨err, hverdict⟩
        | complete n => exact absurd hverdict (stops n)

/--
The receive buffer.  In every run with chunks as short as the reads of
`FrameWithReader`, the buffer stays within its bound exactly when no push
behind a rejected header fills in more than the bound.
-/
theorem buffer_bounded_iff
    {tr : List FramerTransition} {s : FramerState}
    (run : framerSystem.Run freshFramer tr s)
    (short : ∀ data ∈ pushedChunks tr, data.length ≤ readSize) :
    (∀ t ∈ tr, t.post.framer.buf.length ≤ packetMaxSize + readSize) ↔
      ∀ t ∈ tr, ∀ data, t.event = .push data →
        Rejects t.pre.framer.live →
          t.pre.framer.live.length + data.length ≤
            packetMaxSize + readSize := by
  have hmoves := framerMove_of_run run newPacketFramer_inRange
  constructor
  · intro hbound t ht data hevent hreject
    obtain ⟨first, rest, rfl⟩ := List.append_of_mem ht
    have hrange := framer_inRange run.before.1 newPacketFramer_inRange
    have hpost := hbound t ht
    cases hmoves t ht with
    | filled p data' =>
        cases hevent
        simp only [filled_buf_length_eq hrange data] at hpost
        exact (le_max_right _ _).trans hpost
    | emitted p n complete => cases hevent
    | returned p stops => cases hevent
  · intro hfits t ht
    obtain ⟨first, rest, rfl⟩ := List.append_of_mem ht
    have hshort : ∀ t' ∈ first ++ t :: rest, ShortRead t' :=
      fun t' ht' data hevent => short data (mem_pushedChunks ht' hevent)
    have hpre : Bounded t.pre := run.before.1.invariant_where
      (C := fun t => ShortRead t ∧ RejectedFits t) freshFramer_bounded
      (fun _ valid hc hpre =>
        (framerMove_of_valid valid hpre.inRange).bounded hc.1 hc.2 hpre)
      (fun t' ht' =>
        have hmem := List.mem_append_left (t :: rest) ht'
        ⟨hshort t' hmem, hfits t' hmem⟩)
    exact ((hmoves t ht).bounded (hshort t ht) (hfits t ht) hpre).bound

/-- Pushes behind a rejected header make the buffer as large as they like. -/
theorem rejected_buffer_unbounded
    {p : PacketFramer} {err : ServerError}
    (hp : p.InBounds)
    (h : verdict p.live = .rejected err)
    (bound : Nat) :
    ∃ chunks q, (∀ data ∈ chunks, data.length ≤ readSize) ∧
      PacketFramer.pushAll 1 p chunks = .ok ⟨[], q, .returned none⟩ ∧
      bound < q.buf.length := by
  obtain ⟨q, hpush, hq, -, htotal⟩ := pushAll_rejected hp h 0
    (List.replicate (2 * bound + 1) (List.replicate readSize 0))
  refine ⟨_, q, fun data hdata => ?_, hpush, ?_⟩
  · simp [List.eq_of_mem_replicate hdata]
  · have hle := hq.le_buf
    simp only [List.flatten_replicate_replicate, List.length_replicate,
      readSize] at htotal
    omega

/-- Thirteen full reads of a stream with the wrong version. -/
def wrongVersionReads : List FramerEvent :=
  (List.replicate 13 [.push (List.replicate readSize 2), .pull]).flatten

/-- They fill in 1224 bytes behind the rejected header. -/
theorem buffer_exceeds :
    ∃ tr s, framerSystem.Run freshFramer tr s ∧
      tr.map Transition.event = wrongVersionReads ∧
      (∀ data ∈ pushedChunks tr, data.length ≤ readSize) ∧
      s.framer.buf.length = 1200 ∧
      ¬ ∀ t ∈ tr, t.post.framer.buf.length ≤ packetMaxSize + readSize := by
  have hexec : (framerSystem.exec freshFramer wrongVersionReads).map
      (fun r => ((pushedChunks r.1).all (fun d => d.length ≤ readSize),
        r.2.framer.buf.length,
        r.1.all (fun t =>
          t.post.framer.buf.length ≤ packetMaxSize + readSize))) =
      some (true, 1200, false) := by
    decide +kernel
  obtain ⟨tr, s, hrun, hevents, hend⟩ := System.run_of_exec hexec
  simp only [Prod.mk.injEq, List.all_eq_true, decide_eq_true_eq] at hend
  obtain ⟨hshort, hlen, hfails⟩ := hend
  refine ⟨tr, s, hrun, hevents, hshort, hlen, fun hbound => ?_⟩
  rw [List.all_eq_true.mpr (by simpa using hbound)] at hfails
  cases hfails

/-- A packet, and one read behind a header with the wrong version. -/
theorem buffer_bounded_short :
    ∃ tr s, framerSystem.Run freshFramer tr s ∧
      tr.map Transition.event =
        [.push [1, 129, 0, 0], .pull, .pull, .push [2, 0, 0, 0], .pull,
          .push (List.replicate readSize 1)] ∧
      ∀ t ∈ tr, t.post.framer.buf.length ≤ packetMaxSize + readSize := by
  have hexec : (framerSystem.exec freshFramer
      [.push [1, 129, 0, 0], .pull, .pull, .push [2, 0, 0, 0], .pull,
        .push (List.replicate readSize 1)]).map
      (fun r => ((pushedChunks r.1).all (fun d => d.length ≤ readSize),
        r.1.all (fun t => t.pre.framer.live.length ≤ 4))) =
      some (true, true) := by
    decide +kernel
  obtain ⟨tr, s, hrun, hevents, hend⟩ := System.run_of_exec hexec
  simp only [Prod.mk.injEq, List.all_eq_true, decide_eq_true_eq] at hend
  obtain ⟨hshort, hlive⟩ := hend
  refine ⟨tr, s, hrun, hevents,
    (buffer_bounded_iff hrun hshort).mpr fun t ht data hevent _ => ?_⟩
  have hdata := hshort data (mem_pushedChunks ht hevent)
  have hle := hlive t ht
  simp only [packetMaxSize]
  omega

end BufferBound

end RejectedHeader

end Server
end TurnBasedGame
