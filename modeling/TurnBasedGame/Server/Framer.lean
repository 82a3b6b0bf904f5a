import TurnBasedGame.Kernel.Transition
import TurnBasedGame.Server.Errors
import TurnBasedGame.Server.Packet

/-!
# The packet framer

`PacketFramer` collects the bytes read from a connection in a buffer and cuts
packets off its front.  `push` copies a chunk into the free part of the
buffer, appends what did not fit behind it, and pulls packets until none is
complete or the header in front is rejected.

The faithful definitions check every index and slice.  Above them the module
describes one pull as a function of the live bytes `buf[:idx]` alone
(`verdict`), for every framer whose index is in range, and shows that this
range is never left.
-/

namespace TurnBasedGame
namespace Server

open Kernel

section Framer

/-- The receive buffer of a connection; `buf[:idx]` are the bytes in it. -/
structure PacketFramer where
  buf : List UInt8
  idx : Int
deriving DecidableEq, Repr

/-- What one call of `pull` returns. -/
inductive Pulled
  | nothing
  | failed (err : ServerError)
  | packet (pkt : Packet)
deriving DecidableEq, Repr

namespace PacketFramer

/-- The framer a connection starts with. -/
def newPacketFramer : PacketFramer where
  buf := List.replicate packetMaxSize 0
  idx := 0

/-- Cut one packet off the front of the buffer. -/
def pull (p : PacketFramer) : Checked (Pulled × PacketFramer) := do
  if p.idx < packetHeaderSize then
    return (.nothing, p)
  let v ← index p.buf 0
  if v ≠ version then
    return (.failed .versionMismatch, p)
  let pktLen ← getPacketLength p.buf
  -- 16-bit addition: it wraps around for lengths from 65532 on
  let fullLen := pktLen + UInt16.ofNat packetHeaderSize
  if UInt16.ofNat packetMaxSize ≤ fullLen then
    return (.failed .packetLengthMismatch, p)
  if fullLen ≤ UInt16.ofInt p.idx then
    let front ← sliceTo p.buf fullLen.toNat
    let out := copyInto (List.replicate fullLen.toNat 0) front
    let tail ← sliceFrom p.buf fullLen.toNat
    return (.packet ⟨out⟩,
      { buf := copyInto p.buf tail, idx := p.idx - fullLen.toNat })
  return (.nothing, p)

/-- The part of `push` before its loop: take the chunk into the buffer. -/
def fill (p : PacketFramer) (data : List UInt8) : Checked PacketFramer := do
  let free ← sliceFromInt p.buf p.idx
  let n := copyCount free data
  let buf := p.buf.take p.idx.toNat ++ copyInto free data
  if n < data.length then
    let rest ← sliceFrom data n
    -- only the copied bytes are counted in the index
    return { buf := buf ++ rest, idx := p.idx + n }
  return { buf := buf, idx := p.idx + n }

/-- How far the loop of `push` has come. -/
inductive LoopStatus
  | running
  | returned (err : Option ServerError)
deriving DecidableEq, Repr

/-- What some iterations of the loop of `push` have done. -/
structure LoopResult where
  sent : List Packet
  framer : PacketFramer
  status : LoopStatus
deriving DecidableEq, Repr

/-- At most `fuel` iterations of the loop of `push`, with `C` drained. -/
def drain : Nat → PacketFramer → Checked LoopResult
  | 0, p => return ⟨[], p, .running⟩
  | fuel + 1, p => do
      let (res, p') ← p.pull
      match res with
      | .failed err => return ⟨[], p', .returned (some err)⟩
      | .nothing => return ⟨[], p', .returned none⟩
      | .packet pkt =>
          let r ← drain fuel p'
          return { r with sent := pkt :: r.sent }

/-- Hand a chunk to the framer, with at most `fuel` iterations of its loop. -/
def push (fuel : Nat) (p : PacketFramer) (data : List UInt8) :
    Checked LoopResult := do
  let p' ← p.fill data
  drain fuel p'

/--
Push chunk after chunk, as the reader does with what it has read; the errors
of `push` are ignored there, so only a loop that goes on forever ends it.
-/
def pushAll (fuel : Nat) : PacketFramer → List (List UInt8) → Checked LoopResult
  | p, [] => return ⟨[], p, .returned none⟩
  | p, data :: rest => do
      let r ← p.push fuel data
      match r.status with
      | .running => return r
      | .returned _ =>
          let r' ← pushAll fuel r.framer rest
          return { r' with sent := r.sent ++ r'.sent }

/-- The index lies in the buffer. -/
structure InBounds (p : PacketFramer) : Prop where
  nonneg : 0 ≤ p.idx
  le_buf : p.idx.toNat ≤ p.buf.length

/-- The index lies in the buffer, which never gets smaller than it began. -/
structure InRange (p : PacketFramer) : Prop extends InBounds p where
  size_le : packetMaxSize ≤ p.buf.length

/-- The bytes received and not yet cut off. -/
def live (p : PacketFramer) : List UInt8 :=
  p.buf.take p.idx.toNat

/-- Bytes a chunk of data fills in before the buffer is full. -/
def accepted (p : PacketFramer) (data : List UInt8) : Nat :=
  min (p.buf.length - p.idx.toNat) data.length

/-- What `pull` makes of the live bytes. -/
inductive Verdict
  | waiting
  | rejected (err : ServerError)
  | complete (n : Nat)
deriving DecidableEq, Repr

/-- The full length of the packet in front, as the framer computes it. -/
def fullLength (w : List UInt8) : Nat :=
  (lengthField w + packetHeaderSize) % 65536

/-- One pull, as a function of the live bytes. -/
def verdict (w : List UInt8) : Verdict :=
  if w.length < packetHeaderSize then
    .waiting
  else if w.head? ≠ some version then
    .rejected .versionMismatch
  else if packetMaxSize ≤ fullLength w then
    .rejected .packetLengthMismatch
  else if fullLength w ≤ w.length % 65536 then
    .complete (fullLength w)
  else
    .waiting

/-- The framer after `n` bytes were cut off its front. -/
def cutFront (p : PacketFramer) (n : Nat) : PacketFramer where
  buf := copyInto p.buf (p.buf.drop n)
  idx := p.idx - n

/-- The framer after a chunk was taken into the buffer. -/
def filled (p : PacketFramer) (data : List UInt8) : PacketFramer where
  buf := p.buf.take p.idx.toNat ++
    copyInto (p.buf.drop p.idx.toNat) data ++ data.drop (p.accepted data)
  idx := p.idx + p.accepted data

theorem newPacketFramer_inRange :
    newPacketFramer.InRange where
  nonneg := Int.le_refl 0
  le_buf := Nat.zero_le _
  size_le := by simp [newPacketFramer]

@[simp] theorem newPacketFramer_live :
    newPacketFramer.live = [] := by
  simp [live, newPacketFramer]

section Iterations

variable {p p' : PacketFramer} {fuel : Nat} {r : LoopResult}

/-- A pull without a packet ends the loop. -/
theorem drain_nothing
    (h : p.pull = .ok (.nothing, p')) :
    drain (fuel + 1) p = .ok ⟨[], p', .returned none⟩ := by
  simp only [drain, h, bind, Except.bind, pure, Except.pure]

/-- So does a pull that fails. -/
theorem drain_failed
    {err : ServerError}
    (h : p.pull = .ok (.failed err, p')) :
    drain (fuel + 1) p = .ok ⟨[], p', .returned (some err)⟩ := by
  simp only [drain, h, bind, Except.bind, pure, Except.pure]

/-- A packet is sent, and the loop goes on. -/
theorem drain_packet
    {pkt : Packet}
    (h : p.pull = .ok (.packet pkt, p'))
    (hr : drain fuel p' = .ok r) :
    drain (fuel + 1) p = .ok { r with sent := pkt :: r.sent } := by
  simp only [drain, h, hr, bind, Except.bind, pure, Except.pure]

/-- Once a push has returned, the next chunk is pushed. -/
theorem pushAll_returned
    {data : List UInt8} {rest : List (List UInt8)} {err : Option ServerError}
    {r' : LoopResult}
    (h : p.push fuel data = .ok r)
    (returned : r.status = .returned err)
    (hr' : pushAll fuel r.framer rest = .ok r') :
    pushAll fuel p (data :: rest) =
      .ok { r' with sent := r.sent ++ r'.sent } := by
  simp only [pushAll, h, returned, hr', bind, Except.bind, pure, Except.pure]

/-- A push that is still running is the last one. -/
theorem pushAll_running
    {data : List UInt8} {rest : List (List UInt8)}
    (h : p.push fuel data = .ok r)
    (running : r.status = .running) :
    pushAll fuel p (data :: rest) = .ok r := by
  simp only [pushAll, h, running, bind, Except.bind, pure, Except.pure]

/-- What pushing chunk after chunk has done when it is over. -/
theorem pushAll_cons_cases
    {data : List UInt8} {rest : List (List UInt8)}
    (h : pushAll fuel p (data :: rest) = .ok r) :
    ∃ r₁, p.push fuel data = .ok r₁ ∧
      ((r₁.status = .running ∧ r = r₁) ∨
        ∃ err r₂, r₁.status = .returned err ∧
          pushAll fuel r₁.framer rest = .ok r₂ ∧
          r = { r₂ with sent := r₁.sent ++ r₂.sent }) := by
  cases hpush : p.push fuel data with
  | error e => simp [pushAll, hpush, bind, Except.bind] at h
  | ok r₁ =>
      refine ⟨r₁, rfl, ?_⟩
      cases hstatus : r₁.status with
      | running =>
          rw [pushAll_running hpush hstatus, Except.ok.injEq] at h
          exact .inl ⟨rfl, h.symm⟩
      | returned err =>
          cases hrest : pushAll fuel r₁.framer rest with
          | error e =>
              simp [pushAll, hpush, hstatus, hrest, bind, Except.bind] at h
          | ok r₂ =>
              rw [pushAll_returned hpush hstatus hrest,
                Except.ok.injEq] at h
              exact .inr ⟨err, r₂, rfl, rfl, h.symm⟩

end Iterations

section InBounds

variable {p : PacketFramer}

theorem InBounds.live_length
    (h : p.InBounds) :
    p.live.length = p.idx.toNat := by
  simp [live, h.le_buf]

/-- The live bytes begin like the buffer. -/
theorem InBounds.live_header
    (h : p.InBounds)
    (hlen : packetHeaderSize ≤ p.idx.toNat) :
    p.live.head? = p.buf.head? ∧
      lengthField p.live = lengthField p.buf := by
  have hbuf : p.live ++ p.buf.drop p.idx.toNat = p.buf :=
    List.take_append_drop _ _
  have hlive : packetHeaderSize ≤ p.live.length := by
    rw [h.live_length]
    exact hlen
  constructor
  · rw [← hbuf]
    cases hl : p.live with
    | nil => simp [hl, packetHeaderSize] at hlive
    | cons a rest => rfl
  · rw [← hbuf, lengthField_append _ hlive]

/-- The 16-bit length of the packet in front. -/
theorem fullLen_toNat
    (w : List UInt8) :
    (UInt16.ofNat (lengthField w) +
      UInt16.ofNat packetHeaderSize).toNat = fullLength w := by
  have hlt := lengthField_lt w
  simp only [UInt16.toNat_add, UInt16.toNat_ofNat', fullLength,
    packetHeaderSize]
  omega

/-- The conversion of the index to 16 bits keeps its last 16 bits. -/
theorem InBounds.idx_toUInt16
    (h : p.InBounds) :
    (UInt16.ofInt p.idx).toNat = p.idx.toNat % 65536 := by
  have hnonneg := h.nonneg
  simp only [UInt16.ofInt, UInt16.toNat_ofNat']
  omega

/-- One pull, for a framer whose index is in its buffer. -/
theorem InBounds.pull_eq
    (h : p.InBounds) :
    p.pull =
      .ok (match verdict p.live with
        | .waiting => (.nothing, p)
        | .rejected err => (.failed err, p)
        | .complete n => (.packet ⟨p.live.take n⟩, p.cutFront n)) := by
  have hnonneg := h.nonneg
  have hlive := h.live_length
  unfold pull verdict
  by_cases hshort : p.idx < packetHeaderSize
  · have hshort' : p.live.length < packetHeaderSize := by omega
    rw [if_pos hshort, if_pos hshort']
    rfl
  have hlong : packetHeaderSize ≤ p.idx.toNat := by omega
  obtain ⟨hhead, hfield⟩ := h.live_header hlong
  have hheader : packetHeaderSize ≤ p.buf.length := hlong.trans h.le_buf
  rw [if_neg hshort, if_neg (by omega), hhead, fullLength, hfield]
  have hbuf : 0 < p.buf.length := by
    simp only [packetHeaderSize] at hheader
    omega
  rw [index_ok hbuf, List.head?_eq_getElem?,
    List.getElem?_eq_getElem hbuf]
  simp only [bind, Except.bind, pure, Except.pure]
  by_cases hversion : p.buf[0] = version
  swap
  · simp [hversion]
  rw [getPacketLength_ok hheader]
  simp only [hversion, ne_eq, not_true_eq_false, if_false]
  have hfull := fullLen_toNat p.buf
  simp only [UInt16.le_iff_toNat_le, hfull, h.idx_toUInt16, hlive]
  rw [show (UInt16.ofNat packetMaxSize).toNat = packetMaxSize from rfl]
  rw [show (lengthField p.buf + packetHeaderSize) % 65536 =
    fullLength p.buf from rfl]
  by_cases hmax : packetMaxSize ≤ fullLength p.buf
  · simp [hmax]
  by_cases hfits : fullLength p.buf ≤ p.idx.toNat % 65536
  swap
  · simp [hmax, hfits]
  have hle : fullLength p.buf ≤ p.idx.toNat :=
    hfits.trans (Nat.mod_le _ _)
  have hlebuf : fullLength p.buf ≤ p.buf.length := hle.trans h.le_buf
  have hfront : (p.buf.take (fullLength p.buf)).length =
      (List.replicate (fullLength p.buf) (0 : UInt8)).length := by
    simp [hlebuf]
  simp only [hmax, hfits, if_true, if_false]
  rw [sliceTo_ok hlebuf, sliceFrom_ok hlebuf]
  simp only [copyInto_of_length_eq hfront, cutFront, live,
    List.take_take, Nat.min_eq_left hle]

/-- Taking in a chunk, for a framer whose index is in its buffer. -/
theorem InBounds.fill_eq
    (h : p.InBounds)
    (data : List UInt8) :
    p.fill data = .ok (p.filled data) := by
  unfold fill
  rw [sliceFromInt_ok h.nonneg h.le_buf]
  have hcount :
      copyCount (p.buf.drop p.idx.toNat) data = p.accepted data := by
    simp [copyCount, accepted]
  simp only [bind, Except.bind, hcount]
  by_cases hover : p.accepted data < data.length
  · rw [if_pos hover, sliceFrom_ok hover.le]
    rfl
  · have hdrop : data.drop (p.accepted data) = [] := by
      rw [List.drop_eq_nil_iff]
      omega
    rw [if_neg hover]
    simp [filled, hdrop, pure, Except.pure]

/-- A call of `push` runs its loop from the bytes it has taken in. -/
theorem InBounds.push_eq_drain
    (h : p.InBounds)
    (fuel : Nat) (data : List UInt8) :
    p.push fuel data = drain fuel (p.filled data) := by
  simp only [push, h.fill_eq data, bind, Except.bind]

/-- The length of the buffer after a chunk was taken in. -/
theorem InBounds.filled_buf_length
    (h : p.InBounds)
    (data : List UInt8) :
    (p.filled data).buf.length =
      p.buf.length + (data.length - p.accepted data) := by
  have hle := h.le_buf
  simp only [PacketFramer.filled, List.length_append, List.length_take,
    copyInto_length, List.length_drop]
  omega

/-- Taking in a chunk keeps the index in the buffer. -/
theorem InBounds.filled
    (h : p.InBounds)
    (data : List UInt8) :
    (p.filled data).InBounds := by
  have hnonneg := h.nonneg
  have hle := h.le_buf
  have hacc : p.accepted data ≤ p.buf.length - p.idx.toNat :=
    Nat.min_le_left _ _
  constructor
  · simp only [PacketFramer.filled]
    omega
  · rw [h.filled_buf_length data]
    simp only [PacketFramer.filled]
    omega

/-- Taking in a chunk adds the bytes that fit to the live bytes. -/
theorem InBounds.filled_live
    (h : p.InBounds)
    (data : List UInt8) :
    (p.filled data).live = p.live ++ data.take (p.accepted data) := by
  have hnonneg := h.nonneg
  have hle := h.le_buf
  have hcount :
      copyCount (p.buf.drop p.idx.toNat) data = p.accepted data := by
    simp [copyCount, accepted]
  have hidx : (p.idx + p.accepted data).toNat =
      (p.buf.take p.idx.toNat).length + p.accepted data := by
    simp only [List.length_take]
    omega
  have hacc : p.accepted data ≤
      (copyInto (p.buf.drop p.idx.toNat) data).length := by
    simp [accepted]
  simp only [PacketFramer.filled, live]
  rw [hidx, List.append_assoc, List.take_length_add_append,
    List.take_append_of_le_length hacc]
  rw [← hcount, copyInto_take]

end InBounds

section InRange

variable {p : PacketFramer}

/-- A packet is only cut off when all its bytes are live. -/
theorem verdict_complete
    {w : List UInt8} {n : Nat}
    (h : verdict w = .complete n) :
    n = fullLength w ∧ n < packetMaxSize ∧ n ≤ w.length % 65536 ∧
      packetHeaderSize ≤ w.length ∧ w.head? = some version := by
  unfold verdict at h
  split_ifs at h with hshort hversion hmax hfits
  have hn : fullLength w = n := by simpa using h
  refine ⟨hn.symm, by omega, by omega, by omega, ?_⟩
  simpa using hversion

/-- A packet that is cut off ends at or before the index. -/
theorem InRange.complete_le
    (h : p.InRange) {n : Nat}
    (complete : verdict p.live = .complete n) :
    n ≤ p.idx.toNat := by
  obtain ⟨-, -, hle, -, -⟩ := verdict_complete complete
  rw [← h.live_length]
  exact hle.trans (Nat.mod_le _ _)

/-- Cutting off live bytes keeps the index in range. -/
theorem InRange.cutFront
    (h : p.InRange) {n : Nat}
    (hn : n ≤ p.idx.toNat) :
    (p.cutFront n).InRange := by
  have hnonneg := h.nonneg
  have hle := h.le_buf
  refine ⟨⟨?_, ?_⟩, ?_⟩
  · simp only [PacketFramer.cutFront]
    omega
  · simp only [PacketFramer.cutFront, copyInto_length]
    omega
  · simpa [PacketFramer.cutFront] using h.size_le

/-- Cutting off live bytes leaves the other live bytes. -/
theorem InRange.cutFront_live
    (h : p.InRange) {n : Nat}
    (hn : n ≤ p.idx.toNat) :
    (p.cutFront n).live = p.live.drop n := by
  have hnonneg := h.nonneg
  have hle := h.le_buf
  have hidx : (p.idx - n).toNat = p.idx.toNat - n := by omega
  have hcount : p.idx.toNat - n ≤ (p.buf.drop n).length := by
    simp only [List.length_drop]
    omega
  simp only [PacketFramer.cutFront, live, hidx, copyInto]
  rw [List.take_of_length_le
    (show (p.buf.drop n).length ≤ p.buf.length by simp)]
  rw [List.take_append_of_le_length hcount, List.drop_take]

/-- Taking in a chunk keeps the index in range. -/
theorem InRange.filled
    (h : p.InRange)
    (data : List UInt8) :
    (p.filled data).InRange := by
  refine ⟨h.toInBounds.filled data, ?_⟩
  rw [h.filled_buf_length data]
  exact h.size_le.trans (Nat.le_add_right _ _)

@[simp] theorem cutFront_buf_length
    (p : PacketFramer) (n : Nat) :
    (p.cutFront n).buf.length = p.buf.length := by
  simp [PacketFramer.cutFront]

end InRange

end PacketFramer

end Framer

end Server
end TurnBasedGame
