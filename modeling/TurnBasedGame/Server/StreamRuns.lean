import TurnBasedGame.Server.PacketIntegrity
import TurnBasedGame.Server.RejectedHeader
import TurnBasedGame.Server.StreamReassembly

/-!
# Runs of a framer on a stream

What a framer sends in a run, in terms of the bytes pushed into it.  As long as
no length field wraps around and every chunk fits into the buffer, the packets
sent are the first frames of these bytes, and the frames still in the buffer
are the next ones.  For streams of frames that leave room for one more read in
the buffer both conditions hold by themselves, however the stream is cut.
-/

namespace TurnBasedGame
namespace Server

open Kernel
open PacketFramer

section StreamRuns

/-- A packet cut off where the length does not wrap around is a frame. -/
theorem isFrame_of_complete
    {w : List UInt8} {n : Nat}
    (complete : verdict w = .complete n)
    (unwrapped : ¬ LengthWraps w) :
    packetFraming.IsFrame (w.take n) := by
  obtain ⟨hn, hmax, hmod, hheader, hversion⟩ := verdict_complete complete
  have hle : n ≤ w.length := hmod.trans (Nat.mod_le _ _)
  have hsmall : lengthField w + packetHeaderSize < 65536 := by
    by_contra hlarge
    have hlt := lengthField_lt w
    refine unwrapped ⟨hheader, hversion, by omega, ?_⟩
    rw [hn, fullLength] at hmod
    simp only [packetHeaderSize] at hmod hlarge ⊢
    omega
  have hfull : n = lengthField w + packetHeaderSize := by
    rw [hn, fullLength]
    omega
  obtain ⟨hhead, hfield⟩ := take_header (n := n) (by omega) hheader
  rw [isFrame_iff, List.length_take, min_eq_left hle, hfield, hhead]
  exact ⟨by omega, hversion, hfull.symm, hmax⟩

/-- A step that meets no wrapping length sends frames. -/
theorem FramerMove.isFrame
    {t : FramerTransition}
    (move : FramerMove t)
    (unwrapped : t.event = .pull → ¬ LengthWraps t.pre.framer.live) :
    ∀ pkt ∈ t.out, packetFraming.IsFrame pkt.data := by
  cases move with
  | emitted p n complete =>
      intro pkt hpkt
      rw [List.mem_singleton.mp hpkt]
      exact isFrame_of_complete complete (unwrapped rfl)
  | _ => intro pkt hpkt; cases hpkt

variable {tr : List FramerTransition} {s : FramerState}

/-- A run that meets no wrapping length sends frames. -/
theorem sentPackets_isFrame
    (run : framerSystem.Run freshFramer tr s)
    (unwrapped : ∀ t ∈ tr, t.event = .pull →
      ¬ LengthWraps t.pre.framer.live) :
    ∀ p ∈ (sentPackets tr).map Packet.data, packetFraming.IsFrame p := by
  intro p hp
  obtain ⟨pkt, hpkt, rfl⟩ := List.mem_map.mp hp
  obtain ⟨t, ht, hout⟩ := List.mem_flatMap.mp hpkt
  have move := framerMove_of_run run newPacketFramer_inRange t ht
  exact move.isFrame (unwrapped t ht) pkt hout

/-- What a framer has sent, and what it has still in its buffer, it took in. -/
theorem sent_live_eq_takenIn
    (run : framerSystem.Run freshFramer tr s) :
    ((sentPackets tr).map Packet.data).flatten ++ s.framer.live =
      tr.flatMap takenIn := by
  have hcons := framer_conservation run newPacketFramer_inRange
  have hfresh : freshFramer.framer.live = [] := newPacketFramer_live
  rw [hfresh, List.nil_append] at hcons
  rw [sentPackets_bytes]
  exact hcons.symm

/--
What a framer has sent, and the frames it has still in its buffer, are the
frames of the bytes it has taken in.
-/
theorem sent_eq_split
    (run : framerSystem.Run freshFramer tr s)
    (unwrapped : ∀ t ∈ tr, t.event = .pull →
      ¬ LengthWraps t.pre.framer.live) :
    (sentPackets tr).map Packet.data ++
        (packetFraming.split s.framer.live).1 =
      (packetFraming.split (tr.flatMap takenIn)).1 := by
  have hframes := sentPackets_isFrame run unwrapped
  have hsplit := Framing.split_frames_append hframes s.framer.live
  rw [sent_live_eq_takenIn run] at hsplit
  rw [hsplit]

/-- A buffer that waits for more input contains no frame. -/
theorem packetCut_of_waiting
    {w : List UInt8}
    (waiting : verdict w = .waiting)
    (hlen : w.length < 65536) :
    packetFraming.cut w = none := by
  by_contra hne
  obtain ⟨n, hn⟩ := Option.ne_none_iff_exists'.mp hne
  have htake : (w.take n).length = n := by
    simpa using packetFraming.le hn
  have hframe : packetFraming.IsFrame (w.take n) := by
    rw [Framing.IsFrame, htake]
    exact packetFraming.self hn
  have hcomplete : verdict (w.take n ++ w.drop n) =
      .complete (w.take n).length :=
    verdict_frame hframe (by rwa [List.take_append_drop])
  rw [List.take_append_drop, waiting] at hcomplete
  cases hcomplete

/-- Every frame leaves room in the buffer for one more read. -/
def Small (p : List UInt8) : Prop :=
  p.length + readSize ≤ packetMaxSize + 1

instance : DecidablePred Small := fun _ =>
  inferInstanceAs (Decidable (_ ≤ _))

/-- What is in front of the rest of a stream of frames. -/
theorem verdict_of_begins
    {ps : List (List UInt8)} {w : List UInt8}
    (hps : ∀ p ∈ ps, packetFraming.IsFrame p)
    (hw : w <+: ps.flatten)
    (hlen : w.length < 65536) :
    (verdict w = .waiting ∧ (w = [] ∨ ∃ p ∈ ps, w.length < p.length)) ∨
      ∃ p rest, ps = p :: rest ∧ p <+: w ∧ verdict w = .complete p.length := by
  cases ps with
  | nil =>
      have hnil : w = [] := List.prefix_nil.mp hw
      subst hnil
      exact Or.inl ⟨rfl, Or.inl rfl⟩
  | cons p rest =>
      have hp : packetFraming.IsFrame p := hps p (by simp)
      have hpre : p <+: (p :: rest).flatten := by simp
      by_cases hle : p.length ≤ w.length
      · obtain ⟨v, rfl⟩ : p <+: w :=
          List.prefix_of_prefix_length_le hpre hw hle
        exact Or.inr ⟨p, rest, rfl, List.prefix_append _ _,
          verdict_frame hp hlen⟩
      · have hwp : w <+: p :=
          List.prefix_of_prefix_length_le hw hpre (by omega)
        have hunf : packetFraming.IsUnfinished w :=
          ⟨p, hp, hwp, by omega⟩
        exact Or.inl ⟨verdict_unfinished hunf,
          Or.inr ⟨p, by simp, by omega⟩⟩

/-- A length that wraps around is not the length of a frame. -/
theorem not_lengthWraps_of_begins
    {ps : List (List UInt8)} {w : List UInt8}
    (hps : ∀ p ∈ ps, packetFraming.IsFrame p)
    (hw : w <+: ps.flatten)
    (hlen : w.length < 65536) :
    ¬ LengthWraps w := by
  intro hwraps
  have hcomplete := hwraps.complete
  have hlt := lengthField_lt w
  rcases verdict_of_begins hps hw hlen with ⟨hwait, -⟩ |
    ⟨p, rest, rfl, -, hp⟩
  · rw [hwait] at hcomplete
    cases hcomplete
  · obtain ⟨hsize, -, -, -⟩ := (isFrame_iff p).mp (hps p (by simp))
    rw [hp] at hcomplete
    simp only [Verdict.complete.injEq] at hcomplete
    simp only [packetHeaderSize] at hsize hcomplete
    omega

/-- Where a framer is in a stream of small frames. -/
structure Follows (ps : List (List UInt8)) (tr : List FramerTransition)
    (s : FramerState) : Prop where
  inRange : s.framer.InRange
  bufLength : s.framer.buf.length = packetMaxSize
  bytes : ((sentPackets tr).map Packet.data).flatten ++ s.framer.live =
    (pushedChunks tr).flatten
  /-- The frames sent are the first ones; the others are still to come. -/
  sent : ∃ rest, ps = (sentPackets tr).map Packet.data ++ rest ∧
    s.framer.live <+: rest.flatten
  idle : s.looping = false → verdict s.framer.live = .waiting

instance : DecidablePred ChunkFits := fun t =>
  match h : t.event with
  | .push data =>
      decidable_of_iff
        (data.length ≤ t.pre.framer.buf.length - t.pre.framer.idx.toNat)
        ⟨fun hle data' h' => by cases h.symm.trans h'; exact hle,
          fun fits => fits data h⟩
  | .pull => .isTrue fun _ h' => by cases h.symm.trans h'

/-- A pull pushes no chunk. -/
theorem chunkFits_pull
    {s s' : FramerState} {out : List Packet} :
    ChunkFits ⟨s, .pull, out, s'⟩ := by
  intro data hevent
  cases hevent

@[simp] theorem sentPackets_snoc
    (tr : List FramerTransition) (t : FramerTransition) :
    sentPackets (tr ++ [t]) = sentPackets tr ++ t.out := by
  simp [sentPackets]

theorem pushedChunks_append
    (tr tr' : List FramerTransition) :
    pushedChunks (tr ++ tr') = pushedChunks tr ++ pushedChunks tr' :=
  List.filterMap_append

/-- The pushes before a step are a beginning of those up to it. -/
theorem pushed_prefix_snoc
    (tr : List FramerTransition) (t : FramerTransition) :
    (pushedChunks tr).flatten <+: (pushedChunks (tr ++ [t])).flatten := by
  rw [pushedChunks_append, List.flatten_append]
  exact List.prefix_append _ _

section Stream

variable {ps : List (List UInt8)}

theorem follows_freshFramer :
    Follows ps [] freshFramer where
  inRange := newPacketFramer_inRange
  bufLength := List.length_replicate
  bytes := rfl
  sent := ⟨ps, rfl, List.nil_prefix⟩
  idle := fun _ => rfl

theorem Follows.live_length
    (h : Follows ps tr s) :
    s.framer.live.length ≤ packetMaxSize := by
  have hle := h.inRange.le_buf
  rw [h.inRange.live_length]
  rwa [h.bufLength] at hle

/-- Once the framer waits, it has sent all frames that have arrived. -/
theorem Follows.sent_all
    (h : Follows ps tr s)
    (hps : ∀ p ∈ ps, packetFraming.IsFrame p)
    (waits : s.looping = false) :
    (sentPackets tr).map Packet.data =
      (packetFraming.split (pushedChunks tr).flatten).1 := by
  obtain ⟨rest, hrest, -⟩ := h.sent
  have hsent : ∀ p ∈ (sentPackets tr).map Packet.data,
      packetFraming.IsFrame p :=
    fun p hp => hps p (by rw [hrest]; exact List.mem_append_left _ hp)
  have hlen : s.framer.live.length < 65536 :=
    h.live_length.trans_lt (by decide)
  rw [← h.bytes, Framing.split_frames_append hsent,
    Framing.split_of_none (packetCut_of_waiting (h.idle waits) hlen),
    List.append_nil]

variable (hps : ∀ p ∈ ps, packetFraming.IsFrame p)
include hps

/-- What can be in the buffer of a framer that follows a stream. -/
theorem Follows.verdict_cases
    (h : Follows ps tr s) :
    ¬ LengthWraps s.framer.live ∧
      ((verdict s.framer.live = .waiting ∧
          (s.framer.live = [] ∨
            ∃ p ∈ ps, s.framer.live.length < p.length)) ∨
        ∃ p rest, ps = (sentPackets tr).map Packet.data ++ p :: rest ∧
          s.framer.live = p ++ s.framer.live.drop p.length ∧
          s.framer.live.drop p.length <+: rest.flatten ∧
          verdict s.framer.live = .complete p.length) := by
  obtain ⟨rest, hrest, hlive⟩ := h.sent
  have hframes : ∀ p ∈ rest, packetFraming.IsFrame p :=
    fun p hp => hps p (by rw [hrest]; exact List.mem_append_right _ hp)
  have hlen : s.framer.live.length < 65536 :=
    h.live_length.trans_lt (by decide)
  refine ⟨not_lengthWraps_of_begins hframes hlive hlen, ?_⟩
  rcases verdict_of_begins hframes hlive hlen with ⟨hwait, hcases⟩ |
    ⟨p, rest', rfl, hpre, hcomplete⟩
  · refine Or.inl ⟨hwait, hcases.imp_right ?_⟩
    rintro ⟨p, hp, hlt⟩
    exact ⟨p, by rw [hrest]; exact List.mem_append_right _ hp, hlt⟩
  · obtain ⟨v, hv⟩ := hpre
    have hdrop : s.framer.live.drop p.length = v := by
      rw [← hv, List.drop_left]
    rw [← hv, List.flatten_cons] at hlive
    refine Or.inr ⟨p, rest', hrest, ?_, ?_, hcomplete⟩
    · rw [hdrop, hv]
    · rw [hdrop]
      exact (List.prefix_append_right_inj p).mp hlive

/-- One step of a framer that follows a stream. -/
theorem Follows.move
    {t : FramerTransition}
    (move : FramerMove t)
    (fits : ChunkFits t)
    (stream : (pushedChunks (tr ++ [t])).flatten <+: ps.flatten)
    (h : Follows ps tr t.pre) :
    Follows ps (tr ++ [t]) t.post := by
  obtain ⟨-, hcases⟩ := h.verdict_cases hps
  rw [pushedChunks_append] at stream
  cases move with
  | filled p data =>
      have hrange : p.InRange := h.inRange
      have hbuf : p.buf.length = packetMaxSize := h.bufLength
      have haccepted : p.accepted data = data.length :=
        Nat.min_eq_right (fits data rfl)
      have hlive : (p.filled data).live = p.live ++ data := by
        rw [hrange.filled_live, haccepted, List.take_length]
      have hbytes : ((sentPackets tr).map Packet.data).flatten ++
          (p.live ++ data) = (pushedChunks tr ++ [data]).flatten := by
        rw [List.flatten_append, List.flatten_singleton, ← h.bytes,
          List.append_assoc]
      obtain ⟨rest, hrest, -⟩ := h.sent
      refine ⟨hrange.filled data, ?_, ?_, ⟨rest, by simpa using hrest, ?_⟩,
        fun hloop => by cases hloop⟩
      · simp [hrange.filled_buf_length, haccepted, hbuf]
      · rw [pushedChunks_append, hlive, sentPackets_snoc, List.append_nil]
        exact hbytes
      · have hstream : ((sentPackets tr).map Packet.data).flatten ++
            (p.live ++ data) <+:
              ((sentPackets tr).map Packet.data).flatten ++ rest.flatten := by
          rw [hbytes, ← List.flatten_append, ← hrest]
          exact stream
        rw [hlive]
        exact (List.prefix_append_right_inj _).mp hstream
  | emitted p n complete =>
      have hrange : p.InRange := h.inRange
      have hle := hrange.complete_le complete
      have hcut : (p.cutFront n).live = p.live.drop n :=
        hrange.cutFront_live hle
      obtain ⟨q, rest, hrest, hfront, hbehind, hcomplete⟩ :=
        hcases.resolve_left (fun hwait =>
          absurd (complete.symm.trans hwait.1) (by simp))
      have hn : n = q.length :=
        Verdict.complete.inj (complete.symm.trans hcomplete)
      subst hn
      have hlive : p.live = q ++ p.live.drop q.length := hfront
      have htake : p.live.take q.length = q := by
        rw [hlive, List.take_left]
      refine ⟨hrange.cutFront hle, by simpa using h.bufLength, ?_,
        ⟨rest, ?_, by rw [hcut]; exact hbehind⟩, fun hloop => by cases hloop⟩
      · rw [pushedChunks_append, List.flatten_append, ← h.bytes, hcut]
        simp only [sentPackets_snoc, htake, List.map_append, List.map_cons,
          List.map_nil, List.flatten_append, List.flatten_singleton,
          List.append_assoc, ← hlive]
        simp [pushedChunks]
      · rw [hrest]
        simp [htake]
  | returned p stops =>
      have hwait : verdict p.live = .waiting := by
        rcases hcases with ⟨hwait, -⟩ | ⟨q, rest, -, -, -, hcomplete⟩
        · exact hwait
        · exact absurd hcomplete (stops _)
      refine ⟨h.inRange, h.bufLength, ?_, by simpa using h.sent,
        fun _ => hwait⟩
      rw [pushedChunks_append, List.flatten_append, ← h.bytes,
        sentPackets_snoc, List.append_nil]
      simp [pushedChunks]

/-- An unfinished small frame leaves room for a whole read. -/
theorem Follows.fits
    (hsmall : ∀ p ∈ ps, Small p)
    {t : FramerTransition}
    (move : FramerMove t)
    (short : ShortRead t)
    (h : Follows ps tr t.pre) :
    ChunkFits t := by
  obtain ⟨-, hcases⟩ := h.verdict_cases hps
  cases move with
  | filled p data =>
      intro data' hevent
      cases hevent
      have hidle : verdict p.live = .waiting := h.idle rfl
      have hlen : p.live.length = p.idx.toNat := h.inRange.live_length
      have hbuf : p.buf.length = packetMaxSize := h.bufLength
      have hdata := short data rfl
      have hroom : p.live.length + readSize ≤ packetMaxSize := by
        rcases hcases with ⟨-, hempty | ⟨q, hq, hlt⟩⟩ |
          ⟨q, rest, -, -, -, hcomplete⟩
        · have hnil : p.live = [] := hempty
          simp [hnil, readSize, packetMaxSize]
        · have hq' := hsmall q hq
          have hlt' : p.live.length < q.length := hlt
          simp only [Small] at hq'
          omega
        · exact absurd (hidle.symm.trans hcomplete) (by simp)
      simp only [hbuf, ← hlen]
      omega
  | emitted p n complete => exact chunkFits_pull
  | returned p stops => exact chunkFits_pull

/--
A stream of frames.  Where every read fits into the buffer, no length wraps
around and the framer sends the frames in order, however the stream is cut.
-/
theorem follows_of_run
    (run : framerSystem.Run freshFramer tr s)
    (fits : ∀ t ∈ tr, ChunkFits t)
    (stream : (pushedChunks tr).flatten <+: ps.flatten) :
    Follows ps tr s ∧ ∀ t ∈ tr, ¬ LengthWraps t.pre.framer.live := by
  induction run with
  | nil => exact ⟨follows_freshFramer, fun t ht => by cases ht⟩
  | @snoc tr t run valid ih =>
      obtain ⟨hfollows, hwraps⟩ := ih
        (fun t' ht' => fits t' (List.mem_append_left _ ht'))
        ((pushed_prefix_snoc tr t).trans stream)
      refine ⟨hfollows.move hps (framerMove_of_valid valid hfollows.inRange)
        (fits t (by simp)) stream, fun t' ht' => ?_⟩
      rcases List.mem_append.mp ht' with ht' | ht'
      · exact hwraps t' ht'
      · rw [List.mem_singleton.mp ht']
        exact (hfollows.verdict_cases hps).1

/-- Reads from a stream of small frames fit into the buffer. -/
theorem fits_of_small
    (hsmall : ∀ p ∈ ps, Small p)
    (run : framerSystem.Run freshFramer tr s)
    (short : ∀ data ∈ pushedChunks tr, data.length ≤ readSize)
    (stream : (pushedChunks tr).flatten <+: ps.flatten) :
    ∀ t ∈ tr, ChunkFits t := by
  induction run with
  | nil => exact fun t ht => by cases ht
  | @snoc tr t run valid ih =>
      have hstream := (pushed_prefix_snoc tr t).trans stream
      have hfits := ih (fun data hdata => short data
        (by rw [pushedChunks_append]; exact List.mem_append_left _ hdata))
        hstream
      have hfollows := (follows_of_run hps run hfits hstream).1
      intro t' ht'
      rcases List.mem_append.mp ht' with ht' | ht'
      · exact hfits t' ht'
      · rw [List.mem_singleton.mp ht']
        exact hfollows.fits hps hsmall
          (framerMove_of_valid valid hfollows.inRange)
          (fun data hevent => short data (mem_pushedChunks (by simp) hevent))

end Stream

end StreamRuns

end Server
end TurnBasedGame
