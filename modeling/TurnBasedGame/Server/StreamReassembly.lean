import TurnBasedGame.Kernel.Framing
import TurnBasedGame.Server.FramerRuns

/-!
# Reassembly of a packet stream

A client sends packets one after the other; the network delivers the bytes in
chunks of its own choosing.  As long as no chunk runs past the end of the
receive buffer, the framer is the chunk-wise reading of a framing in the sense
of the kernel, and sends exactly the packets that were put into the stream.
A chunk that does run past the end loses its last bytes: `push` appends them
to the buffer but does not count them in its index, so the next chunk is
written over them.

Both directions are combined into an exact condition on the packet sizes and
the cuts of the stream.
-/

namespace TurnBasedGame
namespace Server

open Kernel
open PacketFramer

section StreamReassembly

/-- Length of the packet at the front of a byte stream, once it is complete. -/
def packetCut (w : List UInt8) : Option Nat :=
  if packetHeaderSize ≤ w.length ∧ w.head? = some version ∧
      lengthField w + packetHeaderSize < packetMaxSize ∧
      lengthField w + packetHeaderSize ≤ w.length then
    some (lengthField w + packetHeaderSize)
  else
    none

theorem packetCut_eq_some_iff
    {w : List UInt8} {n : Nat} :
    packetCut w = some n ↔
      packetHeaderSize ≤ w.length ∧ w.head? = some version ∧
        lengthField w + packetHeaderSize = n ∧
        n < packetMaxSize ∧ n ≤ w.length := by
  simp only [packetCut]
  constructor
  · intro h
    split_ifs at h with hcut
    cases h
    exact ⟨hcut.1, hcut.2.1, rfl, hcut.2.2⟩
  · rintro ⟨hsize, hhead, rfl, hrest⟩
    exact if_pos ⟨hsize, hhead, hrest⟩

theorem packetCut_pos
    {w : List UInt8} {n : Nat}
    (h : packetCut w = some n) :
    0 < n := by
  obtain ⟨-, -, hn, -⟩ := packetCut_eq_some_iff.mp h
  simp only [packetHeaderSize] at hn
  omega

theorem packetCut_le
    {w : List UInt8} {n : Nat}
    (h : packetCut w = some n) :
    n ≤ w.length := by
  obtain ⟨-, -, -, -, hle⟩ := packetCut_eq_some_iff.mp h
  exact hle

/-- Bytes that arrive later do not change where the first packet ends. -/
theorem packetCut_append
    {w : List UInt8} {n : Nat}
    (v : List UInt8)
    (h : packetCut w = some n) :
    packetCut (w ++ v) = some n := by
  obtain ⟨hsize, hhead, hn, hmax, hle⟩ := packetCut_eq_some_iff.mp h
  refine packetCut_eq_some_iff.mpr ⟨?_, ?_, ?_, hmax, ?_⟩
  · simp only [List.length_append]
    omega
  · simp [List.head?_append, hhead]
  · rw [lengthField_append v hsize]
    exact hn
  · simp only [List.length_append]
    omega

/-- Where the first packet ends depends on the packet alone. -/
theorem packetCut_take
    {w : List UInt8} {n : Nat}
    (h : packetCut w = some n) :
    packetCut (w.take n) = some n := by
  obtain ⟨hsize, hhead, hn, hmax, hle⟩ := packetCut_eq_some_iff.mp h
  have hpos := packetCut_pos h
  have hlen : (w.take n).length = n := by
    simp [hle]
  have hfield : lengthField (w.take n) = lengthField w := by
    have happ := lengthField_append
      (w := w.take n) (w.drop n) (by omega)
    rw [List.take_append_drop] at happ
    exact happ.symm
  refine packetCut_eq_some_iff.mpr ⟨by omega, ?_, ?_, hmax, hlen.ge⟩
  · rw [List.head?_take, if_neg hpos.ne']
    exact hhead
  · rw [hfield]
    exact hn

/-- Complete packets at the front of a byte stream. -/
def packetFraming : Framing UInt8 where
  cut := packetCut
  pos := packetCut_pos
  le := packetCut_le
  stable := packetCut_append
  self := packetCut_take

/-- A frame is a packet whose header gives its length, below the maximum. -/
theorem isFrame_iff
    (w : List UInt8) :
    packetFraming.IsFrame w ↔
      packetHeaderSize ≤ w.length ∧ w.head? = some version ∧
        lengthField w + packetHeaderSize = w.length ∧
        w.length < packetMaxSize := by
  refine packetCut_eq_some_iff.trans ?_
  constructor
  · rintro ⟨hsize, hhead, hlen, hmax, -⟩
    exact ⟨hsize, hhead, hlen, hmax⟩
  · rintro ⟨hsize, hhead, hlen, hmax⟩
    exact ⟨hsize, hhead, hlen, hmax, le_rfl⟩

/-- What a well-behaved client sends is a frame. -/
theorem WirePacket.isFrame
    (p : WirePacket) :
    packetFraming.IsFrame p.bytes := by
  have hsize := p.size_lt
  have hlen : p.bytes.length = p.payload.length + packetHeaderSize :=
    constructPacket_length _ _ _
  have hfield : lengthField p.bytes = p.payload.length := by
    apply lengthField_constructPacket
    simp only [packetHeaderSize, packetMaxSize] at hsize
    omega
  rw [isFrame_iff]
  refine ⟨by omega, rfl, by omega, by omega⟩

/-- The framer sees a frame in front of its live bytes as complete. -/
theorem verdict_frame
    {f rest : List UInt8}
    (hf : packetFraming.IsFrame f)
    (hlen : (f ++ rest).length < 65536) :
    verdict (f ++ rest) = .complete f.length := by
  obtain ⟨hsize, hhead, hfield, hmax⟩ := (isFrame_iff f).mp hf
  have hfull : fullLength (f ++ rest) = f.length := by
    simp only [packetMaxSize] at hmax
    rw [fullLength, lengthField_append rest hsize, hfield]
    omega
  have hhead' : (f ++ rest).head? = some version := by
    simp [List.head?_append, hhead]
  have happ : (f ++ rest).length = f.length + rest.length :=
    List.length_append
  unfold verdict
  rw [if_neg (by omega), if_neg (by simp [hhead']), hfull,
    if_neg (by omega), if_pos (by omega)]

/-- The framer waits for the rest of an unfinished frame. -/
theorem verdict_unfinished
    {r : List UInt8}
    (hr : packetFraming.IsUnfinished r) :
    verdict r = .waiting := by
  obtain ⟨f, hf, ⟨v, rfl⟩, hlt⟩ := hr
  obtain ⟨-, hhead, hfield, hmax⟩ := (isFrame_iff _).mp hf
  unfold verdict
  by_cases hshort : r.length < packetHeaderSize
  · rw [if_pos hshort]
  · have hhead' : r.head? = some version := by
      cases r with
      | nil => simp [packetHeaderSize] at hshort
      | cons a rest => simpa using hhead
    rw [lengthField_append v (by omega)] at hfield
    have hfull : fullLength r = (r ++ v).length := by
      simp only [packetMaxSize] at hmax
      rw [fullLength, hfield]
      omega
    have hmod : r.length % 65536 ≤ r.length := Nat.mod_le _ _
    rw [if_neg hshort, if_neg (by simp [hhead']), hfull,
      if_neg (by omega), if_neg (by omega)]

/--
The loop of `push` sends the frames at the front of the live bytes and
returns when an unfinished one is left.
-/
theorem drain_frames
    {fs : List (List UInt8)} {r : List UInt8}
    (hfs : ∀ f ∈ fs, packetFraming.IsFrame f)
    (hr : packetFraming.IsUnfinished r)
    {fuel : Nat} (hfuel : fs.length < fuel)
    {p : PacketFramer} (hp : p.InRange)
    (hlive : p.live = fs.flatten ++ r)
    (hlen : p.live.length < 65536) :
    ∃ p', drain fuel p = .ok ⟨fs.map Packet.mk, p', .returned none⟩ ∧
      p'.InRange ∧ p'.live = r ∧ p'.buf.length = p.buf.length := by
  induction fs generalizing fuel p with
  | nil =>
      obtain ⟨k, rfl⟩ : ∃ k, fuel = k + 1 := ⟨fuel - 1, by omega⟩
      have hlive' : p.live = r := by simpa using hlive
      have hpull : p.pull = .ok (.nothing, p) := by
        rw [hp.pull_eq, hlive', verdict_unfinished hr]
      exact ⟨p, drain_nothing hpull, hp, hlive', rfl⟩
  | cons f rest ih =>
      obtain ⟨k, rfl⟩ : ∃ k, fuel = k + 1 := ⟨fuel - 1, by omega⟩
      have hf : packetFraming.IsFrame f := hfs f (by simp)
      rw [List.flatten_cons, List.append_assoc] at hlive
      have hverdict : verdict p.live = .complete f.length := by
        rw [hlive]
        exact verdict_frame hf (by rw [← hlive]; exact hlen)
      have hle := InRange.complete_le hp hverdict
      have htake : p.live.take f.length = f := by
        rw [hlive, List.take_left]
      have hpull :
          p.pull = .ok (.packet ⟨f⟩, p.cutFront f.length) := by
        rw [hp.pull_eq, hverdict]
        simp only [htake]
      have hcut : (p.cutFront f.length).live = rest.flatten ++ r := by
        rw [hp.cutFront_live hle, hlive, List.drop_left]
      have hcutlen : (p.cutFront f.length).live.length < 65536 := by
        rw [hcut]
        rw [hlive, List.length_append] at hlen
        omega
      have hk : rest.length < k := by
        simp only [List.length_cons] at hfuel
        omega
      obtain ⟨p', hdrain, hp', hlive', hbuf⟩ :=
        ih (fun g hg => hfs g (List.mem_cons_of_mem _ hg)) hk
          (hp.cutFront hle) hcut hcutlen
      exact ⟨p', drain_packet hpull hdrain, hp', hlive', by simpa using hbuf⟩

/-- The framer has sent the frames of `w` and kept exactly what is left. -/
structure Tracks (p : PacketFramer) (w : List UInt8) : Prop where
  inRange : p.InRange
  bufLength : p.buf.length = packetMaxSize
  live : p.live = (packetFraming.split w).2

theorem tracks_newPacketFramer :
    Tracks newPacketFramer [] := by
  have hcut : packetFraming.cut [] = none := rfl
  refine ⟨newPacketFramer_inRange, by simp [newPacketFramer], ?_⟩
  rw [Framing.split_of_none hcut, newPacketFramer_live]

/-- More iterations than the buffer has room for packets. -/
def enoughFuel : Nat := packetMaxSize + 1

section Stream

variable {ps : List (List UInt8)} {q : List UInt8}
variable (hps : ∀ p ∈ ps, packetFraming.IsFrame p)
variable (hq : packetFraming.IsUnfinished q)

include hps hq

/-- The live bytes of a tracking framer begin at the last frame boundary. -/
theorem Tracks.idx_eq
    {p : PacketFramer} {w : List UInt8}
    (h : Tracks p w)
    (hw : w <+: ps.flatten ++ q) :
    p.live.length + frameStart (ps.map List.length) w.length = w.length := by
  obtain ⟨-, hstart⟩ := Framing.split_beginning hps hq hw
  have hflat := congrArg List.length
    (Framing.split_flatten (F := packetFraming) w)
  rw [List.length_append, ← h.live] at hflat
  omega

/-- A chunk that fits into the buffer is followed by exactly its frames. -/
theorem Tracks.push
    {p : PacketFramer} {w data : List UInt8}
    (h : Tracks p w)
    (hw : w ++ data <+: ps.flatten ++ q)
    (hfits : p.live.length + data.length ≤ packetMaxSize)
    {fuel : Nat} (hfuel : enoughFuel ≤ fuel) :
    ∃ p', p.push fuel data =
        .ok ⟨(packetFraming.split (p.live ++ data)).1.map Packet.mk, p',
          .returned none⟩ ∧
      Tracks p' (w ++ data) := by
  have hlive := h.inRange.live_length
  have hbuf := h.bufLength
  have hacc : p.accepted data = data.length := by
    simp only [accepted]
    omega
  have hfilled : (p.filled data).live = p.live ++ data := by
    rw [h.inRange.filled_live, hacc, List.take_length]
  have hsplit := Framing.split_append (F := packetFraming) w data
  rw [← h.live] at hsplit
  obtain ⟨hunf, -⟩ := Framing.split_beginning hps hq hw
  rw [hsplit] at hunf
  have hcount := Framing.split_length_le (F := packetFraming) (p.live ++ data)
  have hfuel' :
      (packetFraming.split (p.live ++ data)).1.length < fuel := by
    simp only [List.length_append, enoughFuel] at hcount hfuel
    omega
  obtain ⟨p', hdrain, hp', hlive', hbuf'⟩ :=
    drain_frames
      (Framing.isFrame_of_mem_split (F := packetFraming) (p.live ++ data))
      hunf hfuel' (h.inRange.filled data)
      (by rw [hfilled, Framing.split_flatten])
      (by
        rw [hfilled, List.length_append]
        simp only [packetMaxSize] at hfits
        omega)
  refine ⟨p', ?_, hp', ?_, ?_⟩
  · rw [h.inRange.push_eq_drain, hdrain]
  · rw [hbuf', h.inRange.filled_buf_length, hacc, hbuf]
    omega
  · rw [hlive', hsplit]

end Stream

/--
No chunk, starting at position `i` of the stream, ends more than the size of
the buffer after the start of the packet its first byte belongs to.
-/
def ChunksFit (lens : List Nat) : Nat → List (List UInt8) → Prop
  | _, [] => True
  | i, data :: rest =>
      i + data.length ≤ frameStart lens i + packetMaxSize ∧
        ChunksFit lens (i + data.length) rest

instance (lens : List Nat) :
    (i : Nat) → (chunks : List (List UInt8)) →
      Decidable (ChunksFit lens i chunks)
  | _, [] => .isTrue trivial
  | i, data :: rest =>
      have := instDecidableChunksFit lens (i + data.length) rest
      inferInstanceAs (Decidable (_ ∧ _))

section Stream

variable {ps : List (List UInt8)} {q : List UInt8}
variable (hps : ∀ p ∈ ps, packetFraming.IsFrame p)
variable (hq : packetFraming.IsUnfinished q)

include hps hq

/-- Chunks that fit are reassembled into the frames of the stream. -/
theorem Tracks.pushAll
    {chunks : List (List UInt8)} {p : PacketFramer} {w : List UInt8}
    (h : Tracks p w)
    (hw : w ++ chunks.flatten <+: ps.flatten ++ q)
    (hfit : ChunksFit (ps.map List.length) w.length chunks)
    {fuel : Nat} (hfuel : enoughFuel ≤ fuel) :
    ∃ p', PacketFramer.pushAll fuel p chunks =
        .ok ⟨(packetFraming.split (p.live ++ chunks.flatten)).1.map Packet.mk,
          p', .returned none⟩ ∧
      Tracks p' (w ++ chunks.flatten) := by
  induction chunks generalizing p w with
  | nil =>
      have hunf : packetFraming.IsUnfinished (packetFraming.split w).2 :=
        (Framing.split_beginning hps hq (by simpa using hw)).1
      have hsplit := Framing.split_of_none hunf.cut_eq_none
      rw [← h.live] at hsplit
      refine ⟨p, ?_, by simpa using h⟩
      simp [PacketFramer.pushAll, hsplit, pure, Except.pure]
  | cons data rest ih =>
      obtain ⟨hfirst, hrest⟩ := hfit
      rw [List.flatten_cons, ← List.append_assoc] at hw
      have hw₁ : w ++ data <+: ps.flatten ++ q :=
        (List.prefix_append _ _).trans hw
      have hidx := h.idx_eq hps hq ((List.prefix_append _ _).trans hw₁)
      obtain ⟨p₁, hpush, h₁⟩ :=
        h.push hps hq hw₁ (by omega) hfuel
      obtain ⟨p₂, hpushAll, h₂⟩ :=
        ih h₁ hw (by rw [List.length_append]; exact hrest)
      refine ⟨p₂, ?_, by simpa using h₂⟩
      have hsplit :=
        Framing.split_append (F := packetFraming) (p.live ++ data) rest.flatten
      have hlive₁ :
          p₁.live = (packetFraming.split (p.live ++ data)).2 := by
        rw [h₁.live, Framing.split_append, ← h.live]
      rw [List.flatten_cons, ← List.append_assoc, hsplit, ← hlive₁,
        PacketFramer.pushAll_returned hpush rfl hpushAll, List.map_append]

end Stream

/-- Number of bytes in a list of packets. -/
def totalBytes (pkts : List Packet) : Nat :=
  (pkts.map Packet.data).flatten.length

/-- The loop of `push` sends and keeps no more than what was live. -/
theorem drain_totalBytes_le
    {fuel : Nat} {p : PacketFramer} {r : LoopResult}
    (hp : p.InRange)
    (hr : drain fuel p = .ok r) :
    totalBytes r.sent + r.framer.live.length ≤ p.live.length := by
  obtain ⟨tr, hrun, hsent, hpushed⟩ := drain_run fuel p hr
  have hcons := congrArg List.length (framer_conservation hrun hp)
  have htaken := takenIn_length_le tr
  rw [hpushed] at htaken
  rw [totalBytes, ← hsent, sentPackets_bytes]
  simp only [List.length_append, List.flatten_nil, List.length_nil]
    at hcons htaken
  omega

/-- A call of `push` sends and keeps no more than it has taken in. -/
theorem push_totalBytes_le
    {fuel : Nat} {p : PacketFramer} {data : List UInt8} {r : LoopResult}
    (hp : p.InRange)
    (hr : p.push fuel data = .ok r) :
    r.framer.InRange ∧
      totalBytes r.sent + r.framer.live.length ≤
        p.live.length + p.accepted data := by
  obtain ⟨tr, hrun, -, -⟩ := push_run fuel p data hr
  refine ⟨framer_inRange hrun hp, ?_⟩
  rw [hp.push_eq_drain] at hr
  have hdrain := drain_totalBytes_le (hp.filled data) hr
  rw [hp.filled_live, List.length_append] at hdrain
  have htake : (data.take (p.accepted data)).length ≤ p.accepted data :=
    List.length_take_le _ _
  omega

/-- Pushing chunks sends and keeps no more than what was pushed. -/
theorem pushAll_totalBytes_le
    {fuel : Nat} {p : PacketFramer} {chunks : List (List UInt8)}
    {r : LoopResult}
    (hp : p.InRange)
    (hr : PacketFramer.pushAll fuel p chunks = .ok r) :
    totalBytes r.sent + r.framer.live.length ≤
      p.live.length + chunks.flatten.length := by
  obtain ⟨tr, hrun, hsent, ⟨later, hpushed⟩⟩ := pushAll_run fuel p chunks hr
  have hcons := congrArg List.length (framer_conservation hrun hp)
  have htaken := takenIn_length_le tr
  rw [totalBytes, ← hsent, sentPackets_bytes, ← hpushed]
  simp only [List.length_append, List.flatten_append] at hcons ⊢
  omega

section Stream

variable {ps : List (List UInt8)} {q : List UInt8}
variable (hps : ∀ p ∈ ps, packetFraming.IsFrame p)
variable (hq : packetFraming.IsUnfinished q)

include hps hq

/-- When no byte of the stream is lost, every chunk has fitted. -/
theorem Tracks.chunksFit
    {chunks : List (List UInt8)} {p : PacketFramer} {w : List UInt8}
    (h : Tracks p w)
    (hw : w ++ chunks.flatten <+: ps.flatten ++ q)
    {fuel : Nat} (hfuel : enoughFuel ≤ fuel)
    {r : LoopResult}
    (hr : PacketFramer.pushAll fuel p chunks = .ok r)
    (hkept : totalBytes r.sent + r.framer.live.length =
      p.live.length + chunks.flatten.length) :
    ChunksFit (ps.map List.length) w.length chunks := by
  induction chunks generalizing p w r with
  | nil => trivial
  | cons data rest ih =>
      rw [List.flatten_cons, ← List.append_assoc] at hw
      have hw₁ : w ++ data <+: ps.flatten ++ q :=
        (List.prefix_append _ _).trans hw
      have hidx := h.idx_eq hps hq ((List.prefix_append _ _).trans hw₁)
      have hlive := h.inRange.live_length
      have hbuf := h.bufLength
      rw [List.flatten_cons, List.length_append] at hkept
      obtain ⟨r₁, hpush₁, hcases⟩ := PacketFramer.pushAll_cons_cases hr
      have hacc : p.accepted data = data.length := by
        have hle : p.accepted data ≤ data.length := Nat.min_le_right _ _
        obtain ⟨hin₁, hkept₁⟩ := push_totalBytes_le h.inRange hpush₁
        rcases hcases with ⟨-, rfl⟩ | ⟨err, r₂, -, hrest, rfl⟩
        · omega
        · have hkept₂ := pushAll_totalBytes_le hin₁ hrest
          simp only [totalBytes, List.map_append, List.flatten_append,
            List.length_append] at hkept hkept₁ hkept₂
          omega
      have hfits : p.live.length + data.length ≤ packetMaxSize := by
        have hle := h.inRange.le_buf
        simp only [accepted] at hacc
        omega
      obtain ⟨p₁, hpush, h₁⟩ := h.push hps hq hw₁ hfits hfuel
      have hkept₁ := congrArg List.length
        (Framing.split_flatten (F := packetFraming) (p.live ++ data))
      have hlive₁ :
          p₁.live = (packetFraming.split (p.live ++ data)).2 := by
        rw [h₁.live, Framing.split_append, ← h.live]
      rw [← hlive₁] at hkept₁
      rw [hpush₁, Except.ok.injEq] at hpush
      subst hpush
      rcases hcases with ⟨hrunning, -⟩ | ⟨err, r₂, -, hrest, rfl⟩
      · cases hrunning
      · refine ⟨by omega, ?_⟩
        rw [← List.length_append]
        refine ih h₁ hw hrest ?_
        simp only [totalBytes, List.map_append, List.flatten_append,
          List.length_append, List.map_map, Function.comp_def,
          List.map_id'] at hkept hkept₁ ⊢
        omega

end Stream

/--
With enough iterations, pushing the chunks returns, has sent exactly the
given packets, and leaves exactly `rest` in the buffer.
-/
def Reassembles
    (chunks : List (List UInt8)) (pkts : List (List UInt8))
    (rest : List UInt8) : Prop :=
  ∃ N, ∀ fuel, N ≤ fuel → ∃ p,
    pushAll fuel newPacketFramer chunks =
      .ok ⟨pkts.map Packet.mk, p, .returned none⟩ ∧
    p.live = rest

/-- A proper beginning of a packet is an unfinished frame. -/
theorem WirePacket.isUnfinished
    {next : WirePacket} {rest : List UInt8}
    (hrest : rest <+: next.bytes)
    (hproper : rest ≠ next.bytes) :
    packetFraming.IsUnfinished rest := by
  refine ⟨next.bytes, next.isFrame, hrest, ?_⟩
  have hle := hrest.length_le
  have hne : rest.length ≠ next.bytes.length :=
    fun heq => hproper (hrest.eq_of_length heq)
  omega

/-- Complete reassembly means that no chunk ran past the end of the buffer. -/
theorem chunksFit_of_reassembles
    {ps chunks : List (List UInt8)} {q : List UInt8}
    (hps : ∀ p ∈ ps, packetFraming.IsFrame p)
    (hq : packetFraming.IsUnfinished q)
    (hcut : chunks.flatten = ps.flatten ++ q)
    (h : Reassembles chunks ps q) :
    ChunksFit (ps.map List.length) 0 chunks := by
  obtain ⟨N, hN⟩ := h
  obtain ⟨p, hpush, hlive⟩ := hN (max N enoughFuel) (Nat.le_max_left _ _)
  have hw : [] ++ chunks.flatten <+: ps.flatten ++ q := by
    simp [hcut]
  refine tracks_newPacketFramer.chunksFit hps hq hw
    (Nat.le_max_right _ _) hpush ?_
  simp [totalBytes, hcut, hlive, Function.comp_def]

/--
The framer reassembles a stream of packets exactly when every chunk ends at
most `packetMaxSize` bytes after the start of the packet that its first byte
belongs to.
-/
theorem stream_reassembly_iff
    (pkts : List WirePacket) (next : WirePacket)
    (rest : List UInt8) (chunks : List (List UInt8))
    (hrest : rest <+: next.bytes)
    (hproper : rest ≠ next.bytes)
    (hcut : chunks.flatten = (pkts.map WirePacket.bytes).flatten ++ rest) :
    Reassembles chunks (pkts.map WirePacket.bytes) rest ↔
      ChunksFit (pkts.map (fun p => p.bytes.length)) 0 chunks := by
  have hps : ∀ p ∈ pkts.map WirePacket.bytes, packetFraming.IsFrame p := by
    intro p hp
    obtain ⟨pkt, -, rfl⟩ := List.mem_map.mp hp
    exact pkt.isFrame
  have hq := WirePacket.isUnfinished hrest hproper
  have hlens : pkts.map (fun p => p.bytes.length) =
      (pkts.map WirePacket.bytes).map List.length := by
    simp [Function.comp_def]
  rw [hlens]
  constructor
  · exact chunksFit_of_reassembles hps hq hcut
  · intro hfit
    refine ⟨enoughFuel, fun fuel hfuel => ?_⟩
    obtain ⟨p, hpush, htracks⟩ :=
      tracks_newPacketFramer.pushAll hps hq (by simp [hcut]) hfit hfuel
    have hsplit := Framing.split_frames hps hq.cut_eq_none
    have hlive := htracks.live
    simp only [List.nil_append, hcut, hsplit, newPacketFramer_live]
      at hpush hlive
    exact ⟨p, hpush, hlive⟩

/-- A packet that all but fills the receive buffer. -/
def longPacket : WirePacket where
  enc := encString
  pktType := packetHealthCheckReq
  payload := List.replicate 1019 7
  enc_lt := by decide
  pktType_lt := by decide
  size_lt := by
    rw [List.length_replicate]
    decide

/-- A long packet and the beginning of another, read in chunks of 100 bytes. -/
def longPacketChunks : List (List UInt8) :=
  (List.range 11).map (fun i =>
    ((longPacket.bytes ++ longPacket.bytes.take 77).drop (100 * i)).take 100)

/-- The eleventh chunk ends 1100 bytes after the start of its packet. -/
theorem stream_reassembly_fails :
    longPacket.bytes.take 77 <+: longPacket.bytes ∧
      longPacket.bytes.take 77 ≠ longPacket.bytes ∧
      longPacketChunks.flatten =
        ([longPacket].map WirePacket.bytes).flatten ++
          longPacket.bytes.take 77 ∧
      (∀ data ∈ longPacketChunks, 1 ≤ data.length ∧ data.length ≤ 100) ∧
      ¬ Reassembles longPacketChunks ([longPacket].map WirePacket.bytes)
        (longPacket.bytes.take 77) := by
  have hcut : longPacketChunks.flatten =
      ([longPacket].map WirePacket.bytes).flatten ++
        longPacket.bytes.take 77 := by
    decide +kernel
  have hproper : longPacket.bytes.take 77 ≠ longPacket.bytes := by
    decide +kernel
  refine ⟨List.take_prefix _ _, hproper, hcut, by decide +kernel, ?_⟩
  intro h
  have hfit := chunksFit_of_reassembles
    (by simpa using longPacket.isFrame)
    (WirePacket.isUnfinished (List.take_prefix _ _) hproper) hcut h
  exact absurd hfit (by decide +kernel)

/-- A packet with three bytes of data. -/
def shortPacket : WirePacket where
  enc := encBytes
  pktType := packetJoinGame
  payload := [1, 2, 3]
  enc_lt := by decide
  pktType_lt := by decide
  size_lt := by decide

/-- Two packets and the beginning of a third, cut inside the headers. -/
theorem stream_reassembly_short :
    Reassembles
      [shortPacket.bytes.take 3, shortPacket.bytes.drop 3 ++
        shortPacket.bytes ++ shortPacket.bytes.take 1,
        (shortPacket.bytes.drop 1).take 4]
      ([shortPacket, shortPacket].map WirePacket.bytes)
      (shortPacket.bytes.take 5) :=
  (stream_reassembly_iff [shortPacket, shortPacket] shortPacket
    (shortPacket.bytes.take 5) _ (List.take_prefix _ _) (by decide)
    (by decide)).mpr (by decide)

end StreamReassembly

end Server
end TurnBasedGame
