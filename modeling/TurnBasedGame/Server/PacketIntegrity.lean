import TurnBasedGame.Server.FramerRuns

/-!
# Integrity of the packets a framer sends

Whatever bytes are pushed, a packet that `pull` cuts off is well formed unless
its length field is so large that adding the header size to it wraps around in
16 bits: such a header passes the size check and yields a packet of fewer than
four bytes.  The module shows that nothing else can go wrong, for every run of
the framer on arbitrary chunks, including runs whose last call never returns.
-/

namespace TurnBasedGame
namespace Server

open Kernel
open PacketFramer

section PacketIntegrity

/--
The header in front has a length field from 65532 on, and at least as many
bytes are live (modulo 65536) as remain of the length after wrapping around.
-/
structure LengthWraps (w : List UInt8) : Prop where
  header : packetHeaderSize ≤ w.length
  versionByte : w.head? = some version
  large : 65536 ≤ lengthField w + packetHeaderSize
  enough : lengthField w + packetHeaderSize - 65536 ≤ w.length % 65536

/-- The first bytes of a stream carry its version and its length field. -/
theorem take_header
    {w : List UInt8} {n : Nat}
    (hn : packetHeaderSize ≤ n)
    (hw : packetHeaderSize ≤ w.length) :
    (w.take n).head? = w.head? ∧ lengthField (w.take n) = lengthField w := by
  constructor
  · rw [List.head?_take, if_neg]
    simp only [packetHeaderSize] at hn
    omega
  · have hlen : packetHeaderSize ≤ (w.take n).length := by
      simp only [List.length_take]
      omega
    have happ := lengthField_append (w.drop n) hlen
    rw [List.take_append_drop] at happ
    exact happ.symm

/-- A packet cut off where the length does not wrap around is well formed. -/
theorem wellFormed_of_complete
    {w : List UInt8} {n : Nat}
    (complete : verdict w = .complete n)
    (hsmall : lengthField w + packetHeaderSize < 65536) :
    WellFormed ⟨w.take n⟩ := by
  obtain ⟨hn, -, hmod, hheader, hversion⟩ := verdict_complete complete
  have hle : n ≤ w.length := hmod.trans (Nat.mod_le _ _)
  have hfull : n = lengthField w + packetHeaderSize := by
    rw [hn, fullLength]
    omega
  obtain ⟨hhead, hfield⟩ := take_header (n := n) (by omega) hheader
  have hlen : (w.take n).length = n := by
    simp [hle]
  apply wellFormed_of_lengthField
  · omega
  · have hpos : 0 < (w.take n).length := by
      simp only [packetHeaderSize] at hfull
      omega
    rw [index_ok hpos]
    rw [hversion, List.head?_eq_getElem?, List.getElem?_eq_getElem hpos]
      at hhead
    exact congrArg Except.ok (Option.some.inj hhead)
  · omega

/-- A packet cut off where the length wraps around is shorter than a header. -/
theorem not_wellFormed_of_complete
    {w : List UInt8} {n : Nat}
    (complete : verdict w = .complete n)
    (hlarge : 65536 ≤ lengthField w + packetHeaderSize) :
    ¬ WellFormed ⟨w.take n⟩ := by
  obtain ⟨hn, -, -, -, -⟩ := verdict_complete complete
  have hlt := lengthField_lt w
  have hshort : n < packetHeaderSize := by
    rw [hn, fullLength]
    simp only [packetHeaderSize] at hlarge ⊢
    omega
  intro hwf
  have hsize : packetHeaderSize ≤ (w.take n).length := hwf.size
  simp only [List.length_take] at hsize
  omega

/-- Where the length wraps around, `pull` cuts off what remains of it. -/
theorem LengthWraps.complete
    {w : List UInt8}
    (h : LengthWraps w) :
    verdict w = .complete (lengthField w + packetHeaderSize - 65536) := by
  have hlt := lengthField_lt w
  have hlarge := h.large
  have henough := h.enough
  have hfull :
      fullLength w = lengthField w + packetHeaderSize - 65536 := by
    simp only [fullLength, packetHeaderSize] at hlarge ⊢
    omega
  have hmax : lengthField w + packetHeaderSize - 65536 < packetMaxSize := by
    simp only [packetHeaderSize, packetMaxSize]
    omega
  have hheader : ¬ w.length < packetHeaderSize := by
    have := h.header
    omega
  unfold verdict
  rw [if_neg hheader, if_neg (by simp [h.versionByte]), hfull,
    if_neg (by omega), if_pos henough]

/-- One step sends only well formed packets iff no length wraps around. -/
theorem FramerMove.wellFormed_iff
    {t : FramerTransition}
    (move : FramerMove t) :
    (∀ pkt ∈ t.out, WellFormed pkt) ↔
      (t.event = .pull → ¬ LengthWraps t.pre.framer.live) := by
  cases move with
  | filled p data => simp
  | emitted p n complete =>
      simp only [List.mem_singleton, forall_eq, true_implies]
      constructor
      · intro hwf hwraps
        exact not_wellFormed_of_complete complete hwraps.large hwf
      · intro hwraps
        apply wellFormed_of_complete complete
        by_contra hlarge
        obtain ⟨hn, -, hmod, hheader, hversion⟩ := verdict_complete complete
        have hlt := lengthField_lt p.live
        refine hwraps ⟨hheader, hversion, by omega, ?_⟩
        simp only [hn, fullLength, packetHeaderSize] at hmod hlarge ⊢
        omega
  | returned p stops =>
      have hnone : ¬ LengthWraps p.live :=
        fun hwraps => stops _ hwraps.complete
      simp [hnone]

/--
In every run of a fresh framer on arbitrary chunks, all packets sent are well
formed exactly when no pull of the run meets a length that wraps around.
-/
theorem sentPackets_wellFormed_iff
    {tr : List FramerTransition} {s : FramerState}
    (run : framerSystem.Run freshFramer tr s) :
    (∀ pkt ∈ sentPackets tr, WellFormed pkt) ↔
      ∀ t ∈ tr, t.event = .pull → ¬ LengthWraps t.pre.framer.live := by
  have hmoves := framerMove_of_run run newPacketFramer_inRange
  constructor
  · intro hwf t ht
    refine (hmoves t ht).wellFormed_iff.mp (fun pkt hpkt => hwf pkt ?_)
    exact List.mem_flatMap.mpr ⟨t, ht, hpkt⟩
  · intro hwraps pkt hpkt
    obtain ⟨t, ht, hout⟩ := List.mem_flatMap.mp hpkt
    exact (hmoves t ht).wellFormed_iff.mpr (hwraps t ht) pkt hout

/-- A header with length field 65535 makes the framer send three bytes. -/
theorem sentPackets_wraps :
    ∃ tr s, framerSystem.Run freshFramer tr s ∧
      pushedChunks tr = [[1, 0, 255, 255]] ∧
      sentPackets tr = [⟨[1, 0, 255]⟩] ∧ ¬ WellFormed ⟨[1, 0, 255]⟩ := by
  have hexec : (framerSystem.exec freshFramer
      [.push [1, 0, 255, 255], .pull, .pull]).map
        (fun r => (pushedChunks r.1, sentPackets r.1)) =
      some ([[1, 0, 255, 255]], [⟨[1, 0, 255]⟩]) := by
    decide +kernel
  obtain ⟨tr, s, hrun, -, htrace⟩ := System.run_of_exec hexec
  simp only [Prod.mk.injEq] at htrace
  refine ⟨tr, s, hrun, htrace.1, htrace.2, ?_⟩
  intro hwf
  exact absurd hwf.size (by decide)

/-- A health check request arrives as a well formed packet. -/
theorem sentPackets_healthCheck :
    ∃ tr s, framerSystem.Run freshFramer tr s ∧
      sentPackets tr = [⟨[1, 129, 0, 0]⟩] ∧
      ∀ pkt ∈ sentPackets tr, WellFormed pkt := by
  have hexec : (framerSystem.exec freshFramer
      [.push [1, 129, 0], .pull, .push [0], .pull, .pull]).map
        (fun r => (sentPackets r.1, r.1.map (fun t => t.pre.framer.live))) =
      some ([⟨[1, 129, 0, 0]⟩],
        [[], [1, 129, 0], [1, 129, 0], [1, 129, 0, 0], []]) := by
    decide +kernel
  obtain ⟨tr, s, hrun, -, htrace⟩ := System.run_of_exec hexec
  simp only [Prod.mk.injEq] at htrace
  refine ⟨tr, s, hrun, htrace.1, (sentPackets_wellFormed_iff hrun).mpr ?_⟩
  intro t ht hpull hwraps
  have hlive : t.pre.framer.live ∈
      tr.map (fun t => t.pre.framer.live) :=
    List.mem_map_of_mem ht
  have hlarge := hwraps.large
  rw [htrace.2] at hlive
  simp only [List.mem_cons, List.not_mem_nil, or_false] at hlive
  rcases hlive with h | h | h | h | h <;> rw [h] at hlarge <;>
    exact absurd hlarge (by decide)

end PacketIntegrity

end Server
end TurnBasedGame
