import TurnBasedGame.Server.RejectedHeader
import TurnBasedGame.Server.StreamReassembly

/-!
# Encoding a packet and framing it again

A constructed packet, pushed in one piece into a framer without live bytes,
comes out of the framer as it went in: the bytes that earlier packets left in
the buffer do not matter.  The one exception is the longest packet that
`maxDataSize` allows.  Its full length is `packetMaxSize`, which the framer
rejects.
-/

namespace TurnBasedGame
namespace Server

open PacketFramer

section RoundTrip

/--
Pushed in one piece into the framer, the packet is the only one sent, all
that was put into it can be read back, and no byte of it stays behind.
-/
def Transmits
    (p : PacketFramer)
    (enc : Encoding) (pktType : PacketType) (payload : List UInt8) : Prop :=
  ∃ N, ∀ fuel, N ≤ fuel → ∃ pkt p',
    p.push fuel (constructPacket enc pktType payload).data =
        .ok ⟨[pkt], p', .returned none⟩ ∧
      pkt.getEncoding = .ok enc ∧ pkt.getType = .ok pktType ∧
      pkt.getData = .ok payload ∧ p'.idx = 0

variable {p : PacketFramer}

/-- A chunk with room in an empty buffer becomes all its live bytes. -/
theorem filled_live_of_empty
    (hp : p.InRange)
    (hidx : p.idx = 0)
    {data : List UInt8}
    (hdata : data.length ≤ p.buf.length) :
    (p.filled data).live = data := by
  have hlive : p.live = [] := by
    simp [PacketFramer.live, hidx]
  have hacc : p.accepted data = data.length := by
    simp only [accepted, hidx]
    omega
  rw [hp.filled_live data, hlive, hacc, List.take_length, List.nil_append]

/-- What a well-behaved client sends is transmitted. -/
theorem transmits_wirePacket
    (hp : p.InRange)
    (hidx : p.idx = 0)
    (pkt : WirePacket) :
    Transmits p pkt.enc pkt.pktType pkt.payload := by
  have hsize := pkt.size_lt
  have hlen : pkt.bytes.length = pkt.payload.length + packetHeaderSize :=
    constructPacket_length _ _ _
  have hroom := hp.size_le
  have hlive : (p.filled pkt.bytes).live = pkt.bytes :=
    filled_live_of_empty hp hidx (by omega)
  have hnone : packetFraming.IsUnfinished [] :=
    pkt.isUnfinished List.nil_prefix (by
      intro hnil
      rw [← hnil] at hlen
      simp [packetHeaderSize] at hlen)
  have hframes : ∀ f ∈ [pkt.bytes], packetFraming.IsFrame f := by
    simpa using pkt.isFrame
  have hshort : (p.filled pkt.bytes).live.length < 65536 := by
    rw [hlive, hlen]
    simp only [packetMaxSize] at hsize
    omega
  refine ⟨2, fun fuel hfuel => ?_⟩
  obtain ⟨p', hdrain, hp', hlive', -⟩ :=
    drain_frames hframes hnone hfuel (hp.filled pkt.bytes)
      (by simpa using hlive) hshort
  obtain ⟨henc, htype, hdata⟩ :=
    constructPacket_read pkt.payload pkt.enc_lt pkt.pktType_lt
  have hidx' := hp'.live_length
  have hnonneg := hp'.nonneg
  rw [hlive', List.length_nil] at hidx'
  refine ⟨_, p', ?_, henc, htype, hdata, by omega⟩
  rw [hp.push_eq_drain]
  exact hdrain

/-- The framer rejects the longest packet that `maxDataSize` allows. -/
theorem verdict_longest
    (enc : Encoding) (pktType : PacketType) {payload : List UInt8}
    (hlen : payload.length = maxDataSize) :
    verdict (constructPacket enc pktType payload).data =
      .rejected .packetLengthMismatch := by
  have hsize := constructPacket_length enc pktType payload
  have hshort : payload.length < 65536 := by
    rw [hlen]
    decide
  have hfield := lengthField_constructPacket enc pktType hshort
  have hfull : fullLength (constructPacket enc pktType payload).data =
      packetMaxSize := by
    rw [fullLength, hfield, hlen]
    rfl
  have hhead : (constructPacket enc pktType payload).data.head? =
      some version := rfl
  unfold verdict
  rw [if_neg (by omega), if_neg (by simp [hhead]), hfull, if_pos le_rfl]

/-- It is not transmitted. -/
theorem not_transmits_longest
    (hp : p.InRange)
    (hidx : p.idx = 0)
    (enc : Encoding) (pktType : PacketType) {payload : List UInt8}
    (hmax : payload.length = maxDataSize) :
    ¬ Transmits p enc pktType payload := by
  rintro ⟨N, hN⟩
  have hsize := constructPacket_length enc pktType payload
  have hlive : (p.filled (constructPacket enc pktType payload).data).live =
      (constructPacket enc pktType payload).data := by
    refine filled_live_of_empty hp hidx ?_
    rw [hsize, hmax]
    exact hp.size_le
  have hpull := (hp.filled
    (constructPacket enc pktType payload).data).pull_eq
  rw [hlive, verdict_longest enc pktType hmax] at hpull
  obtain ⟨pkt, p', hpush, -⟩ := hN (N + 1) (Nat.le_succ N)
  rw [hp.push_eq_drain, drain_failed hpull] at hpush
  cases hpush

/--
Encoding and framing.  A packet with data up to `maxDataSize`, pushed in one
piece into a framer without live bytes, is transmitted exactly when its data
is not of that maximal size.
-/
theorem round_trip_iff
    (hbuf : packetMaxSize ≤ p.buf.length)
    (hidx : p.idx = 0)
    {enc : Encoding} {pktType : PacketType} {payload : List UInt8}
    (henc : enc < 4)
    (htype : pktType < 64)
    (hlen : payload.length ≤ maxDataSize) :
    Transmits p enc pktType payload ↔ payload.length ≠ maxDataSize := by
  have hp : p.InRange := ⟨⟨hidx.ge, by simp [hidx]⟩, hbuf⟩
  constructor
  · intro htransmits hmax
    exact not_transmits_longest hp hidx enc pktType hmax htransmits
  · intro hne
    have hlt : payload.length + packetHeaderSize < packetMaxSize := by
      simp only [maxDataSize, packetMaxSize, packetHeaderSize]
        at hlen hne ⊢
      omega
    exact transmits_wirePacket hp hidx
      ⟨enc, pktType, payload, henc, htype, hlt⟩

/-- A packet of the maximal size is sent to a fresh framer. -/
theorem longest_not_transmitted :
    (List.replicate maxDataSize (7 : UInt8)).length ≤ maxDataSize ∧
      (newPacketFramer.push 2 (constructPacket encBytes packetGameState
          (List.replicate maxDataSize 7)).data).toOption.map
            (fun r => (r.sent, r.framer.idx, r.status)) =
        some ([], 1024, .returned (some .packetLengthMismatch)) ∧
      ¬ Transmits newPacketFramer encBytes packetGameState
        (List.replicate maxDataSize 7) :=
  ⟨List.length_replicate.le, by decide +kernel,
    not_transmits_longest newPacketFramer_inRange rfl _ _
      List.length_replicate⟩

/-- The longest packet that is transmitted, over the bytes of another one. -/
theorem round_trip_longest :
    Transmits ⟨List.replicate 1100 255, 0⟩ encBytes packetGameState
      (List.replicate 1019 7) := by
  have hlen : (List.replicate 1019 (7 : UInt8)).length = 1019 :=
    List.length_replicate
  refine (round_trip_iff ?_ rfl (by decide) (by decide) ?_).mpr ?_
  · rw [List.length_replicate]
    decide
  · rw [hlen]
    decide
  · rw [hlen]
    decide

end RoundTrip

end Server
end TurnBasedGame
