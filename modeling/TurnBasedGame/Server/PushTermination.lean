import TurnBasedGame.Server.FramerRuns

/-!
# Termination of a push

The loop of `push` has no counter; its measure is the number of live bytes.
A pull that emits a packet lowers it by the full length computed from the
header, and this is 0 for the length field 65532, where the 16-bit addition
wraps around.  A packet of length 0 is emitted without moving the index, so
the loop finds the same header again and sends empty packets for ever.

The module proves that this is the only way a call of `push` fails to return,
as a condition on the bytes the loop starts from.
-/

namespace TurnBasedGame
namespace Server

open Kernel
open PacketFramer

section PushTermination

/-- The bytes begin with a packet of full length `n`, completely received. -/
structure FrontPacket (w : List UInt8) (n : Nat) : Prop where
  header : packetHeaderSize ≤ w.length
  versionByte : w.head? = some version
  full : (lengthField w + packetHeaderSize) % 65536 = n
  small : n < packetMaxSize
  /-- The framer compares with the last 16 bits of its index. -/
  received : n ≤ w.length % 65536

/-- The bytes begin with a header whose full length wraps around to 0. -/
structure EmptyFrame (w : List UInt8) : Prop where
  header : packetHeaderSize ≤ w.length
  versionByte : w.head? = some version
  wraps : lengthField w = 65532

instance (w : List UInt8) : Decidable (EmptyFrame w) :=
  decidable_of_iff
    (packetHeaderSize ≤ w.length ∧ w.head? = some version ∧
      lengthField w = 65532)
    ⟨fun h => ⟨h.1, h.2.1, h.2.2⟩,
      fun h => ⟨h.header, h.versionByte, h.wraps⟩⟩

/-- After packets that do have a length, the bytes go on with such a header. -/
inductive ReachesEmptyFrame : List UInt8 → Prop
  | here {w : List UInt8}
      (empty : EmptyFrame w) :
      ReachesEmptyFrame w
  | later {w : List UInt8} {n : Nat}
      (front : FrontPacket w n)
      (pos : 0 < n)
      (rest : ReachesEmptyFrame (w.drop n)) :
      ReachesEmptyFrame w

/-- The framer cuts off exactly the packets in front of the live bytes. -/
theorem verdict_eq_complete_iff
    {w : List UInt8} {n : Nat} :
    verdict w = .complete n ↔ FrontPacket w n := by
  constructor
  · intro h
    obtain ⟨hfull, hsmall, hfits, hheader, hversion⟩ := verdict_complete h
    exact ⟨hheader, hversion, hfull.symm, hsmall, hfits⟩
  · intro h
    have hfull : fullLength w = n := h.full
    have hsmall := h.small
    unfold verdict
    rw [if_neg (Nat.not_lt.mpr h.header), if_neg (by simp [h.versionByte]),
      hfull, if_neg (Nat.not_le.mpr hsmall), if_pos h.received]

/-- A packet in front has length 0 exactly for the length field 65532. -/
theorem frontPacket_zero_iff
    {w : List UInt8} :
    FrontPacket w 0 ↔ EmptyFrame w := by
  have hlt := lengthField_lt w
  constructor
  · intro h
    have hfull := h.full
    simp only [packetHeaderSize] at hfull
    exact ⟨h.header, h.versionByte, by omega⟩
  · intro h
    have hwraps := h.wraps
    refine ⟨h.header, h.versionByte, ?_, by decide, Nat.zero_le _⟩
    simp only [packetHeaderSize]
    omega

/-- There is only one packet in front. -/
theorem FrontPacket.length_unique
    {w : List UInt8} {n m : Nat}
    (hn : FrontPacket w n)
    (hm : FrontPacket w m) :
    n = m :=
  hn.full.symm.trans hm.full

/-- Before a header of length 0 is reached there is a packet to cut off. -/
theorem ReachesEmptyFrame.step
    {w : List UInt8}
    (h : ReachesEmptyFrame w) :
    ∃ n, FrontPacket w n ∧ ReachesEmptyFrame (w.drop n) := by
  cases h with
  | here empty =>
      exact ⟨0, frontPacket_zero_iff.mpr empty, by simpa using .here empty⟩
  | later front pos rest => exact ⟨_, front, rest⟩

/-- Behind a packet no header of length 0 is reached that was not before. -/
theorem not_reachesEmptyFrame_drop
    {w : List UInt8} {n : Nat}
    (h : ¬ ReachesEmptyFrame w)
    (front : FrontPacket w n) :
    0 < n ∧ ¬ ReachesEmptyFrame (w.drop n) := by
  have hpos : 0 < n := by
    rcases Nat.eq_zero_or_pos n with rfl | hpos
    · exact absurd (.here (frontPacket_zero_iff.mp front)) h
    · exact hpos
  exact ⟨hpos, fun hrest => h (.later front hpos hrest)⟩

/-- A pull emits the packet in front. -/
theorem pull_frontPacket
    {p : PacketFramer} {n : Nat}
    (hp : p.InRange)
    (front : FrontPacket p.live n) :
    p.pull = .ok (.packet ⟨p.live.take n⟩, p.cutFront n) := by
  rw [hp.pull_eq, verdict_eq_complete_iff.mpr front]

/-- A pull emits nothing where no packet is in front. -/
theorem pull_noPacket
    {p : PacketFramer}
    (hp : p.InRange)
    (none : ∀ n, ¬ FrontPacket p.live n) :
    p.pull = .ok (.nothing, p) ∨ ∃ err, p.pull = .ok (.failed err, p) := by
  cases hverdict : verdict p.live with
  | waiting => exact Or.inl (by rw [hp.pull_eq, hverdict])
  | rejected err => exact Or.inr ⟨err, by rw [hp.pull_eq, hverdict]⟩
  | complete n =>
      exact absurd (verdict_eq_complete_iff.mp hverdict) (none n)

/-- Cutting off the packet in front keeps the index in range. -/
theorem FrontPacket.cutFront
    {p : PacketFramer} {n : Nat}
    (front : FrontPacket p.live n)
    (hp : p.InRange) :
    (p.cutFront n).InRange ∧ (p.cutFront n).live = p.live.drop n := by
  have hle : n ≤ p.idx.toNat :=
    hp.complete_le (verdict_eq_complete_iff.mpr front)
  exact ⟨hp.cutFront hle, hp.cutFront_live hle⟩

/-- An iteration that emits the packet in front goes on behind it. -/
theorem drain_frontPacket
    {p : PacketFramer} {n : Nat}
    (hp : p.InRange)
    (front : FrontPacket p.live n)
    {fuel : Nat} {r : LoopResult}
    (hr : drain fuel (p.cutFront n) = .ok r) :
    drain (fuel + 1) p =
      .ok { r with sent := ⟨p.live.take n⟩ :: r.sent } := by
  exact drain_packet (pull_frontPacket hp front) hr

/--
The loop returns when no header of length 0 is reached: every iteration that
emits a packet lowers the number of live bytes.
-/
theorem drain_returns
    {fuel : Nat} {p : PacketFramer}
    (hp : p.InRange)
    (h : ¬ ReachesEmptyFrame p.live)
    (hfuel : p.live.length < fuel) :
    ∃ r err, drain fuel p = .ok r ∧ r.status = .returned err := by
  induction fuel generalizing p with
  | zero => omega
  | succ fuel ih =>
      by_cases hfront : ∃ n, FrontPacket p.live n
      · obtain ⟨n, front⟩ := hfront
        obtain ⟨hpos, hrest⟩ := not_reachesEmptyFrame_drop h front
        obtain ⟨hcut, hlive⟩ := front.cutFront hp
        have hheader := front.header
        simp only [packetHeaderSize] at hheader
        have hless : (p.cutFront n).live.length < fuel := by
          rw [hlive, List.length_drop]
          omega
        obtain ⟨r, err, hr, hstatus⟩ :=
          ih hcut (by rw [hlive]; exact hrest) hless
        exact ⟨_, err, drain_frontPacket hp front hr, hstatus⟩
      · rw [not_exists] at hfront
        rcases pull_noPacket hp hfront with hpull | ⟨err, hpull⟩
        · exact ⟨_, none, drain_nothing hpull, rfl⟩
        · exact ⟨_, some err, drain_failed hpull, rfl⟩

/-- The loop never returns when a header of length 0 is reached. -/
theorem drain_running
    {p : PacketFramer}
    (hp : p.InRange)
    (h : ReachesEmptyFrame p.live)
    (fuel : Nat) :
    ∃ r, drain fuel p = .ok r ∧ r.status = .running := by
  induction fuel generalizing p with
  | zero => exact ⟨⟨[], p, .running⟩, rfl, rfl⟩
  | succ fuel ih =>
      obtain ⟨n, front, hrest⟩ := h.step
      obtain ⟨hcut, hlive⟩ := front.cutFront hp
      obtain ⟨r, hr, hstatus⟩ := ih hcut (by rw [hlive]; exact hrest)
      exact ⟨_, drain_frontPacket hp front hr, hstatus⟩

/-- With enough iterations allowed, the call of `push` returns. -/
def Returns (p : PacketFramer) (data : List UInt8) : Prop :=
  ∃ N, ∀ fuel, N ≤ fuel →
    ∃ r err, p.push fuel data = .ok r ∧ r.status = .returned err

/-- A call of `push` returns exactly when no header of length 0 is reached. -/
theorem returns_iff
    {p : PacketFramer}
    (hp : p.InRange)
    (data : List UInt8) :
    Returns p data ↔
      ¬ ReachesEmptyFrame (p.live ++ data.take (p.accepted data)) := by
  have hfilled := hp.filled data
  rw [← hp.filled_live data]
  constructor
  · rintro ⟨N, hN⟩ hreaches
    obtain ⟨r, err, hr, hstatus⟩ := hN N le_rfl
    obtain ⟨r', hr', hrunning⟩ := drain_running hfilled hreaches N
    rw [hp.push_eq_drain, hr', Except.ok.injEq] at hr
    rw [← hr, hrunning] at hstatus
    cases hstatus
  · intro hreaches
    refine ⟨(p.filled data).live.length + 1, fun fuel hfuel => ?_⟩
    rw [hp.push_eq_drain]
    exact drain_returns hfilled hreaches (by omega)

/-- A pull that emits a packet lowers the index unless the packet is empty. -/
theorem pull_idx_lt_iff
    {p p' : PacketFramer} {pkt : Packet}
    (hp : p.InRange)
    (hpull : p.pull = .ok (.packet pkt, p')) :
    p'.idx < p.idx ↔ ¬ EmptyFrame p.live := by
  have hfront : ∃ n, FrontPacket p.live n := by
    by_contra hnone
    rcases pull_noPacket hp (not_exists.mp hnone) with h | ⟨err, h⟩ <;>
      simp [hpull] at h
  obtain ⟨n, front⟩ := hfront
  rw [pull_frontPacket hp front] at hpull
  simp only [Except.ok.injEq, Prod.mk.injEq] at hpull
  obtain ⟨-, rfl⟩ := hpull
  rw [← frontPacket_zero_iff]
  have hidx : (p.cutFront n).idx = p.idx - n := rfl
  constructor
  · intro hlt hzero
    have hn := front.length_unique hzero
    omega
  · intro hzero
    have hn : n ≠ 0 := fun hn => hzero (hn ▸ front)
    omega

/--
Termination of `push`.  In every state of a run a pull that emits a packet
lowers the index unless the packet in front has length 0, and a call of `push`
returns exactly when the loop reaches no packet of length 0 in the bytes that
are live after the chunk was taken in.
-/
theorem push_terminates_iff
    {tr : List FramerTransition} {s : FramerState}
    (run : framerSystem.Run freshFramer tr s) :
    (∀ pkt p', s.framer.pull = .ok (.packet pkt, p') →
      (p'.idx < s.framer.idx ↔ ¬ EmptyFrame s.framer.live)) ∧
    (s.looping = false → ∀ data,
      (Returns s.framer data ↔
        ¬ ReachesEmptyFrame
          (s.framer.live ++ data.take (s.framer.accepted data)))) := by
  have hp := framer_inRange run newPacketFramer_inRange
  exact ⟨fun _ _ hpull => pull_idx_lt_iff hp hpull,
    fun _ data => returns_iff hp data⟩

/-- An accepted header with length field 65532, sent to a fresh framer. -/
theorem push_runs_forever :
    (∀ fuel, ∃ r, newPacketFramer.push fuel [1, 0, 255, 252] = .ok r ∧
      r.status = .running) ∧
    ¬ Returns newPacketFramer [1, 0, 255, 252] ∧
    (newPacketFramer.push 3 [1, 0, 255, 252]).toOption.map
        (fun r => (r.sent, r.framer.idx)) =
      some ([⟨[]⟩, ⟨[]⟩, ⟨[]⟩], 4) := by
  have hp := newPacketFramer_inRange
  have hlive : (newPacketFramer.filled [1, 0, 255, 252]).live =
      [1, 0, 255, 252] := by
    decide +kernel
  have hreaches : ReachesEmptyFrame [1, 0, 255, 252] :=
    .here (by decide)
  refine ⟨fun fuel => ?_, ?_, ?_⟩
  · rw [hp.push_eq_drain]
    exact drain_running (hp.filled _) (by rw [hlive]; exact hreaches) fuel
  · rw [returns_iff hp, ← hp.filled_live, hlive]
    exact not_not_intro hreaches
  · decide +kernel

/-- A packet with one byte of data, and the beginning of another. -/
def packetAndHeader : List UInt8 :=
  [1, 129, 0, 1, 7, 1, 129]

/-- The packet is cut off and the call returns. -/
theorem push_terminates_short :
    Returns newPacketFramer packetAndHeader ∧
    ∃ tr s pkt p', framerSystem.Run freshFramer tr s ∧
      s.framer.pull = .ok (.packet pkt, p') ∧ p'.idx < s.framer.idx := by
  have hp := newPacketFramer_inRange
  have hlive : (newPacketFramer.filled packetAndHeader).live =
      packetAndHeader := by
    decide +kernel
  have hfront : FrontPacket packetAndHeader 5 := by
    constructor <;> decide
  constructor
  · refine ((push_terminates_iff .nil).2 rfl _).mpr ?_
    have htaken := hp.filled_live packetAndHeader
    rw [hlive] at htaken
    rw [show freshFramer.framer = newPacketFramer from rfl, ← htaken]
    intro hreaches
    obtain ⟨n, front, hrest⟩ := hreaches.step
    obtain rfl := front.length_unique hfront
    obtain ⟨m, front', -⟩ := hrest.step
    exact absurd front'.header (by decide)
  · have hvalid : framerSystem.Valid
        (⟨freshFramer, .push packetAndHeader, [],
          ⟨newPacketFramer.filled packetAndHeader, true⟩⟩ :
            FramerTransition) := by
      simp [System.Valid, framerSystem, framerStep, freshFramer,
        hp.fill_eq packetAndHeader]
    have hrun := System.Run.nil.snoc _ hvalid
    have hpull := pull_frontPacket (hp.filled packetAndHeader)
      (by rw [hlive]; exact hfront)
    refine ⟨_, _, _, _, hrun, hpull, ?_⟩
    refine ((push_terminates_iff hrun).1 _ _ hpull).mpr ?_
    rw [hlive]
    decide

end PushTermination

end Server
end TurnBasedGame
