import TurnBasedGame.Server.RejectedHeader

/-!
# Bounds of the framer

Every index and slice expression of the framer is checked in the model, so a
call that returns has evaluated none out of range.  The first part shows that
every call returns, in every state of a run: the index stays in the buffer
through both 16-bit conversions of `pull`.

The second part is about the conversion of the index to 16 bits, which the
comparison in `pull` uses.  With chunks as short as the reads of
`FrameWithReader` the index is small whenever the comparison is evaluated,
and it is large only behind a header that has been rejected.
-/

namespace TurnBasedGame
namespace Server

open Kernel
open PacketFramer

section FramerBounds

namespace PacketFramer

variable {p : PacketFramer}

/-- A pull returns and keeps the index in range. -/
theorem InRange.pull_total
    (h : p.InRange) :
    ∃ res p', p.pull = .ok (res, p') ∧ p'.InRange := by
  rw [h.pull_eq]
  cases hverdict : verdict p.live with
  | waiting => exact ⟨_, _, rfl, h⟩
  | rejected err => exact ⟨_, _, rfl, h⟩
  | complete n => exact ⟨_, _, rfl, h.cutFront (h.complete_le hverdict)⟩

/-- Iterations of the loop of `push` return and keep the index in range. -/
theorem InRange.drain_total
    (h : p.InRange)
    (fuel : Nat) :
    ∃ r, drain fuel p = .ok r ∧ r.framer.InRange := by
  induction fuel generalizing p with
  | zero => exact ⟨_, rfl, h⟩
  | succ fuel ih =>
      obtain ⟨res, p', hpull, hp'⟩ := h.pull_total
      cases res with
      | nothing => exact ⟨_, drain_nothing hpull, hp'⟩
      | failed err => exact ⟨_, drain_failed hpull, hp'⟩
      | packet pkt =>
          obtain ⟨r, hdrain, hr⟩ := ih hp'
          exact ⟨_, drain_packet hpull hdrain, hr⟩

/-- So does a call of `push`, whatever the chunk is. -/
theorem InRange.push_total
    (h : p.InRange)
    (fuel : Nat) (data : List UInt8) :
    ∃ r, p.push fuel data = .ok r ∧ r.framer.InRange := by
  obtain ⟨r, hdrain, hr⟩ := (h.filled data).drain_total fuel
  exact ⟨r, (h.push_eq_drain fuel data).trans hdrain, hr⟩

/-- So do the calls the reader makes. -/
theorem InRange.pushAll_total
    (h : p.InRange)
    (fuel : Nat) (chunks : List (List UInt8)) :
    ∃ r, pushAll fuel p chunks = .ok r ∧ r.framer.InRange := by
  induction chunks generalizing p with
  | nil => exact ⟨_, rfl, h⟩
  | cons data rest ih =>
      obtain ⟨r, hpush, hr⟩ := h.push_total fuel data
      cases hstatus : r.status with
      | running => exact ⟨r, pushAll_running hpush hstatus, hr⟩
      | returned err =>
          obtain ⟨r', hrest, hr'⟩ := ih hr
          exact ⟨_, pushAll_returned hpush hstatus hrest, hr'⟩

end PacketFramer

/--
The framer cannot fail at run time.  In every run of a fresh framer on chunks
of any lengths, the index is in range before and after every step, and in
every state reached a chunk is taken in, a pull is made, and calls of `push`
run without an index or slice expression out of range.
-/
theorem framer_bounds_safe
    {tr : List FramerTransition} {s : FramerState}
    (run : framerSystem.Run freshFramer tr s) :
    (∀ t ∈ tr, t.pre.framer.InRange ∧ t.post.framer.InRange) ∧
    s.framer.InRange ∧
    (∀ data, ∃ p, s.framer.fill data = .ok p ∧ p.InRange) ∧
    (∃ res p, s.framer.pull = .ok (res, p) ∧ p.InRange) ∧
    (∀ fuel data, ∃ r, s.framer.push fuel data = .ok r ∧
      r.framer.InRange) ∧
    ∀ fuel chunks, ∃ r, pushAll fuel s.framer chunks = .ok r ∧
      r.framer.InRange := by
  have hrange := framer_inRange run newPacketFramer_inRange
  refine ⟨fun t ht => ?_, hrange, fun data => ?_, hrange.pull_total,
    hrange.push_total, hrange.pushAll_total⟩
  · obtain ⟨first, rest, rfl⟩ := List.append_of_mem ht
    have hpre := framer_inRange run.before.1 newPacketFramer_inRange
    exact ⟨hpre, (framerMove_of_valid run.before.2.1 hpre).inRange hpre⟩
  · exact ⟨_, hrange.fill_eq data, hrange.filled data⟩

/-- A chunk of 70000 bytes, and one more behind it. -/
theorem framer_bounds_safe_long :
    ∃ tr s, framerSystem.Run freshFramer tr s ∧
      tr.map Transition.event = [.push (List.replicate 70000 1)] ∧
      ∃ r, s.framer.push 9 (List.replicate 70000 255) = .ok r ∧
        r.framer.InRange := by
  have hvalid := valid_filled
    (newPacketFramer_inRange.fill_eq (List.replicate 70000 1))
  have hrun := System.Run.cons _ hvalid .nil
  exact ⟨_, _, hrun, rfl, (framer_bounds_safe hrun).2.2.2.2.1 9 _⟩

section Narrowing

/-- `pull` evaluates the comparison of the full length with the index. -/
def Compares (p : PacketFramer) : Prop :=
  (packetHeaderSize : Int) ≤ p.idx ∧ index p.buf 0 = .ok version ∧
    ∃ pktLen, getPacketLength p.buf = .ok pktLen ∧
      ¬ UInt16.ofNat packetMaxSize ≤
        pktLen + UInt16.ofNat packetHeaderSize

/-- A step in which `pull` returns a framing error. -/
def FailsWith (err : ServerError) (t : FramerTransition) : Prop :=
  t.event = .pull ∧ t.pre.framer.pull = .ok (.failed err, t.pre.framer)

/-- The longest chunk behind the longest beginning of a packet. -/
def idxBound : Nat := packetMaxSize + 98

/-- A pull that gets to the comparison returns no error. -/
theorem pull_of_compares
    {p p' : PacketFramer} {err : ServerError}
    (h : Compares p) :
    p.pull ≠ .ok (.failed err, p') := by
  obtain ⟨hheader, hversion, pktLen, hlen, hmax⟩ := h
  intro hpull
  unfold pull at hpull
  rw [if_neg (not_lt.mpr hheader)] at hpull
  simp only [hversion, hlen, bind, Except.bind, ne_eq, not_true_eq_false,
    if_false] at hpull
  rw [if_neg hmax] at hpull
  split_ifs at hpull with hfits
  · generalize (pktLen + UInt16.ofNat packetHeaderSize).toNat = n at hpull
    cases hfront : sliceTo p.buf n with
    | error e => simp [hfront] at hpull
    | ok front =>
        cases htail : sliceFrom p.buf n with
        | error e => simp [hfront, htail] at hpull
        | ok tail => simp [hfront, htail, pure, Except.pure] at hpull
  · cases hpull

/-- A framing error is returned exactly behind a header that is rejected. -/
theorem failsWith_iff
    {s : FramerState} {err : ServerError} {out : List Packet}
    {s' : FramerState}
    (h : s.framer.InRange) :
    FailsWith err ⟨s, .pull, out, s'⟩ ↔
      verdict s.framer.live = .rejected err := by
  refine ⟨fun hfails => verdict_of_pull_failed h.toInBounds hfails.2,
    fun hverdict => ⟨rfl, ?_⟩⟩
  simp only [h.pull_eq, hverdict]

/-- A longer run has failed when the shorter one has, or its last step. -/
theorem fails_snoc
    {tr : List FramerTransition} {t : FramerTransition} {err : ServerError} :
    (∃ t' ∈ tr ++ [t], FailsWith err t') ↔
      (∃ t' ∈ tr, FailsWith err t') ∨ FailsWith err t := by
  simp [or_and_right, exists_or]

/--
A header on which a pull has failed is still in front; and while none has
failed the index is below its bound, between two pushes by a whole read.
-/
structure Narrow (tr : List FramerTransition) (s : FramerState) : Prop where
  inRange : s.framer.InRange
  rejected : ∀ err, (∃ t ∈ tr, FailsWith err t) →
    verdict s.framer.live = .rejected err
  small : (∀ err, ¬ ∃ t ∈ tr, FailsWith err t) →
    s.framer.idx.toNat + (if s.looping then 0 else readSize) ≤ idxBound

theorem Narrow.move
    {tr : List FramerTransition} {t : FramerTransition}
    (move : FramerMove t)
    (short : ShortRead t)
    (h : Narrow tr t.pre) :
    Narrow (tr ++ [t]) t.post := by
  have hrange := h.inRange
  refine ⟨move.inRange hrange, fun err hfails => ?_, fun hnone => ?_⟩
  · rw [fails_snoc] at hfails
    cases move with
    | filled p data =>
        rcases hfails with hbefore | ⟨hevent, -⟩
        · exact filled_rejected hrange.toInBounds (h.rejected err hbefore) data
        · cases hevent
    | emitted p n complete =>
        have hreject : verdict p.live = .rejected err :=
          hfails.elim (h.rejected err) (failsWith_iff hrange).mp
        rw [complete] at hreject
        cases hreject
    | returned p stops =>
        exact hfails.elim (h.rejected err) (failsWith_iff hrange).mp
  · simp only [fails_snoc, not_or] at hnone
    have hsmall := h.small fun err => (hnone err).1
    cases move with
    | filled p data =>
        have hdata := short data rfl
        have hacc : p.accepted data ≤ data.length := Nat.min_le_right _ _
        have hnonneg : 0 ≤ p.idx := hrange.nonneg
        simp only [PacketFramer.filled, Bool.false_eq_true, if_true,
          if_false] at hsmall ⊢
        omega
    | emitted p n complete =>
        have hn : n ≤ p.idx.toNat := hrange.complete_le complete
        simp only [PacketFramer.cutFront, if_true] at hsmall ⊢
        omega
    | returned p stops =>
        cases hverdict : verdict p.live with
        | complete n => exact absurd hverdict (stops n)
        | rejected err =>
            exact absurd ((failsWith_iff hrange).mpr hverdict) (hnone err).2
        | waiting =>
            have hlive : p.live.length = p.idx.toNat := hrange.live_length
            simp only [idxBound, packetMaxSize, if_true] at hsmall
            have hlt : p.live.length < 65536 := by omega
            have hmax := verdict_waiting_length hverdict hlt
            simp only [packetMaxSize] at hmax
            simp only [idxBound, packetMaxSize, readSize, Bool.false_eq_true,
              if_false]
            omega

theorem narrow_of_run
    {tr : List FramerTransition} {s : FramerState}
    (run : framerSystem.Run freshFramer tr s)
    (short : ∀ data ∈ pushedChunks tr, data.length ≤ readSize) :
    Narrow tr s := by
  have hkeep : (∀ t ∈ tr, ShortRead t) → Narrow tr s := by
    refine run.history_induction
      (J := fun tr s => (∀ t ∈ tr, ShortRead t) → Narrow tr s) ?_ ?_
    · refine fun _ => ⟨newPacketFramer_inRange, fun err hfails => ?_, ?_⟩
      · obtain ⟨t, ht, -⟩ := hfails
        cases ht
      · intro _
        decide
    · intro tr t hrun valid ih hshort
      have hrange := framer_inRange hrun newPacketFramer_inRange
      exact (ih fun t' ht' => hshort t' (List.mem_append_left _ ht')).move
        (framerMove_of_valid valid hrange) (hshort t (by simp))
  exact hkeep fun t ht data hevent => short data (mem_pushedChunks ht hevent)

/--
The narrowing conversion in `pull`.  In every run with chunks as short as the
reads of `FrameWithReader`, whenever the comparison with the index is evaluated
the index is at most `packetMaxSize + 98`, so that its conversion to 16 bits is
exact; and a larger index means that a pull has already returned a framing
error before its comparison, and still does.
-/
theorem narrowing_exact
    {tr : List FramerTransition} {s : FramerState}
    (run : framerSystem.Run freshFramer tr s)
    (short : ∀ data ∈ pushedChunks tr, data.length ≤ readSize) :
    (∀ t ∈ tr, t.event = .pull → Compares t.pre.framer →
      t.pre.framer.idx ≤ packetMaxSize + 98 ∧
        (UInt16.ofInt t.pre.framer.idx).toNat = t.pre.framer.idx) ∧
    (packetMaxSize + 98 < s.framer.idx →
      ∃ err, (∃ t ∈ tr, FailsWith err t ∧ ¬ Compares t.pre.framer) ∧
        s.framer.pull = .ok (.failed err, s.framer) ∧
        ¬ Compares s.framer) := by
  constructor
  · intro t ht hevent hcompares
    obtain ⟨first, rest, rfl⟩ := List.append_of_mem ht
    have hnarrow := narrow_of_run run.before.1 fun data hdata =>
      short data (by
        rw [pushedChunks, List.filterMap_append]
        exact List.mem_append_left _ hdata)
    have hrange := hnarrow.inRange
    have hnonneg := hrange.nonneg
    have hsmall := hnarrow.small fun err hfails => by
      have hpull : t.pre.framer.pull =
          .ok (.failed err, t.pre.framer) := by
        rw [hrange.pull_eq, hnarrow.rejected err hfails]
      exact pull_of_compares hcompares hpull
    simp only [idxBound, packetMaxSize] at hsmall ⊢
    have hle : t.pre.framer.idx.toNat ≤ 1122 := by omega
    have hexact := hrange.idx_toUInt16
    exact ⟨by omega, by omega⟩
  · intro hlarge
    have hnarrow := narrow_of_run run short
    have hfailed : ∃ err, ∃ t ∈ tr, FailsWith err t := by
      by_contra hnone
      have hsmall := hnarrow.small (not_exists.mp hnone)
      simp only [idxBound, packetMaxSize] at hsmall hlarge
      omega
    obtain ⟨err, t, ht, hfails⟩ := hfailed
    have hpull : s.framer.pull = .ok (.failed err, s.framer) := by
      rw [hnarrow.inRange.pull_eq, hnarrow.rejected err ⟨t, ht, hfails⟩]
    exact ⟨err, ⟨t, ht, hfails, fun h => pull_of_compares h hfails.2⟩, hpull,
      fun h => pull_of_compares h hpull⟩

/-- A packet, and thirteen reads behind a header with the wrong version. -/
theorem narrowing_exact_long :
    ∃ tr s, framerSystem.Run freshFramer tr s ∧
      tr.map Transition.event =
        [.push [1, 129, 0, 0], .pull, .pull] ++ wrongVersionReads ∧
      (∀ t ∈ tr, t.event = .pull → Compares t.pre.framer →
        (UInt16.ofInt t.pre.framer.idx).toNat = t.pre.framer.idx) ∧
      s.framer.idx = 1124 ∧ ∃ t ∈ tr, ¬ Compares t.pre.framer := by
  have hexec : (framerSystem.exec freshFramer
      ([.push [1, 129, 0, 0], .pull, .pull] ++ wrongVersionReads)).map
      (fun r => ((pushedChunks r.1).all (fun d => d.length ≤ readSize),
        r.2.framer.idx)) = some (true, 1124) := by
    decide +kernel
  obtain ⟨tr, s, hrun, hevents, hend⟩ := System.run_of_exec hexec
  simp only [Prod.mk.injEq, List.all_eq_true, decide_eq_true_eq] at hend
  obtain ⟨hshort, hidx⟩ := hend
  obtain ⟨hexact, hlarge⟩ := narrowing_exact hrun hshort
  obtain ⟨err, ⟨t, ht, -, hnot⟩, -, -⟩ :=
    hlarge (by rw [hidx, packetMaxSize]; decide)
  exact ⟨tr, s, hrun, hevents, fun t ht hevent hc =>
    (hexact t ht hevent hc).2, hidx, t, ht, hnot⟩

end Narrowing

end FramerBounds

end Server
end TurnBasedGame
