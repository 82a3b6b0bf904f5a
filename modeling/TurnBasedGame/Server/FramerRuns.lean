import TurnBasedGame.Server.Framer

/-!
# Runs of the framer

The framer as a transition system: a chunk is taken into the buffer when the
previous call of `push` has returned, and the loop of the call pulls packet
after packet until it returns.  Runs of this system also cover calls that
never return.  The module says once what a step can do, derives that the
index stays in range and that bytes are neither invented nor repeated, and
relates the runs to the function `pushAll`.
-/

namespace TurnBasedGame
namespace Server

open Kernel
open PacketFramer

section FramerRuns

/-- What the reader asks of the framer. -/
inductive FramerEvent
  | push (data : List UInt8)
  | pull
deriving DecidableEq, Repr

/-- A framer, and whether a call of `push` is in its loop. -/
structure FramerState where
  framer : PacketFramer
  looping : Bool
deriving DecidableEq, Repr

/-- Enter `push`, or run one iteration of its loop. -/
def framerStep (s : FramerState) :
    FramerEvent → Outcome FramerState Packet
  | .push data =>
      if s.looping then
        .blocked
      else
        match s.framer.fill data with
        | .ok p => .next ⟨p, true⟩ []
        | .error _ => .panic
  | .pull =>
      if s.looping then
        match s.framer.pull with
        | .ok (.packet pkt, p) => .next ⟨p, true⟩ [pkt]
        | .ok (_, p) => .next ⟨p, false⟩ []
        | .error _ => .panic
      else
        .blocked

/-- The framer driven by its reader. -/
def framerSystem : System FramerState FramerEvent Packet where
  step := framerStep

/-- The state of a framer no byte has reached. -/
def freshFramer : FramerState where
  framer := newPacketFramer
  looping := false

abbrev FramerTransition := Transition FramerState FramerEvent Packet

/-- Everything a step of the framer can do while its index is in range. -/
inductive FramerMove : FramerTransition → Prop
  | filled (p : PacketFramer) (data : List UInt8) :
      FramerMove ⟨⟨p, false⟩, .push data, [], ⟨p.filled data, true⟩⟩
  | emitted (p : PacketFramer) (n : Nat)
      (complete : verdict p.live = .complete n) :
      FramerMove
        ⟨⟨p, true⟩, .pull, [⟨p.live.take n⟩], ⟨p.cutFront n, true⟩⟩
  | returned (p : PacketFramer)
      (stops : ∀ n, verdict p.live ≠ .complete n) :
      FramerMove ⟨⟨p, true⟩, .pull, [], ⟨p, false⟩⟩

/-- Inversion of the steps of the framer. -/
theorem framerMove_of_valid
    {t : FramerTransition}
    (valid : framerSystem.Valid t)
    (h : t.pre.framer.InRange) :
    FramerMove t := by
  obtain ⟨⟨p, looping⟩, event, out, post⟩ := t
  have hstep : framerStep ⟨p, looping⟩ event = .next post out := valid
  cases event with
  | push data =>
      cases looping with
      | true => simp [framerStep] at hstep
      | false =>
          simp only [framerStep, h.fill_eq data, Bool.false_eq_true,
            if_false, Outcome.next.injEq] at hstep
          obtain ⟨rfl, rfl⟩ := hstep
          exact .filled p data
  | pull =>
      cases looping with
      | false => simp [framerStep] at hstep
      | true =>
          simp only [framerStep, h.pull_eq, if_true] at hstep
          cases hverdict : verdict p.live with
          | waiting =>
              simp only [hverdict, Outcome.next.injEq] at hstep
              obtain ⟨rfl, rfl⟩ := hstep
              exact .returned p (by simp [hverdict])
          | rejected err =>
              simp only [hverdict, Outcome.next.injEq] at hstep
              obtain ⟨rfl, rfl⟩ := hstep
              exact .returned p (by simp [hverdict])
          | complete n =>
              simp only [hverdict, Outcome.next.injEq] at hstep
              obtain ⟨rfl, rfl⟩ := hstep
              exact .emitted p n hverdict

/-- Every step of the framer keeps its index in range. -/
theorem FramerMove.inRange
    {t : FramerTransition}
    (move : FramerMove t)
    (h : t.pre.framer.InRange) :
    t.post.framer.InRange := by
  cases move with
  | filled p data => exact h.filled data
  | emitted p n complete =>
      exact h.cutFront (InRange.complete_le h complete)
  | returned p stops => exact h

/-- In every run the index stays in range. -/
theorem framer_inRange
    {s₀ s : FramerState} {tr : List FramerTransition}
    (run : framerSystem.Run s₀ tr s)
    (h : s₀.framer.InRange) :
    s.framer.InRange :=
  run.invariant (I := fun s => s.framer.InRange) h
    (fun _ valid hpre => (framerMove_of_valid valid hpre).inRange hpre)

/-- Every recorded step of a run is one of the moves of the framer. -/
theorem framerMove_of_run
    {s₀ s : FramerState} {tr : List FramerTransition}
    (run : framerSystem.Run s₀ tr s)
    (h : s₀.framer.InRange) :
    ∀ t ∈ tr, FramerMove t := by
  intro t ht
  have hpre := run.invariant_pre (I := fun s => s.framer.InRange) h
    (fun _ valid hpre => (framerMove_of_valid valid hpre).inRange hpre) t ht
  exact framerMove_of_valid (run.valid_of_mem t ht) hpre

/-- Bytes of a step's chunk that the framer counts. -/
def takenIn (t : FramerTransition) : List UInt8 :=
  match t.event with
  | .push data => data.take (t.pre.framer.accepted data)
  | .pull => []

/-- Bytes of the packets a step sends. -/
def sentBytes (t : FramerTransition) : List UInt8 :=
  (t.out.map Packet.data).flatten

/-- A step neither invents nor repeats bytes. -/
theorem FramerMove.balance
    {t : FramerTransition}
    (move : FramerMove t)
    (h : t.pre.framer.InRange) :
    t.pre.framer.live ++ takenIn t = sentBytes t ++ t.post.framer.live := by
  cases move with
  | filled p data =>
      have hlive := h.filled_live data
      simpa [takenIn, sentBytes] using hlive.symm
  | emitted p n complete =>
      have hcut := h.cutFront_live (InRange.complete_le h complete)
      simp only at hcut
      simp [takenIn, sentBytes, hcut]
  | returned p stops => simp [takenIn, sentBytes]

/--
The framer neither invents nor repeats bytes: what it has sent, followed by
what is live, is what was live at the start followed by what it took in.
-/
theorem framer_conservation
    {s₀ s : FramerState} {tr : List FramerTransition}
    (run : framerSystem.Run s₀ tr s)
    (h : s₀.framer.InRange) :
    s₀.framer.live ++ tr.flatMap takenIn =
      tr.flatMap sentBytes ++ s.framer.live :=
  run.conservation (I := fun s => s.framer.InRange)
    (fun s => s.framer.live) takenIn sentBytes h
    (fun _ valid hpre => (framerMove_of_valid valid hpre).inRange hpre)
    (fun _ valid hpre => (framerMove_of_valid valid hpre).balance hpre)

/-- The chunks pushed in a run, in order. -/
def pushedChunks (tr : List FramerTransition) : List (List UInt8) :=
  tr.filterMap (fun t =>
    match t.event with
    | .push data => some data
    | .pull => none)

/-- The packets sent in a run, in order. -/
def sentPackets (tr : List FramerTransition) : List Packet :=
  tr.flatMap Transition.out

/-- A push of a run is one of its pushed chunks. -/
theorem mem_pushedChunks
    {tr : List FramerTransition} {t : FramerTransition}
    (ht : t ∈ tr) {data : List UInt8}
    (hevent : t.event = .push data) :
    data ∈ pushedChunks tr :=
  List.mem_filterMap.mpr ⟨t, ht, by simp [hevent]⟩

/-- The bytes taken in are at most the bytes pushed. -/
theorem takenIn_length_le
    (tr : List FramerTransition) :
    (tr.flatMap takenIn).length ≤ (pushedChunks tr).flatten.length := by
  induction tr with
  | nil => simp [pushedChunks]
  | cons t rest ih =>
      obtain ⟨pre, event, out, post⟩ := t
      cases event with
      | push data =>
          have hfirst :
              (data.take (pre.framer.accepted data)).length ≤ data.length :=
            List.length_take_le' _ _
          simp only [pushedChunks, List.filterMap_cons, List.flatMap_cons,
            List.flatten_cons, List.length_append, takenIn] at ih ⊢
          omega
      | pull => simpa [pushedChunks, takenIn] using ih

/-- The packets sent carry the bytes sent. -/
theorem sentPackets_bytes
    (tr : List FramerTransition) :
    ((sentPackets tr).map Packet.data).flatten = tr.flatMap sentBytes := by
  induction tr with
  | nil => rfl
  | cons t rest ih =>
      simp only [sentPackets, List.flatMap_cons, List.map_append,
        List.flatten_append] at ih ⊢
      rw [ih]
      rfl

/-- A chunk that is taken in starts the loop. -/
theorem valid_filled
    {p p' : PacketFramer} {data : List UInt8}
    (hfill : p.fill data = .ok p') :
    framerSystem.Valid
      (⟨⟨p, false⟩, .push data, [], ⟨p', true⟩⟩ : FramerTransition) := by
  simp [System.Valid, framerSystem, framerStep, hfill]

/-- A pull without a packet ends the loop. -/
theorem valid_returned
    {p p' : PacketFramer} {res : Pulled}
    (hpull : p.pull = .ok (res, p'))
    (hres : ∀ pkt, res ≠ .packet pkt) :
    framerSystem.Valid
      (⟨⟨p, true⟩, .pull, [], ⟨p', false⟩⟩ : FramerTransition) := by
  cases res with
  | nothing => simp [System.Valid, framerSystem, framerStep, hpull]
  | failed err => simp [System.Valid, framerSystem, framerStep, hpull]
  | packet pkt => exact absurd rfl (hres pkt)

/-- A pull with a packet sends it and stays in the loop. -/
theorem valid_emitted
    {p p' : PacketFramer} {pkt : Packet}
    (hpull : p.pull = .ok (.packet pkt, p')) :
    framerSystem.Valid
      (⟨⟨p, true⟩, .pull, [pkt], ⟨p', true⟩⟩ : FramerTransition) := by
  simp [System.Valid, framerSystem, framerStep, hpull]

/-- The iterations `drain` makes are steps of the framer. -/
theorem drain_run
    (fuel : Nat) (p : PacketFramer) {r : LoopResult}
    (hr : drain fuel p = .ok r) :
    ∃ tr, framerSystem.Run ⟨p, true⟩ tr
        ⟨r.framer, decide (r.status = .running)⟩ ∧
      sentPackets tr = r.sent ∧ pushedChunks tr = [] := by
  induction fuel generalizing p r with
  | zero =>
      have hr' : (⟨[], p, .running⟩ : LoopResult) = r := by
        simpa [drain, pure, Except.pure] using hr
      subst hr'
      exact ⟨[], .nil, rfl, rfl⟩
  | succ fuel ih =>
      simp only [drain, bind, Except.bind, pure, Except.pure] at hr
      cases hpull : p.pull with
      | error e => simp [hpull] at hr
      | ok res =>
          obtain ⟨res, p'⟩ := res
          cases res with
          | nothing =>
              simp only [hpull, Except.ok.injEq] at hr
              subst hr
              exact ⟨_, .cons _ (valid_returned hpull (by simp)) .nil,
                rfl, rfl⟩
          | failed err =>
              simp only [hpull, Except.ok.injEq] at hr
              subst hr
              exact ⟨_, .cons _ (valid_returned hpull (by simp)) .nil,
                rfl, rfl⟩
          | packet pkt =>
              cases hrest : drain fuel p' with
              | error e => simp [hpull, hrest] at hr
              | ok r' =>
                  simp only [hpull, hrest, Except.ok.injEq] at hr
                  subst hr
                  obtain ⟨tr, hrun, hsent, hpushed⟩ := ih p' hrest
                  refine ⟨_, .cons _ (valid_emitted hpull) hrun, ?_, ?_⟩
                  · simp only [sentPackets] at hsent
                    simp [sentPackets, hsent]
                  · simpa [pushedChunks] using hpushed

/-- One call of `push` is a run of the framer. -/
theorem push_run
    (fuel : Nat) (p : PacketFramer) (data : List UInt8) {r : LoopResult}
    (hr : p.push fuel data = .ok r) :
    ∃ tr, framerSystem.Run ⟨p, false⟩ tr
        ⟨r.framer, decide (r.status = .running)⟩ ∧
      sentPackets tr = r.sent ∧ pushedChunks tr = [data] := by
  simp only [push, bind, Except.bind] at hr
  cases hfill : p.fill data with
  | error e => simp [hfill] at hr
  | ok p' =>
      simp only [hfill] at hr
      obtain ⟨tr, hrun, hsent, hpushed⟩ := drain_run fuel p' hr
      refine ⟨_, .cons _ (valid_filled hfill) hrun, ?_, ?_⟩
      · simpa [sentPackets] using hsent
      · simp only [pushedChunks] at hpushed
        simp [pushedChunks, hpushed]

/-- Pushing chunk after chunk is a run of the framer on these chunks. -/
theorem pushAll_run
    (fuel : Nat) (p : PacketFramer) (chunks : List (List UInt8))
    {r : LoopResult}
    (hr : pushAll fuel p chunks = .ok r) :
    ∃ tr, framerSystem.Run ⟨p, false⟩ tr
        ⟨r.framer, decide (r.status = .running)⟩ ∧
      sentPackets tr = r.sent ∧ pushedChunks tr <+: chunks := by
  induction chunks generalizing p r with
  | nil =>
      have hr' : (⟨[], p, .returned none⟩ : LoopResult) = r := by
        simpa [pushAll, pure, Except.pure] using hr
      subst hr'
      exact ⟨[], .nil, rfl, List.prefix_refl _⟩
  | cons data rest ih =>
      obtain ⟨r₁, hpush, hcases⟩ := pushAll_cons_cases hr
      obtain ⟨tr₁, hrun₁, hsent₁, hpushed₁⟩ := push_run fuel p data hpush
      rcases hcases with ⟨-, rfl⟩ | ⟨err, r₂, hstatus, hrest, rfl⟩
      · refine ⟨tr₁, hrun₁, hsent₁, ?_⟩
        rw [hpushed₁]
        exact ⟨rest, rfl⟩
      · obtain ⟨tr₂, hrun₂, hsent₂, hpushed₂⟩ := ih r₁.framer hrest
        refine ⟨tr₁ ++ tr₂, ?_, ?_, ?_⟩
        · simp only [hstatus, reduceCtorEq, decide_false] at hrun₁
          exact hrun₁.append hrun₂
        · simp only [sentPackets] at hsent₁ hsent₂
          simp [sentPackets, hsent₁, hsent₂]
        · simp only [pushedChunks] at hpushed₁ hpushed₂
          rw [pushedChunks, List.filterMap_append, hpushed₁]
          exact (List.prefix_append_right_inj [data]).mpr hpushed₂

/-- The chunk of a push fits into the free part of the buffer. -/
def ChunkFits (t : FramerTransition) : Prop :=
  ∀ data, t.event = .push data →
    data.length ≤ t.pre.framer.buf.length - t.pre.framer.idx.toNat

/-- Where every chunk fits, all bytes pushed are taken in. -/
theorem takenIn_of_chunkFits
    {tr : List FramerTransition}
    (fits : ∀ t ∈ tr, ChunkFits t) :
    tr.flatMap takenIn = (pushedChunks tr).flatten := by
  induction tr with
  | nil => rfl
  | cons t rest ih =>
      have hrest := ih (fun t' ht' => fits t' (List.mem_cons_of_mem _ ht'))
      have hfirst := fits t (by simp)
      obtain ⟨pre, event, out, post⟩ := t
      cases event with
      | push data =>
          have hle : data.length ≤ pre.framer.accepted data :=
            le_min (hfirst data rfl) le_rfl
          have htake : data.take (pre.framer.accepted data) = data :=
            List.take_of_length_le hle
          simp only [pushedChunks] at hrest
          simp [pushedChunks, takenIn, htake, hrest]
      | pull =>
          simp only [pushedChunks] at hrest
          simp [pushedChunks, takenIn, hrest]

/--
The bytes of a framer.  In every run from a fresh framer, the packets sent and
after them `buf[:idx]` are, byte for byte, the beginnings of the chunks that
had room in the buffer; they are all that was pushed when every chunk fits.
-/
theorem framer_bytes_exact
    {tr : List FramerTransition} {s : FramerState}
    (run : framerSystem.Run freshFramer tr s) :
    (0 ≤ s.framer.idx ∧ s.framer.idx ≤ s.framer.buf.length) ∧
    ((sentPackets tr).map Packet.data).flatten ++
        s.framer.buf.take s.framer.idx.toNat =
      tr.flatMap takenIn ∧
    ((∀ t ∈ tr, ChunkFits t) →
      ((sentPackets tr).map Packet.data).flatten ++
          s.framer.buf.take s.framer.idx.toNat =
        (pushedChunks tr).flatten) := by
  have hrange := framer_inRange run newPacketFramer_inRange
  have hnonneg := hrange.nonneg
  have hle := hrange.le_buf
  have hcons := framer_conservation run newPacketFramer_inRange
  have hbytes : ((sentPackets tr).map Packet.data).flatten ++
      s.framer.buf.take s.framer.idx.toNat = tr.flatMap takenIn := by
    have hfresh : freshFramer.framer.live = [] := newPacketFramer_live
    rw [hfresh, List.nil_append] at hcons
    rw [sentPackets_bytes]
    exact hcons.symm
  refine ⟨by omega, hbytes, fun fits => ?_⟩
  rw [hbytes, takenIn_of_chunkFits fits]

/-- A packet in two chunks, behind which the second leaves one byte. -/
theorem framer_bytes_short :
    ∃ tr s, framerSystem.Run freshFramer tr s ∧
      tr.map Transition.event =
        [.push [1, 129, 0], .pull, .push [1, 7, 1], .pull, .pull] ∧
      ((sentPackets tr).map Packet.data).flatten ++
          s.framer.buf.take s.framer.idx.toNat =
        [1, 129, 0, 1, 7, 1] := by
  have hexec : (framerSystem.exec freshFramer
      [.push [1, 129, 0], .pull, .push [1, 7, 1], .pull, .pull]).map
      (fun r => ((pushedChunks r.1).flatten,
        r.1.all (fun t =>
          t.pre.framer.buf.length = 1024 ∧ t.pre.framer.idx ≤ 6),
        (pushedChunks r.1).all (fun data => data.length ≤ 3))) =
      some ([1, 129, 0, 1, 7, 1], true, true) := by
    decide +kernel
  obtain ⟨tr, s, hrun, hevents, hend⟩ := System.run_of_exec hexec
  simp only [Prod.mk.injEq, List.all_eq_true, decide_eq_true_eq] at hend
  obtain ⟨hpushed, hroom, hshort⟩ := hend
  refine ⟨tr, s, hrun, hevents, ?_⟩
  rw [(framer_bytes_exact hrun).2.2 fun t ht data hevent => ?_, hpushed]
  have hdata := hshort data (mem_pushedChunks ht hevent)
  obtain ⟨hbuf, hidx⟩ := hroom t ht
  omega

end FramerRuns

end Server
end TurnBasedGame
