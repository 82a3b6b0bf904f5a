import TurnBasedGame.Kernel.Composition
import TurnBasedGame.Server.Connection

/-!
# What reader and handler keep

The facts about a single step of a connection that hold in every state: its
channels stay within their capacities, and its framer is driven as the runs of
a framer have it.
-/

namespace TurnBasedGame
namespace Server

open Kernel
open PacketFramer

section Goroutines

/-- Neither channel holds more than it has room for. -/
structure WithinCapacity (k : Connection) : Prop where
  ch : k.ch.length ≤ framerChanCap
  errch : k.errch.length ≤ errchCap

theorem withinCapacity_newConnection
    (id : ClientID) :
    WithinCapacity (newConnection id) :=
  ⟨Nat.zero_le _, Nat.zero_le _⟩

/-- No step sends on a full channel. -/
theorem WithinCapacity.move
    {t : ConnectionTransition}
    (m : GoroutineMove t)
    (h : WithinCapacity t.pre) :
    WithinCapacity t.post := by
  obtain ⟨hch, herrch⟩ := h
  cases m with
  | report k reader room =>
      refine ⟨hch, ?_⟩
      rw [List.length_append]
      exact room
  | send k reader room =>
      refine ⟨?_, herrch⟩
      rw [List.length_append]
      exact room
  | authPassed k handler front passes =>
      exact ⟨Nat.le_of_succ_le (by simpa [front] using hch), herrch⟩
  | authFailed k handler front fails =>
      exact ⟨Nat.le_of_succ_le (by simpa [front] using hch), herrch⟩
  | takePacket k handler front typed =>
      exact ⟨Nat.le_of_succ_le (by simpa [front] using hch), herrch⟩
  | takeError k handler front =>
      exact ⟨hch, Nat.le_of_succ_le (by simpa [front] using herrch)⟩
  | _ => exact ⟨hch, herrch⟩

/-- The reader is in a call of `push`. -/
def ReaderState.inPush : ReaderState → Bool
  | .pushing => true
  | .sending _ => true
  | _ => false

/-- The packet a reader is about to send on `C`. -/
def ReaderState.inHand : ReaderState → List Packet
  | .sending p => [p]
  | _ => []

/-- The framer of a connection and where its reader is in it. -/
def framerPart (k : Connection) : FramerState where
  framer := k.framer
  looping := k.reader.inPush

/-- The packets the framer cuts off in a step. -/
def framedBy (t : ConnectionTransition) : List Packet :=
  match t.event with
  | .pull => t.post.reader.inHand
  | _ => []

/-- The step of the framer in a step of a connection. -/
def framerView (t : ConnectionTransition) :
    Option (FramerEvent × List Packet) :=
  match t.event with
  | .read data => some (.push data, [])
  | .pull => some (.pull, framedBy t)
  | _ => none

/-- The steps of the framer in a run of a connection. -/
def framerTrace (tr : List ConnectionTransition) : List FramerTransition :=
  shown framerPart framerView tr

/-- A step of a connection drives the framer, or leaves it alone. -/
theorem GoroutineMove.framer
    {t : ConnectionTransition}
    (m : GoroutineMove t) :
    System.Run.Projects framerSystem framerPart framerView t := by
  cases m with
  | read k data reader short fill =>
      refine ⟨fun hview => (by cases hview), fun i out hview => ?_⟩
      cases hview
      simp [framerSystem, framerStep, framerPart, ReaderState.inPush, reader,
        fill]
  | pulled k reader pull =>
      refine ⟨fun hview => (by cases hview), fun i out hview => ?_⟩
      cases hview
      simp [framerSystem, framerStep, framerPart, ReaderState.inPush, reader,
        pull, framedBy, ReaderState.inHand]
  | waited k reader pull =>
      refine ⟨fun hview => (by cases hview), fun i out hview => ?_⟩
      cases hview
      simp [framerSystem, framerStep, framerPart, ReaderState.inPush, reader,
        pull, framedBy, ReaderState.inHand]
  | rejected k reader pull =>
      refine ⟨fun hview => (by cases hview), fun i out hview => ?_⟩
      cases hview
      simp [framerSystem, framerStep, framerPart, ReaderState.inPush, reader,
        pull, framedBy, ReaderState.inHand]
  | eof k reader =>
      refine ⟨fun _ => ?_, fun i out hview => (by cases hview)⟩
      simp [framerPart, ReaderState.inPush, reader]
  | readError k err reader =>
      refine ⟨fun _ => ?_, fun i out hview => (by cases hview)⟩
      simp [framerPart, ReaderState.inPush, reader]
  | report k reader room =>
      refine ⟨fun _ => ?_, fun i out hview => (by cases hview)⟩
      simp [framerPart, ReaderState.inPush, reader]
  | send k reader room =>
      refine ⟨fun _ => ?_, fun i out hview => (by cases hview)⟩
      simp [framerPart, ReaderState.inPush, reader]
  | _ => exact ⟨fun _ => rfl, fun i out hview => (by cases hview)⟩

variable {k₀ k : Connection} {tr : List ConnectionTransition}

/-- A run of a connection is a run of its framer. -/
theorem framerRun_of_run
    (run : connectionSystem.Run k₀ tr k) :
    framerSystem.Run (framerPart k₀) (framerTrace tr) (framerPart k) :=
  run.shown_run (I := fun _ => True) trivial (fun _ _ _ => trivial)
    (fun _ valid _ => (goroutineMove_of_valid valid).framer)

theorem withinCapacity_of_run
    (run : connectionSystem.Run k₀ tr k)
    (h : WithinCapacity k₀) :
    WithinCapacity k :=
  run.invariant h (fun _ valid hpre => hpre.move (goroutineMove_of_valid valid))

end Goroutines

end Server
end TurnBasedGame
