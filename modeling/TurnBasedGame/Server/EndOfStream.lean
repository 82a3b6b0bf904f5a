import TurnBasedGame.Server.Membership
import TurnBasedGame.Server.RejectedHeader

/-!
# The end of a stream

When the reader can deliver nothing more, the handler should learn of it.  A
read error is sent on `errch`.  The end of the stream and a rejected header are
not: the reader returns without a word, or goes on reading for nothing.  The
module shows that a handler that is still running misses the end of its stream
in exactly these two cases.
-/

namespace TurnBasedGame
namespace Server

open Kernel
open PacketFramer

section EndOfStream

/-- The reader has returned, or the framer has met a header it rejects. -/
def Stopped (s : Connection) : Prop :=
  s.reader = .returned ∨ s.pushErr ≠ none

/-- The handler has returned, or an error is waiting for it. -/
def Noticed (s : Connection) : Prop :=
  s.handler = .returned ∨ s.errch ≠ []

/-- The event ends the stream without an error on `errch`. -/
def EndsSilently (s : Connection) : ConnectionEvent → Prop
  | .eof => True
  | .pull => Rejects s.framer.live
  | _ => False

instance (s : Connection) : (e : ConnectionEvent) →
    Decidable (EndsSilently s e)
  | .eof => .isTrue trivial
  | .pull => inferInstanceAs (Decidable (Rejects s.framer.live))
  | .read _ | .readError _ | .report | .send | .authPacket | .authTimeout
  | .takePacket | .handled | .takeError | .quit => .isFalse id

/-- What the two goroutines know of each other in every reachable state. -/
structure ReaderInv (s : Connection) : Prop where
  inRange : s.framer.InRange
  /-- The reader sends at most one error, as the last thing it does. -/
  errch_nil : s.reader ≠ .returned → s.errch = []
  /-- A header that was rejected stays in front. -/
  rejected : ∀ err, s.pushErr = some err →
    verdict s.framer.live = .rejected err ∧ ∀ pkt, s.reader ≠ .sending pkt

namespace ReaderInv

theorem newConnection
    (id : ClientID) :
    ReaderInv (newConnection id) where
  inRange := newPacketFramer_inRange
  errch_nil := fun _ => rfl
  rejected := by
    intro err h
    cases h

/-- Every step of a connection keeps the invariant. -/
theorem move
    {t : ConnectionTransition}
    (m : ConnectionMove t)
    (h : ReaderInv t.pre) :
    ReaderInv t.post := by
  refine ⟨m.inRange h.inRange, ?_, ?_⟩
  · cases m with
    | read s data reader => exact fun _ => h.errch_nil (by simp [reader])
    | eof s reader => exact fun hne => absurd rfl hne
    | readError s err reader =>
        exact fun _ => h.errch_nil (by simp [reader])
    | report s reader => exact fun hne => absurd rfl hne
    | pulled s reader complete =>
        exact fun _ => h.errch_nil (by simp [reader])
    | waited s reader waiting =>
        exact fun _ => h.errch_nil (by simp [reader])
    | rejected s reader rejects =>
        exact fun _ => h.errch_nil (by simp [reader])
    | send s reader => exact fun _ => h.errch_nil (by simp [reader])
    | handler s notEof notPull move =>
        cases move with
        | error handler front =>
            intro hne
            have hnil : s.errch = [] := h.errch_nil hne
            rw [hnil] at front
            cases front
        | _ => exact h.errch_nil
  · cases m with
    | read s data reader =>
        intro err herr
        obtain ⟨hverdict, -⟩ := h.rejected err herr
        refine ⟨?_, by simp⟩
        rw [h.inRange.filled_live data]
        exact verdict_rejected_append hverdict _
    | eof s reader =>
        exact fun err herr => ⟨(h.rejected err herr).1, by simp⟩
    | readError s err reader =>
        exact fun err herr => ⟨(h.rejected err herr).1, by simp⟩
    | report s reader =>
        exact fun err herr => ⟨(h.rejected err herr).1, by simp⟩
    | pulled s reader complete =>
        intro err herr
        have hverdict : verdict s.framer.live = .rejected err :=
          (h.rejected err herr).1
        rw [complete] at hverdict
        cases hverdict
    | waited s reader waiting =>
        intro err herr
        cases herr
    | rejected s reader rejects =>
        intro err herr
        cases herr
        exact ⟨rejects, by simp⟩
    | send s reader =>
        intro err herr
        exact absurd reader ((h.rejected err herr).2 _)
    | handler s notEof notPull move =>
        obtain ⟨hframer, hreader, herr⟩ := move.frame
        intro err
        simp only [hframer, hreader, herr]
        exact h.rejected err

end ReaderInv

variable {s₀ s : Connection} {tr : List ConnectionTransition}

theorem readerInv_of_run
    (run : connectionSystem.Run s₀ tr s)
    (h : ReaderInv s₀) :
    ReaderInv s :=
  run.invariant h (fun _ valid hpre =>
    ReaderInv.move (connectionMove_of_valid valid hpre.inRange) hpre)

/-- A stopped reader delivers nothing and stays stopped. -/
theorem stopped_move
    {t : ConnectionTransition}
    (m : ConnectionMove t)
    (h : ReaderInv t.pre)
    (stopped : Stopped t.pre) :
    t.out = [] ∧ Stopped t.post := by
  cases m with
  | read s data reader =>
      rcases stopped with hreader | herr
      · exact absurd (hreader.symm.trans reader) (by simp)
      · exact ⟨rfl, Or.inr herr⟩
  | eof s reader => exact ⟨rfl, Or.inl rfl⟩
  | readError s err reader =>
      rcases stopped with hreader | herr
      · exact absurd (hreader.symm.trans reader) (by simp)
      · exact ⟨rfl, Or.inr herr⟩
  | report s reader => exact ⟨rfl, Or.inl rfl⟩
  | pulled s reader complete =>
      rcases stopped with hreader | herr
      · exact absurd (hreader.symm.trans reader) (by simp)
      · exact ⟨rfl, Or.inr herr⟩
  | waited s reader waiting =>
      rcases stopped with hreader | herr
      · exact absurd (hreader.symm.trans reader) (by simp)
      · obtain ⟨err, herr⟩ := Option.ne_none_iff_exists'.mp herr
        exact absurd (waiting.symm.trans (h.rejected err herr).1) (by simp)
  | rejected s reader rejects => exact ⟨rfl, Or.inr (by simp)⟩
  | send s reader =>
      rcases stopped with hreader | herr
      · exact absurd (hreader.symm.trans reader) (by simp)
      · obtain ⟨err, herr⟩ := Option.ne_none_iff_exists'.mp herr
        exact absurd reader ((h.rejected err herr).2 _)
  | handler s notEof notPull move =>
      obtain ⟨-, hreader, herr⟩ := move.frame
      refine ⟨rfl, ?_⟩
      simpa only [Stopped, hreader, herr] using stopped

/-- Nothing is delivered after the reader has stopped. -/
theorem stopped_run
    (run : connectionSystem.Run s₀ tr s)
    (h : ReaderInv s₀)
    (stopped : Stopped s₀) :
    ∀ t ∈ tr, t.out = [] := by
  intro t ht
  obtain ⟨first, rest, rfl⟩ := List.append_of_mem ht
  obtain ⟨hfirst, hvalid, -⟩ := run.before
  have hpre := hfirst.invariant
    (I := fun s => ReaderInv s ∧ Stopped s) ⟨h, stopped⟩
    (fun t valid hpre =>
      have m := connectionMove_of_valid valid hpre.1.inRange
      ⟨ReaderInv.move m hpre.1, (stopped_move m hpre.1 hpre.2).2⟩)
  exact (stopped_move (connectionMove_of_valid hvalid hpre.1.inRange)
    hpre.1 hpre.2).1

/-- A handler that has returned does not come back. -/
theorem HandlerMove.not_returned
    {s s' : Connection}
    (m : HandlerMove s s') :
    s.handler ≠ .returned := by
  cases m with
  | authPassed handler front => simp [handler]
  | authFailed handler front => simp [handler]
  | taken handler front => simp [handler]
  | handled handler => simp [handler]
  | error handler front => simp [handler]
  | stopped handler => exact handler

/-- The end of the stream was noticed, by a handler that has returned. -/
structure EndNoticed (s : Connection) : Prop where
  reader : ReaderInv s
  returned : s.reader = .returned → Noticed s
  rejected : s.pushErr ≠ none → s.handler = .returned

/-- Steps that do not end the stream silently have its end noticed. -/
theorem EndNoticed.move
    {t : ConnectionTransition}
    (m : ConnectionMove t)
    (cond : EndsSilently t.pre t.event → t.pre.handler = .returned)
    (h : EndNoticed t.pre) :
    EndNoticed t.post := by
  refine ⟨ReaderInv.move m h.reader, ?_, ?_⟩
  · cases m with
    | eof s reader => exact fun _ => Or.inl (cond trivial)
    | report s reader => exact fun _ => Or.inr (by simp)
    | handler s notEof notPull move =>
        intro hreader
        rw [show _ = s.reader from move.frame.2.1] at hreader
        have hnoticed := h.returned hreader
        have herrch : s.errch ≠ [] :=
          hnoticed.resolve_left move.not_returned
        cases move with
        | error handler front => exact Or.inl rfl
        | stopped handler => exact Or.inl rfl
        | authFailed handler front => exact Or.inl rfl
        | _ => exact Or.inr herrch
    | read s data reader => exact fun hreader => by cases hreader
    | readError s err reader => exact fun hreader => by cases hreader
    | pulled s reader complete => exact fun hreader => by cases hreader
    | waited s reader waiting => exact fun hreader => by cases hreader
    | rejected s reader rejects => exact fun hreader => by cases hreader
    | send s reader => exact fun hreader => by cases hreader
  · cases m with
    | waited s reader waiting => exact fun herr => absurd rfl herr
    | @rejected s err reader rejects => exact fun _ => cond ⟨err, rejects⟩
    | handler s notEof notPull move =>
        rw [show _ = s.pushErr from move.frame.2.2]
        exact fun herr => absurd (h.rejected herr) move.not_returned
    | _ => exact h.rejected

/-- The state after the stream has ended silently. -/
theorem silent_move
    {t : ConnectionTransition}
    (m : ConnectionMove t)
    (h : ReaderInv t.pre)
    (ends : EndsSilently t.pre t.event) :
    Stopped t.post ∧ (Noticed t.post → t.pre.handler = .returned) := by
  cases m with
  | eof s reader =>
      refine ⟨Or.inl rfl, fun hnoticed => ?_⟩
      exact hnoticed.resolve_right
        (not_not_intro (h.errch_nil (by simp [reader])))
  | rejected s reader rejects =>
      refine ⟨Or.inr (by simp), fun hnoticed => ?_⟩
      exact hnoticed.resolve_right
        (not_not_intro (h.errch_nil (by simp [reader])))
  | pulled s reader complete =>
      obtain ⟨err, hverdict⟩ := ends
      exact absurd (complete.symm.trans hverdict) (by simp)
  | waited s reader waiting =>
      obtain ⟨err, hverdict⟩ := ends
      exact absurd (waiting.symm.trans hverdict) (by simp)
  | @handler s e s' notEof notPull move =>
      cases e with
      | eof => exact absurd rfl notEof
      | pull => exact absurd rfl notPull
      | _ => exact ends.elim
  | read => exact ends.elim
  | readError => exact ends.elim
  | report => exact ends.elim
  | send => exact ends.elim

/--
A handler that returns removes its client, and where all games are registered
from all their lists.
-/
theorem returnConnection_removes
    {s : TCPServer}
    (h : Inv s) (c : ClientPtr) :
    ∃ s' out, TCPServer.returnConnection s c = .next s' out ∧
      s'.clients c = false ∧ (s'.client c).gameID = [] ∧
      (AllRegistered s → ∀ g, c ∉ (s'.game g).clients) := by
  refine ⟨_, _, TCPServer.returnConnection_eq s c, ?_,
    GameManager.departed_gameID (h.setRegistered c false) c, ?_⟩
  · rw [TCPServer.closed]
    rcases GameManager.departed_cases (s.setRegistered c false) c with
      ⟨-, heq⟩ | ⟨-, -, heq⟩ | ⟨g, -, -, heq⟩ <;> rw [heq] <;>
      simp [TCPServer.setConn, TCPServer.setRegistered, TCPServer.left]
  · intro hall g hmem
    have hlist : c ∈ ((s.closed c).server.game g).clients := hmem
    rw [closed_clients h hall c g] at hlist
    simp at hlist

/--
The end of a stream.  In every run of a connection, whenever the reader has
stopped the handler has returned or has an error waiting, exactly when neither
the end of the stream nor a rejected header is met while the handler runs.  A
reader that has stopped delivers nothing more, and a handler that returns
removes its client from the server and from its game: its game id is cleared,
and where no registered game id was drawn again it is in no list of any game.
-/
theorem end_noticed_iff
    {id : ClientID}
    (run : connectionSystem.Run (newConnection id) tr s) :
    ((∀ t ∈ tr, Stopped t.post → Noticed t.post) ↔
      ∀ t ∈ tr, EndsSilently t.pre t.event → t.pre.handler = .returned) ∧
    (Stopped s → ∀ tr' s', connectionSystem.Run s tr' s' →
      ∀ t ∈ tr', t.out = []) ∧
    (∀ vf tr' s' c, ServerRun vf tr' s' →
      ∃ s'' out, TCPServer.returnConnection s' c = .next s'' out ∧
        s''.clients c = false ∧ (s''.client c).gameID = [] ∧
        ((∀ t ∈ tr', DrawsFresh t) → ∀ g, c ∉ (s''.game g).clients)) := by
  have hmoves := connectionMove_of_run run newPacketFramer_inRange
  refine ⟨⟨?_, ?_⟩, ?_, ?_⟩
  · intro hlaw t ht hends
    obtain ⟨first, rest, rfl⟩ := List.append_of_mem ht
    have hpre := readerInv_of_run run.before.1 (.newConnection id)
    obtain ⟨hstopped, hnoticed⟩ := silent_move (hmoves t ht) hpre hends
    exact hnoticed (hlaw t ht hstopped)
  · intro hcond t ht hstopped
    obtain ⟨first, rest, rfl⟩ := List.append_of_mem ht
    have hpre : EndNoticed t.pre := run.before.1.invariant_where
      ⟨.newConnection id, fun h => (by cases h), fun h => absurd rfl h⟩
      (fun _ valid hc hpre => EndNoticed.move
        (connectionMove_of_valid valid hpre.reader.inRange) hc hpre)
      (fun t' ht' => hcond t' (List.mem_append_left _ ht'))
    have hpost := EndNoticed.move (hmoves t ht) (hcond t ht) hpre
    rcases hstopped with hreader | herr
    · exact hpost.returned hreader
    · exact Or.inl (hpost.rejected herr)
  · intro hstopped tr' s' hrun
    exact stopped_run hrun (readerInv_of_run run (.newConnection id)) hstopped
  · intro vf tr' s' c hrun
    obtain ⟨s'', out, hreturn, hclient, hgame, hlists⟩ :=
      returnConnection_removes (inv_of_run hrun) c
    exact ⟨s'', out, hreturn, hclient, hgame, fun fresh =>
      hlists (allRegistered_of_run hrun fresh)⟩

/-- A client signs in. -/
def authEvents : List ConnectionEvent :=
  [.read (constructPacket encBytes packetAuth (generateClientId 0)).data,
    .pull, .send, .pull, .authPacket]

/-- It closes the connection, or it sends a header of another version. -/
theorem end_missed :
    (∃ tr s, connectionSystem.Run (newConnection (generateClientId 0)) tr s ∧
      tr.map Transition.event = authEvents ++ [.eof] ∧
      s.reader = .returned ∧ s.handler = .looping ∧ s.errch = [] ∧
      Stopped s ∧ ¬ Noticed s) ∧
    ∃ tr s, connectionSystem.Run (newConnection (generateClientId 0)) tr s ∧
      tr.map Transition.event = authEvents ++ [.read [2, 129, 0, 0], .pull] ∧
      s.pushErr = some .versionMismatch ∧ s.handler = .looping ∧
      s.errch = [] ∧ Stopped s ∧ ¬ Noticed s := by
  have heof : (connectionSystem.exec (newConnection (generateClientId 0))
      (authEvents ++ [.eof])).map
        (fun r => (r.2.reader, r.2.handler, r.2.errch)) =
      some (.returned, .looping, []) := by
    decide +kernel
  have hversion : (connectionSystem.exec (newConnection (generateClientId 0))
      (authEvents ++ [.read [2, 129, 0, 0], .pull])).map
        (fun r => (r.2.pushErr, r.2.handler, r.2.errch)) =
      some (some .versionMismatch, .looping, []) := by
    decide +kernel
  constructor
  · obtain ⟨tr, s, hrun, hevents, hend⟩ := System.run_of_exec heof
    simp only [Prod.mk.injEq] at hend
    obtain ⟨hreader, hhandler, herrch⟩ := hend
    refine ⟨tr, s, hrun, hevents, hreader, hhandler, herrch,
      Or.inl hreader, ?_⟩
    rintro (h | h)
    · exact absurd (hhandler.symm.trans h) (by simp)
    · exact h herrch
  · obtain ⟨tr, s, hrun, hevents, hend⟩ := System.run_of_exec hversion
    simp only [Prod.mk.injEq] at hend
    obtain ⟨hpush, hhandler, herrch⟩ := hend
    refine ⟨tr, s, hrun, hevents, hpush, hhandler, herrch,
      Or.inr (by simp [hpush]), ?_⟩
    rintro (h | h)
    · exact absurd (hhandler.symm.trans h) (by simp)
    · exact h herrch

/-- A read error is noticed at every point. -/
theorem end_noticed_readError :
    ∃ tr s, connectionSystem.Run (newConnection (generateClientId 0)) tr s ∧
      tr.map Transition.event =
        authEvents ++ [.readError "reset", .report, .takeError] ∧
      s.handler = .returned ∧ ∀ t ∈ tr, Stopped t.post → Noticed t.post := by
  have hexec : (connectionSystem.exec (newConnection (generateClientId 0))
      (authEvents ++ [.readError "reset", .report, .takeError])).map
        (fun r => (r.2.handler, r.1.all (fun t =>
          decide (EndsSilently t.pre t.event → t.pre.handler = .returned)))) =
      some (.returned, true) := by
    decide +kernel
  obtain ⟨tr, s, hrun, hevents, hend⟩ := System.run_of_exec hexec
  simp only [Prod.mk.injEq, List.all_eq_true, decide_eq_true_eq] at hend
  obtain ⟨hhandler, hcond⟩ := hend
  exact ⟨tr, s, hrun, hevents, hhandler, (end_noticed_iff hrun).1.mpr hcond⟩

end EndOfStream

end Server
end TurnBasedGame
