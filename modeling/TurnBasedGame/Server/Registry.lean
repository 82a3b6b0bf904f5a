import TurnBasedGame.Kernel.Log
import TurnBasedGame.Server.GameChannel
import TurnBasedGame.Server.Identifiers

/-!
# The registry of games

Games are entered into the registry and never taken out.  Over a whole run the
registry is a function of the ids drawn so far: each id names the last game
created under it.  There are 900000 ids, so at most as many games can be
found.
-/

namespace TurnBasedGame
namespace Server

open Kernel

section Registry

open TCPServer

/-- The id under which a step creates a game, if it does. -/
def drawnBy (t : ServerTransition) : List GameID :=
  match t.event with
  | .packet c p n =>
      if t.pre.conn c = .serving ∧ p.getType = .ok packetCreateGame ∧
          (t.pre.client c).gameID = [] then
        [generateGameId n]
      else
        []
  | _ => []

/-- The ids drawn in a run, one for each game. -/
def drawnIDs (tr : List ServerTransition) : List GameID :=
  tr.flatMap drawnBy

/-- Steps that create no game. -/
structure RegistryKept (s s' : TCPServer) : Prop where
  games : s'.games = s.games
  allocated : s'.allocated = s.allocated
  ids : ∀ g, (s'.game g).id = (s.game g).id

/-- Leaving a game is not leaving the registry. -/
theorem registryKept_departed
    (s : TCPServer) (c : ClientPtr) :
    RegistryKept s (GameManager.departed s c).server := by
  obtain ⟨hgames, hallocated⟩ := GameManager.departed_games s c
  refine ⟨hgames, hallocated, fun g => ?_⟩
  rcases GameManager.departed_cases s c with
    ⟨-, heq⟩ | ⟨-, -, heq⟩ | ⟨g', -, -, heq⟩ <;> rw [heq]
  exact s.left_game_id c g' g

theorem registryKept_closed
    (s : TCPServer) (c : ClientPtr) :
    RegistryKept s (s.closed c).server :=
  ⟨(registryKept_departed (s.setRegistered c false) c).games,
    (registryKept_departed (s.setRegistered c false) c).allocated,
    (registryKept_departed (s.setRegistered c false) c).ids⟩

/-- Changes of a game that leave its id alone leave the registry alone. -/
theorem registryKept_setGame
    (s : TCPServer) (g : GamePtr) {game : Game}
    (id : game.id = (s.game g).id) :
    RegistryKept s (s.setGame g game) := by
  refine ⟨rfl, rfl, fun g' => ?_⟩
  by_cases hg : g' = g
  · subst hg
    simpa using id
  · simp [hg]

variable {t : ServerTransition}

/-- A step creates a game, or leaves the registry alone. -/
theorem registry_of_valid
    (valid : serverSystem.Valid t) :
    (drawnBy t = [] ∧ RegistryKept t.pre t.post) ∨
      ∃ c n, drawnBy t = [generateGameId n] ∧ t.post = t.pre.created c n := by
  cases move_of_valid valid with
  | accept s c n conn => exact Or.inl ⟨rfl, ⟨rfl, rfl, fun _ => rfl⟩⟩
  | authenticate s c p n conn passes =>
      exact Or.inl ⟨by simp [drawnBy, conn], ⟨rfl, rfl, fun _ => rfl⟩⟩
  | close s c closes =>
      have hkept : RegistryKept s ((s.closed c).server.setConn c .returned) :=
        ⟨(registryKept_closed s c).games, (registryKept_closed s c).allocated,
          (registryKept_closed s c).ids⟩
      refine Or.inl ⟨?_, hkept⟩
      cases closes with
      | badPacket n conn fails => simp [drawnBy, conn]
      | timeout conn => rfl
      | readError conn => rfl
      | quit conn => rfl
  | @dispatch s c p n s' out conn d =>
      by_cases hdraws : p.getType = .ok packetCreateGame ∧
          (s.client c).gameID = []
      · have hpost : s' = s.created c n := by
          have hstep : step s (.packet c p n) = .next s' out := valid
          simp only [step, conn, dispatch_create hdraws.1 hdraws.2,
            Outcome.next.injEq] at hstep
          exact hstep.1.symm
        exact Or.inr ⟨c, n, by simp [drawnBy, conn, hdraws], hpost⟩
      · refine Or.inl ⟨by simp [drawnBy, conn, hdraws], ?_⟩
        cases d with
        | created type noGame => exact absurd ⟨type, noGame⟩ hdraws
        | disconnected => exact registryKept_closed s c
        | joined => exact ⟨rfl, rfl, fun g => by simp⟩
        | left => exact ⟨rfl, rfl, fun g => by simp⟩
        | @sent _ _ g => exact registryKept_setGame s g rfl
        | _ => exact ⟨rfl, rfl, fun _ => rfl⟩
  | receive s g idle front =>
      exact Or.inl ⟨rfl, registryKept_setGame s g rfl⟩
  | broadCast s g holding writes =>
      exact Or.inl ⟨rfl, registryKept_setGame s g rfl⟩

/-- The registry after a run in which these ids were drawn. -/
structure RegistryOf (ids : List GameID) (s : TCPServer) : Prop where
  allocated : s.allocated = ids.length
  numbered : ∀ g, g < s.allocated → ids[g]? = some (s.game g).id
  games : ∀ id g, s.games id = some g ↔ LastAt ids g id

theorem registryOf_created
    {ids : List GameID} {s : TCPServer}
    (h : RegistryOf ids s)
    (c : ClientPtr) (n : GameDraw) :
    RegistryOf (ids ++ [generateGameId n]) (s.created c n) := by
  refine ⟨?_, fun g hg => ?_, fun id g => ?_⟩
  · simp [created, h.allocated]
  · rcases Nat.lt_succ_iff_lt_or_eq.mp hg with hlt | rfl
    · have hne : g ≠ s.allocated := Nat.ne_of_lt hlt
      rw [created_game_old s c n hne,
        List.getElem?_append_left (h.allocated ▸ hlt)]
      exact h.numbered g hlt
    · rw [created_game_new, h.allocated, List.getElem?_concat_length]
      rfl
  · rw [lastAt_snoc]
    by_cases hid : id = generateGameId n
    · subst hid
      simp [h.allocated, eq_comm]
    · simp [hid, h.games]

theorem registryOf_kept
    {ids : List GameID} {s s' : TCPServer}
    (h : RegistryOf ids s)
    (kept : RegistryKept s s') :
    RegistryOf ids s' := by
  refine ⟨kept.allocated.trans h.allocated, fun g hg => ?_, fun id g => ?_⟩
  · rw [kept.ids]
    exact h.numbered g (kept.allocated ▸ hg)
  · rw [kept.games]
    exact h.games id g

variable {vf : ValidationFunc} {tr : List ServerTransition} {s : TCPServer}

/-- In every run the registry is that of the ids drawn in it. -/
theorem registryOf_run
    (run : ServerRun vf tr s) :
    RegistryOf (drawnIDs tr) s := by
  refine run.history_induction (J := fun tr s => RegistryOf (drawnIDs tr) s)
    ?_ ?_
  · refine ⟨rfl, fun g hg => absurd hg (Nat.not_lt_zero g), fun id g => ?_⟩
    constructor
    · intro h
      cases h
    · intro h
      simpa [drawnIDs] using h.here
  · intro tr t hrun valid hpre
    have hdrawn : drawnIDs (tr ++ [t]) = drawnIDs tr ++ drawnBy t := by
      simp [drawnIDs]
    rw [hdrawn]
    rcases registry_of_valid valid with
      ⟨hnone, hkept⟩ | ⟨c, n, hone, hpost⟩
    · rw [hnone, List.append_nil]
      exact registryOf_kept hpre hkept
    · rw [hone, hpost]
      exact registryOf_created hpre c n

/-- The ids there are. -/
def gameIDs : Finset GameID :=
  Finset.univ.image generateGameId

theorem gameIDs_card_le : gameIDs.card ≤ 900000 :=
  Finset.card_image_le.trans (by simp)

theorem drawnIDs_mem
    {id : GameID}
    (h : id ∈ drawnIDs tr) :
    id ∈ gameIDs := by
  obtain ⟨t, -, ht⟩ := List.mem_flatMap.mp h
  unfold drawnBy at ht
  split at ht
  · split at ht
    · rw [List.mem_singleton.mp ht]
      exact Finset.mem_image_of_mem _ (Finset.mem_univ _)
    · cases ht
  · cases ht

/--
The registry of games over a run.  Games are numbered in the order in which
their ids are drawn; an id is registered for the last game created under it and
for no other, whoever has left in between; and however many games have been
created, at most 900000 of them are registered.
-/
theorem registry_log
    (run : ServerRun vf tr s) :
    s.allocated = (drawnIDs tr).length ∧
    (∀ g, g < s.allocated → (drawnIDs tr)[g]? = some (s.game g).id) ∧
    (∀ id g, s.games id = some g ↔ g < s.allocated ∧ (s.game g).id = id ∧
      ∀ g', g < g' → g' < s.allocated → (s.game g').id ≠ id) ∧
    (∀ found : Finset GamePtr, (∀ g ∈ found, ∃ id, s.games id = some g) →
      found.card ≤ 900000) := by
  obtain ⟨hallocated, hnumbered, hgames⟩ := registryOf_run run
  refine ⟨hallocated, hnumbered, fun id g => ?_, fun found hfound => ?_⟩
  · rw [hgames]
    constructor
    · rintro ⟨here, later⟩
      have hg : g < s.allocated :=
        hallocated ▸ (List.getElem?_eq_some_iff.mp here).1
      have hid := here.symm.trans (hnumbered g hg)
      refine ⟨hg, (Option.some.inj hid).symm, fun g' hlt hg' heq => ?_⟩
      exact later g' hlt (heq ▸ hnumbered g' hg')
    · rintro ⟨hg, rfl, later⟩
      refine ⟨hnumbered g hg, fun g' hlt heq => ?_⟩
      have hg' : g' < s.allocated :=
        hallocated ▸ (List.getElem?_eq_some_iff.mp heq).1
      have hid := (hnumbered g' hg').symm.trans heq
      exact later g' hlt hg' (Option.some.inj hid)
  · have hlast : ∀ g ∈ found, ∃ id, LastAt (drawnIDs tr) g id := by
      intro g hg
      obtain ⟨id, hid⟩ := hfound g hg
      exact ⟨id, (hgames id g).mp hid⟩
    exact (card_lastAt_le (fun id hid => drawnIDs_mem hid) hlast).trans
      gameIDs_card_le

/-- Of two games with one id, the registry has the second. -/
theorem registry_log_twoGames :
    ∃ tr s, ServerRun nopValidationFunc tr s ∧
      tr.map Transition.event = twoGames 7 ∧ s.allocated = 2 ∧
      (drawnIDs tr)[0]? = some (s.game 0).id ∧
      (drawnIDs tr)[1]? = some (s.game 0).id ∧
      s.games (s.game 0).id = some 1 := by
  have hexec : (serverSystem.exec (newTCPServer nopValidationFunc)
      (twoGames 7)).map (fun r => (r.2.allocated, (r.2.game 0).id,
        (r.2.game 1).id)) =
      some (2, generateGameId 7, generateGameId 7) := by
    decide +kernel
  obtain ⟨tr, s, hrun, hevents, hend⟩ := System.run_of_exec hexec
  simp only [Prod.mk.injEq] at hend
  obtain ⟨hallocated, hfirst, hsecond⟩ := hend
  obtain ⟨-, hnumbered, hgames, -⟩ := registry_log hrun
  have hzero := hnumbered 0 (hallocated ▸ Nat.zero_lt_two)
  have hone := hnumbered 1 (hallocated ▸ Nat.one_lt_two)
  refine ⟨tr, s, hrun, hevents, hallocated, hzero, ?_, ?_⟩
  · rw [hone, hfirst, hsecond]
  · refine (hgames _ 1).mpr ⟨hallocated ▸ Nat.one_lt_two,
      by rw [hfirst, hsecond], fun g' hlt hg' => ?_⟩
    rw [hallocated] at hg'
    exact absurd hg' (Nat.not_lt.mpr hlt)

end Registry

end Server
end TurnBasedGame
