import TurnBasedGame.Server.Membership

/-!
# Concurrent joins and leaves

`JoinGame` and `Disconnect` build a new member list out of the present one and
assign it back, and neither takes the lock that `CreateNewGame` takes for the
registry.  Here the evaluation of the new list and its assignment are two
steps, and the calls of any number of clients interleave between them.

The list stays in agreement with the clients as long as every assignment finds
the list its call has read.  Where every client makes one call, this is also
necessary: a stale assignment undoes a call that has returned, and no later
call can repair it.
-/

namespace TurnBasedGame
namespace Server

open Kernel

section MembershipRace

/-- How far the call a client makes to the game manager has come. -/
inductive Call
  | idle
  /-- `append(game.clients, c)` is evaluated. -/
  | joining (g : GamePtr) (clients : List ClientPtr)
  /-- `removeClient(game.clients, c)` is evaluated. -/
  | leaving (g : GamePtr) (clients : List ClientPtr)
deriving DecidableEq, Repr

namespace GameManager

/-- `JoinGame` up to the evaluation of the new member list. -/
def evaluateJoinGame (s : TCPServer) (c : ClientPtr) (id : GameID) :
    Except ServerError Call :=
  if (s.client c).gameID.length ≠ 0 then
    .error .invalidGameJoinAttempt
  else if id.length ≠ 6 then
    .error .invalidGameId
  else
    match s.games id with
    | none => .error .invalidGameId
    | some g => .ok (.joining g ((s.game g).clients ++ [c]))

/-- `Disconnect` up to the evaluation of the new member list. -/
def evaluateDisconnect (s : TCPServer) (c : ClientPtr) :
    Checked (Except ServerError Call) := do
  if (s.client c).gameID.length = 0 then
    return .error .clientNotInGame
  match s.games (s.client c).gameID with
  | none => return .error .invalidGameDisconnect
  | some g =>
      let clients ← removeClient (s.game g).clients c
      return .ok (.leaving g clients)

/-- The rest of a call, from the assignment to `game.clients` on. -/
def assign (s : TCPServer) (c : ClientPtr) : Call → Option Effect
  | .idle => none
  | .joining g clients =>
      let game := s.game g
      let msg := game.id
      let s := s.setGame g { game with clients := clients }
      let write := writePacket c encString packetJoinGameSuccess msg
      let s := s.setClient c
        { s.client c with gameID := game.id, gamePump := some g }
      some ⟨s, [write], none⟩
  | .leaving g clients =>
      let game := s.game g
      let s := s.setGame g { game with clients := clients }
      let s := s.setClient c { s.client c with gameID := [] }
      some ⟨s, [writePacket c encString packetLeaveGameSuccess []], none⟩

/-- A join whose two halves follow each other is the join of the manager. -/
theorem assign_evaluateJoinGame
    {s : TCPServer} {c : ClientPtr} {id : GameID} {call : Call}
    (h : evaluateJoinGame s c id = .ok call) :
    assign s c call = some (joinGame s c id) := by
  unfold evaluateJoinGame at h
  unfold joinGame
  split_ifs at h ⊢ with hgame hlength
  cases hg : s.games id with
  | none => simp [hg] at h
  | some g =>
      simp only [hg, Except.ok.injEq] at h
      subst h
      rfl

/-- The same of a disconnect. -/
theorem assign_evaluateDisconnect
    {s : TCPServer} {c : ClientPtr} {call : Call}
    (h : evaluateDisconnect s c = .ok (.ok call)) :
    (assign s c call).map Except.ok = some (disconnect s c) := by
  unfold evaluateDisconnect at h
  unfold disconnect
  simp only [removeClient_eq, bind, Except.bind, pure, Except.pure] at h ⊢
  split_ifs at h ⊢ with hgame
  · simp at h
  · cases hg : s.games (s.client c).gameID with
    | none => simp [hg] at h
    | some g =>
        simp only [hg, Except.ok.injEq] at h
        subst h
        rfl

end GameManager

/-- The server, and the calls its clients are in. -/
structure CallState where
  server : TCPServer
  call : ClientPtr → Call

/-- What the handlers of the clients do next. -/
inductive CallEvent
  /-- The call comes to its evaluation, or returns an error before. -/
  | joinGame (c : ClientPtr) (id : GameID)
  | disconnect (c : ClientPtr)
  /-- The call assigns the list it has evaluated, and returns. -/
  | assign (c : ClientPtr)
deriving DecidableEq, Repr

/-- Record how far the call of a client has come. -/
def CallState.setCall (s : CallState) (c : ClientPtr) (call : Call) :
    CallState :=
  { s with call := Function.update s.call c call }

section SetCall

variable (s : CallState) (c : ClientPtr) (call : Call)

@[simp] theorem setCall_server :
    (s.setCall c call).server = s.server := rfl

@[simp] theorem setCall_self :
    (s.setCall c call).call c = call := by
  simp [CallState.setCall]

@[simp] theorem setCall_other
    {d : ClientPtr} (h : d ≠ c) :
    (s.setCall c call).call d = s.call d := by
  simp [CallState.setCall, h]

end SetCall

/-- A client makes one call at a time; there is no lock around its halves. -/
def callStep (s : CallState) : CallEvent → Outcome CallState Write
  | .joinGame c id =>
      match s.call c with
      | .idle =>
          match GameManager.evaluateJoinGame s.server c id with
          | .error _ => .next s []
          | .ok call => .next (s.setCall c call) []
      | _ => .blocked
  | .disconnect c =>
      match s.call c with
      | .idle =>
          match GameManager.evaluateDisconnect s.server c with
          | .error _ => .panic
          | .ok (.error _) => .next s []
          | .ok (.ok call) => .next (s.setCall c call) []
      | _ => .blocked
  | .assign c =>
      match GameManager.assign s.server c (s.call c) with
      | none => .blocked
      | some e => .next (CallState.setCall ⟨e.server, s.call⟩ c .idle) e.writes

/-- Concurrent calls of `JoinGame` and `Disconnect`. -/
def callSystem : System CallState CallEvent Write where
  step := callStep

abbrev CallTransition := Transition CallState CallEvent Write

/-- Runs of calls from a server in which no call is under way. -/
def CallRun (s₀ : TCPServer) (tr : List CallTransition) (s : CallState) :
    Prop :=
  callSystem.Run ⟨s₀, fun _ => .idle⟩ tr s

/-- The list a call is about to assign to a game, marked if it is a join. -/
def Call.on (g : GamePtr) : Call → Option (Bool × List ClientPtr)
  | .idle => none
  | .joining g' clients => if g' = g then some (true, clients) else none
  | .leaving g' clients => if g' = g then some (false, clients) else none

/-- The member list after a client has joined, or else left. -/
def updated (joins : Bool) (c : ClientPtr) (clients : List ClientPtr) :
    List ClientPtr :=
  if joins then clients ++ [c] else clients.erase c

/-- The list a call has evaluated for a game is what it would evaluate now. -/
def Call.Current (g : GamePtr) (s : TCPServer) (c : ClientPtr)
    (call : Call) : Prop :=
  ∀ u ∈ call.on g, u.2 = updated u.1 c (s.game g).clients

instance (g : GamePtr) (s : TCPServer) (c : ClientPtr) :
    DecidablePred (Call.Current g s c) := fun call =>
  inferInstanceAs (Decidable (∀ u ∈ call.on g, _))

/-- A step that assigns no stale member list to a game. -/
def Undisturbed (g : GamePtr) (t : CallTransition) : Prop :=
  match t.event with
  | .assign c => (t.pre.call c).Current g t.pre.server c
  | _ => True

instance (g : GamePtr) : DecidablePred (Undisturbed g)
  | ⟨s, .assign c, _, _⟩ =>
      inferInstanceAs (Decidable ((s.call c).Current g s.server c))
  | ⟨_, .joinGame _ _, _, _⟩ => .isTrue trivial
  | ⟨_, .disconnect _, _, _⟩ => .isTrue trivial

/-- A call of a client on a game returns: it has joined, or else left. -/
def returns (g : GamePtr) (c : ClientPtr) (t : CallTransition) :
    Option Bool :=
  if t.event = .assign c then ((t.pre.call c).on g).map Prod.fst else none

/--
Whether a client is to be a member, by the last of its calls that has returned
or else by the list at the start.
-/
def belongs
    (g : GamePtr) (members : List ClientPtr) (tr : List CallTransition)
    (c : ClientPtr) : Bool :=
  ((tr.filterMap (returns g c)).getLast?).getD (decide (c ∈ members))

/--
The member list of a game: the members at the start, with those that joined
and without those that left, each once, in agreement with their game ids.
-/
structure Agrees
    (id : GameID) (g : GamePtr) (members : List ClientPtr)
    (tr : List CallTransition) (s : TCPServer) : Prop where
  nodup : (s.game g).clients.Nodup
  belongs : ∀ c, c ∈ (s.game g).clients ↔ belongs g members tr c = true
  gameID : ∀ c, c ∈ (s.game g).clients ↔ (s.client c).gameID = id

/-- A server in which a game is registered under an id. -/
structure Registers (id : GameID) (g : GamePtr) (s : TCPServer) : Prop where
  registered : s.games id = some g
  id_ne_nil : id ≠ []
  named : ∀ id' g', s.games id' = some g' → (s.game g').id = id'

/-- The members of the registered game are the clients that carry its id. -/
structure Consistent (id : GameID) (g : GamePtr) (s : TCPServer) : Prop
    extends Registers id g s where
  nodup : (s.game g).clients.Nodup
  member : ∀ c, c ∈ (s.game g).clients ↔ (s.client c).gameID = id

/-- With fresh draws every server that is reached is consistent. -/
theorem consistent_of_run
    {vf : ValidationFunc} {tr : List ServerTransition} {s : TCPServer}
    (run : ServerRun vf tr s)
    (fresh : ∀ t ∈ tr, DrawsFresh t)
    {id : GameID} {g : GamePtr}
    (registered : s.games id = some g) :
    Consistent id g s := by
  have hinv := inv_of_run run
  have hall := allRegistered_of_run run fresh
  obtain ⟨hlt, hid⟩ := hinv.registered id g registered
  refine ⟨⟨registered, hid ▸ hinv.id_ne_nil hlt,
    fun id' g' hg' => (hinv.registered id' g' hg').2⟩, hinv.nodup g,
    fun c => ?_⟩
  rw [← List.count_pos_iff, count_clients hinv hall registered c, hid]
  split_ifs with hc <;> simp [hc]

/-- The client whose call a step starts. -/
def caller (t : CallTransition) : Option ClientPtr :=
  match t.event with
  | .joinGame c _ => some c
  | .disconnect c => some c
  | .assign _ => none

/-- Every client makes at most one call. -/
def CallsOnce (tr : List CallTransition) : Prop :=
  (tr.filterMap caller).Nodup

/-- A call that is under way has passed the checks of its function. -/
def Call.Guarded (s : TCPServer) (c : ClientPtr) : Call → Prop
  | .idle => True
  | .joining g _ => (s.client c).gameID = [] ∧ ∃ id, s.games id = some g
  | .leaving g _ =>
      (s.client c).gameID ≠ [] ∧ s.games (s.client c).gameID = some g

/-- What one step of the calls can do. -/
inductive CallMove : CallTransition → Prop
  | refused
      {s : CallState} {e : CallEvent}
      (starts : ∀ c, e ≠ .assign c) :
      CallMove ⟨s, e, [], s⟩
  | evaluated
      {s : CallState} {e : CallEvent} {c : ClientPtr} {call : Call}
      (starts : (∃ id, e = .joinGame c id) ∨ e = .disconnect c)
      (idle : s.call c = .idle)
      (guarded : call.Guarded s.server c)
      (current : ∀ g, call.Current g s.server c) :
      CallMove ⟨s, e, [], s.setCall c call⟩
  | assigned
      {s : CallState} {c : ClientPtr} {e : Effect}
      (assigns : GameManager.assign s.server c (s.call c) = some e) :
      CallMove ⟨s, .assign c, e.writes,
        CallState.setCall ⟨e.server, s.call⟩ c .idle⟩

/-- The checks are on the client's own game id and on the registry. -/
theorem Call.Guarded.of_same
    {s s' : TCPServer} {c : ClientPtr} {call : Call}
    (h : call.Guarded s c)
    (client : s'.client c = s.client c)
    (games : s'.games = s.games) :
    call.Guarded s' c := by
  cases call with
  | idle => trivial
  | joining g clients => rwa [Call.Guarded, client, games]
  | leaving g clients => rwa [Call.Guarded, client, games]

theorem evaluateJoinGame_spec
    {s : TCPServer} {c : ClientPtr} {id : GameID} {call : Call}
    (h : GameManager.evaluateJoinGame s c id = .ok call) :
    call.Guarded s c ∧ ∀ g, call.Current g s c := by
  unfold GameManager.evaluateJoinGame at h
  split_ifs at h with hgame hlength
  cases hg : s.games id with
  | none => simp [hg] at h
  | some g =>
      simp only [hg, Except.ok.injEq] at h
      subst h
      refine ⟨⟨by simpa using hgame, id, hg⟩, fun g' u hu => ?_⟩
      simp only [Call.on, Option.mem_def, Option.ite_none_right_eq_some,
        Option.some.injEq] at hu
      obtain ⟨rfl, rfl⟩ := hu
      rfl

theorem evaluateDisconnect_spec
    {s : TCPServer} {c : ClientPtr} :
    ∃ r, GameManager.evaluateDisconnect s c = .ok r ∧
      ∀ call, r = .ok call →
        call.Guarded s c ∧ ∀ g, call.Current g s c := by
  unfold GameManager.evaluateDisconnect
  simp only [GameManager.removeClient_eq, bind, Except.bind, pure,
    Except.pure]
  split_ifs with hgame
  · exact ⟨_, rfl, fun call h => by cases h⟩
  · cases hg : s.games (s.client c).gameID with
    | none => exact ⟨_, rfl, fun call h => by cases h⟩
    | some g =>
        refine ⟨_, rfl, fun call h => ?_⟩
        cases h
        refine ⟨⟨by simpa using hgame, hg⟩, fun g' u hu => ?_⟩
        simp only [Call.on, Option.mem_def, Option.ite_none_right_eq_some,
          Option.some.injEq] at hu
        obtain ⟨rfl, rfl⟩ := hu
        rfl

/-- Every step of the calls is one of the moves. -/
theorem callMove_of_valid
    {t : CallTransition}
    (valid : callSystem.Valid t) :
    CallMove t := by
  obtain ⟨s, e, out, s'⟩ := t
  have hstep : callStep s e = .next s' out := valid
  cases e with
  | joinGame c id =>
      simp only [callStep] at hstep
      cases hcall : s.call c with
      | joining g l => simp [hcall] at hstep
      | leaving g l => simp [hcall] at hstep
      | idle =>
          simp only [hcall] at hstep
          cases heval : GameManager.evaluateJoinGame s.server c id with
          | error err =>
              simp only [heval, Outcome.next.injEq] at hstep
              obtain ⟨rfl, rfl⟩ := hstep
              exact .refused (fun c h => by cases h)
          | ok call =>
              simp only [heval, Outcome.next.injEq] at hstep
              obtain ⟨rfl, rfl⟩ := hstep
              obtain ⟨hguarded, hcurrent⟩ := evaluateJoinGame_spec heval
              exact .evaluated (Or.inl ⟨id, rfl⟩) hcall hguarded hcurrent
  | disconnect c =>
      simp only [callStep] at hstep
      cases hcall : s.call c with
      | joining g l => simp [hcall] at hstep
      | leaving g l => simp [hcall] at hstep
      | idle =>
          simp only [hcall] at hstep
          obtain ⟨r, heval, hspec⟩ :=
            evaluateDisconnect_spec (s := s.server) (c := c)
          cases r with
          | error err =>
              simp only [heval, Outcome.next.injEq] at hstep
              obtain ⟨rfl, rfl⟩ := hstep
              exact .refused (fun c h => by cases h)
          | ok call =>
              simp only [heval, Outcome.next.injEq] at hstep
              obtain ⟨rfl, rfl⟩ := hstep
              obtain ⟨hguarded, hcurrent⟩ := hspec call rfl
              exact .evaluated (Or.inr rfl) hcall hguarded hcurrent
  | assign c =>
      simp only [callStep] at hstep
      cases hassign : GameManager.assign s.server c (s.call c) with
      | none => simp [hassign] at hstep
      | some e =>
          simp only [hassign, Outcome.next.injEq] at hstep
          obtain ⟨rfl, rfl⟩ := hstep
          exact .assigned hassign

section Updated

variable {joins : Bool} {c d : ClientPtr} {clients : List ClientPtr}

theorem mem_updated_of_ne
    (h : d ≠ c) :
    d ∈ updated joins c clients ↔ d ∈ clients := by
  cases joins
  · exact List.mem_erase_of_ne h
  · simp [updated, h]

theorem mem_updated_self
    (nodup : clients.Nodup) :
    c ∈ updated joins c clients ↔ joins = true := by
  cases joins
  · simpa [updated] using nodup.not_mem_erase
  · simp [updated]

theorem nodup_updated
    (nodup : clients.Nodup)
    (new : joins = true → c ∉ clients) :
    (updated joins c clients).Nodup := by
  cases joins
  · exact nodup.erase c
  · exact List.nodup_append.mpr ⟨nodup, List.nodup_singleton c,
      fun a ha b hb => by
        rw [List.mem_singleton.mp hb]
        exact fun heq => new rfl (heq ▸ ha)⟩

end Updated

section Assign

variable {id : GameID} {g : GamePtr} {s : TCPServer} {c : ClientPtr}
variable {call : Call} {e : Effect}

/-- What an assignment changes besides the list of one game. -/
theorem assign_frame
    (assigns : GameManager.assign s c call = some e) :
    e.server.games = s.games ∧
      (∀ g, (e.server.game g).id = (s.game g).id) ∧
      ∀ d, d ≠ c → e.server.client d = s.client d := by
  have hids : ∀ (g : GamePtr) (clients : List ClientPtr) (g' : GamePtr),
      ((s.setGame g { s.game g with clients := clients }).game g').id =
        (s.game g').id := by
    intro g clients g'
    by_cases hg : g' = g
    · subst hg
      simp
    · simp [hg]
  cases call with
  | idle => cases assigns
  | joining g' l =>
      cases assigns
      exact ⟨rfl, hids g' l, fun d hd => by simp [TCPServer.setClient,
        TCPServer.setGame, hd]⟩
  | leaving g' l =>
      cases assigns
      exact ⟨rfl, hids g' l, fun d hd => by simp [TCPServer.setClient,
        TCPServer.setGame, hd]⟩

theorem Registers.assign
    (h : Registers id g s)
    (assigns : GameManager.assign s c call = some e) :
    Registers id g e.server := by
  obtain ⟨hgames, hids, -⟩ := assign_frame assigns
  refine ⟨hgames ▸ h.registered, h.id_ne_nil, fun id' g' hg' => ?_⟩
  rw [hids]
  exact h.named id' g' (hgames ▸ hg')

/-- An assignment to the list of a game puts its caller in it, or out. -/
theorem assign_on
    (h : Registers id g s)
    (guarded : call.Guarded s c)
    (assigns : GameManager.assign s c call = some e)
    {joins : Bool} {clients : List ClientPtr}
    (on : call.on g = some (joins, clients)) :
    (e.server.game g).clients = clients ∧
      ((e.server.client c).gameID = id ↔ joins = true) ∧
      ((s.client c).gameID = id ↔ joins = false) := by
  have hid : (s.game g).id = id := h.named id g h.registered
  cases call with
  | idle => cases assigns
  | joining g' l =>
      simp only [Call.on, Option.ite_none_right_eq_some, Option.some.injEq,
        Prod.mk.injEq] at on
      obtain ⟨rfl, rfl, rfl⟩ := on
      cases assigns
      refine ⟨by simp [TCPServer.setClient, TCPServer.setGame], ?_, ?_⟩
      · simp [TCPServer.setClient, hid]
      · simp [guarded.1, h.id_ne_nil.symm]
  | leaving g' l =>
      simp only [Call.on, Option.ite_none_right_eq_some, Option.some.injEq,
        Prod.mk.injEq] at on
      obtain ⟨rfl, rfl, rfl⟩ := on
      cases assigns
      refine ⟨by simp [TCPServer.setClient, TCPServer.setGame], ?_, ?_⟩
      · simp [TCPServer.setClient, h.id_ne_nil.symm]
      · simpa using (h.named _ g' guarded.2).symm.trans hid

/-- An assignment to the list of another game does not concern this one. -/
theorem assign_off
    (h : Registers id g s)
    (guarded : call.Guarded s c)
    (assigns : GameManager.assign s c call = some e)
    (off : call.on g = none) :
    (e.server.game g).clients = (s.game g).clients ∧
      (e.server.client c).gameID ≠ id ∧ (s.client c).gameID ≠ id := by
  cases call with
  | idle => cases assigns
  | joining g' l =>
      have hg : g' ≠ g := by simpa [Call.on] using off
      obtain ⟨hgame, id', hreg⟩ := guarded
      cases assigns
      refine ⟨by simp [TCPServer.setClient, TCPServer.setGame, hg.symm],
        ?_, ?_⟩
      · have hid : (s.game g').id ≠ id := by
          intro heq
          rw [h.named id' g' hreg] at heq
          rw [heq, h.registered] at hreg
          exact hg (Option.some.inj hreg).symm
        simpa [TCPServer.setClient] using hid
      · simpa [hgame] using h.id_ne_nil.symm
  | leaving g' l =>
      have hg : g' ≠ g := by simpa [Call.on] using off
      obtain ⟨-, hreg⟩ := guarded
      cases assigns
      refine ⟨by simp [TCPServer.setClient, TCPServer.setGame, hg.symm],
        ?_, ?_⟩
      · simpa [TCPServer.setClient] using h.id_ne_nil.symm
      · intro heq
        rw [heq, h.registered] at hreg
        exact hg (Option.some.inj hreg).symm

end Assign

section Runs

variable {id : GameID} {g : GamePtr} {s₀ : TCPServer}
variable {tr : List CallTransition} {s : CallState}

/-- A client that has started a call has done so ever after. -/
theorem called_snoc
    {c : ClientPtr}
    (h : c ∈ tr.filterMap caller)
    (t : CallTransition) :
    c ∈ (tr ++ [t]).filterMap caller := by
  rw [List.filterMap_append]
  exact List.mem_append_left _ h

/-- What holds after every run of calls, disturbed or not. -/
structure CallInv
    (id : GameID) (g : GamePtr) (members : List ClientPtr)
    (tr : List CallTransition) (s : CallState) : Prop where
  registers : Registers id g s.server
  guarded : ∀ c, (s.call c).Guarded s.server c
  started : ∀ c, s.call c ≠ .idle → c ∈ tr.filterMap caller
  carried : ∀ c, (s.server.client c).gameID = id ↔
    belongs g members tr c = true

theorem belongs_snoc
    (members : List ClientPtr) (t : CallTransition) (c : ClientPtr) :
    belongs g members (tr ++ [t]) c =
      (returns g c t).getD (belongs g members tr c) := by
  unfold belongs
  rw [List.filterMap_append]
  cases h : returns g c t <;> simp [h]

theorem CallInv.move
    {members : List ClientPtr} {t : CallTransition}
    (m : CallMove t)
    (h : CallInv id g members tr t.pre) :
    CallInv id g members (tr ++ [t]) t.post := by
  cases m with
  | @refused s e starts =>
      refine ⟨h.registers, h.guarded,
        fun c hc => called_snoc (h.started c hc) _, fun c => ?_⟩
      rw [belongs_snoc, returns, if_neg (starts c)]
      exact h.carried c
  | @evaluated s e c call starts idle guarded current =>
      refine ⟨h.registers, fun d => ?_, fun d hd => ?_, fun d => ?_⟩
      · by_cases hdc : d = c
        · subst hdc
          simpa using guarded
        · simpa [hdc] using h.guarded d
      · by_cases hdc : d = c
        · subst hdc
          rw [List.filterMap_append]
          rcases starts with ⟨id', rfl⟩ | rfl <;> simp [caller]
        · exact called_snoc (h.started d (by simpa [hdc] using hd)) _
      · have hevent : e ≠ .assign d := by
          rcases starts with ⟨id', rfl⟩ | rfl <;> simp
        rw [belongs_snoc, returns, if_neg hevent]
        exact h.carried d
  | @assigned s c e assigns =>
      obtain ⟨hgames, -, hother⟩ := assign_frame assigns
      refine ⟨h.registers.assign assigns, fun d => ?_, fun d hd => ?_,
        fun d => ?_⟩
      · by_cases hdc : d = c
        · subst hdc
          simp [Call.Guarded]
        · have hpre := (h.guarded d).of_same (hother d hdc) hgames
          simpa [hdc] using hpre
      · by_cases hdc : d = c
        · subst hdc
          simp at hd
        · exact called_snoc (h.started d (by simpa [hdc] using hd)) _
      · rw [belongs_snoc, returns]
        by_cases hdc : d = c
        · subst hdc
          rw [if_pos rfl]
          cases hon : (s.call d).on g with
          | none =>
              obtain ⟨-, hafter, hbefore⟩ := assign_off h.registers
                (h.guarded d) assigns hon
              have hcarried := h.carried d
              simp only [Option.map_none, Option.getD_none]
              exact ⟨fun heq => absurd heq hafter,
                fun hb => absurd (hcarried.mpr hb) hbefore⟩
          | some u =>
              obtain ⟨-, hafter, -⟩ := assign_on h.registers
                (h.guarded d) assigns hon
              exact hafter
        · have hevent : CallEvent.assign c ≠ .assign d := by
            simpa using fun heq : c = d => hdc heq.symm
          rw [if_neg hevent]
          change (e.server.client d).gameID = id ↔ _
          rw [hother d hdc]
          exact h.carried d

theorem callInv_of_run
    (consistent : Consistent id g s₀)
    (run : CallRun s₀ tr s) :
    CallInv id g (s₀.game g).clients tr s := by
  refine run.history_induction
    (J := CallInv id g (s₀.game g).clients) ⟨consistent.toRegisters,
      fun c => show Call.Guarded s₀ c .idle from trivial,
      fun c hc => absurd rfl hc, fun c => ?_⟩
    (fun _ _ _ valid h => h.move (callMove_of_valid valid))
  simpa [belongs] using (consistent.member c).symm

/-- The members of the game are the clients that carry its id, each once. -/
def ListRight (id : GameID) (g : GamePtr) (s : TCPServer) : Prop :=
  (s.game g).clients.Nodup ∧
    ∀ c, c ∈ (s.game g).clients ↔ (s.client c).gameID = id

/-- A step that assigns no stale list keeps the list right. -/
theorem ListRight.move
    {members : List ClientPtr} {t : CallTransition}
    (m : CallMove t)
    (inv : CallInv id g members tr t.pre)
    (undisturbed : Undisturbed g t)
    (h : ListRight id g t.pre.server) :
    ListRight id g t.post.server := by
  obtain ⟨hnodup, hmember⟩ := h
  cases m with
  | refused => exact ⟨hnodup, hmember⟩
  | evaluated => exact ⟨hnodup, hmember⟩
  | @assigned s c e assigns =>
      obtain ⟨-, -, hother⟩ := assign_frame assigns
      have hcurrent : (s.call c).Current g s.server c := undisturbed
      change (e.server.game g).clients.Nodup ∧ ∀ d,
        d ∈ (e.server.game g).clients ↔ (e.server.client d).gameID = id
      cases hon : (s.call c).on g with
      | none =>
          obtain ⟨hclients, hafter, hbefore⟩ := assign_off inv.registers
            (inv.guarded c) assigns hon
          rw [hclients]
          refine ⟨hnodup, fun d => ?_⟩
          by_cases hdc : d = c
          · subst hdc
            exact ⟨fun hd => absurd ((hmember d).mp hd) hbefore,
              fun hd => absurd hd hafter⟩
          · rw [hother d hdc]
            exact hmember d
      | some u =>
          obtain ⟨hclients, hafter, hbefore⟩ := assign_on inv.registers
            (inv.guarded c) assigns hon
          rw [hclients, hcurrent u hon]
          refine ⟨nodup_updated hnodup fun hjoins hmem => ?_, fun d => ?_⟩
          · have hout := hbefore.mp ((hmember c).mp hmem)
            rw [hjoins] at hout
            cases hout
          · by_cases hdc : d = c
            · subst hdc
              rw [hafter]
              exact mem_updated_self hnodup
            · rw [mem_updated_of_ne hdc, hother d hdc]
              exact hmember d

theorem listRight_of_run
    (consistent : Consistent id g s₀)
    (run : CallRun s₀ tr s)
    (undisturbed : ∀ t ∈ tr, Undisturbed g t) :
    ListRight id g s.server := by
  have hkeep : (∀ t ∈ tr, Undisturbed g t) → ListRight id g s.server := by
    refine run.history_induction
      (J := fun tr s => (∀ t ∈ tr, Undisturbed g t) →
        ListRight id g s.server)
      (fun _ => ⟨consistent.nodup, consistent.member⟩) ?_
    intro tr t hrun valid hright hall
    exact ListRight.move (callMove_of_valid valid)
      (callInv_of_run consistent hrun) (hall t (by simp))
      (hright fun t' ht' => hall t' (List.mem_append_left _ ht'))
  exact hkeep undisturbed

/-- A client has made its call, and the call has returned. -/
def Over (tr : List CallTransition) (s : CallState) (c : ClientPtr) : Prop :=
  c ∈ tr.filterMap caller ∧ s.call c = .idle

/-- A list is wrong about a client whose call is over. -/
def WrongFor
    (id : GameID) (tr : List CallTransition) (s : CallState)
    (clients : List ClientPtr) : Prop :=
  ∃ d, Over tr s d ∧ ¬ (d ∈ clients ↔ (s.server.client d).gameID = id)

/--
Where every client makes one call: a list that is about to be assigned is
either current or wrong for good, and after a stale assignment the list of the
game is wrong for good.
-/
structure StaleInv
    (id : GameID) (g : GamePtr) (tr : List CallTransition) (s : CallState) :
    Prop where
  pending : ∀ c, ∀ u ∈ (s.call c).on g,
    u.2 = updated u.1 c (s.server.game g).clients ∨ WrongFor id tr s u.2
  stale : (∃ t ∈ tr, ¬ Undisturbed g t) →
    WrongFor id tr s (s.server.game g).clients

/-- No other call changes what the list has to say on a call that is over. -/
theorem Over.move
    {t : CallTransition} {d : ClientPtr}
    (m : CallMove t)
    (once : CallsOnce (tr ++ [t]))
    (h : Over tr t.pre d) :
    Over (tr ++ [t]) t.post d ∧
      t.post.server.client d = t.pre.server.client d := by
  obtain ⟨hmade, hidle⟩ := h
  have hmade' := called_snoc hmade t
  cases m with
  | refused => exact ⟨⟨hmade', hidle⟩, rfl⟩
  | @evaluated s e c call starts idle guarded current =>
      have hdc : d ≠ c := by
        rintro rfl
        rw [CallsOnce, List.filterMap_append] at once
        refine (List.nodup_append.mp once).2.2 d hmade d ?_ rfl
        rcases starts with ⟨id', rfl⟩ | rfl <;> simp [caller]
      exact ⟨⟨hmade', by simpa [hdc] using hidle⟩, rfl⟩
  | @assigned s c e assigns =>
      have hdc : d ≠ c := by
        rintro rfl
        rw [show s.call d = .idle from hidle] at assigns
        cases assigns
      exact ⟨⟨hmade', by simpa [hdc] using hidle⟩,
        (assign_frame assigns).2.2 d hdc⟩

theorem WrongFor.move
    {t : CallTransition} {clients : List ClientPtr}
    (m : CallMove t)
    (once : CallsOnce (tr ++ [t]))
    (h : WrongFor id tr t.pre clients) :
    WrongFor id (tr ++ [t]) t.post clients := by
  obtain ⟨d, hover, hwrong⟩ := h
  obtain ⟨hover', hclient⟩ := hover.move m once
  exact ⟨d, hover', by rwa [hclient]⟩

/-- A call still under way cannot correct the list for another client. -/
theorem wrongFor_updated
    {clients : List ClientPtr} {joins : Bool} {c : ClientPtr}
    (h : WrongFor id tr s clients)
    (busy : s.call c ≠ .idle) :
    WrongFor id tr s (updated joins c clients) := by
  obtain ⟨d, hover, hwrong⟩ := h
  have hdc : d ≠ c := by
    rintro rfl
    exact busy hover.2
  exact ⟨d, hover, by rwa [mem_updated_of_ne hdc]⟩

theorem CallsOnce.of_snoc
    {t : CallTransition}
    (h : CallsOnce (tr ++ [t])) :
    CallsOnce tr := by
  rw [CallsOnce, List.filterMap_append] at h
  exact (List.nodup_append.mp h).1

theorem Call.ne_idle_of_on
    {call : Call} {u : Bool × List ClientPtr}
    (on : call.on g = some u) :
    call ≠ .idle := by
  rintro rfl
  cases on

/-- A list read before a call on the game returned is wrong about it after. -/
theorem wrongFor_assigned
    {members clients : List ClientPtr} {c : ClientPtr} {e : Effect}
    {u : Bool × List ClientPtr}
    (inv : CallInv id g members tr s)
    (assigns : GameManager.assign s.server c (s.call c) = some e)
    (on : (s.call c).on g = some u)
    (listed : c ∈ clients ↔ (s.server.client c).gameID = id)
    (t : CallTransition) :
    WrongFor id (tr ++ [t]) (CallState.setCall ⟨e.server, s.call⟩ c .idle)
      clients := by
  obtain ⟨-, hafter, hbefore⟩ := assign_on inv.registers (inv.guarded c)
    assigns on
  have hmade := called_snoc (inv.started c (Call.ne_idle_of_on on)) t
  refine ⟨c, ⟨hmade, by simp⟩, fun hagree => ?_⟩
  have hflip : u.1 = false ↔ u.1 = true :=
    hbefore.symm.trans (listed.symm.trans (hagree.trans hafter))
  cases hu : u.1 <;> simp [hu] at hflip

/-- Whatever another call has evaluated is wrong once a call has returned. -/
theorem StaleInv.overtaken
    {members : List ClientPtr} {c d : ClientPtr} {e : Effect}
    {u v : Bool × List ClientPtr} {t : CallTransition}
    (h : StaleInv id g tr s)
    (inv : CallInv id g members tr s)
    (right : (∀ t ∈ tr, Undisturbed g t) → ListRight id g s.server)
    (assigns : GameManager.assign s.server c (s.call c) = some e)
    (on : (s.call c).on g = some v)
    (other : d ≠ c)
    (pending : (s.call d).on g = some u)
    (keep : ∀ {clients}, WrongFor id tr s clients →
      WrongFor id (tr ++ [t]) (CallState.setCall ⟨e.server, s.call⟩ c .idle)
        clients) :
    WrongFor id (tr ++ [t]) (CallState.setCall ⟨e.server, s.call⟩ c .idle)
      u.2 := by
  rcases h.pending d u pending with hcurrent | hwrong
  swap
  · exact keep hwrong
  by_cases hall : ∀ t ∈ tr, Undisturbed g t
  · refine wrongFor_assigned inv assigns on ?_ t
    rw [hcurrent, mem_updated_of_ne other.symm]
    exact (right hall).2 c
  · push Not at hall
    obtain ⟨t', ht', hnot⟩ := hall
    rw [hcurrent]
    exact keep (wrongFor_updated (h.stale ⟨t', ht', hnot⟩)
      (Call.ne_idle_of_on pending))

theorem StaleInv.move
    {members : List ClientPtr} {t : CallTransition}
    (m : CallMove t)
    (once : CallsOnce (tr ++ [t]))
    (inv : CallInv id g members tr t.pre)
    (right : (∀ t ∈ tr, Undisturbed g t) → ListRight id g t.pre.server)
    (h : StaleInv id g tr t.pre) :
    StaleInv id g (tr ++ [t]) t.post := by
  have hkeep : ∀ {clients : List ClientPtr}, WrongFor id tr t.pre clients →
      WrongFor id (tr ++ [t]) t.post clients := fun hwrong =>
    hwrong.move m once
  -- before this step, unless it is the first that assigns a stale list
  have hstale : (∃ t' ∈ tr ++ [t], ¬ Undisturbed g t') → Undisturbed g t →
      WrongFor id tr t.pre (t.pre.server.game g).clients := by
    rintro ⟨t', ht', hnot⟩ hundisturbed
    rcases List.mem_append.mp ht' with ht' | ht'
    · exact h.stale ⟨t', ht', hnot⟩
    · rw [List.mem_singleton.mp ht'] at hnot
      exact absurd hundisturbed hnot
  cases m with
  | @refused s e starts =>
      have hundisturbed : Undisturbed g ⟨s, e, [], s⟩ := by
        cases e with
        | assign c => exact absurd rfl (starts c)
        | _ => trivial
      exact ⟨fun c u hu => (h.pending c u hu).imp_right hkeep,
        fun hex => hkeep (hstale hex hundisturbed)⟩
  | @evaluated s e c call starts idle guarded current =>
      have hundisturbed : Undisturbed g ⟨s, e, [], s.setCall c call⟩ := by
        rcases starts with ⟨id', rfl⟩ | rfl <;> trivial
      refine ⟨fun d u hu => ?_, fun hex => hkeep (hstale hex hundisturbed)⟩
      by_cases hdc : d = c
      · subst hdc
        exact Or.inl (current g u (by simpa using hu))
      · exact (h.pending d u (by simpa [hdc] using hu)).imp_right hkeep
  | @assigned s c e assigns =>
      have hself : ∀ u, u ∉ ((CallState.setCall ⟨e.server, s.call⟩ c
          .idle).call c).on g := by
        simp [Call.on]
      cases hon : (s.call c).on g with
      | none =>
          obtain ⟨hclients, -, -⟩ := assign_off inv.registers
            (inv.guarded c) assigns hon
          have hundisturbed : (s.call c).Current g s.server c := by
            intro u hu
            rw [hon] at hu
            cases hu
          refine ⟨fun d u hu => ?_, fun hex => ?_⟩
          · have hdc : d ≠ c := by
              rintro rfl
              exact hself u hu
            rw [setCall_server, hclients]
            exact (h.pending d u (by simpa [hdc] using hu)).imp_right hkeep
          · rw [setCall_server, hclients]
            exact hkeep (hstale hex hundisturbed)
      | some v =>
          obtain ⟨hclients, -, -⟩ := assign_on inv.registers
            (inv.guarded c) assigns hon
          refine ⟨fun d u hu => ?_, fun hex => ?_⟩
          · have hdc : d ≠ c := by
              rintro rfl
              exact hself u hu
            exact Or.inr (h.overtaken inv right assigns hon hdc
              (by simpa [hdc] using hu) hkeep)
          · rw [setCall_server, hclients]
            rcases h.pending c v hon with hcurrent | hwrong
            · have hundisturbed : (s.call c).Current g s.server c := by
                intro u hu
                rw [hon] at hu
                cases hu
                exact hcurrent
              have hwrong := hstale hex hundisturbed
              rw [hcurrent]
              exact hkeep (wrongFor_updated hwrong (Call.ne_idle_of_on hon))
            · exact hkeep hwrong

/-- Where every client makes one call, a stale assignment is for good. -/
theorem staleInv_of_run
    (consistent : Consistent id g s₀)
    (run : CallRun s₀ tr s)
    (once : CallsOnce tr) :
    StaleInv id g tr s := by
  have hkeep : CallsOnce tr → StaleInv id g tr s := by
    refine run.history_induction
      (J := fun tr s => CallsOnce tr → StaleInv id g tr s) (fun _ => ?_) ?_
    · refine ⟨fun c u hu => ?_, fun hex => ?_⟩
      · cases hu
      · obtain ⟨t, ht, -⟩ := hex
        cases ht
    · intro tr t hrun valid ih honce
      exact StaleInv.move (callMove_of_valid valid) honce
        (callInv_of_run consistent hrun)
        (fun hall => listRight_of_run consistent hrun hall)
        (ih honce.of_snoc)
  exact hkeep once

/--
Membership under concurrent calls.  In every run of joins and leaves from a
server in which the members of the game are the clients that carry its id: as
long as no call assigns a stale list, the list has the members at the start,
with those that joined and without those that left, each once, in agreement
with their game ids; and where every client makes at most one call, the list
agrees only if no call has assigned a stale list.
-/
theorem members_agree_iff
    (consistent : Consistent id g s₀)
    (run : CallRun s₀ tr s) :
    ((∀ t ∈ tr, Undisturbed g t) →
      Agrees id g (s₀.game g).clients tr s.server) ∧
    (CallsOnce tr → Agrees id g (s₀.game g).clients tr s.server →
      ∀ t ∈ tr, Undisturbed g t) := by
  have hinv := callInv_of_run consistent run
  refine ⟨fun hall => ?_, fun honce hagrees t ht => ?_⟩
  · obtain ⟨hnodup, hmember⟩ := listRight_of_run consistent run hall
    exact ⟨hnodup, fun c => (hmember c).trans (hinv.carried c), hmember⟩
  · by_contra hnot
    obtain ⟨d, -, hwrong⟩ :=
      (staleInv_of_run consistent run honce).stale ⟨t, ht, hnot⟩
    exact hwrong (hagrees.gameID d)

end Runs

/-- All calls have returned. -/
def Settled (s : CallState) : Prop :=
  ∀ c, s.call c = .idle

/-- Only clients that have started a call can be in one. -/
theorem settled_of_callers
    {id : GameID} {g : GamePtr} {members : List ClientPtr}
    {tr : List CallTransition} {s : CallState}
    (inv : CallInv id g members tr s)
    (callers : ∀ c ∈ tr.filterMap caller, s.call c = .idle) :
    Settled s := by
  intro c
  by_contra hbusy
  exact hbusy (callers c (inv.started c hbusy))

/-- What is checked of executed calls holds of a run of calls. -/
theorem exists_calls_of_exec
    (id : GameID) (g : GamePtr) (vf : ValidationFunc)
    (events : List TCPServer.Event) (calls : List CallEvent)
    (f : TCPServer → List CallTransition → CallState → Bool)
    (h : (serverSystem.exec (TCPServer.newTCPServer vf) events).bind
      (fun r => if r.1.all (fun t => decide (DrawsFresh t)) &&
          decide (r.2.games id = some g) then
        (callSystem.exec ⟨r.2, fun _ => .idle⟩ calls).map
          (fun q => f r.2 q.1 q.2) else none) = some true) :
    ∃ s₀ tr s, Consistent id g s₀ ∧ CallRun s₀ tr s ∧
      tr.map Transition.event = calls ∧ f s₀ tr s = true := by
  obtain ⟨r, hserver, hcalls⟩ := Option.bind_eq_some_iff.mp h
  split_ifs at hcalls with hcond
  obtain ⟨hrun, -⟩ := serverSystem.exec_run events _ hserver
  obtain ⟨tr, s, hrun', hevents, hend⟩ := System.run_of_exec hcalls
  simp only [Bool.and_eq_true, List.all_eq_true, decide_eq_true_eq] at hcond
  exact ⟨r.2, tr, s, consistent_of_run hrun hcond.1 hcond.2, hrun', hevents,
    hend⟩

/-- Three clients, of which the first has created a game. -/
def oneMember : List TCPServer.Event :=
  signIn 0 0 ++ signIn 1 1 ++ signIn 2 2 ++
    [.packet 0 (constructPacket encString packetCreateGame []) 7]

/--
Two clients join at once.  Both have evaluated their lists before the first is
assigned, and the second assignment takes the first client out again: it is in
the game by its game id and by the reply it was sent, but in no list.
-/
theorem join_lost :
    ∃ s₀ tr s, Consistent (generateGameId 7) 0 s₀ ∧ CallRun s₀ tr s ∧
      tr.map Transition.event =
        [.joinGame 1 (generateGameId 7), .joinGame 2 (generateGameId 7),
          .assign 1, .assign 2] ∧
      Settled s ∧ (s₀.game 0).clients = [0] ∧
      (s.server.game 0).clients = [0, 2] ∧
      (s.server.client 1).gameID = generateGameId 7 ∧
      ¬ Agrees (generateGameId 7) 0 (s₀.game 0).clients tr s.server := by
  obtain ⟨s₀, tr, s, hconsistent, hrun, hevents, hend⟩ :=
    exists_calls_of_exec (generateGameId 7) 0 nopValidationFunc oneMember
      [.joinGame 1 (generateGameId 7), .joinGame 2 (generateGameId 7),
        .assign 1, .assign 2]
      (fun s₀ tr s => decide ((∀ c ∈ tr.filterMap caller, s.call c = .idle) ∧
        (s₀.game 0).clients = [0] ∧ (s.server.game 0).clients = [0, 2] ∧
        (s.server.client 1).gameID = generateGameId 7))
      (by decide +kernel)
  obtain ⟨hcallers, hbefore, hafter, hcarried⟩ := of_decide_eq_true hend
  refine ⟨s₀, tr, s, hconsistent, hrun, hevents,
    settled_of_callers (callInv_of_run hconsistent hrun) hcallers, hbefore,
    hafter, hcarried, fun hagrees => ?_⟩
  have hlisted := (hagrees.gameID 1).mpr hcarried
  rw [hafter] at hlisted
  simp at hlisted

/-- When the second evaluates after the first has assigned, both are in. -/
theorem members_agree_in_turn :
    ∃ s₀ tr s, Consistent (generateGameId 7) 0 s₀ ∧ CallRun s₀ tr s ∧
      tr.map Transition.event =
        [.joinGame 1 (generateGameId 7), .assign 1,
          .joinGame 2 (generateGameId 7), .assign 2, .disconnect 0,
          .assign 0] ∧
      (s.server.game 0).clients = [1, 2] ∧
      Agrees (generateGameId 7) 0 (s₀.game 0).clients tr s.server := by
  obtain ⟨s₀, tr, s, hconsistent, hrun, hevents, hend⟩ :=
    exists_calls_of_exec (generateGameId 7) 0 nopValidationFunc oneMember
      [.joinGame 1 (generateGameId 7), .assign 1,
        .joinGame 2 (generateGameId 7), .assign 2, .disconnect 0, .assign 0]
      (fun s₀ tr s => decide ((∀ t ∈ tr, Undisturbed 0 t) ∧
        (s.server.game 0).clients = [1, 2]))
      (by decide +kernel)
  obtain ⟨hundisturbed, hafter⟩ := of_decide_eq_true hend
  exact ⟨s₀, tr, s, hconsistent, hrun, hevents, hafter,
    (members_agree_iff hconsistent hrun).1 hundisturbed⟩

end MembershipRace

end Server
end TurnBasedGame
