import TurnBasedGame.Server.GameChannel

/-!
# Authentication

What the history of a run says about its connections: which id was issued to
a connection, and which packet came first on it.  A connection is served, and
its client is in a game, only after its first packet has returned the issued
id; from then on the client has that id.  Whatever is in flight in a game was
queued by such a connection and carries its id.
-/

namespace TurnBasedGame
namespace Server

open Kernel

section Authentication

open TCPServer

/-- The id a step issues to a connection. -/
def issuedIn (c : ClientPtr) (t : ServerTransition) : Option ClientID :=
  match t.event with
  | .accept d n => if d = c then some (generateClientId n) else none
  | _ => none

/-- The packet of a connection that a step takes from the framer. -/
def framedIn (c : ClientPtr) (t : ServerTransition) : Option Packet :=
  match t.event with
  | .packet d p _ => if d = c then some p else none
  | _ => none

/-- The id issued to a connection in a run. -/
def issued (c : ClientPtr) (tr : List ServerTransition) : Option ClientID :=
  tr.findSome? (issuedIn c)

/-- The first packet framed on a connection in a run. -/
def firstPacket (c : ClientPtr) (tr : List ServerTransition) :
    Option Packet :=
  tr.findSome? (framedIn c)

/-- The first packet of the connection returned the id issued to it. -/
structure SignedIn (c : ClientPtr) (id : ClientID)
    (tr : List ServerTransition) : Prop where
  issued_eq : issued c tr = some id
  first : ∃ p, firstPacket c tr = some p ∧
    p.getType = .ok packetAuth ∧ p.getData = .ok id

/-- No id is issued to two connections. -/
def DistinctIDs (tr : List ServerTransition) : Prop :=
  ∀ c d id, issued c tr = some id → issued d tr = some id → c = d

variable {c d : ClientPtr} {id : ClientID} {tr : List ServerTransition}

theorem issued_snoc
    (c : ClientPtr) (tr : List ServerTransition) (t : ServerTransition) :
    issued c (tr ++ [t]) = (issued c tr).or (issuedIn c t) := by
  rw [issued, List.findSome?_append]
  cases h : issuedIn c t <;> simp [issued, h]

theorem firstPacket_snoc
    (c : ClientPtr) (tr : List ServerTransition) (t : ServerTransition) :
    firstPacket c (tr ++ [t]) = (firstPacket c tr).or (framedIn c t) := by
  rw [firstPacket, List.findSome?_append]
  cases h : framedIn c t <;> simp [firstPacket, h]

/-- An id that was issued stays the id issued. -/
theorem issued_append
    (h : issued c tr = some id)
    (tr' : List ServerTransition) :
    issued c (tr ++ tr') = some id := by
  rw [issued, List.findSome?_append, show tr.findSome? _ = _ from h]
  rfl

/-- The connection and the id that a step issues to it. -/
def issues (t : ServerTransition) : Option (ClientPtr × ClientID) :=
  match t.event with
  | .accept c n => some (c, generateClientId n)
  | _ => none

theorem mem_issues_of_issued
    (h : issued c tr = some id) :
    (c, id) ∈ tr.filterMap issues := by
  obtain ⟨t, ht, hid⟩ := List.exists_of_findSome?_eq_some h
  refine List.mem_filterMap.mpr ⟨t, ht, ?_⟩
  unfold issuedIn at hid
  split at hid
  case h_1 d n hevent =>
    split_ifs at hid with hdc
    cases hid
    simp [issues, hevent, hdc]
  case h_2 => cases hid

/-- Ids are distinct when no step issues the id of another connection. -/
theorem distinctIDs_of_issues
    (h : ∀ x ∈ tr.filterMap issues, ∀ y ∈ tr.filterMap issues,
      x.2 = y.2 → x.1 = y.1) :
    DistinctIDs tr :=
  fun _ _ _ hc hd =>
    h _ (mem_issues_of_issued hc) _ (mem_issues_of_issued hd) rfl

/-- What a connection has proved stays proved. -/
theorem SignedIn.append
    (h : SignedIn c id tr)
    (tr' : List ServerTransition) :
    SignedIn c id (tr ++ tr') := by
  obtain ⟨p, hp, hpacket⟩ := h.first
  refine ⟨issued_append h.issued_eq tr', p, ?_, hpacket⟩
  rw [firstPacket, List.findSome?_append, show tr.findSome? _ = _ from hp]
  rfl

/-- Only the step that frames the first packet makes a difference. -/
theorem SignedIn.of_snoc
    {t : ServerTransition}
    (h : SignedIn c id (tr ++ [t]))
    (hissued : issued c tr ≠ none ∨ issuedIn c t = none)
    (hfirst : firstPacket c tr ≠ none ∨ framedIn c t = none) :
    SignedIn c id tr := by
  obtain ⟨hid, p, hp, hpacket⟩ := h
  rw [issued_snoc] at hid
  rw [firstPacket_snoc] at hp
  constructor
  · rcases hissued with hsome | hnone
    · obtain ⟨id', hid'⟩ := Option.ne_none_iff_exists'.mp hsome
      rwa [hid', Option.some_or, ← hid'] at hid
    · rwa [hnone, Option.or_none] at hid
  · refine ⟨p, ?_, hpacket⟩
    rcases hfirst with hsome | hnone
    · obtain ⟨q, hq⟩ := Option.ne_none_iff_exists'.mp hsome
      rwa [hq, Option.some_or, ← hq] at hp
    · rwa [hnone, Option.or_none] at hp

/-- A connection has one id. -/
theorem SignedIn.unique
    {id' : ClientID}
    (h : SignedIn c id tr)
    (h' : SignedIn c id' tr) :
    id = id' :=
  Option.some.inj (h.issued_eq.symm.trans h'.issued_eq)

/-- A step of another handler issues no id and frames nothing. -/
theorem unnoticed_of_handler
    {t : ServerTransition}
    (other : handlerOf t.event ≠ some c) :
    issuedIn c t = none ∧ framedIn c t = none := by
  obtain ⟨s, event, out, s'⟩ := t
  have hne : ∀ {d : ClientPtr}, handlerOf event = some d → ¬ d = c := by
    rintro d hd rfl
    exact other hd
  cases event with
  | accept d n => exact ⟨by simp [issuedIn, hne rfl], rfl⟩
  | packet d p n => exact ⟨rfl, by simp [framedIn, hne rfl]⟩
  | _ => exact ⟨rfl, rfl⟩

/-- What the state of a connection remembers of the history of a run. -/
structure ConnHistory (c : ClientPtr) (tr : List ServerTransition)
    (s : TCPServer) : Prop where
  absent : s.conn c = .absent → issued c tr = none ∧ firstPacket c tr = none
  authenticating : ∀ id, s.conn c = .authenticating id →
    issued c tr = some id ∧ firstPacket c tr = none
  serving : s.conn c = .serving → ∃ id, SignedIn c id tr
  known : ∀ id, SignedIn c id tr → (s.client c).clientID = id
  member : ∀ g, c ∈ (s.game g).clients → ∃ id, SignedIn c id tr

namespace ConnHistory

variable {s : TCPServer}

theorem init
    (vf : ValidationFunc) (c : ClientPtr) :
    ConnHistory c [] (newTCPServer vf) := by
  constructor
  case known =>
    intro id h
    cases h.issued_eq
  all_goals
    simp [newTCPServer, noGame, issued, firstPacket]

/-- Steps that neither issue an id nor frame a first packet. -/
theorem keep
    (h : ConnHistory c tr s) {t : ServerTransition} {s' : TCPServer}
    (issuedIn : issuedIn c t = none)
    (framedIn : framedIn c t = none ∨ s.conn c = .serving)
    (conn : s'.conn c = s.conn c ∨ s'.conn c = .returned)
    (clientID : (s'.client c).clientID = (s.client c).clientID)
    (members : ∀ g, c ∈ (s'.game g).clients →
      c ∈ (s.game g).clients ∨ s.conn c = .serving) :
    ConnHistory c (tr ++ [t]) s' := by
  have hframed : s.conn c ≠ .serving → Server.framedIn c t = none :=
    fun hconn => framedIn.resolve_right hconn
  constructor
  case absent =>
    intro hconn
    have hold : s.conn c = .absent := by
      rcases conn with heq | heq <;> rw [heq] at hconn
      · exact hconn
      · cases hconn
    obtain ⟨hissued, hfirst⟩ := h.absent hold
    rw [issued_snoc, firstPacket_snoc, hissued, hfirst, issuedIn,
      hframed (by simp [hold])]
    exact ⟨rfl, rfl⟩
  case authenticating =>
    intro id hconn
    have hold : s.conn c = .authenticating id := by
      rcases conn with heq | heq <;> rw [heq] at hconn
      · exact hconn
      · cases hconn
    obtain ⟨hissued, hfirst⟩ := h.authenticating id hold
    rw [issued_snoc, firstPacket_snoc, hissued, hfirst,
      hframed (by simp [hold])]
    exact ⟨rfl, rfl⟩
  case serving =>
    intro hconn
    have hold : s.conn c = .serving := by
      rcases conn with heq | heq <;> rw [heq] at hconn
      · exact hconn
      · cases hconn
    obtain ⟨id, hid⟩ := h.serving hold
    exact ⟨id, hid.append [t]⟩
  case known =>
    intro id hid
    rw [clientID]
    refine h.known id (hid.of_snoc (Or.inr issuedIn) ?_)
    rcases framedIn with hnone | hconn
    · exact Or.inr hnone
    · obtain ⟨id', hid'⟩ := h.serving hconn
      obtain ⟨p, hp, -⟩ := hid'.first
      exact Or.inl (by simp [hp])
  case member =>
    intro g hmem
    have hold : ∃ id, SignedIn c id tr := by
      rcases members g hmem with hmem | hconn
      · exact h.member g hmem
      · exact h.serving hconn
    obtain ⟨id, hid⟩ := hold
    exact ⟨id, hid.append [t]⟩

/-- The end of the handling of a connection. -/
theorem close
    {t : ServerTransition}
    (h : ConnHistory c tr s)
    (issuedIn : issuedIn c t = none)
    (framedIn : framedIn c t = none)
    (d : ClientPtr) :
    ConnHistory c (tr ++ [t]) ((s.closed d).server.setConn d .returned) := by
  refine h.keep issuedIn (Or.inl framedIn) ?_ ?_ ?_
  · by_cases hcd : c = d
    · exact Or.inr (by simp [TCPServer.setConn, hcd])
    · refine Or.inl ?_
      rw [TCPServer.setConn]
      simp only [Function.update_of_ne hcd, closed,
        GameManager.departed_conn, TCPServer.setRegistered]
  · exact GameManager.departed_clientID (s.setRegistered d false) d c
  · exact fun g hmem => Or.inl (GameManager.mem_of_departed
      (s := s.setRegistered d false) hmem)

/-- An accepted connection is issued its id; nothing was framed on it yet. -/
theorem accepted
    (h : ConnHistory c tr s) (hinv : Inv s)
    (conn : s.conn c = .absent)
    (n : ClientDraw) {t : ServerTransition}
    (event : t.event = .accept c n) :
    ConnHistory c (tr ++ [t]) (s.accepted c (generateClientId n)) := by
  obtain ⟨hissued, hfirst⟩ := h.absent conn
  have hframed : firstPacket c (tr ++ [t]) = none := by
    rw [firstPacket_snoc, hfirst, framedIn, event]
    rfl
  constructor
  case absent => simp
  case authenticating =>
    intro id hconn
    have hid : generateClientId n = id := by
      simpa using hconn
    rw [issued_snoc, hissued]
    exact ⟨by simp [issuedIn, event, hid], hframed⟩
  case serving => simp
  case known =>
    intro id hid
    obtain ⟨p, hp, -⟩ := hid.first
    rw [hframed] at hp
    cases hp
  case member =>
    intro g hmem
    exact absurd hmem ((hinv.outsider c (Or.inl conn)).2 g)

/-- A first packet that passes is the proof that the client knows its id. -/
theorem authenticated
    (h : ConnHistory c tr s) {id : ClientID}
    (conn : s.conn c = .authenticating id)
    {p : Packet} {n : GameDraw} {t : ServerTransition}
    (passes : authenticate id p = .ok none)
    (event : t.event = .packet c p n) :
    ConnHistory c (tr ++ [t]) (s.authenticated c id) := by
  obtain ⟨hissued, hfirst⟩ := h.authenticating id conn
  obtain ⟨htype, hdata⟩ := authenticate_passes passes
  have hsigned : SignedIn c id (tr ++ [t]) := by
    refine ⟨issued_append hissued _, p, ?_, htype, hdata⟩
    rw [firstPacket_snoc, hfirst]
    simp [framedIn, event]
  constructor
  case absent => simp
  case authenticating => simp
  case serving => exact fun _ => ⟨id, hsigned⟩
  case known =>
    intro id' hid'
    rw [← hsigned.unique hid']
    simp
  case member => exact fun _ _ => ⟨id, hsigned⟩

/-- A first packet that is refused proves nothing. -/
theorem refused
    (h : ConnHistory c tr s) (hinv : Inv s) {id : ClientID}
    (conn : s.conn c = .authenticating id)
    {p : Packet} {n : GameDraw} {err : ServerError} {t : ServerTransition}
    (fails : authenticate id p = .ok (some err))
    (event : t.event = .packet c p n) :
    ConnHistory c (tr ++ [t]) ((s.closed c).server.setConn c .returned) := by
  obtain ⟨hissued, hfirst⟩ := h.authenticating id conn
  have hnone : ∀ id', ¬ SignedIn c id' (tr ++ [t]) := by
    intro id' hid'
    have hsame : some id = some id' :=
      (issued_append hissued _).symm.trans hid'.issued_eq
    obtain ⟨q, hq, htype, hdata⟩ := hid'.first
    rw [firstPacket_snoc, hfirst] at hq
    have hpq : p = q := by simpa [framedIn, event] using hq
    rw [← Option.some.inj hsame, ← hpq] at hdata
    rw [← hpq] at htype
    simp [authenticate, htype, hdata, bind, Except.bind, pure,
      Except.pure] at fails
  constructor
  case absent => simp [TCPServer.setConn]
  case authenticating => simp [TCPServer.setConn]
  case serving => simp [TCPServer.setConn]
  case known => exact fun id' hid' => absurd hid' (hnone id')
  case member =>
    intro g hmem
    exact absurd (GameManager.mem_of_departed
      (s := s.setRegistered c false) hmem)
      ((hinv.outsider c (Or.inr ⟨id, conn⟩)).2 g)

/-- Every step keeps what the connections remember. -/
theorem move
    {t : ServerTransition}
    (m : Move t)
    (hinv : Inv t.pre)
    (h : ConnHistory c tr t.pre) :
    ConnHistory c (tr ++ [t]) t.post := by
  by_cases hown : handlerOf t.event = some c
  swap
  · have hsame := m.untouched hown
    obtain ⟨hissued, hframed⟩ := unnoticed_of_handler hown
    exact h.keep hissued (Or.inl hframed) (Or.inl hsame.conn)
      (by rw [hsame.client]) (fun g hmem => Or.inl (hsame.members g hmem))
  cases m with
  | accept s d n conn =>
      cases hown
      exact h.accepted hinv conn n rfl
  | authenticate s d p n conn passes =>
      cases hown
      exact h.authenticated conn passes rfl
  | close s d closes =>
      cases closes with
      | badPacket n conn fails =>
          cases hown
          exact h.refused hinv conn fails rfl
      | timeout conn => exact h.close rfl rfl d
      | readError conn => exact h.close rfl rfl d
      | quit conn => exact h.close rfl rfl d
  | dispatch s d p n conn d' =>
      cases hown
      exact h.keep rfl (Or.inr conn) (Or.inl (by rw [d'.conn]))
        (d'.clientID c) (fun _ _ => Or.inr conn)
  | receive => cases hown
  | broadCast => cases hown

end ConnHistory

/-- The state after a run agrees with the history of the run. -/
theorem connHistory_of_run
    {vf : ValidationFunc} {s : TCPServer}
    (run : ServerRun vf tr s)
    (c : ClientPtr) :
    ConnHistory c tr s :=
  run.history_induction (J := ConnHistory c) (ConnHistory.init vf c)
    (fun _ _ run valid h =>
      ConnHistory.move (move_of_valid valid) (inv_of_run run) h)

/-- The event makes the server call a registered handler for the client. -/
def RunsHandler (s : TCPServer) (c : ClientPtr) : Event → Prop
  | .packet d p _ => d = c ∧ s.conn c = .serving ∧
      ∃ t handler, p.getType = .ok t ∧ handlers t = some handler
  | _ => False

section Runs

variable {vf : ValidationFunc} {s : TCPServer} {g : GamePtr} {p : Packet}

/-- A packet is queued by a signed-in connection and carries its id. -/
theorem signedIn_of_queued
    (run : ServerRun vf tr s)
    {t : ServerTransition}
    (ht : t ∈ tr)
    (hc : (c, p) ∈ queued g t) :
    SignedIn c (embeddedID p) tr := by
  obtain ⟨first, rest, rfl⟩ := List.append_of_mem ht
  have hpre := connHistory_of_run run.before.1 c
  obtain ⟨-, hconn, -, hown, -⟩ := mem_queued.mp hc
  obtain ⟨id, hid⟩ := hpre.serving hconn
  rw [← hown, hpre.known id hid]
  exact hid.append _

/-- `readLoop` never slices a packet out of range. -/
theorem receive_safe
    (run : ServerRun vf tr s)
    (g : GamePtr) :
    serverSystem.step s (.receive g) ≠ .panic := by
  simp only [serverSystem, step, receive]
  cases hholding : (s.game g).holding with
  | some q => simp
  | none =>
      cases hch : (s.game g).ch with
      | nil => simp
      | cons q rest =>
          have hq : Relayable q :=
            relayable_of_inFlight run (g := g) (by simp [inFlight, hch])
          obtain ⟨state, hstate⟩ := hq.logged
          have hdata : gameStateData q.payload =
              .ok (q.payload.drop gsDataOffset) :=
            sliceFrom_ok hq.payload_length
          simp [hq.getData, hstate, hdata, bind, Except.bind, pure,
            Except.pure]

/-- `broadCast` only panics where the validation function does. -/
theorem broadCast_safe
    (run : ServerRun vf tr s)
    (g : GamePtr)
    (safe : ∀ p e, vf p ≠ .error e) :
    serverSystem.step s (.broadCast g) ≠ .panic := by
  simp only [serverSystem, step, finishBroadCast]
  cases hholding : (s.game g).holding with
  | none => simp
  | some q =>
      have hq : Relayable q :=
        relayable_of_inFlight run (g := g) (by simp [inFlight, hholding])
      have hcast := hq.broadCast_eq s (s.game g)
      rw [(validationFunc_of_run run).2 g] at hcast
      cases hvf : vf q with
      | error e => exact absurd hvf (safe q e)
      | ok err =>
          cases err with
          | some err => simp [hcast, hvf]
          | none => simp [hcast, hvf]

/-- What a broadcast writes is a packet that was queued before. -/
theorem queued_of_broadCast
    (run : ServerRun vf tr s)
    {t : ServerTransition}
    (ht : t ∈ tr)
    (event : t.event = .broadCast g)
    {w : Write}
    (hw : w ∈ t.out) :
    ∃ t' ∈ tr, ∃ c, (c, ⟨w.data⟩) ∈ queued g t' := by
  obtain ⟨first, rest, rfl⟩ := List.append_of_mem ht
  obtain ⟨hpre, hvalid, -⟩ := run.before
  cases move_of_valid hvalid with
  | broadCast s' g' holding writes =>
      cases event
      rename_i q out
      have hq : q ∈ inFlight g s' := by
        simp [inFlight, show (s'.game g).holding = _ from holding]
      rw [(relayable_of_inFlight hpre hq).broadCast_eq] at writes
      have hdata : w.data = q.data := by
        split at writes
        · cases writes
        · cases writes
          cases hw
        · cases writes
          obtain ⟨d, -, rfl⟩ := List.mem_map.mp hw
          rfl
      obtain ⟨t', ht', c, hc⟩ := sender_of_inFlight hpre hq
      exact ⟨t', List.mem_append_left _ ht', c, by rw [hdata]; exact hc⟩
  | accept => cases event
  | authenticate => cases event
  | close s' c closes => cases closes <;> cases event
  | dispatch => cases event
  | receive => cases event

/--
Authentication over whole runs.  A registered handler only runs for a client,
and a client is only in a game, if the first packet framed on its connection
returned the id issued to it; from then on the client has this id.  Whatever
is in flight in a game is long enough for `readLoop` and `broadCast` and
carries the id of the signed-in connection that queued it, so neither of
them panics unless the validation function does.  With distinct ids, nothing
that is relayed carries the id of a connection other than its sender.
-/
theorem authentication
    (run : ServerRun vf tr s) :
    (∀ c e, RunsHandler s c e → ∃ id, SignedIn c id tr) ∧
    (∀ c g, c ∈ (s.game g).clients → ∃ id, SignedIn c id tr) ∧
    (∀ first rest m c id, tr = first ++ rest → ServerRun vf first m →
      SignedIn c id first →
        (m.client c).clientID = id ∧ (s.client c).clientID = id) ∧
    (∀ g p, p ∈ inFlight g s →
      gsDataOffset ≤ p.payload.length ∧
        ∃ t ∈ tr, ∃ c, (c, p) ∈ queued g t ∧
          SignedIn c (embeddedID p) tr) ∧
    (∀ g, serverSystem.step s (.receive g) ≠ .panic) ∧
    ((∀ p e, vf p ≠ .error e) →
      ∀ g, serverSystem.step s (.broadCast g) ≠ .panic) ∧
    (DistinctIDs tr → ∀ t ∈ tr, ∀ g, t.event = .broadCast g →
      ∀ w ∈ t.out,
        (∃ t' ∈ tr, ∃ c, (c, ⟨w.data⟩) ∈ queued g t') ∧
          ∀ t' ∈ tr, ∀ c, (c, ⟨w.data⟩) ∈ queued g t' →
            ∀ d, issued d tr = some (embeddedID ⟨w.data⟩) → d = c) := by
  refine ⟨?_, ?_, ?_, ?_, receive_safe run, ?_, ?_⟩
  · intro c e hruns
    cases e with
    | packet d p n => exact (connHistory_of_run run c).serving hruns.2.1
    | _ => exact hruns.elim
  · intro c g hmem
    exact (connHistory_of_run run c).member g hmem
  · rintro first rest m c id rfl hfirst hid
    exact ⟨(connHistory_of_run hfirst c).known id hid,
      (connHistory_of_run run c).known id (hid.append rest)⟩
  · intro g p hp
    obtain ⟨t, ht, c, hc⟩ := sender_of_inFlight run hp
    exact ⟨(relayable_of_inFlight run hp).payload_length, t, ht, c, hc,
      signedIn_of_queued run ht hc⟩
  · intro hsafe g
    exact broadCast_safe run g hsafe
  · intro hdistinct t ht g event w hw
    refine ⟨queued_of_broadCast run ht event hw, ?_⟩
    intro t' ht' c hc d hd
    have hid := (signedIn_of_queued run ht' hc).issued_eq
    exact hdistinct d c _ hd hid

/-- A client creates a game and sends a game state to it. -/
def stateEvents : List Event :=
  signIn 0 0 ++
    [.packet 0 (constructPacket encString packetCreateGame []) 7,
      .packet 0 (statePacket 0 [9]) 0]

/-- The queued game state comes from a connection that has signed in. -/
theorem authentication_queued :
    ∃ tr s, ServerRun nopValidationFunc tr s ∧
      tr.map Transition.event = stateEvents ∧
      (s.game 0).ch = [statePacket 0 [9]] ∧
      ∃ t ∈ tr, ∃ c, (c, statePacket 0 [9]) ∈ queued 0 t ∧
        SignedIn c (embeddedID (statePacket 0 [9])) tr := by
  have hexec : (serverSystem.exec (newTCPServer nopValidationFunc)
      stateEvents).map (fun r => (r.2.game 0).ch) =
      some [statePacket 0 [9]] := by
    decide +kernel
  obtain ⟨tr, s, hrun, hevents, hch⟩ := System.run_of_exec hexec
  have hch' : (s.game 0).ch = [statePacket 0 [9]] := hch
  obtain ⟨-, -, -, hqueued, -⟩ := authentication hrun
  exact ⟨tr, s, hrun, hevents, hch',
    (hqueued 0 _ (by simp [inFlight, hch'])).2⟩

end Runs

end Authentication

end Server
end TurnBasedGame
