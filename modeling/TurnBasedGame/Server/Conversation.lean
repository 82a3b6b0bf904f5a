import TurnBasedGame.Server.SessionRefinement
import TurnBasedGame.Server.Wire

/-!
# The conversation of a client with the process

A client that sends well-formed packets over its socket and reads what comes
back through a framer takes part in the session protocol, whatever the other
clients do and however the goroutines are scheduled: the packets it sends make
the requests of a run of its session, and apart from game states it gets its id
and then the replies of this run, each once and in order.
-/

namespace TurnBasedGame
namespace Server

open Kernel

section Conversation

open TCPServer

/-- The packet a connection is sent when it is accepted. -/
def authPacket (id : ClientID) : Packet :=
  constructPacket encBytes packetAuth id

/-- A reply as the client gets it. -/
def Reply.packet (r : Reply) : Packet :=
  ⟨(r.write 0).data⟩

/-- Everything but a game state. -/
def IsControl (p : Packet) : Prop :=
  p.getType ≠ .ok packetGameState

instance : DecidablePred IsControl :=
  fun _ => inferInstanceAs (Decidable (_ ≠ _))

/-- What a step writes to a client, apart from game states. -/
def controlIn (c : ClientPtr) (t : ServerTransition) : List Packet :=
  ((t.out.filter (fun w => w.dest = c)).map (fun w => ⟨w.data⟩)).filter
    IsControl

/-- What a client is told in a step, by what the step is about. -/
def noticeIn (c : ClientPtr) (t : ServerTransition) : List Packet :=
  (issuedIn c t).toList.map authPacket ++
    (sessionView c t).toList.flatMap (fun io => io.2.map Reply.packet)

/-- A request that a packet makes; `id` is the id its client was issued. -/
def Makes (id : ClientID) (p : Packet) : Request → Prop
  | .healthCheck => p.getType = .ok packetHealthCheckReq
  | .createGame drawn =>
      p.getType = .ok packetCreateGame ∧ ∃ n, drawn = generateGameId n
  | .joinGame game _ => p.getType = .ok packetJoinGame ∧ game = p.payload
  | .leaveGame => p.getType = .ok packetLeaveGame
  | .startGame _ => p.getType = .ok packetStartGame
  | .gameState own =>
      p.getType = .ok packetGameState ∧ own = decide (id = embeddedID p)
  | .disconnect => p.getType = .ok packetDisconnect
  | .unknown => ∃ type, p.getType = .ok type ∧ handlers type = none

/-- A served packet makes the request that the server takes it for. -/
theorem makes_requestOf
    {s : TCPServer} {c : ClientPtr} {p : Packet} {type : PacketType}
    (n : GameDraw)
    (htype : p.getType = .ok type) :
    Makes (s.client c).clientID p (requestOf s c p n type) := by
  have hof : ∀ {type'}, type = type' → p.getType = .ok type' :=
    fun h => h ▸ htype
  unfold requestOf
  split_ifs with hhealth hcreate hjoin hstart hstate hleave hdisconnect
  · exact hof hhealth
  · exact ⟨hof hcreate, n, rfl⟩
  · exact ⟨hof hjoin, rfl⟩
  · exact hof hstart
  · exact ⟨hof hstate, rfl⟩
  · exact hof hleave
  · exact hof hdisconnect
  · exact ⟨type, htype, by simp [handlers, *]⟩

@[simp] theorem Reply.write_dest
    (c : ClientPtr) (r : Reply) :
    (r.write c).dest = c := by
  cases r <;> rfl

/-- A reply reads the same whoever gets it. -/
@[simp] theorem Reply.write_data
    (c : ClientPtr) (r : Reply) :
    (⟨(r.write c).data⟩ : Packet) = r.packet := by
  cases r <;> rfl

section Told

variable {c : ClientPtr} {t : ServerTransition}

/-- Serving a request writes its replies and nothing else to the client. -/
theorem controlIn_of_request
    {r : Request}
    (m : Move t)
    (hinv : Inv t.pre)
    (hr : request c t = some r) :
    controlIn c t = noticeIn c t := by
  have hother : ∀ g, t.event ≠ .broadCast g := by
    intro g hevent
    simp [request, hevent] at hr
  have hunissued : issuedIn c t = none := by
    cases hevent : t.event with
    | accept d n => simp [request, hevent] at hr
    | _ => simp [issuedIn, hevent]
  have hwrites := (serves_of_move m hinv hr).writes
  have hcontrol : ∀ reply ∈ ((session c t.pre).answer r).2,
      IsControl reply.packet := by
    intro reply hreply
    have hw : reply.write c ∈ t.out := by
      rw [hwrites]
      exact List.mem_map_of_mem hreply
    have hkind := (m.isReply hinv hother _ hw).isFrame.2
    rwa [Reply.write_data] at hkind
  have hown : (((session c t.pre).answer r).2.map (Reply.write c)).filter
      (fun w => w.dest = c) =
        ((session c t.pre).answer r).2.map (Reply.write c) :=
    List.filter_eq_self.mpr (by simp)
  have hkept : (((session c t.pre).answer r).2.map Reply.packet).filter
      IsControl = ((session c t.pre).answer r).2.map Reply.packet :=
    List.filter_eq_self.mpr (by simpa using hcontrol)
  rw [controlIn, hwrites, hown, List.map_map]
  simp only [Function.comp_def, Reply.write_data, hkept]
  simp [noticeIn, hunissued, sessionView, hr]

/-- Other steps tell the client its id or nothing. -/
theorem controlIn_of_bypass
    (m : Move t)
    (hinv : Inv t.pre)
    (states : ∀ g, t.event = .broadCast g → ∀ w ∈ t.out,
      Packet.getType ⟨w.data⟩ = .ok packetGameState)
    (hr : request c t = none) :
    controlIn c t = noticeIn c t := by
  have hwrites := (bypasses_of_move m hinv hr).writes
  rw [noticeIn, sessionView, hr]
  simp only [Option.map_none, Option.toList_none, List.flatMap_nil,
    List.append_nil]
  by_cases haccept : ∃ n, t.event = .accept c n
  · obtain ⟨n, hevent⟩ := haccept
    cases m with
    | accept s d n' conn =>
        cases hevent
        have hdata : (writePacket c encBytes packetAuth
            (generateClientId n)).data =
          (authPacket (generateClientId n)).data := rfl
        have hdest : (writePacket c encBytes packetAuth
            (generateClientId n)).dest = c := rfl
        have hcontrol : IsControl (authPacket (generateClientId n)) := by
          have htype := (constructPacket_read (generateClientId n)
            (by decide : encBytes < 4) (by decide : packetAuth < 64)).2.1
          rw [IsControl, authPacket, htype]
          decide
        simp [controlIn, issuedIn, hdest, hdata, hcontrol]
    | close s d closes => cases closes <;> cases hevent
    | _ => cases hevent
  · have hunissued : issuedIn c t = none := by
      cases hevent : t.event with
      | accept d n =>
          have hdc : d ≠ c := fun h => haccept ⟨n, h ▸ hevent⟩
          simp [issuedIn, hevent, hdc]
      | _ => simp [issuedIn, hevent]
    rw [hunissued, controlIn]
    simp only [Option.toList_none, List.map_nil]
    refine List.filter_eq_nil_iff.mpr fun p hp => ?_
    obtain ⟨w, hw, rfl⟩ := List.mem_map.mp hp
    obtain ⟨hw, hdest⟩ := List.mem_filter.mp hw
    rcases hwrites w hw (by simpa using hdest) with hevent | ⟨g, hevent⟩
    · exact absurd hevent haccept
    · have hstate := states g hevent w hw
      simpa using fun hcontrol : IsControl ⟨w.data⟩ => hcontrol hstate

end Told

section Runs

variable {vf : ValidationFunc} {tr : List ServerTransition} {s : TCPServer}
variable {c : ClientPtr}

/-- Everything a client is told is its id and the replies to its requests. -/
theorem control_eq_notices
    (run : ServerRun vf tr s)
    (c : ClientPtr) :
    tr.flatMap (controlIn c) = tr.flatMap (noticeIn c) := by
  refine List.flatMap_congr fun t ht => ?_
  have hm := moves_of_run run t ht
  have hinv := inv_of_run_pre run t ht
  cases hr : request c t with
  | some r => exact controlIn_of_request hm hinv hr
  | none =>
      exact controlIn_of_bypass hm hinv (fun g hevent w hw =>
        (due_of_broadCast run ht hevent hw).2.2.type) hr

theorem sessionTrace_snoc
    (c : ClientPtr) (tr : List ServerTransition) (t : ServerTransition) :
    sessionTrace c (tr ++ [t]) = sessionTrace c tr ++ sessionTrace c [t] :=
  List.filterMap_append

/-- The replies of a session, as the client gets them. -/
def repliesOf (strace : List (Transition Session Request Reply)) :
    List Packet :=
  strace.flatMap (fun a => a.out.map Reply.packet)

theorem noticeIn_eq
    (c : ClientPtr) (t : ServerTransition) :
    noticeIn c t = (issuedIn c t).toList.map authPacket ++
      repliesOf (sessionTrace c [t]) := by
  cases h : sessionView c t <;> simp [noticeIn, repliesOf, sessionTrace, h]

/-- Only a connection that is served makes requests. -/
theorem serving_of_request
    {t : ServerTransition} {r : Request}
    (m : Move t)
    (hr : request c t = some r) :
    t.pre.conn c = .serving := by
  cases m with
  | accept s d n conn => cases hr
  | authenticate s d p n conn passes =>
      simp [request, show s.conn d = _ from conn] at hr
  | close s d closes =>
      cases closes with
      | badPacket n conn fails =>
          simp [request, show s.conn d = _ from conn] at hr
      | timeout conn => cases hr
      | readError conn =>
          have hdc : d = c := by
            by_contra hne
            simp [request, hne] at hr
          exact hdc ▸ conn
      | quit conn =>
          have hdc : d = c := by
            by_contra hne
            simp [request, hne] at hr
          exact hdc ▸ conn
  | dispatch s d p n conn d' =>
      have hdc : d = c := by
        by_contra hne
        rw [request_other rfl hne] at hr
        cases hr
      exact hdc ▸ conn
  | receive s g idle front => cases hr
  | broadCast s g holding writes => cases hr

/-- The step that issues an id makes no request. -/
theorem accept_of_issued
    {t : ServerTransition} {id : ClientID}
    (m : Move t)
    (h : issuedIn c t = some id) :
    t.pre.conn c = .absent ∧ sessionTrace c [t] = [] := by
  cases m with
  | accept s d n conn =>
      have hdc : d = c := by
        by_contra hne
        simp [issuedIn, hne] at h
      exact ⟨hdc ▸ conn, rfl⟩
  | close s d closes => cases closes <;> cases h
  | _ => cases h

/-- The id comes first, and then the replies. -/
theorem notices_in_order
    (run : ServerRun vf tr s)
    (c : ClientPtr) :
    tr.flatMap (noticeIn c) = (issued c tr).toList.map authPacket ++
      repliesOf (sessionTrace c tr) := by
  refine (run.history_induction (J := fun tr _ =>
    tr.flatMap (noticeIn c) = (issued c tr).toList.map authPacket ++
        repliesOf (sessionTrace c tr) ∧
      (issued c tr = none → sessionTrace c tr = [])) ⟨rfl, fun _ => rfl⟩
    fun tr t run valid ⟨hnotices, hnone⟩ => ?_).1
  have m := move_of_valid valid
  have hhistory := connHistory_of_run run c
  rw [List.flatMap_append, List.flatMap_singleton, hnotices, noticeIn_eq,
    issued_snoc, sessionTrace_snoc]
  cases hissue : issuedIn c t with
  | some id =>
      obtain ⟨habsent, hsilent⟩ := accept_of_issued m hissue
      have hunissued := (hhistory.absent habsent).1
      simp [hunissued, hsilent, hnone hunissued, repliesOf]
  | none =>
      refine ⟨by simp [repliesOf], fun hunissued => ?_⟩
      rw [Option.or_none] at hunissued
      rw [hnone hunissued, List.nil_append]
      cases hr : request c t with
      | none => simp [sessionTrace, sessionView, hr]
      | some r =>
          obtain ⟨id, hsigned⟩ := hhistory.serving (serving_of_request m hr)
          rw [hsigned.issued_eq] at hunissued
          cases hunissued

/-- The packets a connection has handed to the server, in order. -/
def framed (c : ClientPtr) (tr : List ServerTransition) : List Packet :=
  tr.flatMap (fun t => (framedIn c t).toList)

theorem framed_snoc
    (c : ClientPtr) (tr : List ServerTransition) (t : ServerTransition) :
    framed c (tr ++ [t]) = framed c tr ++ (framedIn c t).toList := by
  simp [framed]

theorem framed_eq_nil_iff :
    framed c tr = [] ↔ firstPacket c tr = none := by
  simp [framed, firstPacket]

/-- The requests of the session, in order. -/
def requestsOf (c : ClientPtr) (tr : List ServerTransition) : List Request :=
  (sessionTrace c tr).map Transition.event

theorem requestsOf_snoc
    (c : ClientPtr) (tr : List ServerTransition) (t : ServerTransition) :
    requestsOf c (tr ++ [t]) = requestsOf c tr ++ (request c t).toList := by
  rw [requestsOf, sessionTrace_snoc, List.map_append]
  cases h : request c t <;> simp [requestsOf, sessionTrace, sessionView, h]

/--
The packets after the first have made all requests, but for the end of the
connection.
-/
structure Asked (c : ClientPtr) (id : ClientID) (framed : List Packet)
    (requests : List Request) (s : TCPServer) : Prop where
  made : ∃ made, List.Forall₂ (Makes id) framed.tail made ∧
    (requests = made ∨
      s.conn c = .returned ∧ requests = made ++ [.disconnect])

/-- Steps that neither frame a packet nor make a request. -/
theorem Asked.quiet
    {id : ClientID} {framed : List Packet} {requests : List Request}
    {s' : TCPServer}
    (h : Asked c id framed requests s)
    (conn : s.conn c = .returned → s'.conn c = .returned) :
    Asked c id framed requests s' := by
  obtain ⟨made, hmade, hrequests⟩ := h.made
  exact ⟨made, hmade, hrequests.imp_right fun h => ⟨conn h.1, h.2⟩⟩

/-- Before the first packet nothing is asked for. -/
theorem Asked.requests_eq_nil
    {id : ClientID} {requests : List Request}
    (h : Asked c id [] requests s)
    (conn : s.conn c ≠ .returned) :
    requests = [] := by
  obtain ⟨made, hmade, hrequests⟩ := h.made
  cases hmade
  exact hrequests.resolve_right fun h => conn h.1

/-- The first packet, with which a connection signs in or fails to. -/
theorem Asked.first
    {id : ClientID} {requests : List Request} {s' : TCPServer}
    (h : Asked c id [] requests s)
    (conn : s.conn c ≠ .returned) (p : Packet) :
    Asked c id [p] requests s' :=
  ⟨[], .nil, Or.inl (h.requests_eq_nil conn)⟩

/-- A packet that is served makes the next request. -/
theorem Asked.served
    {id : ClientID} {framed : List Packet} {requests : List Request}
    {s' : TCPServer}
    (h : Asked c id framed requests s)
    (conn : s.conn c ≠ .returned)
    (signedIn : framed ≠ []) {p : Packet} {r : Request}
    (makes : Makes id p r) :
    Asked c id (framed ++ [p]) (requests ++ [r]) s' := by
  obtain ⟨made, hmade, hrequests⟩ := h.made
  have heq := hrequests.resolve_right fun h => conn h.1
  refine ⟨made ++ [r], ?_, Or.inl (by rw [heq])⟩
  rw [List.tail_append_of_ne_nil signedIn]
  exact List.rel_append hmade (.cons makes .nil)

/-- The end of the connection is the last request. -/
theorem Asked.ended
    {id : ClientID} {framed : List Packet} {requests : List Request}
    {s' : TCPServer}
    (h : Asked c id framed requests s)
    (conn : s.conn c ≠ .returned)
    (returned : s'.conn c = .returned) :
    Asked c id framed (requests ++ [.disconnect]) s' := by
  obtain ⟨made, hmade, hrequests⟩ := h.made
  have heq := hrequests.resolve_right fun h => conn h.1
  exact ⟨made, hmade, Or.inr ⟨returned, by rw [heq]⟩⟩

/-- A step of the client itself. -/
theorem asked_of_own
    {t : ServerTransition} {id : ClientID}
    (m : Move t)
    (hinv : Inv t.pre)
    (hhistory : ConnHistory c tr t.pre)
    (own : handlerOf t.event = some c)
    (issue : ∀ id', SignedIn c id' tr → id' = id)
    (h : Asked c id (framed c tr) (requestsOf c tr) t.pre) :
    Asked c id (framed c (tr ++ [t])) (requestsOf c (tr ++ [t])) t.post := by
  rw [framed_snoc, requestsOf_snoc]
  cases m with
  | accept s d n conn =>
      cases own
      simpa [framedIn, request] using
        h.quiet fun hret => by simp [show s.conn c = _ from conn] at hret
  | authenticate s d p n conn passes =>
      cases own
      have hconn : s.conn c = .authenticating _ := conn
      have hnone := framed_eq_nil_iff.mpr (hhistory.authenticating _ hconn).2
      rw [hnone] at h ⊢
      simpa [framedIn, request, hconn] using h.first (by simp [hconn]) p
  | close s d closes =>
      have hreturned : ((s.closed d).server.setConn d .returned).conn d =
          .returned := by
        simp [setConn]
      cases closes with
      | badPacket n conn fails =>
          cases own
          have hconn : s.conn c = .authenticating _ := conn
          have hnone :=
            framed_eq_nil_iff.mpr (hhistory.authenticating _ hconn).2
          rw [hnone] at h ⊢
          simpa [framedIn, request, hconn] using h.first (by simp [hconn]) _
      | timeout conn =>
          cases own
          simpa [framedIn, request] using h.quiet fun _ => hreturned
      | readError conn =>
          cases own
          have hconn : s.conn c = .serving := conn
          simpa [framedIn, request] using h.ended (by simp [hconn]) hreturned
      | quit conn =>
          cases own
          have hconn : s.conn c = .serving := conn
          simpa [framedIn, request] using h.ended (by simp [hconn]) hreturned
  | dispatch s d p n conn d' =>
      cases own
      have hconn : s.conn c = .serving := conn
      obtain ⟨id', hsigned⟩ := hhistory.serving hconn
      have hid : (s.client c).clientID = id :=
        (hhistory.known id' hsigned).trans (issue id' hsigned)
      have hframed : framed c tr ≠ [] := by
        obtain ⟨q, hq, -⟩ := hsigned.first
        simp [framed_eq_nil_iff, hq]
      obtain ⟨type, htype, -⟩ := Serves.dispatched hinv d'
      rw [request_packet rfl conn htype]
      simpa [framedIn] using h.served (by simp [hconn]) hframed
        (hid ▸ makes_requestOf n htype)
  | receive s g idle front => cases own
  | broadCast s g holding writes => cases own

theorem request_none_of_handler
    {t : ServerTransition}
    (other : handlerOf t.event ≠ some c) :
    request c t = none := by
  have hne : ∀ {d : ClientPtr}, handlerOf t.event = some d → d ≠ c := by
    rintro d hd rfl
    exact other hd
  cases hevent : t.event with
  | packet d p n => exact request_other hevent (hne (by rw [hevent]; rfl))
  | readError d => simp [request, hevent, hne (by rw [hevent]; rfl)]
  | quit d => simp [request, hevent, hne (by rw [hevent]; rfl)]
  | _ => simp [request, hevent]

/-- In every run, the packets of a client after its first make its requests. -/
theorem asked_of_run
    (run : ServerRun vf tr s)
    {id : ClientID}
    (issue : ∀ id', SignedIn c id' tr → id' = id) :
    Asked c id (framed c tr) (requestsOf c tr) s := by
  refine run.history_induction (J := fun tr s =>
    (∀ id', SignedIn c id' tr → id' = id) →
      Asked c id (framed c tr) (requestsOf c tr) s)
    (fun _ => ⟨[], .nil, Or.inl rfl⟩) ?_ issue
  intro tr t run valid h hissue
  have m := move_of_valid valid
  have hasked := h fun id' hsigned => hissue id' (hsigned.append [t])
  by_cases hown : handlerOf t.event = some c
  · exact asked_of_own m (inv_of_run run) (connHistory_of_run run c) hown
      (fun id' hsigned => hissue id' (hsigned.append [t])) hasked
  · have hframed := (unnoticed_of_handler hown).2
    have hrequest := request_none_of_handler hown
    rw [framed_snoc, requestsOf_snoc, hframed, hrequest]
    simpa using hasked.quiet fun hret => by rw [(m.untouched hown).conn, hret]

end Runs

section Streams

variable {vf : ValidationFunc} {tr : List ProcessTransition} {s : Process}
variable {c : ClientPtr}

/-- What the process tells a client, apart from game states. -/
theorem control_of_sentTo
    (run : ProcessRun vf tr s)
    (c : ClientPtr) :
    ((sentTo c tr).map Packet.mk).filter IsControl =
      (issued c (serverTrace tr)).toList.map authPacket ++
        repliesOf (sessionTrace c (serverTrace tr)) := by
  have hserver := serverRun_of_run run
  rw [← notices_in_order hserver c, ← control_eq_notices hserver c, sentTo,
    ← serverTrace_out run]
  simp only [List.filter_flatMap, List.map_flatMap]
  refine List.flatMap_congr fun t _ => ?_
  rw [controlIn, List.map_map]
  rfl

/--
The conversation of a client with the process.  A client sends well-formed
packets, each leaving room for one more read, and reads what it is sent through
a framer.  Whatever the other clients send and however the goroutines are
scheduled, the packets after its first that the server has handled, which are
the first of those it sent, make the requests of a run of its session, in order
and but for the end of the connection; and what it gets, apart from game states,
begins with its id and then the replies of this run, and is all of them once it
has read everything.
-/
theorem conversation
    (run : ProcessRun vf tr s)
    (c : ClientPtr)
    {id : ClientID}
    (issue : issued c (serverTrace tr) = some id)
    (pkts : List WirePacket)
    (small : ∀ p ∈ pkts, p.bytes.length + readSize ≤ packetMaxSize + 1)
    (sent : readBytes c tr <+: (pkts.map WirePacket.bytes).flatten)
    {reads : List FramerTransition} {f : FramerState}
    (client : framerSystem.Run freshFramer reads f)
    (fits : ∀ t ∈ reads, ChunkFits t)
    (stream : (pushedChunks reads).flatten <+: (sentTo c tr).flatten) :
    ∃ strace made,
      sessionSystem.Run .outside strace (session c s.server) ∧
      (served c tr).map Packet.data <+: pkts.map WirePacket.bytes ∧
      List.Forall₂ (Makes id) (served c tr).tail made ∧
      (strace.map Transition.event = made ∨
        strace.map Transition.event = made ++ [.disconnect]) ∧
      (sentPackets reads).filter IsControl <+:
        authPacket id :: repliesOf strace ∧
      (f.looping = false → (pushedChunks reads).flatten = (sentTo c tr).flatten →
        (sentPackets reads).filter IsControl =
          authPacket id :: repliesOf strace) := by
  have hserver := serverRun_of_run run
  have hframes : ∀ p ∈ sentTo c tr, packetFraming.IsFrame p :=
    fun p hp => (write_cases run (mem_sentTo.mp hp)).1
  obtain ⟨-, hserved, -⟩ := follows_of_server run c pkts small sent
  obtain ⟨later, hlater, -⟩ := hserved.sent
  have hread := follows_of_client run c client fits stream
  obtain ⟨rest, hrest, -⟩ := hread.sent
  have hsigned : ∀ id', SignedIn c id' (serverTrace tr) → id' = id :=
    fun id' hsigned => Option.some.inj (hsigned.issued_eq.symm.trans issue)
  obtain ⟨made, hmade, hrequests⟩ := (asked_of_run hserver hsigned).made
  have hmk : ((sentPackets reads).map Packet.data).map Packet.mk =
      sentPackets reads := by
    rw [List.map_map]
    exact List.map_id _
  have hstory : ((sentTo c tr).map Packet.mk).filter IsControl =
      authPacket id :: repliesOf (sessionTrace c (serverTrace tr)) := by
    rw [control_of_sentTo run c, issue]
    rfl
  refine ⟨sessionTrace c (serverTrace tr), made,
    sessionTrace_run hserver c, ?_, hmade, hrequests.imp_right And.right, ?_, ?_⟩
  · rw [hlater, ← served_queue run, List.map_append, List.append_assoc]
    exact List.prefix_append _ _
  · have hprefix : sentPackets reads <+: (sentTo c tr).map Packet.mk := by
      rw [hrest, List.map_append, hmk]
      exact List.prefix_append _ _
    rw [← hstory]
    exact hprefix.filter _
  · intro hwaits hall
    have hsplit := hread.sent_all hframes hwaits
    rw [hall] at hsplit
    have hwhole : packetFraming.split (sentTo c tr).flatten =
        (sentTo c tr, []) := by
      simpa using Framing.split_frames hframes (r := []) rfl
    rw [hwhole] at hsplit
    rw [← hmk, hsplit, hstory]

/-- What the second client of a relayed game state sends. -/
def joinPackets : List Packet :=
  [constructPacket encBytes packetAuth (generateClientId 1),
    constructPacket encString packetJoinGame (generateGameId 7)]

theorem joinPackets_wire :
    ∃ pkts : List WirePacket,
      pkts.map WirePacket.bytes = joinPackets.map Packet.data ∧
      ∀ p ∈ pkts, p.bytes.length + readSize ≤ packetMaxSize + 1 := by
  have hgame : (generateGameId 7).length + packetHeaderSize <
      packetMaxSize := by
    rw [generateGameId_length]
    decide
  have hsmall : ∀ data ∈ joinPackets.map Packet.data,
      data.length + readSize ≤ packetMaxSize + 1 := by
    decide +kernel
  refine ⟨[authWire 1,
    ⟨encString, packetJoinGame, generateGameId 7, by decide, by decide,
      hgame⟩], rfl, fun p hp => hsmall p.bytes ?_⟩
  exact List.mem_map_of_mem (f := WirePacket.bytes) hp

/-- It has read everything: its id, and that it has joined. -/
theorem conversation_relay :
    ∃ tr s reads f, ProcessRun nopValidationFunc tr s ∧
      tr.map Transition.event = relayRun ∧
      framerSystem.Run freshFramer reads f ∧
      reads.map Transition.event = relayReads ∧
      ∃ strace, sessionSystem.Run .outside strace
          (.inGame (generateGameId 7)) ∧
        (sentPackets reads).filter IsControl =
          authPacket (generateClientId 1) :: repliesOf strace := by
  have hexec : (processSystem.exec (newProcess nopValidationFunc)
      relayRun).map (fun r => ((sentTo 1 r.1).flatten, readBytes 1 r.1,
        issued 1 (serverTrace r.1), session 1 r.2.server)) =
      some (relayBytes, (joinPackets.map Packet.data).flatten,
        some (generateClientId 1), .inGame (generateGameId 7)) := by
    decide +kernel
  have hreads : (framerSystem.exec freshFramer relayReads).map (fun r =>
      (r.1.all (fun t => decide (ChunkFits t)), (pushedChunks r.1).flatten,
        r.2.looping)) =
      some (true, relayBytes, false) := by
    decide +kernel
  obtain ⟨tr, s, hrun, hevents, hend⟩ := System.run_of_exec hexec
  obtain ⟨reads, f, hclient, hread, hgot⟩ := System.run_of_exec hreads
  simp only [Prod.mk.injEq, List.all_eq_true, decide_eq_true_eq] at hend hgot
  obtain ⟨hwritten, hsent, hissued, hsession⟩ := hend
  obtain ⟨hfits, hpushed, hwaits⟩ := hgot
  obtain ⟨pkts, hpkts, hsmall⟩ := joinPackets_wire
  obtain ⟨strace, made, hstrace, -, -, -, -, hall⟩ := conversation hrun 1
    hissued pkts hsmall (by rw [hsent, hpkts]) hclient hfits
    (by rw [hpushed, hwritten])
  exact ⟨tr, s, reads, f, hrun, hevents, hclient, hread, strace,
    hsession ▸ hstrace, hall hwaits (by rw [hpushed, hwritten])⟩

end Streams

end Conversation

end Server
end TurnBasedGame
