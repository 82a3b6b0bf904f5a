import TurnBasedGame.Server.ServerInvariant

/-!
# The channel of a game

What the handlers put into the channel of a game, what `readLoop` takes out of
it and what it hands to `broadCast`, each read off the recorded steps of a
run.  Over a whole run the channel neither loses nor duplicates nor reorders
anything.
-/

namespace TurnBasedGame
namespace Server

open Kernel

section GameChannel

open TCPServer

/-- The packet a game-state request puts into a channel, with its sender. -/
def queued (g : GamePtr) (t : ServerTransition) :
    List (ClientPtr × Packet) :=
  match t.event with
  | .packet c p _ =>
      if t.pre.conn c = .serving ∧ p.getType = .ok packetGameState ∧
          (t.pre.client c).clientID = embeddedID p ∧
          (t.pre.client c).gamePump = some g then
        [(c, p)]
      else
        []
  | _ => []

/-- The packet `readLoop` takes out of the channel. -/
def dequeued (g : GamePtr) (t : ServerTransition) : List Packet :=
  match t.event with
  | .receive g' => if g' = g then (t.pre.game g).ch.head?.toList else []
  | _ => []

/-- The packet `readLoop` hands to `broadCast`. -/
def relayed (g : GamePtr) (t : ServerTransition) : List Packet :=
  match t.event with
  | .broadCast g' => if g' = g then (t.pre.game g).holding.toList else []
  | _ => []

/-- Packets that were queued for a game and not broadcast yet. -/
def inFlight (g : GamePtr) (s : TCPServer) : List Packet :=
  (s.game g).holding.toList ++ (s.game g).ch

variable {g : GamePtr} {c : ClientPtr} {p : Packet}

/-- What a queued packet says about the step that queued it. -/
theorem mem_queued
    {t : ServerTransition} :
    (c, p) ∈ queued g t ↔
      (∃ n, t.event = .packet c p n) ∧ t.pre.conn c = .serving ∧
        p.getType = .ok packetGameState ∧
        (t.pre.client c).clientID = embeddedID p ∧
        (t.pre.client c).gamePump = some g := by
  unfold queued
  constructor
  · intro hmem
    split at hmem
    case h_1 d q n hevent =>
      split_ifs at hmem with hsent
      · cases List.mem_singleton.mp hmem
        exact ⟨⟨n, hevent⟩, hsent⟩
      · cases hmem
    case h_2 => cases hmem
  · rintro ⟨⟨n, hevent⟩, hsent⟩
    simp only [hevent]
    rw [if_pos hsent]
    exact List.mem_singleton_self _

/-- How a game-state request ends. -/
theorem Dispatched.gameState
    {s s' : TCPServer} {n : GameDraw} {out : List Write}
    (d : Dispatched s c p n s' out)
    (type : p.getType = .ok packetGameState) :
    packetHeaderSize + gsDataOffset ≤ p.data.length ∧
      (((s.client c).clientID ≠ embeddedID p ∧ s' = s) ∨
        ((s.client c).clientID = embeddedID p ∧
          ∃ g, (s.client c).gamePump = some g ∧
            (s.game g).ch.length < gameChanCap ∧ s' = s.enqueued g p ∧
            out = [])) := by
  have hother : ∀ {type' : PacketType}, p.getType = .ok type' →
      type' ≠ packetGameState → False := by
    intro type' htype hne
    rw [type] at htype
    exact hne (Except.ok.inj htype).symm
  have hsize : ∀ {data : List UInt8} {id : ClientID},
      p.getData = .ok data → gameStateClientID data = .ok id →
        packetHeaderSize + gsDataOffset ≤ p.data.length ∧
          embeddedID p = id := by
    intro data id hdata hid
    obtain ⟨hheader, rfl⟩ := getData_eq_ok_iff.mp hdata
    obtain ⟨hlen, rfl⟩ := gameStateClientID_eq_ok_iff.mp hid
    rw [Packet.payload, List.length_drop] at hlen
    exact ⟨by omega, rfl⟩
  cases d with
  | ignored htype noHandler =>
      rw [type] at htype
      cases htype
      cases noHandler
  | refused refuses =>
      cases refuses with
      | state htype data_eq embedded other =>
          obtain ⟨hlen, rfl⟩ := hsize data_eq embedded
          exact ⟨hlen, Or.inl ⟨other, rfl⟩⟩
      | create htype => exact (hother htype (by decide)).elim
      | joinInGame htype => exact (hother htype (by decide)).elim
      | joinUnknown htype => exact (hother htype (by decide)).elim
      | start htype => exact (hother htype (by decide)).elim
      | leaveNoGame htype => exact (hother htype (by decide)).elim
      | leaveUnregistered htype => exact (hother htype (by decide)).elim
  | sent htype data_eq embedded own pump room =>
      obtain ⟨hlen, rfl⟩ := hsize data_eq embedded
      exact ⟨hlen, Or.inr ⟨own, _, pump, room, rfl, rfl⟩⟩
  | healthy htype => exact (hother htype (by decide)).elim
  | created htype => exact (hother htype (by decide)).elim
  | joined htype => exact (hother htype (by decide)).elim
  | started htype => exact (hother htype (by decide)).elim
  | left htype => exact (hother htype (by decide)).elim
  | disconnected htype => exact (hother htype (by decide)).elim

/-- Packets of connections that are not served get into no channel. -/
theorem queued_of_conn
    {s s' : TCPServer} {n : GameDraw} {out : List Write}
    (conn : s.conn c ≠ .serving) :
    queued g ⟨s, .packet c p n, out, s'⟩ = [] := by
  simp [queued, conn]

/-- A disconnect leaves what is in the channels alone. -/
theorem departed_channel
    (s : TCPServer) (c : ClientPtr) (g : GamePtr) :
    ((GameManager.departed s c).server.game g).ch = (s.game g).ch ∧
      ((GameManager.departed s c).server.game g).holding =
        (s.game g).holding := by
  rcases GameManager.departed_cases s c with
    ⟨-, heq⟩ | ⟨-, -, heq⟩ | ⟨g', -, -, heq⟩ <;> rw [heq]
  · exact ⟨rfl, rfl⟩
  · exact ⟨rfl, rfl⟩
  · by_cases hg : g = g'
    · subst hg
      simp
    · simp [hg]

theorem closed_channel
    (s : TCPServer) (c : ClientPtr) (g : GamePtr) :
    ((s.closed c).server.game g).ch = (s.game g).ch ∧
      ((s.closed c).server.game g).holding = (s.game g).holding :=
  departed_channel (s.setRegistered c false) c g

/-- Only game-state requests change what is in a channel. -/
theorem Dispatched.channel
    {s s' : TCPServer} {n : GameDraw} {out : List Write}
    (hinv : Inv s)
    (conn : s.conn c = .serving)
    (d : Dispatched s c p n s' out) :
    (s.game g).ch ++ (queued g ⟨s, .packet c p n, out, s'⟩).map Prod.snd =
        (s'.game g).ch ∧
      (s'.game g).holding = (s.game g).holding := by
  by_cases htype : p.getType = .ok packetGameState
  · rcases (Dispatched.gameState d htype).2 with
      ⟨hother, rfl⟩ | ⟨hown, g', hpump, -, rfl, rfl⟩
    · simp [queued, hother]
    · by_cases hg : g = g'
      · subst hg
        simp [queued, conn, htype, hown, hpump, enqueued]
      · have hpump' : (s.client c).gamePump ≠ some g := by
          rw [hpump]
          exact fun heq => hg (Option.some.inj heq).symm
        simp [queued, hpump', enqueued, hg]
  · have hsame : (s'.game g).ch = (s.game g).ch ∧
        (s'.game g).holding = (s.game g).holding := by
      cases d with
      | created type noGame =>
          by_cases hg : g = s.allocated
          · subst hg
            obtain ⟨-, hch, hholding⟩ := hinv.unallocated _ (Nat.le_refl _)
            simp [newGame, hch, hholding]
          · simp [hg]
      | @joined id g' =>
          by_cases hg : g = g' <;> simp [hg]
      | @left g' =>
          by_cases hg : g = g' <;> simp [hg]
      | sent type => exact absurd type htype
      | disconnected => exact closed_channel s c g
      | _ => exact ⟨rfl, rfl⟩
    rw [hsame.1]
    exact ⟨by simp [queued, htype], hsame.2⟩

/-- What one step does to a channel and to the packet in hand. -/
structure ChannelStep (g : GamePtr) (t : ServerTransition) : Prop where
  channel : (t.pre.game g).ch ++ (queued g t).map Prod.snd =
    dequeued g t ++ (t.post.game g).ch
  hand : (t.pre.game g).holding.toList ++ dequeued g t =
    relayed g t ++ (t.post.game g).holding.toList

theorem channelStep_of_move
    {t : ServerTransition}
    (m : Move t)
    (hinv : Inv t.pre) :
    ChannelStep g t := by
  cases m with
  | accept s c n conn =>
      exact ⟨by simp [queued, dequeued, TCPServer.accepted],
        by simp [dequeued, relayed, TCPServer.accepted]⟩
  | @authenticate s c p n id conn passes =>
      refine ⟨?_, by simp [dequeued, relayed, TCPServer.authenticated]⟩
      rw [queued_of_conn (by simp [conn])]
      simp [dequeued, TCPServer.authenticated]
  | close s c closes =>
      obtain ⟨hch, hholding⟩ := closed_channel s c g
      have hch' : (((s.closed c).server.setConn c .returned).game g).ch =
          (s.game g).ch := hch
      have hholding' :
          (((s.closed c).server.setConn c .returned).game g).holding =
            (s.game g).holding := hholding
      cases closes with
      | badPacket n conn fails =>
          constructor
          · rw [queued_of_conn (by simp [conn]), hch']
            simp [dequeued]
          · rw [hholding']
            simp [dequeued, relayed]
      | timeout conn =>
          exact ⟨by simp [queued, dequeued, hch'],
            by simp [dequeued, relayed, hholding']⟩
      | readError conn =>
          exact ⟨by simp [queued, dequeued, hch'],
            by simp [dequeued, relayed, hholding']⟩
      | quit conn =>
          exact ⟨by simp [queued, dequeued, hch'],
            by simp [dequeued, relayed, hholding']⟩
  | dispatch s c p n conn d =>
      obtain ⟨hch, hholding⟩ := Dispatched.channel (g := g) hinv conn d
      exact ⟨by simpa [dequeued] using hch,
        by simp [dequeued, relayed, hholding]⟩
  | receive s g' idle front =>
      by_cases hg : g' = g
      · subst hg
        exact ⟨by simp [queued, dequeued, front, received],
          by simp [dequeued, relayed, idle, front, received]⟩
      · have hg' : g ≠ g' := Ne.symm hg
        exact ⟨by simp [queued, dequeued, hg, received, hg'],
          by simp [dequeued, relayed, hg, received, hg']⟩
  | broadCast s g' holding writes =>
      by_cases hg : g' = g
      · subst hg
        exact ⟨by simp [queued, dequeued, broadcasted],
          by simp [dequeued, relayed, holding, broadcasted]⟩
      · have hg' : g ≠ g' := Ne.symm hg
        exact ⟨by simp [queued, dequeued, broadcasted, hg'],
          by simp [dequeued, relayed, hg, broadcasted, hg']⟩

variable {vf : ValidationFunc} {tr : List ServerTransition} {s : TCPServer}

/-- The log of a channel: what was put in, taken out, and is in it. -/
theorem channel_log
    (run : ServerRun vf tr s)
    (g : GamePtr) :
    (tr.flatMap (queued g)).map Prod.snd =
      tr.flatMap (dequeued g) ++ (s.game g).ch := by
  have hlog := run.conservation (I := Inv) (fun s => (s.game g).ch)
    (fun t => (queued g t).map Prod.snd) (dequeued g)
    (inv_newTCPServer vf) (fun _ => Inv.valid)
    (fun t valid hinv => (channelStep_of_move (move_of_valid valid)
      hinv).channel)
  rw [List.map_flatMap]
  simpa [TCPServer.newTCPServer, noGame] using hlog

/-- The log of `readLoop`: what it took out, broadcast, and has in hand. -/
theorem hand_log
    (run : ServerRun vf tr s)
    (g : GamePtr) :
    tr.flatMap (dequeued g) =
      tr.flatMap (relayed g) ++ (s.game g).holding.toList := by
  have hlog := run.conservation (I := Inv)
    (fun s => (s.game g).holding.toList) (dequeued g) (relayed g)
    (inv_newTCPServer vf) (fun _ => Inv.valid)
    (fun t valid hinv => (channelStep_of_move (move_of_valid valid)
      hinv).hand)
  simpa [TCPServer.newTCPServer, noGame] using hlog

/-- Everything queued was broadcast, in order, or is in flight. -/
theorem queued_log
    (run : ServerRun vf tr s)
    (g : GamePtr) :
    (tr.flatMap (queued g)).map Prod.snd =
      tr.flatMap (relayed g) ++ inFlight g s := by
  rw [channel_log run g, hand_log run g, inFlight, List.append_assoc]

/-- A packet in flight was queued by some client. -/
theorem sender_of_inFlight
    (run : ServerRun vf tr s)
    (hp : p ∈ inFlight g s) :
    ∃ t ∈ tr, ∃ c, (c, p) ∈ queued g t := by
  have hmem : p ∈ (tr.flatMap (queued g)).map Prod.snd := by
    rw [queued_log run g]
    exact List.mem_append_right _ hp
  obtain ⟨⟨c, q⟩, hq, rfl⟩ := List.mem_map.mp hmem
  obtain ⟨t, ht, htq⟩ := List.mem_flatMap.mp hq
  exact ⟨t, ht, c, htq⟩

/-- What the step that accepts a packet does. -/
theorem sent_of_queued
    {t : ServerTransition}
    (m : Move t)
    (h : (c, p) ∈ queued g t) :
    packetHeaderSize + gsDataOffset ≤ p.data.length ∧
      (t.pre.game g).ch.length < gameChanCap ∧
      t.post = t.pre.enqueued g p ∧ t.out = [] := by
  obtain ⟨⟨n, hevent⟩, hconn, htype, hown, hpump⟩ := mem_queued.mp h
  obtain ⟨hsize, hother | ⟨-, g', hpump', hroom, hpost, hout⟩⟩ :=
    Dispatched.gameState (m.dispatched hevent hconn) htype
  · exact absurd hown hother.1
  · have hg : g' = g := Option.some.inj (hpump'.symm.trans hpump)
    subst hg
    exact ⟨hsize, hroom, hpost, hout⟩

/-- Only a served client puts a packet into a channel, and only one. -/
theorem queued_length_le
    (g : GamePtr) (t : ServerTransition) :
    (queued g t).length ≤ 1 := by
  unfold queued
  split
  · split_ifs <;> simp
  · simp

/-- No step puts more into the channel of a game than there is room for. -/
theorem channel_capacity
    (run : ServerRun vf tr s)
    (g : GamePtr) :
    (s.game g).ch.length ≤ gameChanCap := by
  refine (run.invariant (I := fun s => Inv s ∧
    (s.game g).ch.length ≤ gameChanCap) ⟨inv_newTCPServer vf, Nat.zero_le _⟩
    (fun t valid hpre => ⟨hpre.1.valid valid, ?_⟩)).2
  have m := move_of_valid valid
  have hlengths := congrArg List.length
    (channelStep_of_move (g := g) m hpre.1).channel
  have hcapacity := hpre.2
  simp only [List.length_append, List.length_map] at hlengths
  cases hqueued : queued g t with
  | nil =>
      simp only [hqueued, List.length_nil] at hlengths
      omega
  | cons cp rest =>
      obtain ⟨-, hroom, -⟩ := sent_of_queued (c := cp.1) (p := cp.2) m
        (by rw [hqueued]; exact List.mem_cons_self)
      have hone := queued_length_le g t
      omega

/-- A served client that sends with its own id has a packet queued. -/
theorem exists_queued
    {t : ServerTransition} {n : GameDraw}
    (m : Move t)
    (event : t.event = .packet c p n)
    (conn : t.pre.conn c = .serving)
    (type : p.getType = .ok packetGameState)
    (own : (t.pre.client c).clientID = embeddedID p) :
    ∃ g, (c, p) ∈ queued g t := by
  obtain ⟨-, hother | ⟨-, g, hpump, -⟩⟩ :=
    Dispatched.gameState (m.dispatched event conn) type
  · exact absurd own hother.1
  · exact ⟨g, mem_queued.mpr ⟨⟨n, event⟩, conn, type, own, hpump⟩⟩

/-- A packet as `readLoop` expects them in the channel of a game. -/
structure Relayable (p : Packet) : Prop where
  type : p.getType = .ok packetGameState
  size : packetHeaderSize + gsDataOffset ≤ p.data.length

/-- Whatever is in flight in a game is as `readLoop` expects it. -/
theorem relayable_of_inFlight
    (run : ServerRun vf tr s)
    (hp : p ∈ inFlight g s) :
    Relayable p := by
  obtain ⟨t, ht, c, hc⟩ := sender_of_inFlight run hp
  obtain ⟨-, -, htype, -⟩ := mem_queued.mp hc
  exact ⟨htype, (sent_of_queued (moves_of_run run t ht) hc).1⟩

namespace Relayable

theorem getData
    (h : Relayable p) :
    p.getData = .ok p.payload :=
  getData_ok (by have hsize := h.size; omega)

theorem payload_length
    (h : Relayable p) :
    gsDataOffset ≤ p.payload.length := by
  have hsize := h.size
  rw [Packet.payload, List.length_drop]
  omega

theorem gameStateClientID
    (h : Relayable p) :
    gameStateClientID p.payload = .ok (embeddedID p) :=
  gameStateClientID_ok h.payload_length

/-- The recipients of a broadcast, and what is written to them. -/
theorem broadCastWrites_eq
    (h : Relayable p)
    (s : TCPServer) (clients : List ClientPtr) :
    broadCastWrites s p clients =
      .ok ((clients.filter (fun c =>
        (s.client c).clientID ≠ embeddedID p)).map (fun c => ⟨c, p.data⟩)) := by
  induction clients with
  | nil => rfl
  | cons c rest ih =>
      simp only [broadCastWrites, h.getData, h.gameStateClientID, ih, bind,
        Except.bind, pure, Except.pure]
      by_cases hid : (s.client c).clientID = embeddedID p <;> simp [hid]

/-- `broadCast` stops at the validation or writes to the recipients. -/
theorem broadCast_eq
    (h : Relayable p)
    (s : TCPServer) (game : Game) :
    broadCast s game p =
      match game.validationFunc p with
      | .error e => .error e
      | .ok (some _) => .ok []
      | .ok none =>
          .ok ((game.clients.filter (fun c =>
            (s.client c).clientID ≠ embeddedID p)).map
              (fun c => ⟨c, p.data⟩)) := by
  have hdata : gameStateData p.payload =
      .ok (p.payload.drop gsDataOffset) := sliceFrom_ok h.payload_length
  unfold broadCast
  cases game.validationFunc p with
  | error e => rfl
  | ok err =>
      cases err with
      | some err => rfl
      | none =>
          simp only [h.getData, hdata, h.broadCastWrites_eq, bind,
            Except.bind]

/-- `readLoop` can log the game state. -/
theorem logged
    (h : Relayable p) :
    ∃ state, gameState p.payload = .ok state := by
  refine ⟨_, index_ok (lt_of_lt_of_le ?_ h.payload_length)⟩
  decide

end Relayable

/-- All games validate with the function the server was started with. -/
theorem validationFunc_of_run
    (run : ServerRun vf tr s) :
    s.validationFunc = vf ∧ ∀ g, (s.game g).validationFunc = vf := by
  have hset : ∀ (s : TCPServer) (g : GamePtr) (game : Game),
      (∀ g', (s.game g').validationFunc = vf) → game.validationFunc = vf →
        ∀ g', ((s.setGame g game).game g').validationFunc = vf := by
    intro s g game hall hgame g'
    by_cases hg : g' = g
    · simpa [hg] using hgame
    · simpa [hg] using hall g'
  have hdeparted : ∀ (s : TCPServer) (c : ClientPtr),
      (s.validationFunc = vf ∧ ∀ g, (s.game g).validationFunc = vf) →
        (GameManager.departed s c).server.validationFunc = vf ∧
          ∀ g, ((GameManager.departed s c).server.game g).validationFunc =
            vf := by
    intro s c h
    rcases GameManager.departed_cases s c with
      ⟨-, heq⟩ | ⟨-, -, heq⟩ | ⟨g, -, -, heq⟩ <;> rw [heq]
    · exact h
    · exact h
    · exact ⟨h.1, hset s g _ h.2 (h.2 g)⟩
  refine run.invariant
    (I := fun s => s.validationFunc = vf ∧
      ∀ g, (s.game g).validationFunc = vf)
    ⟨rfl, fun _ => rfl⟩ (fun t valid h => ?_)
  cases move_of_valid valid with
  | accept => exact h
  | authenticate => exact h
  | close s c closes => exact hdeparted _ c h
  | dispatch s c p n conn d =>
      cases d with
      | ignored => exact h
      | refused => exact h
      | healthy => exact h
      | created => exact ⟨h.1, hset s _ _ h.2 h.1⟩
      | @joined id g => exact ⟨h.1, hset s g _ h.2 (h.2 g)⟩
      | started => exact h
      | @sent data id g => exact ⟨h.1, hset s g _ h.2 (h.2 g)⟩
      | @left g => exact ⟨h.1, hset s g _ h.2 (h.2 g)⟩
      | disconnected => exact hdeparted _ c h
  | receive s g => exact ⟨h.1, hset s g _ h.2 (h.2 g)⟩
  | broadCast s g => exact ⟨h.1, hset s g _ h.2 (h.2 g)⟩

end GameChannel

end Server
end TurnBasedGame
