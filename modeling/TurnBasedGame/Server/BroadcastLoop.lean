import TurnBasedGame.Kernel.View
import TurnBasedGame.Server.GameChannel

/-!
# A broadcast while clients leave

The range loop of `broadCast` fixes the slice header of the member list once
and reads each element of the backing array when it comes to it.  A client
that disconnects meanwhile is removed in place: the members after it move one
place to the front of the array the loop is reading.

One iteration of the loop and one call of `Disconnect` are the steps of the
system below; the packet has passed the validation.  For each member that
stays the module finds the steps that disturb its broadcast: the removal of an
earlier member when it is the next to be read, which makes the loop miss it,
and when it is the last one and still ahead, which makes the loop find it
twice.
-/

namespace TurnBasedGame
namespace Server

open Kernel

section BroadcastLoop

open TCPServer

/-- The body of the range loop of `broadCast`. -/
def iteration (s : TCPServer) (pkt : Packet) (c : ClientPtr) :
    Checked (List Write) := do
  let data ← pkt.getData
  let id ← gameStateClientID data
  if (s.client c).clientID = id then
    return []
  return [⟨c, pkt.data⟩]

/-- `removeClient` on the backing array of the member list. -/
def removeClientInPlace (clients : View ClientPtr) (target : ClientPtr) :
    View ClientPtr :=
  match clients.toList.idxOf? target with
  | none => clients
  | some i => clients.removeAt i

/-- The game whose member list a `Disconnect` call shortens. -/
def departsFrom (s : TCPServer) (c : ClientPtr) : Option GamePtr :=
  if (s.client c).gameID = [] then none else s.games (s.client c).gameID

/-- A broadcast in progress. -/
structure BroadcastState where
  server : TCPServer
  /-- The member list; its array reaches as far as the header of the loop. -/
  clients : View ClientPtr
  /-- Number of elements the loop has read. -/
  next : Nat

inductive BroadcastEvent
  | iterate
  | disconnect (c : ClientPtr)
deriving DecidableEq, Repr

/-- One iteration of the loop, or one call of `Disconnect`. -/
def broadcastStep (g : GamePtr) (pkt : Packet) (s : BroadcastState) :
    BroadcastEvent → Outcome BroadcastState Write
  | .iterate =>
      match s.clients.array[s.next]? with
      | none => .blocked
      | some c =>
          match iteration s.server pkt c with
          | .error _ => .panic
          | .ok out => .next { s with next := s.next + 1 } out
  | .disconnect c =>
      match GameManager.disconnect s.server c with
      | .error _ => .panic
      | .ok e =>
          let clients :=
            if departsFrom s.server c = some g then
              removeClientInPlace s.clients c
            else
              s.clients
          .next { s with server := e.server, clients := clients } e.writes

/-- A broadcast of the packet to the members of the game. -/
def broadcastSystem (g : GamePtr) (pkt : Packet) :
    System BroadcastState BroadcastEvent Write where
  step := broadcastStep g pkt

abbrev BroadcastTransition :=
  Transition BroadcastState BroadcastEvent Write

/-- The loop is about to start on the member list of the game. -/
structure Starts (g : GamePtr) (s : BroadcastState) : Prop where
  inv : Inv s.server
  members : s.clients.toList = (s.server.game g).clients
  header : s.clients.len = s.clients.array.length
  next : s.next = 0

/-- A loop that is about to start, in a state of the server. -/
def starting (g : GamePtr) (s : TCPServer) : BroadcastState where
  server := s
  clients := View.full (s.game g).clients
  next := 0

theorem starts_starting
    {s : TCPServer}
    (h : Inv s) (g : GamePtr) :
    Starts g (starting g s) :=
  ⟨h, View.toList_full _, rfl, rfl⟩

/-- The loop has read as many elements as its header has. -/
def Finished (s : BroadcastState) : Prop :=
  s.next = s.clients.array.length

instance : DecidablePred Finished := fun s =>
  inferInstanceAs (Decidable (s.next = s.clients.array.length))

/-- The writes of all steps. -/
def broadcastOut (tr : List BroadcastTransition) : List Write :=
  tr.flatMap Transition.out

/--
A step removes a member listed before the client while the client is the next
to be read and not the last one, or the last one and not yet the next.
-/
def Disturbs (g : GamePtr) (c : ClientPtr) (t : BroadcastTransition) : Prop :=
  ∃ d i k, t.event = .disconnect d ∧ departsFrom t.pre.server d = some g ∧
    t.pre.clients.toList[i]? = some d ∧ t.pre.clients.toList[k]? = some c ∧
    i < k ∧ ((k = t.pre.next ∧ k + 1 < t.pre.clients.len) ∨
      (t.pre.next < k ∧ k + 1 = t.pre.clients.len))

section InPlace

variable {clients : View ClientPtr} {target : ClientPtr}

/-- A member is removed at its place in the list. -/
theorem removeClientInPlace_cases
    (clients : View ClientPtr) (target : ClientPtr) :
    (target ∉ clients.toList ∧
        removeClientInPlace clients target = clients) ∨
      ∃ i, i < clients.len ∧ clients.toList[i]? = some target ∧
        removeClientInPlace clients target = clients.removeAt i := by
  unfold removeClientInPlace
  cases h : clients.toList.idxOf? target with
  | none => exact Or.inl ⟨List.idxOf?_eq_none_iff.mp h, rfl⟩
  | some i =>
      obtain ⟨hi, heq, -⟩ := List.findIdx?_eq_some_iff_getElem.mp h
      have htarget : clients.toList[i] = target := by simpa using heq
      refine Or.inr ⟨i, by simpa using hi, ?_, rfl⟩
      rw [List.getElem?_eq_getElem hi, htarget]

/-- In place or not, `removeClient` deletes the first occurrence. -/
theorem removeClientInPlace_toList
    (clients : View ClientPtr) (target : ClientPtr) :
    (removeClientInPlace clients target).toList =
      clients.toList.erase target := by
  rw [List.erase_eq_eraseIdx]
  unfold removeClientInPlace
  cases h : clients.toList.idxOf? target with
  | none => rfl
  | some i =>
      obtain ⟨hi, -, -⟩ := List.findIdx?_eq_some_iff_getElem.mp h
      exact clients.toList_removeAt (by simpa using hi)

end InPlace

/-- The member at a place of the list was removed by its `Disconnect` call. -/
def BroadcastState.without (s : BroadcastState) (d : ClientPtr) (i : Nat) :
    BroadcastState where
  server := (GameManager.departed s.server d).server
  clients := s.clients.removeAt i
  next := s.next

/-- Everything a step of the system can do. -/
inductive BroadcastMove (g : GamePtr) (pkt : Packet) :
    BroadcastTransition → Prop
  | wrote (s : BroadcastState) {c : ClientPtr}
      (read : s.clients.array[s.next]? = some c)
      (other : (s.server.client c).clientID ≠ embeddedID pkt) :
      BroadcastMove g pkt ⟨s, .iterate, [⟨c, pkt.data⟩],
        { s with next := s.next + 1 }⟩
  | skipped (s : BroadcastState) {c : ClientPtr}
      (read : s.clients.array[s.next]? = some c)
      (own : (s.server.client c).clientID = embeddedID pkt) :
      BroadcastMove g pkt ⟨s, .iterate, [], { s with next := s.next + 1 }⟩
  | removed (s : BroadcastState) (c : ClientPtr) {i : Nat}
      (departs : departsFrom s.server c = some g)
      (listed : s.clients.toList[i]? = some c)
      (lt_len : i < s.clients.len) :
      BroadcastMove g pkt
        ⟨s, .disconnect c, (GameManager.departed s.server c).writes,
          s.without c i⟩
  | kept (s : BroadcastState) (c : ClientPtr)
      (elsewhere : departsFrom s.server c ≠ some g ∨ c ∉ s.clients.toList) :
      BroadcastMove g pkt
        ⟨s, .disconnect c, (GameManager.departed s.server c).writes,
          ⟨(GameManager.departed s.server c).server, s.clients, s.next⟩⟩

variable {g : GamePtr} {pkt : Packet} {c : ClientPtr}

/-- What an iteration that does not panic writes. -/
theorem iteration_eq_ok
    {s : TCPServer} {out : List Write}
    (h : iteration s pkt c = .ok out) :
    out = if (s.client c).clientID = embeddedID pkt then []
      else [⟨c, pkt.data⟩] := by
  unfold iteration at h
  cases hdata : pkt.getData with
  | error e => simp [hdata, bind, Except.bind] at h
  | ok data =>
      cases hid : gameStateClientID data with
      | error e => simp [hdata, hid, bind, Except.bind] at h
      | ok id =>
          obtain ⟨-, rfl⟩ := getData_eq_ok_iff.mp hdata
          obtain ⟨-, rfl⟩ := gameStateClientID_eq_ok_iff.mp hid
          simp only [hdata, hid, bind, Except.bind, pure, Except.pure] at h
          rw [embeddedID]
          split_ifs at h ⊢ with hown
          · exact (Except.ok.inj h).symm
          · exact (Except.ok.inj h).symm

/-- Inversion of the steps of the system. -/
theorem broadcastMove_of_valid
    {t : BroadcastTransition}
    (valid : (broadcastSystem g pkt).Valid t) :
    BroadcastMove g pkt t := by
  obtain ⟨s, event, out, s'⟩ := t
  have hstep : broadcastStep g pkt s event = .next s' out := valid
  cases event with
  | iterate =>
      simp only [broadcastStep] at hstep
      cases hread : s.clients.array[s.next]? with
      | none => simp [hread] at hstep
      | some c =>
          cases hbody : iteration s.server pkt c with
          | error e => simp [hread, hbody] at hstep
          | ok written =>
              simp only [hread, hbody, Outcome.next.injEq] at hstep
              obtain ⟨rfl, rfl⟩ := hstep
              have hwritten := iteration_eq_ok hbody
              split_ifs at hwritten with hown
              · rw [hwritten]
                exact .skipped s hread hown
              · rw [hwritten]
                exact .wrote s hread hown
  | disconnect c =>
      simp only [broadcastStep, GameManager.disconnect_eq,
        Outcome.next.injEq] at hstep
      obtain ⟨rfl, rfl⟩ := hstep
      by_cases hdeparts : departsFrom s.server c = some g
      swap
      · rw [if_neg hdeparts]
        exact .kept s c (Or.inl hdeparts)
      rw [if_pos hdeparts]
      rcases removeClientInPlace_cases s.clients c with
        ⟨hnot, heq⟩ | ⟨i, hi, hlisted, heq⟩ <;> rw [heq]
      · exact .kept s c (Or.inr hnot)
      · exact .removed s c hdeparts hlisted hi

/-- The member lists after a `Disconnect` call. -/
theorem departed_members
    (s : TCPServer) (c : ClientPtr) (g : GamePtr) :
    ((GameManager.departed s c).server.game g).clients =
      if departsFrom s c = some g then (s.game g).clients.erase c
      else (s.game g).clients := by
  unfold departsFrom
  rcases GameManager.departed_cases s c with
    ⟨hgame, heq⟩ | ⟨hgame, hnone, heq⟩ | ⟨g', hgame, hg, heq⟩ <;> rw [heq]
  · simp [hgame]
  · simp [hgame, hnone]
  · by_cases hg' : g = g'
    · subst hg'
      simp [hgame, hg]
    · have hne : ¬ g' = g := fun h => hg' h.symm
      simp [hgame, hg, hg', hne]

/-- The list in the array stays the member list of the game. -/
theorem members_of_valid
    {t : BroadcastTransition}
    (valid : (broadcastSystem g pkt).Valid t)
    (h : t.pre.clients.toList = (t.pre.server.game g).clients) :
    t.post.clients.toList = (t.post.server.game g).clients := by
  obtain ⟨s, event, out, s'⟩ := t
  cases event with
  | iterate =>
      cases broadcastMove_of_valid valid with
      | wrote => exact h
      | skipped => exact h
  | disconnect c =>
      have hstep : broadcastStep g pkt s (.disconnect c) = .next s' out := valid
      simp only [broadcastStep, GameManager.disconnect_eq,
        Outcome.next.injEq] at hstep
      obtain ⟨rfl, -⟩ := hstep
      have hpre : s.clients.toList = (s.server.game g).clients := h
      rw [departed_members]
      split_ifs with hdeparts
      · rw [removeClientInPlace_toList, hpre]
      · exact hpre

/-- How often the client was written the packet and will be found again. -/
def tally (pkt : Packet) (c : ClientPtr) (tr : List BroadcastTransition)
    (s : BroadcastState) : Nat :=
  (broadcastOut tr).count ⟨c, pkt.data⟩ +
    (s.clients.array.drop s.next).count c

/-- The loop has missed the client, or finds it more than once. -/
def Miscounted (n k : Nat) (s : BroadcastState) : Prop :=
  (n = 0 ∧ k < s.next) ∨ (2 ≤ n ∧ k + 1 = s.clients.len)

/-- A step adds its own writes to the tally. -/
theorem tally_snoc
    (pkt : Packet) (c : ClientPtr) (tr : List BroadcastTransition)
    (t : BroadcastTransition) (s : BroadcastState) :
    tally pkt c (tr ++ [t]) s =
      (broadcastOut tr).count ⟨c, pkt.data⟩ +
        t.out.count ⟨c, pkt.data⟩ +
        (s.clients.array.drop s.next).count c := by
  simp [tally, broadcastOut, List.count_append]

/-- A disconnect writes nothing to the other clients. -/
theorem count_departed_writes
    {s : TCPServer} {d : ClientPtr}
    (h : c ≠ d)
    (data : List UInt8) :
    (GameManager.departed s d).writes.count ⟨c, data⟩ = 0 := by
  rw [List.count_eq_zero]
  intro hmem
  exact h (GameManager.departed_dest s d _ hmem)

/-- An iteration of the loop does not change the tally of a recipient. -/
theorem tally_iterate
    {t : BroadcastTransition}
    (m : BroadcastMove g pkt t)
    (tr : List BroadcastTransition)
    (event : t.event = .iterate)
    (recipient : (t.pre.server.client c).clientID ≠ embeddedID pkt) :
    tally pkt c (tr ++ [t]) t.post = tally pkt c tr t.pre := by
  rw [tally_snoc, tally]
  cases m with
  | removed => cases event
  | kept => cases event
  | @wrote s d read other =>
      have hdrop : s.clients.array.drop s.next =
          d :: s.clients.array.drop (s.next + 1) := by
        obtain ⟨hlt, hd⟩ := List.getElem?_eq_some_iff.mp read
        rw [List.drop_eq_getElem_cons hlt, hd]
      by_cases hdc : d = c
      · subst hdc
        simp only [hdrop, List.count_cons_self, List.count_nil]
        omega
      · have hwrite : (⟨d, pkt.data⟩ : Write) ≠ ⟨c, pkt.data⟩ := by
          simpa using hdc
        simp only [hdrop, List.count_cons_of_ne hdc,
          List.count_cons_of_ne hwrite, List.count_nil]
        omega
  | @skipped s d read own =>
      have hdrop : s.clients.array.drop s.next =
          d :: s.clients.array.drop (s.next + 1) := by
        obtain ⟨hlt, hd⟩ := List.getElem?_eq_some_iff.mp read
        rw [List.drop_eq_getElem_cons hlt, hd]
      have hdc : d ≠ c := by
        rintro rfl
        exact recipient own
      simp only [hdrop, List.count_cons_of_ne hdc, List.count_nil]
      omega

/-- The removal of another member changes the tally only where it disturbs. -/
theorem tally_removed
    {clients : View ClientPtr} {i k j : Nat}
    (nodup : clients.toList.Nodup)
    (lt_len : i < clients.len)
    (listed : clients.toList[k]? = some c)
    (hik : i ≠ k) :
    ((clients.removeAt i).array.drop j).count c +
        (if i < j ∧ j = k then 1 else 0) =
      (clients.array.drop j).count c +
        (if j < clients.len ∧ k + 1 = clients.len then 1 else 0) := by
  have hk : k < clients.toList.length :=
    (List.getElem?_eq_some_iff.mp listed).1
  have hunique : ∀ m, clients.toList[m]? = some c ↔ m = k := by
    intro m
    constructor
    · intro hm
      exact ((List.getElem?_inj hk nodup).mp (listed.trans hm.symm)).symm
    · rintro rfl
      exact listed
  have hi : clients.toList[i]? ≠ some c := by
    rw [Ne, hunique]
    exact hik
  have hcount := clients.count_drop_shifted lt_len hi j
  have hlast : clients.len - 1 = k ↔ k + 1 = clients.len := by omega
  simp only [hunique, hlast] at hcount
  exact hcount

/-- The place of another member after a removal. -/
theorem listed_removeAt
    {clients : View ClientPtr} {i k : Nat}
    (lt_len : i < clients.len)
    (listed : clients.toList[k]? = some c)
    (hik : i ≠ k) :
    (clients.removeAt i).toList[if i < k then k - 1 else k]? = some c := by
  rw [clients.toList_removeAt lt_len, List.getElem?_eraseIdx]
  split_ifs with hlt hlt' hlt'
  · omega
  · rw [Nat.sub_add_cancel (by omega)]
    exact listed
  · exact listed
  · omega

/-- What is known of a recipient that stays, after some steps. -/
structure Tracked (g : GamePtr) (pkt : Packet) (c : ClientPtr)
    (tr : List BroadcastTransition) (s : BroadcastState) : Prop where
  nodup : s.clients.toList.Nodup
  recipient : (s.server.client c).clientID ≠ embeddedID pkt
  place : ∃ k, s.clients.toList[k]? = some c ∧
    ((∀ t ∈ tr, ¬ Disturbs g c t) → tally pkt c tr s = 1) ∧
    ((∃ t ∈ tr, Disturbs g c t) → Miscounted (tally pkt c tr s) k s)

/-- Only the removal of a listed member disturbs. -/
theorem disturbs_removed_iff
    {s : BroadcastState} {d : ClientPtr} {i k : Nat}
    (out : List Write) (s' : BroadcastState)
    (nodup : s.clients.toList.Nodup)
    (departs : departsFrom s.server d = some g)
    (listed : s.clients.toList[i]? = some d)
    (place : s.clients.toList[k]? = some c) :
    Disturbs g c ⟨s, .disconnect d, out, s'⟩ ↔
      i < k ∧ ((k = s.next ∧ k + 1 < s.clients.len) ∨
        (s.next < k ∧ k + 1 = s.clients.len)) := by
  have hunique : ∀ {m n : Nat} {a : ClientPtr},
      s.clients.toList[m]? = some a → s.clients.toList[n]? = some a →
        m = n := fun hm hn =>
    (List.getElem?_inj (List.getElem?_eq_some_iff.mp hm).1 nodup).mp
      (hm.trans hn.symm)
  constructor
  · rintro ⟨d', i', k', hevent, -, hi', hk', hdisturbs⟩
    cases hevent
    rw [hunique listed hi', hunique place hk']
    exact hdisturbs
  · rintro hdisturbs
    exact ⟨d, i, k, rfl, departs, listed, place, hdisturbs⟩

/-- A step that removes no listed member does not disturb. -/
theorem not_disturbs_kept
    {s : BroadcastState} {d : ClientPtr} {out : List Write}
    {s' : BroadcastState}
    (elsewhere : departsFrom s.server d ≠ some g ∨
      d ∉ s.clients.toList) :
    ¬ Disturbs g c ⟨s, .disconnect d, out, s'⟩ := by
  rintro ⟨d', i, k, hevent, hdeparts, hi, -⟩
  cases hevent
  rcases elsewhere with hne | hnot
  · exact hne hdeparts
  · exact hnot (List.mem_of_getElem? hi)

/-- Steps that do not disturb and leave tally and list alone. -/
theorem Tracked.keep
    {tr : List BroadcastTransition} {t : BroadcastTransition}
    (h : Tracked g pkt c tr t.pre)
    (list : t.post.clients.toList = t.pre.clients.toList)
    (next : t.pre.next ≤ t.post.next)
    (clientID : (t.post.server.client c).clientID =
      (t.pre.server.client c).clientID)
    (tally_eq : tally pkt c (tr ++ [t]) t.post = tally pkt c tr t.pre)
    (quiet : ¬ Disturbs g c t) :
    Tracked g pkt c (tr ++ [t]) t.post := by
  obtain ⟨k, hk, heven, hmiscounted⟩ := h.place
  have hlen : t.post.clients.len = t.pre.clients.len := by
    rw [← t.post.clients.toList_length, list, View.toList_length]
  refine ⟨by rw [list]; exact h.nodup, by rw [clientID]; exact h.recipient,
    k, by rw [list]; exact hk, ?_, ?_⟩
  · intro hquiet
    rw [tally_eq]
    exact heven fun t' ht' => hquiet t' (List.mem_append_left _ ht')
  · rintro ⟨t', ht', hdisturbs⟩
    rw [tally_eq]
    rcases List.mem_append.mp ht' with hmem | hmem
    · rcases hmiscounted ⟨t', hmem, hdisturbs⟩ with ⟨hzero, hlt⟩ | hlast
      · exact Or.inl ⟨hzero, hlt.trans_le next⟩
      · rw [← hlen] at hlast
        exact Or.inr hlast
    · rw [List.mem_singleton.mp hmem] at hdisturbs
      exact absurd hdisturbs quiet

/-- The place of a member after another one was removed. -/
def placeAfter (i k : Nat) : Nat :=
  if i < k then k - 1 else k

/-- The removal of another member keeps track of the client. -/
theorem Tracked.removed
    {tr : List BroadcastTransition} {s : BroadcastState} {d : ClientPtr}
    {i : Nat}
    (h : Tracked g pkt c tr s)
    (departs : departsFrom s.server d = some g)
    (listed : s.clients.toList[i]? = some d)
    (lt_len : i < s.clients.len)
    (hcd : c ≠ d) :
    Tracked g pkt c
      (tr ++ [⟨s, .disconnect d, (GameManager.departed s.server d).writes,
        s.without d i⟩])
      (s.without d i) := by
  obtain ⟨k, hk, heven, hmiscounted⟩ := h.place
  have hik : i ≠ k := by
    rintro rfl
    exact hcd (Option.some.inj (hk.symm.trans listed))
  have hklen : k < s.clients.len := by
    have hlt := (List.getElem?_eq_some_iff.mp hk).1
    simpa using hlt
  have hdisturbs := disturbs_removed_iff
    (GameManager.departed s.server d).writes (s.without d i)
    h.nodup departs listed hk
  have hlen : (s.without d i).clients.len = s.clients.len - 1 := rfl
  have hnext : (s.without d i).next = s.next := rfl
  have htally : tally pkt c
        (tr ++ [⟨s, .disconnect d, (GameManager.departed s.server d).writes,
          s.without d i⟩])
        (s.without d i) +
        (if i < s.next ∧ s.next = k then 1 else 0) =
      tally pkt c tr s +
        (if s.next < s.clients.len ∧ k + 1 = s.clients.len then 1 else 0) := by
    have hcount := tally_removed (j := s.next) h.nodup lt_len hk hik
    rw [tally_snoc, count_departed_writes hcd, tally]
    simp only [BroadcastState.without]
    omega
  refine ⟨?_, ?_, placeAfter i k, listed_removeAt lt_len hk hik, ?_, ?_⟩
  · rw [show (s.without d i).clients.toList = _ from
      s.clients.toList_removeAt lt_len]
    exact h.nodup.eraseIdx i
  · rw [show ((s.without d i).server.client c).clientID = _ from
      GameManager.departed_clientID s.server d c]
    exact h.recipient
  · intro hquiet
    have hpre := heven fun t ht => hquiet t (List.mem_append_left _ ht)
    have hlast := hquiet _ (List.mem_append_right _ (List.mem_singleton_self _))
    rw [hdisturbs] at hlast
    split_ifs at htally <;> omega
  · rintro ⟨t, ht, hdist⟩
    unfold Miscounted
    unfold placeAfter
    rw [hlen, hnext]
    by_cases hbefore : ∃ t ∈ tr, Disturbs g c t
    · -- once miscounted, the client stays so
      rcases hmiscounted hbefore with ⟨hzero, hlt⟩ | ⟨htwo, hend⟩
      · left
        split_ifs at htally ⊢ <;> omega
      · right
        split_ifs at htally ⊢ <;> omega
    · have hpre := heven fun t' ht' hd => hbefore ⟨t', ht', hd⟩
      have hmem := (List.mem_append.mp ht).resolve_left
        fun hmem => hbefore ⟨t, hmem, hdist⟩
      rw [List.mem_singleton.mp hmem, hdisturbs] at hdist
      rcases hdist with ⟨hbehind, ⟨hread, hinner⟩ | ⟨hahead, hend⟩⟩
      · left
        split_ifs at htally ⊢ <;> omega
      · right
        split_ifs at htally ⊢ <;> omega

/-- Every step that is not a disconnect of the client keeps track of it. -/
theorem Tracked.move
    {tr : List BroadcastTransition} {t : BroadcastTransition}
    (m : BroadcastMove g pkt t)
    (h : Tracked g pkt c tr t.pre)
    (others : t.event ≠ .disconnect c) :
    Tracked g pkt c (tr ++ [t]) t.post := by
  have hiterate : t.event = .iterate → ¬ Disturbs g c t := by
    rintro hevent ⟨d, i, k, hd, -⟩
    cases hevent.symm.trans hd
  have hsame := tally_iterate (c := c) m
  cases m with
  | wrote s read other =>
      exact h.keep rfl (Nat.le_succ _) rfl (hsame tr rfl h.recipient)
        (hiterate rfl)
  | skipped s read own =>
      exact h.keep rfl (Nat.le_succ _) rfl (hsame tr rfl h.recipient)
        (hiterate rfl)
  | kept s d elsewhere =>
      have hcd : c ≠ d := fun heq => others (heq ▸ rfl)
      refine h.keep rfl le_rfl (GameManager.departed_clientID _ _ _) ?_
        (not_disturbs_kept elsewhere)
      rw [tally_snoc, count_departed_writes hcd]
      rfl
  | removed s d departs listed lt_len =>
      exact h.removed departs listed lt_len (fun heq => others (heq ▸ rfl))

/-- A recipient is tracked when the loop starts. -/
theorem Starts.tracked
    {s : BroadcastState}
    (h : Starts g s)
    (member : c ∈ (s.server.game g).clients)
    (recipient : (s.server.client c).clientID ≠ embeddedID pkt) :
    Tracked g pkt c [] s := by
  have hnodup : s.clients.toList.Nodup := by
    rw [h.members]
    exact h.inv.nodup g
  have harray : s.clients.array = s.clients.toList := by
    rw [View.toList, h.header, List.take_length]
  have hmem : c ∈ s.clients.toList := by
    rw [h.members]
    exact member
  obtain ⟨k, hk⟩ := List.getElem?_of_mem hmem
  refine ⟨hnodup, recipient, k, hk, fun _ => ?_, ?_⟩
  · rw [tally, h.next, List.drop_zero, harray,
      List.count_eq_one_of_mem hnodup hmem]
    rfl
  · rintro ⟨t, ht, -⟩
    cases ht

/--
A broadcast while clients leave.  Whatever other members disconnect between
the iterations of the loop, a member that stays and is not the sender is
written the packet exactly once if and only if no step disturbs it.
-/
theorem broadcast_once_iff
    {s₀ s : BroadcastState} {tr : List BroadcastTransition}
    (starts : Starts g s₀)
    (run : (broadcastSystem g pkt).Run s₀ tr s)
    (finished : Finished s)
    (member : c ∈ (s₀.server.game g).clients)
    (recipient : (s₀.server.client c).clientID ≠ embeddedID pkt)
    (others : ∀ t ∈ tr, t.event ≠ .disconnect c) :
    (broadcastOut tr).count ⟨c, pkt.data⟩ = 1 ↔
      ∀ t ∈ tr, ¬ Disturbs g c t := by
  have htracked : (∀ t ∈ tr, t.event ≠ .disconnect c) →
      Tracked g pkt c tr s := by
    refine run.history_induction
      (J := fun tr s => (∀ t ∈ tr, t.event ≠ .disconnect c) →
        Tracked g pkt c tr s)
      (fun _ => starts.tracked member recipient) ?_
    intro tr t _ valid ih hothers
    exact (ih fun t' ht' => hothers t' (List.mem_append_left _ ht')).move
      (broadcastMove_of_valid valid) (hothers t (by simp))
  obtain ⟨-, -, k, -, heven, hmiscounted⟩ := htracked others
  have hread : s.clients.array.drop s.next = [] := by
    rw [finished, List.drop_length]
  have htally : tally pkt c tr s = (broadcastOut tr).count ⟨c, pkt.data⟩ := by
    rw [tally, hread]
    rfl
  rw [htally] at heven hmiscounted
  constructor
  · intro hone t ht hdisturbs
    rcases hmiscounted ⟨t, ht, hdisturbs⟩ with ⟨hzero, -⟩ | ⟨htwo, -⟩ <;>
      omega
  · exact heven

/-- One more iteration writes what one more member adds to the writes. -/
theorem broadCastWrites_concat
    {s : TCPServer} {clients : List ClientPtr} {out last : List Write}
    (h : broadCastWrites s pkt clients = .ok out)
    (hlast : iteration s pkt c = .ok last) :
    broadCastWrites s pkt (clients ++ [c]) = .ok (out ++ last) := by
  have hbody := iteration_eq_ok hlast
  unfold iteration at hlast
  cases hdata : pkt.getData with
  | error e => simp [hdata, bind, Except.bind] at hlast
  | ok data =>
      cases hid : gameStateClientID data with
      | error e => simp [hdata, hid, bind, Except.bind] at hlast
      | ok id =>
          induction clients generalizing out with
          | nil =>
              simp only [broadCastWrites, pure, Except.pure, Except.ok.injEq]
                at h
              subst h
              simp only [hdata, hid, bind, Except.bind, pure,
                Except.pure] at hlast
              simp only [List.nil_append, broadCastWrites, hdata, hid, bind,
                Except.bind, pure, Except.pure]
              exact hlast
          | cons d rest ih =>
              simp only [broadCastWrites, hdata, hid, bind, Except.bind, pure,
                Except.pure, List.cons_append] at h ⊢
              cases hrest : broadCastWrites s pkt rest with
              | error e => simp [hrest] at h
              | ok out' =>
                  simp only [hrest] at h
                  simp only [ih hrest]
                  split_ifs at h ⊢ with hown
                  · rw [← Except.ok.inj h]
                  · rw [← Except.ok.inj h]
                    rfl

/-- A broadcast during which nobody leaves is one call of `broadCast`. -/
theorem broadCastWrites_of_run
    {s₀ s : BroadcastState} {tr : List BroadcastTransition}
    (starts : Starts g s₀)
    (run : (broadcastSystem g pkt).Run s₀ tr s)
    (finished : Finished s)
    (alone : ∀ t ∈ tr, t.event = .iterate) :
    broadCastWrites s₀.server pkt (s₀.server.game g).clients =
      .ok (broadcastOut tr) := by
  have hloop : (∀ t ∈ tr, t.event = .iterate) →
      s.server = s₀.server ∧ s.clients = s₀.clients ∧
        broadCastWrites s₀.server pkt (s₀.clients.array.take s.next) =
          .ok (broadcastOut tr) := by
    refine run.history_induction
      (J := fun tr s => (∀ t ∈ tr, t.event = .iterate) →
        s.server = s₀.server ∧ s.clients = s₀.clients ∧
          broadCastWrites s₀.server pkt (s₀.clients.array.take s.next) =
            .ok (broadcastOut tr)) (fun _ => ?_) ?_
    · rw [starts.next]
      exact ⟨rfl, rfl, rfl⟩
    · intro tr t _ valid ih halone
      obtain ⟨hserver, hclients, hwrites⟩ :=
        ih fun t' ht' => halone t' (List.mem_append_left _ ht')
      have hevent := halone t (by simp)
      obtain ⟨s, event, out, s'⟩ := t
      cases hevent
      have hstep : broadcastStep g pkt s .iterate = .next s' out := valid
      simp only [broadcastStep] at hstep
      cases hread : s.clients.array[s.next]? with
      | none => simp [hread] at hstep
      | some d =>
          cases hbody : iteration s.server pkt d with
          | error e => simp [hread, hbody] at hstep
          | ok written =>
              simp only [hread, hbody, Outcome.next.injEq] at hstep
              obtain ⟨rfl, rfl⟩ := hstep
              refine ⟨hserver, hclients, ?_⟩
              have hserver' : s.server = s₀.server := hserver
              have hclients' : s.clients = s₀.clients := hclients
              rw [hserver'] at hbody
              rw [hclients'] at hread
              rw [List.take_add_one, hread, broadcastOut,
                List.flatMap_append, List.flatMap_singleton]
              exact broadCastWrites_concat hwrites hbody
  obtain ⟨-, hclients, hwrites⟩ := hloop alone
  rw [finished, hclients, List.take_length] at hwrites
  rw [← starts.members, View.toList, starts.header, List.take_length]
  exact hwrites

/-- What is checked of an executed broadcast holds of a run. -/
theorem exists_broadcast_of_exec
    (g : GamePtr) (pkt : Packet) (vf : ValidationFunc)
    (events : List Event) (steps : List BroadcastEvent)
    (f : TCPServer → List BroadcastTransition → BroadcastState → Bool)
    (h : (serverSystem.exec (newTCPServer vf) events).bind
      (fun r => ((broadcastSystem g pkt).exec (starting g r.2) steps).map
        (fun q => f r.2 q.1 q.2)) = some true) :
    ∃ s₀ tr s, Starts g s₀ ∧ (broadcastSystem g pkt).Run s₀ tr s ∧
      tr.map Transition.event = steps ∧ f s₀.server tr s = true := by
  obtain ⟨r, hserver, hloop⟩ := Option.bind_eq_some_iff.mp h
  obtain ⟨hrun, -⟩ := serverSystem.exec_run events _ hserver
  obtain ⟨tr, s, hrun', hsteps, hend⟩ := System.run_of_exec hloop
  exact ⟨starting g r.2, tr, s, starts_starting (inv_of_run hrun) g, hrun',
    hsteps, hend⟩

/-- A game with three members, the first of them its creator. -/
def threeMembers : List Event :=
  signIn 0 0 ++ signIn 1 1 ++ signIn 2 2 ++
    [.packet 0 (constructPacket encString packetCreateGame []) 7,
      .packet 1 (constructPacket encString packetJoinGame
        (generateGameId 7)) 0,
      .packet 2 (constructPacket encString packetJoinGame
        (generateGameId 7)) 0]

/-- How often the game state of the creator is written to a client. -/
def timesWritten (c : ClientPtr) (tr : List BroadcastTransition) : Nat :=
  (broadcastOut tr).count ⟨c, (statePacket 0 [1]).data⟩

/-- A client that is not the creator of the game. -/
def IsRecipient (s : TCPServer) (c : ClientPtr) : Prop :=
  (s.client c).clientID ≠ embeddedID (statePacket 0 [1])

instance (s : TCPServer) (c : ClientPtr) : Decidable (IsRecipient s c) :=
  inferInstanceAs (Decidable (_ ≠ _))

/--
The creator leaves once the loop has passed it; of the two that stay, one is
written nothing and the other twice.
-/
theorem broadcast_not_once :
    ∃ s₀ tr s, Starts 0 s₀ ∧
      (broadcastSystem 0 (statePacket 0 [1])).Run s₀ tr s ∧
      tr.map Transition.event = [.iterate, .disconnect 0, .iterate, .iterate] ∧
      Finished s ∧ (s₀.server.game 0).clients = [0, 1, 2] ∧
      (s.server.game 0).clients = [1, 2] ∧
      IsRecipient s₀.server 1 ∧ IsRecipient s₀.server 2 ∧
      timesWritten 1 tr = 0 ∧ timesWritten 2 tr = 2 := by
  obtain ⟨s₀, tr, s, hstarts, hrun, hsteps, hend⟩ :=
    exists_broadcast_of_exec 0 (statePacket 0 [1]) nopValidationFunc
      threeMembers [.iterate, .disconnect 0, .iterate, .iterate]
      (fun s₀ tr s => decide (Finished s ∧
        (s₀.game 0).clients = [0, 1, 2] ∧ (s.server.game 0).clients = [1, 2] ∧
        IsRecipient s₀ 1 ∧ IsRecipient s₀ 2 ∧
        timesWritten 1 tr = 0 ∧ timesWritten 2 tr = 2))
      (by decide +kernel)
  exact ⟨s₀, tr, s, hstarts, hrun, hsteps, of_decide_eq_true hend⟩

/-- When the last member leaves instead, the second is written it once. -/
theorem broadcast_once_last_leaves :
    ∃ s₀ tr s, Starts 0 s₀ ∧
      (broadcastSystem 0 (statePacket 0 [1])).Run s₀ tr s ∧
      tr.map Transition.event = [.iterate, .disconnect 2, .iterate, .iterate] ∧
      timesWritten 1 tr = 1 := by
  obtain ⟨s₀, tr, s, hstarts, hrun, hsteps, hend⟩ :=
    exists_broadcast_of_exec 0 (statePacket 0 [1]) nopValidationFunc
      threeMembers [.iterate, .disconnect 2, .iterate, .iterate]
      (fun s₀ tr s => decide (Finished s ∧
        1 ∈ (s₀.game 0).clients ∧ IsRecipient s₀ 1 ∧
        ∀ t ∈ tr, t.event = .iterate ∨
          (t.event = .disconnect 2 ∧ t.pre.clients.toList = [0, 1, 2])))
      (by decide +kernel)
  obtain ⟨hfinished, hmember, hrecipient, hevents⟩ := of_decide_eq_true hend
  refine ⟨s₀, tr, s, hstarts, hrun, hsteps,
    (broadcast_once_iff hstarts hrun hfinished hmember hrecipient ?_).mpr ?_⟩
  · intro t ht hevent
    rcases hevents t ht with h | ⟨h, -⟩ <;> cases hevent.symm.trans h
  · rintro t ht ⟨d, i, k, hevent, -, hi, hk, hik, -⟩
    rcases hevents t ht with h | ⟨h, hlist⟩
    · cases hevent.symm.trans h
    · cases hevent.symm.trans h
      -- client 2 is listed last, so not before client 1
      rw [hlist] at hi hk
      have hklen : k < 3 := (List.getElem?_eq_some_iff.mp hk).1
      have hk₁ : k = 1 := by
        interval_cases k <;> simp at hk ⊢
      obtain rfl : i = 0 := by omega
      simp at hi

end BroadcastLoop

end Server
end TurnBasedGame
