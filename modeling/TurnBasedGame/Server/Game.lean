import TurnBasedGame.Server.Errors
import TurnBasedGame.Server.Packet

/-!
# Clients, games and the game manager

Clients and games are Go pointers; here they are numbers that a server state
maps to their current contents.  A channel belongs to exactly one game, so the
right to send on it (`gamePump`) names that game.

The functions of the game manager are translated statement by statement, on
the state of the whole server; `GameManager.Disconnect` is the only one that
slices, in `removeClient`, and is the only checked one.
-/

namespace TurnBasedGame
namespace Server

open Kernel

section Game

/-- A `*Client`. -/
abbrev ClientPtr := Nat

/-- A `*Game`. -/
abbrev GamePtr := Nat

abbrev ClientID := List UInt8
abbrev GameID := List UInt8
abbrev GameState := UInt8

/-- What `rand.Int` can return to `GenerateClientId`. -/
abbrev ClientDraw := Fin 90000000

/-- What `rand.Int` can return to `GenerateGameId`. -/
abbrev GameDraw := Fin 900000

instance clientDraw_neZero : NeZero 90000000 := ⟨by decide⟩

instance gameDraw_neZero : NeZero 900000 := ⟨by decide⟩

/-- Eight digits, padded with zeros. -/
def generateClientId (n : ClientDraw) : ClientID :=
  (decimalBytes (n + 10000000)).leftpad 8 48

/-- Decimal digits of a number from 100000 on. -/
def generateGameId (n : GameDraw) : GameID :=
  decimalBytes (n + 100000)

theorem decimalBytes_length
    {n k : Nat}
    (hlo : 10 ^ k ≤ n)
    (hhi : n < 10 ^ (k + 1)) :
    (decimalBytes n).length = k + 1 := by
  have hle : (Nat.toDigits 10 n).length ≤ k + 1 :=
    (Nat.length_toDigits_le_iff (by decide) (by omega)).mpr hhi
  rw [decimalBytes, List.length_map]
  rcases Nat.eq_zero_or_pos k with rfl | hk
  · have hpos : 0 < (Nat.toDigits 10 n).length := Nat.length_toDigits_pos
    omega
  · have hgt : ¬ (Nat.toDigits 10 n).length ≤ k := by
      rw [Nat.length_toDigits_le_iff (by decide) hk]
      omega
    omega

/-- Every game id the generator can return has six digits. -/
@[simp] theorem generateGameId_length
    (n : GameDraw) :
    (generateGameId n).length = 6 := by
  have hn := n.isLt
  exact decimalBytes_length (k := 5) (by omega) (by omega)

/-- Every client id the generator can return has eight digits. -/
@[simp] theorem generateClientId_length
    (n : ClientDraw) :
    (generateClientId n).length = 8 := by
  have hn := n.isLt
  have hlen : (decimalBytes (n + 10000000)).length = 8 :=
    decimalBytes_length (k := 7) (by omega) (by omega)
  rw [generateClientId, List.length_leftpad, hlen]
  rfl

def gsVersion : UInt8 := 1
def gsTypeOffset : Nat := 1
def gsClientIdOffset : Nat := 2
def gsDataOffset : Nat := 10

/-- The game state type in the data of a packet. -/
def gameState (data : List UInt8) : Checked GameState :=
  index data gsTypeOffset

/-- The client id embedded in the data of a game-state packet. -/
def gameStateClientID (data : List UInt8) : Checked ClientID :=
  slice data gsClientIdOffset (gsClientIdOffset + 8)

/-- The data of a game-state packet after its own header. -/
def gameStateData (data : List UInt8) : Checked (List UInt8) :=
  sliceFrom data gsDataOffset

/-- The embedded client id of data long enough to have one. -/
theorem gameStateClientID_ok
    {data : List UInt8}
    (h : gsDataOffset ≤ data.length) :
    gameStateClientID data =
      .ok ((data.take gsDataOffset).drop gsClientIdOffset) :=
  slice_ok (by simp [gsClientIdOffset]) h

/-- The client id embedded in a packet, empty where there is none. -/
def embeddedID (p : Packet) : ClientID :=
  (p.payload.take gsDataOffset).drop gsClientIdOffset

/-- What reading the embedded client id can return. -/
theorem gameStateClientID_eq_ok_iff
    {data : List UInt8} {id : ClientID} :
    gameStateClientID data = .ok id ↔
      gsDataOffset ≤ data.length ∧
        (data.take gsDataOffset).drop gsClientIdOffset = id := by
  rw [gameStateClientID, slice_eq_ok_iff]
  simp [gsClientIdOffset, gsDataOffset]

/-- Shorter data has no embedded client id. -/
theorem gameStateClientID_panic
    {data : List UInt8}
    (h : data.length < gsDataOffset) :
    gameStateClientID data = .error .sliceOutOfRange :=
  slice_panic h

/-- A validation function: nil (`none`) or an error, unless it panics. -/
abbrev ValidationFunc := Packet → Checked (Option String)

/-- The validation function of a game manager that was given no other. -/
def nopValidationFunc : ValidationFunc :=
  fun _ => return none

/-- The validation function that `main` installs; all its cases are nil. -/
def validateGamePkt : ValidationFunc := fun pkt => do
  let data ← pkt.getData
  let _ ← gameState data
  return none

structure Client where
  clientID : ClientID
  gameID : GameID
  gamePump : Option GamePtr
deriving DecidableEq, Repr

/-- A client as `NewClient` makes it. -/
def newClient : Client where
  clientID := []
  gameID := []
  gamePump := none

structure Game where
  clients : List ClientPtr
  id : GameID
  /-- The buffered channel between the handlers and `readLoop`. -/
  ch : List Packet
  /-- A packet `readLoop` has received and not finished broadcasting. -/
  holding : Option Packet
  validationFunc : ValidationFunc

/-- Capacity of the channel of a game. -/
def gameChanCap : Nat := 10

/-- The game a client creates, with the id that was drawn for it. -/
def newGame (c : ClientPtr) (vf : ValidationFunc) (n : GameDraw) : Game where
  clients := [c]
  id := generateGameId n
  ch := []
  holding := none
  validationFunc := vf

/-- Where the handling of a connection stands. -/
inductive ConnState
  | absent
  | authenticating (id : ClientID)
  | serving
  | returned
deriving DecidableEq, Repr

/-- The state of the whole server process. -/
structure TCPServer where
  /-- `handleConnection`, for each client. -/
  conn : ClientPtr → ConnState
  client : ClientPtr → Client
  /-- The keys of `t.clients`; each connection has its own address. -/
  clients : ClientPtr → Bool
  game : GamePtr → Game
  /-- Number of games made so far. -/
  allocated : Nat
  /-- The registry of the game manager. -/
  games : GameID → Option GamePtr
  validationFunc : ValidationFunc

/-- A write to the connection of a client. -/
structure Write where
  dest : ClientPtr
  data : List UInt8
deriving DecidableEq, Repr

/-- What a handler has done when it returns. -/
structure Effect where
  server : TCPServer
  writes : List Write
  err : Option ServerError

namespace TCPServer

/-- Assign to the fields of a client. -/
def setClient (s : TCPServer) (c : ClientPtr) (cl : Client) : TCPServer :=
  { s with client := Function.update s.client c cl }

/-- Assign to the fields of a game. -/
def setGame (s : TCPServer) (g : GamePtr) (game : Game) : TCPServer :=
  { s with game := Function.update s.game g game }

/-- Allocate a game. -/
def allocGame (s : TCPServer) (game : Game) : TCPServer :=
  { s.setGame s.allocated game with allocated := s.allocated + 1 }

/-- Assign to an entry of the registry. -/
def registerGame (s : TCPServer) (id : GameID) (g : GamePtr) : TCPServer :=
  { s with games := Function.update s.games id (some g) }

/-- Assign to an entry of the table of connected clients. -/
def setRegistered (s : TCPServer) (c : ClientPtr) (b : Bool) : TCPServer :=
  { s with clients := Function.update s.clients c b }

/-- Move the handling of a connection on. -/
def setConn (s : TCPServer) (c : ClientPtr) (st : ConnState) : TCPServer :=
  { s with conn := Function.update s.conn c st }

section SetGame

variable (s : TCPServer) (g : GamePtr) (game : Game)

@[simp] theorem setGame_self :
    (s.setGame g game).game g = game := by
  simp [setGame]

@[simp] theorem setGame_other
    {g' : GamePtr} (h : g' ≠ g) :
    (s.setGame g game).game g' = s.game g' := by
  simp [setGame, h]

end SetGame

end TCPServer

/-- A packet written to a client. -/
def writePacket
    (c : ClientPtr) (enc : Encoding) (pktType : PacketType)
    (data : List UInt8) : Write where
  dest := c
  data := (constructPacket enc pktType data).data

namespace GameManager

def createNewGame
    (s : TCPServer) (c : ClientPtr) (n : GameDraw) : Effect :=
  if (s.client c).gameID.length ≠ 0 then
    ⟨s, [], some .invalidCreateGameAttempt⟩
  else
    let game := newGame c s.validationFunc n
    let g := s.allocated
    let s := s.allocGame game
    let s := s.registerGame game.id g
    let msg := game.id
    let write := writePacket c encString packetCreateGameSuccess msg
    let s := s.setClient c
      { s.client c with gameID := game.id, gamePump := some g }
    ⟨s, [write], none⟩

def joinGame (s : TCPServer) (c : ClientPtr) (id : GameID) : Effect :=
  if (s.client c).gameID.length ≠ 0 then
    ⟨s, [], some .invalidGameJoinAttempt⟩
  else if id.length ≠ 6 then
    ⟨s, [], some .invalidGameId⟩
  else
    match s.games id with
    | none => ⟨s, [], some .invalidGameId⟩
    | some g =>
        let game := s.game g
        let msg := game.id
        let s := s.setGame g { game with clients := game.clients ++ [c] }
        let write := writePacket c encString packetJoinGameSuccess msg
        let s := s.setClient c
          { s.client c with gameID := game.id, gamePump := some g }
        ⟨s, [write], none⟩

/-- The loop of `removeClient`, from index `i` on. -/
def removeClientFrom
    (clients : List ClientPtr) (target : ClientPtr) :
    Nat → List ClientPtr → Checked (List ClientPtr)
  | _, [] => return clients
  | i, client :: rest =>
      if client = target then do
        let front ← sliceTo clients i
        let tail ← sliceFrom clients (i + 1)
        return front ++ tail
      else
        removeClientFrom clients target (i + 1) rest

def removeClient
    (clients : List ClientPtr) (target : ClientPtr) :
    Checked (List ClientPtr) :=
  removeClientFrom clients target 0 clients

def disconnect (s : TCPServer) (c : ClientPtr) : Checked Effect := do
  if (s.client c).gameID.length = 0 then
    return ⟨s, [], some .clientNotInGame⟩
  match s.games (s.client c).gameID with
  | none => return ⟨s, [], some .invalidGameDisconnect⟩
  | some g =>
      let game := s.game g
      let clients ← removeClient game.clients c
      let s := s.setGame g { game with clients := clients }
      -- the right to send on the game's channel is kept
      let s := s.setClient c { s.client c with gameID := [] }
      return ⟨s, [writePacket c encString packetLeaveGameSuccess []], none⟩

def startGame (s : TCPServer) (_c : ClientPtr) (id : GameID) : Effect :=
  match s.games id with
  | none => ⟨s, [], some .invalidGameId⟩
  | some _ => ⟨s, [], none⟩

/-- `removeClient` deletes the first occurrence and stays in bounds. -/
theorem removeClient_eq
    (clients : List ClientPtr) (target : ClientPtr) :
    removeClient clients target = .ok (clients.erase target) := by
  have hloop : ∀ (rest front : List ClientPtr),
      front ++ rest = clients → target ∉ front →
      removeClientFrom clients target front.length rest =
        .ok (clients.erase target) := by
    intro rest
    induction rest with
    | nil =>
        intro front hsplit hfront
        have hclients : front = clients := by simpa using hsplit
        rw [← hclients, List.erase_of_not_mem hfront]
        rfl
    | cons client rest ih =>
        intro front hsplit hfront
        have hlen : clients.length = front.length + (rest.length + 1) := by
          rw [← hsplit]
          simp
        by_cases heq : client = target
        · subst heq
          have htail : clients.drop (front.length + 1) = rest := by
            rw [← hsplit]
            simp [List.drop_append]
          have herase : clients.erase client = front ++ rest := by
            rw [← hsplit, List.erase_append_right _ hfront,
              List.erase_cons_head]
          rw [removeClientFrom, if_pos rfl, sliceTo_ok (by omega),
            sliceFrom_ok (by omega), htail, herase, ← hsplit]
          simp [bind, Except.bind, pure, Except.pure]
        · rw [removeClientFrom, if_neg heq]
          have hfront' : target ∉ front ++ [client] := by
            simp only [List.mem_append, List.mem_singleton, not_or]
            exact ⟨hfront, fun h => heq h.symm⟩
          have hnext := ih (front ++ [client]) (by simpa using hsplit) hfront'
          simpa using hnext
  exact hloop clients [] rfl (by simp)

end GameManager

end Game

end Server
end TurnBasedGame
