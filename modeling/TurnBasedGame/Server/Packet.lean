import TurnBasedGame.Kernel.Slice
import TurnBasedGame.Kernel.Word

/-!
# Packets

The wire format: a header of four bytes (version, encoding and type packed in
one byte, big-endian length of the data) followed by the data.  The accessors
index and slice the packet without looking at its length first, so they can
stop the program on a packet shorter than its header.
-/

namespace TurnBasedGame
namespace Server

open Kernel

section Packet

def version : UInt8 := 1
def packetMaxSize : Nat := 1024
def packetHeaderSize : Nat := 4
def headerLengthOffset : Nat := 2
def encTypeOffset : Nat := 1
def maxDataSize : Nat := packetMaxSize - packetHeaderSize

/-- Available encodings, of which the server uses these two. -/
abbrev Encoding := UInt8

def encString : Encoding := 2
def encBytes : Encoding := 3

/-- Available packet types. -/
abbrev PacketType := UInt8

def packetAuth : PacketType := 0
def packetHealthCheckReq : PacketType := 1
def packetHealthCheckRes : PacketType := 2
def packetError : PacketType := 3
def packetCreateGame : PacketType := 4
def packetCreateGameSuccess : PacketType := 5
def packetJoinGame : PacketType := 6
def packetJoinGameSuccess : PacketType := 7
def packetStartGame : PacketType := 8
def packetLeaveGame : PacketType := 9
def packetLeaveGameSuccess : PacketType := 10
def packetGameState : PacketType := 11
def packetDisconnect : PacketType := 12

/-- A packet is the bytes it is sent as. -/
structure Packet where
  data : List UInt8
deriving DecidableEq, Repr

/-- Encoding and type packed in one header byte. -/
def bitPack (enc : Encoding) (pktType : PacketType) : UInt8 :=
  ((enc &&& 0x3) <<< 6) ||| (pktType &&& 0x3F)

/-- Encoding packed in the second byte of the header. -/
def Packet.getEncoding (p : Packet) : Checked Encoding := do
  let b ← index p.data encTypeOffset
  return (b >>> 6) &&& 0x3

/-- Type packed in the second byte of the header. -/
def Packet.getType (p : Packet) : Checked PacketType := do
  let b ← index p.data encTypeOffset
  return b &&& 0x3F

/-- The bytes of the packet after its header. -/
def Packet.getData (p : Packet) : Checked (List UInt8) :=
  sliceFrom p.data packetHeaderSize

/-- The data of a packet, empty where there is none. -/
def Packet.payload (p : Packet) : List UInt8 :=
  p.data.drop packetHeaderSize

/-- The packet with the given header fields and data. -/
def constructPacket
    (enc : Encoding) (pktType : PacketType) (data : List UInt8) : Packet :=
  let len := UInt16.ofNat data.length
  let header := [version, bitPack enc pktType, highByte len, lowByte len]
  ⟨header ++ data⟩

/-- The length field of a header. -/
def getPacketLength (data : List UInt8) : Checked UInt16 := do
  let field ← sliceFrom data headerLengthOffset
  let lo ← index field 1
  let hi ← index field 0
  return bigEndianUint16 hi lo

/-- The number in the length field of a header, 0 where there is none. -/
def lengthField : List UInt8 → Nat
  | _ :: _ :: hi :: lo :: _ => (bigEndianUint16 hi lo).toNat
  | _ => 0

theorem lengthField_lt
    (w : List UInt8) :
    lengthField w < 65536 := by
  unfold lengthField
  split
  · exact UInt16.toNat_lt _
  · omega

/-- The length field only depends on the header. -/
theorem lengthField_append
    {w : List UInt8} (v : List UInt8)
    (h : packetHeaderSize ≤ w.length) :
    lengthField (w ++ v) = lengthField w := by
  match w, h with
  | _ :: _ :: _ :: _ :: _, _ => rfl

/-- Reading the length field of anything as long as a header succeeds. -/
theorem getPacketLength_ok
    {w : List UInt8}
    (h : packetHeaderSize ≤ w.length) :
    getPacketLength w = .ok (UInt16.ofNat (lengthField w)) := by
  match w, h with
  | v :: b :: hi :: lo :: rest, _ =>
      have hfield :
          sliceFrom (v :: b :: hi :: lo :: rest) headerLengthOffset =
            .ok (hi :: lo :: rest) :=
        sliceFrom_ok (by simp [headerLengthOffset])
      have hlo : index (hi :: lo :: rest) 1 = .ok lo := rfl
      have hhi : index (hi :: lo :: rest) 0 = .ok hi := rfl
      rw [getPacketLength, hfield]
      simp only [bind, Except.bind, hlo, hhi, lengthField, pure, Except.pure,
        UInt16.ofNat_toNat]

/-- The type of a packet that has a second byte. -/
theorem getType_cons
    (v b : UInt8) (rest : List UInt8) :
    Packet.getType ⟨v :: b :: rest⟩ = .ok (b &&& 0x3F) :=
  rfl

/-- The encoding of a packet that has a second byte. -/
theorem getEncoding_cons
    (v b : UInt8) (rest : List UInt8) :
    Packet.getEncoding ⟨v :: b :: rest⟩ = .ok ((b >>> 6) &&& 0x3) :=
  rfl

/-- The data of a packet at least as long as its header. -/
theorem getData_ok
    {p : Packet}
    (h : packetHeaderSize ≤ p.data.length) :
    p.getData = .ok (p.data.drop packetHeaderSize) :=
  sliceFrom_ok h

/-- What reading the data of a packet can return. -/
theorem getData_eq_ok_iff
    {p : Packet} {data : List UInt8} :
    p.getData = .ok data ↔
      packetHeaderSize ≤ p.data.length ∧ p.payload = data :=
  sliceFrom_eq_ok_iff

/-- Unpacking the encoding and type of a header byte and packing them again. -/
theorem bitPack_unpack
    (b : UInt8) :
    bitPack ((b >>> 6) &&& 0x3) (b &&& 0x3F) = b := by
  have hall : ∀ i : Fin 256,
      bitPack ((UInt8.ofNat i >>> 6) &&& 0x3) (UInt8.ofNat i &&& 0x3F) =
        UInt8.ofNat i := by
    decide +kernel
  simpa using hall ⟨b.toNat, b.toNat_lt⟩

/-- Packing and unpacking an encoding and a type within their ranges. -/
theorem unpack_bitPack
    {enc : Encoding} {pktType : PacketType}
    (henc : enc < 4)
    (htype : pktType < 64) :
    (bitPack enc pktType >>> 6) &&& 0x3 = enc ∧
      bitPack enc pktType &&& 0x3F = pktType := by
  have hall : ∀ (e : Fin 4) (t : Fin 64),
      (bitPack (UInt8.ofNat e) (UInt8.ofNat t) >>> 6) &&& 0x3 =
          UInt8.ofNat e ∧
        bitPack (UInt8.ofNat e) (UInt8.ofNat t) &&& 0x3F =
          UInt8.ofNat t := by
    decide +kernel
  simpa using hall ⟨enc.toNat, henc⟩ ⟨pktType.toNat, htype⟩

/-- The bytes of a constructed packet. -/
theorem constructPacket_data
    (enc : Encoding) (pktType : PacketType) (data : List UInt8) :
    (constructPacket enc pktType data).data =
      version :: bitPack enc pktType ::
        highByte (UInt16.ofNat data.length) ::
        lowByte (UInt16.ofNat data.length) :: data :=
  rfl

@[simp] theorem constructPacket_length
    (enc : Encoding) (pktType : PacketType) (data : List UInt8) :
    (constructPacket enc pktType data).data.length =
      data.length + packetHeaderSize := by
  simp [constructPacket_data, packetHeaderSize]

/-- The length field of a constructed packet is the length of its data. -/
theorem lengthField_constructPacket
    (enc : Encoding) (pktType : PacketType) {data : List UInt8}
    (h : data.length < 65536) :
    lengthField (constructPacket enc pktType data).data = data.length := by
  simp only [constructPacket_data, lengthField, bigEndianUint16_bytes]
  exact UInt16.toNat_ofNat_of_lt' h

/-- Everything put into a constructed packet can be read back. -/
theorem constructPacket_read
    {enc : Encoding} {pktType : PacketType} (data : List UInt8)
    (henc : enc < 4)
    (htype : pktType < 64) :
    (constructPacket enc pktType data).getEncoding = .ok enc ∧
      (constructPacket enc pktType data).getType = .ok pktType ∧
      (constructPacket enc pktType data).getData = .ok data := by
  obtain ⟨hunenc, huntype⟩ := unpack_bitPack henc htype
  refine ⟨?_, ?_, ?_⟩
  · exact (getEncoding_cons _ _ _).trans (congrArg Except.ok hunenc)
  · exact (getType_cons _ _ _).trans (congrArg Except.ok huntype)
  · exact getData_ok (by simp)

/-- A packet whose header describes it completely. -/
structure WellFormed (p : Packet) : Prop where
  size : packetHeaderSize ≤ p.data.length
  versionByte : index p.data 0 = .ok version
  declared : ∃ len, getPacketLength p.data = .ok len ∧
    p.data.length = packetHeaderSize + len.toNat
  reencode : ∃ enc pktType data,
    p.getEncoding = .ok enc ∧ p.getType = .ok pktType ∧
      p.getData = .ok data ∧
      (constructPacket enc pktType data).data = p.data

/--
A version byte and a length field that is the number of bytes after the
header make a well formed packet.
-/
theorem wellFormed_of_lengthField
    {w : List UInt8}
    (hsize : packetHeaderSize ≤ w.length)
    (hversion : index w 0 = .ok version)
    (hlen : w.length = packetHeaderSize + lengthField w) :
    WellFormed ⟨w⟩ := by
  have hlt := lengthField_lt w
  refine ⟨hsize, hversion, ?_, ?_⟩
  · refine ⟨_, getPacketLength_ok hsize, ?_⟩
    rw [UInt16.toNat_ofNat_of_lt' hlt]
    exact hlen
  · match w, hsize with
    | v :: b :: hi :: lo :: data, hsize =>
        have hv : v = version := by simpa [index] using hversion
        have hdata : data.length = (bigEndianUint16 hi lo).toNat := by
          simp only [List.length_cons, packetHeaderSize, lengthField] at hlen
          omega
        refine ⟨_, _, data, getEncoding_cons v b _, getType_cons v b _,
          getData_ok hsize, ?_⟩
        rw [constructPacket_data, hv, bitPack_unpack, hdata,
          UInt16.ofNat_toNat, highByte_bigEndianUint16,
          lowByte_bigEndianUint16]

/-- A constructed packet whose data fits its length field is well formed. -/
theorem wellFormed_constructPacket
    (enc : Encoding) (pktType : PacketType) {data : List UInt8}
    (h : data.length < 65536) :
    WellFormed (constructPacket enc pktType data) := by
  have hsize := constructPacket_length enc pktType data
  have hfield := lengthField_constructPacket enc pktType h
  have hheader : packetHeaderSize ≤
      (constructPacket enc pktType data).data.length := by omega
  have hlen : (constructPacket enc pktType data).data.length =
      packetHeaderSize +
        lengthField (constructPacket enc pktType data).data := by omega
  exact wellFormed_of_lengthField hheader rfl hlen

/-- What a client that respects the advertised limits can send. -/
structure WirePacket where
  enc : Encoding
  pktType : PacketType
  payload : List UInt8
  enc_lt : enc < 4
  pktType_lt : pktType < 64
  size_lt : payload.length + packetHeaderSize < packetMaxSize

/-- The bytes of a packet as they are sent. -/
def WirePacket.bytes (p : WirePacket) : List UInt8 :=
  (constructPacket p.enc p.pktType p.payload).data

end Packet

end Server
end TurnBasedGame
