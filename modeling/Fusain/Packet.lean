import Mathlib.Data.List.Basic

/-!
# Packets, decoders and the constants of the wire format

The data model of `fusain.h`. Arrays keep their C sizes. A write outside an array
is recorded by the code that makes it and leaves the modelled memory as it was.
-/
namespace Fusain

def startByte : UInt8 := 0x7E
def endByte : UInt8 := 0x7F
def escByte : UInt8 := 0x7D
def escXor : UInt8 := 0x20

abbrev maxPacketSize : Nat := 128
abbrev maxPayloadSize : Nat := 114
abbrev minPacketSize : Nat := 14

/-- fusain_packet_t -/
structure FusainPacket where
  start : UInt8
  length : UInt8
  address : UInt64
  msgType : UInt8
  payload : Vector UInt8 maxPayloadSize
  crc : UInt16
  stop : UInt8
  deriving DecidableEq, Repr

/-- fusain_decode_result_t -/
inductive FusainDecodeResult where
  | ok | incomplete | invalidStart | invalidCrc | invalidLength | bufferOverflow
  deriving DecidableEq, Repr

/-- fusain_decoder_t -/
structure FusainDecoder where
  state : UInt8
  buffer : Vector UInt8 maxPacketSize
  bufferIndex : Nat
  escapeNext : Bool
  addrByteCount : UInt8
  deriving DecidableEq, Repr

/-- The first `length` bytes of the payload array. -/
def FusainPacket.content (p : FusainPacket) : List UInt8 := p.payload.toList.take p.length.toNat

theorem FusainPacket.length_content (p : FusainPacket) (h : p.length.toNat ≤ maxPayloadSize) :
    p.content.length = p.length.toNat := by simp [content, h]

/-- Two packets that carry one message: the framing bytes and the payload array behind
LENGTH do not count. -/
structure SameMessage (p p' : FusainPacket) : Prop where
  length : p.length = p'.length
  address : p.address = p'.address
  content : p.content = p'.content
  crc : p.crc = p'.crc
  msgType : p.msgType = p'.msgType

def zeroPacket : FusainPacket := ⟨0, 0, 0, 0, Vector.replicate _ 0, 0, 0⟩

/-- An all-zero decoder, for concrete runs; 0 is DECODER_STATE_IDLE. -/
def zeroDecoder : FusainDecoder := ⟨0, Vector.replicate _ 0, 0, false, 0⟩

end Fusain
