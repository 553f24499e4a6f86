import Fusain.Decoder
import Fusain.Lib.Zcbor

/-!
# Message types and the message header

`fusain_msg_type_t`, the two-element array that wraps every payload, and the range
checks that the generated payload code makes.
-/
namespace Fusain.Messages

open Decoder

inductive FusainMsgType where
  | motorConfig | pumpConfig | tempConfig | glowConfig
  | dataSubscription | dataUnsubscribe | telemetryConfig | timeoutConfig | discoveryRequest
  | stateCommand | motorCommand | pumpCommand | glowCommand | tempCommand | sendTelemetry
  | pingRequest
  | stateData | motorData | pumpData | glowData | tempData | deviceAnnounce | pingResponse
  | errorInvalidCmd | errorStateReject
  deriving DecidableEq, Repr

def FusainMsgType.value : FusainMsgType → UInt8
  | motorConfig => 0x10
  | pumpConfig => 0x11
  | tempConfig => 0x12
  | glowConfig => 0x13
  | dataSubscription => 0x14
  | dataUnsubscribe => 0x15
  | telemetryConfig => 0x16
  | timeoutConfig => 0x17
  | discoveryRequest => 0x1F
  | stateCommand => 0x20
  | motorCommand => 0x21
  | pumpCommand => 0x22
  | glowCommand => 0x23
  | tempCommand => 0x24
  | sendTelemetry => 0x25
  | pingRequest => 0x2F
  | stateData => 0x30
  | motorData => 0x31
  | pumpData => 0x32
  | glowData => 0x33
  | tempData => 0x34
  | deviceAnnounce => 0x35
  | pingResponse => 0x3F
  | errorInvalidCmd => 0xE0
  | errorStateReject => 0xE1

def cborNil : UInt8 := 0xF6

/-- encode_cbor_message_header: the bytes it stores; `none` is -1. -/
def encodeCborMessageHeader (bufferSize : Nat) (msgType : UInt8) : Option (List UInt8) :=
  if msgType ≤ 0x17 then
    if bufferSize < 2 then none else some [cborArray2, msgType]
  else
    if bufferSize < 3 then none else some [cborArray2, cborUint8Prefix, msgType]

/-- encode_cbor_nil: the bytes it stores; `none` is -1. -/
def encodeCborNil (bufferSize : Nat) : Option (List UInt8) :=
  if bufferSize < 1 then none else some [cborNil]

/-- The header of a type fits into every payload array and is read back in front of any
non-empty body. -/
theorem header_inverse (msgType : UInt8) {bufferSize : Nat} (h : 3 ≤ bufferSize) :
    ∃ header, encodeCborMessageHeader bufferSize msgType = some header ∧
      2 ≤ header.length ∧ header.length ≤ 3 ∧
      ∀ rest size, header.length + 1 ≤ size →
        decodeCborMessageHeader (header ++ rest) size = some (msgType, header.length) := by
  by_cases ht : msgType ≤ 0x17
  · refine ⟨[cborArray2, msgType], ?_, by simp, by simp, fun rest size hs => ?_⟩
    · simp only [encodeCborMessageHeader, ht, if_true, if_neg (show ¬ bufferSize < 2 by omega)]
    · have hs' : ¬ size < 2 := by simp only [List.length_cons, List.length_nil] at hs; omega
      simp [decodeCborMessageHeader, hs', ht]
  · refine ⟨[cborArray2, cborUint8Prefix, msgType], ?_, by simp, by simp, fun rest size hs => ?_⟩
    · simp only [encodeCborMessageHeader, ht, if_false, if_neg (show ¬ bufferSize < 3 by omega)]
    · have hs' : ¬ size < 2 ∧ ¬ size < 3 := by
        simp only [List.length_cons, List.length_nil] at hs
        omega
      have hp : ¬ cborUint8Prefix ≤ 0x17 := by decide
      simp [decodeCborMessageHeader, hs', hp]

/-- The room behind the longer header. -/
abbrev bodySize : Nat := maxPayloadSize - 3

/-- At most UINT32_MAX, which every value of the type is. -/
def anyUint32 (v : UInt32) : Bool := v.toNat ≤ 0xFFFFFFFF

def inInt8 (v : Int32) : Bool := -128 ≤ v.toInt ∧ v.toInt ≤ 127

def inUint8 (v : UInt32) : Bool := v.toNat ≤ 0xFF

def unchecked {α : Type} (_ : α) : Bool := true

theorem anyUint32_true (v : UInt32) : anyUint32 v = true := by
  have := v.toNat_lt
  rw [anyUint32, decide_eq_true_eq]
  omega

end Fusain.Messages
