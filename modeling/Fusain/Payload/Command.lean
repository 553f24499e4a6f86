import Fusain.Messages

/-!
# Control command payloads

The payload maps of the commands that drive the appliance.
-/
namespace Fusain.Payload

open Messages Zcbor

variable {E D : Type} (z : Runtime E D)

/-- state_command_payload -/
structure StateCommandPayload where
  mode : UInt32
  uint1int : Option Int32
  deriving DecidableEq, Repr

/-- motor_command_payload -/
structure MotorCommandPayload where
  motorIndex : Int32
  uint1int : Int32
  deriving DecidableEq, Repr

/-- pump_command_payload -/
structure PumpCommandPayload where
  pumpIndex : Int32
  uint1int : Int32
  deriving DecidableEq, Repr

/-- glow_command_payload -/
structure GlowCommandPayload where
  glowIndex : Int32
  uint1int : Int32
  deriving DecidableEq, Repr

/-- temp_command_payload -/
structure TempCommandPayload where
  thermometerIndex : Int32
  tempCmdType : UInt32
  motorIndex : Option Int32
  uint3float : Option UInt64
  deriving DecidableEq, Repr

/-- send_telemetry_payload -/
structure SendTelemetryPayload where
  telemetryType : UInt32
  uint1uint : Option UInt32
  deriving DecidableEq, Repr

def encodeRepeatedStateCommandPayloadUint1int : Int32 → Put E :=
  z.entry 1 unchecked z.int32Encode

def encodeRepeatedTempCommandPayloadMotorIndex : Int32 → Put E :=
  z.entry 2 inInt8 z.int32Encode

def encodeRepeatedTempCommandPayloadUint3float : UInt64 → Put E :=
  z.entry 3 unchecked z.float64Encode

def encodeRepeatedSendTelemetryPayloadUint1uint : UInt32 → Put E :=
  z.entry 1 unchecked z.uint32Encode

/-- encode_state_command_payload -/
def encodeStateCommandPayload (input : StateCommandPayload) : Put E :=
  z.map 2 [
    z.entry 0 inUint8 z.uint32Encode input.mode,
    optional (encodeRepeatedStateCommandPayloadUint1int z) input.uint1int]

/-- encode_motor_command_payload -/
def encodeMotorCommandPayload (input : MotorCommandPayload) : Put E :=
  z.map 2 [
    z.entry 0 inInt8 z.int32Encode input.motorIndex,
    z.entry 1 unchecked z.int32Encode input.uint1int]

/-- encode_pump_command_payload -/
def encodePumpCommandPayload (input : PumpCommandPayload) : Put E :=
  z.map 2 [
    z.entry 0 inInt8 z.int32Encode input.pumpIndex,
    z.entry 1 unchecked z.int32Encode input.uint1int]

/-- encode_glow_command_payload -/
def encodeGlowCommandPayload (input : GlowCommandPayload) : Put E :=
  z.map 2 [
    z.entry 0 inInt8 z.int32Encode input.glowIndex,
    z.entry 1 unchecked z.int32Encode input.uint1int]

/-- encode_temp_command_payload -/
def encodeTempCommandPayload (input : TempCommandPayload) : Put E :=
  z.map 4 [
    z.entry 0 inInt8 z.int32Encode input.thermometerIndex,
    z.entry 1 inUint8 z.uint32Encode input.tempCmdType,
    optional (encodeRepeatedTempCommandPayloadMotorIndex z) input.motorIndex,
    optional (encodeRepeatedTempCommandPayloadUint3float z) input.uint3float]

/-- encode_send_telemetry_payload -/
def encodeSendTelemetryPayload (input : SendTelemetryPayload) : Put E :=
  z.map 2 [
    z.entry 0 inUint8 z.uint32Encode input.telemetryType,
    optional (encodeRepeatedSendTelemetryPayloadUint1uint z) input.uint1uint]

def decodeRepeatedStateCommandPayloadUint1int : Get D Int32 :=
  z.readEntry 1 unchecked z.int32Decode

def decodeRepeatedTempCommandPayloadMotorIndex : Get D Int32 :=
  z.readEntry 2 inInt8 z.int32Decode

def decodeRepeatedTempCommandPayloadUint3float : Get D UInt64 :=
  z.readEntry 3 unchecked z.floatDecode

def decodeRepeatedSendTelemetryPayloadUint1uint : Get D UInt32 :=
  z.readEntry 1 unchecked z.uint32Decode

/-- decode_state_command_payload -/
def decodeStateCommandPayload : Get D StateCommandPayload :=
  z.readMap do
    let mode ← z.readEntry 0 inUint8 z.uint32Decode
    let uint1int ← z.presentDecode (decodeRepeatedStateCommandPayloadUint1int z)
    return { mode, uint1int }

/-- decode_motor_command_payload -/
def decodeMotorCommandPayload : Get D MotorCommandPayload :=
  z.readMap do
    let motorIndex ← z.readEntry 0 inInt8 z.int32Decode
    let uint1int ← z.readEntry 1 unchecked z.int32Decode
    return { motorIndex, uint1int }

/-- decode_pump_command_payload -/
def decodePumpCommandPayload : Get D PumpCommandPayload :=
  z.readMap do
    let pumpIndex ← z.readEntry 0 inInt8 z.int32Decode
    let uint1int ← z.readEntry 1 unchecked z.int32Decode
    return { pumpIndex, uint1int }

/-- decode_glow_command_payload -/
def decodeGlowCommandPayload : Get D GlowCommandPayload :=
  z.readMap do
    let glowIndex ← z.readEntry 0 inInt8 z.int32Decode
    let uint1int ← z.readEntry 1 unchecked z.int32Decode
    return { glowIndex, uint1int }

/-- decode_temp_command_payload -/
def decodeTempCommandPayload : Get D TempCommandPayload :=
  z.readMap do
    let thermometerIndex ← z.readEntry 0 inInt8 z.int32Decode
    let tempCmdType ← z.readEntry 1 inUint8 z.uint32Decode
    let motorIndex ← z.presentDecode (decodeRepeatedTempCommandPayloadMotorIndex z)
    let uint3float ← z.presentDecode (decodeRepeatedTempCommandPayloadUint3float z)
    return { thermometerIndex, tempCmdType, motorIndex, uint3float }

/-- decode_send_telemetry_payload -/
def decodeSendTelemetryPayload : Get D SendTelemetryPayload :=
  z.readMap do
    let telemetryType ← z.readEntry 0 inUint8 z.uint32Decode
    let uint1uint ← z.presentDecode (decodeRepeatedSendTelemetryPayloadUint1uint z)
    return { telemetryType, uint1uint }

def cborEncodeStateCommandPayload (input : StateCommandPayload) (payload : List UInt8) :
    Option Nat × List UInt8 := z.entryEncode (encodeStateCommandPayload z input) payload

def cborDecodeStateCommandPayload (payload : List UInt8) : Option (StateCommandPayload × Nat) :=
  z.entryDecode (decodeStateCommandPayload z) payload

def cborEncodeMotorCommandPayload (input : MotorCommandPayload) (payload : List UInt8) :
    Option Nat × List UInt8 := z.entryEncode (encodeMotorCommandPayload z input) payload

def cborDecodeMotorCommandPayload (payload : List UInt8) : Option (MotorCommandPayload × Nat) :=
  z.entryDecode (decodeMotorCommandPayload z) payload

def cborEncodePumpCommandPayload (input : PumpCommandPayload) (payload : List UInt8) :
    Option Nat × List UInt8 := z.entryEncode (encodePumpCommandPayload z input) payload

def cborDecodePumpCommandPayload (payload : List UInt8) : Option (PumpCommandPayload × Nat) :=
  z.entryDecode (decodePumpCommandPayload z) payload

def cborEncodeGlowCommandPayload (input : GlowCommandPayload) (payload : List UInt8) :
    Option Nat × List UInt8 := z.entryEncode (encodeGlowCommandPayload z input) payload

def cborDecodeGlowCommandPayload (payload : List UInt8) : Option (GlowCommandPayload × Nat) :=
  z.entryDecode (decodeGlowCommandPayload z) payload

def cborEncodeTempCommandPayload (input : TempCommandPayload) (payload : List UInt8) :
    Option Nat × List UInt8 := z.entryEncode (encodeTempCommandPayload z input) payload

def cborDecodeTempCommandPayload (payload : List UInt8) : Option (TempCommandPayload × Nat) :=
  z.entryDecode (decodeTempCommandPayload z) payload

def cborEncodeSendTelemetryPayload (input : SendTelemetryPayload) (payload : List UInt8) :
    Option Nat × List UInt8 := z.entryEncode (encodeSendTelemetryPayload z input) payload

def cborDecodeSendTelemetryPayload (payload : List UInt8) : Option (SendTelemetryPayload × Nat) :=
  z.entryDecode (decodeSendTelemetryPayload z) payload

section Transfers

variable {z} {W : E → List UInt8 → Nat → Prop} {R : D → Bool → List UInt8 → Prop}
  (hz : Standard z W R)

include hz

theorem state_command_transfers (p : StateCommandPayload) (h : inUint8 p.mode) :
    Transfers W R (encodeStateCommandPayload z p) (decodeStateCommandPayload z) p bodySize :=
  map_transfers hz (by decide) <|
  carries_entry hz (inverse_uint32 hz) h (by decide) <|
  carries_optional hz (inverse_int32 hz) p.uint1int (fun _ _ => rfl) (by decide) <|
  carries_nil _ p _

theorem motor_command_transfers (p : MotorCommandPayload) (h : inInt8 p.motorIndex) :
    Transfers W R (encodeMotorCommandPayload z p) (decodeMotorCommandPayload z) p bodySize :=
  map_transfers hz (by decide) <|
  carries_entry hz (inverse_int32 hz) h (by decide) <|
  carries_entry hz (inverse_int32 hz) rfl (by decide) <|
  carries_nil _ p _

theorem pump_command_transfers (p : PumpCommandPayload) (h : inInt8 p.pumpIndex) :
    Transfers W R (encodePumpCommandPayload z p) (decodePumpCommandPayload z) p bodySize :=
  map_transfers hz (by decide) <|
  carries_entry hz (inverse_int32 hz) h (by decide) <|
  carries_entry hz (inverse_int32 hz) rfl (by decide) <|
  carries_nil _ p _

theorem glow_command_transfers (p : GlowCommandPayload) (h : inInt8 p.glowIndex) :
    Transfers W R (encodeGlowCommandPayload z p) (decodeGlowCommandPayload z) p bodySize :=
  map_transfers hz (by decide) <|
  carries_entry hz (inverse_int32 hz) h (by decide) <|
  carries_entry hz (inverse_int32 hz) rfl (by decide) <|
  carries_nil _ p _

theorem temp_command_transfers (p : TempCommandPayload) (hi : inInt8 p.thermometerIndex)
    (ht : inUint8 p.tempCmdType) (hm : ∀ v ∈ p.motorIndex, inInt8 v) :
    Transfers W R (encodeTempCommandPayload z p) (decodeTempCommandPayload z) p bodySize :=
  map_transfers hz (by decide) <|
  carries_entry hz (inverse_int32 hz) hi (by decide) <|
  carries_entry hz (inverse_uint32 hz) ht (by decide) <|
  carries_optional hz (inverse_int32 hz) p.motorIndex hm (by decide) <|
  carries_optional hz (inverse_float hz) p.uint3float (fun _ _ => rfl) (by decide) <|
  carries_nil _ p _

theorem send_telemetry_transfers (p : SendTelemetryPayload) (h : inUint8 p.telemetryType) :
    Transfers W R (encodeSendTelemetryPayload z p) (decodeSendTelemetryPayload z) p bodySize :=
  map_transfers hz (by decide) <|
  carries_entry hz (inverse_uint32 hz) h (by decide) <|
  carries_optional hz (inverse_uint32 hz) p.uint1uint (fun _ _ => rfl) (by decide) <|
  carries_nil _ p _

end Transfers

section Fails

variable {z}

theorem state_command_fails {p : StateCommandPayload} (h : inUint8 p.mode = false) :
    Fails (encodeStateCommandPayload z p) := fails_map (.head _) (fails_entry h)

theorem motor_command_fails {p : MotorCommandPayload} (h : inInt8 p.motorIndex = false) :
    Fails (encodeMotorCommandPayload z p) := fails_map (.head _) (fails_entry h)

theorem pump_command_fails {p : PumpCommandPayload} (h : inInt8 p.pumpIndex = false) :
    Fails (encodePumpCommandPayload z p) := fails_map (.head _) (fails_entry h)

theorem glow_command_fails {p : GlowCommandPayload} (h : inInt8 p.glowIndex = false) :
    Fails (encodeGlowCommandPayload z p) := fails_map (.head _) (fails_entry h)

theorem temp_command_fails {p : TempCommandPayload}
    (h : inInt8 p.thermometerIndex = false ∨ inUint8 p.tempCmdType = false ∨
      ∃ v ∈ p.motorIndex, inInt8 v = false) : Fails (encodeTempCommandPayload z p) := by
  rcases h with h | h | ⟨v, hv, h⟩
  · exact fails_map (.head _) (fails_entry h)
  · exact fails_map (.tail _ (.head _)) (fails_entry h)
  · exact fails_map (.tail _ (.tail _ (.head _))) (fails_optional hv (fails_entry h))

theorem send_telemetry_fails {p : SendTelemetryPayload} (h : inUint8 p.telemetryType = false) :
    Fails (encodeSendTelemetryPayload z p) := fails_map (.head _) (fails_entry h)

end Fails

end Fusain.Payload
