import Fusain.Messages

/-!
# Telemetry and error payloads

The payload maps of what the appliance reports.
-/
namespace Fusain.Payload

open Messages Zcbor

variable {E D : Type} (z : Runtime E D)

/-- state_data_payload -/
structure StateDataPayload where
  uint0bool : Bool
  errorCode : UInt32
  state : UInt32
  timestamp : UInt32
  deriving DecidableEq, Repr

/-- motor_data_payload -/
structure MotorDataPayload where
  motorIndex : Int32
  timestamp : UInt32
  uint2int : Int32
  uint3int : Int32
  uint4int : Option Int32
  uint5int : Option Int32
  uint6uint : Option UInt32
  uint7uint : Option UInt32
  deriving DecidableEq, Repr

/-- pump_data_payload -/
structure PumpDataPayload where
  pumpIndex : Int32
  timestamp : UInt32
  pumpEvent : UInt32
  uint3int : Option Int32
  deriving DecidableEq, Repr

/-- glow_data_payload -/
structure GlowDataPayload where
  glowIndex : Int32
  timestamp : UInt32
  uint2bool : Bool
  deriving DecidableEq, Repr

/-- temp_data_payload -/
structure TempDataPayload where
  thermometerIndex : Int32
  timestamp : UInt32
  uint2float : UInt64
  uint3bool : Option Bool
  uint4int : Option Int32
  uint5float : Option UInt64
  deriving DecidableEq, Repr

/-- device_announce_payload -/
structure DeviceAnnouncePayload where
  uint0uint : UInt32
  uint1uint : UInt32
  uint2uint : UInt32
  uint3uint : UInt32
  deriving DecidableEq, Repr

/-- ping_response_payload -/
structure PingResponsePayload where
  timestamp : UInt32
  deriving DecidableEq, Repr

/-- error_invalid_cmd_payload -/
structure ErrorInvalidCmdPayload where
  uint0int : Int32
  uint1uint : Option UInt32
  constraint : Option UInt32
  deriving DecidableEq, Repr

/-- error_state_reject_payload -/
structure ErrorStateRejectPayload where
  uint0int : Int32
  rejectionReason : Option UInt32
  deriving DecidableEq, Repr

def encodeRepeatedMotorDataPayloadUint4int : Int32 → Put E :=
  z.entry 4 unchecked z.int32Encode

def encodeRepeatedMotorDataPayloadUint5int : Int32 → Put E :=
  z.entry 5 unchecked z.int32Encode

def encodeRepeatedMotorDataPayloadUint6uint : UInt32 → Put E :=
  z.entry 6 anyUint32 z.uint32Encode

def encodeRepeatedMotorDataPayloadUint7uint : UInt32 → Put E :=
  z.entry 7 anyUint32 z.uint32Encode

def encodeRepeatedPumpDataPayloadUint3int : Int32 → Put E :=
  z.entry 3 unchecked z.int32Encode

def encodeRepeatedTempDataPayloadUint3bool : Bool → Put E :=
  z.entry 3 unchecked z.boolEncode

def encodeRepeatedTempDataPayloadUint4int : Int32 → Put E :=
  z.entry 4 unchecked z.int32Encode

def encodeRepeatedTempDataPayloadUint5float : UInt64 → Put E :=
  z.entry 5 unchecked z.float64Encode

def encodeRepeatedErrorInvalidCmdPayloadUint1uint : UInt32 → Put E :=
  z.entry 1 unchecked z.uint32Encode

def encodeRepeatedErrorInvalidCmdPayloadConstraint : UInt32 → Put E :=
  z.entry 2 inUint8 z.uint32Encode

def encodeRepeatedErrorStateRejectPayloadRejectionReason : UInt32 → Put E :=
  z.entry 1 inUint8 z.uint32Encode

/-- encode_state_data_payload -/
def encodeStateDataPayload (input : StateDataPayload) : Put E :=
  z.map 4 [
    z.entry 0 unchecked z.boolEncode input.uint0bool,
    z.entry 1 inUint8 z.uint32Encode input.errorCode,
    z.entry 2 inUint8 z.uint32Encode input.state,
    z.entry 3 anyUint32 z.uint32Encode input.timestamp]

/-- encode_motor_data_payload -/
def encodeMotorDataPayload (input : MotorDataPayload) : Put E :=
  z.map 8 [
    z.entry 0 inInt8 z.int32Encode input.motorIndex,
    z.entry 1 anyUint32 z.uint32Encode input.timestamp,
    z.entry 2 unchecked z.int32Encode input.uint2int,
    z.entry 3 unchecked z.int32Encode input.uint3int,
    optional (encodeRepeatedMotorDataPayloadUint4int z) input.uint4int,
    optional (encodeRepeatedMotorDataPayloadUint5int z) input.uint5int,
    optional (encodeRepeatedMotorDataPayloadUint6uint z) input.uint6uint,
    optional (encodeRepeatedMotorDataPayloadUint7uint z) input.uint7uint]

/-- encode_pump_data_payload -/
def encodePumpDataPayload (input : PumpDataPayload) : Put E :=
  z.map 4 [
    z.entry 0 inInt8 z.int32Encode input.pumpIndex,
    z.entry 1 anyUint32 z.uint32Encode input.timestamp,
    z.entry 2 inUint8 z.uint32Encode input.pumpEvent,
    optional (encodeRepeatedPumpDataPayloadUint3int z) input.uint3int]

/-- encode_glow_data_payload -/
def encodeGlowDataPayload (input : GlowDataPayload) : Put E :=
  z.map 3 [
    z.entry 0 inInt8 z.int32Encode input.glowIndex,
    z.entry 1 anyUint32 z.uint32Encode input.timestamp,
    z.entry 2 unchecked z.boolEncode input.uint2bool]

/-- encode_temp_data_payload -/
def encodeTempDataPayload (input : TempDataPayload) : Put E :=
  z.map 6 [
    z.entry 0 inInt8 z.int32Encode input.thermometerIndex,
    z.entry 1 anyUint32 z.uint32Encode input.timestamp,
    z.entry 2 unchecked z.float64Encode input.uint2float,
    optional (encodeRepeatedTempDataPayloadUint3bool z) input.uint3bool,
    optional (encodeRepeatedTempDataPayloadUint4int z) input.uint4int,
    optional (encodeRepeatedTempDataPayloadUint5float z) input.uint5float]

/-- encode_device_announce_payload -/
def encodeDeviceAnnouncePayload (input : DeviceAnnouncePayload) : Put E :=
  z.map 4 [
    z.entry 0 inUint8 z.uint32Encode input.uint0uint,
    z.entry 1 inUint8 z.uint32Encode input.uint1uint,
    z.entry 2 inUint8 z.uint32Encode input.uint2uint,
    z.entry 3 inUint8 z.uint32Encode input.uint3uint]

/-- encode_ping_response_payload -/
def encodePingResponsePayload (input : PingResponsePayload) : Put E :=
  z.map 1 [
    z.entry 0 anyUint32 z.uint32Encode input.timestamp]

/-- encode_error_invalid_cmd_payload -/
def encodeErrorInvalidCmdPayload (input : ErrorInvalidCmdPayload) : Put E :=
  z.map 3 [
    z.entry 0 unchecked z.int32Encode input.uint0int,
    optional (encodeRepeatedErrorInvalidCmdPayloadUint1uint z) input.uint1uint,
    optional (encodeRepeatedErrorInvalidCmdPayloadConstraint z) input.constraint]

/-- encode_error_state_reject_payload -/
def encodeErrorStateRejectPayload (input : ErrorStateRejectPayload) : Put E :=
  z.map 2 [
    z.entry 0 unchecked z.int32Encode input.uint0int,
    optional (encodeRepeatedErrorStateRejectPayloadRejectionReason z) input.rejectionReason]

def decodeRepeatedMotorDataPayloadUint4int : Get D Int32 :=
  z.readEntry 4 unchecked z.int32Decode

def decodeRepeatedMotorDataPayloadUint5int : Get D Int32 :=
  z.readEntry 5 unchecked z.int32Decode

def decodeRepeatedMotorDataPayloadUint6uint : Get D UInt32 :=
  z.readEntry 6 anyUint32 z.uint32Decode

def decodeRepeatedMotorDataPayloadUint7uint : Get D UInt32 :=
  z.readEntry 7 anyUint32 z.uint32Decode

def decodeRepeatedPumpDataPayloadUint3int : Get D Int32 :=
  z.readEntry 3 unchecked z.int32Decode

def decodeRepeatedTempDataPayloadUint3bool : Get D Bool :=
  z.readEntry 3 unchecked z.boolDecode

def decodeRepeatedTempDataPayloadUint4int : Get D Int32 :=
  z.readEntry 4 unchecked z.int32Decode

def decodeRepeatedTempDataPayloadUint5float : Get D UInt64 :=
  z.readEntry 5 unchecked z.floatDecode

def decodeRepeatedErrorInvalidCmdPayloadUint1uint : Get D UInt32 :=
  z.readEntry 1 unchecked z.uint32Decode

def decodeRepeatedErrorInvalidCmdPayloadConstraint : Get D UInt32 :=
  z.readEntry 2 inUint8 z.uint32Decode

def decodeRepeatedErrorStateRejectPayloadRejectionReason : Get D UInt32 :=
  z.readEntry 1 inUint8 z.uint32Decode

/-- decode_state_data_payload -/
def decodeStateDataPayload : Get D StateDataPayload :=
  z.readMap do
    let uint0bool ← z.readEntry 0 unchecked z.boolDecode
    let errorCode ← z.readEntry 1 inUint8 z.uint32Decode
    let state ← z.readEntry 2 inUint8 z.uint32Decode
    let timestamp ← z.readEntry 3 anyUint32 z.uint32Decode
    return { uint0bool, errorCode, state, timestamp }

/-- decode_motor_data_payload -/
def decodeMotorDataPayload : Get D MotorDataPayload :=
  z.readMap do
    let motorIndex ← z.readEntry 0 inInt8 z.int32Decode
    let timestamp ← z.readEntry 1 anyUint32 z.uint32Decode
    let uint2int ← z.readEntry 2 unchecked z.int32Decode
    let uint3int ← z.readEntry 3 unchecked z.int32Decode
    let uint4int ← z.presentDecode (decodeRepeatedMotorDataPayloadUint4int z)
    let uint5int ← z.presentDecode (decodeRepeatedMotorDataPayloadUint5int z)
    let uint6uint ← z.presentDecode (decodeRepeatedMotorDataPayloadUint6uint z)
    let uint7uint ← z.presentDecode (decodeRepeatedMotorDataPayloadUint7uint z)
    return {
      motorIndex, timestamp, uint2int, uint3int, uint4int, uint5int, uint6uint, uint7uint }

/-- decode_pump_data_payload -/
def decodePumpDataPayload : Get D PumpDataPayload :=
  z.readMap do
    let pumpIndex ← z.readEntry 0 inInt8 z.int32Decode
    let timestamp ← z.readEntry 1 anyUint32 z.uint32Decode
    let pumpEvent ← z.readEntry 2 inUint8 z.uint32Decode
    let uint3int ← z.presentDecode (decodeRepeatedPumpDataPayloadUint3int z)
    return { pumpIndex, timestamp, pumpEvent, uint3int }

/-- decode_glow_data_payload -/
def decodeGlowDataPayload : Get D GlowDataPayload :=
  z.readMap do
    let glowIndex ← z.readEntry 0 inInt8 z.int32Decode
    let timestamp ← z.readEntry 1 anyUint32 z.uint32Decode
    let uint2bool ← z.readEntry 2 unchecked z.boolDecode
    return { glowIndex, timestamp, uint2bool }

/-- decode_temp_data_payload -/
def decodeTempDataPayload : Get D TempDataPayload :=
  z.readMap do
    let thermometerIndex ← z.readEntry 0 inInt8 z.int32Decode
    let timestamp ← z.readEntry 1 anyUint32 z.uint32Decode
    let uint2float ← z.readEntry 2 unchecked z.floatDecode
    let uint3bool ← z.presentDecode (decodeRepeatedTempDataPayloadUint3bool z)
    let uint4int ← z.presentDecode (decodeRepeatedTempDataPayloadUint4int z)
    let uint5float ← z.presentDecode (decodeRepeatedTempDataPayloadUint5float z)
    return { thermometerIndex, timestamp, uint2float, uint3bool, uint4int, uint5float }

/-- decode_device_announce_payload -/
def decodeDeviceAnnouncePayload : Get D DeviceAnnouncePayload :=
  z.readMap do
    let uint0uint ← z.readEntry 0 inUint8 z.uint32Decode
    let uint1uint ← z.readEntry 1 inUint8 z.uint32Decode
    let uint2uint ← z.readEntry 2 inUint8 z.uint32Decode
    let uint3uint ← z.readEntry 3 inUint8 z.uint32Decode
    return { uint0uint, uint1uint, uint2uint, uint3uint }

/-- decode_ping_response_payload -/
def decodePingResponsePayload : Get D PingResponsePayload :=
  z.readMap do
    let timestamp ← z.readEntry 0 anyUint32 z.uint32Decode
    return { timestamp }

/-- decode_error_invalid_cmd_payload -/
def decodeErrorInvalidCmdPayload : Get D ErrorInvalidCmdPayload :=
  z.readMap do
    let uint0int ← z.readEntry 0 unchecked z.int32Decode
    let uint1uint ← z.presentDecode (decodeRepeatedErrorInvalidCmdPayloadUint1uint z)
    let constraint ← z.presentDecode (decodeRepeatedErrorInvalidCmdPayloadConstraint z)
    return { uint0int, uint1uint, constraint }

/-- decode_error_state_reject_payload -/
def decodeErrorStateRejectPayload : Get D ErrorStateRejectPayload :=
  z.readMap do
    let uint0int ← z.readEntry 0 unchecked z.int32Decode
    let rejectionReason ←
      z.presentDecode (decodeRepeatedErrorStateRejectPayloadRejectionReason z)
    return { uint0int, rejectionReason }

def cborEncodeStateDataPayload (input : StateDataPayload) (payload : List UInt8) :
    Option Nat × List UInt8 := z.entryEncode (encodeStateDataPayload z input) payload

def cborDecodeStateDataPayload (payload : List UInt8) : Option (StateDataPayload × Nat) :=
  z.entryDecode (decodeStateDataPayload z) payload

def cborEncodeMotorDataPayload (input : MotorDataPayload) (payload : List UInt8) :
    Option Nat × List UInt8 := z.entryEncode (encodeMotorDataPayload z input) payload

def cborDecodeMotorDataPayload (payload : List UInt8) : Option (MotorDataPayload × Nat) :=
  z.entryDecode (decodeMotorDataPayload z) payload

def cborEncodePumpDataPayload (input : PumpDataPayload) (payload : List UInt8) :
    Option Nat × List UInt8 := z.entryEncode (encodePumpDataPayload z input) payload

def cborDecodePumpDataPayload (payload : List UInt8) : Option (PumpDataPayload × Nat) :=
  z.entryDecode (decodePumpDataPayload z) payload

def cborEncodeGlowDataPayload (input : GlowDataPayload) (payload : List UInt8) :
    Option Nat × List UInt8 := z.entryEncode (encodeGlowDataPayload z input) payload

def cborDecodeGlowDataPayload (payload : List UInt8) : Option (GlowDataPayload × Nat) :=
  z.entryDecode (decodeGlowDataPayload z) payload

def cborEncodeTempDataPayload (input : TempDataPayload) (payload : List UInt8) :
    Option Nat × List UInt8 := z.entryEncode (encodeTempDataPayload z input) payload

def cborDecodeTempDataPayload (payload : List UInt8) : Option (TempDataPayload × Nat) :=
  z.entryDecode (decodeTempDataPayload z) payload

def cborEncodeDeviceAnnouncePayload (input : DeviceAnnouncePayload) (payload : List UInt8) :
    Option Nat × List UInt8 := z.entryEncode (encodeDeviceAnnouncePayload z input) payload

def cborDecodeDeviceAnnouncePayload (payload : List UInt8) :
    Option (DeviceAnnouncePayload × Nat) :=
  z.entryDecode (decodeDeviceAnnouncePayload z) payload

def cborEncodePingResponsePayload (input : PingResponsePayload) (payload : List UInt8) :
    Option Nat × List UInt8 := z.entryEncode (encodePingResponsePayload z input) payload

def cborDecodePingResponsePayload (payload : List UInt8) : Option (PingResponsePayload × Nat) :=
  z.entryDecode (decodePingResponsePayload z) payload

def cborEncodeErrorInvalidCmdPayload (input : ErrorInvalidCmdPayload) (payload : List UInt8) :
    Option Nat × List UInt8 := z.entryEncode (encodeErrorInvalidCmdPayload z input) payload

def cborDecodeErrorInvalidCmdPayload (payload : List UInt8) :
    Option (ErrorInvalidCmdPayload × Nat) :=
  z.entryDecode (decodeErrorInvalidCmdPayload z) payload

def cborEncodeErrorStateRejectPayload (input : ErrorStateRejectPayload) (payload : List UInt8) :
    Option Nat × List UInt8 := z.entryEncode (encodeErrorStateRejectPayload z input) payload

def cborDecodeErrorStateRejectPayload (payload : List UInt8) :
    Option (ErrorStateRejectPayload × Nat) :=
  z.entryDecode (decodeErrorStateRejectPayload z) payload

section Transfers

variable {z} {W : E → List UInt8 → Nat → Prop} {R : D → Bool → List UInt8 → Prop}
  (hz : Standard z W R)

include hz

theorem state_data_transfers (p : StateDataPayload) (he : inUint8 p.errorCode)
    (hs : inUint8 p.state) :
    Transfers W R (encodeStateDataPayload z p) (decodeStateDataPayload z) p bodySize :=
  map_transfers hz (by decide) <|
  carries_entry hz (inverse_bool hz) rfl (by decide) <|
  carries_entry hz (inverse_uint32 hz) he (by decide) <|
  carries_entry hz (inverse_uint32 hz) hs (by decide) <|
  carries_entry hz (inverse_uint32 hz) (anyUint32_true _) (by decide) <|
  carries_nil _ p _

theorem motor_data_transfers (p : MotorDataPayload) (h : inInt8 p.motorIndex) :
    Transfers W R (encodeMotorDataPayload z p) (decodeMotorDataPayload z) p bodySize :=
  map_transfers hz (by decide) <|
  carries_entry hz (inverse_int32 hz) h (by decide) <|
  carries_entry hz (inverse_uint32 hz) (anyUint32_true _) (by decide) <|
  carries_entry hz (inverse_int32 hz) rfl (by decide) <|
  carries_entry hz (inverse_int32 hz) rfl (by decide) <|
  carries_optional hz (inverse_int32 hz) p.uint4int (fun _ _ => rfl) (by decide) <|
  carries_optional hz (inverse_int32 hz) p.uint5int (fun _ _ => rfl) (by decide) <|
  carries_optional hz (inverse_uint32 hz) p.uint6uint (fun v _ => anyUint32_true v) (by decide) <|
  carries_optional hz (inverse_uint32 hz) p.uint7uint (fun v _ => anyUint32_true v) (by decide) <|
  carries_nil _ p _

theorem pump_data_transfers (p : PumpDataPayload) (hi : inInt8 p.pumpIndex)
    (he : inUint8 p.pumpEvent) :
    Transfers W R (encodePumpDataPayload z p) (decodePumpDataPayload z) p bodySize :=
  map_transfers hz (by decide) <|
  carries_entry hz (inverse_int32 hz) hi (by decide) <|
  carries_entry hz (inverse_uint32 hz) (anyUint32_true _) (by decide) <|
  carries_entry hz (inverse_uint32 hz) he (by decide) <|
  carries_optional hz (inverse_int32 hz) p.uint3int (fun _ _ => rfl) (by decide) <|
  carries_nil _ p _

theorem glow_data_transfers (p : GlowDataPayload) (h : inInt8 p.glowIndex) :
    Transfers W R (encodeGlowDataPayload z p) (decodeGlowDataPayload z) p bodySize :=
  map_transfers hz (by decide) <|
  carries_entry hz (inverse_int32 hz) h (by decide) <|
  carries_entry hz (inverse_uint32 hz) (anyUint32_true _) (by decide) <|
  carries_entry hz (inverse_bool hz) rfl (by decide) <|
  carries_nil _ p _

theorem temp_data_transfers (p : TempDataPayload) (h : inInt8 p.thermometerIndex) :
    Transfers W R (encodeTempDataPayload z p) (decodeTempDataPayload z) p bodySize :=
  map_transfers hz (by decide) <|
  carries_entry hz (inverse_int32 hz) h (by decide) <|
  carries_entry hz (inverse_uint32 hz) (anyUint32_true _) (by decide) <|
  carries_entry hz (inverse_float hz) rfl (by decide) <|
  carries_optional hz (inverse_bool hz) p.uint3bool (fun _ _ => rfl) (by decide) <|
  carries_optional hz (inverse_int32 hz) p.uint4int (fun _ _ => rfl) (by decide) <|
  carries_optional hz (inverse_float hz) p.uint5float (fun _ _ => rfl) (by decide) <|
  carries_nil _ p _

theorem device_announce_transfers (p : DeviceAnnouncePayload) (h0 : inUint8 p.uint0uint)
    (h1 : inUint8 p.uint1uint) (h2 : inUint8 p.uint2uint) (h3 : inUint8 p.uint3uint) :
    Transfers W R (encodeDeviceAnnouncePayload z p) (decodeDeviceAnnouncePayload z) p bodySize :=
  map_transfers hz (by decide) <|
  carries_entry hz (inverse_uint32 hz) h0 (by decide) <|
  carries_entry hz (inverse_uint32 hz) h1 (by decide) <|
  carries_entry hz (inverse_uint32 hz) h2 (by decide) <|
  carries_entry hz (inverse_uint32 hz) h3 (by decide) <|
  carries_nil _ p _

theorem ping_response_transfers (p : PingResponsePayload) :
    Transfers W R (encodePingResponsePayload z p) (decodePingResponsePayload z) p bodySize :=
  map_transfers hz (by decide) <|
  carries_entry hz (inverse_uint32 hz) (anyUint32_true _) (by decide) <|
  carries_nil _ p _

theorem error_invalid_cmd_transfers (p : ErrorInvalidCmdPayload)
    (h : ∀ v ∈ p.constraint, inUint8 v) :
    Transfers W R (encodeErrorInvalidCmdPayload z p) (decodeErrorInvalidCmdPayload z) p
      bodySize :=
  map_transfers hz (by decide) <|
  carries_entry hz (inverse_int32 hz) rfl (by decide) <|
  carries_optional hz (inverse_uint32 hz) p.uint1uint (fun _ _ => rfl) (by decide) <|
  carries_optional hz (inverse_uint32 hz) p.constraint h (by decide) <|
  carries_nil _ p _

theorem error_state_reject_transfers (p : ErrorStateRejectPayload)
    (h : ∀ v ∈ p.rejectionReason, inUint8 v) :
    Transfers W R (encodeErrorStateRejectPayload z p) (decodeErrorStateRejectPayload z) p
      bodySize :=
  map_transfers hz (by decide) <|
  carries_entry hz (inverse_int32 hz) rfl (by decide) <|
  carries_optional hz (inverse_uint32 hz) p.rejectionReason h (by decide) <|
  carries_nil _ p _

end Transfers

section Fails

variable {z}

theorem state_data_fails {p : StateDataPayload} (h : inUint8 p.state = false) :
    Fails (encodeStateDataPayload z p) := fails_map (.tail _ (.tail _ (.head _))) (fails_entry h)

theorem motor_data_fails {p : MotorDataPayload} (h : inInt8 p.motorIndex = false) :
    Fails (encodeMotorDataPayload z p) := fails_map (.head _) (fails_entry h)

theorem pump_data_fails {p : PumpDataPayload}
    (h : inInt8 p.pumpIndex = false ∨ inUint8 p.pumpEvent = false) :
    Fails (encodePumpDataPayload z p) := by
  rcases h with h | h
  · exact fails_map (.head _) (fails_entry h)
  · exact fails_map (.tail _ (.tail _ (.head _))) (fails_entry h)

theorem glow_data_fails {p : GlowDataPayload} (h : inInt8 p.glowIndex = false) :
    Fails (encodeGlowDataPayload z p) := fails_map (.head _) (fails_entry h)

theorem temp_data_fails {p : TempDataPayload} (h : inInt8 p.thermometerIndex = false) :
    Fails (encodeTempDataPayload z p) := fails_map (.head _) (fails_entry h)

theorem error_invalid_cmd_fails {p : ErrorInvalidCmdPayload} {v : UInt32} (hv : v ∈ p.constraint)
    (h : inUint8 v = false) : Fails (encodeErrorInvalidCmdPayload z p) :=
  fails_map (.tail _ (.tail _ (.head _))) (fails_optional hv (fails_entry h))

theorem error_state_reject_fails {p : ErrorStateRejectPayload} {v : UInt32}
    (hv : v ∈ p.rejectionReason) (h : inUint8 v = false) :
    Fails (encodeErrorStateRejectPayload z p) :=
  fails_map (.tail _ (.head _)) (fails_optional hv (fails_entry h))

end Fails

end Fusain.Payload
