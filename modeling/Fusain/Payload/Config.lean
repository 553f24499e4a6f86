import Fusain.Messages

/-!
# Configuration payloads

The payload maps of the configuration messages, as the generated code writes and reads
them. A field with a presence flag is an `Option`.
-/
namespace Fusain.Payload

open Messages Zcbor

variable {E D : Type} (z : Runtime E D)

/-- motor_config_payload -/
structure MotorConfigPayload where
  motorIndex : Int32
  uint1uint : Option UInt32
  uint2float : Option UInt64
  uint3float : Option UInt64
  uint4float : Option UInt64
  uint5int : Option Int32
  uint6int : Option Int32
  uint7uint : Option UInt32
  deriving DecidableEq, Repr

/-- pump_config_payload -/
structure PumpConfigPayload where
  pumpIndex : Int32
  uint1uint : Option UInt32
  uint2uint : Option UInt32
  deriving DecidableEq, Repr

/-- temp_config_payload -/
structure TempConfigPayload where
  thermometerIndex : Int32
  uint1float : Option UInt64
  uint2float : Option UInt64
  uint3float : Option UInt64
  deriving DecidableEq, Repr

/-- glow_config_payload -/
structure GlowConfigPayload where
  glowIndex : Int32
  uint1uint : Option UInt32
  deriving DecidableEq, Repr

/-- data_subscription_payload -/
structure DataSubscriptionPayload where
  address : UInt64
  deriving DecidableEq, Repr

/-- telemetry_config_payload -/
structure TelemetryConfigPayload where
  uint0bool : Bool
  uint1uint : UInt32
  deriving DecidableEq, Repr

/-- timeout_config_payload -/
structure TimeoutConfigPayload where
  uint0bool : Bool
  uint1uint : UInt32
  deriving DecidableEq, Repr

def encodeRepeatedMotorConfigPayloadUint1uint : UInt32 → Put E :=
  z.entry 1 anyUint32 z.uint32Encode

def encodeRepeatedMotorConfigPayloadUint2float : UInt64 → Put E :=
  z.entry 2 unchecked z.float64Encode

def encodeRepeatedMotorConfigPayloadUint3float : UInt64 → Put E :=
  z.entry 3 unchecked z.float64Encode

def encodeRepeatedMotorConfigPayloadUint4float : UInt64 → Put E :=
  z.entry 4 unchecked z.float64Encode

def encodeRepeatedMotorConfigPayloadUint5int : Int32 → Put E :=
  z.entry 5 unchecked z.int32Encode

def encodeRepeatedMotorConfigPayloadUint6int : Int32 → Put E :=
  z.entry 6 unchecked z.int32Encode

def encodeRepeatedMotorConfigPayloadUint7uint : UInt32 → Put E :=
  z.entry 7 anyUint32 z.uint32Encode

def encodeRepeatedPumpConfigPayloadUint1uint : UInt32 → Put E :=
  z.entry 1 unchecked z.uint32Encode

def encodeRepeatedPumpConfigPayloadUint2uint : UInt32 → Put E :=
  z.entry 2 unchecked z.uint32Encode

def encodeRepeatedTempConfigPayloadUint1float : UInt64 → Put E :=
  z.entry 1 unchecked z.float64Encode

def encodeRepeatedTempConfigPayloadUint2float : UInt64 → Put E :=
  z.entry 2 unchecked z.float64Encode

def encodeRepeatedTempConfigPayloadUint3float : UInt64 → Put E :=
  z.entry 3 unchecked z.float64Encode

def encodeRepeatedGlowConfigPayloadUint1uint : UInt32 → Put E :=
  z.entry 1 unchecked z.uint32Encode

/-- encode_motor_config_payload -/
def encodeMotorConfigPayload (input : MotorConfigPayload) : Put E :=
  z.map 8 [
    z.entry 0 inInt8 z.int32Encode input.motorIndex,
    optional (encodeRepeatedMotorConfigPayloadUint1uint z) input.uint1uint,
    optional (encodeRepeatedMotorConfigPayloadUint2float z) input.uint2float,
    optional (encodeRepeatedMotorConfigPayloadUint3float z) input.uint3float,
    optional (encodeRepeatedMotorConfigPayloadUint4float z) input.uint4float,
    optional (encodeRepeatedMotorConfigPayloadUint5int z) input.uint5int,
    optional (encodeRepeatedMotorConfigPayloadUint6int z) input.uint6int,
    optional (encodeRepeatedMotorConfigPayloadUint7uint z) input.uint7uint]

/-- encode_pump_config_payload -/
def encodePumpConfigPayload (input : PumpConfigPayload) : Put E :=
  z.map 3 [
    z.entry 0 inInt8 z.int32Encode input.pumpIndex,
    optional (encodeRepeatedPumpConfigPayloadUint1uint z) input.uint1uint,
    optional (encodeRepeatedPumpConfigPayloadUint2uint z) input.uint2uint]

/-- encode_temp_config_payload -/
def encodeTempConfigPayload (input : TempConfigPayload) : Put E :=
  z.map 4 [
    z.entry 0 inInt8 z.int32Encode input.thermometerIndex,
    optional (encodeRepeatedTempConfigPayloadUint1float z) input.uint1float,
    optional (encodeRepeatedTempConfigPayloadUint2float z) input.uint2float,
    optional (encodeRepeatedTempConfigPayloadUint3float z) input.uint3float]

/-- encode_glow_config_payload -/
def encodeGlowConfigPayload (input : GlowConfigPayload) : Put E :=
  z.map 2 [
    z.entry 0 inInt8 z.int32Encode input.glowIndex,
    optional (encodeRepeatedGlowConfigPayloadUint1uint z) input.uint1uint]

/-- encode_data_subscription_payload -/
def encodeDataSubscriptionPayload (input : DataSubscriptionPayload) : Put E :=
  z.map 1 [
    z.entry 0 unchecked z.uint64Encode input.address]

/-- encode_telemetry_config_payload -/
def encodeTelemetryConfigPayload (input : TelemetryConfigPayload) : Put E :=
  z.map 2 [
    z.entry 0 unchecked z.boolEncode input.uint0bool,
    z.entry 1 unchecked z.uint32Encode input.uint1uint]

/-- encode_timeout_config_payload -/
def encodeTimeoutConfigPayload (input : TimeoutConfigPayload) : Put E :=
  z.map 2 [
    z.entry 0 unchecked z.boolEncode input.uint0bool,
    z.entry 1 unchecked z.uint32Encode input.uint1uint]

def decodeRepeatedMotorConfigPayloadUint1uint : Get D UInt32 :=
  z.readEntry 1 anyUint32 z.uint32Decode

def decodeRepeatedMotorConfigPayloadUint2float : Get D UInt64 :=
  z.readEntry 2 unchecked z.floatDecode

def decodeRepeatedMotorConfigPayloadUint3float : Get D UInt64 :=
  z.readEntry 3 unchecked z.floatDecode

def decodeRepeatedMotorConfigPayloadUint4float : Get D UInt64 :=
  z.readEntry 4 unchecked z.floatDecode

def decodeRepeatedMotorConfigPayloadUint5int : Get D Int32 :=
  z.readEntry 5 unchecked z.int32Decode

def decodeRepeatedMotorConfigPayloadUint6int : Get D Int32 :=
  z.readEntry 6 unchecked z.int32Decode

def decodeRepeatedMotorConfigPayloadUint7uint : Get D UInt32 :=
  z.readEntry 7 anyUint32 z.uint32Decode

def decodeRepeatedPumpConfigPayloadUint1uint : Get D UInt32 :=
  z.readEntry 1 unchecked z.uint32Decode

def decodeRepeatedPumpConfigPayloadUint2uint : Get D UInt32 :=
  z.readEntry 2 unchecked z.uint32Decode

def decodeRepeatedTempConfigPayloadUint1float : Get D UInt64 :=
  z.readEntry 1 unchecked z.floatDecode

def decodeRepeatedTempConfigPayloadUint2float : Get D UInt64 :=
  z.readEntry 2 unchecked z.floatDecode

def decodeRepeatedTempConfigPayloadUint3float : Get D UInt64 :=
  z.readEntry 3 unchecked z.floatDecode

def decodeRepeatedGlowConfigPayloadUint1uint : Get D UInt32 :=
  z.readEntry 1 unchecked z.uint32Decode

/-- decode_motor_config_payload -/
def decodeMotorConfigPayload : Get D MotorConfigPayload :=
  z.readMap do
    let motorIndex ← z.readEntry 0 inInt8 z.int32Decode
    let uint1uint ← z.presentDecode (decodeRepeatedMotorConfigPayloadUint1uint z)
    let uint2float ← z.presentDecode (decodeRepeatedMotorConfigPayloadUint2float z)
    let uint3float ← z.presentDecode (decodeRepeatedMotorConfigPayloadUint3float z)
    let uint4float ← z.presentDecode (decodeRepeatedMotorConfigPayloadUint4float z)
    let uint5int ← z.presentDecode (decodeRepeatedMotorConfigPayloadUint5int z)
    let uint6int ← z.presentDecode (decodeRepeatedMotorConfigPayloadUint6int z)
    let uint7uint ← z.presentDecode (decodeRepeatedMotorConfigPayloadUint7uint z)
    return {
      motorIndex, uint1uint, uint2float, uint3float, uint4float, uint5int, uint6int, uint7uint }

/-- decode_pump_config_payload -/
def decodePumpConfigPayload : Get D PumpConfigPayload :=
  z.readMap do
    let pumpIndex ← z.readEntry 0 inInt8 z.int32Decode
    let uint1uint ← z.presentDecode (decodeRepeatedPumpConfigPayloadUint1uint z)
    let uint2uint ← z.presentDecode (decodeRepeatedPumpConfigPayloadUint2uint z)
    return { pumpIndex, uint1uint, uint2uint }

/-- decode_temp_config_payload -/
def decodeTempConfigPayload : Get D TempConfigPayload :=
  z.readMap do
    let thermometerIndex ← z.readEntry 0 inInt8 z.int32Decode
    let uint1float ← z.presentDecode (decodeRepeatedTempConfigPayloadUint1float z)
    let uint2float ← z.presentDecode (decodeRepeatedTempConfigPayloadUint2float z)
    let uint3float ← z.presentDecode (decodeRepeatedTempConfigPayloadUint3float z)
    return { thermometerIndex, uint1float, uint2float, uint3float }

/-- decode_glow_config_payload -/
def decodeGlowConfigPayload : Get D GlowConfigPayload :=
  z.readMap do
    let glowIndex ← z.readEntry 0 inInt8 z.int32Decode
    let uint1uint ← z.presentDecode (decodeRepeatedGlowConfigPayloadUint1uint z)
    return { glowIndex, uint1uint }

/-- decode_data_subscription_payload -/
def decodeDataSubscriptionPayload : Get D DataSubscriptionPayload :=
  z.readMap do
    let address ← z.readEntry 0 unchecked z.uint64Decode
    return { address }

/-- decode_telemetry_config_payload -/
def decodeTelemetryConfigPayload : Get D TelemetryConfigPayload :=
  z.readMap do
    let uint0bool ← z.readEntry 0 unchecked z.boolDecode
    let uint1uint ← z.readEntry 1 unchecked z.uint32Decode
    return { uint0bool, uint1uint }

/-- decode_timeout_config_payload -/
def decodeTimeoutConfigPayload : Get D TimeoutConfigPayload :=
  z.readMap do
    let uint0bool ← z.readEntry 0 unchecked z.boolDecode
    let uint1uint ← z.readEntry 1 unchecked z.uint32Decode
    return { uint0bool, uint1uint }

def cborEncodeMotorConfigPayload (input : MotorConfigPayload) (payload : List UInt8) :
    Option Nat × List UInt8 := z.entryEncode (encodeMotorConfigPayload z input) payload

def cborDecodeMotorConfigPayload (payload : List UInt8) : Option (MotorConfigPayload × Nat) :=
  z.entryDecode (decodeMotorConfigPayload z) payload

def cborEncodePumpConfigPayload (input : PumpConfigPayload) (payload : List UInt8) :
    Option Nat × List UInt8 := z.entryEncode (encodePumpConfigPayload z input) payload

def cborDecodePumpConfigPayload (payload : List UInt8) : Option (PumpConfigPayload × Nat) :=
  z.entryDecode (decodePumpConfigPayload z) payload

def cborEncodeTempConfigPayload (input : TempConfigPayload) (payload : List UInt8) :
    Option Nat × List UInt8 := z.entryEncode (encodeTempConfigPayload z input) payload

def cborDecodeTempConfigPayload (payload : List UInt8) : Option (TempConfigPayload × Nat) :=
  z.entryDecode (decodeTempConfigPayload z) payload

def cborEncodeGlowConfigPayload (input : GlowConfigPayload) (payload : List UInt8) :
    Option Nat × List UInt8 := z.entryEncode (encodeGlowConfigPayload z input) payload

def cborDecodeGlowConfigPayload (payload : List UInt8) : Option (GlowConfigPayload × Nat) :=
  z.entryDecode (decodeGlowConfigPayload z) payload

def cborEncodeDataSubscriptionPayload (input : DataSubscriptionPayload) (payload : List UInt8) :
    Option Nat × List UInt8 := z.entryEncode (encodeDataSubscriptionPayload z input) payload

def cborDecodeDataSubscriptionPayload (payload : List UInt8) :
    Option (DataSubscriptionPayload × Nat) :=
  z.entryDecode (decodeDataSubscriptionPayload z) payload

def cborEncodeTelemetryConfigPayload (input : TelemetryConfigPayload) (payload : List UInt8) :
    Option Nat × List UInt8 := z.entryEncode (encodeTelemetryConfigPayload z input) payload

def cborDecodeTelemetryConfigPayload (payload : List UInt8) :
    Option (TelemetryConfigPayload × Nat) :=
  z.entryDecode (decodeTelemetryConfigPayload z) payload

def cborEncodeTimeoutConfigPayload (input : TimeoutConfigPayload) (payload : List UInt8) :
    Option Nat × List UInt8 := z.entryEncode (encodeTimeoutConfigPayload z input) payload

def cborDecodeTimeoutConfigPayload (payload : List UInt8) : Option (TimeoutConfigPayload × Nat) :=
  z.entryDecode (decodeTimeoutConfigPayload z) payload

section Transfers

variable {z} {W : E → List UInt8 → Nat → Prop} {R : D → Bool → List UInt8 → Prop}
  (hz : Standard z W R)

include hz

theorem motor_config_transfers (p : MotorConfigPayload) (h : inInt8 p.motorIndex) :
    Transfers W R (encodeMotorConfigPayload z p) (decodeMotorConfigPayload z) p bodySize :=
  map_transfers hz (by decide) <|
  carries_entry hz (inverse_int32 hz) h (by decide) <|
  carries_optional hz (inverse_uint32 hz) p.uint1uint (fun v _ => anyUint32_true v) (by decide) <|
  carries_optional hz (inverse_float hz) p.uint2float (fun _ _ => rfl) (by decide) <|
  carries_optional hz (inverse_float hz) p.uint3float (fun _ _ => rfl) (by decide) <|
  carries_optional hz (inverse_float hz) p.uint4float (fun _ _ => rfl) (by decide) <|
  carries_optional hz (inverse_int32 hz) p.uint5int (fun _ _ => rfl) (by decide) <|
  carries_optional hz (inverse_int32 hz) p.uint6int (fun _ _ => rfl) (by decide) <|
  carries_optional hz (inverse_uint32 hz) p.uint7uint (fun v _ => anyUint32_true v) (by decide) <|
  carries_nil _ p _

theorem pump_config_transfers (p : PumpConfigPayload) (h : inInt8 p.pumpIndex) :
    Transfers W R (encodePumpConfigPayload z p) (decodePumpConfigPayload z) p bodySize :=
  map_transfers hz (by decide) <|
  carries_entry hz (inverse_int32 hz) h (by decide) <|
  carries_optional hz (inverse_uint32 hz) p.uint1uint (fun _ _ => rfl) (by decide) <|
  carries_optional hz (inverse_uint32 hz) p.uint2uint (fun _ _ => rfl) (by decide) <|
  carries_nil _ p _

theorem temp_config_transfers (p : TempConfigPayload) (h : inInt8 p.thermometerIndex) :
    Transfers W R (encodeTempConfigPayload z p) (decodeTempConfigPayload z) p bodySize :=
  map_transfers hz (by decide) <|
  carries_entry hz (inverse_int32 hz) h (by decide) <|
  carries_optional hz (inverse_float hz) p.uint1float (fun _ _ => rfl) (by decide) <|
  carries_optional hz (inverse_float hz) p.uint2float (fun _ _ => rfl) (by decide) <|
  carries_optional hz (inverse_float hz) p.uint3float (fun _ _ => rfl) (by decide) <|
  carries_nil _ p _

theorem glow_config_transfers (p : GlowConfigPayload) (h : inInt8 p.glowIndex) :
    Transfers W R (encodeGlowConfigPayload z p) (decodeGlowConfigPayload z) p bodySize :=
  map_transfers hz (by decide) <|
  carries_entry hz (inverse_int32 hz) h (by decide) <|
  carries_optional hz (inverse_uint32 hz) p.uint1uint (fun _ _ => rfl) (by decide) <|
  carries_nil _ p _

theorem data_subscription_transfers (p : DataSubscriptionPayload) :
    Transfers W R (encodeDataSubscriptionPayload z p) (decodeDataSubscriptionPayload z) p
      bodySize :=
  map_transfers hz (by decide) <|
  carries_entry hz (inverse_uint64 hz) rfl (by decide) <|
  carries_nil _ p _

theorem telemetry_config_transfers (p : TelemetryConfigPayload) :
    Transfers W R (encodeTelemetryConfigPayload z p) (decodeTelemetryConfigPayload z) p
      bodySize :=
  map_transfers hz (by decide) <|
  carries_entry hz (inverse_bool hz) rfl (by decide) <|
  carries_entry hz (inverse_uint32 hz) rfl (by decide) <|
  carries_nil _ p _

theorem timeout_config_transfers (p : TimeoutConfigPayload) :
    Transfers W R (encodeTimeoutConfigPayload z p) (decodeTimeoutConfigPayload z) p bodySize :=
  map_transfers hz (by decide) <|
  carries_entry hz (inverse_bool hz) rfl (by decide) <|
  carries_entry hz (inverse_uint32 hz) rfl (by decide) <|
  carries_nil _ p _

end Transfers

section Fails

variable {z}

theorem motor_config_fails {p : MotorConfigPayload} (h : inInt8 p.motorIndex = false) :
    Fails (encodeMotorConfigPayload z p) := fails_map (.head _) (fails_entry h)

theorem pump_config_fails {p : PumpConfigPayload} (h : inInt8 p.pumpIndex = false) :
    Fails (encodePumpConfigPayload z p) := fails_map (.head _) (fails_entry h)

theorem temp_config_fails {p : TempConfigPayload} (h : inInt8 p.thermometerIndex = false) :
    Fails (encodeTempConfigPayload z p) := fails_map (.head _) (fails_entry h)

theorem glow_config_fails {p : GlowConfigPayload} (h : inInt8 p.glowIndex = false) :
    Fails (encodeGlowConfigPayload z p) := fails_map (.head _) (fails_entry h)

end Fails

end Fusain.Payload
