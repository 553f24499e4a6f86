import Fusain.Payload.Config
import Fusain.Payload.Command
import Fusain.Payload.Data

/-!
# The packet builders

The `fusain_create_*` functions. Enumeration arguments are any 32-bit number, a float is
its bit pattern, and `widen` is the conversion from float to double.
-/
namespace Fusain.Builders

open Messages Payload Zcbor

/-- fusain_cmd_motor_config_t -/
structure FusainCmdMotorConfig where
  motor : UInt8
  pwmPeriod : UInt32
  pidKp : UInt64
  pidKi : UInt64
  pidKd : UInt64
  maxRpm : Int32
  minRpm : Int32
  minPwmDuty : UInt32
  deriving DecidableEq, Repr

/-- fusain_cmd_pump_config_t -/
structure FusainCmdPumpConfig where
  pump : UInt8
  pulseMs : UInt32
  recoveryMs : UInt32
  deriving DecidableEq, Repr

/-- fusain_cmd_temp_config_t -/
structure FusainCmdTempConfig where
  thermometer : UInt8
  pidKp : UInt64
  pidKi : UInt64
  pidKd : UInt64
  deriving DecidableEq, Repr

/-- fusain_cmd_glow_config_t -/
structure FusainCmdGlowConfig where
  glow : UInt8
  maxDurationMs : UInt32
  deriving DecidableEq, Repr

/-- FUSAIN_TEMP_CMD_WATCH_MOTOR -/
def tempCmdWatchMotor : UInt32 := 0
/-- FUSAIN_TEMP_CMD_SET_TARGET_TEMP -/
def tempCmdSetTargetTemp : UInt32 := 4

/-- Bytes stored into the payload array from `offset` on. -/
def store (payload : Vector UInt8 maxPayloadSize) (offset : Nat) (bytes : List UInt8) :
    Vector UInt8 maxPayloadSize :=
  Vector.ofFn fun i =>
    if offset ≤ i.val then bytes.getD (i.val - offset) payload[i] else payload[i]

/-- What every builder does: address and type, the message header, the body in the rest
of the payload array, the length last. A failure leaves length 0. -/
def create (type : FusainMsgType) (body : List UInt8 → Option Nat × List UInt8)
    (packet : FusainPacket) (address : UInt64) : FusainPacket :=
  let packet := { packet with address := address, msgType := type.value }
  match encodeCborMessageHeader maxPayloadSize type.value with
  | none => { packet with length := 0 }
  | some header =>
    let payload := store packet.payload 0 header
    let (payloadLen, bytes) := body (payload.toList.drop header.length)
    let packet := { packet with payload := store payload header.length bytes }
    match payloadLen with
    | none => { packet with length := 0 }
    | some n => { packet with length := UInt8.ofNat (header.length + n) }

/-- The body of a message without payload. -/
def nilBody (buffer : List UInt8) : Option Nat × List UInt8 :=
  match encodeCborNil buffer.length with
  | none => (none, buffer)
  | some l => (some l.length, l)

/-- `(int32_t)index` -/
def deviceIndex (b : UInt8) : Int32 := b.toUInt32.toInt32

/-- An argument that is sent, as a `uint32_t`, unless it is negative. -/
def unlessNegative (v : Int32) : Option UInt32 := if v ≥ 0 then some v.toUInt32 else none

@[simp] theorem deviceIndex_toInt (b : UInt8) : (deviceIndex b).toInt = b.toNat := by
  have hb := b.toNat_lt
  have bits : (deviceIndex b).toBitVec = b.toUInt32.toBitVec := rfl
  rw [← Int32.toInt_toBitVec, bits, BitVec.toInt_eq_toNat_of_lt]
  · simp
  · simp
    omega

/-- What is sent is the argument. -/
theorem unlessNegative_toNat {v : Int32} {w : UInt32} (h : w ∈ unlessNegative v) :
    (w.toNat : Int) = v.toInt := by
  have hv : v ≥ 0 ∧ v.toUInt32 = w := by simpa [unlessNegative] using h
  obtain ⟨hv, rfl⟩ := hv
  have nonneg : 0 ≤ v.toInt := by simpa using Int32.le_iff_toInt_le.mp hv
  have bits : v.toUInt32.toBitVec = v.toBitVec := rfl
  rw [← Int32.toInt_toBitVec] at nonneg ⊢
  rw [← UInt32.toNat_toBitVec, bits]
  rw [BitVec.toInt_eq_toNat_cond] at nonneg ⊢
  split at nonneg
  · simp [*]
  · have := v.toBitVec.isLt
    omega

section Builders

variable {E D : Type} (z : Runtime E D) (widen : UInt32 → UInt64) (packet : FusainPacket)
  (address : UInt64)

def fusainCreateMotorConfig (config : FusainCmdMotorConfig) : FusainPacket :=
  create .motorConfig (cborEncodeMotorConfigPayload z {
    motorIndex := deviceIndex config.motor
    uint1uint := some config.pwmPeriod
    uint2float := some config.pidKp
    uint3float := some config.pidKi
    uint4float := some config.pidKd
    uint5int := some config.maxRpm
    uint6int := some config.minRpm
    uint7uint := some config.minPwmDuty }) packet address

def fusainCreatePumpConfig (config : FusainCmdPumpConfig) : FusainPacket :=
  create .pumpConfig (cborEncodePumpConfigPayload z {
    pumpIndex := deviceIndex config.pump
    uint1uint := some config.pulseMs
    uint2uint := some config.recoveryMs }) packet address

def fusainCreateTempConfig (config : FusainCmdTempConfig) : FusainPacket :=
  create .tempConfig (cborEncodeTempConfigPayload z {
    thermometerIndex := deviceIndex config.thermometer
    uint1float := some config.pidKp
    uint2float := some config.pidKi
    uint3float := some config.pidKd }) packet address

def fusainCreateGlowConfig (config : FusainCmdGlowConfig) : FusainPacket :=
  create .glowConfig (cborEncodeGlowConfigPayload z {
    glowIndex := deviceIndex config.glow
    uint1uint := some config.maxDurationMs }) packet address

def fusainCreateDataSubscription (applianceAddress : UInt64) : FusainPacket :=
  create .dataSubscription (cborEncodeDataSubscriptionPayload z {
    address := applianceAddress }) packet address

/-- The payload is that of a subscription. -/
def fusainCreateDataUnsubscribe (applianceAddress : UInt64) : FusainPacket :=
  create .dataUnsubscribe (cborEncodeDataSubscriptionPayload z {
    address := applianceAddress }) packet address

def fusainCreateTelemetryConfig (enabled : Bool) (intervalMs : UInt32) : FusainPacket :=
  create .telemetryConfig (cborEncodeTelemetryConfigPayload z {
    uint0bool := enabled
    uint1uint := intervalMs }) packet address

def fusainCreateTimeoutConfig (enabled : Bool) (timeoutMs : UInt32) : FusainPacket :=
  create .timeoutConfig (cborEncodeTimeoutConfigPayload z {
    uint0bool := enabled
    uint1uint := timeoutMs }) packet address

def fusainCreateDiscoveryRequest : FusainPacket :=
  create .discoveryRequest nilBody packet address

def fusainCreateStateCommand (mode : UInt32) (argument : Int32) : FusainPacket :=
  create .stateCommand (cborEncodeStateCommandPayload z {
    mode := mode
    uint1int := some argument }) packet address

def fusainCreateMotorCommand (motor : UInt8) (rpm : Int32) : FusainPacket :=
  create .motorCommand (cborEncodeMotorCommandPayload z {
    motorIndex := deviceIndex motor
    uint1int := rpm }) packet address

def fusainCreatePumpCommand (pump : UInt8) (rateMs : Int32) : FusainPacket :=
  create .pumpCommand (cborEncodePumpCommandPayload z {
    pumpIndex := deviceIndex pump
    uint1int := rateMs }) packet address

def fusainCreateGlowCommand (glow : UInt8) (duration : Int32) : FusainPacket :=
  create .glowCommand (cborEncodeGlowCommandPayload z {
    glowIndex := deviceIndex glow
    uint1int := duration }) packet address

def fusainCreateTempCommand (thermometer : UInt8) (type : UInt32) (motorIndex : UInt8)
    (targetTemp : UInt32) : FusainPacket :=
  create .tempCommand (cborEncodeTempCommandPayload z {
    thermometerIndex := deviceIndex thermometer
    tempCmdType := type
    motorIndex := if type = tempCmdWatchMotor then some (deviceIndex motorIndex) else none
    uint3float := if type = tempCmdSetTargetTemp then some (widen targetTemp) else none })
    packet address

def fusainCreateSendTelemetry (telemetryType index : UInt32) : FusainPacket :=
  create .sendTelemetry (cborEncodeSendTelemetryPayload z {
    telemetryType := telemetryType
    uint1uint := some index }) packet address

def fusainCreatePingRequest : FusainPacket :=
  create .pingRequest nilBody packet address

def fusainCreateStateData (error : UInt32) (code : UInt8) (state timestamp : UInt32) :
    FusainPacket :=
  create .stateData (cborEncodeStateDataPayload z {
    uint0bool := error ≠ 0
    errorCode := code.toUInt32
    state := state
    timestamp := timestamp }) packet address

def fusainCreateMotorData (motor : UInt8) (timestamp : UInt32) (rpm target : Int32) :
    FusainPacket :=
  create .motorData (cborEncodeMotorDataPayload z {
    motorIndex := deviceIndex motor
    timestamp := timestamp
    uint2int := rpm
    uint3int := target
    uint4int := none
    uint5int := none
    uint6uint := none
    uint7uint := none }) packet address

def fusainCreatePumpData (pump : UInt8) (timestamp type : UInt32) (rate : Int32) :
    FusainPacket :=
  create .pumpData (cborEncodePumpDataPayload z {
    pumpIndex := deviceIndex pump
    timestamp := timestamp
    pumpEvent := type
    uint3int := some rate }) packet address

def fusainCreateGlowData (glow : UInt8) (timestamp : UInt32) (lit : Bool) : FusainPacket :=
  create .glowData (cborEncodeGlowDataPayload z {
    glowIndex := deviceIndex glow
    timestamp := timestamp
    uint2bool := lit }) packet address

def fusainCreateTempData (thermometer : UInt8) (timestamp reading : UInt32) : FusainPacket :=
  create .tempData (cborEncodeTempDataPayload z {
    thermometerIndex := deviceIndex thermometer
    timestamp := timestamp
    uint2float := widen reading
    uint3bool := none
    uint4int := none
    uint5float := none }) packet address

def fusainCreateDeviceAnnounce (motorCount thermometerCount pumpCount glowCount : UInt8) :
    FusainPacket :=
  create .deviceAnnounce (cborEncodeDeviceAnnouncePayload z {
    uint0uint := motorCount.toUInt32
    uint1uint := thermometerCount.toUInt32
    uint2uint := pumpCount.toUInt32
    uint3uint := glowCount.toUInt32 }) packet address

def fusainCreatePingResponse (uptimeMs : UInt32) : FusainPacket :=
  create .pingResponse (cborEncodePingResponsePayload z {
    timestamp := uptimeMs }) packet address

def fusainCreateErrorInvalidCmd (errorCode : UInt32) (rejectedField constraint : Int32) :
    FusainPacket :=
  create .errorInvalidCmd (cborEncodeErrorInvalidCmdPayload z {
    uint0int := errorCode.toInt32
    uint1uint := unlessNegative rejectedField
    constraint := unlessNegative constraint }) packet address

def fusainCreateErrorStateReject (state : UInt32) (rejectionReason : Int32) : FusainPacket :=
  create .errorStateReject (cborEncodeErrorStateRejectPayload z {
    uint0int := state.toInt32
    rejectionReason := unlessNegative rejectionReason }) packet address

end Builders

end Fusain.Builders
