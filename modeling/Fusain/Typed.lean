import Fusain.Builders
import Fusain.Lib.ListRuntime

/-!
# What a builder packs is what a receiver unpacks

Every builder leaves a packet whose payload is the message header and a body that the
decoder of the same message reads back as the arguments of the builder.
-/
namespace Fusain.Typed

open Builders Decoder Messages Payload Zcbor

theorem store_take (payload : Vector UInt8 maxPayloadSize) (offset : Nat) (l tail : List UInt8)
    (h : offset + l.length ≤ maxPayloadSize) :
    (store payload offset (l ++ tail)).toList.take (offset + l.length) =
      payload.toList.take offset ++ l := by
  have hlen : min (offset + l.length) maxPayloadSize = offset + l.length := Nat.min_eq_left h
  have hoff : min offset maxPayloadSize = offset := Nat.min_eq_left (by omega)
  apply List.ext_getElem
  · simp [hlen, hoff]
  · intro i hi _
    have hi' : i < offset + l.length := by simpa [hlen] using hi
    by_cases ho : offset ≤ i
    · have hl : i - offset < l.length := by omega
      simp [store, ho, hoff, List.getElem?_append_left hl, List.getElem?_eq_getElem hl]
    · simp [store, ho, hoff, List.getElem_append]

/-- The packet carries a message of the type, with a body that meets `P`. -/
structure Conveys (packet : FusainPacket) (type : FusainMsgType) (address : UInt64)
    (P : List UInt8 → Prop) : Prop where
  length_ge : 3 ≤ packet.length.toNat
  length_le : packet.length.toNat ≤ maxPayloadSize
  address : packet.address = address
  msgType : packet.msgType = type.value
  body : ∃ headerLen,
    decodeCborMessageHeader packet.payload.toList packet.length.toNat =
      some (packet.msgType, headerLen) ∧ P (packet.content.drop headerLen)

/-- A body that fits behind the header is conveyed. -/
theorem create_conveys {body : List UInt8 → Option Nat × List UInt8} {P : List UInt8 → Prop}
    (fits : ∀ buffer, bodySize ≤ buffer.length → ∃ l tail, l ≠ [] ∧ l.length ≤ bodySize ∧
      body buffer = (some l.length, l ++ tail) ∧ P l)
    (type : FusainMsgType) (packet : FusainPacket) (address : UInt64) :
    Conveys (create type body packet address) type address P := by
  have hmax : maxPayloadSize = 114 := rfl
  have hbody : bodySize = 111 := rfl
  obtain ⟨header, henc, hge, hle, hdec⟩ :=
    header_inverse type.value (show 3 ≤ maxPayloadSize by decide)
  have hfirst : (store packet.payload 0 header).toList.take header.length = header := by
    simpa using store_take packet.payload 0 header [] (by omega)
  obtain ⟨l, tail, hne, hl, hrun, hP⟩ :=
    fits ((store packet.payload 0 header).toList.drop header.length) (by simp; omega)
  have hpos : 0 < l.length := List.length_pos_iff.mpr hne
  have hroom : header.length + l.length ≤ maxPayloadSize := by omega
  have hcreate : create type body packet address =
      { packet with
        address := address
        msgType := type.value
        payload := store (store packet.payload 0 header) header.length (l ++ tail)
        length := UInt8.ofNat (header.length + l.length) } := by
    simp only [create, henc, hrun]
  have hlength : (create type body packet address).length.toNat = header.length + l.length := by
    rw [hcreate, UInt8.toNat_ofNat']
    omega
  have hcontent : (create type body packet address).content = header ++ l := by
    rw [FusainPacket.content, hlength, hcreate, store_take _ _ _ _ hroom, hfirst]
  have hpayload : (create type body packet address).payload.toList =
      header ++ (l ++ (create type body packet address).payload.toList.drop
        (header.length + l.length)) := by
    rw [← List.append_assoc, ← hcontent, FusainPacket.content, hlength, List.take_append_drop]
  have hheader := hdec (l ++ (create type body packet address).payload.toList.drop
    (header.length + l.length)) (header.length + l.length) (by omega)
  constructor
  · omega
  · omega
  · rw [hcreate]
  · rw [hcreate]
  · refine ⟨header.length, ?_, ?_⟩
    · rw [hlength, hpayload, hheader, hcreate]
    · rw [hcontent, List.drop_left]
      exact hP

theorem map_conveys {E D α : Type} {z : Runtime E D} {W : E → List UInt8 → Nat → Prop}
    {R : D → Bool → List UInt8 → Prop} (hz : Standard z W R) {p : Put E} {g : Get D α} {a : α}
    (h : Transfers W R p g a bodySize) (type : FusainMsgType) (packet : FusainPacket)
    (address : UInt64) :
    Conveys (create type (z.entryEncode p) packet address) type address
      fun l => z.entryDecode g l = some (a, l.length) :=
  create_conveys (fun _ room => entry_transfers hz h room) type packet address

theorem nil_conveys (type : FusainMsgType) (packet : FusainPacket) (address : UInt64) :
    Conveys (create type nilBody packet address) type address fun l => l = [cborNil] := by
  apply create_conveys
  intro buffer room
  have hroom : ¬ buffer.length < 1 := by
    simp only [bodySize, maxPayloadSize] at room
    omega
  exact ⟨[cborNil], [], by simp, by decide, by simp [nilBody, encodeCborNil, hroom], rfl⟩

/-- A call of a builder: which one, and its arguments. -/
inductive Call where
  | motorConfig (config : FusainCmdMotorConfig)
  | pumpConfig (config : FusainCmdPumpConfig)
  | tempConfig (config : FusainCmdTempConfig)
  | glowConfig (config : FusainCmdGlowConfig)
  | dataSubscription (applianceAddress : UInt64)
  | dataUnsubscribe (applianceAddress : UInt64)
  | telemetryConfig (enabled : Bool) (intervalMs : UInt32)
  | timeoutConfig (enabled : Bool) (timeoutMs : UInt32)
  | discoveryRequest
  | stateCommand (mode : UInt32) (argument : Int32)
  | motorCommand (motor : UInt8) (rpm : Int32)
  | pumpCommand (pump : UInt8) (rateMs : Int32)
  | glowCommand (glow : UInt8) (duration : Int32)
  | tempCommand (thermometer : UInt8) (type : UInt32) (motorIndex : UInt8) (targetTemp : UInt32)
  | sendTelemetry (telemetryType index : UInt32)
  | pingRequest
  | stateData (error : UInt32) (code : UInt8) (state timestamp : UInt32)
  | motorData (motor : UInt8) (timestamp : UInt32) (rpm target : Int32)
  | pumpData (pump : UInt8) (timestamp type : UInt32) (rate : Int32)
  | glowData (glow : UInt8) (timestamp : UInt32) (lit : Bool)
  | tempData (thermometer : UInt8) (timestamp reading : UInt32)
  | deviceAnnounce (motorCount thermometerCount pumpCount glowCount : UInt8)
  | pingResponse (uptimeMs : UInt32)
  | errorInvalidCmd (errorCode : UInt32) (rejectedField constraint : Int32)
  | errorStateReject (state : UInt32) (rejectionReason : Int32)
  deriving DecidableEq, Repr

namespace Call

def type : Call → FusainMsgType
  | motorConfig _ => .motorConfig
  | pumpConfig _ => .pumpConfig
  | tempConfig _ => .tempConfig
  | glowConfig _ => .glowConfig
  | dataSubscription _ => .dataSubscription
  | dataUnsubscribe _ => .dataUnsubscribe
  | telemetryConfig _ _ => .telemetryConfig
  | timeoutConfig _ _ => .timeoutConfig
  | discoveryRequest => .discoveryRequest
  | stateCommand _ _ => .stateCommand
  | motorCommand _ _ => .motorCommand
  | pumpCommand _ _ => .pumpCommand
  | glowCommand _ _ => .glowCommand
  | tempCommand _ _ _ _ => .tempCommand
  | sendTelemetry _ _ => .sendTelemetry
  | pingRequest => .pingRequest
  | stateData _ _ _ _ => .stateData
  | motorData _ _ _ _ => .motorData
  | pumpData _ _ _ _ => .pumpData
  | glowData _ _ _ => .glowData
  | tempData _ _ _ => .tempData
  | deviceAnnounce _ _ _ _ => .deviceAnnounce
  | pingResponse _ => .pingResponse
  | errorInvalidCmd _ _ _ => .errorInvalidCmd
  | errorStateReject _ _ => .errorStateReject

/-- The arguments that the payload code accepts: device indices up to 127, enumerations up
to 255, optional codes negative or up to 255. -/
def InRange : Call → Prop
  | motorConfig config => config.motor.toNat ≤ 127
  | pumpConfig config => config.pump.toNat ≤ 127
  | tempConfig config => config.thermometer.toNat ≤ 127
  | glowConfig config => config.glow.toNat ≤ 127
  | stateCommand mode _ => mode.toNat ≤ 255
  | motorCommand motor _ => motor.toNat ≤ 127
  | pumpCommand pump _ => pump.toNat ≤ 127
  | glowCommand glow _ => glow.toNat ≤ 127
  | tempCommand thermometer type motorIndex _ =>
    thermometer.toNat ≤ 127 ∧ type.toNat ≤ 255 ∧
      (type = tempCmdWatchMotor → motorIndex.toNat ≤ 127)
  | sendTelemetry telemetryType _ => telemetryType.toNat ≤ 255
  | stateData _ _ state _ => state.toNat ≤ 255
  | motorData motor _ _ _ => motor.toNat ≤ 127
  | pumpData pump _ type _ => pump.toNat ≤ 127 ∧ type.toNat ≤ 255
  | glowData glow _ _ => glow.toNat ≤ 127
  | tempData thermometer _ _ => thermometer.toNat ≤ 127
  | errorInvalidCmd _ _ constraint => constraint.toInt < 0 ∨ constraint.toInt ≤ 255
  | errorStateReject _ rejectionReason =>
    rejectionReason.toInt < 0 ∨ rejectionReason.toInt ≤ 255
  | dataSubscription _ | dataUnsubscribe _ | telemetryConfig _ _ | timeoutConfig _ _
  | discoveryRequest | pingRequest | deviceAnnounce _ _ _ _ | pingResponse _ => True

variable {E D : Type} (z : Runtime E D) (widen : UInt32 → UInt64)

def create (packet : FusainPacket) (address : UInt64) : Call → FusainPacket
  | motorConfig config => fusainCreateMotorConfig z packet address config
  | pumpConfig config => fusainCreatePumpConfig z packet address config
  | tempConfig config => fusainCreateTempConfig z packet address config
  | glowConfig config => fusainCreateGlowConfig z packet address config
  | dataSubscription applianceAddress =>
    fusainCreateDataSubscription z packet address applianceAddress
  | dataUnsubscribe applianceAddress =>
    fusainCreateDataUnsubscribe z packet address applianceAddress
  | telemetryConfig enabled intervalMs =>
    fusainCreateTelemetryConfig z packet address enabled intervalMs
  | timeoutConfig enabled timeoutMs =>
    fusainCreateTimeoutConfig z packet address enabled timeoutMs
  | discoveryRequest => fusainCreateDiscoveryRequest packet address
  | stateCommand mode argument => fusainCreateStateCommand z packet address mode argument
  | motorCommand motor rpm => fusainCreateMotorCommand z packet address motor rpm
  | pumpCommand pump rateMs => fusainCreatePumpCommand z packet address pump rateMs
  | glowCommand glow duration => fusainCreateGlowCommand z packet address glow duration
  | tempCommand thermometer type motorIndex targetTemp =>
    fusainCreateTempCommand z widen packet address thermometer type motorIndex targetTemp
  | sendTelemetry telemetryType index =>
    fusainCreateSendTelemetry z packet address telemetryType index
  | pingRequest => fusainCreatePingRequest packet address
  | stateData error code state timestamp =>
    fusainCreateStateData z packet address error code state timestamp
  | motorData motor timestamp rpm target =>
    fusainCreateMotorData z packet address motor timestamp rpm target
  | pumpData pump timestamp type rate =>
    fusainCreatePumpData z packet address pump timestamp type rate
  | glowData glow timestamp lit => fusainCreateGlowData z packet address glow timestamp lit
  | tempData thermometer timestamp reading =>
    fusainCreateTempData z widen packet address thermometer timestamp reading
  | deviceAnnounce motorCount thermometerCount pumpCount glowCount =>
    fusainCreateDeviceAnnounce z packet address motorCount thermometerCount pumpCount glowCount
  | pingResponse uptimeMs => fusainCreatePingResponse z packet address uptimeMs
  | errorInvalidCmd errorCode rejectedField constraint =>
    fusainCreateErrorInvalidCmd z packet address errorCode rejectedField constraint
  | errorStateReject state rejectionReason =>
    fusainCreateErrorStateReject z packet address state rejectionReason

/-- The body `l` is a nil, or the decoder of the message reads the arguments off all of it. -/
def Decodes (l : List UInt8) : Call → Prop
  | motorConfig config =>
    cborDecodeMotorConfigPayload z l = some ({
      motorIndex := deviceIndex config.motor
      uint1uint := some config.pwmPeriod
      uint2float := some config.pidKp
      uint3float := some config.pidKi
      uint4float := some config.pidKd
      uint5int := some config.maxRpm
      uint6int := some config.minRpm
      uint7uint := some config.minPwmDuty }, l.length)
  | pumpConfig config =>
    cborDecodePumpConfigPayload z l = some ({
      pumpIndex := deviceIndex config.pump
      uint1uint := some config.pulseMs
      uint2uint := some config.recoveryMs }, l.length)
  | tempConfig config =>
    cborDecodeTempConfigPayload z l = some ({
      thermometerIndex := deviceIndex config.thermometer
      uint1float := some config.pidKp
      uint2float := some config.pidKi
      uint3float := some config.pidKd }, l.length)
  | glowConfig config =>
    cborDecodeGlowConfigPayload z l = some ({
      glowIndex := deviceIndex config.glow
      uint1uint := some config.maxDurationMs }, l.length)
  | dataSubscription applianceAddress | dataUnsubscribe applianceAddress =>
    cborDecodeDataSubscriptionPayload z l = some ({ address := applianceAddress }, l.length)
  | telemetryConfig enabled intervalMs =>
    cborDecodeTelemetryConfigPayload z l = some ({
      uint0bool := enabled
      uint1uint := intervalMs }, l.length)
  | timeoutConfig enabled timeoutMs =>
    cborDecodeTimeoutConfigPayload z l = some ({
      uint0bool := enabled
      uint1uint := timeoutMs }, l.length)
  | stateCommand mode argument =>
    cborDecodeStateCommandPayload z l = some ({
      mode := mode
      uint1int := some argument }, l.length)
  | motorCommand motor rpm =>
    cborDecodeMotorCommandPayload z l = some ({
      motorIndex := deviceIndex motor
      uint1int := rpm }, l.length)
  | pumpCommand pump rateMs =>
    cborDecodePumpCommandPayload z l = some ({
      pumpIndex := deviceIndex pump
      uint1int := rateMs }, l.length)
  | glowCommand glow duration =>
    cborDecodeGlowCommandPayload z l = some ({
      glowIndex := deviceIndex glow
      uint1int := duration }, l.length)
  | tempCommand thermometer type motorIndex targetTemp =>
    cborDecodeTempCommandPayload z l = some ({
      thermometerIndex := deviceIndex thermometer
      tempCmdType := type
      motorIndex := if type = tempCmdWatchMotor then some (deviceIndex motorIndex) else none
      uint3float := if type = tempCmdSetTargetTemp then some (widen targetTemp) else none },
      l.length)
  | sendTelemetry telemetryType index =>
    cborDecodeSendTelemetryPayload z l = some ({
      telemetryType := telemetryType
      uint1uint := some index }, l.length)
  | stateData error code state timestamp =>
    cborDecodeStateDataPayload z l = some ({
      uint0bool := error ≠ 0
      errorCode := code.toUInt32
      state := state
      timestamp := timestamp }, l.length)
  | motorData motor timestamp rpm target =>
    cborDecodeMotorDataPayload z l = some ({
      motorIndex := deviceIndex motor
      timestamp := timestamp
      uint2int := rpm
      uint3int := target
      uint4int := none
      uint5int := none
      uint6uint := none
      uint7uint := none }, l.length)
  | pumpData pump timestamp type rate =>
    cborDecodePumpDataPayload z l = some ({
      pumpIndex := deviceIndex pump
      timestamp := timestamp
      pumpEvent := type
      uint3int := some rate }, l.length)
  | glowData glow timestamp lit =>
    cborDecodeGlowDataPayload z l = some ({
      glowIndex := deviceIndex glow
      timestamp := timestamp
      uint2bool := lit }, l.length)
  | tempData thermometer timestamp reading =>
    cborDecodeTempDataPayload z l = some ({
      thermometerIndex := deviceIndex thermometer
      timestamp := timestamp
      uint2float := widen reading
      uint3bool := none
      uint4int := none
      uint5float := none }, l.length)
  | deviceAnnounce motorCount thermometerCount pumpCount glowCount =>
    cborDecodeDeviceAnnouncePayload z l = some ({
      uint0uint := motorCount.toUInt32
      uint1uint := thermometerCount.toUInt32
      uint2uint := pumpCount.toUInt32
      uint3uint := glowCount.toUInt32 }, l.length)
  | pingResponse uptimeMs =>
    cborDecodePingResponsePayload z l = some ({ timestamp := uptimeMs }, l.length)
  | errorInvalidCmd errorCode rejectedField constraint =>
    cborDecodeErrorInvalidCmdPayload z l = some ({
      uint0int := errorCode.toInt32
      uint1uint := unlessNegative rejectedField
      constraint := unlessNegative constraint }, l.length)
  | errorStateReject state rejectionReason =>
    cborDecodeErrorStateRejectPayload z l = some ({
      uint0int := state.toInt32
      rejectionReason := unlessNegative rejectionReason }, l.length)
  | discoveryRequest | pingRequest => l = [cborNil]

end Call

theorem inInt8_deviceIndex {b : UInt8} (h : b.toNat ≤ 127) : inInt8 (deviceIndex b) := by
  simp only [inInt8, deviceIndex_toInt, decide_eq_true_eq]
  omega

/-- The motor index is sent, and must be in range, for WATCH_MOTOR only. -/
theorem inInt8_watched {type : UInt32} {motorIndex : UInt8}
    (h : type = tempCmdWatchMotor → motorIndex.toNat ≤ 127) :
    ∀ v ∈ (if type = tempCmdWatchMotor then some (deviceIndex motorIndex) else none),
      inInt8 v := by
  intro v hv
  by_cases hw : type = tempCmdWatchMotor
  · simp only [hw, if_true, Option.mem_some_iff] at hv
    subst hv
    exact inInt8_deviceIndex (h hw)
  · simp [hw] at hv

theorem inUint8_of_le {v : UInt32} (h : v.toNat ≤ 255) : inUint8 v := by simpa [inUint8] using h

theorem inUint8_toUInt32 (b : UInt8) : inUint8 b.toUInt32 := by
  have := b.toNat_lt
  apply inUint8_of_le
  rw [UInt8.toNat_toUInt32]
  omega

theorem inUint8_unlessNegative {v : Int32} (h : v.toInt < 0 ∨ v.toInt ≤ 255) :
    ∀ w ∈ unlessNegative v, inUint8 w := by
  intro w hw
  have := unlessNegative_toNat hw
  exact inUint8_of_le (by omega)

/-- Each builder, within the ranges of its payload code. -/
theorem builder_conveys {E D : Type} {z : Runtime E D} {W : E → List UInt8 → Nat → Prop}
    {R : D → Bool → List UInt8 → Prop} (hz : Standard z W R) (widen : UInt32 → UInt64)
    (call : Call) (h : call.InRange) (packet : FusainPacket) (address : UInt64) :
    Conveys (call.create z widen packet address) call.type address
      fun l => call.Decodes z widen l := by
  cases call with
  | motorConfig config =>
    rw [Call.create]
    apply map_conveys hz
    exact motor_config_transfers hz _ (inInt8_deviceIndex h)
  | pumpConfig config =>
    rw [Call.create]
    apply map_conveys hz
    exact pump_config_transfers hz _ (inInt8_deviceIndex h)
  | tempConfig config =>
    rw [Call.create]
    apply map_conveys hz
    exact temp_config_transfers hz _ (inInt8_deviceIndex h)
  | glowConfig config =>
    rw [Call.create]
    apply map_conveys hz
    exact glow_config_transfers hz _ (inInt8_deviceIndex h)
  | dataSubscription applianceAddress =>
    rw [Call.create]
    apply map_conveys hz
    exact data_subscription_transfers hz _
  | dataUnsubscribe applianceAddress =>
    rw [Call.create]
    apply map_conveys hz
    exact data_subscription_transfers hz _
  | telemetryConfig enabled intervalMs =>
    rw [Call.create]
    apply map_conveys hz
    exact telemetry_config_transfers hz _
  | timeoutConfig enabled timeoutMs =>
    rw [Call.create]
    apply map_conveys hz
    exact timeout_config_transfers hz _
  | discoveryRequest => exact nil_conveys .discoveryRequest packet address
  | stateCommand mode argument =>
    rw [Call.create]
    apply map_conveys hz
    exact state_command_transfers hz _ (inUint8_of_le h)
  | motorCommand motor rpm =>
    rw [Call.create]
    apply map_conveys hz
    exact motor_command_transfers hz _ (inInt8_deviceIndex h)
  | pumpCommand pump rateMs =>
    rw [Call.create]
    apply map_conveys hz
    exact pump_command_transfers hz _ (inInt8_deviceIndex h)
  | glowCommand glow duration =>
    rw [Call.create]
    apply map_conveys hz
    exact glow_command_transfers hz _ (inInt8_deviceIndex h)
  | tempCommand thermometer type motorIndex targetTemp =>
    obtain ⟨ht, hc, hm⟩ := h
    rw [Call.create]
    apply map_conveys hz
    exact temp_command_transfers hz _ (inInt8_deviceIndex ht) (inUint8_of_le hc)
      (inInt8_watched hm)
  | sendTelemetry telemetryType index =>
    rw [Call.create]
    apply map_conveys hz
    exact send_telemetry_transfers hz _ (inUint8_of_le h)
  | pingRequest => exact nil_conveys .pingRequest packet address
  | stateData error code state timestamp =>
    rw [Call.create]
    apply map_conveys hz
    exact state_data_transfers hz _ (inUint8_toUInt32 code) (inUint8_of_le h)
  | motorData motor timestamp rpm target =>
    rw [Call.create]
    apply map_conveys hz
    exact motor_data_transfers hz _ (inInt8_deviceIndex h)
  | pumpData pump timestamp type rate =>
    rw [Call.create]
    apply map_conveys hz
    exact pump_data_transfers hz _ (inInt8_deviceIndex h.1) (inUint8_of_le h.2)
  | glowData glow timestamp lit =>
    rw [Call.create]
    apply map_conveys hz
    exact glow_data_transfers hz _ (inInt8_deviceIndex h)
  | tempData thermometer timestamp reading =>
    rw [Call.create]
    apply map_conveys hz
    exact temp_data_transfers hz _ (inInt8_deviceIndex h)
  | deviceAnnounce motorCount thermometerCount pumpCount glowCount =>
    rw [Call.create]
    apply map_conveys hz
    exact device_announce_transfers hz _ (inUint8_toUInt32 _) (inUint8_toUInt32 _)
      (inUint8_toUInt32 _) (inUint8_toUInt32 _)
  | pingResponse uptimeMs =>
    rw [Call.create]
    apply map_conveys hz
    exact ping_response_transfers hz _
  | errorInvalidCmd errorCode rejectedField constraint =>
    rw [Call.create]
    apply map_conveys hz
    exact error_invalid_cmd_transfers hz _ (inUint8_unlessNegative h)
  | errorStateReject state rejectionReason =>
    rw [Call.create]
    apply map_conveys hz
    exact error_state_reject_transfers hz _ (inUint8_unlessNegative h)

/-- float to double for normal numbers: the exponent is rebiased, the fraction extended. -/
def widenNormal (bits : UInt32) : UInt64 :=
  UInt64.ofNat (bits.toNat / 2 ^ 31 * 2 ^ 63 + (bits.toNat / 2 ^ 23 % 2 ^ 8 + 896) * 2 ^ 52 +
    bits.toNat % 2 ^ 23 * 2 ^ 29)

end Fusain.Typed
