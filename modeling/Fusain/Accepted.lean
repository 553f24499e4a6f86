import Fusain.Refusals
import Fusain.Lib.ListRuntime

/-!
# What the payload decoders accept

A decoder of a payload map may be given bytes of any origin, in any encoding that the
runtime takes. Whatever it accepts is data that the encoder of the same map writes, and
that comes back the same.
-/
namespace Fusain.Accepted

open Messages Payload Zcbor

/-- The payload maps, each with an encoder and a decoder. -/
inductive Kind where
  | motorConfig | pumpConfig | tempConfig | glowConfig | dataSubscription | telemetryConfig
  | timeoutConfig | stateCommand | motorCommand | pumpCommand | glowCommand | tempCommand
  | sendTelemetry | stateData | motorData | pumpData | glowData | tempData | deviceAnnounce
  | pingResponse | errorInvalidCmd | errorStateReject
  deriving DecidableEq, Repr

namespace Kind

def Data : Kind → Type
  | motorConfig => MotorConfigPayload
  | pumpConfig => PumpConfigPayload
  | tempConfig => TempConfigPayload
  | glowConfig => GlowConfigPayload
  | dataSubscription => DataSubscriptionPayload
  | telemetryConfig => TelemetryConfigPayload
  | timeoutConfig => TimeoutConfigPayload
  | stateCommand => StateCommandPayload
  | motorCommand => MotorCommandPayload
  | pumpCommand => PumpCommandPayload
  | glowCommand => GlowCommandPayload
  | tempCommand => TempCommandPayload
  | sendTelemetry => SendTelemetryPayload
  | stateData => StateDataPayload
  | motorData => MotorDataPayload
  | pumpData => PumpDataPayload
  | glowData => GlowDataPayload
  | tempData => TempDataPayload
  | deviceAnnounce => DeviceAnnouncePayload
  | pingResponse => PingResponsePayload
  | errorInvalidCmd => ErrorInvalidCmdPayload
  | errorStateReject => ErrorStateRejectPayload

variable {E D : Type} (z : Runtime E D)

def encode : (k : Kind) → k.Data → List UInt8 → Option Nat × List UInt8
  | motorConfig => cborEncodeMotorConfigPayload z
  | pumpConfig => cborEncodePumpConfigPayload z
  | tempConfig => cborEncodeTempConfigPayload z
  | glowConfig => cborEncodeGlowConfigPayload z
  | dataSubscription => cborEncodeDataSubscriptionPayload z
  | telemetryConfig => cborEncodeTelemetryConfigPayload z
  | timeoutConfig => cborEncodeTimeoutConfigPayload z
  | stateCommand => cborEncodeStateCommandPayload z
  | motorCommand => cborEncodeMotorCommandPayload z
  | pumpCommand => cborEncodePumpCommandPayload z
  | glowCommand => cborEncodeGlowCommandPayload z
  | tempCommand => cborEncodeTempCommandPayload z
  | sendTelemetry => cborEncodeSendTelemetryPayload z
  | stateData => cborEncodeStateDataPayload z
  | motorData => cborEncodeMotorDataPayload z
  | pumpData => cborEncodePumpDataPayload z
  | glowData => cborEncodeGlowDataPayload z
  | tempData => cborEncodeTempDataPayload z
  | deviceAnnounce => cborEncodeDeviceAnnouncePayload z
  | pingResponse => cborEncodePingResponsePayload z
  | errorInvalidCmd => cborEncodeErrorInvalidCmdPayload z
  | errorStateReject => cborEncodeErrorStateRejectPayload z

def decode : (k : Kind) → List UInt8 → Option (k.Data × Nat)
  | motorConfig => cborDecodeMotorConfigPayload z
  | pumpConfig => cborDecodePumpConfigPayload z
  | tempConfig => cborDecodeTempConfigPayload z
  | glowConfig => cborDecodeGlowConfigPayload z
  | dataSubscription => cborDecodeDataSubscriptionPayload z
  | telemetryConfig => cborDecodeTelemetryConfigPayload z
  | timeoutConfig => cborDecodeTimeoutConfigPayload z
  | stateCommand => cborDecodeStateCommandPayload z
  | motorCommand => cborDecodeMotorCommandPayload z
  | pumpCommand => cborDecodePumpCommandPayload z
  | glowCommand => cborDecodeGlowCommandPayload z
  | tempCommand => cborDecodeTempCommandPayload z
  | sendTelemetry => cborDecodeSendTelemetryPayload z
  | stateData => cborDecodeStateDataPayload z
  | motorData => cborDecodeMotorDataPayload z
  | pumpData => cborDecodePumpDataPayload z
  | glowData => cborDecodeGlowDataPayload z
  | tempData => cborDecodeTempDataPayload z
  | deviceAnnounce => cborDecodeDeviceAnnouncePayload z
  | pingResponse => cborDecodePingResponsePayload z
  | errorInvalidCmd => cborDecodeErrorInvalidCmdPayload z
  | errorStateReject => cborDecodeErrorStateRejectPayload z

def put : (k : Kind) → k.Data → Put E
  | motorConfig => encodeMotorConfigPayload z
  | pumpConfig => encodePumpConfigPayload z
  | tempConfig => encodeTempConfigPayload z
  | glowConfig => encodeGlowConfigPayload z
  | dataSubscription => encodeDataSubscriptionPayload z
  | telemetryConfig => encodeTelemetryConfigPayload z
  | timeoutConfig => encodeTimeoutConfigPayload z
  | stateCommand => encodeStateCommandPayload z
  | motorCommand => encodeMotorCommandPayload z
  | pumpCommand => encodePumpCommandPayload z
  | glowCommand => encodeGlowCommandPayload z
  | tempCommand => encodeTempCommandPayload z
  | sendTelemetry => encodeSendTelemetryPayload z
  | stateData => encodeStateDataPayload z
  | motorData => encodeMotorDataPayload z
  | pumpData => encodePumpDataPayload z
  | glowData => encodeGlowDataPayload z
  | tempData => encodeTempDataPayload z
  | deviceAnnounce => encodeDeviceAnnouncePayload z
  | pingResponse => encodePingResponsePayload z
  | errorInvalidCmd => encodeErrorInvalidCmdPayload z
  | errorStateReject => encodeErrorStateRejectPayload z

def get : (k : Kind) → Get D k.Data
  | motorConfig => decodeMotorConfigPayload z
  | pumpConfig => decodePumpConfigPayload z
  | tempConfig => decodeTempConfigPayload z
  | glowConfig => decodeGlowConfigPayload z
  | dataSubscription => decodeDataSubscriptionPayload z
  | telemetryConfig => decodeTelemetryConfigPayload z
  | timeoutConfig => decodeTimeoutConfigPayload z
  | stateCommand => decodeStateCommandPayload z
  | motorCommand => decodeMotorCommandPayload z
  | pumpCommand => decodePumpCommandPayload z
  | glowCommand => decodeGlowCommandPayload z
  | tempCommand => decodeTempCommandPayload z
  | sendTelemetry => decodeSendTelemetryPayload z
  | stateData => decodeStateDataPayload z
  | motorData => decodeMotorDataPayload z
  | pumpData => decodePumpDataPayload z
  | glowData => decodeGlowDataPayload z
  | tempData => decodeTempDataPayload z
  | deviceAnnounce => decodeDeviceAnnouncePayload z
  | pingResponse => decodePingResponsePayload z
  | errorInvalidCmd => decodeErrorInvalidCmdPayload z
  | errorStateReject => decodeErrorStateRejectPayload z

theorem encode_put (k : Kind) (a : k.Data) (buffer : List UInt8) :
    k.encode z a buffer = z.entryEncode (k.put z a) buffer := by
  cases k <;> rfl

theorem decode_get (k : Kind) (l : List UInt8) : k.decode z l = z.entryDecode (k.get z) l := by
  cases k <;> rfl

/-- The range checks of the encoder, which the decoder makes as well. -/
def Checked : (k : Kind) → k.Data → Prop
  | motorConfig, a => inInt8 a.motorIndex
  | pumpConfig, a => inInt8 a.pumpIndex
  | tempConfig, a => inInt8 a.thermometerIndex
  | glowConfig, a => inInt8 a.glowIndex
  | stateCommand, a => inUint8 a.mode
  | motorCommand, a => inInt8 a.motorIndex
  | pumpCommand, a => inInt8 a.pumpIndex
  | glowCommand, a => inInt8 a.glowIndex
  | tempCommand, a =>
    inInt8 a.thermometerIndex ∧ inUint8 a.tempCmdType ∧ ∀ v ∈ a.motorIndex, inInt8 v
  | sendTelemetry, a => inUint8 a.telemetryType
  | stateData, a => inUint8 a.errorCode ∧ inUint8 a.state
  | motorData, a => inInt8 a.motorIndex
  | pumpData, a => inInt8 a.pumpIndex ∧ inUint8 a.pumpEvent
  | glowData, a => inInt8 a.glowIndex
  | tempData, a => inInt8 a.thermometerIndex
  | deviceAnnounce, a =>
    inUint8 a.uint0uint ∧ inUint8 a.uint1uint ∧ inUint8 a.uint2uint ∧ inUint8 a.uint3uint
  | errorInvalidCmd, a => ∀ v ∈ a.constraint, inUint8 v
  | errorStateReject, a => ∀ v ∈ a.rejectionReason, inUint8 v
  | dataSubscription, _ | telemetryConfig, _ | timeoutConfig, _ | pingResponse, _ => True

end Kind

section Sides

variable {E D : Type} {z : Runtime E D}

theorem kind_transfers {W : E → List UInt8 → Nat → Prop} {R : D → Bool → List UInt8 → Prop}
    (hz : Standard z W R) (k : Kind) {a : k.Data} (h : k.Checked a) :
    Transfers W R (k.put z a) (k.get z) a bodySize := by
  cases k with
  | motorConfig => exact motor_config_transfers hz a h
  | pumpConfig => exact pump_config_transfers hz a h
  | tempConfig => exact temp_config_transfers hz a h
  | glowConfig => exact glow_config_transfers hz a h
  | dataSubscription => exact data_subscription_transfers hz a
  | telemetryConfig => exact telemetry_config_transfers hz a
  | timeoutConfig => exact timeout_config_transfers hz a
  | stateCommand => exact state_command_transfers hz a h
  | motorCommand => exact motor_command_transfers hz a h
  | pumpCommand => exact pump_command_transfers hz a h
  | glowCommand => exact glow_command_transfers hz a h
  | tempCommand => exact temp_command_transfers hz a h.1 h.2.1 h.2.2
  | sendTelemetry => exact send_telemetry_transfers hz a h
  | stateData => exact state_data_transfers hz a h.1 h.2
  | motorData => exact motor_data_transfers hz a h
  | pumpData => exact pump_data_transfers hz a h.1 h.2
  | glowData => exact glow_data_transfers hz a h
  | tempData => exact temp_data_transfers hz a h
  | deviceAnnounce => exact device_announce_transfers hz a h.1 h.2.1 h.2.2.1 h.2.2.2
  | pingResponse => exact ping_response_transfers hz a
  | errorInvalidCmd => exact error_invalid_cmd_transfers hz a h
  | errorStateReject => exact error_state_reject_transfers hz a h

theorem kind_fails (k : Kind) {a : k.Data} (h : ¬ k.Checked a) : Fails (k.put z a) := by
  have failed : ∀ {ok : Bool}, ¬ ok = true → ok = false := by simp
  have absent : ∀ {α : Type} {ok : α → Bool} {o : Option α}, (¬ ∀ v ∈ o, ok v = true) →
      ∃ v ∈ o, ok v = false := by
    intro α ok o hn
    cases o with
    | none => exact absurd (fun v hv => nomatch hv) hn
    | some v => exact ⟨v, rfl, failed fun hv => hn fun _ he => Option.some.inj he ▸ hv⟩
  cases k with
  | motorConfig => exact motor_config_fails (failed h)
  | pumpConfig => exact pump_config_fails (failed h)
  | tempConfig => exact temp_config_fails (failed h)
  | glowConfig => exact glow_config_fails (failed h)
  | dataSubscription => exact absurd trivial h
  | telemetryConfig => exact absurd trivial h
  | timeoutConfig => exact absurd trivial h
  | stateCommand => exact state_command_fails (failed h)
  | motorCommand => exact motor_command_fails (failed h)
  | pumpCommand => exact pump_command_fails (failed h)
  | glowCommand => exact glow_command_fails (failed h)
  | tempCommand =>
    rcases not_and_or.mp h with h | h
    · exact temp_command_fails (.inl (failed h))
    rcases not_and_or.mp h with h | h
    · exact temp_command_fails (.inr (.inl (failed h)))
    · exact temp_command_fails (.inr (.inr (absent h)))
  | sendTelemetry => exact send_telemetry_fails (failed h)
  | stateData =>
    rcases not_and_or.mp h with h | h
    · exact fails_map (.tail _ (.head _)) (fails_entry (failed h))
    · exact state_data_fails (failed h)
  | motorData => exact motor_data_fails (failed h)
  | pumpData =>
    rcases not_and_or.mp h with h | h
    · exact pump_data_fails (.inl (failed h))
    · exact pump_data_fails (.inr (failed h))
  | glowData => exact glow_data_fails (failed h)
  | tempData => exact temp_data_fails (failed h)
  | deviceAnnounce =>
    rcases not_and_or.mp h with h | h
    · exact fails_map (.head _) (fails_entry (failed h))
    rcases not_and_or.mp h with h | h
    · exact fails_map (.tail _ (.head _)) (fails_entry (failed h))
    rcases not_and_or.mp h with h | h
    · exact fails_map (.tail _ (.tail _ (.head _))) (fails_entry (failed h))
    · exact fails_map (.tail _ (.tail _ (.tail _ (.head _)))) (fails_entry (failed h))
  | pingResponse => exact absurd trivial h
  | errorInvalidCmd =>
    obtain ⟨v, hv, hfalse⟩ := absent h
    exact error_invalid_cmd_fails hv hfalse
  | errorStateReject =>
    obtain ⟨v, hv, hfalse⟩ := absent h
    exact error_state_reject_fails hv hfalse

/-- What the decoder lets through passes the checks. -/
theorem kind_ensures (hf : Faithful z) (k : Kind) : Ensures (k.get z) k.Checked := by
  cases k with
  | motorConfig =>
    exact ensures_map <| ensures_entry fun _ h => ensures_optional hf fun _ _ =>
      ensures_optional hf fun _ _ => ensures_optional hf fun _ _ => ensures_optional hf fun _ _ =>
      ensures_optional hf fun _ _ => ensures_optional hf fun _ _ => ensures_optional hf fun _ _ =>
      ensures_pure h
  | pumpConfig =>
    exact ensures_map <| ensures_entry fun _ h => ensures_optional hf fun _ _ =>
      ensures_optional hf fun _ _ => ensures_pure h
  | tempConfig =>
    exact ensures_map <| ensures_entry fun _ h => ensures_optional hf fun _ _ =>
      ensures_optional hf fun _ _ => ensures_optional hf fun _ _ => ensures_pure h
  | glowConfig =>
    exact ensures_map <| ensures_entry fun _ h => ensures_optional hf fun _ _ => ensures_pure h
  | dataSubscription =>
    exact ensures_map <| ensures_entry fun _ _ => ensures_pure trivial
  | telemetryConfig =>
    exact ensures_map <| ensures_entry fun _ _ => ensures_entry fun _ _ => ensures_pure trivial
  | timeoutConfig =>
    exact ensures_map <| ensures_entry fun _ _ => ensures_entry fun _ _ => ensures_pure trivial
  | stateCommand =>
    exact ensures_map <| ensures_entry fun _ h => ensures_optional hf fun _ _ => ensures_pure h
  | motorCommand =>
    exact ensures_map <| ensures_entry fun _ h => ensures_entry fun _ _ => ensures_pure h
  | pumpCommand =>
    exact ensures_map <| ensures_entry fun _ h => ensures_entry fun _ _ => ensures_pure h
  | glowCommand =>
    exact ensures_map <| ensures_entry fun _ h => ensures_entry fun _ _ => ensures_pure h
  | tempCommand =>
    exact ensures_map <| ensures_entry fun _ hi => ensures_entry fun _ ht =>
      ensures_optional hf fun _ hm => ensures_optional hf fun _ _ => ensures_pure ⟨hi, ht, hm⟩
  | sendTelemetry =>
    exact ensures_map <| ensures_entry fun _ h => ensures_optional hf fun _ _ => ensures_pure h
  | stateData =>
    exact ensures_map <| ensures_entry fun _ _ => ensures_entry fun _ he =>
      ensures_entry fun _ hs => ensures_entry fun _ _ => ensures_pure ⟨he, hs⟩
  | motorData =>
    exact ensures_map <| ensures_entry fun _ h => ensures_entry fun _ _ =>
      ensures_entry fun _ _ => ensures_entry fun _ _ => ensures_optional hf fun _ _ =>
      ensures_optional hf fun _ _ => ensures_optional hf fun _ _ => ensures_optional hf fun _ _ =>
      ensures_pure h
  | pumpData =>
    exact ensures_map <| ensures_entry fun _ hi => ensures_entry fun _ _ =>
      ensures_entry fun _ he => ensures_optional hf fun _ _ => ensures_pure ⟨hi, he⟩
  | glowData =>
    exact ensures_map <| ensures_entry fun _ h => ensures_entry fun _ _ =>
      ensures_entry fun _ _ => ensures_pure h
  | tempData =>
    exact ensures_map <| ensures_entry fun _ h => ensures_entry fun _ _ =>
      ensures_entry fun _ _ => ensures_optional hf fun _ _ => ensures_optional hf fun _ _ =>
      ensures_optional hf fun _ _ => ensures_pure h
  | deviceAnnounce =>
    exact ensures_map <| ensures_entry fun _ h0 => ensures_entry fun _ h1 =>
      ensures_entry fun _ h2 => ensures_entry fun _ h3 => ensures_pure ⟨h0, h1, h2, h3⟩
  | pingResponse =>
    exact ensures_map <| ensures_entry fun _ _ => ensures_pure trivial
  | errorInvalidCmd =>
    exact ensures_map <| ensures_entry fun _ _ => ensures_optional hf fun _ _ =>
      ensures_optional hf fun _ h => ensures_pure h
  | errorStateReject =>
    exact ensures_map <| ensures_entry fun _ _ => ensures_optional hf fun _ h => ensures_pure h

end Sides

section Agreement

variable {E D : Type} {z : Runtime E D} {W : E → List UInt8 → Nat → Prop}
  {R : D → Bool → List UInt8 → Prop}

/-- Into a buffer that holds a payload, the encoder writes the data that passes the checks
and nothing else. -/
theorem encode_iff (hz : Standard z W R) (k : Kind) (a : k.Data) {buffer : List UInt8}
    (room : bodySize ≤ buffer.length) : (k.encode z a buffer).1 ≠ none ↔ k.Checked a := by
  rw [Kind.encode_put]
  constructor
  · intro h
    by_contra unchecked
    exact h (entry_fails hz (kind_fails k unchecked) buffer)
  · intro h
    obtain ⟨l, tail, -, -, written, -⟩ := entry_transfers hz (kind_transfers hz k h) room
    rw [written]
    exact Option.some_ne_none _

theorem encode_read (hz : Standard z W R) (k : Kind) {a : k.Data} (h : k.Checked a)
    {buffer : List UInt8} (room : bodySize ≤ buffer.length) :
    ∃ l tail, l.length ≤ bodySize ∧ k.encode z a buffer = (some l.length, l ++ tail) ∧
      k.decode z l = some (a, l.length) := by
  obtain ⟨l, tail, -, hl, written, read⟩ := entry_transfers hz (kind_transfers hz k h) room
  exact ⟨l, tail, hl, by rw [Kind.encode_put, written], by rw [Kind.decode_get, read]⟩

/-- The decoder accepts only data that passes the checks, from any bytes. -/
theorem decode_checked (hf : Faithful z) (k : Kind) {a : k.Data} {l : List UInt8} {n : Nat}
    (h : k.decode z l = some (a, n)) : k.Checked a := by
  rw [Kind.decode_get] at h
  obtain ⟨d, d', hd⟩ := hf.entryDecode _ _ _ _ h
  exact kind_ensures hf k d a d' hd

/-- The data that a decoder accepts, from bytes of any origin, is the data that the encoder of
its map writes; the encoder writes it in its own bytes, and the decoder reads these as the
same data, to their end. -/
theorem accepted_written (hz : Standard z W R) (hf : Faithful z) (k : Kind) (a : k.Data)
    {buffer : List UInt8} (room : bodySize ≤ buffer.length) :
    ((∃ l n, k.decode z l = some (a, n)) ↔ (k.encode z a buffer).1 ≠ none) ∧
    ∀ l n, k.decode z l = some (a, n) → ∃ l' tail, l'.length ≤ bodySize ∧
      k.encode z a buffer = (some l'.length, l' ++ tail) ∧ k.decode z l' = some (a, l'.length) := by
  refine ⟨?_, fun l n h => encode_read hz k (decode_checked hf k h) room⟩
  rw [encode_iff hz k a room]
  constructor
  · rintro ⟨l, n, h⟩
    exact decode_checked hf k h
  · intro h
    obtain ⟨l, tail, -, -, read⟩ := encode_read hz k h room
    exact ⟨l, l.length, read⟩

/-- A motor command whose numbers are written wider than they need to be. -/
def wideCommand : List UInt8 := [0xBF, 0x00, 0x18, 0x05, 0x01, 0x1A, 0x00, 0x00, 0x0B, 0xB8, 0xFF]

theorem decode_wide : Kind.motorCommand.decode listRuntime wideCommand = some (⟨5, 3000⟩, 11) := by
  rfl

theorem accepted_written_wide :
    Kind.motorCommand.decode listRuntime wideCommand = some (⟨5, 3000⟩, 11) ∧
    ∃ l' tail, l'.length ≤ bodySize ∧
      Kind.motorCommand.encode listRuntime ⟨5, 3000⟩ (List.replicate 111 0) =
        (some l'.length, l' ++ tail) ∧
      Kind.motorCommand.decode listRuntime l' = some (⟨5, 3000⟩, l'.length) :=
  ⟨decode_wide,
    (accepted_written listRuntime_standard listRuntime_faithful .motorCommand ⟨5, 3000⟩
      (show bodySize ≤ (List.replicate 111 (0 : UInt8)).length by decide)).2 wideCommand 11
        decode_wide⟩

end Agreement

end Fusain.Accepted
