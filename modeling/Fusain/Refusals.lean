import Fusain.Typed
import Fusain.RoundTrip

/-!
# Builders that fail

A builder returns nothing: its only way to say that there is no message is a packet of
length 0. The encoder takes such a packet for an empty payload and sends a frame that no
receiver accepts. This happens for exactly the arguments that the payload code refuses.
-/
namespace Fusain.Refusals

open Builders Decoder Encoder Messages Payload Reader RoundTrip Tracking Typed Wire Zcbor

theorem not_inInt8 {b : UInt8} (h : ¬ b.toNat ≤ 127) : inInt8 (deviceIndex b) = false := by
  simp only [inInt8, deviceIndex_toInt, decide_eq_false_iff_not]
  omega

theorem not_inUint8 {v : UInt32} (h : ¬ v.toNat ≤ 255) : inUint8 v = false := by
  simpa [inUint8] using h

theorem not_inInt8_watched {type : UInt32} {motorIndex : UInt8}
    (h : ¬ (type = tempCmdWatchMotor → motorIndex.toNat ≤ 127)) :
    ∃ v ∈ (if type = tempCmdWatchMotor then some (deviceIndex motorIndex) else none),
      inInt8 v = false := by
  obtain ⟨hw, hm⟩ := Classical.not_imp.mp h
  exact ⟨deviceIndex motorIndex, by rw [if_pos hw]; rfl, not_inInt8 hm⟩

theorem not_inUint8_unlessNegative {v : Int32} (h : ¬ (v.toInt < 0 ∨ v.toInt ≤ 255)) :
    ∃ w ∈ unlessNegative v, inUint8 w = false := by
  have hv : v ≥ 0 := by
    rw [ge_iff_le, Int32.le_iff_toInt_le]
    simp
    omega
  have hw : v.toUInt32 ∈ unlessNegative v := by simp [unlessNegative, hv]
  have := unlessNegative_toNat hw
  exact ⟨_, hw, not_inUint8 (by omega)⟩

theorem create_failed {body : List UInt8 → Option Nat × List UInt8}
    (h : ∀ buffer, (body buffer).1 = none) (type : FusainMsgType) (packet : FusainPacket)
    (address : UInt64) : (create type body packet address).length = 0 := by
  obtain ⟨header, henc, -⟩ := header_inverse type.value (show 3 ≤ maxPayloadSize by decide)
  have hbody := h ((store packet.payload 0 header).toList.drop header.length)
  simp only [create, henc, hbody]

theorem map_failed {E D : Type} {z : Runtime E D} {W : E → List UInt8 → Nat → Prop}
    {R : D → Bool → List UInt8 → Prop} (hz : Standard z W R) {p : Put E} (h : Fails p)
    (type : FusainMsgType) (packet : FusainPacket) (address : UInt64) :
    (create type (z.entryEncode p) packet address).length = 0 :=
  create_failed (entry_fails hz h) type packet address

/-- Each builder, outside the ranges of its payload code. -/
theorem builder_fails {E D : Type} {z : Runtime E D} {W : E → List UInt8 → Nat → Prop}
    {R : D → Bool → List UInt8 → Prop} (hz : Standard z W R) (widen : UInt32 → UInt64)
    (call : Call) (h : ¬ call.InRange) (packet : FusainPacket) (address : UInt64) :
    (call.create z widen packet address).length = 0 := by
  cases call with
  | motorConfig config =>
    rw [Call.create]
    apply map_failed hz
    exact motor_config_fails (not_inInt8 h)
  | pumpConfig config =>
    rw [Call.create]
    apply map_failed hz
    exact pump_config_fails (not_inInt8 h)
  | tempConfig config =>
    rw [Call.create]
    apply map_failed hz
    exact temp_config_fails (not_inInt8 h)
  | glowConfig config =>
    rw [Call.create]
    apply map_failed hz
    exact glow_config_fails (not_inInt8 h)
  | stateCommand mode argument =>
    rw [Call.create]
    apply map_failed hz
    exact state_command_fails (not_inUint8 h)
  | motorCommand motor rpm =>
    rw [Call.create]
    apply map_failed hz
    exact motor_command_fails (not_inInt8 h)
  | pumpCommand pump rateMs =>
    rw [Call.create]
    apply map_failed hz
    exact pump_command_fails (not_inInt8 h)
  | glowCommand glow duration =>
    rw [Call.create]
    apply map_failed hz
    exact glow_command_fails (not_inInt8 h)
  | tempCommand thermometer type motorIndex targetTemp =>
    rw [Call.create]
    apply map_failed hz
    apply temp_command_fails
    by_cases ht : thermometer.toNat ≤ 127
    · by_cases hc : type.toNat ≤ 255
      · exact .inr (.inr (not_inInt8_watched fun hm => h ⟨ht, hc, hm⟩))
      · exact .inr (.inl (not_inUint8 hc))
    · exact .inl (not_inInt8 ht)
  | sendTelemetry telemetryType index =>
    rw [Call.create]
    apply map_failed hz
    exact send_telemetry_fails (not_inUint8 h)
  | stateData error code state timestamp =>
    rw [Call.create]
    apply map_failed hz
    exact state_data_fails (not_inUint8 h)
  | motorData motor timestamp rpm target =>
    rw [Call.create]
    apply map_failed hz
    exact motor_data_fails (not_inInt8 h)
  | pumpData pump timestamp type rate =>
    rw [Call.create]
    apply map_failed hz
    apply pump_data_fails
    by_cases hi : pump.toNat ≤ 127
    · exact .inr (not_inUint8 fun ht => h ⟨hi, ht⟩)
    · exact .inl (not_inInt8 hi)
  | glowData glow timestamp lit =>
    rw [Call.create]
    apply map_failed hz
    exact glow_data_fails (not_inInt8 h)
  | tempData thermometer timestamp reading =>
    rw [Call.create]
    apply map_failed hz
    exact temp_data_fails (not_inInt8 h)
  | errorInvalidCmd errorCode rejectedField constraint =>
    obtain ⟨w, hw, hrange⟩ := not_inUint8_unlessNegative h
    rw [Call.create]
    apply map_failed hz
    exact error_invalid_cmd_fails hw hrange
  | errorStateReject state rejectionReason =>
    obtain ⟨w, hw, hrange⟩ := not_inUint8_unlessNegative h
    rw [Call.create]
    apply map_failed hz
    exact error_state_reject_fails hw hrange
  | dataSubscription _ | dataUnsubscribe _ | telemetryConfig _ _ | timeoutConfig _ _
  | discoveryRequest | pingRequest | deviceAnnounce _ _ _ _ | pingResponse _ =>
    exact absurd trivial h

/-- Whatever a builder is called with, the packet carries the type, the address and a body that
decodes to the arguments if and only if these are in the ranges of the payload code. -/
theorem conveys_iff_in_range {E D : Type} {z : Runtime E D} {W : E → List UInt8 → Nat → Prop}
    {R : D → Bool → List UInt8 → Prop} (hz : Standard z W R) (widen : UInt32 → UInt64)
    (call : Call) (packet : FusainPacket) (address : UInt64) :
    Conveys (call.create z widen packet address) call.type address
      (fun l => call.Decodes z widen l) ↔ call.InRange := by
  constructor
  · intro h
    by_contra hrange
    have hlen := h.length_ge
    rw [builder_fails hz widen call hrange packet address] at hlen
    exact absurd hlen (by decide)
  · exact fun h => builder_conveys hz widen call h packet address

/-- A target of 21.0 degrees for thermometer 3. -/
theorem conveys_iff_in_range_target :
    Conveys (fusainCreateTempCommand listRuntime widenNormal zeroPacket 0x1122 3
      tempCmdSetTargetTemp 0 0x41A80000) .tempCommand 0x1122 fun l =>
        cborDecodeTempCommandPayload listRuntime l = some ({
          thermometerIndex := 3
          tempCmdType := 4
          motorIndex := none
          uint3float := some 0x4035000000000000 }, l.length) :=
  (conveys_iff_in_range listRuntime_standard widenNormal
    (.tempCommand 3 tempCmdSetTargetTemp 0 0x41A80000) zeroPacket 0x1122).mpr
    ⟨by decide, by decide, fun h => absurd h (by decide)⟩

/-- In a buffer of 256 bytes the encoder refuses the packet, or what it sends makes a reset
decoder deliver a message of this type from this address. -/
def Answered (p : FusainPacket) (type : FusainMsgType) (address : UInt64) : Prop :=
  ∀ buffer, ∃ ret m, fusainEncodePacket (some p) (some buffer) 256 = (ret, some m) ∧
    (ret < 0 ∨ ∀ q d, ∃ c,
      (decodeRun ⟨q, fusainResetDecoder d⟩ ((List.range ret.toNat).map m)).getLast? = some c ∧
        c.result = .ok ∧ c.packet.msgType = type.value ∧ c.packet.address = address)

/-- Every packet whose LENGTH is in range is sent, and answered by its header. -/
theorem sent_answer {p : FusainPacket} (hp : p.length.toNat ≤ maxPayloadSize) (buffer : Memory) :
    ∃ (n : Nat) (m : Memory), fusainEncodePacket (some p) (some buffer) 256 = ((n : Int), some m) ∧
      ∀ q d, ∃ c,
        (decodeRun ⟨q, fusainResetDecoder d⟩ ((List.range n).map m)).getLast? = some c ∧
          match headerType p.content with
          | some mt => Arrived p mt c
          | none => c.result = .invalidStart := by
  have hroom := length_frame_le hp
  obtain ⟨m, henc, hw⟩ := encode_whole buffer (show minPacketSize ≤ 256 by decide) hp (by omega)
  refine ⟨(frame p).length, m, henc, fun q d => ?_⟩
  obtain ⟨⟨quiet, last, hchunk, -, -, hlast⟩, -⟩ := frame_read hp ⟨q, fusainResetDecoder d⟩ rfl
  exact ⟨last, by rw [hw.read, hchunk, List.getLast?_concat], hlast⟩

theorem answered_iff {p : FusainPacket} (hp : p.length.toNat ≤ maxPayloadSize)
    (type : FusainMsgType) (address : UInt64) :
    Answered p type address ↔ headerType p.content = some type.value ∧ p.address = address := by
  constructor
  · intro h
    obtain ⟨n, m, henc, hsent⟩ := sent_answer hp fun _ => 0
    obtain ⟨ret, m', henc', hanswer⟩ := h fun _ => 0
    rw [henc] at henc'
    cases henc'
    have hdelivered := hanswer.resolve_left (by omega)
    obtain ⟨c, hc, hmatch⟩ := hsent zeroPacket zeroDecoder
    obtain ⟨c', hc', hok, htype, haddr⟩ := hdelivered zeroPacket zeroDecoder
    rw [Int.toNat_natCast, hc, Option.some.injEq] at hc'
    subst hc'
    cases hmt : headerType p.content with
    | none =>
      rw [hmt] at hmatch
      exact absurd (hok.symm.trans hmatch) (by decide)
    | some mt =>
      rw [hmt] at hmatch
      exact ⟨by rw [← hmatch.msgType, htype], by rw [← hmatch.address, haddr]⟩
  · rintro ⟨hmt, rfl⟩ buffer
    obtain ⟨n, m, henc, hsent⟩ := sent_answer hp buffer
    refine ⟨n, m, henc, .inr fun q d => ?_⟩
    obtain ⟨c, hc, hmatch⟩ := hsent q d
    rw [hmt] at hmatch
    exact ⟨c, by rwa [Int.toNat_natCast], hmatch.result, hmatch.msgType, hmatch.address⟩

/-- A packet of length 0 has no header to be accepted for. -/
theorem failed_unanswered {p : FusainPacket} (h : p.length = 0) (type : FusainMsgType)
    (address : UInt64) : ¬ Answered p type address := by
  rw [answered_iff (by rw [h]; decide)]
  have hc : p.content = [] := by simp [FusainPacket.content, h]
  simp [hc, headerType]

/-- A call is answered, by a refusal or by the message it asked for, if and only if its
arguments are in the ranges of the payload code. -/
theorem answered_iff_in_range {E D : Type} {z : Runtime E D} {W : E → List UInt8 → Nat → Prop}
    {R : D → Bool → List UInt8 → Prop} (hz : Standard z W R) (widen : UInt32 → UInt64)
    (call : Call) (packet : FusainPacket) (address : UInt64) :
    Answered (call.create z widen packet address) call.type address ↔ call.InRange := by
  constructor
  · intro h
    by_contra hrange
    exact failed_unanswered (builder_fails hz widen call hrange packet address) _ _ h
  · intro hrange
    obtain ⟨-, hle, haddr, htype, headerLen, hheader, -⟩ :=
      builder_conveys hz widen call hrange packet address
    rw [answered_iff hle]
    refine ⟨?_, haddr⟩
    have hroom : (call.create z widen packet address).length.toNat ≤
        (call.create z widen packet address).payload.toList.length := by simpa using hle
    have hmt := header_eq hroom
    rw [hheader] at hmt
    exact hmt.symm.trans (congrArg some htype)

theorem answered_iff_in_range_last :
    Answered (fusainCreateMotorCommand listRuntime zeroPacket 0x1122 127 3000) .motorCommand
      0x1122 ↔ (127 : UInt8).toNat ≤ 127 :=
  answered_iff_in_range listRuntime_standard widenNormal (.motorCommand 127 3000) zeroPacket 0x1122

/-- For motor 128 a frame is sent, and rejected. -/
theorem motor_unanswered :
    (∃ W R, Standard listRuntime W R) ∧
      ¬ Answered (fusainCreateMotorCommand listRuntime zeroPacket 0x1122 128 3000) .motorCommand
        0x1122 :=
  ⟨⟨_, _, listRuntime_standard⟩, failed_unanswered (by decide +kernel) _ _⟩

end Fusain.Refusals
