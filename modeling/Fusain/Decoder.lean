import Fusain.Packet
import Fusain.Crc
import Fusain.Lib.Machine

/-!
# The streaming decoder

`fusain_decode_byte` one state at a time. Every call also reports the array
accesses it makes, with the index it uses: the C code has no bounds check, so an
index is a fact to be proved, not a precondition of the model. A call that makes
an access out of bounds is undefined in C; the modelled memory is then unchanged
by that access and nothing should be concluded from it.
-/
namespace Fusain.Decoder

open Crc (fusainCrc16)

def stateIdle : UInt8 := 0
def stateLength : UInt8 := 1
def stateAddress : UInt8 := 2
def statePayload : UInt8 := 3
def stateCrc1 : UInt8 := 4
def stateCrc2 : UInt8 := 5
def stateEnd : UInt8 := 6

/-- CBOR_ARRAY_2 -/
def cborArray2 : UInt8 := 0x82
/-- CBOR_UINT8_PREFIX -/
def cborUint8Prefix : UInt8 := 0x18

/-- decode_cbor_message_header: the message type and the bytes it took; `none` is -1.
Only the first three bytes of the buffer are read, each after a size check. -/
def decodeCborMessageHeader (buffer : List UInt8) (bufferSize : Nat) : Option (UInt8 × Nat) :=
  if bufferSize < 2 then none
  else if buffer.getD 0 0 ≠ cborArray2 then none
  else if buffer.getD 1 0 ≤ 0x17 then some (buffer.getD 1 0, 2)
  else if buffer.getD 1 0 = cborUint8Prefix then
    if bufferSize < 3 then none else some (buffer.getD 2 0, 3)
  else none

/-- An array access or a shift, with the index or amount the code computes. -/
inductive Access where
  /-- `decoder->buffer[index] = byte` -/
  | bufferWrite : Nat → Access
  /-- `packet->payload[index] = byte`; the index is a difference -/
  | payloadWrite : Int → Access
  /-- `byte << amount` in the address -/
  | addressShift : Nat → Access
  /-- `fusain_crc16(decoder->buffer, length)` -/
  | crcRead : Nat → Access
  deriving DecidableEq, Repr

/-- The access stays inside its array. -/
def Access.InBounds : Access → Prop
  | .bufferWrite i => i < maxPacketSize
  | .payloadWrite i => 0 ≤ i ∧ i < maxPayloadSize
  | .addressShift _ => True
  | .crcRead n => n ≤ maxPacketSize

instance (a : Access) : Decidable a.InBounds := by
  cases a <;> unfold Access.InBounds <;> infer_instance

/-- What one call returns and leaves behind. -/
structure Step where
  result : FusainDecodeResult
  packet : FusainPacket
  decoder : FusainDecoder
  accesses : List Access
  deriving DecidableEq, Repr

/-- `decoder->buffer[decoder->buffer_index++] = byte` -/
def push (decoder : FusainDecoder) (byte : UInt8) : FusainDecoder :=
  { decoder with
    buffer := decoder.buffer.setIfInBounds decoder.bufferIndex byte
    bufferIndex := decoder.bufferIndex + 1 }

/-- `packet->payload[index] = byte` -/
def storePayload (packet : FusainPacket) (index : Int) (byte : UInt8) : FusainPacket :=
  if 0 ≤ index then
    { packet with payload := packet.payload.setIfInBounds index.toNat byte }
  else packet

def decodeLength (byte : UInt8) (packet : FusainPacket) (decoder : FusainDecoder) : Step :=
  if byte.toNat > maxPayloadSize then
    ⟨.invalidLength, packet, { decoder with state := stateIdle }, []⟩
  else
    ⟨.incomplete, { packet with length := byte },
      { push decoder byte with addrByteCount := 0, state := stateAddress },
      [.bufferWrite decoder.bufferIndex]⟩

def decodeAddress (byte : UInt8) (packet : FusainPacket) (decoder : FusainDecoder) : Step :=
  let address := packet.address ||| (byte.toUInt64 <<< (decoder.addrByteCount.toUInt64 * 8))
  let count := decoder.addrByteCount + 1
  let state :=
    if count ≥ 8 then (if packet.length = 0 then stateCrc1 else statePayload) else decoder.state
  ⟨.incomplete, { packet with address := address },
    { push decoder byte with addrByteCount := count, state := state },
    [.addressShift (decoder.addrByteCount.toNat * 8), .bufferWrite decoder.bufferIndex]⟩

def decodePayload (byte : UInt8) (packet : FusainPacket) (decoder : FusainDecoder) : Step :=
  let index : Int := decoder.bufferIndex - 9
  let state :=
    if decoder.bufferIndex + 1 ≥ packet.length.toNat + 9 then stateCrc1 else decoder.state
  ⟨.incomplete, storePayload packet index byte, { push decoder byte with state := state },
    [.payloadWrite index, .bufferWrite decoder.bufferIndex]⟩

def decodeCrc1 (byte : UInt8) (packet : FusainPacket) (decoder : FusainDecoder) : Step :=
  ⟨.incomplete, { packet with crc := byte.toUInt16 <<< 8 }, { decoder with state := stateCrc2 }, []⟩

def decodeCrc2 (byte : UInt8) (packet : FusainPacket) (decoder : FusainDecoder) : Step :=
  ⟨.incomplete, { packet with crc := packet.crc ||| byte.toUInt16 },
    { decoder with state := stateEnd }, []⟩

section Build

/- What fusain_crc16 is depends on the build; everything else is the same in both. -/
variable (crc16 : List UInt8 → Nat → UInt16)

/-- The terminator is compared as it was read, before any unescaping. -/
def decodeEndWith (rxByte : UInt8) (packet : FusainPacket) (decoder : FusainDecoder) : Step :=
  let idle := { decoder with state := stateIdle }
  if rxByte ≠ endByte then ⟨.invalidStart, packet, idle, []⟩
  else
    let length := packet.length.toNat + 9
    if crc16 decoder.buffer.toList length ≠ packet.crc then
      ⟨.invalidCrc, packet, idle, [.crcRead length]⟩
    else
      match decodeCborMessageHeader packet.payload.toList packet.length.toNat with
      | none => ⟨.invalidStart, packet, idle, [.crcRead length]⟩
      | some (msgType, _) => ⟨.ok, { packet with msgType := msgType }, idle, [.crcRead length]⟩

/-- The switch over `decoder->state`. -/
def decodeStateWith (rxByte byte : UInt8) (packet : FusainPacket) (decoder : FusainDecoder) : Step :=
  if decoder.state = stateIdle then ⟨.incomplete, packet, decoder, []⟩
  else if decoder.state = stateLength then decodeLength byte packet decoder
  else if decoder.state = stateAddress then decodeAddress byte packet decoder
  else if decoder.state = statePayload then decodePayload byte packet decoder
  else if decoder.state = stateCrc1 then decodeCrc1 byte packet decoder
  else if decoder.state = stateCrc2 then decodeCrc2 byte packet decoder
  else if decoder.state = stateEnd then decodeEndWith crc16 rxByte packet decoder
  else ⟨.invalidStart, packet, { decoder with state := stateIdle }, []⟩

/-- fusain_decode_byte, on the fusain_crc16 of a build -/
def fusainDecodeByteWith (rxByte : UInt8) (packet : FusainPacket) (decoder : FusainDecoder) : Step :=
  if rxByte = startByte ∧ ¬ decoder.escapeNext then
    ⟨.incomplete, { packet with address := 0 },
      { decoder with
        state := stateLength, bufferIndex := 0, escapeNext := false, addrByteCount := 0 }, []⟩
  else if rxByte = escByte ∧ ¬ decoder.escapeNext then
    ⟨.incomplete, packet, { decoder with escapeNext := true }, []⟩
  else
    let byte := if decoder.escapeNext then rxByte ^^^ escXor else rxByte
    decodeStateWith crc16 rxByte byte packet { decoder with escapeNext := false }

end Build

def decodeEnd (rxByte : UInt8) (packet : FusainPacket) (decoder : FusainDecoder) : Step :=
  decodeEndWith fusainCrc16 rxByte packet decoder

def decodeState (rxByte byte : UInt8) (packet : FusainPacket) (decoder : FusainDecoder) : Step :=
  decodeStateWith fusainCrc16 rxByte byte packet decoder

/-- fusain_decode_byte, standalone build -/
def fusainDecodeByte (rxByte : UInt8) (packet : FusainPacket) (decoder : FusainDecoder) : Step :=
  fusainDecodeByteWith fusainCrc16 rxByte packet decoder

section Switch

variable {rxByte byte : UInt8} {packet : FusainPacket} {decoder : FusainDecoder}

theorem decodeState_idle (h : decoder.state = stateIdle) :
    decodeState rxByte byte packet decoder = ⟨.incomplete, packet, decoder, []⟩ := by
  simp [decodeState, decodeStateWith, h]

theorem decodeState_length (h : decoder.state = stateLength) :
    decodeState rxByte byte packet decoder = decodeLength byte packet decoder := by
  simp [decodeState, decodeStateWith, h, stateIdle, stateLength]

theorem decodeState_address (h : decoder.state = stateAddress) :
    decodeState rxByte byte packet decoder = decodeAddress byte packet decoder := by
  simp [decodeState, decodeStateWith, h, stateIdle, stateLength, stateAddress]

theorem decodeState_payload (h : decoder.state = statePayload) :
    decodeState rxByte byte packet decoder = decodePayload byte packet decoder := by
  simp [decodeState, decodeStateWith, h, stateIdle, stateLength, stateAddress, statePayload]

theorem decodeState_crc1 (h : decoder.state = stateCrc1) :
    decodeState rxByte byte packet decoder = decodeCrc1 byte packet decoder := by
  simp [decodeState, decodeStateWith, h, stateIdle, stateLength, stateAddress, statePayload,
    stateCrc1]

theorem decodeState_crc2 (h : decoder.state = stateCrc2) :
    decodeState rxByte byte packet decoder = decodeCrc2 byte packet decoder := by
  simp [decodeState, decodeStateWith, h, stateIdle, stateLength, stateAddress, statePayload,
    stateCrc1, stateCrc2]

theorem decodeState_end (h : decoder.state = stateEnd) :
    decodeState rxByte byte packet decoder = decodeEnd rxByte packet decoder := by
  simp [decodeState, decodeStateWith, decodeEnd, h, stateIdle, stateLength, stateAddress,
    statePayload, stateCrc1, stateCrc2, stateEnd]

theorem decodeState_unknown (h : 6 < decoder.state.toNat) :
    decodeState rxByte byte packet decoder =
      ⟨.invalidStart, packet, { decoder with state := stateIdle }, []⟩ := by
  have ne : ∀ s : UInt8, s.toNat ≤ 6 → decoder.state ≠ s := by
    rintro s hs rfl
    omega
  simp [decodeState, decodeStateWith, ne stateIdle (by decide), ne stateLength (by decide),
    ne stateAddress (by decide), ne statePayload (by decide), ne stateCrc1 (by decide),
    ne stateCrc2 (by decide), ne stateEnd (by decide)]

/-- The labels of the switch. -/
theorem state_cases (s : UInt8) : s = stateIdle ∨ s = stateLength ∨ s = stateAddress ∨
    s = statePayload ∨ s = stateCrc1 ∨ s = stateCrc2 ∨ s = stateEnd ∨ 6 < s.toNat := by
  have h : s.toNat = 0 ∨ s.toNat = 1 ∨ s.toNat = 2 ∨ s.toNat = 3 ∨ s.toNat = 4 ∨ s.toNat = 5 ∨
      s.toNat = 6 ∨ 6 < s.toNat := by omega
  simp only [← UInt8.toNat_inj]
  exact h

/-- One case for each label of the switch, and the default. -/
theorem decodeState_cases {motive : Step → Prop}
    (idle : decoder.state = stateIdle → motive ⟨.incomplete, packet, decoder, []⟩)
    (length : decoder.state = stateLength → motive (decodeLength byte packet decoder))
    (address : decoder.state = stateAddress → motive (decodeAddress byte packet decoder))
    (payload : decoder.state = statePayload → motive (decodePayload byte packet decoder))
    (crc1 : decoder.state = stateCrc1 → motive (decodeCrc1 byte packet decoder))
    (crc2 : decoder.state = stateCrc2 → motive (decodeCrc2 byte packet decoder))
    (stop : decoder.state = stateEnd → motive (decodeEnd rxByte packet decoder))
    (unknown : motive ⟨.invalidStart, packet, { decoder with state := stateIdle }, []⟩) :
    motive (decodeState rxByte byte packet decoder) := by
  rcases state_cases decoder.state with h | h | h | h | h | h | h | h
  · rw [decodeState_idle h]; exact idle h
  · rw [decodeState_length h]; exact length h
  · rw [decodeState_address h]; exact address h
  · rw [decodeState_payload h]; exact payload h
  · rw [decodeState_crc1 h]; exact crc1 h
  · rw [decodeState_crc2 h]; exact crc2 h
  · rw [decodeState_end h]; exact stop h
  · rw [decodeState_unknown h]; exact unknown

end Switch

/-- The count of address bytes, and the test for the last of them. -/
theorem addressCount {count : UInt8} (h : count.toNat < 8) :
    (count + 1).toNat = count.toNat + 1 ∧ (count + 1 ≥ 8 ↔ count.toNat = 7) := by
  have hcount : (count + 1).toNat = count.toNat + 1 := by
    rw [UInt8.toNat_add]
    simp only [UInt8.reduceToNat]
    omega
  refine ⟨hcount, ?_⟩
  rw [ge_iff_le, UInt8.le_iff_toNat_le, hcount]
  simp only [UInt8.reduceToNat]
  omega

/-- Whatever END finds, it closes the frame; only a raw END reads the buffer. -/
theorem decodeEnd_closes (rxByte : UInt8) (packet : FusainPacket) (decoder : FusainDecoder) :
    (decodeEnd rxByte packet decoder).decoder = { decoder with state := stateIdle } ∧
      (decodeEnd rxByte packet decoder).accesses =
        if rxByte = endByte then [.crcRead (packet.length.toNat + 9)] else [] := by
  unfold decodeEnd decodeEndWith
  by_cases hraw : rxByte = endByte
  · simp only [hraw, ne_eq, not_true_eq_false, if_false, if_true]
    by_cases hcrc : fusainCrc16 decoder.buffer.toList (packet.length.toNat + 9) = packet.crc
    · simp only [hcrc, not_true_eq_false, if_false]
      cases decodeCborMessageHeader packet.payload.toList packet.length.toNat <;> exact ⟨rfl, rfl⟩
    · simp only [hcrc, not_false_eq_true, if_true]
      exact ⟨trivial, trivial⟩
  · simp only [ne_eq, hraw, not_false_eq_true, if_true, if_false]
    exact ⟨trivial, trivial⟩

/-- END accepts a frame whose check comes out; only the message type is added. -/
theorem decodeEnd_ok {rxByte : UInt8} {packet : FusainPacket} {decoder : FusainDecoder}
    (h : (decodeEnd rxByte packet decoder).result = .ok) :
    rxByte = endByte ∧ fusainCrc16 decoder.buffer.toList (packet.length.toNat + 9) = packet.crc ∧
      ∃ msgType, (decodeEnd rxByte packet decoder).packet = { packet with msgType := msgType } := by
  unfold decodeEnd decodeEndWith at h ⊢
  by_cases hraw : rxByte ≠ endByte
  · simp only [if_pos hraw] at h
    cases h
  · simp only [if_neg hraw] at h ⊢
    by_cases hcrc : fusainCrc16 decoder.buffer.toList (packet.length.toNat + 9) ≠ packet.crc
    · simp only [if_pos hcrc] at h
      cases h
    · simp only [if_neg hcrc] at h ⊢
      refine ⟨Classical.not_not.mp hraw, Classical.not_not.mp hcrc, ?_⟩
      cases hmt : decodeCborMessageHeader packet.payload.toList packet.length.toNat with
      | none =>
        rw [hmt] at h
        cases h
      | some mt => exact ⟨mt.1, rfl⟩

/-- START opens a frame unless an escape is open; only the address is cleared. -/
theorem decode_start {packet : FusainPacket} {decoder : FusainDecoder}
    (h : decoder.escapeNext = false) :
    fusainDecodeByte startByte packet decoder =
      ⟨.incomplete, { packet with address := 0 },
        { decoder with
          state := stateLength, bufferIndex := 0, escapeNext := false, addrByteCount := 0 }, []⟩ := by
  simp [fusainDecodeByte, fusainDecodeByteWith, h]

theorem decode_esc {packet : FusainPacket} {decoder : FusainDecoder}
    (h : decoder.escapeNext = false) :
    fusainDecodeByte escByte packet decoder =
      ⟨.incomplete, packet, { decoder with escapeNext := true }, []⟩ := by
  simp [fusainDecodeByte, fusainDecodeByteWith, h, escByte, startByte]

/-- The byte reaches the switch: it is neither START nor an escape. -/
def Data (b : UInt8) (d : FusainDecoder) : Prop :=
  d.escapeNext = true ∨ b ≠ startByte ∧ b ≠ escByte

instance (b : UInt8) (d : FusainDecoder) : Decidable (Data b d) :=
  inferInstanceAs (Decidable (d.escapeNext = true ∨ b ≠ startByte ∧ b ≠ escByte))

theorem data_cases (b : UInt8) (d : FusainDecoder) :
    (b = startByte ∧ d.escapeNext = false) ∨ (b = escByte ∧ d.escapeNext = false) ∨ Data b d := by
  unfold Data
  cases d.escapeNext with
  | true => simp
  | false => by_cases b = startByte <;> by_cases b = escByte <;> simp_all

theorem decode_switch {b : UInt8} {packet : FusainPacket} {decoder : FusainDecoder}
    (h : Data b decoder) : fusainDecodeByte b packet decoder =
      decodeState b (if decoder.escapeNext then b ^^^ escXor else b) packet
        { decoder with escapeNext := false } := by
  unfold fusainDecodeByte fusainDecodeByteWith decodeState
  rcases h with h | ⟨hs, he⟩
  · simp [h]
  · simp [hs, he]

/-- Only END accepts, on a byte that is 0x7F as it was read. -/
theorem decode_ok {b : UInt8} {packet : FusainPacket} {decoder : FusainDecoder}
    (h : (fusainDecodeByte b packet decoder).result = .ok) :
    decoder.state = stateEnd ∧ b = endByte ∧
      fusainCrc16 decoder.buffer.toList (packet.length.toNat + 9) = packet.crc ∧
      ∃ msgType, (fusainDecodeByte b packet decoder).packet = { packet with msgType := msgType } := by
  rcases data_cases b decoder with ⟨rfl, hesc⟩ | ⟨rfl, hesc⟩ | hdata
  · rw [decode_start hesc] at h
    cases h
  · rw [decode_esc hesc] at h
    cases h
  · rw [decode_switch hdata] at h ⊢
    revert h
    apply decodeState_cases (motive := fun c => c.result = .ok → decoder.state = stateEnd ∧
      b = endByte ∧ fusainCrc16 decoder.buffer.toList (packet.length.toNat + 9) = packet.crc ∧
      ∃ msgType, c.packet = { packet with msgType := msgType })
    case length =>
      intro _ h
      by_cases hl : (if decoder.escapeNext then b ^^^ escXor else b).toNat > maxPayloadSize
      · rw [decodeLength, if_pos hl] at h
        cases h
      · rw [decodeLength, if_neg hl] at h
        cases h
    case stop => exact fun hs h => ⟨hs, decodeEnd_ok h⟩
    all_goals
      intros
      contradiction

/-- fusain_reset_decoder -/
def fusainResetDecoder (decoder : FusainDecoder) : FusainDecoder :=
  { decoder with
    state := stateIdle, bufferIndex := 0, escapeNext := false, addrByteCount := 0 }

/-- The packet and the decoder that a caller keeps across calls. -/
structure Receiver where
  packet : FusainPacket
  decoder : FusainDecoder
  deriving DecidableEq, Repr

/-- One call, as a step of the caller's loop. -/
def receive (r : Receiver) (b : UInt8) : Receiver × Step :=
  let s := fusainDecodeByte b r.packet r.decoder
  (⟨s.packet, s.decoder⟩, s)

/-- The calls of the loop over a byte stream. -/
def decodeRun (r : Receiver) (bytes : List UInt8) : List Step := Machine.answers receive r bytes

/-- What the loop keeps after a byte stream. -/
def decodeFinal (r : Receiver) (bytes : List UInt8) : Receiver := Machine.final receive r bytes

theorem decodeRun_cons (r : Receiver) (b : UInt8) (bytes : List UInt8) :
    decodeRun r (b :: bytes) = (receive r b).2 :: decodeRun (receive r b).1 bytes := rfl

theorem decodeRun_append (r : Receiver) (bytes more : List UInt8) :
    decodeRun r (bytes ++ more) = decodeRun r bytes ++ decodeRun (decodeFinal r bytes) more :=
  Machine.answers_append receive r bytes more

theorem decodeRun_concat (r : Receiver) (bytes : List UInt8) (b : UInt8) :
    decodeRun r (bytes ++ [b]) = decodeRun r bytes ++ [(receive (decodeFinal r bytes) b).2] :=
  decodeRun_append r bytes [b]

theorem decodeFinal_concat (r : Receiver) (bytes : List UInt8) (b : UInt8) :
    decodeFinal r (bytes ++ [b]) = (receive (decodeFinal r bytes) b).1 :=
  Machine.final_append receive r bytes [b]

@[simp] theorem length_decodeRun (r : Receiver) (bytes : List UInt8) :
    (decodeRun r bytes).length = bytes.length := Machine.length_answers receive r bytes

/-- The last call sees the bytes before it through what they leave behind. -/
theorem getLast_decodeRun (r : Receiver) (bytes : List UInt8) {more : List UInt8} (h : more ≠ []) :
    (decodeRun r (bytes ++ more)).getLast? = (decodeRun (decodeFinal r bytes) more).getLast? := by
  have hne : decodeRun (decodeFinal r bytes) more ≠ [] := by
    rw [← List.length_pos_iff, length_decodeRun]
    exact List.length_pos_iff.mpr h
  rw [decodeRun_append, List.getLast?_append_of_ne_nil _ hne]

end Fusain.Decoder
