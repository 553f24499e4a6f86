import Fusain.Exchange
import Fusain.Lib.CborMap

/-!
# What the payload of a message looks like

Every payload is the array of a message type and either nil or a map with integer keys,
and the builders write exactly the map their arguments ask for. A reader of this format
needs to know nothing about the messages, and nothing else reaches the wire.
-/
namespace Fusain.WireImage

open Builders Cbor Decoder Exchange Messages Payload Typed Wire Zcbor

/-- A message type and a map, or no map. -/
structure Message where
  type : UInt8
  body : Option (List Entry)
  deriving DecidableEq, Repr

def bodyBytes : Option (List Entry) → List UInt8
  | none => [cborNil]
  | some es => mapBytes es

/-- `[type, body]` -/
def Message.bytes (m : Message) : List UInt8 := cborArray2 :: (uint m.type.toNat ++ bodyBytes m.body)

def readBody (l : List UInt8) : Option (Option (List Entry) × List UInt8) :=
  match l with
  | [] => none
  | b :: rest =>
    if b = cborNil then some (none, rest)
    else (readMap l).map fun (es, rest) => (some es, rest)

def readMessage (l : List UInt8) : Option (Message × List UInt8) :=
  match l with
  | [] => none
  | b :: rest =>
    if b = cborArray2 then
      match readHead rest with
      | some ((0, t), rest) =>
        if t < 256 then (readBody rest).map fun (body, rest) => (⟨UInt8.ofNat t, body⟩, rest)
        else none
      | _ => none
    else none

theorem readBody_body {body : Option (List Entry)} (h : ∀ es ∈ body, ∀ e ∈ es, Entry.Fits e)
    (rest : List UInt8) : readBody (bodyBytes body ++ rest) = some (body, rest) := by
  cases body with
  | none => simp [readBody, bodyBytes]
  | some es =>
    have hmap := readMap_map (h es rfl) rest
    have hne : mapStart ≠ cborNil := by decide
    simp only [bodyBytes, mapBytes, List.cons_append] at hmap ⊢
    simp only [readBody, if_neg hne, hmap, Option.map_some]

/-- A message is read back in front of any bytes. -/
theorem readMessage_bytes {m : Message} (h : ∀ es ∈ m.body, ∀ e ∈ es, Entry.Fits e)
    (rest : List UInt8) : readMessage (m.bytes ++ rest) = some (m, rest) := by
  have ht := m.type.toNat_lt
  have hhead := readHead_head (show 0 < 8 by decide) (show m.type.toNat < 256 ^ 8 by omega)
    (bodyBytes m.body ++ rest)
  rw [Message.bytes, List.cons_append, List.append_assoc, uint]
  simp only [readMessage, if_true, hhead, if_pos ht, readBody_body h, Option.map_some,
    UInt8.ofNat_toNat]

/-- The header that the builders store. -/
theorem header_uint (msgType : UInt8) :
    encodeCborMessageHeader maxPayloadSize msgType = some (cborArray2 :: uint msgType.toNat) := by
  have all : ∀ n < 256, encodeCborMessageHeader maxPayloadSize (UInt8.ofNat n) =
      some (cborArray2 :: uint (UInt8.ofNat n).toNat) := by decide +kernel
  have := all msgType.toNat msgType.toNat_lt
  rwa [UInt8.ofNat_toNat] at this

/-- The entries that a call asks for. -/
def entries (widen : UInt32 → UInt64) : Call → Option (List Entry)
  | .motorConfig config =>
    some [(0, .int config.motor.toNat), (1, .int config.pwmPeriod.toNat), (2, .float config.pidKp),
      (3, .float config.pidKi), (4, .float config.pidKd), (5, .int config.maxRpm.toInt),
      (6, .int config.minRpm.toInt), (7, .int config.minPwmDuty.toNat)]
  | .pumpConfig config =>
    some [(0, .int config.pump.toNat), (1, .int config.pulseMs.toNat),
      (2, .int config.recoveryMs.toNat)]
  | .tempConfig config =>
    some [(0, .int config.thermometer.toNat), (1, .float config.pidKp), (2, .float config.pidKi),
      (3, .float config.pidKd)]
  | .glowConfig config => some [(0, .int config.glow.toNat), (1, .int config.maxDurationMs.toNat)]
  | .dataSubscription applianceAddress | .dataUnsubscribe applianceAddress =>
    some [(0, .int applianceAddress.toNat)]
  | .telemetryConfig enabled intervalMs => some [(0, .bool enabled), (1, .int intervalMs.toNat)]
  | .timeoutConfig enabled timeoutMs => some [(0, .bool enabled), (1, .int timeoutMs.toNat)]
  | .discoveryRequest | .pingRequest => none
  | .stateCommand mode argument => some [(0, .int mode.toNat), (1, .int argument.toInt)]
  | .motorCommand motor rpm => some [(0, .int motor.toNat), (1, .int rpm.toInt)]
  | .pumpCommand pump rateMs => some [(0, .int pump.toNat), (1, .int rateMs.toInt)]
  | .glowCommand glow duration => some [(0, .int glow.toNat), (1, .int duration.toInt)]
  | .tempCommand thermometer type motorIndex targetTemp =>
    some ((0, .int thermometer.toNat) :: (1, .int type.toNat) ::
      ((if type = tempCmdWatchMotor then [(2, .int motorIndex.toNat)] else []) ++
        ((if type = tempCmdSetTargetTemp then [(3, .float (widen targetTemp))] else []) ++ [])))
  | .sendTelemetry telemetryType index =>
    some [(0, .int telemetryType.toNat), (1, .int index.toNat)]
  | .stateData error code state timestamp =>
    some [(0, .bool (error ≠ 0)), (1, .int code.toNat), (2, .int state.toNat),
      (3, .int timestamp.toNat)]
  | .motorData motor timestamp rpm target =>
    some [(0, .int motor.toNat), (1, .int timestamp.toNat), (2, .int rpm.toInt),
      (3, .int target.toInt)]
  | .pumpData pump timestamp type rate =>
    some [(0, .int pump.toNat), (1, .int timestamp.toNat), (2, .int type.toNat),
      (3, .int rate.toInt)]
  | .glowData glow timestamp lit =>
    some [(0, .int glow.toNat), (1, .int timestamp.toNat), (2, .bool lit)]
  | .tempData thermometer timestamp reading =>
    some [(0, .int thermometer.toNat), (1, .int timestamp.toNat), (2, .float (widen reading))]
  | .deviceAnnounce motorCount thermometerCount pumpCount glowCount =>
    some [(0, .int motorCount.toNat), (1, .int thermometerCount.toNat), (2, .int pumpCount.toNat),
      (3, .int glowCount.toNat)]
  | .pingResponse uptimeMs => some [(0, .int uptimeMs.toNat)]
  | .errorInvalidCmd errorCode rejectedField constraint =>
    some ((0, .int errorCode.toInt32.toInt) ::
      ((if rejectedField ≥ 0 then [(1, .int rejectedField.toInt)] else []) ++
        ((if constraint ≥ 0 then [(2, .int constraint.toInt)] else []) ++ [])))
  | .errorStateReject state rejectionReason =>
    some ((0, .int state.toInt32.toInt) ::
      ((if rejectionReason ≥ 0 then [(1, .int rejectionReason.toInt)] else []) ++ []))

/-- The message that a call stands for. -/
def message (widen : UInt32 → UInt64) (call : Call) : Message :=
  ⟨call.type.value, entries widen call⟩

theorem fits_nat {n : Nat} (h : n < 2 ^ 64) : (Atom.int n).Fits := by
  simp only [Atom.Fits]
  omega

theorem fits_uint8 (v : UInt8) : (Atom.int v.toNat).Fits :=
  fits_nat (Nat.lt_trans v.toNat_lt (by decide))

theorem fits_uint32 (v : UInt32) : (Atom.int v.toNat).Fits :=
  fits_nat (Nat.lt_trans v.toNat_lt (by decide))

theorem fits_uint64 (v : UInt64) : (Atom.int v.toNat).Fits := fits_nat v.toNat_lt

theorem fits_int32 (v : Int32) : (Atom.int v.toInt).Fits := by
  have lo := v.le_toInt
  have hi := v.toInt_lt
  simp only [Atom.Fits]
  omega

theorem fits_bool (b : Bool) : (Atom.bool b).Fits := trivial

theorem fits_float (bits : UInt64) : (Atom.float bits).Fits := trivial

/-- Few entries, the keys small and in ascending order, so that none comes twice. -/
structure Tidy (es : List Entry) : Prop where
  length : es.length ≤ 8
  ascending : (es.map Prod.fst).Pairwise (· < ·)
  key : ∀ e ∈ es, e.1 < 24
  fits : ∀ e ∈ es, e.2.Fits

theorem entries_tidy (widen : UInt32 → UInt64) (call : Call) : ∀ es ∈ entries widen call, Tidy es := by
  cases call with
  | tempCommand thermometer type motorIndex targetTemp =>
    rintro es ⟨⟩
    constructor <;> split_ifs <;> simp [fits_uint8, fits_uint32, fits_float]
  | errorInvalidCmd errorCode rejectedField constraint =>
    rintro es ⟨⟩
    constructor <;> split_ifs <;> simp [fits_int32]
  | errorStateReject state rejectionReason =>
    rintro es ⟨⟩
    constructor <;> split_ifs <;> simp [fits_int32]
  | discoveryRequest => rintro es ⟨⟩
  | pingRequest => rintro es ⟨⟩
  | _ =>
    rintro es ⟨⟩
    constructor <;>
      simp [fits_uint8, fits_uint32, fits_uint64, fits_int32, fits_bool, fits_float]

/-- A body that always writes `l` behind the header makes the header and `l` the content. -/
theorem create_content {body : List UInt8 → Option Nat × List UInt8} {l : List UInt8}
    (hl : l.length ≤ bodySize) (hbody : ∀ buffer, l.length ≤ buffer.length → ∃ tail,
      body buffer = (some l.length, l ++ tail)) (type : FusainMsgType) (packet : FusainPacket)
    (address : UInt64) :
    (create type body packet address).content = cborArray2 :: (uint type.value.toNat ++ l) := by
  have hmax : maxPayloadSize = 114 := rfl
  have hsize : bodySize = 111 := rfl
  have henc := header_uint type.value
  obtain ⟨header, hsome, -, hle, -⟩ :=
    header_inverse type.value (show 3 ≤ maxPayloadSize by decide)
  rw [henc, Option.some.injEq] at hsome
  obtain ⟨tail, hrun⟩ :=
    hbody ((store packet.payload 0 header).toList.drop header.length) (by simp; omega)
  have hroom : header.length + l.length ≤ maxPayloadSize := by omega
  have hcreate : create type body packet address =
      { packet with
        address := address
        msgType := type.value
        payload := store (store packet.payload 0 header) header.length (l ++ tail)
        length := UInt8.ofNat (header.length + l.length) } := by
    simp only [create, henc, hsome, hrun]
  have hlength : (create type body packet address).length.toNat = header.length + l.length := by
    rw [hcreate, UInt8.toNat_ofNat']
    omega
  have hfirst : (store packet.payload 0 header).toList.take header.length = header := by
    simpa using store_take packet.payload 0 header [] (by omega)
  rw [FusainPacket.content, hlength, hcreate, store_take _ _ _ _ hroom, hfirst, ← List.cons_append,
    hsome]

theorem nil_content (type : FusainMsgType) (packet : FusainPacket) (address : UInt64) :
    (create type nilBody packet address).content = Message.bytes ⟨type.value, none⟩ := by
  apply create_content (l := [cborNil]) (by decide)
  intro buffer room
  have hroom : ¬ buffer.length < 1 := by
    simp only [List.length_singleton] at room
    omega
  exact ⟨[], by simp [nilBody, encodeCborNil, hroom]⟩

theorem inUint8_nonneg {v : Int32} (h : v.toInt < 0 ∨ v.toInt ≤ 255) (hv : v ≥ 0) :
    inUint8 v.toUInt32 = true :=
  inUint8_unlessNegative h _ (by simp [unlessNegative, hv])

/-- What `unlessNegative` lets through keeps its value. -/
theorem nonneg_toNat {v : Int32} (h : v ≥ 0) : (v.toUInt32.toNat : Int) = v.toInt :=
  unlessNegative_toNat (by simp [unlessNegative, h])

section Maps

variable {E D : Type} {z : Runtime E D} {W : E → List UInt8 → Nat → Prop}
  {R : D → Bool → List UInt8 → Prop} (hz : Standard z W R)
include hz

theorem map_content {size : Nat} {steps : List (Put E)} {es : List Entry} (ht : Tidy es)
    (h : Writes W steps es) (type : FusainMsgType) (packet : FusainPacket) (address : UInt64) :
    (create type (z.entryEncode (z.map size steps)) packet address).content =
      Message.bytes ⟨type.value, some es⟩ := by
  apply create_content (l := mapBytes es)
  · have hsize := length_map_le ht.key
    have hlen := ht.length
    simp only [bodySize, maxPayloadSize]
    omega
  · exact fun buffer room => entry_writes hz (appends_map hz size h) room

/-- The index of a device is written as the byte it is. -/
theorem appends_index (b : UInt8) :
    Appends W (z.int32Encode (deviceIndex b)) (Atom.int b.toNat).bytes := by
  have := appends_int32 hz (deviceIndex b)
  rwa [deviceIndex_toInt] at this

theorem appends_count (b : UInt8) :
    Appends W (z.uint32Encode b.toUInt32) (Atom.int b.toNat).bytes := by
  have := appends_uint32 hz b.toUInt32
  rwa [UInt8.toNat_toUInt32] at this

theorem appends_nonneg {v : Int32} (h : v ≥ 0) :
    Appends W (z.uint32Encode v.toUInt32) (Atom.int v.toInt).bytes := by
  have := appends_uint32 hz v.toUInt32
  rwa [nonneg_toNat h] at this

/-- Each builder, within the ranges of its payload code. -/
theorem builder_content (widen : UInt32 → UInt64) (call : Call) (h : call.InRange)
    (packet : FusainPacket) (address : UInt64) :
    (call.create z widen packet address).content = (message widen call).bytes := by
  have tidy := entries_tidy widen call
  cases call with
  | motorConfig config =>
    rw [Call.create]
    apply map_content hz (tidy _ rfl)
    exact
      writes_entry hz 0 (inInt8_deviceIndex h) (appends_index hz _) <|
      writes_entry hz 1 (anyUint32_true _) (appends_uint32 hz _) <|
      writes_entry hz 2 rfl (appends_float hz _) <|
      writes_entry hz 3 rfl (appends_float hz _) <|
      writes_entry hz 4 rfl (appends_float hz _) <|
      writes_entry hz 5 rfl (appends_int32 hz _) <|
      writes_entry hz 6 rfl (appends_int32 hz _) <|
      writes_entry hz 7 (anyUint32_true _) (appends_uint32 hz _) <|
      writes_nil
  | pumpConfig config =>
    rw [Call.create]
    apply map_content hz (tidy _ rfl)
    exact
      writes_entry hz 0 (inInt8_deviceIndex h) (appends_index hz _) <|
      writes_entry hz 1 rfl (appends_uint32 hz _) <|
      writes_entry hz 2 rfl (appends_uint32 hz _) <|
      writes_nil
  | tempConfig config =>
    rw [Call.create]
    apply map_content hz (tidy _ rfl)
    exact
      writes_entry hz 0 (inInt8_deviceIndex h) (appends_index hz _) <|
      writes_entry hz 1 rfl (appends_float hz _) <|
      writes_entry hz 2 rfl (appends_float hz _) <|
      writes_entry hz 3 rfl (appends_float hz _) <|
      writes_nil
  | glowConfig config =>
    rw [Call.create]
    apply map_content hz (tidy _ rfl)
    exact
      writes_entry hz 0 (inInt8_deviceIndex h) (appends_index hz _) <|
      writes_entry hz 1 rfl (appends_uint32 hz _) <|
      writes_nil
  | dataSubscription applianceAddress =>
    rw [Call.create]
    apply map_content hz (tidy _ rfl)
    exact
      writes_entry hz 0 rfl (appends_uint64 hz _) <|
      writes_nil
  | dataUnsubscribe applianceAddress =>
    rw [Call.create]
    apply map_content hz (tidy _ rfl)
    exact
      writes_entry hz 0 rfl (appends_uint64 hz _) <|
      writes_nil
  | telemetryConfig enabled intervalMs =>
    rw [Call.create]
    apply map_content hz (tidy _ rfl)
    exact
      writes_entry hz 0 rfl (appends_bool hz _) <|
      writes_entry hz 1 rfl (appends_uint32 hz _) <|
      writes_nil
  | timeoutConfig enabled timeoutMs =>
    rw [Call.create]
    apply map_content hz (tidy _ rfl)
    exact
      writes_entry hz 0 rfl (appends_bool hz _) <|
      writes_entry hz 1 rfl (appends_uint32 hz _) <|
      writes_nil
  | discoveryRequest => exact nil_content .discoveryRequest packet address
  | stateCommand mode argument =>
    rw [Call.create]
    apply map_content hz (tidy _ rfl)
    exact
      writes_entry hz 0 (inUint8_of_le h) (appends_uint32 hz _) <|
      writes_entry hz 1 rfl (appends_int32 hz _) <|
      writes_nil
  | motorCommand motor rpm =>
    rw [Call.create]
    apply map_content hz (tidy _ rfl)
    exact
      writes_entry hz 0 (inInt8_deviceIndex h) (appends_index hz _) <|
      writes_entry hz 1 rfl (appends_int32 hz _) <|
      writes_nil
  | pumpCommand pump rateMs =>
    rw [Call.create]
    apply map_content hz (tidy _ rfl)
    exact
      writes_entry hz 0 (inInt8_deviceIndex h) (appends_index hz _) <|
      writes_entry hz 1 rfl (appends_int32 hz _) <|
      writes_nil
  | glowCommand glow duration =>
    rw [Call.create]
    apply map_content hz (tidy _ rfl)
    exact
      writes_entry hz 0 (inInt8_deviceIndex h) (appends_index hz _) <|
      writes_entry hz 1 rfl (appends_int32 hz _) <|
      writes_nil
  | tempCommand thermometer type motorIndex targetTemp =>
    rw [Call.create]
    apply map_content hz (tidy _ rfl)
    exact
      writes_entry hz 0 (inInt8_deviceIndex h.1) (appends_index hz _) <|
      writes_entry hz 1 (inUint8_of_le h.2.1) (appends_uint32 hz _) <|
      writes_if hz 2 (fun hw => inInt8_deviceIndex (h.2.2 hw)) (fun _ => appends_index hz _) <|
      writes_if hz 3 (fun _ => rfl) (fun _ => appends_float hz _) <|
      writes_nil
  | sendTelemetry telemetryType index =>
    rw [Call.create]
    apply map_content hz (tidy _ rfl)
    exact
      writes_entry hz 0 (inUint8_of_le h) (appends_uint32 hz _) <|
      writes_entry hz 1 rfl (appends_uint32 hz _) <|
      writes_nil
  | pingRequest => exact nil_content .pingRequest packet address
  | stateData error code state timestamp =>
    rw [Call.create]
    apply map_content hz (tidy _ rfl)
    exact
      writes_entry hz 0 rfl (appends_bool hz _) <|
      writes_entry hz 1 (inUint8_toUInt32 _) (appends_count hz _) <|
      writes_entry hz 2 (inUint8_of_le h) (appends_uint32 hz _) <|
      writes_entry hz 3 (anyUint32_true _) (appends_uint32 hz _) <|
      writes_nil
  | motorData motor timestamp rpm target =>
    rw [Call.create]
    apply map_content hz (tidy _ rfl)
    exact
      writes_entry hz 0 (inInt8_deviceIndex h) (appends_index hz _) <|
      writes_entry hz 1 (anyUint32_true _) (appends_uint32 hz _) <|
      writes_entry hz 2 rfl (appends_int32 hz _) <|
      writes_entry hz 3 rfl (appends_int32 hz _) <|
      writes_nil
  | pumpData pump timestamp type rate =>
    rw [Call.create]
    apply map_content hz (tidy _ rfl)
    exact
      writes_entry hz 0 (inInt8_deviceIndex h.1) (appends_index hz _) <|
      writes_entry hz 1 (anyUint32_true _) (appends_uint32 hz _) <|
      writes_entry hz 2 (inUint8_of_le h.2) (appends_uint32 hz _) <|
      writes_entry hz 3 rfl (appends_int32 hz _) <|
      writes_nil
  | glowData glow timestamp lit =>
    rw [Call.create]
    apply map_content hz (tidy _ rfl)
    exact
      writes_entry hz 0 (inInt8_deviceIndex h) (appends_index hz _) <|
      writes_entry hz 1 (anyUint32_true _) (appends_uint32 hz _) <|
      writes_entry hz 2 rfl (appends_bool hz _) <|
      writes_nil
  | tempData thermometer timestamp reading =>
    rw [Call.create]
    apply map_content hz (tidy _ rfl)
    exact
      writes_entry hz 0 (inInt8_deviceIndex h) (appends_index hz _) <|
      writes_entry hz 1 (anyUint32_true _) (appends_uint32 hz _) <|
      writes_entry hz 2 rfl (appends_float hz _) <|
      writes_nil
  | deviceAnnounce motorCount thermometerCount pumpCount glowCount =>
    rw [Call.create]
    apply map_content hz (tidy _ rfl)
    exact
      writes_entry hz 0 (inUint8_toUInt32 _) (appends_count hz _) <|
      writes_entry hz 1 (inUint8_toUInt32 _) (appends_count hz _) <|
      writes_entry hz 2 (inUint8_toUInt32 _) (appends_count hz _) <|
      writes_entry hz 3 (inUint8_toUInt32 _) (appends_count hz _) <|
      writes_nil
  | pingResponse uptimeMs =>
    rw [Call.create]
    apply map_content hz (tidy _ rfl)
    exact
      writes_entry hz 0 (anyUint32_true _) (appends_uint32 hz _) <|
      writes_nil
  | errorInvalidCmd errorCode rejectedField constraint =>
    rw [Call.create]
    apply map_content hz (tidy _ rfl)
    exact
      writes_entry hz 0 rfl (appends_int32 hz _) <|
      writes_if hz 1 (fun _ => rfl) (appends_nonneg hz) <|
      writes_if hz 2 (inUint8_nonneg h) (appends_nonneg hz) <|
      writes_nil
  | errorStateReject state rejectionReason =>
    rw [Call.create]
    apply map_content hz (tidy _ rfl)
    exact
      writes_entry hz 0 rfl (appends_int32 hz _) <|
      writes_if hz 1 (inUint8_nonneg h) (appends_nonneg hz) <|
      writes_nil

end Maps

/-- No builder keeps the address that the packet held. -/
theorem create_address (type : FusainMsgType) (body : List UInt8 → Option Nat × List UInt8)
    (packet : FusainPacket) (address : UInt64) :
    (create type body packet address).address = address := by
  simp only [create, header_uint]
  generalize body _ = written
  obtain ⟨n, bytes⟩ := written
  cases n <;> rfl

theorem builder_address {E D : Type} (z : Runtime E D) (widen : UInt32 → UInt64) (call : Call)
    (packet : FusainPacket) (address : UInt64) :
    (call.create z widen packet address).address = address := by
  cases call <;> rw [Call.create] <;> apply create_address

section Results

variable {E D : Type} {z : Runtime E D} {W : E → List UInt8 → Nat → Prop}
  {R : D → Bool → List UInt8 → Prop} (hz : Standard z W R) (widen : UInt32 → UInt64)

theorem message_fits (call : Call) : ∀ es ∈ (message widen call).body, ∀ e ∈ es, Entry.Fits e := by
  intro es hes e he
  obtain ⟨-, -, hkey, hfits⟩ := entries_tidy widen call es hes
  have hsmall := hkey e he
  exact ⟨by omega, hfits e he⟩

/-- The bytes of a message tell the message. -/
theorem message_read (call : Call) :
    readMessage (message widen call).bytes = some (message widen call, []) := by
  have hread := readMessage_bytes (message_fits widen call) []
  rwa [List.append_nil] at hread

include hz

/-- The payload of a call in range is the message that its arguments ask for, byte for
byte, with the keys of its map in ascending order; and a reader that knows nothing of the
messages reads this message back to the last byte. -/
theorem payload_image (call : Call) (h : call.InRange) (packet : FusainPacket) (address : UInt64) :
    (call.create z widen packet address).content = (message widen call).bytes ∧
      readMessage (call.create z widen packet address).content = some (message widen call, []) ∧
      ∀ es ∈ (message widen call).body, (es.map Prod.fst).Pairwise (· < ·) := by
  have hcontent := builder_content hz widen call h packet address
  refine ⟨hcontent, ?_, fun es hes => (entries_tidy widen call es hes).ascending⟩
  rw [hcontent, message_read]

/-- The bytes on the wire tell the address and the message of a call, and nothing else. -/
theorem wire_tells (call call' : Call) (h : call.InRange) (h' : call'.InRange)
    (address address' : UInt64) (packet packet' : FusainPacket) (buffer buffer' : Encoder.Memory) :
    sent buffer (call.create z widen packet address) =
        sent buffer' (call'.create z widen packet' address') ↔
      address = address' ∧ message widen call = message widen call' := by
  have short : (call.create z widen packet address).length.toNat ≤ maxPayloadSize :=
    built_short hz widen ⟨call, address, packet, buffer⟩
  have short' : (call'.create z widen packet' address').length.toNat ≤ maxPayloadSize :=
    built_short hz widen ⟨call', address', packet', buffer'⟩
  have hcontent := builder_content hz widen call h packet address
  have hcontent' := builder_content hz widen call' h' packet' address'
  rw [sent_frame short, sent_frame short', Delimiters.frame_injective short short', hcontent, hcontent',
    builder_address, builder_address]
  constructor
  · rintro ⟨-, haddr, hbytes⟩
    have hread := message_read widen call
    rw [hbytes, message_read, Option.some.injEq, Prod.mk.injEq] at hread
    exact ⟨haddr, hread.1.symm⟩
  · rintro ⟨haddr, hmessage⟩
    refine ⟨UInt8.toNat_inj.mp ?_, haddr, congrArg Message.bytes hmessage⟩
    rw [← FusainPacket.length_content _ short, ← FusainPacket.length_content _ short', hcontent,
      hcontent', hmessage]

/-- What is sent for a call, in range or not, depends on its arguments and the address only:
nothing that the packet object or the buffer held before reaches the wire. -/
theorem no_stale_bytes (call : Call) (address : UInt64) (packet packet' : FusainPacket)
    (buffer buffer' : Encoder.Memory) :
    sent buffer (call.create z widen packet address) =
      sent buffer' (call.create z widen packet' address) := by
  have short : ∀ packet, (call.create z widen packet address).length.toNat ≤ maxPayloadSize :=
    fun packet => built_short hz widen ⟨call, address, packet, buffer⟩
  have content : (call.create z widen packet address).content =
      (call.create z widen packet' address).content := by
    by_cases h : call.InRange
    · rw [builder_content hz widen call h, builder_content hz widen call h]
    · have failed := Refusals.builder_fails hz widen call h
      simp [FusainPacket.content, failed]
  have length : (call.create z widen packet address).length =
      (call.create z widen packet' address).length := by
    have hlen := congrArg List.length content
    rw [FusainPacket.length_content _ (short packet), FusainPacket.length_content _ (short packet')]
      at hlen
    exact UInt8.toNat_inj.mp hlen
  rw [sent_frame (short packet), sent_frame (short packet')]
  simp only [frame, body, checked, length, content, builder_address]

end Results

/-- The payload for a target of 21.0 degrees. -/
theorem payload_image_target :
    (fusainCreateTempCommand listRuntime widenNormal zeroPacket 0x1122 3 tempCmdSetTargetTemp 0
        0x41A80000).content =
      (message widenNormal (.tempCommand 3 tempCmdSetTargetTemp 0 0x41A80000)).bytes ∧
    readMessage (fusainCreateTempCommand listRuntime widenNormal zeroPacket 0x1122 3
        tempCmdSetTargetTemp 0 0x41A80000).content =
      some (message widenNormal (.tempCommand 3 tempCmdSetTargetTemp 0 0x41A80000), []) ∧
    ∀ es ∈ (message widenNormal (.tempCommand 3 tempCmdSetTargetTemp 0 0x41A80000)).body,
      (es.map Prod.fst).Pairwise (· < ·) :=
  payload_image listRuntime_standard widenNormal
    (.tempCommand 3 tempCmdSetTargetTemp 0 0x41A80000)
    ⟨by decide, by decide, fun h => absurd h (by decide)⟩ zeroPacket 0x1122

/-- Two speeds for one motor are told apart. -/
theorem wire_tells_speed :
    sent (fun _ => 0) (fusainCreateMotorCommand listRuntime zeroPacket 0x1122 127 3000) =
        sent (fun _ => 0xAA) (fusainCreateMotorCommand listRuntime zeroPacket 0x1122 127 3001) ↔
      (0x1122 : UInt64) = 0x1122 ∧
        message widenNormal (.motorCommand 127 3000) = message widenNormal (.motorCommand 127 3001) :=
  wire_tells listRuntime_standard widenNormal (.motorCommand 127 3000) (.motorCommand 127 3001)
    (Nat.le_refl 127) (Nat.le_refl 127) 0x1122 0x1122 zeroPacket zeroPacket (fun _ => 0)
    (fun _ => 0xAA)

/-- A motor command out of range, built over the packet of a ping and over zeros. -/
theorem no_stale_bytes_over :
    sent (fun _ => 0xAA)
        (fusainCreateMotorCommand listRuntime (fusainCreatePingRequest zeroPacket 5) 1 200 3000) =
      sent (fun _ => 0) (fusainCreateMotorCommand listRuntime zeroPacket 1 200 3000) :=
  no_stale_bytes listRuntime_standard widenNormal (.motorCommand 200 3000) 1
    (fusainCreatePingRequest zeroPacket 5) zeroPacket (fun _ => 0xAA) (fun _ => 0)

end Fusain.WireImage
