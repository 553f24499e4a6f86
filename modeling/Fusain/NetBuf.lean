import Fusain.History
import Fusain.RoundTrip

/-!
# The net_buf wrapper

`fusain_decode_byte_to_net_buf` decodes into a local packet that it does not
initialise, so every call may find any packet there. The decoder keeps only part of
an open frame; the rest is in the packet. Both theorems of this module say what the
local packet must still hold for the wrapper to behave.
-/
namespace Fusain.NetBuf

open Decoder History Reader RoundTrip Stuffing Wire

/-- The part of the `net_buf` API that the wrapper calls. A buffer holds the objects
copied into it, and has room for a number of packets. -/
structure Api (Pool Buf : Type) where
  /-- `net_buf_alloc(pool, K_NO_WAIT)`; `none` is NULL -/
  netBufAlloc : Pool → Option (Buf × Pool)
  /-- `net_buf_add_mem(buf, &packet, sizeof(fusain_packet_t))` -/
  netBufAddMem : Buf → FusainPacket → Buf
  data : Buf → List FusainPacket
  room : Buf → Nat

variable {Pool Buf : Type}

/-- What the wrapper relies on, with a pool that is never exhausted. -/
structure Api.Standard (api : Api Pool Buf) : Prop where
  supplied : ∀ pool, ∃ buf pool', api.netBufAlloc pool = some (buf, pool')
  fresh : ∀ pool buf pool', api.netBufAlloc pool = some (buf, pool') →
    api.data buf = [] ∧ 1 ≤ api.room buf
  appended : ∀ buf packet, 1 ≤ api.room buf →
    api.data (api.netBufAddMem buf packet) = api.data buf ++ [packet]

structure Keeper (Pool : Type) where
  pool : Pool
  decoder : FusainDecoder

/-- One call: the byte, and what the local packet happens to hold when it starts. -/
structure Call where
  byte : UInt8
  packet : FusainPacket
  deriving DecidableEq, Repr

/-- The returned buffer, `none` for NULL, and the accesses of the call. -/
structure Return (Buf : Type) where
  buf : Option Buf
  accesses : List Access

/-- fusain_decode_byte_to_net_buf -/
def fusainDecodeByteToNetBuf (api : Api Pool Buf) (k : Keeper Pool) (call : Call) :
    Keeper Pool × Return Buf :=
  let c := fusainDecodeByte call.byte call.packet k.decoder
  if c.result = .ok then
    match api.netBufAlloc k.pool with
    | none => (⟨k.pool, c.decoder⟩, ⟨none, c.accesses⟩)
    | some (buf, pool) => (⟨pool, c.decoder⟩, ⟨some (api.netBufAddMem buf c.packet), c.accesses⟩)
  else (⟨k.pool, c.decoder⟩, ⟨none, c.accesses⟩)

/-- fusain_packet_from_buf -/
def fusainPacketFromBuf (api : Api Pool Buf) (buf : Buf) : Option FusainPacket :=
  (api.data buf).head?

@[simp] theorem wrapper_decoder (api : Api Pool Buf) (k : Keeper Pool) (call : Call) :
    (fusainDecodeByteToNetBuf api k call).1.decoder =
      (fusainDecodeByte call.byte call.packet k.decoder).decoder := by
  by_cases hok : (fusainDecodeByte call.byte call.packet k.decoder).result = .ok
  · simp only [fusainDecodeByteToNetBuf, if_pos hok]
    cases api.netBufAlloc k.pool <;> rfl
  · simp only [fusainDecodeByteToNetBuf, if_neg hok]

@[simp] theorem wrapper_accesses (api : Api Pool Buf) (k : Keeper Pool) (call : Call) :
    (fusainDecodeByteToNetBuf api k call).2.accesses =
      (fusainDecodeByte call.byte call.packet k.decoder).accesses := by
  by_cases hok : (fusainDecodeByte call.byte call.packet k.decoder).result = .ok
  · simp only [fusainDecodeByteToNetBuf, if_pos hok]
    cases api.netBufAlloc k.pool <;> rfl
  · simp only [fusainDecodeByteToNetBuf, if_neg hok]

/-- What a frame whose check comes out is judged by and delivers. -/
def Delivery (d : FusainDecoder) (kept found : FusainPacket) : Prop :=
  Crc.fusainCrc16 d.buffer.toList (kept.length.toNat + 9) = kept.crc →
    found.content = kept.content ∧
      (decodeCborMessageHeader kept.payload.toList kept.length.toNat ≠ none →
        found.address = kept.address)

/-- The local packet holds what the call reads from it before writing it, and what it hands
on: payload and address are asked for only where the check comes out. -/
structure Recalls (b : UInt8) (d : FusainDecoder) (kept found : FusainPacket) : Prop where
  address : d.state = stateAddress → d.addrByteCount + 1 ≥ 8 →
    (found.length = 0 ↔ kept.length = 0)
  payload : d.state = statePayload → (d.bufferIndex + 1 ≥ found.length.toNat + 9 ↔
    d.bufferIndex + 1 ≥ kept.length.toNat + 9)
  terminator : d.state = stateEnd → b = endByte →
    found.length = kept.length ∧ found.crc = kept.crc
  delivery : d.state = stateEnd → b = endByte → Delivery d kept found

def Agrees (api : Api Pool Buf) (ret : Return Buf) (c : Step) : Prop :=
  (ret.buf.isSome = true ↔ c.result = .ok) ∧ ∀ buf, ret.buf = some buf →
    ∃ p, fusainPacketFromBuf api buf = some p ∧ SameMessage p c.packet

def follow (r : Receiver) (call : Call) : Receiver × Step := receive r call.byte

theorem answers_follow (r : Receiver) (calls : List Call) :
    Machine.answers follow r calls = decodeRun r (calls.map Call.byte) := by
  induction calls generalizing r with
  | nil => rfl
  | cons call calls ih => exact congrArg (List.cons _) (ih _)

theorem header_congr {a b : List UInt8} {n : Nat} (h : a.take n = b.take n) :
    decodeCborMessageHeader a n = decodeCborMessageHeader b n := by
  have get : ∀ i < n, a.getD i 0 = b.getD i 0 := by
    intro i hi
    have ha := List.getElem?_take_of_lt (l := a) hi
    have hb := List.getElem?_take_of_lt (l := b) hi
    rw [List.getD_eq_getElem?_getD, List.getD_eq_getElem?_getD, ← ha, ← hb, h]
  unfold decodeCborMessageHeader
  by_cases h2 : n < 2
  · rw [if_pos h2, if_pos h2]
  · rw [if_neg h2, if_neg h2, get 0 (by omega), get 1 (by omega)]
    by_cases h3 : n < 3
    · simp [h3]
    · rw [get 2 (by omega)]

/-- Two packets under one switch: the decoder moves alike and the outcome is the same. -/
def Matches (c c' : Step) : Prop :=
  c.decoder = c'.decoder ∧ c.result = c'.result ∧ (c.result = .ok → SameMessage c.packet c'.packet)

theorem matches_quiet {c c' : Step} (hd : c.decoder = c'.decoder) (hr : c.result = c'.result)
    (hq : c.result ≠ .ok) : Matches c c' := ⟨hd, hr, fun hok => absurd hok hq⟩

theorem decodeEnd_matches {raw : UInt8} {d : FusainDecoder} {kept found : FusainPacket}
    (h : raw = endByte → found.length = kept.length ∧ found.crc = kept.crc)
    (hdel : raw = endByte → Delivery d kept found) :
    Matches (decodeEnd raw found d) (decodeEnd raw kept d) := by
  unfold decodeEnd decodeEndWith
  by_cases hraw : raw ≠ endByte
  · simp only [if_pos hraw]
    exact matches_quiet rfl rfl (by simp)
  · have hend : raw = endByte := Classical.not_not.mp hraw
    obtain ⟨hlen, hcrc⟩ := h hend
    simp only [if_neg hraw, hlen, hcrc]
    by_cases hsum : Crc.fusainCrc16 d.buffer.toList (kept.length.toNat + 9) ≠ kept.crc
    · simp only [if_pos hsum]
      exact matches_quiet rfl rfl (by simp)
    · obtain ⟨hcont, haddr⟩ := hdel hend (Classical.not_not.mp hsum)
      have hcont' : found.payload.toList.take kept.length.toNat =
          kept.payload.toList.take kept.length.toNat := by
        simpa only [FusainPacket.content, hlen] using hcont
      simp only [if_neg hsum, header_congr hcont']
      cases hmt : decodeCborMessageHeader kept.payload.toList kept.length.toNat with
      | none => exact matches_quiet rfl rfl (by simp)
      | some mt => exact ⟨rfl, rfl, fun _ => ⟨rfl, haddr (by simp [hmt]), hcont', rfl, rfl⟩⟩

theorem switch_matches {raw v : UInt8} {d : FusainDecoder} {kept found : FusainPacket}
    (h : Recalls raw d kept found) :
    Matches (decodeState raw v found d) (decodeState raw v kept d) := by
  rcases state_cases d.state with hs | hs | hs | hs | hs | hs | hs | hs
  · rw [decodeState_idle hs, decodeState_idle hs]
    exact matches_quiet rfl rfl (by simp)
  · rw [decodeState_length hs, decodeState_length hs, decodeLength, decodeLength]
    split <;> exact matches_quiet rfl rfl (by simp)
  · rw [decodeState_address hs, decodeState_address hs]
    refine matches_quiet ?_ rfl (by simp [decodeAddress])
    by_cases hcount : d.addrByteCount + 1 ≥ 8
    · simp only [decodeAddress, if_pos hcount, h.address hs hcount, push]
    · simp only [decodeAddress, if_neg hcount, push]
  · rw [decodeState_payload hs, decodeState_payload hs]
    refine matches_quiet ?_ rfl (by simp [decodePayload])
    simp only [decodePayload, h.payload hs, push]
  · rw [decodeState_crc1 hs, decodeState_crc1 hs]
    exact matches_quiet rfl rfl (by simp [decodeCrc1])
  · rw [decodeState_crc2 hs, decodeState_crc2 hs]
    exact matches_quiet rfl rfl (by simp [decodeCrc2])
  · rw [decodeState_end hs, decodeState_end hs]
    exact decodeEnd_matches (h.terminator hs) (h.delivery hs)
  · rw [decodeState_unknown hs, decodeState_unknown hs]
    exact matches_quiet rfl rfl (by simp)

/-- A byte that does not reach the switch never looks at the packet. -/
theorem call_matches {b : UInt8} {d : FusainDecoder} {kept found : FusainPacket}
    (h : Data b d → Recalls b d kept found) :
    Matches (fusainDecodeByte b found d) (fusainDecodeByte b kept d) := by
  rcases data_cases b d with ⟨rfl, hesc⟩ | ⟨rfl, hesc⟩ | hdata
  · rw [decode_start hesc, decode_start hesc]
    exact matches_quiet rfl rfl (by simp)
  · rw [decode_esc hesc, decode_esc hesc]
    exact matches_quiet rfl rfl (by simp)
  · obtain ⟨haddr, hpay, hend, hdel⟩ := h hdata
    rw [decode_switch hdata, decode_switch hdata]
    exact switch_matches ⟨haddr, hpay, hend, hdel⟩

/-- One call of the wrapper on a packet that holds what is read from it, whatever the pool has. -/
theorem wrapper_returns {api : Api Pool Buf}
    (fresh : ∀ pool buf pool', api.netBufAlloc pool = some (buf, pool') →
      api.data buf = [] ∧ 1 ≤ api.room buf)
    (appended : ∀ buf packet, 1 ≤ api.room buf →
      api.data (api.netBufAddMem buf packet) = api.data buf ++ [packet])
    (pool : Pool) {r : Receiver} {call : Call}
    (h : Data call.byte r.decoder → Recalls call.byte r.decoder r.packet call.packet) :
    (fusainDecodeByteToNetBuf api ⟨pool, r.decoder⟩ call).1.decoder = (follow r call).1.decoder ∧
      ((fusainDecodeByteToNetBuf api ⟨pool, r.decoder⟩ call).2.buf.isSome = true ↔
        (follow r call).2.result = .ok ∧ (api.netBufAlloc pool).isSome = true) ∧
      ∀ buf, (fusainDecodeByteToNetBuf api ⟨pool, r.decoder⟩ call).2.buf = some buf →
        ∃ p, fusainPacketFromBuf api buf = some p ∧ SameMessage p (follow r call).2.packet := by
  obtain ⟨hdec, hres, hmsg⟩ := call_matches h
  have hc : (follow r call).2 = fusainDecodeByte call.byte r.packet r.decoder := rfl
  refine ⟨by rw [wrapper_decoder, hdec]; rfl, ?_⟩
  rw [hc]
  by_cases hok : (fusainDecodeByte call.byte call.packet r.decoder).result = .ok
  · cases halloc : api.netBufAlloc pool with
    | none =>
      simp only [fusainDecodeByteToNetBuf, if_pos hok, halloc]
      exact ⟨by simp, by simp⟩
    | some got =>
      obtain ⟨buf, pool'⟩ := got
      obtain ⟨hempty, hroom⟩ := fresh _ _ _ halloc
      simp only [fusainDecodeByteToNetBuf, if_pos hok, halloc]
      refine ⟨by simp [← hres, hok], ?_⟩
      rintro buf' ⟨⟩
      refine ⟨_, ?_, hmsg hok⟩
      rw [fusainPacketFromBuf, appended _ _ hroom, hempty]
      rfl
  · simp only [fusainDecodeByteToNetBuf, if_neg hok]
    rw [hres] at hok
    exact ⟨by simp [hok], by simp⟩

theorem wrapper_agrees {api : Api Pool Buf} (std : api.Standard) {k : Keeper Pool} {r : Receiver}
    {call : Call} (hk : k.decoder = r.decoder)
    (h : Data call.byte r.decoder → Recalls call.byte r.decoder r.packet call.packet) :
    (fusainDecodeByteToNetBuf api k call).1.decoder = (follow r call).1.decoder ∧
      Agrees api (fusainDecodeByteToNetBuf api k call).2 (follow r call).2 := by
  obtain ⟨pool, d⟩ := k
  obtain rfl : d = r.decoder := hk
  obtain ⟨hdec, hreturned, hmsg⟩ := wrapper_returns std.fresh std.appended pool h
  obtain ⟨buf, pool', halloc⟩ := std.supplied pool
  rw [halloc, Option.isSome_some, and_iff_left rfl] at hreturned
  exact ⟨hdec, hreturned, hmsg⟩

/-- The wrapper agrees with the core decoder along every run in which each local packet
holds, when its call starts, what the call reads from it or hands on: at the last address
byte whether LENGTH is zero, at a payload byte whether it is the last, at END the LENGTH and
the check, and where the check comes out the counted payload bytes and the address. -/
theorem net_buf_agrees (api : Api Pool Buf) (std : api.Standard) (pool : Pool) (p : FusainPacket)
    (d : FusainDecoder) (calls : List Call)
    (h : Machine.Along follow
      (fun r call => Data call.byte r.decoder → Recalls call.byte r.decoder r.packet call.packet)
      ⟨p, fusainResetDecoder d⟩ calls) :
    List.Forall₂ (Agrees api)
      (Machine.answers (fusainDecodeByteToNetBuf api) ⟨pool, fusainResetDecoder d⟩ calls)
      (decodeRun ⟨p, fusainResetDecoder d⟩ (calls.map Call.byte)) := by
  rw [← answers_follow]
  refine Machine.simulation_along _ follow (R := fun (k : Keeper Pool) (r : Receiver) =>
    k.decoder = r.decoder) ?_ calls rfl h
  intro k r call hk hcall
  exact wrapper_agrees std hk hcall

def listApi : Api Unit (List FusainPacket) where
  netBufAlloc _ := some ([], ())
  netBufAddMem buf packet := buf ++ [packet]
  data := id
  room _ := 1

theorem listApi_standard : listApi.Standard where
  supplied := fun _ => ⟨[], (), rfl⟩
  fresh := by
    rintro _ _ _ ⟨⟩
    exact ⟨rfl, Nat.le_refl 1⟩
  appended := fun _ _ _ => rfl

/-- Calls on a stack slot that survives from one call to the next. -/
def lucky (r : Receiver) : List UInt8 → List Call
  | [] => []
  | b :: bytes => ⟨b, r.packet⟩ :: lucky (receive r b).1 bytes

theorem along_lucky (r : Receiver) (bytes : List UInt8) :
    Machine.Along follow (fun r call =>
      Data call.byte r.decoder → Recalls call.byte r.decoder r.packet call.packet)
      r (lucky r bytes) := by
  induction bytes generalizing r with
  | nil => trivial
  | cons b bytes ih =>
    have hsame : Recalls b r.decoder r.packet r.packet :=
      ⟨fun _ _ => Iff.rfl, fun _ => Iff.rfl, fun _ _ => ⟨rfl, rfl⟩, fun _ _ _ => ⟨rfl, fun _ => rfl⟩⟩
    exact ⟨fun _ => hsame, ih _⟩

def clean : Receiver := ⟨zeroPacket, fusainResetDecoder zeroDecoder⟩

def ping : List UInt8 :=
  [0x7E, 3, 1, 0, 0, 0, 0, 0, 0, 0, 0x82, 0x10, 0xF6, 0x80, 0xBF, 0x7F]

theorem net_buf_agrees_lucky :
    List.Forall₂ (Agrees listApi)
      (Machine.answers (fusainDecodeByteToNetBuf listApi) ⟨(), fusainResetDecoder zeroDecoder⟩
        (lucky clean ping))
      (decodeRun clean ((lucky clean ping).map Call.byte)) :=
  net_buf_agrees listApi listApi_standard () zeroPacket zeroDecoder (lucky clean ping)
    (along_lucky clean ping)

/-- With a zeroed slot the wrapper never returns the message the core decoder delivers. -/
theorem net_buf_loses :
    listApi.Standard ∧ (decodeRun clean ping).getLast?.map Step.result = some .ok ∧
      ∀ ret ∈ Machine.answers (fusainDecodeByteToNetBuf listApi)
        ⟨(), fusainResetDecoder zeroDecoder⟩ (ping.map fun b => ⟨b, zeroPacket⟩),
        ret.buf = none := by
  refine ⟨listApi_standard, by decide +kernel, ?_⟩
  have hnone : (Machine.answers (fusainDecodeByteToNetBuf listApi)
      ⟨(), fusainResetDecoder zeroDecoder⟩ (ping.map fun b => ⟨b, zeroPacket⟩)).all
      (fun ret => ret.buf.isNone) = true := by decide +kernel
  intro ret hret
  simpa using List.all_eq_true.mp hnone ret hret

/-- A local packet that cannot make the call, or a later one, leave an array: when the
114th payload byte arrives its LENGTH is in range, and at END the frame check stays
inside `decoder->buffer`. -/
structure Bounded (b : UInt8) (d : FusainDecoder) (found : FusainPacket) : Prop where
  payload : d.state = statePayload → d.bufferIndex = 122 → found.length.toNat ≤ maxPayloadSize
  terminator : d.state = stateEnd → b = endByte → found.length.toNat ≤ 119

instance (b : UInt8) (d : FusainDecoder) (found : FusainPacket) : Decidable (Bounded b d found) :=
  decidable_of_iff
    ((d.state = statePayload → d.bufferIndex = 122 → found.length.toNat ≤ maxPayloadSize) ∧
      (d.state = stateEnd → b = endByte → found.length.toNat ≤ 119))
    ⟨fun h => ⟨h.1, h.2⟩, fun h => ⟨h.payload, h.terminator⟩⟩

def AllInBounds (rets : List (Return Buf)) : Prop := ∀ ret ∈ rets, ∀ a ∈ ret.accesses, a.InBounds

/-- What the decoder alone guarantees while the packet is anything. -/
inductive Steady (d : FusainDecoder) : Prop
  | idle : d.state = stateIdle → Steady d
  | length : d.state = stateLength → d.bufferIndex = 0 → Steady d
  | address : d.state = stateAddress → d.addrByteCount.toNat < 8 →
      d.bufferIndex = 1 + d.addrByteCount.toNat → Steady d
  | payload : d.state = statePayload → 9 ≤ d.bufferIndex → d.bufferIndex ≤ 122 → Steady d
  | crc1 : d.state = stateCrc1 → Steady d
  | crc2 : d.state = stateCrc2 → Steady d
  | stop : d.state = stateEnd → Steady d

theorem Steady.withEscape {d : FusainDecoder} (h : Steady d) (e : Bool) :
    Steady { d with escapeNext := e } := by
  cases h with
  | idle hs => exact .idle hs
  | length hs hi => exact .length hs hi
  | address hs hc hi => exact .address hs hc hi
  | payload hs h9 h122 => exact .payload hs h9 h122
  | crc1 hs => exact .crc1 hs
  | crc2 hs => exact .crc2 hs
  | stop hs => exact .stop hs

section Token

variable {v : UInt8} {d : FusainDecoder} {found : FusainPacket}

theorem address_steady (hc : d.addrByteCount.toNat < 8)
    (hi : d.bufferIndex = 1 + d.addrByteCount.toNat) (hs : d.state = stateAddress) :
    Steady (decodeAddress v found d).decoder ∧
      ∀ a ∈ (decodeAddress v found d).accesses, a.InBounds := by
  obtain ⟨hcount, hlast⟩ := addressCount hc
  rw [decodeAddress]
  constructor
  · by_cases h7 : d.addrByteCount.toNat = 7
    · simp only [if_pos (hlast.mpr h7)]
      by_cases h0 : found.length = 0
      · rw [if_pos h0]
        exact .crc1 rfl
      · rw [if_neg h0]
        exact .payload rfl (by simp only [push]; omega) (by simp only [push]; omega)
    · simp only [if_neg (fun hn => h7 (hlast.mp hn))]
      exact .address hs (by simp only [hcount]; omega) (by simp only [push, hcount]; omega)
  · simp only [List.mem_cons, List.not_mem_nil, or_false, forall_eq_or_imp, forall_eq,
      Access.InBounds, maxPacketSize, true_and]
    omega

/-- The payload ends at its 114th byte at the latest. -/
theorem payload_steady (h9 : 9 ≤ d.bufferIndex) (h122 : d.bufferIndex ≤ 122)
    (hs : d.state = statePayload)
    (hb : d.bufferIndex = 122 → found.length.toNat ≤ maxPayloadSize) :
    Steady (decodePayload v found d).decoder ∧
      ∀ a ∈ (decodePayload v found d).accesses, a.InBounds := by
  rw [decodePayload]
  constructor
  · by_cases hl : d.bufferIndex + 1 ≥ found.length.toNat + 9
    · simp only [if_pos hl]
      exact .crc1 rfl
    · simp only [if_neg hl]
      have hfull : d.bufferIndex ≠ 122 := by
        intro he
        have hr := hb he
        simp only [maxPayloadSize] at hr
        omega
      exact .payload hs (by simp only [push]; omega) (by simp only [push]; omega)
  · simp only [List.mem_cons, List.not_mem_nil, or_false, forall_eq_or_imp, forall_eq,
      Access.InBounds, maxPacketSize, maxPayloadSize]
    omega

theorem switch_steady {raw : UInt8} (h : Steady d) (hb : Bounded raw d found) :
    Steady (decodeState raw v found d).decoder ∧
      ∀ a ∈ (decodeState raw v found d).accesses, a.InBounds := by
  cases h with
  | idle hs =>
    rw [decodeState_idle hs]
    exact ⟨.idle hs, by simp⟩
  | length hs hi =>
    rw [decodeState_length hs, decodeLength]
    by_cases hl : v.toNat > maxPayloadSize
    · rw [if_pos hl]
      exact ⟨.idle rfl, by simp⟩
    · rw [if_neg hl]
      exact ⟨.address rfl (by simp) (by simp [push, hi]), by simp [Access.InBounds, hi]⟩
  | address hs hc hi =>
    rw [decodeState_address hs]
    exact address_steady hc hi hs
  | payload hs h9 h122 =>
    rw [decodeState_payload hs]
    exact payload_steady h9 h122 hs (hb.payload hs)
  | crc1 hs =>
    rw [decodeState_crc1 hs, decodeCrc1]
    exact ⟨.crc2 rfl, by simp⟩
  | crc2 hs =>
    rw [decodeState_crc2 hs, decodeCrc2]
    exact ⟨.stop rfl, by simp⟩
  | stop hs =>
    rw [decodeState_end hs, (decodeEnd_closes raw found d).1, (decodeEnd_closes raw found d).2]
    refine ⟨.idle rfl, ?_⟩
    by_cases hraw : raw = endByte
    · have hr := hb.terminator hs hraw
      simp only [if_pos hraw, List.mem_singleton, forall_eq, Access.InBounds, maxPacketSize]
      omega
    · simp [if_neg hraw]

end Token

theorem call_steady {b : UInt8} {d : FusainDecoder} {found : FusainPacket} (h : Steady d)
    (hb : Data b d → Bounded b d found) :
    Steady (fusainDecodeByte b found d).decoder ∧
      ∀ a ∈ (fusainDecodeByte b found d).accesses, a.InBounds := by
  rcases data_cases b d with ⟨rfl, hesc⟩ | ⟨rfl, hesc⟩ | hdata
  · rw [decode_start hesc]
    exact ⟨.length rfl rfl, by simp⟩
  · rw [decode_esc hesc]
    exact ⟨h.withEscape true, by simp⟩
  · obtain ⟨hpay, hend⟩ := hb hdata
    rw [decode_switch hdata]
    exact switch_steady (h.withEscape false) ⟨hpay, hend⟩

/-- Along every run whose local packets are bounded, every access of the wrapper stays
inside its array. -/
theorem net_buf_in_bounds (api : Api Pool Buf) (pool : Pool) (d : FusainDecoder)
    (calls : List Call)
    (h : Machine.Along (fusainDecodeByteToNetBuf api)
      (fun k call => Data call.byte k.decoder → Bounded call.byte k.decoder call.packet)
      ⟨pool, fusainResetDecoder d⟩ calls) :
    AllInBounds (Machine.answers (fusainDecodeByteToNetBuf api) ⟨pool, fusainResetDecoder d⟩ calls) := by
  refine Machine.answers_along _ (I := fun k => Steady k.decoder)
    (Q := fun ret => ∀ a ∈ ret.accesses, a.InBounds) ?_ calls (.idle rfl) h
  intro k call hk hcall
  rw [wrapper_decoder, wrapper_accesses]
  exact call_steady hk hcall

/-- A packet object with LENGTH 255, as a stack slot may hold. -/
def wild : FusainPacket := { zeroPacket with length := 255 }

/-- On such an object the payload goes on past its array. -/
theorem payload_stays (n : Nat) (k : Keeper Unit) (hs : k.decoder.state = statePayload)
    (he : k.decoder.escapeNext = false) (hn : k.decoder.bufferIndex + n < 264) :
    ∃ k', Machine.final (fusainDecodeByteToNetBuf listApi) k (List.replicate n ⟨1, wild⟩) = k' ∧
      k'.decoder.state = statePayload ∧ k'.decoder.escapeNext = false ∧
        k'.decoder.bufferIndex = k.decoder.bufferIndex + n := by
  induction n generalizing k with
  | zero => exact ⟨k, rfl, hs, he, rfl⟩
  | succ n ih =>
    have hdata : Data 1 k.decoder := .inr (by decide)
    have hstep : (fusainDecodeByteToNetBuf listApi k ⟨1, wild⟩).1.decoder =
        { push { k.decoder with escapeNext := false } 1 with state := statePayload } := by
      rw [wrapper_decoder, decode_switch hdata, he, decodeState_payload (by exact hs)]
      have hmore : ¬ k.decoder.bufferIndex + 1 ≥ wild.length.toNat + 9 := by
        have hw : wild.length.toNat = 255 := rfl
        omega
      simp [decodePayload, hmore, hs, push]
    have hrec := ih (fusainDecodeByteToNetBuf listApi k ⟨1, wild⟩).1
    rw [hstep] at hrec
    obtain ⟨k', hk', h1, h2, h3⟩ := hrec rfl rfl (by simp only [push]; omega)
    refine ⟨k', hk', h1, h2, h3.trans ?_⟩
    simp only [push]
    omega

def toData : List Call := ([startByte, 114] ++ List.replicate 8 1).map fun b => ⟨b, wild⟩

/-- A frame with LENGTH 114, up to the last byte but one of its payload, on wild objects. -/
def toLimit : List Call := toData ++ List.replicate 113 ⟨1, wild⟩

/-- At the 114th payload byte and at END the object must be bounded. -/
def edge : List Call :=
  toLimit ++ [⟨1, { zeroPacket with length := 114 }⟩, ⟨0, wild⟩, ⟨0, wild⟩,
    ⟨endByte, { zeroPacket with length := 119 }⟩]

theorem toLimit_payload :
    ∃ k, Machine.final (fusainDecodeByteToNetBuf listApi) ⟨(), fusainResetDecoder zeroDecoder⟩
      toLimit = k ∧ k.decoder.state = statePayload ∧ k.decoder.bufferIndex = 122 := by
  have hdata : (Machine.final (fusainDecodeByteToNetBuf listApi)
        ⟨(), fusainResetDecoder zeroDecoder⟩ toData).decoder.state = statePayload ∧
      (Machine.final (fusainDecodeByteToNetBuf listApi)
        ⟨(), fusainResetDecoder zeroDecoder⟩ toData).decoder.escapeNext = false ∧
      (Machine.final (fusainDecodeByteToNetBuf listApi)
        ⟨(), fusainResetDecoder zeroDecoder⟩ toData).decoder.bufferIndex = 9 := by
    decide +kernel
  obtain ⟨hs, he, hi⟩ := hdata
  obtain ⟨k, hk, hs', -, hi'⟩ := payload_stays 113 _ hs he (by rw [hi]; decide)
  refine ⟨k, ?_, hs', hi'.trans (by rw [hi])⟩
  rw [toLimit, Machine.final_append, hk]

/-- Then the last byte of the payload array is written, and the last of the buffer is read. -/
theorem net_buf_in_bounds_edge :
    AllInBounds (Machine.answers (fusainDecodeByteToNetBuf listApi)
        ⟨(), fusainResetDecoder zeroDecoder⟩ edge) ∧
      (∃ ret ∈ Machine.answers (fusainDecodeByteToNetBuf listApi)
        ⟨(), fusainResetDecoder zeroDecoder⟩ edge, .payloadWrite 113 ∈ ret.accesses) ∧
      ∃ ret ∈ Machine.answers (fusainDecodeByteToNetBuf listApi)
        ⟨(), fusainResetDecoder zeroDecoder⟩ edge, .crcRead 128 ∈ ret.accesses := by
  obtain ⟨k, hk, hs, hi⟩ := toLimit_payload
  have hcrc1 : (fusainDecodeByteToNetBuf listApi k
      ⟨1, { zeroPacket with length := 114 }⟩).1.decoder.state = stateCrc1 := by
    rw [wrapper_decoder, decode_switch (.inr (by decide)), decodeState_payload (by exact hs)]
    simp [decodePayload, hi, push]
  refine ⟨net_buf_in_bounds listApi () zeroDecoder edge (by decide +kernel), ?_⟩
  rw [edge, Machine.answers_append, hk]
  simp only [Machine.answers_cons, List.mem_append, List.mem_cons]
  refine ⟨⟨_, .inr (.inl rfl), ?_⟩, ⟨_, .inr (.inr (.inr (.inr (.inl rfl)))), ?_⟩⟩
  · rw [wrapper_accesses, decode_switch (.inr (by decide)), decodeState_payload (by exact hs)]
    simp [decodePayload, hi]
  · generalize (fusainDecodeByteToNetBuf listApi k ⟨1, { zeroPacket with length := 114 }⟩).1 = k1
      at hcrc1 ⊢
    have hcrc2 : (fusainDecodeByteToNetBuf listApi k1 ⟨0, wild⟩).1.decoder.state = stateCrc2 := by
      rw [wrapper_decoder, decode_switch (.inr (by decide)), decodeState_crc1 (by exact hcrc1)]
      rfl
    generalize (fusainDecodeByteToNetBuf listApi k1 ⟨0, wild⟩).1 = k2 at hcrc2 ⊢
    have hend : (fusainDecodeByteToNetBuf listApi k2 ⟨0, wild⟩).1.decoder.state = stateEnd := by
      rw [wrapper_decoder, decode_switch (.inr (by decide)), decodeState_crc2 (by exact hcrc2)]
      rfl
    rw [wrapper_accesses, decode_switch (.inr (by decide)), decodeState_end (by exact hend),
      (decodeEnd_closes _ _ _).2]
    decide

/-- An unbounded packet breaks out at once, or with the next data byte whatever the
packet then holds. -/
theorem unbounded_escapes {b : UInt8} {d : FusainDecoder} {found : FusainPacket} (hdata : Data b d)
    (hb : ¬ Bounded b d found) :
    (∃ a ∈ (fusainDecodeByte b found d).accesses, ¬ a.InBounds) ∨
      ∀ b' found', Data b' (fusainDecodeByte b found d).decoder →
        ∃ a ∈ (fusainDecodeByte b' found' (fusainDecodeByte b found d).decoder).accesses,
          ¬ a.InBounds := by
  have hcase : (d.state = stateEnd ∧ b = endByte ∧ 119 < found.length.toNat) ∨
      (d.state = statePayload ∧ d.bufferIndex = 122 ∧ maxPayloadSize < found.length.toNat) := by
    by_contra hn
    rw [not_or] at hn
    refine hb ⟨fun hs hi => ?_, fun hs hraw => ?_⟩
    · by_contra hl
      exact hn.2 ⟨hs, hi, by omega⟩
    · by_contra hl
      exact hn.1 ⟨hs, hraw, by omega⟩
  rw [decode_switch hdata]
  rcases hcase with ⟨hs, hraw, hl⟩ | ⟨hs, hi, hl⟩
  · left
    refine ⟨.crcRead (found.length.toNat + 9), ?_, ?_⟩
    · rw [decodeState_end (by exact hs), (decodeEnd_closes b found _).2, if_pos hraw]
      exact List.mem_singleton_self _
    · simp only [Access.InBounds, maxPacketSize]
      omega
  · right
    intro b' found' hdata'
    simp only [maxPayloadSize] at hl
    generalize (if d.escapeNext then b ^^^ escXor else b) = v at hdata' ⊢
    have hmore : ¬ d.bufferIndex + 1 ≥ found.length.toNat + 9 := by omega
    have hstep : (decodeState b v found { d with escapeNext := false }).decoder =
        push { d with escapeNext := false } v := by
      rw [decodeState_payload (by exact hs), decodePayload]
      simp only [if_neg hmore, push]
    rw [hstep] at hdata' ⊢
    rw [decode_switch hdata', decodeState_payload (by exact hs)]
    refine ⟨.payloadWrite 114, ?_, by simp [Access.InBounds]⟩
    simp [decodePayload, push, hi]

/-- Twelve calls that end before END, of a frame without payload. -/
def toEnd : List Call := ([startByte] ++ List.replicate 11 0).map fun b => ⟨b, zeroPacket⟩

/-- Ten calls that end before the payload. -/
def toPayload : List Call := ([startByte] ++ List.replicate 9 1).map fun b => ⟨b, wild⟩

/-- With a LENGTH of 255 on the stack the frame check at END reads 264 bytes, and the
115th payload byte is written behind the payload array. -/
theorem net_buf_overruns :
    (∃ ret ∈ Machine.answers (fusainDecodeByteToNetBuf listApi)
        ⟨(), fusainResetDecoder zeroDecoder⟩ (toEnd ++ [⟨endByte, wild⟩]),
      .crcRead 264 ∈ ret.accesses) ∧
    (∃ ret ∈ Machine.answers (fusainDecodeByteToNetBuf listApi)
        ⟨(), fusainResetDecoder zeroDecoder⟩ (toPayload ++ List.replicate 114 ⟨1, wild⟩ ++ [⟨1, wild⟩]),
      .payloadWrite 114 ∈ ret.accesses) ∧
    ¬ Access.InBounds (.crcRead 264) ∧ ¬ Access.InBounds (.payloadWrite 114) := by
  refine ⟨⟨_, (Machine.mem_answers _ _ _ _).mpr ⟨toEnd, _, [], rfl, rfl⟩, ?_⟩,
    ⟨_, (Machine.mem_answers _ _ _ _).mpr ⟨_, _, [], rfl, rfl⟩, ?_⟩, by decide, by decide⟩
  · have hs : (Machine.final (fusainDecodeByteToNetBuf listApi)
        ⟨(), fusainResetDecoder zeroDecoder⟩ toEnd).decoder.state = stateEnd := by decide +kernel
    rw [wrapper_accesses, decode_switch (.inr (by decide)), decodeState_end (by exact hs),
      (decodeEnd_closes _ _ _).2]
    decide
  · have hk : (Machine.final (fusainDecodeByteToNetBuf listApi)
        ⟨(), fusainResetDecoder zeroDecoder⟩ toPayload).decoder.state = statePayload ∧
        (Machine.final (fusainDecodeByteToNetBuf listApi)
          ⟨(), fusainResetDecoder zeroDecoder⟩ toPayload).decoder.escapeNext = false ∧
        (Machine.final (fusainDecodeByteToNetBuf listApi)
          ⟨(), fusainResetDecoder zeroDecoder⟩ toPayload).decoder.bufferIndex = 9 := by
      decide +kernel
    rw [Machine.final_append]
    generalize Machine.final (fusainDecodeByteToNetBuf listApi)
      ⟨(), fusainResetDecoder zeroDecoder⟩ toPayload = k at hk ⊢
    obtain ⟨hs, he, hi⟩ := hk
    obtain ⟨k', hk', hs', -, hi'⟩ := payload_stays 114 k hs he (by omega)
    rw [hi] at hi'
    rw [hk', wrapper_accesses, decode_switch (.inr (by decide)), decodeState_payload (by exact hs')]
    simp only [decodePayload, hi']
    decide

end Fusain.NetBuf
