import Fusain.Delimiters
import Fusain.NetBuf
import Fusain.Noise
import Fusain.Refusals

/-!
# Messages over a link

A sender encodes one packet after the other, each into a buffer of 256 bytes; a receiver
hands on what its decoder accepts. Whatever a decoder accepts can be sent again, and
commands that a builder packs at one end are read back at the other.
-/
namespace Fusain.Exchange

open Builders Crc Decoder Encoder Messages Reader RoundTrip Stuffing Tracking Typed Wire Zcbor

/-- What the sender puts on the line for a packet: nothing if the encoder refuses it. -/
def sent (buffer : Memory) (p : FusainPacket) : List UInt8 :=
  reported (fusainEncodePacket (some p) (some buffer) 256)

def accepted (chunk : List Step) : List FusainPacket :=
  (chunk.filter fun c => c.result = .ok).map Step.packet

theorem accepted_append (a b : List Step) : accepted (a ++ b) = accepted a ++ accepted b := by
  simp [accepted]

theorem mem_accepted {chunk : List Step} {q : FusainPacket} :
    q ∈ accepted chunk ↔ ∃ c ∈ chunk, c.result = .ok ∧ c.packet = q := by
  simp [accepted, and_assoc]

theorem accepted_quiet {chunk : List Step} (h : ∀ c ∈ chunk, c.result ≠ .ok) : accepted chunk = [] := by
  apply List.eq_nil_iff_forall_not_mem.mpr
  intro q hq
  obtain ⟨c, hc, hok, -⟩ := mem_accepted.mp hq
  exact h c hc hok

/-- Only the last call of a frame can accept a packet. -/
theorem accepted_last {quiet : List Step} (hquiet : ∀ c ∈ quiet, c.result = .incomplete)
    (last : Step) : accepted (quiet ++ [last]) = if last.result = .ok then [last.packet] else [] := by
  have hnone : accepted quiet = [] := accepted_quiet fun c hc => by simp [hquiet c hc]
  rw [accepted_append, hnone, List.nil_append]
  by_cases hok : last.result = .ok <;> simp [accepted, hok]

section Sent

variable {p : FusainPacket} (hp : p.length.toNat ≤ maxPayloadSize) (buffer : Memory)
include hp

/-- 256 bytes are enough for every packet in range. -/
theorem encoder_accepts : 0 < (fusainEncodePacket (some p) (some buffer) 256).1 := by
  have hlen := length_frame_le hp
  exact (sends_iff p buffer 256).mpr ⟨hp, Nat.max_le.mpr ⟨by decide, by omega⟩⟩

theorem sent_frame : sent buffer p = frame p := by
  have hlen := length_frame_le hp
  exact reported_frame buffer hp (Nat.max_le.mpr ⟨by decide, by omega⟩)

/-- What is sent for a packet is heard as `frame_read` says. -/
theorem sent_received {r : Receiver} (hr : r.decoder.escapeNext = false) :
    (decodeFinal r (sent buffer p)).decoder.escapeNext = false ∧
      ∃ quiet last, decodeRun r (sent buffer p) = quiet ++ [last] ∧
        (∀ c ∈ quiet, c.result = .incomplete) ∧
        accepted (decodeRun r (sent buffer p)) = (if last.result = .ok then [last.packet] else []) ∧
        match headerType p.content with
        | some mt => Arrived p mt last
        | none => last.result = .invalidStart := by
  obtain ⟨⟨quiet, last, hchunk, -, hquiet, hlast⟩, hescape⟩ := frame_read hp r hr
  rw [sent_frame hp buffer]
  exact ⟨hescape, quiet, last, hchunk, hquiet, by rw [hchunk, accepted_last hquiet], hlast⟩

end Sent

/-- A packet as a decoder hands it on. -/
structure Sound (q : FusainPacket) : Prop where
  length : q.length.toNat ≤ maxPayloadSize
  msgType : headerType q.content = some q.msgType
  crc : q.crc = fusainCrc16 (checked q) (q.length.toNat + 9)

theorem delivered_sound {raw : UInt8} {vs : List UInt8} {q : FusainPacket}
    (hv : verdict raw vs = .ok) (h : Delivers vs q) : Sound q := by
  obtain ⟨e, hvs⟩ := Delimiters.accepted_values hv h
  obtain ⟨l, a, w, hi, lo, e', hparts, hl, -⟩ := verdict_ok hv
  have hlen := h.length
  rw [hparts, List.head?_cons, Option.some.injEq] at hlen
  rw [hlen] at hl
  have hcrc := h.crc
  rw [hvs, fusainCrc16, List.take_left' (length_checked hl)] at hcrc
  refine ⟨hl, h.msgType, hcrc.trans ?_⟩
  rw [fusainCrc16, List.take_of_length_le (Nat.le_of_eq (length_checked hl))]

theorem accepted_sound {r : Receiver} (hr : Tracks silence r.packet r.decoder) {stream : List UInt8}
    {q : FusainPacket} (hq : q ∈ accepted (decodeRun r stream)) : Sound q := by
  obtain ⟨c, hc, hok, rfl⟩ := mem_accepted.mp hq
  obtain ⟨past, b, rest, -, rfl⟩ := (Machine.mem_answers receive r stream c).mp hc
  obtain ⟨-, hres, hdel⟩ := step_tracks (run_tracks hr past) b
  obtain ⟨ts, t, harr, hmsg⟩ := hdel hok
  exact delivered_sound ((arrival_some harr).2.symm.trans (hres.symm.trans hok)) hmsg

/-- Sent again, the packet is accepted as the message it was. -/
theorem sound_resent {q : FusainPacket} (hq : Sound q) (buffer : Memory) {r : Receiver}
    (hr : r.decoder.escapeNext = false) :
    (decodeFinal r (sent buffer q)).decoder.escapeNext = false ∧
      ∃ m, accepted (decodeRun r (sent buffer q)) = [m] ∧ SameMessage q m := by
  obtain ⟨hescape, quiet, last, -, -, haccepted, hlast⟩ := sent_received hq.length buffer hr
  rw [hq.msgType] at hlast
  refine ⟨hescape, last.packet, by rw [haccepted, if_pos hlast.result], ?_⟩
  exact ⟨hlast.length.symm, hlast.address.symm, hlast.content.symm, hq.crc.trans hlast.crc.symm,
    hlast.msgType.symm⟩

/-- Every packet that a decoder accepts, on any stream at all, can be encoded again, and
the frames make any other decoder accept the same messages in the same order. -/
theorem resent (p : FusainPacket) (d : FusainDecoder) (stream : List UInt8) (buffer : Memory)
    (p' : FusainPacket) (d' : FusainDecoder) :
    let heard := accepted (decodeRun ⟨p, fusainResetDecoder d⟩ stream)
    (∀ q ∈ heard, 0 < (fusainEncodePacket (some q) (some buffer) 256).1) ∧
      List.Forall₂ SameMessage heard
        (accepted (decodeRun ⟨p', fusainResetDecoder d'⟩ (heard.flatMap (sent buffer)))) := by
  intro heard
  have sound : ∀ q ∈ heard, Sound q := fun q hq =>
    accepted_sound (r := ⟨p, fusainResetDecoder d⟩) (tracks_idle rfl rfl) hq
  refine ⟨fun q hq => encoder_accepts (sound q hq).length buffer, ?_⟩
  have next : ∀ q ∈ heard, ∀ r : Receiver, r.decoder.escapeNext = false →
      (decodeFinal r (sent buffer q)).decoder.escapeNext = false ∧
        ∃ m, accepted (decodeRun r (sent buffer q)) = [m] ∧ SameMessage q m :=
    fun q hq r hr => sound_resent (sound q hq) buffer hr
  obtain ⟨-, chunks, hrun, hall⟩ := Machine.answers_flatMap receive
    (I := fun r => r.decoder.escapeNext = false)
    (Q := fun q chunk => ∃ m, accepted chunk = [m] ∧ SameMessage q m) (sent buffer) heard next
    (s := ⟨p', fusainResetDecoder d'⟩) rfl
  rw [decodeRun, hrun]
  clear_value heard
  clear next sound hrun
  induction hall with
  | nil => exact .nil
  | cons hm _ ih =>
    obtain ⟨m, hone, hsame⟩ := hm
    rw [List.flatten_cons, accepted_append, hone, List.singleton_append]
    exact .cons hsame ih

/-- A call of a builder for an address, into whatever the packet object and the buffer of
the sender hold. -/
structure Request where
  call : Call
  address : UInt64
  packet : FusainPacket
  buffer : Memory

section Commands

variable {E D : Type} (z : Runtime E D) (widen : UInt32 → UInt64)

def Request.built (q : Request) : FusainPacket := q.call.create z widen q.packet q.address

def Request.bytes (q : Request) : List UInt8 := sent q.buffer (q.built z widen)

/-- Only the last byte of a call is answered. A call in range is accepted there, with its
type, its address and its arguments; any other call is lost, and the receiver is told. -/
structure Served (q : Request) (chunk : List Step) : Prop where
  length : chunk.length = (q.bytes z widen).length
  quiet : ∀ c ∈ chunk.dropLast, c.result = .incomplete
  inRange : q.call.InRange → ∃ m, accepted chunk = [m] ∧
    Conveys m q.call.type q.address fun l => q.call.Decodes z widen l
  outOfRange : ¬ q.call.InRange → accepted chunk = [] ∧
    ∃ c, chunk.getLast? = some c ∧ c.result = .invalidStart

end Commands

theorem conveys_copy {p m : FusainPacket} {type : FusainMsgType} {address : UInt64}
    {P : List UInt8 → Prop} (h : Conveys p type address P) (hlen : m.length = p.length)
    (haddr : m.address = p.address) (hcont : m.content = p.content) (htype : m.msgType = p.msgType) :
    Conveys m type address P := by
  obtain ⟨hge, hle, haddress, hmsg, headerLen, hheader, hbody⟩ := h
  refine ⟨hlen ▸ hge, hlen ▸ hle, haddr.trans haddress, htype.trans hmsg, headerLen, ?_,
    hcont.symm ▸ hbody⟩
  have htake : m.payload.toList.take p.length.toNat = p.payload.toList.take p.length.toNat := by
    simpa only [FusainPacket.content, hlen] using hcont
  rw [hlen, NetBuf.header_congr htake, htype, hheader]

section Commands

variable {E D : Type} {z : Runtime E D} {W : E → List UInt8 → Nat → Prop}
  {R : D → Bool → List UInt8 → Prop} (hz : Standard z W R) (widen : UInt32 → UInt64)
include hz

theorem built_short (q : Request) : (q.built z widen).length.toNat ≤ maxPayloadSize := by
  by_cases h : q.call.InRange
  · exact (builder_conveys hz widen q.call h q.packet q.address).length_le
  · have hzero : (q.built z widen).length = 0 :=
      Refusals.builder_fails hz widen q.call h q.packet q.address
    rw [hzero]
    decide

/-- The payload of a call in range starts with the type of the message. -/
theorem built_header {q : Request} (h : q.call.InRange) :
    headerType (q.built z widen).content = some (q.built z widen).msgType := by
  have hconveys : Conveys (q.built z widen) q.call.type q.address
      fun l => q.call.Decodes z widen l := builder_conveys hz widen q.call h q.packet q.address
  obtain ⟨-, hle, -, -, headerLen, hheader, -⟩ := hconveys
  rw [FusainPacket.content, ← header_eq (by simpa using hle), hheader]
  rfl

theorem built_headerless {q : Request} (h : ¬ q.call.InRange) :
    headerType (q.built z widen).content = none := by
  have hzero : (q.built z widen).length = 0 :=
    Refusals.builder_fails hz widen q.call h q.packet q.address
  simp [FusainPacket.content, hzero, headerType]

theorem request_served (q : Request) {r : Receiver} (hr : r.decoder.escapeNext = false) :
    (decodeFinal r (q.bytes z widen)).decoder.escapeNext = false ∧
      Served z widen q (decodeRun r (q.bytes z widen)) := by
  obtain ⟨hescape, quiet, last, hrun, hquiet, haccepted, hlast⟩ :=
    sent_received (built_short hz widen q) q.buffer hr
  refine ⟨hescape, length_decodeRun _ _, ?_, fun h => ?_, fun h => ?_⟩
  · rw [Request.bytes, hrun, List.dropLast_concat]
    exact hquiet
  · have hconveys : Conveys (q.built z widen) q.call.type q.address
        fun l => q.call.Decodes z widen l := builder_conveys hz widen q.call h q.packet q.address
    rw [built_header hz widen h] at hlast
    refine ⟨last.packet, by rw [Request.bytes, haccepted, if_pos hlast.result], ?_⟩
    exact conveys_copy hconveys hlast.length hlast.address hlast.content hlast.msgType
  · rw [built_headerless hz widen h] at hlast
    have hresult : last.result = .invalidStart := hlast
    refine ⟨by rw [Request.bytes, haccepted, hresult, if_neg (by decide)], last, ?_, hresult⟩
    rw [Request.bytes, hrun, List.getLast?_concat]

/-- A series of calls, each sent as a frame: those in range are accepted once each, in
order, with their type, address and arguments, and the others yield one INVALID_START
each, whatever the memory at either end holds. -/
theorem requests_served (requests : List Request) (p : FusainPacket) (d : FusainDecoder) :
    ∃ chunks : List (List Step),
      decodeRun ⟨p, fusainResetDecoder d⟩ (requests.flatMap (Request.bytes z widen)) =
          chunks.flatten ∧
        List.Forall₂ (Served z widen) requests chunks := by
  have next : ∀ q ∈ requests, ∀ r : Receiver, r.decoder.escapeNext = false →
      (decodeFinal r (q.bytes z widen)).decoder.escapeNext = false ∧
        Served z widen q (decodeRun r (q.bytes z widen)) :=
    fun q _ r hr => request_served hz widen q hr
  exact (Machine.answers_flatMap receive (Request.bytes z widen) requests next
    (s := ⟨p, fusainResetDecoder d⟩) rfl).2

end Commands

/-- Two calls, the second one for a motor that does not exist. -/
theorem requests_served_two :
    ∃ chunks : List (List Step),
      decodeRun ⟨zeroPacket, fusainResetDecoder zeroDecoder⟩
          (List.flatMap (Request.bytes listRuntime widenNormal)
            [⟨.motorCommand 127 3000, 0x1122, zeroPacket, fun _ => 0⟩,
              ⟨.motorCommand 128 3000, 0x1122, zeroPacket, fun _ => 0⟩]) = chunks.flatten ∧
        List.Forall₂ (Served listRuntime widenNormal)
          [⟨.motorCommand 127 3000, 0x1122, zeroPacket, fun _ => 0⟩,
            ⟨.motorCommand 128 3000, 0x1122, zeroPacket, fun _ => 0⟩] chunks :=
  requests_served listRuntime_standard widenNormal _ zeroPacket zeroDecoder

end Fusain.Exchange
