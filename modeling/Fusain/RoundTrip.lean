import Fusain.Encoder
import Fusain.Tracking

/-!
# Round trips

What the encoder sends, the decoder delivers: frame after frame from any memory the
decoder may start in, and after any noise that does not end in the middle of an
escape.
-/
namespace Fusain.RoundTrip

open Crc Decoder Encoder Reader Stuffing Tracking Wire

/-- A packet that the encoder accepted, with the buffer it was given. -/
structure Transmission where
  packet : FusainPacket
  buffer : Memory
  size : Nat
  sent : 0 < (fusainEncodePacket (some packet) (some buffer) size).1

def Transmission.bytes (t : Transmission) : List UInt8 :=
  reported (fusainEncodePacket (some t.packet) (some t.buffer) t.size)

/-- The call completed a frame and the packet object holds `p`, with message type `mt`. -/
structure Arrived (p : FusainPacket) (mt : UInt8) (c : Step) : Prop where
  result : c.result = .ok
  length : c.packet.length = p.length
  address : c.packet.address = p.address
  content : c.packet.content = p.content
  crc : c.packet.crc = fusainCrc16 (checked p) (p.length.toNat + 9)
  msgType : c.packet.msgType = mt

/-- The results of one frame's bytes: all but the last say nothing, and the last
delivers the packet if its payload has a message header. -/
def Reads (p : FusainPacket) (bytes : List UInt8) (chunk : List Step) : Prop :=
  ∃ quiet last, chunk = quiet ++ [last] ∧ chunk.length = bytes.length ∧
    (∀ c ∈ quiet, c.result = .incomplete) ∧
    match headerType p.content with
    | some mt => Arrived p mt last
    | none => last.result = .invalidStart

def Received (t : Transmission) (chunk : List Step) : Prop := Reads t.packet t.bytes chunk

theorem Transmission.whole (t : Transmission) :
    t.packet.length.toNat ≤ maxPayloadSize ∧ t.bytes = frame t.packet := by
  obtain ⟨hp, hroom⟩ := (sends_iff t.packet t.buffer t.size).mp t.sent
  exact ⟨hp, reported_frame t.buffer hp hroom⟩

section Sent

variable {p : FusainPacket} (hp : p.length.toNat ≤ maxPayloadSize) {e : UInt8} {q : FusainPacket}
  (h : Delivers (p.length :: (body p ++ [e])) q)
include hp h

theorem delivered : q.length = p.length ∧ q.address = p.address ∧ q.content = p.content ∧
    q.crc = fusainCrc16 (checked p) (p.length.toNat + 9) := by
  have hq := p.length_content hp
  have hparts : p.length :: (body p ++ [e]) = p.length :: (addressField p.address ++ p.content ++
      [crcHigh (residue (checked p)), crcLow (residue (checked p)), e]) := by
    simp [body, checkField]
  rw [hparts] at h
  have hlen : q.length = p.length := (Option.some.inj h.length).symm
  refine ⟨hlen, ?_, ?_, ?_⟩
  · apply UInt64.toNat_inj.mp
    rw [h.address, List.append_assoc, whole_address (length_addressField _), little_addressField]
  · rw [h.content, hlen, whole_content _ _ _ (length_addressField _) hq]
  · rw [h.crc, hlen, whole_crc _ _ _ (length_addressField _) hq,
      fusainCrc16_eq _ _ (length_checked hp).symm, checked]

theorem delivered_type {mt : UInt8} (hmt : headerType p.content = some mt) : q.msgType = mt := by
  have ht := h.msgType
  rw [(delivered hp h).2.2.1, hmt] at ht
  exact (Option.some.inj ht).symm

end Sent

theorem end_received {p : FusainPacket} (hp : p.length.toNat ≤ maxPayloadSize) {r : Receiver}
    (h : Tracks ⟨false, some (tokens scheme false (enclosed p))⟩ r.packet r.decoder) :
    (receive r endByte).1.decoder.escapeNext = false ∧
      match headerType p.content with
      | some mt => Arrived p mt (receive r endByte).2
      | none => (receive r endByte).2.result = .invalidStart := by
  obtain ⟨hnext, hres, hok⟩ := step_tracks h endByte
  rw [respond_end hp (values_enclosed hp)] at hres
  refine ⟨hnext.pending.trans (by simp [scanOne, lex, endByte, startByte, escByte]), ?_⟩
  cases hmt : headerType p.content with
  | none => simpa [receive, hmt] using hres
  | some mt =>
    rw [hmt, if_neg (Option.some_ne_none mt)] at hres
    obtain ⟨ts, tok, harr, hdel⟩ := hok hres
    obtain ⟨hts, rfl⟩ := arrival_end harr
    rw [← Option.some.inj hts, values_append, values_enclosed hp] at hdel
    obtain ⟨hlen, haddr, hcont, hcrc⟩ := delivered hp hdel
    exact ⟨hres, hlen, haddr, hcont, hcrc, delivered_type hp hdel hmt⟩

/-- A stuffed word of the right length behind START: nothing is said before END, and at END
all its tokens have been tracked. -/
theorem word_received {l : UInt8} {w : List UInt8} (hl : l.toNat ≤ maxPayloadSize)
    (hw : w.length = l.toNat + 10) {r : Receiver} (hr : r.decoder.escapeNext = false) :
    ∃ (quiet : List Step) (r' : Receiver),
      decodeRun r (startByte :: (stuff scheme (l :: w) ++ [endByte])) =
          quiet ++ [(receive r' endByte).2] ∧
        decodeFinal r (startByte :: (stuff scheme (l :: w) ++ [endByte])) = (receive r' endByte).1 ∧
        (∀ c ∈ quiet, c.result = .incomplete) ∧
        Tracks ⟨false, some (tokens scheme false (stuff scheme (l :: w)))⟩ r'.packet r'.decoder := by
  obtain ⟨hquiet, htrack⟩ := receive_start hr
  generalize hr1 : (receive r startByte).1 = r1 at htrack
  have hmid := run_results htrack (stuff scheme (l :: w))
  rw [hear_stuff hl hw] at hmid
  have hend := run_tracks htrack (stuff scheme (l :: w))
  rw [scan_stuff] at hend
  refine ⟨(receive r startByte).2 :: decodeRun r1 (stuff scheme (l :: w)),
    decodeFinal r1 (stuff scheme (l :: w)), ?_, ?_, ?_, hend⟩
  · rw [decodeRun_cons, hr1, decodeRun_concat, List.cons_append]
  · simp [decodeFinal, Machine.final_append, hr1]
  · intro c hc
    rcases List.mem_cons.mp hc with rfl | hc
    · exact hquiet
    · have hm := List.mem_map_of_mem (f := Step.result) hc
      rw [hmid] at hm
      exact List.eq_of_mem_replicate hm

theorem frame_read {p : FusainPacket} (hp : p.length.toNat ≤ maxPayloadSize) (r : Receiver)
    (hr : r.decoder.escapeNext = false) :
    Reads p (frame p) (decodeRun r (frame p)) ∧
      (decodeFinal r (frame p)).decoder.escapeNext = false := by
  obtain ⟨quiet, r', hrun, hfinal, hquiet, htrack⟩ := word_received hp (length_body hp) hr
  rw [← enclosed_stuff hp, ← frame_enclosed] at hrun hfinal
  rw [← enclosed_stuff hp] at htrack
  obtain ⟨hescape, hlast⟩ := end_received hp htrack
  rw [hfinal]
  exact ⟨⟨quiet, _, hrun, length_decodeRun r (frame p), hquiet, hlast⟩, hescape⟩

theorem frame_received (t : Transmission) (r : Receiver) (hr : r.decoder.escapeNext = false) :
    Received t (decodeRun r t.bytes) ∧ (decodeFinal r t.bytes).decoder.escapeNext = false := by
  obtain ⟨hp, hbytes⟩ := t.whole
  rw [Received, hbytes]
  exact frame_read hp r hr

/-- Every packet in range goes out, if its buffer has room for the frame. -/
theorem packets_received (ps : List FusainPacket) (buffer : FusainPacket → Memory)
    (size : FusainPacket → Nat) (hps : ∀ p ∈ ps, p.length.toNat ≤ maxPayloadSize)
    (hroom : ∀ p ∈ ps, max minPacketSize (frame p).length ≤ size p) {r : Receiver}
    (hr : r.decoder.escapeNext = false) :
    ∃ chunks : List (List Step),
      decodeRun r (ps.flatMap fun p =>
        reported (fusainEncodePacket (some p) (some (buffer p)) (size p))) = chunks.flatten ∧
      List.Forall₂ (fun p chunk => Reads p (frame p) chunk) ps chunks := by
  have hbytes : (ps.flatMap fun p =>
      reported (fusainEncodePacket (some p) (some (buffer p)) (size p))) = ps.flatMap frame :=
    List.flatMap_congr fun p hp => reported_frame (buffer p) (hps p hp) (hroom p hp)
  have next : ∀ p ∈ ps, ∀ r : Receiver, r.decoder.escapeNext = false →
      (decodeFinal r (frame p)).decoder.escapeNext = false ∧ Reads p (frame p) (decodeRun r (frame p)) :=
    fun p hp r hr => (frame_read (hps p hp) r hr).symm
  rw [hbytes]
  exact (Machine.answers_flatMap receive frame ps next hr).2

/-- Streams of frames: every packet arrives once, in order, from any memory. -/
theorem round_trip (ts : List Transmission) (r : Receiver) (hr : r.decoder.escapeNext = false) :
    ∃ chunks : List (List Step),
      decodeRun r (ts.flatMap Transmission.bytes) = chunks.flatten ∧
        List.Forall₂ Received ts chunks := by
  induction ts generalizing r with
  | nil => exact ⟨[], rfl, .nil⟩
  | cons t ts ih =>
    obtain ⟨hchunk, hescape⟩ := frame_received t r hr
    obtain ⟨chunks, hrest, hall⟩ := ih (decodeFinal r t.bytes) hescape
    refine ⟨decodeRun r t.bytes :: chunks, ?_, .cons hchunk hall⟩
    rw [List.flatMap_cons, decodeRun_append, List.flatten_cons, hrest]

def request : Transmission where
  packet :=
    { zeroPacket with
      length := 3
      address := 0x7E7D
      payload := ((zeroPacket.payload.set 0 0x82).set 1 0x10).set 2 0xF6 }
  buffer := fun _ => 0
  size := 64
  sent := by decide +kernel

theorem round_trip_dirty :
    ∃ chunks : List (List Step),
      decodeRun ⟨zeroPacket, { zeroDecoder with state := stateEnd, bufferIndex := 200 }⟩
        ([request, request].flatMap Transmission.bytes) = chunks.flatten ∧
        List.Forall₂ Received [request, request] chunks :=
  round_trip [request, request] _ rfl

theorem scan_swallowed {p : FusainPacket} (hp : p.length.toNat ≤ maxPayloadSize)
    (f : Option (List (Token UInt8))) : scan scheme ⟨true, f⟩ (startByte :: enclosed p) =
      ⟨false, f.map (· ++ ⟨startByte, startByte ^^^ escXor⟩ :: tokens scheme false (enclosed p))⟩ := by
  rw [scan_cons, scanOne_pending, scan_tokens scheme _ _ (start_not_mem hp), opens_enclosed hp]
  cases f <;> simp

/-- A START behind an open escape is data, and the frame it should open is lost. -/
theorem frame_swallowed {t : Transmission} {mt : UInt8} {f : Option (List (Token UInt8))}
    {r : Receiver} (h : Tracks ⟨true, f⟩ r.packet r.decoder) (c : Step)
    (hc : (decodeRun r t.bytes).getLast? = some c) : ¬ Arrived t.packet mt c := by
  obtain ⟨hp, hbytes⟩ := t.whole
  intro harr
  have hsplit : t.bytes = (startByte :: enclosed t.packet) ++ [endByte] := hbytes.trans rfl
  have hlast : c = (receive (decodeFinal r (startByte :: enclosed t.packet)) endByte).2 := by
    rw [hsplit, decodeRun_concat, List.getLast?_concat] at hc
    exact (Option.some.inj hc).symm
  have hend := run_tracks h (startByte :: enclosed t.packet)
  rw [scan_swallowed hp] at hend
  obtain ⟨-, hres, hok⟩ := step_tracks hend endByte
  have hresult : c.result = .ok := harr.result
  subst hlast
  obtain ⟨us, tok, hus, hdel⟩ := hok hresult
  obtain ⟨hframe, rfl⟩ := arrival_end hus
  obtain ⟨ts, rfl, hts⟩ := Option.map_eq_some_iff.mp hframe
  rw [Option.map_some, respond_data lex_end, hts] at hres
  obtain ⟨l, a, q, hi, lo, e, hvs, -, ha, hq, -⟩ := verdict_ok (hres.symm.trans hresult)
  -- the swallowed START makes the frame one token too long for this LENGTH
  have hl : l = t.packet.length := by
    have hhead := hdel.length
    rw [values_append, show values [⟨endByte, endByte⟩] = [endByte] from rfl, hvs] at hhead
    exact (Option.some.inj hhead).trans harr.length
  have hlen := congrArg List.length hvs
  have hinner := congrArg List.length (values_enclosed hp)
  rw [← hts] at hlen
  simp only [values, List.length_append, List.length_cons, List.length_map, List.length_nil] at hlen
  simp only [values, List.length_map, List.length_cons, length_body hp] at hinner
  subst hl
  omega

/-- A frame opens with the only START in it. After arbitrary noise a START begins a new
frame, and a whole frame is delivered, if and only if the noise leaves no escape open. -/
theorem resync_iff (t : Transmission) (mt : UInt8) (ht : headerType t.packet.content = some mt)
    (p : FusainPacket) (d : FusainDecoder) (noise : List UInt8) :
    (t.bytes.head? = some startByte ∧ startByte ∉ t.bytes.tail) ∧
    ((decodeFinal ⟨p, fusainResetDecoder d⟩ (noise ++ [startByte])).decoder.state = stateLength ↔
      opens scheme false noise = false) ∧
    ((∃ c, (decodeRun ⟨p, fusainResetDecoder d⟩ (noise ++ t.bytes)).getLast? = some c ∧
        Arrived t.packet mt c) ↔ opens scheme false noise = false) := by
  have hframe : t.bytes = startByte :: (enclosed t.packet ++ [endByte]) :=
    t.whole.2.trans (frame_enclosed _)
  have hnoise := reset_tracks p d noise
  have hpend : (scan scheme silence noise).pending = opens scheme false noise :=
    scan_pending scheme silence noise
  refine ⟨⟨?_, ?_⟩, ?_, ?_⟩
  · rw [hframe, List.head?_cons]
  · rw [hframe, List.tail_cons]
    exact List.not_mem_append (start_not_mem t.whole.1) (by decide)
  · rw [← hpend, ← start_opens hnoise, decodeFinal, Machine.final_append]
    rfl
  rw [getLast_decodeRun _ _ (by rw [hframe]; exact List.cons_ne_nil _ _)]
  constructor
  · rintro ⟨c, hc, harr⟩
    by_contra hopen
    rw [Bool.not_eq_false] at hopen
    generalize hs : scan scheme silence noise = s at hnoise hpend
    obtain ⟨pending, f⟩ := s
    obtain rfl : pending = true := hpend.trans hopen
    exact frame_swallowed hnoise c hc harr
  · intro hclosed
    obtain ⟨⟨quiet, last, hchunk, -, -, hmatch⟩, -⟩ :=
      frame_received t _ (hnoise.pending.trans (hpend.trans hclosed))
    rw [ht] at hmatch
    exact ⟨last, by rw [hchunk, List.getLast?_concat], hmatch⟩

theorem resync_after_cut :
    (request.bytes.head? = some startByte ∧ startByte ∉ request.bytes.tail) ∧
    ((decodeFinal ⟨zeroPacket, fusainResetDecoder zeroDecoder⟩
        ([startByte, 5, escByte, 0x5E, 0] ++ [startByte])).decoder.state = stateLength ↔
      opens scheme false [startByte, 5, escByte, 0x5E, 0] = false) ∧
    ((∃ c, (decodeRun ⟨zeroPacket, fusainResetDecoder zeroDecoder⟩
        ([startByte, 5, escByte, 0x5E, 0] ++ request.bytes)).getLast? = some c ∧
        Arrived request.packet 0x10 c) ↔
      opens scheme false [startByte, 5, escByte, 0x5E, 0] = false) :=
  resync_iff request 0x10 (by decide +kernel) zeroPacket zeroDecoder _

/-- One byte of noise, an escape, hides a whole frame from an idle decoder. -/
theorem resync_fails :
    request.packet.length.toNat ≤ maxPayloadSize ∧
      headerType request.packet.content = some 0x10 ∧
      ¬ ∃ c, (decodeRun ⟨zeroPacket, fusainResetDecoder zeroDecoder⟩
        ([escByte] ++ request.bytes)).getLast? = some c ∧ c.result = .ok := by
  refine ⟨by decide +kernel, by decide +kernel, ?_⟩
  rintro ⟨c, hc, hok⟩
  have hrun : (decodeRun ⟨zeroPacket, fusainResetDecoder zeroDecoder⟩
      ([escByte] ++ request.bytes)).getLast?.map Step.result = some .incomplete := by decide +kernel
  rw [hc, Option.map_some, hok] at hrun
  cases hrun

end Fusain.RoundTrip
