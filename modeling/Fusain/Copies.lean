import Fusain.Tracking

/-!
# The checked copy and the delivered copy

The frame check runs over `decoder->buffer`, the caller receives the packet. Both are
written byte by byte, by different statements; from ADDRESS on they hold one frame.
-/
namespace Fusain.Copies

open Crc Decoder Endian Reader Tracking Wire

def bufferedAddress (d : FusainDecoder) : List UInt8 :=
  ((d.buffer.toList.take d.bufferIndex).drop 1).take 8

/-- What decoder and packet hold of one frame in the states from ADDRESS on. -/
structure Mirrored (p : FusainPacket) (d : FusainDecoder) : Prop where
  length : d.buffer[0] = p.length
  range : p.length.toNat ≤ maxPayloadSize
  inAddress : d.state = stateAddress →
    d.bufferIndex = 1 + d.addrByteCount.toNat ∧ d.addrByteCount.toNat < 8
  inPayload : d.state = statePayload → 9 ≤ d.bufferIndex ∧ d.bufferIndex < p.length.toNat + 9
  behindPayload : stateCrc1 ≤ d.state → d.bufferIndex = p.length.toNat + 9
  address : p.address.toNat = little (bufferedAddress d)
  addressHigh : p.address.toNat < 256 ^ (bufferedAddress d).length
  payload : ∀ j, 9 + j < d.bufferIndex → p.payload[j]? = d.buffer[9 + j]?

section Held

variable {l : UInt8} {a q : List UInt8} {p : FusainPacket} {d : FusainDecoder}

theorem held_buffered (h : Held l a q p d) : d.buffer.toList.take d.bufferIndex = l :: (a ++ q) := by
  rw [h.index, h.buffer]

theorem held_head (h : Held l a q p d) : d.buffer[0] = l := by
  have hb := congrArg (fun bs => bs[0]?) (held_buffered h)
  have hi : 0 < d.bufferIndex := by rw [h.index]; omega
  simpa [hi] using hb

theorem held_address (h : Held l a q p d) (ha : a.length = 8 ∨ a.length < 8 ∧ q = []) :
    bufferedAddress d = a := by
  rw [bufferedAddress, held_buffered h, List.drop_succ_cons, List.drop_zero]
  rcases ha with ha | ⟨ha, rfl⟩
  · rw [List.take_left' ha]
  · rw [List.append_nil, List.take_of_length_le (by omega)]

theorem held_payload (h : Held l a q p d) (ha : a.length = 8 ∨ a.length < 8 ∧ q = []) (j : Nat)
    (hj : 9 + j < d.bufferIndex) : p.payload[j]? = d.buffer[9 + j]? := by
  have hi := h.index
  have ha : a.length = 8 := by
    rcases ha with ha | ⟨ha, rfl⟩
    · exact ha
    · simp only [List.length_nil] at hi
      omega
  have hq : j < q.length := by omega
  have hp := congrArg (fun bs => bs[j]?) h.payload
  have hb := congrArg (fun bs => bs[9 + j]?) (held_buffered h)
  have hcut : (l :: (a ++ q))[9 + j]? = q[j]? := by
    rw [show 9 + j = (8 + j) + 1 by omega, List.getElem?_cons_succ,
      List.getElem?_append_right (by omega), ha, Nat.add_sub_cancel_left]
  simp only [List.getElem?_take_of_lt hq] at hp
  simp only [List.getElem?_take_of_lt hj, hcut] at hb
  rw [← Vector.getElem?_toList, ← Vector.getElem?_toList, hp, hb]

theorem held_mirrored (h : Held l a q p d) (ha : a.length = 8 ∨ a.length < 8 ∧ q = [])
    (inAddress : d.state = stateAddress →
      d.bufferIndex = 1 + d.addrByteCount.toNat ∧ d.addrByteCount.toNat < 8)
    (inPayload : d.state = statePayload → 9 ≤ d.bufferIndex ∧ d.bufferIndex < p.length.toNat + 9)
    (behindPayload : stateCrc1 ≤ d.state → d.bufferIndex = p.length.toNat + 9) : Mirrored p d where
  length := by rw [held_head h, h.length]
  range := by rw [h.length]; exact h.range
  inAddress := inAddress
  inPayload := inPayload
  behindPayload := behindPayload
  address := by rw [held_address h ha, h.address]
  addressHigh := by
    rw [held_address h ha, h.address]
    exact little_lt a
  payload := held_payload h ha

theorem held_whole (h : Held l a q p d) (ha : a.length = 8) (hq : q.length = l.toNat)
    (hs : d.state ≠ stateAddress ∧ d.state ≠ statePayload) : Mirrored p d := by
  refine held_mirrored h (.inl ha) (fun he => absurd he hs.1) (fun he => absurd he hs.2) fun _ => ?_
  rw [h.index, ha, hq, h.length]
  omega

/-- The bytes under the frame check are the message in the packet. -/
theorem held_checked (h : Held l a q p d) (ha : a.length = 8) (hq : q.length = l.toNat) :
    d.buffer.toList.take (p.length.toNat + 9) = checked p := by
  have hi : p.length.toNat + 9 = d.bufferIndex := by
    rw [h.index, ha, hq, h.length]
    omega
  have haddr : addressField p.address = a := by
    rw [addressField, h.address, ← ha, toLittle_little]
  rw [hi, held_buffered h, checked, haddr, h.content hq, h.length]

end Held

/-- Every state from ADDRESS on stores the frame twice. -/
theorem phase_mirrored {vs : List UInt8} {p : FusainPacket} {d : FusainDecoder} (h : Phase vs p d)
    (hs : stateAddress ≤ d.state) : Mirrored p d := by
  cases h with
  | length he => exact absurd hs (by rw [he]; decide)
  | address he held ha hc =>
    have hi := held.index
    simp only [List.length_nil] at hi
    refine held_mirrored held (.inr ⟨ha, rfl⟩) (fun _ => by omega) ?_ ?_
    · intro hp
      exact absurd (he.symm.trans hp) (by decide)
    · intro hc
      exact absurd hc (by rw [he]; decide)
  | payload he held ha hq =>
    refine held_mirrored held (.inl ha) ?_ (fun _ => ?_) ?_
    · intro hp
      exact absurd (he.symm.trans hp) (by decide)
    · rw [held.index, ha, held.length]
      omega
    · intro hc
      exact absurd hc (by rw [he]; decide)
  | crc1 he held ha hq => exact held_whole held ha hq (by rw [he]; decide)
  | crc2 he held ha hq => exact held_whole held ha hq (by rw [he]; decide)
  | stop he held ha hq => exact held_whole held ha hq (by rw [he]; decide)
  | closed he => exact absurd hs (by rw [he]; decide)

/-- At END all that the frame check covers is in place. -/
theorem phase_checked {vs : List UInt8} {p : FusainPacket} {d : FusainDecoder} (h : Phase vs p d)
    (hs : d.state = stateEnd) : d.buffer.toList.take (p.length.toNat + 9) = checked p := by
  cases h with
  | stop _ held ha hq => exact held_checked held ha hq
  | length he => exact absurd (he.symm.trans hs) (by decide)
  | address he => exact absurd (he.symm.trans hs) (by decide)
  | payload he => exact absurd (he.symm.trans hs) (by decide)
  | crc1 he => exact absurd (he.symm.trans hs) (by decide)
  | crc2 he => exact absurd (he.symm.trans hs) (by decide)
  | closed he => exact absurd (he.symm.trans hs) (by decide)

/-- Along every run of a reset decoder with one packet object, decoder and packet hold one
frame in the states from ADDRESS on, and at every OK the check that came out was the
check of the message delivered. -/
theorem copies_agree (p : FusainPacket) (d : FusainDecoder) (past : List UInt8) :
    let r := decodeFinal ⟨p, fusainResetDecoder d⟩ past
    (stateAddress ≤ r.decoder.state → Mirrored r.packet r.decoder) ∧
    ∀ b, let c := (receive r b).2
      c.result = .ok →
        r.decoder.buffer.toList.take (c.packet.length.toNat + 9) = checked c.packet ∧
        fusainCrc16 (checked c.packet) (c.packet.length.toNat + 9) = c.packet.crc := by
  intro r
  have htrack := reset_tracks p d past
  have inside : stateAddress ≤ r.decoder.state → ∃ vs, Phase vs r.packet r.decoder := by
    intro hs
    cases hf : (Stuffing.scan scheme silence past).frame with
    | none => exact absurd hs (by rw [htrack.outside hf]; decide)
    | some ts => exact ⟨_, htrack.inside ts hf⟩
  constructor
  · intro hs
    obtain ⟨vs, hphase⟩ := inside hs
    exact phase_mirrored hphase hs
  · intro b c hok
    obtain ⟨hs, -, hcrc, mt, hpacket⟩ := decode_ok hok
    obtain ⟨vs, hphase⟩ := inside (by rw [hs]; decide)
    have hcopy := phase_checked hphase hs
    have hc : c.packet = { r.packet with msgType := mt } := hpacket
    have hsame : checked c.packet = checked r.packet := by rw [hc]; rfl
    have hlen : c.packet.length = r.packet.length := by rw [hc]
    have hcheck : c.packet.crc = r.packet.crc := by rw [hc]
    refine ⟨by rw [hlen, hsame, hcopy], ?_⟩
    rw [hlen, hsame, hcheck, ← hcrc, fusainCrc16, ← hcopy, List.take_take, Nat.min_self, fusainCrc16]

end Fusain.Copies
