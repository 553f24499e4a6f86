import Fusain.RoundTrip

/-!
# What delimits a frame on the wire

The encoder keeps START, END and ESC out of everything between LENGTH and END, so a
frame can be cut out of a stream by its delimiters and no two packets share one. The
decoder needs less: it finds the end of a frame by LENGTH, and takes an END that comes
before it as data.
-/
namespace Fusain.Delimiters

open Crc Decoder Endian Reader RoundTrip Stuffing Tracking Wire

/-- START first and END last, neither anywhere else, and behind ESC one of the three hidden
bytes. -/
structure Transparent (bytes : List UInt8) : Prop where
  start : bytes.head? = some startByte ∧ startByte ∉ bytes.tail
  stop : bytes.getLast? = some endByte ∧ endByte ∉ bytes.dropLast
  escape : ∀ i, bytes[i]? = some escByte →
    ∃ x, bytes[i + 1]? = some x ∧ (x = 0x5D ∨ x = 0x5E ∨ x = 0x5F)

theorem masked {b : UInt8} (h : scheme.special b = true) :
    scheme.mask b = 0x5D ∨ scheme.mask b = 0x5E ∨ scheme.mask b = 0x5F := by
  rcases (special_iff b).mp h with rfl | rfl | rfl <;> decide

section Frame

variable {p q : FusainPacket} (hp : p.length.toNat ≤ maxPayloadSize)
include hp

theorem frame_transparent : Transparent (frame p) where
  start := by
    refine ⟨rfl, ?_⟩
    rw [frame_enclosed, List.tail_cons]
    exact List.not_mem_append (start_not_mem hp) (by decide)
  stop := by
    rw [frame_enclosed, ← List.cons_append]
    refine ⟨List.getLast?_concat .., ?_⟩
    rw [List.dropLast_concat, List.mem_cons, not_or]
    exact ⟨by decide, end_not_mem hp⟩
  escape := by
    intro i hi
    rw [frame_enclosed, enclosed_stuff hp] at hi ⊢
    cases i with
    | zero => exact absurd (Option.some.inj hi) (by decide)
    | succ i =>
      rw [List.getElem?_cons_succ] at hi ⊢
      by_cases hlt : i < (stuff scheme (p.length :: body p)).length
      · rw [List.getElem?_append_left hlt] at hi
        obtain ⟨b, hs, hb⟩ := esc_followed scheme hi
        obtain ⟨hlt', -⟩ := List.getElem?_eq_some_iff.mp hb
        exact ⟨scheme.mask b, by rw [List.getElem?_append_left hlt', hb], masked hs⟩
      · -- only END is left
        rw [List.getElem?_append_right (by omega)] at hi
        have hend := List.mem_of_getElem? hi
        exact absurd (List.mem_singleton.mp hend) (by decide)

theorem frame_injective (hq : q.length.toNat ≤ maxPayloadSize) :
    frame p = frame q ↔
      p.length = q.length ∧ p.address = q.address ∧ p.content = q.content := by
  constructor
  · intro h
    rw [frame_enclosed, frame_enclosed, enclosed_stuff hp, enclosed_stuff hq] at h
    have hstuff := List.append_cancel_right (List.cons.inj h).2
    obtain ⟨hlen, hbody⟩ := List.cons.inj (stuff_injective scheme hstuff)
    have hcontent : p.content.length = q.content.length := by
      rw [p.length_content hp, q.length_content hq, hlen]
    obtain ⟨hfields, -⟩ := List.append_inj hbody (by simp [hcontent])
    obtain ⟨haddr, hcont⟩ := List.append_inj hfields (by simp)
    refine ⟨hlen, UInt64.toNat_inj.mp ?_, hcont⟩
    rw [← little_addressField, haddr, little_addressField]
  · rintro ⟨hlen, haddr, hcont⟩
    simp only [frame, body, checked, hlen, haddr, hcont]

theorem frame_prefix (hq : q.length.toNat ≤ maxPayloadSize) (h : frame p <+: frame q) :
    frame p = frame q := by
  rw [frame_enclosed, frame_enclosed, List.cons_prefix_cons] at h
  rw [frame_enclosed, frame_enclosed,
    terminated_prefix (end_not_mem hp) (end_not_mem hq) h.2]

end Frame

/-- What the encoder writes for a packet is transparent; two outputs are equal for equal
messages only, and neither is cut short by the other. -/
theorem encoder_transparent (t u : Transmission) :
    Transparent t.bytes ∧
    (t.bytes = u.bytes ↔ t.packet.length = u.packet.length ∧
      t.packet.address = u.packet.address ∧ t.packet.content = u.packet.content) ∧
    (t.bytes <+: u.bytes → t.bytes = u.bytes) ∧ (u.bytes <+: t.bytes → u.bytes = t.bytes) := by
  obtain ⟨ht, htb⟩ := t.whole
  obtain ⟨hu, hub⟩ := u.whole
  rw [htb, hub]
  exact ⟨frame_transparent ht, frame_injective ht hu, frame_prefix ht hu, frame_prefix hu ht⟩

/-- An accepted frame is the message delivered with its check, and a terminator. -/
theorem accepted_values {raw : UInt8} {vs : List UInt8} {p : FusainPacket}
    (hv : verdict raw vs = .ok) (h : Delivers vs p) :
    ∃ e, vs = checked p ++ [crcHigh p.crc, crcLow p.crc, e] := by
  obtain ⟨l, a, q, hi, lo, e, rfl, -, ha, hq, -, hcrc, -⟩ := verdict_ok hv
  have hlen : p.length = l := (Option.some.inj h.length).symm
  have haddr : addressField p.address = a := by
    rw [addressField, h.address, List.append_assoc, whole_address ha, ← ha, toLittle_little]
  have hcont : p.content = q := by rw [h.content, hlen, whole_content hi lo e ha hq]
  have hchecked : checked p = l :: (a ++ q) := by rw [checked, hlen, haddr, hcont]
  have hsum : 256 * (crcHigh p.crc).toNat + (crcLow p.crc).toNat = 256 * hi.toNat + lo.toNat := by
    rw [crc_split, hcrc, h.crc, hlen, whole_crc hi lo e ha hq]
  -- the check has one high and one low byte
  have hlow := lo.toNat_lt
  have hlow' := (crcLow p.crc).toNat_lt
  have hhi : crcHigh p.crc = hi := UInt8.toNat_inj.mp (by omega)
  have hlo : crcLow p.crc = lo := UInt8.toNat_inj.mp (by omega)
  exact ⟨e, by rw [hchecked, hhi, hlo]; simp⟩

/-- The token of a byte outside an escape pair. -/
def bare (b : UInt8) : Token UInt8 := ⟨b, b⟩

/-- The encoder writes END bare at the end of a frame only. The decoder accepts on a raw
END only; every token between the START of the frame and this END is data of the message
delivered, a bare END among them like any other byte. -/
theorem end_of_frame (t : Transmission) (p : FusainPacket) (d : FusainDecoder)
    (past : List UInt8) (b : UInt8) :
    (t.bytes = startByte :: t.packet.length :: ((body t.packet).flatMap fun x =>
        if x = startByte ∨ x = endByte ∨ x = escByte then [escByte, x ^^^ escXor] else [x]) ++
          [endByte] ∧
      endByte ∉ t.bytes.dropLast) ∧
    let c := (receive (decodeFinal ⟨p, fusainResetDecoder d⟩ past) b).2
    c.result = .ok → b = endByte ∧ ∃ before raw, past = before ++ startByte :: raw ∧
      opens scheme false before = false ∧ bare startByte ∉ tokens scheme false raw ∧
      word scheme raw = checked c.packet ++ [crcHigh c.packet.crc, crcLow c.packet.crc] ∧
      ∀ i : Nat, (tokens scheme false raw)[i]? = some (bare endByte) →
        (checked c.packet ++ [crcHigh c.packet.crc, crcLow c.packet.crc])[i]? = some endByte := by
  obtain ⟨ht, hbytes⟩ := t.whole
  refine ⟨⟨?_, hbytes ▸ (frame_transparent ht).stop.2⟩, ?_⟩
  · have hone : stuffOne scheme = fun x =>
        if x = startByte ∨ x = endByte ∨ x = escByte then [escByte, x ^^^ escXor] else [x] := by
      funext x
      simp only [stuffOne, special_iff, scheme_esc, scheme_mask]
    rw [hbytes, frame, stuff, hone]
    simp
  · intro c hok
    have htrack := reset_tracks p d past
    obtain ⟨-, hb, -⟩ := decode_ok hok
    obtain ⟨-, hres, hdel⟩ := step_tracks htrack b
    obtain ⟨ts, tok, harr, hmsg⟩ := hdel hok
    obtain ⟨hframe, hanswer⟩ := arrival_some harr
    obtain ⟨e, he⟩ := accepted_values (hanswer.symm.trans (hres.symm.trans hok)) hmsg
    obtain ⟨before, raw, hpast, hopen, rfl, hflag⟩ := scan_frame scheme hframe
    have hword : word scheme raw = checked c.packet ++ [crcHigh c.packet.crc, crcLow c.packet.crc] := by
      have hcut : values (tokens scheme false raw) ++ [tok.value] =
          checked c.packet ++ [crcHigh c.packet.crc, crcLow c.packet.crc] ++ [e] := by
        rw [values_append] at he
        rw [List.append_assoc]
        exact he
      exact (List.append_inj' hcut rfl).1
    refine ⟨hb, before, raw, hpast, hopen, hflag, hword, fun i hi => ?_⟩
    rw [← hword, word, List.getElem?_map, hi]
    rfl

/-- END as a delimiter only: the accepting byte is an END behind no open escape, and the
first bare END since START. -/
def EndDelimits (past : List UInt8) (b : UInt8) : Prop :=
  b = endByte ∧ opens scheme false past = false ∧
    ∀ before raw, past = before ++ startByte :: raw → opens scheme false before = false →
      bare startByte ∉ tokens scheme false raw → bare endByte ∉ tokens scheme false raw

def bareAddress : List UInt8 := [0x7E, 3, 0x7F, 0, 0, 0, 0, 0, 0, 0, 0x82, 0x10, 0xF6, 0x68, 0x57]

def escapedStop : List UInt8 := [0x7E, 3, 1, 0, 0, 0, 0, 0, 0, 0, 0x82, 0x10, 0xF6, 0x80, 0xBF, 0x7D]

theorem end_not_delimiter :
    ((receive (decodeFinal ⟨zeroPacket, fusainResetDecoder zeroDecoder⟩ bareAddress) 0x7F).2.result =
        .ok ∧ ¬ EndDelimits bareAddress 0x7F) ∧
    ((receive (decodeFinal ⟨zeroPacket, fusainResetDecoder zeroDecoder⟩ escapedStop) 0x7F).2.result =
        .ok ∧ ¬ EndDelimits escapedStop 0x7F) := by
  refine ⟨⟨by decide +kernel, ?_⟩, by decide +kernel, ?_⟩
  · rintro ⟨-, -, h⟩
    exact h [] _ rfl rfl (by decide) (by decide)
  · rintro ⟨-, h, -⟩
    exact absurd h (by decide)

end Fusain.Delimiters
