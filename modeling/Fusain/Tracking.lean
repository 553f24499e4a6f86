import Fusain.Decoder
import Fusain.Reader

/-!
# The decoder reads what the stream means

What decoder and packet hold between two bytes, in terms of the values of the
tokens since the last START. Each state of the machine has one step lemma; together
they say that the machine simulates the reference reader on every byte, from any
memory the machine can be in.
-/
namespace Fusain.Tracking

open Crc Decoder Reader Stuffing Wire

/-- What has been stored of a frame: LENGTH `l`, address bytes `a`, payload bytes `q`. -/
structure Held (l : UInt8) (a q : List UInt8) (p : FusainPacket) (d : FusainDecoder) : Prop where
  range : l.toNat ≤ maxPayloadSize
  length : p.length = l
  index : d.bufferIndex = 1 + a.length + q.length
  buffer : d.buffer.toList.take (1 + a.length + q.length) = l :: (a ++ q)
  address : p.address.toNat = Endian.little a
  payload : p.payload.toList.take q.length = q

/-- The state reached by the token values of a frame. -/
inductive Phase : List UInt8 → FusainPacket → FusainDecoder → Prop
  | length {p d} : d.state = stateLength → d.bufferIndex = 0 → p.address = 0 → Phase [] p d
  | address {p d} {l a} : d.state = stateAddress → Held l a [] p d → a.length < 8 →
      d.addrByteCount.toNat = a.length → Phase (l :: a) p d
  | payload {p d} {l a q} : d.state = statePayload → Held l a q p d → a.length = 8 →
      q.length < l.toNat → Phase (l :: (a ++ q)) p d
  | crc1 {p d} {l a q} : d.state = stateCrc1 → Held l a q p d → a.length = 8 →
      q.length = l.toNat → Phase (l :: (a ++ q)) p d
  | crc2 {p d} {l a q} {hi : UInt8} : d.state = stateCrc2 → Held l a q p d → a.length = 8 →
      q.length = l.toNat → p.crc = hi.toUInt16 <<< 8 → Phase (l :: (a ++ q ++ [hi])) p d
  | stop {p d} {l a q} {hi lo : UInt8} : d.state = stateEnd → Held l a q p d → a.length = 8 →
      q.length = l.toNat → p.crc.toNat = 256 * hi.toNat + lo.toNat →
      Phase (l :: (a ++ q ++ [hi, lo])) p d
  | closed {p d} {l rest} : d.state = stateIdle →
      maxPayloadSize < l.toNat ∨ l.toNat + 11 ≤ rest.length → Phase (l :: rest) p d

/-- Decoder and packet agree with the reference reader. -/
structure Tracks (s : Scan UInt8) (p : FusainPacket) (d : FusainDecoder) : Prop where
  pending : d.escapeNext = s.pending
  outside : s.frame = none → d.state = stateIdle
  inside : ∀ ts, s.frame = some ts → Phase (values ts) p d

/-- What a call does with the newest of the token values `vs`, read as `raw`. -/
structure Follows (raw : UInt8) (vs : List UInt8) (s : Step) : Prop where
  result : s.result = verdict raw vs
  phase : Phase vs s.packet s.decoder
  delivers : s.result = .ok → Delivers vs s.packet
  escape : s.decoder.escapeNext = false

theorem take_set_end {α : Type} {bs : List α} {k : Nat} (b : α) (h : k < bs.length) :
    (bs.set k b).take (k + 1) = bs.take k ++ [b] := by
  have hk : k < (bs.set k b).length := by simpa using h
  rw [List.take_succ_eq_append_getElem hk, List.getElem_set_self, List.take_set_of_le (Nat.le_refl k)]

/-- An address byte lands above the bytes before it. -/
theorem or_address {acc : UInt64} {count v : UInt8} {k : Nat} (hc : count.toNat = k) (hk : k < 8)
    (hacc : acc.toNat < 256 ^ k) :
    (acc ||| (v.toUInt64 <<< (count.toUInt64 * 8))).toNat = acc.toNat + 256 ^ k * v.toNat := by
  have hv := v.toNat_lt
  have hpow : 256 ^ k = 2 ^ (8 * k) := by rw [Nat.pow_mul]
  have hamount : (count.toUInt64 * 8).toNat = 8 * k := by
    rw [UInt64.toNat_mul, UInt8.toNat_toUInt64, hc]
    simp only [UInt64.reduceToNat]
    omega
  have hfit : v.toNat * 2 ^ (8 * k) < 2 ^ 64 := by
    have h1 : 2 ^ (8 * k) ≤ 2 ^ 56 := Nat.pow_le_pow_right (by decide) (by omega)
    calc v.toNat * 2 ^ (8 * k) ≤ 255 * 2 ^ 56 := Nat.mul_le_mul (by omega) h1
      _ < 2 ^ 64 := by decide
  have hshift : (v.toUInt64 <<< (count.toUInt64 * 8)).toNat = 2 ^ (8 * k) * v.toNat := by
    rw [UInt64.toNat_shiftLeft, hamount, UInt8.toNat_toUInt64, Nat.mod_eq_of_lt (show 8 * k < 64 by omega),
      Nat.shiftLeft_eq, Nat.mod_eq_of_lt hfit, Nat.mul_comm]
  rw [hpow] at hacc
  rw [UInt64.toNat_or, hshift, Nat.or_comm, ← Nat.two_pow_add_eq_or_of_lt hacc, hpow, Nat.add_comm]

theorem crc_join (hi lo : UInt8) :
    (hi.toUInt16 <<< 8 ||| lo.toUInt16).toNat = 256 * hi.toNat + lo.toNat := by
  have hlo : lo.toNat < 2 ^ 8 := lo.toNat_lt
  have hhi := hi.toNat_lt
  have hshift : (hi.toUInt16 <<< 8).toNat = 2 ^ 8 * hi.toNat := by
    rw [UInt16.toNat_shiftLeft, UInt8.toNat_toUInt16, Nat.shiftLeft_eq]
    simp only [UInt16.reduceToNat, Nat.reduceMod]
    omega
  rw [UInt16.toNat_or, hshift, UInt8.toNat_toUInt16, ← Nat.two_pow_add_eq_or_of_lt hlo]

/-- The header check of the C code reads the message type off the payload. -/
theorem header_eq {buffer : List UInt8} {n : Nat} (h : n ≤ buffer.length) :
    (decodeCborMessageHeader buffer n).map Prod.fst = headerType (buffer.take n) := by
  match buffer, n with
  | _, 0 => rfl
  | x :: _, 1 => simp [decodeCborMessageHeader, headerType]
  | x :: y :: rest, n + 2 =>
    simp only [decodeCborMessageHeader, List.getD_cons_zero, List.getD_cons_succ,
      List.take_succ_cons]
    by_cases hx : x = 0x82
    · subst hx
      simp only [headerType, cborArray2, cborUint8Prefix]
      by_cases hy : y ≤ 0x17
      · simp [hy]
      · by_cases hp : y = 0x18
        · cases n with
          | zero => simp [hp]
          | succ n =>
            cases rest with
            | nil => simp at h
            | cons z rest => simp [hp]
        · simp [hy, hp]
    · simp [headerType, cborArray2, hx]

section Store

variable {l v : UInt8} {a q : List UInt8} {p p' : FusainPacket} {d d' : FusainDecoder}

/-- Only three packet fields and two decoder fields hold the frame. -/
theorem Held.move (h : Held l a q p d) (hl : p'.length = p.length) (ha : p'.address = p.address)
    (hp : p'.payload = p.payload) (hb : d'.buffer = d.buffer)
    (hi : d'.bufferIndex = d.bufferIndex) : Held l a q p' d' where
  range := h.range
  length := by rw [hl, h.length]
  index := by rw [hi, h.index]
  buffer := by rw [hb, h.buffer]
  address := by rw [ha, h.address]
  payload := by rw [hp, h.payload]

theorem push_take (h : d.bufferIndex < maxPacketSize) :
    (push d v).buffer.toList.take (d.bufferIndex + 1) =
      d.buffer.toList.take d.bufferIndex ++ [v] := by
  rw [push, Vector.toList_setIfInBounds, take_set_end v (by simpa using h)]

theorem held_length (hi : d.bufferIndex = 0) (ha : p.address = 0) (hl : v.toNat ≤ maxPayloadSize) :
    Held v [] [] { p with length := v } (push d v) where
  range := hl
  length := rfl
  index := by simp [push, hi]
  buffer := by
    have h := push_take (d := d) (v := v) (by rw [hi]; decide)
    simpa [hi] using h
  address := by simp [ha, Endian.little]
  payload := rfl

theorem Held.pushAddress (h : Held l a [] p d) (ha : a.length < 8)
    (hc : d.addrByteCount.toNat = a.length) :
    Held l (a ++ [v]) []
      { p with address := p.address ||| (v.toUInt64 <<< (d.addrByteCount.toUInt64 * 8)) }
      (push d v) where
  range := h.range
  length := h.length
  index := by
    simp only [push, h.index, List.length_append, List.length_nil, List.length_cons]
    omega
  buffer := by
    have hi : d.bufferIndex = 1 + a.length := by simpa using h.index
    have ht := push_take (d := d) (v := v) (by rw [hi]; simp only [maxPacketSize]; omega)
    have hb : d.buffer.toList.take (1 + a.length) = l :: a := by simpa using h.buffer
    rw [hi, hb] at ht
    simpa [Nat.add_assoc] using ht
  address := by
    have hacc := Endian.little_lt a
    rw [← h.address] at hacc
    rw [or_address hc ha hacc, Endian.little_append, h.address]
    simp [Endian.little]
  payload := rfl

theorem Held.pushPayload (h : Held l a q p d) (ha : a.length = 8) (hq : q.length < l.toNat) :
    Held l a (q ++ [v]) (storePayload p (d.bufferIndex - 9) v) (push d v) := by
  have hr := h.range
  simp only [maxPayloadSize] at hr
  have hi : (d.bufferIndex : Int) - 9 = (q.length : Int) := by
    rw [h.index, ha]
    omega
  have hs : storePayload p (d.bufferIndex - 9) v =
      { p with payload := p.payload.setIfInBounds q.length v } := by
    simp [storePayload, hi]
  rw [hs]
  exact {
    range := h.range
    length := h.length
    index := by
      simp only [push, h.index, List.length_append, List.length_cons, List.length_nil]
      omega
    buffer := by
      have ht := push_take (d := d) (v := v) (by rw [h.index, ha]; simp only [maxPacketSize]; omega)
      rw [h.index, h.buffer] at ht
      simpa [Nat.add_assoc] using ht
    address := h.address
    payload := by
      have ht : (p.payload.toList.set q.length v).take (q.length + 1) = _ :=
        take_set_end v (by simp only [Vector.length_toList, maxPayloadSize]; omega)
      rw [h.payload] at ht
      simpa using ht }

theorem Held.content (h : Held l a q p d) (hq : q.length = l.toNat) : p.content = q := by
  rw [FusainPacket.content, h.length, ← hq, h.payload]

theorem Held.crc (h : Held l a q p d) (ha : a.length = 8) (hq : q.length = l.toNat) :
    fusainCrc16 d.buffer.toList (p.length.toNat + 9) = residue (l :: (a ++ q)) := by
  have hn : p.length.toNat + 9 = 1 + a.length + q.length := by
    rw [h.length, ha, hq]
    omega
  rw [fusainCrc16, hn, h.buffer, residue]

end Store

section States

variable {raw v : UInt8} {p : FusainPacket} {d : FusainDecoder} (hesc : d.escapeNext = false)
include hesc

theorem length_token (hs : d.state = stateLength) (hi : d.bufferIndex = 0) (ha : p.address = 0) :
    Follows raw [v] (decodeState raw v p d) := by
  rw [decodeState_length hs, decodeLength]
  by_cases hl : v.toNat > maxPayloadSize
  · rw [if_pos hl]
    refine ⟨?_, .closed rfl (.inl hl), by simp, hesc⟩
    rw [verdict_long raw [] hl, if_pos rfl]
  · rw [if_neg hl]
    have held := held_length (v := v) hi ha (by omega)
    refine ⟨?_, .address rfl (held.move rfl rfl rfl rfl rfl) (by simp) rfl, by simp, hesc⟩
    rw [verdict_incomplete raw (by omega) (by simp)]

variable {l : UInt8} {a q : List UInt8}

theorem address_token (hs : d.state = stateAddress) (h : Held l a [] p d) (ha : a.length < 8)
    (hc : d.addrByteCount.toNat = a.length) :
    Follows raw (l :: (a ++ [v])) (decodeState raw v p d) := by
  have held := h.pushAddress (v := v) ha hc
  obtain ⟨hcount, hlast⟩ := addressCount (show d.addrByteCount.toNat < 8 by omega)
  rw [hc] at hcount hlast
  have hres : verdict raw (l :: (a ++ [v])) = .incomplete :=
    verdict_incomplete raw h.range (by simp; omega)
  rw [decodeState_address hs, decodeAddress]
  refine ⟨hres.symm, ?_, by simp, hesc⟩
  by_cases h7 : a.length = 7
  · have hfull : (a ++ [v]).length = 8 := by simp [h7]
    simp only [if_pos (hlast.mpr h7)]
    have he : l :: (a ++ [v]) = l :: (a ++ [v] ++ []) := by simp
    rw [he]
    by_cases h0 : p.length = 0
    · rw [if_pos h0]
      refine .crc1 rfl (held.move rfl rfl rfl rfl rfl) hfull ?_
      rw [← h.length, h0]
      rfl
    · rw [if_neg h0]
      refine .payload rfl (held.move rfl rfl rfl rfl rfl) hfull ?_
      rw [← h.length]
      exact Nat.pos_of_ne_zero (fun he => h0 (UInt8.toNat_inj.mp he))
  · simp only [if_neg (fun hn => h7 (hlast.mp hn))]
    refine .address hs (held.move rfl rfl rfl rfl rfl) (by simp; omega) ?_
    simp [hcount]

theorem payload_token (hs : d.state = statePayload) (h : Held l a q p d) (ha : a.length = 8)
    (hq : q.length < l.toNat) :
    Follows raw (l :: (a ++ (q ++ [v]))) (decodeState raw v p d) := by
  have held := h.pushPayload (v := v) ha hq
  have hlast : d.bufferIndex + 1 ≥ p.length.toNat + 9 ↔ q.length + 1 = l.toNat := by
    rw [h.index, ha, h.length]
    omega
  have hres : verdict raw (l :: (a ++ (q ++ [v]))) = .incomplete :=
    verdict_incomplete raw h.range (by simp; omega)
  rw [decodeState_payload hs, decodePayload]
  refine ⟨hres.symm, ?_, by simp, hesc⟩
  by_cases hl : q.length + 1 = l.toNat
  · simp only [if_pos (hlast.mpr hl)]
    exact .crc1 rfl (held.move rfl rfl rfl rfl rfl) ha (by simp [hl])
  · simp only [if_neg (fun hn => hl (hlast.mp hn))]
    exact .payload hs (held.move rfl rfl rfl rfl rfl) ha (by simp; omega)

theorem crc1_token (hs : d.state = stateCrc1) (h : Held l a q p d) (ha : a.length = 8)
    (hq : q.length = l.toNat) :
    Follows raw (l :: (a ++ q ++ [v])) (decodeState raw v p d) := by
  have hres : verdict raw (l :: (a ++ q ++ [v])) = .incomplete :=
    verdict_incomplete raw h.range (by simp; omega)
  rw [decodeState_crc1 hs, decodeCrc1]
  exact ⟨hres.symm, .crc2 rfl (h.move rfl rfl rfl rfl rfl) ha hq rfl, by simp, hesc⟩

theorem crc2_token {hi : UInt8} (hs : d.state = stateCrc2) (h : Held l a q p d)
    (ha : a.length = 8) (hq : q.length = l.toNat) (hcrc : p.crc = hi.toUInt16 <<< 8) :
    Follows raw (l :: (a ++ q ++ [hi, v])) (decodeState raw v p d) := by
  have hres : verdict raw (l :: (a ++ q ++ [hi, v])) = .incomplete :=
    verdict_incomplete raw h.range (by simp; omega)
  rw [decodeState_crc2 hs, decodeCrc2]
  refine ⟨hres.symm, .stop rfl (h.move rfl rfl rfl rfl rfl) ha hq ?_, by simp, hesc⟩
  show (p.crc ||| v.toUInt16).toNat = _
  rw [hcrc, crc_join]

/-- The terminator: every outcome closes the frame. -/
theorem stop_token {hi lo : UInt8} (hs : d.state = stateEnd) (h : Held l a q p d)
    (ha : a.length = 8) (hq : q.length = l.toNat) (hcrc : p.crc.toNat = 256 * hi.toNat + lo.toNat) :
    Follows raw (l :: (a ++ q ++ [hi, lo, v])) (decodeState raw v p d) := by
  have hres := verdict_whole hi lo v ha hq raw h.range
  have closed : ∀ p' : FusainPacket,
      Phase (l :: (a ++ q ++ [hi, lo, v])) p' { d with state := stateIdle } := by
    intro p'
    exact .closed rfl (.inr (by simp; omega))
  have hcheck : fusainCrc16 d.buffer.toList (p.length.toNat + 9) ≠ p.crc ↔
      256 * hi.toNat + lo.toNat ≠ (residue (l :: (a ++ q))).toNat := by
    rw [h.crc ha hq, ← hcrc, not_iff_not, ← UInt16.toNat_inj]
    exact eq_comm
  have hheader : (decodeCborMessageHeader p.payload.toList p.length.toNat).map Prod.fst = _ :=
    header_eq (by rw [Vector.length_toList, h.length]; exact h.range)
  have hcont : p.payload.toList.take p.length.toNat = q := h.content hq
  rw [hcont] at hheader
  rw [decodeState_end hs, decodeEnd, decodeEndWith]
  by_cases hraw : raw ≠ endByte
  · rw [if_pos hraw] at hres ⊢
    exact ⟨hres.symm, closed _, by simp, hesc⟩
  · rw [if_neg hraw] at hres ⊢
    by_cases hc : 256 * hi.toNat + lo.toNat ≠ (residue (l :: (a ++ q))).toNat
    · rw [if_pos hc] at hres
      simp only [if_pos (hcheck.mpr hc)]
      exact ⟨hres.symm, closed _, by simp, hesc⟩
    · rw [if_neg hc] at hres
      simp only [if_neg (fun hn => hc (hcheck.mp hn))]
      cases hd : decodeCborMessageHeader p.payload.toList p.length.toNat with
      | none =>
        rw [hd] at hheader
        have ht : headerType q = none := hheader.symm
        rw [if_pos ht] at hres
        exact ⟨hres.symm, closed _, by simp, hesc⟩
      | some mt =>
        rw [hd] at hheader
        have ht : headerType q = some mt.1 := hheader.symm
        rw [if_neg (by rw [ht]; exact Option.some_ne_none _)] at hres
        refine ⟨hres.symm, closed _, fun _ => ?_, hesc⟩
        refine delivers_whole hi lo v ha hq h.length h.address (h.content hq) ?_ ht
        apply UInt16.toNat_inj.mp
        exact hcrc.trans (Classical.not_not.mp hc)

theorem closed_token {rest : List UInt8} (hs : d.state = stateIdle)
    (h : maxPayloadSize < l.toNat ∨ l.toNat + 11 ≤ rest.length) :
    Follows raw (l :: (rest ++ [v])) (decodeState raw v p d) := by
  rw [decodeState_idle hs]
  have hlen : (rest ++ [v]).length = rest.length + 1 := by simp
  refine ⟨Eq.symm ?_, .closed hs (by omega), by simp, hesc⟩
  by_cases hl : maxPayloadSize < l.toNat
  · rw [verdict_long raw _ hl, if_neg (by simp)]
  · exact verdict_incomplete raw (by omega) (by omega)

/-- The switch does with the next token what its place in the frame asks for. -/
theorem phase_token {vs : List UInt8} (h : Phase vs p d) :
    Follows raw (vs ++ [v]) (decodeState raw v p d) := by
  cases h with
  | length hs hi ha => exact length_token hesc hs hi ha
  | address hs held ha hc => exact address_token hesc hs held ha hc
  | payload hs held ha hq => simpa using payload_token hesc hs held ha hq
  | crc1 hs held ha hq => simpa using crc1_token hesc hs held ha hq
  | crc2 hs held ha hq hcrc => simpa using crc2_token hesc hs held ha hq hcrc
  | stop hs held ha hq hcrc => simpa using stop_token hesc hs held ha hq hcrc
  | closed hs h => exact closed_token hesc hs h

end States

/-- The escape flag is no part of what a frame has stored. -/
theorem Phase.withEscape {vs : List UInt8} {p : FusainPacket} {d : FusainDecoder} (h : Phase vs p d)
    (e : Bool) : Phase vs p { d with escapeNext := e } := by
  cases h with
  | length hs hi ha => exact .length hs hi ha
  | address hs held ha hc => exact .address hs (held.move rfl rfl rfl rfl rfl) ha hc
  | payload hs held ha hq => exact .payload hs (held.move rfl rfl rfl rfl rfl) ha hq
  | crc1 hs held ha hq => exact .crc1 hs (held.move rfl rfl rfl rfl rfl) ha hq
  | crc2 hs held ha hq hcrc => exact .crc2 hs (held.move rfl rfl rfl rfl rfl) ha hq hcrc
  | stop hs held ha hq hcrc => exact .stop hs (held.move rfl rfl rfl rfl rfl) ha hq hcrc
  | closed hs h => exact .closed hs h

theorem decode_data {b : UInt8} {t : Token UInt8} {p : FusainPacket} {d : FusainDecoder}
    (h : (lex scheme d.escapeNext b).2 = some (.data t)) :
    fusainDecodeByte b p d = decodeState t.raw t.value p { d with escapeNext := false } := by
  cases he : d.escapeNext with
  | true =>
    rw [he] at h
    have ht : t = ⟨b, b ^^^ escXor⟩ := by simpa [lex, eq_comm] using h
    simp [decode_switch (.inl he), he, ht]
  | false =>
    rw [he] at h
    by_cases hs : b = startByte
    · simp [lex, hs] at h
    · by_cases hx : b = escByte
      · simp [lex, hx, escByte, startByte] at h
      · have ht : t = ⟨b, b⟩ := by simpa [lex, hs, hx, eq_comm] using h
        simp [decode_switch (.inr ⟨hs, hx⟩), he, ht]

/-- After START the frame is fresh, whatever was in memory. -/
theorem tracks_start (p : FusainPacket) (d : FusainDecoder) :
    Tracks ⟨false, some []⟩ { p with address := 0 } { d with
      state := stateLength, bufferIndex := 0, escapeNext := false, addrByteCount := 0 } where
  pending := rfl
  outside := by simp
  inside := by
    intro ts hts
    cases hts
    exact .length rfl rfl rfl

theorem receive_start {r : Receiver} (hr : r.decoder.escapeNext = false) :
    (receive r startByte).2.result = .incomplete ∧
      Tracks ⟨false, some []⟩ (receive r startByte).1.packet (receive r startByte).1.decoder := by
  simp only [receive, decode_start hr]
  exact ⟨trivial, tracks_start _ _⟩

/-- One call of the decoder is one byte of the reference reader. -/
theorem step_tracks {s : Scan UInt8} {p : FusainPacket} {d : FusainDecoder} (h : Tracks s p d)
    (b : UInt8) :
    let c := fusainDecodeByte b p d
    Tracks (scanOne scheme s b) c.packet c.decoder ∧ c.result = respond s b ∧
      (c.result = .ok → ∃ ts t, arrival s b = some (ts, t) ∧
        Delivers (values (ts ++ [t])) c.packet) := by
  obtain ⟨pending, frame⟩ := s
  have hesc : d.escapeNext = pending := h.pending
  rcases lex_cases scheme pending b with ⟨rfl, rfl⟩ | ⟨rfl, rfl⟩ | ⟨t, ht⟩
  · -- START
    rw [scheme_flag, decode_start hesc]
    have hs := hear_start frame
    simp only [hear, Prod.mk.injEq] at hs
    rw [hs.1, hs.2]
    exact ⟨tracks_start p d, rfl, by simp⟩
  · -- an escape opens
    rw [scheme_esc, decode_esc hesc]
    have hs := hear_esc frame
    simp only [hear, Prod.mk.injEq] at hs
    rw [hs.1, hs.2]
    exact ⟨⟨rfl, h.outside, fun ts hts => (h.inside ts hts).withEscape true⟩, rfl, by simp⟩
  · -- a token
    rw [decode_data (t := t) (by rw [hesc, ht]), scanOne_data scheme (by exact ht)]
    cases frame with
    | none =>
      rw [decodeState_idle (by exact h.outside rfl), respond_outside]
      exact ⟨⟨rfl, fun _ => h.outside rfl, by simp⟩, rfl, by simp⟩
    | some ts =>
      have hphase := (h.inside ts rfl).withEscape false
      have hf : Follows t.raw (values ts ++ [t.value]) _ := phase_token rfl hphase
      have hv : values (ts ++ [t]) = values ts ++ [t.value] := by simp [values]
      refine ⟨⟨hf.escape, by simp, ?_⟩, ?_, fun hok => ⟨ts, t, ?_, ?_⟩⟩
      · intro ts' hts
        cases hts
        rw [hv]
        exact hf.phase
      · rw [respond_data (t := t) (by rw [ht])]
        exact hf.result
      · simp [arrival, ht]
      · rw [hv]
        exact hf.delivers hok

/-- The machine waits for LENGTH exactly behind a START. -/
theorem Tracks.fresh {s : Scan UInt8} {p : FusainPacket} {d : FusainDecoder} (h : Tracks s p d) :
    d.state = stateLength ↔ s.frame = some [] := by
  constructor
  · intro hs
    cases hf : s.frame with
    | none => exact absurd (hs.symm.trans (h.outside hf)) (by decide)
    | some ts =>
      have hphase := h.inside ts hf
      generalize hvs : values ts = vs at hphase
      cases hphase with
      | length => rw [List.map_eq_nil_iff.mp hvs]
      | address hs' => exact absurd (hs.symm.trans hs') (by decide)
      | payload hs' => exact absurd (hs.symm.trans hs') (by decide)
      | crc1 hs' => exact absurd (hs.symm.trans hs') (by decide)
      | crc2 hs' => exact absurd (hs.symm.trans hs') (by decide)
      | stop hs' => exact absurd (hs.symm.trans hs') (by decide)
      | closed hs' => exact absurd (hs.symm.trans hs') (by decide)
  · intro hf
    cases h.inside [] hf with
    | length hs => exact hs

/-- A START opens a frame unless an escape is open. -/
theorem start_opens {s : Scan UInt8} {r : Receiver} (h : Tracks s r.packet r.decoder) :
    (receive r startByte).1.decoder.state = stateLength ↔ s.pending = false := by
  have hnext : Tracks (scanOne scheme s startByte) (receive r startByte).1.packet
      (receive r startByte).1.decoder := (step_tracks h startByte).1
  rw [hnext.fresh]
  obtain ⟨pending, f⟩ := s
  cases pending with
  | false =>
    rw [← scheme_flag, scanOne_flag]
    exact iff_of_true rfl rfl
  | true => cases f <;> simp [scanOne_pending]

section Run

variable {s : Scan UInt8} {r : Receiver} (h : Tracks s r.packet r.decoder) (bytes : List UInt8)
include h

/-- The machine simulates the reference reader along every stream. -/
theorem run_simulates :
    Tracks (scan scheme s bytes) (decodeFinal r bytes).packet (decodeFinal r bytes).decoder ∧
      List.Forall₂ (fun (c : Step) o => c.result = o) (decodeRun r bytes)
        (Machine.answers hear s bytes) := by
  refine Machine.simulation receive hear
    (R := fun (r : Receiver) s => Tracks s r.packet r.decoder) ?_ bytes h
  intro r s b h
  exact ⟨(step_tracks h b).1, (step_tracks h b).2.1⟩

theorem run_tracks :
    Tracks (scan scheme s bytes) (decodeFinal r bytes).packet (decodeFinal r bytes).decoder :=
  (run_simulates h bytes).1

theorem run_results : (decodeRun r bytes).map Step.result = Machine.answers hear s bytes := by
  have hq := (run_simulates h bytes).2
  generalize decodeRun r bytes = cs, Machine.answers hear s bytes = os at hq
  induction hq with
  | nil => rfl
  | cons hc _ ih => rw [List.map_cons, hc, ih]

end Run

/-- A decoder that idles with no escape open is in step with silence. -/
theorem tracks_idle {p : FusainPacket} {d : FusainDecoder} (hs : d.state = stateIdle)
    (he : d.escapeNext = false) : Tracks silence p d := ⟨he, fun _ => hs, by simp [silence]⟩

/-- A reset decoder and the packet stay in step with the reader along every stream. -/
theorem reset_tracks (p : FusainPacket) (d : FusainDecoder) (past : List UInt8) :
    Tracks (scan scheme silence past) (decodeFinal ⟨p, fusainResetDecoder d⟩ past).packet
      (decodeFinal ⟨p, fusainResetDecoder d⟩ past).decoder :=
  run_tracks (r := ⟨p, fusainResetDecoder d⟩) (tracks_idle rfl rfl) past

/-- From a reset decoder the result of every byte is the one the tokens before it ask
for, and an accepted frame is delivered as it was sent. -/
theorem decode_exact (p : FusainPacket) (d : FusainDecoder) (past : List UInt8) (b : UInt8)
    (rest : List UInt8) :
    ∃ c, (decodeRun ⟨p, fusainResetDecoder d⟩ (past ++ b :: rest))[past.length]? = some c ∧
      c.result = expected past b ∧
      (c.result = .ok → ∃ ts t, arrival (scan scheme silence past) b = some (ts, t) ∧
        Delivers (values (ts ++ [t])) c.packet) := by
  have h := reset_tracks p d past
  refine ⟨_, ?_, (step_tracks h b).2⟩
  simp [decodeRun, Machine.answers_append, receive, decodeFinal]

end Fusain.Tracking
