import Fusain.Delimiters
import Fusain.Lib.CommaFree

/-!
# The many frames of one packet

A decoder accepts a packet in every way of escaping it: any byte may stand behind an
escape, and an END that is data may stand bare. The encoder chooses the one frame that
keeps END out of the data and is as short as that allows.
-/
namespace Fusain.Canonical

open CommaFree Crc Decoder Delimiters Reader RoundTrip Stuffing Tracking Wire

section Word

variable {p : FusainPacket} (hp : p.length.toNat ≤ maxPayloadSize)
include hp

/-- A raw END behind the word of a packet: only the message header can still fail. -/
theorem verdict_word (v : UInt8) : verdict endByte (p.length :: (body p ++ [v])) =
    if headerType p.content = none then .invalidStart else .ok := by
  have hlen := p.length_content hp
  have hcheck := residue_checkField (checked p)
  rw [checkField, residue_eq_zero_iff] at hcheck
  rw [body, checkField, List.append_assoc, List.cons_append, List.cons_append, List.nil_append,
    verdict_whole _ _ _ (length_addressField _) hlen _ hp, if_neg (by simp),
    if_neg (by rw [← checked]; exact not_not_intro hcheck)]

theorem word_accepted {mt : UInt8} (hmt : headerType p.content = some mt) {raw : List UInt8}
    (hword : word scheme raw = p.length :: body p) {r : Receiver}
    (h : Tracks ⟨opens scheme false raw, some (tokens scheme false raw)⟩ r.packet r.decoder) :
    Arrived p mt (receive r endByte).2 := by
  obtain ⟨-, hres, hdel⟩ := step_tracks h endByte
  obtain ⟨t, ht⟩ : ∃ t, (lex scheme (opens scheme false raw) endByte).2 = some (.data t) := by
    cases opens scheme false raw <;> exact ⟨_, rfl⟩
  have hraw := lex_raw scheme ht
  have hvalues : values (tokens scheme false raw) = p.length :: body p := hword
  rw [respond_data ht, hvalues, List.cons_append, hraw, verdict_word hp, hmt,
    if_neg (Option.some_ne_none mt)] at hres
  obtain ⟨ts, t', harr, hmsg⟩ := hdel hres
  have hts := (arrival_some harr).1
  rw [values_append, ← Option.some.inj hts, hvalues] at hmsg
  obtain ⟨hlen, haddr, hcont, hcrc⟩ := delivered hp hmsg
  exact ⟨hres, hlen, haddr, hcont, hcrc, delivered_type hp hmsg hmt⟩

/-- Only the word of the packet makes it arrive. -/
theorem accepted_word {mt : UInt8} {raw : List UInt8} {r : Receiver}
    (h : Tracks ⟨opens scheme false raw, some (tokens scheme false raw)⟩ r.packet r.decoder)
    (harr : Arrived p mt (receive r endByte).2) : word scheme raw = p.length :: body p := by
  obtain ⟨-, hres, hdel⟩ := step_tracks h endByte
  obtain ⟨ts, t, harrival, hmsg⟩ := hdel harr.result
  obtain ⟨hts, hanswer⟩ := arrival_some harrival
  obtain ⟨e, hvalues⟩ := accepted_values (hanswer.symm.trans (hres.symm.trans harr.result)) hmsg
  -- the packet that arrives has the checked part of `p` and its check
  have hchecked : checked (receive r endByte).2.packet = checked p := by
    simp only [checked, harr.length, harr.address, harr.content]
  have hcrc : (receive r endByte).2.packet.crc = residue (checked p) := by
    rw [harr.crc, fusainCrc16_eq _ _ (length_checked hp).symm]
  have hparts : values ts ++ [t.value] = checked (receive r endByte).2.packet ++
      [crcHigh (receive r endByte).2.packet.crc, crcLow (receive r endByte).2.packet.crc] ++ [e] := by
    rw [values_append] at hvalues
    rw [List.append_assoc]
    exact hvalues
  obtain ⟨hinit, -⟩ := List.append_inj' hparts rfl
  rw [hchecked, hcrc, ← Option.some.inj hts] at hinit
  exact hinit

/-- What a receiver makes of a frame, however it is escaped, with the START of another frame
behind an escape at most. -/
theorem frame_accepted {mt : UInt8} (hmt : headerType p.content = some mt) {raw : List UInt8}
    (hstart : bare startByte ∉ tokens scheme false raw) {r : Receiver}
    (hr : r.decoder.escapeNext = false) :
    (∃ c, (decodeRun r (startByte :: (raw ++ [endByte]))).getLast? = some c ∧ Arrived p mt c) ↔
      word scheme raw = p.length :: body p := by
  obtain ⟨-, htrack⟩ := receive_start hr
  have hend := run_tracks htrack raw
  rw [scan_bare scheme false (some []) hstart] at hend
  have hlast : (decodeRun r (startByte :: (raw ++ [endByte]))).getLast? =
      some (receive (decodeFinal (receive r startByte).1 raw) endByte).2 := by
    rw [← List.cons_append, decodeRun_concat, List.getLast?_concat]
    rfl
  rw [hlast]
  constructor
  · rintro ⟨c, hc, harr⟩
    cases hc
    exact accepted_word hp hend harr
  · exact fun hword => ⟨_, rfl, word_accepted hp hmt hword hend⟩

end Word

/-- From START to END, a packet with a message header arrives if and only if its word is read
back, whichever bytes stand behind an escape. Of all frames in which no END is data, the
frame of the encoder is the shortest, and no other is as short. -/
theorem encoder_shortest (t : Transmission) (raw : List UInt8)
    (hstart : bare startByte ∉ tokens scheme false raw) (r : Receiver)
    (hr : r.decoder.escapeNext = false) :
    (∀ mt, headerType t.packet.content = some mt →
      ((∃ c, (decodeRun r (startByte :: (raw ++ [endByte]))).getLast? = some c ∧
        Arrived t.packet mt c) ↔ word scheme raw = t.packet.length :: body t.packet)) ∧
      (word scheme raw = t.packet.length :: body t.packet →
        bare endByte ∉ tokens scheme false raw →
          t.bytes.length ≤ (startByte :: (raw ++ [endByte])).length ∧
            (t.bytes.length = (startByte :: (raw ++ [endByte])).length →
              startByte :: (raw ++ [endByte]) = t.bytes)) := by
  obtain ⟨hp, hbytes⟩ := t.whole
  refine ⟨fun mt hmt => frame_accepted hp hmt hstart hr, fun hword hend => ?_⟩
  have hplain : ∀ u ∈ tokens scheme false raw, u.raw = u.value → scheme.special u.value = false := by
    rintro ⟨v, v'⟩ hu hbare
    obtain rfl : v = v' := hbare
    by_contra hspecial
    rw [Bool.not_eq_false, special_iff] at hspecial
    rcases hspecial with rfl | rfl | rfl
    · exact hstart hu
    · exact hend hu
    · exact esc_not_token scheme false raw hu
  obtain ⟨hle, heq⟩ := stuff_shortest scheme false hplain
  rw [← word, hword, ← enclosed_stuff hp] at hle heq
  simp only [opened, Bool.false_eq_true, if_false] at hle heq
  rw [hbytes, frame_enclosed]
  simp only [List.length_cons, List.length_append, List.length_nil]
  refine ⟨by omega, fun hlen => ?_⟩
  rw [heq (by omega)]

def escapedThrough : List UInt8 :=
  (request.packet.length :: body request.packet).flatMap fun b => [escByte, b ^^^ escXor]

theorem encoder_shortest_escaped :
    ((∃ c, (decodeRun ⟨zeroPacket, zeroDecoder⟩ (startByte ::
        (escapedThrough ++ [endByte]))).getLast? = some c ∧ Arrived request.packet 0x10 c) ↔
      word scheme escapedThrough = request.packet.length :: body request.packet) ∧
      (word scheme escapedThrough = request.packet.length :: body request.packet →
        bare endByte ∉ tokens scheme false escapedThrough →
          request.bytes.length ≤ (startByte :: (escapedThrough ++ [endByte])).length ∧
            (request.bytes.length = (startByte :: (escapedThrough ++ [endByte])).length →
              startByte :: (escapedThrough ++ [endByte]) = request.bytes)) := by
  obtain ⟨harrives, hshortest⟩ := encoder_shortest request escapedThrough (by decide +kernel)
    ⟨zeroPacket, zeroDecoder⟩ rfl
  exact ⟨harrives 0x10 (by decide +kernel), hshortest⟩

def message (t : Transmission) : UInt8 × UInt64 × List UInt8 :=
  (t.packet.length, t.packet.address, t.packet.content)

theorem message_iff (t u : Transmission) : t.bytes = u.bytes ↔ message t = message u := by
  rw [t.whole.2, u.whole.2, frame_injective t.whole.1 u.whole.1, message, message, Prod.mk.injEq,
    Prod.mk.injEq]

theorem bytes_delimited (t : Transmission) : Delimited startByte endByte t.bytes := by
  obtain ⟨hp, hbytes⟩ := t.whole
  rw [hbytes]
  refine ⟨enclosed t.packet, frame_enclosed t.packet, ?_, end_not_mem hp⟩
  exact List.not_mem_append (start_not_mem hp) (by decide)

/-- In a series of frames a frame occurs only where one with its message was sent, and
nowhere across two of them; the series tells its messages, in order. -/
theorem series_comma_free :
    (∀ (t : Transmission) (ts : List Transmission) (before after : List UInt8),
      before ++ t.bytes ++ after = ts.flatMap Transmission.bytes ↔
        ∃ earlier u later, ts = earlier ++ u :: later ∧
          before = earlier.flatMap Transmission.bytes ∧ message t = message u ∧
          after = later.flatMap Transmission.bytes) ∧
    (∀ ts us : List Transmission,
      ts.flatMap Transmission.bytes = us.flatMap Transmission.bytes ↔
        ts.map message = us.map message) := by
  constructor
  · intro t ts before after
    rw [occurrence bytes_delimited]
    simp only [message_iff]
  · exact series_inj bytes_delimited message_iff

end Fusain.Canonical
