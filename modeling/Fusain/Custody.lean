import Fusain.Exchange

/-!
# How long a packet object keeps its message

The decoder writes a frame into the caller's packet object as it comes in. What it has
delivered there stays as it is until the next frame starts, and the message type even
until the next message is delivered.
-/
namespace Fusain.Custody

open Decoder Delimiters Exchange History Reader Stuffing Tracking Wire

theorem decodeEnd_type {raw : UInt8} {p : FusainPacket} {d : FusainDecoder}
    (h : (decodeEnd raw p d).result ≠ .ok) : (decodeEnd raw p d).packet = p := by
  unfold decodeEnd decodeEndWith at h ⊢
  by_cases hraw : raw ≠ endByte
  · simp only [if_pos hraw]
  · simp only [if_neg hraw] at h ⊢
    by_cases hcrc : Crc.fusainCrc16 d.buffer.toList (p.length.toNat + 9) ≠ p.crc
    · simp only [if_pos hcrc]
    · simp only [if_neg hcrc] at h ⊢
      cases hmt : decodeCborMessageHeader p.payload.toList p.length.toNat with
      | none => rfl
      | some mt =>
        rw [hmt] at h
        exact absurd rfl h

theorem step_type (r : Receiver) (b : UInt8) (h : (receive r b).2.result ≠ .ok) :
    (receive r b).1.packet.msgType = r.packet.msgType := by
  have hstep : ∀ c : Step, c = (receive r b).2 → c.result ≠ .ok →
      c.packet.msgType = r.packet.msgType := by
    rintro c rfl
    simp only [receive]
    rcases data_cases b r.decoder with ⟨rfl, hesc⟩ | ⟨rfl, hesc⟩ | hdata
    · rw [decode_start hesc]
      exact fun _ => rfl
    · rw [decode_esc hesc]
      exact fun _ => rfl
    · rw [decode_switch hdata]
      generalize (if r.decoder.escapeNext then b ^^^ escXor else b) = v
      apply decodeState_cases (motive := fun c => c.result ≠ .ok →
        c.packet.msgType = r.packet.msgType)
      case length =>
        intro _ _
        unfold decodeLength
        split <;> rfl
      case payload =>
        intro _ _
        simp only [decodePayload, storePayload]
        split <;> rfl
      case stop => exact fun _ hc => congrArg _ (decodeEnd_type hc)
      all_goals
        intros
        rfl
  exact hstep _ rfl h

theorem run_type (r : Receiver) (stream : List UInt8) :
    (decodeFinal r stream).packet.msgType =
      ((accepted (decodeRun r stream)).getLast?.map FusainPacket.msgType).getD r.packet.msgType := by
  induction stream using List.reverseRecOn with
  | nil => rfl
  | append_singleton stream b ih =>
    rw [decodeFinal_concat, decodeRun_concat, accepted_append]
    by_cases hok : (receive (decodeFinal r stream) b).2.result = .ok
    · have hone : accepted [(receive (decodeFinal r stream) b).2] =
          [(receive (decodeFinal r stream) b).2.packet] := by simp [accepted, hok]
      rw [hone, List.getLast?_concat]
      rfl
    · have hnone : accepted [(receive (decodeFinal r stream) b).2] = [] := by simp [accepted, hok]
      rw [hnone, List.append_nil, ← ih]
      exact step_type _ b hok

/-- Outside any frame nothing is written before the next START. -/
theorem adrift_kept {r : Receiver} {pending : Bool} (h : Tracks ⟨pending, none⟩ r.packet r.decoder)
    (more : List UInt8) (hno : bare startByte ∉ tokens scheme pending more) :
    (decodeFinal r more).packet = r.packet ∧
      ∀ c ∈ decodeRun r more, c.result = .incomplete := by
  induction more generalizing r pending with
  | nil => exact ⟨rfl, by simp [decodeRun]⟩
  | cons b more ih =>
    obtain ⟨htrack, hres, -⟩ := step_tracks h b
    have hquiet : (receive r b).2.result = .incomplete := hres.trans (respond_outside pending b)
    have hesc : r.decoder.escapeNext = pending := h.pending
    have hidle : r.decoder.state = stateIdle := h.outside rfl
    have hstep : (receive r b).1.packet = r.packet ∧ ∃ pending', bare startByte ∉
        tokens scheme pending' more ∧
        Tracks ⟨pending', none⟩ (receive r b).1.packet (receive r b).1.decoder := by
      have hpacket : (receive r b).1.packet = (fusainDecodeByte b r.packet r.decoder).packet := rfl
      rcases lex_cases scheme pending b with ⟨rfl, rfl⟩ | ⟨rfl, rfl⟩ | ⟨t, ht⟩
      · -- START would be a token of its own
        rw [tokens_false_cons scheme scheme.flag_ne_esc, List.mem_cons, not_or] at hno
        exact absurd rfl hno.1
      · rw [tokens_false_esc] at hno
        rw [scanOne_esc] at htrack
        exact ⟨by rw [hpacket, scheme_esc, decode_esc hesc], true, hno, htrack⟩
      · rw [tokens_of_lex scheme ht, List.mem_cons, not_or] at hno
        rw [scanOne_data scheme ht] at htrack
        refine ⟨?_, false, hno.2, htrack⟩
        rw [hpacket, decode_data (t := t) (by rw [hesc, ht]),
          decodeState_idle (by exact hidle)]
    obtain ⟨hkept, pending', hno', hnext⟩ := hstep
    obtain ⟨hpacket, hall⟩ := ih hnext hno'
    refine ⟨hpacket.trans hkept, ?_⟩
    rw [decodeRun_cons, List.forall_mem_cons]
    exact ⟨hquiet, hall⟩

/-- Behind an answer the object stays as it is up to the next START, which clears the
address and nothing else. -/
theorem answer_kept {r : Receiver} (h : Tracks silence r.packet r.decoder) {more : List UInt8}
    (hno : bare startByte ∉ tokens scheme false more) :
    (decodeFinal r more).packet = r.packet ∧
      (opens scheme false more = false →
        (decodeFinal r (more ++ [startByte])).packet = { r.packet with address := 0 }) := by
  obtain ⟨hkept, -⟩ := adrift_kept h more hno
  refine ⟨hkept, fun hopen => ?_⟩
  have hescape : (decodeFinal r more).decoder.escapeNext = false := by
    rw [(run_tracks h more).pending, scan_pending]
    exact hopen
  rw [decodeFinal_concat, receive, decode_start hescape, hkept]

/-- The packet object of a caller: its message type is that of the last message accepted,
whatever has come in since; and from an answer to the next START, behind an OK or an error,
all of it stays as the answer left it. -/
theorem custody (p : FusainPacket) (d : FusainDecoder) (past : List UInt8) :
    let r := decodeFinal ⟨p, fusainResetDecoder d⟩ past
    r.packet.msgType = ((accepted (decodeRun ⟨p, fusainResetDecoder d⟩ past)).getLast?.map
        FusainPacket.msgType).getD p.msgType ∧
      ∀ c, (decodeRun ⟨p, fusainResetDecoder d⟩ past).getLast? = some c → c.result ≠ .incomplete →
        ∀ more, bare startByte ∉ tokens scheme false more →
          (decodeFinal r more).packet = c.packet ∧
            (opens scheme false more = false →
              (decodeFinal r (more ++ [startByte])).packet = { c.packet with address := 0 }) := by
  refine ⟨run_type _ past, ?_⟩
  intro c hlast hloud more hno
  obtain ⟨front, b, rfl⟩ : ∃ front b, past = front ++ [b] := by
    rcases List.eq_nil_or_concat past with rfl | ⟨front, b, h⟩
    · cases hlast
    · exact ⟨front, b, by rw [h, List.concat_eq_append]⟩
  rw [decodeRun_concat, List.getLast?_concat] at hlast
  obtain rfl := Option.some.inj hlast
  rw [decodeFinal_concat]
  obtain ⟨hstate, hescape⟩ := (decode_settles b _ _).resolve_left hloud
  exact answer_kept (tracks_idle hstate hescape) hno

end Fusain.Custody
