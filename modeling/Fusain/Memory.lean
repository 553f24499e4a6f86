import Fusain.History

/-!
# In-bounds access

The decoder checks no index. A session is any order of received bytes, resets and
packet objects exchanged between frames; along every session each access stays
inside its array, and the frame check reads only what the frame has written.
-/
namespace Fusain.Memory

open Decoder History Reader Stuffing Tracking Wire

inductive Op where
  | byte : UInt8 → Op
  | reset : Op
  /-- another packet object, or other contents of the same one -/
  | packet : FusainPacket → Op
  deriving DecidableEq, Repr

/-- The receiver, whether a frame is open as the caller sees it, and the indices of
`decoder->buffer` written since the last START. -/
structure Session where
  receiver : Receiver
  inFrame : Bool
  written : List Nat
  deriving DecidableEq, Repr

/-- The accesses of one operation, with the LENGTH and the written indices they meet. -/
structure Report where
  accesses : List Access
  length : UInt8
  written : List Nat
  deriving DecidableEq, Repr

def writes (accesses : List Access) : List Nat :=
  accesses.filterMap fun
    | .bufferWrite i => some i
    | _ => none

def opensFrame (b : UInt8) (d : FusainDecoder) : Bool := b == startByte && !d.escapeNext

/-- One operation. Inside a frame the caller leaves the packet object alone. -/
def act (s : Session) : Op → Session × Report
  | .byte b =>
    let c := fusainDecodeByte b s.receiver.packet s.receiver.decoder
    let start := opensFrame b s.receiver.decoder
    (⟨⟨c.packet, c.decoder⟩, start || (s.inFrame && c.result == .incomplete),
      (if start then [] else s.written) ++ writes c.accesses⟩,
      ⟨c.accesses, s.receiver.packet.length, s.written⟩)
  | .reset =>
    (⟨⟨s.receiver.packet, fusainResetDecoder s.receiver.decoder⟩, false, s.written⟩,
      ⟨[], s.receiver.packet.length, s.written⟩)
  | .packet p =>
    (if s.inFrame then s else ⟨⟨p, s.receiver.decoder⟩, false, s.written⟩,
      ⟨[], s.receiver.packet.length, s.written⟩)

def Safe (length : UInt8) (written : List Nat) : Access → Prop
  | .bufferWrite i => i < maxPacketSize
  | .payloadWrite i => 0 ≤ i ∧ i < maxPayloadSize
  | .addressShift k => k ≤ 56
  | .crcRead n => n = length.toNat + 9 ∧ n ≤ 123 ∧ ∀ i < n, i ∈ written

def AllSafe (reports : List Report) : Prop :=
  ∀ report ∈ reports, ∀ a ∈ report.accesses, Safe report.length report.written a

/-- Everything stored since START has been written since START. -/
def Covered (d : FusainDecoder) (written : List Nat) : Prop := ∀ i < d.bufferIndex, i ∈ written

/-- Between two operations: idle, or inside a frame whose bytes are all in place. -/
def Sound (s : Session) : Prop :=
  s.receiver.decoder.state = stateIdle ∨
    s.inFrame = true ∧ Covered s.receiver.decoder s.written ∧
      ∃ vs, Phase vs s.receiver.packet s.receiver.decoder

theorem Covered.push {d : FusainDecoder} {written : List Nat} (h : Covered d written) (v : UInt8) :
    Covered (push d v) (written ++ [d.bufferIndex]) := by
  intro i hi
  rcases Nat.lt_succ_iff_lt_or_eq.mp hi with hi | rfl
  · exact List.mem_append_left _ (h i hi)
  · simp

section Token

variable {vs : List UInt8} {p : FusainPacket} {d : FusainDecoder} {written : List Nat}

/-- A token is stored in bounds, and the frame check reads stored bytes only. -/
theorem phase_safe (h : Phase vs p d) (hw : Covered d written) (raw v : UInt8) :
    ∀ a ∈ (decodeState raw v p d).accesses, Safe p.length written a := by
  cases h with
  | length hs hi ha =>
    rw [decodeState_length hs, decodeLength]
    by_cases hl : v.toNat > maxPayloadSize
    · simp [if_pos hl]
    · simp [if_neg hl, Safe, hi, maxPacketSize]
  | @address p d l a hs held ha hc =>
    rw [decodeState_address hs]
    have hi := held.index
    simp only [List.length_nil] at hi
    simp only [decodeAddress, List.mem_cons, List.not_mem_nil, or_false, forall_eq_or_imp, forall_eq,
      Safe, maxPacketSize]
    omega
  | @payload p d l a q hs held ha hq =>
    rw [decodeState_payload hs]
    have hi := held.index
    have hr := held.range
    simp only [maxPayloadSize] at hr
    simp only [decodePayload, List.mem_cons, List.not_mem_nil, or_false, forall_eq_or_imp, forall_eq,
      Safe, maxPacketSize, maxPayloadSize]
    omega
  | crc1 hs held ha hq => simp [decodeState_crc1 hs, decodeCrc1]
  | crc2 hs held ha hq hcrc => simp [decodeState_crc2 hs, decodeCrc2]
  | @stop p d l a q hi lo hs held ha hq hcrc =>
    rw [decodeState_end hs]
    have hread : Safe p.length written (.crcRead (p.length.toNat + 9)) := by
      have hr := held.range
      have hindex := held.index
      simp only [maxPayloadSize] at hr
      refine ⟨rfl, by rw [held.length]; omega, fun i hlt => hw i ?_⟩
      rw [held.length] at hlt
      omega
    intro a ha'
    rw [(decodeEnd_closes raw p d).2] at ha'
    by_cases hraw : raw = endByte
    · rw [if_pos hraw] at ha'
      rw [List.mem_singleton.mp ha']
      exact hread
    · rw [if_neg hraw] at ha'
      cases ha'
  | closed hs h => simp [decodeState_idle hs]

/-- Storing a byte and writing its index go together, in whatever state. -/
theorem token_covered (hw : Covered d written) (raw v : UInt8) :
    Covered (decodeState raw v p d).decoder
      (written ++ writes (decodeState raw v p d).accesses) := by
  have same : Covered d (written ++ []) := by simpa using hw
  apply decodeState_cases (motive := fun c => Covered c.decoder (written ++ writes c.accesses))
  case idle => exact fun _ => same
  case length =>
    intro _
    by_cases hl : v.toNat > maxPayloadSize
    · rw [decodeLength, if_pos hl]
      exact same
    · rw [decodeLength, if_neg hl]
      exact hw.push v
  case address => exact fun _ => hw.push v
  case payload => exact fun _ => hw.push v
  case crc1 => exact fun _ => same
  case crc2 => exact fun _ => same
  case stop =>
    intro _
    obtain ⟨hd, ha⟩ := decodeEnd_closes raw p d
    rw [hd, ha]
    by_cases hraw : raw = endByte
    · rw [if_pos hraw]
      exact same
    · rw [if_neg hraw]
      exact same
  case unknown => exact same

end Token

theorem opensFrame_token {b : UInt8} {d : FusainDecoder} {t : Token UInt8}
    (h : (lex scheme d.escapeNext b).2 = some (.data t)) : opensFrame b d = false := by
  by_contra hopen
  simp only [opensFrame, Bool.not_eq_false, Bool.and_eq_true, beq_iff_eq, Bool.not_eq_true'] at hopen
  rw [hopen.1, hopen.2] at h
  cases h

theorem byte_sound {s : Session} (h : Sound s) (b : UInt8) :
    Sound (act s (.byte b)).1 ∧
      ∀ a ∈ (act s (.byte b)).2.accesses, Safe s.receiver.packet.length s.written a := by
  obtain ⟨⟨p, d⟩, inFrame, written⟩ := s
  have hsettle := decode_settles b p d
  rcases lex_cases scheme d.escapeNext b with ⟨hesc, rfl⟩ | ⟨hesc, rfl⟩ | ⟨t, ht⟩
  · -- START: nothing is stored yet
    have hopen : opensFrame startByte d = true := by simp [opensFrame, hesc]
    simp only [scheme_flag, act, decode_start hesc, hopen]
    refine ⟨.inr ⟨by simp, ?_, [], .length rfl rfl rfl⟩, by simp⟩
    intro i hi
    exact absurd hi (Nat.not_lt_zero i)
  · -- an escape stores nothing
    have hopen : opensFrame escByte d = false := by simp [opensFrame, escByte, startByte]
    simp only [scheme_esc, act, decode_esc hesc, hopen]
    refine ⟨?_, by simp⟩
    rcases h with hidle | ⟨hin, hw, vs, hphase⟩
    · exact .inl hidle
    · refine .inr ⟨by simpa using hin, ?_, vs, hphase.withEscape true⟩
      intro i hi
      exact List.mem_append_left _ (hw i hi)
  · have hopen := opensFrame_token (t := t) (by rw [ht])
    have hdata := decode_data (t := t) (p := p) (by rw [ht])
    simp only [act, hopen]
    rw [hdata] at hsettle ⊢
    rcases h with hidle | ⟨hin, hw, vs, hphase⟩
    · rw [decodeState_idle (by exact hidle)]
      exact ⟨.inl hidle, by simp⟩
    · have hphase := hphase.withEscape false
      have hw : Covered { d with escapeNext := false } written := hw
      refine ⟨?_, phase_safe hphase hw t.raw t.value⟩
      rcases hsettle with hquiet | hrest
      · right
        refine ⟨?_, token_covered hw t.raw t.value, _, (phase_token rfl hphase).phase⟩
        simpa [hquiet] using hin
      · exact .inl hrest.state

theorem act_sound {s : Session} (h : Sound s) (op : Op) :
    Sound (act s op).1 ∧ ∀ a ∈ (act s op).2.accesses, Safe (act s op).2.length (act s op).2.written a := by
  cases op with
  | byte b => exact byte_sound h b
  | reset => exact ⟨.inl rfl, by simp [act]⟩
  | packet p =>
    refine ⟨?_, by simp [act]⟩
    cases hin : s.inFrame with
    | true => simpa only [act, hin, if_true] using h
    | false =>
      have hidle := h.resolve_right (by simp [hin])
      simp only [act, hin, Bool.false_eq_true, if_false]
      exact .inl hidle

/-- Along every session that starts with a reset, from any memory, every access stays in
bounds and the frame check reads only what was written since START. -/
theorem memory_safe (p : FusainPacket) (d : FusainDecoder) (ops : List Op) :
    AllSafe (Machine.answers act ⟨⟨p, fusainResetDecoder d⟩, false, []⟩ ops) := by
  intro report hreport
  obtain ⟨past, op, rest, -, rfl⟩ := (Machine.mem_answers act _ ops report).mp hreport
  have hsound : Sound (Machine.final act ⟨⟨p, fusainResetDecoder d⟩, false, []⟩ past) :=
    Machine.invariant act (I := fun _ s => Sound s) (.inl rfl)
      (fun _ _ op h => (act_sound h op).1) past
  exact (act_sound hsound op).2

end Fusain.Memory
