import Fusain.Tracking

/-!
# The decoder forgets

Whatever is left in memory by earlier frames is overwritten before it is used. Every
result but INCOMPLETE leaves the decoder idle with no escape open, and from there
on two histories can no longer be told apart, with or without a reset in between.
-/
namespace Fusain.History

open Decoder Reader Stuffing Tracking Wire

structure Rested (d : FusainDecoder) : Prop where
  state : d.state = stateIdle
  escape : d.escapeNext = false

/-- The call says nothing yet, or it leaves the decoder at rest. -/
def Settles (c : Step) : Prop := c.result = .incomplete ∨ Rested c.decoder

theorem decodeState_settles (rxByte byte : UInt8) (p : FusainPacket) {d : FusainDecoder}
    (h : d.escapeNext = false) : Settles (decodeState rxByte byte p d) := by
  have rest : Rested { d with state := stateIdle } := ⟨rfl, h⟩
  apply decodeState_cases
  case length =>
    intro _
    by_cases hl : byte.toNat > maxPayloadSize
    · rw [decodeLength, if_pos hl]
      exact .inr rest
    · rw [decodeLength, if_neg hl]
      exact .inl rfl
  case stop =>
    intro _
    right
    rw [(decodeEnd_closes rxByte p d).1]
    exact rest
  case unknown => exact .inr rest
  all_goals
    intro _
    exact .inl rfl

/-- From any memory at all, also with a state the machine does not know. -/
theorem decode_settles (b : UInt8) (p : FusainPacket) (d : FusainDecoder) :
    Settles (fusainDecodeByte b p d) := by
  rcases data_cases b d with ⟨rfl, hesc⟩ | ⟨rfl, hesc⟩ | hdata
  · rw [decode_start hesc]
    exact .inl rfl
  · rw [decode_esc hesc]
    exact .inl rfl
  · rw [decode_switch hdata]
    exact decodeState_settles _ _ _ rfl

structure SameOutcome (c c' : Step) : Prop where
  result : c.result = c'.result
  message : c.result = .ok → SameMessage c.packet c'.packet

def Alike (r r' : Receiver) : Prop :=
  ∃ s, Tracks s r.packet r.decoder ∧ Tracks s r'.packet r'.decoder

/-- A caller that may reset the decoder after any result but INCOMPLETE. -/
def attend (r : Receiver) (input : UInt8 × Bool) : Receiver × Step :=
  let c := fusainDecodeByte input.1 r.packet r.decoder
  let decoder :=
    if c.result ≠ .incomplete ∧ input.2 = true then fusainResetDecoder c.decoder else c.decoder
  (⟨c.packet, decoder⟩, c)

/-- In state IDLE the stored frame is over, and a reset changes nothing that matters. -/
theorem tracks_reset {s : Scan UInt8} {p : FusainPacket} {d : FusainDecoder} (h : Tracks s p d)
    (hd : Rested d) : Tracks s p (fusainResetDecoder d) where
  pending := by rw [← h.pending, hd.escape]; rfl
  outside := fun _ => rfl
  inside := by
    intro ts hts
    have hphase := h.inside ts hts
    have hidle := hd.state
    generalize values ts = vs at hphase
    cases hphase with
    | closed hs hend => exact .closed rfl hend
    | length hs => exact absurd (hs.symm.trans hidle) (by decide)
    | address hs => exact absurd (hs.symm.trans hidle) (by decide)
    | payload hs => exact absurd (hs.symm.trans hidle) (by decide)
    | crc1 hs => exact absurd (hs.symm.trans hidle) (by decide)
    | crc2 hs => exact absurd (hs.symm.trans hidle) (by decide)
    | stop hs => exact absurd (hs.symm.trans hidle) (by decide)

theorem same_outcome {r r' : Receiver} (h : Alike r r') (b : UInt8) :
    SameOutcome (receive r b).2 (receive r' b).2 := by
  obtain ⟨s, h, h'⟩ := h
  obtain ⟨-, hres, hok⟩ := step_tracks h b
  obtain ⟨-, hres', hok'⟩ := step_tracks h' b
  refine ⟨hres.trans hres'.symm, fun hc => ?_⟩
  obtain ⟨ts, t, hat, hdel⟩ := hok hc
  obtain ⟨ts', t', hat', hdel'⟩ := hok' (hres'.trans (hres.symm.trans hc))
  rw [hat] at hat'
  cases hat'
  exact hdel.agree hdel'

/-- A reset after a result is one way to stay in step. -/
theorem attend_tracks {s : Scan UInt8} {r : Receiver} (h : Tracks s r.packet r.decoder) (b : UInt8)
    (reset : Bool) : Tracks (scanOne scheme s b) (attend r (b, reset)).1.packet
      (attend r (b, reset)).1.decoder := by
  have hnext := (step_tracks h b).1
  by_cases hc : (fusainDecodeByte b r.packet r.decoder).result ≠ .incomplete ∧ reset = true
  · simp only [attend, if_pos hc]
    exact tracks_reset hnext ((decode_settles b r.packet r.decoder).resolve_left hc.1)
  · simp only [attend, if_neg hc]
    exact hnext

theorem attend_alike {r r' : Receiver} (h : Alike r r') (b : UInt8) (reset reset' : Bool) :
    Alike (attend r (b, reset)).1 (attend r' (b, reset')).1 := by
  obtain ⟨s, h, h'⟩ := h
  exact ⟨scanOne scheme s b, attend_tracks h b reset, attend_tracks h' b reset'⟩

theorem attend_plain (r : Receiver) (b : UInt8) : attend r (b, false) = receive r b := by
  simp [attend, receive]

theorem alike_rested {r r' : Receiver} (h : Rested r.decoder) (h' : Rested r'.decoder) :
    Alike r r' := ⟨silence, tracks_idle h.state h.escape, tracks_idle h'.state h'.escape⟩

/-- Resets chosen differently in two runs on one stream are never told apart. -/
theorem resets_unseen {r r' : Receiver} (h : Alike r r') (inputs : List (UInt8 × Bool × Bool)) :
    List.Forall₂ SameOutcome
      (Machine.answers attend r (inputs.map fun i => (i.1, i.2.1)))
      (Machine.answers attend r' (inputs.map fun i => (i.1, i.2.2))) := by
  induction inputs generalizing r r' with
  | nil => exact .nil
  | cons i inputs ih =>
    obtain ⟨b, reset, reset'⟩ := i
    exact .cons (same_outcome h b) (ih (attend_alike h b reset reset'))

/-- Every result but INCOMPLETE leaves the decoder at rest, and two decoders at rest
give the same results and messages on every stream, whatever their memory holds and
wherever resets are made or left out. -/
theorem history_unobservable :
    (∀ (b : UInt8) (p : FusainPacket) (d : FusainDecoder),
      (∀ a ∈ (fusainDecodeByte b p d).accesses, a.InBounds) →
      (fusainDecodeByte b p d).result ≠ .incomplete → Rested (fusainDecodeByte b p d).decoder) ∧
    (∀ r r' : Receiver, Rested r.decoder → Rested r'.decoder → ∀ bytes : List UInt8,
      List.Forall₂ SameOutcome (decodeRun r bytes) (decodeRun r' bytes)) ∧
    (∀ r r' : Receiver, Rested r.decoder → Rested r'.decoder →
      ∀ inputs : List (UInt8 × Bool × Bool), List.Forall₂ SameOutcome
        (Machine.answers attend r (inputs.map fun i => (i.1, i.2.1)))
        (Machine.answers attend r' (inputs.map fun i => (i.1, i.2.2)))) := by
  refine ⟨fun b p d _ hc => (decode_settles b p d).resolve_left hc, ?_, ?_⟩
  · intro r r' h h' bytes
    have hsim := Machine.simulation receive receive (R := Alike) (Q := SameOutcome)
      (fun r r' b hr => ⟨by simpa only [attend_plain] using attend_alike hr b false false,
        same_outcome hr b⟩) bytes (alike_rested h h')
    exact hsim.2
  · intro r r' h h' inputs
    exact resets_unseen (alike_rested h h') inputs

end Fusain.History
