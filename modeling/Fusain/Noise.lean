import Fusain.History
import Fusain.RoundTrip

/-!
# Frames among noise

Streams in which anything may stand between the frames. All that noise can do to the
frame behind it is to leave an escape open; the frame itself closes it, so that nothing
is handed on to the frames behind.
-/
namespace Fusain.Noise

open Decoder History Reader RoundTrip Stuffing Tracking Wire

theorem opens_bytes (t : Transmission) (pending : Bool) : opens scheme pending t.bytes = false := by
  rw [t.whole.2, frame_enclosed, ← List.cons_append]
  exact opens_concat scheme pending _ (by decide)

abbrev Segment := List UInt8 × Transmission

def Segment.bytes (g : Segment) : List UInt8 := g.1 ++ g.2.bytes

/-- The answers to a segment: its last byte delivers the packet if and only if the noise
leaves no escape open and the payload has a message header. -/
def Heard (g : Segment) (chunk : List Step) : Prop :=
  chunk.length = g.bytes.length ∧
    ((∃ mt c, headerType g.2.packet.content = some mt ∧ chunk.getLast? = some c ∧
        Arrived g.2.packet mt c) ↔
      opens scheme false g.1 = false ∧ headerType g.2.packet.content ≠ none)

/-- The receiver is in step with a reader that has no escape open. -/
def Ready (r : Receiver) : Prop := ∃ s, Tracks s r.packet r.decoder ∧ s.pending = false

theorem Ready.escape {r : Receiver} (h : Ready r) : r.decoder.escapeNext = false := by
  obtain ⟨s, htrack, hpend⟩ := h
  exact htrack.pending.trans hpend

theorem ready_reset (p : FusainPacket) (d : FusainDecoder) : Ready ⟨p, fusainResetDecoder d⟩ :=
  ⟨silence, tracks_idle rfl rfl, rfl⟩

/-- Bytes that leave no escape open leave the receiver ready. -/
theorem Ready.after {r : Receiver} (h : Ready r) {bytes : List UInt8}
    (hopen : opens scheme false bytes = false) : Ready (decodeFinal r bytes) := by
  obtain ⟨s, htrack, hpend⟩ := h
  exact ⟨_, run_tracks htrack bytes, by rw [scan_pending, hpend, hopen]⟩

theorem opens_segment (g : Segment) : opens scheme false g.bytes = false := by
  rw [Segment.bytes, opens_append]
  exact opens_bytes g.2 _

theorem segment_heard (g : Segment) {r : Receiver} (h : Ready r) : Heard g (decodeRun r g.bytes) := by
  obtain ⟨noise, t⟩ := g
  obtain ⟨s, htrack, hpend⟩ := h
  have hnoise := run_tracks htrack noise
  have hopen : (scan scheme s noise).pending = opens scheme false noise := by
    rw [scan_pending, hpend]
  have hne : t.bytes ≠ [] := by
    rw [t.whole.2]
    exact List.cons_ne_nil _ _
  refine ⟨length_decodeRun r _, ?_⟩
  simp only [Segment.bytes]
  rw [getLast_decodeRun _ _ hne]
  cases hp : opens scheme false noise with
  | false =>
    have hescape : (decodeFinal r noise).decoder.escapeNext = false :=
      hnoise.pending.trans (hopen.trans hp)
    obtain ⟨⟨quiet, last, hchunk, -, -, hmatch⟩, -⟩ := frame_received t _ hescape
    rw [hchunk, List.getLast?_concat]
    cases hmt : headerType t.packet.content with
    | none => simp
    | some mt =>
      rw [hmt] at hmatch
      exact iff_of_true ⟨mt, last, rfl, rfl, hmatch⟩ ⟨rfl, Option.some_ne_none mt⟩
  | true =>
    rw [hp] at hopen
    generalize scan scheme s noise = s' at hnoise hopen
    obtain ⟨pending, f⟩ := s'
    obtain rfl : pending = true := hopen
    refine iff_of_false ?_ (by simp)
    rintro ⟨mt, c, -, hc, harr⟩
    exact frame_swallowed hnoise c hc harr

/-- In a stream of frames with arbitrary noise between them, each frame is delivered at its
last byte if and only if the noise right in front of it leaves no escape open; what came
before makes no difference. -/
theorem frames_among_noise (segments : List Segment) (p : FusainPacket) (d : FusainDecoder) :
    ∃ chunks : List (List Step),
      decodeRun ⟨p, fusainResetDecoder d⟩ (segments.flatMap Segment.bytes) = chunks.flatten ∧
        List.Forall₂ Heard segments chunks := by
  have next : ∀ g ∈ segments, ∀ r, Ready r →
      Ready (decodeFinal r g.bytes) ∧ Heard g (decodeRun r g.bytes) :=
    fun g _ r h => ⟨h.after (opens_segment g), segment_heard g h⟩
  exact (Machine.answers_flatMap receive Segment.bytes segments next (ready_reset p d)).2

theorem frames_received (ts : List Transmission) {r : Receiver} (h : r.decoder.escapeNext = false) :
    ∃ chunks : List (List Step), decodeRun r (ts.flatMap Transmission.bytes) = chunks.flatten ∧
      List.Forall₂ Received ts chunks := by
  have next : ∀ t ∈ ts, ∀ r : Receiver, r.decoder.escapeNext = false →
      (decodeFinal r t.bytes).decoder.escapeNext = false ∧ Received t (decodeRun r t.bytes) :=
    fun t _ r h => (frame_received t r h).symm
  exact (Machine.answers_flatMap receive Transmission.bytes ts next h).2

theorem alike_run {r r' : Receiver} (h : Alike r r') (bytes : List UInt8) :
    List.Forall₂ SameOutcome (decodeRun r bytes) (decodeRun r' bytes) := by
  refine (Machine.simulation receive receive (R := Alike) (Q := SameOutcome) ?_ bytes h).2
  intro r r' b hr
  obtain ⟨s, htrack, htrack'⟩ := hr
  exact ⟨⟨scanOne scheme s b, (step_tracks htrack b).1, (step_tracks htrack' b).1⟩,
    same_outcome ⟨s, htrack, htrack'⟩ b⟩

/-- Two receivers with different pasts, one of them perhaps just switched on, agree on every
result and every message behind the first START that follows a byte other than ESC. -/
theorem late_joiner (p p' : FusainPacket) (d d' : FusainDecoder) (past past' : List UInt8)
    (b : UInt8) (hb : b ≠ escByte) (bytes : List UInt8) :
    List.Forall₂ SameOutcome
      (decodeRun (decodeFinal ⟨p, fusainResetDecoder d⟩ (past ++ [b, startByte])) bytes)
      (decodeRun (decodeFinal ⟨p', fusainResetDecoder d'⟩ (past' ++ [b, startByte])) bytes) := by
  have fresh : ∀ (p : FusainPacket) (d : FusainDecoder) (past : List UInt8),
      Tracks ⟨false, some []⟩ (decodeFinal ⟨p, fusainResetDecoder d⟩ (past ++ [b, startByte])).packet
        (decodeFinal ⟨p, fusainResetDecoder d⟩ (past ++ [b, startByte])).decoder := by
    intro p d past
    have hescape := ((ready_reset p d).after (opens_concat scheme false past hb)).escape
    have hcut : past ++ [b, startByte] = (past ++ [b]) ++ [startByte] := by simp
    rw [hcut, decodeFinal_concat]
    exact (receive_start hescape).2
  exact alike_run ⟨⟨false, some []⟩, fresh p d past, fresh p' d' past'⟩ bytes

/-- One receiver has heard nothing before, the other is left in the middle of a frame. -/
theorem late_joiner_cut :
    List.Forall₂ SameOutcome
      (decodeRun (decodeFinal ⟨zeroPacket, fusainResetDecoder zeroDecoder⟩ ([] ++ [0, startByte]))
        request.bytes)
      (decodeRun (decodeFinal ⟨zeroPacket, fusainResetDecoder zeroDecoder⟩
        ([startByte, 5, escByte] ++ [0, startByte])) request.bytes) :=
  late_joiner zeroPacket zeroPacket zeroDecoder zeroDecoder [] [startByte, 5, escByte] 0 (by decide)
    request.bytes

end Fusain.Noise
