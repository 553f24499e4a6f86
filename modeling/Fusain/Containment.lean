import Fusain.Faults
import Fusain.Noise
import Fusain.Pace

/-!
# Faults do not spread

Streams of frames in which any number of frames suffer a fault, but no two neighbours
do, and none forges a START. A fault costs its own frame at most and, if it leaves an escape
open behind END or in its place, the one behind it. It never makes the decoder deliver
anything that was not sent, nor anything twice or out of turn.
-/
namespace Fusain.Containment

open Decoder Faults History Noise Pace Reader RoundTrip Stuffing Tracking Wire

theorem frame_rests (t : Transmission) {r : Receiver} (h : r.decoder.escapeNext = false) :
    Rested (decodeFinal r t.bytes).decoder ∧ Received t (decodeRun r t.bytes) := by
  obtain ⟨hreceived, -⟩ := frame_received t r h
  refine ⟨?_, hreceived⟩
  obtain ⟨quiet, last, hchunk, -, -, hmatch⟩ := hreceived
  have hsplit : t.bytes = (startByte :: enclosed t.packet) ++ [endByte] := t.whole.2.trans rfl
  rw [hsplit, decodeRun_concat] at hchunk
  obtain ⟨-, hlast⟩ := List.append_inj' hchunk rfl
  obtain ⟨rfl, -⟩ := List.cons.inj hlast
  have hloud : (receive (decodeFinal r (startByte :: enclosed t.packet)) endByte).2.result ≠
      .incomplete := by
    cases hmt : headerType t.packet.content with
    | none =>
      rw [hmt] at hmatch
      rw [show _ = FusainDecodeResult.invalidStart from hmatch]
      simp
    | some mt =>
      rw [hmt] at hmatch
      rw [hmatch.result]
      simp
  rw [hsplit, decodeFinal_concat]
  exact (decode_settles endByte _ _).resolve_left hloud

theorem rested_tracks {r : Receiver} (h : Rested r.decoder) : Tracks silence r.packet r.decoder :=
  tracks_idle h.state h.escape

/-- All tokens up to the check have been read, if not more. -/
def Spent (ts : List (Token UInt8)) : Prop :=
  ∃ l rest, values ts = l :: rest ∧ l.toNat ≤ maxPayloadSize ∧ l.toNat + 10 ≤ rest.length

theorem phase_spent {l : UInt8} {rest : List UInt8} {p : FusainPacket} {d : FusainDecoder}
    (h : Phase (l :: rest) p d) (hrest : l.toNat + 11 ≤ rest.length) : d.state = stateIdle := by
  cases h with
  | address hs held ha hc => omega
  | payload hs held ha hq => simp only [List.length_append] at hrest; omega
  | crc1 hs held ha hq => simp only [List.length_append] at hrest; omega
  | crc2 hs held ha hq hcrc =>
    simp only [List.length_append, List.length_singleton] at hrest
    omega
  | stop hs held ha hq hcrc =>
    simp only [List.length_append, List.length_cons, List.length_nil] at hrest
    omega
  | closed hs hend => exact hs

theorem scan_taken (ts : List (Token UInt8)) {bytes : List UInt8} (hno : startByte ∉ bytes) :
    scan scheme ⟨true, some ts⟩ (startByte :: bytes) = ⟨opens scheme false bytes,
      some (ts ++ ⟨startByte, startByte ^^^ escXor⟩ :: tokens scheme false bytes)⟩ := by
  rw [scan_cons, scanOne_pending, scan_tokens scheme _ _ hno]
  simp

theorem taken_rests {ts : List (Token UInt8)} (hspent : Spent ts) {r : Receiver}
    (h : Tracks ⟨true, some ts⟩ r.packet r.decoder) {inner : List UInt8} (hno : startByte ∉ inner) :
    Rested (decodeFinal r (startByte :: (inner ++ [endByte]))).decoder := by
  obtain ⟨l, rest, hts, hl, hrest⟩ := hspent
  have hend := run_tracks h (startByte :: (inner ++ [endByte]))
  rw [scan_taken ts (List.not_mem_append hno (by decide))] at hend
  refine ⟨?_, hend.pending.trans (opens_concat scheme false _ (by decide))⟩
  have hphase := hend.inside _ rfl
  rw [values_append, hts, List.cons_append] at hphase
  apply phase_spent hphase
  simp only [values, List.length_append, List.map_cons, List.length_cons]
  omega

/-- A START that is taken in does not end a frame, and what stands behind it comes too late. -/
theorem taken_quiet {ts : List (Token UInt8)} (hspent : Spent ts) {r : Receiver}
    (h : Tracks ⟨true, some ts⟩ r.packet r.decoder) {bytes : List UInt8} (hno : startByte ∉ bytes) :
    ∀ c ∈ decodeRun r (startByte :: bytes), c.result ≠ .ok := by
  intro c hc hok
  obtain ⟨l, rest, hts, hl, hrest⟩ := hspent
  obtain ⟨past, b, more, hsplit, rfl⟩ := (Machine.mem_answers receive r _ c).mp hc
  obtain ⟨-, hres, hdel⟩ := step_tracks (run_tracks h past) b
  obtain ⟨us, t', harr, -⟩ := hdel hok
  obtain ⟨hframe, hanswer⟩ := arrival_some harr
  have hverdict := hanswer.symm.trans (hres.symm.trans hok)
  cases past with
  | nil =>
    obtain ⟨rfl, -⟩ := List.cons.inj hsplit
    cases hframe
    have htoken : t' = ⟨startByte, startByte ^^^ escXor⟩ := by
      simpa [arrival, lex, eq_comm] using harr
    rw [htoken, values_append] at hverdict
    exact absurd (verdict_good hverdict).1 (by decide)
  | cons x past =>
    obtain ⟨rfl, hback⟩ := List.cons.inj hsplit
    rw [scan_taken ts fun hm => hno (hback ▸ List.mem_append_left _ hm)] at hframe
    cases hframe
    obtain ⟨l', a, q, hi, lo, e, hvs, -, ha, hq, -⟩ := verdict_ok hverdict
    simp only [values_append, hts, List.cons_append, List.cons.injEq] at hvs
    obtain ⟨rfl, hvs⟩ := hvs
    have hlen := congrArg List.length hvs
    simp only [values, List.length_append, List.map_cons, List.length_cons, List.length_nil]
      at hlen
    omega

/-- A spent frame takes the START of the next one for a terminator, if not for less, and
with it the whole frame is lost. Nothing in it is delivered. -/
theorem frame_lost (t : Transmission) {ts : List (Token UInt8)} (hspent : Spent ts) {r : Receiver}
    (h : Tracks ⟨true, some ts⟩ r.packet r.decoder) :
    Rested (decodeFinal r t.bytes).decoder ∧ ∀ c ∈ decodeRun r t.bytes, c.result ≠ .ok := by
  obtain ⟨hp, hbytes⟩ := t.whole
  rw [hbytes, frame_enclosed]
  have hinner := start_not_mem hp
  exact ⟨taken_rests hspent h hinner,
    taken_quiet hspent h (List.not_mem_append hinner (by decide))⟩

/-- One byte is lost, changed into another one other than START, or added and no START, or the
line goes dead in the middle of a frame, with no escape open. -/
inductive Fault (bytes damaged : List UInt8) : Prop
  | struck : Struck bytes damaged → Fault bytes damaged
  | inserted : Inserted bytes damaged → Fault bytes damaged
  | cut (rest : List UInt8) : bytes = damaged ++ rest → rest ≠ [] →
      opens scheme false damaged = false → Fault bytes damaged

theorem inserted_open {p : FusainPacket} {damaged : List UInt8} (h : Inserted (frame p) damaged)
    (hopen : opens scheme false damaged = true) :
    damaged = startByte :: (enclosed p ++ [endByte, escByte]) := by
  rw [frame_enclosed, ← List.cons_append] at h
  obtain ⟨u, v, y, he, -⟩ := h
  rcases List.eq_nil_or_concat v with rfl | ⟨v, z, rfl⟩
  · rw [List.append_nil] at he
    subst he
    by_cases hy : y = escByte
    · simp [hy]
    · rw [opens_concat scheme false _ hy] at hopen
      cases hopen
  · rw [List.concat_eq_append] at he hopen
    rw [← List.append_assoc] at he
    obtain ⟨-, hz⟩ := List.append_inj' he rfl
    obtain ⟨rfl, -⟩ := List.cons.inj hz
    rw [← List.cons_append, ← List.append_assoc, opens_concat scheme false _ (by decide)] at hopen
    cases hopen

section Open

variable {p : FusainPacket} (hp : p.length.toNat ≤ maxPayloadSize)
include hp

theorem struck_open {damaged : List UInt8} (h : Struck (frame p) damaged)
    (hopen : opens scheme false damaged = true) :
    damaged = startByte :: (enclosed p ++ [escByte]) := by
  rw [frame_enclosed, ← List.cons_append] at h
  obtain ⟨u, v, x, m, he, rfl, hm⟩ := h.parts
  rcases cut_last he with ⟨rfl, rfl, rfl⟩ | ⟨v, rfl, -⟩
  · rcases hm with rfl | ⟨y, rfl, -, -⟩
    · rw [List.append_nil, List.append_nil, opens_false_cons scheme (by decide),
        opens_enclosed hp] at hopen
      cases hopen
    · by_cases hy : y = escByte
      · rw [hy, List.append_nil, List.cons_append]
      · rw [List.append_nil, opens_concat scheme false _ hy] at hopen
        cases hopen
  · rw [← List.append_assoc, opens_concat scheme false _ (by decide)] at hopen
    cases hopen

theorem scan_spent {tail : List UInt8} (hno : startByte ∉ tail) :
    ∃ ts, scan scheme silence (startByte :: (enclosed p ++ tail)) =
      ⟨opens scheme false tail, some ts⟩ ∧ Spent ts := by
  refine ⟨tokens scheme false (enclosed p ++ tail), ?_, p.length,
    body p ++ values (tokens scheme false tail), ?_, hp, ?_⟩
  · have hopened : scanOne scheme silence startByte = ⟨false, some []⟩ := scanOne_flag scheme none
    rw [scan_cons, hopened, scan_tokens scheme _ _ (List.not_mem_append (start_not_mem hp) hno),
      opens_append, opens_enclosed hp]
    simp
  · rw [tokens_append, opens_enclosed hp, values_append, values_enclosed hp, List.cons_append]
  · rw [List.length_append, length_body hp]
    omega

theorem fault_starts {damaged : List UInt8} (h : Fault (frame p) damaged) :
    damaged.count startByte ≤ 1 := by
  have hone : (frame p).count startByte = 1 := by
    rw [frame_enclosed, List.count_cons_self, List.count_eq_zero.mpr]
    exact List.not_mem_append (start_not_mem hp) (by decide)
  rcases h with (⟨u, v, x, he⟩ | ⟨u, v, x, y, he, -, hy⟩) | ⟨u, v, y, he, hy⟩ | ⟨rest, he⟩
  · rw [he, List.count_append, List.count_cons] at hone
    rw [List.count_append]
    omega
  · rw [he, List.count_append, List.count_cons] at hone
    rw [List.count_append, List.count_cons_of_ne hy]
    omega
  · rw [he, List.count_append] at hone
    rw [List.count_append, List.count_cons_of_ne hy]
    omega
  · rw [he, List.count_append] at hone
    omega

/-- An escape that a fault leaves open stands behind a spent frame. -/
theorem fault_open {damaged : List UInt8} (h : Fault (frame p) damaged)
    (hopen : opens scheme false damaged = true) :
    ∃ ts, scan scheme silence damaged = ⟨true, some ts⟩ ∧ Spent ts := by
  cases h with
  | struck h =>
    rw [struck_open hp h hopen]
    exact scan_spent hp (by decide)
  | inserted h =>
    rw [inserted_open h hopen]
    exact scan_spent hp (by decide)
  | cut rest _ _ hclosed => exact absurd (hclosed.symm.trans hopen) (by decide)

end Open

theorem cut_quiet (t : Transmission) {damaged rest : List UInt8} (he : t.bytes = damaged ++ rest)
    (hne : rest ≠ []) {r : Receiver} (hr : r.decoder.escapeNext = false) :
    ∀ c ∈ decodeRun r damaged, c.result = .incomplete := by
  obtain ⟨⟨quiet, last, hchunk, -, hquiet, -⟩, -⟩ := frame_received t r hr
  rw [he, decodeRun_append] at hchunk
  intro c hc
  apply hquiet
  have hmore : decodeRun (decodeFinal r damaged) rest ≠ [] := by
    rw [← List.length_pos_iff, length_decodeRun]
    exact List.length_pos_iff.mpr hne
  have hinit := congrArg List.dropLast hchunk
  rw [List.dropLast_concat, List.dropLast_append_of_ne_nil hmore] at hinit
  rw [← hinit]
  exact List.mem_append_left _ hc

/-- A frame that arrives as it was sent, or one that suffers a fault, with the next one
behind it. -/
inductive Passage where
  | clean (t : Transmission)
  | hurt (t : Transmission) (damaged : List UInt8) (fault : Fault t.bytes damaged)
      (next : Transmission)

def Passage.bytes : Passage → List UInt8
  | .clean t => t.bytes
  | .hurt _ damaged _ next => damaged ++ next.bytes

/-- What a receiver makes of a damaged frame: the packet that was sent, once, or nothing, and
nothing unless a byte was added. -/
structure Contained (t : Transmission) (damaged : List UInt8) (chunk : List Step) : Prop where
  length : chunk.length = damaged.length
  quiet : damaged.length ≤ t.bytes.length → ∀ c ∈ chunk, c.result ≠ .ok
  same : ∀ c ∈ chunk, c.result = .ok → c.packet.length = t.packet.length ∧
    c.packet.address = t.packet.address ∧ c.packet.content = t.packet.content
  once : chunk.countP (fun c => c.result = .ok) ≤ 1

/-- The frame behind a fault is lost if the fault leaves an escape open, and received
otherwise. -/
def Survives : Passage → List Step → Prop
  | .clean t, chunk => Received t chunk
  | .hurt t damaged _ next, chunk => ∃ faulty behind, chunk = faulty ++ behind ∧
      Contained t damaged faulty ∧ behind.length = next.bytes.length ∧
      if opens scheme false damaged = true then ∀ c ∈ behind, c.result ≠ .ok
      else Received next behind

theorem contained_quiet {t : Transmission} {damaged : List UInt8} {chunk : List Step}
    (hlen : chunk.length = damaged.length) (h : ∀ c ∈ chunk, c.result ≠ .ok) :
    Contained t damaged chunk where
  length := hlen
  quiet := fun _ => h
  same := fun c hc hok => absurd hok (h c hc)
  once := by
    rw [List.countP_eq_zero.mpr fun c hc => by simp [h c hc]]
    exact Nat.zero_le 1

/-- No fault opens two frames, and so none is answered twice. -/
theorem fault_once {t : Transmission} {damaged : List UInt8} (h : Fault t.bytes damaged)
    {r : Receiver} (htrack : Tracks silence r.packet r.decoder) :
    (decodeRun r damaged).countP (fun c => c.result = .ok) ≤ 1 := by
  obtain ⟨hp, hbytes⟩ := t.whole
  calc (decodeRun r damaged).countP (fun c => c.result = .ok)
      ≤ (decodeRun r damaged).countP (fun c => loud c.result) := by
        apply List.countP_mono_left
        intro c _ hc
        exact loud_ok (of_decide_eq_true hc)
    _ ≤ (tokens scheme false damaged).count (Delimiters.bare startByte) :=
        loud_le_starts htrack damaged
    _ ≤ damaged.count startByte :=
        count_tokens_le scheme false damaged (Delimiters.bare startByte)
    _ ≤ 1 := fault_starts hp (hbytes ▸ h)

theorem fault_contained (t : Transmission) {damaged : List UInt8} (h : Fault t.bytes damaged)
    {r : Receiver} (hr : Rested r.decoder) : Contained t damaged (decodeRun r damaged) := by
  obtain ⟨hp, hbytes⟩ := t.whole
  have htrack := rested_tracks hr
  obtain ⟨hstruck, hinserted⟩ := frame_fault_detected hp htrack
  rw [← hbytes] at hstruck hinserted
  have hlen := length_decodeRun r damaged
  have honce := fault_once h htrack
  cases h with
  | struck h => exact contained_quiet hlen (hstruck damaged h)
  | cut rest he hne =>
    apply contained_quiet hlen
    intro c hc
    rw [cut_quiet t he hne hr.escape c hc]
    simp
  | inserted h =>
    refine ⟨hlen, fun hshort => ?_, hinserted damaged h, honce⟩
    obtain ⟨u, v, y, he, -⟩ := h
    rw [he] at hshort
    simp only [List.length_append, List.length_cons] at hshort
    omega

theorem passage_survives (g : Passage) {r : Receiver} (hr : Rested r.decoder) :
    Rested (decodeFinal r g.bytes).decoder ∧ Survives g (decodeRun r g.bytes) := by
  cases g with
  | clean t => exact frame_rests t hr.escape
  | hurt t damaged fault next =>
    have htrack := rested_tracks hr
    have hscan := run_tracks htrack damaged
    have hpend : (scan scheme silence damaged).pending = opens scheme false damaged :=
      scan_pending scheme silence damaged
    have hcut : decodeFinal r (damaged ++ next.bytes) =
        decodeFinal (decodeFinal r damaged) next.bytes := Machine.final_append receive r _ _
    simp only [Passage.bytes, Survives, hcut, decodeRun_append]
    refine ⟨?_, _, _, rfl, fault_contained t fault hr, length_decodeRun _ _, ?_⟩
    · cases hopen : opens scheme false damaged with
      | true =>
        obtain ⟨ts, hts, hspent⟩ := fault_open t.whole.1 (t.whole.2 ▸ fault) hopen
        rw [hts] at hscan
        exact (frame_lost next hspent hscan).1
      | false => exact (frame_rests next (hscan.pending.trans (hpend.trans hopen))).1
    · cases hopen : opens scheme false damaged with
      | true =>
        obtain ⟨ts, hts, hspent⟩ := fault_open t.whole.1 (t.whole.2 ▸ fault) hopen
        rw [hts] at hscan
        exact (frame_lost next hspent hscan).2
      | false => exact (frame_rests next (hscan.pending.trans (hpend.trans hopen))).2

/-- An ESC in the place of END costs two frames of three. -/
example : (decodeRun ⟨zeroPacket, fusainResetDecoder zeroDecoder⟩
    (request.bytes.dropLast ++ [escByte] ++ request.bytes ++ request.bytes)).countP
      (fun c => c.result = .ok) = 1 := by decide +kernel

end Fusain.Containment
