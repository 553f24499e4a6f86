import Fusain.CheckAlgebra
import Fusain.RoundTrip

/-!
# What the frame check detects

Damage adds an error pattern to a word and its check. The receiver's register then holds
what the pattern alone leaves in an empty register, so the check fails unless that is
nothing. A burst as wide as the register, an odd number of errors and two errors within
a frame always leave something.
-/
namespace Fusain.CheckErrors

open CheckAlgebra Crc Decoder Polynomial Reader Remainder RoundTrip ShiftRegister Stuffing Tracking
  Wire

/-- The register after a damaged word is off by what the errors alone leave. -/
theorem residue_xor {word e : List UInt8} (h : word.length = e.length) :
    residue (xorBytes word e) = residue word ^^^ e.foldl crcByte 0 := by
  have hsum := foldl_xor 0xFFFF 0 h
  rwa [UInt16.xor_zero] at hsum

theorem divisor_generator_one : (divisor generator).eval 1 = 0 := by
  rw [divisor_generator]
  simp only [eval_add, eval_pow, eval_X, eval_one]
  decide

/-- The generator does not come back to itself within the bits of the longest frame. -/
theorem generator_returns_late : avoids generator generator 999 generator = true := by
  decide +kernel

def weight (e : List UInt8) : Nat := (messageBits e).count true

theorem weight_pos {e : List UInt8} : 0 < weight e ↔ true ∈ messageBits e := List.count_pos_iff

theorem weight_two {e : List UInt8} (hw : weight e = 2) (hl : e.length ≤ 125) :
    feed generator 0#16 (messageBits e) ≠ 0#16 := by
  intro h
  obtain ⟨i, j, k, hparts⟩ := pair_parts hw
  have hlen := congrArg List.length hparts
  rw [length_messageBits] at hlen
  simp only [List.length_append, List.length_cons, List.length_replicate] at hlen
  rw [hparts] at h
  exact avoids_spec generator_returns_late (by omega) (feed_pair generator_odd h)

/-- The error patterns that the check is made for leave something in the register. -/
theorem errors_leave {e : List UInt8} (hpos : 0 < weight e)
    (h : Confined 16 (messageBits e) ∨ Odd (weight e) ∨ weight e = 2 ∧ e.length ≤ 125) :
    e.foldl crcByte 0 ≠ 0 := by
  intro hz
  have hfeed : feed generator 0#16 (messageBits e) = 0#16 := by
    have hb := foldl_toBitVec e 0
    rw [hz] at hb
    exact hb.symm
  rcases h with hburst | hodd | ⟨htwo, hl⟩
  · exact feed_confined generator_odd hburst hfeed (weight_pos.mp hpos)
  · exact (Nat.not_even_iff_odd.mpr hodd) (even_of_feed divisor_generator_one hfeed)
  · exact weight_two htwo hl hfeed

theorem few_leave {e : List UInt8} (hpos : 1 ≤ weight e) (hthree : weight e ≤ 3)
    (hl : e.length ≤ 125) : e.foldl crcByte 0 ≠ 0 := by
  apply errors_leave hpos
  have hcases : weight e = 1 ∨ weight e = 2 ∨ weight e = 3 := by omega
  rcases hcases with h1 | h2 | h3
  · exact .inr (.inl (h1 ▸ odd_one))
  · exact .inr (.inr ⟨h2, hl⟩)
  · exact .inr (.inl (h3 ▸ by decide))

theorem weight_zero_cons (e : List UInt8) : weight (0 :: e) = weight e := by
  have hnone : (byteBits 0).count true = 0 := by decide
  rw [weight, messageBits_cons, List.count_append, hnone, Nat.zero_add, weight]

theorem xorBytes_zero_cons (b : UInt8) (bs e : List UInt8) :
    xorBytes (b :: bs) (0 :: e) = b :: xorBytes bs e := by
  rw [xorBytes, List.zipWith_cons_cons, UInt8.xor_zero, xorBytes]

/-- A damaged word no longer has the check that came with it. -/
theorem check_fails {word e : List UInt8} (h : word.length = e.length) (hword : residue word = 0)
    (he : e.foldl crcByte 0 ≠ 0) {d' : List UInt8} {hi lo : UInt8}
    (hd : xorBytes word e = d' ++ [hi, lo]) :
    256 * hi.toNat + lo.toNat ≠ (residue d').toNat := by
  intro hcheck
  have hr := residue_xor h
  rw [hd, (residue_eq_zero_iff d' hi lo).mpr hcheck, hword, UInt16.zero_xor] at hr
  exact he hr.symm

/-- A LENGTH in range, the right number of bytes and a check that does not fit them. -/
theorem word_rejected {l : UInt8} {w : List UInt8} (hl : l.toNat ≤ maxPayloadSize)
    (hw : w.length = l.toNat + 10)
    (hcheck : ∀ (d' : List UInt8) (hi lo : UInt8), l :: w = d' ++ [hi, lo] →
      256 * hi.toNat + lo.toNat ≠ (residue d').toNat)
    {r : Receiver} (hr : r.decoder.escapeNext = false) :
    ∃ (quiet : List Step) (last : Step),
      decodeRun r (startByte :: (stuff scheme (l :: w) ++ [endByte])) = quiet ++ [last] ∧
        (∀ c ∈ quiet, c.result = .incomplete) ∧ last.result = .invalidCrc := by
  obtain ⟨quiet, r', hrun, -, hquiet, htrack⟩ := word_received hl hw hr
  refine ⟨quiet, _, hrun, hquiet, ?_⟩
  obtain ⟨-, hres, -⟩ := step_tracks htrack endByte
  have hlen : (w ++ [endByte]).length = l.toNat + 11 := by rw [List.length_append, hw]; rfl
  obtain ⟨a, q, hi, lo, e, hparts, ha, hq⟩ := cut_parts hlen
  have hcut : w = a ++ q ++ [hi, lo] := by
    have : w ++ [endByte] = a ++ q ++ [hi, lo] ++ [e] := by rw [hparts]; simp
    exact (List.append_inj' this rfl).1
  have hbad := hcheck (l :: (a ++ q)) hi lo (by rw [hcut, List.cons_append])
  rw [respond_data lex_end, values_stuff, List.cons_append, hparts, verdict_whole hi lo e ha hq _ hl,
    if_neg (by simp), if_pos hbad] at hres
  exact hres

/-- Bursts of at most 16 bits, odd numbers of errors, and two errors in up to 123 bytes make
the check of any word fail. One, two or three errors behind the LENGTH of any frame are
answered by INVALID_CRC. -/
theorem errors_detected :
    (∀ d e d' : List UInt8, ∀ hi lo : UInt8, e.length = d.length + 2 → 0 < weight e →
      (Confined 16 (messageBits e) ∨ Odd (weight e) ∨ weight e = 2 ∧ d.length ≤ 123) →
      xorBytes (d ++ [crcHigh (fusainCrc16 d d.length), crcLow (fusainCrc16 d d.length)]) e =
        d' ++ [hi, lo] →
      (fusainCrc16 d' d'.length).toNat ≠ 256 * hi.toNat + lo.toNat) ∧
    ∀ (p : FusainPacket) (e : List UInt8), p.length.toNat ≤ maxPayloadSize →
      e.length = (body p).length → 1 ≤ weight e → weight e ≤ 3 →
      ∀ r : Receiver, r.decoder.escapeNext = false → ∃ (quiet : List Step) (last : Step),
        decodeRun r (startByte :: (stuff scheme (p.length :: xorBytes (body p) e) ++ [endByte])) =
          quiet ++ [last] ∧
        (∀ c ∈ quiet, c.result = .incomplete) ∧ last.result = .invalidCrc := by
  refine ⟨fun d e d' hi lo hlen hpos hkind hd => ?_, fun p e hp hlen hpos hthree r hr => ?_⟩
  · rw [fusainCrc16_eq d _ rfl] at hd
    rw [fusainCrc16_eq d' _ rfl]
    have hleave : e.foldl crcByte 0 ≠ 0 := by
      apply errors_leave hpos
      rcases hkind with hburst | hodd | ⟨htwo, hl⟩
      · exact .inl hburst
      · exact .inr (.inl hodd)
      · exact .inr (.inr ⟨htwo, by omega⟩)
    exact (check_fails (by simp [hlen]) (residue_checkField d) hleave hd).symm
  · have hbody := length_body hp
    apply word_rejected hp (by rw [length_xorBytes, hlen, Nat.min_self, hbody]) _ hr
    intro d' hi lo hd
    have hleave : (0 :: e).foldl crcByte 0 ≠ 0 := by
      apply few_leave
      · rwa [weight_zero_cons]
      · rwa [weight_zero_cons]
      · simp only [maxPayloadSize] at hp
        rw [List.length_cons, hlen, hbody]
        omega
    -- LENGTH is part of the word, and not damaged
    have hword : residue (p.length :: body p) = 0 := residue_checkField (checked p)
    exact check_fails (by simp [hlen]) hword hleave ((xorBytes_zero_cons _ _ _).trans hd)

end Fusain.CheckErrors
