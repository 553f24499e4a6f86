import Fusain.Lib.ShiftRegister

/-!
# The frame check

`fusain_crc16` as the standalone build computes it, and the same computation as a
shift register over the message bits. What the frame check can promise follows
from the register alone: a word with its check appended clears it, and no other
word that differs in two neighbouring bytes does.
-/
namespace Fusain.Crc

open ShiftRegister

/-- One iteration of the inner loop. -/
def crcBit (crc : UInt16) : UInt16 :=
  if crc &&& 0x8000 ≠ 0 then (crc <<< 1) ^^^ 0x1021 else crc <<< 1

/-- One iteration of the outer loop. -/
def crcByte (crc : UInt16) (byte : UInt8) : UInt16 := crcBit^[8] (crc ^^^ (byte.toUInt16 <<< 8))

/-- fusain_crc16, standalone build -/
def fusainCrc16 (data : List UInt8) (length : Nat) : UInt16 :=
  (data.take length).foldl crcByte 0xFFFF

/-- The generator polynomial without its leading term. -/
def generator : BitVec 16 := 0x1021#16

def byteBits (b : UInt8) : List Bool := bits b.toBitVec

def messageBits (data : List UInt8) : List Bool := data.flatMap byteBits

theorem messageBits_cons (b : UInt8) (data : List UInt8) :
    messageBits (b :: data) = byteBits b ++ messageBits data := rfl

theorem generator_odd : generator.getLsbD 0 = true := by decide

theorem high_mask : ∀ i < 15, (0x8000#16).getLsbD i = false := by decide

theorem high_bit (crc : UInt16) : crc &&& 0x8000 ≠ 0 ↔ crc.toBitVec.msb = true := by
  have h : (crc &&& 0x8000).toBitVec = BitVec.ofBool crc.toBitVec.msb ++ 0#15 := by
    apply BitVec.eq_of_getLsbD_eq
    intro i hi
    simp only [UInt16.toBitVec_and, BitVec.getLsbD_and, BitVec.getLsbD_append,
      BitVec.msb_eq_getLsbD_last]
    by_cases he : i < 15
    · simp [high_mask i he, he]
    · have he' : i = 15 := by omega
      subst he'; simp
  rw [Ne, ← UInt16.toBitVec_inj, h]
  cases crc.toBitVec.msb <;> decide

theorem crcBit_toBitVec (crc : UInt16) : (crcBit crc).toBitVec = shift generator crc.toBitVec := by
  unfold crcBit shift clock
  by_cases h : crc.toBitVec.msb = true
  · rw [if_pos ((high_bit crc).mpr h)]
    simp [h, generator]
  · rw [if_neg (fun hc => h ((high_bit crc).mp hc))]
    simp [h]

theorem crcBits_toBitVec (n : Nat) (crc : UInt16) :
    (crcBit^[n] crc).toBitVec = (shift generator)^[n] crc.toBitVec := by
  induction n generalizing crc with
  | zero => rfl
  | succ n ih => rw [Function.iterate_succ_apply, Function.iterate_succ_apply, ih, crcBit_toBitVec]

/-- One byte of the C loop is eight message bits through the register. -/
theorem crcByte_toBitVec (crc : UInt16) (byte : UInt8) :
    (crcByte crc byte).toBitVec = feed generator crc.toBitVec (byteBits byte) := by
  have ha : (crc ^^^ (byte.toUInt16 <<< 8)).toBitVec = crc.toBitVec ^^^ align byte.toBitVec := by
    simp [align]
  rw [crcByte, crcBits_toBitVec, ha, shifts_align _ _ _ (by decide), byteBits]

theorem foldl_toBitVec (data : List UInt8) (crc : UInt16) :
    (data.foldl crcByte crc).toBitVec = feed generator crc.toBitVec (messageBits data) := by
  induction data generalizing crc with
  | nil => rfl
  | cons b data ih =>
    rw [List.foldl_cons, ih, crcByte_toBitVec, messageBits_cons, feed_append]

@[simp] theorem length_byteBits (b : UInt8) : (byteBits b).length = 8 := length_bits _

theorem byteBits_injective : Function.Injective byteBits := by
  intro a b h
  exact UInt8.toBitVec_inj.mp (bits_injective h)

theorem crcByte_injective {r s : UInt16} {b : UInt8} (h : crcByte r b = crcByte s b) : r = s := by
  have h' := congrArg UInt16.toBitVec h
  rw [crcByte_toBitVec, crcByte_toBitVec] at h'
  exact UInt16.toBitVec_inj.mp (feed_injective generator_odd _ h')

/-- For a fixed suffix the register after it determines the register before it. -/
theorem foldl_injective {r s : UInt16} (data : List UInt8)
    (h : data.foldl crcByte r = data.foldl crcByte s) : r = s := by
  induction data generalizing r s with
  | nil => exact h
  | cons b data ih => exact crcByte_injective (ih h)

/-- Two bytes fill the register: they are determined by what they leave in it. -/
theorem crcByte_pair {r : UInt16} {a b a' b' : UInt8}
    (h : crcByte (crcByte r a) b = crcByte (crcByte r a') b') : a = a' ∧ b = b' := by
  have h' := congrArg UInt16.toBitVec h
  simp only [crcByte_toBitVec, ← feed_append] at h'
  have he := feed_burst generator_odd _ _ (by simp) (by simp) h'
  obtain ⟨ha, hb⟩ := List.append_inj he (by simp)
  exact ⟨byteBits_injective ha, byteBits_injective hb⟩

theorem crcByte_cancel {r : UInt16} {a b : UInt8} (h : crcByte r a = crcByte r b) : a = b := by
  have h' : crcByte (crcByte r a) 0 = crcByte (crcByte r b) 0 := by rw [h]
  exact (crcByte_pair h').1

/-- The check bytes as the encoder sends them, high byte first. -/
def crcHigh (crc : UInt16) : UInt8 := ((crc >>> 8) &&& 0xFF).toUInt8
def crcLow (crc : UInt16) : UInt8 := (crc &&& 0xFF).toUInt8

/-- The register after a word followed by its two check bytes. -/
def residue (word : List UInt8) : UInt16 := word.foldl crcByte 0xFFFF

theorem residue_append (a b : List UInt8) : residue (a ++ b) = b.foldl crcByte (residue a) :=
  List.foldl_append

theorem fusainCrc16_eq (data : List UInt8) (n : Nat) (h : n = data.length) :
    fusainCrc16 data n = residue data := by
  rw [fusainCrc16, h, List.take_length, residue]

/-- The two bytes of a word put together again. -/
theorem bits_pair (hi lo : UInt8) :
    byteBits hi ++ byteBits lo = bits (hi.toBitVec ++ lo.toBitVec) := by
  apply List.ext_getElem
  · simp [byteBits]
  · intro i h1 h2
    simp only [length_bits] at h2
    simp only [byteBits, bits, List.getElem_append, List.getElem_map, List.getElem_range,
      List.length_map, List.length_range, BitVec.getMsbD_append]
    by_cases hi : i < 8
    · simp [hi, show ¬ 8 ≤ i by omega]
    · simp [hi, show 8 ≤ i by omega]

/-- A word followed by two bytes clears the register exactly when they are its check. -/
theorem residue_eq_zero_iff (data : List UInt8) (hi lo : UInt8) :
    residue (data ++ [hi, lo]) = 0 ↔ 256 * hi.toNat + lo.toNat = (residue data).toNat := by
  have h1 : (residue (data ++ [hi, lo])).toBitVec =
      feed generator (residue data).toBitVec (bits (hi.toBitVec ++ lo.toBitVec)) := by
    rw [residue_append, foldl_toBitVec, ← bits_pair]
    simp [messageBits]
  rw [← UInt16.toBitVec_inj, h1]
  have h2 := feed_eq_zero_iff generator_odd (residue data).toBitVec (hi.toBitVec ++ lo.toBitVec)
  refine Iff.trans h2 ?_
  rw [← BitVec.toNat_inj, BitVec.toNat_append, Nat.shiftLeft_eq, Nat.mul_comm]
  have hlo : lo.toBitVec.toNat < 2 ^ 8 := lo.toBitVec.isLt
  rw [← Nat.two_pow_add_eq_or_of_lt hlo]
  rfl

theorem crc_split (crc : UInt16) : 256 * (crcHigh crc).toNat + (crcLow crc).toNat = crc.toNat := by
  have h : (crc &&& 0xFF).toNat = crc.toNat % 256 := by
    rw [UInt16.toNat_and]
    exact Nat.and_two_pow_sub_one_eq_mod crc.toNat 8
  have h' : ((crc >>> 8) &&& 0xFF).toNat = crc.toNat / 256 % 256 := by
    rw [UInt16.toNat_and, UInt16.toNat_shiftRight]
    exact (Nat.and_two_pow_sub_one_eq_mod (crc.toNat >>> 8) 8).trans (by rw [Nat.shiftRight_eq_div_pow])
  have := crc.toNat_lt
  simp only [crcHigh, crcLow, UInt16.toNat_toUInt8, h, h']
  omega

end Fusain.Crc
