import Fusain.Crc
import Fusain.Lib.Remainder

/-!
# The frame check as a remainder

The check of a word is the remainder of a division by `X ^ 16 + X ^ 12 + X ^ 5 + 1`. The
initial register adds all ones in front of the word, so the check is not linear itself,
but sums of three words keep it; what follows a word changes it without loss.
-/
namespace Fusain.CheckAlgebra

open Crc Polynomial Remainder ShiftRegister

def xorBytes (a b : List UInt8) : List UInt8 := List.zipWith (· ^^^ ·) a b

@[simp] theorem length_xorBytes (a b : List UInt8) :
    (xorBytes a b).length = min a.length b.length := List.length_zipWith

theorem length_messageBits (data : List UInt8) : (messageBits data).length = 8 * data.length := by
  induction data with
  | nil => rfl
  | cons b data ih =>
    rw [messageBits_cons, List.length_append, ih, length_byteBits, List.length_cons]
    omega

theorem messageBits_xor {a b : List UInt8} (h : a.length = b.length) :
    messageBits (xorBytes a b) = List.zipWith xor (messageBits a) (messageBits b) := by
  induction a generalizing b with
  | nil => rfl
  | cons x a ih =>
    cases b with
    | nil => cases h
    | cons y b =>
      have hbyte : byteBits (x ^^^ y) = List.zipWith xor (byteBits x) (byteBits y) := by
        rw [byteBits, UInt8.toBitVec_xor, bits_xor, byteBits, byteBits]
      rw [xorBytes, List.zipWith_cons_cons, messageBits_cons, messageBits_cons, messageBits_cons,
        hbyte, List.zipWith_append (by simp)]
      exact congrArg _ (ih (Nat.succ.inj h))

/-- The loop is linear in the register and the word taken together. -/
theorem foldl_xor (r s : UInt16) {a b : List UInt8} (h : a.length = b.length) :
    (xorBytes a b).foldl crcByte (r ^^^ s) = a.foldl crcByte r ^^^ b.foldl crcByte s := by
  have hbits : (messageBits a).length = (messageBits b).length := by
    rw [length_messageBits, length_messageBits, h]
  apply UInt16.toBitVec_inj.mp
  rw [UInt16.toBitVec_xor, foldl_toBitVec, foldl_toBitVec, foldl_toBitVec, messageBits_xor h,
    UInt16.toBitVec_xor, feed_xor _ _ _ hbits]

/-- The polynomial 0x1021 with its leading term. -/
theorem divisor_generator : divisor generator = X ^ 16 + X ^ 12 + X ^ 5 + 1 := by
  have hpoly : poly generator = 1 + X ^ 5 + X ^ 12 := by
    simp [poly, bit, generator, Finset.sum_range_succ]
  rw [divisor, hpoly]
  ring

theorem poly_initial : poly (0xFFFF : UInt16).toBitVec = ∑ i ∈ Finset.range 16, X ^ i := by
  simp [poly, bit, Finset.sum_range_succ]

/-- The check of a word is the remainder of the word behind sixteen ones. Three words of one
length have the sum of their checks as the check of their sum, and no suffix loses what the
register held before it. -/
theorem crc_remainder :
    (∀ data : List UInt8,
      (poly (fusainCrc16 data data.length).toBitVec).degree < 16 ∧
        poly (fusainCrc16 data data.length).toBitVec =
          ((∑ i ∈ Finset.range 16, X ^ i) * X ^ (8 * data.length) +
            message (messageBits data) * X ^ 16) %ₘ (X ^ 16 + X ^ 12 + X ^ 5 + 1)) ∧
    (∀ a b c : List UInt8, a.length = b.length → b.length = c.length →
      fusainCrc16 (xorBytes (xorBytes a b) c) a.length =
        fusainCrc16 a a.length ^^^ fusainCrc16 b b.length ^^^ fusainCrc16 c c.length) ∧
    ∀ suffix : List UInt8, Function.Injective fun crc : UInt16 => suffix.foldl crcByte crc := by
  refine ⟨fun data => ⟨degree_poly _, ?_⟩, fun a b c hab hbc => ?_, fun suffix r s h => ?_⟩
  · rw [fusainCrc16_eq data _ rfl, residue, foldl_toBitVec, feed_remainder, poly_initial,
      length_messageBits, divisor_generator]
  · have hlen : (xorBytes a b).length = c.length := by
      rw [length_xorBytes, hab, hbc, Nat.min_self]
    have hone : (0xFFFF : UInt16) = 0xFFFF ^^^ 0xFFFF ^^^ 0xFFFF := by decide
    rw [fusainCrc16_eq a _ rfl, fusainCrc16_eq b _ rfl, fusainCrc16_eq c _ rfl,
      fusainCrc16_eq _ _ (by rw [length_xorBytes, hlen, hab, hbc, Nat.min_self])]
    calc residue (xorBytes (xorBytes a b) c)
        = (xorBytes (xorBytes a b) c).foldl crcByte (0xFFFF ^^^ 0xFFFF ^^^ 0xFFFF) := by
          rw [residue, ← hone]
      _ = (xorBytes a b).foldl crcByte (0xFFFF ^^^ 0xFFFF) ^^^ residue c := foldl_xor _ _ hlen
      _ = residue a ^^^ residue b ^^^ residue c := by
          rw [foldl_xor _ _ hab]
          rfl
  · exact foldl_injective suffix h

end Fusain.CheckAlgebra
