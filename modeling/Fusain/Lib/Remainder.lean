import Mathlib
import Fusain.Lib.ShiftRegister

/-!
# The register as a polynomial remainder

Over the field of two elements a register is a polynomial of degree below its width and
a message a polynomial of any degree. One clock multiplies by `X` and subtracts a
multiple of the divisor, so what the register holds after a message is a remainder.
-/
namespace Remainder

open Polynomial ShiftRegister

variable {w : Nat}

/-- A bit as a scalar. -/
def bit (b : Bool) : ZMod 2 := if b = true then 1 else 0

/-- A register as a polynomial: its bit `i` is the coefficient of `X ^ i`. -/
noncomputable def poly (r : BitVec w) : (ZMod 2)[X] :=
  ∑ i ∈ Finset.range w, C (bit (r.getLsbD i)) * X ^ i

/-- A message as a polynomial, the most significant coefficient first. -/
noncomputable def message (bs : List Bool) : (ZMod 2)[X] :=
  bs.foldl (fun m b => m * X + C (bit b)) 0

/-- The generator with its leading term. -/
noncomputable def divisor (g : BitVec w) : (ZMod 2)[X] := X ^ w + poly g

theorem bit_xor (a b : Bool) : bit (a ^^ b) = bit a + bit b := by
  cases a <;> cases b <;> decide

theorem poly_zero : poly 0#w = 0 := by simp [poly, bit]

theorem poly_xor (u v : BitVec w) : poly (u ^^^ v) = poly u + poly v := by
  simp only [poly, BitVec.getLsbD_xor, bit_xor, C_add, add_mul, Finset.sum_add_distrib]

theorem poly_ite (c : Bool) (g : BitVec w) :
    poly (if c = true then g else 0#w) = C (bit c) * poly g := by
  cases c
  · simp [poly_zero, bit]
  · simp [bit]

/-- A shift multiplies by `X`, up to the bit that leaves the register. -/
theorem poly_shiftLeft (r : BitVec w) :
    poly (r <<< 1) + C (bit r.msb) * X ^ w = poly r * X := by
  cases w with
  | zero => simp [poly, bit, BitVec.msb_eq_getLsbD_last]
  | succ k =>
    have hmsb : r.msb = r.getLsbD k := BitVec.msb_eq_getLsbD_last r
    have hlow : bit ((r <<< 1).getLsbD 0) = 0 := by simp [bit]
    have hshift : ∀ i ∈ Finset.range k,
        C (bit ((r <<< 1).getLsbD (i + 1))) * X ^ (i + 1) =
          C (bit (r.getLsbD i)) * X ^ i * (X : (ZMod 2)[X]) := by
      intro i hi
      have hi' : i + 1 < k + 1 := Nat.succ_lt_succ (Finset.mem_range.mp hi)
      rw [BitVec.getLsbD_shiftLeft]
      simp [hi', pow_succ, mul_assoc]
    rw [poly, Finset.sum_range_succ', hlow, Finset.sum_congr rfl hshift, hmsb, poly,
      Finset.sum_range_succ, add_mul, Finset.sum_mul]
    simp [pow_succ, mul_assoc]

theorem degree_poly (r : BitVec w) : (poly r).degree < w := by
  rw [poly, Finset.sum_range]
  exact degree_sum_fin_lt fun i : Fin w => bit (r.getLsbD i)

theorem monic_divisor (g : BitVec w) : (divisor g).Monic := monic_X_pow_add (degree_poly g)

theorem degree_divisor (g : BitVec w) : (divisor g).degree = w := by
  rw [divisor, degree_add_eq_left_of_degree_lt, degree_X_pow]
  rw [degree_X_pow]
  exact degree_poly g

theorem message_append (bs : List Bool) (b : Bool) :
    message (bs ++ [b]) = message bs * X + C (bit b) := List.foldl_append

/-- One clock: times `X`, the message bit added at the top, reduced by the divisor. -/
theorem poly_clock (g r : BitVec w) (b : Bool) :
    poly (clock g r b) + divisor g * C (bit (r.msb ^^ b)) = poly r * X + C (bit b) * X ^ w := by
  have htwo : (2 : (ZMod 2)[X]) = 0 := CharTwo.two_eq_zero
  rw [clock, poly_xor, poly_ite, divisor, bit_xor, C_add]
  have hs := poly_shiftLeft r
  linear_combination hs + (C (bit r.msb) * poly g + C (bit b) * poly g) * htwo

/-- A whole message, by induction on its last bit. -/
theorem poly_feed (g r : BitVec w) (bs : List Bool) :
    ∃ q, poly (feed g r bs) + divisor g * q = poly r * X ^ bs.length + message bs * X ^ w := by
  induction bs using List.reverseRecOn with
  | nil => exact ⟨0, by simp [message]⟩
  | append_singleton bs b ih =>
    obtain ⟨q, hq⟩ := ih
    refine ⟨C (bit ((feed g r bs).msb ^^ b)) + q * X, ?_⟩
    rw [feed_append, feed_cons, feed_nil, message_append, List.length_append, List.length_singleton]
    have hclock := poly_clock g (feed g r bs) b
    linear_combination hclock + X * hq

/-- What the register holds after a message is the remainder of its old contents, moved up
by the length of the message, and the message, moved up by the width of the register. -/
theorem feed_remainder (g r : BitVec w) (bs : List Bool) :
    poly (feed g r bs) = (poly r * X ^ bs.length + message bs * X ^ w) %ₘ divisor g := by
  obtain ⟨q, hq⟩ := poly_feed g r bs
  have hdeg : (poly (feed g r bs)).degree < (divisor g).degree := by
    rw [degree_divisor]
    exact degree_poly _
  exact ((div_modByMonic_unique q _ (monic_divisor g) ⟨hq, hdeg⟩).2).symm

/-- At 1 a message has the parity of its weight. -/
theorem eval_message (bs : List Bool) : (message bs).eval 1 = (bs.count true : ZMod 2) := by
  induction bs using List.reverseRecOn with
  | nil => simp [message]
  | append_singleton bs b ih =>
    rw [message_append, eval_add, eval_mul, eval_X, eval_C, mul_one, ih, List.count_append]
    cases b <;> simp [bit]

/-- A divisor with the factor `X + 1` misses no message of odd weight. -/
theorem even_of_feed {g : BitVec w} (hg : (divisor g).eval 1 = 0) {bs : List Bool}
    (h : feed g 0#w bs = 0#w) : Even (bs.count true) := by
  obtain ⟨q, hq⟩ := poly_feed g 0#w bs
  rw [h, poly_zero, zero_add, zero_mul, zero_add] at hq
  have heval := congrArg (eval 1) hq
  rw [eval_mul, hg, zero_mul, eval_mul, eval_pow, eval_X, one_pow, mul_one, eval_message] at heval
  exact (ZMod.natCast_eq_zero_iff_even).mp heval.symm

end Remainder
