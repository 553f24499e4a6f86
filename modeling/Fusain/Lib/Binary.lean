import Mathlib.Algebra.Field.Rat
import Mathlib.Tactic.Ring

/-!
# Binary floating point formats

Bit patterns of a sign, a biased exponent and a fraction, and the numbers they stand for.
A conversion to a format that is wide enough loses nothing: subnormal numbers become
normal, infinities and NaNs stay what they are.
-/
namespace Binary

/-- The width of the fields of a format. -/
structure Format where
  exponentBits : Nat
  fractionBits : Nat
  exponent_pos : 0 < exponentBits

def binary32 : Format := ⟨8, 23, by decide⟩
def binary64 : Format := ⟨11, 52, by decide⟩

namespace Format

variable (f : Format)

def bias : Nat := 2 ^ (f.exponentBits - 1) - 1

/-- The exponent of infinities and NaNs. -/
def top : Nat := 2 ^ f.exponentBits - 1

theorem top_eq : f.top = 2 * f.bias + 1 := by
  obtain ⟨n, hn⟩ := Nat.exists_eq_succ_of_ne_zero (Nat.ne_of_gt f.exponent_pos)
  have hpos : 0 < 2 ^ n := Nat.two_pow_pos n
  rw [top, bias, hn, Nat.succ_eq_add_one, Nat.add_sub_cancel, Nat.pow_succ]
  omega

end Format

/-- The fields of a bit pattern, each within its width. -/
structure Fields (f : Format) where
  negative : Bool
  exponent : Nat
  fraction : Nat
  exponent_lt : exponent < 2 ^ f.exponentBits
  fraction_lt : fraction < 2 ^ f.fractionBits

/-- Sign first, fraction last. -/
def Fields.bits {f : Format} (x : Fields f) : Nat :=
  (x.negative.toNat * 2 ^ f.exponentBits + x.exponent) * 2 ^ f.fractionBits + x.fraction

def Format.fields (f : Format) (bits : Nat) : Fields f where
  negative := bits / 2 ^ f.fractionBits / 2 ^ f.exponentBits % 2 = 1
  exponent := bits / 2 ^ f.fractionBits % 2 ^ f.exponentBits
  fraction := bits % 2 ^ f.fractionBits
  exponent_lt := Nat.mod_lt _ (Nat.two_pow_pos _)
  fraction_lt := Nat.mod_lt _ (Nat.two_pow_pos _)

section Bits

variable {f : Format} (x : Fields f)

/-- The fields can be read off the bit pattern. -/
theorem fields_bits : f.fields x.bits = x := by
  obtain ⟨negative, exponent, fraction, he, hf⟩ := x
  have hpos := Nat.two_pow_pos f.fractionBits
  have hpos' := Nat.two_pow_pos f.exponentBits
  have hhigh : ((negative.toNat * 2 ^ f.exponentBits + exponent) * 2 ^ f.fractionBits + fraction) /
      2 ^ f.fractionBits = negative.toNat * 2 ^ f.exponentBits + exponent := by
    rw [Nat.mul_comm, Nat.mul_add_div hpos, Nat.div_eq_of_lt hf, Nat.add_zero]
  have hsign : (negative.toNat * 2 ^ f.exponentBits + exponent) / 2 ^ f.exponentBits =
      negative.toNat := by
    rw [Nat.mul_comm, Nat.mul_add_div hpos', Nat.div_eq_of_lt he, Nat.add_zero]
  simp only [Format.fields, Fields.bits, Fields.mk.injEq, hhigh, hsign]
  refine ⟨by cases negative <;> rfl, ?_, ?_⟩
  · rw [Nat.mul_comm, Nat.mul_add_mod, Nat.mod_eq_of_lt he]
  · rw [Nat.mul_comm, Nat.mul_add_mod, Nat.mod_eq_of_lt hf]

theorem bits_lt : x.bits < 2 ^ (1 + f.exponentBits + f.fractionBits) := by
  have hsign : x.negative.toNat ≤ 1 := Bool.toNat_le _
  have hhigh : x.negative.toNat * 2 ^ f.exponentBits + x.exponent < 2 ^ (1 + f.exponentBits) := by
    have hmul := Nat.mul_le_mul_right (2 ^ f.exponentBits) hsign
    have := x.exponent_lt
    rw [Nat.pow_add]
    omega
  calc x.bits < (x.negative.toNat * 2 ^ f.exponentBits + x.exponent + 1) * 2 ^ f.fractionBits := by
        rw [Fields.bits, Nat.add_mul _ 1, Nat.one_mul]
        exact Nat.add_lt_add_left x.fraction_lt _
    _ ≤ 2 ^ (1 + f.exponentBits) * 2 ^ f.fractionBits := Nat.mul_le_mul_right _ hhigh
    _ = 2 ^ (1 + f.exponentBits + f.fractionBits) := (Nat.pow_add _ _ _).symm

end Bits

/-- What a bit pattern stands for; zero has a sign. -/
inductive Number where
  | finite (negative : Bool) (magnitude : ℚ)
  | infinite (negative : Bool)
  | nan
  deriving DecidableEq

def magnitude (significand : Nat) (exponent : ℤ) : ℚ := significand * 2 ^ exponent

theorem magnitude_shift (significand k : Nat) (exponent : ℤ) :
    magnitude (significand * 2 ^ k) exponent = magnitude significand (exponent + k) := by
  rw [magnitude, magnitude, zpow_add₀ two_ne_zero, zpow_natCast]
  push_cast
  ring

/-- A number is subnormal where the exponent field is zero; every other has a leading one. -/
def Fields.number {f : Format} (x : Fields f) : Number :=
  if x.exponent = f.top then
    if x.fraction = 0 then .infinite x.negative else .nan
  else if x.exponent = 0 then
    .finite x.negative (magnitude x.fraction (1 - f.bias - f.fractionBits))
  else
    .finite x.negative
      (magnitude (2 ^ f.fractionBits + x.fraction) (x.exponent - f.bias - f.fractionBits))

/-- Every number of `a` is a number of `b`, and no subnormal one unless zero. -/
structure Wider (a b : Format) : Prop where
  exponent : a.bias + a.fractionBits ≤ b.bias
  fraction : a.fractionBits ≤ b.fractionBits

/-- Exponent and fraction in the wider format. A NaN keeps its fraction and becomes quiet;
a subnormal number loses the leading one of its fraction. -/
def widened (a b : Format) (exponent fraction : Nat) : Nat × Nat :=
  if exponent = a.top then
    (b.top, if fraction = 0 then 0 else
      2 ^ (b.fractionBits - 1) ||| fraction * 2 ^ (b.fractionBits - a.fractionBits))
  else if exponent = 0 then
    if fraction = 0 then (0, 0)
    else
      (b.bias - a.bias - a.fractionBits + fraction.log2 + 1,
        fraction * 2 ^ (b.fractionBits - fraction.log2) - 2 ^ b.fractionBits)
  else (exponent + (b.bias - a.bias), fraction * 2 ^ (b.fractionBits - a.fractionBits))

section Widening

variable {a b : Format} (w : Wider a b)
include w

/-- The leading one of a fraction. -/
theorem leading {fraction : Nat} (h0 : fraction ≠ 0) (hf : fraction < 2 ^ a.fractionBits) :
    fraction.log2 < a.fractionBits ∧
      2 ^ b.fractionBits ≤ fraction * 2 ^ (b.fractionBits - fraction.log2) ∧
      fraction * 2 ^ (b.fractionBits - fraction.log2) < 2 * 2 ^ b.fractionBits := by
  have hlog : fraction.log2 < a.fractionBits := (Nat.log2_lt h0).mpr hf
  have hw := w.fraction
  have hsplit : 2 ^ b.fractionBits = 2 ^ fraction.log2 * 2 ^ (b.fractionBits - fraction.log2) := by
    rw [← Nat.pow_add]
    congr 1
    omega
  refine ⟨hlog, ?_, ?_⟩
  · rw [hsplit]
    exact Nat.mul_le_mul_right _ (Nat.log2_self_le h0)
  · rw [hsplit, ← Nat.mul_assoc, Nat.mul_comm 2, ← Nat.pow_succ]
    exact Nat.mul_lt_mul_of_pos_right Nat.lt_log2_self (Nat.two_pow_pos _)

theorem extended {fraction : Nat} (hf : fraction < 2 ^ a.fractionBits) :
    fraction * 2 ^ (b.fractionBits - a.fractionBits) < 2 ^ b.fractionBits := by
  have hsplit : 2 ^ b.fractionBits = 2 ^ a.fractionBits * 2 ^ (b.fractionBits - a.fractionBits) := by
    rw [← Nat.pow_add, Nat.add_sub_cancel' w.fraction]
  rw [hsplit]
  exact Nat.mul_lt_mul_of_pos_right hf (Nat.two_pow_pos _)

theorem widened_lt {exponent fraction : Nat} (he : exponent < 2 ^ a.exponentBits)
    (hf : fraction < 2 ^ a.fractionBits) :
    (widened a b exponent fraction).1 < 2 ^ b.exponentBits ∧
      (widened a b exponent fraction).2 < 2 ^ b.fractionBits := by
  have htop : b.top < 2 ^ b.exponentBits := Nat.sub_lt (Nat.two_pow_pos _) Nat.one_pos
  have htop' : a.top = 2 ^ a.exponentBits - 1 := rfl
  have ha := a.top_eq
  have hb := b.top_eq
  have hw := w.exponent
  have hext := extended w hf
  unfold widened
  by_cases ht : exponent = a.top
  · rw [if_pos ht]
    refine ⟨htop, ?_⟩
    by_cases h0 : fraction = 0
    · simp only [if_pos h0]
      exact Nat.two_pow_pos _
    · simp only [if_neg h0]
      have hlog := (leading w h0 hf).1
      have := w.fraction
      exact Nat.or_lt_two_pow (Nat.pow_lt_pow_right Nat.one_lt_two (by omega)) hext
  rw [if_neg ht]
  by_cases h0 : exponent = 0
  · rw [if_pos h0]
    by_cases hf0 : fraction = 0
    · rw [if_pos hf0]
      exact ⟨Nat.two_pow_pos _, Nat.two_pow_pos _⟩
    · rw [if_neg hf0]
      obtain ⟨hlog, hle, hlt⟩ := leading w hf0 hf
      exact ⟨by simp only; omega, by simp only; omega⟩
  · rw [if_neg h0]
    exact ⟨by simp only; omega, hext⟩

/-- The sign stays. -/
def Fields.widen (x : Fields a) : Fields b where
  negative := x.negative
  exponent := (widened a b x.exponent x.fraction).1
  fraction := (widened a b x.exponent x.fraction).2
  exponent_lt := (widened_lt w x.exponent_lt x.fraction_lt).1
  fraction_lt := (widened_lt w x.exponent_lt x.fraction_lt).2

/-- A wider format has the same numbers for the bit patterns of the narrower one. -/
theorem number_widen (x : Fields a) : (x.widen w).number = x.number := by
  obtain ⟨negative, exponent, fraction, he, hf⟩ := x
  have htop' : a.top = 2 ^ a.exponentBits - 1 := rfl
  have ha := a.top_eq
  have hb := b.top_eq
  have hw := w.exponent
  have hwf := w.fraction
  by_cases ht : exponent = a.top
  · -- infinities and NaNs
    have hnan : fraction ≠ 0 →
        2 ^ (b.fractionBits - 1) ||| fraction * 2 ^ (b.fractionBits - a.fractionBits) ≠ 0 :=
      fun _ h => absurd (Nat.or_eq_zero_iff.mp h).1 (Nat.ne_of_gt (Nat.two_pow_pos _))
    by_cases h0 : fraction = 0
    · simp [Fields.number, Fields.widen, widened, ht, h0]
    · simp [Fields.number, Fields.widen, widened, ht, h0, hnan h0]
  by_cases h0 : exponent = 0
  · have hzero : (0 : Nat) ≠ a.top := by omega
    by_cases hf0 : fraction = 0
    · have hzero' : (0 : Nat) ≠ b.top := by omega
      simp [Fields.number, Fields.widen, widened, h0, hf0, hzero, hzero', magnitude]
    · -- a subnormal number gets an exponent of its own
      obtain ⟨hlog, hle, -⟩ := leading w hf0 hf
      have hone : b.bias - a.bias - a.fractionBits + fraction.log2 + 1 ≠ b.top := by omega
      have hsum : 2 ^ b.fractionBits +
          (fraction * 2 ^ (b.fractionBits - fraction.log2) - 2 ^ b.fractionBits) =
            fraction * 2 ^ (b.fractionBits - fraction.log2) := by omega
      simp only [Fields.number, Fields.widen, widened, h0, hzero, hf0, hone, hsum, if_true, if_false,
        Nat.succ_ne_zero, magnitude_shift, Number.finite.injEq, true_and]
      congr 1
      omega
  · have hone : exponent + (b.bias - a.bias) ≠ b.top := by omega
    have hpos : exponent + (b.bias - a.bias) ≠ 0 := by omega
    have hsum : 2 ^ b.fractionBits + fraction * 2 ^ (b.fractionBits - a.fractionBits) =
        (2 ^ a.fractionBits + fraction) * 2 ^ (b.fractionBits - a.fractionBits) := by
      rw [Nat.add_mul, ← Nat.pow_add, Nat.add_sub_cancel' hwf]
    simp only [Fields.number, Fields.widen, widened, ht, h0, hone, hpos, hsum, if_false,
      magnitude_shift, Number.finite.injEq, true_and]
    congr 1
    omega

end Widening

end Binary
