import Mathlib.Data.List.Basic
import Mathlib.Algebra.Group.Nat.Defs

/-!
# Numbers as bytes

Base-256 digits, least significant first, in both directions.
-/
namespace Endian

/-- The number whose bytes, least significant first, are given. -/
def little : List UInt8 → Nat
  | [] => 0
  | b :: bs => b.toNat + 256 * little bs

/-- The low `k` bytes of a number, least significant first. -/
def toLittle : Nat → Nat → List UInt8
  | 0, _ => []
  | k + 1, n => UInt8.ofNat n :: toLittle k (n / 256)

@[simp] theorem length_toLittle (k n : Nat) : (toLittle k n).length = k := by
  induction k generalizing n with
  | zero => rfl
  | succ k ih => simp [toLittle, ih]

theorem little_lt (bs : List UInt8) : little bs < 256 ^ bs.length := by
  induction bs with
  | nil => simp [little]
  | cons b bs ih =>
    have := b.toNat_lt
    simp only [little, List.length_cons, Nat.pow_succ]
    omega

theorem little_append (a b : List UInt8) :
    little (a ++ b) = little a + 256 ^ a.length * little b := by
  induction a with
  | nil => simp [little]
  | cons x a ih =>
    simp only [List.cons_append, little, ih, List.length_cons, Nat.pow_succ]
    rw [Nat.mul_add, Nat.add_assoc, Nat.mul_comm (256 ^ a.length) 256, Nat.mul_assoc]

theorem little_toLittle (k n : Nat) : little (toLittle k n) = n % 256 ^ k := by
  induction k generalizing n with
  | zero => simp [toLittle, little, Nat.mod_one]
  | succ k ih =>
    rw [toLittle, little, ih, Nat.pow_succ, Nat.mul_comm (256 ^ k) 256, Nat.mod_mul]
    simp

/-- Bytes are the digits of their number. -/
theorem toLittle_little (bs : List UInt8) : toLittle bs.length (little bs) = bs := by
  induction bs with
  | nil => rfl
  | cons b bs ih =>
    have hb := b.toNat_lt
    have hdigit : UInt8.ofNat (b.toNat + 256 * little bs) = b := by
      apply UInt8.toNat_inj.mp
      rw [UInt8.toNat_ofNat']
      omega
    have hrest : (b.toNat + 256 * little bs) / 256 = little bs := by omega
    rw [List.length_cons, little, toLittle, hdigit, hrest, ih]

/-- The digit at position `i`. -/
theorem getElem?_toLittle (k n i : Nat) (h : i < k) :
    (toLittle k n)[i]? = some (UInt8.ofNat (n / 256 ^ i)) := by
  induction k generalizing n i with
  | zero => omega
  | succ k ih =>
    cases i with
    | zero => simp [toLittle]
    | succ i =>
      rw [toLittle, List.getElem?_cons_succ, ih (n / 256) i (by omega), Nat.div_div_eq_div_mul,
        Nat.pow_succ, Nat.mul_comm 256]

end Endian
