import Fusain.Packet
import Fusain.Crc
import Fusain.Lib.Stuffing
import Fusain.Lib.Endian

/-!
# The wire format

What a frame is, apart from the code that writes and reads it: the bytes the
frame check covers, the stuffing of everything between LENGTH and END, and the
message header a receiver insists on.
-/
namespace Fusain.Wire

open Crc Stuffing

/-- START, END and ESC are hidden behind ESC with bit 5 flipped. -/
def scheme : Scheme UInt8 where
  flag := startByte
  esc := escByte
  special b := b == startByte || b == endByte || b == escByte
  mask b := b ^^^ escXor
  flag_special := by decide
  esc_special := by decide
  flag_ne_esc := by decide
  mask_mask b := by rw [UInt8.xor_assoc, UInt8.xor_self, UInt8.xor_zero]
  mask_ne b h := by
    have hx : b ^^^ (b ^^^ escXor) = b ^^^ b := by rw [h]
    rw [← UInt8.xor_assoc, UInt8.xor_self, UInt8.zero_xor] at hx
    cases hx
  mask_plain b h := by
    simp only [Bool.or_eq_true, beq_iff_eq] at h
    rcases h with (rfl | rfl) | rfl <;> decide

@[simp] theorem scheme_flag : scheme.flag = startByte := rfl
@[simp] theorem scheme_esc : scheme.esc = escByte := rfl
@[simp] theorem scheme_mask (b : UInt8) : scheme.mask b = b ^^^ escXor := rfl

theorem special_iff (b : UInt8) :
    scheme.special b = true ↔ b = startByte ∨ b = endByte ∨ b = escByte := by
  simp [scheme, or_assoc]

/-- The bytes of an address, least significant first. -/
def addressField (address : UInt64) : List UInt8 := Endian.toLittle 8 address.toNat

/-- What the frame check covers: LENGTH, ADDRESS and the payload. -/
def checked (p : FusainPacket) : List UInt8 := p.length :: (addressField p.address ++ p.content)

/-- The frame check of a word, high byte first. -/
def checkField (word : List UInt8) : List UInt8 :=
  [crcHigh (residue word), crcLow (residue word)]

/-- Everything between LENGTH and END, before stuffing. -/
def body (p : FusainPacket) : List UInt8 :=
  addressField p.address ++ p.content ++ checkField (checked p)

/-- The whole frame of a packet. -/
def frame (p : FusainPacket) : List UInt8 :=
  startByte :: p.length :: (stuff scheme (body p) ++ [endByte])

/-- The message type announced by a payload `[type, ...]`. -/
def headerType : List UInt8 → Option UInt8
  | 0x82 :: t :: rest =>
    if t ≤ 0x17 then some t else if t = 0x18 then rest.head? else none
  | _ => none

@[simp] theorem length_addressField (a : UInt64) : (addressField a).length = 8 := by
  simp [addressField]

theorem little_addressField (a : UInt64) : Endian.little (addressField a) = a.toNat := by
  rw [addressField, Endian.little_toLittle]
  exact Nat.mod_eq_of_lt a.toNat_lt

@[simp] theorem length_checkField (w : List UInt8) : (checkField w).length = 2 := rfl

theorem residue_checkField (w : List UInt8) : residue (w ++ checkField w) = 0 := by
  rw [checkField, residue_eq_zero_iff, crc_split]

/-- A LENGTH byte in range is never special. -/
theorem length_plain {l : UInt8} (hl : l.toNat ≤ maxPayloadSize) : scheme.special l = false := by
  have ne : ∀ b : UInt8, maxPayloadSize < b.toNat → l ≠ b := by
    rintro b hb rfl
    omega
  simp [scheme, ne startByte (by decide), ne endByte (by decide), ne escByte (by decide)]

section Short

variable {p : FusainPacket} (hp : p.length.toNat ≤ maxPayloadSize)
include hp

theorem length_checked : (checked p).length = p.length.toNat + 9 := by
  simp only [checked, List.length_cons, List.length_append, length_addressField,
    p.length_content hp]
  omega

theorem length_body : (body p).length = p.length.toNat + 10 := by
  simp only [body, List.length_append, length_addressField, length_checkField,
    p.length_content hp]
  omega

/-- The largest frame: every byte between LENGTH and END escaped. -/
theorem length_frame_le : (frame p).length ≤ 251 := by
  have h := length_stuff_le scheme (body p)
  rw [length_body hp] at h
  simp only [frame, List.length_cons, List.length_append, List.length_nil]
  simp only [maxPayloadSize] at hp
  omega

end Short

end Fusain.Wire
