import Fusain.RoundTrip

/-!
# The two builds

A Zephyr build takes the frame check from `crc16_itu_t` of the Zephyr library, which
updates a whole byte at a time without a branch. A byte of either update is a linear
map of the register with the byte added at the top, so sixteen registers of one bit
each decide whether the two are the same. Encoder and decoder take the check of their
build as a parameter, and what either build sends is read by the other.
-/
namespace Fusain.BuildModes

open Crc Decoder Encoder RoundTrip ShiftRegister Wire

/-- One byte of crc16_itu_t, as Zephyr specifies it. -/
def ituByte (seed : UInt16) (byte : UInt8) : UInt16 :=
  let seed := (seed >>> 8) ||| (seed <<< 8)
  let seed := seed ^^^ byte.toUInt16
  let seed := seed ^^^ ((seed &&& 0xFF) >>> 4)
  let seed := seed ^^^ (seed <<< 12)
  seed ^^^ ((seed &&& 0xFF) <<< 5)

/-- fusain_crc16, Zephyr build -/
def fusainCrc16Zephyr (crc16ItuT : UInt16 → List UInt8 → Nat → UInt16) (data : List UInt8)
    (length : Nat) : UInt16 :=
  crc16ItuT 0xFFFF data length

/-- CONFIG_FUSAIN is set or not. -/
inductive Build where
  | zephyr | standalone
  deriving DecidableEq, Repr

/-- The frame check of a build. -/
def Build.crc16 (crc16ItuT : UInt16 → List UInt8 → Nat → UInt16) :
    Build → List UInt8 → Nat → UInt16
  | .zephyr => fusainCrc16Zephyr crc16ItuT
  | .standalone => fusainCrc16

def swap (v : BitVec 16) : BitVec 16 := v >>> 8 ||| v <<< 8

/-- The first two sums. -/
def foldDown (v : BitVec 16) : BitVec 16 := v ^^^ (v &&& 0xFF#16) >>> 4
def foldUp (v : BitVec 16) : BitVec 16 := v ^^^ v <<< 12
def spread (v : BitVec 16) : BitVec 16 := v ^^^ (v &&& 0xFF#16) <<< 5

theorem swap_xor (v : BitVec 16) : swap v = v >>> 8 ^^^ v <<< 8 := by
  apply BitVec.eq_of_getLsbD_eq
  intro i hi
  simp only [swap, BitVec.getLsbD_or, BitVec.getLsbD_xor, BitVec.getLsbD_ushiftRight,
    BitVec.getLsbD_shiftLeft, hi]
  by_cases h : i < 8
  · simp [h]
  · simp [h, BitVec.getLsbD_of_ge v (8 + i) (by omega)]

theorem swap_linear : Linear swap := by
  intro u v
  simp only [swap_xor, BitVec.ushiftRight_xor_distrib, BitVec.shiftLeft_xor_distrib]
  ac_rfl

theorem mask_linear (m : BitVec 16) : Linear fun v => v &&& m := by
  intro u v
  apply BitVec.eq_of_getLsbD_eq
  intro i hi
  simp only [BitVec.getLsbD_and, BitVec.getLsbD_xor]
  cases u.getLsbD i <;> cases v.getLsbD i <;> simp

theorem shiftLeft_linear (n : Nat) : Linear fun v : BitVec 16 => v <<< n :=
  fun u v => BitVec.shiftLeft_xor_distrib u v n

theorem shiftRight_linear (n : Nat) : Linear fun v : BitVec 16 => v >>> n :=
  fun u v => BitVec.ushiftRight_xor_distrib u v n

theorem id_linear : Linear fun v : BitVec 16 => v := fun _ _ => rfl

theorem foldDown_linear : Linear foldDown :=
  id_linear.add ((shiftRight_linear 4).comp (mask_linear 0xFF#16))

theorem foldUp_linear : Linear foldUp := id_linear.add (shiftLeft_linear 12)

theorem spread_linear : Linear spread :=
  id_linear.add ((shiftLeft_linear 5).comp (mask_linear 0xFF#16))

/-- Eight bits of the standalone loop are one update of crc16_itu_t. -/
theorem shifts_eq (v : BitVec 16) : (shift generator)^[8] v = spread (foldUp (foldDown (swap v))) := by
  have hitu : Linear fun v => spread (foldUp (foldDown (swap v))) :=
    spread_linear.comp (foldUp_linear.comp (foldDown_linear.comp swap_linear))
  exact (shifts_linear generator 8).ext hitu (by decide) v

/-- The byte enters below the exchange or above it. -/
theorem swap_enter (seed : UInt16) (byte : UInt8) :
    swap (seed ^^^ byte.toUInt16 <<< 8).toBitVec = swap seed.toBitVec ^^^ byte.toUInt16.toBitVec := by
  have hbyte : swap (byte.toUInt16 <<< 8).toBitVec = byte.toUInt16.toBitVec := by
    apply BitVec.eq_of_getLsbD_eq
    intro i hi
    rw [swap_xor, UInt16.toBitVec_shiftLeft, UInt8.toBitVec_toUInt16]
    by_cases h : i < 8
    · simp [hi, h, show 8 + i < 16 by omega]
    · simp [hi, BitVec.getLsbD_of_ge byte.toBitVec i (by omega)]
  rw [UInt16.toBitVec_xor, swap_linear, hbyte]

theorem ituByte_eq (seed : UInt16) (byte : UInt8) : ituByte seed byte = crcByte seed byte := by
  apply UInt16.toBitVec_inj.mp
  rw [crcByte, crcBits_toBitVec, shifts_eq, swap_enter]
  rfl

/-- The calls of fusain_decode_byte over a byte stream, in a build with this frame check. -/
def receiveWith (crc16 : List UInt8 → Nat → UInt16) (r : Receiver) (b : UInt8) : Receiver × Step :=
  let c := fusainDecodeByteWith crc16 b r.packet r.decoder
  (⟨c.packet, c.decoder⟩, c)

/-- Both builds compute one check. So the two encoders answer every call alike, and what either
writes is read by either decoder, from any memory with no escape open. -/
theorem builds_agree (crc16ItuT : UInt16 → List UInt8 → Nat → UInt16)
    (hitu : ∀ seed data length,
      crc16ItuT seed data length = (data.take length).foldl ituByte seed) :
    fusainCrc16Zephyr crc16ItuT = fusainCrc16 ∧
      ∀ (sender receiver : Build) (p : FusainPacket) (buffer : Memory) (size : Nat) (r : Receiver),
        let call := fusainEncodePacketWith (sender.crc16 crc16ItuT) (some p) (some buffer) size
        let step := receiveWith (receiver.crc16 crc16ItuT)
        (0 < call.1 ↔ p.length.toNat ≤ maxPayloadSize ∧ max minPacketSize (frame p).length ≤ size) ∧
          (0 < call.1 → r.decoder.escapeNext = false →
            Reads p (reported call) (Machine.answers step r (reported call)) ∧
              (Machine.final step r (reported call)).decoder.escapeNext = false) := by
  have hbyte : ituByte = crcByte := by
    funext seed byte
    exact ituByte_eq seed byte
  have hcrc : fusainCrc16Zephyr crc16ItuT = fusainCrc16 := by
    funext data length
    rw [fusainCrc16Zephyr, hitu, hbyte, fusainCrc16]
  refine ⟨hcrc, fun sender receiver p buffer size r => ?_⟩
  have hbuild : ∀ b : Build, b.crc16 crc16ItuT = fusainCrc16 := by
    intro b
    cases b with
    | zephyr => exact hcrc
    | standalone => rfl
  rw [hbuild sender, hbuild receiver]
  refine ⟨sends_iff p buffer size, fun hsent hr => ?_⟩
  exact frame_received ⟨p, buffer, size, hsent⟩ r hr

/-- crc16_itu_t on a list of bytes. -/
def crc16ItuT (seed : UInt16) (data : List UInt8) (length : Nat) : UInt16 :=
  (data.take length).foldl ituByte seed

/-- A request from a Zephyr sender, heard by a standalone receiver. -/
theorem builds_agree_itu :
    fusainCrc16Zephyr crc16ItuT = fusainCrc16 ∧
      let call := fusainEncodePacketWith (Build.zephyr.crc16 crc16ItuT) (some request.packet)
        (some request.buffer) 64
      Reads request.packet (reported call)
        (Machine.answers (receiveWith (Build.standalone.crc16 crc16ItuT))
          ⟨zeroPacket, zeroDecoder⟩ (reported call)) := by
  obtain ⟨hcrc, hbuilds⟩ := builds_agree crc16ItuT fun _ _ _ => rfl
  obtain ⟨hsends, hreads⟩ := hbuilds .zephyr .standalone request.packet request.buffer 64
    ⟨zeroPacket, zeroDecoder⟩
  exact ⟨hcrc, (hreads (hsends.mpr ⟨by decide +kernel, by decide +kernel⟩) rfl).1⟩

/-- The check of the digits from 1 to 9. -/
example : fusainCrc16Zephyr crc16ItuT [0x31, 0x32, 0x33, 0x34, 0x35, 0x36, 0x37, 0x38, 0x39] 9 =
    0x29B1 := by decide +kernel

end Fusain.BuildModes
