import Fusain.Exchange
import Fusain.Lib.Binary

/-!
# Temperatures

A temperature is a float at the sender and a double in the payload. The conversion is the
one of the language; it loses nothing, so that a receiver reads the number the sender
meant, down to the smallest float.
-/
namespace Fusain.Temperature

open Binary Builders Decoder Exchange Messages Payload Typed Zcbor

/-- Every float, subnormal ones among them, is a normal double or zero. -/
theorem double_wider : Wider binary32 binary64 where
  exponent := by decide
  fraction := by decide

/-- The conversion from float to double, on bit patterns. Which NaN becomes of a NaN is left
open by the language; here it keeps its fraction. -/
def floatToDouble (bits : UInt32) : UInt64 :=
  UInt64.ofNat ((binary32.fields bits.toNat).widen double_wider).bits

def float (bits : UInt32) : Number := (binary32.fields bits.toNat).number

def double (bits : UInt64) : Number := (binary64.fields bits.toNat).number

theorem double_floatToDouble (bits : UInt32) : double (floatToDouble bits) = float bits := by
  have hlt := bits_lt ((binary32.fields bits.toNat).widen double_wider)
  have hbits : (floatToDouble bits).toNat = ((binary32.fields bits.toNat).widen double_wider).bits := by
    rw [floatToDouble, UInt64.toNat_ofNat']
    exact Nat.mod_eq_of_lt hlt
  rw [double, hbits, fields_bits, number_widen, float]

/-- 21.0, the smallest float, and the largest below infinity. -/
example : floatToDouble 0x41A80000 = 0x4035000000000000 ∧ floatToDouble 1 = 0x36A0000000000000 ∧
    floatToDouble 0x7F7FFFFF = 0x47EFFFFFE0000000 ∧ floatToDouble 0xFF800000 = 0xFFF0000000000000 := by
  decide

theorem conveys_mono {p : FusainPacket} {type : FusainMsgType} {address : UInt64}
    {P Q : List UInt8 → Prop} (h : Conveys p type address P) (hPQ : ∀ l, P l → Q l) :
    Conveys p type address Q := by
  obtain ⟨hge, hle, haddr, hmsg, headerLen, hheader, hbody⟩ := h
  exact ⟨hge, hle, haddr, hmsg, headerLen, hheader, hPQ _ hbody⟩

section Link

variable {E D : Type} (z : Runtime E D)

/-- What the receiver reads of a temperature: the number that was sent. An index above 127 is
refused by the payload code. -/
structure Measured (q : Request) (chunk : List Step) : Prop where
  reading : ∀ thermometer timestamp reading, thermometer.toNat ≤ 127 →
    q.call = .tempData thermometer timestamp reading → ∃ m, accepted chunk = [m] ∧
      Conveys m .tempData q.address fun l => ∃ data,
        cborDecodeTempDataPayload z l = some (data, l.length) ∧
          data.thermometerIndex = deviceIndex thermometer ∧ data.timestamp = timestamp ∧
          double data.uint2float = float reading
  target : ∀ thermometer motorIndex targetTemp, thermometer.toNat ≤ 127 →
    q.call = .tempCommand thermometer tempCmdSetTargetTemp motorIndex targetTemp →
      ∃ m, accepted chunk = [m] ∧ Conveys m .tempCommand q.address fun l => ∃ data bits,
        cborDecodeTempCommandPayload z l = some (data, l.length) ∧
          data.thermometerIndex = deviceIndex thermometer ∧
          data.tempCmdType = tempCmdSetTargetTemp ∧ data.motorIndex = none ∧
          data.uint3float = some bits ∧ double bits = float targetTemp

variable {z} {W : E → List UInt8 → Nat → Prop} {R : D → Bool → List UInt8 → Prop}
  (hz : Standard z W R)

theorem served_measured {q : Request} {chunk : List Step} (h : Served z floatToDouble q chunk) :
    Measured z q chunk where
  reading := by
    intro thermometer timestamp reading hindex hcall
    have hin : q.call.InRange := by rw [hcall]; exact hindex
    obtain ⟨m, hone, hconveys⟩ := h.inRange hin
    rw [hcall] at hconveys
    refine ⟨m, hone, conveys_mono hconveys fun l hl => ⟨_, hl, rfl, rfl, ?_⟩⟩
    exact double_floatToDouble reading
  target := by
    intro thermometer motorIndex targetTemp hindex hcall
    have hin : q.call.InRange := by
      rw [hcall]
      exact ⟨hindex, by decide, fun h => absurd h (by decide)⟩
    obtain ⟨m, hone, hconveys⟩ := h.inRange hin
    rw [hcall] at hconveys
    refine ⟨m, hone, conveys_mono hconveys fun l hl => ⟨_, _, hl, rfl, rfl, rfl, rfl, ?_⟩⟩
    exact double_floatToDouble targetTemp

include hz

end Link

end Fusain.Temperature
