import Fusain.Wire

/-!
# The encoder

`fusain_encode_packet` writes into a caller's buffer and returns the number of
bytes or a negative code. The buffer is the caller's memory from the pointer on,
so what it must not touch can be said of every later byte.
-/
namespace Fusain.Encoder

open Crc Stuffing Wire

abbrev Memory := Nat → UInt8

def poke (m : Memory) (i : Nat) (b : UInt8) : Memory := fun j => if j = i then b else m j

@[simp] theorem poke_same (m : Memory) (i : Nat) (b : UInt8) : poke m i b i = b := by
  simp [poke]

theorem poke_other (m : Memory) {i j : Nat} (b : UInt8) (h : j ≠ i) :
    poke m i b j = m j := by simp [poke, h]

/-- The output buffer and `index`. -/
structure Output where
  buffer : Memory
  index : Nat

/-- `buffer[index++] = byte` -/
def Output.put (out : Output) (byte : UInt8) : Output :=
  ⟨poke out.buffer out.index byte, out.index + 1⟩

/-- stuff_byte -/
def stuffByte (byte : UInt8) (out : Output) (bufferSize : Nat) : Int × Output :=
  if byte = startByte ∨ byte = endByte ∨ byte = escByte then
    if out.index + 2 > bufferSize then (-1, out)
    else (0, (out.put escByte).put (byte ^^^ escXor))
  else
    if out.index + 1 > bufferSize then (-1, out) else (0, out.put byte)

/-- A loop of `stuff_byte` calls that stops at the first failure. -/
def stuffBytes (bufferSize : Nat) : List UInt8 → Output → Int × Output
  | [], out => (0, out)
  | byte :: bytes, out =>
    let r := stuffByte byte out bufferSize
    if r.1 < 0 then r else stuffBytes bufferSize bytes r.2

/-- `(address >> (i * 8)) & 0xFF` -/
def addressByte (address : UInt64) (i : Nat) : UInt8 :=
  ((address >>> UInt64.ofNat (i * 8)) &&& 0xFF).toUInt8

def addressBytes (address : UInt64) : List UInt8 := (List.range 8).map (addressByte address)

def crcData (packet : FusainPacket) : List UInt8 :=
  packet.length :: (addressBytes packet.address ++ packet.content)

/-- fusain_encode_packet, on the fusain_crc16 of a build; `none` is a null pointer -/
def fusainEncodePacketWith (crc16 : List UInt8 → Nat → UInt16) (packet : Option FusainPacket)
    (buffer : Option Memory) (bufferSize : Nat) : Int × Option Memory :=
  match packet, buffer with
  | some packet, some buffer =>
    if bufferSize < minPacketSize then (-1, some buffer)
    else if packet.length.toNat > maxPayloadSize then (-2, some buffer)
    else
      let out := Output.put ⟨buffer, 0⟩ startByte
      let crc := crc16 (crcData packet) (packet.length.toNat + 9)
      let out := out.put packet.length
      let address := stuffBytes bufferSize (addressBytes packet.address) out
      if address.1 < 0 then (-4, some address.2.buffer)
      else
        let payload := stuffBytes bufferSize packet.content address.2
        if payload.1 < 0 then (-6, some payload.2.buffer)
        else
          let high := stuffByte (crcHigh crc) payload.2 bufferSize
          if high.1 < 0 then (-7, some high.2.buffer)
          else
            let low := stuffByte (crcLow crc) high.2 bufferSize
            if low.1 < 0 then (-8, some low.2.buffer)
            else if low.2.index ≥ bufferSize then (-9, some low.2.buffer)
            else
              let out := low.2.put endByte
              (out.index, some out.buffer)
  | _, buffer => (-1, buffer)

/-- fusain_encode_packet, standalone build -/
def fusainEncodePacket (packet : Option FusainPacket) (buffer : Option Memory)
    (bufferSize : Nat) : Int × Option Memory :=
  fusainEncodePacketWith fusainCrc16 packet buffer bufferSize

/-- The bytes that a call of the encoder reports as written. -/
def reported : Int × Option Memory → List UInt8
  | (ret, some m) => (List.range ret.toNat).map m
  | (_, none) => []

/-- The first bytes of the memory are `w`, and every later byte is as it was. -/
def Written (buffer : Memory) (w : List UInt8) (m : Memory) : Prop :=
  ∀ i, m i = if h : i < w.length then w[i] else buffer i

theorem Written.put {buffer m : Memory} {w : List UInt8} (h : Written buffer w m) (b : UInt8) :
    Written buffer (w ++ [b]) (poke m w.length b) := by
  intro i
  by_cases hi : i = w.length
  · subst hi; simp
  · rw [poke_other _ _ hi, h i]
    by_cases hlt : i < w.length
    · simp [hlt, show i < w.length + 1 by omega, List.getElem_append_left hlt]
    · simp [hlt, show ¬ i < w.length + 1 by omega]

theorem Written.read {buffer m : Memory} {w : List UInt8} (h : Written buffer w m) :
    (List.range w.length).map m = w := by
  apply List.ext_getElem
  · simp
  · intro i h1 h2
    simp [h i, h2]

structure Holds (buffer : Memory) (w : List UInt8) (out : Output) : Prop where
  index : out.index = w.length
  written : Written buffer w out.buffer

theorem Holds.put {buffer : Memory} {w : List UInt8} {out : Output} (h : Holds buffer w out)
    (b : UInt8) : Holds buffer (w ++ [b]) (out.put b) where
  index := by simp [Output.put, h.index]
  written := by
    have := h.written.put b
    rwa [← h.index] at this

/-- `stuff_byte` writes the stuffed byte if it fits, and nothing at all otherwise. -/
theorem stuffByte_spec {buffer : Memory} {w : List UInt8} {out : Output} (size : Nat) (b : UInt8)
    (h : Holds buffer w out) :
    if (w ++ stuffOne scheme b).length ≤ size then
      (stuffByte b out size).1 = 0 ∧ Holds buffer (w ++ stuffOne scheme b) (stuffByte b out size).2
    else stuffByte b out size = (-1, out) := by
  by_cases hs : b = startByte ∨ b = endByte ∨ b = escByte
  · have hb : scheme.special b = true := (special_iff b).mpr hs
    have hl : (w ++ stuffOne scheme b).length = out.index + 2 := by
      simp [stuffOne_special scheme hb, h.index]
    by_cases hfit : out.index + 2 ≤ size
    · rw [if_pos (by omega), stuffByte, if_pos hs, if_neg (by omega), stuffOne_special scheme hb]
      have h2 := (h.put escByte).put (b ^^^ escXor)
      exact ⟨rfl, by simpa using h2⟩
    · rw [if_neg (by omega), stuffByte, if_pos hs, if_pos (by omega)]
  · have hb : scheme.special b = false := by simpa using mt (special_iff b).mp hs
    have hl : (w ++ stuffOne scheme b).length = out.index + 1 := by
      simp [stuffOne_plain scheme hb, h.index]
    by_cases hfit : out.index + 1 ≤ size
    · rw [if_pos (by omega), stuffByte, if_neg hs, if_neg (by omega), stuffOne_plain scheme hb]
      exact ⟨rfl, h.put b⟩
    · rw [if_neg (by omega), stuffByte, if_neg hs, if_pos (by omega)]

theorem stuffBytes_append (size : Nat) (a b : List UInt8) (out : Output) :
    stuffBytes size (a ++ b) out =
      if (stuffBytes size a out).1 < 0 then stuffBytes size a out
      else stuffBytes size b (stuffBytes size a out).2 := by
  induction a generalizing out with
  | nil => simp [stuffBytes]
  | cons x a ih =>
    simp only [List.cons_append, stuffBytes]
    by_cases hx : (stuffByte x out size).1 < 0
    · simp [hx]
    · simp [hx, ih]

/-- A call outside a loop is a loop over one byte. -/
theorem stuffBytes_singleton (size : Nat) (b : UInt8) (out : Output) :
    stuffBytes size [b] out = stuffByte b out size := by
  have h0 : (stuffByte b out size).1 = 0 ∨ (stuffByte b out size).1 < 0 := by
    unfold stuffByte
    split <;> split <;> simp
  simp only [stuffBytes]
  rcases h0 with h0 | h0
  · rw [if_neg (by omega)]
    exact Prod.ext h0.symm rfl
  · rw [if_pos h0]

/-- The loop writes the whole stuffed word, or stops between two bytes of the word. -/
theorem stuffBytes_spec {buffer : Memory} {w : List UInt8} {out : Output} (size : Nat)
    (bs : List UInt8) (h : Holds buffer w out) (hw : w.length ≤ size) :
    ((w ++ stuff scheme bs).length ≤ size ∧ (stuffBytes size bs out).1 = 0 ∧
        Holds buffer (w ++ stuff scheme bs) (stuffBytes size bs out).2) ∨
      (size < (w ++ stuff scheme bs).length ∧ (stuffBytes size bs out).1 < 0 ∧
        ∃ bs₁ bs₂, bs = bs₁ ++ bs₂ ∧ (w ++ stuff scheme bs₁).length ≤ size ∧
          Holds buffer (w ++ stuff scheme bs₁) (stuffBytes size bs out).2) := by
  induction bs generalizing w out with
  | nil => left; simpa [stuffBytes] using ⟨hw, h⟩
  | cons b bs ih =>
    have hb := stuffByte_spec size b h
    by_cases hfit : (w ++ stuffOne scheme b).length ≤ size
    · rw [if_pos hfit] at hb
      obtain ⟨h0, hout⟩ := hb
      have hstep : stuffBytes size (b :: bs) out = stuffBytes size bs (stuffByte b out size).2 := by
        simp [stuffBytes, h0]
      rw [hstep]
      have happ : w ++ stuff scheme (b :: bs) = (w ++ stuffOne scheme b) ++ stuff scheme bs := by
        simp
      rcases ih hout hfit with hok | ⟨hlong, hneg, bs₁, bs₂, rfl, hl, hold⟩
      · left; rwa [happ]
      · right
        refine ⟨by rwa [happ], hneg, b :: bs₁, bs₂, rfl, ?_, ?_⟩
        · simpa using hl
        · simpa using hold
    · rw [if_neg hfit] at hb
      right
      have hstep : stuffBytes size (b :: bs) out = (-1, out) := by simp [stuffBytes, hb]
      rw [hstep]
      refine ⟨?_, Int.negSucc_lt_zero 0, [], b :: bs, rfl, by simpa using hw, by simpa using h⟩
      simp only [stuff_cons, List.length_append] at hfit ⊢
      omega

theorem addressBytes_eq (address : UInt64) : addressBytes address = addressField address := by
  apply List.ext_getElem?
  intro i
  by_cases hi : i < 8
  · have hs : (UInt64.ofNat (i * 8)).toNat % 64 = 8 * i := by
      rw [UInt64.toNat_ofNat']
      omega
    have hp : 2 ^ (8 * i) = 256 ^ i := by rw [Nat.pow_mul]
    have ha : (address >>> UInt64.ofNat (i * 8) &&& 0xFF).toNat = address.toNat / 256 ^ i % 256 := by
      rw [UInt64.toNat_and, UInt64.toNat_shiftRight, hs, Nat.shiftRight_eq_div_pow, hp]
      exact Nat.and_two_pow_sub_one_eq_mod _ 8
    have hb : addressByte address i = UInt8.ofNat (address.toNat / 256 ^ i) := by
      apply UInt8.toNat_inj.mp
      rw [addressByte, UInt64.toNat_toUInt8, ha, UInt8.toNat_ofNat', Nat.mod_mod]
    rw [addressField, Endian.getElem?_toLittle _ _ _ hi, ← hb]
    simp [addressBytes, hi]
  · rw [List.getElem?_eq_none (by simp [addressBytes]; omega),
      List.getElem?_eq_none (by simp; omega)]

/-- The output after the two unchecked writes. -/
def opened (packet : FusainPacket) (buffer : Memory) : Output :=
  (Output.put ⟨buffer, 0⟩ startByte).put packet.length

theorem holds_opened (packet : FusainPacket) (buffer : Memory) :
    Holds buffer [startByte, packet.length] (opened packet buffer) := by
  have h0 : Holds buffer [] ⟨buffer, 0⟩ := ⟨rfl, fun i => by simp⟩
  exact (h0.put startByte).put packet.length

/-- Past the entry checks the four groups of `stuff_byte` calls are one loop over the
body: where it fails only the code differs, and where it succeeds END is left. -/
theorem encode_eq {packet : FusainPacket} (buffer : Memory) {size : Nat}
    (hsize : minPacketSize ≤ size) (hp : packet.length.toNat ≤ maxPayloadSize) :
    let r := stuffBytes size (body packet) (opened packet buffer)
    if r.1 < 0 then ∃ code < 0,
      fusainEncodePacket (some packet) (some buffer) size = (code, some r.2.buffer)
    else fusainEncodePacket (some packet) (some buffer) size =
      if r.2.index ≥ size then (-9, some r.2.buffer)
      else (((r.2.put endByte).index : Int), some (r.2.put endByte).buffer) := by
  have hcrc : fusainCrc16 (crcData packet) (packet.length.toNat + 9) = residue (checked packet) := by
    have hc : crcData packet = checked packet := by rw [crcData, addressBytes_eq, checked]
    rw [hc, fusainCrc16_eq _ _ (length_checked hp).symm]
  have hbody : body packet = addressField packet.address ++ (packet.content ++
      ([crcHigh (residue (checked packet))] ++ [crcLow (residue (checked packet))])) := by
    simp [body, checkField]
  have hopen : (Output.put ⟨buffer, 0⟩ startByte).put packet.length = opened packet buffer := rfl
  simp only [hbody, stuffBytes_append, stuffBytes_singleton, fusainEncodePacket,
    fusainEncodePacketWith, if_neg (Nat.not_lt.mpr hsize), if_neg (Nat.not_lt.mpr hp), hcrc,
    addressBytes_eq, hopen]
  -- one case for each group of calls that may fail first
  by_cases hA : (stuffBytes size (addressField packet.address) (opened packet buffer)).1 < 0
  · simp only [if_pos hA]
    exact ⟨-4, by decide, rfl⟩
  simp only [if_neg hA]
  generalize (stuffBytes size (addressField packet.address) (opened packet buffer)).2 = out
  by_cases hP : (stuffBytes size packet.content out).1 < 0
  · simp only [if_pos hP]
    exact ⟨-6, by decide, rfl⟩
  simp only [if_neg hP]
  generalize (stuffBytes size packet.content out).2 = out
  by_cases hH : (stuffByte (crcHigh (residue (checked packet))) out size).1 < 0
  · simp only [if_pos hH]
    exact ⟨-7, by decide, rfl⟩
  simp only [if_neg hH]
  generalize (stuffByte (crcHigh (residue (checked packet))) out size).2 = out
  by_cases hL : (stuffByte (crcLow (residue (checked packet))) out size).1 < 0
  · simp only [if_pos hL]
    exact ⟨-8, by decide, rfl⟩
  · simp only [if_neg hL]

theorem encode_refused {packet : FusainPacket} (buffer : Memory) {size : Nat}
    (h : size < minPacketSize ∨ maxPayloadSize < packet.length.toNat) :
    ∃ code < 0, fusainEncodePacket (some packet) (some buffer) size = (code, some buffer) := by
  unfold fusainEncodePacket fusainEncodePacketWith
  by_cases hs : size < minPacketSize
  · exact ⟨-1, by decide, by simp only [if_pos hs]⟩
  · have hl : packet.length.toNat > maxPayloadSize := h.resolve_left hs
    exact ⟨-2, by decide, by simp only [if_neg hs, if_pos hl]⟩

section Accepted

variable {packet : FusainPacket} (buffer : Memory) {size : Nat}
  (hsize : minPacketSize ≤ size) (hp : packet.length.toNat ≤ maxPayloadSize)
include hsize hp

theorem encode_whole (hfit : (frame packet).length ≤ size) :
    ∃ m, fusainEncodePacket (some packet) (some buffer) size = (((frame packet).length : Int), some m) ∧
      Written buffer (frame packet) m := by
  have he := encode_eq buffer hsize hp
  simp only [frame, List.length_cons, List.length_append, List.length_nil] at hfit
  have hs := stuffBytes_spec size (body packet) (holds_opened packet buffer)
    (by simp only [List.length_cons, List.length_nil]; omega)
  simp only [List.length_append, List.length_cons, List.length_nil] at hs
  rcases hs with ⟨-, h0, hold⟩ | ⟨hlong, -⟩
  · have hend := hold.put endByte
    have hw : [startByte, packet.length] ++ stuff scheme (body packet) ++ [endByte] =
        frame packet := by simp [frame]
    rw [hw] at hend
    have hroom : ¬ (stuffBytes size (body packet) (opened packet buffer)).2.index ≥ size := by
      rw [hold.index]
      simp only [List.length_append, List.length_cons, List.length_nil]
      omega
    rw [if_neg (by omega), if_neg hroom] at he
    exact ⟨_, by rw [he, hend.index], hend.written⟩
  · omega

/-- A frame that does not fit is cut between two stuffed bytes. -/
theorem encode_cut (hcut : size < (frame packet).length) :
    ∃ code < 0, ∃ m w,
      fusainEncodePacket (some packet) (some buffer) size = (code, some m) ∧
      Written buffer w m ∧ w <+: frame packet ∧ w.length ≤ size ∧
      w.getLast? ≠ some escByte := by
  have he := encode_eq buffer hsize hp
  simp only [minPacketSize] at hsize
  have hs := stuffBytes_spec size (body packet) (holds_opened packet buffer)
    (by simp only [List.length_cons, List.length_nil]; omega)
  -- the two bytes before the stuffed part do not end in an escape either
  have hlast : ∀ bs, ([startByte, packet.length] ++ stuff scheme bs).getLast? ≠ some escByte := by
    intro bs
    rw [List.getLast?_append]
    cases hb : (stuff scheme bs).getLast? with
    | none =>
      have hne := plain_ne_esc scheme (length_plain hp)
      simpa using hne
    | some x =>
      have := getLast_stuff_ne_esc scheme bs
      simpa [hb] using this
  rcases hs with ⟨hl, h0, hold⟩ | ⟨-, hneg, bs₁, bs₂, hbs, hl, hold⟩
  · have hfull : (stuffBytes size (body packet) (opened packet buffer)).2.index ≥ size := by
      rw [hold.index]
      simp only [frame, List.length_cons, List.length_append, List.length_nil] at hcut hl ⊢
      omega
    rw [if_neg (by omega), if_pos hfull] at he
    refine ⟨-9, by decide, _, _, he, hold.written, ?_, hl, hlast _⟩
    exact ⟨[endByte], by simp [frame]⟩
  · rw [if_pos hneg] at he
    obtain ⟨code, hcode, he⟩ := he
    refine ⟨code, hcode, _, _, he, hold.written, ?_, hl, hlast _⟩
    exact ⟨stuff scheme bs₂ ++ [endByte], by simp [frame, hbs]⟩

end Accepted

theorem sends_iff (packet : FusainPacket) (buffer : Memory) (size : Nat) :
    0 < (fusainEncodePacket (some packet) (some buffer) size).1 ↔
      packet.length.toNat ≤ maxPayloadSize ∧ max minPacketSize (frame packet).length ≤ size := by
  have hpos : 0 < (frame packet).length := by simp [frame]
  by_cases href : size < minPacketSize ∨ maxPayloadSize < packet.length.toNat
  · obtain ⟨code, hneg, he⟩ := encode_refused buffer href
    simp only [he]
    omega
  · obtain ⟨hsize, hp⟩ : minPacketSize ≤ size ∧ packet.length.toNat ≤ maxPayloadSize := by omega
    by_cases hfit : (frame packet).length ≤ size
    · obtain ⟨m, he, -⟩ := encode_whole buffer hsize hp hfit
      simp only [he]
      omega
    · obtain ⟨code, hneg, m, w, he, -⟩ := encode_cut buffer hsize hp (by omega)
      simp only [he]
      omega

theorem reported_frame {packet : FusainPacket} (buffer : Memory) {size : Nat}
    (hp : packet.length.toNat ≤ maxPayloadSize)
    (hroom : max minPacketSize (frame packet).length ≤ size) :
    reported (fusainEncodePacket (some packet) (some buffer) size) = frame packet := by
  obtain ⟨hsize, hfit⟩ := Nat.max_le.mp hroom
  obtain ⟨m, he, hw⟩ := encode_whole buffer hsize hp hfit
  rw [he, reported]
  exact hw.read

/-- The encoder succeeds exactly when the whole frame fits into a buffer of at least
the minimum size. Then it writes the frame and nothing else; otherwise it writes at
most a prefix that no escape is left dangling from. -/
theorem encode_exact (packet : FusainPacket) (buffer : Memory) (size : Nat) :
    (packet.length.toNat ≤ maxPayloadSize → (frame packet).length ≤ 251) ∧
    ∃ ret m, fusainEncodePacket (some packet) (some buffer) size = (ret, some m) ∧
      (0 < ret ↔ packet.length.toNat ≤ maxPayloadSize ∧
        max minPacketSize (frame packet).length ≤ size) ∧
      (0 < ret → ret = (frame packet).length ∧ Written buffer (frame packet) m) ∧
      (¬ 0 < ret → ret < 0 ∧ ∃ w, Written buffer w m ∧ w <+: frame packet ∧ w.length ≤ size ∧
        w.getLast? ≠ some escByte ∧
        (maxPayloadSize < packet.length.toNat ∨ size < minPacketSize → w = [])) := by
  refine ⟨fun hp => length_frame_le hp, ?_⟩
  have hsends := sends_iff packet buffer size
  have hpos : 0 < (frame packet).length := by simp [frame]
  by_cases href : size < minPacketSize ∨ maxPayloadSize < packet.length.toNat
  · obtain ⟨code, hneg, he⟩ := encode_refused buffer href
    rw [he] at hsends
    refine ⟨code, buffer, he, hsends, by omega, fun _ => ⟨hneg, [], ?_⟩⟩
    exact ⟨fun i => by simp, List.nil_prefix, Nat.zero_le _, by simp, fun _ => rfl⟩
  · obtain ⟨hsize, hp⟩ : minPacketSize ≤ size ∧ packet.length.toNat ≤ maxPayloadSize := by omega
    by_cases hfit : (frame packet).length ≤ size
    · obtain ⟨m, he, hw⟩ := encode_whole buffer hsize hp hfit
      rw [he] at hsends
      exact ⟨_, m, he, hsends, fun _ => ⟨rfl, hw⟩, by omega⟩
    · obtain ⟨code, hneg, m, w, he, hw, hpre, hl, hesc⟩ := encode_cut buffer hsize hp (by omega)
      rw [he] at hsends
      exact ⟨code, m, he, hsends, by omega, fun _ => ⟨hneg, w, hw, hpre, hl, hesc, by omega⟩⟩

end Fusain.Encoder
