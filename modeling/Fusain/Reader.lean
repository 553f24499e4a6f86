import Fusain.Wire
import Fusain.Lib.Machine

/-!
# What a byte stream means

The reference reading of an arbitrary byte stream. START always opens a frame; the
values of the tokens after it are LENGTH, ADDRESS, payload, check and terminator
by position, and the result of every byte is determined by the tokens so far.
-/
namespace Fusain.Reader

open Crc Stuffing Wire

/-- The result of the newest token of a frame, read as `raw`, when the values of the
frame's tokens are `vs`, the newest included. -/
def verdict (raw : UInt8) (vs : List UInt8) : FusainDecodeResult :=
  match vs with
  | [] => .incomplete
  | l :: rest =>
    if l.toNat > maxPayloadSize then (if rest = [] then .invalidLength else .incomplete)
    else if vs.length ≠ l.toNat + 12 then .incomplete
    else if raw ≠ endByte then .invalidStart
    else if 256 * (vs.getD (l.toNat + 9) 0).toNat + (vs.getD (l.toNat + 10) 0).toNat ≠
        (fusainCrc16 vs (l.toNat + 9)).toNat then .invalidCrc
    else if headerType ((vs.drop 9).take l.toNat) = none then .invalidStart
    else .ok

/-- The packet `p` holds the message of a complete frame with token values `vs`. -/
structure Delivers (vs : List UInt8) (p : FusainPacket) : Prop where
  length : vs.head? = some p.length
  address : p.address.toNat = Endian.little ((vs.drop 1).take 8)
  content : p.content = (vs.drop 9).take p.length.toNat
  crc : p.crc = fusainCrc16 vs (p.length.toNat + 9)
  msgType : headerType p.content = some p.msgType

/-- The token that `b` completes inside a frame, after the tokens of the frame so far. -/
def arrival (s : Scan UInt8) (b : UInt8) : Option (List (Token UInt8) × Token UInt8) :=
  match s.frame, (lex scheme s.pending b).2 with
  | some ts, some (.data t) => some (ts, t)
  | _, _ => none

def values (ts : List (Token UInt8)) : List UInt8 := ts.map Token.value

/-- The result of the next byte. -/
def respond (s : Scan UInt8) (b : UInt8) : FusainDecodeResult :=
  match arrival s b with
  | some (ts, t) => verdict t.raw (values (ts ++ [t]))
  | none => .incomplete

def hear (s : Scan UInt8) (b : UInt8) : Scan UInt8 × FusainDecodeResult :=
  (scanOne scheme s b, respond s b)

def silence : Scan UInt8 := ⟨false, none⟩

/-- The result of a byte after a given past. -/
def expected (past : List UInt8) (b : UInt8) : FusainDecodeResult :=
  respond (scan scheme silence past) b

@[simp] theorem values_append (ts us : List (Token UInt8)) :
    values (ts ++ us) = values ts ++ values us := List.map_append

@[simp] theorem values_nil : values [] = [] := rfl

theorem hear_start (f : Option (List (Token UInt8))) :
    hear ⟨false, f⟩ startByte = (⟨false, some []⟩, .incomplete) := by
  cases f <;> rfl

theorem hear_esc (f : Option (List (Token UInt8))) :
    hear ⟨false, f⟩ escByte = (⟨true, f⟩, .incomplete) := by
  cases f <;> rfl

theorem respond_data {p : Bool} {ts : List (Token UInt8)} {b : UInt8} {t : Token UInt8}
    (h : (lex scheme p b).2 = some (.data t)) :
    respond ⟨p, some ts⟩ b = verdict t.raw (values ts ++ [t.value]) := by
  simp [respond, arrival, h, values]

theorem respond_outside (p : Bool) (b : UInt8) : respond ⟨p, none⟩ b = .incomplete := by
  simp [respond, arrival]

/-- END is a token of its own where no escape is open. -/
theorem lex_end : (lex scheme false endByte).2 = some (.data ⟨endByte, endByte⟩) := by decide

theorem arrival_end {f : Option (List (Token UInt8))} {ts : List (Token UInt8)} {t : Token UInt8}
    (h : arrival ⟨false, f⟩ endByte = some (ts, t)) : f = some ts ∧ t = ⟨endByte, endByte⟩ := by
  cases f with
  | none => cases h
  | some ts' =>
    simp only [arrival, lex_end, Option.some.injEq, Prod.mk.injEq] at h
    exact ⟨congrArg some h.1, h.2.symm⟩

/-- A token that arrives adds to the frame that is open, and is answered. -/
theorem arrival_some {s : Scan UInt8} {b : UInt8} {ts : List (Token UInt8)} {t : Token UInt8}
    (h : arrival s b = some (ts, t)) :
    s.frame = some ts ∧ respond s b = verdict t.raw (values (ts ++ [t])) := by
  refine ⟨?_, by rw [respond, h]⟩
  unfold arrival at h
  split at h
  next hf _ =>
    cases h
    exact hf
  next => cases h

theorem verdict_long (raw : UInt8) {l : UInt8} (rest : List UInt8) (hl : maxPayloadSize < l.toNat) :
    verdict raw (l :: rest) = if rest = [] then .invalidLength else .incomplete := by
  simp only [verdict, if_pos hl]

theorem verdict_incomplete (raw : UInt8) {l : UInt8} {rest : List UInt8}
    (hl : l.toNat ≤ maxPayloadSize) (h : rest.length ≠ l.toNat + 11) :
    verdict raw (l :: rest) = .incomplete := by
  have hn : ¬ l.toNat > maxPayloadSize := by omega
  have hs : (l :: rest).length ≠ l.toNat + 12 := by
    simp only [List.length_cons]
    omega
  simp only [verdict, if_neg hn, if_pos hs]

theorem whole_address {a : List UInt8} (ha : a.length = 8) (l : UInt8) (rest : List UInt8) :
    ((l :: (a ++ rest)).drop 1).take 8 = a := by
  rw [List.drop_succ_cons, List.drop_zero, List.take_left' ha]

section Whole

variable {l : UInt8} {a q : List UInt8} (hi lo e : UInt8)
  (ha : a.length = 8) (hq : q.length = l.toNat)
include ha hq

theorem whole_content : ((l :: (a ++ q ++ [hi, lo, e])).drop 9).take l.toNat = q := by
  have hd : (l :: (a ++ q ++ [hi, lo, e])).drop 9 = q ++ [hi, lo, e] := by
    rw [List.drop_succ_cons, List.append_assoc, List.drop_left' ha]
  rw [hd, List.take_left' hq]

theorem whole_crc : fusainCrc16 (l :: (a ++ q ++ [hi, lo, e])) (l.toNat + 9) =
    residue (l :: (a ++ q)) := by
  have ht : (l :: (a ++ q ++ [hi, lo, e])).take (l.toNat + 9) = l :: (a ++ q) := by
    rw [show l.toNat + 9 = (l.toNat + 8) + 1 from rfl, List.take_succ_cons, List.take_left']
    simp only [List.length_append]
    omega
  rw [fusainCrc16, ht, residue]

/-- The last token of a frame decides, and only its raw symbol counts. -/
theorem verdict_whole (raw : UInt8) (hl : l.toNat ≤ maxPayloadSize) :
    verdict raw (l :: (a ++ q ++ [hi, lo, e])) =
      if raw ≠ endByte then .invalidStart
      else if 256 * hi.toNat + lo.toNat ≠ (residue (l :: (a ++ q))).toNat then .invalidCrc
      else if headerType q = none then .invalidStart
      else .ok := by
  have hn : ¬ l.toNat > maxPayloadSize := by omega
  have hlen : (l :: (a ++ q ++ [hi, lo, e])).length = l.toNat + 12 := by
    simp only [List.length_cons, List.length_append, List.length_nil]
    omega
  have hlen' : (l :: (a ++ q)).length = l.toNat + 9 := by
    simp only [List.length_cons, List.length_append]
    omega
  have get : ∀ i, (l :: (a ++ q ++ [hi, lo, e])).getD (l.toNat + 9 + i) 0 =
      [hi, lo, e].getD i 0 := by
    intro i
    have he : l :: (a ++ q ++ [hi, lo, e]) = (l :: (a ++ q)) ++ [hi, lo, e] := by simp
    rw [he, List.getD_eq_getElem?_getD, List.getElem?_append_right (by omega), hlen',
      Nat.add_sub_cancel_left, List.getD_eq_getElem?_getD]
  have h0 := get 0
  have h1 := get 1
  simp only [verdict, if_neg hn, hlen, ne_eq, not_true_eq_false, if_false, whole_content hi lo e ha hq,
    whole_crc hi lo e ha hq]
  simp only [Nat.add_zero] at h0
  rw [h0, show l.toNat + 10 = l.toNat + 9 + 1 from rfl, h1]
  rfl

theorem delivers_whole {p : FusainPacket} (hlen : p.length = l) (haddr : p.address.toNat = Endian.little a)
    (hcont : p.content = q) (hcrc : p.crc = residue (l :: (a ++ q)))
    (htype : headerType q = some p.msgType) : Delivers (l :: (a ++ q ++ [hi, lo, e])) p := by
  subst hlen
  exact {
    length := rfl
    address := by rw [List.append_assoc, whole_address ha, haddr]
    content := by rw [whole_content hi lo e ha hq, hcont]
    crc := by rw [whole_crc hi lo e ha hq, hcrc]
    msgType := by rw [hcont, htype] }

end Whole

/-- The parts of a frame by position. -/
theorem cut_parts {n : Nat} {rest : List UInt8} (h : rest.length = n + 11) :
    ∃ a q hi lo e, rest = a ++ q ++ [hi, lo, e] ∧ a.length = 8 ∧ q.length = n := by
  obtain ⟨hi, lo, e, hends⟩ : ∃ hi lo e, rest.drop (8 + n) = [hi, lo, e] := by
    apply List.length_eq_three.mp
    rw [List.length_drop]
    omega
  refine ⟨rest.take 8, (rest.drop 8).take n, hi, lo, e, ?_, ?_, ?_⟩
  · rw [← hends, List.append_assoc, ← List.drop_drop, List.take_append_drop,
      List.take_append_drop]
  · rw [List.length_take]
    omega
  · rw [List.length_take, List.length_drop]
    omega

/-- A frame is accepted at its last token only, and then it has all its parts. -/
theorem verdict_ok {raw : UInt8} {vs : List UInt8} (h : verdict raw vs = .ok) :
    ∃ l a q hi lo e, vs = l :: (a ++ q ++ [hi, lo, e]) ∧ l.toNat ≤ maxPayloadSize ∧
      a.length = 8 ∧ q.length = l.toNat ∧ raw = endByte ∧
      256 * hi.toNat + lo.toNat = (residue (l :: (a ++ q))).toNat ∧ headerType q ≠ none := by
  cases vs with
  | nil => cases h
  | cons l rest =>
    by_cases hl : maxPayloadSize < l.toNat
    · rw [verdict_long raw rest hl] at h
      split at h <;> cases h
    by_cases hlen : rest.length = l.toNat + 11
    · obtain ⟨a, q, hi, lo, e, rfl, ha, hq⟩ := cut_parts hlen
      rw [verdict_whole hi lo e ha hq raw (by omega)] at h
      refine ⟨l, a, q, hi, lo, e, rfl, by omega, ha, hq, ?_⟩
      by_cases hraw : raw = endByte
      · by_cases hcrc : 256 * hi.toNat + lo.toNat = (residue (l :: (a ++ q))).toNat
        · by_cases hh : headerType q = none
          · simp [hraw, hcrc, hh] at h
          · exact ⟨hraw, hcrc, hh⟩
        · simp [hraw, hcrc] at h
      · simp [hraw] at h
    · rw [verdict_incomplete raw (by omega) hlen] at h
      cases h

/-- Two packets that deliver one frame carry one message. -/
theorem Delivers.agree {vs : List UInt8} {p p' : FusainPacket} (h : Delivers vs p)
    (h' : Delivers vs p') : SameMessage p p' := by
  have hl : p.length = p'.length := Option.some.inj (h.length.symm.trans h'.length)
  have hc : p.content = p'.content := by rw [h.content, h'.content, hl]
  refine ⟨hl, ?_, hc, ?_, ?_⟩
  · exact UInt64.toNat_inj.mp (h.address.trans h'.address.symm)
  · rw [h.crc, h'.crc, hl]
  · exact Option.some.inj (by rw [← h.msgType, ← h'.msgType, hc])

theorem verdict_short (raw : UInt8) {vs us : List UInt8} (hne : vs ≠ []) {l : UInt8}
    {rest : List UInt8} (hl : l.toNat ≤ maxPayloadSize) (h : vs ++ us = l :: rest)
    (hrest : rest.length < l.toNat + 11) : verdict raw vs = .incomplete := by
  cases vs with
  | nil => exact absurd rfl hne
  | cons l' rest' =>
    rw [List.cons_append] at h
    obtain ⟨rfl, rfl⟩ := List.cons.inj h
    refine verdict_incomplete _ hl ?_
    rw [List.length_append] at hrest
    omega

/-- Nothing happens while the tokens of a frame are still too few. -/
theorem hear_within (pending : Bool) (ts : List (Token UInt8)) {bs : List UInt8}
    (hstart : startByte ∉ bs) {l : UInt8} {rest : List UInt8} (hl : l.toNat ≤ maxPayloadSize)
    (hv : values (ts ++ tokens scheme pending bs) = l :: rest) (hrest : rest.length < l.toNat + 11) :
    Machine.answers hear ⟨pending, some ts⟩ bs = List.replicate bs.length .incomplete := by
  induction bs generalizing pending ts with
  | nil => rfl
  | cons b bs ih =>
    have hbs : startByte ∉ bs := fun h => hstart (List.mem_cons_of_mem b h)
    rw [Machine.answers_cons, List.length_cons, List.replicate_succ]
    rcases lex_cases scheme pending b with ⟨-, hb⟩ | ⟨rfl, rfl⟩ | ⟨t, ht⟩
    · exact absurd (hb ▸ List.mem_cons_self) hstart
    · rw [tokens_false_esc] at hv
      rw [scheme_esc, hear_esc, ih true ts hbs hv]
    · have htok : tokens scheme pending (b :: bs) = t :: tokens scheme false bs := by
        have := tokens_of_lex scheme ht
        exact this bs
      rw [htok, ← List.singleton_append, ← List.append_assoc] at hv
      have hstep : hear ⟨pending, some ts⟩ b =
          (⟨false, some (ts ++ [t])⟩, verdict t.raw (values (ts ++ [t]))) := by
        rw [hear, scanOne_data scheme ht, respond_data (by rw [ht])]
        simp [values]
      have hquiet : verdict t.raw (values (ts ++ [t])) = .incomplete := by
        rw [values_append] at hv
        exact verdict_short t.raw (by simp [values]) hl hv hrest
      rw [hstep, hquiet, ih false (ts ++ [t]) hbs hv]

theorem values_stuff (v : List UInt8) : values (tokens scheme false (stuff scheme v)) = v := by
  rw [tokens_stuff]
  simp [values, Function.comp_def]

/-- What the reader knows behind a stuffed word. -/
theorem scan_stuff (v : List UInt8) : scan scheme ⟨false, some []⟩ (stuff scheme v) =
    ⟨false, some (tokens scheme false (stuff scheme v))⟩ := by
  rw [scan_tokens scheme _ _ (flag_not_mem_stuff scheme v), opens_stuff]
  simp

/-- From START up to END a word of the right length is read quietly. -/
theorem hear_stuff {l : UInt8} {w : List UInt8} (hl : l.toNat ≤ maxPayloadSize)
    (hw : w.length = l.toNat + 10) :
    Machine.answers hear ⟨false, some []⟩ (stuff scheme (l :: w)) =
      List.replicate (stuff scheme (l :: w)).length .incomplete :=
  hear_within false [] (flag_not_mem_stuff scheme (l :: w)) hl (values_stuff (l :: w)) (by omega)

/-- A frame between START and END. -/
def enclosed (p : FusainPacket) : List UInt8 := p.length :: stuff scheme (body p)

theorem frame_enclosed (p : FusainPacket) : frame p = startByte :: (enclosed p ++ [endByte]) := rfl

section Sent

variable {p : FusainPacket} (hp : p.length.toNat ≤ maxPayloadSize)
include hp

theorem enclosed_stuff : enclosed p = stuff scheme (p.length :: body p) := by
  rw [stuff_cons, stuffOne_plain scheme (length_plain hp), enclosed, List.singleton_append]

/-- Behind START a frame holds no raw START. -/
theorem start_not_mem : startByte ∉ enclosed p := by
  rw [enclosed_stuff hp]
  exact flag_not_mem_stuff scheme _

/-- Between START and END a frame holds no raw END. -/
theorem end_not_mem : endByte ∉ enclosed p := by
  rw [enclosed_stuff hp]
  intro h
  exact absurd (special_of_mem_stuff scheme h (by decide)) (by decide)

/-- The tokens of a frame before its END are LENGTH and the body. -/
theorem values_enclosed : values (tokens scheme false (enclosed p)) = p.length :: body p := by
  rw [enclosed_stuff hp, values_stuff]

theorem opens_enclosed : opens scheme false (enclosed p) = false := by
  rw [enclosed_stuff hp, opens_stuff]

/-- END completes a frame; only the message header can still fail. -/
theorem respond_end {ts : List (Token UInt8)} (h : values ts = p.length :: body p) :
    respond ⟨false, some ts⟩ endByte =
      if headerType p.content = none then .invalidStart else .ok := by
  have hlen := p.length_content hp
  have hcheck := residue_checkField (checked p)
  rw [checkField, residue_eq_zero_iff] at hcheck
  rw [respond_data lex_end, h, body, checkField, List.cons_append, List.append_assoc,
    List.cons_append, List.cons_append, List.nil_append,
    verdict_whole _ _ _ (length_addressField _) hlen _ hp]
  rw [if_neg (by simp), if_neg (by rw [← checked]; exact not_not_intro hcheck)]

end Sent

end Fusain.Reader
