import Fusain.RoundTrip
import Fusain.Lib.Damage

/-!
# One fault on the line

A frame in which one byte is lost, changed or added, without a START being forged, is
never taken for another packet. The framing leaves six ways in which the word read
back can differ from the word sent; the length, the frame check and two facts about
the initial register exclude them all.
-/
namespace Fusain.Faults

open Crc Damage Decoder Encoder Reader RoundTrip Stuffing Tracking Wire

/-- LENGTH in range, the right number of bytes, and a check that comes out even. -/
structure Good (w : List UInt8) : Prop where
  parts : ∃ l rest, w = l :: rest ∧ l.toNat ≤ maxPayloadSize ∧ rest.length = l.toNat + 10
  check : residue w = 0

/-- No LENGTH byte leaves the initial register as it was. -/
theorem length_moves : ∀ n < 115, crcByte 0xFFFF (UInt8.ofNat n) ≠ 0xFFFF := by decide +kernel

/-- A LENGTH swallowed together with the byte behind it shows in the register. -/
theorem length_merges : ∀ n < 114, crcByte 0xFFFF (UInt8.ofNat n) ≠
    crcByte (crcByte 0xFFFF (UInt8.ofNat (n + 1))) (UInt8.ofNat n ^^^ escXor) := by decide +kernel

theorem residue_cons (b : UInt8) (bs : List UInt8) :
    residue (b :: bs) = bs.foldl crcByte (crcByte 0xFFFF b) := rfl

theorem Good.same_length {w w' : List UInt8} (h : Good w) (h' : Good w')
    (hhead : w.head? = w'.head?) : w.length = w'.length := by
  obtain ⟨l, rest, rfl, -, hlen⟩ := h.parts
  obtain ⟨l', rest', rfl, -, hlen'⟩ := h'.parts
  cases hhead
  simp [hlen, hlen']

theorem Good.ne_nil (h : Good []) : False := by
  obtain ⟨l, rest, hw, -⟩ := h.parts
  cases hw

theorem Good.tail {b : UInt8} {w : List UInt8} (h : Good (b :: w)) : ¬ Good w := by
  intro hw
  obtain ⟨l, rest, he, hl, -⟩ := h.parts
  obtain ⟨rfl, rfl⟩ := List.cons.inj he
  have hfix : crcByte 0xFFFF b = 0xFFFF := by
    apply foldl_injective w
    rw [← residue_cons, h.check, ← hw.check, residue]
  have := length_moves b.toNat (by simp only [maxPayloadSize] at hl; omega)
  rw [UInt8.ofNat_toNat] at this
  exact this hfix

theorem Good.merge {l x : UInt8} {w : List UInt8} (h : Good (l :: x :: w)) :
    ¬ Good (scheme.mask x :: w) := by
  intro hw
  obtain ⟨l, rest, he, hl, hlen⟩ := h.parts
  obtain ⟨rfl, rfl⟩ := List.cons.inj he
  obtain ⟨m, rest, he, -, hlen'⟩ := hw.parts
  obtain ⟨rfl, rfl⟩ := List.cons.inj he
  -- the swallowed LENGTH was one more than the byte that takes its place
  have hnext : l.toNat = (scheme.mask x).toNat + 1 := by
    simp only [List.length_cons] at hlen
    omega
  have hmerge := length_merges (scheme.mask x).toNat (by simp only [maxPayloadSize] at hl; omega)
  rw [UInt8.ofNat_toNat, ← hnext, UInt8.ofNat_toNat, ← scheme_mask, scheme.mask_mask] at hmerge
  apply hmerge
  apply foldl_injective w
  have h0 := h.check
  rw [residue_cons, List.foldl_cons] at h0
  rw [h0, ← hw.check, residue_cons]

/-- Two good words with a common end have equal registers where it begins. -/
theorem Good.common {a b t : List UInt8} (h : Good (a ++ t)) (h' : Good (b ++ t)) :
    residue a = residue b := by
  have hr : t.foldl crcByte (residue a) = t.foldl crcByte (residue b) := by
    rw [← residue_append, ← residue_append, h.check, h'.check]
  exact foldl_injective t hr

theorem Good.head_plain {b : UInt8} {w : List UInt8} (h : Good (b :: w)) :
    scheme.special b = false := by
  obtain ⟨l, rest, he, hl, -⟩ := h.parts
  obtain ⟨rfl, -⟩ := List.cons.inj he
  exact length_plain hl

/-- A good word is damaged into no other good word: behind LENGTH the number of bytes
gives the fault away or the frame check does, and LENGTH itself is checked as well. -/
theorem Good.damaged {w w' : List UInt8} (h : Good w) (hd : Damaged scheme w w') : ¬ Good w' := by
  intro h'
  cases hd with
  | @one a x y t hxy =>
    rw [List.append_cons] at h h'
    have hr := h.common h'
    rw [residue_append, residue_append] at hr
    exact hxy (crcByte_cancel hr)
  | @two a x x' y y' t hxy =>
    rw [List.append_cons, List.append_cons] at h h'
    have hr := h.common h'
    simp only [residue_append, List.foldl_cons, List.foldl_nil] at hr
    exact hxy (crcByte_pair hr).2
  | lost a x t =>
    cases a with
    | nil => exact h.tail h'
    | cons b a =>
      have hlen := h.same_length h' rfl
      simp at hlen
  | merged a x x' t =>
    cases a with
    | nil => exact h.merge h'
    | cons b a =>
      have hlen := h.same_length h' rfl
      simp at hlen
  | added a x t =>
    cases a with
    | nil => exact h'.tail h
    | cons b a =>
      have hlen := h.same_length h' rfl
      simp at hlen
  | @split a x y y' t hx =>
    cases a with
    | nil => simp [h.head_plain] at hx
    | cons b a =>
      have hlen := h.same_length h' rfl
      simp at hlen

theorem Good.no_prefix {w t : List UInt8} {b : UInt8} (h : Good (w ++ b :: t)) : ¬ Good w := by
  intro hw
  cases w with
  | nil => exact hw.ne_nil
  | cons l w =>
    have hlen := h.same_length hw rfl
    simp at hlen

theorem Good.no_longer {w : List UInt8} {b : UInt8} (h : Good w) : ¬ Good (w ++ [b]) :=
  fun h' => h'.no_prefix h

theorem good_sent {p : FusainPacket} (hp : p.length.toNat ≤ maxPayloadSize) :
    Good (p.length :: body p) where
  parts := ⟨p.length, body p, rfl, hp, length_body hp⟩
  check := residue_checkField (checked p)

/-- Somewhere along a stream a raw END follows a frame that reads `w`. -/
def Ends (s : Scan UInt8) (stream w : List UInt8) : Prop :=
  ∃ past rest, stream = past ++ endByte :: rest ∧
    ∃ pending ts, scan scheme s past = ⟨pending, some ts⟩ ∧ values ts = w

theorem verdict_good {raw v : UInt8} {w : List UInt8} (h : verdict raw (w ++ [v]) = .ok) :
    raw = endByte ∧ Good w := by
  obtain ⟨l, a, q, hi, lo, e, hw, hl, ha, hq, hraw, hcrc, -⟩ := verdict_ok h
  have hw' : w = l :: (a ++ q ++ [hi, lo]) := by
    have hcut : w ++ [v] = l :: (a ++ q ++ [hi, lo]) ++ [e] := by simpa using hw
    exact (List.append_inj' hcut rfl).1
  refine ⟨hraw, ⟨l, _, hw', hl, ?_⟩, ?_⟩
  · simp only [List.length_append, List.length_cons, List.length_nil]
    omega
  · have hres := (residue_eq_zero_iff (l :: (a ++ q)) hi lo).mpr hcrc
    rwa [hw', ← List.cons_append]

/-- An OK anywhere in a run is the end of a good word, and that word is delivered. -/
theorem ok_ends {r : Receiver} (hr : Tracks silence r.packet r.decoder) {stream : List UInt8}
    {c : Step} (hc : c ∈ decodeRun r stream) (hok : c.result = .ok) :
    ∃ w e, Ends silence stream w ∧ Good w ∧ Delivers (w ++ [e]) c.packet := by
  obtain ⟨past, b, rest, hs, rfl⟩ := (Machine.mem_answers receive r stream c).mp hc
  have htrack := run_tracks hr past
  obtain ⟨-, hres, hdel⟩ := step_tracks htrack b
  obtain ⟨ts, t, harr, hdel⟩ := hdel hok
  have hverdict : verdict t.raw (values ts ++ [t.value]) = .ok := by
    have : respond (scan scheme silence past) b = .ok := hres.symm.trans hok
    rw [respond, harr] at this
    simpa [values] using this
  obtain ⟨hraw, hgood⟩ := verdict_good hverdict
  generalize hscan : scan scheme silence past = s at harr
  obtain ⟨pending, frame⟩ := s
  cases frame with
  | none => simp [arrival] at harr
  | some us =>
    have hlex : (lex scheme pending b).2 = some (.data t) ∧ us = ts := by
      simp only [arrival] at harr
      split at harr
      next h1 h2 => simp_all
      next => cases harr
    obtain ⟨hlex, rfl⟩ := hlex
    rw [lex_raw scheme hlex] at hraw
    subst hraw
    have hv : values (us ++ [t]) = values us ++ [t.value] := by simp [values]
    rw [hv] at hdel
    exact ⟨values us, t.value, ⟨past, rest, hs, pending, us, hscan, rfl⟩, hgood, hdel⟩

theorem ends_next {s : Scan UInt8} (hs : s.frame = none) {b : UInt8} {stream w : List UInt8}
    (h : Ends s (b :: stream) w) : Ends (scanOne scheme s b) stream w := by
  obtain ⟨past, rest, he, pending, ts, hscan, hv⟩ := h
  cases past with
  | nil =>
    rw [scan_nil] at hscan
    rw [hscan] at hs
    cases hs
  | cons x past =>
    obtain ⟨rfl, rfl⟩ := List.cons.inj he
    exact ⟨past, rest, rfl, pending, ts, hscan, hv⟩

theorem ends_quiet {p : Bool} {stream w : List UInt8} (hno : startByte ∉ stream) :
    ¬ Ends ⟨p, none⟩ stream w := by
  rintro ⟨past, rest, rfl, pending, ts, hscan, -⟩
  rw [scan_tokens scheme _ _ (fun h => hno (List.mem_append_left _ h))] at hscan
  cases hscan

/-- Behind the only START, what ends is the word read since. -/
theorem ends_start {stream w : List UInt8} (hno : startByte ∉ stream)
    (h : Ends silence (startByte :: stream) w) :
    ∃ raw rest, stream = raw ++ endByte :: rest ∧ word scheme raw = w := by
  obtain ⟨raw, rest, rfl, pending, ts, hscan, rfl⟩ := ends_next rfl h
  have hs : scanOne scheme silence startByte = ⟨false, some []⟩ := scanOne_flag scheme none
  rw [hs, scan_tokens scheme _ _ (fun h => hno (List.mem_append_left _ h))] at hscan
  obtain ⟨-, hts⟩ := Scan.mk.inj hscan
  cases hts
  exact ⟨raw, rest, rfl, rfl⟩

/-- A byte of the frame is deleted, or replaced by another one other than START. -/
inductive Struck (frame : List UInt8) : List UInt8 → Prop
  | delete (u v : List UInt8) (x : UInt8) : frame = u ++ x :: v → Struck frame (u ++ v)
  | replace (u v : List UInt8) (x y : UInt8) : frame = u ++ x :: v → y ≠ x → y ≠ startByte →
      Struck frame (u ++ y :: v)

/-- A byte other than START is put anywhere into the frame or next to it. -/
inductive Inserted (frame : List UInt8) : List UInt8 → Prop
  | insert (u v : List UInt8) (y : UInt8) : frame = u ++ v → y ≠ startByte →
      Inserted frame (u ++ y :: v)

/-- What stands for the byte `x` after a deletion or a replacement. -/
def Replaces (x : UInt8) (m : List UInt8) : Prop :=
  m = [] ∨ ∃ y, m = [y] ∧ y ≠ x ∧ y ≠ startByte

theorem Struck.parts {frame stream : List UInt8} (h : Struck frame stream) :
    ∃ u v x m, frame = u ++ x :: v ∧ stream = u ++ m ++ v ∧ Replaces x m := by
  cases h with
  | delete u v x he => exact ⟨u, v, x, [], he, by simp, .inl rfl⟩
  | replace u v x y he hne hy => exact ⟨u, v, x, [y], he, by simp, .inr ⟨y, rfl, hne, hy⟩⟩

section Replaces

variable {x : UInt8} {m : List UInt8} (h : Replaces x m)
include h

theorem Replaces.not_mem : x ∉ m := by
  rcases h with rfl | ⟨y, rfl, hne, -⟩
  · simp
  · simpa using hne.symm

theorem Replaces.start_not_mem : startByte ∉ m := by
  rcases h with rfl | ⟨y, rfl, -, hy⟩
  · simp
  · simpa using hy.symm

theorem Replaces.damaged {w u v : List UInt8} (hs : stuff scheme w = u ++ x :: v) :
    Damaged scheme w (word scheme (u ++ m ++ v)) := by
  rcases h with rfl | ⟨y, rfl, hne, -⟩
  · simpa using delete_damaged scheme hs
  · simpa using replace_damaged scheme hs hne

end Replaces

section Cuts

variable {e x y : UInt8} {g u v w rest : List UInt8}

theorem cut_first (hg : e ∉ g) (h : g ++ v = w ++ e :: rest) :
    ∃ m, w = g ++ m ∧ v = m ++ e :: rest := by
  rcases List.append_eq_append_iff.mp h with ⟨m, hw, hv⟩ | ⟨m, hgw, hv⟩
  · exact ⟨m, hw, hv⟩
  · cases m with
    | nil => exact ⟨[], by simpa using hgw.symm, by simpa using hv.symm⟩
    | cons z m =>
      obtain ⟨rfl, -⟩ := List.cons.inj hv
      exact absurd (by simp [hgw]) hg

theorem cut_end (hg : e ∉ g) (h : g ++ [e] = w ++ e :: rest) : w = g := by
  obtain ⟨m, rfl, hm⟩ := cut_first hg h
  cases m with
  | nil => simp
  | cons z m => simp at hm

/-- One more symbol, which may be an `e` as well. -/
theorem cut_fault (hu : e ∉ u) (hv : e ∉ v) (h : u ++ y :: (v ++ [e]) = w ++ e :: rest) :
    w = u ∨ w = u ++ y :: v := by
  obtain ⟨m, rfl, hm⟩ := cut_first hu h
  cases m with
  | nil => simp
  | cons z m =>
    obtain ⟨rfl, htail⟩ := List.cons.inj hm
    rw [cut_end hv htail]
    exact .inr rfl

/-- At most one symbol between two words without an `e`. -/
theorem cut_between {m : List UInt8} (hu : e ∉ u) (hv : e ∉ v) (hm : m = [] ∨ ∃ y, m = [y])
    (h : u ++ m ++ (v ++ [e]) = w ++ e :: rest) : w = u ∨ w = u ++ m ++ v := by
  rcases hm with rfl | ⟨y, rfl⟩
  · right
    rw [List.append_nil, ← List.append_assoc] at h
    simpa using cut_end (List.not_mem_append hu hv) h
  · simpa using cut_fault hu hv (by simpa using h)

theorem cut_last (h : g ++ [e] = u ++ x :: v) :
    (v = [] ∧ u = g ∧ x = e) ∨ ∃ v', v = v' ++ [e] ∧ g = u ++ x :: v' := by
  rcases List.eq_nil_or_concat v with rfl | ⟨v', z, rfl⟩
  · obtain ⟨rfl, hx⟩ := List.append_inj' h rfl
    exact .inl ⟨rfl, rfl, (List.cons.inj hx).1.symm⟩
  · rw [List.concat_eq_append, ← List.cons_append, ← List.append_assoc] at h
    obtain ⟨rfl, hz⟩ := List.append_inj' h rfl
    obtain ⟨rfl, -⟩ := List.cons.inj hz
    exact .inr ⟨v', List.concat_eq_append, rfl⟩

end Cuts

section Frame

variable {p : FusainPacket} (hp : p.length.toNat ≤ maxPayloadSize)
include hp

/-- Between START and END a frame is the stuffed word, with neither of them inside. -/
theorem enclosed_clean {u v : List UInt8} {x : UInt8} (h : enclosed p = u ++ x :: v) :
    (startByte ∉ u ∧ startByte ∉ v) ∧ endByte ∉ u ∧ endByte ∉ v := by
  have hstart := start_not_mem hp
  have hend := end_not_mem hp
  rw [h] at hstart hend
  simp only [List.mem_append, List.mem_cons, not_or] at hstart hend
  exact ⟨⟨hstart.1, hstart.2.2⟩, hend.1, hend.2.2⟩

/-- A fault between START and END: the raw END that was sent, or the faulty byte if it is
an END itself, is the only one, and what it ends is damaged or too short. -/
theorem fault_quiet {u v m : List UInt8} {x : UInt8} (h : enclosed p = u ++ x :: v)
    (hd : Damaged scheme (p.length :: body p) (word scheme (u ++ m ++ v))) {w : List UInt8}
    (hw : Good w) {raw : List UInt8} (hraw : raw = u ∨ raw = u ++ m ++ v) :
    word scheme raw ≠ w := by
  have hgood := good_sent hp
  rw [enclosed_stuff hp] at h
  rintro rfl
  rcases hraw with rfl | rfl
  · obtain ⟨b, t, hpre⟩ := prefix_word scheme h
    rw [hpre] at hgood
    exact hgood.no_prefix hw
  · exact hgood.damaged hd hw

section Strike

variable {w : List UInt8} (hw : Good w) {x : UInt8} {m : List UInt8} (hm : Replaces x m)
include hm

theorem quiet_of_start (hx : x = startByte) :
    ¬ Ends silence (m ++ (enclosed p ++ [endByte])) w := by
  have hstart : startByte ∉ enclosed p ++ [endByte] :=
    List.not_mem_append (start_not_mem hp) (by decide)
  exact ends_quiet (List.not_mem_append (hx ▸ hm.start_not_mem) hstart)

theorem quiet_of_end (hx : x = endByte) : ¬ Ends silence (startByte :: (enclosed p ++ m)) w := by
  have hend : endByte ∉ enclosed p ++ m := List.not_mem_append (end_not_mem hp) (hx ▸ hm.not_mem)
  intro hends
  obtain ⟨raw, rest, hraw, -⟩ :=
    ends_start (List.not_mem_append (start_not_mem hp) hm.start_not_mem) hends
  exact hend (by simp [hraw])

include hw

theorem quiet_of_within {u v : List UInt8} (h : enclosed p = u ++ x :: v) :
    ¬ Ends silence (startByte :: (u ++ m ++ (v ++ [endByte]))) w := by
  obtain ⟨⟨hsu, hsv⟩, heu, hev⟩ := enclosed_clean hp h
  have hstart : startByte ∉ u ++ m ++ (v ++ [endByte]) :=
    List.not_mem_append (List.not_mem_append hsu hm.start_not_mem)
      (List.not_mem_append hsv (by decide))
  intro hends
  obtain ⟨raw, rest, hraw, hword⟩ := ends_start hstart hends
  have hcut := cut_between heu hev (hm.imp_right fun ⟨y, hy⟩ => ⟨y, hy.1⟩) hraw
  exact fault_quiet hp h (hm.damaged ((enclosed_stuff hp).symm.trans h)) hw hcut hword

end Strike

/-- A deletion or a replacement leaves nothing good that ends. -/
theorem struck_quiet {stream : List UInt8} (h : Struck (frame p) stream) {w : List UInt8}
    (hw : Good w) : ¬ Ends silence stream w := by
  rw [frame_enclosed] at h
  obtain ⟨u, v, x, m, he, rfl, hm⟩ := h.parts
  cases u with
  | nil =>
    obtain ⟨rfl, rfl⟩ := List.cons.inj he
    exact quiet_of_start hp hm rfl
  | cons z u =>
    rw [List.cons_append] at he
    obtain ⟨rfl, he'⟩ := List.cons.inj he
    rcases cut_last he' with ⟨rfl, rfl, rfl⟩ | ⟨v, rfl, hsplit⟩
    · simpa using quiet_of_end hp hm rfl
    · exact quiet_of_within hp hw hm hsplit

section Insertion

variable {w : List UInt8} (hw : Good w) {y : UInt8} (hy : y ≠ startByte)
include hw

/-- One more byte behind the word that was sent makes it too long. -/
theorem sent_of_tail {m : List UInt8} (hm : m = [] ∨ ∃ z, m = [z])
    (hword : word scheme (enclosed p ++ m) = w) : w = p.length :: body p := by
  rw [enclosed_stuff hp, word_stuff_append] at hword
  rcases hm with rfl | ⟨z, rfl⟩
  · simpa using hword.symm
  · by_cases hesc : z = escByte
    · rw [← hword, hesc]
      exact List.append_nil _
    · rw [word_plain scheme hesc, word_nil] at hword
      subst hword
      exact absurd hw (good_sent hp).no_longer

include hy

/-- In front of START: an escape swallows it, any other byte is skipped. -/
theorem sent_of_lead (hends : Ends silence (y :: startByte :: (enclosed p ++ [endByte])) w) :
    w = p.length :: body p := by
  have hstart : startByte ∉ enclosed p ++ [endByte] :=
    List.not_mem_append (start_not_mem hp) (by decide)
  by_cases hesc : y = escByte
  · have h1 := ends_next rfl hends
    rw [hesc] at h1
    exact absurd (ends_next rfl h1) (ends_quiet hstart)
  · have hquiet : scanOne scheme silence y = silence := scanOne_plain scheme none hy hesc
    have h1 := ends_next rfl hends
    rw [hquiet] at h1
    obtain ⟨raw, rest, hraw, hword⟩ := ends_start hstart h1
    rw [cut_end (end_not_mem hp) hraw] at hword
    exact sent_of_tail hp hw (.inl rfl) (by simpa using hword)

/-- Behind END, which is a data byte if `y` ends the frame. -/
theorem sent_of_behind
    (hends : Ends silence (startByte :: (enclosed p ++ [endByte] ++ [y])) w) :
    w = p.length :: body p := by
  have hstart : startByte ∉ enclosed p ++ [endByte] ++ [y] := by
    simp [start_not_mem hp, hy.symm, show startByte ≠ endByte by decide]
  obtain ⟨raw, rest, hraw, hword⟩ := ends_start hstart hends
  rw [List.append_assoc] at hraw
  obtain ⟨m, rfl, hm⟩ := cut_first (end_not_mem hp) hraw
  refine sent_of_tail hp hw ?_ hword
  match m with
  | [] => exact .inl rfl
  | [z] => exact .inr ⟨z, rfl⟩
  | z :: z' :: m => simp at hm

theorem sent_of_within {u v : List UInt8} (h : enclosed p = u ++ v)
    (hends : Ends silence (startByte :: (u ++ y :: (v ++ [endByte]))) w) :
    w = p.length :: body p := by
  have hstart := start_not_mem hp
  have hend := end_not_mem hp
  rw [h] at hstart hend
  simp only [List.mem_append, not_or] at hstart hend
  have hno : startByte ∉ u ++ y :: (v ++ [endByte]) := by
    simp [hstart, hy.symm, show startByte ≠ endByte by decide]
  obtain ⟨raw, rest, hraw, hword⟩ := ends_start hno hends
  have hcut := cut_fault hend.1 hend.2 hraw
  cases v with
  | nil =>
    rw [List.append_nil] at h
    subst h
    rcases hcut with rfl | rfl
    · exact sent_of_tail hp hw (.inl rfl) (by simpa using hword)
    · exact sent_of_tail hp hw (.inr ⟨y, rfl⟩) hword
  | cons x v =>
    have hd := insert_damaged scheme ((enclosed_stuff hp).symm.trans h) y
    exact absurd hword (fault_quiet hp (m := [y, x]) h (by simpa using hd) hw
      (by simpa using hcut))

end Insertion

/-- After an insertion at most the packet that was sent can end. -/
theorem inserted_same {stream : List UInt8} (h : Inserted (frame p) stream) {w : List UInt8}
    (hw : Good w) (hends : Ends silence stream w) : w = p.length :: body p := by
  rw [frame_enclosed] at h
  obtain ⟨u, v, y, he, hy⟩ := h
  cases u with
  | nil =>
    rw [List.nil_append] at he hends
    subst he
    exact sent_of_lead hp hw hy hends
  | cons z u =>
    rw [List.cons_append] at he hends
    obtain ⟨rfl, he'⟩ := List.cons.inj he
    rcases List.eq_nil_or_concat v with rfl | ⟨v, b, rfl⟩
    · rw [List.append_nil] at he'
      subst he'
      exact sent_of_behind hp hw hy hends
    · rw [List.concat_eq_append] at he' hends
      rw [← List.append_assoc] at he'
      obtain ⟨hsplit, hb⟩ := List.append_inj' he' rfl
      obtain ⟨rfl, -⟩ := List.cons.inj hb
      exact sent_of_within hp hw hy hsplit hends

end Frame

/-- A faulty frame, read by a decoder that hears nothing else. -/
theorem frame_fault_detected {sent : FusainPacket} (hp : sent.length.toNat ≤ maxPayloadSize)
    {r : Receiver} (h : Tracks silence r.packet r.decoder) :
    (∀ stream, Struck (frame sent) stream → ∀ c ∈ decodeRun r stream, c.result ≠ .ok) ∧
    (∀ stream, Inserted (frame sent) stream → ∀ c ∈ decodeRun r stream, c.result = .ok →
      c.packet.length = sent.length ∧ c.packet.address = sent.address ∧
        c.packet.content = sent.content) := by
  constructor
  · intro stream hstruck c hc hok
    obtain ⟨w, e, hends, hgood, -⟩ := ok_ends h hc hok
    exact struck_quiet hp hstruck hgood hends
  · intro stream hins c hc hok
    obtain ⟨w, e, hends, hgood, hdel⟩ := ok_ends h hc hok
    rw [inserted_same hp hins hgood hends, List.cons_append] at hdel
    obtain ⟨hlen, haddr, hcont, -⟩ := delivered hp hdel
    exact ⟨hlen, haddr, hcont⟩

/-- No single fault that forges no START makes the decoder deliver another packet, and a
deletion or a replacement never lets it deliver anything. -/
theorem fault_detected (t : Transmission) (p : FusainPacket) (d : FusainDecoder) :
    (∀ stream, Struck t.bytes stream →
      ∀ c ∈ decodeRun ⟨p, fusainResetDecoder d⟩ stream, c.result ≠ .ok) ∧
    (∀ stream, Inserted t.bytes stream →
      ∀ c ∈ decodeRun ⟨p, fusainResetDecoder d⟩ stream, c.result = .ok →
        c.packet.length = t.packet.length ∧ c.packet.address = t.packet.address ∧
          c.packet.content = t.packet.content) := by
  obtain ⟨hp, hbytes⟩ := t.whole
  rw [hbytes]
  exact frame_fault_detected hp (r := ⟨p, fusainResetDecoder d⟩) (tracks_idle rfl rfl)

/-- Every packet in range, encoded into a buffer with room for its frame. -/
theorem packet_fault_detected {sent : FusainPacket} (hp : sent.length.toNat ≤ maxPayloadSize)
    (buffer : Memory) {size : Nat} (hroom : max minPacketSize (frame sent).length ≤ size)
    (p : FusainPacket) (d : FusainDecoder) :
    let bytes := reported (fusainEncodePacket (some sent) (some buffer) size)
    (∀ stream, Struck bytes stream →
      ∀ c ∈ decodeRun ⟨p, fusainResetDecoder d⟩ stream, c.result ≠ .ok) ∧
    (∀ stream, Inserted bytes stream →
      ∀ c ∈ decodeRun ⟨p, fusainResetDecoder d⟩ stream, c.result = .ok →
        c.packet.length = sent.length ∧ c.packet.address = sent.address ∧
          c.packet.content = sent.content) := by
  simp only [reported_frame buffer hp hroom]
  exact frame_fault_detected hp (r := ⟨p, fusainResetDecoder d⟩) (tracks_idle rfl rfl)

end Fusain.Faults
