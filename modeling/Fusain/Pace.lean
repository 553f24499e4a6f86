import Fusain.Delimiters

/-!
# One answer for one START

A result other than INCOMPLETE is an answer. Every answer is paid for by the START that
opens the frame it is about, and no frame waits for its answer for more than 252 bytes: 126
tokens of two bytes each. A message delivered is paid for by the bytes of its frame.
-/
namespace Fusain.Pace

open Decoder Delimiters Reader Stuffing Tracking Wire

def loud (result : FusainDecodeResult) : Bool := result ≠ .incomplete

theorem loud_ok {result : FusainDecodeResult} (h : result = .ok) : loud result = true := by
  rw [h]
  rfl

/-- How many tokens a frame with these values still waits for before it is answered. -/
def lacking : List UInt8 → Nat
  | [] => 126
  | l :: rest => if l.toNat > maxPayloadSize then 0 else l.toNat + 11 - rest.length

/-- A frame is answered by the token that leaves nothing to wait for. -/
theorem verdict_lacking (raw v : UInt8) (vs : List UInt8) :
    (lacking vs = 0 ∧ lacking (vs ++ [v]) = 0 ∧ verdict raw (vs ++ [v]) = .incomplete) ∨
      (0 < lacking vs ∧ lacking (vs ++ [v]) = 0 ∧ verdict raw (vs ++ [v]) ≠ .incomplete) ∨
      (0 < lacking (vs ++ [v]) ∧ lacking (vs ++ [v]) < lacking vs ∧
        verdict raw (vs ++ [v]) = .incomplete) := by
  cases vs with
  | nil =>
    by_cases hl : v.toNat > maxPayloadSize
    · right; left
      refine ⟨by simp [lacking], by simp [lacking, hl], ?_⟩
      rw [List.nil_append, verdict_long raw [] hl]
      simp
    · right; right
      have hlack : lacking [v] = v.toNat + 11 := by simp [lacking, hl]
      refine ⟨by rw [List.nil_append, hlack]; omega, ?_, ?_⟩
      · rw [List.nil_append, hlack]
        simp only [lacking, maxPayloadSize] at hl ⊢
        omega
      · exact verdict_incomplete raw (by omega) (by simp)
  | cons l rest =>
    rw [List.cons_append]
    by_cases hl : l.toNat > maxPayloadSize
    · left
      refine ⟨by simp [lacking, hl], by simp [lacking, hl], ?_⟩
      rw [verdict_long raw _ hl]
      simp
    · have hlack : lacking (l :: rest) = l.toNat + 11 - rest.length := by simp [lacking, hl]
      have hnext : lacking (l :: (rest ++ [v])) = l.toNat + 11 - (rest.length + 1) := by
        simp [lacking, hl]
      rw [hlack, hnext]
      rcases Nat.lt_trichotomy (rest.length + 1) (l.toNat + 11) with h | h | h
      · right; right
        refine ⟨by omega, by omega, verdict_incomplete raw (by omega) ?_⟩
        rw [List.length_append, List.length_singleton]
        omega
      · right; left
        refine ⟨by omega, by omega, ?_⟩
        have hlen : (rest ++ [v]).length = l.toNat + 11 := by simpa using h
        obtain ⟨a, q, hi, lo, e, hparts, ha, hq⟩ := cut_parts hlen
        rw [hparts, verdict_whole hi lo e ha hq raw (by omega)]
        split_ifs <;> simp
      · left
        refine ⟨by omega, by omega, verdict_incomplete raw (by omega) ?_⟩
        rw [List.length_append, List.length_singleton]
        omega

def due (s : Scan UInt8) : Nat :=
  match s.frame with
  | some ts => lacking (values ts)
  | none => 0

def waiting (s : Scan UInt8) : Nat := if due s = 0 then 0 else 1

/-- At most so many bytes come before the answer: two for a token, one less behind an
escape. -/
def rank (s : Scan UInt8) : Nat := 2 * due s - s.pending.toNat

theorem hear_due (s : Scan UInt8) (b : UInt8) :
    (s.pending = false ∧ b = startByte ∧ (hear s b).2 = .incomplete ∧ due (hear s b).1 = 126) ∨
      (s.pending = false ∧ (hear s b).1.pending = true ∧ (hear s b).2 = .incomplete ∧
        due (hear s b).1 = due s) ∨
      ((hear s b).1.pending = false ∧
        ((due s = 0 ∧ due (hear s b).1 = 0 ∧ (hear s b).2 = .incomplete) ∨
          (0 < due s ∧ due (hear s b).1 = 0 ∧ (hear s b).2 ≠ .incomplete) ∨
          (0 < due (hear s b).1 ∧ due (hear s b).1 < due s ∧ (hear s b).2 = .incomplete))) := by
  obtain ⟨pending, f⟩ := s
  rcases lex_cases scheme pending b with ⟨rfl, rfl⟩ | ⟨rfl, rfl⟩ | ⟨t, ht⟩
  · left
    rw [scheme_flag, hear_start]
    exact ⟨rfl, rfl, rfl, rfl⟩
  · right; left
    rw [scheme_esc, hear_esc]
    exact ⟨rfl, rfl, rfl, rfl⟩
  · right; right
    have hscan : (hear ⟨pending, f⟩ b).1 = ⟨false, f.map (· ++ [t])⟩ := scanOne_data scheme ht
    refine ⟨by rw [hscan], ?_⟩
    rw [hscan]
    cases f with
    | none => exact .inl ⟨rfl, rfl, respond_outside pending b⟩
    | some ts =>
      have hanswer : (hear ⟨pending, some ts⟩ b).2 = verdict t.raw (values ts ++ [t.value]) :=
        respond_data (by rw [ht])
      have hdue : due ⟨false, (some ts).map (· ++ [t])⟩ = lacking (values ts ++ [t.value]) := by
        simp [due, values]
      rw [hanswer, hdue]
      exact verdict_lacking t.raw t.value (values ts)

def opening (s : Scan UInt8) (b : UInt8) : Bool := !s.pending && b == startByte

theorem opening_iff {s : Scan UInt8} {b : UInt8} :
    opening s b = true ↔ s.pending = false ∧ b = startByte := by
  simp [opening]

theorem hear_paid (s : Scan UInt8) (b : UInt8) :
    (loud (hear s b).2).toNat + waiting (hear s b).1 ≤ waiting s + (opening s b).toNat := by
  rcases hear_due s b with ⟨hp, rfl, hq, hd⟩ | ⟨-, -, hq, hd⟩ | ⟨-, ⟨hd, hd', hq⟩ |
    ⟨hd, hd', hq⟩ | ⟨hd, hd', hq⟩⟩
  · simp [loud, waiting, hq, hd, opening, hp]
  · simp [loud, waiting, hq, hd]
  · simp [loud, waiting, hq, hd, hd']
  · have hd0 : due s ≠ 0 := by omega
    simp [loud, waiting, hq, hd', hd0]
  · have hd0 : due s ≠ 0 := by omega
    have hd1 : due (hear s b).1 ≠ 0 := by omega
    simp [loud, waiting, hq, hd0, hd1]

/-- A byte that opens no frame answers one that waits, or brings its answer nearer. -/
theorem hear_nearer (s : Scan UInt8) (b : UInt8) (hb : opening s b = false) (h : 0 < rank s) :
    loud (hear s b).2 = true ∨ 0 < rank (hear s b).1 ∧ rank (hear s b).1 < rank s := by
  have hpend : s.pending.toNat ≤ 1 := Bool.toNat_le s.pending
  rcases hear_due s b with ⟨hp, hb', -, -⟩ | ⟨hp, hp', -, hd⟩ | ⟨hp', ⟨hd, -, -⟩ |
    ⟨-, -, hq⟩ | ⟨hd, hd', -⟩⟩
  · have hopen : opening s b = true := opening_iff.mpr ⟨hp, hb'⟩
    rw [hopen] at hb
    cases hb
  · right
    simp only [rank, hp, hp', hd, Bool.toNat_true, Bool.toNat_false] at h ⊢
    omega
  · simp [rank, hd] at h
  · exact .inl (by simp [loud, hq])
  · right
    simp only [rank, hp', Bool.toNat_false] at h ⊢
    omega

theorem opening_data {s : Scan UInt8} {b : UInt8} {t : Token UInt8}
    (h : lex scheme s.pending b = (false, some (.data t))) : opening s b = false := by
  rw [Bool.eq_false_iff]
  intro hopen
  obtain ⟨hp, rfl⟩ := opening_iff.mp hopen
  rw [hp] at h
  cases h

theorem count_opening (s : Scan UInt8) (b : UInt8) (bs : List UInt8) :
    (tokens scheme s.pending (b :: bs)).count (bare startByte) =
      (opening s b).toNat + (tokens scheme (hear s b).1.pending bs).count (bare startByte) := by
  obtain ⟨pending, f⟩ := s
  rcases lex_cases scheme pending b with ⟨rfl, rfl⟩ | ⟨rfl, rfl⟩ | ⟨t, ht⟩
  · have htokens : tokens scheme false (startByte :: bs) = bare startByte :: tokens scheme false bs :=
      tokens_false_cons scheme scheme.flag_ne_esc bs
    rw [scheme_flag, hear_start, htokens, List.count_cons_self, Nat.add_comm]
    rfl
  · have htokens : tokens scheme false (escByte :: bs) = tokens scheme true bs :=
      tokens_false_esc scheme bs
    rw [scheme_esc, hear_esc, htokens]
    exact (Nat.zero_add _).symm
  · have hscan : (hear ⟨pending, f⟩ b).1 = ⟨false, f.map (· ++ [t])⟩ := scanOne_data scheme ht
    have hne : t ≠ bare startByte := lex_ne_flag scheme ht
    rw [tokens_of_lex scheme ht, hscan, opening_data ht, List.count_cons_of_ne hne]
    exact (Nat.zero_add _).symm

theorem along_unopened (s : Scan UInt8) {bs : List UInt8}
    (h : bare startByte ∉ tokens scheme s.pending bs) :
    Machine.Along hear (fun s b => opening s b = false) s bs := by
  induction bs generalizing s with
  | nil => trivial
  | cons b bs ih =>
    have hcount := count_opening s b bs
    rw [List.count_eq_zero.mpr h] at hcount
    have hrest : bare startByte ∉ tokens scheme (hear s b).1.pending bs :=
      List.count_eq_zero.mp (by omega)
    refine ⟨?_, ih _ hrest⟩
    apply Bool.eq_false_iff.mpr
    intro hopen
    rw [hopen, Bool.toNat_true] at hcount
    omega

/-- The answers that a frame may still owe come on top of the STARTs of the stream. -/
theorem loud_le {s : Scan UInt8} {r : Receiver} (h : Tracks s r.packet r.decoder)
    (stream : List UInt8) :
    (decodeRun r stream).countP (fun c => loud c.result) ≤
      waiting s + (tokens scheme s.pending stream).count (bare startByte) := by
  induction stream generalizing s r with
  | nil => exact Nat.zero_le _
  | cons b stream ih =>
    obtain ⟨htrack, hres, -⟩ := step_tracks h b
    have hc : (receive r b).2.result = (hear s b).2 := hres
    have hpaid := hear_paid s b
    have hrest : (decodeRun (receive r b).1 stream).countP (fun c => loud c.result) ≤
        waiting (hear s b).1 + (tokens scheme (hear s b).1.pending stream).count (bare startByte) :=
      ih htrack
    rw [decodeRun_cons, List.countP_cons, hc, count_opening]
    cases hloud : loud (hear s b).2 <;> simp only [hloud, Bool.toNat_true, Bool.toNat_false] at hpaid
    · simp only [Bool.false_eq_true, if_false]
      omega
    · simp only [if_true]
      omega

theorem loud_le_starts {r : Receiver} (h : Tracks silence r.packet r.decoder) (stream : List UInt8) :
    (decodeRun r stream).countP (fun c => loud c.result) ≤
      (tokens scheme false stream).count (bare startByte) := by
  have hle := loud_le h stream
  rwa [show waiting silence = 0 from rfl, Nat.zero_add] at hle

theorem waiting_le (s : Scan UInt8) : waiting s ≤ 1 := by
  rw [waiting]
  split <;> omega

/-- From one START that opens a frame to the next, a reset decoder gives one answer at most,
wherever in a stream that is; it never gives more answers than there are such STARTs. -/
theorem answers_le_starts (p : FusainPacket) (d : FusainDecoder) (stream : List UInt8) :
    (∀ past more later, stream = past ++ more ++ later →
      bare startByte ∉ tokens scheme (opens scheme false past) more →
        (decodeRun (decodeFinal ⟨p, fusainResetDecoder d⟩ past) more).countP
          (fun c => loud c.result) ≤ 1) ∧
      (decodeRun ⟨p, fusainResetDecoder d⟩ stream).countP (fun c => loud c.result) ≤
        (tokens scheme false stream).count (bare startByte) := by
  refine ⟨?_, loud_le_starts (tracks_idle rfl rfl) stream⟩
  rintro past more later - hno
  have hle := loud_le (reset_tracks p d past) more
  have hpend : (scan scheme silence past).pending = opens scheme false past := scan_pending scheme _ _
  rw [hpend, List.count_eq_zero.mpr hno] at hle
  exact Nat.le_trans hle (waiting_le _)

theorem scan_start {past : List UInt8} (h : opens scheme false past = false) :
    scan scheme silence (past ++ [startByte]) = ⟨false, some []⟩ := by
  have hp : (scan scheme silence past).pending = false := (scan_pending scheme _ _).trans h
  rw [scan_append]
  generalize scan scheme silence past = s at hp
  obtain ⟨pending, f⟩ := s
  obtain rfl : pending = false := hp
  exact scanOne_flag scheme f

/-- A frame that no other START cuts off is answered exactly once, within 252 bytes. -/
theorem answered_in_time (p : FusainPacket) (d : FusainDecoder) (past more : List UInt8)
    (hopen : opens scheme false past = false) (hno : bare startByte ∉ tokens scheme false more)
    (hlen : 252 ≤ more.length) :
    (decodeRun (decodeFinal ⟨p, fusainResetDecoder d⟩ (past ++ [startByte])) more).countP
      (fun c => loud c.result) = 1 := by
  have htrack := reset_tracks p d (past ++ [startByte])
  rw [scan_start hopen] at htrack
  have hmost := loud_le htrack more
  have hnone : (tokens scheme false more).count (bare startByte) = 0 := List.count_eq_zero.mpr hno
  have hone : waiting (⟨false, some []⟩ : Scan UInt8) = 1 := rfl
  rw [hnone, hone] at hmost
  have hrank : rank ⟨false, some []⟩ = 252 := rfl
  obtain ⟨o, ho, hloud⟩ := Machine.answered_within hear (fun o => loud o = true) rank hear_nearer
    more (along_unopened ⟨false, some []⟩ hno) (by rw [hrank]; omega) (by rw [hrank]; omega)
  rw [← run_results htrack more] at ho
  obtain ⟨c, hc, rfl⟩ := List.mem_map.mp ho
  have hleast : 0 < (decodeRun _ more).countP (fun c => loud c.result) :=
    List.countP_pos_iff.mpr ⟨c, hc, hloud⟩
  exact Nat.le_antisymm hmost hleast

/-- A START behind an escape is data and cuts nothing off. -/
def escapedStarts : List UInt8 := (List.replicate 126 [escByte, startByte]).flatten

theorem answered_in_time_escaped :
    (decodeRun (decodeFinal ⟨zeroPacket, fusainResetDecoder zeroDecoder⟩ ([] ++ [startByte]))
      escapedStarts).countP (fun c => loud c.result) = 1 :=
  answered_in_time zeroPacket zeroDecoder [] escapedStarts rfl (by decide +kernel)
    (by decide +kernel)

/-- With every token escaped, 251 bytes can pass before the answer. -/
example : (decodeRun ⟨zeroPacket, fusainResetDecoder zeroDecoder⟩
    (startByte :: escByte :: 0x52 :: ((List.replicate 124 [escByte, 0]).flatten ++ [escByte]))).countP
      (fun c => loud c.result) = 0 := by decide +kernel

def cost (c : Step) : Nat := if c.result = .ok then c.packet.length.toNat + 13 else 0

/-- The bytes of the open frame, START among them, as long as it waits for its answer. -/
def spent (s : Scan UInt8) : Nat :=
  match s.frame with
  | some ts => if lacking (values ts) = 0 then 0 else ts.length + 1
  | none => 0

theorem spent_next (s : Scan UInt8) (b : UInt8) : spent (scanOne scheme s b) ≤ spent s + 1 := by
  obtain ⟨pending, f⟩ := s
  rcases lex_cases scheme pending b with ⟨rfl, rfl⟩ | ⟨rfl, rfl⟩ | ⟨t, ht⟩
  · rw [scanOne_flag]
    exact Nat.le_add_left 1 _
  · rw [scanOne_esc]
    exact Nat.le_add_right _ 1
  · rw [scanOne_data scheme ht]
    cases f with
    | none => exact Nat.zero_le _
    | some ts =>
      have hvalues : values (ts ++ [t]) = values ts ++ [t.value] := values_append ts [t]
      simp only [spent, Option.map_some, hvalues, List.length_append, List.length_singleton]
      rcases verdict_lacking t.raw t.value (values ts) with ⟨-, h0, -⟩ | ⟨-, h0, -⟩ | ⟨h0, h1, -⟩
      · simp [h0]
      · simp [h0]
      · have hopen : lacking (values ts) ≠ 0 := by omega
        have hopen' : lacking (values ts ++ [t.value]) ≠ 0 := by omega
        exact Nat.le_of_eq (by rw [if_neg hopen, if_neg hopen'])

theorem arrival_scan {s : Scan UInt8} {b : UInt8} {ts : List (Token UInt8)} {t : Token UInt8}
    (h : arrival s b = some (ts, t)) : scanOne scheme s b = ⟨false, some (ts ++ [t])⟩ := by
  have hframe := (arrival_some h).1
  obtain ⟨pending, f⟩ := s
  obtain rfl : f = some ts := hframe
  rcases lex_cases scheme pending b with ⟨rfl, rfl⟩ | ⟨rfl, rfl⟩ | ⟨t', ht⟩
  · cases h
  · cases h
  · have hlex : (lex scheme pending b).2 = some (.data t') := by rw [ht]
    simp only [arrival, hlex, Option.some.injEq, Prod.mk.injEq, true_and] at h
    rw [scanOne_data scheme ht, h, Option.map_some]

/-- What the open frame holds when its message is delivered; the message header alone
takes two bytes. -/
theorem ok_frame {s : Scan UInt8} {r : Receiver} (h : Tracks s r.packet r.decoder) {b : UInt8}
    (hok : (receive r b).2.result = .ok) :
    ∃ ts t, s.frame = some ts ∧ scanOne scheme s b = ⟨false, some (ts ++ [t])⟩ ∧
      verdict t.raw (values ts ++ [t.value]) = .ok ∧
      ts.length = (receive r b).2.packet.length.toNat + 11 ∧
      2 ≤ (receive r b).2.packet.length.toNat := by
  obtain ⟨-, hres, hdel⟩ := step_tracks h b
  obtain ⟨ts, t, harr, hmsg⟩ := hdel hok
  obtain ⟨hframe, hanswer⟩ := arrival_some harr
  have hverdict : verdict t.raw (values (ts ++ [t])) = .ok :=
    hanswer.symm.trans (hres.symm.trans hok)
  obtain ⟨l, a, q, hi, lo, e, hvs, -, ha, hq, -, -, hheader⟩ := verdict_ok hverdict
  have hlength : (receive r b).2.packet.length = l := by
    have hhead := hmsg.length
    rw [hvs] at hhead
    exact (Option.some.inj hhead).symm
  have hcount := congrArg List.length hvs
  simp only [values, List.length_map, List.length_append, List.length_cons, List.length_nil]
    at hcount
  have hlong : 2 ≤ q.length := by
    cases q with
    | nil => exact absurd rfl hheader
    | cons first q =>
      cases q with
      | nil => exact absurd (by simp [headerType]) hheader
      | cons second q => exact Nat.le_add_left 2 _
  rw [values_append] at hverdict
  exact ⟨ts, t, hframe, arrival_scan harr, hverdict, by rw [hlength]; omega, by rw [hlength]; omega⟩

theorem step_spent {s : Scan UInt8} {r : Receiver} (h : Tracks s r.packet r.decoder) (b : UInt8) :
    cost (receive r b).2 + spent (scanOne scheme s b) ≤ spent s + 1 := by
  by_cases hok : (receive r b).2.result = .ok
  · obtain ⟨ts, t, hframe, hscan, hverdict, hcount, -⟩ := ok_frame h hok
    have hvalues : values (ts ++ [t]) = values ts ++ [t.value] := values_append ts [t]
    rw [cost, if_pos hok, hscan]
    simp only [spent, hframe, hvalues]
    rcases verdict_lacking t.raw t.value (values ts) with ⟨-, -, hv⟩ | ⟨hwait, hdone, -⟩ | ⟨-, -, hv⟩
    · rw [hverdict] at hv
      cases hv
    · rw [if_pos hdone, if_neg (Nat.ne_of_gt hwait)]
      omega
    · rw [hverdict] at hv
      cases hv
  · rw [cost, if_neg hok, Nat.zero_add]
    exact spent_next s b

theorem ok_unopened {s : Scan UInt8} {r : Receiver} (h : Tracks s r.packet r.decoder) {b : UInt8}
    (hok : (receive r b).2.result = .ok) : opening s b = false := by
  apply Bool.eq_false_iff.mpr
  intro hopen
  obtain ⟨hp, rfl⟩ := opening_iff.mp hopen
  have hquiet := (receive_start (h.pending.trans hp)).1
  rw [hok] at hquiet
  cases hquiet

/-- The bytes of a message delivered: START, LENGTH + 11 tokens and END, with no answer
before the last of them. -/
theorem ok_span (p : FusainPacket) (d : FusainDecoder) {past : List UInt8} {b : UInt8}
    (hok : (receive (decodeFinal ⟨p, fusainResetDecoder d⟩ past) b).2.result = .ok) :
    ∃ before inner, past = before ++ startByte :: inner ∧ opens scheme false before = false ∧
      bare startByte ∉ tokens scheme false inner ∧
      (receive (decodeFinal ⟨p, fusainResetDecoder d⟩ past) b).2.packet.length.toNat + 11 ≤
        inner.length ∧
      ∀ c ∈ decodeRun (decodeFinal ⟨p, fusainResetDecoder d⟩ before) (startByte :: inner),
        c.result = .incomplete := by
  have htrack := reset_tracks p d past
  obtain ⟨ts, t, hframe, -, -, hlen, -⟩ := ok_frame htrack hok
  have hplain := ok_unopened htrack hok
  obtain ⟨before, inner, rfl, hopen, rfl, hflag⟩ := scan_frame scheme hframe
  rw [scheme_flag] at hok hplain
  refine ⟨before, inner, rfl, hopen, hflag, hlen ▸ length_tokens_le scheme false inner, ?_⟩
  have hbefore := reset_tracks p d before
  have hescape : (decodeFinal ⟨p, fusainResetDecoder d⟩ before).decoder.escapeNext = false := by
    rw [hbefore.pending, scan_pending]
    exact hopen
  obtain ⟨hstart, hfresh⟩ := receive_start hescape
  have hinner : decodeFinal (receive (decodeFinal ⟨p, fusainResetDecoder d⟩ before) startByte).1 inner =
      decodeFinal ⟨p, fusainResetDecoder d⟩ (before ++ startByte :: inner) := by
    rw [decodeFinal, decodeFinal, decodeFinal, Machine.final_append, Machine.final_cons]
  have hpend : (scan scheme silence (before ++ startByte :: inner)).pending =
      opens scheme false inner := by
    rw [scan_pending, show silence.pending = false from rfl, opens_append, hopen]
    exact opens_false_cons scheme scheme.flag_ne_esc inner
  have hno : bare startByte ∉ tokens scheme false (inner ++ [b]) := by
    have hlast := count_opening (scan scheme silence (before ++ startByte :: inner)) b []
    rw [hplain, tokens_nil, hpend] at hlast
    rw [tokens_append]
    exact List.not_mem_append hflag (List.count_eq_zero.mp hlast)
  -- the frame has one answer at most, and that is the one at `b`
  have hmost := loud_le hfresh (inner ++ [b])
  have hone : waiting (⟨false, some []⟩ : Scan UInt8) = 1 := rfl
  rw [List.count_eq_zero.mpr hno, hone, decodeRun_concat, hinner, List.countP_append] at hmost
  rw [List.countP_singleton, if_pos (loud_ok hok)] at hmost
  have hquiet : ∀ c ∈ decodeRun (receive (decodeFinal ⟨p, fusainResetDecoder d⟩ before) startByte).1
      inner, c.result = .incomplete := by
    intro c hc
    have hnot := List.countP_eq_zero.mp (Nat.le_zero.mp (Nat.le_of_succ_le_succ hmost)) c hc
    simpa [loud] using hnot
  rw [decodeRun_cons, List.forall_mem_cons]
  exact ⟨hstart, hquiet⟩

/-- Call `j` delivers the message whose frame begins with the START at `i`. -/
structure Span (stream : List UInt8) (results : List Step) (i j : Nat) : Prop where
  start : stream[i]? = some startByte
  opening : opens scheme false (stream.take i) = false
  alone : bare startByte ∉ tokens scheme false ((stream.take j).drop (i + 1))
  room : ∀ c, results[j]? = some c → i + c.packet.length.toNat + 12 ≤ j
  quiet : ∀ k c, i ≤ k → k < j → results[k]? = some c → c.result = .incomplete

theorem ok_at (p : FusainPacket) (d : FusainDecoder) {stream : List UInt8} {j : Nat} {c : Step}
    (hc : (decodeRun ⟨p, fusainResetDecoder d⟩ stream)[j]? = some c) (hok : c.result = .ok) :
    ∃ i, Span stream (decodeRun ⟨p, fusainResetDecoder d⟩ stream) i j := by
  have hat := hc
  rw [decodeRun, Machine.getElem?_answers, Option.map_eq_some_iff] at hat
  obtain ⟨b, hb, rfl⟩ := hat
  have hj : j < stream.length := (List.getElem?_eq_some_iff.mp hb).1
  obtain ⟨before, inner, hpast, hopen, halone, hroom, hquiet⟩ := ok_span p d hok
  have hlen : before.length + (inner.length + 1) = j := by
    have hcount := congrArg List.length hpast
    rw [List.length_take_of_le (Nat.le_of_lt hj), List.length_append, List.length_cons] at hcount
    exact hcount.symm
  obtain ⟨rest, hrest⟩ : ∃ rest, stream = before ++ startByte :: (inner ++ rest) :=
    ⟨stream.drop j, by rw [← List.cons_append, ← List.append_assoc, ← hpast, List.take_append_drop]⟩
  refine ⟨before.length, ?_, ?_, ?_, ?_, ?_⟩
  · rw [hrest, List.getElem?_append_right (Nat.le_refl _), Nat.sub_self, List.getElem?_cons_zero]
  · rw [hrest, List.take_left]
    exact hopen
  · rw [hpast, List.drop_append, List.drop_of_length_le (Nat.le_succ _), List.nil_append,
      Nat.add_sub_cancel_left]
    exact halone
  · intro c' hc'
    rw [hc, Option.some.injEq] at hc'
    subst hc'
    have hstretch : before.length + (receive (decodeFinal ⟨p, fusainResetDecoder d⟩
        (stream.take j)) b).2.packet.length.toNat + 12 ≤ j := by omega
    exact hstretch
  · intro k c' hk hkj hc'
    have hsplit : stream = before ++ ((startByte :: inner) ++ rest) := hrest
    rw [hsplit, decodeRun, Machine.answers_append, Machine.answers_append,
      List.getElem?_append_right (by rw [Machine.length_answers]; exact hk),
      List.getElem?_append_left (by
        rw [Machine.length_answers, Machine.length_answers, List.length_cons]; omega)] at hc'
    exact hquiet c' (List.mem_of_getElem? hc')

/-- An earlier message within the frame of a later one would be an answer before its last byte. -/
theorem messages_apart (p : FusainPacket) (d : FusainDecoder) (stream : List UInt8) :
    ∃ start : Nat → Nat, ∀ j c, (decodeRun ⟨p, fusainResetDecoder d⟩ stream)[j]? = some c →
      c.result = .ok →
        Span stream (decodeRun ⟨p, fusainResetDecoder d⟩ stream) (start j) j ∧
        ∀ i c', (decodeRun ⟨p, fusainResetDecoder d⟩ stream)[i]? = some c' → c'.result = .ok →
          i < j → i < start j := by
  have hspan : ∀ j, ∃ i, ∀ c, (decodeRun ⟨p, fusainResetDecoder d⟩ stream)[j]? = some c →
      c.result = .ok → Span stream (decodeRun ⟨p, fusainResetDecoder d⟩ stream) i j := by
    intro j
    by_cases hj : ∃ c, (decodeRun ⟨p, fusainResetDecoder d⟩ stream)[j]? = some c ∧ c.result = .ok
    · obtain ⟨c, hc, hok⟩ := hj
      obtain ⟨i, hi⟩ := ok_at p d hc hok
      exact ⟨i, fun _ _ _ => hi⟩
    · exact ⟨0, fun c hc hok => absurd ⟨c, hc, hok⟩ hj⟩
  choose start hstart using hspan
  refine ⟨start, fun j c hc hok => ⟨hstart j c hc hok, ?_⟩⟩
  intro i c' hc' hok' hij
  by_contra hle
  have hquiet := (hstart j c hc hok).quiet i c' (Nat.le_of_not_lt hle) hij hc'
  rw [hok'] at hquiet
  cases hquiet

theorem messages_fit (p : FusainPacket) (d : FusainDecoder) (stream : List UInt8) :
    ((decodeRun ⟨p, fusainResetDecoder d⟩ stream).map cost).sum ≤ stream.length := by
  have hpaid := Machine.answers_budget receive hear
    (R := fun (r : Receiver) s => Tracks s r.packet r.decoder) cost (fun _ => 1) spent
    (fun r s b h => ⟨(step_tracks h b).1, step_spent h b⟩) stream
    (s := ⟨p, fusainResetDecoder d⟩) (t := silence) (tracks_idle rfl rfl)
  rw [show spent silence = 0 from rfl, List.map_const', List.sum_replicate_nat, Nat.mul_one,
    Nat.zero_add] at hpaid
  exact Nat.le_trans (Nat.le_add_right _ _) hpaid

/-- The shortest message has the two bytes of its header. -/
theorem message_cost (p : FusainPacket) (d : FusainDecoder) (stream : List UInt8) :
    ∀ c ∈ decodeRun ⟨p, fusainResetDecoder d⟩ stream, c.result = .ok → 15 ≤ cost c := by
  intro c hc hok
  obtain ⟨past, b, rest, -, rfl⟩ := (Machine.mem_answers receive _ _ _).mp hc
  obtain ⟨-, -, -, -, -, -, hlong⟩ := ok_frame (reset_tracks p d past) hok
  rw [cost, if_pos hok]
  exact Nat.add_le_add_right hlong 13

/-- Each message delivered has a stretch of the stream for itself, from the START of its frame to
the END, of LENGTH + 13 bytes at least. So these add up to no more than the stream, and it
delivers one message in 15 bytes at most. -/
theorem messages_paid (p : FusainPacket) (d : FusainDecoder) (stream : List UInt8) :
    (∃ start : Nat → Nat, ∀ j c, (decodeRun ⟨p, fusainResetDecoder d⟩ stream)[j]? = some c →
      c.result = .ok →
        Span stream (decodeRun ⟨p, fusainResetDecoder d⟩ stream) (start j) j ∧
        ∀ i c', (decodeRun ⟨p, fusainResetDecoder d⟩ stream)[i]? = some c' → c'.result = .ok →
          i < j → i < start j) ∧
      ((decodeRun ⟨p, fusainResetDecoder d⟩ stream).map cost).sum ≤ stream.length ∧
      15 * (decodeRun ⟨p, fusainResetDecoder d⟩ stream).countP (fun c => c.result = .ok) ≤
        stream.length := by
  refine ⟨messages_apart p d stream, messages_fit p d stream, ?_⟩
  refine Nat.le_trans (Machine.mul_countP_le fun c hc hok => ?_) (messages_fit p d stream)
  exact message_cost p d stream c hc (of_decide_eq_true hok)

/-- A frame without an escape leaves nothing over. -/
example : ((decodeRun ⟨zeroPacket, fusainResetDecoder zeroDecoder⟩
    [0x7E, 3, 1, 0, 0, 0, 0, 0, 0, 0, 0x82, 0x10, 0xF6, 0x80, 0xBF, 0x7F]).map cost).sum = 16 := by
  decide +kernel

end Fusain.Pace
