import Fusain.Containment
import Fusain.Lib.Channel

/-!
# A link as a channel

A sender puts frames on a line, a receiver takes bytes off it, and the receiver may be
restarted at any moment, with whatever packet object. In whatever order these things
happen, the link is a queue of messages: a restart loses the frame it interrupts, a
payload without a message header is not delivered, and nothing is lost, doubled or put out
of order otherwise.
-/
namespace Fusain.Link

open Containment Decoder History Reader RoundTrip Stuffing Tracking Wire

def legible (t : Transmission) : Bool := (headerType t.packet.content).isSome

/-- The packet holds the message of the frame. -/
structure Carries (t : Transmission) (q : FusainPacket) : Prop where
  length : q.length = t.packet.length
  address : q.address = t.packet.address
  content : q.content = t.packet.content
  msgType : headerType t.packet.content = some q.msgType

inductive Event where
  /-- the frame of a packet that the encoder accepts is put on the line -/
  | send (t : Transmission)
  /-- one byte goes through the decoder -/
  | deliver
  /-- `fusain_reset_decoder`, and a packet object to go on with -/
  | restart (packet : FusainPacket)

/-- Bytes on the line, and the packets that the receiver has accepted. -/
structure State where
  line : List UInt8
  receiver : Receiver
  received : List FusainPacket

def step (l : State) : Event → State
  | .send t => { l with line := l.line ++ t.bytes }
  | .deliver =>
    match l.line with
    | [] => l
    | b :: rest =>
      let (r, c) := receive l.receiver b
      { line := rest
        receiver := r
        received := if c.result = .ok then l.received ++ [c.packet] else l.received }
  | .restart packet => { l with receiver := ⟨packet, fusainResetDecoder l.receiver.decoder⟩ }

def run (l : State) (events : List Event) : State := events.foldl step l

def start (p : FusainPacket) (d : FusainDecoder) : State := ⟨[], ⟨p, fusainResetDecoder d⟩, []⟩

def frames (events : List Event) : List Transmission :=
  events.filterMap fun | .send t => some t | _ => none

def restarts (events : List Event) : Nat :=
  events.countP fun | .restart _ => true | _ => false

/-- A byte inside a frame is quiet; the last one delivers its message if it has one. -/
theorem frame_byte (t : Transmission) {r : Receiver} (h : Rested r.decoder)
    {consumed rest : List UInt8} {b : UInt8} (hb : t.bytes = consumed ++ b :: rest) :
    (rest ≠ [] → (receive (decodeFinal r consumed) b).2.result = .incomplete) ∧
      (rest = [] → Rested (receive (decodeFinal r consumed) b).1.decoder ∧
        if legible t = true then (receive (decodeFinal r consumed) b).2.result = .ok ∧
          Carries t (receive (decodeFinal r consumed) b).2.packet
        else (receive (decodeFinal r consumed) b).2.result ≠ .ok) := by
  obtain ⟨hrested, quiet, last, hchunk, -, hquiet, hlast⟩ := frame_rests t h.escape
  rw [hb] at hchunk hrested
  rw [decodeRun_append, decodeRun_cons] at hchunk
  constructor
  · intro hrest
    have hmore : decodeRun (receive (decodeFinal r consumed) b).1 rest ≠ [] := by
      rw [← List.length_pos_iff, length_decodeRun]
      exact List.length_pos_iff.mpr hrest
    have hinit := congrArg List.dropLast hchunk
    rw [List.dropLast_concat, List.dropLast_append_of_ne_nil (List.cons_ne_nil _ _),
      List.dropLast_cons_of_ne_nil hmore] at hinit
    exact hquiet _ (hinit ▸ List.mem_append_right _ List.mem_cons_self)
  · rintro rfl
    obtain ⟨-, hone⟩ := List.append_inj' hchunk rfl
    obtain ⟨rfl, -⟩ := List.cons.inj hone
    rw [decodeFinal_concat] at hrested
    refine ⟨hrested, ?_⟩
    cases hmt : headerType t.packet.content with
    | none =>
      rw [hmt] at hlast
      have hresult : (receive (decodeFinal r consumed) b).2.result = .invalidStart := hlast
      simp [legible, hmt, hresult]
    | some mt =>
      rw [hmt] at hlast
      have hlegible : legible t = true := by simp [legible, hmt]
      rw [if_pos hlegible]
      exact ⟨hlast.result, hlast.length, hlast.address, hlast.content, hmt.trans (by rw [hlast.msgType])⟩

theorem bytes_parts (t : Transmission) :
    ∃ tail, t.bytes = startByte :: tail ∧ startByte ∉ tail ∧ tail.getLast? = some endByte := by
  obtain ⟨hp, hbytes⟩ := t.whole
  refine ⟨enclosed t.packet ++ [endByte], hbytes.trans (frame_enclosed _), ?_,
    List.getLast?_concat ..⟩
  exact List.not_mem_append (start_not_mem hp) (by decide)

/-- The rest of a frame has no START and ends with END. -/
theorem rest_parts {t : Transmission} {consumed rest : List UInt8} (hbytes : t.bytes = consumed ++ rest)
    (hc : consumed ≠ []) (hne : rest ≠ []) : startByte ∉ rest ∧ rest.getLast? = some endByte := by
  obtain ⟨tail, htail, hstart, hend⟩ := bytes_parts t
  cases consumed with
  | nil => exact absurd rfl hc
  | cons b consumed =>
    rw [htail, List.cons_append] at hbytes
    obtain ⟨-, rfl⟩ := List.cons.inj hbytes
    rw [List.getLast?_append_of_ne_nil _ hne] at hend
    exact ⟨fun hm => hstart (List.mem_append_right _ hm), hend⟩

/-- Where the receiver stands in what is left on the line: between two frames, within one,
or in the rest of a frame that a restart has cut. -/
inductive Place : Receiver → List UInt8 → List Transmission → Bool → Prop
  | between {r : Receiver} {queue : List Transmission} : Rested r.decoder →
      Place r (queue.flatMap Transmission.bytes) queue false
  | within {r : Receiver} {consumed rest : List UInt8} {t : Transmission} {queue : List Transmission} :
      Rested r.decoder → t.bytes = consumed ++ rest → consumed ≠ [] → rest ≠ [] →
        Place (decodeFinal r consumed) (rest ++ queue.flatMap Transmission.bytes) (t :: queue) false
  | adrift {r : Receiver} {pending : Bool} {consumed rest : List UInt8} {t : Transmission}
      {queue : List Transmission} : Tracks ⟨pending, none⟩ r.packet r.decoder →
        t.bytes = consumed ++ rest → consumed ≠ [] → rest ≠ [] →
          Place r (rest ++ queue.flatMap Transmission.bytes) (t :: queue) true

/-- The link is where the channel is, and has accepted what the channel let through. -/
structure Refines (l : State) (s : Channel.State Transmission) : Prop where
  place : Place l.receiver l.line s.queue s.spoilt
  received : List.Forall₂ Carries s.received l.received

/-- What a step of the link may be on the channel. -/
inductive Shadow : Event → List (Channel.Event Transmission) → Prop
  | send (t : Transmission) : Shadow (.send t) [.send t]
  | quiet : Shadow .deliver []
  | receive : Shadow .deliver [.receive]
  | harmless (packet : FusainPacket) : Shadow (.restart packet) []
  | spoil (packet : FusainPacket) : Shadow (.restart packet) [.spoil]

theorem flatMap_concat (queue : List Transmission) (t : Transmission) :
    queue.flatMap Transmission.bytes ++ t.bytes = (queue ++ [t]).flatMap Transmission.bytes := by simp

theorem send_refines {l : State} {s : Channel.State Transmission} (h : Refines l s) (t : Transmission) :
    Refines (step l (.send t)) (Channel.step legible s (.send t)) := by
  obtain ⟨line, receiver, received⟩ := l
  obtain ⟨sent, queue, spoilt, through, lost⟩ := s
  refine ⟨?_, h.received⟩
  have hplace : Place receiver line queue spoilt := h.place
  simp only [step, Channel.step]
  generalize hr : receiver = r at hplace ⊢
  cases hplace with
  | between hrest =>
    rw [flatMap_concat]
    exact .between hrest
  | within hrest hbytes hc hne =>
    rw [List.append_assoc, flatMap_concat]
    exact .within hrest hbytes hc hne
  | adrift htrack hbytes hc hne =>
    rw [List.append_assoc, flatMap_concat]
    exact .adrift htrack hbytes hc hne

/-- A byte of the first frame in the queue. -/
theorem frame_refines {r : Receiver} (hrest : Rested r.decoder) {consumed rest : List UInt8} {b : UInt8}
    {t : Transmission} (hbytes : t.bytes = consumed ++ b :: rest) {queue : List Transmission}
    {l : State} (hr : l.receiver = decodeFinal r consumed)
    (hline : l.line = b :: (rest ++ queue.flatMap Transmission.bytes)) {s : Channel.State Transmission}
    (hq : s.queue = t :: queue) (hs : s.spoilt = false)
    (hall : List.Forall₂ Carries s.received l.received) :
    ∃ events, Shadow .deliver events ∧ Refines (step l .deliver) (Channel.run legible s events) := by
  obtain ⟨hquiet, hlast⟩ := frame_byte t hrest hbytes
  by_cases hne : rest = []
  · obtain ⟨hdone, hresult⟩ := hlast hne
    refine ⟨[.receive], .receive, ?_, ?_⟩
    · simp only [step, hline, hr, Channel.run, List.foldl_cons, List.foldl_nil, Channel.step, hq, hs,
        hne, List.nil_append, Bool.false_eq_true, if_false]
      exact .between hdone
    · simp only [step, hline, hr, Channel.run, List.foldl_cons, List.foldl_nil, Channel.step, hq, hs,
        Bool.false_eq_true, if_false]
      cases hlegible : legible t with
      | false =>
        rw [hlegible, if_neg Bool.false_ne_true] at hresult
        simpa [hresult] using hall
      | true =>
        rw [if_pos hlegible] at hresult
        obtain ⟨hok, hcarries⟩ := hresult
        rw [if_pos hok, if_pos rfl]
        exact List.rel_append hall (.cons hcarries .nil)
  · have hincomplete := hquiet hne
    refine ⟨[], .quiet, ?_, ?_⟩
    · simp only [step, hline, hr, Channel.run, List.foldl_nil, hq, hs]
      have hcut : t.bytes = (consumed ++ [b]) ++ rest := by simpa using hbytes
      rw [← decodeFinal_concat]
      exact .within hrest hcut (by simp) hne
    · simpa [step, hline, hr, hincomplete, Channel.run] using hall

theorem adrift_byte {r : Receiver} {pending : Bool} (h : Tracks ⟨pending, none⟩ r.packet r.decoder)
    {b : UInt8} (hb : b ≠ startByte) :
    (receive r b).2.result = .incomplete ∧
      ∃ pending', Tracks ⟨pending', none⟩ (receive r b).1.packet (receive r b).1.decoder ∧
        (b = endByte → pending' = false) := by
  obtain ⟨htrack, hres, -⟩ := step_tracks h b
  refine ⟨hres.trans (respond_outside pending b), ?_⟩
  rcases lex_cases scheme pending b with ⟨-, hflag⟩ | ⟨rfl, rfl⟩ | ⟨t, ht⟩
  · exact absurd hflag hb
  · rw [scanOne_esc] at htrack
    exact ⟨true, htrack, fun he => absurd he (by decide)⟩
  · rw [scanOne_data scheme ht] at htrack
    exact ⟨false, htrack, fun _ => rfl⟩

/-- A byte of the rest of a frame; the last one takes the frame off the line. -/
theorem rest_refines {r : Receiver} {pending : Bool} (htrack : Tracks ⟨pending, none⟩ r.packet r.decoder)
    {consumed rest : List UInt8} {b : UInt8} {t : Transmission}
    (hbytes : t.bytes = consumed ++ b :: rest) (hc : consumed ≠ []) {queue : List Transmission}
    {l : State} (hr : l.receiver = r)
    (hline : l.line = b :: (rest ++ queue.flatMap Transmission.bytes)) {s : Channel.State Transmission}
    (hq : s.queue = t :: queue) (hs : s.spoilt = true)
    (hall : List.Forall₂ Carries s.received l.received) :
    ∃ events, Shadow .deliver events ∧ Refines (step l .deliver) (Channel.run legible s events) := by
  obtain ⟨hstart, hend⟩ := rest_parts hbytes hc (List.cons_ne_nil b rest)
  obtain ⟨hincomplete, pending', hnext, hclosed⟩ :=
    adrift_byte htrack fun he => hstart (he ▸ List.mem_cons_self)
  by_cases hne : rest = []
  · refine ⟨[.receive], .receive, ?_, ?_⟩
    · simp only [step, hline, hr, Channel.run, List.foldl_cons, List.foldl_nil, Channel.step, hq, hs,
        hne, List.nil_append, if_true]
      obtain rfl : b = endByte := by simpa [hne] using hend
      rw [hclosed rfl] at hnext
      exact .between ⟨hnext.outside rfl, hnext.pending⟩
    · simpa [step, hline, hr, hincomplete, Channel.run, Channel.step, hq, hs] using hall
  · refine ⟨[], .quiet, ?_, ?_⟩
    · simp only [step, hline, hr, Channel.run, List.foldl_nil, hq, hs]
      have hcut : t.bytes = (consumed ++ [b]) ++ rest := by simpa using hbytes
      exact .adrift hnext hcut (by simp) hne
    · simpa [step, hline, hr, hincomplete, Channel.run] using hall

theorem deliver_refines {l : State} {s : Channel.State Transmission} (h : Refines l s) :
    ∃ events, Shadow .deliver events ∧ Refines (step l .deliver) (Channel.run legible s events) := by
  obtain ⟨hplace, hall⟩ := h
  generalize hr : l.receiver = r, hline : l.line = line, hq : s.queue = queue, hs : s.spoilt = spoilt
    at hplace
  cases hplace with
  | between hrest =>
    cases queue with
    | nil =>
      refine ⟨[], .quiet, ?_, ?_⟩
      · simp only [step, hline, hr, Channel.run, List.foldl_nil, hq, hs, List.flatMap_nil]
        exact @Place.between r [] hrest
      · simpa only [step, hline, Channel.run, List.foldl_nil, List.flatMap_nil] using hall
    | cons t queue =>
      obtain ⟨tail, hbytes, -⟩ := bytes_parts t
      rw [List.flatMap_cons, hbytes] at hline
      have hfirst : t.bytes = [] ++ startByte :: tail := hbytes
      exact frame_refines hrest hfirst hr hline hq hs hall
  | @within r' consumed rest t queue hrest hbytes hc hne =>
    cases rest with
    | nil => exact absurd rfl hne
    | cons b rest => exact frame_refines hrest hbytes hr hline hq hs hall
  | @adrift _ pending consumed rest t queue htrack hbytes hc hne =>
    cases rest with
    | nil => exact absurd rfl hne
    | cons b rest => exact rest_refines htrack hbytes hc hr hline hq hs hall

theorem restart_refines {l : State} {s : Channel.State Transmission} (h : Refines l s)
    (packet : FusainPacket) :
    ∃ events, Shadow (.restart packet) events ∧
      Refines (step l (.restart packet)) (Channel.run legible s events) := by
  obtain ⟨hplace, hall⟩ := h
  generalize hr : l.receiver = r, hline : l.line = line, hq : s.queue = queue, hs : s.spoilt = spoilt
    at hplace
  have fresh : Tracks silence packet (fusainResetDecoder r.decoder) := tracks_idle rfl rfl
  cases hplace with
  | between hrest =>
    refine ⟨[], .harmless packet, ?_, hall⟩
    simp only [step, hr, hline, Channel.run, List.foldl_nil, hq, hs]
    exact .between ⟨rfl, rfl⟩
  | @within r' consumed rest t queue hrest hbytes hc hne =>
    have hqueue : s.queue ≠ [] := hq ▸ List.cons_ne_nil t queue
    refine ⟨[.spoil], .spoil packet, ?_, ?_⟩
    · simp only [step, hr, hline, Channel.run, List.foldl_cons, List.foldl_nil, Channel.step, hq]
      exact .adrift fresh hbytes hc hne
    · simpa only [step, Channel.run, List.foldl_cons, List.foldl_nil, Channel.step, if_neg hqueue]
        using hall
  | adrift htrack hbytes hc hne =>
    refine ⟨[], .harmless packet, ?_, hall⟩
    simp only [step, hr, hline, Channel.run, List.foldl_nil, hq, hs]
    exact .adrift fresh hbytes hc hne

theorem step_refines (l : State) (s : Channel.State Transmission) (e : Event) (h : Refines l s) :
    ∃ events, Shadow e events ∧ Refines (step l e) (Channel.run legible s events) := by
  cases e with
  | send t => exact ⟨[.send t], .send t, send_refines h t⟩
  | deliver => exact deliver_refines h
  | restart packet => exact restart_refines h packet

/-- The shadows of a run send what it sends, and spoil no more than it has restarts. -/
theorem shadow_counts {events : List Event} {shadows : List (List (Channel.Event Transmission))}
    (h : List.Forall₂ Shadow events shadows) :
    Channel.sends shadows.flatten = frames events ∧
      Channel.spoils shadows.flatten ≤ restarts events := by
  induction h with
  | nil => exact ⟨rfl, Nat.le_refl 0⟩
  | @cons e shadow events shadows hshadow _ ih =>
    obtain ⟨hsends, hspoils⟩ := ih
    have hone : Channel.sends shadow = frames [e] ∧ Channel.spoils shadow ≤ restarts [e] := by
      cases hshadow <;> simp [Channel.sends, Channel.spoils, frames, restarts]
    have hframes : frames (e :: events) = frames [e] ++ frames events :=
      List.filterMap_append (l := [e])
    have hrestarts : restarts (e :: events) = restarts [e] + restarts events :=
      @List.countP_append _ _ [e] events
    rw [List.flatten_cons, hframes, hrestarts, ← hone.1, ← hsends, Channel.spoils,
      List.countP_append]
    exact ⟨List.filterMap_append, Nat.add_le_add hone.2 hspoils⟩

/-- What is left on the line are the frames in the queue, less what has been read of the
first of them. -/
theorem place_line {r : Receiver} {line : List UInt8} {queue : List Transmission} {spoilt : Bool}
    (h : Place r line queue spoilt) :
    ∃ consumed, consumed ++ line = queue.flatMap Transmission.bytes ∧
      ∀ t ∈ queue.head?, consumed.length < t.bytes.length := by
  have part : ∀ {consumed rest : List UInt8} {t : Transmission} (queue : List Transmission),
      t.bytes = consumed ++ rest → rest ≠ [] →
        consumed ++ (rest ++ queue.flatMap Transmission.bytes) =
            (t :: queue).flatMap Transmission.bytes ∧
          ∀ u ∈ (t :: queue).head?, consumed.length < u.bytes.length := by
    intro consumed rest t queue hbytes hne
    refine ⟨by rw [List.flatMap_cons, hbytes, List.append_assoc], ?_⟩
    rintro _ ⟨⟩
    have hpos := List.length_pos_iff.mpr hne
    rw [hbytes, List.length_append]
    omega
  cases h with
  | between =>
    refine ⟨[], rfl, fun t _ => ?_⟩
    obtain ⟨tail, hbytes, -⟩ := bytes_parts t
    rw [hbytes]
    exact Nat.zero_lt_succ _
  | @within _ consumed _ _ queue _ hbytes _ hne => exact ⟨consumed, part queue hbytes hne⟩
  | @adrift _ _ consumed _ _ queue _ hbytes _ hne => exact ⟨consumed, part queue hbytes hne⟩

/-- A run of the link is a run of the channel that spoils no more than there are restarts. -/
theorem run_shadowed (p : FusainPacket) (d : FusainDecoder) (events : List Event) :
    ∃ s through, Refines (run (start p d) events) s ∧ frames events = through ++ s.queue ∧
      s.received.Sublist (through.filter legible) ∧
      (through.filter legible).length ≤ s.received.length + restarts events := by
  have hstart : Refines (start p d) Channel.idle := ⟨@Place.between _ [] ⟨rfl, rfl⟩, .nil⟩
  obtain ⟨shadows, hshadows, hrefines⟩ := Channel.run_refines step_refines events hstart
  obtain ⟨through, hsent, hsub, hlen⟩ := Channel.run_idle legible shadows.flatten
  obtain ⟨hsends, hspoils⟩ := shadow_counts hshadows
  exact ⟨_, through, hrefines, hsends.symm.trans hsent, hsub, by omega⟩

/-- However sending, receiving and restarting are interleaved, the frames sent are those that
are through and those of which the line holds the bytes, less a part of the first. What the
receiver has accepted are messages of frames that are through, each once and in order, and
of these at most one is missing for each restart, apart from payloads without a message
header. -/
theorem lossy_channel (p : FusainPacket) (d : FusainDecoder) (events : List Event) :
    ∃ through queue consumed arrived, frames events = through ++ queue ∧
      consumed ++ (run (start p d) events).line = queue.flatMap Transmission.bytes ∧
      (∀ t ∈ queue.head?, consumed.length < t.bytes.length) ∧
      arrived.Sublist (through.filter legible) ∧
      List.Forall₂ Carries arrived (run (start p d) events).received ∧
      (through.filter legible).length ≤ arrived.length + restarts events := by
  obtain ⟨s, through, ⟨hplace, hall⟩, hsent, hsub, hlen⟩ := run_shadowed p d events
  obtain ⟨consumed, hline, hpart⟩ := place_line hplace
  exact ⟨through, s.queue, consumed, s.received, hsent, hline, hpart, hsub, hall, hlen⟩

end Fusain.Link
