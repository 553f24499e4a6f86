import Fusain.NetBuf

/-!
# When the buffer pool runs dry

The pool of the net_buf wrapper is shared: between two calls others may take buffers from
it or give some back, and an allocation may fail at any time. The decoder never learns of
it, so that a failed allocation loses the message at hand and nothing else.
-/
namespace Fusain.Exhaustion

open Decoder NetBuf

variable {Pool Buf : Type}

/-- What the wrapper relies on when it gets a buffer. -/
structure Lawful (api : Api Pool Buf) : Prop where
  fresh : ∀ pool buf pool', api.netBufAlloc pool = some (buf, pool') →
    api.data buf = [] ∧ 1 ≤ api.room buf
  appended : ∀ buf packet, 1 ≤ api.room buf →
    api.data (api.netBufAddMem buf packet) = api.data buf ++ [packet]

/-- One call, and the pool that it finds. -/
structure Attempt (Pool : Type) where
  call : Call
  pool : Pool

/-- The wrapper in a run where the pool changes hands between the calls. -/
def attempt (api : Api Pool Buf) (d : FusainDecoder) (a : Attempt Pool) :
    FusainDecoder × Return Buf :=
  let (k, ret) := fusainDecodeByteToNetBuf api ⟨a.pool, d⟩ a.call
  (k.decoder, ret)

/-- The wrapper returns a buffer if and only if the core decoder accepts a packet and the
pool has one to give, and the buffer holds that packet. -/
def Spares (api : Api Pool Buf) (a : Attempt Pool) (ret : Return Buf) (c : Step) : Prop :=
  (ret.buf.isSome = true ↔ c.result = .ok ∧ (api.netBufAlloc a.pool).isSome = true) ∧
    ∀ buf, ret.buf = some buf → ∃ p, fusainPacketFromBuf api buf = some p ∧ SameMessage p c.packet

def core (d : FusainDecoder) (call : Call) : FusainDecoder × List Access :=
  let c := fusainDecodeByte call.byte call.packet d
  (c.decoder, c.accesses)

theorem attempt_decoder (api : Api Pool Buf) (d : FusainDecoder) (a : Attempt Pool) :
    (attempt api d a).1 = (fusainDecodeByte a.call.byte a.call.packet d).decoder :=
  wrapper_decoder api ⟨a.pool, d⟩ a.call

theorem attempt_accesses (api : Api Pool Buf) (d : FusainDecoder) (a : Attempt Pool) :
    (attempt api d a).2.accesses = (fusainDecodeByte a.call.byte a.call.packet d).accesses :=
  wrapper_accesses api ⟨a.pool, d⟩ a.call

/-- The pools have no part in where a run ends and what it touches. -/
theorem attempts_core (api : Api Pool Buf) (attempts : List (Attempt Pool)) (d : FusainDecoder) :
    Machine.final (attempt api) d attempts = Machine.final core d (attempts.map Attempt.call) ∧
      (Machine.answers (attempt api) d attempts).map Return.accesses =
        Machine.answers core d (attempts.map Attempt.call) := by
  induction attempts generalizing d with
  | nil => exact ⟨rfl, rfl⟩
  | cons a attempts ih =>
    have hdec : (attempt api d a).1 = (core d a.call).1 := attempt_decoder api d a
    have hacc : (attempt api d a).2.accesses = (core d a.call).2 := attempt_accesses api d a
    obtain ⟨hfinal, hrest⟩ := ih (core d a.call).1
    constructor
    · rw [List.map_cons, Machine.final_cons, Machine.final_cons, hdec, hfinal]
    · rw [List.map_cons, Machine.answers_cons, Machine.answers_cons, List.map_cons, hacc, hdec,
        hrest]

theorem attempt_spares {api : Api Pool Buf} (law : Lawful api) {r : Receiver} {a : Attempt Pool}
    (h : Data a.call.byte r.decoder → Recalls a.call.byte r.decoder r.packet a.call.packet) :
    (attempt api r.decoder a).1 = (follow r a.call).1.decoder ∧
      Spares api a (attempt api r.decoder a).2 (follow r a.call).2 :=
  wrapper_returns law.fresh law.appended a.pool h

theorem attempts_spare {api : Api Pool Buf} (law : Lawful api) (attempts : List (Attempt Pool))
    {r : Receiver}
    (h : Machine.Along follow
      (fun r call => Data call.byte r.decoder → Recalls call.byte r.decoder r.packet call.packet)
      r (attempts.map Attempt.call)) :
    List.Forall₂ (fun o c => Spares api o.1 o.2 c)
      (attempts.zip (Machine.answers (attempt api) r.decoder attempts))
      (decodeRun r (attempts.map fun a => a.call.byte)) := by
  induction attempts generalizing r with
  | nil => exact .nil
  | cons a attempts ih =>
    obtain ⟨hcall, hrest⟩ := h
    obtain ⟨hdec, hspares⟩ := attempt_spares law hcall
    rw [Machine.answers_cons, List.zip_cons_cons, hdec]
    exact .cons hspares (ih hrest)

/-- Attempts on the same bytes and local packets move the decoder alike and touch the same
memory, whatever the pools hold. Where each local packet still holds what the call reads
from it or hands on, every message is returned for which the pool has a buffer: a failed
allocation loses the message at hand and no other. -/
theorem exhaustion_contained (api : Api Pool Buf) (law : Lawful api) (p : FusainPacket)
    (d : FusainDecoder) (attempts : List (Attempt Pool)) :
    (∀ others : List (Attempt Pool), others.map Attempt.call = attempts.map Attempt.call →
      Machine.final (attempt api) d others = Machine.final (attempt api) d attempts ∧
        (Machine.answers (attempt api) d others).map Return.accesses =
          (Machine.answers (attempt api) d attempts).map Return.accesses) ∧
    (Machine.Along follow
        (fun r call => Data call.byte r.decoder → Recalls call.byte r.decoder r.packet call.packet)
        ⟨p, fusainResetDecoder d⟩ (attempts.map Attempt.call) →
      List.Forall₂ (fun o c => Spares api o.1 o.2 c)
        (attempts.zip (Machine.answers (attempt api) (fusainResetDecoder d) attempts))
        (decodeRun ⟨p, fusainResetDecoder d⟩ (attempts.map fun a => a.call.byte))) := by
  constructor
  · intro others hothers
    obtain ⟨hfinal, haccesses⟩ := attempts_core api others d
    rw [hothers, ← (attempts_core api attempts d).1] at hfinal
    rw [hothers, ← (attempts_core api attempts d).2] at haccesses
    exact ⟨hfinal, haccesses⟩
  · exact attempts_spare law attempts

def countedApi : Api Nat (List FusainPacket) where
  netBufAlloc
    | 0 => none
    | free + 1 => some ([], free)
  netBufAddMem buf packet := buf ++ [packet]
  data := id
  room _ := 1

theorem countedApi_lawful : Lawful countedApi where
  fresh := by
    intro pool buf pool' h
    cases pool with
    | zero => cases h
    | succ free =>
      cases h
      exact ⟨rfl, Nat.le_refl 1⟩
  appended := fun _ _ _ => rfl

/-- Two pings in a row, and no free buffer until the first is over. -/
def busy : List (Attempt Nat) :=
  (lucky clean (ping ++ ping)).mapIdx fun i call => ⟨call, i / ping.length⟩

theorem exhaustion_contained_busy :
    List.Forall₂ (fun o c => Spares countedApi o.1 o.2 c)
      (busy.zip (Machine.answers (attempt countedApi) clean.decoder busy))
      (decodeRun clean (busy.map fun a => a.call.byte)) := by
  refine (exhaustion_contained countedApi countedApi_lawful zeroPacket zeroDecoder busy).2 ?_
  have hcalls : busy.map Attempt.call = lucky clean (ping ++ ping) := by
    rw [busy, List.mapIdx_eq_zipIdx_map, List.map_map]
    exact List.zipIdx_map_fst 0 _
  rw [hcalls]
  exact along_lucky clean (ping ++ ping)

end Fusain.Exhaustion
