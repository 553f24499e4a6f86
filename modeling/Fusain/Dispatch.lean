import Fusain.Exchange
import Fusain.Link

/-!
# Calls over the link

An application calls builders and puts what the encoder makes of them on the line; the
other end takes bytes off the line and may be restarted. In whatever order these things
happen, the calls in range come out in the order they were made, with their arguments.
-/
namespace Fusain.Dispatch

open Builders Decoder Exchange Link Reader RoundTrip Tracking Typed Wire Zcbor

instance : DecidablePred Call.InRange := fun call =>
  match call with
  | .motorConfig _ | .pumpConfig _ | .tempConfig _ | .glowConfig _ | .stateCommand _ _
  | .motorCommand _ _ | .pumpCommand _ _ | .glowCommand _ _ | .sendTelemetry _ _
  | .stateData _ _ _ _ | .motorData _ _ _ _ | .glowData _ _ _ | .tempData _ _ _ => Nat.decLe _ _
  | .tempCommand _ _ _ _ | .pumpData _ _ _ _ => instDecidableAnd
  | .errorInvalidCmd _ _ _ | .errorStateReject _ _ => instDecidableOr
  | .dataSubscription _ | .dataUnsubscribe _ | .telemetryConfig _ _ | .timeoutConfig _ _
  | .discoveryRequest | .pingRequest | .deviceAnnounce _ _ _ _ | .pingResponse _ => .isTrue trivial

inductive Order where
  | call (q : Request)
  | deliver
  | restart (packet : FusainPacket)

def calls (orders : List Order) : List Request :=
  orders.filterMap fun | .call q => some q | _ => none

def restarts (orders : List Order) : Nat :=
  orders.countP fun | .restart _ => true | _ => false

section Orders

variable {E D : Type} (z : Runtime E D) (widen : UInt32 → UInt64)

def carryOut (l : State) : Order → State
  | .call q => { l with line := l.line ++ q.bytes z widen }
  | .deliver => step l .deliver
  | .restart packet => step l (.restart packet)

def run (l : State) (orders : List Order) : State := orders.foldl (carryOut z widen) l

/-- The packet has the type, the address and the arguments of the call. -/
def Brings (q : Request) (m : FusainPacket) : Prop :=
  Conveys m q.call.type q.address fun l => q.call.Decodes z widen l

end Orders

section Results

variable {E D : Type} {z : Runtime E D} {W : E → List UInt8 → Nat → Prop}
  {R : D → Bool → List UInt8 → Prop} (hz : Standard z W R) (widen : UInt32 → UInt64)

/-- The frame of a call. -/
def transmission (q : Request) : Transmission :=
  ⟨q.built z widen, q.buffer, 256, encoder_accepts (built_short hz widen q) q.buffer⟩

/-- An order as an event of the link. -/
def event : Order → Event
  | .call q => .send (transmission hz widen q)
  | .deliver => .deliver
  | .restart packet => .restart packet

theorem carryOut_event (l : State) (o : Order) :
    carryOut z widen l o = step l (event hz widen o) := by
  cases o <;> rfl

theorem run_events (orders : List Order) (l : State) :
    run z widen l orders = Link.run l (orders.map (event hz widen)) := by
  induction orders generalizing l with
  | nil => rfl
  | cons o orders ih =>
    rw [run, List.foldl_cons, carryOut_event hz widen]
    exact ih _

theorem frames_events (orders : List Order) :
    frames (orders.map (event hz widen)) = (calls orders).map (transmission hz widen) := by
  induction orders with
  | nil => rfl
  | cons o orders ih =>
    cases o with
    | call q => exact congrArg (transmission hz widen q :: ·) ih
    | deliver => exact ih
    | restart packet => exact ih

theorem restarts_events (orders : List Order) :
    Link.restarts (orders.map (event hz widen)) = restarts orders := by
  rw [Link.restarts, List.countP_map, restarts]
  congr 1
  funext o
  cases o <;> rfl

theorem legible_transmission (q : Request) :
    legible (transmission hz widen q) = decide q.call.InRange := by
  by_cases h : q.call.InRange
  · simp [legible, transmission, built_header hz widen h, h]
  · simp [legible, transmission, built_headerless hz widen h, h]

/-- A packet that holds the message of a call in range brings the call. -/
theorem carries_brings {q : Request} (h : q.call.InRange) {m : FusainPacket}
    (hm : Carries (transmission hz widen q) m) : Brings z widen q m := by
  have htype : m.msgType = (q.built z widen).msgType :=
    Option.some.inj (hm.msgType.symm.trans (built_header hz widen h))
  exact conveys_copy (builder_conveys hz widen q.call h q.packet q.address) hm.length hm.address
    hm.content htype

theorem filter_transmissions (qs : List Request) :
    (qs.map (transmission hz widen)).filter legible =
      (qs.filter fun q => q.call.InRange).map (transmission hz widen) := by
  rw [List.filter_map]
  congr 2
  funext q
  exact legible_transmission hz widen q

include hz

/-- However calls, deliveries and restarts are interleaved, the calls made are those whose
frame is through and those of which the line holds the bytes, less a part of the first. The
packets accepted bring calls in range whose frame is through, each once and in order, with
their arguments, and of these at most one is missing for each restart. -/
theorem calls_dispatched (orders : List Order) (p : FusainPacket) (d : FusainDecoder) :
    ∃ through queue consumed arrived, calls orders = through ++ queue ∧
      consumed ++ (run z widen (start p d) orders).line = queue.flatMap (Request.bytes z widen) ∧
      (∀ q ∈ queue.head?, consumed.length < (q.bytes z widen).length) ∧
      arrived.Sublist (through.filter fun q => q.call.InRange) ∧
      List.Forall₂ (Brings z widen) arrived (run z widen (start p d) orders).received ∧
      (through.filter fun q => q.call.InRange).length ≤ arrived.length + restarts orders := by
  obtain ⟨s, past, ⟨hplace, hall⟩, hsent, hsub, hlen⟩ :=
    run_shadowed p d (orders.map (event hz widen))
  obtain ⟨consumed, hline, hpart⟩ := place_line hplace
  rw [← run_events] at hline hall
  rw [frames_events] at hsent
  obtain ⟨through, queue, hcalls, rfl, hqueue⟩ := List.map_eq_append_iff.mp hsent
  rw [← hqueue, List.flatMap_map] at hline
  rw [filter_transmissions] at hsub hlen
  obtain ⟨arrived, harrived, hreceived⟩ := List.sublist_map_iff.mp hsub
  rw [hreceived, List.forall₂_map_left_iff] at hall
  rw [List.length_map, restarts_events, hreceived, List.length_map] at hlen
  refine ⟨through, queue, consumed, arrived, hcalls, hline, fun q hq => ?_, harrived, ?_, hlen⟩
  · apply hpart (transmission hz widen q)
    rw [← hqueue, List.head?_map, Option.mem_def.mp hq]
    rfl
  · have hin : ∀ q ∈ arrived, q.call.InRange := fun q hq =>
      of_decide_eq_true (List.mem_filter.mp (harrived.mem hq)).2
    have hboth := (List.forall₂_and_left arrived _).mpr ⟨hin, hall⟩
    exact hboth.imp fun q m ⟨hq, hm⟩ => carries_brings hz widen hq hm

end Results

/-- Three calls: one arrives, one is cut by a restart, and one for a motor that does not exist
waits behind what is left of it. -/
def interrupted : List Order :=
  let first : Request := ⟨.motorCommand 127 3000, 0x1122, zeroPacket, fun _ => 0⟩
  [.call first] ++ List.replicate (first.bytes listRuntime widenNormal).length .deliver ++
    [.call ⟨.motorCommand 3 0, 0x1122, zeroPacket, fun _ => 0⟩, .deliver, .deliver,
      .restart zeroPacket, .deliver, .call ⟨.motorCommand 128 3000, 0x1122, zeroPacket, fun _ => 0⟩]

theorem calls_dispatched_interrupted :
    (run listRuntime widenNormal (start zeroPacket zeroDecoder) interrupted).received.length = 1 ∧
    ∃ through queue consumed arrived, calls interrupted = through ++ queue ∧
      consumed ++ (run listRuntime widenNormal (start zeroPacket zeroDecoder) interrupted).line =
        queue.flatMap (Request.bytes listRuntime widenNormal) ∧
      (∀ q ∈ queue.head?, consumed.length < (q.bytes listRuntime widenNormal).length) ∧
      arrived.Sublist (through.filter fun q => q.call.InRange) ∧
      List.Forall₂ (Brings listRuntime widenNormal) arrived
        (run listRuntime widenNormal (start zeroPacket zeroDecoder) interrupted).received ∧
      (through.filter fun q => q.call.InRange).length ≤ arrived.length + restarts interrupted :=
  ⟨by decide +kernel,
    calls_dispatched listRuntime_standard widenNormal interrupted zeroPacket zeroDecoder⟩

end Fusain.Dispatch
