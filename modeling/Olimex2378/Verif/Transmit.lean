import Olimex2378.Firmware.Events

/-!
# What reaches the host

The transmit queue loses, repeats, reorders and invents no byte: what was handed to the
endpoint, followed by what still waits, is what was put and taken. The law is one equation
about a step and its sum over a run; the receive handler appears in it only by adding
nothing, although it fills the buffer from which packets are sent.
-/

namespace Olimex2378.Verif.Transmit

open Firmware Run

variable {P : Platform}

/-- A handler hands over exactly the bytes it takes from `txfifo`. -/
theorem isr_conserves (d : Device P) (source : Interrupt) :
    (payloads (isr d source).2).flatten ++ P.fifo.items (isr d source).1.txfifo =
      P.fifo.items d.txfifo := by
  have outcome := isr_outcome d source
  generalize isr d source = result at outcome ⊢
  cases outcome with
  | starts next _ _ _ sent =>
    rw [(shows_write _ _).1, List.flatten_singleton, sent.txfifo_items]
    exact List.take_append_drop _ _
  | continues next _ _ sent =>
    rw [(shows_write _ _).1, List.flatten_singleton, sent.txfifo_items]
    exact List.take_append_drop _ _
  | idles => rfl
  | receives _ _ _ _ _ calls =>
    rw [(calls_silent calls).1]
    rfl
  | waits => rfl

/-- A handler writes no packet longer than the endpoint allows, and at most one. -/
theorem isr_packet_size (d : Device P) (source : Interrupt) :
    (payloads (isr d source).2).length ≤ 1 ∧
      ∀ payload ∈ payloads (isr d source).2, payload.length ≤ maxPacketSize := by
  have short : ∀ bytes : List UInt8,
      (payloads [Effect.epWrite bulkInEp (bytes.take maxPacketSize)]).length ≤ 1 ∧
        ∀ payload ∈ payloads [Effect.epWrite bulkInEp (bytes.take maxPacketSize)],
          payload.length ≤ maxPacketSize := by
    intro bytes
    rw [(shows_write _ _).1]
    refine ⟨le_rfl, ?_⟩
    intro payload member
    rw [List.mem_singleton.mp member]
    exact List.length_take_le _ _
  have outcome := isr_outcome d source
  generalize isr d source = result at outcome ⊢
  cases outcome with
  | starts => exact short _
  | continues => exact short _
  | idles => simp
  | receives read _ _ _ out calls =>
    simp [(calls_silent calls).1]
  | waits => simp

/-- One call conserves the bytes for the host: what it hands over and what then waits is
what waited before and what it added. -/
theorem step_conserves (d : Device P) (event : Event) :
    (payloads (step d event).2).flatten ++ P.fifo.items (step d event).1.txfifo =
      P.fifo.items d.txfifo ++ accepted (step d event).2 := by
  have put : ∀ c : CInt, P.fifo.items (putTx d c).1.txfifo =
      P.fifo.items d.txfifo ++ accepted [Effect.txPut (toByte c) (putTx d c).2] := by
    intro c
    obtain ⟨queue, device, items⟩ := putTx_eq d c
    rw [device, items]
    cases (putTx d c).2 <;> rfl
  cases event with
  | putchar c => exact put c
  | putwordByte c place => exact put (putwordArg c place)
  | getchar =>
    obtain ⟨queue, device⟩ := vcomGetchar_frame d
    show P.fifo.items (vcomGetchar d).1.txfifo = P.fifo.items d.txfifo ++ []
    rw [device, List.append_nil]
  | irq source =>
    show _ = P.fifo.items d.txfifo ++ accepted (isr d source).2
    rw [(isr_no_port d source).1, List.append_nil]
    exact isr_conserves d source

/-- One call writes no packet longer than the endpoint allows. -/
theorem step_packet_size (d : Device P) (event : Event) :
    ∀ payload ∈ payloads (step d event).2, payload.length ≤ maxPacketSize := by
  cases event with
  | irq source => exact (isr_packet_size d source).2
  | _ => simp [step, payloads, Effect.payload]

/-- Over a run from any device, the handed-over bytes and the waiting ones are the bytes
that waited at its start and the accepted ones. -/
theorem run_conserves (d : Device P) (events : List Event) :
    (payloads (effects (trace step d events))).flatten ++
        P.fifo.items (exec step d events).txfifo =
      P.fifo.items d.txfifo ++ accepted (effects (trace step d events)) := by
  refine invariant_of_forall (fun (last : Device P) history =>
    (payloads (effects history)).flatten ++ P.fifo.items last.txfifo =
      P.fifo.items d.txfifo ++ accepted (effects history)) ?_ ?_ events
  · simp [payloads, accepted]
  · intro last history event holds
    have one := step_conserves last event
    simp only [effects_snoc, payloads_append,
      accepted_append, List.flatten_append, List.append_assoc]
    rw [one, ← List.append_assoc, holds, List.append_assoc]

/-- Over a run no packet is longer than the endpoint allows. -/
theorem run_packet_size (d : Device P) (events : List Event) :
    ∀ payload ∈ payloads (effects (trace step d events)), payload.length ≤ maxPacketSize := by
  refine invariant_of_forall (fun _ history =>
    ∀ payload ∈ payloads (effects history), payload.length ≤ maxPacketSize) ?_ ?_ events
  · simp [payloads]
  · intro last history event holds payload member
    simp only [effects_snoc, payloads_append,
      List.mem_append] at member
    rcases member with earlier | now
    · exact holds payload earlier
    · exact step_packet_size last event payload now

/-- From `VCOM_init` on, the payloads handed to the host followed by the content of `txfifo`
are the bytes put and taken, in their order; no payload is longer than a packet, and none
holds a byte that was not put. -/
theorem transmit_exact (d : Device P) (events : List Event) :
    (payloads (effects (trace step (vcomInit d) events))).flatten ++
        P.fifo.items (exec step (vcomInit d) events).txfifo =
      accepted (effects (trace step (vcomInit d) events)) ∧
    ∀ payload ∈ payloads (effects (trace step (vcomInit d) events)),
      payload.length ≤ maxPacketSize ∧
        ∀ byte ∈ payload, byte ∈ accepted (effects (trace step (vcomInit d) events)) := by
  have total := run_conserves (vcomInit d) events
  rw [vcomInit_txfifo, List.nil_append] at total
  refine ⟨total, ?_⟩
  intro payload member
  refine ⟨run_packet_size _ _ payload member, ?_⟩
  intro byte inside
  rw [← total]
  exact List.mem_append_left _ (List.mem_flatten_of_mem member inside)

end Olimex2378.Verif.Transmit
