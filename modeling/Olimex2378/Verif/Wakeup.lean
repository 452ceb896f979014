import Olimex2378.Firmware.BulkOutEndpoint

/-!
# Declined packets

`BulkOut` leaves a packet in the endpoint when `rxfifo` has not room for a whole one, and
nothing but another call of `BulkOut` reads it. Each call reads at most one packet and there
is one call for each packet, so a declined packet is never made up for: from then on one
more packet waits than calls are due, and when the main loop has made room it waits for a
host that may have nothing more to send.
-/

namespace Olimex2378.Verif.Wakeup

open Firmware Run

variable {P : Platform}

/-- One `BulkOut` call with room reads the oldest packet. -/
theorem step_reads (counted : P.fifo.Counted) (port : Port P)
    (roomy : maxPacketSize ≤ P.fifo.free port.device.rxfifo) :
    (port.step .bulkOut).1.waiting = port.waiting.tail ∧
      (port.step .bulkOut).1.due = port.due - 1 := by
  obtain ⟨buffer, queue, result, _⟩ :=
    bulkOut_reads counted bulkOutEp port.waiting.head? roomy
  simp [Port.step, result]

/-- One `BulkOut` call without room reads nothing. -/
theorem step_declines (port : Port P)
    (full : P.fifo.free port.device.rxfifo < maxPacketSize) :
    (port.step .bulkOut).1.waiting = port.waiting ∧
      (port.step .bulkOut).1.due = port.due - 1 := by
  simp [Port.step, bulkOut_declines _ _ full]

/-- While `BulkOut` declines nothing, a call is due for every packet that waits. -/
theorem step_balanced (counted : P.fifo.Counted) {port : Port P} {event : PortEvent}
    (balanced : port.waiting.length = port.due) (roomy : port.Roomy event) :
    (port.step event).1.waiting.length = (port.step event).1.due := by
  cases event with
  | arrive packet => simp [Port.step, balanced]
  | bulkOut =>
    obtain ⟨waiting, due⟩ := step_reads counted port roomy
    rw [waiting, due, List.length_tail, balanced]
  | getchar => exact balanced

/-- Never are more calls due than packets wait, and no step makes up for a lost call. -/
theorem step_surplus (counted : P.fifo.Counted) {buffers : Nat} {port : Port P}
    {event : PortEvent} (admitted : port.Admits buffers event) {surplus : Nat}
    (behind : port.due + surplus ≤ port.waiting.length) :
    (port.step event).1.due + surplus ≤ (port.step event).1.waiting.length := by
  cases event with
  | arrive packet =>
    simp only [Port.step, List.length_append, List.length_singleton]
    omega
  | bulkOut =>
    have positive : 0 < port.due := admitted
    rcases Nat.lt_or_ge (P.fifo.free port.device.rxfifo) maxPacketSize with full | roomy
    · obtain ⟨waiting, due⟩ := step_declines port full
      rw [waiting, due]
      omega
    · obtain ⟨waiting, due⟩ := step_reads counted port roomy
      rw [waiting, due, List.length_tail]
      omega
  | getchar => exact behind

/-- A surplus of waiting packets over due calls lasts for the rest of a run. -/
theorem run_surplus (counted : P.fifo.Counted) {buffers : Nat} {port : Port P} {surplus : Nat}
    (behind : port.due + surplus ≤ port.waiting.length) {events : List PortEvent}
    (admitted : Along Port.step (Port.Admits buffers) port events) :
    (exec Port.step port events).due + surplus ≤
      (exec Port.step port events).waiting.length :=
  invariant (fun port _ => port.due + surplus ≤ port.waiting.length) behind
    (fun _ _ _ behind admits => step_surplus counted admits behind) admitted

/-- A run in which every call of `BulkOut` finds room strands no packet. -/
theorem run_not_stranded (counted : P.fifo.Counted) (d : Device P) {events : List PortEvent}
    (roomy : Along Port.step Port.Roomy (Port.start d) events) :
    ¬ (exec Port.step (Port.start d) events).Stranded := by
  rintro ⟨none, some, _⟩
  have balanced : (exec Port.step (Port.start d) events).waiting.length =
      (exec Port.step (Port.start d) events).due :=
    invariant (fun port _ => port.waiting.length = port.due) rfl
      (fun _ _ _ balanced roomy => step_balanced counted balanced roomy) roomy
  rw [none] at balanced
  exact some (List.eq_nil_of_length_eq_zero balanced)

/-- After a declined packet, more packets wait than calls are due for the rest of the run. -/
theorem run_behind (counted : P.fifo.Counted) {buffers : Nat} (d : Device P)
    {events : List PortEvent}
    (admitted : Along Port.step (Port.Admits buffers) (Port.start d) events)
    (declined : ¬ Along Port.step Port.Roomy (Port.start d) events) :
    (exec Port.step (Port.start d) events).due <
      (exec Port.step (Port.start d) events).waiting.length := by
  rcases along_or_refused Port.step Port.Roomy (Port.start d) events with
    roomy | ⟨before, event, after, rfl, _, refused⟩
  · exact absurd roomy declined
  · rw [along_append, along_cons] at admitted
    obtain ⟨first, admits, rest⟩ := admitted
    have start : (Port.start d).due + 0 ≤ (Port.start d).waiting.length := Nat.zero_le _
    have even := run_surplus counted start first
    have behind : ((exec Port.step (Port.start d) before).step event).1.due + 1 ≤
        ((exec Port.step (Port.start d) before).step event).1.waiting.length := by
      cases event with
      | arrive packet => exact absurd trivial refused
      | getchar => exact absurd trivial refused
      | bulkOut =>
        obtain ⟨waiting, due⟩ :=
          step_declines (exec Port.step (Port.start d) before) (Nat.not_le.mp refused)
        have positive : 0 < (exec Port.step (Port.start d) before).due := admits
        rw [waiting, due]
        omega
    rw [exec_append, exec_cons]
    exact run_surplus counted behind rest

/-- Enough calls of `VCOM_getchar` empty `rxfifo` and leave the endpoint as it was. -/
theorem getchars_drain (port : Port P) :
    ∃ count, P.fifo.items
        (exec Port.step port (List.replicate count .getchar)).device.rxfifo = [] ∧
      (exec Port.step port (List.replicate count .getchar)).waiting = port.waiting ∧
      (exec Port.step port (List.replicate count .getchar)).due = port.due := by
  generalize held : P.fifo.items port.device.rxfifo = items
  induction items generalizing port with
  | nil => exact ⟨0, held, rfl, rfl⟩
  | cons byte rest ih =>
    obtain ⟨queue, result, items⟩ := vcomGetchar_takes held
    obtain ⟨count, empty, waiting, due⟩ :=
      ih { port with device := { port.device with rxfifo := queue } } items
    refine ⟨count + 1, ?_⟩
    rw [List.replicate_succ, exec_cons]
    have stepped : (port.step .getchar).1 =
        { port with device := { port.device with rxfifo := queue } } := by
      simp [Port.step, result]
    rw [stepped]
    exact ⟨empty, waiting, due⟩

/-- A packet is stranded exactly when `BulkOut` has declined one. In every admitted run from
`VCOM_init`: if each call of `BulkOut` finds room for a packet in `rxfifo`, no state of the
run has a packet stranded; and if one does not, then as soon as no call is due the main loop
strands a packet by fetching what `rxfifo` holds. -/
theorem stranded_iff_declined (counted : P.fifo.Counted)
    (large : maxPacketSize ≤ P.fifo.capacity) (buffers : Nat) (d : Device P)
    (events : List PortEvent)
    (admitted : Along Port.step (Port.Admits buffers) (Port.start d) events) :
    (Along Port.step Port.Roomy (Port.start d) events →
      ∀ before after, events = before ++ after →
        ¬ (exec Port.step (Port.start d) before).Stranded) ∧
    ((exec Port.step (Port.start d) events).due = 0 →
      ¬ Along Port.step Port.Roomy (Port.start d) events →
      ∃ count, (exec Port.step (Port.start d)
        (events ++ List.replicate count .getchar)).Stranded) := by
  constructor
  · rintro roomy before after rfl
    rw [along_append] at roomy
    exact run_not_stranded counted d roomy.1
  · intro none declined
    obtain ⟨count, empty, waiting, due⟩ := getchars_drain (exec Port.step (Port.start d) events)
    have behind := run_behind counted d admitted declined
    refine ⟨count, ?_⟩
    rw [exec_append]
    refine ⟨due.trans none, ?_, ?_⟩
    · rw [waiting]
      exact List.ne_nil_of_length_pos (by omega)
    · rw [counted.free_items, empty]
      exact large

/-- A one-byte packet is read, a second one comes before the main loop has fetched that byte,
and then the main loop fetches it. -/
def declinedRun : List PortEvent :=
  [.arrive ⟨[1], by decide⟩, .bulkOut, .arrive ⟨[2], by decide⟩, .bulkOut, .getchar]

/-- This run of a port with one packet buffer and queues of 64 bytes strands its second
packet. -/
theorem declinedRun_strands :
    Along Port.step (Port.Admits 1) (Port.start (Device.blank 64)) declinedRun ∧
      (exec Port.step (Port.start (Device.blank 64)) declinedRun).Stranded := by
  refine ⟨by decide, by decide, ?_, by decide⟩
  intro none
  have one : (exec Port.step (Port.start (Device.blank 64)) declinedRun).waiting.length = 1 := by
    decide
  rw [none] at one
  contradiction

/-- What becomes of this run up to its last call. -/
theorem stranded_iff_declined_declinedRun :
    (Along Port.step Port.Roomy (Port.start (Device.blank 64)) (declinedRun.take 4) →
      ∀ before after, declinedRun.take 4 = before ++ after →
        ¬ (exec Port.step (Port.start (Device.blank 64)) before).Stranded) ∧
    ((exec Port.step (Port.start (Device.blank 64)) (declinedRun.take 4)).due = 0 →
      ¬ Along Port.step Port.Roomy (Port.start (Device.blank 64)) (declinedRun.take 4) →
      ∃ count, (exec Port.step (Port.start (Device.blank 64))
        (declinedRun.take 4 ++ List.replicate count .getchar)).Stranded) :=
  stranded_iff_declined (Fifo.ofList_counted UInt8 64) (by decide) 1 (Device.blank 64)
    (declinedRun.take 4) (by decide)

end Olimex2378.Verif.Wakeup
