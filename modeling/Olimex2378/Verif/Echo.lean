import Olimex2378.Firmware.SerialTest
import Olimex2378.Verif.Transmit
import Olimex2378.Verif.Receive

/-!
# What the echo program sends back

Both queues conserve their bytes, so the only place where the echo program can lose one is
between them: the main loop lets go of the byte it holds also when `txfifo` is full. A step
never accounts for more bytes than it has read, so a lost byte is missing for the rest of
the run, and the echo is complete exactly as long as no put has met a full queue.
-/

namespace Olimex2378.Verif.Echo

open Firmware Run

variable {P : Platform}

/-- What the program has sent and what is inside it is what it has read. -/
def Complete (s : SerialTest P) (history : List (SerialTestEvent × List Effect)) : Prop :=
  (payloads (effects history)).flatten ++ s.inside = (packets (effects history)).flatten

/-- Both lists of bytes are made of concrete bytes. -/
instance Complete.decidable (s : SerialTest P)
    (history : List (SerialTestEvent × List Effect)) : Decidable (Complete s history) :=
  inferInstanceAs (Decidable
    ((payloads (effects history)).flatten ++ s.inside = (packets (effects history)).flatten))

/-- An interrupt moves bytes from the host inside, and bytes from inside to the host. -/
theorem irq_conserves (counted : P.fifo.Counted) (s : SerialTest P) (source : Interrupt) :
    (payloads (s.step (.irq source)).2).flatten ++ (s.step (.irq source)).1.inside =
      s.inside ++ (packets (s.step (.irq source)).2).flatten := by
  have sent := Transmit.isr_conserves s.device source
  have received := (Receive.isr_receives counted s.device source).1
  simp only [SerialTest.step, SerialTest.inside]
  rw [received, ← sent]
  simp only [List.append_assoc]

/-- The main loop moves the oldest byte of `rxfifo` into its hand. -/
theorem main_fetches (s : SerialTest P) (free : s.held = none) :
    (s.step .main).1.inside = s.inside ∧ payloads (s.step .main).2 = [] ∧
      packets (s.step .main).2 = [] := by
  obtain ⟨device, held⟩ := s
  obtain rfl : held = none := free
  refine ⟨?_, rfl, rfl⟩
  cases received : P.fifo.items device.rxfifo with
  | nil => simp [SerialTest.step, SerialTest.inside, vcomGetchar_empty received, received]
  | cons byte rest =>
    obtain ⟨queue, result, items⟩ := vcomGetchar_takes received
    simp [SerialTest.step, SerialTest.inside, result, items, received, ofByte_ne_eof]

/-- The main loop moves the byte in its hand into `txfifo` when there is room for it, and
loses it when there is none. -/
theorem main_puts (s : SerialTest P) {c : CInt} (holds : s.held = some c) :
    P.fifo.items (s.step .main).1.device.txfifo = P.fifo.items s.device.txfifo ++
        (if (P.fifo.items s.device.txfifo).length < P.fifo.capacity then [toByte c] else []) ∧
      (s.step .main).1.held = none ∧
      (s.step .main).1.device.rxfifo = s.device.rxfifo ∧
      payloads (s.step .main).2 = [] ∧ packets (s.step .main).2 = [] := by
  obtain ⟨queue, device, items⟩ := putTx_eq s.device c
  have taken := putTx_taken s.device c
  simp only [SerialTest.step, holds, vcomPutchar, device, items, shows_put,
    and_true]
  simp only [taken]

/-- A step whose put finds room accounts for every byte. -/
theorem step_completes (counted : P.fifo.Counted) {s : SerialTest P} {event : SerialTestEvent}
    (roomy : s.Roomy event) :
    (payloads (s.step event).2).flatten ++ (s.step event).1.inside =
      s.inside ++ (packets (s.step event).2).flatten := by
  cases event with
  | irq source => exact irq_conserves counted s source
  | main =>
    cases holds : s.held with
    | none =>
      obtain ⟨inside, sent, read⟩ := main_fetches s holds
      simp [inside, sent, read]
    | some c =>
      have room : (P.fifo.items s.device.txfifo).length < P.fifo.capacity :=
        roomy (by simp [holds])
      obtain ⟨items, empty, received, sent, read⟩ := main_puts s holds
      rw [if_pos room] at items
      simp [SerialTest.inside, items, empty, received, sent, read, holds]

/-- A step whose put finds `txfifo` full accounts for one byte too few. -/
theorem step_loses {s : SerialTest P} {event : SerialTestEvent} (full : ¬ s.Roomy event) :
    (payloads (s.step event).2).flatten.length + (s.step event).1.inside.length + 1 =
      s.inside.length + (packets (s.step event).2).flatten.length := by
  cases event with
  | irq source => exact absurd trivial full
  | main =>
    simp only [SerialTest.Roomy, Classical.not_imp] at full
    obtain ⟨c, holds⟩ := Option.ne_none_iff_exists'.mp full.1
    obtain ⟨items, empty, received, sent, read⟩ := main_puts s holds
    rw [if_neg full.2] at items
    simp only [SerialTest.inside, items, empty, received, sent, read, holds, List.append_nil,
      List.length_append, Option.toList_none, Option.toList_some, List.map_nil, List.map_cons,
      List.flatten_nil, List.length_nil, List.length_singleton]
    omega

/-- Bytes that the program has read, but neither sent nor holds. -/
def Missing (s : SerialTest P) (history : List (SerialTestEvent × List Effect)) : Prop :=
  (payloads (effects history)).flatten.length + s.inside.length <
    (packets (effects history)).flatten.length

/-- No step finds a missing byte again. -/
theorem step_missing (counted : P.fifo.Counted) {s : SerialTest P}
    {history : List (SerialTestEvent × List Effect)} (missing : Missing s history)
    (event : SerialTestEvent) :
    Missing (s.step event).1 (history ++ [(event, (s.step event).2)]) := by
  have gains : (payloads (s.step event).2).flatten.length + (s.step event).1.inside.length ≤
      s.inside.length + (packets (s.step event).2).flatten.length := by
    by_cases roomy : s.Roomy event
    · have lengths := congrArg List.length (step_completes counted roomy)
      rw [List.length_append, List.length_append] at lengths
      exact lengths.le
    · have lost := step_loses roomy
      omega
  unfold Missing at missing ⊢
  simp only [effects_snoc, payloads_append,
    packets_append, List.flatten_append, List.length_append]
  omega

/-- A put that finds `txfifo` full loses a byte for good. -/
theorem missing_of_full {s : SerialTest P} {history : List (SerialTestEvent × List Effect)}
    (complete : Complete s history) {event : SerialTestEvent} (full : ¬ s.Roomy event) :
    Missing (s.step event).1 (history ++ [(event, (s.step event).2)]) := by
  have lengths := congrArg List.length complete
  have lost := step_loses full
  rw [List.length_append] at lengths
  unfold Missing
  simp only [effects_snoc, payloads_append,
    packets_append, List.flatten_append, List.length_append]
  omega

/-- Nothing has been read when the program enters its main loop, and nothing is inside. -/
theorem complete_start (d : Device P) : Complete (SerialTest.start d) [] := by
  simp [Complete, SerialTest.inside, SerialTest.start]

/-- A step whose put finds room keeps the echo complete. -/
theorem step_complete (counted : P.fifo.Counted) {s : SerialTest P}
    {history : List (SerialTestEvent × List Effect)} (complete : Complete s history)
    {event : SerialTestEvent} (roomy : s.Roomy event) :
    Complete (s.step event).1 (history ++ [(event, (s.step event).2)]) := by
  have account := step_completes counted roomy
  unfold Complete at complete ⊢
  simp only [effects_snoc, payloads_append,
    packets_append, List.flatten_append]
  rw [List.append_assoc, account, ← List.append_assoc, complete]

/-- With a byte missing the echo is not complete. -/
theorem Missing.not_complete {s : SerialTest P}
    {history : List (SerialTestEvent × List Effect)} (missing : Missing s history) :
    ¬ Complete s history := by
  intro complete
  have lengths := congrArg List.length complete
  rw [List.length_append] at lengths
  exact missing.ne lengths

/-- The echo is complete exactly when `txfifo` was never too full for a byte. At the end of a
run from `VCOM_init`, what has been handed to the endpoint, followed by what `txfifo`, the
main loop and `rxfifo` hold, is what has been read, if and only if every `VCOM_putchar` of
the main loop found room. -/
theorem complete_iff_roomy (counted : P.fifo.Counted) (d : Device P)
    (events : List SerialTestEvent) :
    Complete (exec SerialTest.step (SerialTest.start d) events)
        (trace SerialTest.step (SerialTest.start d) events) ↔
      Along SerialTest.step SerialTest.Roomy (SerialTest.start d) events := by
  apply holds_iff_along Complete Missing (complete_start d)
  · intro s history event complete roomy
    exact step_complete counted complete roomy
  · intro s history event complete full
    exact missing_of_full complete full
  · intro s history event missing
    exact step_missing counted missing event
  · intro s history missing
    exact missing.not_complete

/-- A packet of equal bytes. -/
def fill (size : Fin 65) : Packet where
  bytes := List.replicate size.val 0x55
  fits := by
    rw [List.length_replicate]
    exact Nat.le_of_lt_succ size.isLt

/-- A host that sends 65 bytes and reads none of them back. -/
def fullRun : List SerialTestEvent :=
  .irq (.bulkOut (some (fill 64))) :: List.replicate 128 .main ++
    [.irq (.bulkOut (some (fill 1))), .main, .main]

/-- With queues of 64 bytes the last byte of this run is not echoed. -/
theorem fullRun_incomplete :
    ¬ Complete (exec SerialTest.step (SerialTest.start (Device.blank 64)) fullRun)
        (trace SerialTest.step (SerialTest.start (Device.blank 64)) fullRun) := by
  decide +kernel

/-- The same run seen from its puts. -/
theorem complete_iff_roomy_fullRun :
    Complete (exec SerialTest.step (SerialTest.start (Device.blank 64)) fullRun)
        (trace SerialTest.step (SerialTest.start (Device.blank 64)) fullRun) ↔
      Along SerialTest.step SerialTest.Roomy (SerialTest.start (Device.blank 64)) fullRun :=
  complete_iff_roomy (Fifo.ofList_counted UInt8 64) (Device.blank 64) fullRun

end Olimex2378.Verif.Echo
