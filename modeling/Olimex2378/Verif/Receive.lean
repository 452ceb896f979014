import Olimex2378.Firmware.Receiver

/-!
# What the main loop receives

The receive queue loses no byte that `BulkOut` has read: what `VCOM_getchar` returned,
followed by what the queue holds and what of the packet in hand is still to be stored, is
the packets read, in order. `BulkOut` checks for room once, for a whole packet, and the main
loop can only make room in between, so the check still holds at every byte stored and the
overflow branch is dead.
-/

namespace Olimex2378.Verif.Receive

open Firmware Run Bytes

variable {P : Platform}

/-- `VCOM_getchar` returns the bytes it removes from `rxfifo`. -/
theorem getchar_conserves (d : Device P) :
    fetched [.getchar (vcomGetchar d).2] ++ P.fifo.items (vcomGetchar d).1.rxfifo =
      P.fifo.items d.rxfifo := by
  cases held : P.fifo.items d.rxfifo with
  | nil =>
    rw [vcomGetchar_empty held]
    simp [held]
  | cons byte rest =>
    obtain ⟨queue, result, items⟩ := vcomGetchar_takes held
    rw [result]
    simp [items]

/-- A handler stores the packets it reads. -/
theorem isr_receives (counted : P.fifo.Counted) (d : Device P) (source : Interrupt) :
    P.fifo.items (isr d source).1.rxfifo =
        P.fifo.items d.rxfifo ++ (packets (isr d source).2).flatten ∧
      Effect.assertFailed ∉ (isr d source).2 := by
  have outcome := isr_outcome d source
  generalize equation : isr d source = result at outcome
  cases outcome with
  | starts next _ _ _ sent => simp [sent.rxfifo_eq]
  | continues next _ _ sent => simp [sent.rxfifo_eq]
  | idles => simp
  | receives read isBulkOut =>
    subst isBulkOut
    rw [← equation, isr]
    by_cases declined : P.fifo.free d.rxfifo < maxPacketSize
    · rw [bulkOut_declines _ _ declined]
      simp
    · obtain ⟨buffer, queue, result, items⟩ :=
        bulkOut_reads counted bulkOutEp read (Nat.not_lt.mp declined)
      rw [result]
      simp [items]
  | waits => simp

/-- One call conserves the bytes received: what it fetches and what the queue then holds is
what the queue held and what the call read. -/
theorem step_receives (counted : P.fifo.Counted) (d : Device P) (event : Event) :
    fetched (step d event).2 ++ P.fifo.items (step d event).1.rxfifo =
        P.fifo.items d.rxfifo ++ (packets (step d event).2).flatten ∧
      Effect.assertFailed ∉ (step d event).2 := by
  have put : ∀ c : CInt, (putTx d c).1.rxfifo = d.rxfifo := by
    intro c
    obtain ⟨queue, device, _⟩ := putTx_eq d c
    rw [device]
  cases event with
  | putchar c => simp [step, vcomPutchar, put]
  | putwordByte c place => simp [step, put]
  | getchar => simpa [step] using getchar_conserves d
  | irq source =>
    obtain ⟨items, alive⟩ := isr_receives counted d source
    have noFetch := (isr_no_port d source).2.2.1
    exact ⟨by simpa [step, noFetch] using items, alive⟩

/-- A call of the main loop leaves the packet buffer alone and never fills `rxfifo`. -/
theorem port_keeps_packet (d : Device P) {event : Event} (port : ∀ source, event ≠ .irq source) :
    (step d event).1.abBulkBuf = d.abBulkBuf ∧
      (P.fifo.items (step d event).1.rxfifo).length ≤ (P.fifo.items d.rxfifo).length := by
  have put : ∀ c : CInt, (putTx d c).1.abBulkBuf = d.abBulkBuf ∧
      (putTx d c).1.rxfifo = d.rxfifo := by
    intro c
    obtain ⟨queue, device, _⟩ := putTx_eq d c
    simp [device]
  cases event with
  | putchar c => simp [step, vcomPutchar, put]
  | putwordByte c place => simp [step, put]
  | getchar =>
    obtain ⟨queue, device⟩ := vcomGetchar_frame d
    have one := congrArg List.length (getchar_conserves d)
    rw [List.length_append] at one
    exact ⟨by simp [step, device], by simp only [step]; omega⟩
  | irq source => exact absurd rfl (port source)

/-- Bytes of the packet in hand that are not stored yet, from the buffer. -/
def unstored (r : Receiver P) : List UInt8 :=
  match r.storing with
  | none => []
  | some (i, iLen) => (r.device.abBulkBuf.toList.drop i).take (iLen - i)

/-- The loop of `BulkOut` stays inside the buffer, and `rxfifo` has room for the rest of
the packet. -/
def HasRoom (r : Receiver P) : Prop :=
  match r.storing with
  | none => True
  | some (i, iLen) =>
    i ≤ iLen ∧ iLen ≤ 64 ∧
      (P.fifo.items r.device.rxfifo).length + (iLen - i) ≤ P.fifo.capacity

/-- The receive side accounts for every byte read, and has room for the bytes in hand. -/
structure Received (r : Receiver P) (history : List (ReceiverEvent × List Effect)) : Prop where
  /-- Fetched, held and unstored bytes are the packets read. -/
  conserved : fetched (effects history) ++ P.fifo.items r.device.rxfifo ++ unstored r =
    (packets (effects history)).flatten
  /-- There is room for the bytes in hand. -/
  room : HasRoom r
  /-- The overflow branch has not been taken. -/
  alive : Effect.assertFailed ∉ effects history

/-- What is unstored is as long as the loop has passes left. -/
theorem unstored_length {r : Receiver P} (room : HasRoom r) :
    (unstored r).length = r.remaining := by
  obtain ⟨device, storing⟩ := r
  cases storing with
  | none => rfl
  | some place =>
    obtain ⟨i, iLen⟩ := place
    obtain ⟨_, inside, _⟩ := room
    simp only [unstored, Receiver.remaining, List.length_take, List.length_drop,
      Vector.length_toList]
    omega

/-- A step that conserves bytes, keeps the room and does not fail keeps the account. -/
theorem received_step_of {r : Receiver P} {history : List (ReceiverEvent × List Effect)}
    (received : Received r history) {event : ReceiverEvent}
    (conserves : fetched (r.step event).2 ++
        P.fifo.items (r.step event).1.device.rxfifo ++ unstored (r.step event).1 =
      P.fifo.items r.device.rxfifo ++ unstored r ++ (packets (r.step event).2).flatten)
    (room : HasRoom (r.step event).1) (alive : Effect.assertFailed ∉ (r.step event).2) :
    Received (r.step event).1 (history ++ [(event, (r.step event).2)]) := by
  refine ⟨?_, room, ?_⟩
  · have before := received.conserved
    simp only [effects_snoc, fetched_append,
      packets_append, List.flatten_append]
    calc fetched (effects history) ++ fetched (r.step event).2 ++
          P.fifo.items (r.step event).1.device.rxfifo ++ unstored (r.step event).1
        = fetched (effects history) ++ (fetched (r.step event).2 ++
            P.fifo.items (r.step event).1.device.rxfifo ++ unstored (r.step event).1) := by
          simp only [List.append_assoc]
      _ = fetched (effects history) ++ P.fifo.items r.device.rxfifo ++ unstored r ++
            (packets (r.step event).2).flatten := by
          rw [conserves]
          simp only [List.append_assoc]
      _ = (packets (effects history)).flatten ++ (packets (r.step event).2).flatten := by
          rw [before]
  · simp only [effects_snoc, List.mem_append,
      not_or]
    exact ⟨received.alive, alive⟩

/-- The entry of `BulkOut` has room for the packet it reads. -/
theorem received_enter (counted : P.fifo.Counted) {r : Receiver P}
    {history : List (ReceiverEvent × List Effect)} (received : Received r history)
    (read : Option Packet) (idle : r.storing = none) :
    Received (r.step (.enter read)).1
      (history ++ [(.enter read, (r.step (.enter read)).2)]) := by
  obtain ⟨device, storing⟩ := r
  obtain rfl : storing = none := idle
  by_cases declined : P.fifo.free device.rxfifo < maxPacketSize
  · have entered : Receiver.step ⟨device, none⟩ (.enter read) = (⟨device, none⟩, []) := by
      simp [Receiver.step, bulkOutRead, declined]
    exact received_step_of received (by simp [entered]) (by rw [entered]; trivial)
      (by simp [entered])
  · have entered : Receiver.step ⟨device, none⟩ (.enter read) =
        (⟨{ device with abBulkBuf := (usbHwEPRead device.abBulkBuf read).1 },
          some (0, (readBytes read).length)⟩, [.epRead bulkOutEp read]) := by
      simp [Receiver.step, bulkOutRead, declined, usbHwEPRead_length]
    have fits := readBytes_length read
    have size : maxPacketSize = 64 := rfl
    have space := counted.free_items device.rxfifo
    apply received_step_of received
    · rw [entered]
      simp [unstored, usbHwEPRead_take]
    · rw [entered]
      refine ⟨Nat.zero_le _, fits, ?_⟩
      show (P.fifo.items device.rxfifo).length + ((readBytes read).length - 0) ≤ _
      omega
    · simp [entered]

/-- A pass of the loop of `BulkOut` stores the byte it is at. -/
theorem received_pass {r : Receiver P} {history : List (ReceiverEvent × List Effect)}
    (received : Received r history) :
    Received (r.step .pass).1 (history ++ [(.pass, (r.step .pass).2)]) := by
  obtain ⟨device, storing⟩ := r
  cases storing with
  | none =>
    exact received_step_of received (by simp [Receiver.step]) trivial (by simp [Receiver.step])
  | some place =>
    obtain ⟨i, iLen⟩ := place
    have inside : iLen ≤ 64 := received.room.2.1
    have space : (P.fifo.items device.rxfifo).length + (iLen - i) ≤ P.fifo.capacity :=
      received.room.2.2
    by_cases more : i < iLen
    · obtain ⟨queue, pass, items⟩ := bulkOutStore_stores device i (by omega)
      have stepped : Receiver.step ⟨device, some (i, iLen)⟩ .pass =
          (⟨{ device with rxfifo := queue }, some (i + 1, iLen)⟩, []) := by
        simp [Receiver.step, more, pass]
      apply received_step_of received
      · have cells := drop_abBulkBuf device.abBulkBuf (show i < 64 by omega)
        have count : iLen - i = iLen - (i + 1) + 1 := by omega
        rw [stepped]
        simp only [unstored, items, cells, count, List.take_succ_cons, shows_nil,
          List.flatten_nil, List.nil_append, List.append_nil, List.append_assoc,
          List.singleton_append]
      · rw [stepped]
        refine ⟨more, inside, ?_⟩
        show (P.fifo.items queue).length + (iLen - (i + 1)) ≤ P.fifo.capacity
        rw [items, List.length_append, List.length_singleton]
        omega
      · simp [stepped]
    · have stepped : Receiver.step ⟨device, some (i, iLen)⟩ .pass = (⟨device, none⟩, []) := by
        simp [Receiver.step, more]
      have none : iLen - i = 0 := by omega
      exact received_step_of received (by simp [stepped, unstored, none])
        (by rw [stepped]; trivial) (by simp [stepped])

/-- A call from outside leaves the packet in hand as it is. -/
theorem received_call (counted : P.fifo.Counted) {r : Receiver P}
    {history : List (ReceiverEvent × List Effect)} (received : Received r history)
    (event : Event) (admitted : r.Admits (.call event)) :
    Received (r.step (.call event)).1
      (history ++ [(.call event, (r.step (.call event)).2)]) := by
  obtain ⟨device, storing⟩ := r
  obtain ⟨conserves, alive⟩ := step_receives counted device event
  cases storing with
  | none =>
    have nothing : ∀ device : Device P, unstored ⟨device, none⟩ = [] := fun _ => rfl
    apply received_step_of received
    · simpa [Receiver.step, nothing] using conserves
    · trivial
    · exact alive
  | some place =>
    have port : ∀ source, event ≠ .irq source := by
      rintro source rfl
      exact absurd admitted (by simp [Receiver.Admits])
    obtain ⟨buffer, fewer⟩ := port_keeps_packet device port
    have unread : packets (Firmware.step device event).2 = [] := by
      cases event with
      | irq source => exact absurd rfl (port source)
      | _ => rfl
    obtain ⟨start, inside, room⟩ := received.room
    have space : (P.fifo.items device.rxfifo).length + (place.2 - place.1) ≤ P.fifo.capacity := room
    apply received_step_of received
    · rw [unread, List.flatten_nil, List.append_nil] at conserves
      simp only [Receiver.step, unstored, buffer, unread, conserves, List.flatten_nil,
        List.append_nil]
    · refine ⟨start, inside, ?_⟩
      exact (Nat.add_le_add_right fewer _).trans space
    · exact alive

/-- The receive side accounts for every byte after every admitted run. -/
theorem received_run (counted : P.fifo.Counted) (d : Device P) {events : List ReceiverEvent}
    (admitted : Along Receiver.step Receiver.Admits (Receiver.start d) events) :
    Received (exec Receiver.step (Receiver.start d) events)
      (trace Receiver.step (Receiver.start d) events) := by
  refine invariant Received ?_ ?_ admitted
  · exact ⟨by simp [Receiver.start, unstored], trivial, by simp⟩
  · intro r history event received admits
    cases event with
    | enter read => exact received_enter counted received read admits
    | pass => exact received_pass received
    | call event => exact received_call counted received event admits

/-- The receive path neither overflows nor loses a byte. In every run from `VCOM_init` in
which no other handler is called while `BulkOut` is running, the overflow branch is not
taken, and the bytes that `VCOM_getchar` has returned followed by the content of `rxfifo`
are the packets read, up to the byte that `BulkOut` is about to store. -/
theorem receive_exact (counted : P.fifo.Counted) (d : Device P) (events : List ReceiverEvent)
    (admitted : Along Receiver.step Receiver.Admits (Receiver.start d) events) :
    Effect.assertFailed ∉ effects (trace Receiver.step (Receiver.start d) events) ∧
    fetched (effects (trace Receiver.step (Receiver.start d) events)) ++
        P.fifo.items (exec Receiver.step (Receiver.start d) events).device.rxfifo =
      (packets (effects (trace Receiver.step (Receiver.start d) events))).flatten.take
        ((packets (effects (trace Receiver.step (Receiver.start d) events))).flatten.length -
          (exec Receiver.step (Receiver.start d) events).remaining) := by
  obtain ⟨conserved, room, alive⟩ := received_run counted d admitted
  refine ⟨alive, ?_⟩
  rw [← conserved, ← unstored_length room, List.length_append, Nat.add_sub_cancel,
    List.take_left]

/-- A run in which the main loop takes a byte while the second packet is being stored. -/
def overlapRun : List ReceiverEvent :=
  [.enter (some ⟨[1, 2], by decide⟩), .pass, .pass, .pass, .call .getchar, .call .getchar,
    .enter (some ⟨[3, 4, 5], by decide⟩), .pass, .call .getchar, .pass,
    .call (.putchar 65)]

/-- The second packet of this run is stored up to its third byte. -/
theorem receive_exact_overlapRun :
    Effect.assertFailed ∉
      effects (trace Receiver.step (Receiver.start (Device.blank 64)) overlapRun) ∧
    fetched (effects (trace Receiver.step (Receiver.start (Device.blank 64)) overlapRun)) ++
        (Platform.ofList 64).fifo.items
          (exec Receiver.step (Receiver.start (Device.blank 64)) overlapRun).device.rxfifo =
      (packets (effects (trace Receiver.step (Receiver.start (Device.blank 64))
          overlapRun))).flatten.take
        ((packets (effects (trace Receiver.step (Receiver.start (Device.blank 64))
            overlapRun))).flatten.length -
          (exec Receiver.step (Receiver.start (Device.blank 64)) overlapRun).remaining) :=
  receive_exact (Fifo.ofList_counted UInt8 64) (Device.blank 64) overlapRun (by decide)

end Olimex2378.Verif.Receive
