import Olimex2378.Basis.Fairness
import Olimex2378.Basis.Part
import Olimex2378.Bench.Datapath
import Olimex2378.Verif.Alignment

/-!
# From one program to the other

Between `fifo_put` on the device and `read` on the host lie a queue, a packet and a serial
port, and as much lies between `write` on the host and `VCOM_getchar` on the device. On either
way bytes are neither added nor repeated nor reordered, and none is missing unless a bus reset
or a flush has discarded it on the way. The device and the host program are parts of the whole:
what is proved of their own runs holds of what they do in it.
-/

namespace Olimex2378.Verif.Delivery

open Bench Run
open Firmware (Device Platform Sampler SamplerEvent Interrupt Packet payloads accepted fetched
  packets passed)

variable {P : Platform}

/-- A step of the sampler conserves the bytes for the host. -/
theorem sampler_transmits (s : Sampler P) (event : SamplerEvent) :
    (payloads (s.step event).2).flatten ++ P.fifo.items (s.step event).1.device.txfifo =
      P.fifo.items s.device.txfifo ++ accepted (s.step event).2 := by
  have one := Alignment.stream_step s [] event
  simpa [Alignment.stream] using one

/-- A step of the sampler conserves the bytes received. -/
theorem sampler_receives (counted : P.fifo.Counted) (s : Sampler P) (event : SamplerEvent) :
    fetched (s.step event).2 ++ P.fifo.items (s.step event).1.device.rxfifo =
      P.fifo.items s.device.rxfifo ++ (packets (s.step event).2).flatten := by
  cases event with
  | irq source =>
    have received := (Receive.isr_receives counted s.device source).1
    have noFetch := (Firmware.isr_no_port s.device source).2.2.1
    simp only [Sampler.step]
    rw [noFetch, received, List.nil_append]
  | main =>
    simp only [Sampler.step]
    cases atPoint : s.point with
    | top =>
      rcases Firmware.main_top atPoint with ⟨c, _, result⟩ | ⟨_, result⟩
      · rw [result]
        exact (List.append_nil _).symm
      · rw [result]
        exact (List.append_nil _).symm
    | putword c place =>
      rw [Firmware.main_put atPoint]
      exact (Receive.step_receives counted s.device (.putwordByte c place)).1
    | poll =>
      obtain ⟨point, result, _⟩ := Firmware.main_poll atPoint
      rw [result]
      exact (Receive.step_receives counted s.device .getchar).1
    | echo c =>
      rw [Firmware.main_echo atPoint]
      exact (Receive.step_receives counted s.device (.putchar c)).1

/-- The sampler's part of an event. -/
def samplerActs (s : Datapath P) : BenchEvent → List SamplerEvent
  | .main => [.main]
  | .frame => [.irq .frame]
  | .collect => []
  | .bulkIn => [.irq .bulkIn]
  | .transfer _ => []
  | .bulkOut => [.irq (.bulkOut s.waiting.head?)]
  | .devInt bDevStatus => [.irq (.devInt bDevStatus)]
  | .host _ _ => []

/-- The host program's part of an event. -/
def hostActs (_ : Datapath P) : BenchEvent → List Host.Poll
  | .host poll _ => [poll]
  | _ => []

/-- What a bus reset leaves alone. -/
@[simp] theorem settle_frame (s : Datapath P) (bDevStatus : UInt8) :
    (s.settle bDevStatus).sampler = s.sampler ∧ (s.settle bDevStatus).host = s.host ∧
      (s.settle bDevStatus).inbound = s.inbound ∧
      (s.settle bDevStatus).outbound = s.outbound := by
  unfold Datapath.settle
  split <;> exact ⟨rfl, rfl, rfl, rfl⟩

/-- What an iteration of the host program does to the whole. -/
theorem hostStep_parts (quiet : CInt) (s : Datapath P) (poll : Host.Poll) (taken : Bool) :
    (s.hostStep quiet poll taken).1.host = (s.host.step quiet poll).1 ∧
      (s.hostStep quiet poll taken).1.sampler = s.sampler ∧
      (s.hostStep quiet poll taken).2 = (s.host.step quiet poll).2.map .host ++
        (if taken then writes (s.host.step quiet poll).2 else []).map .sent := by
  unfold Datapath.hostStep
  dsimp only
  split <;> exact ⟨rfl, rfl, rfl⟩

/-- The device is a part of the whole. -/
def samplerPart (P : Platform) (quiet : CInt) :
    Part (Datapath.step (P := P) quiet) (Sampler.step (P := P)) where
  part := Datapath.sampler
  acts := samplerActs
  seen := deviceEffects
  seen_append := deviceEffects_append
  moves s event := by
    cases event with
    | collect =>
      simp only [Datapath.step, samplerActs, exec_nil]
      cases s.outstanding <;> rfl
    | devInt bDevStatus =>
      simp [Datapath.step, Datapath.device, samplerActs]
    | host poll taken => exact (hostStep_parts quiet s poll taken).2.1
    | _ => rfl
  shows s event := by
    cases event with
    | collect =>
      simp only [Datapath.step, samplerActs, trace_nil, effects_nil]
      cases s.outstanding <;> rfl
    | transfer count => rfl
    | host poll taken =>
      simp only [Datapath.step, samplerActs, trace_nil, effects_nil]
      rw [(hostStep_parts quiet s poll taken).2.2]
      simp
    | _ => simp [Datapath.step, Datapath.device, samplerActs]

/-- The host program is a part of the whole. -/
def hostPart (P : Platform) (quiet : CInt) :
    Part (Datapath.step (P := P) quiet) (Host.DatapathTask.step quiet) where
  part := Datapath.host
  acts := hostActs
  seen := hostEffects
  seen_append := hostEffects_append
  moves s event := by
    cases event with
    | collect =>
      simp only [Datapath.step, hostActs, exec_nil]
      cases s.outstanding <;> rfl
    | devInt bDevStatus =>
      simp [Datapath.step, Datapath.device, hostActs]
    | host poll taken => exact (hostStep_parts quiet s poll taken).1
    | _ => rfl
  shows s event := by
    cases event with
    | collect =>
      simp only [Datapath.step, hostActs, trace_nil, effects_nil]
      cases s.outstanding <;> rfl
    | transfer count => rfl
    | host poll taken =>
      simp only [Datapath.step, hostActs]
      rw [(hostStep_parts quiet s poll taken).2.2]
      simp
    | _ => simp [Datapath.step, Datapath.device, hostActs]

/-- Bytes from `fifo_put` on the device to `read` on the host. -/
def samples (P : Platform) : Account (Datapath P) BenchEffect UInt8 where
  held s := s.inbound ++ s.outstanding.flatten ++ P.fifo.items s.sampler.device.txfifo
  came out := accepted (deviceEffects out)
  gone out := (Host.reads (hostEffects out)).flatten
  came_append first second := by simp
  gone_append first second := by simp

/-- A step of the device keeps the account of the bytes for the host. -/
theorem samples_device (s : Datapath P) (event : SamplerEvent) :
    (samples P).after (s.device event).2 (s.device event).1 =
      (samples P).before s (s.device event).2 := by
  have conserves := sampler_transmits s.sampler event
  simp only [Account.after, Account.before, samples, Datapath.device, effects_device,
    List.flatten_append, Host.reads, List.filterMap_nil, List.flatten_nil, List.nil_append,
    List.append_assoc]
  rw [conserves]

/-- The serial port's part of an iteration writes and flushes nothing. -/
theorem serial_silent (quiet : CInt) (t : Host.DatapathTask) (read : Host.SerialRead 8) :
    writes (t.serial quiet read).2 = [] ∧ flushes (t.serial quiet read).2 = false := by
  cases read with
  | failed => exact ⟨rfl, rfl⟩
  | empty => exact ⟨rfl, rfl⟩
  | data bytes positive fits =>
    simp only [Host.DatapathTask.serial]
    split <;> exact ⟨rfl, rfl⟩

/-- An iteration that flushes the port ends with that: it neither writes nor reads. -/
theorem flush_alone {quiet : CInt} {t : Host.DatapathTask} {poll : Host.Poll}
    (flushed : flushes (t.step quiet poll).2 = true) :
    (t.step quiet poll).2 = [.flushPort] := by
  have terminal : flushes (t.terminal poll).2.1 = true →
      (t.terminal poll).2 = ([.flushPort], false) := by
    unfold Host.DatapathTask.terminal
    cases poll.stdin with
    | failed => simp [flushes]
    | empty => simp [flushes]
    | key typed =>
      dsimp only
      split_ifs <;> simp [flushes]
  have stepped := t.stepped quiet poll
  generalize t.step quiet poll = result at stepped flushed ⊢
  cases stepped with
  | stopped left => simp [flushes] at flushed
  | cut looping next out ends =>
    rw [ends] at terminal
    exact congrArg Prod.fst (terminal flushed)
  | quits looping next out goesOn quit =>
    rw [goesOn] at terminal
    exact absurd (congrArg Prod.snd (terminal flushed)) (by simp)
  | polls looping next out goesOn stays =>
    rw [goesOn] at terminal
    have both : flushes (out ++ (next.serial quiet poll.serial).2) =
        (flushes out || flushes (next.serial quiet poll.serial).2) := List.any_append
    rw [both, (serial_silent quiet next poll.serial).2, Bool.or_false] at flushed
    exact absurd (congrArg Prod.snd (terminal flushed)) (by simp)

/-- An iteration of the host program takes the bytes that it reads from the port, and may flush
the others. -/
theorem samples_host {quiet : CInt} {s : Datapath P} {poll : Host.Poll} (taken : Bool)
    (oldest : (Host.reads (s.host.step quiet poll).2).flatten <+: s.inbound) :
    ((samples P).after (s.hostStep quiet poll taken).2 (s.hostStep quiet poll taken).1).Sublist
        ((samples P).before s (s.hostStep quiet poll taken).2) ∧
      ((samples P).after (s.hostStep quiet poll taken).2 (s.hostStep quiet poll taken).1 =
        (samples P).before s (s.hostStep quiet poll taken).2 ↔
          s.KeepsSamples quiet (.host poll taken)) := by
  obtain ⟨rest, bytes⟩ := oldest
  rw [Account.after, Account.before, (hostStep_parts quiet s poll taken).2.2]
  simp only [samples, deviceEffects_append, hostEffects_append, effects_host, effects_sent,
    List.append_nil, Firmware.shows_nil, Datapath.KeepsSamples, Datapath.hostStep]
  cases flushed : flushes (s.host.step quiet poll).2 with
  | true =>
    rw [flush_alone flushed]
    simp only [if_true, Host.reads, List.filterMap_cons, List.filterMap_nil, List.flatten_nil,
      List.nil_append, forall_const, List.append_assoc]
    exact ⟨List.sublist_append_right _ _, by simp⟩
  | false =>
    simp only [Bool.false_eq_true, if_false, false_implies, iff_true]
    rw [← bytes, List.drop_left, List.append_assoc, List.append_assoc, List.append_assoc]
    exact ⟨List.Sublist.refl _, rfl⟩

/-- A device status discards the packets for the host when it is a bus reset. -/
theorem samples_settle (quiet : CInt) (s : Datapath P) (bDevStatus : UInt8) :
    ((samples P).held (s.settle bDevStatus)).Sublist ((samples P).held s) ∧
      ((samples P).held (s.settle bDevStatus) = (samples P).held s ↔
        s.KeepsSamples quiet (.devInt bDevStatus)) := by
  simp only [samples, Datapath.settle, Datapath.KeepsSamples]
  by_cases reset : bDevStatus &&& P.devStatusReset ≠ 0
  · rw [if_pos reset]
    simp only [List.flatten_nil, List.append_nil, reset, ne_eq, not_false_eq_true, forall_const]
    constructor
    · exact (List.sublist_append_left s.inbound _).append_right _
    · simp
  · rw [if_neg reset]
    exact ⟨List.Sublist.refl _, iff_of_true rfl (fun isReset => absurd isReset reset)⟩

/-- A step that keeps an account loses nothing. -/
theorem exact_step {left right : List UInt8} {keeps : Prop} (same : left = right)
    (holds : keeps) : left.Sublist right ∧ (left = right ↔ keeps) :=
  ⟨same ▸ List.Sublist.refl _, iff_of_true same holds⟩

/-- A step of the whole loses a byte on its way to the host exactly when it discards one. -/
theorem samples_step {quiet : CInt} {buffers : Nat} (s : Datapath P) (event : BenchEvent)
    (admits : s.Admits quiet buffers event) :
    ((samples P).after (s.step quiet event).2 (s.step quiet event).1).Sublist
        ((samples P).before s (s.step quiet event).2) ∧
      ((samples P).after (s.step quiet event).2 (s.step quiet event).1 =
        (samples P).before s (s.step quiet event).2 ↔ s.KeepsSamples quiet event) := by
  cases event with
  | main => exact exact_step (samples_device s .main) trivial
  | frame => exact exact_step (samples_device s (.irq .frame)) trivial
  | collect =>
    apply exact_step _ trivial
    rcases held : s.outstanding with _ | ⟨packet, rest⟩
    · exact absurd held admits
    · simp [Account.after, Account.before, samples, Datapath.step, held, deviceEffects,
        hostEffects, Host.reads]
  | bulkIn => exact exact_step (samples_device _ (.irq .bulkIn)) trivial
  | transfer count =>
    apply exact_step _ trivial
    simp [Account.after, Account.before, samples, Datapath.step, deviceEffects, hostEffects,
      Host.reads]
  | bulkOut => exact exact_step (samples_device _ (.irq (.bulkOut s.waiting.head?))) trivial
  | devInt bDevStatus =>
    have conserves := samples_device (s.settle bDevStatus) (.irq (.devInt bDevStatus))
    obtain ⟨fewer, keeps⟩ := samples_settle quiet s bDevStatus
    simp only [Datapath.step]
    rw [conserves]
    exact ⟨fewer.append_right _, by rw [← keeps]; exact List.append_left_inj _⟩
  | host poll taken => exact samples_host taken admits

/-- Bytes from `write` on the host to `VCOM_getchar` on the device. -/
def commands (P : Platform) : Account (Datapath P) BenchEffect UInt8 where
  held s := P.fifo.items s.sampler.device.rxfifo ++ s.waiting.flatMap Packet.bytes ++ s.outbound
  came out := sent out
  gone out := fetched (deviceEffects out)
  came_append first second := by simp
  gone_append first second := by simp

/-- Only a call of `BulkOut` reads packets. -/
theorem packets_of_other (s : Sampler P) {event : SamplerEvent}
    (other : ∀ read, event ≠ .irq (.bulkOut read)) : packets (s.step event).2 = [] := by
  cases event with
  | irq source =>
    have outcome := Firmware.isr_outcome s.device source
    simp only [Sampler.step]
    generalize Firmware.isr s.device source = result at outcome ⊢
    cases outcome with
    | receives read isBulkOut => exact absurd (congrArg SamplerEvent.irq isBulkOut) (other read)
    | _ => rfl
  | main =>
    simp only [Sampler.step]
    cases atPoint : s.point with
    | top =>
      rcases Firmware.main_top atPoint with ⟨c, _, result⟩ | ⟨_, result⟩ <;> rw [result] <;> rfl
    | putword c place =>
      rw [Firmware.main_put atPoint]
      rfl
    | poll =>
      obtain ⟨point, result, _⟩ := Firmware.main_poll atPoint
      rw [result]
      rfl
    | echo c =>
      rw [Firmware.main_echo atPoint]
      rfl

/-- A call of `BulkOut` takes the packet that it reads out of the endpoint. -/
theorem bulkOut_takes (d : Device P) (waiting : List Packet) :
    (packets (Firmware.isr d (.bulkOut waiting.head?)).2).flatten ++
        (waiting.drop (packets (Firmware.isr d (.bulkOut waiting.head?)).2).length).flatMap
          Packet.bytes =
      waiting.flatMap Packet.bytes := by
  have read : ∀ out : List (List UInt8), out = [] ∨ out = [Firmware.readBytes waiting.head?] →
      out.flatten ++ (waiting.drop out.length).flatMap Packet.bytes =
        waiting.flatMap Packet.bytes := by
    intro out calls
    rcases calls with rfl | rfl
    · rfl
    · cases waiting <;> simp [Firmware.readBytes]
  apply read
  obtain ⟨_, _, _, calls⟩ := Firmware.bulkOut_frame d Firmware.bulkOutEp waiting.head?
  rcases calls with out | out | out
  · exact Or.inl (by rw [Firmware.isr, out]; rfl)
  · exact Or.inr (by rw [Firmware.isr, out]; rfl)
  · exact Or.inr (by rw [Firmware.isr, out]; rfl)

/-- A step of the device that reads no packet keeps the account of the bytes for it. -/
theorem commands_device (counted : P.fifo.Counted) (s : Datapath P) {event : SamplerEvent}
    (other : ∀ read, event ≠ .irq (.bulkOut read)) :
    (commands P).after (s.device event).2 (s.device event).1 =
      (commands P).before s (s.device event).2 := by
  have conserves := sampler_receives counted s.sampler event
  rw [packets_of_other s.sampler other, List.flatten_nil, List.append_nil] at conserves
  simp only [Account.after, Account.before, commands, Datapath.device, effects_device,
    List.append_nil]
  rw [← List.append_assoc, ← List.append_assoc, conserves]

/-- A call of `BulkOut` keeps the account of the bytes for the device. -/
theorem commands_bulkOut (counted : P.fifo.Counted) (quiet : CInt) (s : Datapath P) :
    (commands P).after (s.step quiet .bulkOut).2 (s.step quiet .bulkOut).1 =
      (commands P).before s (s.step quiet .bulkOut).2 := by
  have conserves := sampler_receives counted s.sampler (.irq (.bulkOut s.waiting.head?))
  have taken := bulkOut_takes s.sampler.device s.waiting
  simp only [Account.after, Account.before, commands, Datapath.step, Datapath.device,
    effects_device, List.append_nil]
  rw [← List.append_assoc, ← List.append_assoc, conserves, List.append_assoc _ _ (List.flatMap _ _)]
  simp only [Sampler.step] at taken ⊢
  rw [taken]

/-- An iteration of the host program adds what the port takes, and may flush what it holds. -/
theorem commands_host (quiet : CInt) (s : Datapath P) (poll : Host.Poll) (taken : Bool) :
    ((commands P).after (s.hostStep quiet poll taken).2 (s.hostStep quiet poll taken).1).Sublist
        ((commands P).before s (s.hostStep quiet poll taken).2) ∧
      ((commands P).after (s.hostStep quiet poll taken).2 (s.hostStep quiet poll taken).1 =
        (commands P).before s (s.hostStep quiet poll taken).2 ↔
          s.KeepsCommands quiet (.host poll taken)) := by
  rw [Account.after, Account.before, (hostStep_parts quiet s poll taken).2.2]
  simp only [commands, deviceEffects_append, sent_append, effects_host, effects_sent,
    List.append_nil, List.nil_append, Firmware.shows_nil, Datapath.KeepsCommands,
    Datapath.hostStep]
  cases flushed : flushes (s.host.step quiet poll).2 with
  | true =>
    have none : writes (s.host.step quiet poll).2 = [] := by
      rw [flush_alone flushed]
      rfl
    simp only [if_true, none, ite_self, List.append_nil, forall_const]
    exact ⟨List.sublist_append_left _ _, by simp⟩
  | false =>
    simp only [Bool.false_eq_true, if_false, false_implies, iff_true]
    rw [List.append_assoc _ s.outbound]
    exact ⟨List.Sublist.refl _, rfl⟩

/-- A device status discards the packets for the device when it is a bus reset. -/
theorem commands_settle (quiet : CInt) (s : Datapath P) (bDevStatus : UInt8) :
    ((commands P).held (s.settle bDevStatus)).Sublist ((commands P).held s) ∧
      ((commands P).held (s.settle bDevStatus) = (commands P).held s ↔
        s.KeepsCommands quiet (.devInt bDevStatus)) := by
  simp only [commands, Datapath.settle, Datapath.KeepsCommands]
  by_cases reset : bDevStatus &&& P.devStatusReset ≠ 0
  · rw [if_pos reset]
    simp only [List.flatMap_nil, List.append_nil, reset, ne_eq, not_false_eq_true, forall_const]
    constructor
    · exact (List.sublist_append_left _ (s.waiting.flatMap Packet.bytes)).append_right _
    · simp
  · rw [if_neg reset]
    exact ⟨List.Sublist.refl _, iff_of_true rfl (fun isReset => absurd isReset reset)⟩

/-- A step of the whole loses a byte on its way to the device exactly when it discards one. -/
theorem commands_step (counted : P.fifo.Counted) (quiet : CInt) (s : Datapath P)
    (event : BenchEvent) :
    ((commands P).after (s.step quiet event).2 (s.step quiet event).1).Sublist
        ((commands P).before s (s.step quiet event).2) ∧
      ((commands P).after (s.step quiet event).2 (s.step quiet event).1 =
        (commands P).before s (s.step quiet event).2 ↔ s.KeepsCommands quiet event) := by
  cases event with
  | main => exact exact_step (commands_device counted s (by simp)) trivial
  | frame => exact exact_step (commands_device counted s (by simp)) trivial
  | collect =>
    apply exact_step _ trivial
    cases held : s.outstanding <;>
      simp [Account.after, Account.before, commands, Datapath.step, held, deviceEffects, sent]
  | bulkIn => exact exact_step (commands_device counted _ (by simp)) trivial
  | transfer count =>
    apply exact_step _ trivial
    simp [Account.after, Account.before, commands, Datapath.step, Datapath.nextPacket,
      deviceEffects, sent]
  | bulkOut => exact exact_step (commands_bulkOut counted quiet s) trivial
  | devInt bDevStatus =>
    have conserves := commands_device counted (s.settle bDevStatus)
      (show ∀ read, SamplerEvent.irq (.devInt bDevStatus) ≠ .irq (.bulkOut read) by simp)
    obtain ⟨fewer, keeps⟩ := commands_settle quiet s bDevStatus
    simp only [Datapath.step]
    rw [conserves]
    exact ⟨fewer.append_right _, by rw [← keeps]; exact List.append_left_inj _⟩
  | host poll taken => exact commands_host quiet s poll taken

/-- What is seen of a run of the whole from the start. -/
def output (quiet : CInt) (d : Device P) (beginTime : Int) (events : List BenchEvent) :
    List BenchEffect :=
  effects (trace (Datapath.step quiet) (Datapath.start d beginTime) events)

/-- The whole after a run from the start. -/
def final (quiet : CInt) (d : Device P) (beginTime : Int) (events : List BenchEvent) :
    Datapath P :=
  exec (Datapath.step quiet) (Datapath.start d beginTime) events

/-- A run as the hardware and the serial port allow it. -/
def Admitted (quiet : CInt) (buffers : Nat) (d : Device P) (beginTime : Int)
    (events : List BenchEvent) : Prop :=
  Along (Datapath.step quiet) (Datapath.Admits quiet buffers) (Datapath.start d beginTime) events

/-- The condition can be evaluated. -/
instance Admitted.decidable (quiet : CInt) (buffers : Nat) (d : Device P) (beginTime : Int)
    (events : List BenchEvent) : Decidable (Admitted quiet buffers d beginTime events) :=
  inferInstanceAs (Decidable (Along _ _ _ _))

/-- The whole at a time of an endless run. -/
def stateAfter (quiet : CInt) (s : Datapath P) (events : Nat → BenchEvent) (n : Nat) :
    Datapath P := stateAt (Datapath.step quiet) s events n

/-- What can be seen of an endless run before a time. -/
def outputAfter (quiet : CInt) (s : Datapath P) (events : Nat → BenchEvent) (n : Nat) :
    List BenchEffect := effects (trace (Datapath.step quiet) s (upTo events n))

/-- What has arrived at the host, and where the rest of it is. -/
theorem samples_account {quiet : CInt} {buffers : Nat} {d : Device P} {beginTime : Int}
    {events : List BenchEvent} (admitted : Admitted quiet buffers d beginTime events) :
    let out := output quiet d beginTime events
    let s := final quiet d beginTime events
    let arrived := (Host.reads (hostEffects out)).flatten ++
      (s.inbound ++ s.outstanding.flatten ++ P.fifo.items s.sampler.device.txfifo)
    arrived.Sublist (accepted (deviceEffects out)) ∧
      (arrived = accepted (deviceEffects out) ↔
        Along (Datapath.step quiet) (Datapath.KeepsSamples quiet) (Datapath.start d beginTime)
          events) := by
  intro out s arrived
  have nothing : (samples P).before (Datapath.start d beginTime) out =
      accepted (deviceEffects out) := by
    simp [Account.before, samples, Datapath.start, Sampler.start]
  have sublist := (samples P).sublist_run
    (fun state event admits => (samples_step state event admits).1) admitted
  have same := (samples P).exact_iff_along
    (fun state event admits => (samples_step state event admits).1)
    (fun state event admits => (samples_step state event admits).2) admitted
  rw [← nothing]
  exact ⟨sublist, same⟩

/-- What has arrived at the device, and where the rest of it is. -/
theorem commands_account (counted : P.fifo.Counted) (quiet : CInt) (d : Device P)
    (beginTime : Int) (events : List BenchEvent) :
    let out := output quiet d beginTime events
    let s := final quiet d beginTime events
    let arrived := fetched (deviceEffects out) ++ (P.fifo.items s.sampler.device.rxfifo ++
      s.waiting.flatMap Packet.bytes ++ s.outbound)
    arrived.Sublist (sent out) ∧
      (arrived = sent out ↔
        Along (Datapath.step quiet) (Datapath.KeepsCommands quiet) (Datapath.start d beginTime)
          events) := by
  intro out s arrived
  have nothing : (commands P).before (Datapath.start d beginTime) out = sent out := by
    simp [Account.before, commands, Datapath.start, Sampler.start]
  have any : Along (Datapath.step quiet) (fun _ _ => True) (Datapath.start d beginTime) events :=
    along_of_forall (fun _ _ => trivial) _ _
  have sublist := (commands P).sublist_run
    (fun state event _ => (commands_step counted quiet state event).1) any
  have same := (commands P).exact_iff_along
    (fun state event _ => (commands_step counted quiet state event).1)
    (fun state event _ => (commands_step counted quiet state event).2) any
  rw [← nothing]
  exact ⟨sublist, same⟩

/-- Bytes reach the host once and in order. In every admitted run, what the host program has
read, followed by what the serial port, the bulk IN endpoint and `txfifo` hold, is found in
order among the bytes that `fifo_put` took into `txfifo`; and it is all of them exactly when no
bus reset and no flush has discarded a byte on this way. -/
theorem samples_delivered (quiet : CInt) (buffers : Nat) (d : Device P) (beginTime : Int)
    (events : List BenchEvent) (admitted : Admitted quiet buffers d beginTime events) :
    let out := output quiet d beginTime events
    let s := final quiet d beginTime events
    let arrived := (Host.reads (hostEffects out)).flatten ++
      (s.inbound ++ s.outstanding.flatten ++ P.fifo.items s.sampler.device.txfifo)
    arrived.Sublist (accepted (deviceEffects out)) ∧
      (arrived = accepted (deviceEffects out) ↔
        Along (Datapath.step quiet) (Datapath.KeepsSamples quiet) (Datapath.start d beginTime)
          events) :=
  samples_account admitted

/-- A run in which `g` is typed, the first sample is read and the second is lost in a bus reset. -/
def resetRun : List BenchEvent :=
  [.host { stdin := .key 'g'.toUInt8, flush := 0, now := 0, serial := .empty } true,
    .transfer 1, .bulkOut, .main, .main, .main, .main, .main, .main, .main, .frame, .collect,
    .host { stdin := .empty, flush := 0, now := 0,
            serial := .data [1, 0, 0, 0] (by decide) (by decide) } true,
    .bulkIn, .main, .main, .main, .main, .main, .main, .frame, .devInt 0x10]

/-- The samples of this run. -/
theorem samples_delivered_resetRun :
    let out := output 0 (Device.blank 64) 0 resetRun
    let s := final 0 (Device.blank 64) 0 resetRun
    let arrived := (Host.reads (hostEffects out)).flatten ++
      (s.inbound ++ s.outstanding.flatten ++
        (Platform.ofList 64).fifo.items s.sampler.device.txfifo)
    arrived.Sublist (accepted (deviceEffects out)) ∧
      (arrived = accepted (deviceEffects out) ↔
        Along (Datapath.step 0) (Datapath.KeepsSamples 0) (Datapath.start (Device.blank 64) 0)
          resetRun) :=
  samples_delivered 0 1 (Device.blank 64) 0 resetRun (by decide +kernel)

example : (Host.reads (hostEffects (output 0 (Device.blank 64) 0 resetRun))).flatten = [1, 0, 0, 0] ∧
  accepted (deviceEffects (output 0 (Device.blank 64) 0 resetRun)) = [1, 0, 0, 0, 2, 0, 0, 0] := by
  decide +kernel

/-- Keys reach the device once and in order. In every run, what `VCOM_getchar` has returned,
followed by what `rxfifo`, the bulk OUT endpoint and the serial port hold, is found in order
among the bytes that the port took from the host program; and it is all of them exactly when no
bus reset and no flush has discarded a byte on this way. -/
theorem commands_delivered (counted : P.fifo.Counted) (quiet : CInt) (d : Device P)
    (beginTime : Int) (events : List BenchEvent) :
    let out := output quiet d beginTime events
    let s := final quiet d beginTime events
    let arrived := fetched (deviceEffects out) ++ (P.fifo.items s.sampler.device.rxfifo ++
      s.waiting.flatMap Packet.bytes ++ s.outbound)
    arrived.Sublist (sent out) ∧
      (arrived = sent out ↔
        Along (Datapath.step quiet) (Datapath.KeepsCommands quiet) (Datapath.start d beginTime)
          events) :=
  commands_account counted quiet d beginTime events

/-- The keys of that run. -/
theorem commands_delivered_resetRun :
    let out := output 0 (Device.blank 64) 0 resetRun
    let s := final 0 (Device.blank 64) 0 resetRun
    let arrived := fetched (deviceEffects out) ++
      ((Platform.ofList 64).fifo.items s.sampler.device.rxfifo ++
        s.waiting.flatMap Packet.bytes ++ s.outbound)
    arrived.Sublist (sent out) ∧
      (arrived = sent out ↔
        Along (Datapath.step 0) (Datapath.KeepsCommands 0) (Datapath.start (Device.blank 64) 0)
          resetRun) :=
  commands_delivered (Fifo.ofList_counted UInt8 64) 0 (Device.blank 64) 0 resetRun

end Olimex2378.Verif.Delivery
