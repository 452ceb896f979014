import Olimex2378.Verif.Progress

/-!
# What the device sends arrives in the end

The steps of the two programs and the bus come in any order, for ever. As long as frames tick
again and again, the host collects a packet that stays in the endpoint, a call of `BulkIn` that
stays due is made, and the host program reads when bytes stay in the port, every byte that
`fifo_put` takes into `txfifo` is read by the host program at some time, whatever else happens in
between.
-/

namespace Olimex2378.Verif.SampleFlow

open Bench Run Delivery Progress
open Firmware (Device Platform Sampler SamplerEvent Interrupt payloads accepted maxPacketSize)

variable {P : Platform}

/-- What an admitted step that discards nothing does to the packets and bytes on their way to the
host program, and what it reads. -/
inductive Flow (s next : Datapath P) : BenchEvent → List UInt8 → Prop
  /-- They stay where they are. -/
  | rests {event : BenchEvent} (outstanding : next.outstanding = s.outstanding)
      (finished : next.finished = s.finished) (inbound : next.inbound = s.inbound)
      (noCollect : event ≠ .collect) (noBulkIn : event ≠ .bulkIn)
      (noStart : event = .frame → s.sampler.device.fBulkInBusy = true ∨
        P.fifo.avail s.sampler.device.txfifo = 0) : Flow s next event []
  /-- A bus reset finds no byte in the endpoint. -/
  | clears {event : BenchEvent} (empty : s.outstanding.flatten = [])
      (outstanding : next.outstanding = []) (finished : next.finished = 0)
      (inbound : next.inbound = s.inbound) (noCollect : event ≠ .collect)
      (noBulkIn : event ≠ .bulkIn) (noFrame : event ≠ .frame) : Flow s next event []
  /-- The endpoint, which holds nothing, gets a packet of the oldest bytes. -/
  | sends {event : BenchEvent} (cleared : s.outstanding = [])
      (outstanding : next.outstanding =
        [(P.fifo.items s.sampler.device.txfifo).take maxPacketSize])
      (inbound : next.inbound = s.inbound) : Flow s next event []
  /-- A call of `BulkIn` ends a chain. -/
  | ends (cleared : s.outstanding = []) (due : s.finished = 1)
      (outstanding : next.outstanding = []) (finished : next.finished = 0)
      (inbound : next.inbound = s.inbound) : Flow s next .bulkIn []
  /-- The packet goes to the port. -/
  | collects (packet : List UInt8) (held : s.outstanding = [packet])
      (outstanding : next.outstanding = []) (finished : next.finished = 1)
      (inbound : next.inbound = s.inbound ++ packet) : Flow s next .collect []
  /-- The host program reads the oldest bytes that the port holds. -/
  | reads (poll : Host.Poll) (taken : Bool) (bytes : List UInt8)
      (outstanding : next.outstanding = s.outstanding) (finished : next.finished = s.finished)
      (inbound : s.inbound = bytes ++ next.inbound) : Flow s next (.host poll taken) bytes

/-- A step of the device reads nothing from the port. -/
theorem device_reads (s : Datapath P) (event : SamplerEvent) :
    (Host.reads (hostEffects (s.device event).2)).flatten = [] := by
  simp only [Datapath.device, effects_device]
  rfl

/-- What a handler does to the packets and bytes on their way to the host program. -/
theorem device_fields (s : Datapath P) (source : Interrupt) :
    (s.device (.irq source)).1.outstanding =
        s.outstanding ++ payloads (Firmware.isr s.sampler.device source).2 ∧
      (s.device (.irq source)).1.finished = s.finished ∧
      (s.device (.irq source)).1.inbound = s.inbound := ⟨rfl, rfl, rfl⟩

/-- A frame tick starts a chain, or moves nothing. -/
theorem flow_frame (quiet : CInt) {s : Datapath P} (live : Live s) :
    Flow s (s.step quiet .frame).1 .frame [] := by
  obtain ⟨outstanding, finished, inbound⟩ := device_fields s .frame
  by_cases starts : s.sampler.device.fBulkInBusy = false ∧
      P.fifo.avail s.sampler.device.txfifo ≠ 0
  · have none : s.outstanding.length + s.finished = 0 := by
      simpa [starts.1] using live.agrees.2
    have cleared : s.outstanding = [] := List.eq_nil_of_length_eq_zero (by omega)
    obtain ⟨next, result, _⟩ := Firmware.usbFrameHandler_sends starts.1 starts.2
    rw [Firmware.isr, result, cleared] at outstanding
    exact .sends cleared outstanding inbound
  · have waits : s.sampler.device.fBulkInBusy = true ∨
        P.fifo.avail s.sampler.device.txfifo = 0 := by
      cases busy : s.sampler.device.fBulkInBusy
      · exact Or.inr (by simpa [busy] using starts)
      · exact Or.inl rfl
    rw [Firmware.isr, Firmware.usbFrameHandler_waits waits, Firmware.shows_nil.1,
      List.append_nil] at outstanding
    exact .rests outstanding finished inbound (by simp) (by simp) (fun _ => waits)

/-- A call of `BulkIn` that is due goes on with a chain or ends it. -/
theorem flow_bulkIn (quiet : CInt) {s : Datapath P} (live : Live s) (due : 0 < s.finished) :
    Flow s (s.step quiet .bulkIn).1 .bulkIn [] := by
  have one := live.agrees.1
  have cleared : s.outstanding = [] := List.eq_nil_of_length_eq_zero (by omega)
  have last : s.finished = 1 := by omega
  obtain ⟨outstanding, finished, inbound⟩ :=
    device_fields { s with finished := s.finished - 1 } .bulkIn
  cases chain : s.sampler.device.fChainDone with
  | false =>
    obtain ⟨next, result, _⟩ := Firmware.bulkIn_sends Firmware.bulkInEp chain
    rw [Firmware.isr, result] at outstanding
    exact .sends cleared (by rw [Datapath.step, outstanding, cleared]; rfl) inbound
  | true =>
    rw [Firmware.isr, Firmware.bulkIn_ends Firmware.bulkInEp chain] at outstanding
    refine .ends cleared last (by rw [Datapath.step, outstanding, cleared]; rfl) ?_ inbound
    rw [Datapath.step, finished, last]

/-- A device status moves nothing, or it is a bus reset that finds no byte. -/
theorem flow_devInt {quiet : CInt} {s : Datapath P} {bDevStatus : UInt8}
    (keeps : s.KeepsSamples quiet (.devInt bDevStatus)) :
    Flow s (s.step quiet (.devInt bDevStatus)).1 (.devInt bDevStatus) [] := by
  obtain ⟨outstanding, finished, inbound⟩ :=
    device_fields (s.settle bDevStatus) (.devInt bDevStatus)
  have silent : payloads (Firmware.isr (s.settle bDevStatus).sampler.device
      (.devInt bDevStatus)).2 = [] := rfl
  rw [silent, List.append_nil] at outstanding
  by_cases reset : bDevStatus &&& P.devStatusReset ≠ 0
  · refine .clears (keeps reset) ?_ ?_ ?_ (by simp) (by simp) (by simp)
    · rw [Datapath.step, outstanding, Datapath.settle, if_pos reset]
    · rw [Datapath.step, finished, Datapath.settle, if_pos reset]
    · rw [Datapath.step, inbound, (settle_frame s bDevStatus).2.2.1]
  · refine .rests ?_ ?_ ?_ (by simp) (by simp) (by simp)
    · rw [Datapath.step, outstanding, Datapath.settle, if_neg reset]
    · rw [Datapath.step, finished, Datapath.settle, if_neg reset]
    · rw [Datapath.step, inbound, Datapath.settle, if_neg reset]

/-- An iteration of the host program reads the oldest bytes, or flushes a port that is empty. -/
theorem flow_host {quiet : CInt} {s : Datapath P} {poll : Host.Poll} (taken : Bool)
    (oldest : (Host.reads (s.host.step quiet poll).2).flatten <+: s.inbound)
    (keeps : s.KeepsSamples quiet (.host poll taken)) :
    Flow s (s.step quiet (.host poll taken)).1 (.host poll taken)
      (Host.reads (s.host.step quiet poll).2).flatten := by
  obtain ⟨rest, bytes⟩ := oldest
  cases flushed : flushes (s.host.step quiet poll).2 with
  | true =>
    have empty : s.inbound = [] := keeps flushed
    have none : Host.reads (s.host.step quiet poll).2 = [] := by
      rw [flush_alone flushed]
      rfl
    rw [none]
    simp only [Datapath.step, Datapath.hostStep, flushed, if_true]
    exact .reads poll taken _ rfl rfl empty
  | false =>
    simp only [Datapath.step, Datapath.hostStep, flushed, Bool.false_eq_true, if_false]
    refine .reads poll taken _ rfl rfl ?_
    rw [← bytes, List.drop_left]

/-- Every admitted step that discards nothing is one of these. -/
theorem flow_step {quiet : CInt} {buffers : Nat} {s : Datapath P} (live : Live s)
    {event : BenchEvent} (admits : s.Admits quiet buffers event)
    (keeps : s.KeepsSamples quiet event) :
    Flow s (s.step quiet event).1 event
      (Host.reads (hostEffects (s.step quiet event).2)).flatten := by
  have one := live.agrees.1
  cases event with
  | main =>
    have silent := (main_flags s.sampler).2.2
    simp only [Datapath.step, device_reads]
    refine .rests ?_ rfl rfl (by simp) (by simp) (by simp)
    simp [Datapath.device, Sampler.step, silent]
  | frame =>
    simp only [Datapath.step, device_reads]
    exact flow_frame quiet live
  | collect =>
    rcases held : s.outstanding with _ | ⟨packet, rest⟩
    · exact absurd held admits
    · rw [held, List.length_cons] at one
      have last : rest = [] := List.eq_nil_of_length_eq_zero (by omega)
      have none : s.finished = 0 := by omega
      simp only [Datapath.step, held, last]
      exact .collects packet (by rw [held, last]) rfl (by rw [none]) rfl
  | bulkIn =>
    simp only [Datapath.step, device_reads]
    exact flow_bulkIn quiet live admits
  | transfer count => exact .rests rfl rfl rfl (by simp) (by simp) (by simp)
  | bulkOut =>
    obtain ⟨_, _, _, calls⟩ := Firmware.bulkOut_frame s.sampler.device Firmware.bulkOutEp
      s.waiting.head?
    have silent := (Firmware.calls_silent calls).1
    simp only [Datapath.step, device_reads]
    refine .rests ?_ rfl rfl (by simp) (by simp) (by simp)
    simp [Datapath.device, Sampler.step, Firmware.isr, silent]
  | devInt bDevStatus =>
    simp only [Datapath.step, device_reads]
    exact flow_devInt keeps
  | host poll taken =>
    have shown : hostEffects (s.step quiet (.host poll taken)).2 = (s.host.step quiet poll).2 := by
      rw [Datapath.step, (hostStep_parts quiet s poll taken).2.2]
      simp
    rw [shown]
    exact flow_host taken admits keeps

/-- The steps that a byte in `txfifo` may have to wait for. -/
inductive Help
  | frame
  | collect
  | bulkIn

/-- The event of such a step. -/
def Help.event : Help → BenchEvent
  | .frame => .frame
  | .collect => .collect
  | .bulkIn => .bulkIn

/-- The steps up to the next packet, at most. -/
def Help.turns : Help → Nat
  | .frame => 1
  | .bulkIn => 2
  | .collect => 3

/-- The step that the oldest byte in `txfifo` waits for. -/
def help (s : Datapath P) : Help :=
  if s.outstanding ≠ [] then .collect else if s.finished ≠ 0 then .bulkIn else .frame

/-- The step waited for can be taken when it is one of the bus. -/
theorem help_called (s : Datapath P) :
    (help s = .collect → s.outstanding ≠ []) ∧ (help s = .bulkIn → 0 < s.finished) ∧
      (help s = .frame → s.outstanding.length + s.finished = 0) := by
  unfold help
  by_cases packet : s.outstanding ≠ []
  · rw [if_pos packet]
    exact ⟨fun _ => packet, by simp, by simp⟩
  rw [if_neg packet, not_not.1 packet]
  by_cases due : s.finished ≠ 0
  · rw [if_pos due]
    exact ⟨by simp, fun _ => Nat.pos_of_ne_zero due, by simp⟩
  · rw [if_neg due]
    exact ⟨by simp, by simp, fun _ => by simpa using due⟩

/-- A frame tick that is waited for starts a chain when bytes wait in `txfifo`. -/
theorem frame_starts (counted : P.fifo.Counted) {s : Datapath P} (live : Live s)
    (waited : help s = .frame) (some : P.fifo.items s.sampler.device.txfifo ≠ []) :
    ¬ (s.sampler.device.fBulkInBusy = true ∨ P.fifo.avail s.sampler.device.txfifo = 0) := by
  rintro (busy | empty)
  · exact live.agrees.2.1 busy ((help_called s).2.2 waited)
  · exact (counted.avail_ne_zero _).2 some empty

/-- What helps is seen from the packets alone. -/
theorem help_congr {s next : Datapath P} (outstanding : next.outstanding = s.outstanding)
    (finished : next.finished = s.finished) : help next = help s := by
  rw [help, help, outstanding, finished]

/-- Before the next packet there are one to three steps. -/
theorem turns_bounds (kind : Help) : 1 ≤ kind.turns ∧ kind.turns ≤ 3 := by
  cases kind <;> simp [Help.turns]

/-- The bytes that have left `txfifo`, when some of them have been read. -/
def departed (s : Datapath P) (taken : Nat) : Nat :=
  taken + s.inbound.length + s.outstanding.flatten.length

/-- No byte goes back. -/
theorem flow_counts {s next : Datapath P} {event : BenchEvent} {read : List UInt8}
    (flow : Flow s next event read) (taken : Nat) :
    taken + s.inbound.length ≤ taken + read.length + next.inbound.length ∧
      departed s taken ≤ departed next (taken + read.length) := by
  unfold departed
  cases flow with
  | rests outstanding finished inbound => simp [outstanding, inbound]
  | clears empty outstanding finished inbound => simp [empty, outstanding, inbound]
  | sends cleared outstanding inbound => simp [cleared, outstanding, inbound]
  | ends cleared due outstanding finished inbound => simp [cleared, outstanding, inbound]
  | collects packet held outstanding finished inbound =>
    simp [held, outstanding, inbound, Nat.add_assoc]
  | reads poll later bytes outstanding finished inbound =>
    rw [inbound, outstanding, List.length_append]
    omega

/-- A packet with bytes that is collected brings them to the port. -/
theorem collect_brings {s next : Datapath P} {read : List UInt8}
    (flow : Flow s next .collect read) (some : s.outstanding.flatten ≠ []) (taken : Nat) :
    taken + s.inbound.length < taken + read.length + next.inbound.length := by
  cases flow with
  | rests _ _ _ noCollect => exact absurd rfl noCollect
  | clears empty => exact absurd empty some
  | sends cleared => exact absurd (by rw [cleared]; rfl) some
  | collects packet held outstanding finished inbound =>
    have length := List.length_pos_of_ne_nil some
    rw [held, List.flatten_singleton] at length
    rw [inbound, List.length_nil, List.length_append]
    omega

/-- While bytes up to some number have not all left `txfifo`, a step brings the rest nearer, or
what helps is as it was and the step was another. -/
theorem flow_onward (counted : P.fifo.Counted) {s next : Datapath P} (live : Live s)
    {event : BenchEvent} {read : List UInt8} (flow : Flow s next event read)
    {taken target : Nat} (waits : departed s taken < target)
    (inside : target ≤ departed s taken + (P.fifo.items s.sampler.device.txfifo).length) :
    3 * (target - departed next (taken + read.length)) + (help next).turns <
        3 * (target - departed s taken) + (help s).turns ∨
      3 * (target - departed next (taken + read.length)) + (help next).turns =
          3 * (target - departed s taken) + (help s).turns ∧
        help next = help s ∧ event ≠ (help s).event := by
  have lower := turns_bounds (help s)
  have upper := turns_bounds (help next)
  cases flow with
  | rests outstanding finished inbound noCollect noBulkIn noStart =>
    have same := help_congr outstanding finished
    refine Or.inr ⟨by simp [departed, outstanding, inbound, same], same, ?_⟩
    intro helped
    cases waited : help s with
    | collect =>
      rw [waited] at helped
      exact noCollect helped
    | bulkIn =>
      rw [waited] at helped
      exact noBulkIn helped
    | frame =>
      rw [waited] at helped
      exact frame_starts counted live waited (List.ne_nil_of_length_pos (by omega))
        (noStart helped)
  | clears empty outstanding finished inbound noCollect noBulkIn noFrame =>
    have same : departed next taken = departed s taken := by
      simp [departed, empty, outstanding, inbound]
    have now : help next = .frame := by simp [help, outstanding, finished]
    cases before : help s with
    | frame => exact Or.inr ⟨by simp [same, now], now, noFrame⟩
    | collect => exact Or.inl (by simp [same, now, Help.turns])
    | bulkIn => exact Or.inl (by simp [same, now, Help.turns])
  | sends cleared outstanding inbound =>
    have more : departed next taken = departed s taken +
        min maxPacketSize (P.fifo.items s.sampler.device.txfifo).length := by
      simp [departed, cleared, outstanding, inbound]
    have size : maxPacketSize = 64 := rfl
    rw [List.length_nil, Nat.add_zero, more]
    exact Or.inl (by omega)
  | ends cleared due outstanding finished inbound =>
    have same : departed next taken = departed s taken := by
      simp [departed, cleared, outstanding, inbound]
    have now : help next = .frame := by simp [help, outstanding, finished]
    have before : help s = .bulkIn := by simp [help, cleared, due]
    exact Or.inl (by simp [same, now, before, Help.turns])
  | collects packet held outstanding finished inbound =>
    have same : departed next taken = departed s taken := by
      simp [departed, held, outstanding, inbound, Nat.add_assoc]
    have now : help next = .bulkIn := by simp [help, outstanding, finished]
    have before : help s = .collect := by simp [help, held]
    exact Or.inl (by simp [same, now, before, Help.turns])
  | reads poll later bytes outstanding finished inbound =>
    have same := help_congr outstanding finished
    have equal : departed next (taken + read.length) = departed s taken := by
      rw [departed, departed, inbound, outstanding, List.length_append]
      omega
    refine Or.inr ⟨by rw [equal, same], same, ?_⟩
    cases help s <;> simp [Help.event]

/-! ## Endless runs

How many bytes have left `txfifo`, have come to the port and have been read never goes back. On a
run on which everyone goes on, each of the three numbers passes every byte that was put. -/

/-- The bytes that the host program reads in the step at a time. -/
def readAt (quiet : CInt) (s : Datapath P) (events : Nat → BenchEvent) (n : Nat) : List UInt8 :=
  (Host.reads (hostEffects ((stateAfter quiet s events n).step quiet (events n)).2)).flatten

/-- An endless run on which nothing on its way to the host program is discarded and everyone
goes on with their part of the way. -/
structure Served (quiet : CInt) (buffers : Nat) (s : Datapath P) (events : Nat → BenchEvent) :
    Prop where
  /-- The hardware and the port allow each step. -/
  admits : ∀ n, (stateAfter quiet s events n).Admits quiet buffers (events n)
  /-- No step discards a byte. -/
  keeps : ∀ n, (stateAfter quiet s events n).KeepsSamples quiet (events n)
  /-- Frames tick again and again. -/
  frame : ∀ n, ∃ m, n ≤ m ∧ events m = .frame
  /-- The host collects a packet that stays in the endpoint. -/
  collect : Fair (fun n => (stateAfter quiet s events n).outstanding ≠ [])
    (fun n => events n = .collect)
  /-- A call of `BulkIn` that stays due is made. -/
  bulkIn : Fair (fun n => 0 < (stateAfter quiet s events n).finished)
    (fun n => events n = .bulkIn)
  /-- The host program reads when bytes stay in the port. -/
  read : Fair (fun n => (stateAfter quiet s events n).inbound ≠ [])
    (fun n => readAt quiet s events n ≠ [])

section Endless

variable {quiet : CInt} {buffers : Nat} {s : Datapath P} {events : Nat → BenchEvent}

/-- How many bytes have been read before a time. -/
def readBefore (quiet : CInt) (s : Datapath P) (events : Nat → BenchEvent) (n : Nat) : Nat :=
  (samples P).goneBefore (Datapath.step quiet) s events n

/-- How many bytes have come to the port before a time. -/
def broughtBefore (quiet : CInt) (s : Datapath P) (events : Nat → BenchEvent) (n : Nat) : Nat :=
  readBefore quiet s events n + (stateAfter quiet s events n).inbound.length

/-- How many bytes have left `txfifo` before a time. -/
def departedBefore (quiet : CInt) (s : Datapath P) (events : Nat → BenchEvent) (n : Nat) : Nat :=
  departed (stateAfter quiet s events n) (readBefore quiet s events n)

/-- The bytes read in one step are read after the others. -/
theorem readBefore_succ (n : Nat) : readBefore quiet s events (n + 1) =
    readBefore quiet s events n + (readAt quiet s events n).length := Account.goneBefore_succ n

/-- What has been read has been read. -/
theorem read_mono : Monotone (readBefore quiet s events) := Account.goneBefore_mono

/-- The whole agrees at every time. -/
theorem live_at (live : Live s) (served : Served quiet buffers s events) (n : Nat) :
    Live (stateAfter quiet s events n) := by
  have start : Live (stateAt (Datapath.step quiet) s events 0) := live
  exact stateAt_invariant start (fun m _ live => live_step live (served.admits m))
    (Nat.zero_le n)

/-- What the step at a time does. -/
theorem flow_at (live : Live s) (served : Served quiet buffers s events) (n : Nat) :
    Flow (stateAfter quiet s events n) (stateAfter quiet s events (n + 1)) (events n)
      (readAt quiet s events n) := by
  rw [stateAfter, stateAfter, stateAt_succ]
  exact flow_step (live_at live served n) (served.admits n) (served.keeps n)

/-- What has come to the port stays there or is read. -/
theorem brought_mono (live : Live s) (served : Served quiet buffers s events) :
    Monotone (broughtBefore quiet s events) := by
  apply monotone_nat_of_le_succ
  intro n
  rw [broughtBefore, broughtBefore, readBefore_succ]
  exact (flow_counts (flow_at live served n) _).1

/-- What has left `txfifo` does not come back. -/
theorem departed_mono (live : Live s) (served : Served quiet buffers s events) :
    Monotone (departedBefore quiet s events) := by
  apply monotone_nat_of_le_succ
  intro n
  rw [departedBefore, departedBefore, readBefore_succ]
  exact (flow_counts (flow_at live served n) _).2

/-- The account of an endless run at a time. -/
theorem account_at (served : Served quiet buffers s events) (n : Nat) :
    (samples P).after (outputAfter quiet s events n) (stateAfter quiet s events n) =
      (samples P).before s (outputAfter quiet s events n) :=
  ((samples P).exact_iff_along
    (fun state event admits => (samples_step state event admits).1)
    (fun state event admits => (samples_step state event admits).2)
    (along_upTo served.admits n)).2 (along_upTo served.keeps n)

/-- What was on the way and has been taken into `txfifo` before a time. -/
def allBefore (quiet : CInt) (s : Datapath P) (events : Nat → BenchEvent) (n : Nat) :
    List UInt8 := (samples P).before s (outputAfter quiet s events n)

/-- All of it has left `txfifo` or is in it. -/
theorem all_somewhere (served : Served quiet buffers s events) {n m : Nat} (later : n ≤ m) :
    (allBefore quiet s events n).length ≤ departedBefore quiet s events m +
      (P.fifo.items (stateAfter quiet s events m).sampler.device.txfifo).length := by
  have somewhere := Account.before_le later (account_at served m)
  simp only [samples, List.length_append] at somewhere
  simp only [allBefore, outputAfter, departedBefore, departed, readBefore, samples, stateAfter]
  omega

/-- In the end it has left `txfifo`. -/
theorem all_depart (counted : P.fifo.Counted) (live : Live s)
    (served : Served quiet buffers s events) (n : Nat) :
    ∃ m, n ≤ m ∧ (allBefore quiet s events n).length ≤ departedBefore quiet s events m := by
  apply comes_about (fun kind m => events m = kind.event)
    (fun m => 3 * ((allBefore quiet s events n).length - departedBefore quiet s events m) +
      (help (stateAfter quiet s events m)).turns)
    (fun m => help (stateAfter quiet s events m)) n
  · intro kind m later still
    cases kind with
    | frame => exact served.frame m
    | collect =>
      exact served.collect m fun k after => (help_called _).1 (still k after).2
    | bulkIn =>
      exact served.bulkIn m fun k after => (help_called _).2.1 (still k after).2
  · intro m later left _
    have onward := flow_onward counted (live_at live served m) (flow_at live served m)
      (Nat.lt_of_not_le left) (all_somewhere served later)
    rw [← readBefore_succ] at onward
    exact onward

/-- What has left `txfifo` is brought to the port in the end. -/
theorem all_brought (live : Live s) (served : Served quiet buffers s events) {target n : Nat}
    (left : target ≤ departedBefore quiet s events n) :
    ∃ m, n ≤ m ∧ target ≤ broughtBefore quiet s events m := by
  have held (m : Nat) (later : n ≤ m) (less : broughtBefore quiet s events m < target) :
      (stateAfter quiet s events m).outstanding.flatten ≠ [] := by
    intro none
    have enough := left.trans (departed_mono live served later)
    rw [departedBefore, departed, none] at enough
    exact Nat.not_le_of_lt less enough
  apply rises_to (fun m => brought_mono live served (Nat.le_succ m)) fun m => events m = .collect
  · intro m later less
    apply served.collect m
    intro k after none
    apply held k (later.trans after) (less k after)
    rw [none]
    rfl
  · intro m later less happened
    have flow := flow_at live served m
    rw [happened] at flow
    rw [broughtBefore, broughtBefore, readBefore_succ]
    exact collect_brings flow (held m later less) _

/-- What has come to the port is read in the end. -/
theorem all_read (live : Live s) (served : Served quiet buffers s events) {target n : Nat}
    (brought : target ≤ broughtBefore quiet s events n) :
    ∃ m, n ≤ m ∧ target ≤ readBefore quiet s events m := by
  apply rises_to (fun m => read_mono (Nat.le_succ m)) fun m => readAt quiet s events m ≠ []
  · intro m later less
    apply served.read m
    intro k after none
    have enough := brought.trans (brought_mono live served (later.trans after))
    rw [broughtBefore, none, List.length_nil, Nat.add_zero] at enough
    exact Nat.not_le_of_lt (less k after) enough
  · intro m _ _ happened
    have some := List.length_pos_of_ne_nil happened
    rw [readBefore_succ]
    omega

/-- All of it is read in the end, in order. -/
theorem all_flow (counted : P.fifo.Counted) (live : Live s)
    (served : Served quiet buffers s events) (n : Nat) :
    ∃ m, n ≤ m ∧
      allBefore quiet s events n <+: (samples P).gone (outputAfter quiet s events m) := by
  obtain ⟨one, after, departed⟩ := all_depart counted live served n
  obtain ⟨two, later, brought⟩ := all_brought live served departed
  obtain ⟨m, last, read⟩ := all_read live served brought
  have order : n ≤ m := after.trans (later.trans last)
  exact ⟨m, order, Account.all_gone order (account_at served m) read⟩

end Endless

/-- What the device sends arrives in the end. After every admitted run, the whole may go on for
ever, in any order of its steps: when it discards nothing any more on the way to the host
program, frames tick again and again, and packets, calls of `BulkIn` and bytes in the port do
not stay for ever, then what was on the way and all that `fifo_put` has taken at any time after
that has been read, in order, at some later time. -/
theorem samples_flow (counted : P.fifo.Counted) (quiet : CInt) (buffers : Nat) (d : Device P)
    (beginTime : Int) (before : List BenchEvent)
    (admitted : Admitted quiet buffers d beginTime before) (events : Nat → BenchEvent)
    (served : Served quiet buffers (final quiet d beginTime before) events) (n : Nat) :
    let s := final quiet d beginTime before
    let onWay := s.inbound ++ s.outstanding.flatten ++ P.fifo.items s.sampler.device.txfifo
    ∃ m, n ≤ m ∧
      onWay ++ accepted (deviceEffects (outputAfter quiet s events n)) <+:
        (Host.reads (hostEffects (outputAfter quiet s events m))).flatten :=
  all_flow counted (live_run admitted) served n

/-- Nothing is on the way to the host program. -/
def Idle (s : Datapath P) : Prop :=
  s.outstanding = [] ∧ s.finished = 0 ∧ s.inbound = [] ∧ P.fifo.avail s.sampler.device.txfifo = 0

/-- A frame tick does nothing then. -/
theorem idle_frame (quiet : CInt) {s : Datapath P} (idle : Idle s) :
    Idle (s.step quiet .frame).1 := by
  obtain ⟨outstanding, finished, inbound, empty⟩ := idle
  have waits := Firmware.usbFrameHandler_waits (d := s.sampler.device) (Or.inr empty)
  refine ⟨?_, finished, inbound, ?_⟩
  · simp [Datapath.step, Datapath.device, Sampler.step, Firmware.isr, waits, outstanding]
  · simp [Datapath.step, Datapath.device, Sampler.step, Firmware.isr, waits, empty]

/-- The three steps of the run above by which the packet that the endpoint holds after eleven is
collected, read and reported, and frame ticks for ever. -/
def lastSteps (n : Nat) : BenchEvent := ((resetRun.take 14).drop 11).getD n .frame

/-- Nothing is on the way when they are over. -/
theorem lastSteps_idle {n : Nat} (later : 3 ≤ n) :
    Idle (stateAfter 0 (final 0 (Device.blank 64) 0 (resetRun.take 11)) lastSteps n) := by
  have start : Idle (stateAt (Datapath.step 0) (final 0 (Device.blank 64) 0 (resetRun.take 11))
      lastSteps 3) :=
    ⟨by decide +kernel, by decide +kernel, by decide +kernel, by decide +kernel⟩
  apply stateAt_invariant start _ later
  intro m after idle
  have tick : lastSteps m = .frame := by
    obtain ⟨k, rfl⟩ := Nat.exists_eq_add_of_le' after
    rfl
  rw [tick]
  exact idle_frame 0 idle

/-- Everyone does their part on this run. -/
theorem lastSteps_served :
    Served 0 1 (final 0 (Device.blank 64) 0 (resetRun.take 11)) lastSteps where
  admits
    | 0 => by decide +kernel
    | 1 => by decide +kernel
    | 2 => by decide +kernel
    | _ + 3 => trivial
  keeps
    | 0 => trivial
    | 1 => by
      intro flushed
      exact absurd flushed (by decide +kernel)
    | 2 => trivial
    | _ + 3 => trivial
  frame n := ⟨n + 3, Nat.le_add_right n 3, rfl⟩
  collect n stays :=
    absurd (lastSteps_idle (Nat.le_add_left 3 n)).1 (stays _ (Nat.le_add_right n 3))
  bulkIn n stays :=
    absurd (lastSteps_idle (Nat.le_add_left 3 n)).2.1
      (Nat.ne_of_gt (stays _ (Nat.le_add_right n 3)))
  read n stays :=
    absurd (lastSteps_idle (Nat.le_add_left 3 n)).2.2.1 (stays _ (Nat.le_add_right n 3))

/-- What happens on it. -/
theorem samples_flow_lastSteps :
    let s := final 0 (Device.blank 64) 0 (resetRun.take 11)
    let onWay := s.inbound ++ s.outstanding.flatten ++
      (Platform.ofList 64).fifo.items s.sampler.device.txfifo
    ∃ m, 3 ≤ m ∧
      onWay ++ accepted (deviceEffects (outputAfter 0 s lastSteps 3)) <+:
        (Host.reads (hostEffects (outputAfter 0 s lastSteps m))).flatten :=
  samples_flow (Fifo.ofList_counted UInt8 64) 0 1 (Device.blank 64) 0 (resetRun.take 11)
    (by decide +kernel) lastSteps lastSteps_served 3

end Olimex2378.Verif.SampleFlow
