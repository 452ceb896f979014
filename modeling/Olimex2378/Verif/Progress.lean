import Olimex2378.Basis.Variant
import Olimex2378.Firmware.BulkInEndpoint
import Olimex2378.Verif.Delivery

/-!
# Everything gets through

The flags of the transmitter, the packets that the endpoint holds and the calls that are due
agree at every moment, however the steps of the two programs and the bus have come. So the way
to the host is never blocked: wherever it is stopped, frame ticks, completions and reads alone
take every byte on it to the host program, in a number of steps that is linear in the bytes.
-/

namespace Olimex2378.Verif.Progress

open Bench Run Delivery
open Firmware (Device Platform Sampler SamplerEvent Interrupt payloads accepted maxPacketSize
  Sent)

variable {P : Platform}

/-- At most one packet is held or reported, and the transmitter knows whether there is one. -/
def Agrees (d : Device P) (packets : Nat) : Prop :=
  packets ≤ 1 ∧ (d.fBulkInBusy = true ↔ packets ≠ 0)

/-- The packets still held or reported when a handler runs. -/
def left (P : Platform) (packets : Nat) : Interrupt → Nat
  | .bulkIn => packets - 1
  | .devInt bDevStatus => if bDevStatus &&& P.devStatusReset ≠ 0 then 0 else packets
  | _ => packets

/-- A handler keeps the agreement, when a completion is reported for a packet. -/
theorem agrees_isr {d : Device P} {packets : Nat} (agrees : Agrees d packets)
    (source : Interrupt) (due : source = .bulkIn → packets ≠ 0) :
    Agrees (Firmware.isr d source).1
      (left P packets source + (payloads (Firmware.isr d source).2).length) := by
  obtain ⟨one, busy⟩ := agrees
  have outcome := Firmware.isr_outcome d source
  generalize Firmware.isr d source = result at outcome ⊢
  cases outcome with
  | starts next idle waiting isFrame sent =>
    subst isFrame
    have none : packets = 0 := by simpa [idle] using busy
    exact ⟨by simp [left, none], by simp [sent.busy]⟩
  | continues next chain isBulkIn sent =>
    subst isBulkIn
    exact ⟨by simp only [left, Firmware.shows_write, List.length_singleton]; omega,
      by simp [sent.busy]⟩
  | idles isEnd =>
    have none : left P packets source = 0 := by
      rcases isEnd with ⟨rfl, _⟩ | ⟨bDevStatus, rfl, reset⟩
      · simp only [left]
        omega
      · exact if_pos reset
    exact ⟨by simp [none], by simp [none]⟩
  | receives read isBulkOut buffer queue out calls =>
    subst isBulkOut
    rw [(Firmware.calls_silent calls).1]
    exact ⟨one, busy⟩
  | waits other noReset =>
    have same : left P packets source = packets := by
      cases source with
      | bulkIn => exact absurd rfl other
      | devInt bDevStatus => exact if_neg (not_not.2 (noReset bDevStatus rfl))
      | _ => rfl
    rw [same]
    exact ⟨one, busy⟩

/-- A call of the main loop writes no packet and leaves the flags alone. -/
theorem main_flags (s : Sampler P) :
    s.main.1.device.fBulkInBusy = s.device.fBulkInBusy ∧
      s.main.1.device.fChainDone = s.device.fChainDone ∧ payloads s.main.2 = [] := by
  have port (event : Firmware.Event) (call : ∀ source, event ≠ .irq source) :=
    Firmware.step_port s.device call
  cases atPoint : s.point with
  | top =>
    rcases Firmware.main_top atPoint with ⟨c, _, result⟩ | ⟨_, result⟩ <;> rw [result] <;>
      exact ⟨rfl, rfl, rfl⟩
  | putword c place =>
    rw [Firmware.main_put atPoint]
    exact port (.putwordByte c place) (by simp)
  | poll =>
    obtain ⟨point, result, _⟩ := Firmware.main_poll atPoint
    rw [result]
    exact port .getchar (by simp)
  | echo c =>
    rw [Firmware.main_echo atPoint]
    exact port (.putchar c) (by simp)

/-- The whole agrees on the packets for the host, and a host program that goes on has not been
told to quit. -/
structure Live (s : Datapath P) : Prop where
  /-- The endpoint and the transmitter agree. -/
  agrees : Agrees s.sampler.device (s.outstanding.length + s.finished)
  /-- The last key was no `q`. -/
  goesOn : s.host.status = .looping → s.host.valueStdin ≠ charConst 'q'

/-- An iteration of the host program that goes on has not ended with a `q`. -/
theorem host_goesOn (quiet : CInt) {t : Host.DatapathTask} (poll : Host.Poll)
    (goesOn : t.status = .looping → t.valueStdin ≠ charConst 'q') :
    (t.step quiet poll).1.status = .looping →
      (t.step quiet poll).1.valueStdin ≠ charConst 'q' := by
  have cut : (t.terminal poll).2.2 = false →
      (t.terminal poll).1.valueStdin ≠ charConst 'q' := by
    have other : charConst 'f' ≠ charConst 'q' := by decide
    unfold Host.DatapathTask.terminal
    cases poll.stdin with
    | failed => simp
    | empty => simp
    | key typed =>
      dsimp only
      split_ifs <;> simp_all
  have stepped := t.stepped quiet poll
  generalize t.step quiet poll = result at stepped ⊢
  cases stepped with
  | stopped left => exact goesOn
  | cut looping next out ends =>
    rw [ends] at cut
    exact fun _ => cut rfl
  | quits looping next out ends quit => simp
  | polls looping next out ends stays =>
    intro _
    have same : (next.serial quiet poll.serial).1.valueStdin = next.valueStdin := by
      cases poll.serial <;> rfl
    rw [same]
    exact stays

/-- Both programs start in agreement. -/
theorem live_start (d : Device P) (beginTime : Int) : Live (Datapath.start d beginTime) where
  agrees := ⟨Nat.zero_le 1, by simp [Datapath.start, Sampler.start, Firmware.vcomInit]⟩
  goesOn _ := show (0 : CInt) ≠ charConst 'q' by decide

/-- Every admitted step keeps the agreement. -/
theorem live_step {quiet : CInt} {buffers : Nat} {s : Datapath P} (live : Live s)
    {event : BenchEvent} (admits : s.Admits quiet buffers event) :
    Live (s.step quiet event).1 := by
  obtain ⟨⟨one, busy⟩, goesOn⟩ := live
  cases event with
  | main =>
    obtain ⟨same, _, silent⟩ := main_flags s.sampler
    have length : (s.step quiet .main).1.outstanding = s.outstanding := by
      simp [Datapath.step, Datapath.device, Sampler.step, silent]
    refine ⟨⟨?_, ?_⟩, goesOn⟩
    · rw [length]
      exact one
    · rw [length]
      exact same ▸ busy
  | frame =>
    have kept := agrees_isr ⟨one, busy⟩ .frame (by simp)
    refine ⟨?_, goesOn⟩
    simp only [Datapath.step, Datapath.device, Sampler.step, List.length_append]
    rw [Nat.add_right_comm]
    exact kept
  | collect =>
    cases held : s.outstanding with
    | nil => exact absurd held admits
    | cons packet rest =>
      rw [held, List.length_cons] at one busy
      have count : rest.length + 1 + s.finished = rest.length + (s.finished + 1) := by omega
      rw [count] at one busy
      simp only [Datapath.step, held]
      exact ⟨⟨one, busy⟩, goesOn⟩
  | bulkIn =>
    have positive : 0 < s.finished := admits
    have kept := agrees_isr ⟨one, busy⟩ .bulkIn (fun _ => by omega)
    refine ⟨?_, goesOn⟩
    have count : left P (s.outstanding.length + s.finished) .bulkIn =
        s.outstanding.length + (s.finished - 1) := by
      simp only [left]
      omega
    rw [count] at kept
    simp only [Datapath.step, Datapath.device, Sampler.step, List.length_append]
    rw [Nat.add_right_comm]
    exact kept
  | transfer count => exact ⟨⟨one, busy⟩, goesOn⟩
  | bulkOut =>
    have kept := agrees_isr ⟨one, busy⟩ (.bulkOut s.waiting.head?) (by simp)
    refine ⟨?_, goesOn⟩
    simp only [Datapath.step, Datapath.device, Sampler.step, List.length_append]
    rw [Nat.add_right_comm]
    exact kept
  | devInt bDevStatus =>
    have kept := agrees_isr ⟨one, busy⟩ (.devInt bDevStatus) (by simp)
    have settled : (s.settle bDevStatus).outstanding.length + (s.settle bDevStatus).finished =
        left P (s.outstanding.length + s.finished) (.devInt bDevStatus) := by
      simp only [left, Datapath.settle]
      split <;> rfl
    refine ⟨?_, ?_⟩
    · simp only [Datapath.step, Datapath.device, Sampler.step, List.length_append]
      rw [Nat.add_right_comm, settled, (settle_frame s bDevStatus).1]
      exact kept
    · simpa [Datapath.step, Datapath.device] using goesOn
  | host poll taken =>
    have parts := hostStep_parts quiet s poll taken
    have same : (s.hostStep quiet poll taken).1.outstanding = s.outstanding ∧
        (s.hostStep quiet poll taken).1.finished = s.finished := by
      unfold Datapath.hostStep
      dsimp only
      split <;> exact ⟨rfl, rfl⟩
    refine ⟨?_, ?_⟩
    · simp only [Datapath.step]
      rw [same.1, same.2, parts.2.1]
      exact ⟨one, busy⟩
    · simp only [Datapath.step]
      rw [parts.1]
      exact host_goesOn quiet poll goesOn

/-- The whole agrees after every admitted run. -/
theorem live_run {quiet : CInt} {buffers : Nat} {d : Device P} {beginTime : Int}
    {events : List BenchEvent} (admitted : Admitted quiet buffers d beginTime events) :
    Live (final quiet d beginTime events) :=
  invariant (fun s _ => Live s) (live_start d beginTime)
    (fun _ _ _ live admits => live_step live admits) admitted

/-- An iteration of the host program without a key that reads what the port holds, up to eight
bytes. -/
def readPort (s : Datapath P) : Host.Poll where
  stdin := .empty
  flush := 0
  now := 0
  serial :=
    if some : 0 < (s.inbound.take 8).length then
      .data (s.inbound.take 8) some (List.length_take_le 8 s.inbound)
    else .empty

/-- The next step of a packet or a byte on its way to the host. -/
def nextStep (s : Datapath P) : BenchEvent :=
  if s.outstanding ≠ [] then .collect
  else if s.finished ≠ 0 then .bulkIn
  else if s.inbound ≠ [] then .host (readPort s) false
  else .frame

/-- A step that only moves what is already on its way to the host. -/
def Moves : BenchEvent → Prop
  | .frame => True
  | .collect => True
  | .bulkIn => True
  | .host poll _ => poll.stdin = .empty
  | _ => False

/-- The steps that are left, at most: a byte that waits is sent, collected and read. -/
def stepsLeft (s : Datapath P) : Nat :=
  10 * (P.fifo.items s.sampler.device.txfifo).length + 2 * s.outstanding.flatten.length +
    s.inbound.length + 2 * s.outstanding.length + s.finished +
    if s.sampler.device.fChainDone then 0 else 3

/-- What a read of the port does to the whole. -/
theorem readPort_step (quiet : CInt) {s : Datapath P} (looping : s.host.status = .looping)
    (stays : s.host.valueStdin ≠ charConst 'q') (some : s.inbound ≠ []) :
    Host.reads (s.host.step quiet (readPort s)).2 = [s.inbound.take 8] ∧
      (s.host.step quiet (readPort s)).1.status = .looping ∧
      flushes (s.host.step quiet (readPort s)).2 = false := by
  have positive : 0 < (s.inbound.take 8).length := by
    have length := List.length_pos_of_ne_nil some
    rw [List.length_take]
    omega
  have terminal : s.host.terminal (readPort s) = (s.host, [], true) := rfl
  have data : (readPort s).serial =
      .data (s.inbound.take 8) positive (List.length_take_le 8 s.inbound) := dif_pos positive
  rw [Host.DatapathTask.step_polls quiet looping terminal stays, data]
  simp only [Host.DatapathTask.serial]
  split <;> exact ⟨rfl, looping, rfl⟩

/-- A packet sent brings its bytes and the end of its chain nearer. -/
theorem sent_nearer {d next : Device P} (sent : Sent d next) :
    10 * (P.fifo.items next.txfifo).length +
        2 * ((P.fifo.items d.txfifo).take maxPacketSize).length + 2 +
        (if next.fChainDone then 0 else 3) + 8 * min 1 (P.fifo.items d.txfifo).length ≤
      10 * (P.fifo.items d.txfifo).length + 2 := by
  rw [sent.txfifo_items, sent.done, List.length_drop, List.length_take]
  simp only [maxPacketSize]
  by_cases short : (P.fifo.items d.txfifo).length < 64
  · simp only [short, decide_true, if_true]
    omega
  · simp only [short, decide_false, Bool.false_eq_true, if_false]
    omega

/-- A packet collected is nearer. -/
theorem collect_nearer (quiet : CInt) {s : Datapath P} (some : s.outstanding ≠ []) :
    stepsLeft (s.step quiet .collect).1 < stepsLeft s ∧
      deviceEffects (s.step quiet .collect).2 = [] := by
  rcases held : s.outstanding with _ | ⟨packet, rest⟩
  · exact absurd held some
  · simp only [Datapath.step, held, stepsLeft, List.flatten_cons, List.length_append,
      List.length_cons]
    exact ⟨by omega, rfl⟩

/-- A completion ends the chain, or sends what is nearer then. -/
theorem bulkIn_nearer (quiet : CInt) {s : Datapath P} (none : s.outstanding = [])
    (due : s.finished = 1) :
    stepsLeft (s.step quiet .bulkIn).1 < stepsLeft s ∧
      accepted (deviceEffects (s.step quiet .bulkIn).2) = [] := by
  simp only [Datapath.step, Datapath.device, Sampler.step, Firmware.isr, effects_device, stepsLeft,
    none, due, List.nil_append]
  cases chain : s.sampler.device.fChainDone with
  | true =>
    rw [Firmware.bulkIn_ends Firmware.bulkInEp chain]
    simp only [chain, Firmware.shows_nil]
    exact ⟨by omega, trivial⟩
  | false =>
    obtain ⟨next, result, sent⟩ := Firmware.bulkIn_sends Firmware.bulkInEp chain
    have nearer := sent_nearer sent
    rw [result]
    simp only [Firmware.shows_write, List.flatten_singleton, List.length_singleton,
      Bool.false_eq_true, if_false, List.flatten_nil, List.length_nil]
    exact ⟨by omega, trivial⟩

/-- A frame tick sends what waits when the way is free. -/
theorem frame_nearer (counted : P.fifo.Counted) (quiet : CInt) {s : Datapath P}
    (none : s.outstanding = []) (idle : s.sampler.device.fBulkInBusy = false)
    (waiting : P.fifo.items s.sampler.device.txfifo ≠ []) :
    stepsLeft (s.step quiet .frame).1 < stepsLeft s ∧
      accepted (deviceEffects (s.step quiet .frame).2) = [] := by
  have avail := (counted.avail_ne_zero _).2 waiting
  have some := List.length_pos_of_ne_nil waiting
  obtain ⟨next, result, sent⟩ := Firmware.usbFrameHandler_sends idle avail
  have nearer := sent_nearer sent
  simp only [Datapath.step, Datapath.device, Sampler.step, Firmware.isr, effects_device, stepsLeft,
    none, List.nil_append]
  rw [result]
  simp only [Firmware.shows_write, List.flatten_singleton, List.length_singleton,
    List.flatten_nil, List.length_nil]
  exact ⟨by omega, trivial⟩

/-- A read of the port brings its bytes to the host program. -/
theorem read_nearer (quiet : CInt) {s : Datapath P} (looping : s.host.status = .looping)
    (stays : s.host.valueStdin ≠ charConst 'q') (some : s.inbound ≠ []) :
    stepsLeft (s.step quiet (.host (readPort s) false)).1 < stepsLeft s ∧
      accepted (deviceEffects (s.step quiet (.host (readPort s) false)).2) = [] := by
  obtain ⟨reads, _, noFlush⟩ := readPort_step quiet looping stays some
  have positive := List.length_pos_of_ne_nil some
  simp only [Datapath.step]
  constructor
  · simp only [Datapath.hostStep, noFlush, Bool.false_eq_true, if_false, stepsLeft, reads,
      List.flatten_singleton, List.length_drop, List.length_take]
    omega
  · rw [(hostStep_parts quiet s (readPort s) false).2.2]
    simp

/-- What a step towards the host program is. -/
structure Onward (quiet : CInt) (buffers : Nat) (s : Datapath P) (event : BenchEvent) : Prop where
  /-- It only moves bytes. -/
  moves : Moves event
  /-- The hardware and the port allow it. -/
  admits : s.Admits quiet buffers event
  /-- It discards nothing. -/
  keeps : s.KeepsSamples quiet event
  /-- It puts nothing more on the way. -/
  silent : accepted (deviceEffects (s.step quiet event).2) = []

/-- What one more step towards the host program does. -/
structure Nearer (quiet : CInt) (buffers : Nat) (s : Datapath P) (event : BenchEvent) : Prop
    extends Onward quiet buffers s event where
  /-- There is less to do after it. -/
  less : stepsLeft (s.step quiet event).1 < stepsLeft s
  /-- The host program goes on. -/
  looping : (s.step quiet event).1.host.status = .looping

/-- While a byte is on its way to the host program, there is a step that takes it nearer. -/
theorem nextStep_nearer (counted : P.fifo.Counted) (quiet : CInt) (buffers : Nat)
    {s : Datapath P} (live : Live s) (looping : s.host.status = .looping)
    (some : (samples P).held s ≠ []) : Nearer quiet buffers s (nextStep s) := by
  obtain ⟨⟨one, busy⟩, goesOn⟩ := live
  unfold nextStep
  by_cases packet : s.outstanding ≠ []
  · rw [if_pos packet]
    obtain ⟨less, none⟩ := collect_nearer quiet packet
    refine ⟨⟨trivial, packet, trivial, by rw [none]; rfl⟩, less, ?_⟩
    cases held : s.outstanding with
    | nil => exact absurd held packet
    | cons first rest => simpa [Datapath.step, held] using looping
  rw [if_neg packet]
  have none := not_not.1 packet
  rw [none, List.length_nil, Nat.zero_add] at one busy
  by_cases due : s.finished ≠ 0
  · rw [if_pos due]
    obtain ⟨less, silent⟩ := bulkIn_nearer quiet none (show s.finished = 1 by omega)
    exact ⟨⟨trivial, Nat.pos_of_ne_zero due, trivial, silent⟩, less, looping⟩
  rw [if_neg due]
  by_cases bytes : s.inbound ≠ []
  · rw [if_pos bytes]
    obtain ⟨reads, still, noFlush⟩ := readPort_step quiet looping (goesOn looping) bytes
    obtain ⟨less, silent⟩ := read_nearer quiet looping (goesOn looping) bytes
    refine ⟨⟨rfl, ?_, ?_, silent⟩, less, ?_⟩
    · show (Host.reads (s.host.step quiet (readPort s)).2).flatten <+: s.inbound
      rw [reads, List.flatten_singleton]
      exact List.take_prefix 8 s.inbound
    · intro flushed
      rw [noFlush] at flushed
      contradiction
    · simp only [Datapath.step]
      rw [(hostStep_parts quiet s (readPort s) false).1]
      exact still
  · rw [if_neg bytes]
    have waiting : P.fifo.items s.sampler.device.txfifo ≠ [] := by
      simpa [samples, none, not_not.1 bytes] using some
    have idle : s.sampler.device.fBulkInBusy = false := by
      rw [← Bool.not_eq_true, busy]
      exact due
    obtain ⟨less, silent⟩ := frame_nearer counted quiet none idle waiting
    exact ⟨⟨trivial, trivial, trivial, silent⟩, less, looping⟩

/-- Enough such steps leave nothing on the way. -/
theorem steps_arrive (counted : P.fifo.Counted) (quiet : CInt) (buffers : Nat) {s : Datapath P}
    (live : Live s) (looping : s.host.status = .looping) :
    ∃ more, more.length ≤ stepsLeft s ∧
      Along (Datapath.step quiet) (Onward quiet buffers) s more ∧
      (samples P).held (exec (Datapath.step quiet) s more) = [] := by
  have next (state : Datapath P) (holds : Live state ∧ state.host.status = .looping)
      (left : ¬ (samples P).held state = []) :
      ∃ event, Onward quiet buffers state event ∧
        (Live (state.step quiet event).1 ∧ (state.step quiet event).1.host.status = .looping) ∧
        stepsLeft (state.step quiet event).1 < stepsLeft state := by
    have nearer := nextStep_nearer counted quiet buffers holds.1 holds.2 left
    exact ⟨nextStep state, nearer.toOnward, ⟨live_step holds.1 nearer.admits, nearer.looping⟩,
      nearer.less⟩
  exact reaches stepsLeft next ⟨live, looping⟩

/-- The steps left are linear in the bytes on their way. -/
theorem stepsLeft_le {s : Datapath P} (live : Live s) :
    stepsLeft s ≤ 10 * ((samples P).held s).length + 5 := by
  have one := live.agrees.1
  simp only [stepsLeft, samples, List.length_append]
  split <;> omega

/-- The way to the host is never blocked. After every admitted run whose host program goes on,
frame ticks, collections, completions and reads alone, at most ten for each byte on its way and
five more, take every byte on its way to the host program, in order, and leave none behind. -/
theorem everything_arrives (counted : P.fifo.Counted) (quiet : CInt) (buffers : Nat) (d : Device P)
    (beginTime : Int) (events : List BenchEvent)
    (admitted : Admitted quiet buffers d beginTime events)
    (looping : (final quiet d beginTime events).host.status = .looping) :
    let s := final quiet d beginTime events
    let onWay := s.inbound ++ s.outstanding.flatten ++ P.fifo.items s.sampler.device.txfifo
    ∃ more, (∀ event ∈ more, Moves event) ∧ more.length ≤ 10 * onWay.length + 5 ∧
      Admitted quiet buffers d beginTime (events ++ more) ∧
      (Host.reads (hostEffects (output quiet d beginTime (events ++ more)))).flatten =
        (Host.reads (hostEffects (output quiet d beginTime events))).flatten ++ onWay ∧
      let last := final quiet d beginTime (events ++ more)
      last.inbound ++ last.outstanding.flatten ++ P.fifo.items last.sampler.device.txfifo = [] := by
  intro s onWay
  have live : Live s := live_run admitted
  obtain ⟨more, length, onward, arrived⟩ := steps_arrive counted quiet buffers live looping
  have admits := onward.imp fun _ _ step => step.admits
  have balanced := ((samples P).exact_iff_along
    (fun state event admits => (samples_step state event admits).1)
    (fun state event admits => (samples_step state event admits).2) admits).2
    (onward.imp fun _ _ step => step.keeps)
  have later : (Host.reads (hostEffects (effects (trace (Datapath.step quiet) s more)))).flatten =
      onWay := Account.gone_run balanced (onward.imp fun _ _ step => step.silent) arrived
  refine ⟨more, onward.inputs fun _ _ step => step.moves, length.trans (stepsLeft_le live), ?_,
    ?_, ?_⟩
  · exact (along_append _ _ _ _ _).2 ⟨admitted, admits⟩
  · rw [output, trace_append, effects_append, hostEffects_append, Host.reads_append,
      List.flatten_append, ← later]
    rfl
  · intro last
    have same : last = exec (Datapath.step quiet) s more := exec_append _ _ _ _
    rw [same]
    exact arrived

/-- What is on its way at the end of a run that a bus reset does not end. -/
theorem everything_arrives_resetRun :
    let s := final 0 (Firmware.Device.blank 64) 0 (resetRun.take 22)
    let onWay := s.inbound ++ s.outstanding.flatten ++
      (Platform.ofList 64).fifo.items s.sampler.device.txfifo
    ∃ more, (∀ event ∈ more, Moves event) ∧ more.length ≤ 10 * onWay.length + 5 ∧
      Admitted 0 1 (Firmware.Device.blank 64) 0 (resetRun.take 22 ++ more) ∧
      (Host.reads (hostEffects
          (output 0 (Firmware.Device.blank 64) 0 (resetRun.take 22 ++ more)))).flatten =
        (Host.reads (hostEffects
          (output 0 (Firmware.Device.blank 64) 0 (resetRun.take 22)))).flatten ++ onWay ∧
      let last := final 0 (Firmware.Device.blank 64) 0 (resetRun.take 22 ++ more)
      last.inbound ++ last.outstanding.flatten ++
        (Platform.ofList 64).fifo.items last.sampler.device.txfifo = [] :=
  everything_arrives (Fifo.ofList_counted UInt8 64) 0 1 (Firmware.Device.blank 64) 0
    (resetRun.take 22) (by decide +kernel) (by decide +kernel)

end Olimex2378.Verif.Progress
