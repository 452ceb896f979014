import Olimex2378.Basis.Variant
import Olimex2378.Verif.Delivery

/-!
# Keys are fetched or left behind

A key on its way to the device is transferred, read by a call of `BulkOut` and fetched by the
main loop. There is one call for each packet. As long as a call is due for each packet that the
endpoint holds, nothing can block the way: transfers, these calls and the main loop alone take
every key to `VCOM_getchar`. When fewer calls are due than packets are held, because a call has
declined one, a packet stays behind until the next bus reset, whatever happens.
-/

namespace Olimex2378.Verif.Fetching

open Bench Run Delivery
open Firmware (Device Platform Sampler SamplerEvent Point Packet packets fetched maxPacketSize)

variable {P : Platform}

/-- The calls of the main loop before its next poll, at most. -/
def callsToPoll : Point → Nat
  | .poll => 0
  | .putword _ place => 4 - place.val
  | .top => 5
  | .echo _ => 6

/-- What follows a put is nearer to the next poll. -/
theorem callsToPoll_afterPut (c : CInt) (place : Fin 4) (taken : Bool) :
    callsToPoll (Firmware.afterPut c place taken) < callsToPoll (.putword c place) := by
  have inside := place.isLt
  unfold Firmware.afterPut
  split
  · cases taken with
    | true =>
      simp only [if_true, callsToPoll]
      omega
    | false =>
      simp only [Bool.false_eq_true, if_false, callsToPoll]
      omega
  · simp only [callsToPoll]
    omega

/-- Away from its polls, the main loop leaves `rxfifo` alone and comes nearer to the next one. -/
theorem main_towards (s : Sampler P) (away : s.point ≠ .poll) :
    s.main.1.device.rxfifo = s.device.rxfifo ∧
      callsToPoll s.main.1.point < callsToPoll s.point := by
  cases atPoint : s.point with
  | top =>
    rcases Firmware.main_top atPoint with ⟨c, _, result⟩ | ⟨_, result⟩
    · rw [result]
      exact ⟨rfl, show 4 - Firmware.firstPlace.val < 5 by decide⟩
    · rw [result]
      exact ⟨rfl, show 0 < 5 by decide⟩
  | putword c place =>
    obtain ⟨queue, device, _⟩ := Firmware.putTx_eq s.device (Firmware.putwordArg c place)
    rw [Firmware.main_put atPoint]
    refine ⟨?_, callsToPoll_afterPut c place _⟩
    show (Firmware.putTx s.device (Firmware.putwordArg c place)).1.rxfifo = _
    rw [device]
  | poll => exact absurd atPoint away
  | echo c =>
    obtain ⟨queue, device, _⟩ := Firmware.putTx_eq s.device c
    rw [Firmware.main_echo atPoint]
    refine ⟨?_, by simp [callsToPoll]⟩
    show (Firmware.putTx s.device c).1.rxfifo = _
    rw [device]

/-- A poll fetches the oldest byte. -/
theorem main_fetches {s : Sampler P} (atPoll : s.point = .poll) {byte : UInt8} {rest : List UInt8}
    (held : P.fifo.items s.device.rxfifo = byte :: rest) :
    P.fifo.items s.main.1.device.rxfifo = rest ∧ callsToPoll s.main.1.point ≤ 6 := by
  obtain ⟨point, result, next⟩ := Firmware.main_poll atPoll
  obtain ⟨queue, taken, items⟩ := Firmware.vcomGetchar_takes held
  rw [result]
  refine ⟨by rw [taken]; exact items, ?_⟩
  rw [next]
  cases (s.task.command (Firmware.vcomGetchar s.device).2).2 with
  | none => simp [callsToPoll]
  | some c => simp [callsToPoll]

/-- While `rxfifo` holds a byte, each call of the main loop brings the bytes in it nearer. -/
theorem main_nearer (s : Sampler P) (held : P.fifo.items s.device.rxfifo ≠ []) :
    7 * (P.fifo.items s.main.1.device.rxfifo).length + callsToPoll s.main.1.point <
      7 * (P.fifo.items s.device.rxfifo).length + callsToPoll s.point := by
  by_cases atPoll : s.point = .poll
  · cases bytes : P.fifo.items s.device.rxfifo with
    | nil => exact absurd bytes held
    | cons byte rest =>
      obtain ⟨items, near⟩ := main_fetches atPoll bytes
      rw [items, List.length_cons]
      omega
  · obtain ⟨same, near⟩ := main_towards s atPoll
    rw [same]
    omega

/-- A call is due for each packet that the endpoint holds. -/
def EachDue (s : Datapath P) : Prop := s.due = s.waiting.length

/-- A call of `BulkOut` reads one packet at most. -/
theorem bulkOut_one (d : Device P) (read : Option Packet) :
    (packets (Firmware.isr d (.bulkOut read)).2).length ≤ 1 := by
  obtain ⟨_, _, _, calls⟩ := Firmware.bulkOut_frame d Firmware.bulkOutEp read
  rcases calls with out | out | out
  · rw [Firmware.isr, out]
    exact Nat.zero_le 1
  · rw [Firmware.isr, out]
    exact Nat.le_refl 1
  · rw [Firmware.isr, out]
    exact Nat.le_refl 1

/-- A step that is no bus reset. -/
def NoReset (P : Platform) : BenchEvent → Prop
  | .devInt bDevStatus => bDevStatus &&& P.devStatusReset = 0
  | _ => True

/-- What a step that is neither a transfer, a call of `BulkOut` nor a bus reset leaves alone. -/
theorem endpoint_frame (quiet : CInt) (s : Datapath P) {event : BenchEvent}
    (other : ∀ count, event ≠ .transfer count) (notOut : event ≠ .bulkOut)
    (noReset : NoReset P event) :
    (s.step quiet event).1.waiting = s.waiting ∧ (s.step quiet event).1.due = s.due := by
  cases event with
  | main => exact ⟨rfl, rfl⟩
  | frame => exact ⟨rfl, rfl⟩
  | collect =>
    simp only [Datapath.step]
    cases s.outstanding with
    | nil => exact ⟨rfl, rfl⟩
    | cons packet rest => exact ⟨rfl, rfl⟩
  | bulkIn => exact ⟨rfl, rfl⟩
  | transfer count => exact absurd rfl (other count)
  | bulkOut => exact absurd rfl notOut
  | devInt bDevStatus =>
    have kept : s.settle bDevStatus = s := if_neg (not_not.2 noReset)
    show ((s.settle bDevStatus).device _).1.waiting = _ ∧
      ((s.settle bDevStatus).device _).1.due = _
    rw [kept]
    exact ⟨rfl, rfl⟩
  | host poll taken =>
    unfold Datapath.step Datapath.hostStep
    dsimp only
    split <;> exact ⟨rfl, rfl⟩

/-- No step but a bus reset makes up for a call that has declined its packet. -/
theorem step_behind {quiet : CInt} {buffers : Nat} {s : Datapath P} {event : BenchEvent}
    (admits : s.Admits quiet buffers event) (noReset : NoReset P event) {surplus : Nat}
    (behind : s.due + surplus ≤ s.waiting.length) :
    (s.step quiet event).1.due + surplus ≤ (s.step quiet event).1.waiting.length := by
  cases event with
  | transfer count =>
    simp only [Datapath.step, List.length_append, List.length_singleton]
    omega
  | bulkOut =>
    have positive : 0 < s.due := admits
    have one := bulkOut_one s.sampler.device s.waiting.head?
    simp only [Datapath.step, Datapath.device, Sampler.step, effects_device, List.length_drop]
    omega
  | _ =>
    obtain ⟨waiting, due⟩ := endpoint_frame quiet s (by simp) (by simp) noReset
    rw [waiting, due]
    exact behind

/-- There are never more calls due than packets held. -/
theorem due_le {quiet : CInt} {buffers : Nat} {d : Device P} {beginTime : Int}
    {events : List BenchEvent} (admitted : Admitted quiet buffers d beginTime events) :
    (final quiet d beginTime events).due ≤ (final quiet d beginTime events).waiting.length := by
  apply invariant (fun (s : Datapath P) _ => s.due ≤ s.waiting.length) (Nat.le_refl 0) _ admitted
  intro s _ event holds admits
  by_cases noReset : NoReset P event
  · have behind : s.due + 0 ≤ s.waiting.length := holds
    exact step_behind admits noReset behind
  · cases event with
    | devInt bDevStatus =>
      have reset : bDevStatus &&& P.devStatusReset ≠ 0 := noReset
      simp only [Datapath.step, Datapath.device, Datapath.settle, if_pos reset]
      exact Nat.le_refl 0
    | _ => exact absurd trivial noReset

/-- A step that only moves what is already on its way to the device. -/
def Feeds : BenchEvent → Prop
  | .main => True
  | .transfer _ => True
  | .bulkOut => True
  | _ => False

/-- The next step of a byte on its way to the device. -/
def nextFeed (s : Datapath P) : BenchEvent :=
  if P.fifo.items s.sampler.device.rxfifo ≠ [] then .main
  else if s.due ≠ 0 then .bulkOut
  else .transfer maxPacketSize

/-- The steps that are left, at most: a byte is transferred, read and fetched. -/
def feedsLeft (s : Datapath P) : Nat :=
  7 * (P.fifo.items s.sampler.device.rxfifo).length + callsToPoll s.sampler.point +
    7 * (s.waiting.flatMap Packet.bytes).length + s.due + 9 * s.outbound.length

/-- Nothing is left on the way. -/
def Fed (s : Datapath P) : Prop :=
  P.fifo.items s.sampler.device.rxfifo = [] ∧ s.waiting = [] ∧ s.outbound = []

/-- What a step towards the device is. -/
structure Feeding (quiet : CInt) (buffers : Nat) (s : Datapath P) (event : BenchEvent) : Prop where
  /-- It only moves bytes. -/
  feeds : Feeds event
  /-- The hardware allows it. -/
  admits : s.Admits quiet buffers event
  /-- It discards nothing. -/
  keeps : s.KeepsCommands quiet event
  /-- It puts nothing more on the way. -/
  silent : sent (s.step quiet event).2 = []

/-- A call of `BulkOut` that finds `rxfifo` empty reads the oldest packet. -/
theorem bulkOut_step (counted : P.fifo.Counted) (large : maxPacketSize ≤ P.fifo.capacity)
    (quiet : CInt) {s : Datapath P} (empty : P.fifo.items s.sampler.device.rxfifo = [])
    {packet : Packet} {rest : List Packet} (held : s.waiting = packet :: rest) :
    let next := (s.step quiet .bulkOut).1
    P.fifo.items next.sampler.device.rxfifo = packet.bytes ∧
      next.sampler.point = s.sampler.point ∧ next.waiting = rest ∧ next.due = s.due - 1 ∧
      next.outbound = s.outbound := by
  have room : maxPacketSize ≤ P.fifo.free s.sampler.device.rxfifo := by
    rw [counted.free_items, empty]
    exact large
  obtain ⟨buffer, queue, result, items⟩ :=
    Firmware.bulkOut_reads counted Firmware.bulkOutEp (some packet) room
  rw [empty, List.nil_append] at items
  simp only [Datapath.step, Datapath.device, Sampler.step, Firmware.isr, held, List.head?_cons,
    result, effects_device]
  exact ⟨items, trivial, rfl, trivial, trivial⟩

/-- While a call is due for each packet, there is a step that brings what is on its way nearer
to the device, and a call is due for each packet after it. -/
theorem nextFeed_nearer (counted : P.fifo.Counted) (large : maxPacketSize ≤ P.fifo.capacity)
    (quiet : CInt) {buffers : Nat} (some : 0 < buffers) {s : Datapath P} (balanced : EachDue s)
    (left : ¬ Fed s) :
    Feeding quiet buffers s (nextFeed s) ∧ EachDue (s.step quiet (nextFeed s)).1 ∧
      feedsLeft (s.step quiet (nextFeed s)).1 < feedsLeft s := by
  unfold nextFeed
  by_cases received : P.fifo.items s.sampler.device.rxfifo ≠ []
  · rw [if_pos received]
    have near := main_nearer s.sampler received
    refine ⟨⟨trivial, trivial, trivial, ?_⟩, balanced, ?_⟩
    · simp [Datapath.step, Datapath.device]
    · simp only [feedsLeft, Datapath.step, Datapath.device, Sampler.step]
      omega
  rw [if_neg received]
  have empty := not_not.1 received
  by_cases due : s.due ≠ 0
  · rw [if_pos due]
    have positive := Nat.pos_of_ne_zero due
    cases held : s.waiting with
    | nil =>
      rw [EachDue, held] at balanced
      exact absurd balanced due
    | cons packet rest =>
      obtain ⟨items, point, waiting, calls, port⟩ := bulkOut_step counted large quiet empty held
      rw [EachDue, held, List.length_cons] at balanced
      refine ⟨⟨trivial, positive, trivial, ?_⟩, ?_, ?_⟩
      · simp [Datapath.step, Datapath.device]
      · rw [EachDue, waiting, calls, balanced]
        rfl
      · rw [feedsLeft, feedsLeft, items, point, waiting, calls, port, empty, held,
          List.flatMap_cons, List.length_append, List.length_nil]
        omega
  rw [if_neg due]
  have none : s.due = 0 := not_not.1 due
  have noPacket : s.waiting = [] := by
    apply List.eq_nil_of_length_eq_zero
    rw [← balanced, none]
  have bytes : s.outbound ≠ [] := fun gone => left ⟨empty, noPacket, gone⟩
  have length := List.length_pos_of_ne_nil bytes
  refine ⟨⟨trivial, ?_, trivial, rfl⟩, ?_, ?_⟩
  · show s.waiting.length < buffers
    rw [noPacket]
    exact some
  · simp [EachDue, Datapath.step, noPacket, none]
  · simp only [feedsLeft, Datapath.step, noPacket, none, List.nil_append, List.flatMap_singleton,
      Datapath.nextPacket, Nat.min_self, List.length_take, List.length_drop, List.flatMap_nil,
      List.length_nil]
    have size : maxPacketSize = 64 := rfl
    omega

/-- Enough such steps leave nothing on the way. -/
theorem steps_feed (counted : P.fifo.Counted) (large : maxPacketSize ≤ P.fifo.capacity)
    (quiet : CInt) {buffers : Nat} (some : 0 < buffers) {s : Datapath P}
    (balanced : EachDue s) :
    ∃ more, more.length ≤ feedsLeft s ∧
      Along (Datapath.step quiet) (Feeding quiet buffers) s more ∧
      Fed (exec (Datapath.step quiet) s more) := by
  have next (state : Datapath P) (holds : EachDue state) (left : ¬ Fed state) :
      ∃ event, Feeding quiet buffers state event ∧ EachDue (state.step quiet event).1 ∧
        feedsLeft (state.step quiet event).1 < feedsLeft state :=
    ⟨nextFeed state, nextFeed_nearer counted large quiet some holds left⟩
  exact reaches feedsLeft next balanced

/-- The steps left are linear in the bytes and packets on their way. -/
theorem feedsLeft_le {s : Datapath P} (balanced : EachDue s) :
    feedsLeft s ≤ 9 * ((commands P).held s).length + s.waiting.length + 6 := by
  have near : callsToPoll s.sampler.point ≤ 6 := by
    cases s.sampler.point with
    | putword c place =>
      simp only [callsToPoll]
      omega
    | _ => simp [callsToPoll]
  rw [feedsLeft, balanced]
  simp only [commands, List.length_append]
  omega

/-- Keys are fetched or left behind. With room for a packet in `rxfifo` and a buffer in the
endpoint, after every admitted run: when a call of `BulkOut` is due for each packet that the
endpoint holds, then transfers, calls of `BulkOut` and the main loop alone, in a number of steps
that is linear in what is on its way, bring every byte on its way to `VCOM_getchar`, in order,
and leave nothing behind; and when it is not, the endpoint holds a packet at the end of every
admitted run that goes on from there without a bus reset. -/
theorem fetched_or_stranded (counted : P.fifo.Counted) (large : maxPacketSize ≤ P.fifo.capacity)
    (quiet : CInt) (buffers : Nat) (some : 0 < buffers) (d : Device P) (beginTime : Int)
    (events : List BenchEvent) (admitted : Admitted quiet buffers d beginTime events) :
    let s := final quiet d beginTime events
    let onWay := P.fifo.items s.sampler.device.rxfifo ++ s.waiting.flatMap Packet.bytes ++
      s.outbound
    (s.due = s.waiting.length →
      ∃ more, (∀ event ∈ more, Feeds event) ∧
        more.length ≤ 9 * onWay.length + s.waiting.length + 6 ∧
        Admitted quiet buffers d beginTime (events ++ more) ∧
        fetched (deviceEffects (output quiet d beginTime (events ++ more))) =
          fetched (deviceEffects (output quiet d beginTime events)) ++ onWay ∧
        Fed (final quiet d beginTime (events ++ more))) ∧
      (s.due ≠ s.waiting.length →
        ∀ more, Admitted quiet buffers d beginTime (events ++ more) →
          (∀ event ∈ more, NoReset P event) →
          (final quiet d beginTime (events ++ more)).waiting ≠ []) := by
  intro s onWay
  refine ⟨?_, ?_⟩
  · intro balanced
    obtain ⟨more, length, feeding, fed⟩ := steps_feed counted large quiet some balanced
    have admits := feeding.imp fun _ _ step => step.admits
    have account := ((commands P).exact_iff_along
      (fun state event _ => (commands_step counted quiet state event).1)
      (fun state event _ => (commands_step counted quiet state event).2) admits).2
      (feeding.imp fun _ _ step => step.keeps)
    have nothing : (commands P).held (exec (Datapath.step quiet) s more) = [] := by
      obtain ⟨received, waiting, port⟩ := fed
      simp only [commands, received, waiting, port]
      rfl
    have later : fetched (deviceEffects (effects (trace (Datapath.step quiet) s more))) =
        onWay := Account.gone_run account (feeding.imp fun _ _ step => step.silent) nothing
    refine ⟨more, feeding.inputs fun _ _ step => step.feeds, length.trans (feedsLeft_le balanced),
      (along_append _ _ _ _ _).2 ⟨admitted, admits⟩, ?_, ?_⟩
    · rw [output, trace_append, effects_append, deviceEffects_append, Firmware.fetched_append,
        ← later]
      rfl
    · rw [final, exec_append]
      exact fed
  · intro unbalanced more goesOn noReset gone
    have fewer : s.due ≤ s.waiting.length := due_le admitted
    have behind : s.due + 1 ≤ s.waiting.length := by omega
    have rest := ((along_append _ _ _ _ _).1 goesOn).2.and (along_of_inputs _ noReset)
    have still : (exec (Datapath.step quiet) s more).due + 1 ≤
        (exec (Datapath.step quiet) s more).waiting.length :=
      invariant (fun (s : Datapath P) _ => s.due + 1 ≤ s.waiting.length) behind
        (fun _ _ _ behind step => step_behind step.1 step.2 behind) rest
    have last : final quiet d beginTime (events ++ more) = exec (Datapath.step quiet) s more :=
      exec_append _ _ _ _
    rw [← last, gone, List.length_nil] at still
    omega

/-- A key that is on its way when the run above has taken its first two steps. -/
theorem fetched_or_stranded_resetRun :
    let s := final 0 (Device.blank 64) 0 (resetRun.take 2)
    let onWay := (Platform.ofList 64).fifo.items s.sampler.device.rxfifo ++
      s.waiting.flatMap Packet.bytes ++ s.outbound
    (s.due = s.waiting.length →
      ∃ more, (∀ event ∈ more, Feeds event) ∧
        more.length ≤ 9 * onWay.length + s.waiting.length + 6 ∧
        Admitted 0 1 (Device.blank 64) 0 (resetRun.take 2 ++ more) ∧
        fetched (deviceEffects (output 0 (Device.blank 64) 0 (resetRun.take 2 ++ more))) =
          fetched (deviceEffects (output 0 (Device.blank 64) 0 (resetRun.take 2))) ++ onWay ∧
        Fed (final 0 (Device.blank 64) 0 (resetRun.take 2 ++ more))) ∧
      (s.due ≠ s.waiting.length →
        ∀ more, Admitted 0 1 (Device.blank 64) 0 (resetRun.take 2 ++ more) →
          (∀ event ∈ more, NoReset (Platform.ofList 64) event) →
          (final 0 (Device.blank 64) 0 (resetRun.take 2 ++ more)).waiting ≠ []) :=
  fetched_or_stranded (Fifo.ofList_counted UInt8 64) (by decide) 0 1 (by decide)
    (Device.blank 64) 0 (resetRun.take 2) (by decide +kernel)

/-- Two keys, of which the second comes when the first has not been fetched yet. -/
def hastyRun : List BenchEvent :=
  let key (c : Char) : BenchEvent :=
    .host { stdin := .key c.toUInt8, flush := 0, now := 0, serial := .empty } true
  [key 'g', .transfer 1, .bulkOut, key 's', .transfer 1, .bulkOut]

example : Admitted 0 1 (Device.blank 64) 0 hastyRun ∧
    let s := final 0 (Device.blank 64) 0 hastyRun
    (s.due, s.waiting.length) = (0, 1) := by decide +kernel

end Olimex2378.Verif.Fetching
