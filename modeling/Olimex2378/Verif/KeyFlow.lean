import Olimex2378.Verif.Fetching

/-!
# Every key is fetched in the end

The steps of the two programs and the bus come in any order, for ever. As long as the main loop
goes on, a call of `BulkOut` that stays due is made, and the bus transfers bytes when again and
again it could, every key that the serial port takes from the host program is fetched by
`VCOM_getchar` at some time, whatever else happens in between; provided that no call of `BulkOut`
declines its packet, which would stay behind.
-/

namespace Olimex2378.Verif.KeyFlow

open Bench Run Delivery Fetching
open Firmware (Device Platform Sampler Interrupt Packet packets fetched maxPacketSize)

variable {P : Platform}

/-- The bytes that wait in `rxfifo`. -/
def received (s : Datapath P) : List UInt8 := P.fifo.items s.sampler.device.rxfifo

/-- The bytes that wait in the bulk OUT endpoint. -/
def inEndpoint (s : Datapath P) : List UInt8 := s.waiting.flatMap Packet.bytes

/-- What a step that discards and declines nothing does to the bytes on their way to
`VCOM_getchar`, and what it fetches. -/
inductive Flow (s next : Datapath P) : BenchEvent → List UInt8 → Prop
  /-- They stay where they are. -/
  | rests {event : BenchEvent} (same : received next = received s)
      (point : next.sampler.point = s.sampler.point) (waiting : next.waiting = s.waiting)
      (noMain : event ≠ .main) (noBulkOut : event ≠ .bulkOut)
      (noTransfer : ∀ count, event ≠ .transfer count) : Flow s next event []
  /-- A bus reset finds no byte in the endpoint. -/
  | clears {event : BenchEvent} (same : received next = received s)
      (point : next.sampler.point = s.sampler.point) (empty : inEndpoint s = [])
      (waiting : next.waiting = []) (noMain : event ≠ .main) (noBulkOut : event ≠ .bulkOut)
      (noTransfer : ∀ count, event ≠ .transfer count) : Flow s next event []
  /-- A packet goes to the endpoint. -/
  | transfers (count : Nat) (same : received next = received s)
      (point : next.sampler.point = s.sampler.point)
      (waiting : next.waiting = s.waiting ++ [s.nextPacket count]) :
      Flow s next (.transfer count) []
  /-- A call of `BulkOut` reads the oldest packet. -/
  | receives (packet : Packet) (held : s.waiting = packet :: next.waiting)
      (more : received next = received s ++ packet.bytes)
      (point : next.sampler.point = s.sampler.point) : Flow s next .bulkOut []
  /-- The main loop goes on, and comes nearer to fetching the bytes that wait. -/
  | runs (bytes : List UInt8) (one : bytes.length ≤ 1)
      (oldest : received s = bytes ++ received next) (waiting : next.waiting = s.waiting)
      (near : received s ≠ [] → 7 * (received next).length + callsToPoll next.sampler.point <
        7 * (received s).length + callsToPoll s.sampler.point) : Flow s next .main bytes

/-- A call of the main loop leaves all bytes but the oldest in `rxfifo`. -/
theorem main_leaves (s : Sampler P) :
    (P.fifo.items s.device.rxfifo).length ≤ (P.fifo.items s.main.1.device.rxfifo).length + 1 := by
  by_cases atPoll : s.point = .poll
  · cases held : P.fifo.items s.device.rxfifo with
    | nil => exact Nat.zero_le _
    | cons byte rest =>
      rw [(main_fetches atPoll held).1]
      exact Nat.le_refl _
  · rw [(main_towards s atPoll).1]
    exact Nat.le_succ _

/-- The main loop fetches the oldest byte or none. -/
theorem flow_main (counted : P.fifo.Counted) (quiet : CInt) (s : Datapath P) :
    Flow s (s.step quiet .main).1 .main (fetched (deviceEffects (s.step quiet .main).2)) := by
  have conserves := sampler_receives counted s.sampler .main
  rw [packets_of_other s.sampler (by simp), List.flatten_nil, List.append_nil] at conserves
  simp only [Datapath.step, Datapath.device, effects_device]
  refine .runs _ ?_ conserves.symm rfl (main_nearer s.sampler)
  have leaves := main_leaves s.sampler
  rw [← conserves, List.length_append, Sampler.step] at leaves
  rw [Sampler.step]
  omega

/-- A call of `BulkOut` after which a call is due for each packet has read one. -/
theorem flow_bulkOut (counted : P.fifo.Counted) (quiet : CInt) {s : Datapath P}
    (due : 0 < s.due) (balanced : EachDue s) (still : EachDue (s.step quiet .bulkOut).1) :
    Flow s (s.step quiet .bulkOut).1 .bulkOut [] := by
  have conserves := commands_bulkOut counted quiet s
  have silent : fetched (deviceEffects (s.step quiet .bulkOut).2) = [] := by
    simp only [Datapath.step, Datapath.device, effects_device]
    exact (Firmware.isr_no_port s.sampler.device (.bulkOut s.waiting.head?)).2.2.1
  cases held : s.waiting with
  | nil =>
    rw [EachDue, held] at balanced
    exact absurd balanced (Nat.ne_of_gt due)
  | cons packet rest =>
    have waiting : (s.step quiet .bulkOut).1.waiting = rest := by
      have one := bulkOut_one s.sampler.device s.waiting.head?
      rw [EachDue, held] at balanced
      rw [EachDue] at still
      simp only [Datapath.step, Datapath.device, Sampler.step, effects_device, held,
        List.length_drop, List.length_cons] at still balanced one ⊢
      rw [show (packets (Firmware.isr s.sampler.device (.bulkOut (packet :: rest).head?)).2).length
        = 1 by omega]
      rfl
    refine .receives packet (by rw [held, waiting]) ?_ rfl
    have alone : sent (s.step quiet .bulkOut).2 = [] := by simp [Datapath.step, Datapath.device]
    have port : (s.step quiet .bulkOut).1.outbound = s.outbound := rfl
    simp only [Account.after, Account.before, commands, silent, waiting, held, alone, port,
      List.flatMap_cons, List.nil_append, List.append_nil] at conserves
    apply (List.append_left_inj (rest.flatMap Packet.bytes ++ s.outbound)).1
    simpa only [received, List.append_assoc] using conserves

/-- A handler fetches nothing. -/
theorem handler_silent (s : Datapath P) (source : Interrupt) :
    fetched (deviceEffects (s.device (.irq source)).2) = [] := by
  simp only [Datapath.device, effects_device]
  exact (Firmware.isr_no_port s.sampler.device source).2.2.1

/-- Every handler but `BulkOut` leaves `rxfifo` alone. -/
theorem handler_received (counted : P.fifo.Counted) (s : Datapath P) {source : Interrupt}
    (other : ∀ read, source ≠ .bulkOut read) :
    received (s.device (.irq source)).1 = received s := by
  have conserves := sampler_receives counted s.sampler (.irq source)
  have silent : fetched (s.sampler.step (.irq source)).2 = [] :=
    (Firmware.isr_no_port s.sampler.device source).2.2.1
  rw [silent, packets_of_other s.sampler (by simpa using other), List.flatten_nil,
    List.append_nil, List.nil_append] at conserves
  exact conserves

/-- A device status moves nothing, or it is a bus reset that finds no byte. -/
theorem flow_devInt (counted : P.fifo.Counted) {quiet : CInt} {s : Datapath P}
    {bDevStatus : UInt8} (keeps : s.KeepsCommands quiet (.devInt bDevStatus)) :
    Flow s (s.step quiet (.devInt bDevStatus)).1 (.devInt bDevStatus) [] := by
  have sampler := (settle_frame s bDevStatus).1
  have same : received (s.step quiet (.devInt bDevStatus)).1 = received s := by
    rw [Datapath.step, handler_received counted _ (by simp), received, received, sampler]
  have point : (s.step quiet (.devInt bDevStatus)).1.sampler.point = s.sampler.point := by
    rw [← sampler]
    rfl
  by_cases reset : bDevStatus &&& P.devStatusReset ≠ 0
  · refine .clears same point (keeps reset) ?_ (by simp) (by simp) (by simp)
    simp only [Datapath.step, Datapath.device, Datapath.settle, if_pos reset]
  · refine .rests same point ?_ (by simp) (by simp) (by simp)
    simp only [Datapath.step, Datapath.device, Datapath.settle, if_neg reset]

/-- Every admitted step that discards and declines nothing is one of these. -/
theorem flow_step (counted : P.fifo.Counted) {quiet : CInt} {buffers : Nat} {s : Datapath P}
    {event : BenchEvent} (admits : s.Admits quiet buffers event)
    (keeps : s.KeepsCommands quiet event) (balanced : EachDue s)
    (still : EachDue (s.step quiet event).1) :
    Flow s (s.step quiet event).1 event (fetched (deviceEffects (s.step quiet event).2)) := by
  cases event with
  | main => exact flow_main counted quiet s
  | frame =>
    simp only [Datapath.step, handler_silent]
    exact .rests (handler_received counted s (by simp)) rfl rfl (by simp) (by simp) (by simp)
  | collect =>
    have silent : fetched (deviceEffects (s.step quiet .collect).2) = [] := by
      rw [Datapath.step]
      split <;> rfl
    have noReset : NoReset P .collect := trivial
    have sampler : (s.step quiet .collect).1.sampler = s.sampler := by
      rw [Datapath.step]
      split <;> rfl
    rw [silent]
    exact .rests (by rw [received, received, sampler]) (by rw [sampler])
      (endpoint_frame quiet s (by simp) (by simp) noReset).1 (by simp) (by simp) (by simp)
  | bulkIn =>
    simp only [Datapath.step, handler_silent]
    exact .rests (handler_received counted _ (by simp)) rfl rfl (by simp) (by simp) (by simp)
  | transfer count => exact .transfers count rfl rfl rfl
  | bulkOut =>
    have silent : fetched (deviceEffects (s.step quiet .bulkOut).2) = [] :=
      handler_silent { s with due := s.due - 1 } (.bulkOut s.waiting.head?)
    rw [silent]
    exact flow_bulkOut counted quiet admits balanced still
  | devInt bDevStatus =>
    simp only [Datapath.step, handler_silent]
    exact flow_devInt counted keeps
  | host poll taken =>
    have noReset : NoReset P (.host poll taken) := trivial
    obtain ⟨_, sampler, out⟩ := hostStep_parts quiet s poll taken
    have silent : fetched (deviceEffects (s.step quiet (.host poll taken)).2) = [] := by
      rw [Datapath.step, out]
      simp
    rw [silent]
    exact .rests (by rw [received, received, Datapath.step, sampler])
      (by rw [Datapath.step, sampler])
      (endpoint_frame quiet s (by simp) (by simp) noReset).1 (by simp) (by simp) (by simp)

/-- The calls of `BulkOut` that read a number of bytes from packets, oldest first. -/
def callsFor : Nat → List Packet → Nat
  | 0, _ => 0
  | _, [] => 0
  | need + 1, packet :: rest => callsFor (need + 1 - packet.bytes.length) rest + 1

/-- Packets behind the bytes that are needed take no more calls. -/
theorem callsFor_append {need : Nat} {waiting : List Packet}
    (enough : need ≤ (waiting.flatMap Packet.bytes).length) (more : List Packet) :
    callsFor need (waiting ++ more) = callsFor need waiting := by
  induction waiting generalizing need with
  | nil =>
    have none : need = 0 := Nat.eq_zero_of_le_zero enough
    rw [none, callsFor, callsFor]
  | cons packet rest ih =>
    rw [List.flatMap_cons, List.length_append] at enough
    cases need with
    | zero => rw [callsFor, callsFor]
    | succ need =>
      rw [List.cons_append, callsFor, callsFor, ih (by omega)]

/-- No byte goes back. -/
theorem flow_counts {s next : Datapath P} {event : BenchEvent} {read : List UInt8}
    (flow : Flow s next event read) (taken : Nat) :
    taken + (received s).length ≤ taken + read.length + (received next).length ∧
      taken + (received s).length + (inEndpoint s).length ≤
        taken + read.length + (received next).length + (inEndpoint next).length := by
  unfold inEndpoint
  cases flow with
  | rests same point waiting => simp [same, waiting]
  | clears same point empty waiting =>
    rw [inEndpoint] at empty
    simp [same, waiting, empty]
  | transfers count same point waiting => simp [same, waiting, Nat.add_assoc]
  | receives packet held more point => simp [held, more, Nat.add_assoc]
  | runs bytes one oldest waiting near =>
    rw [oldest, waiting, List.length_append]
    omega

/-- A transfer of bytes that the port holds brings some to the endpoint. -/
theorem transfer_brings {s next : Datapath P} {count : Nat} {read : List UInt8}
    (flow : Flow s next (.transfer (count + 1)) read) (some : s.outbound ≠ []) (taken : Nat) :
    taken + (received s).length + (inEndpoint s).length <
      taken + read.length + (received next).length + (inEndpoint next).length := by
  have positive := List.length_pos_of_ne_nil some
  have size : maxPacketSize = 64 := rfl
  cases flow with
  | rests _ _ _ _ _ noTransfer => exact absurd rfl (noTransfer _)
  | clears _ _ _ _ _ _ noTransfer => exact absurd rfl (noTransfer _)
  | transfers count same point waiting =>
    simp only [inEndpoint, waiting, same, Datapath.nextPacket, List.flatMap_append,
      List.flatMap_singleton, List.length_append, List.length_take, List.length_nil]
    omega

/-- A call of `BulkOut` brings the bytes that are needed nearer, and no other step takes them
further away. -/
theorem calls_onward {s next : Datapath P} {event : BenchEvent} {read : List UInt8}
    (flow : Flow s next event read) {taken target : Nat}
    (left : taken + (received s).length < target)
    (inside : target ≤ taken + (received s).length + (inEndpoint s).length) :
    callsFor (target - (taken + read.length + (received next).length)) next.waiting <
        callsFor (target - (taken + (received s).length)) s.waiting ∨
      callsFor (target - (taken + read.length + (received next).length)) next.waiting =
          callsFor (target - (taken + (received s).length)) s.waiting ∧ event ≠ .bulkOut := by
  cases flow with
  | rests same point waiting noMain noBulkOut noTransfer =>
    rw [same, waiting]
    exact Or.inr ⟨rfl, noBulkOut⟩
  | clears same point empty waiting =>
    rw [empty, List.length_nil] at inside
    omega
  | transfers count same point waiting =>
    rw [same, waiting, List.length_nil, Nat.add_zero, callsFor_append (by
      rw [inEndpoint] at inside
      omega)]
    exact Or.inr ⟨rfl, by simp⟩
  | receives packet held more point =>
    obtain ⟨need, rest⟩ : ∃ need, target - (taken + (received s).length) = need + 1 :=
      ⟨target - (taken + (received s).length) - 1, by omega⟩
    have fewer : target - (taken + (received next).length) =
        need + 1 - packet.bytes.length := by
      rw [more, List.length_append]
      omega
    rw [List.length_nil, Nat.add_zero, fewer, held, rest, callsFor]
    exact Or.inl (Nat.lt_succ_self _)
  | runs _ one oldest waiting near =>
    have same : taken + read.length + (received next).length =
        taken + (received s).length := by
      rw [oldest, List.length_append]
      omega
    rw [same, waiting]
    exact Or.inr ⟨rfl, by simp⟩

/-- While a byte that is waited for is in `rxfifo`, the main loop comes nearer to fetching it, and
no other step moves it. -/
theorem fetch_onward {s next : Datapath P} {event : BenchEvent} {read : List UInt8}
    (flow : Flow s next event read) {taken target : Nat} (left : taken < target)
    (inside : target ≤ taken + (received s).length) :
    7 * (target - (taken + read.length)) + callsToPoll next.sampler.point <
        7 * (target - taken) + callsToPoll s.sampler.point ∨
      7 * (target - (taken + read.length)) + callsToPoll next.sampler.point =
          7 * (target - taken) + callsToPoll s.sampler.point ∧ event ≠ .main := by
  cases flow with
  | rests same point waiting noMain noBulkOut noTransfer =>
    rw [point]
    exact Or.inr ⟨rfl, noMain⟩
  | clears same point empty waiting noMain =>
    rw [point]
    exact Or.inr ⟨rfl, noMain⟩
  | transfers count same point waiting =>
    rw [point]
    exact Or.inr ⟨rfl, by simp⟩
  | receives packet held more point =>
    rw [point]
    exact Or.inr ⟨rfl, by simp⟩
  | runs _ one oldest waiting near =>
    have some : received s ≠ [] := List.ne_nil_of_length_pos (by omega)
    have nearer := near some
    rw [oldest, List.length_append] at nearer
    exact Or.inl (by omega)

/-- While no buffer is free, a call of `BulkOut` makes one free, and no other step takes one. -/
theorem room_onward {quiet : CInt} {buffers : Nat} (some : 0 < buffers) {s next : Datapath P}
    {event : BenchEvent} {read : List UInt8} (flow : Flow s next event read)
    (admits : s.Admits quiet buffers event) (full : buffers ≤ s.waiting.length) :
    next.waiting.length < s.waiting.length ∨
      next.waiting.length = s.waiting.length ∧ event ≠ .bulkOut := by
  cases flow with
  | rests same point waiting noMain noBulkOut =>
    rw [waiting]
    exact Or.inr ⟨rfl, noBulkOut⟩
  | clears same point empty waiting =>
    rw [waiting]
    exact Or.inl (Nat.lt_of_lt_of_le some full)
  | transfers count same point waiting => exact absurd admits (Nat.not_lt_of_le full)
  | receives packet held more point =>
    rw [held]
    exact Or.inl (Nat.lt_succ_self _)
  | runs _ one oldest waiting near =>
    rw [waiting]
    exact Or.inr ⟨rfl, by simp⟩

/-- An endless run on which nothing on its way to the device is discarded or declined and everyone
goes on with their part of the way. -/
structure Served (quiet : CInt) (buffers : Nat) (s : Datapath P) (events : Nat → BenchEvent) :
    Prop where
  /-- The hardware and the port allow each step. -/
  admits : ∀ n, (stateAfter quiet s events n).Admits quiet buffers (events n)
  /-- No step discards a byte. -/
  keeps : ∀ n, (stateAfter quiet s events n).KeepsCommands quiet (events n)
  /-- No call of `BulkOut` declines its packet. -/
  balanced : ∀ n, EachDue (stateAfter quiet s events n)
  /-- The main loop goes on. -/
  main : ∀ n, ∃ m, n ≤ m ∧ events m = .main
  /-- A call of `BulkOut` that stays due is made. -/
  bulkOut : Fair (fun n => 0 < (stateAfter quiet s events n).due) (fun n => events n = .bulkOut)
  /-- Bytes are transferred when again and again there are some and a buffer is free. -/
  transfer : StronglyFair
    (fun n => (stateAfter quiet s events n).outbound ≠ [] ∧
      (stateAfter quiet s events n).waiting.length < buffers)
    (fun n => ∃ count, events n = .transfer (count + 1))

/-- How many bytes have been fetched before a time of an endless run. -/
def fetchedBefore (quiet : CInt) (s : Datapath P) (events : Nat → BenchEvent) (n : Nat) : Nat :=
  (commands P).goneBefore (Datapath.step quiet) s events n

/-- How many bytes have come to `rxfifo` before a time. -/
def receivedBefore (quiet : CInt) (s : Datapath P) (events : Nat → BenchEvent) (n : Nat) : Nat :=
  fetchedBefore quiet s events n + (received (stateAfter quiet s events n)).length

/-- How many bytes have come to the endpoint before a time. -/
def transferredBefore (quiet : CInt) (s : Datapath P) (events : Nat → BenchEvent) (n : Nat) :
    Nat := receivedBefore quiet s events n + (inEndpoint (stateAfter quiet s events n)).length

/-- What was on the way and has been taken by the port before a time. -/
def allBefore (quiet : CInt) (s : Datapath P) (events : Nat → BenchEvent) (n : Nat) :
    List UInt8 := (commands P).before s (outputAfter quiet s events n)

section Endless

variable {quiet : CInt} {buffers : Nat} {s : Datapath P} {events : Nat → BenchEvent}

/-- The byte fetched in one step is fetched after the others. -/
theorem fetchedBefore_succ (n : Nat) : fetchedBefore quiet s events (n + 1) =
    fetchedBefore quiet s events n + (fetched (deviceEffects
      ((stateAfter quiet s events n).step quiet (events n)).2)).length :=
  Account.goneBefore_succ n

/-- What the step at a time does. -/
theorem flow_at (counted : P.fifo.Counted) (served : Served quiet buffers s events) (n : Nat) :
    Flow (stateAfter quiet s events n) (stateAfter quiet s events (n + 1)) (events n)
      (fetched (deviceEffects ((stateAfter quiet s events n).step quiet (events n)).2)) := by
  have still := served.balanced (n + 1)
  have next : stateAfter quiet s events (n + 1) =
      ((stateAfter quiet s events n).step quiet (events n)).1 := stateAt_succ _ _ _ n
  rw [next] at still ⊢
  exact flow_step counted (served.admits n) (served.keeps n) (served.balanced n) still

/-- What has come to `rxfifo` stays there or is fetched. -/
theorem received_mono (counted : P.fifo.Counted) (served : Served quiet buffers s events) :
    Monotone (receivedBefore quiet s events) := by
  apply monotone_nat_of_le_succ
  intro n
  rw [receivedBefore, receivedBefore, fetchedBefore_succ]
  exact (flow_counts (flow_at counted served n) _).1

/-- What has come to the endpoint does not go back. -/
theorem transferred_mono (counted : P.fifo.Counted) (served : Served quiet buffers s events) :
    Monotone (transferredBefore quiet s events) := by
  apply monotone_nat_of_le_succ
  intro n
  rw [transferredBefore, transferredBefore, receivedBefore, receivedBefore, fetchedBefore_succ]
  exact (flow_counts (flow_at counted served n) _).2

/-- The account of an endless run at a time. -/
theorem account_at (counted : P.fifo.Counted) (served : Served quiet buffers s events) (n : Nat) :
    (commands P).after (outputAfter quiet s events n) (stateAfter quiet s events n) =
      (commands P).before s (outputAfter quiet s events n) :=
  ((commands P).exact_iff_along
    (fun state event _ => (commands_step counted quiet state event).1)
    (fun state event _ => (commands_step counted quiet state event).2)
    (along_upTo served.admits n)).2 (along_upTo served.keeps n)

/-- All of it has come to the endpoint or is in the port. -/
theorem all_somewhere (counted : P.fifo.Counted) (served : Served quiet buffers s events)
    {n m : Nat} (later : n ≤ m) :
    (allBefore quiet s events n).length ≤ transferredBefore quiet s events m +
      (stateAfter quiet s events m).outbound.length := by
  have somewhere := Account.before_le later (account_at counted served m)
  simp only [commands, List.length_append] at somewhere
  simp only [allBefore, outputAfter, transferredBefore, receivedBefore, fetchedBefore, received,
    inEndpoint, commands, stateAfter]
  omega

/-- Again and again a buffer of the endpoint is free. -/
theorem room_again (counted : P.fifo.Counted) (some : 0 < buffers)
    (served : Served quiet buffers s events) (n : Nat) :
    ∃ m, n ≤ m ∧ (stateAfter quiet s events m).waiting.length < buffers := by
  apply comes_about (fun _ m => events m = .bulkOut)
    (fun m => (stateAfter quiet s events m).waiting.length) (fun _ => ()) n
  · intro _ m later full
    apply served.bulkOut m
    intro k after
    have many := (full k after).1
    rw [served.balanced k]
    omega
  · intro m later full _
    have onward := room_onward some (flow_at counted served m) (served.admits m)
      (Nat.le_of_not_lt full)
    exact onward.imp_right fun ⟨same, other⟩ => ⟨same, rfl, other⟩

/-- All of it comes to the endpoint in the end. -/
theorem all_transferred (counted : P.fifo.Counted) (some : 0 < buffers)
    (served : Served quiet buffers s events) (n : Nat) :
    ∃ m, n ≤ m ∧ (allBefore quiet s events n).length ≤ transferredBefore quiet s events m := by
  have held (m : Nat) (later : n ≤ m)
      (less : transferredBefore quiet s events m < (allBefore quiet s events n).length) :
      (stateAfter quiet s events m).outbound ≠ [] := by
    have inside := all_somewhere counted served later
    exact List.ne_nil_of_length_pos (by omega)
  apply rises_to (fun m => transferred_mono counted served (Nat.le_succ m))
    fun m => ∃ count, events m = .transfer (count + 1)
  · intro m later less
    apply served.transfer m
    intro k
    obtain ⟨time, after, room⟩ := room_again counted some served (max k m)
    have past : m ≤ time := (Nat.le_max_right k m).trans after
    exact ⟨time, (Nat.le_max_left k m).trans after, held time (later.trans past) (less time past),
      room⟩
  · intro m later less ⟨count, happened⟩
    have flow := flow_at counted served m
    rw [happened] at flow
    rw [transferredBefore, transferredBefore, receivedBefore, receivedBefore, fetchedBefore_succ]
    rw [happened]
    exact transfer_brings flow (held m later less) _

/-- What has come to the endpoint is read by `BulkOut` in the end. -/
theorem all_received (counted : P.fifo.Counted) (served : Served quiet buffers s events)
    {target n : Nat} (transferred : target ≤ transferredBefore quiet s events n) :
    ∃ m, n ≤ m ∧ target ≤ receivedBefore quiet s events m := by
  have inside (m : Nat) (later : n ≤ m) : target ≤ transferredBefore quiet s events m :=
    transferred.trans (transferred_mono counted served later)
  apply comes_about (fun _ m => events m = .bulkOut)
    (fun m => callsFor (target - receivedBefore quiet s events m)
      (stateAfter quiet s events m).waiting) (fun _ => ()) n
  · intro _ m later less
    apply served.bulkOut m
    intro k after
    have enough := inside k (later.trans after)
    have missing := (less k after).1
    rw [transferredBefore] at enough
    rw [served.balanced k]
    apply List.length_pos_of_ne_nil
    intro none
    rw [inEndpoint, none, List.flatMap_nil, List.length_nil] at enough
    exact missing enough
  · intro m later left _
    have onward := calls_onward (flow_at counted served m) (Nat.lt_of_not_le left) (inside m later)
    rw [← fetchedBefore_succ] at onward
    exact onward.imp_right fun ⟨same, other⟩ => ⟨same, rfl, other⟩

/-- What has come to `rxfifo` is fetched in the end. -/
theorem all_fetched (counted : P.fifo.Counted) (served : Served quiet buffers s events)
    {target n : Nat} (received : target ≤ receivedBefore quiet s events n) :
    ∃ m, n ≤ m ∧ target ≤ fetchedBefore quiet s events m := by
  apply comes_about (fun _ m => events m = .main)
    (fun m => 7 * (target - fetchedBefore quiet s events m) +
      callsToPoll (stateAfter quiet s events m).sampler.point) (fun _ => ()) n
  · exact fun _ m _ _ => served.main m
  · intro m later left _
    have onward := fetch_onward (flow_at counted served m) (Nat.lt_of_not_le left)
      (received.trans (received_mono counted served later))
    rw [← fetchedBefore_succ] at onward
    exact onward.imp_right fun ⟨same, other⟩ => ⟨same, rfl, other⟩

end Endless

/-- Every key is fetched in the end. With a buffer in the endpoint, after every run that leaves a
call of `BulkOut` due for each packet, the whole may go on for ever, in any order of its steps:
when it discards and declines nothing any more on the way to the device, the main loop goes on,
no call of `BulkOut` stays due for ever, and bytes are transferred when again and again they could
be, then what was on the way and all that the port has taken from the host program at any time
after that has been fetched, in order, at some later time. -/
theorem keys_flow (counted : P.fifo.Counted) (quiet : CInt) (buffers : Nat) (some : 0 < buffers)
    (d : Device P) (beginTime : Int) (before : List BenchEvent)
    (events : Nat → BenchEvent)
    (served : Served quiet buffers (final quiet d beginTime before) events) (n : Nat) :
    let s := final quiet d beginTime before
    let onWay := P.fifo.items s.sampler.device.rxfifo ++ s.waiting.flatMap Packet.bytes ++
      s.outbound
    ∃ m, n ≤ m ∧
      onWay ++ sent (outputAfter quiet s events n) <+:
        fetched (deviceEffects (outputAfter quiet s events m)) := by
  intro s onWay
  obtain ⟨one, after, transferred⟩ := all_transferred counted some served n
  obtain ⟨two, later, received⟩ := all_received counted served transferred
  obtain ⟨m, last, fetched⟩ := all_fetched counted served received
  have order : n ≤ m := after.trans (later.trans last)
  exact ⟨m, order, Account.all_gone order (account_at counted served m) fetched⟩

/-- The call of `BulkOut` for the key of the run above, and the main loop for ever. -/
def fetchSteps : Nat → BenchEvent
  | 0 => .bulkOut
  | _ => .main

/-- Nothing is in the port or the endpoint after the first of them. -/
theorem fetchSteps_empty (n : Nat) :
    let s := stateAfter 0 (final 0 (Device.blank 64) 0 (resetRun.take 2)) fetchSteps (n + 1)
    s.outbound = [] ∧ s.waiting = [] ∧ s.due = 0 := by
  induction n with
  | zero => exact ⟨by decide +kernel, List.eq_nil_of_length_eq_zero (by decide +kernel),
      by decide +kernel⟩
  | succ n ih =>
    intro s
    have step : s = ((stateAfter 0 (final 0 (Device.blank 64) 0 (resetRun.take 2)) fetchSteps
        (n + 1)).step 0 .main).1 := stateAt_succ _ _ _ (n + 1)
    rw [step]
    exact ih

/-- Everyone does their part on this run. -/
theorem fetchSteps_served :
    Served 0 1 (final 0 (Device.blank 64) 0 (resetRun.take 2)) fetchSteps where
  admits
    | 0 => by decide +kernel
    | _ + 1 => trivial
  keeps
    | 0 => trivial
    | _ + 1 => trivial
  balanced
    | 0 => by
      rw [EachDue]
      decide +kernel
    | n + 1 => by
      obtain ⟨_, waiting, due⟩ := fetchSteps_empty n
      rw [EachDue, waiting, due]
      rfl
  main n := ⟨n + 1, Nat.le_add_right n 1, rfl⟩
  bulkOut n stays :=
    absurd (fetchSteps_empty n).2.2 (Nat.ne_of_gt (stays _ (Nat.le_add_right n 1)))
  transfer n again := by
    obtain ⟨m, later, some, _⟩ := again 1
    obtain ⟨k, rfl⟩ : ∃ k, m = k + 1 := ⟨m - 1, by omega⟩
    exact absurd (fetchSteps_empty k).1 some

/-- What happens on it. -/
theorem keys_flow_fetchSteps :
    let s := final 0 (Device.blank 64) 0 (resetRun.take 2)
    let onWay := (Platform.ofList 64).fifo.items s.sampler.device.rxfifo ++
      s.waiting.flatMap Packet.bytes ++ s.outbound
    ∃ m, 1 ≤ m ∧
      onWay ++ sent (outputAfter 0 s fetchSteps 1) <+:
        fetched (deviceEffects (outputAfter 0 s fetchSteps m)) :=
  keys_flow (Fifo.ofList_counted UInt8 64) 0 1 (by decide) (Device.blank 64) 0 (resetRun.take 2)
    fetchSteps fetchSteps_served 1

end Olimex2378.Verif.KeyFlow
