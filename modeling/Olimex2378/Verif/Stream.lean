import Olimex2378.Verif.KeyFlow
import Olimex2378.Verif.SampleFlow

/-!
# A running stream never dries up

While `stream_task` is in the state `GO`, it puts words into `txfifo` whether there is room or
not. However often `txfifo` is full, the host program reads on for ever, as long as the main loop
goes on and the way to the host is served. Such runs go on from every state in which the host
program has not left its loop: turns that are taken in rotation are one.
-/

namespace Olimex2378.Verif.Stream

open Bench Run Delivery Progress SampleFlow
open Firmware (Device Platform Sampler Point RunstateType accepted)

variable {P : Platform}

/-- The calls of the main loop before its next put of a word, at most. -/
def callsToPut : Point → Nat
  | .putword _ _ => 0
  | .top => 1
  | .echo _ => 2
  | .poll => 3

/-- In the state `GO`, each call of the main loop but a put of a word comes nearer to the next
word. -/
theorem main_nears {s : Sampler P} (running : s.task.state = .go) (away : ¬ s.point.InWord) :
    callsToPut s.main.1.point < callsToPut s.point := by
  cases atPoint : s.point with
  | top =>
    have word : s.task.switch.2.putword = some (s.task.index + 1) := by
      simp [Firmware.StreamTask.switch, running, Firmware.Sample.putword]
    rcases Firmware.main_top atPoint with ⟨c, _, result⟩ | ⟨none, _⟩
    · rw [result]
      exact Nat.zero_lt_one
    · rw [none] at word
      contradiction
  | putword c place =>
    rw [atPoint] at away
    exact absurd trivial away
  | poll =>
    obtain ⟨point, result, next⟩ := Firmware.main_poll atPoint
    rw [result, next]
    cases (s.task.command (Firmware.vcomGetchar s.device).2).2 with
    | none => exact show 1 < 3 by decide
    | some c => exact show 2 < 3 by decide
  | echo c =>
    rw [Firmware.main_echo atPoint]
    exact Nat.one_lt_two

/-- A put of a word is taken when `txfifo` holds nothing. -/
theorem put_taken (room : 0 < P.fifo.capacity) {s : Sampler P} (inWord : s.point.InWord)
    (empty : P.fifo.items s.device.txfifo = []) : 0 < (accepted s.main.2).length := by
  cases atPoint : s.point with
  | putword c place =>
    have taken : (Firmware.putTx s.device (Firmware.putwordArg c place)).2 = true := by
      rw [Firmware.putTx_taken, empty]
      exact room
    rw [Firmware.main_put atPoint]
    simp [Firmware.step, taken, accepted, Firmware.Effect.accepted]
  | _ =>
    rw [atPoint] at inWord
    exact absurd inWord (by simp [Point.InWord])

/-- Every other step leaves the main loop where it is. -/
theorem main_kept (quiet : CInt) (s : Datapath P) {event : BenchEvent} (other : event ≠ .main) :
    (s.step quiet event).1.sampler.point = s.sampler.point ∧
      (s.step quiet event).1.sampler.task = s.sampler.task := by
  have moves : (s.step quiet event).1.sampler = exec Sampler.step s.sampler (samplerActs s event) :=
    (samplerPart P quiet).moves s event
  rw [moves]
  cases event with
  | main => exact absurd rfl other
  | _ => exact ⟨rfl, rfl⟩

section Endless

variable {quiet : CInt} {buffers : Nat} {s : Datapath P} {events : Nat → BenchEvent}

/-- How many bytes have been taken into `txfifo` before a time. -/
def acceptedBefore (quiet : CInt) (s : Datapath P) (events : Nat → BenchEvent) (n : Nat) : Nat :=
  (accepted (deviceEffects (outputAfter quiet s events n))).length

/-- The bytes taken in one step come last. -/
theorem acceptedBefore_succ (n : Nat) : acceptedBefore quiet s events (n + 1) =
    acceptedBefore quiet s events n + (accepted (deviceEffects
      ((stateAfter quiet s events n).step quiet (events n)).2)).length := by
  have split : accepted (deviceEffects (outputAfter quiet s events (n + 1))) =
      accepted (deviceEffects (outputAfter quiet s events n)) ++ accepted (deviceEffects
        ((stateAfter quiet s events n).step quiet (events n)).2) := by
    rw [outputAfter, effects_upTo_succ]
    exact (samples P).came_append _ _
  rw [acceptedBefore, split, List.length_append]
  rfl

/-- What has been taken has been taken. -/
theorem accepted_mono : Monotone (acceptedBefore quiet s events) := by
  apply monotone_nat_of_le_succ
  intro n
  rw [acceptedBefore_succ]
  exact Nat.le_add_right _ _

/-- When all has been read and no byte is taken after that, `txfifo` holds nothing. -/
theorem empty_when_read (served : Served quiet buffers s events) {n m : Nat}
    (none : acceptedBefore quiet s events m ≤ acceptedBefore quiet s events n)
    (read : (allBefore quiet s events n).length ≤ readBefore quiet s events m) :
    P.fifo.items (stateAfter quiet s events m).sampler.device.txfifo = [] := by
  have balance := congrArg List.length (account_at served m)
  have given : (allBefore quiet s events n).length ≤
      ((samples P).gone (outputAfter quiet s events m)).length := read
  simp only [Account.after, Account.before, samples, List.length_append] at balance
  simp only [allBefore, Account.before, samples, List.length_append] at given
  simp only [acceptedBefore] at none
  apply List.eq_nil_of_length_eq_zero
  omega

/-- While the state is `GO`, there is always one more byte that is taken. -/
theorem one_more (counted : P.fifo.Counted) (room : 0 < P.fifo.capacity) (live : Live s)
    (served : Served quiet buffers s events) (main : ∀ n, ∃ m, n ≤ m ∧ events m = .main)
    (running : ∀ n, (stateAfter quiet s events n).sampler.task.state = .go) (n : Nat) :
    ∃ m, acceptedBefore quiet s events n < acceptedBefore quiet s events m := by
  obtain ⟨first, later, read⟩ := all_flow counted live served n
  -- Once all has been read, the next put is taken if none before it was.
  obtain ⟨m, _, more⟩ : ∃ m, first ≤ m ∧
      acceptedBefore quiet s events n < acceptedBefore quiet s events m := by
    apply comes_about (fun _ m => events m = .main)
      (fun m => callsToPut (stateAfter quiet s events m).sampler.point) (fun _ => ()) first
    · exact fun _ m _ _ => main m
    · intro m after left still
      have next : stateAfter quiet s events (m + 1) =
          ((stateAfter quiet s events m).step quiet (events m)).1 := stateAt_succ _ _ _ m
      rw [next]
      by_cases turn : events m = .main
      · rw [turn]
        refine Or.inl (main_nears (running m) ?_)
        intro inWord
        have empty := empty_when_read served (Nat.le_of_not_lt left)
          (read.length_le.trans (read_mono after))
        have grows := put_taken room inWord empty
        have before : acceptedBefore quiet s events n ≤ acceptedBefore quiet s events m :=
          accepted_mono (later.trans after)
        have one : (accepted (deviceEffects ((stateAfter quiet s events m).step quiet
            (events m)).2)).length =
            (accepted (stateAfter quiet s events m).sampler.main.2).length := by
          rw [turn, Datapath.step, Datapath.device, (effects_device _).1]
          rfl
        rw [acceptedBefore_succ, one] at still
        omega
      · rw [(main_kept quiet _ turn).1]
        exact Or.inr ⟨rfl, rfl, turn⟩
  exact ⟨m, more⟩

/-- While the state is `GO`, bytes are taken without end. -/
theorem accepts_on (counted : P.fifo.Counted) (room : 0 < P.fifo.capacity) (live : Live s)
    (served : Served quiet buffers s events) (main : ∀ n, ∃ m, n ≤ m ∧ events m = .main)
    (running : ∀ n, (stateAfter quiet s events n).sampler.task.state = .go) (count : Nat) :
    ∃ n, count ≤ acceptedBefore quiet s events n := by
  induction count with
  | zero => exact ⟨0, Nat.zero_le _⟩
  | succ count ih =>
    obtain ⟨n, enough⟩ := ih
    obtain ⟨m, more⟩ := one_more counted room live served main running n
    exact ⟨m, Nat.lt_of_le_of_lt enough more⟩

end Endless

/-- A running stream never dries up. After every admitted run, the whole may go on for ever, in
any order of its steps: while `stream_task` stays in the state `GO` and its loop goes on, and
nothing on the way to the host program is discarded or stays where it is for ever, the host
program reads more bytes than any number. -/
theorem stream_goes_on (counted : P.fifo.Counted) (room : 0 < P.fifo.capacity) (quiet : CInt)
    (buffers : Nat) (d : Device P) (beginTime : Int) (before : List BenchEvent)
    (admitted : Admitted quiet buffers d beginTime before) (events : Nat → BenchEvent)
    (served : Served quiet buffers (final quiet d beginTime before) events)
    (main : ∀ n, ∃ m, n ≤ m ∧ events m = .main)
    (running : ∀ n, (stateAfter quiet (final quiet d beginTime before) events n).sampler.task.state
      = .go) (count : Nat) :
    ∃ n, count ≤ (Host.reads (hostEffects
      (outputAfter quiet (final quiet d beginTime before) events n))).flatten.length := by
  have live := live_run admitted
  obtain ⟨n, enough⟩ := accepts_on counted room live served main running count
  obtain ⟨m, _, read⟩ := all_flow counted live served n
  refine ⟨m, enough.trans (le_trans ?_ read.length_le)⟩
  rw [allBefore, Account.before, List.length_append]
  exact Nat.le_add_left _ _

/-! ## Turns in rotation

A run on which everyone goes on exists: the parts of the whole take their turns in a fixed
order. -/

/-- The host program reads some of the bytes that the port holds. -/
theorem readPort_reads (quiet : CInt) {s : Datapath P} (looping : s.host.status = .looping)
    (stays : s.host.valueStdin ≠ charConst 'q') (some : s.inbound ≠ []) :
    (Host.reads (hostEffects (s.step quiet (.host (readPort s) false)).2)).flatten ≠ [] := by
  obtain ⟨reads, _, _⟩ := readPort_step quiet looping stays some
  have shown : hostEffects (s.step quiet (.host (readPort s) false)).2 =
      (s.host.step quiet (readPort s)).2 := by
    rw [Datapath.step, (hostStep_parts quiet s (readPort s) false).2.2]
    simp
  rw [shown, reads, List.flatten_singleton]
  simpa using some

/-- The turn at a time: the main loop, the host, a call of `BulkIn` and the host program take theirs
when they have something to do, and frames tick in between. -/
def rotation (n : Nat) (s : Datapath P) : BenchEvent :=
  match n % 5 with
  | 0 => .main
  | 1 => if s.outstanding ≠ [] then .collect else .frame
  | 2 => if s.finished ≠ 0 then .bulkIn else .frame
  | 3 => if s.inbound ≠ [] then .host (readPort s) false else .frame
  | _ => .frame

/-- What a turn of the rotation is. -/
theorem rotation_cases (n : Nat) (s : Datapath P) :
    rotation n s = .main ∨ rotation n s = .frame ∨
      (rotation n s = .collect ∧ s.outstanding ≠ []) ∨
      (rotation n s = .bulkIn ∧ s.finished ≠ 0) ∨
      (rotation n s = .host (readPort s) false ∧ s.inbound ≠ []) := by
  unfold rotation
  split
  · exact Or.inl rfl
  · split <;> simp_all
  · split <;> simp_all
  · split <;> simp_all
  · exact Or.inr (Or.inl rfl)

/-- Each turn of the rotation is allowed and discards nothing, and the host program goes on. -/
theorem rotation_turn (quiet : CInt) (buffers : Nat) {s : Datapath P} (live : Live s)
    (looping : s.host.status = .looping) (n : Nat) :
    s.Admits quiet buffers (rotation n s) ∧ s.KeepsSamples quiet (rotation n s) ∧
      (s.step quiet (rotation n s)).1.host.status = .looping := by
  rcases rotation_cases n s with turn | turn | ⟨turn, some⟩ | ⟨turn, some⟩ | ⟨turn, some⟩ <;>
    rw [turn]
  · exact ⟨trivial, trivial, looping⟩
  · exact ⟨trivial, trivial, looping⟩
  · refine ⟨some, trivial, ?_⟩
    rw [Datapath.step]
    split <;> exact looping
  · exact ⟨Nat.pos_of_ne_zero some, trivial, looping⟩
  · obtain ⟨reads, still, noFlush⟩ := readPort_step quiet looping (live.goesOn looping) some
    refine ⟨?_, ?_, ?_⟩
    · show (Host.reads (s.host.step quiet (readPort s)).2).flatten <+: s.inbound
      rw [reads, List.flatten_singleton]
      exact List.take_prefix 8 s.inbound
    · intro flushed
      rw [noFlush] at flushed
      contradiction
    · rw [Datapath.step, (hostStep_parts quiet s (readPort s) false).1]
      exact still

section Rotation

variable {quiet : CInt} {s : Datapath P}

/-- The run of the turns in rotation. -/
def turns (quiet : CInt) (s : Datapath P) : Nat → BenchEvent :=
  steering (Datapath.step quiet) rotation s

/-- The turn at a time. -/
theorem turns_eq (n : Nat) :
    turns quiet s n = rotation n (stateAfter quiet s (turns quiet s) n) := by
  rw [stateAfter, turns, stateAt_steering]
  rfl

/-- The state after a turn. -/
theorem turns_succ (n : Nat) : stateAfter quiet s (turns quiet s) (n + 1) =
    ((stateAfter quiet s (turns quiet s) n).step quiet
      (rotation n (stateAfter quiet s (turns quiet s) n))).1 := by
  rw [← turns_eq]
  exact stateAt_succ _ _ _ n

/-- The whole agrees on this run, and the host program does not leave its loop. -/
theorem turns_live (live : Live s) (looping : s.host.status = .looping) (n : Nat) :
    Live (stateAfter quiet s (turns quiet s) n) ∧
      (stateAfter quiet s (turns quiet s) n).host.status = .looping := by
  induction n with
  | zero => exact ⟨live, looping⟩
  | succ n ih =>
    obtain ⟨admits, _, still⟩ := rotation_turn quiet 0 ih.1 ih.2 n
    rw [turns_succ]
    exact ⟨live_step ih.1 admits, still⟩

/-- In the rotation of turns each of them comes again. -/
theorem turns_again (n : Nat) (place : Fin 5) :
    n ≤ 5 * n + place.val ∧ (5 * n + place.val) % 5 = place.val := by
  have inside := place.isLt
  omega

/-- The turns in rotation serve the way to the host program, and the main loop goes on. -/
theorem turns_served (quiet : CInt) (buffers : Nat) (live : Live s)
    (looping : s.host.status = .looping) :
    Served quiet buffers s (turns quiet s) ∧ ∀ n, ∃ m, n ≤ m ∧ turns quiet s m = .main := by
  have fine (n : Nat) : Live (stateAfter quiet s (turns quiet s) n) ∧ _ :=
    turns_live live looping n
  refine ⟨⟨?_, ?_, ?_, ?_, ?_, ?_⟩, ?_⟩
  · intro n
    rw [turns_eq]
    exact (rotation_turn quiet buffers (fine n).1 (fine n).2 n).1
  · intro n
    rw [turns_eq]
    exact (rotation_turn quiet buffers (fine n).1 (fine n).2 n).2.1
  · intro n
    obtain ⟨later, turn⟩ := turns_again n 4
    exact ⟨_, later, by rw [turns_eq, rotation, turn]; rfl⟩
  · intro n stays
    obtain ⟨later, turn⟩ := turns_again n 1
    refine ⟨_, later, ?_⟩
    show turns quiet s _ = .collect
    rw [turns_eq, rotation, turn]
    exact if_pos (stays _ later)
  · intro n stays
    obtain ⟨later, turn⟩ := turns_again n 2
    refine ⟨_, later, ?_⟩
    show turns quiet s _ = .bulkIn
    rw [turns_eq, rotation, turn]
    exact if_pos (Nat.ne_of_gt (stays _ later))
  · intro n stays
    obtain ⟨later, turn⟩ := turns_again n 3
    refine ⟨_, later, ?_⟩
    have some := stays _ later
    have event : turns quiet s (5 * n + (3 : Fin 5).val) =
        .host (readPort (stateAfter quiet s (turns quiet s) (5 * n + (3 : Fin 5).val))) false := by
      rw [turns_eq, rotation, turn]
      exact if_pos some
    show readAt quiet s (turns quiet s) _ ≠ []
    rw [readAt, event]
    exact readPort_reads quiet (fine _).2 ((fine _).1.goesOn (fine _).2) some
  · intro n
    obtain ⟨later, turn⟩ := turns_again n 0
    exact ⟨_, later, by rw [turns_eq, rotation, turn]; rfl⟩

/-- `stream_task` is in the state `GO` and has no key to act on. -/
def Running (sampler : Sampler P) : Prop :=
  sampler.task.state = .go ∧ P.fifo.items sampler.device.rxfifo = [] ∧
    ∀ c, sampler.point ≠ .echo c

/-- Without a key, the main loop stays in the state `GO`. -/
theorem running_main {sampler : Sampler P} (running : Running sampler) :
    Running sampler.main.1 := by
  obtain ⟨go, empty, noEcho⟩ := running
  cases atPoint : sampler.point with
  | top =>
    have still : sampler.task.switch.1.state = .go := by
      simp [Firmware.StreamTask.switch, go]
    rcases Firmware.main_top atPoint with ⟨c, _, result⟩ | ⟨_, result⟩
    · rw [result]
      exact ⟨still, empty, by simp⟩
    · rw [result]
      exact ⟨still, empty, by simp⟩
  | putword c place =>
    obtain ⟨queue, device, _⟩ := Firmware.putTx_eq sampler.device (Firmware.putwordArg c place)
    rw [Firmware.main_put atPoint]
    refine ⟨go, ?_, ?_⟩
    · show P.fifo.items (Firmware.putTx sampler.device (Firmware.putwordArg c place)).1.rxfifo = []
      rw [device]
      exact empty
    · intro other
      show Firmware.afterPut c place _ ≠ .echo other
      rcases Firmware.afterPut_inside c place
          (Firmware.putTx sampler.device (Firmware.putwordArg c place)).2 with inside | poll
      · intro atEcho
        rw [atEcho] at inside
        exact inside
      · rw [poll]
        simp
  | poll =>
    obtain ⟨point, result, next⟩ := Firmware.main_poll atPoint
    have nothing := Firmware.vcomGetchar_empty empty
    have silent : sampler.task.command eof = (sampler.task, none) := if_neg (not_not.2 rfl)
    rw [nothing, silent] at result next
    rw [result, next]
    exact ⟨go, empty, by simp⟩
  | echo c => exact absurd atPoint (noEcho c)

/-- No turn of the rotation brings a key. -/
theorem running_turn (counted : P.fifo.Counted) (quiet : CInt) {s : Datapath P}
    (running : Running s.sampler) (n : Nat) :
    Running (s.step quiet (rotation n s)).1.sampler := by
  have kept {event : BenchEvent} (other : event ≠ .main)
      (same : KeyFlow.received (s.step quiet event).1 = KeyFlow.received s) :
      Running (s.step quiet event).1.sampler := by
    obtain ⟨point, task⟩ := main_kept quiet s other
    rw [KeyFlow.received, KeyFlow.received] at same
    rw [Running, task, same, point]
    exact running
  rcases rotation_cases n s with turn | turn | ⟨turn, some⟩ | ⟨turn, some⟩ | ⟨turn, some⟩ <;>
    rw [turn]
  · exact running_main running
  · exact kept (by simp) (KeyFlow.handler_received counted s (by simp))
  · refine kept (by simp) ?_
    rw [Datapath.step]
    split <;> rfl
  · exact kept (by simp) (KeyFlow.handler_received counted _ (by simp))
  · refine kept (by simp) ?_
    rw [Datapath.step, KeyFlow.received, (hostStep_parts quiet s (readPort s) false).2.1]
    rfl

/-- Without a key, the state stays `GO`. -/
theorem turns_running (counted : P.fifo.Counted) (running : Running s.sampler) (n : Nat) :
    Running (stateAfter quiet s (turns quiet s) n).sampler := by
  induction n with
  | zero => exact running
  | succ n ih =>
    rw [turns_succ]
    exact running_turn counted quiet ih n

end Rotation

/-- The stream of the run above, when the packet of its first word is held by the endpoint. -/
theorem stream_goes_on_resetRun :
    let s := final 0 (Device.blank 64) 0 (resetRun.take 11)
    ∃ n, 1000 ≤ (Host.reads (hostEffects (outputAfter 0 s (turns 0 s) n))).flatten.length := by
  intro s
  have counted := Fifo.ofList_counted UInt8 64
  have admitted : Admitted 0 1 (Device.blank 64) 0 (resetRun.take 11) := by decide +kernel
  have running : Running s.sampler := by
    have atPoll : s.sampler.point = .poll := rfl
    exact ⟨by decide +kernel, by decide +kernel, by simp [atPoll]⟩
  obtain ⟨served, main⟩ := turns_served 0 1 (live_run admitted) (by decide +kernel)
  exact stream_goes_on counted (by decide) 0 1 (Device.blank 64) 0 (resetRun.take 11) admitted
    (turns 0 s) served main (fun n => (turns_running counted running n).1) 1000

end Olimex2378.Verif.Stream
