import Olimex2378.Verif.Counting

/-!
# Words that were dropped

A queue that is full when a word is to be put takes no byte of it, and the word is missing on
the screen. As long as no queue fills in the middle of a word this is all that happens: what is
printed are words that the main loop has passed to `VCOM_putword`, in their order, and never
another number.
-/

namespace Olimex2378.Verif.Gaps

open Bench Run Delivery Bytes
open Firmware (Device Platform Sampler SamplerEvent wordBytes commandBytes receivedIn passedIn
  passed accepted)

variable {P : Platform}

/-- No queue fills in the middle of a word. -/
def Untorn (s : Datapath P) (event : BenchEvent) : Prop :=
  ∀ own ∈ samplerActs s event, s.sampler.Roomy own

/-- When only commands are sent, only commands wait in the bulk OUT endpoint. -/
theorem commands_wait (counted : P.fifo.Counted) {quiet : CInt} {d : Device P} {beginTime : Int}
    {events : List BenchEvent}
    (typed : ∀ byte ∈ sent (output quiet d beginTime events), byte ∈ commandBytes) :
    Along (Datapath.step quiet)
      (fun s _ => ∀ byte ∈ s.waiting.flatMap Firmware.Packet.bytes, byte ∈ commandBytes)
      (Datapath.start d beginTime) events := by
  rcases along_or_refused (Datapath.step quiet)
      (fun s _ => ∀ byte ∈ s.waiting.flatMap Firmware.Packet.bytes, byte ∈ commandBytes)
      (Datapath.start d beginTime) events with met | ⟨before, event, after, rfl, _, refused⟩
  · exact met
  · apply absurd _ refused
    intro byte waits
    apply typed
    have arrived := (commands_account counted quiet d beginTime before).1
    have inside : byte ∈ sent (output quiet d beginTime before) := by
      apply arrived.subset
      simp only [List.mem_append]
      exact Or.inr (Or.inl (Or.inr waits))
    rw [output, trace_append, effects_append, sent_append]
    exact List.mem_append_left _ inside

/-- A whole number of words is a front of some words and a part of another only as a front of
the words. -/
theorem front_of_words {bytes rest : List UInt8} {words : List CInt} (short : rest.length < 4)
    (whole : bytes.length % 4 = 0) (front : bytes <+: words.flatMap wordBytes ++ rest) :
    bytes <+: words.flatMap wordBytes := by
  have length := Alignment.wholeWords_length words
  have fits := front.length_le
  rw [List.length_append] at fits
  apply List.prefix_of_prefix_length_le front (List.prefix_append _ _)
  omega

/-- The bytes accepted are the stream of the sampler. -/
theorem stream_accepted (d : Device P) (own : List SamplerEvent) :
    Alignment.stream (exec Sampler.step (Sampler.start d) own)
        (trace Sampler.step (Sampler.start d) own) =
      accepted (effects (trace Sampler.step (Sampler.start d) own)) := by
  refine invariant_of_forall (fun s history =>
    Alignment.stream s history = accepted (effects history)) ?_ ?_ own
  · simp [Alignment.stream, Sampler.start]
  · intro s history event holds
    rw [Alignment.stream_step, holds, effects_snoc, Firmware.accepted_append]

/-- The device accepts whole words and the front of one more. -/
theorem device_words (counted : P.fifo.Counted) {quiet : CInt} {d : Device P} {beginTime : Int}
    {events : List BenchEvent}
    (untorn : Along (Datapath.step quiet) Untorn (Datapath.start d beginTime) events)
    (typed : ∀ byte ∈ sent (output quiet d beginTime events), byte ∈ commandBytes) :
    let out := output quiet d beginTime events
    ∃ (kept : List CInt) (rest : List UInt8),
      accepted (deviceEffects out) = kept.flatMap wordBytes ++ rest ∧ rest.length < 4 ∧
      kept.Sublist (passed (deviceEffects out)) := by
  intro out
  let own := Conversation.deviceEvents quiet d beginTime events
  have effects := Conversation.deviceEffects_run quiet d beginTime events
  have admitted : Along Sampler.step Sampler.Admits (Sampler.start d) own := by
    refine (samplerPart P quiet).along_run ?_ (commands_wait counted typed)
    intro s event waits
    cases event with
    | bulkOut =>
      refine ⟨?_, trivial⟩
      intro byte member
      apply waits
      cases waiting : s.waiting with
      | nil =>
        rw [waiting] at member
        exact absurd member List.not_mem_nil
      | cons packet others =>
        rw [waiting] at member
        exact List.mem_append_left _ member
    | collect => trivial
    | transfer count => trivial
    | host poll taken => trivial
    | _ => exact ⟨trivial, trivial⟩
  have roomy : Along Sampler.step Sampler.Roomy (Sampler.start d) own := by
    refine (samplerPart P quiet).along_run ?_ untorn
    intro s event holds
    cases event with
    | collect => trivial
    | transfer count => trivial
    | host poll taken => trivial
    | _ => exact ⟨holds _ List.mem_cons_self, trivial⟩
  obtain ⟨earlier, kept, words, sub, bytes⟩ := Alignment.aligned_run counted d admitted roomy
  rw [← effects] at words
  rw [stream_accepted, ← effects] at bytes
  refine ⟨kept, _, bytes, ?_, ?_⟩
  · generalize (exec Sampler.step (Sampler.start d) own).point = point
    cases point with
    | putword c place => simp [Alignment.begun]
    | _ => exact Nat.zero_lt_succ 3
  · exact words ▸ sub.trans (List.sublist_append_left _ _)

/-- The words that the host program prints, when only commands have been sent. -/
theorem some_words_printed (counted : P.fifo.Counted) {buffers : Nat} {d : Device P}
    {beginTime : Int} {events : List BenchEvent} (admitted : Admitted 0 buffers d beginTime events)
    (keeps : Along (Datapath.step 0) (Datapath.KeepsSamples 0) (Datapath.start d beginTime) events)
    (untorn : Along (Datapath.step 0) Untorn (Datapath.start d beginTime) events)
    (whole : ∀ piece ∈ Host.reads (hostEffects (output 0 d beginTime events)), piece.length = 4)
    (typed : ∀ byte ∈ sent (output 0 d beginTime events), byte ∈ commandBytes) :
    let out := output 0 d beginTime events
    (Host.printed (hostEffects out)).Sublist ((passed (deviceEffects out)).map BitVec.toNat) ∧
      (Host.printed (hostEffects out)).length = (Host.reads (hostEffects out)).length ∧
      Host.logged (hostEffects out) = Host.printed (hostEffects out) := by
  intro out
  obtain ⟨kept, rest, bytes, short, sub⟩ := device_words counted untorn typed
  have front := (Conversation.read_accepted admitted).2 keeps
  rw [bytes] at front
  have length := length_flatten_of_whole whole
  obtain ⟨screen, enough⟩ := Counting.front_shown whole (front_of_words short (by omega) front)
  obtain ⟨own, shows⟩ := Conversation.host_run 0 d beginTime events
  obtain ⟨prints, logs⟩ := HostWords.run_shows rfl (Host.DatapathTask.start beginTime) own
  rw [← shows] at prints logs
  have printed := prints.trans screen
  refine ⟨?_, ?_, logs.trans prints.symm⟩
  · rw [printed]
    exact ((List.take_sublist _ kept).trans sub).map _
  · rw [printed, List.length_map, List.length_take, Nat.min_eq_left enough]

/-- The screen shows no wrong number. In every admitted run in which only commands and `q` are
typed, nothing on its way to the host is discarded, no queue fills in the middle of a word and
each read returns one word, the numbers printed and logged, one for each read, are found in order
among the words that the main loop has passed to `VCOM_putword`; and these are the words of the
rounds that it has begun, which have fetched keys that were typed, in their order. -/
theorem host_never_misreads (counted : P.fifo.Counted) (buffers : Nat) (d : Device P)
    (beginTime : Int) (events : List BenchEvent)
    (admitted : Admitted 0 buffers d beginTime events)
    (keeps : Along (Datapath.step 0) (Datapath.KeepsSamples 0) (Datapath.start d beginTime) events)
    (untorn : Along (Datapath.step 0) Untorn (Datapath.start d beginTime) events)
    (whole : ∀ piece ∈ Host.reads (hostEffects (output 0 d beginTime events)), piece.length = 4)
    (typed : Counting.OnlyCommands (output 0 d beginTime events)) :
    let out := output 0 d beginTime events
    let own := Conversation.rounds 0 d beginTime events
    (Host.printed (hostEffects out)).Sublist ((passed (deviceEffects out)).map BitVec.toNat) ∧
      (Host.printed (hostEffects out)).length = (Host.reads (hostEffects out)).length ∧
      passed (deviceEffects out) = passedIn own ∧
      (receivedIn own).Sublist (sent out) ∧
      Host.logged (hostEffects out) = Host.printed (hostEffects out) := by
  intro out own
  obtain ⟨fetches, passes, _, _⟩ := Conversation.rounds_account 0 d beginTime events
  have received := (Conversation.fetched_sent counted 0 d beginTime events).1
  obtain ⟨before, after, rfl, commands, front, reads, prints, logs⟩ :=
    Counting.front_of_commands typed
  obtain ⟨shown, count, logged⟩ := some_words_printed counted
    ((along_append _ _ _ _ _).1 admitted).1 ((along_append _ _ _ _ _).1 keeps).1
    ((along_append _ _ _ _ _).1 untorn).1 (reads ▸ whole) commands
  have earlier : passed (deviceEffects (output 0 d beginTime before)) <+:
      passed (deviceEffects out) := (front.filterMap _).filterMap _
  refine ⟨?_, ?_, passes, fetches ▸ received, ?_⟩
  · rw [prints]
    exact shown.trans (earlier.sublist.map _)
  · rw [prints, reads, count]
  · rw [logs, prints, logged]

/-- The condition can be evaluated. -/
instance roomyDecidable : ∀ (s : Sampler P) (event : SamplerEvent), Decidable (s.Roomy event)
  | _, .irq _ => isTrue trivial
  | ⟨device, _, .putword _ place⟩, .main =>
    inferInstanceAs (Decidable (place ≠ Firmware.firstPlace →
      (P.fifo.items device.txfifo).length < P.fifo.capacity))
  | ⟨_, _, .top⟩, .main => isTrue trivial
  | ⟨_, _, .poll⟩, .main => isTrue trivial
  | ⟨_, _, .echo _⟩, .main => isTrue trivial

/-- The condition can be evaluated. -/
instance untornDecidable (s : Datapath P) (event : BenchEvent) : Decidable (Untorn s event) :=
  inferInstanceAs (Decidable (∀ own ∈ samplerActs s event, s.sampler.Roomy own))

/-- A run whose host program reads nothing until the queue has refused the seventeenth word. -/
def droppedRun : List BenchEvent :=
  [Conversation.keyTyped 'g'.toUInt8, .transfer 1, .bulkOut] ++ List.replicate 101 .main ++
    [.frame, .collect, .bulkIn, .collect] ++ List.replicate 6 .main ++ [.bulkIn, .frame, .collect] ++
    (List.range 16).map (fun i => Counting.wordRead (UInt8.ofNat (i + 1))) ++
    [Counting.wordRead 18]

/-- The seventeenth word of this run is missing on the screen, and no other. -/
theorem host_never_misreads_droppedRun :
    let out := output 0 (Device.blank 64) 0 droppedRun
    let own := Conversation.rounds 0 (Device.blank 64) 0 droppedRun
    (Host.printed (hostEffects out)).Sublist ((passed (deviceEffects out)).map BitVec.toNat) ∧
      (Host.printed (hostEffects out)).length = (Host.reads (hostEffects out)).length ∧
      passed (deviceEffects out) = passedIn own ∧
      (receivedIn own).Sublist (sent out) ∧
      Host.logged (hostEffects out) = Host.printed (hostEffects out) := by
  have admitted : Admitted 0 1 (Device.blank 64) 0 droppedRun := by decide +kernel
  have keeps := (samples_account admitted).2.1 (by decide +kernel)
  exact host_never_misreads (Fifo.ofList_counted UInt8 64) 1 (Device.blank 64) 0 droppedRun
    admitted keeps (by decide +kernel) (by decide +kernel)
    (by unfold Counting.OnlyCommands; decide +kernel)

example : Host.printed (hostEffects (output 0 (Device.blank 64) 0 droppedRun)) =
    (List.range 16).map (· + 1) ++ [18] ∧
    passed (deviceEffects (output 0 (Device.blank 64) 0 droppedRun)) =
      (List.range 18).map (fun i => BitVec.ofNat 32 (i + 1)) := by
  decide +kernel

end Olimex2378.Verif.Gaps
