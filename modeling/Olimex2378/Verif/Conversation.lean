import Olimex2378.Firmware.Rounds
import Olimex2378.Verif.Delivery
import Olimex2378.Verif.HostWords

/-!
# What the host hears

The two programs with their queues, packets, interrupts and ports between them, compared with
the sampler loop alone. Whatever order the steps come in, the host program reads what the loop
sends in the rounds that the main loop has begun, for keys that were typed, in their order; and
as long as nothing is discarded it reads a front of it for a front of the keys. When it reads
word by word, what it prints are therefore the numbers that the loop counts.
-/

namespace Olimex2378.Verif.Conversation

open Bench Run Delivery
open Firmware (Device Platform Sampler SamplerEvent StreamTask Round receivedIn sentIn passedIn
  accepted fetched passed)

variable {P : Platform}

/-- The device's steps in a run of the whole. -/
def deviceEvents (quiet : CInt) (d : Device P) (beginTime : Int) (events : List BenchEvent) :
    List SamplerEvent := (samplerPart P quiet).inputs (Datapath.start d beginTime) events

/-- The rounds of the sampler loop that a run of the whole has begun, each with what it has
found so far. -/
def rounds (quiet : CInt) (d : Device P) (beginTime : Int) (events : List BenchEvent) :
    List Round := Firmware.roundsOf d (deviceEvents quiet d beginTime events)

/-- The device's effects in a run of the whole are those of its own steps. -/
theorem deviceEffects_run (quiet : CInt) (d : Device P) (beginTime : Int)
    (events : List BenchEvent) :
    deviceEffects (output quiet d beginTime events) =
      effects (trace Sampler.step (Sampler.start d) (deviceEvents quiet d beginTime events)) :=
  (samplerPart P quiet).effects_run (Datapath.start d beginTime) events

/-- The device has fetched the bytes of its rounds and passed their words, `txfifo` has taken a
front of what they send, and they are full when no put was refused. -/
theorem rounds_account (quiet : CInt) (d : Device P) (beginTime : Int)
    (events : List BenchEvent) :
    let out := deviceEffects (output quiet d beginTime events)
    let own := rounds quiet d beginTime events
    fetched out = receivedIn own ∧ passed out = passedIn own ∧ accepted out <+: sentIn own ∧
      ((∀ effect ∈ out, effect.refused = false) → ∀ round ∈ own, round.Full) := by
  intro out own
  obtain ⟨fetches, passes, sends⟩ :=
    Firmware.sampler_rounds d (deviceEvents quiet d beginTime events)
  have full := Firmware.rounds_full d (deviceEvents quiet d beginTime events)
  rw [← deviceEffects_run] at fetches passes sends full
  exact ⟨fetches, passes, sends, full⟩

/-- The host program's steps in a run of the whole are a run of its own. -/
theorem host_run (quiet : CInt) (d : Device P) (beginTime : Int) (events : List BenchEvent) :
    ∃ polls, hostEffects (output quiet d beginTime events) =
      effects (trace (Host.DatapathTask.step quiet) (Host.DatapathTask.start beginTime) polls) :=
  ⟨(hostPart P quiet).inputs (Datapath.start d beginTime) events,
    (hostPart P quiet).effects_run (Datapath.start d beginTime) events⟩

/-- Of the bytes accepted, what the host program has read is a part in order, and a front when
nothing has been discarded. -/
theorem read_accepted {quiet : CInt} {buffers : Nat} {d : Device P} {beginTime : Int}
    {events : List BenchEvent} (admitted : Admitted quiet buffers d beginTime events) :
    let out := output quiet d beginTime events
    (Host.reads (hostEffects out)).flatten.Sublist (accepted (deviceEffects out)) ∧
      (Along (Datapath.step quiet) (Datapath.KeepsSamples quiet) (Datapath.start d beginTime)
          events →
        (Host.reads (hostEffects out)).flatten <+: accepted (deviceEffects out)) := by
  obtain ⟨fewer, same⟩ := samples_account admitted
  refine ⟨(List.sublist_append_left _ _).trans fewer, ?_⟩
  intro keeps
  rw [← same.2 keeps]
  exact List.prefix_append _ _

/-- Of the bytes sent, what the device has fetched is a part in order, and a front when nothing
has been discarded. -/
theorem fetched_sent (counted : P.fifo.Counted) (quiet : CInt) (d : Device P) (beginTime : Int)
    (events : List BenchEvent) :
    let out := output quiet d beginTime events
    (fetched (deviceEffects out)).Sublist (sent out) ∧
      (Along (Datapath.step quiet) (Datapath.KeepsCommands quiet) (Datapath.start d beginTime)
          events →
        fetched (deviceEffects out) <+: sent out) := by
  obtain ⟨fewer, same⟩ := commands_account counted quiet d beginTime events
  refine ⟨(List.sublist_append_left _ _).trans fewer, ?_⟩
  intro keeps
  rw [← same.2 keeps]
  exact List.prefix_append _ _

/-- The host hears the loop. In every admitted run the rounds of the sampler loop are as many as
the iterations that the main loop has begun; they fetch what the device has fetched and pass the
words that it has passed. The bytes they fetch were taken from the host program in this order,
and what the host program has read is found in order in what they send. When nothing on its way
to the device has been discarded they fetch the first bytes taken from the host program, when
nothing on its way to the host has been discarded it has read a front of what they send, and a
round has lost a part of its word or its echo only when a put was refused. -/
theorem host_hears_the_loop (counted : P.fifo.Counted) (quiet : CInt) (buffers : Nat)
    (d : Device P) (beginTime : Int) (events : List BenchEvent)
    (admitted : Admitted quiet buffers d beginTime events) :
    let out := output quiet d beginTime events
    let heard := (Host.reads (hostEffects out)).flatten
    let own := rounds quiet d beginTime events
    own.length = Firmware.iterations (Sampler.start d) (deviceEvents quiet d beginTime events) ∧
      receivedIn own = fetched (deviceEffects out) ∧
      passedIn own = passed (deviceEffects out) ∧
      (receivedIn own).Sublist (sent out) ∧
      heard.Sublist (sentIn own) ∧
      (Along (Datapath.step quiet) (Datapath.KeepsCommands quiet) (Datapath.start d beginTime)
          events → receivedIn own <+: sent out) ∧
      (Along (Datapath.step quiet) (Datapath.KeepsSamples quiet) (Datapath.start d beginTime)
          events → heard <+: sentIn own) ∧
      ((∀ effect ∈ deviceEffects out, effect.refused = false) →
        ∀ round ∈ own, round.Full) := by
  intro out heard own
  obtain ⟨fetches, passes, sends, full⟩ := rounds_account quiet d beginTime events
  obtain ⟨some, first⟩ := fetched_sent counted quiet d beginTime events
  obtain ⟨part, front⟩ := read_accepted admitted
  rw [fetches] at some first
  exact ⟨Firmware.rounds_begun d _, fetches.symm, passes.symm, some, part.trans sends.sublist,
    first, fun keeps => (front keeps).trans sends, full⟩

/-- An iteration of the host program in which a key is typed. -/
def keyTyped (key : UInt8) : BenchEvent :=
  .host { stdin := .key key, flush := 0, now := 0, serial := .empty } true

/-- A run in which the first sample and the echo of an `x` are read. -/
def echoRun : List BenchEvent :=
  [keyTyped 'g'.toUInt8, keyTyped 'x'.toUInt8, .transfer 1, .bulkOut, .main, .main,
    .transfer 1, .bulkOut] ++ List.replicate 7 .main ++
    [.frame, .collect,
      .host { stdin := .empty, flush := 0, now := 0,
              serial := .data [1, 0, 0, 0, 'x'.toUInt8] (by decide) (by decide) } true]

/-- The rounds of this run, in which nothing is discarded or refused. -/
theorem host_hears_the_loop_echoRun :
    let out := output 0 (Device.blank 64) 0 echoRun
    let heard := (Host.reads (hostEffects out)).flatten
    let own := rounds 0 (Device.blank 64) 0 echoRun
    receivedIn own <+: sent out ∧ heard <+: sentIn own ∧ ∀ round ∈ own, round.Full := by
  intro out heard own
  have counted := Fifo.ofList_counted UInt8 64
  have admitted : Admitted 0 1 (Device.blank 64) 0 echoRun := by decide +kernel
  have keys := (commands_account counted 0 (Device.blank 64) 0 echoRun).2.1 (by decide +kernel)
  have samples := (samples_account admitted).2.1 (by decide +kernel)
  obtain ⟨_, _, _, _, _, first, front, full⟩ :=
    host_hears_the_loop counted 0 1 (Device.blank 64) 0 echoRun admitted
  exact ⟨first keys, front samples, full (by decide +kernel)⟩

example : receivedIn (rounds 0 (Device.blank 64) 0 echoRun) = ['g'.toUInt8, 'x'.toUInt8] ∧
    sentIn (rounds 0 (Device.blank 64) 0 echoRun) = [1, 0, 0, 0, 'x'.toUInt8] ∧
    (Host.reads (hostEffects (output 0 (Device.blank 64) 0 echoRun))).flatten =
      [1, 0, 0, 0, 'x'.toUInt8] := by
  decide +kernel

end Olimex2378.Verif.Conversation
