import Mathlib.Data.List.ModifyLast
import Olimex2378.Firmware.Sampler

/-!
# The sampler as a source of bytes

What `stream_task` sends, read off its loop alone: a round of the loop is one iteration, with
the byte that it fetches and how much of its word and of its echo `txfifo` takes. There are no
queues, packets and interrupts in it. The rounds of a run are noted step by step: it has begun
one for each switch statement that it has executed, and the last may still be under way.
-/

namespace Olimex2378.Firmware

open Run

/-- What a round finds. -/
structure Round where
  /-- What the iteration fetches, and whether its echo is taken. -/
  poll : Poll
  /-- How many bytes of its word are taken. -/
  room : Nat

/-- Every byte that the round puts is taken. -/
def Round.Full (round : Round) : Prop := 4 ≤ round.room ∧ round.poll.taken = true

/-- The condition can be evaluated. -/
instance Round.Full.decidable (round : Round) : Decidable round.Full :=
  inferInstanceAs (Decidable (4 ≤ round.room ∧ round.poll.taken = true))

/-- The bytes that a switch statement passes on. -/
def Sample.bytes (sample : Sample) : List UInt8 := (sample.putword.map wordBytes).getD []

/-- The bytes of an iteration that are taken. -/
def Round.taken (round : Round) (out : Iteration) : List UInt8 :=
  out.sample.bytes.take round.room ++
    if round.poll.taken then out.echo.toList.map toByte else []

/-- A round of the loop, and the bytes that it sends. -/
def StreamTask.send (t : StreamTask) (round : Round) : StreamTask × List UInt8 :=
  ((t.iterate round.poll).1, round.taken (t.iterate round.poll).2)

/-- The bytes that some rounds fetch. -/
def receivedIn (rounds : List Round) : List UInt8 :=
  rounds.filterMap fun round => round.poll.received

/-- The bytes that some rounds send. -/
def sentIn (rounds : List Round) : List UInt8 :=
  effects (trace StreamTask.send StreamTask.start rounds)

/-- The words that the iterations of a trace pass to `VCOM_putword`. -/
def words (history : List (Poll × Iteration)) : List CInt :=
  history.filterMap fun entry => entry.2.sample.putword

/-- The words that some rounds pass to `VCOM_putword`. -/
def passedIn (rounds : List Round) : List CInt :=
  words (trace StreamTask.iterate StreamTask.start (rounds.map Round.poll))

/-- More rounds fetch more bytes. -/
@[simp] theorem receivedIn_append (first second : List Round) :
    receivedIn (first ++ second) = receivedIn first ++ receivedIn second := by
  simp [receivedIn]

/-- What one more round fetches. -/
@[simp] theorem receivedIn_singleton (round : Round) :
    receivedIn [round] = round.poll.received.toList := by
  cases received : round.poll.received <;> simp [receivedIn, received]

/-- The variables of `stream_task` when some rounds are over. -/
def taskAfter (rounds : List Round) : StreamTask := exec StreamTask.send StreamTask.start rounds

/-- One more round changes them. -/
theorem taskAfter_snoc (rounds : List Round) (round : Round) :
    taskAfter (rounds ++ [round]) = ((taskAfter rounds).send round).1 := by
  simp [taskAfter]

/-- What one more round sends. -/
theorem sentIn_snoc (rounds : List Round) (round : Round) :
    sentIn (rounds ++ [round]) = sentIn rounds ++ ((taskAfter rounds).send round).2 := by
  simp [sentIn, taskAfter]

/-- Rounds change the variables as their iterations do. -/
theorem exec_send (t : StreamTask) (rounds : List Round) :
    exec StreamTask.send t rounds = exec StreamTask.iterate t (rounds.map Round.poll) := by
  induction rounds generalizing t with
  | nil => rfl
  | cons round rest ih => exact ih _

/-- The word of one more round does not depend on what the round finds. -/
theorem passedIn_snoc (rounds : List Round) (round : Round) :
    passedIn (rounds ++ [round]) =
      passedIn rounds ++ (taskAfter rounds).switch.2.putword.toList := by
  rw [taskAfter, exec_send]
  unfold passedIn words
  rw [List.map_append, trace_append, List.filterMap_append]
  cases word : (exec StreamTask.iterate StreamTask.start
      (rounds.map Round.poll)).switch.2.putword <;>
    simp [StreamTask.iterate, word]

/-- Only a word is passed to `VCOM_putword`. -/
theorem Sample.eq_word {sample : Sample} {c : CInt} (word : sample.putword = some c) :
    sample = .word c := by
  cases sample with
  | word other => exact congrArg Sample.word (Option.some.inj word)
  | silent => simp [Sample.putword] at word
  | invalid => simp [Sample.putword] at word

/-- A sample is a word or no byte. -/
theorem Sample.bytes_length (sample : Sample) : sample.bytes.length ≤ 4 := by
  cases sample with
  | word c => exact (wordBytes_length c).le
  | silent => exact Nat.zero_le 4
  | invalid => exact Nat.zero_le 4

/-- A round as it begins: nothing has been fetched or refused. -/
def Round.fresh : Round where
  poll := { received := none, taken := true }
  room := 4

variable {P : Platform}

/-- What a step tells of the rounds begun so far. The switch statement begins one; of the last
one, a refused put of its word tells how many bytes of the word are taken, the poll which byte
is fetched, and the echo whether it is taken. -/
def Sampler.note (s : Sampler P) (rounds : List Round) : SamplerEvent → List Round
  | .irq _ => rounds
  | .main =>
    match s.point with
    | .top => rounds ++ [Round.fresh]
    | .putword _ place =>
      if s.main.2.any Effect.refused then
        rounds.modifyLast fun round => { round with room := place.val }
      else rounds
    | .poll =>
      rounds.modifyLast fun round =>
        { round with poll := { round.poll with received := (fetched s.main.2).head? } }
    | .echo _ =>
      rounds.modifyLast fun round =>
        { round with poll := { round.poll with taken := !s.main.2.any Effect.refused } }

/-- The rounds that a run of the sampler has begun, each with what it has found so far. -/
def roundsOf (d : Device P) (events : List SamplerEvent) : List Round :=
  observe Sampler.step Sampler.note (Sampler.start d) [] events

/-- The step executes the switch statement. -/
def Sampler.begins (s : Sampler P) : SamplerEvent → Bool
  | .main =>
    match s.point with
    | .top => true
    | _ => false
  | .irq _ => false

/-- The number of iterations of its loop that a run of the sampler begins. -/
def iterations (s : Sampler P) : List SamplerEvent → Nat
  | [] => 0
  | event :: rest => (s.begins event).toNat + iterations (s.step event).1 rest

/-- How far a round has come that starts with some variables: where the loop is, its variables
there, what the round has found, and the bytes of it that have been taken. -/
inductive Progress (t : StreamTask) : Point → StreamTask → Round → List UInt8 → Prop
  /-- A part of the word has been put. -/
  | word (c : CInt) (place : Fin 4) (word : t.switch.2 = .word c) :
      Progress t (.putword c place) t.switch.1 Round.fresh ((wordBytes c).take place.val)
  /-- The word is behind. -/
  | poll (room : Nat) :
      Progress t .poll t.switch.1 ⟨⟨none, true⟩, room⟩ (t.switch.2.bytes.take room)
  /-- A byte has been fetched and is to be sent back. -/
  | echo (room : Nat) (task : StreamTask) (byte : UInt8) (c : CInt)
      (command : t.switch.1.command (ofByte byte) = (task, some c)) :
      Progress t (.echo c) task ⟨⟨some byte, true⟩, room⟩ (t.switch.2.bytes.take room)

/-- What the puts of a history have added, and that it has fetched the bytes of some rounds and
passed their words. -/
structure Told (history : List (SamplerEvent × List Effect)) (bytes : List UInt8)
    (rounds : List Round) : Prop where
  /-- The bytes that `txfifo` has taken. -/
  sends : accepted (effects history) = bytes
  /-- The bytes fetched. -/
  fetches : fetched (effects history) = receivedIn rounds
  /-- The words passed. -/
  passes : passed (effects history) = passedIn rounds

/-- The sampler is before its next round, or in the last of those begun. -/
inductive Stands (s : Sampler P) (history : List (SamplerEvent × List Effect)) :
    List Round → Prop
  /-- Every round is over. -/
  | before (rounds : List Round) (point : s.point = .top) (task : s.task = taskAfter rounds)
      (told : Told history (sentIn rounds) rounds) : Stands s history rounds
  /-- The last round is under way. -/
  | within (rounds : List Round) (now : Round) (bytes : List UInt8)
      (progress : Progress (taskAfter rounds) s.point s.task now bytes)
      (told : Told history (sentIn rounds ++ bytes) (rounds ++ [now])) :
      Stands s history (rounds ++ [now])

/-- A round whose byte is not sent back ends with its poll. -/
theorem send_silent (t : StreamTask) (received : Option UInt8) (room : Nat)
    (silent : (t.switch.1.command (Poll.mk received true).c).2 = none) :
    t.send ⟨⟨received, true⟩, room⟩ =
      ((t.switch.1.command (Poll.mk received true).c).1, t.switch.2.bytes.take room) := by
  have answer := answer_of_silent silent
  simp only [StreamTask.send, StreamTask.iterate, Round.taken, answer, silent]
  simp

/-- What has been taken of a round is a front of what it sends. -/
theorem Progress.front {t task : StreamTask} {point : Point} {now : Round} {bytes : List UInt8}
    (progress : Progress t point task now bytes) : bytes <+: (t.send now).2 := by
  cases progress with
  | word c place word =>
    have passes : t.switch.2.bytes = wordBytes c := by rw [word]; rfl
    rw [Round.fresh, send_silent t none 4 rfl, passes]
    exact List.take_prefix_take_left (by omega)
  | poll room =>
    rw [send_silent t none room rfl]
  | echo room task byte c command =>
    simp [StreamTask.send, StreamTask.iterate, Round.taken]

/-- The sampler has fetched the bytes of its rounds and passed their words, and `txfifo` has
taken a front of what they send. -/
theorem Stands.account {s : Sampler P} {history : List (SamplerEvent × List Effect)}
    {rounds : List Round} (stands : Stands s history rounds) :
    fetched (effects history) = receivedIn rounds ∧
      passed (effects history) = passedIn rounds ∧
      accepted (effects history) <+: sentIn rounds := by
  cases stands with
  | before _ point task told => exact ⟨told.fetches, told.passes, told.sends ▸ List.prefix_rfl⟩
  | within rounds now bytes progress told =>
    refine ⟨told.fetches, told.passes, ?_⟩
    rw [told.sends, sentIn_snoc]
    exact (List.prefix_append_right_inj _).2 progress.front

variable {s : Sampler P} {history : List (SamplerEvent × List Effect)} {rounds : List Round}

/-- What one more step tells. -/
theorem Told.snoc {bytes more : List UInt8} {later : List Round} {event : SamplerEvent}
    {out : List Effect} (told : Told history bytes rounds) (sends : accepted out = more)
    (fetches : receivedIn later = receivedIn rounds ++ fetched out)
    (passes : passedIn later = passedIn rounds ++ passed out) :
    Told (history ++ [(event, out)]) (bytes ++ more) later := by
  constructor
  · rw [effects_snoc, accepted_append, told.sends, sends]
  · rw [effects_snoc, fetched_append, told.fetches, fetches]
  · rw [effects_snoc, passed_append, told.passes, passes]

/-- A step that tells nothing new. -/
theorem Told.silent {bytes : List UInt8} {event : SamplerEvent} {out : List Effect}
    (told : Told history bytes rounds) (noByte : accepted out = []) (noFetch : fetched out = [])
    (noWord : passed out = []) : Told (history ++ [(event, out)]) bytes rounds := by
  have same : Told (history ++ [(event, out)]) (bytes ++ []) rounds :=
    told.snoc noByte (by simp [noFetch]) (by simp [noWord])
  rwa [List.append_nil] at same

/-- What a round has found does not change the word that it passes. -/
theorem passedIn_last (now found : Round) :
    passedIn (rounds ++ [found]) = passedIn (rounds ++ [now]) := by
  rw [passedIn_snoc, passedIn_snoc]

/-- A round that has sent all its bytes and is over is one of those behind the sampler. -/
theorem stands_over {next : Sampler P} {later : List (SamplerEvent × List Effect)}
    {bytes : List UInt8} (round : Round) (atTop : next.point = .top)
    (ends : (taskAfter rounds).send round = (next.task, bytes))
    (told : Told later (sentIn rounds ++ bytes) (rounds ++ [round])) :
    Stands next later (rounds ++ [round]) := by
  refine .before _ atTop ?_ ?_
  · rw [taskAfter_snoc, ends]
  · rw [sentIn_snoc, ends]
    exact told

/-- An interrupt stays inside its round. -/
theorem stands_irq (stands : Stands s history rounds) (source : Interrupt) :
    Stands (s.step (.irq source)).1 (history ++ [(.irq source, (s.step (.irq source)).2)])
      rounds := by
  obtain ⟨noByte, noWord, noFetch, _⟩ := isr_no_port s.device source
  cases stands with
  | before _ point task told => exact .before _ point task (told.silent noByte noFetch noWord)
  | within rounds now bytes progress told =>
    exact .within rounds now bytes progress (told.silent noByte noFetch noWord)

/-- The switch statement begins a round. -/
theorem stands_switch (atTop : s.point = .top) (task : s.task = taskAfter rounds)
    (told : Told history (sentIn rounds) rounds) :
    Stands s.main.1 (history ++ [(.main, s.main.2)]) (s.note rounds .main) := by
  have begins : s.note rounds .main = rounds ++ [Round.fresh] := by simp [Sampler.note, atTop]
  have next : s.task.switch.1 = (taskAfter rounds).switch.1 := by rw [task]
  rw [begins]
  rcases main_top atTop with ⟨c, word, result⟩ | ⟨silent, result⟩
  · rw [task] at word
    rw [result]
    refine .within rounds Round.fresh ((wordBytes c).take firstPlace.val) ?_ ?_
    · simp only [next]
      exact .word c firstPlace (Sample.eq_word word)
    · exact told.snoc rfl (by simp [Round.fresh]) (by simp [passedIn_snoc, word])
  · rw [task] at silent
    rw [result]
    have nothing : (taskAfter rounds).switch.2.bytes = [] := by simp [Sample.bytes, silent]
    refine .within rounds Round.fresh ((taskAfter rounds).switch.2.bytes.take 4) ?_ ?_
    · simp only [next]
      exact .poll 4
    · rw [nothing]
      exact told.snoc rfl (by simp [Round.fresh]) (by simp [passedIn_snoc, silent])

/-- The bytes of a word up to one of them. -/
theorem take_wordBytes_succ (c : CInt) (place : Fin 4) :
    (wordBytes c).take (place.val + 1) =
      (wordBytes c).take place.val ++ [toByte (putwordArg c place)] := by
  fin_cases place <;> rfl

/-- A put of a word stays inside its round, and tells it when it is refused. -/
theorem stands_put {c : CInt} {place : Fin 4} (atPut : s.point = .putword c place)
    (word : (taskAfter rounds).switch.2 = .word c)
    (task : s.task = (taskAfter rounds).switch.1)
    (told : Told history (sentIn rounds ++ (wordBytes c).take place.val)
      (rounds ++ [Round.fresh])) :
    Stands s.main.1 (history ++ [(.main, s.main.2)])
      (s.note (rounds ++ [Round.fresh]) .main) := by
  have samples : (taskAfter rounds).switch.2.bytes = wordBytes c := by
    rw [word]
    rfl
  have out : s.main.2 =
      [.txPut (toByte (putwordArg c place)) (putTx s.device (putwordArg c place)).2] := by
    rw [main_put atPut]
    rfl
  simp only [Sampler.note, atPut]
  rw [out, main_put atPut]
  cases taken : (putTx s.device (putwordArg c place)).2 with
  | true =>
    have stays : [Effect.txPut (toByte (putwordArg c place)) true].any Effect.refused = false := rfl
    have adds : Told (history ++
          [(.main, [.txPut (toByte (putwordArg c place)) true])])
        (sentIn rounds ++ (wordBytes c).take (place.val + 1)) (rounds ++ [Round.fresh]) := by
      rw [take_wordBytes_succ, ← List.append_assoc]
      exact told.snoc rfl (by simp) (by simp)
    simp only [stays, Bool.false_eq_true, ↓reduceIte]
    by_cases more : place.val + 1 < 4
    · have next : afterPut c place true = .putword c ⟨place.val + 1, more⟩ := by
        simp [afterPut, more]
      refine .within rounds Round.fresh ((wordBytes c).take (place.val + 1)) ?_ adds
      simp only [next, task]
      exact .word c ⟨place.val + 1, more⟩ word
    · have next : afterPut c place true = .poll := by simp [afterPut, more]
      have last : place.val + 1 = 4 := by omega
      rw [last] at adds
      refine .within rounds Round.fresh ((wordBytes c).take 4) ?_ adds
      simp only [next, task, ← samples]
      exact .poll 4
  | false =>
    have ends : [Effect.txPut (toByte (putwordArg c place)) false].any Effect.refused = true := rfl
    simp only [ends, ↓reduceIte, afterPut_refused, List.modifyLast_concat]
    refine .within rounds ⟨⟨none, true⟩, place.val⟩ ((wordBytes c).take place.val) ?_ ?_
    · simp only [task, ← samples]
      exact .poll place.val
    · rw [← List.append_nil ((wordBytes c).take place.val), ← List.append_assoc]
      exact told.snoc rfl (by simp [Round.fresh]) (by simp [passedIn_last Round.fresh])

/-- A poll ends its round, or finds a byte to send back. -/
theorem stands_poll (atPoll : s.point = .poll) (room : Nat)
    (task : s.task = (taskAfter rounds).switch.1)
    (told : Told history (sentIn rounds ++ (taskAfter rounds).switch.2.bytes.take room)
      (rounds ++ [⟨⟨none, true⟩, room⟩])) :
    Stands s.main.1 (history ++ [(.main, s.main.2)])
      (s.note (rounds ++ [⟨⟨none, true⟩, room⟩]) .main) := by
  obtain ⟨point, result, next⟩ := main_poll atPoll
  simp only [Sampler.note, atPoll, List.modifyLast_concat]
  rw [result]
  rw [task] at next ⊢
  cases received : P.fifo.items s.device.rxfifo with
  | nil =>
    rw [vcomGetchar_empty received] at next ⊢
    exact stands_over ⟨⟨none, true⟩, room⟩ next (send_silent (taskAfter rounds) none room rfl)
      (told.silent rfl rfl rfl)
  | cons byte rest =>
    obtain ⟨queue, taken, _⟩ := vcomGetchar_takes received
    have head : (fetched [Effect.getchar (ofByte byte)]).head? = some byte := by simp
    simp only [taken, head] at next ⊢
    have more : Told (history ++ [(.main, [.getchar (ofByte byte)])])
        (sentIn rounds ++ (taskAfter rounds).switch.2.bytes.take room ++ [])
        (rounds ++ [⟨⟨some byte, true⟩, room⟩]) :=
      told.snoc rfl (by simp) (by simp [passedIn_last ⟨⟨none, true⟩, room⟩])
    rw [List.append_nil] at more
    cases answer : ((taskAfter rounds).switch.1.command (ofByte byte)).2 with
    | none =>
      rw [answer] at next
      exact stands_over ⟨⟨some byte, true⟩, room⟩ next
        (send_silent (taskAfter rounds) (some byte) room answer) more
    | some c =>
      rw [answer] at next
      refine .within rounds ⟨⟨some byte, true⟩, room⟩
        ((taskAfter rounds).switch.2.bytes.take room) ?_ more
      simp only [next]
      exact .echo room _ byte c (by rw [← answer])

/-- An echo ends its round. -/
theorem stands_echo {c : CInt} {byte : UInt8} (atEcho : s.point = .echo c) (room : Nat)
    (command : (taskAfter rounds).switch.1.command (ofByte byte) = (s.task, some c))
    (told : Told history (sentIn rounds ++ (taskAfter rounds).switch.2.bytes.take room)
      (rounds ++ [⟨⟨some byte, true⟩, room⟩])) :
    Stands s.main.1 (history ++ [(.main, s.main.2)])
      (s.note (rounds ++ [⟨⟨some byte, true⟩, room⟩]) .main) := by
  have answer : (taskAfter rounds).switch.1.answer ⟨some byte, (putTx s.device c).2⟩ =
      (s.task.echoed (if (putTx s.device c).2 then c else eof), some c) := by
    simp [StreamTask.answer, Poll.c, command]
  have noted : s.note (rounds ++ [⟨⟨some byte, true⟩, room⟩]) .main =
      rounds ++ [⟨⟨some byte, (putTx s.device c).2⟩, room⟩] := by
    simp only [Sampler.note, atEcho, List.modifyLast_concat]
    rw [main_echo atEcho]
    cases (putTx s.device c).2 <;> rfl
  have ends : (taskAfter rounds).send ⟨⟨some byte, (putTx s.device c).2⟩, room⟩ =
      (s.task.echoed (vcomPutchar s.device c).2, (taskAfter rounds).switch.2.bytes.take room ++
        if (putTx s.device c).2 then [toByte c] else []) := by
    simp [StreamTask.send, StreamTask.iterate, Round.taken, answer, vcomPutchar]
  rw [noted, main_echo atEcho]
  refine stands_over _ rfl ends ?_
  rw [← List.append_assoc]
  exact told.snoc (by simp) (by simp) (by simp [passedIn_last ⟨⟨some byte, true⟩, room⟩])

/-- Every step stays inside its round, begins the next one or ends it. -/
theorem stands_step (stands : Stands s history rounds) (event : SamplerEvent) :
    Stands (s.step event).1 (history ++ [(event, (s.step event).2)]) (s.note rounds event) := by
  cases event with
  | irq source => exact stands_irq stands source
  | main =>
    cases stands with
    | before _ point task told => exact stands_switch point task told
    | within rounds now bytes progress told =>
      generalize atPoint : s.point = point at progress
      generalize atTask : s.task = task at progress
      cases progress with
      | word c place word => exact stands_put atPoint word atTask told
      | poll room => exact stands_poll atPoint room atTask told
      | echo room task byte c command => exact stands_echo atPoint room (atTask ▸ command) told

/-- However interrupts fall, the sampler runs rounds of its loop: it fetches the bytes that
they fetch and passes the words that they pass, and `txfifo` takes a front of what they send. -/
theorem sampler_rounds (d : Device P) (events : List SamplerEvent) :
    let out := effects (trace Sampler.step (Sampler.start d) events)
    fetched out = receivedIn (roundsOf d events) ∧ passed out = passedIn (roundsOf d events) ∧
      accepted out <+: sentIn (roundsOf d events) :=
  Stands.account (observed_invariant Stands (.before [] rfl rfl ⟨rfl, rfl, rfl⟩)
    (fun _ _ _ event stands => stands_step stands event) events)

/-- A property of every round stays one when the last round is changed and keeps it. -/
theorem forall_modifyLast {holds : Round → Prop} {change : Round → Round}
    (all : ∀ round ∈ rounds, holds round) (keeps : ∀ round, holds round → holds (change round)) :
    ∀ round ∈ rounds.modifyLast change, holds round := by
  rcases List.eq_nil_or_concat rounds with rfl | ⟨earlier, last, rfl⟩
  · exact all
  · rw [List.concat_eq_append] at all ⊢
    rw [List.forall_mem_append] at all
    rw [List.modifyLast_concat, List.forall_mem_append]
    exact ⟨all.1, by simpa using keeps last (all.2 last (List.mem_singleton_self last))⟩

/-- A step that refuses no put leaves full rounds full. -/
theorem full_note (s : Sampler P) (full : ∀ round ∈ rounds, round.Full) (event : SamplerEvent)
    (none : ∀ effect ∈ (s.step event).2, effect.refused = false) :
    ∀ round ∈ s.note rounds event, round.Full := by
  cases event with
  | irq source => exact full
  | main =>
    have quiet : s.main.2.any Effect.refused = false := List.any_eq_false.2 fun effect member => by
      simp [none effect member]
    cases atPoint : s.point with
    | top =>
      simp only [Sampler.note, atPoint]
      rw [List.forall_mem_append]
      exact ⟨full, by simp [Round.fresh, Round.Full]⟩
    | putword c place =>
      simp only [Sampler.note, atPoint, quiet]
      exact full
    | poll =>
      simp only [Sampler.note, atPoint]
      exact forall_modifyLast full (fun round holds => holds)
    | echo c =>
      simp only [Sampler.note, atPoint, quiet]
      exact forall_modifyLast full (fun round holds => ⟨holds.1, rfl⟩)

/-- In a run that refuses no put every round is full. -/
theorem rounds_full (d : Device P) (events : List SamplerEvent)
    (none : ∀ effect ∈ effects (trace Sampler.step (Sampler.start d) events),
      effect.refused = false) :
    ∀ round ∈ roundsOf d events, round.Full := by
  refine observed_invariant (fun _ history (rounds : List Round) =>
    (∀ effect ∈ effects history, Effect.refused effect = false) → ∀ round ∈ rounds, round.Full)
    (fun _ => by simp) ?_ events none
  intro s history rounds event holds quiet
  rw [effects_snoc, List.forall_mem_append] at quiet
  exact full_note s (holds quiet.1) event quiet.2

/-- A step begins a round when it executes the switch statement, and else it begins none. -/
theorem length_note (s : Sampler P) (rounds : List Round) (event : SamplerEvent) :
    (s.note rounds event).length = rounds.length + (s.begins event).toNat := by
  have same (change : Round → Round) : (rounds.modifyLast change).length = rounds.length := by
    rcases List.eq_nil_or_concat rounds with rfl | ⟨earlier, last, rfl⟩
    · rfl
    · simp [List.modifyLast_concat]
  cases event with
  | irq source => rfl
  | main =>
    cases atPoint : s.point with
    | top => simp [Sampler.note, Sampler.begins, atPoint]
    | putword c place =>
      simp only [Sampler.note, Sampler.begins, atPoint]
      split <;> simp [same]
    | poll => simp [Sampler.note, Sampler.begins, atPoint, same]
    | echo c => simp [Sampler.note, Sampler.begins, atPoint, same]

/-- A run has begun as many rounds as iterations of its loop. -/
theorem rounds_begun (d : Device P) (events : List SamplerEvent) :
    (roundsOf d events).length = iterations (Sampler.start d) events := by
  have each (s : Sampler P) (rounds : List Round) :
      (observe Sampler.step Sampler.note s rounds events).length =
        rounds.length + iterations s events := by
    induction events generalizing s rounds with
    | nil => rfl
    | cons event rest ih =>
      rw [observe, ih, length_note, iterations]
      omega
  simpa [roundsOf] using each (Sampler.start d) []

end Olimex2378.Firmware
