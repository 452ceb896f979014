import Olimex2378.Firmware.StreamTask

/-!
# The sampler

`stream_task` running over the transport, one call of the port at a time, so that an
interrupt can fall before each of its puts, also between two puts of one word. Without
interrupts a word's steps are `vcomPutword`.
-/

namespace Olimex2378.Firmware

open Run

variable {P : Platform}

/-- What the main loop does next. -/
inductive Point
  /-- The switch statement. -/
  | top
  /-- A `fifo_put` of a word. -/
  | putword (c : CInt) (place : Fin 4)
  /-- `VCOM_getchar`. -/
  | poll
  /-- `VCOM_putchar`. -/
  | echo (c : CInt)

/-- What follows the `fifo_put` of a byte of a word: the next one when the byte was taken and
was not the last, and else the end of `VCOM_putword`. -/
def afterPut (c : CInt) (place : Fin 4) (taken : Bool) : Point :=
  if more : place.val + 1 < 4 then
    if taken then .putword c ⟨place.val + 1, more⟩ else .poll
  else .poll

/-- A refused put ends the word. -/
@[simp] theorem afterPut_refused (c : CInt) (place : Fin 4) : afterPut c place false = .poll := by
  simp [afterPut]

/-- The running program. -/
structure Sampler (P : Platform) where
  /-- The transport. -/
  device : Device P
  /-- The variables of `stream_task`. -/
  task : StreamTask
  /-- Where it is in its loop. -/
  point : Point

/-- The steps of the program. -/
inductive SamplerEvent
  /-- The next call of the main loop. -/
  | main
  /-- An interrupt. -/
  | irq (source : Interrupt)

/-- The next call of the main loop. -/
def Sampler.main (s : Sampler P) : Sampler P × List Effect :=
  match s.point with
  | .top =>
    match s.task.switch with
    | (task, .word c) => ({ s with task, point := .putword c firstPlace }, [.putword c])
    | (task, _) => ({ s with task, point := .poll }, [])
  | .putword c place =>
    let (device, out) := step s.device (.putwordByte c place)
    ({ s with device, point := afterPut c place (putTx s.device (putwordArg c place)).2 }, out)
  | .poll =>
    let (device, out) := step s.device .getchar
    match s.task.command (vcomGetchar s.device).2 with
    | (task, none) => ({ device, task, point := .top }, out)
    | (task, some c) => ({ device, task, point := .echo c }, out)
  | .echo c =>
    let (device, out) := step s.device (.putchar c)
    ({ device, task := s.task.echoed (vcomPutchar s.device c).2, point := .top }, out)

/-- One step. -/
def Sampler.step (s : Sampler P) : SamplerEvent → Sampler P × List Effect
  | .main => s.main
  | .irq source =>
    let (device, out) := isr s.device source
    ({ s with device }, out)

/-- The program when `stream_task` enters its loop. -/
def Sampler.start (d : Device P) : Sampler P where
  device := vcomInit d
  task := StreamTask.start
  point := .top

/-- A call of `VCOM_putword` is in progress. -/
def Point.InWord : Point → Prop
  | .putword _ _ => True
  | _ => False

/-- The condition can be evaluated. -/
instance Point.InWord.decidable : ∀ point : Point, Decidable point.InWord
  | .top => isFalse id
  | .putword _ _ => isTrue trivial
  | .poll => isFalse id
  | .echo _ => isFalse id

/-- A put is followed by another put of the word or by a poll. -/
theorem afterPut_inside (c : CInt) (place : Fin 4) (taken : Bool) :
    (afterPut c place taken).InWord ∨ afterPut c place taken = .poll := by
  unfold afterPut
  split
  · split
    · exact Or.inl trivial
    · exact Or.inr rfl
  · exact Or.inr rfl

/-- The command bytes. -/
def commandBytes : List UInt8 := ['g'.toUInt8, 's'.toUInt8, 'r'.toUInt8, 'm'.toUInt8]

/-- A packet received consists of command bytes. -/
def Sampler.Admits (_ : Sampler P) : SamplerEvent → Prop
  | .irq (.bulkOut read) => ∀ byte ∈ readBytes read, byte ∈ commandBytes
  | _ => True

/-- The condition can be evaluated. -/
instance Sampler.Admits.decidable (s : Sampler P) : ∀ event, Decidable (s.Admits event)
  | .main => isTrue trivial
  | .irq (.bulkOut read) =>
    inferInstanceAs (Decidable (∀ byte ∈ readBytes read, byte ∈ commandBytes))
  | .irq .frame => isTrue trivial
  | .irq .bulkIn => isTrue trivial
  | .irq (.devInt _) => isTrue trivial

/-- After the first byte of a word, `txfifo` has room for each byte of it. -/
def Sampler.Roomy (s : Sampler P) : SamplerEvent → Prop
  | .main =>
    match s.point with
    | .putword _ place =>
      place ≠ firstPlace → (P.fifo.items s.device.txfifo).length < P.fifo.capacity
    | _ => True
  | .irq _ => True

/-- The switch statement passes its word to `VCOM_putword` when it has one, and else the loop
goes on to poll. -/
theorem main_top {s : Sampler P} (atTop : s.point = .top) :
    (∃ c, s.task.switch.2.putword = some c ∧
      s.main = ({ s with task := s.task.switch.1, point := .putword c firstPlace }, [.putword c])) ∨
    (s.task.switch.2.putword = none ∧
      s.main = ({ s with task := s.task.switch.1, point := .poll }, [])) := by
  rcases switched : s.task.switch with ⟨task, sample⟩
  cases sample with
  | word c =>
    refine Or.inl ⟨c, rfl, ?_⟩
    simp [Sampler.main, atTop, switched]
  | silent =>
    refine Or.inr ⟨rfl, ?_⟩
    simp [Sampler.main, atTop, switched]
  | invalid =>
    refine Or.inr ⟨rfl, ?_⟩
    simp [Sampler.main, atTop, switched]

/-- A put of a word. -/
theorem main_put {s : Sampler P} {c : CInt} {place : Fin 4} (atPut : s.point = .putword c place) :
    s.main = ({ s with
        device := (step s.device (.putwordByte c place)).1
        point := afterPut c place (putTx s.device (putwordArg c place)).2 },
      (step s.device (.putwordByte c place)).2) := by
  simp [Sampler.main, atPut]

/-- A poll is followed by the next iteration, or by the echo of what it fetched. -/
theorem main_poll {s : Sampler P} (atPoll : s.point = .poll) :
    ∃ point, s.main = ({
        device := (vcomGetchar s.device).1
        task := (s.task.command (vcomGetchar s.device).2).1
        point }, [.getchar (vcomGetchar s.device).2]) ∧
      point = match (s.task.command (vcomGetchar s.device).2).2 with
        | none => .top
        | some c => .echo c := by
  rcases commanded : s.task.command (vcomGetchar s.device).2 with ⟨task, _ | c⟩
  · exact ⟨.top, by simp [Sampler.main, atPoll, step, commanded], rfl⟩
  · exact ⟨.echo c, by simp [Sampler.main, atPoll, step, commanded], rfl⟩

/-- An echo ends its iteration. -/
theorem main_echo {s : Sampler P} {c : CInt} (atEcho : s.point = .echo c) :
    s.main = ({
        device := (vcomPutchar s.device c).1
        task := s.task.echoed (vcomPutchar s.device c).2
        point := .top }, [.txPut (toByte c) (putTx s.device c).2]) := by
  simp [Sampler.main, atEcho, step]

/-- What the steps of one `VCOM_putword` do when no interrupt comes between them is what
`vcomPutword` does. -/
theorem putword_ticks (d : Device P) (t : StreamTask) (c : CInt) :
    ∃ count ≤ 4,
      exec Sampler.step { device := d, task := t, point := .putword c firstPlace }
          (List.replicate count .main) =
        { device := (vcomPutword d c).1, task := t, point := .poll } := by
  rcases first : putTx d (putwordArg c 0) with ⟨d₁, _ | _⟩
  · refine ⟨1, by decide, ?_⟩
    simp [Sampler.step, Sampler.main, step, afterPut, vcomPutword, firstPlace, first]
  rcases second : putTx d₁ (putwordArg c 1) with ⟨d₂, _ | _⟩
  · refine ⟨2, by decide, ?_⟩
    simp [Sampler.step, Sampler.main, step, afterPut, vcomPutword, firstPlace, first, second]
  rcases third : putTx d₂ (putwordArg c 2) with ⟨d₃, _ | _⟩
  · refine ⟨3, by decide, ?_⟩
    simp [Sampler.step, Sampler.main, step, afterPut, vcomPutword, firstPlace, first, second, third]
  · refine ⟨4, by decide, ?_⟩
    simp [Sampler.step, Sampler.main, step, afterPut, vcomPutword, firstPlace, first, second, third]

end Olimex2378.Firmware
