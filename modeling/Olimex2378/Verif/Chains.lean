import Olimex2378.Basis.Framing
import Olimex2378.Firmware.BulkInEndpoint
import Olimex2378.Verif.Transmit

/-!
# Packets in flight and their framing

While the hardware completes only packets that it has, the transmitter and the endpoint
agree: a packet is written only when none is outstanding, and `fBulkInBusy` says whether one
is. On this rests the framing of the stream: between two bus resets the packets are chains
of full packets closed by a short one, each opened by a frame tick and continued by `BulkIn`
alone. A reset leaves `fChainDone` as it was, so the flag describes the last chain only until
the first reset.
-/

namespace Olimex2378.Verif.Chains

open Firmware Run Framing

variable {P : Platform}

/-- The transmitter and the endpoint agree on what is outstanding. -/
structure Exclusive (link : Link P) : Prop where
  /-- The endpoint never holds two packets. -/
  one : link.outstanding.length ≤ 1
  /-- The busy flag says whether it holds one. -/
  busy : link.device.fBulkInBusy = true ↔ link.outstanding ≠ []

/-- A link starts with nothing outstanding. -/
theorem exclusive_start (d : Device P) : Exclusive (Link.start d) :=
  ⟨Nat.zero_le _, by simp [Link.start, vcomInit]⟩

/-- A completed packet leaves nothing outstanding. -/
theorem Exclusive.settled_bulkIn {link : Link P} (exclusive : Exclusive link) :
    link.settled (.irq .bulkIn) = [] := by
  have one := exclusive.one
  apply List.eq_nil_of_length_eq_zero
  simp only [Link.settled, List.length_tail]
  omega

/-- A packet is written only when none is outstanding. -/
theorem Exclusive.settled_of_write {link : Link P} (exclusive : Exclusive link) {event : Event}
    (writes : payloads (Firmware.step link.device event).2 ≠ []) : link.settled event = [] := by
  cases event with
  | irq source =>
    have outcome := isr_outcome link.device source
    simp only [Firmware.step] at writes
    generalize isr link.device source = result at outcome writes
    cases outcome with
    | starts next idle _ isFrame =>
      subst isFrame
      have none : ¬ link.outstanding ≠ [] := by simp [← exclusive.busy, idle]
      exact not_not.mp none
    | continues next _ isBulkIn =>
      subst isBulkIn
      exact exclusive.settled_bulkIn
    | idles => exact absurd rfl writes
    | receives _ _ _ _ _ calls => exact absurd (calls_silent calls).1 writes
    | waits => exact absurd rfl writes
  | _ => exact absurd (step_port link.device (by simp)).2.2 writes

/-- A call of the main loop keeps the agreement. -/
theorem exclusive_port {link : Link P} (exclusive : Exclusive link) {event : Event}
    (port : ∀ source, event ≠ .irq source) : Exclusive (link.step event).1 := by
  obtain ⟨busy, _, silent⟩ := step_port link.device port
  have same : (link.step event).1.outstanding = link.outstanding := by
    simp [Link.step, settled_port link port, silent]
  refine ⟨by rw [same]; exact exclusive.one, ?_⟩
  rw [same, ← exclusive.busy, ← busy]
  rfl

/-- Every call keeps the agreement. -/
theorem exclusive_step {link : Link P} (exclusive : Exclusive link) (event : Event) :
    Exclusive (link.step event).1 := by
  cases event with
  | irq source =>
    have outcome := isr_outcome link.device source
    have alone : payloads (Firmware.step link.device (.irq source)).2 ≠ [] →
        link.settled (.irq source) = [] := exclusive.settled_of_write
    simp only [Link.step, Firmware.step] at alone ⊢
    generalize isr link.device source = result at outcome alone ⊢
    cases outcome with
    | starts next _ _ _ sent =>
      rw [alone (by simp)]
      exact ⟨le_rfl, by simp [sent.busy]⟩
    | continues next _ _ sent =>
      rw [alone (by simp)]
      exact ⟨le_rfl, by simp [sent.busy]⟩
    | idles isEnd =>
      have empty : link.settled (.irq source) = [] := by
        rcases isEnd with ⟨isBulkIn, _⟩ | ⟨bDevStatus, isDevInt, reset⟩
        · subst isBulkIn
          exact exclusive.settled_bulkIn
        · subst isDevInt
          exact settled_reset link (by simpa [resets] using reset)
      rw [empty]
      exact ⟨Nat.zero_le _, by simp [payloads]⟩
    | receives read isBulkOut _ _ out calls =>
      subst isBulkOut
      rw [(calls_silent calls).1, List.append_nil]
      exact ⟨exclusive.one, exclusive.busy⟩
    | waits other noReset =>
      rw [shows_nil.1, List.append_nil, (settled_other link other noReset).2]
      exact exclusive
  | _ => exact exclusive_port exclusive (by simp)

/-- The agreement holds after every run. -/
theorem exclusive_run (d : Device P) (events : List Event) :
    Exclusive (exec Link.step (Link.start d) events) :=
  invariant_of_forall (fun link _ => Exclusive link) (exclusive_start d)
    (fun _ _ event exclusive => exclusive_step exclusive event) events

/-- A call writes at most one packet. -/
theorem step_writes_one (d : Device P) (event : Event) :
    (payloads (Firmware.step d event).2).length ≤ 1 := by
  cases event with
  | irq source => exact (Transmit.isr_packet_size d source).1
  | _ => exact Nat.zero_le 1

/-- The bulk IN endpoint belongs to one packet at a time: in every run from `VCOM_init`, a
call writes at most one packet and writes it only when no packet is outstanding; at most one
packet is outstanding after each call; and the busy flag is set exactly while one is. -/
theorem endpoint_exclusive (d : Device P) (events : List Event) :
    (∀ before event after, events = before ++ event :: after →
      payloads (Firmware.step (exec Link.step (Link.start d) before).device event).2 ≠ [] →
      (exec Link.step (Link.start d) before).settled event = [] ∧
      (payloads (Firmware.step (exec Link.step (Link.start d) before).device event).2).length
        = 1) ∧
    (exec Link.step (Link.start d) events).outstanding.length ≤ 1 ∧
    ((exec Link.step (Link.start d) events).device.fBulkInBusy = true ↔
      (exec Link.step (Link.start d) events).outstanding ≠ []) := by
  refine ⟨?_, (exclusive_run d events).one, (exclusive_run d events).busy⟩
  intro before event after _ writes
  refine ⟨(exclusive_run d before).settled_of_write writes, ?_⟩
  have most := step_writes_one (exec Link.step (Link.start d) before).device event
  have some := List.length_pos_of_ne_nil writes
  omega

/-- A packet as it went to the endpoint: the call that wrote it, and its length. -/
structure Written where
  /-- The call in which `USBHwEPWrite` got it. -/
  writer : Event
  /-- Length of the payload. -/
  length : Nat

/-- What one call adds to the sequence of packets and resets; a reset is a cut. -/
def marks (P : Platform) (entry : Event × List Effect) : List (Option Written) :=
  (payloads entry.2).map (fun payload => some ⟨entry.1, payload.length⟩) ++
    (if resets P entry.1 then [none] else [])

/-- The packets of a run, cut at the bus resets: the pieces that a reset ended, and the
piece since the last reset. -/
def pieces (P : Platform) (history : List (Event × List Effect)) :
    List (List Written) × List Written := cut (history.flatMap (marks P))

/-- A piece is complete chains, and then the given unfinished chain. The first packet of
each is written in a call to `USBFrameHandler`, every other one in a call to `BulkIn`. -/
def Chained (piece unfinished : List Written) : Prop :=
  Framed Written.length maxPacketSize (fun packet => packet.writer = .irq .frame)
    (fun packet => packet.writer = .irq .bulkIn) piece unfinished

/-- The packets so far are chains, and the state knows how far the last chain has come. -/
structure Framing (link : Link P) (history : List (Event × List Effect)) : Prop where
  /-- The endpoint and the transmitter agree. -/
  exclusive : Exclusive link
  /-- Every piece that a reset ended is chains. -/
  ended : ∀ piece ∈ (pieces P history).1, ∃ unfinished, Chained piece unfinished
  /-- The piece since the last reset is chains; a chain is unfinished only while its last
  packet is outstanding, and then the flag says so. Before the first reset it says so
  always. -/
  current : ∃ unfinished, Chained (pieces P history).2 unfinished ∧
    (link.outstanding = [] → unfinished = []) ∧
    (link.outstanding ≠ [] ∨ (pieces P history).1 = [] →
      (link.device.fChainDone = false ↔ unfinished ≠ []))

/-- A call that writes no packet and is no reset adds nothing. -/
theorem pieces_silent (history : List (Event × List Effect)) {entry : Event × List Effect}
    (silent : payloads entry.2 = []) (noReset : resets P entry.1 = false) :
    pieces P (history ++ [entry]) = pieces P history := by
  simp [pieces, marks, silent, noReset]

/-- A call that writes one packet adds it to the current piece. -/
theorem pieces_write (history : List (Event × List Effect)) (event : Event) (bEP : UInt8)
    (payload : List UInt8) (noReset : resets P event = false) :
    pieces P (history ++ [(event, [.epWrite bEP payload])]) =
      ((pieces P history).1,
        (pieces P history).2 ++ [⟨event, payload.length⟩]) := by
  simp [pieces, marks, noReset, cut_item]

/-- A bus reset ends the current piece. -/
theorem pieces_reset (history : List (Event × List Effect)) {event : Event}
    (reset : resets P event = true) :
    pieces P (history ++ [(event, [])]) =
      ((pieces P history).1 ++ [(pieces P history).2], []) := by
  simp [pieces, marks, payloads, reset, cut_mark]

/-- Without a reset no piece ends. -/
theorem pieces_of_no_reset {history : List (Event × List Effect)}
    (noReset : ∀ entry ∈ history, resets P entry.1 = false) : (pieces P history).1 = [] := by
  apply cut_of_items
  intro item member
  obtain ⟨entry, inside, marked⟩ := List.mem_flatMap.mp member
  simp only [marks, noReset entry inside, Bool.false_eq_true, ↓reduceIte, List.append_nil,
    List.mem_map] at marked
  obtain ⟨payload, _, rfl⟩ := marked
  exact Option.some_ne_none _

/-- The packets are framed before the first call. -/
theorem framing_start (d : Device P) : Framing (Link.start d) [] where
  exclusive := exclusive_start d
  ended := by simp [pieces, cut]
  current := ⟨[], framed_nil _ _ _ _, fun _ => rfl, fun _ => by simp [Link.start, vcomInit]⟩

/-- A call that neither writes nor resets keeps the packets framed when it keeps the chain,
and leaves a packet outstanding only where one was. -/
theorem framing_keep {link : Link P} {history : List (Event × List Effect)}
    (framing : Framing link history) {event : Event}
    (silent : payloads (Firmware.step link.device event).2 = [])
    (noReset : resets P event = false)
    (done : (Firmware.step link.device event).1.fChainDone = link.device.fChainDone)
    (stays : link.settled event = link.outstanding ∨
      link.settled event = [] ∧ link.outstanding ≠ [] ∧ link.device.fChainDone = true) :
    Framing (link.step event).1 (history ++ [(event, (link.step event).2)]) := by
  have same : pieces P (history ++ [(event, (link.step event).2)]) = pieces P history :=
    pieces_silent history silent noReset
  have outstanding : (link.step event).1.outstanding = link.settled event := by
    simp [Link.step, silent]
  have flag : (link.step event).1.device.fChainDone = link.device.fChainDone := done
  refine ⟨exclusive_step framing.exclusive event, by rw [same]; exact framing.ended, ?_⟩
  rw [same, outstanding, flag]
  obtain ⟨unfinished, chained, idle, running⟩ := framing.current
  refine ⟨unfinished, chained, ?_, ?_⟩
  · rcases stays with stays | ⟨_, some, closed⟩
    · rw [stays]
      exact idle
    · intro _
      have none := (running (Or.inl some)).not.mp (by simp [closed])
      exact not_not.mp none
  · rcases stays with stays | ⟨_, some, _⟩
    · rw [stays]
      exact running
    · intro _
      exact running (Or.inl some)

/-- A call that writes the oldest bytes keeps the packets framed when its packet opens a
chain or continues the unfinished one. -/
theorem framing_write {link : Link P} {history : List (Event × List Effect)}
    (framing : Framing link history) {event : Event} {next : Device P} {unfinished : List Written}
    (noReset : resets P event = false) (sent : Sent link.device next)
    (result : Firmware.step link.device event =
      (next, [.epWrite bulkInEp ((P.fifo.items link.device.txfifo).take maxPacketSize)]))
    (chained : Chained (pieces P history).2 unfinished)
    (opened : Opened Written.length (fun packet => packet.writer = .irq .frame)
      (fun packet => packet.writer = .irq .bulkIn)
      (unfinished ++
        [⟨event, ((P.fifo.items link.device.txfifo).take maxPacketSize).length⟩])) :
    Framing (link.step event).1 (history ++ [(event, (link.step event).2)]) := by
  have out : (link.step event).2 =
      [.epWrite bulkInEp ((P.fifo.items link.device.txfifo).take maxPacketSize)] := by
    simp [Link.step, result]
  have last := pieces_write history event bulkInEp
    ((P.fifo.items link.device.txfifo).take maxPacketSize) noReset
  have flag : (link.step event).1.device.fChainDone = next.fChainDone := by
    simp [Link.step, result]
  rw [out]
  refine ⟨exclusive_step framing.exclusive event, by rw [last]; exact framing.ended, ?_⟩
  obtain ⟨rest, framed, full⟩ := chained.snoc opened (List.length_take_le _ _)
  rw [last, flag, sent.done]
  refine ⟨rest, framed, ?_, ?_⟩
  · intro none
    simp [Link.step, result] at none
  · intro _
    rw [full]
    show decide _ = false ↔
      ((P.fifo.items link.device.txfifo).take maxPacketSize).length = maxPacketSize
    rw [decide_eq_false_iff_not, List.length_take]
    omega

/-- A bus reset keeps the packets framed: it ends the piece, whatever was unfinished. -/
theorem framing_reset {link : Link P} {history : List (Event × List Effect)}
    (framing : Framing link history) {event : Event} (reset : resets P event = true)
    (silent : (Firmware.step link.device event).2 = []) :
    Framing (link.step event).1 (history ++ [(event, (link.step event).2)]) := by
  have out : (link.step event).2 = [] := silent
  have outstanding : (link.step event).1.outstanding = [] := by
    simp [Link.step, settled_reset link reset, silent, payloads]
  have last := pieces_reset history reset
  obtain ⟨unfinished, chained, _⟩ := framing.current
  rw [out]
  refine ⟨exclusive_step framing.exclusive event, ?_, ?_⟩
  · rw [last]
    intro piece member
    rcases List.mem_append.mp member with earlier | ended
    · exact framing.ended piece earlier
    · rw [List.mem_singleton.mp ended]
      exact ⟨unfinished, chained⟩
  · rw [last, outstanding]
    exact ⟨[], framed_nil _ _ _ _, fun _ => rfl, by simp⟩

/-- Every admitted call keeps the packets framed. -/
theorem framing_step (counted : P.fifo.Counted) {link : Link P}
    {history : List (Event × List Effect)} (framing : Framing link history) (event : Event)
    (admitted : Completes link event) :
    Framing (link.step event).1 (history ++ [(event, (link.step event).2)]) := by
  obtain ⟨unfinished, chained, idle, running⟩ := framing.current
  cases event with
  | irq source =>
    have outcome := isr_outcome link.device source
    have isStep : Firmware.step link.device (.irq source) = isr link.device source := rfl
    generalize equation : isr link.device source = result at outcome
    rw [equation] at isStep
    cases outcome with
    | starts next isIdle waiting isTick sent =>
      subst isTick
      have none : link.outstanding = [] := by
        have busy := framing.exclusive.busy
        rw [isIdle] at busy
        simpa using busy
      have empty := idle none
      subst empty
      refine framing_write framing rfl sent isStep chained (opened_singleton rfl ?_)
      have some := (counted.avail_ne_zero _).mp waiting
      have positive := List.length_pos_of_ne_nil some
      simp only [List.length_take, maxPacketSize]
      omega
    | continues next chain isBulkIn sent =>
      subst isBulkIn
      have more : unfinished ≠ [] := (running (Or.inl admitted)).mp chain
      exact framing_write framing rfl sent isStep chained
        (chained.opened_append more rfl)
    | idles isEnd =>
      rcases isEnd with ⟨isBulkIn, done⟩ | ⟨bDevStatus, isDevInt, reset⟩
      · subst isBulkIn
        exact framing_keep framing (by rw [isStep]; rfl) rfl (by rw [isStep])
          (Or.inr ⟨framing.exclusive.settled_bulkIn, admitted, done⟩)
      · subst isDevInt
        exact framing_reset framing (by simpa [resets] using reset) (by rw [isStep])
    | receives read isBulkOut _ _ out calls =>
      subst isBulkOut
      exact framing_keep framing (by rw [isStep]; exact (calls_silent calls).1) rfl (by rw [isStep])
        (Or.inl rfl)
    | waits other noReset =>
      obtain ⟨clear, stays⟩ := settled_other link other noReset
      exact framing_keep framing (by rw [isStep]; rfl) clear (by rw [isStep]) (Or.inl stays)
  | _ =>
    exact framing_keep framing (step_port link.device (by simp)).2.2 rfl
      (step_port link.device (by simp)).2.1 (Or.inl rfl)

/-- The bulk IN stream is framed. In every run from `VCOM_init` in which `BulkIn` is called
only for an outstanding packet, every piece between two bus resets is complete chains and at
most one unfinished one, where each chain is opened by a packet of `USBFrameHandler` that is
not empty, continued only by packets of `BulkIn`, and closed by its only short packet; and
before the first reset `fChainDone` is false exactly when the last chain is unfinished. -/
theorem stream_framed (counted : P.fifo.Counted) (d : Device P) (events : List Event)
    (admitted : Along Link.step Completes (Link.start d) events) :
    (∀ piece ∈ (pieces P (trace Link.step (Link.start d) events)).1,
      ∃ unfinished, Chained piece unfinished) ∧
    ∃ unfinished, Chained (pieces P (trace Link.step (Link.start d) events)).2 unfinished ∧
      ((∀ event ∈ events, resets P event = false) →
        ((exec Link.step (Link.start d) events).device.fChainDone = false ↔
          unfinished ≠ [])) := by
  have framing := invariant Framing (framing_start d)
    (fun _ _ event framing admitted => framing_step counted framing event admitted) admitted
  obtain ⟨unfinished, chained, _, running⟩ := framing.current
  refine ⟨framing.ended, unfinished, chained, ?_⟩
  intro noReset
  have whole := pieces_of_no_reset (fun entry member =>
    noReset entry.1 (trace_input_mem Link.step (Link.start d) member))
  exact running (Or.inr whole)

/-- A run with a full packet and its empty closing packet, a reset, and a chain that a
second reset cuts short. -/
def resetRun : List Event :=
  List.replicate 64 (.putchar 65) ++ [.irq .frame, .irq .bulkIn, .irq .bulkIn] ++
    List.replicate 70 (.putchar 66) ++ [.irq (.devInt 0x10), .irq .frame, .irq (.devInt 0x10)]

/-- The stream of this run is framed. -/
theorem stream_framed_resetRun :
    (∀ piece ∈ (pieces (Platform.ofList 128)
        (trace Link.step (Link.start (Device.blank 128)) resetRun)).1,
      ∃ unfinished, Chained piece unfinished) ∧
    ∃ unfinished, Chained (pieces (Platform.ofList 128)
        (trace Link.step (Link.start (Device.blank 128)) resetRun)).2 unfinished ∧
      ((∀ event ∈ resetRun, resets (Platform.ofList 128) event = false) →
        ((exec Link.step (Link.start (Device.blank 128)) resetRun).device.fChainDone = false ↔
          unfinished ≠ [])) :=
  stream_framed (Fifo.ofList_counted UInt8 128) (Device.blank 128) resetRun (by decide +kernel)

end Olimex2378.Verif.Chains
