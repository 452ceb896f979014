import Olimex2378.Verif.Transmitter

/-!
# The transmit queue drains

When nothing is put any more and no bus reset occurs, the packets still to come are known from
the bytes that wait and the packet on its way. A turn of the hardware, which is a completion
or a frame tick with nothing on its way, brings the end nearer; every other event changes
nothing.
-/

namespace Olimex2378.Verif.Drain

open Firmware Run Transmitter

variable {P : Platform}

/-- The lengths of the packets of a chain that sends a number of bytes. -/
def chain (n : Nat) : List Nat := List.replicate (n / maxPacketSize) maxPacketSize ++
  [n % maxPacketSize]

/-- An event that puts a byte or resets the bus. -/
def disturbs (P : Platform) : Event → Bool
  | .putchar _ => true
  | .putwordByte _ _ => true
  | event => resets P event

/-- An event that is the hardware's turn: the completion of the packet outstanding, or a frame
tick when there is none. -/
def isTurn (link : Link P) : Event → Bool
  | .irq .bulkIn => true
  | .irq .frame => link.outstanding.isEmpty
  | _ => false

/-- The lengths of the packets to come: a chain that sends what waits, when bytes wait or a
full packet is outstanding. -/
def toCome (link : Link P) : List Nat :=
  if P.fifo.items link.device.txfifo ≠ [] ∨
      ∃ packet ∈ link.outstanding, packet.length = maxPacketSize
  then chain (P.fifo.items link.device.txfifo).length else []

/-- The lengths of the packets that the transmitter will send. -/
def lengths (t : Sender) : List Nat :=
  if t.waiting ≠ [] ∨ ∃ packet ∈ t.inFlight.toList, packet.length = maxPacketSize
  then chain t.waiting.length else []

/-- The hardware's turn as the transmitter sees it. -/
def turn (t : Sender) : Event → Bool
  | .irq .bulkIn => true
  | .irq .frame => t.inFlight.toList.isEmpty
  | _ => false

/-- The turns left until nothing waits and nothing is on its way. -/
def turnsLeft (t : Sender) : Nat :=
  match t.inFlight with
  | none => if t.waiting = [] then 0 else t.waiting.length / maxPacketSize + 2
  | some packet =>
    if packet.length = maxPacketSize then t.waiting.length / maxPacketSize + 2
    else if t.waiting = [] then 1 else t.waiting.length / maxPacketSize + 3

/-- A chain starts with a packet of the oldest bytes, and goes on after a full one. -/
theorem chain_step (n : Nat) : chain n =
    min maxPacketSize n :: if maxPacketSize ≤ n then chain (n - maxPacketSize) else [] := by
  unfold chain maxPacketSize
  by_cases full : 64 ≤ n
  · have count : n / 64 = (n - 64) / 64 + 1 := by omega
    have rest : n % 64 = (n - 64) % 64 := by omega
    rw [if_pos full, Nat.min_eq_left full, count, rest]
    rfl
  · have none : n / 64 = 0 := by omega
    have rest : n % 64 = n := by omega
    have whole : min 64 n = n := by omega
    rw [if_neg full, whole, none, rest]
    rfl

/-- Sending a packet takes it from the packets to come. -/
theorem send_lengths (t : Sender) :
    (payloads t.send.2).map List.length ++ lengths t.send.1 = chain t.waiting.length := by
  rw [chain_step, ← List.length_take]
  change (t.waiting.take maxPacketSize).length :: lengths t.send.1 = _
  congr 1
  by_cases full : maxPacketSize ≤ t.waiting.length
  · have onWay : ∃ packet ∈ t.send.1.inFlight.toList, packet.length = maxPacketSize := by
      simp [Sender.send, full]
    rw [lengths, if_pos (Or.inr onWay), if_pos full]
    exact congrArg chain List.length_drop
  · have empty : t.waiting.drop maxPacketSize = [] :=
      List.drop_eq_nil_of_le (Nat.le_of_not_le full)
    rw [lengths, if_neg, if_neg full]
    simpa [Sender.send, empty] using Nat.lt_of_not_le full

/-- After a packet has been sent the turns left are as many as its chain has packets. -/
theorem send_turnsLeft (t : Sender) :
    turnsLeft t.send.1 = t.waiting.length / maxPacketSize + 1 := by
  change (if (t.waiting.take 64).length = 64 then (t.waiting.drop 64).length / 64 + 2
    else if t.waiting.drop 64 = [] then 1 else (t.waiting.drop 64).length / 64 + 3) =
    t.waiting.length / 64 + 1
  rw [List.length_take, List.length_drop]
  by_cases full : 64 ≤ t.waiting.length
  · rw [if_pos (Nat.min_eq_left full)]
    omega
  · have short : ¬ min 64 t.waiting.length = 64 := by omega
    have empty : t.waiting.drop 64 = [] := List.drop_eq_nil_of_le (by omega)
    rw [if_neg short, if_pos empty]
    omega

/-- What an undisturbed event does: it changes nothing, and then it was no turn unless all is
done; it ends a chain with a packet that was short; or it sends a packet of a chain. -/
inductive Undisturbed (t : Sender) (event : Event) : Sender × List Effect → Prop
  /-- Nothing changes. -/
  | waits (noTurn : turn t event = true → turnsLeft t = 0) : Undisturbed t event (t, [])
  /-- A chain ends. -/
  | ends (packet : List UInt8) (flight : t.inFlight = some packet)
      (short : packet.length ≠ maxPacketSize) :
      Undisturbed t event ({ t with inFlight := none }, [])
  /-- A chain starts or goes on. -/
  | sends (more : t.waiting ≠ [] ∨ ∃ packet ∈ t.inFlight.toList, packet.length = maxPacketSize)
      (left : turnsLeft t = t.waiting.length / maxPacketSize + 2) :
      Undisturbed t event t.send

/-- Every undisturbed event that the transmitter allows is one of these. -/
theorem undisturbed_step (t : Sender) {event : Event} (quiet : disturbs P event = false)
    (allowed : t.Allows event) : Undisturbed t event (t.step P event) := by
  cases event with
  | putchar c => contradiction
  | putwordByte c place => contradiction
  | getchar => exact Undisturbed.waits (fun impossible => by contradiction)
  | irq source =>
    cases source with
    | bulkOut read => exact Undisturbed.waits (fun impossible => by contradiction)
    | frame =>
      cases flight : t.inFlight with
      | some packet =>
        simp only [Sender.step, flight]
        apply Undisturbed.waits
        simp [turn, flight]
      | none =>
        by_cases empty : t.waiting = []
        · simp only [Sender.step, flight, empty, if_true]
          apply Undisturbed.waits
          simp [turnsLeft, flight, empty]
        · simp only [Sender.step, flight, empty, if_false]
          apply Undisturbed.sends (Or.inl empty)
          simp [turnsLeft, flight, empty]
    | bulkIn =>
      cases flight : t.inFlight with
      | none => exact absurd flight allowed
      | some packet =>
        by_cases full : packet.length = maxPacketSize
        · simp only [Sender.step, flight, full, if_true]
          apply Undisturbed.sends
          · exact Or.inr ⟨packet, by simp [flight], full⟩
          · simp [turnsLeft, flight, full]
        · simp only [Sender.step, flight, full, if_false]
          exact Undisturbed.ends packet flight full
    | devInt bDevStatus =>
      have noReset : ¬ bDevStatus &&& P.devStatusReset ≠ 0 := by
        simpa [disturbs, resets] using quiet
      simp only [Sender.step, if_neg noReset]
      exact Undisturbed.waits (fun impossible => by contradiction)

/-- One event takes what it sends from the packets to come, and a turn takes one from the turns
left. -/
theorem undisturbed_exact {t : Sender} {event : Event} {result : Sender × List Effect}
    (outcome : Undisturbed t event result) :
    (payloads result.2).map List.length ++ lengths result.1 = lengths t ∧
      turnsLeft result.1 ≤ turnsLeft t - (if turn t event then 1 else 0) := by
  cases outcome with
  | waits noTurn =>
    constructor
    · rfl
    · cases isTurn : turn t event with
      | true => simp [noTurn isTurn]
      | false => simp
  | ends packet flight short =>
    constructor
    · simp [lengths, flight, short]
    · have left : turnsLeft { t with inFlight := none } + 1 ≤ turnsLeft t := by
        by_cases empty : t.waiting = []
        · simp [turnsLeft, flight, short, empty]
        · simp [turnsLeft, flight, short, empty]
      change turnsLeft { t with inFlight := none } ≤ _
      split <;> omega
  | sends more left =>
    constructor
    · rw [send_lengths, lengths, if_pos more]
    · rw [send_turnsLeft, left]
      split <;> omega

/-- A run without puts and resets sends the packets to come in their order, and each of its
turns takes one from the turns left. -/
theorem undisturbed_run (t : Sender) {events : List Event}
    (quiet : ∀ event ∈ events, disturbs P event = false)
    (allowed : Along (Sender.step P) Sender.Allows t events) :
    (payloads (effects (trace (Sender.step P) t events))).map List.length ++
        lengths (exec (Sender.step P) t events) = lengths t ∧
      turnsLeft (exec (Sender.step P) t events) ≤
        turnsLeft t - count (Sender.step P) turn t events := by
  induction events generalizing t with
  | nil => exact ⟨rfl, Nat.le_refl _⟩
  | cons event rest ih =>
    have first := undisturbed_exact
      (undisturbed_step t (quiet event List.mem_cons_self) allowed.1)
    have later := ih (t.step P event).1
      (fun other member => quiet other (List.mem_cons_of_mem _ member)) allowed.2
    constructor
    · rw [trace_cons, effects_cons, payloads_append, List.map_append, List.append_assoc, exec_cons,
        later.1, first.1]
    · rw [exec_cons, count]
      omega

/-- With no turn left nothing waits and nothing is on its way. -/
theorem turnsLeft_eq_zero {t : Sender} (done : turnsLeft t = 0) :
    t.waiting = [] ∧ t.inFlight = none := by
  cases flight : t.inFlight with
  | none =>
    by_cases empty : t.waiting = []
    · exact ⟨empty, rfl⟩
    · simp [turnsLeft, flight, empty] at done
  | some packet =>
    rw [turnsLeft, flight] at done
    by_cases full : packet.length = maxPacketSize
    · simp [full] at done
    · by_cases empty : t.waiting = []
      · simp [full, empty] at done
      · simp [full, empty] at done

/-- There are never more turns left than this. -/
theorem turnsLeft_le (t : Sender) : turnsLeft t ≤ t.waiting.length / maxPacketSize + 3 := by
  unfold turnsLeft maxPacketSize
  split
  · split <;> omega
  · split
    · omega
    · split <;> omega

/-- The packets to come are those of the transmitter. -/
theorem toCome_eq {link : Link P} {t : Sender} (represents : Represents link t) :
    toCome link = lengths t := by
  unfold toCome lengths
  rw [represents.waiting, represents.outstanding]

/-- A turn is a turn of the transmitter. -/
theorem isTurn_eq {link : Link P} {t : Sender} (represents : Represents link t) (event : Event) :
    isTurn link event = turn t event := by
  unfold isTurn turn
  rw [represents.outstanding]

/-- The payloads of a trace are those seen of it on the way to the host. -/
theorem payloads_seen (history : List (Event × List Effect)) :
    payloads (effects (history.map fun entry => (entry.1, transmitted entry.2))) =
      payloads (effects history) := by
  induction history with
  | nil => rfl
  | cons entry rest ih =>
    rw [List.map_cons, effects_cons, effects_cons, payloads_append, payloads_append,
      payloads_transmitted, ih]

/-- Every reachable state is that of a transmitter. -/
theorem represents_run (counted : P.fifo.Counted) (d : Device P) {events : List Event}
    (admitted : Along Link.step Completes (Link.start d) events) :
    ∃ t, Represents (exec Link.step (Link.start d) events) t :=
  ⟨_, (simulates counted).exec (represents_start d) admitted⟩

/-- From a state of the transmitter, a run without puts and resets writes the packets to come
in their order, and each of its turns takes one from the turns left. -/
theorem drains_from (counted : P.fifo.Counted) {link : Link P} {t : Sender}
    (represents : Represents link t) {events : List Event}
    (quiet : ∀ event ∈ events, disturbs P event = false)
    (admitted : Along Link.step Completes link events) :
    (payloads (effects (trace Link.step link events))).map List.length ++
        toCome (exec Link.step link events) = toCome link ∧
      turnsLeft (exec (Sender.step P) t events) ≤
        turnsLeft t - count Link.step isTurn link events := by
  have simulation := simulates counted
  have allowed := (simulation.along represents events).1 admitted
  have run := undisturbed_run t quiet allowed
  have seen := simulation.trace represents admitted
  have turns := simulation.count (fun _ _ event same => isTurn_eq same event) represents admitted
  rw [← seen, payloads_seen] at run
  rw [toCome_eq represents, toCome_eq (simulation.exec represents admitted), turns]
  exact run

/-- The transmit queue drains. From any state that calls have led to since `VCOM_init`, with
`BulkIn` called only while a packet is outstanding, let no byte be put and no reset occur from
then on. What is written, followed by the packets still to come, is what was to come: full
packets for every 64 bytes that waited and one packet for the rest, if bytes waited or a full
packet was outstanding, and nothing otherwise. After as many turns of the hardware as those
packets and at most three more, nothing waits, nothing is outstanding, all of them have been
written, and nothing is written afterwards. -/
theorem queue_drains (counted : P.fifo.Counted) (d : Device P) (before later : List Event)
    (was : Along Link.step Completes (Link.start d) before)
    (quiet : ∀ event ∈ later, disturbs P event = false)
    (still : Along Link.step Completes (exec Link.step (Link.start d) before) later) :
    let link := exec Link.step (Link.start d) before
    let final := exec Link.step link later
    (payloads (effects (trace Link.step link later))).map List.length ++ toCome final =
        toCome link ∧
      ((P.fifo.items link.device.txfifo).length / maxPacketSize + 3 ≤
          count Link.step isTurn link later →
        P.fifo.items final.device.txfifo = [] ∧ final.outstanding = [] ∧
          (payloads (effects (trace Link.step link later))).map List.length = toCome link ∧
          ∀ further : List Event, (∀ event ∈ further, disturbs P event = false) →
            Along Link.step Completes final further →
            payloads (effects (trace Link.step final further)) = []) := by
  intro link final
  have simulation := simulates counted
  cases represents_run counted d was with
  | intro t represents =>
    have run := drains_from counted represents quiet still
    have last : Represents final (exec (Sender.step P) t later) :=
      simulation.exec represents still
    constructor
    · exact run.1
    · intro enough
      have most := turnsLeft_le t
      rw [represents.waiting] at enough
      have fewer : turnsLeft (exec (Sender.step P) t later) ≤
          turnsLeft t - count Link.step isTurn link later := run.2
      have done := turnsLeft_eq_zero
        (show turnsLeft (exec (Sender.step P) t later) = 0 by omega)
      have none : toCome final = [] := by
        rw [toCome_eq last, lengths, done.1, done.2]
        rfl
      have empty : P.fifo.items final.device.txfifo = [] := last.waiting.trans done.1
      have settled : final.outstanding = [] := by
        rw [last.outstanding, done.2]
        rfl
      have all : (payloads (effects (trace Link.step link later))).map List.length =
          toCome link := by
        have split := run.1
        rw [none, List.append_nil] at split
        exact split
      refine ⟨empty, settled, all, ?_⟩
      intro further undisturbed allowed
      have after := (drains_from counted last undisturbed allowed).1
      rw [none] at after
      have nothing := (List.append_eq_nil_iff.1 after).1
      exact List.map_eq_nil_iff.1 nothing

/-- What the hardware does next when nothing else happens. -/
def hardwareTurn (link : Link P) : Event :=
  if link.outstanding = [] then .irq .frame else .irq .bulkIn

/-- Some turns of the hardware in a row. -/
def hardwareTurns (link : Link P) : Nat → List Event
  | 0 => []
  | n + 1 => hardwareTurn link :: hardwareTurns (link.step (hardwareTurn link)).1 n

/-- The hardware can take any number of turns, none of which is a put or a reset. -/
theorem hardwareTurns_run (link : Link P) (n : Nat) :
    (∀ event ∈ hardwareTurns link n, disturbs P event = false) ∧
      Along Link.step Completes link (hardwareTurns link n) ∧
      count Link.step isTurn link (hardwareTurns link n) = n := by
  induction n generalizing link with
  | zero => exact ⟨by simp [hardwareTurns], trivial, rfl⟩
  | succ n ih =>
    have rest := ih (link.step (hardwareTurn link)).1
    have first : disturbs P (hardwareTurn link) = false ∧ Completes link (hardwareTurn link) ∧
        isTurn link (hardwareTurn link) = true := by
      unfold hardwareTurn
      by_cases idle : link.outstanding = []
      · rw [if_pos idle]
        exact ⟨rfl, trivial, by simp [isTurn, idle]⟩
      · rw [if_neg idle]
        exact ⟨rfl, idle, rfl⟩
    constructor
    · intro event member
      cases member with
      | head => exact first.1
      | tail _ inside => exact rest.1 event inside
    · constructor
      · exact ⟨first.2.1, rest.2.1⟩
      · rw [hardwareTurns, count, first.2.2, rest.2.2, if_pos rfl]
        exact Nat.add_comm 1 n

/-- A run that leaves a full packet outstanding and 6 bytes waiting. -/
def fullOutstanding : List Event := List.replicate 70 (.putchar 65) ++ [.irq .frame]

/-- The link after that run. -/
def fullLink : Link (Platform.ofList 128) :=
  exec Link.step (Link.start (Device.blank 128)) fullOutstanding

/-- The 6 bytes are one packet more, and four turns are enough for it. -/
theorem queue_drains_fullLink :
    toCome fullLink = [6] ∧
      (exec Link.step fullLink (hardwareTurns fullLink 4)).outstanding = [] ∧
      (payloads (effects (trace Link.step fullLink (hardwareTurns fullLink 4)))).map List.length =
        [6] := by
  have turns := hardwareTurns_run fullLink 4
  have waiting : ((Platform.ofList 128).fifo.items fullLink.device.txfifo).length = 6 := by
    decide +kernel
  have expected : toCome fullLink = [6] := by decide +kernel
  have isLink : exec Link.step (Link.start (Device.blank 128)) fullOutstanding = fullLink := rfl
  have drains := queue_drains (Fifo.ofList_counted UInt8 128) (Device.blank 128) fullOutstanding
    (hardwareTurns fullLink 4) (by decide +kernel) turns.1 turns.2.1
  simp only [isLink] at drains
  have final := drains.2 (by rw [waiting, turns.2.2]; decide)
  exact ⟨expected, final.2.1, final.2.2.1.trans expected⟩

end Olimex2378.Verif.Drain
