import Olimex2378.Verif.HostWords

/-!
# The rate report

The host counts the bytes that its reads return and prints an average rate at every `s`. The
count is an `int`: it is the number of bytes received since the last `g` modulo the range of
an `int`, and so that number exactly while there are fewer than `2 ^ 31` of them. The start
time is always that of the last `g`.
-/

namespace Olimex2378.Verif.Rate

open Host Run

/-- A `g` is written to the serial port, which is how the loop handles it. -/
def isGo : Effect → Bool
  | .write byte => ofByte byte == charConst 'g'
  | _ => false

/-- The counts and start times of the rates printed. -/
def averages (out : List Effect) : List (CInt × Int) :=
  out.filterMap fun effect => match effect with
    | .averageRate bytecount beginTime _ => some (bytecount, beginTime)
    | _ => none

/-- The time of the last `g` and the number of bytes received since, after one more
iteration. There is none before the first `g`. -/
def account (since : Option (Int × Nat)) (entry : Poll × List Effect) : Option (Int × Nat) :=
  let since := if entry.2.any isGo then some (entry.1.now, 0) else since
  since.map fun (time, total) => (time, total + (reads entry.2).flatten.length)

/-- A printed rate, and the account at that moment. -/
structure Report where
  /-- The byte count used. -/
  bytecount : CInt
  /-- The start time used. -/
  beginTime : Int
  /-- Bytes received since the last `g`. -/
  received : Nat
  /-- The time of the last `g`. -/
  goTime : Int

/-- The rates printed in a trace after a first `g`, with an account of what was before. -/
def reports (since : Option (Int × Nat)) : List (Poll × List Effect) → List Report
  | [] => []
  | entry :: rest =>
    (since.toList.flatMap fun (goTime, received) =>
      (averages entry.2).map fun (bytecount, beginTime) =>
        { bytecount, beginTime, received, goTime }) ++ reports (account since entry) rest

/-- A report uses the right count and the right start time. -/
def Report.Accurate (r : Report) : Prop :=
  r.bytecount.toInt = r.received ∧ r.beginTime = r.goTime

/-- Average rates of two lists of effects are taken in order. -/
@[simp] theorem averages_append (first second : List Effect) :
    averages (first ++ second) = averages first ++ averages second := by simp [averages]

/-- What an iteration does to the count and the start time, from what it put out. -/
structure Counted (before after : DatapathTask) (poll : Poll) (out : List Effect) : Prop where
  /-- A `g` starts both anew. -/
  goes : out.any isGo = true → after.beginTime = poll.now ∧
    after.bytecount = BitVec.ofNat 32 (reads out).flatten.length
  /-- Otherwise the bytes read are added. -/
  stays : out.any isGo = false → after.beginTime = before.beginTime ∧
    after.bytecount = before.bytecount + BitVec.ofNat 32 (reads out).flatten.length
  /-- A rate is printed from the two as they were. -/
  prints : ∀ average ∈ averages out, average = (before.bytecount, before.beginTime)

/-- An iteration that puts out nothing to count leaves the count and the start time. -/
theorem counted_silent (t next : DatapathTask) (poll : Poll) {out : List Effect}
    (time : next.beginTime = t.beginTime) (count : next.bytecount = t.bytecount)
    (noGo : out.any isGo = false) (noRead : reads out = []) (noRate : averages out = []) :
    Counted t next poll out where
  goes := by
    rw [noGo]
    intro impossible
    contradiction
  stays := by
    intro _
    rw [noRead, count]
    exact ⟨time, (BitVec.add_zero _).symm⟩
  prints := by simp [noRate]

/-- The terminal's part of an iteration. -/
theorem terminal_counted (t : DatapathTask) (poll : Poll) :
    Counted t (t.terminal poll).1 poll (t.terminal poll).2.1 := by
  cases stdin : poll.stdin with
  | failed =>
    simp only [DatapathTask.terminal, stdin]
    exact counted_silent t t poll rfl rfl rfl rfl rfl
  | empty =>
    simp only [DatapathTask.terminal, stdin]
    exact counted_silent t t poll rfl rfl rfl rfl rfl
  | key typed =>
    simp only [DatapathTask.terminal, stdin]
    split
    · split
      · exact counted_silent _ _ _ rfl rfl rfl rfl rfl
      · exact counted_silent _ _ _ rfl rfl rfl rfl rfl
    · split
      next isGoKey =>
        constructor
        · intro _
          exact ⟨rfl, rfl⟩
        · intro noGo
          simp [isGo, isGoKey] at noGo
        · simp [averages]
      next otherKey =>
        have noGo : isGo (.write typed) = false := by simpa [isGo] using otherKey
        split
        · constructor
          · intro go
            exact absurd (by simpa [isGo] using go) otherKey
          · intro _
            exact ⟨rfl, (BitVec.add_zero _).symm⟩
          · simp [averages]
        · apply counted_silent <;> first | rfl | simp [noGo]

/-- The serial port's part of an iteration adds the bytes that it reads. -/
theorem serial_counted (quiet : CInt) (t : DatapathTask) (read : SerialRead 8) :
    (t.serial quiet read).1.beginTime = t.beginTime ∧
      (t.serial quiet read).1.bytecount =
        t.bytecount + BitVec.ofNat 32 (reads (t.serial quiet read).2).flatten.length ∧
      (t.serial quiet read).2.any isGo = false ∧ averages (t.serial quiet read).2 = [] := by
  cases read with
  | failed => exact ⟨rfl, (BitVec.add_zero _).symm, rfl, rfl⟩
  | empty => exact ⟨rfl, (BitVec.add_zero _).symm, rfl, rfl⟩
  | data bytes positive fits =>
    unfold DatapathTask.serial
    dsimp only
    split
    · exact ⟨rfl, by simp [reads], rfl, rfl⟩
    · exact ⟨rfl, by simp [reads], rfl, rfl⟩

/-- What the terminal's part and a read behind it do together. -/
theorem Counted.serial (quiet : CInt) {t next : DatapathTask} {poll : Poll} {out : List Effect}
    (first : Counted t next poll out) (silent : reads out = []) :
    Counted t (next.serial quiet poll.serial).1 poll
      (out ++ (next.serial quiet poll.serial).2) := by
  obtain ⟨time, count, noGo, noRate⟩ := serial_counted quiet next poll.serial
  have go : (out ++ (next.serial quiet poll.serial).2).any isGo = out.any isGo := by
    rw [List.any_append, noGo, Bool.or_false]
  have goes := first.goes
  have stays := first.stays
  rw [silent] at goes stays
  constructor
  · rw [go, reads_append, silent]
    intro gone
    have start := goes gone
    constructor
    · exact time.trans start.1
    · rw [count, start.2]
      exact BitVec.zero_add _
  · rw [go, reads_append, silent]
    intro none
    have start := stays none
    constructor
    · exact time.trans start.1
    · rw [count, start.2]
      simp
  · rw [averages_append, noRate, List.append_nil]
    exact first.prints

/-- What a step does to the count and the start time. -/
theorem step_counted (quiet : CInt) (t : DatapathTask) (poll : Poll) :
    Counted t (t.step quiet poll).1 poll (t.step quiet poll).2 := by
  have first := terminal_counted t poll
  have silent := (HostWords.terminal_frame t poll).2.1
  have stepped := t.stepped quiet poll
  generalize t.step quiet poll = result at stepped ⊢
  cases stepped with
  | stopped left => exact counted_silent t t poll rfl rfl rfl rfl rfl
  | cut looping next out terminal =>
    rw [terminal] at first
    exact first
  | quits looping next out terminal quit =>
    rw [terminal] at first
    exact ⟨first.goes, first.stays, first.prints⟩
  | polls looping next out terminal others =>
    rw [terminal] at first silent
    exact first.serial quiet silent

/-- The variables agree with an account. -/
def Agrees (t : DatapathTask) (since : Option (Int × Nat)) : Prop :=
  ∀ goTime received, since = some (goTime, received) →
    t.beginTime = goTime ∧ t.bytecount = BitVec.ofNat 32 received

/-- An iteration keeps the variables in agreement with the account. -/
theorem step_agrees (quiet : CInt) {t : DatapathTask} {since : Option (Int × Nat)}
    (agrees : Agrees t since) (poll : Poll) :
    Agrees (t.step quiet poll).1 (account since (poll, (t.step quiet poll).2)) := by
  have counted := step_counted quiet t poll
  intro goTime received isAccount
  unfold account at isAccount
  cases go : (t.step quiet poll).2.any isGo with
  | true =>
    have next := counted.goes go
    simp only [go, if_true, Option.map_some, Option.some.injEq, Prod.mk.injEq, Nat.zero_add]
      at isAccount
    rw [← isAccount.1, ← isAccount.2]
    exact next
  | false =>
    have next := counted.stays go
    cases before : since with
    | none => simp [go, before] at isAccount
    | some held =>
      have start := agrees held.1 held.2 before
      simp only [go, before, Bool.false_eq_true, if_false, Option.map_some, Option.some.injEq,
        Prod.mk.injEq] at isAccount
      rw [← isAccount.1, ← isAccount.2, BitVec.ofNat_add, ← start.2, ← start.1]
      exact next

/-- Every report of a run uses the time of the last `g` and the number of bytes received since,
as far as an `int` holds it. -/
theorem reports_exact (quiet : CInt) {t : DatapathTask} {since : Option (Int × Nat)}
    (agrees : Agrees t since) (polls : List Poll) :
    ∀ r ∈ reports since (trace (DatapathTask.step quiet) t polls),
      r.bytecount = BitVec.ofNat 32 r.received ∧ r.beginTime = r.goTime := by
  induction polls generalizing t since with
  | nil => simp [reports]
  | cons poll rest ih =>
    intro r member
    rw [trace_cons, reports] at member
    cases List.mem_append.1 member with
    | inl now =>
      have counted := step_counted quiet t poll
      simp only [List.mem_flatMap, Option.mem_toList, List.mem_map] at now
      obtain ⟨⟨goTime, received⟩, isAccount, ⟨bytecount, beginTime⟩, printed, rfl⟩ := now
      have start := agrees goTime received isAccount
      have used := counted.prints _ printed
      rw [Prod.mk.injEq] at used
      exact ⟨used.1.trans start.2, used.2.trans start.1⟩
    | inr later => exact ih (step_agrees quiet agrees poll) r later

/-- A natural number kept in an `int` is read back exactly when it is below the sign bit. -/
theorem ofNat_toInt_iff (n : Nat) : (BitVec.ofNat 32 n).toInt = n ↔ n < 2 ^ 31 := by
  rw [BitVec.toInt_eq_toNat_cond, BitVec.toNat_ofNat]
  constructor
  · intro same
    split at same <;> omega
  · intro small
    have kept : n % 2 ^ 32 = n := Nat.mod_eq_of_lt (by omega)
    rw [kept, if_pos (by omega)]

/-- Byte accounting of the rate report. In every run, every rate printed after a first `g` uses
the time of the last `g` and the number of bytes that reads have returned since, modulo the
range of an `int`; so every count is right if and only if fewer than `2 ^ 31` bytes had been
received since the last `g` whenever a rate was printed. -/
theorem rate_accurate_iff (quiet : CInt) (beginTime : Int) (polls : List Poll) :
    let printed :=
      reports none (trace (DatapathTask.step quiet) (DatapathTask.start beginTime) polls)
    ((∀ r ∈ printed, r.Accurate) ↔ ∀ r ∈ printed, r.received < 2 ^ 31) ∧
      ∀ r ∈ printed, r.beginTime = r.goTime ∧ r.bytecount = BitVec.ofNat 32 r.received := by
  intro printed
  have agrees : Agrees (DatapathTask.start beginTime) none := by
    intro goTime received impossible
    contradiction
  have exactly : ∀ r ∈ printed, r.bytecount = BitVec.ofNat 32 r.received ∧ r.beginTime = r.goTime :=
    reports_exact quiet agrees polls
  have each : ∀ r ∈ printed, (r.Accurate ↔ r.received < 2 ^ 31) := by
    intro r member
    have made := exactly r member
    rw [Report.Accurate, made.1, ofNat_toInt_iff]
    exact and_iff_left made.2
  constructor
  · constructor
    · intro accurate r member
      exact (each r member).1 (accurate r member)
    · intro small r member
      exact (each r member).2 (small r member)
  · intro r member
    exact (exactly r member).symm

/-- An iteration with a key and no data. -/
def keyPoll (typed : UInt8) : Poll where
  stdin := .key typed
  flush := 0
  now := 0
  serial := .empty

/-- An iteration with no key and a full read. -/
def fullPoll : Poll where
  stdin := .empty
  flush := 0
  now := 0
  serial := .data (List.replicate 8 7) (by decide) (by decide)

/-- A `g`, some full reads, and an `s`. -/
def countedRun (n : Nat) : List Poll :=
  keyPoll 103 :: (List.replicate n fullPoll ++ [keyPoll 115])

/-- Full reads after a `g` are accounted for, and the loop goes on. -/
theorem fullPolls_reports (n : Nat) {t : DatapathTask} (looping : t.status = .looping)
    (go : t.valueStdin = charConst 'g') (goTime : Int) (received : Nat) :
    ∃ next : DatapathTask, next.status = .looping ∧
      reports (some (goTime, received))
          (trace (DatapathTask.step 0) t (List.replicate n fullPoll ++ [keyPoll 115])) =
        reports (some (goTime, received + 8 * n))
          (trace (DatapathTask.step 0) next [keyPoll 115]) := by
  induction n generalizing t received with
  | zero => exact ⟨t, looping, rfl⟩
  | succ n ih =>
    have step : ∃ next out, t.step 0 fullPoll = (next, out) ∧ next.status = .looping ∧
        next.valueStdin = charConst 'g' ∧ averages out = [] ∧ out.any isGo = false ∧
        (reads out).flatten.length = 8 := by
      have notQuit : charConst 'g' ≠ charConst 'q' := by decide
      simp only [DatapathTask.step, looping, if_true, DatapathTask.iterate, DatapathTask.terminal,
        fullPoll, go, if_neg notQuit]
      exact ⟨_, _, rfl, looping, go, rfl, rfl, rfl⟩
    cases step with
    | intro middle rest =>
      cases rest with
      | intro out facts =>
        have later := ih facts.2.1 facts.2.2.1 (received + 8)
        have total : received + 8 + 8 * n = received + 8 * (n + 1) := by omega
        have accounted : account (some (goTime, received)) (fullPoll, out) =
            some (goTime, received + 8) := by
          simp [account, facts.2.2.2.2.1, facts.2.2.2.2.2]
        rw [total] at later
        rw [List.replicate_succ, List.cons_append, trace_cons, facts.1, reports, accounted,
          facts.2.2.2.1]
        exact later

/-- An `s` reports the account. -/
theorem stop_reports {t : DatapathTask} (looping : t.status = .looping) (goTime : Int)
    (received : Nat) :
    ∃ bytecount beginTime,
      reports (some (goTime, received)) (trace (DatapathTask.step 0) t [keyPoll 115]) =
        [{ bytecount, beginTime, received, goTime }] := by
  refine ⟨t.bytecount, t.beginTime, ?_⟩
  simp only [trace_cons, trace_nil, DatapathTask.step, looping, if_true]
  rfl

/-- A `g` opens an account. -/
theorem go_reports (rest : List Poll) :
    reports none (trace (DatapathTask.step 0) (DatapathTask.start 0) (keyPoll 103 :: rest)) =
      reports (some (0, 0)) (trace (DatapathTask.step 0)
        { DatapathTask.start 0 with valueStdin := charConst 'g' } rest) := rfl

/-- The `s` at the end of such a run reports eight bytes for each full read. -/
theorem countedRun_reports (n : Nat) :
    ∃ bytecount beginTime,
      reports none (trace (DatapathTask.step 0) (DatapathTask.start 0) (countedRun n)) =
        [{ bytecount, beginTime, received := 8 * n, goTime := 0 }] := by
  have full := fullPolls_reports n
    (rfl : { DatapathTask.start 0 with valueStdin := charConst 'g' }.status = .looping) rfl 0 0
  cases full with
  | intro last facts =>
    rw [countedRun, go_reports, facts.2, Nat.zero_add]
    exact stop_reports facts.1 0 (8 * n)

/-- After `2 ^ 28` full reads, `2 ^ 31` bytes in all, the count used for the rate is not the
number of bytes received. -/
theorem countedRun_miscounts :
    ¬ ∀ r ∈ reports none (trace (DatapathTask.step 0) (DatapathTask.start 0)
      (countedRun (2 ^ 28))), r.Accurate := by
  cases countedRun_reports (2 ^ 28) with
  | intro bytecount rest =>
    cases rest with
    | intro beginTime isLast =>
      rw [isLast]
      intro accurate
      have agreement : bytecount.toInt = ((8 * 2 ^ 28 : Nat) : Int) :=
        (accurate _ (List.mem_singleton.2 rfl)).1
      have bound : 2 * bytecount.toInt < 2 ^ 32 := BitVec.two_mul_toInt_lt
      omega

end Olimex2378.Verif.Rate
