import Olimex2378.Firmware.Led

/-!
# The time of the flash loops

The passes of a flash loop fall into half periods of one interval each, with a switch in the
last pass of each: on in the first, off in the second, and so on. The counter of the cycles goes
down in the middle of a period of `x`, so the loop ends with a switch on, in the middle of its
last period.
-/

namespace Olimex2378.Verif.Flash

open Firmware.Led Loop

/-- `x` with some value. -/
def counted (n : Nat) : CInt := BitVec.ofNat 32 n

/-- A value that an `int` can have is read back. -/
theorem counted_toInt {n : Nat} (small : n ≤ 2147483647) : (counted n).toInt = n := by
  have number : (counted n).toNat = n := by
    rw [counted, BitVec.toNat_ofNat]
    omega
  rw [BitVec.toInt_eq_toNat_cond, number, if_pos (by omega)]

/-- The next value. -/
theorem counted_succ (n : Nat) : counted n + 1 = counted (n + 1) := by
  rw [counted, counted, BitVec.ofNat_add]
  rfl

/-- An interval of the code as a number, twice which an `int` can have. -/
structure Period (interval : CInt) (period : Nat) : Prop where
  /-- The interval is the number. -/
  value : interval.toInt = period
  /-- It is not zero. -/
  positive : 1 ≤ period
  /-- Twice the interval is an `int`. -/
  representable : 2 * period ≤ 2147483647

section Passes

variable {interval : CInt} {period : Nat}

/-- `x` is at the interval exactly when its value is. -/
theorem Period.reached_iff (isPeriod : Period interval period) {n : Nat}
    (small : n ≤ 2147483647) : counted n = interval ↔ n = period := by
  rw [← BitVec.toInt_inj, counted_toInt small, isPeriod.value, Int.natCast_inj]

/-- Twice the interval. -/
theorem Period.twice (isPeriod : Period interval period) :
    (interval * 2).toInt = 2 * period := by
  have bounds := isPeriod.representable
  have isCounted : counted period = interval := (isPeriod.reached_iff (by omega)).2 rfl
  have doubled : interval * 2 = counted (2 * period) := by
    rw [← isCounted, Nat.mul_comm, counted, counted, BitVec.ofNat_mul]
    rfl
  rw [doubled, counted_toInt bounds]
  omega

/-- One pass with cycles left, from every value of `x` that the loop can have. -/
theorem Period.pass_eq (isPeriod : Period interval period) {cycles : BitVec 32}
    (left : cycles ≠ 0) {n : Nat} (below : n < 2 * period) :
    pass interval ⟨counted n, cycles⟩ =
      if n + 1 = period then
        some (⟨counted (n + 1), cycles - 1⟩, ⟨counted (n + 1), some .on⟩)
      else if 2 * period ≤ n + 1 then
        some (⟨0, cycles⟩, ⟨counted (n + 1), some .off⟩)
      else some (⟨counted (n + 1), cycles⟩, ⟨counted (n + 1), none⟩) := by
  have bounds := isPeriod.representable
  have small : n + 1 ≤ 2147483647 := by omega
  have wraps : ((interval * 2).toInt ≤ (counted (n + 1)).toInt) ↔ 2 * period ≤ n + 1 := by
    rw [isPeriod.twice, counted_toInt small]
    omega
  rw [Firmware.Led.pass, if_neg left]
  show (if counted n + 1 = interval then _ else _) = _
  rw [counted_succ]
  simp only [isPeriod.reached_iff small, ge_iff_le, wraps]

/-- The passes of `x` over some values at which nothing is switched. -/
def quiet (n count : Nat) : List Pass :=
  (List.range' (n + 1) count).map fun value => { x := counted value, switched := none }

/-- Up to the next switch the loop only counts. -/
theorem Period.quiet_passes (isPeriod : Period interval period) {cycles : BitVec 32}
    (left : cycles ≠ 0) (n count : Nat)
    (between : ∀ value, n < value → value ≤ n + count → value ≠ period ∧ value < 2 * period) :
    Passes (pass interval) ⟨counted n, cycles⟩ (quiet n count) ⟨counted (n + count), cycles⟩ := by
  induction count generalizing n with
  | zero => exact .none _
  | succ count ih =>
    have here := between (n + 1) (by omega) (by omega)
    have first : pass interval ⟨counted n, cycles⟩ =
        some (⟨counted (n + 1), cycles⟩, ⟨counted (n + 1), none⟩) := by
      rw [isPeriod.pass_eq left (by omega), if_neg here.1, if_neg (by omega)]
    have later := ih (n + 1) fun value above within => between value (by omega) (by omega)
    have last : n + (count + 1) = n + 1 + count := by omega
    rw [last, quiet, List.range'_succ, List.map_cons]
    exact .next first later

/-- The switch at the end of a half period. -/
def phase (k : Nat) : Switch := if k % 2 = 0 then .on else .off

/-- The value of `x` at the start of a half period. -/
def start (period k : Nat) : Nat := if k % 2 = 0 then 0 else period

/-- An even half period starts at zero and ends with the LEDs on. -/
theorem half_even (period : Nat) {k : Nat} (even : k % 2 = 0) :
    start period k = 0 ∧ phase k = .on ∧ start period (k + 1) = period := by
  have next : ¬ (k + 1) % 2 = 0 := by omega
  rw [start, phase, start, if_pos even, if_pos even, if_neg next]
  exact ⟨rfl, rfl, rfl⟩

/-- An odd half period starts at the interval and ends with the LEDs off. -/
theorem half_odd (period : Nat) {k : Nat} (odd : ¬ k % 2 = 0) :
    start period k = period ∧ phase k = .off ∧ start period (k + 1) = 0 := by
  have next : (k + 1) % 2 = 0 := by omega
  rw [start, phase, start, if_neg odd, if_neg odd, if_pos next]
  exact ⟨rfl, rfl, rfl⟩

/-- The passes of a half period. -/
def half (period k : Nat) : List Pass :=
  quiet (start period k) (period - 1) ++
    [{ x := counted (start period k + period), switched := some (phase k) }]

/-- The variables at the start of a half period. -/
def atHalf (period : Nat) (cycles : BitVec 32) (k : Nat) : Counters where
  x := counted (start period k)
  cycles := BitVec.ofNat 32 (cycles.toNat - (k + 1) / 2)

/-- There are cycles left before the end of the last half period. -/
theorem cycles_left {cycles : BitVec 32} {k : Nat} (within : k < 2 * cycles.toNat - 1) :
    BitVec.ofNat 32 (cycles.toNat - (k + 1) / 2) ≠ 0 := by
  intro zero
  have number := congrArg BitVec.toNat zero
  have bound := cycles.isLt
  rw [BitVec.toNat_ofNat] at number
  change _ = 0 at number
  omega

/-- A number of cycles that is not zero, less one. -/
theorem cycles_pred {count : Nat} (positive : 1 ≤ count) :
    BitVec.ofNat 32 count - 1 = BitVec.ofNat 32 (count - 1) := by
  have split : BitVec.ofNat 32 count = BitVec.ofNat 32 (count - 1) + 1 := by
    have sum : count - 1 + 1 = count := by omega
    rw [← sum, BitVec.ofNat_add, sum]
    rfl
  rw [split, BitVec.add_sub_cancel]

/-- Before its last pass a half period does not reach a value at which the LEDs are switched. -/
theorem between_switches {period k value : Nat} (above : start period k < value)
    (below : value < start period k + period) : value ≠ period ∧ value < 2 * period := by
  unfold start at above below
  by_cases even : k % 2 = 0
  · rw [if_pos even] at above below
    omega
  · rw [if_neg even] at above below
    omega

/-- The last pass of a half period switches the LEDs and leads to the start of the next one. -/
theorem Period.switching_pass (isPeriod : Period interval period) (cycles : BitVec 32) {k : Nat}
    (within : k < 2 * cycles.toNat - 1) :
    pass interval ⟨counted (start period k + (period - 1)),
        BitVec.ofNat 32 (cycles.toNat - (k + 1) / 2)⟩ =
      some (atHalf period cycles (k + 1),
        { x := counted (start period k + period), switched := some (phase k) }) := by
  have positive := isPeriod.positive
  have left := cycles_left within
  have last : start period k + (period - 1) + 1 = start period k + period := by omega
  -- An even half period reaches the interval itself and uses up a cycle, an odd one reaches
  -- twice the interval and sets `x` back.
  by_cases even : k % 2 = 0
  · obtain ⟨fromZero, on, nextFrom⟩ := half_even period even
    have fewer : cycles.toNat - (k + 1) / 2 - 1 = cycles.toNat - (k + 1 + 1) / 2 := by omega
    rw [isPeriod.pass_eq left (by omega), last, if_pos (by omega), cycles_pred (by omega),
      fewer, atHalf, nextFrom, fromZero, Nat.zero_add, on]
  · obtain ⟨fromInterval, off, nextFrom⟩ := half_odd period even
    have same : (k + 1) / 2 = (k + 1 + 1) / 2 := by omega
    rw [isPeriod.pass_eq left (by omega), last, if_neg (by omega), if_pos (by omega), atHalf,
      nextFrom, off, same]
    rfl

/-- A half period leads to the start of the next one. -/
theorem Period.half_passes (isPeriod : Period interval period) (cycles : BitVec 32) {k : Nat}
    (within : k < 2 * cycles.toNat - 1) :
    Passes (pass interval) (atHalf period cycles k) (half period k)
      (atHalf period cycles (k + 1)) := by
  have positive := isPeriod.positive
  have counting := isPeriod.quiet_passes (cycles_left within) (start period k) (period - 1)
    fun value above upto => between_switches above (by omega)
  exact counting.append (.next (isPeriod.switching_pass cycles within) (.none _))

/-- A half period has as many passes as the interval. -/
theorem length_half {period : Nat} (positive : 1 ≤ period) (k : Nat) :
    (half period k).length = period := by
  rw [half, List.length_append, quiet, List.length_map, List.length_range', List.length_singleton]
  omega

/-- The one switch of a half period is in its last pass. -/
theorem timed_half {period : Nat} (positive : 1 ≤ period) (k time : Nat) :
    timed Pass.switched time (half period k) = [(time + period, phase k)] := by
  have silent : ∀ output ∈ quiet (start period k) (period - 1), output.switched = none := by
    intro output member
    rw [quiet, List.mem_map] at member
    obtain ⟨value, -, same⟩ := member
    rw [← same]
  have single := timed_segment Pass.switched time silent
    (rfl : Pass.switched ⟨counted (start period k + period), some (phase k)⟩ = some (phase k))
  rw [← half, length_half positive] at single
  exact single

/-- In a half period `x` stays within twice the interval. -/
theorem half_bound {period : Nat} (representable : 2 * period ≤ 2147483647) {k : Nat}
    {made : Pass} (member : made ∈ half period k) : made.x.toInt ≤ 2 * period := by
  have fromStart : start period k ≤ period := by
    unfold start
    split <;> omega
  rw [half, List.mem_append, List.mem_singleton] at member
  rcases member with counting | switching
  · rw [quiet, List.mem_map] at counting
    obtain ⟨value, inside, same⟩ := counting
    rw [List.mem_range'_1] at inside
    rw [← same]
    show (counted value).toInt ≤ _
    rw [counted_toInt (by omega)]
    omega
  · rw [switching]
    show (counted (start period k + period)).toInt ≤ _
    rw [counted_toInt (by omega)]
    omega

/-- The passes of a loop are its half periods: two for each cycle, less the last switch off. -/
theorem Period.flash_halves (flasher : Flasher) (cclk : Freq) {cycles : BitVec 32}
    (someCycles : 1 ≤ cycles.toNat) (isPeriod : Period (flasher.interval cclk) period)
    {fuel : Nat} (enough : (2 * cycles.toNat - 1) * period < fuel) :
    flasher.flash cclk cycles fuel =
      some ((List.range (2 * cycles.toNat - 1)).flatMap (half period)) := by
  have bound := cycles.isLt
  have passes := passes_segments fun k below => isPeriod.half_passes cycles (k := k) below
  have first : atHalf period cycles 0 = { x := 0, cycles } := by
    have all : BitVec.ofNat 32 (cycles.toNat - (0 + 1) / 2) = cycles := by
      show BitVec.ofNat 32 cycles.toNat = cycles
      rw [BitVec.ofNat_toNat, BitVec.setWidth_eq]
    rw [atHalf, all]
    rfl
  have noneLeft : (atHalf period cycles (2 * cycles.toNat - 1)).cycles = 0 := by
    have done : cycles.toNat - (2 * cycles.toNat - 1 + 1) / 2 = 0 := by omega
    rw [atHalf, done]
    rfl
  have leaves : pass (flasher.interval cclk) (atHalf period cycles (2 * cycles.toNat - 1)) =
      none := by
    rw [Firmware.Led.pass, if_pos noneLeft]
  have length := length_segments (length_half isPeriod.positive) (2 * cycles.toNat - 1)
  have positive : cycles > 0 := by
    show 0 < cycles.toNat
    omega
  rw [Flasher.flash]
  show (if cycles > 0 then _ else _) = _
  rw [if_pos positive, ← first]
  exact run_of_passes passes leaves (by omega)

/-- The switches of some half periods, in turn on and off. -/
theorem switches_of_halves {period : Nat} (positive : 1 ≤ period) (count : Nat) :
    ((List.range count).flatMap (half period)).filterMap Pass.switched =
      (List.range count).map phase := by
  have switches := timed_segments Pass.switched (length_half positive) (timed_half positive) count
  rw [← timed_events Pass.switched 0, switches, List.map_map]
  rfl

/-- The flash loops keep exact time and end. For every flash function, clock rate, number of
cycles from one and interval from one that an `int` can have twice: the loop returns after
exactly `(2 * cycles - 1) * interval` increments of `x`, its switches are one interval apart,
the first one after one interval, in turn on and off, starting with on, `cycles` of them on and
`cycles - 1` off, and `x` stays within twice the interval. -/
theorem flash_exact (flasher : Flasher) (cclk : Freq) (cycles : BitVec 32) (interval : Nat)
    (someCycles : 1 ≤ cycles.toNat) (chosen : (flasher.interval cclk).toInt = interval)
    (positive : 1 ≤ interval) (representable : 2 * interval ≤ 2147483647) (fuel : Nat)
    (enough : (2 * cycles.toNat - 1) * interval < fuel) :
    ∃ passes, flasher.flash cclk cycles fuel = some passes ∧
      passes.length = (2 * cycles.toNat - 1) * interval ∧
      timed Pass.switched 0 passes = (List.range (2 * cycles.toNat - 1)).map
        (fun k => ((k + 1) * interval, if k % 2 = 0 then Switch.on else Switch.off)) ∧
      (passes.filterMap Pass.switched).count .on = cycles.toNat ∧
      (passes.filterMap Pass.switched).count .off = cycles.toNat - 1 ∧
      ∀ made ∈ passes, made.x.toInt ≤ 2 * interval := by
  have isPeriod : Period (flasher.interval cclk) interval := ⟨chosen, positive, representable⟩
  have switches := timed_segments Pass.switched (length_half positive)
    (timed_half positive) (2 * cycles.toNat - 1)
  have counts := count_alternating (show Switch.on ≠ Switch.off by decide)
    (2 * cycles.toNat - 1)
  have events := switches_of_halves positive (2 * cycles.toNat - 1)
  refine ⟨_, isPeriod.flash_halves flasher cclk someCycles enough,
    length_segments (length_half positive) _, switches, ?_, ?_, ?_⟩
  · rw [events]
    exact counts.1.trans (by omega)
  · rw [events]
    exact counts.2.trans (by omega)
  · intro made member
    obtain ⟨k, -, inside⟩ := List.mem_flatMap.1 member
    exact half_bound representable inside

/-- The fast flash at the highest clock rate, for two cycles. -/
theorem flash_exact_twice :
    ∃ passes, statLedFlashFast.flash .seventyTwoMhz 2 216001 = some passes ∧
      passes.length = 216000 ∧
      timed Pass.switched 0 passes = [(72000, .on), (144000, .off), (216000, .on)] := by
  have exactly := flash_exact statLedFlashFast .seventyTwoMhz 2 72000 (by decide) (by decide)
    (by decide) (by decide) 216001 (by decide)
  obtain ⟨passes, returned, length, switches, -⟩ := exactly
  exact ⟨passes, returned, length, switches⟩

end Passes

/-- Every interval that the four functions choose is one that their loop keeps time with. -/
theorem chosen_intervals (cclk : Freq) :
    ∀ flasher ∈ flashFunctions,
      ∃ period, Period (flasher.interval cclk) period := by
  have within : ∀ flasher ∈ flashFunctions,
      1 ≤ (flasher.interval cclk).toInt ∧ 2 * (flasher.interval cclk).toInt ≤ 2147483647 := by
    simp only [flashFunctions, List.forall_mem_cons, List.not_mem_nil, false_implies,
      implies_true, and_true]
    cases cclk <;> decide
  intro flasher member
  obtain ⟨positive, representable⟩ := within flasher member
  exact ⟨(flasher.interval cclk).toInt.toNat, by omega, by omega, by omega⟩

/-- At every clock rate each of the four functions returns, and what it does to the pins is to
enable them and to switch the LEDs on and off in turn, for the last time on. -/
theorem flash_accesses (cclk : Freq) {cycles : BitVec 32} (someCycles : 1 ≤ cycles.toNat) :
    ∀ flasher ∈ flashFunctions,
      ∃ fuel passes, flasher.flash cclk cycles fuel = some passes ∧
        flasher.accesses passes = flasher.enable ++
          ((List.range (2 * cycles.toNat - 1)).map phase).flatMap flasher.access := by
  intro flasher member
  obtain ⟨period, isPeriod⟩ := chosen_intervals cclk flasher member
  have returned := isPeriod.flash_halves flasher cclk someCycles (Nat.lt_succ_self _)
  refine ⟨_, _, returned, ?_⟩
  rw [Flasher.accesses, switches_of_halves isPeriod.positive]

end Olimex2378.Verif.Flash
