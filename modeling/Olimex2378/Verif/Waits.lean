import Mathlib.Algebra.Order.Group.Nat
import Mathlib.Data.Nat.ModEq
import Olimex2378.Firmware.PollWait

/-!
# The time of the waiting loops

The polls of a wait alone say how far it is: `i` is their number modulo the period and `on` the
parity of the periods that are over. So a wait that is let go after some polls has made as many
passes, and the LED has changed at the multiples of the period that lie within them.
-/

namespace Olimex2378.Verif.Waits

open Firmware.I2c Firmware.Led Loop

/-- The switch at the end of a period. -/
def phase (k : Nat) : Switch := if k % 2 = 0 then .on else .off

/-- The variables after some polls that all found the semaphore locked. -/
def polled (period count : Nat) : Waiting where
  i := BitVec.ofNat 32 (count % period)
  on := BitVec.ofNat 32 (count / period % 2)
  polls := count

/-- The pass that follows them. -/
def tickAt (period count : Nat) : Tick where
  i := BitVec.ofNat 32 (count % period + 1)
  switched := if (count + 1) % period = 0 then some (phase (count / period)) else none

/-- The passes of so many polls. -/
def ticks (period count : Nat) : List Tick :=
  (List.range count).flatMap fun k => [tickAt period k]

/-- There is one for each. -/
theorem length_ticks (period count : Nat) : (ticks period count).length = count := by
  have ones : ∀ k, [tickAt period k].length = 1 := fun _ => rfl
  rw [ticks, length_segments ones, Nat.mul_one]

/-- Before the loop there are none. -/
theorem polled_zero (period : Nat) : polled period 0 = Waiting.start := by
  rw [polled, Nat.zero_mod, Nat.zero_div]
  rfl

section Arithmetic

variable {period : Nat}

/-- A count that ends a period starts the next one. -/
theorem div_of_ends {count : Nat} (ends : (count + 1) % period = 0) :
    (count + 1) / period = count / period + 1 := by
  rw [Nat.succ_div, if_pos (Nat.dvd_of_mod_eq_zero ends)]

/-- A count that does not end a period is in the one before. -/
theorem div_of_within {count : Nat} (within : (count + 1) % period ≠ 0) :
    (count + 1) / period = count / period := by
  rw [Nat.succ_div, if_neg fun divides => within (Nat.mod_eq_zero_of_dvd divides)]
  rfl

/-- Inside a period the place goes up by one. -/
theorem mod_of_within (positive : 1 ≤ period) {count : Nat}
    (within : (count + 1) % period ≠ 0) : (count + 1) % period = count % period + 1 := by
  have place : count % period < period := Nat.mod_lt count positive
  have joined : (count % period + 1) % period = (count + 1) % period :=
    Nat.mod_add_mod count period 1
  have inside : count % period + 1 < period := by
    apply Nat.lt_of_le_of_ne place
    intro full
    apply within
    have whole : count % period + 1 = period := full
    rw [← joined, whole, Nat.mod_self]
  rw [← joined, Nat.mod_eq_of_lt inside]

end Arithmetic

section Loop

variable {wait : Wait} {isBinsemLocked : Binsem → Nat → CInt}

/-- One pass, after any number of polls. -/
theorem tick_polled (positive : 1 ≤ wait.waitticks.toNat) {count : Nat}
    (locked : isBinsemLocked wait.binsem count = 1) :
    wait.tick isBinsemLocked (polled wait.waitticks.toNat count) =
      some (polled wait.waitticks.toNat (count + 1), tickAt wait.waitticks.toNat count) := by
  generalize named : wait.waitticks.toNat = period at positive
  have place : count % period < period := Nat.mod_lt count positive
  have bound : period < 2 ^ 32 := by
    rw [← named]
    exact wait.waitticks.isLt
  have next : BitVec.ofNat 32 (count % period) + 1 = BitVec.ofNat 32 (count % period + 1) := by
    rw [BitVec.ofNat_add]
    rfl
  have number : (BitVec.ofNat 32 (count % period + 1)).toNat = count % period + 1 := by
    rw [BitVec.toNat_ofNat]
    apply Nat.mod_eq_of_lt
    omega
  have ends_iff : BitVec.ofNat 32 (count % period + 1) % wait.waitticks = 0 ↔
      (count + 1) % period = 0 := by
    rw [← BitVec.toNat_inj, BitVec.toNat_umod, number, named, Nat.mod_add_mod]
    rfl
  have on_iff : BitVec.ofNat 32 (count / period % 2) = 0 ↔ count / period % 2 = 0 := by
    have two : count / period % 2 < 2 := Nat.mod_lt _ (by omega)
    rw [← BitVec.toNat_inj, BitVec.toNat_ofNat, Nat.mod_eq_of_lt (by omega)]
    rfl
  show (if isBinsemLocked wait.binsem count = 1 then _ else _) = _
  rw [if_pos locked]
  simp only [polled, tickAt, next, ends_iff, on_iff]
  by_cases ends : (count + 1) % period = 0
  · rw [if_pos ends, if_pos ends, ends, div_of_ends ends]
    by_cases even : count / period % 2 = 0
    · have odd : (count / period + 1) % 2 = 1 := by omega
      rw [if_pos even, odd, phase, if_pos even]
      rfl
    · have even' : (count / period + 1) % 2 = 0 := by omega
      rw [if_neg even, even', phase, if_neg even]
      rfl
  · rw [if_neg ends, if_neg ends, div_of_within ends, mod_of_within positive ends]

/-- The passes while the semaphore is locked. -/
theorem locked_passes (positive : 1 ≤ wait.waitticks.toNat) (count : Nat)
    (locked : ∀ k < count, isBinsemLocked wait.binsem k = 1) :
    Passes (wait.tick isBinsemLocked) Waiting.start (ticks wait.waitticks.toNat count)
      (polled wait.waitticks.toNat count) := by
  rw [← polled_zero wait.waitticks.toNat]
  apply passes_segments
  intro k below
  exact .next (tick_polled positive (locked k below)) (.none _)

/-- A wait that is let go after some polls returns. -/
theorem pollWait_freed (positive : 1 ≤ wait.waitticks.toNat) {count fuel : Nat}
    (locked : ∀ k < count, isBinsemLocked wait.binsem k = 1)
    (freed : isBinsemLocked wait.binsem count ≠ 1) (enough : count < fuel) :
    wait.pollWait isBinsemLocked fuel = some (ticks wait.waitticks.toNat count) := by
  have leaves : wait.tick isBinsemLocked (polled wait.waitticks.toNat count) = none :=
    if_neg freed
  apply run_of_passes (locked_passes positive count locked) leaves
  rwa [length_ticks]

/-- A wait whose semaphore stays locked does not return. -/
theorem run_locked (positive : 1 ≤ wait.waitticks.toNat)
    (locked : ∀ k, isBinsemLocked wait.binsem k = 1) (fuel count : Nat) :
    Loop.run (wait.tick isBinsemLocked) fuel (polled wait.waitticks.toNat count) = none := by
  induction fuel generalizing count with
  | zero => rfl
  | succ fuel ih =>
    rw [Loop.run, tick_polled positive (locked count)]
    show Option.map _ (Loop.run _ fuel _) = none
    rw [ih (count + 1), Option.map_none]

end Loop

/-- The switches of the passes are one period apart. -/
theorem timed_ticks (period count : Nat) :
    timed Tick.switched 0 (ticks period count) =
      (List.range (count / period)).map fun k => ((k + 1) * period, phase k) := by
  induction count with
  | zero =>
    rw [Nat.zero_div]
    rfl
  | succ count ih =>
    have more : ticks period (count + 1) = ticks period count ++ [tickAt period count] := by
      rw [ticks, List.range_succ, List.flatMap_append, List.flatMap_singleton]
      rfl
    rw [more, timed_append, ih, length_ticks, Nat.zero_add]
    by_cases ends : (count + 1) % period = 0
    · have whole : (count + 1) / period * period = count + 1 :=
        Nat.div_mul_cancel (Nat.dvd_of_mod_eq_zero ends)
      rw [div_of_ends ends] at whole ⊢
      rw [List.range_succ, List.map_append, List.map_singleton, whole, timed, tickAt, if_pos ends]
      rfl
    · rw [div_of_within ends, timed, tickAt, if_neg ends]
      exact List.append_nil _

/-- `i` does not pass the period. -/
theorem tickAt_bound {period : Nat} (positive : 1 ≤ period) (count : Nat) :
    (tickAt period count).i.toNat ≤ period := by
  have place : count % period < period := Nat.mod_lt count positive
  have reduced : (tickAt period count).i.toNat = (count % period + 1) % 2 ^ 32 :=
    BitVec.toNat_ofNat _ _
  have fewer := Nat.mod_le (count % period + 1) (2 ^ 32)
  omega

/-- The waits keep exact time, and end when they are let go. For every waiting loop whose period
is not zero and all values of its polls: when the first poll that does not return 1 comes after
some others, the loop returns after one pass for each of those, the LED is switched off before
it and then on and off in turn, starting with on, at the multiples of the period among the
passes and at no other, and `i` does not pass the period; when there is no such poll the loop
does not return. -/
theorem waits_exact (wait : Wait) (positive : wait.waitticks ≠ 0)
    (isBinsemLocked : Binsem → Nat → CInt) :
    let period := wait.waitticks.toNat
    (∀ count, (∀ k < count, isBinsemLocked wait.binsem k = 1) →
      isBinsemLocked wait.binsem count ≠ 1 → ∀ fuel, count < fuel →
        ∃ ticks, wait.pollWait isBinsemLocked fuel = some ticks ∧ ticks.length = count ∧
          timed Tick.switched 0 ticks = (List.range (count / period)).map
            (fun k => ((k + 1) * period, if k % 2 = 0 then Switch.on else Switch.off)) ∧
          accesses ticks = statLed .off ++ (List.range (count / period)).flatMap
            (fun k => statLed (if k % 2 = 0 then .on else .off)) ∧
          ∀ tick ∈ ticks, tick.i.toNat ≤ period) ∧
    ((∀ k, isBinsemLocked wait.binsem k = 1) →
      ∀ fuel, wait.pollWait isBinsemLocked fuel = none) := by
  intro period
  have least : 1 ≤ wait.waitticks.toNat := by
    apply Nat.pos_of_ne_zero
    intro zero
    exact positive (BitVec.eq_of_toNat_eq zero)
  refine ⟨?_, ?_⟩
  · intro count locked freed fuel enough
    have switches := timed_ticks period count
    refine ⟨_, pollWait_freed least locked freed enough, length_ticks period count, switches,
      ?_, ?_⟩
    · rw [accesses, ← timed_events Tick.switched 0, switches, List.map_map, List.flatMap_map]
      rfl
    · intro tick member
      obtain ⟨k, -, inside⟩ := List.mem_flatMap.1 member
      rw [List.mem_singleton.1 inside]
      exact tickAt_bound least k
  · intro locked fuel
    have never := run_locked least locked fuel 0
    rwa [polled_zero] at never

/-- A wait for the EEPROM that is let go after 1200000 polls. -/
theorem waits_exact_eeprom :
    ∃ ticks, eepromPollWait.pollWait (fun _ k => if k < 1200000 then 1 else 0) 1200001 =
        some ticks ∧
      ticks.length = 1200000 ∧
      timed Tick.switched 0 ticks = [(500000, .on), (1000000, .off)] := by
  have exactly := (waits_exact eepromPollWait (by decide)
    (fun _ k => if k < 1200000 then 1 else 0)).1 1200000 (fun k below => if_pos below) (by decide)
    1200001 (by decide)
  obtain ⟨ticks, returned, length, switches, -⟩ := exactly
  exact ⟨ticks, returned, length, switches⟩

/-- Every waiting loop of the tests has a period. -/
theorem pollWaits_periods : ∀ wait ∈ pollWaits, wait.waitticks ≠ 0 := by
  simp only [pollWaits, List.forall_mem_cons, List.not_mem_nil, false_implies, implies_true,
    and_true]
  decide

end Olimex2378.Verif.Waits
