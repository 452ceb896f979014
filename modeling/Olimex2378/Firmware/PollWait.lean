import Olimex2378.Firmware.Led

/-!
# Waiting for an I2C transaction

`poll_wait` of `eeprom-test.c`, `bq3060-test.c` and `twodevice-test.c`, and the same loop where
`blinkm-test.c` and `twodevice-test.c` have it in their tasks. They differ in the semaphore and
in the number of polls from one switch of the LED to the next. The loop is given the value that
every one of its calls of `is_binsem_locked` returns, and ends with the first that is not 1.
-/

namespace Olimex2378.Firmware.I2c

open Led (Gpio Switch statLed)

/-- The semaphores of the I2C channels. -/
inductive Binsem
  /-- `i2c0_binsem_g`. -/
  | i2c0
  /-- `i2c1_binsem_g`. -/
  | i2c1

/-- A waiting loop. -/
structure Wait where
  /-- The semaphore that it polls. -/
  binsem : Binsem
  /-- The constant of its name that ends in `_POLL_WAITTICKS`. -/
  waitticks : BitVec 32

/-- The variables of the loop. -/
structure Waiting where
  /-- `i`. -/
  i : BitVec 32
  /-- `on`. -/
  on : BitVec 32
  /-- The calls of `is_binsem_locked` made. -/
  polls : Nat

/-- What one pass of the loop does. -/
structure Tick where
  /-- `i` after its increment. -/
  i : BitVec 32
  /-- The LED being switched. -/
  switched : Option Switch

/-- The variables before the loop. -/
def Waiting.start : Waiting where
  i := 0
  on := 0
  polls := 0

/-- The loop's condition and body; nothing when the loop ends. -/
def Wait.tick (wait : Wait) (isBinsemLocked : Binsem → Nat → CInt) (s : Waiting) :
    Option (Waiting × Tick) :=
  if isBinsemLocked wait.binsem s.polls = 1 then
    let i := s.i + 1
    let polls := s.polls + 1
    if i % wait.waitticks = 0 then
      if s.on = 0 then some ({ i := 0, on := 1, polls }, { i, switched := some .on })
      else some ({ i := 0, on := 0, polls }, { i, switched := some .off })
    else some ({ s with i, polls }, { i, switched := none })
  else none

/-- The passes of a waiting loop. -/
def Wait.pollWait (wait : Wait) (isBinsemLocked : Binsem → Nat → CInt) (fuel : Nat) :
    Option (List Tick) :=
  Loop.run (wait.tick isBinsemLocked) fuel Waiting.start

/-- All accesses of a wait that makes some passes. -/
def accesses (ticks : List Tick) : List Gpio :=
  statLed .off ++ (ticks.filterMap Tick.switched).flatMap statLed

/-- `poll_wait` of `eeprom-test.c`, with `EEPROM_POLL_WAITTICKS`. -/
def eepromPollWait : Wait where
  binsem := .i2c0
  waitticks := 500000

/-- `poll_wait` of `bq3060-test.c`, with `BQ3060_POLL_WAITTICKS`. -/
def bq3060PollWait : Wait where
  binsem := .i2c1
  waitticks := 500000

/-- `poll_wait` of `twodevice-test.c`, with `EEPROM_POLL_WAITTICKS`. -/
def twodevicePollWait : Wait where
  binsem := .i2c0
  waitticks := 500000

/-- The loops of `blinkm_task_i2c0`, with `BLINKM_POLL_WAITTICKS`. -/
def blinkmTaskI2c0Poll : Wait where
  binsem := .i2c0
  waitticks := 500000

/-- The loops of `blinkm_task_i2c1`, with `BLINKM_POLL_WAITTICKS`. -/
def blinkmTaskI2c1Poll : Wait where
  binsem := .i2c1
  waitticks := 500000

/-- The waiting loops. -/
def pollWaits : List Wait :=
  [eepromPollWait, bq3060PollWait, twodevicePollWait, blinkmTaskI2c0Poll, blinkmTaskI2c1Poll]

end Olimex2378.Firmware.I2c
