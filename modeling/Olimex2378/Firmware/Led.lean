import Olimex2378.Basis.CInt
import Olimex2378.Basis.Loop

/-!
# The LED flash functions

`stat_led_flash_slow`, `stat_led_flash`, `stat_led_flash_fast` and `led_flash` have one loop and
differ in the LEDs and in the interval that they choose for the clock rate. The value that
`interval` is declared with is never used, as every branch of the `switch` assigns it. A constant
product of a `double` is given as the `int` that it is converted to. The loop counts `x` up,
switches the LEDs on at the interval and off at twice the interval, and ends with the last of
the cycles, while the LEDs are on.
-/

namespace Olimex2378.Firmware.Led

/-- What `pllquery_cclk_mhz` returns, as far as the functions tell the values apart. -/
inductive Freq
  /-- `ZERO`. -/
  | zero
  /-- `FOURTY_EIGHT_MHZ`. -/
  | fourtyEightMhz
  /-- `SIXTY_MHZ`. -/
  | sixtyMhz
  /-- `SEVENTY_TWO_MHZ`. -/
  | seventyTwoMhz
  /-- Any other value. -/
  | other

/-- An access to the GPIO registers, with the bits of its mask. -/
inductive Gpio
  /-- `FIO_ENABLE`. -/
  | fioEnable
  /-- `FIO0DIR |= mask`. -/
  | fio0Dir (mask : BitVec 32)
  /-- `FIO0SET = mask`. -/
  | fio0Set (mask : BitVec 32)
  /-- `FIO0CLR = mask`. -/
  | fio0Clr (mask : BitVec 32)
  /-- `FIO1DIR |= mask`. -/
  | fio1Dir (mask : BitVec 32)
  /-- `FIO1SET = mask`. -/
  | fio1Set (mask : BitVec 32)
  /-- `FIO1CLR = mask`. -/
  | fio1Clr (mask : BitVec 32)
deriving DecidableEq

/-- What the loop does to its LEDs. -/
inductive Switch
  /-- On. -/
  | on
  /-- Off. -/
  | off
deriving DecidableEq

/-- A flash function: the clock rate's interval and the accesses to the LEDs' pins. -/
structure Flasher where
  /-- `interval` after the `switch`. -/
  interval : Freq → CInt
  /-- The accesses before the loop. -/
  enable : List Gpio
  /-- The accesses that switch the LEDs. -/
  access : Switch → List Gpio

/-- The variables of the loop. -/
structure Counters where
  /-- `x`. -/
  x : CInt
  /-- `cycles`. -/
  cycles : BitVec 32

/-- What one pass of the loop does. -/
structure Pass where
  /-- `x` after its increment. -/
  x : CInt
  /-- The LEDs being switched. -/
  switched : Option Switch

/-- The body of the loop; nothing when it breaks. -/
def pass (interval : CInt) (s : Counters) : Option (Counters × Pass) :=
  if s.cycles = 0 then none
  else
    let x := s.x + 1
    if x = interval then some ({ x, cycles := s.cycles - 1 }, { x, switched := some .on })
    else if x.toInt ≥ (interval * 2).toInt then
      some ({ s with x := 0 }, { x, switched := some .off })
    else some ({ s with x }, { x, switched := none })

/-- The passes of a flash function. -/
def Flasher.flash (flasher : Flasher) (cclk : Freq) (cycles : BitVec 32) (fuel : Nat) :
    Option (List Pass) :=
  let interval := flasher.interval cclk
  if cycles > 0 then Loop.run (pass interval) fuel { x := 0, cycles } else some []

/-- All accesses of a flash function that makes some passes. -/
def Flasher.accesses (flasher : Flasher) (passes : List Pass) : List Gpio :=
  flasher.enable ++ (passes.filterMap Pass.switched).flatMap flasher.access

/-- `STAT_LED_ON` and `STAT_LED_OFF`. -/
def statLed : Switch → List Gpio
  | .on => [.fio1Clr (1 <<< 19)]
  | .off => [.fio1Set (1 <<< 19)]

/-- `stat_led_flash_slow`. -/
def statLedFlashSlow : Flasher where
  interval
    | .zero => 100000
    | .fourtyEightMhz => 4800000
    | .sixtyMhz => 6000000
    | .seventyTwoMhz => 7200000
    | .other => 100000
  enable := [.fioEnable, .fio1Dir (1 <<< 19)]
  access := statLed

/-- `stat_led_flash`. -/
def statLedFlash : Flasher where
  interval
    | .zero => 100000
    | .fourtyEightMhz => 480000
    | .sixtyMhz => 600000
    | .seventyTwoMhz => 720000
    | .other => 100000
  enable := [.fioEnable, .fio1Dir (1 <<< 19)]
  access := statLed

/-- `stat_led_flash_fast`. -/
def statLedFlashFast : Flasher where
  interval
    | .zero => 100000
    | .fourtyEightMhz => 240000
    | .sixtyMhz => 180000
    | .seventyTwoMhz => 72000
    | .other => 100000
  enable := [.fioEnable, .fio1Dir (1 <<< 19)]
  access := statLed

/-- `led_flash` of `led-test.c`, with the pins `P0_0`, `P0_1`, `P0_27` and `P0_28`. -/
def ledFlash : Flasher where
  interval
    | .zero => 100000
    | .fourtyEightMhz => 480000
    | .sixtyMhz => 600000
    | .seventyTwoMhz => 720000
    | .other => 100000
  enable := [.fioEnable, .fio0Dir (1 <<< 0), .fio0Dir (1 <<< 1), .fio0Dir (1 <<< 27),
    .fio0Dir (1 <<< 28)]
  access
    | .on => [.fio0Set (1 <<< 0), .fio0Set (1 <<< 1), .fio0Set (1 <<< 27), .fio0Set (1 <<< 28)]
    | .off => [.fio0Clr (1 <<< 0), .fio0Clr (1 <<< 1), .fio0Clr (1 <<< 27), .fio0Clr (1 <<< 28)]

/-- The four flash functions. -/
def flashFunctions : List Flasher := [statLedFlashSlow, statLedFlash, statLedFlashFast, ledFlash]

end Olimex2378.Firmware.Led
