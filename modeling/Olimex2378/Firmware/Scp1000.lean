import Olimex2378.Basis.CInt

/-!
# The readings of the pressure sensor

The functions of `scp1000-test.c` read the registers of the sensor over SPI. Every read of
`S0SPDR` takes the next word of a series that the device and the line decide; a register has
its data in the low bits of a word. What the functions do is kept as a list of actions. A
`uint16_t` is promoted to `int` for shifts and cut to 16 bits where it is stored or returned.
-/

namespace Olimex2378.Firmware.Scp1000

/-- The registers that are read, of `scp_regaddr`. -/
inductive ScpRegaddr
  /-- `REVID`. -/
  | revid
  /-- `STATUS`. -/
  | status
  /-- `DATARD8`. -/
  | datard8
  /-- `DATARD16`. -/
  | datard16
  /-- `TEMPOUT`. -/
  | tempout

/-- The value of an enumerator. -/
def ScpRegaddr.value : ScpRegaddr → CInt
  | .revid => 0x0
  | .status => 0x7
  | .datard8 => 0x1F
  | .datard16 => 0x20
  | .tempout => 0x21

/-- What the functions do, reads of `S0SPDR` included. -/
inductive Action
  /-- `SSEL_LOW`. -/
  | sselLow
  /-- `SSEL_HIGH`. -/
  | sselHigh
  /-- `spi_transact(data, SPI_16BITS)`. -/
  | spiTransact (data : CInt)
  /-- `spi_waitSPIF()`. -/
  | spiWaitSpif
  /-- A read of `S0SPDR`. -/
  | readS0spdr
  /-- `uart0_putstring(text)`. -/
  | putstring (text : String)
  /-- `printf_lpc(UART0, format, argument)`. -/
  | printf (format : String) (argument : CInt)
  /-- `util_waitticks(ticks)`. -/
  | waitticks (ticks : Nat)
deriving DecidableEq

/-- The words that reads of `S0SPDR` take, from the next one on. -/
abbrev Series := Nat → BitVec 16

/-- The board: the words to come and what was done. -/
structure Board where
  /-- The words to come. -/
  words : Series
  /-- What was done, in order. -/
  actions : List Action

/-- An action that takes no word. -/
def act (action : Action) : StateM Board Unit :=
  modify fun board => { board with actions := board.actions ++ [action] }

/-- `S0SPDR`, read once. -/
def s0spdr : StateM Board (BitVec 16) := fun board =>
  (board.words 0,
    { words := fun i => board.words (i + 1), actions := board.actions ++ [.readS0spdr] })

/-- One transaction: `spi_transact`, `spi_waitSPIF` and the read of `S0SPDR`. -/
def transaction (data : CInt) : StateM Board (BitVec 16) := do
  act (.spiTransact data)
  act .spiWaitSpif
  s0spdr

/-- `scp_create_register_read_address`. -/
def scpCreateRegisterReadAddress (regaddr : ScpRegaddr) : BitVec 8 :=
  (regaddr.value <<< 2).setWidth 8

/-- A register of one word, with the mask that its function uses. -/
def readRegister (data : CInt) (mask : BitVec 16) : StateM Board (BitVec 16) := do
  act .sselLow
  let word ← transaction data
  act .sselHigh
  return word &&& mask

/-- `scp_read_revid`, which does not shift the command as the other functions do. -/
def scpReadRevid : StateM Board (BitVec 16) :=
  readRegister ((scpCreateRegisterReadAddress .revid).setWidth 32) 0xf

/-- `scp_read_data8`. -/
def scpReadData8 : StateM Board (BitVec 16) :=
  readRegister ((scpCreateRegisterReadAddress .datard8).setWidth 32 <<< 8) 0x7

/-- `scp_read_data16`. -/
def scpReadData16 : StateM Board (BitVec 16) := do
  let cmdaddr := scpCreateRegisterReadAddress .datard16
  act .sselLow
  let dataHigh := (← transaction (cmdaddr.setWidth 32 <<< 8)) &&& 0xff
  let dataLow := (← transaction (cmdaddr.setWidth 32 <<< 8)) &&& 0xff
  act .sselHigh
  return ((dataHigh.setWidth 32 <<< 8) ||| dataLow.setWidth 32).setWidth 16

/-- `scp_read_status`. -/
def scpReadStatus : StateM Board (BitVec 16) :=
  readRegister ((scpCreateRegisterReadAddress .status).setWidth 32 <<< 8) 0xff

/-- `scp_read_temperature`, which masks neither word. -/
def scpReadTemperature : StateM Board (BitVec 16) := do
  let cmdaddr := scpCreateRegisterReadAddress .tempout
  act .sselLow
  let tempHighbits ← transaction (cmdaddr.setWidth 32 <<< 8)
  let tempLowbits ← transaction (cmdaddr.setWidth 32 <<< 8)
  act .sselHigh
  return ((tempHighbits.setWidth 32 <<< 8) ||| tempLowbits.setWidth 32).setWidth 16

/-- The variables of `scp_task` at its end. -/
structure Readings where
  /-- `rev`. -/
  rev : BitVec 16
  /-- `status`. -/
  status : BitVec 16
  /-- `pres_msb`. -/
  presMsb : BitVec 16
  /-- `pres_lsb`. -/
  presLsb : BitVec 16
  /-- `pres`. -/
  pres : BitVec 32
  /-- `temp`. -/
  temp : BitVec 16

/-- `scp_task`. -/
def scpTask : StateM Board Readings := do
  act (.putstring "scp task...\n")
  let rev ← scpReadRevid
  act (.printf "rev is: %d\n" (rev.setWidth 32))
  let status ← scpReadStatus
  act (.printf "status is: %d\n" (status.setWidth 32))
  let presMsb ← scpReadData8
  let presLsb ← scpReadData16
  let pres := (presMsb.setWidth 32 <<< 16) ||| presLsb.setWidth 32
  act (.printf "pressure is: %d\n" pres)
  let temp ← scpReadTemperature
  act (.printf "temperature is: %d\n" ((temp.setWidth 32).sdiv 20))
  act (.waitticks 2000000)
  return { rev, status, presMsb, presLsb, pres, temp }

end Olimex2378.Firmware.Scp1000
