import Olimex2378.Basis.CInt

/-!
# The serial port of the host

`init_port_raw`, `close_port` and `flush_port` of `serial-port.c`. What each system call
returns is given to the function that makes it. The settings of a terminal are of any type,
and the operations of `termios.h` on them are parameters; a `tcsetattr` that succeeds gives a
terminal new settings, and nothing else does. Error numbers are those of Linux.
-/

namespace Olimex2378.Host

/-- `EINTR`. -/
def eintr : CInt := 4

/-- `EIO`. -/
def eio : CInt := 5

/-- `EBADF`. -/
def ebadf : CInt := 9

/-- `EAGAIN`. -/
def eagain : CInt := 11

/-- `EFAULT`. -/
def efault : CInt := 14

/-- `EISDIR`. -/
def eisdir : CInt := 21

/-- `EINVAL`. -/
def einval : CInt := 22

/-- `ENOTTY`. -/
def enotty : CInt := 25

/-- What becomes of a system call that returns 0 or -1. -/
inductive SysCall
  /-- It succeeds. -/
  | done
  /-- It fails and sets `errno`. -/
  | failed (errno : CInt)
  deriving DecidableEq

/-- The value that the call returns. -/
def SysCall.value : SysCall → CInt
  | .done => 0
  | .failed _ => -1

/-- What the call leaves in a place that it writes when it succeeds. -/
def SysCall.store {α : Type} (call : SysCall) (written before : α) : α :=
  match call with
  | .done => written
  | .failed _ => before

/-- What the program uses of `termios.h`, on settings of some type. -/
structure TermiosLib (T : Type) where
  /-- The constant `B50`, `B75` and so on of a rate. -/
  baud : Int → BitVec 32
  /-- `cfmakeraw`. -/
  cfmakeraw : T → T
  /-- `cfsetispeed`. -/
  cfsetispeed : T → BitVec 32 → T
  /-- `cfsetospeed`. -/
  cfsetospeed : T → BitVec 32 → T
  /-- `c_cflag |= (CLOCAL | CREAD)`. -/
  setLocalRead : T → T
  /-- `c_lflag &= ~ICANON`. -/
  clearIcanon : T → T
  /-- `c_lflag |= ECHO`. -/
  setEcho : T → T
  /-- `c_cc[VMIN]`. -/
  setVmin : T → UInt8 → T
  /-- `c_cc[VTIME]`. -/
  setVtime : T → UInt8 → T

/-- The settings of the two terminals and the two variables that keep their originals. The
serial port and `stdin` are taken to be different terminals: a call that sets one of them leaves
the other as it is. -/
structure Session (T : Type) where
  /-- Settings of the serial port. -/
  port : T
  /-- Settings of `stdin`. -/
  stdin : T
  /-- `orig_tios`. -/
  origTios : T
  /-- `orig_stdin_tios`. -/
  origStdinTios : T
  /-- The `tcsetattr` that restores the serial port, when it has been called. -/
  portReset : Option SysCall
  /-- The `tcsetattr` that restores `stdin`, when it has been called. -/
  stdinReset : Option SysCall

/-- What a function leaves, returns and reports. -/
structure Returned (T : Type) where
  /-- The settings and originals. -/
  session : Session T
  /-- The value returned. -/
  value : CInt
  /-- The lines logged or printed. -/
  messages : List String

variable {T : Type}

/-- The rates that `init_port_raw` knows. -/
def rates : List Int :=
  [50, 75, 110, 134, 150, 200, 300, 600, 1200, 1800, 2400, 4800, 9600, 19200, 38400, 57600,
    115200]

/-- The system calls of `init_port_raw`. -/
structure PortCalls where
  /-- The value of `open`. -/
  opened : CInt
  /-- The `tcgetattr` whose result is looked at. -/
  tcgetattr : SysCall
  /-- The `tcgetattr` that keeps the original settings. -/
  tcgetattrOrig : SysCall
  /-- `tcsetattr`. -/
  tcsetattr : SysCall

/-- The settings that `init_port_raw` makes of others. -/
def rawTermios (lib : TermiosLib T) (speed : Int) (portTermios : T) : T :=
  let realspeed := lib.baud speed
  let portTermios := lib.cfmakeraw portTermios
  let portTermios := lib.cfsetispeed portTermios realspeed
  let portTermios := lib.cfsetospeed portTermios realspeed
  let portTermios := lib.setLocalRead portTermios
  let portTermios := lib.setVmin portTermios 1
  lib.setVtime portTermios 0

/-- `init_port_raw`; the result of its `close` after a failure is not looked at. -/
def initPortRaw (lib : TermiosLib T) (pathname : String) (speed : Int) (calls : PortCalls)
    (session : Session T) : Returned T :=
  if speed ∉ rates then
    { session, value := -1
      messages := ["init_port: unrecognized baud rate: " ++
        toString (BitVec.ofInt 32 speed).toInt] }
  else if calls.opened.slt 0 then
    { session, value := -1, messages := ["init_port: failed to open serial port " ++ pathname] }
  else if calls.tcgetattr.value ≠ 0 then
    { session, value := -1
      messages := ["init_port: failed to get attributes for serial port " ++ pathname] }
  else
    let portTermios := rawTermios lib speed session.port
    let session :=
      { session with origTios := calls.tcgetattrOrig.store session.port session.origTios }
    if calls.tcsetattr.value ≠ 0 then
      { session, value := -1
        messages := ["init_port: failed to set attributes for serial port " ++ pathname] }
    else { session := { session with port := portTermios }, value := calls.opened, messages := [] }

/-- `close_port`. Its `switch` compares the value of `close`, not `errno`, with the error
numbers. -/
def closePort (fd : CInt) (tcsetattr close : SysCall) (session : Session T) : Returned T :=
  let session := { session with
    port := tcsetattr.store session.origTios session.port
    portReset := some tcsetattr }
  if tcsetattr.value ≠ 0 then
    { session, value := -4
      messages := ["close_port: failed to reset attributes on " ++ toString fd.toInt ++ "\n"] }
  else
    let check := close.value
    if check = ebadf then
      { session, value := -1
        messages :=
          ["close_port: Not a valid file descriptor port: " ++ toString fd.toInt ++ "\n"] }
    else if check = eintr then
      { session, value := -2
        messages := ["close_port: Call to close interupted by signal.\n"] }
    else if check = eio then
      { session, value := -3, messages := ["close_port: An I/O error occurred.\n"] }
    else { session, value := 0, messages := [] }

/-- `flush_port`: the value returned and the lines logged. Its `switch` compares the value of
`tcflush`, not `errno`, with the error numbers. -/
def flushPort (fd : CInt) (tcflush : SysCall) : CInt × List String :=
  let check := tcflush.value
  if check = ebadf then
    (-1, ["flush_port: Not a valid file descriptor port: " ++ toString fd.toInt ++ "\n"])
  else if check = einval then
    (-2, ["flush_port: The queue_selector argument is not a supported value..\n"])
  else if check = enotty then
    (-3, ["flush_port: The file associated with fildes is not a terminal\n"])
  else (check, [])

/-- A call returns 0 exactly when it succeeds. -/
theorem SysCall.value_eq_zero (call : SysCall) : call.value = 0 ↔ call = .done := by
  cases call with
  | done => exact iff_of_true rfl rfl
  | failed errno =>
    apply iff_of_false
    · show ¬ (-1 : CInt) = 0
      decide
    · exact SysCall.noConfusion

/-- No case of `close_port` is met by a value of `close`, so it returns 0 whenever the settings
have been restored. -/
theorem closePort_value (fd : CInt) (tcsetattr close : SysCall) (session : Session T) :
    (closePort fd tcsetattr close session).value = if tcsetattr = .done then 0 else -4 := by
  cases tcsetattr with
  | done =>
    cases close with
    | done => rfl
    | failed errno => rfl
  | failed errno => rfl

/-- What `close_port` leaves. -/
theorem closePort_session (fd : CInt) (tcsetattr close : SysCall) (session : Session T) :
    (closePort fd tcsetattr close session).session =
      { session with
        port := tcsetattr.store session.origTios session.port
        portReset := some tcsetattr } := by
  cases tcsetattr with
  | done =>
    cases close with
    | done => rfl
    | failed errno => rfl
  | failed errno => rfl

/-- No case of `flush_port` is met by a value of `tcflush`, so it returns that value. -/
theorem flushPort_value (fd : CInt) (tcflush : SysCall) :
    (flushPort fd tcflush).1 = tcflush.value := by
  cases tcflush with
  | done => rfl
  | failed errno => rfl

end Olimex2378.Host
