import Olimex2378.Host.DatapathHost

/-!
# Success and failure of the wrappers

Each wrapper of a system call looks for error numbers in the value that the call returned,
which is 0, -1 or a count and never an error number that it could tell from a count. So a
failure goes unreported, a count that equals an error number would be reported as a failure, and
`dp_read`, which reads through a null pointer, leaves no byte with its caller. Exactly these
outcomes are not as they should be. The results are those that POSIX allows; Linux refuses to
copy bytes through a null pointer with `EFAULT`, which is one of the failures.
-/

namespace Olimex2378.Verif.Outcomes

open Host

/-- The error numbers for which `dp_read` has a line to log. -/
def reported : List CInt := [ebadf, efault, eintr, einval, eio, eisdir]

/-- `dp_read` returns what `read` returned, leaves the bytes received at the front of the
caller's variable, and logs a line exactly when `read` failed with a listed error. -/
def ReadTold {numbytes : BitVec 32} (memory : List UInt8) (result : ReadResult numbytes) : Prop :=
  (dpRead memory result).bytesRead = result.value ∧
    (∀ bytes fits, result = .data bytes fits →
      (dpRead memory result).memory.take bytes.length = bytes) ∧
    ((dpRead memory result).messages ≠ [] ↔ ∃ errno ∈ reported, result = .failed errno)

/-- `close_port` returns 0 exactly when both of its calls succeed, and otherwise the number
that its comment gives for the failure. -/
def CloseTold {T : Type} (fd : CInt) (tcsetattr close : SysCall) (session : Session T) : Prop :=
  let value := (closePort fd tcsetattr close session).value
  (value = 0 ↔ tcsetattr = .done ∧ close = .done) ∧
    (tcsetattr ≠ .done → value = -4) ∧
    (tcsetattr = .done → (close = .failed ebadf → value = -1) ∧
      (close = .failed eintr → value = -2) ∧ (close = .failed eio → value = -3))

/-- `flush_port` returns 0 exactly when `tcflush` succeeds, and otherwise the number of the
error. -/
def FlushTold (fd : CInt) (tcflush : SysCall) : Prop :=
  let value := (flushPort fd tcflush).1
  (value = 0 ↔ tcflush = .done) ∧ (tcflush = .failed ebadf → value = -1) ∧
    (tcflush = .failed einval → value = -2) ∧ (tcflush = .failed enotty → value = -3)

/-- `read` returned bytes that the caller's variable already held, in a number that is no
listed error, or it failed with an error that is not listed. -/
def ReadTellable {numbytes : BitVec 32} (memory : List UInt8) : ReadResult numbytes → Prop
  | .failed errno => errno ∉ reported
  | .data bytes _ => memory.take bytes.length = bytes ∧ BitVec.ofNat 32 bytes.length ∉ reported

/-- `dp_read` logs a line exactly when the value of `read` is a listed error number. -/
theorem dpReadMessages_iff (bytesRead : BitVec 32) :
    dpReadMessages bytesRead ≠ [] ↔ bytesRead ∈ reported := by
  simp only [reported, List.mem_cons, List.not_mem_nil, or_false]
  constructor
  · intro logged
    apply Classical.byContradiction
    intro unlisted
    simp only [not_or] at unlisted
    apply logged
    simp only [dpReadMessages, unlisted, if_false, ite_self]
  · rintro (same | same | same | same | same | same)
    all_goals
      rw [same]
      exact List.cons_ne_nil _ _

/-- A failure is told exactly when its error is not listed, since nothing is logged for it. -/
theorem readTold_failed {numbytes : BitVec 32} (memory : List UInt8) (errno : CInt) :
    ReadTold memory (.failed errno : ReadResult numbytes) ↔ errno ∉ reported := by
  have silent : ¬ (dpRead memory (.failed errno : ReadResult numbytes)).messages ≠ [] := by
    apply (dpReadMessages_iff (-1)).not.2
    decide
  rw [ReadTold, iff_false_left silent]
  constructor
  · intro told listed
    exact told.2.2 ⟨errno, listed, rfl⟩
  · intro unlisted
    refine ⟨rfl, ?_, ?_⟩
    · intro bytes fits impossible
      contradiction
    · rintro ⟨other, listed, same⟩
      cases same
      exact unlisted listed

/-- A success is told exactly when the bytes were there already and their number is no listed
error. -/
theorem readTold_data {numbytes : BitVec 32} (memory bytes : List UInt8)
    (fits : bytes.length ≤ numbytes.toNat) :
    ReadTold memory (.data bytes fits : ReadResult numbytes) ↔
      memory.take bytes.length = bytes ∧ BitVec.ofNat 32 bytes.length ∉ reported := by
  have success : ¬ ∃ errno ∈ reported,
      (.data bytes fits : ReadResult numbytes) = .failed errno := by
    rintro ⟨errno, _, impossible⟩
    contradiction
  have messages : (dpRead memory (.data bytes fits : ReadResult numbytes)).messages ≠ [] ↔
      BitVec.ofNat 32 bytes.length ∈ reported := dpReadMessages_iff _
  rw [ReadTold, iff_false_right success, messages]
  constructor
  · intro told
    exact ⟨told.2.1 bytes fits rfl, told.2.2⟩
  · intro tellable
    refine ⟨rfl, ?_, tellable.2⟩
    intro others otherFits same
    cases same
    exact tellable.1

/-- `dp_read` tells success from failure in exactly these outcomes. -/
theorem readTold_iff {numbytes : BitVec 32} (memory : List UInt8) (result : ReadResult numbytes) :
    ReadTold memory result ↔ ReadTellable memory result := by
  cases result with
  | failed errno => exact readTold_failed memory errno
  | data bytes fits => exact readTold_data memory bytes fits

/-- `close_port` tells success from failure exactly when its `tcsetattr` fails or its `close`
succeeds. -/
theorem closeTold_iff {T : Type} (fd : CInt) (tcsetattr close : SysCall) (session : Session T) :
    CloseTold fd tcsetattr close session ↔ tcsetattr ≠ .done ∨ close = .done := by
  rw [CloseTold, closePort_value]
  cases tcsetattr with
  | failed errno =>
    simp
  | done =>
    cases close with
    | done => simp
    | failed errno => simp

/-- `flush_port` tells success from failure exactly when `tcflush` does not fail with `EINVAL`
or `ENOTTY`. -/
theorem flushTold_iff (fd : CInt) (tcflush : SysCall) :
    FlushTold fd tcflush ↔ tcflush ≠ .failed einval ∧ tcflush ≠ .failed enotty := by
  have einvalDiffers : (-1 : CInt) ≠ -2 := by decide
  have enottyDiffers : (-1 : CInt) ≠ -3 := by decide
  rw [FlushTold, flushPort_value, SysCall.value_eq_zero]
  constructor
  · intro told
    constructor
    · intro same
      have value := told.2.2.1 same
      rw [same] at value
      exact einvalDiffers value
    · intro same
      have value := told.2.2.2 same
      rw [same] at value
      exact enottyDiffers value
  · intro other
    constructor
    · rfl
    · constructor
      · intro same
        rw [same]
        rfl
      · exact ⟨fun same => absurd same other.1, fun same => absurd same other.2⟩

/-- The wrappers tell success from failure in exactly these outcomes. For every result of
`read`, whatever the caller's variable held, and every result of `tcsetattr`, `close` and
`tcflush`: `dp_read` does what it should exactly when `read` failed with an error that it does
not list, or returned bytes that the variable already held and whose number is no listed
error; `close_port` exactly when `tcsetattr` failed or `close` succeeded; and `flush_port`
exactly when `tcflush` did not fail with `EINVAL` or `ENOTTY`. -/
theorem wrappers_told_iff {T : Type} {numbytes : BitVec 32} (memory : List UInt8)
    (result : ReadResult numbytes) (fd : CInt) (tcsetattr close tcflush : SysCall)
    (session : Session T) :
    (ReadTold memory result ↔ ReadTellable memory result) ∧
      (CloseTold fd tcsetattr close session ↔ tcsetattr ≠ .done ∨ close = .done) ∧
      (FlushTold fd tcflush ↔ tcflush ≠ .failed einval ∧ tcflush ≠ .failed enotty) :=
  ⟨readTold_iff memory result, closeTold_iff fd tcsetattr close session, flushTold_iff fd tcflush⟩

/-- Terminals whose settings carry nothing. -/
def plainSession : Session Unit where
  port := ()
  stdin := ()
  origTios := ()
  origStdinTios := ()
  portReset := none
  stdinReset := none

/-- A `read` that fails with `EIO`, or with `EFAULT` because of the null pointer, is not logged;
a `close` that fails with `EIO` returns 0; a `tcflush` that fails with `ENOTTY` returns -1. -/
theorem wrappers_untold :
    ((dpRead [0, 0, 0, 0] (.failed eio : ReadResult 4)).messages = [] ∧
        ¬ ReadTold [0, 0, 0, 0] (.failed eio : ReadResult 4)) ∧
      ((dpRead [0, 0, 0, 0] (.failed efault : ReadResult 4)).messages = [] ∧
        ¬ ReadTold [0, 0, 0, 0] (.failed efault : ReadResult 4)) ∧
      ((closePort 3 .done (.failed eio) plainSession).value = 0 ∧
        ¬ CloseTold 3 .done (.failed eio) plainSession) ∧
      ((flushPort 3 (.failed enotty)).1 = -1 ∧ ¬ FlushTold 3 (.failed enotty)) := by
  have unlogged (errno : CInt) :
      (dpRead [0, 0, 0, 0] (.failed errno : ReadResult 4)).messages = [] := rfl
  refine ⟨⟨unlogged eio, ?_⟩, ⟨unlogged efault, ?_⟩, ⟨rfl, ?_⟩, rfl, ?_⟩
  · intro told
    exact told.2.2.2 ⟨eio, by decide, rfl⟩ (unlogged eio)
  · intro told
    exact told.2.2.2 ⟨efault, by decide, rfl⟩ (unlogged efault)
  · intro told
    have both := told.1.1 rfl
    exact SysCall.noConfusion both.2
  · intro told
    have value := told.2.2.2 rfl
    exact absurd value (by decide)

end Olimex2378.Verif.Outcomes
