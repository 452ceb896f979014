import Olimex2378.Firmware.IsocSample

/-!
# Frames of the isochronous sample

What the sample does in any run of frame ticks and device statuses. Only the frames count that
come while the device is connected; the first four thousand of them are let pass, however often
the connection is lost between them, and each of the others sends the next number and obeys the
packet that it finds. Nothing is sent before, between or instead.
-/

namespace Olimex2378.Verif.IsocFrames

open Firmware.Isoc Run Bytes

/-- What a device status makes of the connection. -/
def linked (codes : StatusCodes) (connected : Bool) (bDevStatus : UInt8) : Bool :=
  if bDevStatus = codes.connect then true
  else if bDevStatus = codes.reset ∨ bDevStatus = codes.suspend then false
  else connected

/-- What the frames that come while the device is connected find to read. -/
def connectedFrames (codes : StatusCodes) : Bool → List Event → List (Option OutPacket)
  | _, [] => []
  | true, .frame read :: rest => read :: connectedFrames codes true rest
  | false, .frame _ :: rest => connectedFrames codes false rest
  | connected, .devInt bDevStatus :: rest =>
    connectedFrames codes (linked codes connected bDevStatus) rest

/-- What is done with a packet: its first byte says whether the pin is set or cleared. -/
def obeyed : Option OutPacket → List Effect
  | none => []
  | some packet =>
    match packet.bytes with
    | [] => []
    | byte :: _ => if byte ≠ 0 then [.fio1Set] else [.fio1Clr]

/-- What frames do after the warm-up, the first of them with a given number. -/
def served : Nat → List (Option OutPacket) → List Effect
  | _, [] => []
  | number, read :: rest =>
    .epWrite isocInEp (leBytes 4 (number % 2 ^ 32)) :: .isocEPRead isocOutEp read ::
      (obeyed read ++ served (number + 1) rest)

/-- A packet read is obeyed. -/
theorem lamp_obeys (buffer : Vector UInt8 isocOutputDataBufferSize) (read : Option OutPacket) :
    lamp (usbHwISOCEPRead buffer read).1 (usbHwISOCEPRead buffer read).2 = obeyed read := by
  rcases read with _ | ⟨_ | ⟨byte, rest⟩, fits⟩
  · rfl
  · rfl
  · have result : usbHwISOCEPRead buffer (some ⟨byte :: rest, fits⟩) =
        (overwrite buffer (byte :: rest), (((byte :: rest).length : Nat) : Int)) := rfl
    have isData : (0 : Int) < ((byte :: rest).length : Nat) := by
      rw [List.length_cons]
      omega
    simp only [result, lamp, isData, if_true, overwrite_first buffer fits, obeyed]

/-- The variables agree with the frames so far. -/
structure Counts (s : IsocSample) (connected : Bool) (frames : Nat) : Prop where
  /-- The flag says whether the device is connected. -/
  flag : s.isConnectedFlag = if connected then 1 else 0
  /-- The warm-up counts the first frames. -/
  delay : s.delay = BitVec.ofNat 32 (min frames 4000)
  /-- The number sent counts the others. -/
  number : s.inputIsocDataBuffer = BitVec.ofNat 32 (frames - 4000)

/-- A device status changes the connection as the cases of the switch statement say. -/
theorem counts_devInt {codes : StatusCodes} {s : IsocSample} {connected : Bool} {frames : Nat}
    (counts : Counts s connected frames) (bDevStatus : UInt8) :
    Counts (usbDevIntHandler codes s bDevStatus) (linked codes connected bDevStatus) frames := by
  obtain ⟨flag, delay, number⟩ := counts
  unfold usbDevIntHandler linked
  by_cases connects : bDevStatus = codes.connect
  · simp only [if_pos connects]
    exact ⟨rfl, delay, number⟩
  · by_cases leaves : bDevStatus = codes.reset ∨ bDevStatus = codes.suspend
    · simp only [if_neg connects, if_pos leaves]
      exact ⟨rfl, delay, number⟩
    · simp only [if_neg connects, if_neg leaves]
      exact ⟨flag, delay, number⟩

/-- The warm-up lasts for the first frames. -/
theorem warmUp_iff {s : IsocSample} {connected : Bool} {frames : Nat}
    (counts : Counts s connected frames) : BitVec.slt s.delay 4000 = true ↔ frames < 4000 := by
  have bound : min frames 4000 ≤ 4000 := Nat.min_le_right frames 4000
  have value : (BitVec.ofNat 32 (min frames 4000)).toInt = (min frames 4000 : Nat) := by
    rw [BitVec.toInt_eq_toNat_of_lt] <;> rw [BitVec.toNat_ofNat] <;> omega
  have limit : (4000 : CInt).toInt = 4000 := by decide
  rw [counts.delay, BitVec.slt_eq_decide, value, limit, decide_eq_true_eq]
  omega

/-- What a frame does. -/
theorem frame_exact {s : IsocSample} {connected : Bool} {frames : Nat}
    (counts : Counts s connected frames) (read : Option OutPacket) :
    Counts (usbFrameHandler s read).1 connected (if connected then frames + 1 else frames) ∧
      (usbFrameHandler s read).2 =
        if connected = true ∧ 4000 ≤ frames then served (frames - 4000 + 1) [read] else [] := by
  obtain ⟨flag, delay, number⟩ := counts
  have warmUp := warmUp_iff ⟨flag, delay, number⟩
  cases connected with
  | false =>
    have off : ¬ s.isConnectedFlag ≠ 0 := not_not.2 flag
    simp only [usbFrameHandler, if_neg off]
    exact ⟨⟨flag, delay, number⟩, rfl⟩
  | true =>
    have on : s.isConnectedFlag ≠ 0 := by
      rw [flag]
      decide
    rw [if_pos (rfl : true = true)]
    by_cases first : frames < 4000
    · simp only [usbFrameHandler, if_pos on, if_pos (warmUp.2 first)]
      refine ⟨⟨flag, ?_, ?_⟩, by simp [Nat.not_le.2 first]⟩
      · show s.delay + 1 = _
        rw [delay, Nat.min_eq_left (Nat.le_of_lt first),
          Nat.min_eq_left (show frames + 1 ≤ 4000 from first),
          BitVec.ofNat_add]
        rfl
      · rw [number, Nat.sub_eq_zero_of_le (Nat.le_of_lt first),
          Nat.sub_eq_zero_of_le first]
    · have next : s.inputIsocDataBuffer + 1 = BitVec.ofNat 32 (frames - 4000 + 1) := by
        rw [number, BitVec.ofNat_add]
        rfl
      have later : ¬ BitVec.slt s.delay 4000 = true := mt warmUp.1 first
      simp only [usbFrameHandler, if_pos on, if_neg later, next]
      refine ⟨⟨flag, ?_, ?_⟩, ?_⟩
      · rw [delay, Nat.min_eq_right (Nat.not_lt.1 first),
          Nat.min_eq_right (by omega)]
      · rw [Nat.sub_add_comm (Nat.not_lt.1 first)]
      · rw [if_pos ⟨trivial, Nat.not_lt.1 first⟩, lamp_obeys, BitVec.toNat_ofNat]
        simp [served, bytesPerIsocFrame]

/-- What more frames do. -/
theorem served_append (number : Nat) (first second : List (Option OutPacket)) :
    served number (first ++ second) =
      served number first ++ served (number + first.length) second := by
  induction first generalizing number with
  | nil => rfl
  | cons read rest ih =>
    have count : number + (read :: rest).length = number + 1 + rest.length := by
      rw [List.length_cons]
      omega
    rw [List.cons_append, served, ih, count, served]
    simp only [List.cons_append, List.append_assoc]

/-- From variables that agree with some frames on, the frames after the warm-up are served and
nothing else is done. -/
theorem run_exact (codes : StatusCodes) {s : IsocSample} {connected : Bool} {frames : Nat}
    (counts : Counts s connected frames) (events : List Event) :
    effects (trace (step codes) s events) =
      served (frames - 4000 + 1)
        ((connectedFrames codes connected events).drop (4000 - frames)) := by
  induction events generalizing s connected frames with
  | nil => simp [connectedFrames, served]
  | cons event rest ih =>
    rw [trace_cons, effects_cons]
    cases event with
    | devInt bDevStatus =>
      have next : Counts (usbDevIntHandler codes s bDevStatus)
          (linked codes connected bDevStatus) frames := counts_devInt counts bDevStatus
      rw [connectedFrames]
      exact ih next
    | frame read =>
      obtain ⟨next, out⟩ := frame_exact counts read
      have later := ih next
      simp only [step]
      rw [later, out]
      cases connected with
      | false => rfl
      | true =>
        simp only [if_true, true_and, connectedFrames]
        by_cases first : frames < 4000
        · have skip : 4000 - frames = 4000 - (frames + 1) + 1 := by omega
          have zero : frames - 4000 = 0 := Nat.sub_eq_zero_of_le (Nat.le_of_lt first)
          have same : frames + 1 - 4000 = 0 := Nat.sub_eq_zero_of_le first
          rw [if_neg (Nat.not_le.2 first), skip, List.drop_succ_cons, zero, same, List.nil_append]
        · have none : 4000 - frames = 0 := by omega
          have still : 4000 - (frames + 1) = 0 := by omega
          have number : frames + 1 - 4000 = frames - 4000 + 1 := by omega
          rw [if_pos (Nat.not_lt.1 first), none, still, number]
          simp only [List.drop_zero]
          exact (served_append _ [read] _).symm

/-- The payloads of the writes, in order. -/
def writes (out : List Effect) : List (List UInt8) :=
  out.filterMap fun effect => match effect with
    | .epWrite _ payload => some payload
    | _ => none

/-- The writes of frames that are served are the numbers from the first on. -/
theorem served_writes (number : Nat) (reads : List (Option OutPacket)) :
    (writes (served number reads)).map leValue =
      (List.range reads.length).map fun k => (number + k) % 2 ^ 32 := by
  induction reads generalizing number with
  | nil => rfl
  | cons read rest ih =>
    have noWrite : writes (obeyed read) = [] := by
      unfold obeyed
      split
      · rfl
      · split
        · rfl
        · split <;> rfl
    have split : writes (served number (read :: rest)) =
        leBytes 4 (number % 2 ^ 32) :: writes (served (number + 1) rest) := by
      have tail : writes (obeyed read ++ served (number + 1) rest) =
          writes (obeyed read) ++ writes (served (number + 1) rest) := List.filterMap_append
      rw [noWrite, List.nil_append] at tail
      rw [← tail]
      rfl
    have small : number % 2 ^ 32 < 256 ^ 4 := Nat.mod_lt _ (by decide)
    rw [split, List.map_cons, leValue_leBytes small, ih, List.length_cons, List.range_succ_eq_map,
      List.map_cons, List.map_map]
    congr 1
    apply List.map_congr_left
    intro k _
    rw [Function.comp_apply, Nat.succ_eq_add_one, Nat.add_comm k 1, Nat.add_assoc]

/-- The sample counts its connected frames. In every run of frame ticks and device statuses it
lets the first 4000 frames pass that come while the device is connected, and for each of the
others writes the next number, reads a packet and sets or clears the pin as the first byte of
the packet says, and does nothing else; so the numbers written are 1, 2, 3 and so on, modulo
2^32, without a gap at a lost connection. -/
theorem frames_served (codes : StatusCodes) (events : List Event) :
    let out := effects (trace (step codes) IsocSample.start events)
    let reads := (connectedFrames codes false events).drop 4000
    out = served 1 reads ∧
      (writes out).map leValue = (List.range reads.length).map fun k => (1 + k) % 2 ^ 32 := by
  intro out reads
  have counts : Counts IsocSample.start false 0 := ⟨rfl, rfl, rfl⟩
  have exact_run : out = served 1 reads := run_exact codes counts events
  exact ⟨exact_run, exact_run ▸ served_writes 1 reads⟩

end Olimex2378.Verif.IsocFrames
