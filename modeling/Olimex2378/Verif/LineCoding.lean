import Olimex2378.Basis.Run
import Olimex2378.Firmware.ClassRequest

/-!
# The line coding as a register

A virtual serial port keeps its line coding for the host: a complete `SET_LINE_CODING` stores
seven bytes and every `GET_LINE_CODING` returns the last seven stored. The handler copies
seven bytes for a shorter request too, and takes the ones that are missing from what earlier
requests left in the buffer. It is a register in exactly the runs in which that changes
nothing.
-/

namespace Olimex2378.Verif.LineCoding

open Firmware Run Bytes

/-- The line coding that the firmware starts with: 115200, 0, 0, 8. -/
def initial : List UInt8 := leBytes 4 115200 ++ [0, 0, 8]

/-- The register after one more request: only a complete `SET_LINE_CODING` stores. -/
def store (held : List UInt8) (request : ClassRequest) : List UInt8 :=
  if request.pSetup.bRequest = setLineCoding ∧ 7 ≤ request.data.length then request.data.take 7
  else held

/-- The register after some requests. -/
def register (requests : List ClassRequest) : List UInt8 := requests.foldl store initial

/-- A request that the handler knows. -/
def Known (request : ClassRequest) : Prop :=
  request.pSetup.bRequest = setLineCoding ∨ request.pSetup.bRequest = getLineCoding ∨
    request.pSetup.bRequest = setControlLineState

/-- The line coding is a register in a run: after each request the register is stored, each
`GET_LINE_CODING` answers with it, and only unknown requests are refused. -/
def IsRegister (buffer : Vector UInt8 8) (requests : List ClassRequest) : Prop :=
  ∀ before request after, requests = before ++ request :: after →
    let port := exec ClassPort.step (ClassPort.start buffer) before
    (port.step request).1.lineCoding.bytes = register (before ++ [request]) ∧
      (request.pSetup.bRequest = getLineCoding →
        (port.step request).2 = { result := true, iLen := 7, pbData := register before }) ∧
      ((port.step request).2.result = false ↔ ¬ Known request)

/-- A `SET_LINE_CODING` has all its bytes, or those it lacks are found in the buffer as they
are in the line coding that is stored. -/
def Settled (port : ClassPort) (request : ClassRequest) : Prop :=
  request.pSetup.bRequest = setLineCoding →
    7 ≤ request.data.length ∨
      (overwrite port.abClassReqData request.data).toList.take 7 = port.lineCoding.bytes

/-- What a request leaves in the line coding. -/
theorem step_bytes (port : ClassPort) (request : ClassRequest) :
    (port.step request).1.lineCoding.bytes =
      if request.pSetup.bRequest = setLineCoding then
        (overwrite port.abClassReqData request.data).toList.take 7
      else port.lineCoding.bytes := by
  simp only [ClassPort.step, handleClassRequest]
  by_cases set : request.pSetup.bRequest = setLineCoding
  · rw [if_pos set, if_pos set]
    apply TLineCoding.bytes_ofBytes
    simp [ClassPort.at]
  · rw [if_neg set, if_neg set]
    split
    · rfl
    · split <;> rfl

/-- A complete `SET_LINE_CODING` finds its own bytes at the front of the buffer. -/
theorem overwrite_complete (buffer : Vector UInt8 8) {request : ClassRequest}
    (complete : 7 ≤ request.data.length) :
    (overwrite buffer request.data).toList.take 7 = request.data.take 7 := by
  rw [overwrite_toList buffer request.fits, List.take_append_of_le_length complete]

/-- A `GET_LINE_CODING` answers with the line coding. -/
theorem step_get (port : ClassPort) {request : ClassRequest}
    (get : request.pSetup.bRequest = getLineCoding) :
    (port.step request).2 =
      { result := true, iLen := 7, pbData := port.lineCoding.bytes } := by
  have other : ¬ getLineCoding = setLineCoding := by decide
  have seven : port.lineCoding.bytes.take 7 = port.lineCoding.bytes :=
    List.take_of_length_le (Nat.le_of_eq port.lineCoding.bytes_length)
  simp only [ClassPort.step, handleClassRequest, get, if_neg other, if_true]
  exact congrArg (fun bytes => ({ result := true, iLen := 7, pbData := bytes } : ClassReply)) seven

/-- The handler refuses exactly the requests that it does not know. -/
theorem step_result (port : ClassPort) (request : ClassRequest) :
    (port.step request).2.result = false ↔ ¬ Known request := by
  simp only [ClassPort.step, handleClassRequest, Known]
  by_cases set : request.pSetup.bRequest = setLineCoding
  · rw [if_pos set]
    exact iff_of_false Bool.noConfusion (fun unknown => unknown (Or.inl set))
  · rw [if_neg set]
    by_cases get : request.pSetup.bRequest = getLineCoding
    · rw [if_pos get]
      exact iff_of_false Bool.noConfusion (fun unknown => unknown (Or.inr (Or.inl get)))
    · rw [if_neg get]
      by_cases control : request.pSetup.bRequest = setControlLineState
      · rw [if_pos control]
        exact iff_of_false Bool.noConfusion (fun unknown => unknown (Or.inr (Or.inr control)))
      · rw [if_neg control]
        simp [set, get, control]

/-- A request keeps the register stored exactly when it is settled. -/
theorem step_stores {port : ClassPort} {held : List UInt8} (stored : port.lineCoding.bytes = held)
    (request : ClassRequest) :
    (port.step request).1.lineCoding.bytes = store held request ↔ Settled port request := by
  rw [step_bytes, store, Settled]
  by_cases set : request.pSetup.bRequest = setLineCoding
  · by_cases complete : 7 ≤ request.data.length
    · rw [if_pos set, if_pos ⟨set, complete⟩, overwrite_complete _ complete]
      exact iff_of_true rfl (fun _ => Or.inl complete)
    · have short : ¬ (request.pSetup.bRequest = setLineCoding ∧ 7 ≤ request.data.length) :=
        fun both => complete both.2
      rw [if_pos set, if_neg short, stored]
      constructor
      · intro same _
        exact Or.inr same
      · intro settled
        exact (settled set).resolve_left complete
  · have other : ¬ (request.pSetup.bRequest = setLineCoding ∧ 7 ≤ request.data.length) :=
      fun both => set both.1
    rw [if_neg set, if_neg other]
    exact iff_of_true stored (fun impossible => absurd impossible set)

/-- A run of settled requests stores what the register holds after it. -/
theorem run_stores {port : ClassPort} {held : List UInt8} (stored : port.lineCoding.bytes = held)
    {requests : List ClassRequest} (settled : Along ClassPort.step Settled port requests) :
    (exec ClassPort.step port requests).lineCoding.bytes = requests.foldl store held := by
  induction requests generalizing port held with
  | nil => exact stored
  | cons request rest ih => exact ih ((step_stores stored request).2 settled.1) settled.2

/-- The line coding is a register in exactly these runs. Whatever the buffer held at first and
whatever requests follow: every answer to `GET_LINE_CODING` is the seven bytes of the last
complete `SET_LINE_CODING`, no other request changes what is stored, and exactly the unknown
requests are refused, if and only if every `SET_LINE_CODING` that comes with fewer than seven
bytes finds the stored line coding in the first seven bytes of the buffer. -/
theorem isRegister_iff_settled (buffer : Vector UInt8 8) (requests : List ClassRequest) :
    IsRegister buffer requests ↔
      Along ClassPort.step Settled (ClassPort.start buffer) requests := by
  constructor
  · intro isRegister
    cases along_or_refused ClassPort.step Settled (ClassPort.start buffer) requests with
    | inl settled => exact settled
    | inr refused =>
      obtain ⟨before, request, after, split, settled, broken⟩ := refused
      have stored : _ = register before := run_stores rfl settled
      have kept := (isRegister before request after split).1
      rw [register, List.foldl_append] at kept
      exact absurd ((step_stores stored request).1 kept) broken
  · intro settled before request after split
    rw [split, along_append] at settled
    have stored : _ = register before := run_stores rfl settled.1
    constructor
    · rw [register, List.foldl_append]
      exact (step_stores stored request).2 settled.2.1
    · constructor
      · intro get
        rw [step_get _ get, stored]
      · exact step_result _ request

/-- A complete `SET_LINE_CODING` of 115200, 0, 0, 8. -/
def setWhole : ClassRequest where
  pSetup := { bRequest := setLineCoding }
  data := [0x00, 0xC2, 0x01, 0x00, 0, 0, 8]
  fits := by decide

/-- A `SET_LINE_CODING` of four bytes, the rate 9600. -/
def setShort : ClassRequest where
  pSetup := { bRequest := setLineCoding }
  data := [0x80, 0x25, 0x00, 0x00]
  fits := by decide

/-- A `GET_LINE_CODING`. -/
def getRequest : ClassRequest where
  pSetup := { bRequest := getLineCoding }
  data := []
  fits := by decide

/-- The four bytes are stored in front of three that an earlier request left in the buffer,
and the next `GET_LINE_CODING` answers with this mixture. -/
theorem setShort_stores :
    ((exec ClassPort.step (ClassPort.start (Vector.replicate 8 0)) [setWhole, setShort]).step
      getRequest).2 = { result := true, iLen := 7, pbData := [0x80, 0x25, 0, 0, 0, 0, 8] } ∧
    ¬ IsRegister (Vector.replicate 8 0) [setWhole, setShort, getRequest] := by
  constructor
  · decide
  · intro isRegister
    have answer := (isRegister [setWhole, setShort] getRequest [] rfl).2.1 rfl
    exact absurd answer (by decide)

end Olimex2378.Verif.LineCoding
