import Kmsrdp.Source.Server.ReadLoop

/-!
# Delivery of client frames to the session loop

`Delivered`: what the loop dispatched is a prefix of what the client sent, and the bytes of the
other frames are still in the reader, the socket or on the wire.
-/
namespace Kmsrdp.Guarantees.FrameDelivery
open Library.ByteString Library.AsyncRead Library.Execution Source.Server.Framing
  Source.Server.ReadLoop List ReadSide

/-- The dispatched frames are exactly the first frames sent, and no byte of the others is
missing. -/
def Delivered (frames : List ClientFrame) (loop : ReadSide) : Prop :=
  loop.failed = none ∧ ∃ sent pending, frames = sent ++ pending ∧
    loop.dispatched = sent.map ClientFrame.dispatched ∧
    loop.held ++ (loop.socket ++ loop.wire) = pending.flatMap ClientFrame.bytes

/-- The reader is what a new reader becomes after the bytes in `held`. -/
def ReaderHolds (loop : ReadSide) : Prop :=
  ∀ more, poll loop.reader more = poll readSteadyStateFrame (loop.held ++ more)

def Inv (frames : List ClientFrame) (loop : ReadSide) : Prop :=
  Delivered frames loop ∧ ReaderHolds loop

/-- Another branch may complete only while no byte of a frame has been taken. -/
def Patient (loop : ReadSide) : Action → Prop
  | .arrive _ => True
  | .turn none => True
  | .turn (some _) =>
    ∀ reader, poll loop.reader loop.socket = .pending reader → loop.held ++ loop.socket = []

theorem inv_start (frames : List ClientFrame) : Inv frames (start frames) := by
  refine ⟨⟨rfl, [], frames, rfl, rfl, ?_⟩, fun more => rfl⟩
  simp [start]

variable {frames : List ClientFrame} {loop : ReadSide}

theorem inv_arrive (h : Inv frames loop) (count : Nat) :
    Inv frames
      { loop with
        wire := loop.wire.drop count
        socket := loop.socket ++ loop.wire.take count } := by
  obtain ⟨⟨hfailed, sent, pending, hframes, hdispatched, hbytes⟩, hreader⟩ := h
  refine ⟨⟨hfailed, sent, pending, hframes, hdispatched, ?_⟩, hreader⟩
  simpa using hbytes

variable {value : Except FramingError SteadyStateFrame}

theorem ready_is_next_frame {pending : List ClientFrame} {bytes late rest : Bytes}
    (hbytes : bytes ++ late = pending.flatMap ClientFrame.bytes)
    (hready : poll readSteadyStateFrame bytes = .ready value rest) :
    ∃ next others,
      pending = next :: others ∧
      value = .ok next.dispatched ∧
      rest ++ late = others.flatMap ClientFrame.bytes := by
  have hall := poll_append_of_ready hready late
  rw [hbytes] at hall
  cases pending with
  | nil => cases hall
  | cons next others =>
    rw [flatMap_cons, poll_readSteadyStateFrame] at hall
    injection hall with hvalue hrest
    exact ⟨next, others, rfl, hvalue.symm, hrest.symm⟩

theorem inv_turn_ready
    (h : Inv frames loop)
    {rest : Bytes}
    (hready : poll loop.reader loop.socket = .ready value rest)
    (other : Option Branch) : Inv frames (loop.turn other) := by
  obtain ⟨⟨hfailed, sent, pending, hframes, hdispatched, hbytes⟩, hreader⟩ := h
  rw [← append_assoc] at hbytes
  obtain ⟨next, others, rfl, rfl, hrest⟩ :=
    ready_is_next_frame hbytes ((hreader loop.socket).symm.trans hready)
  simp only [turn, hready]
  refine ⟨⟨hfailed, sent ++ [next], others, ?_, ?_, ?_⟩, fun more => rfl⟩
  · simpa using hframes
  · simp [hdispatched]
  · simpa [freshReader] using hrest

variable {reader : ReadProg (Except FramingError SteadyStateFrame)}

theorem inv_turn_waiting
    (h : Inv frames loop)
    (hpending : poll loop.reader loop.socket = .pending reader) : Inv frames (loop.turn none) := by
  obtain ⟨⟨hfailed, sent, pending, hframes, hdispatched, hbytes⟩, hreader⟩ := h
  simp only [turn, hpending]
  refine ⟨⟨hfailed, sent, pending, hframes, hdispatched, ?_⟩, fun more => ?_⟩
  · simpa using hbytes
  · calc poll reader more
      _ = poll loop.reader (loop.socket ++ more) := poll_append_of_pending hpending
      _ = poll readSteadyStateFrame (loop.held ++ (loop.socket ++ more)) := hreader _
      _ = poll readSteadyStateFrame ((loop.held ++ loop.socket) ++ more) := by
        rw [append_assoc]

theorem inv_turn_other
    (h : Inv frames loop)
    (hpending : poll loop.reader loop.socket = .pending reader)
    (hempty : loop.held ++ loop.socket = [])
    (branch : Branch) : Inv frames (loop.turn (some branch)) := by
  obtain ⟨⟨hfailed, sent, pending, hframes, hdispatched, hbytes⟩, -⟩ := h
  rw [turn_of_dropped hpending]
  refine ⟨⟨hfailed, sent, pending, hframes, hdispatched, ?_⟩, fun more => rfl⟩
  rw [← append_assoc, hempty] at hbytes
  simpa [freshReader] using hbytes

theorem inv_step (loop : ReadSide) (action : Action) (after : ReadSide)
    (h : Inv frames loop)
    (hpatient : Patient loop action)
    (hstep : step loop action = some after) : Inv frames after := by
  cases action with
  | arrive count =>
    rw [step, if_neg (by simp [h.1.1])] at hstep
    cases hstep
    exact inv_arrive h count
  | turn other =>
    rw [step_turn h.1.1] at hstep
    cases hstep
    cases hpoll : poll loop.reader loop.socket with
    | ready value rest => exact inv_turn_ready h hpoll other
    | pending reader =>
      cases other with
      | none => exact inv_turn_waiting h hpoll
      | some branch => exact inv_turn_other h hpoll (hpatient reader hpoll) branch

theorem not_delivered_of_dropped
    (h : Delivered frames loop)
    (hpending : poll loop.reader loop.socket = .pending reader)
    (hheld : loop.held ++ loop.socket ≠ [])
    (branch : Branch) : ¬ Delivered frames (loop.turn (some branch)) := by
  obtain ⟨-, sent, pending, hframes, hdispatched, hbytes⟩ := h
  rw [turn_of_dropped hpending]
  rintro ⟨-, sent', pending', hframes', hdispatched', hbytes'⟩
  have hlength : sent.length = sent'.length := by
    have hcount := congrArg length (hdispatched.symm.trans hdispatched')
    simpa using hcount
  have hsame : pending = pending' := (append_inj (hframes.symm.trans hframes') hlength).2
  subst hsame
  have hlost : loop.held ++ (loop.socket ++ loop.wire) = loop.wire := by
    rw [hbytes, ← hbytes']
    simp [freshReader]
  have hcount := congrArg length hlost
  have hpositive := length_pos_iff.mpr hheld
  simp only [length_append] at hcount hpositive
  omega

theorem impatient_step_breaks (loop : ReadSide) (action : Action)
    (h : Inv frames loop)
    (hbad : ¬ Patient loop action) :
    ∃ after, step loop action = some after ∧ ¬ Delivered frames after := by
  match action with
  | .arrive _ => exact absurd trivial hbad
  | .turn none => exact absurd trivial hbad
  | .turn (some branch) =>
    simp only [Patient, not_forall] at hbad
    obtain ⟨reader, hpending, hheld⟩ := hbad
    exact ⟨_, step_turn h.1.1 _, not_delivered_of_dropped h.1 hpending hheld branch⟩

/-- The loop dispatches exactly what the client sent, all along an execution, if and only
if no branch ever completes while a part of a frame has been read. -/
theorem delivered_always_iff_patient (frames : List ClientFrame) (schedule : List Action) :
    Always step (Delivered frames) (start frames) schedule ↔
      Careful step Patient (start frames) schedule :=
  always_iff_careful (Inv frames) (fun _ h => h.1) inv_step impatient_step_breaks schedule
    (inv_start frames)

def dataUnit : ClientFrame := .tpkt 0 0 7 [0x02, 0xF0, 0x80] rfl

def interruptedUnit : List Action :=
  [.arrive 1, .turn (some .displayUpdate), .arrive 6, .turn none]

/-- The `0x03` is gone, the second byte is taken for a fast-path header with length 0, and
the session ends with a framing error instead of dispatching the unit. -/
theorem interruptedUnit_misread :
    (exec step (start [dataUnit]) interruptedUnit).map
      (fun loop => (loop.dispatched, loop.failed)) =
      some ([], some .fastPathLengthShorterThanHeader) ∧
    ¬ Always step (Delivered [dataUnit]) (start [dataUnit]) interruptedUnit := by
  refine ⟨rfl, fun h => ?_⟩
  have hlast := h.last (t := _) rfl
  cases hlast.1

end Kmsrdp.Guarantees.FrameDelivery
