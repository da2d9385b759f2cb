import Kmsrdp.Library.Execution
import Kmsrdp.Source.Server.Framing

/-!
# The read side of the session loop

Every turn of `run_steady_state` (`session_loop.rs`) builds a new `read_steady_state_frame` future
and polls it first.

The model keeps the bytes on their way (`wire`), those in the socket, the reader of the turn and, as
a ghost, the bytes inside that reader (`held`).
-/
namespace Kmsrdp.Source.Server.ReadLoop
open Library.ByteString Library.AsyncRead Source.Server.Framing

inductive Branch where
  | bulkSendJoin
  | bitmapGate
  | catchupTick
  | displayUpdate
  | clipboard
  | rdpdrWake

structure ReadSide where
  wire : Bytes
  socket : Bytes
  reader : ReadProg (Except FramingError SteadyStateFrame)
  held : Bytes
  dispatched : List SteadyStateFrame
  failed : Option FramingError

inductive Action where
  /-- A TCP segment with the next `count` bytes arrives. -/
  | arrive (count : Nat)
  /-- The loop task runs; `other` is the first other branch that is ready, if any. -/
  | turn (other : Option Branch)

def start (frames : List ClientFrame) : ReadSide where
  wire := frames.flatMap ClientFrame.bytes
  socket := []
  reader := readSteadyStateFrame
  held := []
  dispatched := []
  failed := none

def ReadSide.freshReader (loop : ReadSide) : ReadSide :=
  { loop with reader := readSteadyStateFrame, held := [] }

def ReadSide.turn (loop : ReadSide) (other : Option Branch) : ReadSide :=
  match poll loop.reader loop.socket with
  | .ready (.ok frame) rest =>
    { loop.freshReader with socket := rest, dispatched := loop.dispatched ++ [frame] }
  | .ready (.error error) rest => { loop.freshReader with socket := rest, failed := some error }
  | .pending reader =>
    match other with
    | none => { loop with socket := [], reader := reader, held := loop.held ++ loop.socket }
    -- the losing future is dropped: `held` and what this poll took are gone
    | some _ => { loop.freshReader with socket := [] }

def step (loop : ReadSide) (action : Action) : Option ReadSide :=
  if loop.failed.isSome then none
  else
    match action with
    | .arrive count =>
      some { loop with wire := loop.wire.drop count, socket := loop.socket ++ loop.wire.take count }
    | .turn other => some (loop.turn other)

variable {loop : ReadSide}

theorem step_turn (h : loop.failed = none) (other : Option Branch) :
    step loop (.turn other) = some (loop.turn other) := by
  simp [step, h]

theorem turn_of_dropped {reader : ReadProg (Except FramingError SteadyStateFrame)}
    (h : poll loop.reader loop.socket = .pending reader)
    (branch : Branch) : loop.turn (some branch) = { loop.freshReader with socket := [] } := by
  simp only [ReadSide.turn, h]

end Kmsrdp.Source.Server.ReadLoop
