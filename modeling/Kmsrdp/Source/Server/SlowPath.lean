import Kmsrdp.Library.Execution
import Kmsrdp.Source.Connector.Acceptor

/-!
# Slow-path dispatch, with and without a resize in flight

Model of the dispatch to static channels in `handle_slow_path_frame` (`slow_path.rs`) and of the
branches of `run_steady_state` that handle a slow-path frame or a `Resized` update.
-/
namespace Kmsrdp.Source.Server.SlowPath
open Library.ByteString Source.Pdu Source.Connector

inductive Handler where
  | rdpsnd
  | cliprdr
  | drdynvc
  | rdpdr
  deriving DecidableEq

structure StaticChannels where
  (rdpsnd cliprdr drdynvc rdpdr : Option Nat)

def StaticChannels.handler (channels : StaticChannels) (channelId : Nat) : Option Handler :=
  if channels.rdpsnd = some channelId then some .rdpsnd
  else if channels.cliprdr = some channelId then some .cliprdr
  else if channels.drdynvc = some channelId then some .drdynvc
  else if channels.rdpdr = some channelId then some .rdpdr
  else none

structure Delivery where
  handler : Handler
  data : Bytes
  deriving DecidableEq

/-- What `handle_slow_path_frame` hands to a static channel: the first Send Data Request of
the unit, unless it is for the I/O channel or for a channel nobody serves. -/
def staticDelivery (channels : StaticChannels) (frame : Bytes) : Option Delivery :=
  match unwrapData frame with
  | .error _ => none
  | .ok payload =>
    match SendData.decodeRequest payload with
    | .error _ => none
    | .ok sendData =>
      if sendData.channelId = ioChannelId then none
      else (channels.handler sendData.channelId).map fun handler => ⟨handler, sendData.data⟩

structure SlowPathSide where
  acceptor : Acceptor
  resizing : Bool
  delivered : List Delivery
  /-- Every slow-path frame read so far. -/
  received : List Bytes

inductive Action where
  | resized (width height : Nat)
  | slowPath (frame : Bytes)

def start (acceptor : Acceptor) : SlowPathSide := ⟨acceptor, false, [], []⟩

def SlowPathSide.handleSlowPathFrame (s : SlowPathSide) (channels : StaticChannels)
    (frame : Bytes) :
    SlowPathSide :=
  { s with delivered := s.delivered ++ (staticDelivery channels frame).toList }

def SlowPathSide.onFrameWhileResizing (s : SlowPathSide) (channels : StaticChannels)
    (frame : Bytes) : SlowPathSide :=
  if s.acceptor.isFinished then { s with resizing := false }.handleSlowPathFrame channels frame
  else
    match s.acceptor.step frame with
    | (.ok result, acceptor) =>
      let finished := acceptor.isFinished ||
        match result.event with
        | .accepted _ => true
        | _ => false
      { s with acceptor := acceptor, resizing := !finished }
    | (.error error, acceptor) =>
      if acceptor.isFinished || error = .alreadyFinished then
        { s with acceptor := acceptor, resizing := false }.handleSlowPathFrame channels frame
      else { s with acceptor := acceptor }

def step (channels : StaticChannels) (s : SlowPathSide) : Action → Option SlowPathSide
  | .resized width height =>
    if s.resizing then some s
    else
      match s.acceptor.beginResize width height with
      | (.ok _, acceptor) => some { s with acceptor := acceptor, resizing := true }
      | (.error _, acceptor) => some { s with acceptor := acceptor }
  | .slowPath frame =>
    let s := { s with received := s.received ++ [frame] }
    if s.resizing then some (s.onFrameWhileResizing channels frame)
    else some (s.handleSlowPathFrame channels frame)

theorem onFrameWhileResizing_eq (channels : StaticChannels) {s : SlowPathSide}
    (hresizing : s.resizing = true)
    (h : s.acceptor.Reactivating)
    (frame : Bytes) :
    ∃ acceptor resizing,
      s.onFrameWhileResizing channels frame =
        { s with acceptor := acceptor, resizing := resizing } ∧
      (resizing = true ∧ acceptor.Reactivating ∨
       resizing = false ∧ acceptor.phase = .accepted) := by
  have hunfinished : ∀ {a : Acceptor}, a.Reactivating → a.isFinished = false := by
    rintro a (ha | ⟨grantedControlSent, ha⟩) <;> simp [Acceptor.isFinished, ha]
  unfold SlowPathSide.onFrameWhileResizing
  rw [hunfinished h]
  have houtcome := Acceptor.step_outcome_of_reactivating h frame
  generalize s.acceptor.step frame = outcome at houtcome
  cases houtcome with
  | goesOn response b answer phase settings =>
    refine ⟨b, true, ?_, Or.inl ⟨rfl, phase⟩⟩
    simp [hunfinished phase, StepResult.just]
  | accepted response connection b answer phase settings =>
    exact ⟨b, false, by simp, Or.inr ⟨rfl, phase⟩⟩
  | failed error b phase settings =>
    refine ⟨b, true, ?_, Or.inl ⟨rfl, phase⟩⟩
    simp [hunfinished phase, hresizing]

end Kmsrdp.Source.Server.SlowPath
