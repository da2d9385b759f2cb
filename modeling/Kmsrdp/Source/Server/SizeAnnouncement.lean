import Kmsrdp.Source.Hub.DisplayHub
import Kmsrdp.Source.Server.SlowPath

/-!
# The desktop size of a session

How a connection learns of the desktop size and tells its client: `negotiate` makes the acceptor
with the hub's size, `run_steady_state` subscribes to the hub when the connection is accepted, and
its loop handles the updates. The hub, the handshake and the loop take their steps in any order;
during the handshake the acceptor is driven by any input.
-/
namespace Kmsrdp.Source.Server.SizeAnnouncement
open Library.ByteString Source.Connector Source.Hub Source.Server.SlowPath

inductive Stage where
  | connecting
  | negotiating (acceptor : Acceptor)
  | steady (side : SlowPathSide) (updates : DisplayUpdates)
  | closed

structure World where
  hub : DisplayHub
  stage : Stage
  announced : Option DesktopSize

inductive Action where
  | capture (size : DesktopSize) (dirty : Option Nat)
  | publish
  | beginHandshake (requireNla : Bool)
  | handshake (input : Bytes)
  | approveClientInfo
  | enterSteadyState
  | slowPath (frame : Bytes)
  | nextUpdate
  | disconnect

def announce (announced : Option DesktopSize) : List ServerPdu → Option DesktopSize
  | [] => announced
  | .demandActive width height :: rest => announce (some ⟨width, height⟩) rest
  | _ :: rest => announce announced rest

def responseOf {ε : Type} : Except ε (List ServerPdu) → List ServerPdu
  | .ok response => response
  | .error _ => []

def reactivationResponse (side : SlowPathSide) (frame : Bytes) : List ServerPdu :=
  if side.resizing = true ∧ side.acceptor.isFinished = false then
    responseOf ((side.acceptor.step frame).1.map StepResult.response)
  else []

def resizeResponse (side : SlowPathSide) (size : DesktopSize) : List ServerPdu :=
  if side.resizing then [] else responseOf (side.acceptor.beginResize size.width size.height).1

variable (channels : StaticChannels)

def onUpdate (w : World) (side : SlowPathSide) (updates : DisplayUpdates) :
    Option DisplayUpdate → Option World
  | some (.resized size) =>
    (SlowPath.step channels side (.resized size.width size.height)).map fun side' =>
      { w with
        stage := .steady side' updates, announced := announce w.announced (resizeResponse side size) }
  | _ => some { w with stage := .steady side updates }

def step (w : World) : Action → Option World
  | .capture size dirty => (w.hub.capture size dirty).map fun hub => { w with hub }
  | .publish => w.hub.publish.map fun hub => { w with hub }
  | .beginHandshake requireNla =>
    match w.stage with
    | .connecting =>
      some { w with stage := .negotiating (.new w.hub.size.width w.hub.size.height requireNla) }
    | _ => none
  | .handshake input =>
    match w.stage with
    | .negotiating acceptor =>
      match acceptor.step input with
      | (.ok result, acceptor) =>
        some { w with
          stage := .negotiating acceptor, announced := announce w.announced result.response }
      | (.error _, _) => some { w with stage := .closed }
    | _ => none
  | .approveClientInfo =>
    match w.stage with
    | .negotiating acceptor =>
      match acceptor.approveClientInfo with
      | (.ok response, acceptor) =>
        some { w with stage := .negotiating acceptor, announced := announce w.announced response }
      | (.error _, _) => some { w with stage := .closed }
    | _ => none
  | .enterSteadyState =>
    match w.stage with
    | .negotiating acceptor =>
      if acceptor.phase = .accepted then
        some { w with stage := .steady (SlowPath.start acceptor) w.hub.subscribe }
      else none
    | _ => none
  | .slowPath frame =>
    match w.stage with
    | .steady side updates =>
      (SlowPath.step channels side (.slowPath frame)).map fun side' =>
        { w with
          stage := .steady side' updates
          announced := announce w.announced (reactivationResponse side frame) }
    | _ => none
  | .nextUpdate =>
    match w.stage with
    | .steady side updates =>
      (updates.nextUpdate w.hub).bind fun result => onUpdate channels w side result.2 result.1
    | _ => none
  | .disconnect => some { w with stage := .closed }

def start (size : DesktopSize) : World := ⟨.start size, .connecting, none⟩

theorem announce_of_noDemandActive (announced : Option DesktopSize) {response : List ServerPdu}
    (h : Acceptor.NoDemandActive response) : announce announced response = announced := by
  induction response with
  | nil => rfl
  | cons pdu rest ih =>
    have hrest : Acceptor.NoDemandActive rest := fun width height hmem =>
      h width height (List.mem_cons_of_mem _ hmem)
    cases pdu with
    | demandActive width height => exact absurd List.mem_cons_self (h width height)
    | _ => exact ih hrest

end Kmsrdp.Source.Server.SizeAnnouncement
