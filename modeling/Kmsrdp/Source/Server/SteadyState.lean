import Kmsrdp.Source.Pdu.Input
import Kmsrdp.Source.Server.Framing
import Kmsrdp.Source.Server.SlowPath

/-!
# What a frame makes the session do

Model of the frame branches of `run_steady_state` outside a resize, with all of
`handle_slow_path_frame`. `frameRequest` decodes; `serve` is what the session then calls.

A `redraw` is `latest_full_frame` with the parts of it that go to the client; no part stands for the
whole frame.
-/
namespace Kmsrdp.Source.Server.SteadyState
open Library.ByteString Source.Pdu Source.Connector Source.Server.Framing Source.Server.SlowPath
open Source.Server.SharedInput (FastPathInputEvent Call dispatchInputEvent)

inductive Request where
  | input (events : List FastPathInputEvent)
  | suppressOutput (allow : Bool)
  | refreshRect (rects : List InclusiveRect)
  | channelData (handler : Handler) (data : Bytes)

def ioRequest (data : Bytes) : Option Request :=
  match DataPdu.decode data with
  | .error _ => none
  | .ok pdu =>
    match pdu.pduType2 with
    | .input => (decodeSlowpathInput pdu.body).toOption.map .input
    | .suppressOutput => (decodeSuppressOutput pdu.body).toOption.map .suppressOutput
    | .refreshRect => (decodeRefreshRect pdu.body).toOption.map .refreshRect
    | _ => none

def requestOf (channels : StaticChannels) (sendData : SendData) : Option Request :=
  if sendData.channelId = ioChannelId then ioRequest sendData.data
  else (channels.handler sendData.channelId).map fun handler => .channelData handler sendData.data

def frameRequest (channels : StaticChannels) (frame : Bytes) : Option Request :=
  match unwrapData frame with
  | .error _ => none
  | .ok payload =>
    match SendData.decodeRequest payload with
    | .error _ => none
    | .ok sendData => requestOf channels sendData

inductive HandlerCall where
  | input (call : Call)
  | redraw (rects : List InclusiveRect)
  | channelData (handler : Handler) (data : Bytes)

structure Session where
  displayUpdatesAllowed : Bool
  calls : List HandlerCall

def inputCalls (events : List FastPathInputEvent) : List HandlerCall :=
  events.filterMap fun event => (dispatchInputEvent event).map .input

/-- The calls for one request. Output that was suppressed and is allowed again starts with the
whole frame. -/
def requestCalls (allowed : Bool) : Request → List HandlerCall
  | .input events => inputCalls events
  | .suppressOutput allow => if allow ∧ ¬ allowed then [.redraw []] else []
  | .refreshRect rects => [.redraw rects]
  | .channelData handler data => [.channelData handler data]

def allowedAfter (allowed : Bool) : Request → Bool
  | .suppressOutput allow => allow
  | .input _ | .refreshRect _ | .channelData _ _ => allowed

namespace Session

def serve (s : Session) (request : Request) : Session where
  displayUpdatesAllowed := allowedAfter s.displayUpdatesAllowed request
  calls := s.calls ++ requestCalls s.displayUpdatesAllowed request

def onFrame (s : Session) (channels : StaticChannels) : SteadyStateFrame → Session
  | .fastPathInput bytes =>
    match FastPathInput.decode bytes with
    | .ok input => s.serve (.input input.events)
    | .error _ => s
  | .slowPath bytes =>
    match frameRequest channels bytes with
    | some request => s.serve request
    | none => s

def onFrames (s : Session) (channels : StaticChannels) (frames : List SteadyStateFrame) : Session :=
  frames.foldl (fun s frame => s.onFrame channels frame) s

end Session

theorem frameRequest_of_reads (channels : StaticChannels) {bytes : Bytes} {sendData : SendData}
    (h : Reads SendData.decodeRequestFromCursor bytes sendData)
    (rest : Bytes) :
    frameRequest channels (wrapData (bytes ++ rest)) = requestOf channels sendData := by
  have hdecode : SendData.decodeRequest (bytes ++ rest) = .ok sendData := h.decodeFrom rest
  rw [frameRequest, unwrapData_wrapData]
  dsimp only
  rw [hdecode]

end Kmsrdp.Source.Server.SteadyState
