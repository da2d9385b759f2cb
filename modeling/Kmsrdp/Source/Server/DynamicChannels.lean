import Kmsrdp.Source.Dvc.Mux
import Kmsrdp.Source.Rdpegfx.Session
import Kmsrdp.Source.Transport.Writer

/-!
# The senders on dynamic channels

Model of what the session loop puts on the drdynvc channel: the replies of `handle_slow_path_frame`
(`slow_path.rs`), the GFX frames of `frame_pump.rs`, and those the loop sends itself at a resize.

The handlers' methods are a parameter, and an action of the loop brings the payloads and the state
the GFX encoder leaves. `produced` is the history of the messages made for dynamic channels.
-/
namespace Kmsrdp.Source.Server.DynamicChannels
open Library.ByteString Source.Dvc Source.Transport
variable {ω : Type}

inductive Handler where
  | echo
  | audioInput
  | gfx
  deriving DecidableEq

def gfxChannelName : String := "Microsoft::Windows::RDS::Graphics"

def Handler.channelName : Handler → String
  | .echo => "ECHO"
  | .audioInput => "AUDIO_INPUT"
  | .gfx => gfxChannelName

structure Behaviour (ω : Type) where
  onOpen : Handler → ω → List Bytes × ω
  onData : Handler → ω → Bytes → List Bytes × ω

def Behaviour.handlers (behaviour : Behaviour ω) : DvcHandlers Handler ω :=
  ⟨Handler.channelName, behaviour.onOpen, behaviour.onData⟩

def gfxAlone : Behaviour Rdpegfx.Inner where
  onOpen := fun _ inner => ([], inner)
  onData := fun handler inner data =>
    match handler with
    | .gfx => inner.onData data
    | _ => ([], inner)

inductive GfxEncodeOutcome where
  | fallback
  | send (payloads : List Bytes)
  | softSkip
  | disable (teardown : List Bytes)

def GfxEncodeOutcome.ofResult : Rdpegfx.GfxFrameResult → GfxEncodeOutcome
  | .frames payloads => .send payloads
  | .skip => .softSkip
  | .fallback teardown => .disable teardown

inductive BulkSend where
  | none
  | running (rest : List (ChannelKey × Bytes))
  | failed (rest : List (ChannelKey × Bytes))

def BulkSend.rest : BulkSend → List (ChannelKey × Bytes)
  | .none => []
  | .running rest => rest
  | .failed rest => rest

inductive LoopPhase where
  | selecting
  | replying (rest : List Bytes)
  | resizing (rest : List Bytes)
  | ended

def LoopPhase.replies : LoopPhase → List Bytes
  | .replying rest => rest
  | _ => []

def LoopPhase.resizeFrames : LoopPhase → List Bytes
  | .resizing rest => rest
  | _ => []

@[simp] theorem LoopPhase.replies_selecting : selecting.replies = [] := rfl

variable (rest : List Bytes)

@[simp] theorem LoopPhase.replies_replying : (replying rest).replies = rest := rfl

@[simp] theorem LoopPhase.replies_resizing : (resizing rest).replies = [] := rfl

@[simp] theorem LoopPhase.replies_ended : ended.replies = [] := rfl

@[simp] theorem LoopPhase.resizeFrames_selecting : selecting.resizeFrames = [] := rfl

@[simp] theorem LoopPhase.resizeFrames_replying : (replying rest).resizeFrames = [] := rfl

@[simp] theorem LoopPhase.resizeFrames_resizing : (resizing rest).resizeFrames = rest := rfl

@[simp] theorem LoopPhase.resizeFrames_ended : ended.resizeFrames = [] := rfl

structure Session (ω : Type) where
  mux : DvcMux Handler
  world : ω
  connection : Connection Bytes
  loop : LoopPhase
  bulkSend : BulkSend
  produced : List (Nat × Bytes)

inductive Action (ω : Type) where
  | clientData (payload : Bytes)
  | pushReply
  | dropReply
  | pump (outcome : GfxEncodeOutcome) (world : ω) (bitmapFrames : List Bytes)
  | pushBulk
  | failBulk
  | joinBulk
  | resize (payloads : Option (List Bytes)) (world : ω)
  | pushResize
  | abandonResize
  | otherSend (frame : Frame Bytes)
  | otherLive (frames : List (Frame Bytes))
  | writer (move : Connection.WriterMove)
  | finish

namespace Session
variable (behaviour : Behaviour ω)

def key (s : Session ω) : ChannelKey := .static s.mux.channelId.toNat

def replyPhase (rest : List Bytes) : LoopPhase := if rest = [] then .selecting else .replying rest

def resizePhase (rest : List Bytes) : LoopPhase := if rest = [] then .selecting else .resizing rest

def messagesOf : Response → List (Nat × Bytes)
  | .creates _ => []
  | .payloads channelId messages => messages.map fun message => (channelId, message)

def buildGfxFrames (s : Session ω) (payloads : List Bytes) : Option (Nat × List Bytes) :=
  (s.mux.channelIdForName behaviour.handlers gfxChannelName).map fun dynId =>
    (dynId, s.mux.encodePayloads dynId payloads)

/-- `apply_gfx_encode_outcome`: whether GFX handled the frame, the payloads that are sent and
the dynamic channel they are for. It fails when there is no GFX channel to send on. -/
def applyGfxEncodeOutcome (s : Session ω) :
    GfxEncodeOutcome → Option (Bool × List (Nat × Bytes) × List Bytes)
  | .fallback => some (false, [], [])
  | .softSkip => some (true, [], [])
  | .send payloads =>
    (s.buildGfxFrames behaviour payloads).map fun built =>
      (true, payloads.map (fun payload => (built.1, payload)), built.2)
  | .disable teardown =>
    if teardown = [] then some (false, [], [])
    else
      match s.buildGfxFrames behaviour teardown with
      | none => some (false, [], [])
      | some built => some (false, teardown.map (fun payload => (built.1, payload)), built.2)

def queueFrames (s : Session ω) (gfxHandled : Bool) (gfxFrames bitmapFrames : List Bytes) :
    BulkSend :=
  let gfx := gfxFrames.map fun bytes => (s.key, bytes)
  let frames := if gfxHandled then gfx else gfx ++ bitmapFrames.map fun bytes => (ChannelKey.io, bytes)
  if frames = [] then .none else .running frames

def onClientData (s : Session ω) (payload : Bytes) : Session ω :=
  let result := s.mux.onChannelData behaviour.handlers s.world payload
  match result.1 with
  | .error _ => { s with mux := result.2.1, world := result.2.2 }
  | .ok response =>
    { s with
      mux := result.2.1
      world := result.2.2
      loop := replyPhase (response.frames result.2.1)
      produced := s.produced ++ messagesOf response }

def pump (s : Session ω) (outcome : GfxEncodeOutcome) (world : ω) (bitmapFrames : List Bytes) :
    Session ω :=
  match s.applyGfxEncodeOutcome behaviour outcome with
  | none => { s with world := world, loop := .ended }
  | some (gfxHandled, messages, gfxFrames) =>
    { s with
      world := world
      bulkSend := s.queueFrames gfxHandled gfxFrames bitmapFrames
      produced := s.produced ++ messages }

def resize (s : Session ω) (payloads : Option (List Bytes)) (world : ω) : Session ω :=
  match payloads with
  | none => { s with world := world }
  | some payloads =>
    match s.buildGfxFrames behaviour payloads with
    | none => { s with world := world }
    | some built =>
      { s with
        world := world
        loop := resizePhase built.2
        produced := s.produced ++ payloads.map fun payload => (built.1, payload) }

def step (s : Session ω) : Action ω → Option (Session ω)
  | .clientData payload =>
    match s.loop with
    | .selecting => some (s.onClientData behaviour payload)
    | _ => none
  | .pushReply =>
    match s.loop with
    | .replying (bytes :: rest) =>
      (s.connection.sendAll ⟨s.key, .latency, bytes⟩).map fun connection =>
        { s with connection := connection, loop := replyPhase rest }
    | _ => none
  | .dropReply =>
    match s.loop with
    | .replying (_ :: rest) =>
      if s.connection.hasSpace .latency then none else some { s with loop := replyPhase rest }
    | _ => none
  | .pump outcome world bitmapFrames =>
    match s.loop, s.bulkSend with
    | .selecting, .none => some (s.pump behaviour outcome world bitmapFrames)
    | _, _ => none
  | .pushBulk =>
    match s.loop, s.bulkSend with
    | .ended, _ => none
    | _, .running ((channel, bytes) :: rest) =>
      (s.connection.sendAll ⟨channel, .bulk, bytes⟩).map fun connection =>
        { s with connection := connection, bulkSend := .running rest }
    | _, _ => none
  | .failBulk =>
    match s.loop, s.bulkSend with
    | .ended, _ => none
    | _, .running (frame :: rest) =>
      if s.connection.hasSpace .bulk then none else some { s with bulkSend := .failed (frame :: rest) }
    | _, _ => none
  | .joinBulk =>
    match s.loop, s.bulkSend with
    | .selecting, .running [] => some { s with bulkSend := .none }
    | .selecting, .failed _ => some { s with loop := .ended }
    | _, _ => none
  | .resize payloads world =>
    match s.loop with
    | .selecting => some (s.resize behaviour payloads world)
    | _ => none
  | .pushResize =>
    match s.loop with
    | .resizing (bytes :: rest) =>
      (s.connection.sendAll ⟨s.key, .bulk, bytes⟩).map fun connection =>
        { s with connection := connection, loop := resizePhase rest }
    | _ => none
  | .abandonResize =>
    match s.loop with
    | .resizing (_ :: _) =>
      if s.connection.hasSpace .bulk then none else some { s with loop := .selecting }
    | _ => none
  | .otherSend frame =>
    if frame.channel = s.key then none
    else some { s with connection := (s.connection.send frame).2 }
  | .otherLive frames =>
    if ∃ frame ∈ frames, frame.channel = s.key then none
    else some { s with connection := s.connection.sendLive frames }
  | .writer move =>
    (s.connection.writerStep move).map fun connection => { s with connection := connection }
  | .finish =>
    match s.loop with
    | .selecting => some { s with loop := .ended }
    | _ => none

def registered (echo audioInput gfx : Bool) : List Handler :=
  (if echo then [.echo] else []) ++ (if audioInput then [.audioInput] else []) ++
    if gfx then [.gfx] else []

def start (channelId userChannelId : UInt16) (echo audioInput gfx : Bool) (world : ω) : Session ω :=
  let mux : DvcMux Handler := DvcMux.new channelId userChannelId
  let connection := mux.initial.foldl
    (fun t bytes => (Connection.send t ⟨.static channelId.toNat, .latency, bytes⟩).2) Connection.new
  { mux := (registered echo audioInput gfx).foldl
      (fun mux handler => (mux.registerChannel behaviour.handlers handler).2) mux
    world, connection, loop := .selecting, bulkSend := .none, produced := [] }

end Session
end Kmsrdp.Source.Server.DynamicChannels
