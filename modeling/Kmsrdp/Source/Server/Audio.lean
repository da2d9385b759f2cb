import Kmsrdp.Source.Rdpsnd.Channel
import Kmsrdp.Source.Transport.Writer

/-!
# Waves, the live slot and the confirms

Model of `send_wave_frames` in `rdpcore-server/src/server/session_audio.rs` between the rdpsnd
channel and the writer, with a client that confirms wave blocks it has received, in any order and
possibly again.
-/
namespace Kmsrdp.Source.Server.Audio
open Library.ByteString Source.Rdpsnd Source.Transport

structure Block where
  serial : Nat
  blockNo : Fin 256
  deriving DecidableEq

inductive Payload where
  | wave (block : Block) (last : Bool) (bytes : Bytes)
  | other (bytes : Bytes)

def Payload.completes : Payload → Option Block
  | .wave block true _ => some block
  | _ => none

def blockFrames (channel : ChannelKey) (block : Block) : List Bytes → List (Frame Payload)
  | [] => []
  | [bytes] => [⟨channel, .latency, .wave block true bytes⟩]
  | bytes :: rest => ⟨channel, .latency, .wave block false bytes⟩ :: blockFrames channel block rest

def waveFrames (channel : ChannelKey) : Nat → List (Fin 256 × List Bytes) → List (Frame Payload)
  | _, [] => []
  | serial, (blockNo, frames) :: rest =>
    blockFrames channel ⟨serial, blockNo⟩ frames ++ waveFrames channel (serial + 1) rest

structure AudioSide where
  channel : RdpsndChannel
  connection : Connection Payload
  nextSerial : Nat
  confirmed : List Block

namespace AudioSide

def start (channelId userChannelId : Nat) : AudioSide :=
  ⟨RdpsndChannel.new channelId userChannelId, Connection.new, 0, []⟩

def received (s : AudioSide) : List Block :=
  s.connection.socket.filterMap fun sent => sent.2.bytes.completes

def sendWaveFrames (s : AudioSide) (clock : Nat → Nat) (pcm : Bytes) : AudioSide :=
  let encoded := s.channel.encodeWave clock pcm
  if encoded.1 = [] then { s with channel := encoded.2 }
  else
    { s with
      channel := encoded.2
      connection := s.connection.sendLive
        (waveFrames (.static s.channel.channelId) s.nextSerial encoded.1)
      nextSerial := s.nextSerial + encoded.1.length }

inductive Action where
  | wave (clock : Nat → Nat) (pcm : Bytes)
  | audioFormats (version : Nat) (chosen : Option NegotiatedFormat)
  | qualityMode
  | trainingConfirm
  | waveConfirm (clock : Nat → Nat) (block : Block) (timestamp : Nat)
  | otherSend (frame : Frame Bytes)
  | writer (move : Connection.WriterMove)

def otherFrame (frame : Frame Bytes) : Frame Payload :=
  ⟨frame.channel, frame.priority, .other frame.bytes⟩

def step (s : AudioSide) : Action → Option AudioSide
  | .wave clock pcm => some (s.sendWaveFrames clock pcm)
  | .audioFormats version chosen =>
    some { s with channel := s.channel.onClientMessage (fun _ => 0) (.audioFormats version chosen) }
  | .qualityMode => some { s with channel := s.channel.onClientMessage (fun _ => 0) .qualityMode }
  | .trainingConfirm =>
    some { s with channel := s.channel.onClientMessage (fun _ => 0) .trainingConfirm }
  | .waveConfirm clock block timestamp =>
    if block ∈ s.received then
      some { s with
        channel := s.channel.onClientMessage clock (.waveConfirm block.blockNo timestamp)
        confirmed := block :: s.confirmed }
    else none
  | .otherSend frame => some { s with connection := (s.connection.send (otherFrame frame)).2 }
  | .writer move =>
    (s.connection.writerStep move).map fun connection => { s with connection := connection }

end AudioSide
end Kmsrdp.Source.Server.Audio
