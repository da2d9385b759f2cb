import Kmsrdp.Source.Rdpsnd.Channel

/-!
# What the client sends on the rdpsnd channel

Model of the client's messages in `rdpcore-rdpsnd/src/pdu.rs` and of `on_channel_data` in `lib.rs`,
for any `SoundHandler` over a state that its methods change.
-/
namespace Kmsrdp.Source.Rdpsnd
open Library.ByteString Source.Pdu

namespace Wire

def sndcWaveConfirm : UInt8 := 0x05
def sndcTraining : UInt8 := 0x06
def sndcFormats : UInt8 := 0x07
def sndcQualityMode : UInt8 := 0x0C

structure AudioFormat where
  (formatTag nChannels nSamplesPerSec nAvgBytesPerSec nBlockAlign bitsPerSample : Nat)
  extraData : Option Bytes

def AudioFormat.decode : Decoder AudioFormat := do
  let formatTag ← readU16Le
  let nChannels ← readU16Le
  let nSamplesPerSec ← readU32Le
  let nAvgBytesPerSec ← readU32Le
  let nBlockAlign ← readU16Le
  let bitsPerSample ← readU16Le
  let cbSize ← readU16Le
  let extraData ← if cbSize = 0 then pure none else some <$> readSlice cbSize
  return { formatTag, nChannels, nSamplesPerSec, nAvgBytesPerSec, nBlockAlign, bitsPerSample, extraData }

def AudioFormat.negotiationEq (format other : AudioFormat) : Bool :=
  format.formatTag = other.formatTag && format.nChannels = other.nChannels &&
    format.nSamplesPerSec = other.nSamplesPerSec && format.bitsPerSample = other.bitsPerSample &&
    format.extraData = other.extraData

structure ClientAudioFormats where
  formats : List AudioFormat
  version : Nat

def minFormatBytes : Nat := 2 + 2 + 4 + 4 + 2 + 2 + 2
def decodeClientAudioFormats : Decoder ClientAudioFormats := do
  let _flags ← readU32Le
  let _volume ← readU32Le
  let _pitch ← readU32Le
  let _dgramPort ← readU16Be
  let count ← readU16Le
  let _lastBlockConfirmed ← readU8
  let version ← readU16Le
  let _pad ← readU8
  ensureCount count minFormatBytes
  let formats ← readMany AudioFormat.decode count
  return { formats, version }

inductive ClientMessage where
  | audioFormats (client : ClientAudioFormats)
  | trainingConfirm
  | qualityMode
  | waveConfirm (timestamp : Nat) (blockNo : Fin 256)
  | other

def decodeClientMessage (input : Bytes) : Except DecodeError ClientMessage :=
  decodeFrom (do
    let msgType ← readU8
    let _pad ← readU8
    let bodyLen ← readU16Le
    let body ← readSlice bodyLen
    if msgType = sndcFormats then
      match decodeFrom decodeClientAudioFormats body with
      | .ok client => return .audioFormats client
      | .error e => throw e
    else if msgType = sndcTraining then return .trainingConfirm
    else if msgType = sndcQualityMode then return .qualityMode
    else if msgType = sndcWaveConfirm then
      match decodeFrom (do
        let timestamp ← readU16Le
        let blockNo ← readU8
        return (timestamp, blockNo)) body with
      | .ok (timestamp, blockNo) => return .waveConfirm timestamp ⟨blockNo.toNat, blockNo.toNat_lt⟩
      | .error e => throw e
    else return .other) input

structure NegotiatedFormat where
  format : AudioFormat
  formatNo : Nat

def negotiateFormats (serverFormats clientFormats : List AudioFormat) : List NegotiatedFormat :=
  clientFormats.zipIdx.filterMap fun (clientFormat, i) =>
    (serverFormats.find? (·.negotiationEq clientFormat)).map fun serverFormat =>
      ⟨serverFormat, i % 65536⟩

def encodeTraining : Bytes := writeHeader sndcTraining 4 ++ u16Le 0 ++ u16Le 0

def NegotiatedFormat.numbers (negotiated : NegotiatedFormat) : Rdpsnd.NegotiatedFormat :=
  ⟨negotiated.format.nAvgBytesPerSec, negotiated.formatNo⟩

end Wire

structure SoundHandler (η : Type) where
  getFormats : η → List Wire.AudioFormat
  chooseFormat : η → List Wire.NegotiatedFormat → Option Wire.NegotiatedFormat × η
  start : η → Wire.NegotiatedFormat → η

structure SoundChannel (η : Type) where
  channel : RdpsndChannel
  negotiated : Option Wire.NegotiatedFormat
  handler : η
  agrees : channel.negotiated = negotiated.map Wire.NegotiatedFormat.numbers

theorem RdpsndChannel.negotiated_onWaveConfirm (c : RdpsndChannel) (clock : Nat → Nat)
    (blockNo : Fin 256) (timestamp : Nat) :
    (c.onWaveConfirm clock blockNo timestamp).negotiated = c.negotiated := by
  have hturn := confirmTurn_onWaveConfirm c clock blockNo timestamp
  generalize c.onWaveConfirm clock blockNo timestamp = c' at hturn
  cases hturn <;> rfl

def RdpsndChannel.trainingFrames (c : RdpsndChannel) : List Bytes :=
  wrapIndication c.userChannelId c.channelId Wire.encodeTraining

namespace SoundChannel
variable {η : Type}

def new (channelId userChannelId : Nat) (handler : η) : SoundChannel η :=
  ⟨RdpsndChannel.new channelId userChannelId, none, handler, rfl⟩

def onClientMessage (h : SoundHandler η) (s : SoundChannel η) (clock : Nat → Nat) :
    Wire.ClientMessage → List Bytes × SoundChannel η
  | .audioFormats client =>
    if s.channel.state = .waitFormats then
      let common := Wire.negotiateFormats (h.getFormats s.handler) client.formats
      let choice := h.chooseFormat s.handler common
      let state := if versionV6 ≤ client.version then .waitQualityMode else .waitTrainingConfirm
      (if versionV6 ≤ client.version then [] else s.channel.trainingFrames,
        { channel := { s.channel with
            negotiated := choice.1.map Wire.NegotiatedFormat.numbers
            clientVersion := client.version
            state }
          negotiated := choice.1
          handler := choice.2
          agrees := rfl })
    else ([], s)
  | .qualityMode =>
    if s.channel.state = .waitQualityMode then
      (s.channel.trainingFrames,
        { s with channel := { s.channel with state := .waitTrainingConfirm }, agrees := s.agrees })
    else ([], s)
  | .trainingConfirm =>
    if s.channel.state = .waitTrainingConfirm then
      ([], { s with
        channel := { s.channel with state := .ready }
        handler := s.negotiated.elim s.handler (h.start s.handler)
        agrees := s.agrees })
    else ([], s)
  | .waveConfirm timestamp blockNo =>
    ([], { s with
      channel := s.channel.onWaveConfirm clock blockNo timestamp
      agrees := (s.channel.negotiated_onWaveConfirm clock blockNo timestamp).trans s.agrees })
  -- whatever else comes is dropped
  | .other => ([], s)

def onChannelData (h : SoundHandler η) (s : SoundChannel η) (clock : Nat → Nat) (payload : Bytes) :
    Except DecodeError (List Bytes) × SoundChannel η :=
  match decodeFrom dechunkify payload with
  | .error e => (.error e, s)
  | .ok (_, _, body) =>
    match Wire.decodeClientMessage body with
    | .error e => (.error e, s)
    | .ok message =>
      let outcome := s.onClientMessage h clock message
      (.ok outcome.1, outcome.2)

def heard (h : SoundHandler η) (s : SoundChannel η) : Wire.ClientMessage → Option ClientMessage
  | .audioFormats client =>
    let common := Wire.negotiateFormats (h.getFormats s.handler) client.formats
    some (.audioFormats client.version
      ((h.chooseFormat s.handler common).1.map Wire.NegotiatedFormat.numbers))
  | .qualityMode => some .qualityMode
  | .trainingConfirm => some .trainingConfirm
  | .waveConfirm timestamp blockNo => some (.waveConfirm blockNo timestamp)
  | .other => none

theorem channel_onClientMessage
    (h : SoundHandler η)
    (s : SoundChannel η) (clock : Nat → Nat) (message : Wire.ClientMessage) :
    (s.onClientMessage h clock message).2.channel =
      ((s.heard h message).elim s.channel (s.channel.onClientMessage clock)) := by
  cases message with
  | audioFormats client =>
    simp only [onClientMessage, heard, Option.elim, RdpsndChannel.onClientMessage]
    split <;> rfl
  | qualityMode =>
    simp only [onClientMessage, heard, Option.elim, RdpsndChannel.onClientMessage]
    split <;> rfl
  | trainingConfirm =>
    simp only [onClientMessage, heard, Option.elim, RdpsndChannel.onClientMessage]
    split <;> rfl
  | waveConfirm timestamp blockNo => rfl
  | other => rfl

end SoundChannel
end Kmsrdp.Source.Rdpsnd
