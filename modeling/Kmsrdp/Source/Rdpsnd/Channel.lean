import Kmsrdp.Source.Pdu.Svc

/-!
# The rdpsnd channel

Model of `RdpsndChannel` in `rdpcore-rdpsnd/src/lib.rs` and of the wave encoders in `pdu.rs`.
Readings of the clock are arguments, since `now_ms` may answer differently at each call. Counters of
32 bits saturate as in the source.
-/
namespace Kmsrdp.Source.Rdpsnd
open Library.ByteString Library.Chunks Source.Pdu

instance neZeroBlockNo : NeZero 256 := ⟨by decide⟩

def u32Max : Nat := 2 ^ 32 - 1

def satAdd32 (a b : Nat) : Nat := min (a + b) u32Max

def versionV6 : Nat := 0x06
def versionV8 : Nat := 0x08
def maxWave2ChunkBytes : Nat := 65535 - 12
def maxWaveInfoChunkBytes : Nat := 65535 - 8

def writeHeader (msgType : UInt8) (bodyLen : Nat) : Bytes := [msgType, 0] ++ u16Le bodyLen

def encodeWave2 (formatNo : Nat) (blockNo : Fin 256) (timestampMs : Nat) (data : Bytes) : Bytes :=
  writeHeader 0x0D (12 + data.length) ++ u16Le timestampMs ++ u16Le formatNo ++
    [UInt8.ofNat blockNo] ++ [0, 0, 0] ++ u32Le timestampMs ++ data

def encodeWaveInfo (formatNo : Nat) (blockNo : Fin 256) (timestampMs : Nat) (pcm : Bytes) : Bytes :=
  writeHeader 0x02 (8 + pcm.length) ++ u16Le timestampMs ++ u16Le formatNo ++
    [UInt8.ofNat blockNo] ++ [0, 0, 0] ++ pcm.take 4

def encodeWaveRest (pcm : Bytes) : Bytes := u32Le 0 ++ pcm.drop 4

structure NegotiatedFormat where
  nAvgBytesPerSec : Nat
  formatNo : Nat

inductive State where
  | waitFormats
  | waitQualityMode
  | waitTrainingConfirm
  | ready
  deriving DecidableEq

inductive ClientMessage where
  | audioFormats (version : Nat) (chosen : Option NegotiatedFormat)
  | qualityMode
  | trainingConfirm
  | waveConfirm (blockNo : Fin 256) (timestamp : Nat)

structure RdpsndChannel where
  channelId : Nat
  userChannelId : Nat
  state : State
  negotiated : Option NegotiatedFormat
  clientVersion : Nat
  blockNo : Fin 256
  sentAtMs : Fin 256 → Nat
  blockPending : Fin 256 → Bool
  (bestConfirmRttMs lastConfirmRttMs : Option Nat)
  sentWtimestamp : Fin 256 → Nat
  receiveAckCount : Nat
  playbackHoldMs : Option Nat
  (holdAtMs sentMsAtHold totalSentMs : Nat)

namespace RdpsndChannel

def maxUnackedBlocks : Nat := 4
def minPlaybackRttMs : Nat := 40
def maxPlausibleHoldMs : Nat := 5000
def targetHoldMs : Nat := 80

def new (channelId userChannelId : Nat) : RdpsndChannel :=
  { channelId, userChannelId, state := .waitFormats, negotiated := none, clientVersion := 0
    blockNo := 0, sentAtMs := fun _ => 0, blockPending := fun _ => false
    bestConfirmRttMs := none, lastConfirmRttMs := none, sentWtimestamp := fun _ => 0
    receiveAckCount := 0, playbackHoldMs := none, holdAtMs := 0, sentMsAtHold := 0
    totalSentMs := 0 }

def pendingCount (c : RdpsndChannel) : Nat :=
  ((List.finRange 256).filter c.blockPending).length % 256

def pcmDurationMs (c : RdpsndChannel) (bytes : Nat) : Nat :=
  match c.negotiated with
  | none => 0
  | some negotiated => bytes * 1000 / max negotiated.nAvgBytesPerSec 1 % 2 ^ 32

def estimatedHoldMs (c : RdpsndChannel) (now : Nat) : Nat :=
  match c.playbackHoldMs with
  | none => 0
  | some hold =>
    satAdd32 hold (c.totalSentMs - c.sentMsAtHold) - (now - c.holdAtMs)

def noteReceiveAck (c : RdpsndChannel) (rtt : Nat) : RdpsndChannel :=
  { c with
    lastConfirmRttMs := some rtt
    receiveAckCount := satAdd32 c.receiveAckCount 1
    bestConfirmRttMs := if c.bestConfirmRttMs.isNone then some rtt else c.bestConfirmRttMs }

def notePlaybackHold (c : RdpsndChannel) (now rtt : Nat) : RdpsndChannel :=
  { c with
    lastConfirmRttMs := some rtt
    playbackHoldMs := some rtt
    holdAtMs := now
    sentMsAtHold := c.totalSentMs
    bestConfirmRttMs := some (match c.bestConfirmRttMs with
      | some best => if best < minPlaybackRttMs then rtt else min best rtt
      | none => rtt) }

def onWaveConfirm (c : RdpsndChannel) (clock : Nat → Nat) (blockNo : Fin 256) (timestamp : Nat) :
    RdpsndChannel :=
  let holdFromTs := (timestamp + 65536 - c.sentWtimestamp blockNo % 65536) % 65536
  let plausibleHold := if holdFromTs ≤ maxPlausibleHoldMs then some holdFromTs else none
  if c.blockPending blockNo then
    let c := { c with blockPending := Function.update c.blockPending blockNo false }
    let wallRtt := clock 0 - c.sentAtMs blockNo
    let rtt := match plausibleHold with
      | some hold => max wallRtt hold
      | none => wallRtt
    if minPlaybackRttMs ≤ rtt then c.notePlaybackHold (clock 1) rtt else c.noteReceiveAck rtt
  else
    match plausibleHold with
    | some hold => if minPlaybackRttMs ≤ hold then c.notePlaybackHold (clock 1) hold else c
    | none => c

def shouldSkipSend (c : RdpsndChannel) (now : Nat) : Bool :=
  maxUnackedBlocks ≤ c.pendingCount || targetHoldMs < c.estimatedHoldMs now

def noteSend (c : RdpsndChannel) (now : Nat) (blockNo : Fin 256) (timestampMs pcmBytes : Nat) :
    RdpsndChannel :=
  { c with
    sentAtMs := Function.update c.sentAtMs blockNo now
    sentWtimestamp := Function.update c.sentWtimestamp blockNo (timestampMs % 65536)
    blockPending := Function.update c.blockPending blockNo true
    totalSentMs := satAdd32 c.totalSentMs (c.pcmDurationMs pcmBytes) }

def onClientMessage (c : RdpsndChannel) (clock : Nat → Nat) : ClientMessage → RdpsndChannel
  | .audioFormats version chosen =>
    if c.state = .waitFormats then
      { c with
        negotiated := chosen
        clientVersion := version
        state := if versionV6 ≤ version then .waitQualityMode else .waitTrainingConfirm }
    else c
  | .qualityMode => if c.state = .waitQualityMode then { c with state := .waitTrainingConfirm } else c
  | .trainingConfirm => if c.state = .waitTrainingConfirm then { c with state := .ready } else c
  | .waveConfirm blockNo timestamp => c.onWaveConfirm clock blockNo timestamp

/-- The loop of `encode_wave2_frames` and `encode_wave_info_frames`: the number and the wire
frames of each block. The two differ in the chunk they take and in its frames. -/
def encodeBlocks (prepare : Bytes → Bytes) (frames : Fin 256 → Bytes → List Bytes)
    (timestampMs : Nat) (clock : Nat → Nat) :
    Nat → List Bytes → RdpsndChannel → List (Fin 256 × List Bytes) × RdpsndChannel
  | _, [], c => ([], c)
  | i, chunk :: rest, c =>
    if c.shouldSkipSend (clock (2 + 2 * i)) then ([], c)
    else
      let chunk := prepare chunk
      let sent := { c.noteSend (clock (3 + 2 * i)) c.blockNo timestampMs chunk.length with
        blockNo := c.blockNo + 1 }
      let later := encodeBlocks prepare frames timestampMs clock (i + 1) rest sent
      ((c.blockNo, frames c.blockNo chunk) :: later.1, later.2)

def padToFour (chunk : Bytes) : Bytes := chunk ++ List.replicate (4 - chunk.length) 0

def encodeWave2Frames (c : RdpsndChannel) (pcm : Bytes) (formatNo timestampMs : Nat)
    (clock : Nat → Nat) : List (Fin 256 × List Bytes) × RdpsndChannel :=
  encodeBlocks id
    (fun blockNo chunk =>
      wrapIndication c.userChannelId c.channelId (encodeWave2 formatNo blockNo timestampMs chunk))
    timestampMs clock 0 (if pcm = [] then [[]] else chunks maxWave2ChunkBytes pcm) c

def encodeWaveInfoFrames (c : RdpsndChannel) (pcm : Bytes) (formatNo timestampMs : Nat)
    (clock : Nat → Nat) : List (Fin 256 × List Bytes) × RdpsndChannel :=
  encodeBlocks padToFour
    (fun blockNo chunk =>
      wrapIndication c.userChannelId c.channelId
          (encodeWaveInfo formatNo blockNo (timestampMs % 65536) chunk) ++
        wrapIndication c.userChannelId c.channelId (encodeWaveRest chunk))
    timestampMs clock 0 (chunks maxWaveInfoChunkBytes (padToFour pcm)) c

def encodeWave (c : RdpsndChannel) (clock : Nat → Nat) (pcm : Bytes) :
    List (Fin 256 × List Bytes) × RdpsndChannel :=
  if c.state ≠ .ready then ([], c)
  else if c.shouldSkipSend (clock 0) then ([], c)
  else
    match c.negotiated with
    | none => ([], c)
    | some negotiated =>
      if versionV8 ≤ c.clientVersion then c.encodeWave2Frames pcm negotiated.formatNo (clock 1) clock
      else c.encodeWaveInfoFrames pcm negotiated.formatNo (clock 1) clock

section Confirm
variable (c : RdpsndChannel) (now : Nat) (blockNo : Fin 256) (timestamp : Nat)

def plausibleHold : Option Nat :=
  let holdFromTs := (timestamp + 65536 - c.sentWtimestamp blockNo % 65536) % 65536
  if holdFromTs ≤ maxPlausibleHoldMs then some holdFromTs else none

def measuredRtt : Nat :=
  match plausibleHold c blockNo timestamp with
  | some hold => max (now - c.sentAtMs blockNo) hold
  | none => now - c.sentAtMs blockNo

def reportedHold : Option Nat :=
  if c.blockPending blockNo then
    if minPlaybackRttMs ≤ measuredRtt c now blockNo timestamp
      then some (measuredRtt c now blockNo timestamp)
    else none
  else (plausibleHold c blockNo timestamp).filter (minPlaybackRttMs ≤ ·)

def withoutBlock : RdpsndChannel :=
  { c with blockPending := Function.update c.blockPending blockNo false }

theorem withoutBlock_eq_self (h : c.blockPending blockNo = false) : withoutBlock c blockNo = c := by
  rw [withoutBlock, Function.update_eq_self_iff.mpr h.symm]

end Confirm

inductive ConfirmTurn (c : RdpsndChannel) (clock : Nat → Nat) (blockNo : Fin 256)
    (timestamp : Nat) :
    RdpsndChannel → Prop
  | playback (hold : Nat) (h : reportedHold c (clock 0) blockNo timestamp = some hold)
      (hlong : minPlaybackRttMs ≤ hold) :
      ConfirmTurn c clock blockNo timestamp ((withoutBlock c blockNo).notePlaybackHold (clock 1) hold)
  | received (h : reportedHold c (clock 0) blockNo timestamp = none)
      (hpending : c.blockPending blockNo = true)
      (hshort : measuredRtt c (clock 0) blockNo timestamp < minPlaybackRttMs) :
      ConfirmTurn c clock blockNo timestamp
        ((withoutBlock c blockNo).noteReceiveAck (measuredRtt c (clock 0) blockNo timestamp))
  | ignored (h : reportedHold c (clock 0) blockNo timestamp = none)
      (hnot : c.blockPending blockNo = false) :
      ConfirmTurn c clock blockNo timestamp (withoutBlock c blockNo)

/-- `ConfirmTurn` has every case of a confirm. -/
theorem confirmTurn_onWaveConfirm (c : RdpsndChannel) (clock : Nat → Nat) (blockNo : Fin 256)
    (timestamp : Nat) :
    ConfirmTurn c clock blockNo timestamp (c.onWaveConfirm clock blockNo timestamp) := by
  cases hpending : c.blockPending blockNo with
  | true =>
    have heq : c.onWaveConfirm clock blockNo timestamp =
        if minPlaybackRttMs ≤ measuredRtt c (clock 0) blockNo timestamp then
          (withoutBlock c blockNo).notePlaybackHold (clock 1)
          (measuredRtt c (clock 0) blockNo timestamp)
        else (withoutBlock c blockNo).noteReceiveAck (measuredRtt c (clock 0) blockNo timestamp) := by
      rw [onWaveConfirm]
      simp only [hpending, if_true]
      rfl
    rw [heq]
    split
    · next hlong => exact .playback _ (by rw [reportedHold, if_pos hpending, if_pos hlong]) hlong
    · next hshort =>
      exact .received (by rw [reportedHold, if_pos hpending, if_neg hshort]) hpending
        (Nat.lt_of_not_le hshort)
  | false =>
    have hreported : reportedHold c (clock 0) blockNo timestamp =
        (plausibleHold c blockNo timestamp).filter (minPlaybackRttMs ≤ ·) := by
      rw [reportedHold, if_neg (by simp [hpending])]
    have heq : c.onWaveConfirm clock blockNo timestamp =
        match plausibleHold c blockNo timestamp with
        | some hold => if minPlaybackRttMs ≤ hold then c.notePlaybackHold (clock 1) hold else c
        | none => c := by
      rw [onWaveConfirm]
      simp only [hpending, Bool.false_eq_true, if_false]
      rfl
    have hself := withoutBlock_eq_self c blockNo hpending
    rw [heq]
    cases hhold : plausibleHold c blockNo timestamp with
    | none =>
      rw [hhold] at hreported
      have hturn := ConfirmTurn.ignored hreported hpending
      rwa [hself] at hturn
    | some hold =>
      rw [hhold] at hreported
      dsimp only
      split
      · next hlong =>
        have hturn := ConfirmTurn.playback hold (by simpa [Option.filter, hlong] using hreported) hlong
        rwa [hself] at hturn
      · next hshort =>
        have hturn := ConfirmTurn.ignored (by simpa [Option.filter, hshort] using hreported) hpending
        rwa [hself] at hturn

theorem blockPending_onWaveConfirm (c : RdpsndChannel) (clock : Nat → Nat) (blockNo : Fin 256)
    (timestamp : Nat) :
    (c.onWaveConfirm clock blockNo timestamp).blockPending =
      Function.update c.blockPending blockNo false := by
  have hturn := confirmTurn_onWaveConfirm c clock blockNo timestamp
  generalize c.onWaveConfirm clock blockNo timestamp = c' at hturn
  cases hturn <;> rfl

end RdpsndChannel
end Kmsrdp.Source.Rdpsnd
