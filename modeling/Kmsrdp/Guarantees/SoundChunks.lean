import Kmsrdp.Client.ChannelChunks
import Kmsrdp.Source.Rdpsnd.Negotiation

/-!
# Chunked messages on the rdpsnd channel

The rdpsnd channel takes every chunk for a message of its own. A list of audio formats may be longer
than a chunk of 1600 bytes: its first chunk is refused, the others are read as whatever they look
like, and the negotiation stays in its first state.
-/
namespace Kmsrdp.Guarantees.SoundChunks
open Library.ByteString Library.Chunks Source.Pdu Source.Rdpsnd List RdpsndChannel
open Source.Rdpsnd.RdpsndChannel (confirmTurn_onWaveConfirm reportedHold withoutBlock_eq_self)
open Client.ChannelChunks
variable {η : Type}

def hear (h : SoundHandler η) (clock : Nat → Nat) (s : SoundChannel η) (chunk : ChannelPdu) :
    List Bytes × SoundChannel η :=
  match s.onChannelData h clock chunk.payload with
  | (.error _, s) => ([], s)
  | (.ok responses, s) => (responses, s)

def deliver (h : SoundHandler η) (clock : Nat → Nat) :
    SoundChannel η → List ChannelPdu → List Bytes × SoundChannel η
  | s, [] => ([], s)
  | s, chunk :: rest =>
    let first := hear h clock s chunk
    let later := deliver h clock first.2 rest
    (first.1 ++ later.1, later.2)

/-- A message the channel acts on: the one its negotiation waits for, the confirm of a pending
block, or a confirm that reports a hold the channel does not have yet. -/
def ActsOn (c : RdpsndChannel) (clock : Nat → Nat) : Wire.ClientMessage → Prop
  | .audioFormats _ => c.state = .waitFormats
  | .qualityMode => c.state = .waitQualityMode
  | .trainingConfirm => c.state = .waitTrainingConfirm
  | .waveConfirm timestamp blockNo =>
    c.blockPending blockNo = true ∨
      ∃ hold, reportedHold c (clock 0) blockNo timestamp = some hold ∧
        c.notePlaybackHold (clock 1) hold ≠ c
  | .other => False

/-- Bytes that are a message the channel acts on. -/
def Acts (c : RdpsndChannel) (clock : Nat → Nat) (bytes : Bytes) : Prop :=
  ∃ message, Wire.decodeClientMessage bytes = .ok message ∧ ActsOn c clock message

/-- Some chunk is only a part of the message, but by itself one the channel acts on. -/
def Mistaken (c : RdpsndChannel) (clock : Nat → Nat) (message : Bytes) (chunks : List ChannelPdu) :
    Prop :=
  ∃ chunk ∈ chunks, chunk.body ≠ message ∧ Acts c clock chunk.body

/-- One chunk holds the whole message, or the channel acts neither on it nor on a chunk. -/
def Unharmed (c : RdpsndChannel) (clock : Nat → Nat) (message : Bytes) (chunks : List ChannelPdu) :
    Prop :=
  (∃ chunk ∈ chunks, chunk.body = message) ∨ ¬ Acts c clock message ∧ ¬ Mistaken c clock message chunks

section Message
variable {h : SoundHandler η} {clock : Nat → Nat} {s : SoundChannel η}

theorem onWaveConfirm_eq_self_iff (c : RdpsndChannel) (clock : Nat → Nat) (blockNo : Fin 256)
    (timestamp : Nat) :
    c.onWaveConfirm clock blockNo timestamp = c ↔
      ¬ ActsOn c clock (.waveConfirm timestamp blockNo) := by
  cases hpending : c.blockPending blockNo with
  | true =>
    refine iff_of_false ?_ (not_not.mpr (.inl hpending))
    intro hsame
    have hflag := congrFun (c.blockPending_onWaveConfirm clock blockNo timestamp) blockNo
    rw [hsame, hpending, Function.update_self] at hflag
    cases hflag
  | false =>
    have hself := withoutBlock_eq_self c blockNo hpending
    have hturn := confirmTurn_onWaveConfirm c clock blockNo timestamp
    generalize c.onWaveConfirm clock blockNo timestamp = c' at hturn
    cases hturn with
    | playback hold hreported hlong =>
      rw [hself, ActsOn, hpending, hreported]
      simp
    | received hreported hflag hshort =>
      rw [hpending] at hflag
      cases hflag
    | ignored hreported hnot =>
      rw [hself, ActsOn, hpending, hreported]
      simp

theorem onClientMessage_of_not_actsOn {message : Wire.ClientMessage}
    (hnot : ¬ ActsOn s.channel clock message) : s.onClientMessage h clock message = ([], s) := by
  cases message with
  | audioFormats client => exact if_neg hnot
  | qualityMode => exact if_neg hnot
  | trainingConfirm => exact if_neg hnot
  | waveConfirm timestamp blockNo =>
    obtain ⟨channel, negotiated, handler, agrees⟩ := s
    have hsame := (onWaveConfirm_eq_self_iff channel clock blockNo timestamp).mpr hnot
    simp only [SoundChannel.onClientMessage, hsame]
  | other => rfl

theorem onClientMessage_ne_of_actsOn {message : Wire.ClientMessage}
    (hacts : ActsOn s.channel clock message) : (s.onClientMessage h clock message).2 ≠ s := by
  intro hsame
  have hchannel := congrArg SoundChannel.channel hsame
  rw [SoundChannel.channel_onClientMessage] at hchannel
  cases message with
  | audioFormats client =>
    have hstate := congrArg state hchannel
    simp only [SoundChannel.heard, Option.elim, onClientMessage, if_pos (show _ = _ from hacts)]
      at hstate
    rw [show s.channel.state = .waitFormats from hacts] at hstate
    split at hstate <;> cases hstate
  | qualityMode =>
    have hstate := congrArg state hchannel
    simp only [SoundChannel.heard, Option.elim, onClientMessage, if_pos (show _ = _ from hacts)]
      at hstate
    rw [show s.channel.state = .waitQualityMode from hacts] at hstate
    cases hstate
  | trainingConfirm =>
    have hstate := congrArg state hchannel
    simp only [SoundChannel.heard, Option.elim, onClientMessage, if_pos (show _ = _ from hacts)]
      at hstate
    rw [show s.channel.state = .waitTrainingConfirm from hacts] at hstate
    cases hstate
  | waveConfirm timestamp blockNo =>
    exact (onWaveConfirm_eq_self_iff s.channel clock blockNo timestamp).mp hchannel hacts
  | other => exact hacts

end Message
section Chunk
variable {h : SoundHandler η} {clock : Nat → Nat} {s : SoundChannel η} {chunk : ChannelPdu}

theorem hear_eq (h : SoundHandler η) (clock : Nat → Nat) (s : SoundChannel η) (chunk : ChannelPdu) :
    hear h clock s chunk =
      match Wire.decodeClientMessage chunk.body with
      | .error _ => ([], s)
      | .ok message => s.onClientMessage h clock message := by
  rw [hear, SoundChannel.onChannelData, chunk.dechunkify_payload]
  dsimp only
  cases Wire.decodeClientMessage chunk.body <;> rfl

theorem hear_eq_self_iff : hear h clock s chunk = ([], s) ↔ ¬ Acts s.channel clock chunk.body := by
  rw [hear_eq]
  cases hdecode : Wire.decodeClientMessage chunk.body with
  | error e =>
    refine iff_of_true rfl ?_
    rintro ⟨message, hmessage, -⟩
    rw [hdecode] at hmessage
    cases hmessage
  | ok message =>
    have hacts : Acts s.channel clock chunk.body ↔ ActsOn s.channel clock message := by
      constructor
      · rintro ⟨read, hread, hacts⟩
        rw [hdecode] at hread
        cases hread
        exact hacts
      · exact fun hacts => ⟨message, hdecode, hacts⟩
    rw [hacts]
    constructor
    · exact fun hsame hacts => onClientMessage_ne_of_actsOn hacts (congrArg Prod.snd hsame)
    · exact onClientMessage_of_not_actsOn

theorem not_acts_nil (c : RdpsndChannel) (clock : Nat → Nat) : ¬ Acts c clock [] := by
  rintro ⟨message, hmessage, -⟩
  cases hmessage

end Chunk
section Chunks
variable {h : SoundHandler η} {clock : Nat → Nat} {s : SoundChannel η} {message : Bytes}
    {chunks : List ChannelPdu}

theorem deliver_of_not_acts (hnone : ∀ chunk ∈ chunks, ¬ Acts s.channel clock chunk.body) :
    deliver h clock s chunks = ([], s) := by
  induction chunks with
  | nil => rfl
  | cons chunk rest ih =>
    rw [deliver, hear_eq_self_iff.mpr (hnone chunk mem_cons_self)]
    rw [ih fun other hmem => hnone other (mem_cons_of_mem _ hmem)]
    rfl

theorem deliver_append
    (h : SoundHandler η)
    (clock : Nat → Nat) (s : SoundChannel η) (front back : List ChannelPdu) :
    deliver h clock s (front ++ back) =
      ((deliver h clock s front).1 ++ (deliver h clock (deliver h clock s front).2 back).1,
        (deliver h clock (deliver h clock s front).2 back).2) := by
  induction front generalizing s with
  | nil => rfl
  | cons chunk rest ih =>
    rw [cons_append, deliver, ih]
    simp only [deliver, append_assoc]

theorem deliver_of_empty (hempty : ∀ chunk ∈ chunks, chunk.body = []) :
    deliver h clock s chunks = ([], s) := by
  apply deliver_of_not_acts
  intro chunk hmem
  rw [hempty chunk hmem]
  exact not_acts_nil _ _

theorem deliver_of_whole {whole : ChannelPdu}
    (hjoined : chunks.flatMap ChannelPdu.body = message)
    (hmem : whole ∈ chunks)
    (hwhole : whole.body = message) : deliver h clock s chunks = hear h clock s whole := by
  obtain ⟨front, back, rfl⟩ := append_of_mem hmem
  rw [flatMap_append, flatMap_cons, hwhole] at hjoined
  have hlength := congrArg length hjoined
  simp only [length_append] at hlength
  have hempty : ∀ part : List ChannelPdu, (part.flatMap ChannelPdu.body).length = 0 →
      ∀ chunk ∈ part, chunk.body = [] := by
    intro part hzero
    exact flatMap_eq_nil_iff.mp (length_eq_zero_iff.mp hzero)
  rw [deliver_append, deliver_of_empty (hempty front (by omega)), deliver]
  rw [deliver_of_empty (hempty back (by omega))]
  simp

/-- Where no chunk is mistaken for a message, the chunks do what the message does if one of them is
the message, and nothing otherwise. -/
theorem deliver_of_not_mistaken
    (hjoined : chunks.flatMap ChannelPdu.body = message)
    (hnot : ¬ Mistaken s.channel clock message chunks) :
    (∃ whole ∈ chunks, whole.body = message ∧ deliver h clock s chunks = hear h clock s whole) ∨
    (∀ chunk ∈ chunks, chunk.body ≠ message) ∧ deliver h clock s chunks = ([], s) :=
    by
  by_cases hwhole : ∃ whole ∈ chunks, whole.body = message
  · obtain ⟨whole, hmem, hbody⟩ := hwhole
    exact .inl ⟨whole, hmem, hbody, deliver_of_whole hjoined hmem hbody⟩
  · have hparts : ∀ chunk ∈ chunks, chunk.body ≠ message :=
      fun chunk hmem hbody => hwhole ⟨chunk, hmem, hbody⟩
    refine .inr ⟨hparts, deliver_of_not_acts ?_⟩
    exact fun chunk hmem hacts => hnot ⟨chunk, hmem, hparts chunk hmem, hacts⟩

end Chunks

/-- A message cut into chunks leaves the channel, its handler and the responses as the message in a
single chunk does if one chunk holds all of it, or the channel acts neither on the message nor on a
chunk; as long as no chunk is mistaken for a message of its own, only then. -/
theorem chunked_as_single
    (h : SoundHandler η)
    (clock : Nat → Nat) (s : SoundChannel η) {message : Bytes} {chunks : List ChannelPdu}
    {single : ChannelPdu}
    (hcut : IsCut message chunks)
    (hsingle : IsCut message [single]) :
    (Unharmed s.channel clock message chunks →
       deliver h clock s chunks = deliver h clock s [single]) ∧
    (¬ Mistaken s.channel clock message chunks →
       deliver h clock s chunks = deliver h clock s [single] →
         Unharmed s.channel clock message chunks) := by
  have hbody : single.body = message := by simpa using hsingle.joined
  have hone : deliver h clock s [single] = hear h clock s single :=
    deliver_of_whole hsingle.joined mem_cons_self hbody
  rw [hone]
  constructor
  · rintro (⟨whole, hmem, hwhole⟩ | ⟨hmessage, hnot⟩)
    · rw [deliver_of_whole hcut.joined hmem hwhole]
      rw [hear_eq, hear_eq, hwhole, hbody]
    · have hnothing : deliver h clock s chunks = ([], s) := by
        apply deliver_of_not_acts
        intro chunk hmem hacts
        by_cases hpart : chunk.body = message
        · exact hmessage (hpart ▸ hacts)
        · exact hnot ⟨chunk, hmem, hpart, hacts⟩
      rw [hnothing, hear_eq_self_iff.mpr (by rwa [hbody])]
  · intro hnot hsame
    rcases deliver_of_not_mistaken hcut.joined hnot with ⟨whole, hmem, hwhole, -⟩ | ⟨-, hnothing⟩
    · exact .inl ⟨whole, hmem, hwhole⟩
    · rw [hnothing] at hsame
      have hmessage := hear_eq_self_iff.mp hsame.symm
      rw [hbody] at hmessage
      exact .inr ⟨hmessage, hnot⟩

/-! A handler with one format that takes the first format in common. -/

def stereo : Wire.AudioFormat := ⟨1, 2, 48000, 192000, 4, 16, none⟩

def firstCommon : SoundHandler Unit where
  getFormats _ := [stereo]
  chooseFormat handler common := (common.head?, handler)
  start handler _ := handler

def fresh : SoundChannel Unit := .new 1004 1002 ()

def clientFormats (count : Nat) : Bytes :=
  writeHeader Wire.sndcFormats (20 + 18 * count) ++
    (u32Le 0 ++ u32Le 0 ++ u32Le 0 ++ u16Be 0 ++ u16Le count ++
    [0] ++ u16Le 8 ++ [0]) ++
    (List.replicate count
      (u16Le 1 ++ u16Le 2 ++ u32Le 48000 ++ u32Le 192000 ++ u16Le 4 ++ u16Le 16 ++ u16Le 0)).flatten

/-- Two formats, behind an empty chunk. -/
theorem short_formats_heard :
    deliver firstCommon (fun _ => 0) fresh (cutInto [[], clientFormats 2]) =
      deliver firstCommon (fun _ => 0) fresh (cutInto [clientFormats 2]) := by
  have hcut := isCut_cutInto (cons_ne_nil [] [clientFormats 2])
  have hsingle := isCut_cutInto (cons_ne_nil (clientFormats 2) [])
  apply (chunked_as_single firstCommon (fun _ => 0) fresh hcut hsingle).1
  exact .inl ⟨_, mem_cons_of_mem _ mem_cons_self, by decide⟩

/-- Ninety formats are more than a chunk holds: in one chunk they are negotiated, in two the channel
still waits for them. -/
theorem long_formats_lost :
    (∀ piece ∈ chunks defaultChunkLength (clientFormats 90), piece.length ≤ 1600) ∧
    IsCut (clientFormats 90) (cutInto (chunks defaultChunkLength (clientFormats 90))) ∧
    (deliver firstCommon (fun _ => 0) fresh (cutInto [clientFormats 90])).2.channel.state =
      .waitQualityMode ∧
    (deliver firstCommon (fun _ => 0) fresh
       (cutInto (chunks defaultChunkLength (clientFormats 90)))).2.channel.state =
      .waitFormats := by
  have hpieces : chunks defaultChunkLength (clientFormats 90) ≠ [] := chunks_ne_nil _ (cons_ne_nil _ _)
  have hcut := isCut_cutInto hpieces
  rw [flatten_chunks (by decide)] at hcut
  refine ⟨fun piece hmem => length_le_of_mem_chunks hmem, hcut, ?_, ?_⟩
  · decide +kernel
  · decide +kernel

end Kmsrdp.Guarantees.SoundChunks
