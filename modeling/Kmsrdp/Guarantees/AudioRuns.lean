import Kmsrdp.Library.Execution
import Kmsrdp.Source.Rdpsnd.Channel

/-!
# Runs of the rdpsnd channel

The channel under any waves and messages, with the true time beside its clock. A run records the
block numbers ever sent, the blocks not confirmed, and the last playback confirm with the PCM sent
since.
-/
namespace Kmsrdp.Guarantees.AudioRuns
open Library.ByteString Library.Chunks Source.Rdpsnd Source.Rdpsnd.RdpsndChannel List Function
  RdpsndChannel Nat

def nowMs (time : Nat) : Nat := time / 1000000 % 2 ^ 32

def readings (times : Nat → Nat) : Nat → Nat := fun i => nowMs (times i)

/-- A confirm that reported a hold, the time at which the channel took it, and the bytes of PCM sent
since. -/
structure Playback where
  (confirmedAt hold pcmBytes : Nat)
  deriving DecidableEq

structure AudioRun where
  channel : RdpsndChannel
  everSent : Fin 256 → Bool
  /-- The number of each block that was sent and not confirmed since. -/
  outstanding : List (Fin 256)
  playback : Option Playback

inductive Action where
  | wave (times : Nat → Nat) (pcm : Bytes)
  | message (times : Nat → Nat) (message : ClientMessage)

def wavePieces (c : RdpsndChannel) (pcm : Bytes) : List Bytes :=
  if versionV8 ≤ c.clientVersion then if pcm = [] then [[]] else chunks maxWave2ChunkBytes pcm
  else (chunks maxWaveInfoChunkBytes (padToFour pcm)).map padToFour

namespace AudioRun

def start (channelId userChannelId : Nat) : AudioRun :=
  ⟨RdpsndChannel.new channelId userChannelId, fun _ => false, [], none⟩

def sent (w : AudioRun) (numbers : List (Fin 256)) (bytes : Nat) (c : RdpsndChannel) :
    AudioRun where
  channel := c
  everSent blockNo := w.everSent blockNo || numbers.contains blockNo
  outstanding := w.outstanding ++ numbers
  playback := w.playback.map fun p => { p with pcmBytes := p.pcmBytes + bytes }

def outstandingAfter (w : AudioRun) : ClientMessage → List (Fin 256)
  | .waveConfirm blockNo _ => w.outstanding.filter (· ≠ blockNo)
  | _ => w.outstanding

def playbackAfter (w : AudioRun) (times : Nat → Nat) : ClientMessage → Option Playback
  | .waveConfirm blockNo timestamp =>
    match reportedHold w.channel (nowMs (times 0)) blockNo timestamp with
    | some hold => some ⟨times 1, hold, 0⟩
    | none => w.playback
  | _ => w.playback

def step (w : AudioRun) : Action → AudioRun
  | .wave times pcm =>
    let encoded := w.channel.encodeWave (readings times) pcm
    w.sent (encoded.1.map Prod.fst)
      ((wavePieces w.channel pcm).take encoded.1.length).flatten.length encoded.2
  | .message times message =>
    { w with
      channel := w.channel.onClientMessage (readings times) message
      outstanding := w.outstandingAfter message
      playback := w.playbackAfter times message }

def run (w : AudioRun) (actions : List Action) : AudioRun := actions.foldl step w

theorem sent_channel (w : AudioRun) (numbers : List (Fin 256)) (bytes : Nat) (c : RdpsndChannel) :
    (w.sent numbers bytes c).channel = c := rfl

theorem sent_sent (w : AudioRun) (blockNo : Fin 256) (numbers : List (Fin 256)) (bytes more : Nat)
    (c c' : RdpsndChannel) :
    (w.sent [blockNo] bytes c).sent numbers more c' =
      w.sent (blockNo :: numbers) (bytes + more) c' := by
  have hsent : (fun b => (w.everSent b || [blockNo].contains b) || numbers.contains b) =
      fun b => w.everSent b || (blockNo :: numbers).contains b := by
    funext b
    rw [Bool.or_assoc, contains_cons, contains_cons, contains_nil, Bool.or_false]
  have hplayback : (w.playback.map fun p => { p with pcmBytes := p.pcmBytes + bytes }).map
      (fun p => { p with pcmBytes := p.pcmBytes + more }) =
      w.playback.map fun p => { p with pcmBytes := p.pcmBytes + (bytes + more) } := by
    cases w.playback with
    | none => rfl
    | some p => simp only [Option.map_some, add_assoc]
  unfold sent
  rw [hsent, hplayback, append_assoc, singleton_append]

theorem sent_nil (w : AudioRun) : w.sent [] 0 w.channel = w := by
  obtain ⟨c, everSent, outstanding, playback⟩ := w
  have hsent : (fun b => everSent b || ([] : List (Fin 256)).contains b) = everSent := by
    funext b
    rw [contains_nil, Bool.or_false]
  unfold sent
  rw [hsent, append_nil]
  cases playback <;> rfl

end AudioRun

def unconfirmed (c : RdpsndChannel) : Nat := (List.finRange 256).countP c.blockPending

def bytesPerSec (c : RdpsndChannel) : Nat :=
  match c.negotiated with
  | none => 1
  | some negotiated => max negotiated.nAvgBytesPerSec 1

/-- The channel remembers the last playback confirm; what it has counted as sent since is no more
than was sent. -/
def Tracks (c : RdpsndChannel) : Option Playback → Prop
  | none => c.playbackHoldMs = none
  | some p => c.playbackHoldMs = some p.hold ∧ c.holdAtMs = nowMs p.confirmedAt ∧
      (c.totalSentMs - c.sentMsAtHold) * bytesPerSec c ≤ p.pcmBytes * 1000 ∧
      (c.state = .waitFormats → p.pcmBytes = 0)

structure Inv (w : AudioRun) : Prop where
  window : unconfirmed w.channel ≤ maxUnackedBlocks
  flags : ∀ blockNo, w.channel.blockPending blockNo = w.outstanding.contains blockNo
  unsent : ∀ blockNo, w.everSent blockNo = false →
    w.channel.blockPending blockNo = false ∧ w.channel.sentWtimestamp blockNo = 0
  best : ∀ hold, w.channel.playbackHoldMs = some hold →
    ∃ best, w.channel.bestConfirmRttMs = some best ∧ minPlaybackRttMs ≤ best ∧ best ≤ hold
  tracks : Tracks w.channel w.playback

theorem countP_update_le {α : Type} [DecidableEq α] (f : α → Bool) (a : α) {items : List α}
    (h : items.Nodup) : items.countP (update f a true) ≤ items.countP f + 1 := by
  induction items with
  | nil => exact zero_le _
  | cons b rest ih =>
    obtain ⟨hfresh, hrest⟩ := nodup_cons.mp h
    rw [countP_cons, countP_cons]
    by_cases heq : b = a
    · subst heq
      have hsame : rest.countP (update f b true) = rest.countP f := by
        apply countP_congr
        intro x hx
        rw [update_of_ne (by rintro rfl; exact hfresh hx)]
      rw [hsame, update_self]
      simp only [if_true]
      omega
    · rw [update_of_ne heq]
      have := ih hrest
      omega

variable (c : RdpsndChannel)

theorem unconfirmed_noteSend_le (now timestampMs bytes : Nat) :
    unconfirmed (c.noteSend now c.blockNo timestampMs bytes) ≤ unconfirmed c + 1 :=
  countP_update_le c.blockPending c.blockNo (nodup_finRange 256)

theorem unconfirmed_withoutBlock_le (blockNo : Fin 256) :
    unconfirmed (withoutBlock c blockNo) ≤ unconfirmed c := by
  refine countP_mono_left fun other _ hpending => ?_
  change update c.blockPending blockNo false other = true at hpending
  by_cases heq : other = blockNo
  · rw [heq, update_self] at hpending
    cases hpending
  · rwa [update_of_ne heq] at hpending

theorem unconfirmed_lt_of_not_skip {c : RdpsndChannel} {now : Nat}
    (hwindow : unconfirmed c ≤ maxUnackedBlocks)
    (hskip : c.shouldSkipSend now = false) : unconfirmed c < maxUnackedBlocks := by
  have hcount : c.pendingCount = unconfirmed c := by
    unfold maxUnackedBlocks at hwindow
    rw [pendingCount, ← countP_eq_length_filter]
    exact mod_eq_of_lt (by unfold unconfirmed at hwindow; omega)
  rw [shouldSkipSend, Bool.or_eq_false_iff, decide_eq_false_iff_not, hcount] at hskip
  exact Nat.lt_of_not_le hskip.1

theorem pcmDurationMs_mul_le (bytes : Nat) :
    c.pcmDurationMs bytes * bytesPerSec c ≤ bytes * 1000 := by
  unfold pcmDurationMs bytesPerSec
  cases c.negotiated with
  | none => simp
  | some negotiated =>
    calc bytes * 1000 / max negotiated.nAvgBytesPerSec 1 % 2 ^ 32 * max negotiated.nAvgBytesPerSec 1
        ≤ bytes * 1000 / max negotiated.nAvgBytesPerSec 1 * max negotiated.nAvgBytesPerSec 1 :=
          mul_le_mul_right _ (mod_le _ _)
      _ ≤ bytes * 1000 := div_mul_le_self _ _

variable {w : AudioRun}
open AudioRun

theorem Inv.noteSend
    (h : Inv w)
    {now : Nat}
    (hskip : w.channel.shouldSkipSend now = false)
    (hready : w.channel.state = .ready)
    (now' timestampMs bytes : Nat) :
    Inv
      (w.sent [w.channel.blockNo] bytes
        { w.channel.noteSend now' w.channel.blockNo timestampMs bytes with
          blockNo := w.channel.blockNo + 1 }) where
  window := by
    have hroom := unconfirmed_lt_of_not_skip h.window hskip
    have hone := unconfirmed_noteSend_le w.channel now' timestampMs bytes
    exact le_trans hone hroom
  flags blockNo := by
    rw [sent, contains_append, ← h.flags blockNo, contains_cons, contains_nil, Bool.or_false]
    show update w.channel.blockPending w.channel.blockNo true blockNo = _
    by_cases heq : blockNo = w.channel.blockNo
    · rw [heq, update_self]
      simp
    · rw [update_of_ne heq]
      simp [heq]
  unsent blockNo hunsent := by
    have hparts : w.everSent blockNo = false ∧ blockNo ≠ w.channel.blockNo := by
      simpa [sent] using hunsent
    obtain ⟨hpending, hstamp⟩ := h.unsent blockNo hparts.1
    exact ⟨(update_of_ne hparts.2 _ _).trans hpending, (update_of_ne hparts.2 _ _).trans hstamp⟩
  best := h.best
  tracks := by
    have htracks := h.tracks
    cases hplayback : w.playback with
    | none =>
      rw [hplayback] at htracks
      rw [sent, hplayback]
      exact htracks
    | some p =>
      rw [hplayback] at htracks
      obtain ⟨hhold, hat, hsent, -⟩ := htracks
      rw [sent, hplayback]
      refine ⟨hhold, hat, ?_, fun hwait => ?_⟩
      · have hpiece := pcmDurationMs_mul_le w.channel bytes
        have hmore : satAdd32 w.channel.totalSentMs
            (w.channel.pcmDurationMs bytes) - w.channel.sentMsAtHold ≤
            w.channel.totalSentMs - w.channel.sentMsAtHold + w.channel.pcmDurationMs bytes := by
          unfold satAdd32
          omega
        calc (satAdd32 w.channel.totalSentMs (w.channel.pcmDurationMs bytes) - w.channel.sentMsAtHold) *
                bytesPerSec w.channel
            ≤ (w.channel.totalSentMs - w.channel.sentMsAtHold + w.channel.pcmDurationMs bytes) *
                bytesPerSec w.channel := mul_le_mul_right _ hmore
          _ = (w.channel.totalSentMs - w.channel.sentMsAtHold) * bytesPerSec w.channel +
                w.channel.pcmDurationMs bytes * bytesPerSec w.channel := add_mul _ _ _
          _ ≤ p.pcmBytes * 1000 + bytes * 1000 := Nat.add_le_add hsent hpiece
          _ = (p.pcmBytes + bytes) * 1000 := (add_mul _ _ _).symm
      · cases hready.symm.trans hwait

theorem Inv.encodeBlocks {prepare : Bytes → Bytes} {frames : Fin 256 → Bytes → List Bytes}
    {timestampMs : Nat} {clock : Nat → Nat} (pieces : List Bytes) (i : Nat)
    (h : Inv w)
    (hready : w.channel.state = .ready) :
    let encoded := encodeBlocks prepare frames timestampMs clock i pieces w.channel
    Inv (w.sent (encoded.1.map Prod.fst) ((pieces.map prepare).take encoded.1.length).flatten.length
      encoded.2) := by
  induction pieces generalizing i w with
  | nil =>
    dsimp only
    rw [encodeBlocks]
    exact (w.sent_nil).symm ▸ h
  | cons piece rest ih =>
    dsimp only
    rw [encodeBlocks]
    split
    · exact (w.sent_nil).symm ▸ h
    · next hskip =>
      have hfirst := h.noteSend (Bool.eq_false_iff.mpr hskip) hready (clock (3 + 2 * i)) timestampMs
        (prepare piece).length
      have hlater := ih (i + 1) hfirst hready
      dsimp only at hlater
      rw [sent_sent, sent_channel] at hlater
      simpa only [map_cons, length_cons, take_succ_cons, flatten_cons,
        length_append] using hlater

theorem Inv.wave (h : Inv w) (times : Nat → Nat) (pcm : Bytes) :
    Inv (w.step (.wave times pcm)) := by
  have hnothing : Inv (w.sent [] 0 w.channel) := (w.sent_nil).symm ▸ h
  unfold step
  dsimp only
  unfold encodeWave
  split
  · exact hnothing
  · next hready =>
    have hready := not_not.mp hready
    split
    · exact hnothing
    · split
      · exact hnothing
      · next negotiated hnegotiated =>
        unfold wavePieces
        split
        · rw [← map_id (if pcm = [] then [[]] else chunks maxWave2ChunkBytes pcm)]
          exact Inv.encodeBlocks _ 0 h hready
        · exact Inv.encodeBlocks _ 0 h hready

theorem flags_withoutBlock {c : RdpsndChannel} {outstanding : List (Fin 256)}
    (h : ∀ other, c.blockPending other = outstanding.contains other)
    (blockNo : Fin 256) :
    ∀ other,
      (withoutBlock c blockNo).blockPending other =
        (outstanding.filter (· ≠ blockNo)).contains other := by
  intro other
  show update c.blockPending blockNo false other = _
  by_cases heq : other = blockNo
  · rw [heq, update_self]
    simp
  · rw [update_of_ne heq, h other]
    simp [heq]

section
variable (h : Inv w)
include h

theorem Inv.cleared (blockNo : Fin 256) :
    Inv
      { w with
        channel := withoutBlock w.channel blockNo
        outstanding := w.outstanding.filter (· ≠ blockNo) } :=
  { h with
    window := le_trans (unconfirmed_withoutBlock_le w.channel blockNo) h.window
    flags := flags_withoutBlock h.flags blockNo
    unsent other hunsent := by
      obtain ⟨hpending, hstamp⟩ := h.unsent other hunsent
      refine ⟨?_, hstamp⟩
      by_cases heq : other = blockNo
      · rw [heq]
        exact update_self ..
      · exact (update_of_ne heq _ _).trans hpending }

theorem Inv.playbackHold (time : Nat) {hold : Nat} (hlong : minPlaybackRttMs ≤ hold) :
    Inv
      { w with
        channel := w.channel.notePlaybackHold (nowMs time) hold
        playback := some ⟨time, hold, 0⟩ } :=
  { h with
    best reported hreported := by
      obtain rfl : hold = reported := Option.some.inj hreported
      refine ⟨_, rfl, ?_⟩
      generalize w.channel.bestConfirmRttMs = old
      cases old with
      | none => exact ⟨hlong, le_refl _⟩
      | some best =>
        dsimp only
        split <;> omega
    tracks := ⟨rfl, rfl, by simp [notePlaybackHold], fun _ => rfl⟩ }

theorem Inv.receiveAck (rtt : Nat) : Inv { w with channel := w.channel.noteReceiveAck rtt } :=
  { h with
    best hold hhold := by
      obtain ⟨best, hbest, hbounds⟩ := h.best hold hhold
      refine ⟨best, ?_, hbounds⟩
      rw [noteReceiveAck, hbest]
      rfl }

theorem Inv.waveConfirm (times : Nat → Nat) (blockNo : Fin 256) (timestamp : Nat) :
    Inv (w.step (.message times (.waveConfirm blockNo timestamp))) := by
  unfold step
  dsimp only [playbackAfter, outstandingAfter, onClientMessage]
  have hturn := confirmTurn_onWaveConfirm w.channel (readings times) blockNo timestamp
  generalize w.channel.onWaveConfirm (readings times) blockNo timestamp = c at hturn
  cases hturn with
  | playback hold hreported hlong =>
    rw [show reportedHold w.channel (nowMs (times 0)) blockNo timestamp = some hold from hreported]
    exact (h.cleared blockNo).playbackHold (times 1) hlong
  | received hreported hpending hshort =>
    rw [show reportedHold w.channel (nowMs (times 0)) blockNo timestamp = none from hreported]
    exact (h.cleared blockNo).receiveAck _
  | ignored hreported hnot =>
    rw [show reportedHold w.channel (nowMs (times 0)) blockNo timestamp = none from hreported]
    exact h.cleared blockNo

theorem Inv.negotiation {state : State}
    (hstate : state ≠ .waitFormats)
    (version : Nat) {chosen : Option NegotiatedFormat}
    (hchosen : w.channel.state = .waitFormats ∨ chosen = w.channel.negotiated) :
    Inv
      { w with
        channel :=
          { w.channel with negotiated := chosen, clientVersion := version, state := state } } :=
  { h with
    tracks := by
      have htracks := h.tracks
      cases hplayback : w.playback with
      | none =>
        rw [hplayback] at htracks
        exact htracks
      | some p =>
        rw [hplayback] at htracks
        obtain ⟨hhold, hat, hsent, hnothing⟩ := htracks
        refine ⟨hhold, hat, ?_, fun hback => absurd hback hstate⟩
        rcases hchosen with hwait | rfl
        · rw [hnothing hwait, zero_mul] at hsent
          have hrate : 0 < bytesPerSec w.channel := by
            unfold bytesPerSec
            split <;> omega
          have hzero : w.channel.totalSentMs - w.channel.sentMsAtHold = 0 :=
            (Nat.mul_eq_zero.mp (Nat.le_zero.mp hsent)).resolve_right (by omega)
          rw [hzero, zero_mul]
          exact zero_le _
        · exact hsent }

theorem Inv.step (action : Action) : Inv (w.step action) := by
  cases action with
  | wave times pcm => exact h.wave times pcm
  | message times message =>
    cases message with
    | waveConfirm blockNo timestamp => exact h.waveConfirm times blockNo timestamp
    | audioFormats version chosen =>
      unfold AudioRun.step
      dsimp only [playbackAfter, outstandingAfter, onClientMessage]
      split
      · next hwait => exact h.negotiation (by split <;> decide) version (.inl hwait)
      · exact h
    | _ =>
      unfold AudioRun.step
      dsimp only [playbackAfter, outstandingAfter, onClientMessage]
      split
      · exact h.negotiation (by decide) _ (.inr rfl)
      · exact h

end
variable (channelId userChannelId : Nat)

theorem inv_start : Inv (.start channelId userChannelId) where
  window := by
    have hnone : unconfirmed (new channelId userChannelId) = 0 := by
      rw [unconfirmed, countP_eq_zero]
      intro blockNo _ hpending
      cases hpending
    exact hnone ▸ zero_le _
  flags _ := rfl
  unsent _ _ := ⟨rfl, rfl⟩
  best _ hhold := by cases hhold
  tracks := rfl

theorem inv_run (actions : List Action) : Inv ((start channelId userChannelId).run actions) := by
  have hall : ∀ w, Inv w → Inv (w.run actions) := by
    induction actions with
    | nil => exact fun w h => h
    | cons action rest ih => exact fun w h => ih _ (h.step action)
  exact hall _ (inv_start channelId userChannelId)

end Kmsrdp.Guarantees.AudioRuns
