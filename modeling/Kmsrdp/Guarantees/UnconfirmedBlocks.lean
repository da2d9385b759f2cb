import Mathlib.Data.List.Nodup
import Kmsrdp.Guarantees.AudioRuns

/-!
# Unconfirmed audio blocks

The channel sends while fewer than four block numbers are pending. A number has one flag, so a block
with the number of one still unconfirmed, 256 blocks later, is not counted.
-/
namespace Kmsrdp.Guarantees.UnconfirmedBlocks
open Library.ByteString Library.Chunks Library.Execution Source.Rdpsnd Source.Rdpsnd.RdpsndChannel
  List
  Guarantees.AudioRuns

def next (w : AudioRun) (action : Action) : Option AudioRun := some (w.step action)

structure Sound (w : AudioRun) : Prop where
  bounded : w.outstanding.length ≤ 4
  clearsNamed : ∀ times blockNo timestamp,
    (w.step (.message times (.waveConfirm blockNo timestamp))).outstanding =
      w.outstanding.erase blockNo ∧
    ∀ other, (w.step (.message times (.waveConfirm blockNo timestamp))).channel.blockPending other =
      if other = blockNo then false else w.channel.blockPending other
  keepsHold : ∀ times blockNo timestamp, w.channel.blockPending blockNo = true →
    measuredRtt w.channel (nowMs (times 0)) blockNo timestamp < 40 →
    ∀ now, (w.step (.message times (.waveConfirm blockNo timestamp))).channel.estimatedHoldMs now =
      w.channel.estimatedHoldMs now

/-- None of the numbers that the wave may give its blocks, as far as the window has room, is that of
an unconfirmed block. -/
def FreshNumbers (w : AudioRun) : Action → Prop
  | .wave _ pcm => ∀ i < (wavePieces w.channel pcm).length, i + unconfirmed w.channel < 4 →
      w.channel.blockPending (w.channel.blockNo + Fin.ofNat 256 i) = false
  | .message _ _ => True

variable {w : AudioRun}

theorem unconfirmed_eq_length (h : Inv w) (hnodup : w.outstanding.Nodup) :
    unconfirmed w.channel = w.outstanding.length := by
  rw [unconfirmed, countP_eq_length_filter]
  refine List.Perm.length_eq ((perm_ext_iff_of_nodup ((nodup_finRange 256).filter _) hnodup).mpr ?_)
  intro blockNo
  rw [mem_filter, h.flags blockNo, contains_iff_mem]
  exact ⟨fun hmem => hmem.2, fun hmem => ⟨mem_finRange blockNo, hmem⟩⟩

theorem blockNo_add_zero (blockNo : Fin 256) : blockNo + Fin.ofNat 256 0 = blockNo := by
  apply Fin.ext
  simp only [Fin.val_add, Fin.val_ofNat]
  omega

theorem blockNo_add_succ (blockNo : Fin 256) (j : Nat) :
    blockNo + 1 + Fin.ofNat 256 j = blockNo + Fin.ofNat 256 (j + 1) := by
  apply Fin.ext
  simp only [Fin.val_add, Fin.val_ofNat, Fin.val_one]
  omega

variable {blockNo : Fin 256}

theorem blockNo_add_ne {j : Nat} (hpos : 0 < j) (hlt : j < 256) :
    blockNo + Fin.ofNat 256 j ≠ blockNo := by
  intro heq
  have hval := congrArg Fin.val heq
  simp only [Fin.val_add, Fin.val_ofNat] at hval
  omega

open AudioRun

theorem nodup_encodeBlocks {prepare : Bytes → Bytes} {frames : Fin 256 → Bytes → List Bytes}
    {timestampMs : Nat} {clock : Nat → Nat} (pieces : List Bytes) (i : Nat)
    (h : Inv w)
    (hready : w.channel.state = .ready)
    (hnodup : w.outstanding.Nodup)
    (hfresh : ∀ j < pieces.length, j + unconfirmed w.channel < 4 →
        w.channel.blockPending (w.channel.blockNo + Fin.ofNat 256 j) = false) :
    (w.outstanding ++
       (encodeBlocks prepare frames timestampMs clock i pieces w.channel).1.map
         Prod.fst).Nodup := by
  induction pieces generalizing i w with
  | nil => simpa [encodeBlocks] using hnodup
  | cons piece rest ih =>
    rw [encodeBlocks]
    split
    · simpa using hnodup
    · next hskip =>
      have hroom := unconfirmed_lt_of_not_skip h.window (Bool.eq_false_iff.mpr hskip)
      have hfree : w.channel.blockNo ∉ w.outstanding := by
        have hpending := hfresh 0 (Nat.succ_pos _) (by unfold maxUnackedBlocks at hroom; omega)
        rw [blockNo_add_zero, h.flags] at hpending
        simpa using hpending
      have hfirst := h.noteSend (Bool.eq_false_iff.mpr hskip) hready (clock (3 + 2 * i)) timestampMs
        (prepare piece).length
      have hmore : (w.outstanding ++ [w.channel.blockNo]).Nodup :=
        nodup_append.mpr ⟨hnodup, nodup_singleton _, by
          intro a ha b hb
          rw [mem_singleton.mp hb]
          rintro rfl
          exact hfree ha⟩
      have hlater := ih (i + 1) hfirst hready hmore ?_
      · have hassoc := append_assoc w.outstanding [w.channel.blockNo]
        rw [sent, hassoc] at hlater
        exact hlater
      · -- the window has become fuller by one, and the numbers go on behind this one
        intro j hj hwindow
        rw [unconfirmed_eq_length hfirst hmore] at hwindow
        have hcount := unconfirmed_eq_length h hnodup
        have hlength : (w.outstanding ++ [w.channel.blockNo]).length = w.outstanding.length + 1 :=
          by simp
        change j + (w.outstanding ++ [w.channel.blockNo]).length < 4 at hwindow
        have hpending := hfresh (j + 1) (Nat.succ_lt_succ hj) (by omega)
        show Function.update w.channel.blockPending w.channel.blockNo true
          (w.channel.blockNo + 1 + Fin.ofNat 256 j) = false
        rw [blockNo_add_succ, Function.update_of_ne (blockNo_add_ne (by omega) (by omega))]
        exact hpending

theorem nodup_wave
    (h : Inv w)
    (hnodup : w.outstanding.Nodup)
    (times : Nat → Nat) (pcm : Bytes)
    (hfresh : FreshNumbers w (.wave times pcm)) : (w.step (.wave times pcm)).outstanding.Nodup := by
  have hnothing : (w.outstanding ++ ([] : List (Fin 256 × List Bytes)).map Prod.fst).Nodup := by
    simpa using hnodup
  rw [FreshNumbers, wavePieces] at hfresh
  show (w.outstanding ++ (w.channel.encodeWave (readings times) pcm).1.map Prod.fst).Nodup
  unfold encodeWave
  split
  · exact hnothing
  · next hready =>
    split
    · exact hnothing
    · split
      · exact hnothing
      · split
        · next hversion =>
          rw [if_pos hversion] at hfresh
          exact nodup_encodeBlocks _ 0 h (not_not.mp hready) hnodup hfresh
        · next hversion =>
          rw [if_neg hversion, length_map] at hfresh
          exact nodup_encodeBlocks _ 0 h (not_not.mp hready) hnodup hfresh

theorem nodup_step
    (h : Inv w)
    (hnodup : w.outstanding.Nodup)
    {action : Action}
    (hfresh : FreshNumbers w action) : (w.step action).outstanding.Nodup := by
  cases action with
  | wave times pcm => exact nodup_wave h hnodup times pcm hfresh
  | message times message =>
    cases message with
    | waveConfirm blockNo timestamp => exact hnodup.filter _
    | audioFormats version chosen => exact hnodup
    | qualityMode => exact hnodup
    | trainingConfirm => exact hnodup

theorem sound_of_nodup (h : Inv w) (hnodup : w.outstanding.Nodup) : Sound w where
  bounded := by
    rw [← unconfirmed_eq_length h hnodup]
    exact h.window
  clearsNamed times blockNo timestamp := by
    refine ⟨?_, fun other => ?_⟩
    · rw [hnodup.erase_eq_filter]
      refine filter_congr fun other _ => ?_
      by_cases heq : other = blockNo <;> simp [heq]
    · show (w.channel.onWaveConfirm (readings times) blockNo timestamp).blockPending other = _
      rw [blockPending_onWaveConfirm, Function.update_apply]
  keepsHold times blockNo timestamp hpending hshort now := by
    show (w.channel.onWaveConfirm (readings times) blockNo timestamp).estimatedHoldMs now = _
    have hturn := w.channel.confirmTurn_onWaveConfirm (readings times) blockNo timestamp
    generalize w.channel.onWaveConfirm (readings times) blockNo timestamp = c at hturn
    cases hturn with
    | playback hold hreported hlong =>
      have hnot : ¬ minPlaybackRttMs ≤ measuredRtt w.channel (readings times 0) blockNo timestamp :=
        Nat.not_le.mpr hshort
      rw [reportedHold, if_pos hpending, if_neg hnot] at hreported
      cases hreported
    | received hreported hpending hshort => rfl
    | ignored hreported hnot => rfl

/-- In every run in which no wave takes the number of an unconfirmed block, at most four blocks are
unconfirmed at any time, a confirm clears the block it names and no other, and a confirm of a
pending block with a round trip below that of playback does not change the estimated hold. -/
theorem sound_always_of_freshNumbers (channelId userChannelId : Nat) (actions : List Action)
    (h : Careful next FreshNumbers (AudioRun.start channelId userChannelId) actions) :
    Always next Sound (AudioRun.start channelId userChannelId) actions := by
  refine always_of_careful (fun w => Inv w ∧ w.outstanding.Nodup)
    (fun w hw => sound_of_nodup hw.1 hw.2) ?_
    actions ⟨inv_start channelId userChannelId, nodup_nil⟩ h
  intro w action t hw hfresh hstep
  cases hstep
  exact ⟨hw.1.step action, nodup_step hw.1 hw.2 hfresh⟩

instance decidableFreshNumbers (w : AudioRun) : DecidablePred (FreshNumbers w)
  | .wave _ pcm => inferInstanceAs (Decidable (∀ i < (wavePieces w.channel pcm).length,
      i + unconfirmed w.channel < 4 →
        w.channel.blockPending (w.channel.blockNo + Fin.ofNat 256 i) = false))
  | .message _ _ => isTrue trivial

def greeting : List Action :=
  [.message (fun _ => 0) (.audioFormats 8 (some ⟨176400, 0⟩)), .message (fun _ => 0) .qualityMode,
    .message (fun _ => 0) .trainingConfirm]

def send : Action := .wave (fun _ => 0) [1, 2, 3, 4]

def confirm (blockNo : Fin 256) : Action := .message (fun _ => 0) (.waveConfirm blockNo 0)

theorem sound_after_two_waves :
    Always next Sound (AudioRun.start 1004 1003) (greeting ++ [send, send, confirm 0, send]) :=
  sound_always_of_freshNumbers 1004 1003 _ (by decide +kernel)

structure Sends (c : RdpsndChannel) : Prop where
  ready : c.state = .ready
  negotiated : c.negotiated = some ⟨176400, 0⟩
  version : c.clientVersion = 8
  noHold : c.playbackHoldMs = none

def oneBlock (c : RdpsndChannel) : RdpsndChannel :=
  { c.noteSend 0 c.blockNo 0 4 with blockNo := c.blockNo + 1 }

theorem Sends.shouldSkipSend {c : RdpsndChannel} (h : Sends c) (hroom : unconfirmed c < 4) :
    c.shouldSkipSend 0 = false := by
  have hcount : c.pendingCount < 4 := by
    rw [pendingCount, ← countP_eq_length_filter]
    exact Nat.lt_of_le_of_lt (Nat.mod_le _ _) hroom
  rw [RdpsndChannel.shouldSkipSend, estimatedHoldMs, h.noHold, Bool.or_eq_false_iff]
  exact ⟨decide_eq_false (Nat.not_le.mpr hcount), rfl⟩

theorem Sends.step (h : Sends w.channel) (hroom : unconfirmed w.channel < 4) :
    (w.step send).channel = oneBlock w.channel ∧
    (w.step send).outstanding = w.outstanding ++ [w.channel.blockNo] := by
  have hpieces : chunks maxWave2ChunkBytes [1, 2, 3, 4] = [([1, 2, 3, 4] : Bytes)] :=
    chunks_one (by decide) (by decide)
  have hencoded : ∃ frames, w.channel.encodeWave (readings fun _ => 0) [1, 2, 3, 4] =
      ([(w.channel.blockNo, frames)], oneBlock w.channel) := by
    have hskip : w.channel.shouldSkipSend (readings (fun _ => 0) 0) = false := h.shouldSkipSend hroom
    have hskip' : w.channel.shouldSkipSend (readings (fun _ => 0) (2 + 2 * 0)) = false :=
      h.shouldSkipSend hroom
    rw [encodeWave, if_neg (not_not.mpr h.ready), if_neg (by rw [hskip]; decide), h.negotiated]
    dsimp only
    rw [if_pos (by rw [h.version]; decide), encodeWave2Frames, if_neg (by decide), hpieces,
      encodeBlocks, if_neg (by rw [hskip']; decide)]
    exact ⟨_, rfl⟩
  obtain ⟨frames, hencoded⟩ := hencoded
  constructor
  · show (w.channel.encodeWave (readings fun _ => 0) [1, 2, 3, 4]).2 = _
    rw [hencoded]
  · show w.outstanding ++ (w.channel.encodeWave (readings fun _ => 0) [1, 2, 3, 4]).1.map Prod.fst = _
    rw [hencoded]
    rfl

/-- The blocks that wait to be confirmed, and the number of the next one. -/
structure Lags (blockNo : Fin 256) (outstanding : List (Fin 256)) (w : AudioRun) : Prop where
  inv : Inv w
  sends : Sends w.channel
  blockNo_eq : w.channel.blockNo = blockNo
  outstanding_eq : w.outstanding = outstanding

theorem Lags.room {outstanding : List (Fin 256)}
    (h : Lags blockNo outstanding w)
    (hroom : (finRange 256).countP outstanding.contains < 4) : unconfirmed w.channel < 4 := by
  rwa [unconfirmed, funext h.inv.flags, h.outstanding_eq]

theorem Lags.again {outstanding : List (Fin 256)}
    (h : Lags blockNo outstanding w)
    (hroom : (finRange 256).countP outstanding.contains < 4) :
    Lags (blockNo + 1) (outstanding ++ [blockNo]) (w.step send) := by
  obtain ⟨hchannel, houtstanding⟩ := h.sends.step (h.room hroom)
  refine ⟨h.inv.step _, ?_, ?_, by rw [houtstanding, h.outstanding_eq, h.blockNo_eq]⟩
  · rw [hchannel]
    exact ⟨h.sends.ready, h.sends.negotiated, h.sends.version, h.sends.noHold⟩
  · rw [hchannel, ← h.blockNo_eq]
    rfl

theorem Lags.round (h : Lags blockNo [0] w) (hne : blockNo ≠ 0) :
    Lags (blockNo + 1) [0] ((w.step send).step (confirm blockNo)) := by
  have hsent := h.again (by decide +kernel)
  obtain ⟨hchannel, -⟩ := h.sends.step (h.room (by decide +kernel))
  have hconfirmed : ((w.step send).step (confirm blockNo)).channel =
      (withoutBlock (oneBlock w.channel) blockNo).noteReceiveAck 0 := by
    show (w.step send).channel.onWaveConfirm (readings fun _ => 0) blockNo 0 = _
    rw [hchannel]
    simp [onWaveConfirm, oneBlock, noteSend, withoutBlock, h.blockNo_eq, readings, nowMs,
      maxPlausibleHoldMs, minPlaybackRttMs]
  refine ⟨hsent.inv.step _, ?_, ?_, ?_⟩
  · rw [hconfirmed]
    exact ⟨h.sends.ready, h.sends.negotiated, h.sends.version, h.sends.noHold⟩
  · rw [hconfirmed, ← h.blockNo_eq]
    rfl
  · show (w.step send).outstanding.filter (· ≠ blockNo) = _
    rw [hsent.outstanding_eq]
    simp [Ne.symm hne]

/-- So many blocks behind block 0, each confirmed at once. -/
def rounds (count : Nat) : List Action :=
  (List.range count).flatMap fun i => [send, confirm (Fin.ofNat 256 (i + 1))]

theorem lags_rounds (h : Lags 1 [0] w) {count : Nat} (hcount : count < 256) :
    Lags (Fin.ofNat 256 (count + 1)) [0] (w.run (rounds count)) := by
  induction count with
  | zero => exact h
  | succ count ih =>
    have hn : Fin.ofNat 256 (count + 1) ≠ 0 := by
      intro heq
      have hval := congrArg Fin.val heq
      simp only [Fin.val_ofNat, Fin.val_zero] at hval
      omega
    have hnext : Fin.ofNat 256 (count + 1) + 1 = Fin.ofNat 256 (count + 1 + 1) := by
      apply Fin.ext
      simp only [Fin.val_add, Fin.val_ofNat, Fin.val_one]
      omega
    rw [rounds, range_succ, flatMap_append, run, foldl_append, ← hnext]
    exact (ih (by omega)).round hn

theorem lags_greeted : Lags 1 [0] ((start 1004 1003).run (greeting ++ [send])) := by
  have hgreeted : Lags 0 [] ((start 1004 1003).run greeting) :=
    ⟨inv_run 1004 1003 greeting, ⟨rfl, rfl, rfl, rfl⟩, rfl, rfl⟩
  rw [run, foldl_append]
  exact hgreeted.again (by decide +kernel)

/-- Block 0 is never confirmed. When its number comes again the channel sends four blocks more, so
that five are unconfirmed. -/
theorem five_unconfirmed :
    ((AudioRun.start 1004 1003).run
       (greeting ++ [send] ++ rounds 255 ++ [send, send, send, send])).outstanding =
      [0, 0, 1, 2, 3] := by
  have hlags : Lags 0 [0] _ := lags_rounds lags_greeted (show 255 < 256 by decide)
  rw [run, foldl_append, foldl_append]
  have hfour :=
    (((hlags.again (by decide +kernel)).again (by decide +kernel)).again (by decide +kernel)).again
    (by decide +kernel)
  exact hfour.outstanding_eq

end Kmsrdp.Guarantees.UnconfirmedBlocks
