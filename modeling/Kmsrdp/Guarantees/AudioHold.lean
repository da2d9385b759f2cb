import Mathlib.Tactic.Ring
import Kmsrdp.Guarantees.AudioRuns

/-!
# The estimate of the client's play queue

A playback-shaped confirm reports how long the client held a block. The channel then estimates the
client's queue as that hold and the PCM sent since, less the time gone by, and sends nothing while
it is above target.
-/
namespace Kmsrdp.Guarantees.AudioHold
open Library.ByteString Library.Chunks Source.Rdpsnd Source.Rdpsnd.RdpsndChannel
  Guarantees.AudioRuns AudioRun List Nat

/-- At the time the client has played out what the confirm reported and all PCM sent since; times
are in nanoseconds, and both sides are multiplied by the bytes per second. -/
def PlayedOut (negotiated : NegotiatedFormat) (p : Playback) (time : Nat) : Prop :=
  let rate := max negotiated.nAvgBytesPerSec 1
  p.hold * 1000000 * rate + p.pcmBytes * 1000000000 ≤ (time - p.confirmedAt) * rate

/-- The 32-bit clock of the channel shows that the queue has run down to its target: it has not
wrapped since the confirm, or the difference of its readings is enough all the same. -/
def ClockShows (c : RdpsndChannel) (p : Playback) (time : Nat) : Prop :=
  time / 1000000 / 2 ^ 32 = p.confirmedAt / 1000000 / 2 ^ 32 ∨
    satAdd32 p.hold (c.totalSentMs - c.sentMsAtHold) ≤ targetHoldMs + (nowMs time - nowMs p.confirmedAt)

variable {time : Nat}

theorem nowMs_sub {start : Nat} (hsame : time / 1000000 / 2 ^ 32 = start / 1000000 / 2 ^ 32) :
    nowMs time - nowMs start = time / 1000000 - start / 1000000 := by
  unfold nowMs
  omega

variable {c : RdpsndChannel} {negotiated : NegotiatedFormat}

theorem covers_of_playedOut {p : Playback}
    (hnegotiated : c.negotiated = some negotiated)
    (hsent : (c.totalSentMs - c.sentMsAtHold) * bytesPerSec c ≤ p.pcmBytes * 1000)
    (hplayed : PlayedOut negotiated p time)
    (hhold : 0 < p.hold) :
    p.confirmedAt + (p.hold + (c.totalSentMs - c.sentMsAtHold)) * 1000000 ≤ time := by
  have hrate : bytesPerSec c = max negotiated.nAvgBytesPerSec 1 := by
    rw [bytesPerSec, hnegotiated]
  unfold PlayedOut at hplayed
  rw [hrate] at hsent
  generalize hr : max negotiated.nAvgBytesPerSec 1 = rate at hsent hplayed
  generalize c.totalSentMs - c.sentMsAtHold = counted at hsent
  have hpos : 0 < rate := by omega
  have hscaled : (p.hold + counted) * 1000000 * rate ≤ (time - p.confirmedAt) * rate :=
    calc (p.hold + counted) * 1000000 * rate =
      p.hold * 1000000 * rate + counted * rate * 1000000 := by ring
      _ ≤ p.hold * 1000000 * rate + p.pcmBytes * 1000 * 1000000 :=
          Nat.add_le_add_left (Nat.mul_le_mul_right _ hsent) _
      _ = p.hold * 1000000 * rate + p.pcmBytes * 1000000000 := by ring
      _ ≤ (time - p.confirmedAt) * rate := hplayed
  have hcovered := le_of_mul_le_mul_right hscaled hpos
  omega

theorem shouldSkipSend_iff (hnone : ∀ blockNo, c.blockPending blockNo = false) (now : Nat) :
    c.shouldSkipSend now = false ↔ c.estimatedHoldMs now ≤ targetHoldMs := by
  have hcount : c.pendingCount = 0 := by
    have hempty : (finRange 256).filter c.blockPending = [] := by
      rw [filter_eq_nil_iff]
      intro blockNo _
      rw [hnone blockNo]
      exact Bool.false_ne_true
    rw [pendingCount, hempty]
    rfl
  rw [shouldSkipSend, hcount, Bool.or_eq_false_iff, decide_eq_false_iff_not,
    decide_eq_false_iff_not, not_lt]
  exact ⟨fun h => h.2, fun h => ⟨by decide, h⟩⟩

theorem shouldSkipSend_iff_clockShows {p : Playback}
    (htracks : Tracks c (some p))
    (hnegotiated : c.negotiated = some negotiated)
    (hhold : 0 < p.hold)
    (hnone : ∀ blockNo, c.blockPending blockNo = false)
    (hplayed : PlayedOut negotiated p time) :
    c.shouldSkipSend (nowMs time) = false ↔ ClockShows c p time := by
  obtain ⟨hheld, hat, hsent, -⟩ := htracks
  have hcovers := covers_of_playedOut hnegotiated hsent hplayed hhold
  rw [shouldSkipSend_iff hnone, estimatedHoldMs, hheld, hat, ClockShows]
  dsimp only
  unfold satAdd32 u32Max targetHoldMs
  constructor
  · intro hlow
    by_cases hsame : time / 1000000 / 2 ^ 32 = p.confirmedAt / 1000000 / 2 ^ 32
    · exact .inl hsame
    · exact .inr (by omega)
  · rintro (hsame | hlow)
    · rw [nowMs_sub hsame]
      omega
    · omega

theorem encodeBlocks_ne_nil_iff {prepare : Bytes → Bytes} {frames : Fin 256 → Bytes → List Bytes}
    {timestampMs : Nat} {clock : Nat → Nat} {pieces : List Bytes}
    (hpieces : pieces ≠ [])
    (c : RdpsndChannel) :
    (encodeBlocks prepare frames timestampMs clock 0 pieces c).1 ≠ [] ↔
      c.shouldSkipSend (clock 2) = false := by
  obtain ⟨piece, rest, rfl⟩ := exists_cons_of_ne_nil hpieces
  rw [encodeBlocks]
  cases hskip : c.shouldSkipSend (clock (2 + 2 * 0)) with
  | true => simp
  | false => simp

theorem encodeWave_ne_nil_iff
    (hready : c.state = .ready)
    (hnegotiated : c.negotiated = some negotiated)
    (clock : Nat → Nat) (pcm : Bytes) :
    (c.encodeWave clock pcm).1 ≠ [] ↔
      c.shouldSkipSend (clock 0) = false ∧ c.shouldSkipSend (clock 2) = false := by
  have hpieces : (if pcm = [] then [[]] else chunks maxWave2ChunkBytes pcm) ≠ [] := by
    split
    · exact cons_ne_nil _ _
    · next hpcm => exact chunks_ne_nil _ hpcm
  have hpadded : chunks maxWaveInfoChunkBytes (padToFour pcm) ≠ [] := by
    apply chunks_ne_nil
    cases pcm with
    | nil => decide
    | cons b rest => exact cons_ne_nil _ _
  rw [encodeWave, if_neg (not_not.mpr hready)]
  cases hskip : c.shouldSkipSend (clock 0) with
  | true => simp
  | false =>
    rw [hnegotiated]
    simp only [Bool.false_eq_true, if_false, true_and]
    split
    · exact encodeBlocks_ne_nil_iff hpieces c
    · exact encodeBlocks_ne_nil_iff hpadded c

/-- In every run: once the client has played out the hold of the last playback-shaped confirm and
the PCM sent since, and no block is pending, the next wave is sent exactly when the clock of the
channel shows it at both readings ahead of the first block. -/
theorem wave_sent_iff_clockShows (channelId userChannelId : Nat) (actions : List Action)
    {p : Playback} {negotiated : NegotiatedFormat}
    (hplayback : ((AudioRun.start channelId userChannelId).run actions).playback = some p)
    (hready : ((AudioRun.start channelId userChannelId).run actions).channel.state = .ready)
    (hnegotiated : ((AudioRun.start channelId userChannelId).run actions).channel.negotiated =
      some negotiated)
    (hnone : ∀ blockNo,
      ((AudioRun.start channelId userChannelId).run actions).channel.blockPending blockNo = false)
    (times : Nat → Nat)
    (hplayed : PlayedOut negotiated p (times 0))
    (hlater : times 0 ≤ times 2)
    (pcm : Bytes) :
    let c := ((start channelId userChannelId).run actions).channel
    (c.encodeWave (readings times) pcm).1 ≠ [] ↔
      ClockShows c p (times 0) ∧ ClockShows c p (times 2) := by
  intro c
  have hinv := inv_run channelId userChannelId actions
  have htracks := hinv.tracks
  rw [hplayback] at htracks
  have hhold : 0 < p.hold := by
    obtain ⟨best, -, hlong, hle⟩ := hinv.best p.hold htracks.1
    unfold minPlaybackRttMs at hlong
    omega
  have hplayed' : PlayedOut negotiated p (times 2) := by
    exact le_trans hplayed (mul_le_mul_right _ (by omega))
  rw [encodeWave_ne_nil_iff hready hnegotiated]
  exact and_congr (shouldSkipSend_iff_clockShows htracks hnegotiated hhold hnone hplayed)
    (shouldSkipSend_iff_clockShows htracks hnegotiated hhold hnone hplayed')

def atMs (ms : Nat) : Nat := ms * 1000000

def playedRun (sentAt : Nat) : List Action :=
  [.message (fun _ => 0) (.audioFormats 8 (some ⟨176400, 0⟩)), .message (fun _ => 0) .qualityMode,
    .message (fun _ => 0) .trainingConfirm, .wave (fun _ => atMs sentAt) [1, 2, 3, 4],
    .message (fun _ => atMs (sentAt + 290)) (.waveConfirm 0 ((sentAt + 290) % 65536))]

def beforeWrap : Nat := 2 ^ 32 - 300

theorem none_pending_of_all
    (h : (finRange 256).all (fun b => !c.blockPending b) = true)
    (blockNo : Fin 256) : c.blockPending blockNo = false := by
  have hblock := all_eq_true.mp h blockNo (mem_finRange blockNo)
  exact Bool.not_eq_true' _ |>.mp hblock

/-- A confirm in the first second, and a wave one second after it. -/
theorem wave_sent_in_first_period :
    (((AudioRun.start 1004 1003).run (playedRun 100)).channel.encodeWave
       (readings fun _ => atMs 1390) [5, 6, 7, 8]).1 ≠
      [] := by
  have hplayback : ((start 1004 1003).run (playedRun 100)).playback = some ⟨atMs 390, 290, 0⟩ := by
    decide +kernel
  exact (wave_sent_iff_clockShows 1004 1003 (playedRun 100) hplayback rfl rfl
    (none_pending_of_all (by decide +kernel)) (fun _ => atMs 1390) (by unfold PlayedOut; decide)
    (le_refl _)
    [5, 6, 7, 8]).mpr ⟨.inl rfl, .inl rfl⟩

/-- The same around the wrap of the clock: the queue of 290 milliseconds is played out and no block
is pending, but the reading is smaller than that of the confirm, so the wave is skipped. -/
theorem wave_skipped_after_wrap :
    let w := (start 1004 1003).run (playedRun beforeWrap)
    w.playback = some ⟨atMs (beforeWrap + 290), 290, 0⟩ ∧
    w.channel.state = .ready ∧
    w.channel.negotiated = some ⟨176400, 0⟩ ∧
    (∀ blockNo, w.channel.blockPending blockNo = false) ∧
    PlayedOut ⟨176400, 0⟩ ⟨atMs (beforeWrap + 290), 290, 0⟩ (atMs (beforeWrap + 1300)) ∧
    (w.channel.encodeWave (readings fun _ => atMs (beforeWrap + 1300)) [5, 6, 7, 8]).1 = [] := by
  refine ⟨by decide +kernel, rfl, rfl, none_pending_of_all (by decide +kernel),
    by unfold PlayedOut; decide, ?_⟩
  decide +kernel

structure Gate where
  blockPending : Fin 256 → Bool
  (bestConfirmRttMs playbackHoldMs : Option Nat)
  holdAtMs : Nat
  sentMsAtHold : Nat

def gateOf (c : RdpsndChannel) : Gate :=
  ⟨c.blockPending, c.bestConfirmRttMs, c.playbackHoldMs, c.holdAtMs, c.sentMsAtHold⟩

theorem reportedHold_of_unsent {w : AudioRun}
    (h : Inv w)
    {blockNo : Fin 256}
    (hunsent : w.everSent blockNo = false)
    (now : Nat) (timestamp : UInt16) :
    reportedHold w.channel now blockNo timestamp.toNat =
      if 40 ≤ timestamp.toNat ∧ timestamp.toNat ≤ 5000 then some timestamp.toNat else none := by
  obtain ⟨hpending, hstamp⟩ := h.unsent blockNo hunsent
  have hlt := timestamp.toNat_lt
  have hfrom : (timestamp.toNat + 65536 - 0 % 65536) % 65536 = timestamp.toNat := by omega
  rw [reportedHold, if_neg (by rw [hpending]; exact Bool.false_ne_true), plausibleHold, hstamp, hfrom]
  by_cases hshort : timestamp.toNat ≤ maxPlausibleHoldMs
  · rw [if_pos hshort]
    by_cases hlong : minPlaybackRttMs ≤ timestamp.toNat
    · rw [if_pos ⟨hlong, hshort⟩]
      simp [Option.filter, hlong]
    · rw [if_neg fun hrange => hlong hrange.1]
      simp [Option.filter, hlong]
  · rw [if_neg hshort, if_neg fun hrange => hshort hrange.2]
    rfl

/-- In every run: a confirm of a block that was never sent leaves alone what decides on sending
exactly when its time stamp is no plausible hold, or the channel has just this hold from the same
reading of the clock with nothing sent since. -/
theorem unsent_confirm_harmless_iff (channelId userChannelId : Nat) (actions : List Action)
    {blockNo : Fin 256}
    (hunsent : ((AudioRun.start channelId userChannelId).run actions).everSent blockNo = false)
    (times : Nat → Nat) (timestamp : UInt16) :
    let c := ((start channelId userChannelId).run actions).channel
    gateOf (c.onWaveConfirm (readings times) blockNo timestamp.toNat) = gateOf c ↔
      ¬ (40 ≤ timestamp.toNat ∧ timestamp.toNat ≤ 5000) ∨
        (c.playbackHoldMs = some timestamp.toNat ∧ c.holdAtMs = nowMs (times 1) ∧
          c.sentMsAtHold = c.totalSentMs) := by
  intro c
  have hinv := inv_run channelId userChannelId actions
  have hreports := reportedHold_of_unsent hinv hunsent (nowMs (times 0)) timestamp
  have hcleared : withoutBlock c blockNo = c :=
    withoutBlock_eq_self c blockNo (hinv.unsent blockNo hunsent).1
  have hturn := c.confirmTurn_onWaveConfirm (readings times) blockNo timestamp.toNat
  generalize c.onWaveConfirm (readings times) blockNo timestamp.toNat = c' at hturn
  cases hturn with
  | playback hold hreported hlong =>
    have hsome := hreports.symm.trans hreported
    obtain ⟨hrange, ⟨⟩⟩ := Option.ite_none_right_eq_some.mp hsome
    rw [hcleared]
    constructor
    · intro hsame
      have hheld : some timestamp.toNat = c.playbackHoldMs := congrArg Gate.playbackHoldMs hsame
      have hat : nowMs (times 1) = c.holdAtMs := congrArg Gate.holdAtMs hsame
      have hsent : c.totalSentMs = c.sentMsAtHold := congrArg Gate.sentMsAtHold hsame
      exact .inr ⟨hheld.symm, hat.symm, hsent.symm⟩
    · rintro (hnot | ⟨hheld, hat, hsent⟩)
      · exact absurd hrange hnot
      · -- the best round trip is that of playback already, and no longer than the hold
        obtain ⟨best, hbest, hbestLong, hbestLe⟩ := hinv.best _ hheld
        have hbest' : c.bestConfirmRttMs = some best := hbest
        rw [gateOf, gateOf, notePlaybackHold]
        rw [hbest', hheld, hat, hsent]
        dsimp only
        rw [if_neg (not_lt.mpr hbestLong), min_eq_left hbestLe]
        rfl
  | received hreported hpending hshort =>
    rw [(hinv.unsent blockNo hunsent).1] at hpending
    cases hpending
  | ignored hreported hnot =>
    have hnone := hreports.symm.trans hreported
    split at hnone
    · cases hnone
    · next hrange =>
      rw [hcleared]
      exact ⟨fun _ => .inl hrange, fun _ => rfl⟩

/-- A time stamp that is too small for a hold. -/
theorem unsent_confirm_ignored :
    gateOf
      ((AudioRun.start 1004 1003).channel.onWaveConfirm (readings fun _ => 0) 7
         (39 : UInt16).toNat) =
      gateOf (AudioRun.start 1004 1003).channel :=
  (unsent_confirm_harmless_iff 1004 1003 [] rfl (fun _ => 0) 39).mpr (.inl (by decide))

/-- Nothing was ever sent, and a confirm with the time stamp 1000 makes the channel skip the waves
of the next 920 milliseconds. -/
theorem unsent_confirm_stops_waves :
    let w := (start 1004 1003).run [.message (fun _ => 0) (.waveConfirm 7 1000)]
    (start 1004 1003).everSent 7 = false ∧
    (start 1004 1003).channel.playbackHoldMs = none ∧
    w.channel.playbackHoldMs = some 1000 ∧
    (start 1004 1003).channel.shouldSkipSend 919 = false ∧
    w.channel.shouldSkipSend 919 = true := by
  refine ⟨rfl, rfl, rfl, ?_, ?_⟩ <;> decide +kernel

end Kmsrdp.Guarantees.AudioHold
