import Kmsrdp.Library.Execution
import Kmsrdp.Source.Server.Audio

/-!
# The unacknowledged window and the live slot

A block counts as unacknowledged once it is encoded, and should then still be confirmable: its last
frame is in the live slot, in the writer's hands, or on the socket and not confirmed.
-/
namespace Kmsrdp.Guarantees.AudioWindow
open Library.ByteString Library.Execution Source.Pdu Source.Rdpsnd Source.Server.Audio
  Source.Transport List Function Connection RdpsndChannel AudioSide

def completed (frames : List (Frame Payload)) : List Block :=
  frames.filterMap fun frame => frame.bytes.completes

def completedTaken (taken : List (Origin × Frame Payload)) : List Block :=
  taken.filterMap fun sent => sent.2.bytes.completes

def inSlot (t : Connection Payload) : List Block :=
  match t.live with
  | none => []
  | some frames => completed frames

def inHand (t : Connection Payload) : List Block := completedTaken t.phase.holding

/-- The block waits to be written, or the client has it and has not confirmed it. -/
def Outstanding (s : AudioSide) (block : Block) : Prop :=
  block ∈ inSlot s.connection ∨ block ∈ inHand s.connection ∨
    (block ∈ s.received ∧ block ∉ s.confirmed)

/-- The last block encoded with the number: block numbers are serial numbers modulo 256. -/
def LatestOf (nextSerial : Nat) (blockNo : Fin 256) (block : Block) : Prop :=
  block.blockNo = blockNo ∧ block.serial % 256 = blockNo.val ∧ block.serial < nextSerial ∧
    nextSerial ≤ block.serial + 256

def PendingOutstanding (s : AudioSide) : Prop :=
  ∀ blockNo, s.channel.blockPending blockNo = true →
    ∃ block, LatestOf s.nextSerial blockNo block ∧ Outstanding s block

/-- Nothing waits to be written and the client has confirmed all it received. -/
def Settled (s : AudioSide) : Prop :=
  inSlot s.connection = [] ∧ inHand s.connection = [] ∧ ∀ block ∈ s.received, block ∈ s.confirmed

/-- No block is pending, and the channel skips a wave only for a long play queue. -/
def CanSend (s : AudioSide) : Prop :=
  (∀ block, s.channel.blockPending block = false) ∧
    ∀ now, s.channel.shouldSkipSend now = true →
      RdpsndChannel.targetHoldMs < s.channel.estimatedHoldMs now

/-- Pending blocks are outstanding, and a settled channel can send. -/
def WindowSound (s : AudioSide) : Prop := PendingOutstanding s ∧ (Settled s → CanSend s)

variable {s : AudioSide}

theorem canSend_of_none_pending (h : ∀ block, s.channel.blockPending block = false) :
    CanSend s := by
  refine ⟨h, fun now hskip => ?_⟩
  have hcount : s.channel.pendingCount = 0 := by
    have hnone : (finRange 256).filter s.channel.blockPending = [] := by
      rw [filter_eq_nil_iff]
      intro block _
      simp [h block]
    rw [pendingCount, hnone]
    rfl
  simpa [shouldSkipSend, hcount, maxUnackedBlocks] using hskip

theorem windowSound_of_pendingOutstanding (h : PendingOutstanding s) : WindowSound s := by
  refine ⟨h, fun ⟨hslot, hhand, hconfirmed⟩ => canSend_of_none_pending fun blockNo => ?_⟩
  by_contra hpending
  obtain ⟨block, -, hout | hout | ⟨hreceived, hopen⟩⟩ := h blockNo (by simpa using hpending)
  · rw [hslot] at hout
    cases hout
  · rw [hhand] at hout
    cases hout
  · exact hopen (hconfirmed block hreceived)

def waveBlocks : Nat → List (Fin 256 × List Bytes) → List Block
  | _, [] => []
  | serial, (blockNo, _) :: rest => ⟨serial, blockNo⟩ :: waveBlocks (serial + 1) rest

theorem completed_blockFrames (channel : ChannelKey) (block : Block) {frames : List Bytes}
    (hne : frames ≠ []) : completed (blockFrames channel block frames) = [block] := by
  induction frames with
  | nil => exact absurd rfl hne
  | cons bytes rest ih =>
    cases rest with
    | nil => rfl
    | cons bytes' rest => exact ih (cons_ne_nil _ _)

theorem completed_waveFrames (channel : ChannelKey) (serial : Nat)
    {blocks : List (Fin 256 × List Bytes)}
    (hne : ∀ block ∈ blocks, block.2 ≠ []) :
    completed (waveFrames channel serial blocks) = waveBlocks serial blocks := by
  induction blocks generalizing serial with
  | nil => rfl
  | cons block rest ih =>
    have hfirst := completed_blockFrames channel ⟨serial, block.1⟩ (hne block mem_cons_self)
    have hrest := ih (serial + 1) fun other hother => hne other (mem_cons_of_mem _ hother)
    unfold completed at hfirst hrest
    rw [completed, waveFrames, filterMap_append, hfirst, hrest]
    rfl

variable {block : Block}

theorem serial_of_mem_waveBlocks {serial : Nat} {blocks : List (Fin 256 × List Bytes)}
    (h : block ∈ waveBlocks serial blocks) :
    serial ≤ block.serial ∧ block.serial < serial + blocks.length := by
  induction blocks generalizing serial with
  | nil => cases h
  | cons head rest ih =>
    rw [length_cons]
    rcases mem_cons.mp h with rfl | h
    · exact ⟨Nat.le_refl _, Nat.lt_add_of_pos_right (Nat.succ_pos _)⟩
    · have := ih h
      omega

/-- The channel with `nextSerial` blocks encoded: its pending blocks are all among `known`. -/
structure Accounted (c : RdpsndChannel) (nextSerial : Nat) (known : Block → Prop) : Prop where
  counter : c.blockNo.val = nextSerial % 256
  pending : ∀ blockNo, c.blockPending blockNo = true →
    ∃ block, LatestOf nextSerial blockNo block ∧ known block

variable {c : RdpsndChannel} {nextSerial : Nat} {known : Block → Prop}

theorem Accounted.mono
    (h : Accounted c nextSerial known)
    {known' : Block → Prop}
    (himp : ∀ block, known block → known' block) : Accounted c nextSerial known' where
  counter := h.counter
  pending blockNo hpending := by
    obtain ⟨block, hlatest, hknown⟩ := h.pending blockNo hpending
    exact ⟨block, hlatest, himp block hknown⟩

theorem Accounted.noteSend (h : Accounted c nextSerial known) (now timestampMs pcmBytes : Nat) :
    Accounted { c.noteSend now c.blockNo timestampMs pcmBytes with blockNo := c.blockNo + 1 }
      (nextSerial + 1) fun block => known block ∨ block = ⟨nextSerial, c.blockNo⟩ where
  counter := by
    have hcounter := h.counter
    rw [Fin.val_add, hcounter]
    simp
  pending blockNo hpending := by
    by_cases hnew : blockNo = c.blockNo
    · subst hnew
      exact ⟨⟨nextSerial, c.blockNo⟩, ⟨rfl, h.counter.symm, Nat.lt_succ_self _, by simp⟩, .inr rfl⟩
    · have hold : c.blockPending blockNo = true := by
        have : update c.blockPending c.blockNo true blockNo = true := hpending
        rwa [update_of_ne hnew] at this
      obtain ⟨block, ⟨hblock, hmod, hbelow, hlatest⟩, hknown⟩ := h.pending blockNo hold
      have hne : nextSerial ≠ block.serial + 256 := by
        intro heq
        apply hnew
        apply Fin.ext
        rw [← hmod, h.counter, heq]
        omega
      exact ⟨block, ⟨hblock, hmod, by omega, by omega⟩, .inl hknown⟩

variable {frames : Fin 256 → Bytes → List Bytes}

theorem Accounted.encodeBlocks {prepare : Bytes → Bytes}
    {timestampMs : Nat} {clock : Nat → Nat} (chunks : List Bytes) (i : Nat)
    (h : Accounted c nextSerial known) :
    let encoded := encodeBlocks prepare frames timestampMs clock i chunks c
    Accounted encoded.2 (nextSerial + encoded.1.length)
      fun block => known block ∨ block ∈ waveBlocks nextSerial encoded.1 := by
  induction chunks generalizing i c nextSerial known with
  | nil => exact h.mono fun _ => .inl
  | cons chunk rest ih =>
    unfold encodeBlocks
    split
    · exact h.mono fun _ => .inl
    · have hlater := ih (i + 1) (h.noteSend (clock (3 + 2 * i)) timestampMs (prepare chunk).length)
      dsimp only at hlater
      rw [Nat.add_right_comm, Nat.add_assoc] at hlater
      refine hlater.mono fun block hknown => ?_
      simpa only [waveBlocks, mem_cons, or_assoc] using hknown

theorem frames_ne_nil_of_encodeBlocks {prepare : Bytes → Bytes}
    (hframes : ∀ blockNo chunk, frames blockNo chunk ≠ [])
    {timestampMs : Nat} {clock : Nat → Nat} (chunks : List Bytes) (i : Nat) (c : RdpsndChannel) :
    ∀ block ∈ (encodeBlocks prepare frames timestampMs clock i chunks c).1, block.2 ≠ [] := by
  induction chunks generalizing i c with
  | nil => exact fun _ h => absurd h not_mem_nil
  | cons chunk rest ih =>
    unfold encodeBlocks
    split
    · exact fun _ h => absurd h not_mem_nil
    · intro block hblock
      rcases mem_cons.mp hblock with rfl | hblock
      · exact hframes _ _
      · exact ih _ _ block hblock

theorem Accounted.encodeWave (h : Accounted c nextSerial known) (clock : Nat → Nat) (pcm : Bytes) :
    Accounted (c.encodeWave clock pcm).2 (nextSerial + (c.encodeWave clock pcm).1.length)
      (fun block => known block ∨ block ∈ waveBlocks nextSerial (c.encodeWave clock pcm).1) ∧
    ∀ block ∈ (c.encodeWave clock pcm).1, block.2 ≠ [] := by
  have hnothing : Accounted c (nextSerial + ([] : List (Fin 256 × List Bytes)).length)
      (fun block => known block ∨ block ∈ waveBlocks nextSerial []) ∧
      ∀ block ∈ ([] : List (Fin 256 × List Bytes)), block.2 ≠ [] :=
    ⟨h.mono fun _ => .inl, fun block hblock => by cases hblock⟩
  unfold RdpsndChannel.encodeWave
  split
  · exact hnothing
  · split
    · exact hnothing
    · split
      · exact hnothing
      · split
        · refine ⟨h.encodeBlocks _ 0, frames_ne_nil_of_encodeBlocks ?_ _ 0 c⟩
          exact fun _ _ => wrapIndication_ne_nil _ _ _
        · refine ⟨h.encodeBlocks _ 0, frames_ne_nil_of_encodeBlocks ?_ _ 0 c⟩
          intro blockNo chunk hnone
          exact wrapIndication_ne_nil _ _ _ (append_eq_nil_iff.mp hnone).1

def blocks (t : Connection Payload) : List Block := completedTaken t.taken ++ inSlot t

structure Inv (s : AudioSide) : Prop where
  below : ∀ block ∈ blocks s.connection, block.serial < s.nextSerial
  confirmedBelow : ∀ block ∈ s.confirmed, block.serial < s.nextSerial
  queues : ∀ channel priority, ∀ payload ∈ s.connection.stream channel priority,
    payload.completes = none
  accounted : Accounted s.channel s.nextSerial
    fun block => block ∈ blocks s.connection ∧ block ∉ s.confirmed

theorem outstanding_of_mem_blocks
    (hmem : block ∈ blocks s.connection)
    (hopen : block ∉ s.confirmed) : Outstanding s block := by
  rw [blocks, completedTaken, taken, filterMap_append] at hmem
  rcases mem_append.mp hmem with hmem | hmem
  · rcases mem_append.mp hmem with hmem | hmem
    · exact .inr (.inr ⟨hmem, hopen⟩)
    · exact .inr (.inl hmem)
  · exact .inl hmem

theorem windowSound_of_inv (h : Inv s) : WindowSound s := by
  apply windowSound_of_pendingOutstanding
  intro blockNo hpending
  obtain ⟨block, hlatest, hmem, hopen⟩ := h.accounted.pending blockNo hpending
  exact ⟨block, hlatest, outstanding_of_mem_blocks hmem hopen⟩

variable {t : Connection Payload}

theorem blocks_of_outcome {t' : Connection Payload} (houtcome : t.WriterOutcome t')
    (hqueues : ∀ channel priority,
      ∀ payload ∈ t.stream channel priority, payload.completes = none) :
    blocks t' = blocks t := by
  cases houtcome with
  | moves phase liveNotify hfrom hto => simp [blocks, inSlot, completedTaken, taken, hfrom, hto]
  | takesLive frames hfrom hlive =>
    simp [blocks, inSlot, completedTaken, taken, hfrom, hlive, completed, filterMap_map]
  | receivesLatency channel bytes rest phase hfrom hto hinbox =>
    simp [blocks, inSlot, completedTaken, taken, hfrom, hto]
  | receivesBulk channel bytes rest phase hfrom hto hinbox =>
    simp [blocks, inSlot, completedTaken, taken, hfrom, hto]
  | pops frame scheduler hfrom hpop =>
    have hon : frame.On frame.channel frame.priority = true := by simp [Frame.On]
    have hmem : frame.bytes ∈ t.stream frame.channel frame.priority := by
      rw [stream, Scheduler.pendingOf_popNext hpop, if_pos hon]
      simp
    have hnone := hqueues _ _ _ hmem
    simp [blocks, inSlot, completedTaken, taken, hfrom, hnone]
  | writes origin frame phase hfrom => simp [blocks, inSlot, completedTaken, taken, hfrom]

theorem Inv.of_connection (h : Inv s) (hblocks : blocks t = blocks s.connection)
    (hqueues : ∀ channel priority, ∀ payload ∈ t.stream channel priority, payload.completes = none) :
    Inv { s with connection := t } where
  below := by
    rw [hblocks]
    exact h.below
  confirmedBelow := h.confirmedBelow
  queues := hqueues
  accounted := by
    rw [hblocks]
    exact h.accounted

theorem Inv.of_writerMove (h : Inv s) (houtcome : s.connection.WriterOutcome t) :
    Inv { s with connection := t } := by
  refine h.of_connection (blocks_of_outcome houtcome h.queues) fun channel priority => ?_
  rw [stream_of_outcome houtcome]
  exact h.queues channel priority

theorem Inv.of_otherSend (h : Inv s) (frame : Frame Bytes) :
    Inv { s with connection := (s.connection.send (otherFrame frame)).2 } := by
  unfold send
  split
  · refine h.of_connection ?_ fun channel priority payload hpayload => ?_
    · unfold accept
      cases (otherFrame frame).priority <;> rfl
    · rw [stream_accept] at hpayload
      rcases mem_append.mp hpayload with hpayload | hpayload
      · exact h.queues channel priority payload hpayload
      · split at hpayload
        · rw [mem_singleton.mp hpayload]
          rfl
        · cases hpayload
  · exact h

theorem Inv.of_channel
    (h : Inv s)
    (hcounter : c.blockNo = s.channel.blockNo)
    (hpending : c.blockPending = s.channel.blockPending) : Inv { s with channel := c } where
  below := h.below
  confirmedBelow := h.confirmedBelow
  queues := h.queues
  accounted := by
    refine ⟨?_, ?_⟩
    · rw [hcounter]
      exact h.accounted.counter
    · rw [hpending]
      exact h.accounted.pending

theorem onWaveConfirm_pending (c : RdpsndChannel) (clock : Nat → Nat) (blockNo : Fin 256)
    (timestamp : Nat) :
    (c.onWaveConfirm clock blockNo timestamp).blockNo = c.blockNo ∧
    (c.onWaveConfirm clock blockNo timestamp).blockPending =
      update c.blockPending blockNo false := by
  refine ⟨?_, c.blockPending_onWaveConfirm clock blockNo timestamp⟩
  have hturn := c.confirmTurn_onWaveConfirm clock blockNo timestamp
  generalize c.onWaveConfirm clock blockNo timestamp = c' at hturn
  cases hturn <;> rfl

theorem Inv.of_waveConfirm
    (h : Inv s)
    (clock : Nat → Nat)
    (hreceived : block ∈ s.received)
    (timestamp : Nat) :
    Inv
      { s with
        channel := s.channel.onWaveConfirm clock block.blockNo timestamp
        confirmed := block :: s.confirmed } := by
  obtain ⟨hcounter, hupdate⟩ := onWaveConfirm_pending s.channel clock block.blockNo timestamp
  have hmem : block ∈ blocks s.connection := by
    rw [blocks, completedTaken, taken, filterMap_append]
    exact mem_append_left _ (mem_append_left _ hreceived)
  refine ⟨h.below, ?_, h.queues, ⟨?_, ?_⟩⟩
  · intro other hother
    rcases mem_cons.mp hother with rfl | hother
    · exact h.below _ hmem
    · exact h.confirmedBelow other hother
  · rw [hcounter]
    exact h.accounted.counter
  · intro blockNo hpending
    rw [hupdate] at hpending
    by_cases heq : blockNo = block.blockNo
    · rw [heq, update_self] at hpending
      cases hpending
    · rw [update_of_ne heq] at hpending
      obtain ⟨other, hlatest, hother, hopen⟩ := h.accounted.pending blockNo hpending
      refine ⟨other, hlatest, hother, fun hconfirmed => ?_⟩
      rcases mem_cons.mp hconfirmed with rfl | hconfirmed
      · exact heq hlatest.1.symm
      · exact hopen hconfirmed

theorem Inv.of_wave
    (h : Inv s)
    (clock : Nat → Nat) (pcm : Bytes)
    (hfree : (s.channel.encodeWave clock pcm).1 ≠ [] → s.connection.live = none) :
    Inv (s.sendWaveFrames clock pcm) := by
  obtain ⟨haccounted, hframes⟩ := h.accounted.encodeWave clock pcm
  unfold sendWaveFrames
  generalize s.channel.encodeWave clock pcm = encoded at haccounted hframes hfree
  obtain ⟨out, c⟩ := encoded
  dsimp only at haccounted hframes hfree ⊢
  split
  · next hnothing =>
    subst hnothing
    refine ⟨h.below, h.confirmedBelow, h.queues, haccounted.mono fun block hknown => ?_⟩
    exact hknown.resolve_right not_mem_nil
  · next hsome =>
    have hblocks : blocks
        (s.connection.sendLive (waveFrames (.static s.channel.channelId) s.nextSerial out)) =
        blocks s.connection ++ waveBlocks s.nextSerial out := by
      have hslot : inSlot s.connection = [] := by simp only [inSlot, hfree hsome]
      rw [blocks, blocks, hslot, append_nil, ← completed_waveFrames _ _ hframes]
      rfl
    refine ⟨?_, ?_, ?_, haccounted.mono fun block hknown => ?_⟩
    · intro block hblock
      rw [hblocks] at hblock
      rcases mem_append.mp hblock with hblock | hblock
      · exact Nat.lt_add_right _ (h.below block hblock)
      · exact (serial_of_mem_waveBlocks hblock).2
    · exact fun block hblock => Nat.lt_add_right _ (h.confirmedBelow block hblock)
    · intro channel priority
      rw [stream_sendLive]
      exact h.queues channel priority
    · rw [hblocks]
      rcases hknown with hknown | hnew
      · exact ⟨mem_append_left _ hknown.1, hknown.2⟩
      · refine ⟨mem_append_right _ hnew, fun hconfirmed => ?_⟩
        have := h.confirmedBelow block hconfirmed
        have := (serial_of_mem_waveBlocks hnew).1
        omega

/-- A wave that has something to send finds the live slot empty. -/
def EmptySlot (s : AudioSide) : AudioSide.Action → Prop
  | .wave clock pcm => (s.channel.encodeWave clock pcm).1 ≠ [] → s.connection.live = none
  | _ => True

theorem inv_step {s' : AudioSide} {action : AudioSide.Action}
    (h : Inv s)
    (hfree : EmptySlot s action)
    (hstep : s.step action = some s') : Inv s' := by
  cases action with
  | wave clock pcm =>
    cases hstep
    exact h.of_wave clock pcm hfree
  | waveConfirm clock block timestamp =>
    obtain ⟨hreceived, ⟨⟩⟩ := Option.ite_none_right_eq_some.mp hstep
    exact h.of_waveConfirm clock hreceived timestamp
  | otherSend frame =>
    cases hstep
    exact h.of_otherSend frame
  | writer move =>
    simp only [step, Option.map_eq_some_iff] at hstep
    obtain ⟨connection, hmove, rfl⟩ := hstep
    exact h.of_writerMove (writerStep_outcome hmove)
  | _ =>
    -- a message of the negotiation
    cases hstep
    unfold onClientMessage
    dsimp only
    split <;> exact h.of_channel rfl rfl

theorem inv_start (channelId userChannelId : Nat) : Inv (start channelId userChannelId) where
  below := fun block hblock => by cases hblock
  confirmedBelow := fun block hblock => by cases hblock
  queues := fun channel priority payload hpayload => by
    cases priority <;> cases hpayload
  accounted := ⟨rfl, fun blockNo hpending => by cases hpending⟩

/-- In every run in which waves are put into an empty live slot, every pending block can still
be confirmed, and once everything is written and confirmed audio can be sent again. -/
theorem windowSound_always_of_emptySlot (channelId userChannelId : Nat)
    (schedule : List AudioSide.Action)
    (h : Careful AudioSide.step EmptySlot (AudioSide.start channelId userChannelId) schedule) :
    Always AudioSide.step WindowSound (AudioSide.start channelId userChannelId) schedule :=
  always_of_careful Inv (fun _ => windowSound_of_inv) (fun _ _ _ => inv_step) schedule
    (inv_start channelId userChannelId) h

instance (s : AudioSide) : DecidablePred (EmptySlot s)
  | .wave _ _ => inferInstanceAs (Decidable (_ → _))
  | .audioFormats _ _ | .qualityMode | .trainingConfirm | .waveConfirm _ _ _ | .otherSend _
  | .writer _ => isTrue trivial

instance (s : AudioSide) : Decidable (Settled s) := inferInstanceAs (Decidable (_ ∧ _ ∧ _))

def greeting : List AudioSide.Action :=
  [.audioFormats 8 (some ⟨176400, 0⟩), .qualityMode, .trainingConfirm]

def writeSlot : List AudioSide.Action := [.writer .next, .writer .next, .writer .next]

def pacedSchedule : List AudioSide.Action :=
  greeting ++ [.wave (fun _ => 0) [1, 2, 3, 4]] ++ writeSlot ++ [.wave (fun _ => 20) [5, 6, 7, 8]] ++
    writeSlot ++ [.waveConfirm (fun _ => 30) ⟨1, 1⟩ 20, .waveConfirm (fun _ => 31) ⟨0, 0⟩ 0]

theorem windowSound_paced_waves :
    (exec AudioSide.step (AudioSide.start 1004 1003) pacedSchedule).isSome = true ∧
    Always AudioSide.step WindowSound (AudioSide.start 1004 1003) pacedSchedule :=
  ⟨by decide +kernel, windowSound_always_of_emptySlot 1004 1003 pacedSchedule (by decide +kernel)⟩

def overtakingSchedule : List AudioSide.Action :=
  greeting ++ [.wave (fun _ => 0) [1, 2, 3, 4], .wave (fun _ => 20) [5, 6, 7, 8]] ++ writeSlot ++
    [.waveConfirm (fun _ => 30) ⟨1, 1⟩ 20]

/-- Everything is written and confirmed, and the block of the replaced wave is pending. -/
theorem replaced_wave_stays_pending :
    ∃ t,
      exec AudioSide.step (AudioSide.start 1004 1003) overtakingSchedule = some t ∧
      Settled t ∧
      t.channel.blockPending 0 = true ∧
      ¬ WindowSound t := by
  have hrun : (exec step (start 1004 1003) overtakingSchedule).any
      (fun t => decide (Settled t) && t.channel.blockPending 0) = true := by
    decide +kernel
  obtain ⟨t, hexec, ht⟩ := Option.any_eq_true _ _ |>.mp hrun
  rw [Bool.and_eq_true, decide_eq_true_eq] at ht
  obtain ⟨hsettled, hpending⟩ := ht
  refine ⟨t, hexec, hsettled, hpending, fun hsound => ?_⟩
  have hfree := (hsound.2 hsettled).1 0
  rw [hpending] at hfree
  cases hfree

end Kmsrdp.Guarantees.AudioWindow
