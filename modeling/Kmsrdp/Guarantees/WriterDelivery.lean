import Kmsrdp.Guarantees.WriterEnd
import Kmsrdp.Guarantees.WriterHistory

/-!
# What the writer task promises its senders

For every interleaving: frames accepted for one channel and priority are written once, whole and in
order; a live wave is written in one piece; at most one queued bulk frame is taken up between the
acceptance of a latency frame and its turn; and the writer, left alone, writes all it has accepted
and stops only when all senders are gone.
-/
namespace Kmsrdp.Guarantees.WriterDelivery
open Library.ByteString Library.Execution Source.Transport List Connection Nat
open Source.Transport.Connection (queuedOn stream_accept stream_of_outcome stream_eq)
open Guarantees.WriterHistory Guarantees.WriterEnd

def bulkIn (sent : List (Origin × Frame Bytes)) : Nat :=
  sent.countP fun entry => entry.1 = .queued ∧ entry.2.priority = .bulk

def writtenOn (connection : Connection Bytes) (channel : ChannelKey) (priority : Priority) :
    List Bytes :=
  connection.socket.filterMap (queuedOn channel priority)

theorem bulkIn_live (frames : List (Frame Bytes)) :
    bulkIn (frames.map fun frame => (Origin.live, frame)) = 0 := by
  simp [bulkIn, countP_eq_zero]

/-- Of the run since a latency frame was accepted: `number` is its number on its channel, and
`bulk` the bulk frames taken up until then. -/
structure Overtaken (channel : ChannelKey) (number bulk : Nat) (connection : Connection Bytes) :
    Prop where
  known : number < (connection.stream channel .latency).length
  few : (writtenOn connection channel .latency).length ≤ number → bulkIn connection.taken ≤ bulk + 1
  none : (writtenOn connection channel .latency).length ≤ number →
    (connection.takenOn channel .latency).length +
      (connection.scheduler.pendingOf channel .latency).length ≤ number →
    connection.phase = .drainBulk ∨ connection.phase = .pop → bulkIn connection.taken ≤ bulk

variable {channel : ChannelKey} {number bulk : Nat} {connection connection' : Connection Bytes}
section
variable (h : Overtaken channel number bulk connection)
include h

theorem Overtaken.of_same
    (hstream :
      (connection.stream channel .latency).length ≤ (connection'.stream channel .latency).length)
    (hwritten : (writtenOn connection channel .latency).length ≤
        (writtenOn connection' channel .latency).length)
    (htaken : bulkIn connection'.taken = bulkIn connection.taken)
    (hphase : connection'.phase ≠ .drainBulk ∧ connection'.phase ≠ .pop) :
    Overtaken channel number bulk connection' where
  known := lt_of_lt_of_le h.known hstream
  few hnot := by
    rw [htaken]
    exact h.few (le_trans hwritten hnot)
  none _ _ hplace := by
    rcases hplace with hdrain | hpop
    · exact absurd hdrain hphase.1
    · exact absurd hpop hphase.2

theorem Overtaken.of_drain
    (hphase : connection.phase = .drainBulk)
    (hstream : connection'.stream channel .latency = connection.stream channel .latency)
    (hsocket : connection'.socket = connection.socket)
    (hholding : connection'.phase.holding = [])
    (hpending : connection'.scheduler.pendingOf channel .latency =
        connection.scheduler.pendingOf channel .latency) :
    Overtaken channel number bulk connection' := by
  have htaken : connection'.taken = connection.taken := by
    unfold taken
    rw [hsocket, hholding, hphase]
    rfl
  refine ⟨by rw [hstream]; exact h.known, fun hnot => ?_, fun hnot hinbox _ => ?_⟩
  · rw [htaken]
    exact h.few (by unfold writtenOn at hnot ⊢; rw [← hsocket]; exact hnot)
  · rw [htaken]
    refine h.none (by unfold writtenOn at hnot ⊢; rw [← hsocket]; exact hnot) ?_ (.inl hphase)
    unfold takenOn at hinbox ⊢
    rw [← htaken, ← hpending]
    exact hinbox

theorem Overtaken.latencyDrained
    (hphase : connection.phase = .drainLatency)
    (hinbox : connection.latency = []) :
    Overtaken channel number bulk { connection with phase := .drainBulk } := by
  have htaken : ({ connection with phase := .drainBulk } : Connection Bytes).taken =
      connection.taken := by
    unfold taken
    rw [hphase]
    rfl
  have hlength := h.known
  unfold stream at hlength
  simp only [inbox, hinbox, filterMap_nil, append_nil, length_append] at hlength
  have hstream : ({ connection with phase := .drainBulk } : Connection Bytes).stream channel .latency =
      connection.stream channel .latency := by
    unfold stream takenOn
    rw [htaken]
    rfl
  refine ⟨by rw [hstream]; exact h.known, fun hnot => ?_, fun _ hleft _ => ?_⟩
  · rw [htaken]
    exact h.few hnot
  · unfold takenOn at hleft hlength
    rw [htaken] at hleft
    exact absurd hleft (not_le.mpr hlength)

end
variable {frame : Frame Bytes}

theorem Overtaken.pops
    (h : Overtaken channel number bulk connection)
    (hphase : connection.phase = .pop)
    {scheduler : Scheduler Bytes}
    (hpop : connection.scheduler.popNext = some (frame, scheduler)) :
    Overtaken channel number bulk
      { connection with scheduler := scheduler, phase := .writing frame } := by
  have hheld : connection.phase.holding = [] := by
    rw [hphase]
    rfl
  have htaken : connection.taken = connection.socket := by
    unfold taken
    rw [hheld, append_nil]
  have hstream := stream_of_outcome (.pops frame scheduler hheld hpop) channel .latency
  refine ⟨by rw [hstream]; exact h.known, fun hnot => ?_, fun _ _ hplace => ?_⟩
  · have hafter : ({ connection with scheduler := scheduler, phase := .writing frame } : Connection
        Bytes).taken =
        connection.socket ++ [(.queued, frame)] := rfl
    have hfew := h.few hnot
    rw [hafter, bulkIn, countP_append]
    rw [htaken] at hfew
    by_cases hbulk : frame.priority = .bulk
    · -- a bulk frame is popped only when no latency frame is in the scheduler
      have hpending := Scheduler.pendingOf_latency_of_popNext_bulk hpop hbulk channel
      have hleft : (connection.takenOn channel .latency).length +
          (connection.scheduler.pendingOf channel .latency).length ≤ number := by
        unfold takenOn
        rw [htaken, hpending]
        exact hnot
      have hnone := h.none hnot hleft (.inr hphase)
      rw [htaken] at hnone
      have hone : [((Origin.queued : Origin), frame)].countP
          (fun entry => decide (entry.1 = .queued ∧ entry.2.priority = .bulk)) = 1 := by
        simp [hbulk]
      rw [hone]
      exact succ_le_succ hnone
    · have hzero : [((Origin.queued : Origin), frame)].countP
          (fun entry => decide (entry.1 = .queued ∧ entry.2.priority = .bulk)) = 0 := by
        simp [hbulk]
      rw [hzero]
      exact hfew
  · rcases hplace with hdrain | hpop'
    · cases hdrain
    · cases hpop'

theorem writtenOn_append (connection : Connection Bytes) (phase : WriterPhase Bytes)
    (sent : Origin × Frame Bytes) :
    (writtenOn connection channel .latency).length ≤
      (writtenOn { connection with socket := connection.socket ++ [sent], phase := phase } channel
         .latency).length := by
  unfold writtenOn
  rw [filterMap_append, length_append]
  exact le_add_right _ _

theorem Overtaken.move
    (h : Overtaken channel number bulk connection)
    {move : Connection.WriterMove}
    (hmove : connection.writerStep move = some connection') :
    Overtaken channel number bulk connection' := by
  have hstream := stream_of_outcome (writerStep_outcome hmove) channel .latency
  have hlength := le_of_eq (congrArg length hstream.symm)
  cases edge_of_writerStep hmove with
  | latencyDrained hphase hinbox => exact h.latencyDrained hphase hinbox
  | bulkDrained hphase hinbox => exact h.of_drain hphase hstream rfl rfl rfl
  | pops frame scheduler hphase hpop => exact h.pops hphase hpop
  | skipsLive hphase hlive | endsWave hphase | parks hphase hpop | wakes hphase hnotify =>
    refine h.of_same hlength (le_refl _) ?_ ⟨by simp, by simp⟩
    unfold taken
    rw [hphase]
    rfl
  | takesLive frames hphase hlive =>
    refine h.of_same hlength (le_refl _) ?_ ⟨by simp, by simp⟩
    unfold taken
    rw [hphase, bulkIn, countP_append]
    exact Nat.add_eq_left.mpr (bulkIn_live frames) |>.trans (congrArg bulkIn (append_nil _).symm)
  | writesLive frame rest hphase =>
    refine h.of_same hlength (writtenOn_append connection _ _) ?_ ⟨by simp, by simp⟩
    unfold taken
    rw [hphase, append_assoc]
    rfl
  | writes frame hphase =>
    refine h.of_same hlength (writtenOn_append connection _ _) ?_ ⟨by simp, by simp⟩
    unfold taken
    rw [hphase, append_assoc]
    rfl
  | receives priority first bytes rest phase hinbox hfrom =>
    have hsocket : (connection.setInbox priority rest).socket = connection.socket := by
      cases priority <;> rfl
    rcases hfrom with ⟨hdrain, rfl⟩ | ⟨hwaiting, rfl⟩
    · cases priority with
      | latency =>
        have hphase : connection.phase = .drainLatency := hdrain
        exact h.of_same hlength (le_refl _) rfl ⟨by rw [hphase]; simp, by rw [hphase]; simp⟩
      | bulk =>
        have hphase : connection.phase = .drainBulk := hdrain
        refine h.of_drain hphase hstream rfl (by rw [hphase]; rfl) ?_
        rw [Scheduler.pendingOf_enqueue]
        simp [Frame.On]
    · refine h.of_same hlength (le_of_eq (by unfold writtenOn; rw [hsocket])) ?_ ⟨by simp, by simp⟩
      unfold taken
      rw [hsocket, hwaiting]
      rfl

theorem Overtaken.atTop
    (h : Overtaken channel number bulk connection)
    (hphase : connection.phase = .waiting) :
    Overtaken channel number bulk { connection with phase := .top } := by
  have hheld : connection.phase.holding = [] := by
    rw [hphase]
    rfl
  have hstream := stream_of_outcome (.moves .top connection.liveNotify hheld rfl) channel .latency
  refine h.of_same (le_of_eq (congrArg length hstream.symm)) (le_refl _) ?_ ⟨by simp, by simp⟩
  unfold taken
  rw [hheld]
  rfl

variable {t t' : Task}

theorem Overtaken.step (a : Task.Action)
    (h : Overtaken channel number bulk t.connection)
    (hstep : t.step a = some t') : Overtaken channel number bulk t'.connection := by
  rcases Task.effect_step hstep with hsender | hwriter
  · cases hsender with
    | same | handles | notifies => exact ⟨h.known, h.few, h.none⟩
    | stores frames hsender => exact ⟨h.known, h.few, h.none⟩
    | accepts frame haction hsender hspace =>
      have hstream := stream_accept t.connection frame channel .latency
      obtain ⟨latency, bulk, haccept⟩ := accept_eq t.connection frame
      have hconnection :
          (t.accepting frame).connection =
            { t.connection with latency := latency, bulk := bulk } := haccept
      have hknown : number < ((t.accepting frame).connection.stream channel .latency).length := by
        refine lt_of_lt_of_le h.known ?_
        show _ ≤ ((t.connection.accept frame).stream channel .latency).length
        rw [hstream, length_append]
        exact le_add_right _ _
      rw [hconnection] at hknown ⊢
      exact ⟨hknown, h.few, h.none⟩
  · cases hwriter with
    | writes frame count hcurrent hcount hle => exact h
    | moves move connection hrunning hflushed hmove => exact h.move hmove
    | closesLive hphase hopen hsenders hnotify => exact h.atTop hphase
    | closes priority hphase hopen hsenders hinbox => cases priority <;> exact h.atTop hphase
    | stops hphase hrunning hlatency hbulk hlive => exact h

/-- A call of `send` or `send_all` that hands the frame over. -/
def Accepts (t : Task) (frame : Frame Bytes) (t' : Task) : Prop :=
  (t.step (.send frame) = some t' ∨ t.step (.sendAll frame) = some t') ∧
    t'.accepted = t.accepted ++ [frame]

/-- As long as a latency frame accepted now is not written, at most one bulk frame from the queues
is, apart from one being written now. -/
def Prompt (t : Task) : Prop :=
  ∀ frame accepting, Accepts t frame accepting → frame.priority = .latency →
    ∀ run later, exec Task.step accepting run = some later →
      (writtenOn later.connection frame.channel .latency).length ≤
        (acceptedOn t frame.channel .latency).length →
      bulkIn later.connection.socket ≤
        bulkIn accepting.connection.socket + bulkIn accepting.connection.phase.holding + 1

/-- Left alone, the writer comes to rest, and has then written every frame accepted. If no handle
is left it has stopped. -/
def Finishes (t : Task) : Prop :=
  ∃ bound, ∀ moves later, (∀ a ∈ moves, Task.Action.OfWriter a) → exec Task.step t moves = some later →
    moves.length ≤ bound ∧ (AtRest later → Drained later ∧ (later.senders = 0 → later.stopped = true))

structure Sound (t : Task) : Prop where
  ordered : ∀ channel priority,
    writtenOn t.connection channel priority ++ t.connection.waitingOn channel priority =
      acceptedOn t channel priority
  whole : t.wire = t.connection.socket.flatMap (fun sent => sent.2.bytes) ++ partWritten t
  contiguous : ∃ blocks, InBlocks t blocks ∧ (blocks.filterMap Block.wave?).Sublist t.waves
  prompt : Prompt t
  finishes : Finishes t
  stops : t.stopped = true → t.senders = 0 ∧ Drained t ∧ t.connection.live = none

theorem accepting_of_step {a : Task.Action}
    (hstep : t.step a = some t')
    (haccepted : t'.accepted = t.accepted ++ [frame]) : t' = t.accepting frame := by
  have hgrows : t'.accepted ≠ t.accepted := by
    rw [haccepted]
    intro hsame
    have hlength := congrArg length hsame
    simp at hlength
  have hlast : ∀ other : Frame Bytes, t.accepted ++ [other] = t.accepted ++ [frame] →
      other = frame := fun other hsame =>
    (cons.inj (append_cancel_left hsame)).1
  rcases Task.effect_step hstep with hsender | hwriter
  · cases hsender with
    | accepts other haction hsender hspace => rw [hlast other haccepted]
    | same | handles | stores | notifies => exact absurd rfl hgrows
  · cases hwriter with
    | writes | moves | closesLive | stops => exact absurd rfl hgrows
    | closes priority => cases priority <;> exact absurd rfl hgrows

theorem accepting_of_accepts (h : Accepts t frame t') : t' = t.accepting frame := by
  rcases h.1 with hsend | hsendAll
  · exact accepting_of_step hsend h.2
  · exact accepting_of_step hsendAll h.2

theorem prompt_of_history (h : History t) : Prompt t := by
  intro frame accepting haccepts hlatency run later hexec hnot
  rw [accepting_of_accepts haccepts] at hexec ⊢
  have hstream := stream_accept t.connection frame frame.channel .latency
  have hon : frame.On frame.channel .latency = true := by simp [Frame.On, hlatency]
  rw [if_pos hon] at hstream
  have hbegin : Overtaken frame.channel (acceptedOn t frame.channel .latency).length
      (bulkIn (t.accepting frame).connection.taken) (t.accepting frame).connection := by
    refine ⟨?_, fun _ => le_succ _, fun _ _ _ => le_refl _⟩
    show _ < ((t.connection.accept frame).stream frame.channel .latency).length
    rw [hstream, h.ordered, length_append]
    exact lt_succ_self _
  have hlater : Overtaken frame.channel _ _ later.connection :=
    exec_invariant (fun s : Task => Overtaken frame.channel _ _ s.connection)
      (fun _ a _ hs hstep => hs.step a hstep) run
      hbegin hexec
  have hfew := hlater.few hnot
  unfold taken bulkIn at hfew
  rw [countP_append, countP_append] at hfew
  exact le_trans (le_add_right _ _) hfew

theorem finishes_of_closing (h : Closing t) : Finishes t := by
  refine ⟨effort t, fun moves later hmoves hexec => ⟨?_, fun hrest => ?_⟩⟩
  · exact le_trans (le_add_right _ _) (length_le_effort moves hmoves hexec)
  · have hlater : Closing later :=
      exec_invariant Closing (fun _ a _ hs hstep => closing_step hs a hstep) moves h hexec
    exact hlater.of_atRest hrest

theorem sound_of_history (hhistory : History t) (hclosing : Closing t) : Sound t where
  ordered channel priority := (stream_eq t.connection channel priority).symm.trans
    (hhistory.ordered channel priority)
  whole := hhistory.whole
  contiguous := by
    obtain ⟨blocks, hblocks, hwaves⟩ := hhistory.contiguous
    exact ⟨blocks, hblocks, (sublist_append_left _ _).trans hwaves⟩
  prompt := prompt_of_history hhistory
  finishes := finishes_of_closing hclosing
  stops := hclosing.drained_of_stopped

/-- In every state of every interleaving the writer task keeps its promise. -/
theorem sound_always (schedule : List Task.Action) : Always Task.step Sound .start schedule :=
  always_of_invariant (fun s => History s ∧ Closing s) (fun _ h => sound_of_history h.1 h.2)
    (fun _ a _ h hstep => ⟨history_step h.1 a hstep, closing_step h.2 a hstep⟩) schedule
      ⟨history_start, closing_start⟩

def audio : Frame Bytes := ⟨.static 1004, .latency, [1]⟩

def picture : Frame Bytes := ⟨.io, .bulk, [2]⟩

def waveRun : List Task.Action :=
  [.storeLive [picture, picture], .notifyLive, .writer .next, .write 1, .writer .next, .write 1,
    .writer .next]

theorem bulk_wave_overtakes :
    ∃ accepting later,
      Accepts .start audio accepting ∧
      exec Task.step accepting waveRun = some later ∧
      accepting.connection.phase.holding = [] ∧
      accepting.connection.socket = [] ∧
      (writtenOn later.connection audio.channel .latency).length ≤
        (acceptedOn .start audio.channel .latency).length ∧
      later.connection.socket.map Prod.snd = [picture, picture] :=
  ⟨Task.start.accepting audio, _, ⟨.inl rfl, rfl⟩, rfl, rfl, rfl, le_refl 0, rfl⟩

end Kmsrdp.Guarantees.WriterDelivery
