import Kmsrdp.Source.Transport.Task

/-!
# What the writer has written

The frames of one channel and priority that are written, followed by those that wait, are the frames
accepted, in order.
-/
namespace Kmsrdp.Guarantees.WriterHistory
open Library.ByteString Source.Transport List
open Source.Transport.Connection (stream_accept stream_of_outcome)

def acceptedOn (t : Task) (channel : ChannelKey) (priority : Priority) : List Bytes :=
  t.accepted.filterMap fun frame => if frame.On channel priority then some frame.bytes else none

def partWritten (t : Task) : Bytes :=
  match t.connection.phase.current with
  | none => []
  | some frame => frame.bytes.take t.progress

inductive Block where
  | queued (frame : Frame Bytes)
  | wave (frames : List (Frame Bytes))

def Block.sent : Block → List (Origin × Frame Bytes)
  | .queued frame => [(.queued, frame)]
  | .wave frames => frames.map fun frame => (.live, frame)

def Block.wave? : Block → Option (List (Frame Bytes))
  | .queued _ => none
  | .wave frames => some frames

def restOfWave (phase : WriterPhase Bytes) : List (Origin × Frame Bytes) :=
  phase.holding.filter fun held => held.1 = .live

/-- The frames written fall into blocks, once the wave now written is complete. -/
def InBlocks (t : Task) (blocks : List Block) : Prop :=
  t.connection.socket ++ restOfWave t.connection.phase = blocks.flatMap Block.sent

structure History (t : Task) : Prop where
  ordered : ∀ channel priority, t.connection.stream channel priority = acceptedOn t channel priority
  whole : t.wire = t.connection.socket.flatMap (fun sent => sent.2.bytes) ++ partWritten t
  contiguous : ∃ blocks, InBlocks t blocks ∧
    (blocks.filterMap Block.wave? ++ t.connection.live.toList).Sublist t.waves

theorem history_start : History .start where
  ordered _ priority := by cases priority <;> rfl
  whole := rfl
  contiguous := ⟨[], rfl, List.Sublist.refl _⟩

variable {t t' : Task}

theorem current_eq (phase : WriterPhase Bytes) :
    phase.current = phase.holding.head?.map Prod.snd := by
  cases phase with
  | writingLive rest => cases rest <;> rfl
  | top | drainLatency | drainBulk | pop | writing frame | waiting => rfl

theorem partWritten_of_holding_nil (h : t.connection.phase.holding = []) : partWritten t = [] := by
  unfold partWritten
  rw [current_eq, h]
  rfl

theorem partWritten_of_progress_zero (h : t.progress = 0) : partWritten t = [] := by
  unfold partWritten
  split
  · rfl
  · rw [h, take_zero]

variable {phase : WriterPhase Bytes} {frame : Frame Bytes}

theorem holding_tail_of_queued {rest : List (Origin × Frame Bytes)}
    (h : phase.holding = (.queued, frame) :: rest) : rest = [] := by
  unfold WriterPhase.holding at h
  split at h
  · next frames =>
    cases frames with
    | nil => cases h
    | cons first others => cases h
  · cases h
    rfl
  · cases h

theorem accept_eq (connection : Connection Bytes) (frame : Frame Bytes) :
    ∃ latency bulk,
      connection.accept frame = { connection with latency := latency, bulk := bulk } := by
  unfold Connection.accept
  split
  · exact ⟨_, _, rfl⟩
  · exact ⟨_, _, rfl⟩

theorem whole_of_same
    (h : t.wire = t.connection.socket.flatMap (fun sent => sent.2.bytes) ++ partWritten t)
    (hwire : t'.wire = t.wire)
    (hsocket : t'.connection.socket = t.connection.socket)
    (hphase : t'.connection.phase = t.connection.phase)
    (hprogress : t'.progress = t.progress) :
    t'.wire = t'.connection.socket.flatMap (fun sent => sent.2.bytes) ++ partWritten t' := by
  unfold partWritten at h ⊢
  rw [hwire, hsocket, hphase, hprogress]
  exact h

theorem inBlocks_of_same {blocks : List Block}
    (h : InBlocks t blocks)
    (hsocket : t'.connection.socket = t.connection.socket)
    (hphase : t'.connection.phase = t.connection.phase) : InBlocks t' blocks := by
  unfold InBlocks at h ⊢
  rw [hsocket, hphase]
  exact h

theorem History.accepting (h : History t) (frame : Frame Bytes) : History (t.accepting frame) := by
  obtain ⟨latency, bulk, haccept⟩ := accept_eq t.connection frame
  have hconnection : (t.accepting frame).connection =
      { t.connection with latency := latency, bulk := bulk } := haccept
  refine ⟨fun channel priority => ?_, ?_, ?_⟩
  · have hstream := stream_accept t.connection frame channel priority
    rw [h.ordered channel priority] at hstream
    refine hstream.trans ?_
    unfold acceptedOn Task.accepting
    rw [filterMap_append]
    by_cases hon : frame.On channel priority <;> simp [hon]
  · exact whole_of_same h.whole rfl (by rw [hconnection]) (by rw [hconnection]) rfl
  · obtain ⟨blocks, hblocks, hwaves⟩ := h.contiguous
    refine ⟨blocks, inBlocks_of_same hblocks (by rw [hconnection]) (by rw [hconnection]), ?_⟩
    rw [hconnection]
    exact hwaves

theorem History.stores (h : History t) (frames : List (Frame Bytes)) :
    History
      { t with
        connection := { t.connection with live := some frames }
        notifying := t.notifying + 1, waves := t.waves ++ [frames] } := by
  refine ⟨fun channel priority => ?_, whole_of_same h.whole rfl rfl rfl rfl, ?_⟩
  · refine Eq.trans ?_ (h.ordered channel priority)
    cases priority <;> rfl
  · -- a wave that was in the slot is dropped
    obtain ⟨blocks, hblocks, hwaves⟩ := h.contiguous
    refine ⟨blocks, inBlocks_of_same hblocks rfl rfl, ?_⟩
    exact ((sublist_append_left _ _).trans hwaves).append (List.Sublist.refl [frames])

theorem History.notifies (h : History t) :
    History
      { t with
        connection := { t.connection with liveNotify := true }
        notifying := t.notifying - 1 } := by
  refine ⟨fun channel priority => ?_, whole_of_same h.whole rfl rfl rfl rfl, ?_⟩
  · refine Eq.trans ?_ (h.ordered channel priority)
    cases priority <;> rfl
  · obtain ⟨blocks, hblocks, hwaves⟩ := h.contiguous
    exact ⟨blocks, inBlocks_of_same hblocks rfl rfl, hwaves⟩

theorem History.writes
    (h : History t)
    {count : Nat}
    (hcurrent : t.connection.phase.current = some frame) :
    History
      { t with
        progress := t.progress + count
        wire := t.wire ++ (frame.bytes.drop t.progress).take count } := by
  refine ⟨h.ordered, ?_, h.contiguous⟩
  have hbefore : partWritten t = frame.bytes.take t.progress := by
    unfold partWritten
    rw [hcurrent]
  have hafter : partWritten { t with
      progress := t.progress + count
      wire := t.wire ++ (frame.bytes.drop t.progress).take count } =
        frame.bytes.take (t.progress + count) := by
    unfold partWritten
    rw [hcurrent]
  rw [hafter, take_add]
  rw [h.whole, hbefore, append_assoc]

variable {connection : Connection Bytes}

theorem History.toPhase
    (h : History t)
    (houtcome : t.connection.WriterOutcome connection)
    (hfrom : t.connection.phase.holding = [])
    (hsocket : connection.socket = t.connection.socket)
    (hlive : connection.live = t.connection.live)
    (hto : restOfWave connection.phase = []) :
    History { t with connection := connection, progress := 0 } := by
  refine ⟨fun channel priority => ?_, ?_, ?_⟩
  · exact (stream_of_outcome houtcome channel priority).trans (h.ordered channel priority)
  · rw [partWritten_of_progress_zero rfl]
    rw [h.whole, hsocket, partWritten_of_holding_nil hfrom]
  · obtain ⟨blocks, hblocks, hwaves⟩ := h.contiguous
    refine ⟨blocks, ?_, ?_⟩
    · unfold InBlocks restOfWave at hblocks
      rw [hfrom] at hblocks
      show connection.socket ++ restOfWave connection.phase = _
      rw [hsocket, hto]
      exact hblocks
    · rw [hlive]
      exact hwaves

theorem restOfWave_of_holding_nil (h : phase.holding = []) : restOfWave phase = [] := by
  unfold restOfWave
  rw [h]
  rfl

section
variable (h : History t)
include h

theorem History.takesLive {frames : List (Frame Bytes)}
    (hfrom : t.connection.phase.holding = [])
    (hlive : t.connection.live = some frames) :
    History
      { t with
        connection := { t.connection with live := none, phase := .writingLive frames }
        progress := 0 } := by
  refine ⟨fun channel priority => ?_, ?_, ?_⟩
  · exact (stream_of_outcome (.takesLive frames hfrom hlive) channel priority).trans
      (h.ordered channel priority)
  · rw [partWritten_of_progress_zero rfl]
    rw [h.whole, partWritten_of_holding_nil hfrom]
  · obtain ⟨blocks, hblocks, hwaves⟩ := h.contiguous
    refine ⟨blocks ++ [.wave frames], ?_, ?_⟩
    · unfold InBlocks at hblocks ⊢
      rw [restOfWave_of_holding_nil hfrom, append_nil] at hblocks
      rw [flatMap_append, ← hblocks]
      simp [restOfWave, Block.sent]
    · rw [hlive] at hwaves
      simpa [Block.wave?] using hwaves

theorem History.completes
    (hflushed : t.Flushed)
    {origin : Origin}
    (hfrom : t.connection.phase.holding = (origin, frame) :: phase.holding) :
    History
      { t with
        connection :=
          { t.connection with socket := t.connection.socket ++ [(origin, frame)], phase := phase }
        progress := 0 } := by
  have hcurrent : t.connection.phase.current = some frame := by
    rw [current_eq, hfrom]
    rfl
  have hprogress : t.progress = frame.bytes.length := hflushed frame hcurrent
  refine ⟨fun channel priority => ?_, ?_, ?_⟩
  · exact (stream_of_outcome (.writes origin frame phase hfrom) channel priority).trans
      (h.ordered channel priority)
  · have hpart : partWritten t = frame.bytes := by
      unfold partWritten
      rw [hcurrent, hprogress]
      exact take_length
    rw [partWritten_of_progress_zero rfl]
    rw [h.whole, hpart, append_nil, flatMap_append, flatMap_singleton]
  · obtain ⟨blocks, hblocks, hwaves⟩ := h.contiguous
    unfold InBlocks restOfWave at hblocks
    rw [hfrom] at hblocks
    cases origin with
    | live =>
      refine ⟨blocks, ?_, hwaves⟩
      unfold InBlocks restOfWave
      rw [← hblocks, filter_cons_of_pos (by rfl), append_assoc, singleton_append]
    | queued =>
      have htail := holding_tail_of_queued hfrom
      rw [htail] at hblocks
      refine ⟨blocks ++ [.queued frame], ?_, ?_⟩
      · unfold InBlocks
        rw [restOfWave_of_holding_nil htail, flatMap_append, ← hblocks]
        simp [Block.sent]
      · have hnone : [Block.queued frame].filterMap Block.wave? = [] := rfl
        rw [filterMap_append, hnone, append_nil]
        exact hwaves

theorem History.moves (hflushed : t.Flushed) (houtcome : t.connection.WriterOutcome connection) :
    History { t with connection := connection, progress := 0 } := by
  cases houtcome with
  | moves phase liveNotify hfrom hto =>
    exact h.toPhase (.moves phase liveNotify hfrom hto) hfrom rfl rfl (restOfWave_of_holding_nil hto)
  | takesLive frames hfrom hlive => exact h.takesLive hfrom hlive
  | receivesLatency channel bytes rest phase hfrom hto hinbox =>
    exact h.toPhase (.receivesLatency channel bytes rest phase hfrom hto hinbox) hfrom rfl rfl
      (restOfWave_of_holding_nil hto)
  | receivesBulk channel bytes rest phase hfrom hto hinbox =>
    exact h.toPhase (.receivesBulk channel bytes rest phase hfrom hto hinbox) hfrom rfl rfl
      (restOfWave_of_holding_nil hto)
  | pops frame scheduler hfrom hpop =>
    exact h.toPhase (.pops frame scheduler hfrom hpop) hfrom rfl rfl rfl
  | writes origin frame phase hfrom => exact h.completes hflushed hfrom

theorem History.atTop (hphase : t.connection.phase = .waiting) : History t.atTop := by
  have hfrom : t.connection.phase.holding = [] := by
    rw [hphase]
    rfl
  have htop : History { t.atTop with progress := 0 } :=
    h.toPhase (.moves .top t.connection.liveNotify hfrom rfl) hfrom rfl rfl rfl
  exact ⟨htop.ordered, htop.whole, htop.contiguous⟩

theorem history_step (a : Task.Action) (hstep : t.step a = some t') : History t' := by
  rcases Task.effect_step hstep with hsender | hwriter
  · cases hsender with
    | same => exact h
    | handles senders hsender hlent => exact ⟨h.ordered, h.whole, h.contiguous⟩
    | accepts frame haction hsender hspace => exact h.accepting frame
    | stores frames hsender => exact h.stores frames
    | notifies hsender hnotifying => exact h.notifies
  · cases hwriter with
    | writes frame count hcurrent hcount hle => exact h.writes hcurrent
    | moves move connection hrunning hflushed hmove =>
      exact h.moves hflushed (Connection.writerStep_outcome hmove)
    | closesLive hphase hopen hsenders hnotify =>
      have htop := h.atTop hphase
      exact ⟨htop.ordered, htop.whole, htop.contiguous⟩
    | closes priority hphase hopen hsenders hinbox =>
      have htop := h.atTop hphase
      cases priority <;> exact ⟨htop.ordered, htop.whole, htop.contiguous⟩
    | stops hphase hrunning hlatency hbulk hlive => exact ⟨h.ordered, h.whole, h.contiguous⟩

end
end Kmsrdp.Guarantees.WriterHistory
