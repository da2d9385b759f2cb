import Kmsrdp.Library.Execution
import Kmsrdp.Source.Transport.Task

/-!
# How many frames can wait for the socket

The writer empties both bounded inboxes into the scheduler before every frame it writes, and the
scheduler takes whatever comes, so no number bounds what waits.
-/
namespace Kmsrdp.Guarantees.WriterBacklog
open Library.ByteString Library.Execution Source.Transport Connection Nat Scheduler

def ofPriority (priority : Priority) (frame : Frame Bytes) : Nat :=
  if frame.priority = priority then 1 else 0

def scheduled (scheduler : Scheduler Bytes) (priority : Priority) : Nat :=
  scheduler.weight (ofPriority priority)

def lane (connection : Connection Bytes) (priority : Priority) : Nat :=
  (connection.inbox priority).length + scheduled connection.scheduler priority

def backlog (t : Task) : Nat := lane t.connection .latency + lane t.connection .bulk

def Bounded (t : Task) : Prop := backlog t ≤ latencyQueueCap + bulkQueueCap

/-- A frame is accepted only when the scheduler has no frame of its priority. -/
def Sparing (t : Task) : Task.Action → Prop
  | .send frame | .sendAll frame =>
    t.connection.hasSpace frame.priority → scheduled t.connection.scheduler frame.priority = 0
  | _ => True

instance (t : Task) : (a : Task.Action) → Decidable (Sparing t a)
  | .send frame | .sendAll frame =>
    inferInstanceAs (Decidable
      (t.connection.hasSpace frame.priority → scheduled t.connection.scheduler frame.priority = 0))
  | .cloneSender | .dropSender | .storeLive _ | .notifyLive | .write _ | .writer _ | .closeLive
  | .close _ | .stop =>
    isTrue trivial

/-- Each inbox, with what the scheduler has of its priority, keeps to the capacity of the inbox. -/
def Capped (connection : Connection Bytes) : Prop :=
  ∀ priority, lane connection priority ≤ Connection.queueCap priority

variable {t : Task}

theorem bounded_of_capped (h : Capped t.connection) : Bounded t :=
  Nat.add_le_add (h .latency) (h .bulk)

theorem capped_new : Capped (new : Connection Bytes) := by
  intro priority
  cases priority <;> exact zero_le _

variable {connection connection' : Connection Bytes}

theorem lane_receive {priority : Priority} {channel : ChannelKey} {bytes : Bytes}
    {rest : List (ChannelKey × Bytes)}
    (hinbox : connection.inbox priority = (channel, bytes) :: rest)
    (phase : WriterPhase Bytes) (other : Priority) :
    lane
      { connection.setInbox priority rest with
        scheduler := connection.scheduler.enqueue ⟨channel, priority, bytes⟩
        phase := phase } other =
      lane connection other := by
  unfold lane scheduled
  rw [weight_enqueue]
  by_cases hsame : other = priority
  · subst hsame
    rw [hinbox, List.length_cons]
    have hrest : (inbox { connection.setInbox other rest with
          scheduler := connection.scheduler.enqueue ⟨channel, other, bytes⟩
          phase := phase } other) = rest := by
      cases other <;> rfl
    have hone : ofPriority other ⟨channel, other, bytes⟩ = 1 := if_pos rfl
    rw [hrest, hone]
    omega
  · have hkept : (inbox { connection.setInbox priority rest with
          scheduler := connection.scheduler.enqueue ⟨channel, priority, bytes⟩
          phase := phase } other) = connection.inbox other := by
      cases priority <;> cases other
      · exact absurd rfl hsame
      · rfl
      · rfl
      · exact absurd rfl hsame
    have hzero : ofPriority other ⟨channel, priority, bytes⟩ = 0 := if_neg (Ne.symm hsame)
    rw [hkept, hzero]
    rfl

theorem lane_of_edge (hedge : connection.WriterEdge connection') (priority : Priority) :
    lane connection' priority ≤ lane connection priority := by
  cases hedge with
  | receives first channel bytes rest phase hinbox hphase =>
    exact le_of_eq (lane_receive hinbox phase priority)
  | pops frame scheduler hphase hpop =>
    have hweight := weight_popNext (ofPriority priority) hpop
    have hinbox : (inbox { connection with scheduler := scheduler, phase := .writing frame } priority) =
        connection.inbox priority := by
      cases priority <;> rfl
    unfold lane scheduled
    rw [hinbox, hweight]
    exact Nat.add_le_add_left (Nat.le_add_left _ _) _
  | skipsLive | takesLive | writesLive | endsWave | latencyDrained | bulkDrained | parks | writes
  | wakes =>
    cases priority <;> exact le_refl _

theorem Capped.accept
    (h : Capped connection)
    {frame : Frame Bytes}
    (hspace : connection.hasSpace frame.priority)
    (hsparing : scheduled connection.scheduler frame.priority = 0) :
    Capped (connection.accept frame) := by
  have hroom : (connection.inbox frame.priority).length < queueCap frame.priority :=
    of_decide_eq_true hspace
  intro priority
  by_cases hsame : priority = frame.priority
  · have hlane : lane (connection.accept frame) frame.priority =
        (connection.inbox frame.priority).length + 1 := by
      unfold Connection.accept
      split
      all_goals
        next hpriority =>
        rw [hpriority] at hsparing ⊢
        unfold lane
        rw [hsparing]
        exact List.length_append
    rw [hsame, hlane]
    exact hroom
  · refine le_trans (le_of_eq ?_) (h priority)
    unfold Connection.accept
    cases hpriority : frame.priority <;> cases priority
    · exact absurd hpriority.symm hsame
    · rfl
    · rfl
    · exact absurd hpriority.symm hsame

theorem capped_step (t : Task) (a : Task.Action) (t' : Task)
    (h : Capped t.connection)
    (hsparing : Sparing t a)
    (hstep : t.step a = some t') : Capped t'.connection := by
  rcases Task.effect_step hstep with hsender | hwriter
  · cases hsender with
    | same | handles => exact h
    | accepts frame haction hsender hspace =>
      rcases haction with rfl | rfl
      · exact h.accept hspace (hsparing hspace)
      · exact h.accept hspace (hsparing hspace)
    | stores | notifies =>
      intro priority
      cases priority
      · exact h .latency
      · exact h .bulk
  · cases hwriter with
    | writes | stops => exact h
    | moves move connection hrunning hflushed hmove =>
      exact fun priority => le_trans (lane_of_edge (edge_of_writerStep hmove) priority) (h priority)
    | closesLive =>
      intro priority
      cases priority
      · exact h .latency
      · exact h .bulk
    | closes closed =>
      intro priority
      cases closed <;> cases priority
      · exact h .latency
      · exact h .bulk
      · exact h .latency
      · exact h .bulk

/-- In every interleaving in which no frame is accepted while the scheduler has a frame of its
priority, the two capacities bound what waits, in every state. -/
theorem bounded_always_of_sparing (schedule : List Task.Action)
    (h : Careful Task.step Sparing .start schedule) : Always Task.step Bounded .start schedule :=
  always_of_careful (fun t => Capped t.connection) (fun _ hcapped => bounded_of_capped hcapped)
    capped_step schedule
    capped_new h

def tile : Frame Bytes := ⟨.io, .bulk, [2]⟩

def sparingRun : List Task.Action :=
  [.send tile, .sendAll tile, .writer .next, .writer .next, .writer .next, .writer .next, .writer .next,
    .writer .next, .write 1, .writer .next, .writer .next, .writer .next, .writer .next, .writer .next,
    .send tile, .send tile]

theorem bounded_sparingRun :
    (exec Task.step .start sparingRun).isSome = true ∧ Always Task.step Bounded .start sparingRun :=
  ⟨by decide +kernel, bounded_always_of_sparing sparingRun (by decide +kernel)⟩

def floodRound : List Task.Action :=
  [.send tile, .send tile, .writer .next, .writer .next, .writer .next, .writer .next,
    .writer .next, .writer .next, .write 1, .writer .next]

/-- The state after a round, with the tiles that the scheduler has left. -/
structure Flooded (count : Nat) (t : Task) : Prop where
  running : t.stopped = false ∧ t.senders = 1 ∧ t.progress = 0
  latency : t.connection.latency = []
  bulk : t.connection.bulk = []
  live : t.connection.live = none
  phase : t.connection.phase = .top
  queues : t.connection.scheduler.queues = [⟨.io, .bulk, List.replicate (count + 1) [2]⟩]
  order : t.connection.scheduler.bulkOrder = [0] ∧ t.connection.scheduler.nextBulkChannel = 0

theorem flooded_start : ∃ t, exec Task.step .start floodRound = some t ∧ Flooded 0 t :=
  ⟨_, rfl, ⟨rfl, rfl, rfl⟩, rfl, rfl, rfl, rfl, rfl, rfl, rfl⟩

theorem flooded_round {count : Nat} (h : Flooded count t) :
    ∃ t', exec Task.step t floodRound = some t' ∧ Flooded (count + 1) t' := by
  obtain ⟨⟨latency, bulk, live, liveNotify, ⟨queues, order, next, nodup⟩, phase, socket⟩,
    latencyOpen, bulkOpen, liveOpen,
    stopped, progress, senders, notifying, wire, accepted, waves⟩ := t
  obtain ⟨⟨rfl, rfl, rfl⟩, rfl, rfl, rfl, rfl, rfl, rfl, rfl⟩ := h
  refine ⟨_, rfl, ⟨rfl, rfl, rfl⟩, rfl, rfl, rfl, rfl, ?_, rfl, mod_one 1⟩
  show [(⟨.io, .bulk, List.replicate count [2] ++ [[2]] ++ [[2]]⟩ : ChannelQueue Bytes)] = _
  rw [← List.replicate_succ', ← List.replicate_succ']

theorem Flooded.backlog_eq {count : Nat} (h : Flooded count t) : backlog t = count + 1 := by
  unfold backlog lane scheduled weight
  rw [h.queues]
  simp [inbox, h.latency, h.bulk, queueWeight, ofPriority]

theorem flooded_rounds (count : Nat) :
    ∃ schedule t, exec Task.step .start schedule = some t ∧ Flooded count t := by
  induction count with
  | zero =>
    obtain ⟨t, hexec, ht⟩ := flooded_start
    exact ⟨floodRound, t, hexec, ht⟩
  | succ count ih =>
    obtain ⟨schedule, t, hexec, ht⟩ := ih
    obtain ⟨t', hround, ht'⟩ := flooded_round ht
    refine ⟨schedule ++ floodRound, t', ?_, ht'⟩
    rw [exec_append, hexec]
    exact hround

/-- No constant bounds what waits. -/
theorem backlog_unbounded :
    ¬ ∃ bound, ∀ schedule t, exec Task.step .start schedule = some t → backlog t ≤ bound := by
  rintro ⟨bound, hbound⟩
  obtain ⟨schedule, t, hexec, ht⟩ := flooded_rounds bound
  have hle := hbound schedule t hexec
  rw [ht.backlog_eq] at hle
  exact not_succ_le_self bound hle

end Kmsrdp.Guarantees.WriterBacklog
