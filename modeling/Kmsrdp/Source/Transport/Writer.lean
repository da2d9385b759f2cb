import Kmsrdp.Source.Transport.Scheduler

/-!
# The connection writer and its senders

Model of `rdpcore-transport/src/lib.rs`: the two bounded inboxes, the latest-wins slot for live
audio, and the writer task, cut into the moves between which another task can run.

`socket` is the history of what was written, from the scheduler or from the live slot. After a write
error nothing is written any more, so it is left out.
-/
namespace Kmsrdp.Source.Transport
open List Scheduler
variable {β : Type}

def latencyQueueCap : Nat := 64
def bulkQueueCap : Nat := 256

inductive Origin where
  | queued
  | live
  deriving DecidableEq

inductive WriterPhase (β : Type) where
  | top
  | writingLive (rest : List (Frame β))
  | drainLatency
  | drainBulk
  | pop
  | writing (frame : Frame β)
  | waiting

def WriterPhase.holding : WriterPhase β → List (Origin × Frame β)
  | .writingLive rest => rest.map fun frame => (.live, frame)
  | .writing frame => [(.queued, frame)]
  | _ => []

open WriterPhase

@[simp] theorem WriterPhase.holding_writingLive (rest : List (Frame β)) :
    (writingLive rest).holding = rest.map fun frame => (.live, frame) := rfl

@[simp] theorem WriterPhase.holding_writing (frame : Frame β) :
    (writing frame).holding = [(.queued, frame)] := rfl

structure Connection (β : Type) where
  (latency bulk : List (ChannelKey × β))
  live : Option (List (Frame β))
  liveNotify : Bool
  scheduler : Scheduler β
  phase : WriterPhase β
  socket : List (Origin × Frame β)

namespace Connection

def new : Connection β := ⟨[], [], none, false, Scheduler.new, .top, []⟩

def inbox (t : Connection β) : Priority → List (ChannelKey × β)
  | .latency => t.latency
  | .bulk => t.bulk

def queueCap : Priority → Nat
  | .latency => latencyQueueCap
  | .bulk => bulkQueueCap

def hasSpace (t : Connection β) (priority : Priority) : Bool :=
  (t.inbox priority).length < queueCap priority

def accept (t : Connection β) (frame : Frame β) : Connection β :=
  match frame.priority with
  | .latency => { t with latency := t.latency ++ [(frame.channel, frame.bytes)] }
  | .bulk => { t with bulk := t.bulk ++ [(frame.channel, frame.bytes)] }

def send (t : Connection β) (frame : Frame β) : Bool × Connection β :=
  if t.hasSpace frame.priority then (true, t.accept frame) else (false, t)

def sendAll (t : Connection β) (frame : Frame β) : Option (Connection β) :=
  if t.hasSpace frame.priority then some (t.accept frame) else none

def sendLive (t : Connection β) (frames : List (Frame β)) : Connection β :=
  { t with live := some frames, liveNotify := true }

def receive (t : Connection β) (priority : Priority) (phase : WriterPhase β) :
    Option (Connection β) :=
  match priority with
  | .latency =>
    match t.latency with
    | [] => none
    | (channel, bytes) :: rest =>
      some { t with
        latency := rest
        scheduler := t.scheduler.enqueue ⟨channel, .latency, bytes⟩
        phase := phase }
  | .bulk =>
    match t.bulk with
    | [] => none
    | (channel, bytes) :: rest =>
      some { t with
        bulk := rest
        scheduler := t.scheduler.enqueue ⟨channel, .bulk, bytes⟩
        phase := phase }

def writerNext (t : Connection β) : Option (Connection β) :=
  match t.phase with
  | .top =>
    -- take_live, and if it is empty on to the inboxes
    match t.live with
    | some frames => some { t with live := none, phase := .writingLive frames }
    | none => some { t with phase := .drainLatency }
  | .writingLive [] => some { t with phase := .top }
  | .writingLive (frame :: rest) =>
    some { t with socket := t.socket ++ [(.live, frame)], phase := .writingLive rest }
  | .drainLatency => some ((t.receive .latency .drainLatency).getD { t with phase := .drainBulk })
  | .drainBulk => some ((t.receive .bulk .drainBulk).getD { t with phase := .pop })
  | .pop =>
    match t.scheduler.popNext with
    | some (frame, scheduler) => some { t with scheduler := scheduler, phase := .writing frame }
    | none => some { t with phase := .waiting }
  | .writing frame => some { t with socket := t.socket ++ [(.queued, frame)], phase := .top }
  | .waiting => none

inductive WriterMove where
  | next
  | recvNotify
  | recv (priority : Priority)

def writerStep (t : Connection β) : WriterMove → Option (Connection β)
  | .next => t.writerNext
  | .recvNotify =>
    match t.phase with
    | .waiting => if t.liveNotify then some { t with liveNotify := false, phase := .top } else none
    | _ => none
  | .recv priority =>
    match t.phase with
    | .waiting => t.receive priority .top
    | _ => none

def setInbox (t : Connection β) (priority : Priority) (inbox : List (ChannelKey × β)) :
    Connection β :=
  match priority with
  | .latency => { t with latency := inbox }
  | .bulk => { t with bulk := inbox }

def drainPhase : Priority → WriterPhase β
  | .latency => .drainLatency
  | .bulk => .drainBulk

/-- The moves of the writer, by the place of `run` it is at. -/
inductive WriterEdge (t : Connection β) : Connection β → Prop
  | skipsLive (hphase : t.phase = .top) (hlive : t.live = none) :
      WriterEdge t { t with phase := .drainLatency }
  | takesLive (frames : List (Frame β)) (hphase : t.phase = .top) (hlive : t.live = some frames) :
      WriterEdge t { t with live := none, phase := .writingLive frames }
  | writesLive (frame : Frame β) (rest : List (Frame β))
      (hphase : t.phase = .writingLive (frame :: rest)) :
      WriterEdge t { t with socket := t.socket ++ [(.live, frame)], phase := .writingLive rest }
  | endsWave (hphase : t.phase = .writingLive []) : WriterEdge t { t with phase := .top }
  | receives (priority : Priority) (channel : ChannelKey) (bytes : β) (rest : List (ChannelKey × β))
      (phase : WriterPhase β) (hinbox : t.inbox priority = (channel, bytes) :: rest)
      (hphase : t.phase = drainPhase priority ∧ phase = t.phase ∨ t.phase = .waiting ∧ phase = .top) :
      WriterEdge t
        { t.setInbox priority rest with
          scheduler := t.scheduler.enqueue ⟨channel, priority, bytes⟩
          phase := phase }
  | latencyDrained (hphase : t.phase = .drainLatency) (hinbox : t.latency = []) :
      WriterEdge t { t with phase := .drainBulk }
  | bulkDrained (hphase : t.phase = .drainBulk) (hinbox : t.bulk = []) :
      WriterEdge t { t with phase := .pop }
  | pops (frame : Frame β) (scheduler : Scheduler β) (hphase : t.phase = .pop)
      (hpop : t.scheduler.popNext = some (frame, scheduler)) :
      WriterEdge t { t with scheduler := scheduler, phase := .writing frame }
  | parks (hphase : t.phase = .pop) (hpop : t.scheduler.popNext = none) :
      WriterEdge t { t with phase := .waiting }
  | writes (frame : Frame β) (hphase : t.phase = .writing frame) :
      WriterEdge t { t with socket := t.socket ++ [(.queued, frame)], phase := .top }
  | wakes (hphase : t.phase = .waiting) (hnotify : t.liveNotify = true) :
      WriterEdge t { t with liveNotify := false, phase := .top }

variable {t t' : Connection β} {priority : Priority} {phase : WriterPhase β}

theorem edge_of_receive (priority : Priority)
    (hphase : t.phase = drainPhase priority ∧ phase = t.phase ∨ t.phase = .waiting ∧ phase = .top)
    (h : t.receive priority phase = some t') : t.WriterEdge t' := by
  unfold receive at h
  split at h
  · split at h
    · cases h
    · next channel bytes rest hinbox =>
      cases h
      exact .receives .latency channel bytes rest phase hinbox hphase
  · split at h
    · cases h
    · next channel bytes rest hinbox =>
      cases h
      exact .receives .bulk channel bytes rest phase hinbox hphase

theorem receive_eq_none (h : t.receive priority phase = none) : t.inbox priority = [] := by
  unfold receive at h
  split at h
  · split at h
    · assumption
    · cases h
  · split at h
    · assumption
    · cases h

theorem edge_of_writerNext (h : t.writerNext = some t') : t.WriterEdge t' := by
  unfold writerNext at h
  split at h
  · next hphase =>
    split at h
    · next frames hlive =>
      cases h
      exact .takesLive frames hphase hlive
    · next hlive =>
      cases h
      exact .skipsLive hphase hlive
  · next hphase =>
    cases h
    exact .endsWave hphase
  · next frame rest hphase =>
    cases h
    exact .writesLive frame rest hphase
  · next hphase =>
    cases h
    cases hreceive : t.receive .latency .drainLatency with
    | none => exact .latencyDrained hphase (receive_eq_none hreceive)
    | some t' => exact edge_of_receive .latency (.inl ⟨hphase, hphase.symm⟩) hreceive
  · next hphase =>
    cases h
    cases hreceive : t.receive .bulk .drainBulk with
    | none => exact .bulkDrained hphase (receive_eq_none hreceive)
    | some t' => exact edge_of_receive .bulk (.inl ⟨hphase, hphase.symm⟩) hreceive
  · next hphase =>
    split at h
    · next frame scheduler hpop =>
      cases h
      exact .pops frame scheduler hphase hpop
    · next hpop =>
      cases h
      exact .parks hphase hpop
  · next frame hphase =>
    cases h
    exact .writes frame hphase
  · cases h

theorem edge_of_writerStep {move : WriterMove} (h : t.writerStep move = some t') :
    t.WriterEdge t' := by
  cases move with
  | next => exact edge_of_writerNext h
  | recvNotify =>
    simp only [writerStep] at h
    split at h
    · next hphase =>
      obtain ⟨hnotify, ⟨⟩⟩ := Option.ite_none_right_eq_some.mp h
      exact .wakes hphase hnotify
    · cases h
  | recv priority =>
    simp only [writerStep] at h
    split at h
    · next hphase => exact edge_of_receive priority (.inr ⟨hphase, rfl⟩) h
    · cases h

/-- The same moves by what they do to the frames; of the place of `run` only what the writer holds
there matters. -/
inductive WriterOutcome (t : Connection β) : Connection β → Prop
  | moves (phase : WriterPhase β) (liveNotify : Bool) (hfrom : t.phase.holding = [])
      (hto : phase.holding = []) :
      WriterOutcome t { t with phase := phase, liveNotify := liveNotify }
  | takesLive (frames : List (Frame β)) (hfrom : t.phase.holding = [])
      (hlive : t.live = some frames) :
      WriterOutcome t { t with live := none, phase := .writingLive frames }
  | receivesLatency (channel : ChannelKey) (bytes : β) (rest : List (ChannelKey × β))
      (phase : WriterPhase β) (hfrom : t.phase.holding = []) (hto : phase.holding = [])
      (hinbox : t.latency = (channel, bytes) :: rest) :
      WriterOutcome t
        { t with
          latency := rest
          scheduler := t.scheduler.enqueue ⟨channel, .latency, bytes⟩
          phase := phase }
  | receivesBulk (channel : ChannelKey) (bytes : β) (rest : List (ChannelKey × β))
      (phase : WriterPhase β) (hfrom : t.phase.holding = []) (hto : phase.holding = [])
      (hinbox : t.bulk = (channel, bytes) :: rest) :
      WriterOutcome t
        { t with
          bulk := rest
          scheduler := t.scheduler.enqueue ⟨channel, .bulk, bytes⟩
          phase := phase }
  | pops (frame : Frame β) (scheduler : Scheduler β) (hfrom : t.phase.holding = [])
      (hpop : t.scheduler.popNext = some (frame, scheduler)) :
      WriterOutcome t { t with scheduler := scheduler, phase := .writing frame }
  | writes (origin : Origin) (frame : Frame β) (phase : WriterPhase β)
      (hfrom : t.phase.holding = (origin, frame) :: phase.holding) :
      WriterOutcome t { t with socket := t.socket ++ [(origin, frame)], phase := phase }

theorem holding_of_receives
    (hphase : t.phase = drainPhase priority ∧ phase = t.phase ∨ t.phase = .waiting ∧ phase = .top) :
    t.phase.holding = [] ∧ phase.holding = [] := by
  rcases hphase with ⟨hdrain, rfl⟩ | ⟨hwaiting, rfl⟩
  · cases priority <;> rw [hdrain] <;> exact ⟨rfl, rfl⟩
  · rw [hwaiting]
    exact ⟨rfl, rfl⟩

theorem WriterEdge.outcome (h : t.WriterEdge t') : t.WriterOutcome t' := by
  cases h with
  | skipsLive hphase hlive => exact .moves .drainLatency t.liveNotify (by rw [hphase]; rfl) rfl
  | takesLive frames hphase hlive => exact .takesLive frames (by rw [hphase]; rfl) hlive
  | writesLive frame rest hphase => exact .writes .live frame (.writingLive rest) (by rw [hphase]; rfl)
  | endsWave hphase => exact .moves .top t.liveNotify (by rw [hphase]; rfl) rfl
  | receives priority channel bytes rest phase hinbox hphase =>
    obtain ⟨hfrom, hto⟩ := holding_of_receives hphase
    cases priority with
    | latency => exact .receivesLatency channel bytes rest phase hfrom hto hinbox
    | bulk => exact .receivesBulk channel bytes rest phase hfrom hto hinbox
  | latencyDrained hphase hinbox => exact .moves .drainBulk t.liveNotify (by rw [hphase]; rfl) rfl
  | bulkDrained hphase hinbox => exact .moves .pop t.liveNotify (by rw [hphase]; rfl) rfl
  | pops frame scheduler hphase hpop => exact .pops frame scheduler (by rw [hphase]; rfl) hpop
  | parks hphase hpop => exact .moves .waiting t.liveNotify (by rw [hphase]; rfl) rfl
  | writes frame hphase => exact .writes .queued frame .top (by rw [hphase]; rfl)
  | wakes hphase hnotify => exact .moves .top false (by rw [hphase]; rfl) rfl

theorem writerStep_outcome {move : WriterMove} (h : t.writerStep move = some t') :
    t.WriterOutcome t' :=
  (edge_of_writerStep h).outcome

def taken (t : Connection β) : List (Origin × Frame β) := t.socket ++ t.phase.holding

def queuedOn (channel : ChannelKey) (priority : Priority) (sent : Origin × Frame β) : Option β :=
  if sent.1 = .queued ∧ sent.2.On channel priority then some sent.2.bytes else none

def takenOn (t : Connection β) (channel : ChannelKey) (priority : Priority) : List β :=
  t.taken.filterMap (queuedOn channel priority)

def sentOn (channel : ChannelKey) (inboxed : ChannelKey × β) : Option β :=
  if inboxed.1 = channel then some inboxed.2 else none

/-- All payloads ever accepted for one channel and priority, in the order in which they are
written. -/
def stream (t : Connection β) (channel : ChannelKey) (priority : Priority) : List β :=
  t.takenOn channel priority ++ t.scheduler.pendingOf channel priority ++
    (t.inbox priority).filterMap (sentOn channel)

variable (channel : ChannelKey)

theorem sentOn_eq (priority : Priority) (frame : Frame β) (h : frame.priority = priority) :
    [(frame.channel, frame.bytes)].filterMap (sentOn channel) =
      if frame.On channel priority then [frame.bytes] else [] := by
  by_cases hchannel : frame.channel = channel <;> simp [sentOn, Frame.On, hchannel, h]

theorem queuedOn_live (priority : Priority) (frames : List (Frame β)) :
    (frames.map fun frame => (Origin.live, frame)).filterMap (queuedOn channel priority) = [] := by
  simp [filterMap_eq_nil_iff, queuedOn]

theorem stream_accept (t : Connection β) (frame : Frame β) (channel : ChannelKey)
    (priority : Priority) :
    (t.accept frame).stream channel priority =
      t.stream channel priority ++ if frame.On channel priority then [frame.bytes] else [] := by
  by_cases hpriority : frame.priority = priority
  · rw [← sentOn_eq channel priority frame hpriority]
    subst hpriority
    unfold accept stream inbox
    cases frame.priority <;> simp [takenOn, taken, filterMap_append]
  · have hoff : frame.On channel priority = false := by simp [Frame.On, hpriority]
    rw [hoff]
    unfold accept stream inbox
    cases hf : frame.priority <;> cases priority <;> simp_all [takenOn, taken]

@[simp] theorem stream_sendLive (t : Connection β) (frames : List (Frame β))
    (channel : ChannelKey) (priority : Priority) :
    (t.sendLive frames).stream channel priority = t.stream channel priority := by
  cases priority <;> rfl

theorem append_receive (scheduler : Scheduler β) (frame : Frame β) (rest : List (ChannelKey × β))
    (channel : ChannelKey) :
    (scheduler.enqueue frame).pendingOf channel frame.priority ++ rest.filterMap (sentOn channel) =
      scheduler.pendingOf channel frame.priority ++
        ((frame.channel, frame.bytes) :: rest).filterMap (sentOn channel) := by
  rw [pendingOf_enqueue, ← sentOn_eq channel frame.priority frame rfl, append_assoc,
    ← filterMap_append, singleton_append]

/-- No move of the writer loses or reorders a frame. -/
theorem stream_of_outcome (h : t.WriterOutcome t') (channel : ChannelKey) (priority : Priority) :
    t'.stream channel priority = t.stream channel priority := by
  cases h with
  | moves phase liveNotify hfrom hto =>
    cases priority <;> simp [stream, takenOn, taken, hfrom, hto, inbox]
  | takesLive frames hfrom hlive =>
    have hheld := queuedOn_live channel priority frames
    cases priority <;>
      simp only [stream, takenOn, taken, hfrom, inbox, holding_writingLive,
        filterMap_append, hheld, append_nil]
  | receivesLatency first bytes rest phase hfrom hto hinbox =>
    cases priority with
    | latency =>
      have := append_receive t.scheduler ⟨first, .latency, bytes⟩ rest channel
      simp [stream, takenOn, taken, hfrom, hto, inbox, hinbox, this]
    | bulk => simp [stream, takenOn, taken, hfrom, hto, inbox, pendingOf_enqueue, Frame.On]
  | receivesBulk first bytes rest phase hfrom hto hinbox =>
    cases priority with
    | latency => simp [stream, takenOn, taken, hfrom, hto, inbox, pendingOf_enqueue, Frame.On]
    | bulk =>
      have := append_receive t.scheduler ⟨first, .bulk, bytes⟩ rest channel
      simp [stream, takenOn, taken, hfrom, hto, inbox, hinbox, this]
  | pops frame scheduler hfrom hpop =>
    have hheld : (writing frame).holding.filterMap (queuedOn channel priority) =
        if frame.On channel priority then [frame.bytes] else [] := by
      by_cases hon : frame.On channel priority <;> simp [holding, queuedOn, hon]
    have hpending := pendingOf_popNext hpop channel priority
    cases priority <;>
      simp only [stream, takenOn, taken, hfrom, inbox, hpending, hheld, filterMap_append,
        append_nil, append_assoc]
  | writes origin frame phase hfrom => cases priority <;> simp [stream, takenOn, taken, hfrom, inbox]

def socketOn (t : Connection β) (channel : ChannelKey) : List β :=
  t.socket.filterMap fun sent => if sent.2.channel = channel then some sent.2.bytes else none

def waitingOn (t : Connection β) (channel : ChannelKey) (priority : Priority) : List β :=
  t.phase.holding.filterMap (queuedOn channel priority) ++ t.scheduler.pendingOf channel priority ++
    (t.inbox priority).filterMap (sentOn channel)

@[simp] theorem socketOn_new : (Connection.new : Connection β).socketOn channel = [] := rfl

@[simp] theorem waitingOn_new (priority : Priority) :
    (Connection.new : Connection β).waitingOn channel priority = [] := by
  cases priority <;> rfl

theorem stream_eq (t : Connection β) (channel : ChannelKey) (priority : Priority) :
    t.stream channel priority =
      t.socket.filterMap (queuedOn channel priority) ++ t.waitingOn channel priority := by
  simp [stream, takenOn, taken, waitingOn]

theorem socket_accept (t : Connection β) (frame : Frame β) :
    (t.accept frame).socket = t.socket := by
  unfold accept
  split <;> rfl

theorem waitingOn_accept (t : Connection β) (frame : Frame β) (channel : ChannelKey)
    (priority : Priority) :
    (t.accept frame).waitingOn channel priority =
      t.waitingOn channel priority ++ if frame.On channel priority then [frame.bytes] else [] := by
  have hstream := stream_accept t frame channel priority
  rw [stream_eq, stream_eq, socket_accept, append_assoc] at hstream
  exact append_cancel_left hstream

theorem waitingOn_of_outcome_writes {origin : Origin} {frame : Frame β}
    (hfrom : t.phase.holding = (origin, frame) :: phase.holding)
    (channel : ChannelKey) (priority : Priority) :
    t.waitingOn channel priority =
      (queuedOn channel priority (origin, frame)).toList ++
        ({ t with socket := t.socket ++ [(origin, frame)], phase := phase } :
          Connection β).waitingOn channel priority := by
  cases hqueued : queuedOn channel priority (origin, frame) <;>
    cases priority <;> simp [waitingOn, hfrom, hqueued, inbox]

structure LiveElsewhere (channel : ChannelKey) (t : Connection β) : Prop where
  slot : ∀ frames, t.live = some frames → ∀ frame ∈ frames, frame.channel ≠ channel
  held : ∀ frame, (Origin.live, frame) ∈ t.phase.holding → frame.channel ≠ channel

theorem LiveElsewhere.new : (Connection.new : Connection β).LiveElsewhere channel where
  slot := fun _ hslot => by cases hslot
  held := fun _ hheld => by cases hheld

variable {channel : ChannelKey}

theorem LiveElsewhere.of_outcome (hlive : t.LiveElsewhere channel) (h : t.WriterOutcome t') :
    t'.LiveElsewhere channel := by
  cases h with
  | moves phase liveNotify hfrom hto => exact ⟨hlive.slot, by simp [hto]⟩
  | takesLive frames hfrom hslot =>
    refine ⟨by simp, fun frame hframe => ?_⟩
    exact hlive.slot frames hslot frame (by simpa using hframe)
  | receivesLatency first bytes rest phase hfrom hto hinbox => exact ⟨hlive.slot, by simp [hto]⟩
  | receivesBulk first bytes rest phase hfrom hto hinbox => exact ⟨hlive.slot, by simp [hto]⟩
  | pops frame scheduler hfrom hpop => exact ⟨hlive.slot, by simp⟩
  | writes origin frame phase hfrom =>
    exact ⟨hlive.slot, fun other hother => hlive.held other (hfrom ▸ mem_cons_of_mem _ hother)⟩

theorem LiveElsewhere.accept (h : t.LiveElsewhere channel) (frame : Frame β) :
    (t.accept frame).LiveElsewhere channel := by
  unfold Connection.accept
  split <;> exact ⟨h.slot, h.held⟩

theorem LiveElsewhere.sendLive
    (h : t.LiveElsewhere channel)
    {frames : List (Frame β)}
    (hframes : ∀ frame ∈ frames, frame.channel ≠ channel) :
    (t.sendLive frames).LiveElsewhere channel :=
  ⟨fun _ hslot => Option.some.inj hslot ▸ hframes, h.held⟩

theorem sendAll_eq_some {frame : Frame β} (h : t.sendAll frame = some t') :
    t' = t.accept frame := by
  unfold sendAll at h
  split at h
  · exact (Option.some.inj h).symm
  · cases h

theorem socketOn_accept (t : Connection β) (frame : Frame β) (channel : ChannelKey) :
    (t.accept frame).socketOn channel = t.socketOn channel := by
  rw [socketOn, socket_accept, socketOn]

/-- A move of the writer either leaves a channel as it is or writes the first payload that
waits in one of its two lanes. -/
inductive ChannelOutcome (channel : ChannelKey) (t t' : Connection β) : Prop
  | same (hsocket : t'.socketOn channel = t.socketOn channel)
      (hwaiting : ∀ priority, t'.waitingOn channel priority = t.waitingOn channel priority)
  | wrote (priority : Priority) (bytes : β)
      (hsocket : t'.socketOn channel = t.socketOn channel ++ [bytes])
      (hfirst : t.waitingOn channel priority = bytes :: t'.waitingOn channel priority)
      (hother : ∀ other, other ≠ priority → t'.waitingOn channel other = t.waitingOn channel other)

theorem ChannelOutcome.of_same_socket (h : t.WriterOutcome t') (hsocket : t'.socket = t.socket) :
    ChannelOutcome channel t t' := by
  refine .same (by rw [socketOn, hsocket, socketOn]) fun priority => ?_
  have hstream := stream_of_outcome h channel priority
  rw [stream_eq, stream_eq, hsocket] at hstream
  exact append_cancel_left hstream

theorem channel_of_outcome (hlive : t.LiveElsewhere channel) (h : t.WriterOutcome t') :
    ChannelOutcome channel t t' := by
  cases h with
  | moves phase liveNotify hfrom hto => exact .of_same_socket (.moves phase liveNotify hfrom hto) rfl
  | takesLive frames hfrom hslot => exact .of_same_socket (.takesLive frames hfrom hslot) rfl
  | receivesLatency first bytes rest phase hfrom hto hinbox =>
    exact .of_same_socket (.receivesLatency first bytes rest phase hfrom hto hinbox) rfl
  | receivesBulk first bytes rest phase hfrom hto hinbox =>
    exact .of_same_socket (.receivesBulk first bytes rest phase hfrom hto hinbox) rfl
  | pops frame scheduler hfrom hpop => exact .of_same_socket (.pops frame scheduler hfrom hpop) rfl
  | writes origin frame phase hfrom =>
    have hwaiting := waitingOn_of_outcome_writes hfrom channel
    by_cases hchannel : frame.channel = channel
    · cases origin with
      | live => exact absurd hchannel (hlive.held frame (hfrom ▸ mem_cons_self))
      | queued =>
        refine .wrote frame.priority frame.bytes (by simp [socketOn, hchannel]) ?_ ?_
        · rw [hwaiting frame.priority]
          simp [queuedOn, Frame.On, hchannel]
        · intro other hother
          rw [hwaiting other]
          simp [queuedOn, Frame.On, Ne.symm hother]
    · refine .same (by simp [socketOn, hchannel]) fun priority => ?_
      rw [hwaiting priority]
      simp [queuedOn, Frame.On, hchannel]

end Connection
end Kmsrdp.Source.Transport
