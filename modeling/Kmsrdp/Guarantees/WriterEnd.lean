import Kmsrdp.Library.Execution
import Kmsrdp.Source.Transport.Task

/-!
# How the writer comes to rest

`Closing`: a flag is cleared only when no handle is left and its channel is empty, a wave in the
slot is one the writer will come to, and the writer waits only when the scheduler has nothing.
-/
namespace Kmsrdp.Guarantees.WriterEnd
open Library.ByteString Library.Execution Source.Transport List Connection

structure Closing (t : Task) : Prop where
  listed : t.connection.scheduler.BulkListed
  inFrame : ∀ frame ∈ t.connection.phase.current, t.progress ≤ frame.bytes.length
  parked : t.connection.phase = .waiting → t.connection.scheduler.popNext = none
  woken : t.connection.live ≠ none →
    0 < t.notifying ∨ t.connection.liveNotify = true ∨ t.connection.phase = .top
  lent : 0 < t.notifying → 0 < t.senders
  closed : ∀ priority, t.isOpen priority = false → t.senders = 0 ∧ t.connection.inbox priority = []
  liveClosed : t.liveOpen = false → t.senders = 0 ∧ t.connection.liveNotify = false
  ended : t.stopped = true →
    t.connection.phase = .waiting ∧ (∀ priority, t.isOpen priority = false) ∧ t.liveOpen = false

theorem closing_start : Closing .start where
  listed := Scheduler.bulkListed_new
  inFrame _ hframe := nomatch hframe
  parked hphase := nomatch hphase
  woken hlive := absurd rfl hlive
  lent hnotifying := nomatch hnotifying
  closed priority hopen := by cases priority <;> cases hopen
  liveClosed hopen := nomatch hopen
  ended hstopped := nomatch hstopped

variable {t t' : Task}
variable {connection connection' : Connection Bytes}

theorem listed_of_edge
    (h : connection.scheduler.BulkListed)
    (hedge : connection.WriterEdge connection') : connection'.scheduler.BulkListed := by
  cases hedge with
  | receives priority channel bytes rest phase hinbox hphase => exact h.enqueue _
  | pops frame scheduler hphase hpop => exact h.popNext hpop
  | skipsLive | takesLive | writesLive | endsWave | latencyDrained | bulkDrained | parks | writes
  | wakes => exact h

theorem parked_of_edge
    (hedge : connection.WriterEdge connection')
    (hphase : connection'.phase = .waiting) : connection'.scheduler.popNext = none := by
  cases hedge with
  | parks hpop hnone => exact hnone
  | receives priority channel bytes rest phase hinbox hfrom =>
    rcases hfrom with ⟨hdrain, rfl⟩ | ⟨-, rfl⟩
    · cases priority <;> cases hdrain.symm.trans hphase
    · cases hphase
  | skipsLive | takesLive | writesLive | endsWave | latencyDrained | bulkDrained | pops | writes
  | wakes => cases hphase

theorem woken_of_edge {notifying : Nat}
    (h : connection.live ≠ none →
        0 < notifying ∨ connection.liveNotify = true ∨ connection.phase = .top)
    (hedge : connection.WriterEdge connection')
    (hlive : connection'.live ≠ none) :
    0 < notifying ∨ connection'.liveNotify = true ∨ connection'.phase = .top := by
  -- away from the top of the loop the reason that was there before still stands
  have hstays : connection.live ≠ none → connection.phase ≠ .top →
      0 < notifying ∨ connection.liveNotify = true := by
    intro hslot hphase
    rcases h hslot with hnotifying | hnotify | htop
    · exact .inl hnotifying
    · exact .inr hnotify
    · exact absurd htop hphase
  cases hedge with
  | skipsLive hphase hnone => exact absurd hnone hlive
  | takesLive frames hphase hslot => exact absurd rfl hlive
  | endsWave | writes | wakes => exact .inr (.inr rfl)
  | writesLive frame rest hphase | latencyDrained hphase hinbox | bulkDrained hphase hinbox
  | pops frame scheduler hphase hpop | parks hphase hpop =>
    rcases hstays hlive (by rw [hphase]; simp) with hnotifying | hnotify
    · exact .inl hnotifying
    · exact .inr (.inl hnotify)
  | receives priority channel bytes rest phase hinbox hphase =>
    have hphase' : connection.phase ≠ .top := by
      rcases hphase with ⟨hdrain, -⟩ | ⟨hwaiting, -⟩
      · rw [hdrain]
        cases priority <;> simp [drainPhase]
      · rw [hwaiting]
        simp
    have hsame : (connection.setInbox priority rest).live = connection.live ∧
        (connection.setInbox priority rest).liveNotify = connection.liveNotify := by
      cases priority <;> exact ⟨rfl, rfl⟩
    rcases hstays (hsame.1 ▸ hlive) hphase' with hnotifying | hnotify
    · exact .inl hnotifying
    · exact .inr (.inl (hsame.2.trans hnotify))

variable {priority : Priority}

theorem inbox_of_edge
    (h : connection.inbox priority = [])
    (hedge : connection.WriterEdge connection') : connection'.inbox priority = [] := by
  cases hedge with
  | receives other channel bytes rest phase hinbox hphase =>
    cases priority <;> cases other
    · cases h.symm.trans hinbox
    · exact h
    · exact h
    · cases h.symm.trans hinbox
  | skipsLive | takesLive | writesLive | endsWave | latencyDrained | bulkDrained | pops | parks
  | writes | wakes =>
    cases priority <;> exact h

theorem liveNotify_of_edge
    (h : connection.liveNotify = false)
    (hedge : connection.WriterEdge connection') : connection'.liveNotify = false := by
  cases hedge with
  | receives priority channel bytes rest phase hinbox hphase => cases priority <;> exact h
  | wakes => rfl
  | skipsLive | takesLive | writesLive | endsWave | latencyDrained | bulkDrained | pops | parks
  | writes => exact h

section
variable (h : Closing t)
include h

theorem Closing.moves (hrunning : t.stopped = false) (hedge : t.connection.WriterEdge connection) :
    Closing { t with connection := connection, progress := 0 } where
  listed := listed_of_edge h.listed hedge
  inFrame _ _ := Nat.zero_le _
  parked := parked_of_edge hedge
  woken := woken_of_edge h.woken hedge
  lent := h.lent
  closed priority hopen := by
    have hbefore := h.closed priority (by cases priority <;> exact hopen)
    exact ⟨hbefore.1, inbox_of_edge hbefore.2 hedge⟩
  liveClosed hopen := ⟨(h.liveClosed hopen).1, liveNotify_of_edge (h.liveClosed hopen).2 hedge⟩
  ended hstopped := by cases hrunning.symm.trans hstopped

theorem Closing.isOpen_of_sender (hsender : 0 < t.senders) (priority : Priority) :
    t.isOpen priority ≠ false := fun hclosed =>
  absurd (h.closed priority hclosed).1 (Nat.pos_iff_ne_zero.mp hsender)

theorem Closing.liveOpen_of_sender (hsender : 0 < t.senders) : t.liveOpen ≠ false := fun hclosed =>
  absurd (h.liveClosed hclosed).1 (Nat.pos_iff_ne_zero.mp hsender)

theorem Closing.accepting (hsender : 0 < t.senders) (frame : Frame Bytes) :
    Closing (t.accepting frame) := by
  unfold Task.accepting accept
  split
  all_goals
    exact ⟨h.listed, h.inFrame, h.parked, h.woken, h.lent,
      fun priority hclosed => absurd hclosed (h.isOpen_of_sender hsender priority),
      h.liveClosed, h.ended⟩

theorem Closing.closesLive
    (hopen : t.liveOpen = true)
    (hsenders : t.senders = 0)
    (hnotify : t.connection.liveNotify = false) : Closing { t.atTop with liveOpen := false } where
  listed := h.listed
  inFrame _ hframe := nomatch hframe
  parked hphase := nomatch hphase
  woken _ := .inr (.inr rfl)
  lent := h.lent
  closed := h.closed
  liveClosed _ := ⟨hsenders, hnotify⟩
  ended hstopped := by cases hopen.symm.trans (h.ended hstopped).2.2

theorem Closing.closes
    (hopen : t.isOpen priority = true)
    (hsenders : t.senders = 0)
    (hinbox : t.connection.inbox priority = []) : Closing (t.closing priority) := by
  have hended : t.stopped ≠ true := fun hstopped => by
    cases hopen.symm.trans ((h.ended hstopped).2.1 priority)
  have hclosed : ∀ other, (t.closing priority).isOpen other = false →
      t.senders = 0 ∧ t.connection.inbox other = [] := by
    intro other hother
    by_cases hsame : other = priority
    · rw [hsame]
      exact ⟨hsenders, hinbox⟩
    · refine h.closed other ?_
      cases priority <;> cases other
      · exact absurd rfl hsame
      · exact hother
      · exact hother
      · exact absurd rfl hsame
  cases priority
  all_goals
    exact ⟨h.listed, fun _ hframe => (nomatch hframe), fun hphase => (nomatch hphase), fun _ => .inr
      (.inr rfl), h.lent, hclosed, h.liveClosed, fun hstopped => absurd hstopped hended⟩

theorem Closing.sent {a : Task.Action} (heffect : t.SenderEffect a t') : Closing t' := by
  cases heffect with
  | same => exact h
  | handles senders hsender hlent =>
    exact ⟨h.listed, h.inFrame, h.parked, h.woken, hlent,
      fun priority hclosed => absurd hclosed (h.isOpen_of_sender hsender priority),
      fun hclosed => absurd hclosed (h.liveOpen_of_sender hsender), h.ended⟩
  | accepts frame haction hsender hspace => exact h.accepting hsender frame
  | stores frames hsender =>
    exact ⟨h.listed, h.inFrame, h.parked, fun _ => .inl (Nat.succ_pos _), fun _ => hsender,
      h.closed, h.liveClosed, h.ended⟩
  | notifies hsender hnotifying =>
    exact ⟨h.listed, h.inFrame, h.parked, fun _ => .inr (.inl rfl), fun _ => hsender, h.closed,
      fun hclosed => absurd hclosed (h.liveOpen_of_sender hsender), h.ended⟩

theorem Closing.wrote (heffect : t.WriterEffect t') : Closing t' := by
  cases heffect with
  | writes frame count hcurrent hcount hle =>
    refine ⟨h.listed, fun other hother => ?_, h.parked, h.woken, h.lent, h.closed,
      h.liveClosed, h.ended⟩
    cases hcurrent.symm.trans hother
    exact hle
  | moves move connection hrunning hflushed hmove => exact h.moves hrunning (edge_of_writerStep hmove)
  | closesLive hphase hopen hsenders hnotify => exact h.closesLive hopen hsenders hnotify
  | closes priority hphase hopen hsenders hinbox => exact h.closes hopen hsenders hinbox
  | stops hphase hrunning hlatency hbulk hlive =>
    refine ⟨h.listed, h.inFrame, h.parked, h.woken, h.lent, h.closed, h.liveClosed,
      fun _ => ⟨hphase, ?_, hlive⟩⟩
    intro priority
    cases priority
    · exact hlatency
    · exact hbulk

theorem closing_step (a : Task.Action) (hstep : t.step a = some t') : Closing t' := by
  rcases Task.effect_step hstep with hsender | hwriter
  · exact h.sent hsender
  · exact h.wrote hwriter

end

def Drained (t : Task) : Prop := ∀ channel priority, t.connection.waitingOn channel priority = []

theorem Closing.drained
    (h : Closing t)
    (hphase : t.connection.phase = .waiting)
    (hinbox : ∀ priority, t.connection.inbox priority = []) : Drained t := by
  intro channel priority
  unfold waitingOn
  rw [Scheduler.pendingOf_of_popNext_none h.listed (h.parked hphase), hinbox priority, hphase]
  rfl

theorem Closing.drained_of_stopped (h : Closing t) (hstopped : t.stopped = true) :
    t.senders = 0 ∧ Drained t ∧ t.connection.live = none := by
  obtain ⟨hphase, hclosed, hlive⟩ := h.ended hstopped
  have hsenders := (h.liveClosed hlive).1
  refine ⟨hsenders, h.drained hphase fun priority => (h.closed priority (hclosed priority)).2, ?_⟩
  by_contra hslot
  rcases h.woken hslot with hnotifying | hnotify | htop
  · exact absurd hsenders (Nat.pos_iff_ne_zero.mp (h.lent hnotifying))
  · cases hnotify.symm.trans (h.liveClosed hlive).2
  · cases hphase.symm.trans htop

def AtRest (t : Task) : Prop := ∀ a : Task.Action, a.OfWriter → t.step a = none

theorem writerNext_isSome (h : connection.phase ≠ .waiting) : connection.writerNext ≠ none := by
  unfold writerNext
  split
  · split <;> simp
  · simp
  · simp
  · simp
  · simp
  · split <;> simp
  · simp
  · contradiction

theorem Closing.phase_of_atRest (h : Closing t) (hrest : AtRest t) (hrunning : t.stopped = false) :
    t.connection.phase = .waiting := by
  by_contra hphase
  by_cases hflushed : t.Flushed
  · have hnext : t.writerStep (.writer .next) = none := hrest (.writer .next) trivial
    simp only [Task.writerStep] at hnext
    rw [if_pos ⟨by rw [hrunning]; rfl, rfl, hflushed⟩] at hnext
    exact writerNext_isSome hphase (Option.map_eq_none_iff.mp hnext)
  · unfold Task.Flushed at hflushed
    push Not at hflushed
    obtain ⟨frame, hcurrent, hprogress⟩ := hflushed
    have hle := h.inFrame frame hcurrent
    have hwrite : t.writerStep (.write 1) = none := hrest (.write 1) trivial
    simp only [Task.writerStep, Option.mem_def.mp hcurrent] at hwrite
    rw [if_pos ⟨Nat.one_pos, by omega⟩] at hwrite
    cases hwrite

theorem flushed_of_waiting (hphase : t.connection.phase = .waiting) : t.Flushed := by
  unfold Task.Flushed
  rw [hphase]
  exact fun _ hframe => nomatch hframe

section
variable (hrest : AtRest t)
include hrest
section
variable (h : Closing t)
include h
section
variable (hrunning : t.stopped = false)
include hrunning

theorem Closing.inbox_of_atRest (hphase : t.connection.phase = .waiting) (priority : Priority) :
    t.connection.inbox priority = [] := by
  cases hopen : t.isOpen priority with
  | false => exact (h.closed priority hopen).2
  | true =>
    have hrecv : t.writerStep (.writer (.recv priority)) = none :=
      hrest (.writer (.recv priority)) trivial
    simp only [Task.writerStep] at hrecv
    rw [if_pos ⟨by rw [hrunning]; rfl, hopen, flushed_of_waiting hphase⟩] at hrecv
    have hreceive := Option.map_eq_none_iff.mp hrecv
    simp only [writerStep, hphase] at hreceive
    exact receive_eq_none hreceive

theorem Closing.isOpen_of_atRest (hsenders : t.senders = 0) (priority : Priority) :
    t.isOpen priority = false := by
  have hphase := h.phase_of_atRest hrest hrunning
  cases hopen : t.isOpen priority with
  | false => rfl
  | true =>
    have hclose : t.writerStep (.close priority) = none := hrest (.close priority) trivial
    have hinbox := h.inbox_of_atRest hrest hrunning hphase priority
    simp only [Task.writerStep] at hclose
    rw [if_pos ⟨(Task.waits_iff t).mpr ⟨hphase, hrunning⟩, hopen, hsenders, hinbox⟩] at hclose
    cases hclose

theorem Closing.liveOpen_of_atRest (hsenders : t.senders = 0) : t.liveOpen = false := by
  have hphase := h.phase_of_atRest hrest hrunning
  cases hopen : t.liveOpen with
  | false => rfl
  | true =>
    -- the channel has a token to receive, or is empty and closed
    cases hnotify : t.connection.liveNotify with
    | true =>
      have hrecv : t.writerStep (.writer .recvNotify) = none := hrest (.writer .recvNotify) trivial
      simp only [Task.writerStep] at hrecv
      rw [if_pos ⟨by rw [hrunning]; rfl, hopen, flushed_of_waiting hphase⟩] at hrecv
      have hreceive := Option.map_eq_none_iff.mp hrecv
      simp only [writerStep, hphase] at hreceive
      rw [if_pos hnotify] at hreceive
      cases hreceive
    | false =>
      have hclose : t.writerStep .closeLive = none := hrest .closeLive trivial
      simp only [Task.writerStep] at hclose
      rw [if_pos ⟨(Task.waits_iff t).mpr ⟨hphase, hrunning⟩, hopen, hsenders, by rw [hnotify]; rfl⟩]
        at hclose
      cases hclose

end

theorem Closing.stopped_of_atRest (hsenders : t.senders = 0) : t.stopped = true := by
  cases hrunning : t.stopped with
  | true => rfl
  | false =>
    have hphase := h.phase_of_atRest hrest hrunning
    have hlatency : t.latencyOpen = false := h.isOpen_of_atRest hrest hrunning hsenders .latency
    have hbulk : t.bulkOpen = false := h.isOpen_of_atRest hrest hrunning hsenders .bulk
    have hlive := h.liveOpen_of_atRest hrest hrunning hsenders
    have hstop : t.writerStep .stop = none := hrest .stop trivial
    simp only [Task.writerStep] at hstop
    rw [hlatency, hbulk, hlive, if_pos ⟨(Task.waits_iff t).mpr ⟨hphase, hrunning⟩, rfl, rfl, rfl⟩]
      at hstop
    cases hstop

theorem Closing.of_atRest : Drained t ∧ (t.senders = 0 → t.stopped = true) := by
  refine ⟨?_, h.stopped_of_atRest hrest⟩
  cases hstopped : t.stopped with
  | true => exact (h.drained_of_stopped hstopped).2.1
  | false =>
    have hphase := h.phase_of_atRest hrest hstopped
    exact h.drained hphase (h.inbox_of_atRest hrest hstopped hphase)

end
end

def frameCost (frame : Frame Bytes) : Nat := frame.bytes.length + 8

def inboxCost (inbox : List (ChannelKey × Bytes)) : Nat :=
  (inbox.map fun entry => entry.2.length + 16).sum

def waveCost (frames : List (Frame Bytes)) : Nat :=
  (frames.map fun frame => frame.bytes.length + 1).sum

def slotCost : Option (List (Frame Bytes)) → Nat
  | none => 0
  | some frames => waveCost frames + 8

def phaseCost (progress : Nat) : WriterPhase Bytes → Nat
  | .waiting => 0
  | .pop => 1
  | .drainBulk => 2
  | .drainLatency => 3
  | .top => 4
  | .writing frame => frame.bytes.length - progress + 5
  | .writingLive rest => waveCost rest - progress + 5

def flagCost (flag : Bool) : Nat := if flag then 8 else 0

def connectionCost (progress : Nat) (connection : Connection Bytes) : Nat :=
  inboxCost connection.latency + inboxCost connection.bulk + connection.scheduler.weight frameCost +
    slotCost connection.live + flagCost connection.liveNotify + phaseCost progress connection.phase

def effort (t : Task) : Nat :=
  connectionCost t.progress t.connection + flagCost t.latencyOpen + flagCost t.bulkOpen +
    flagCost t.liveOpen +
    if t.stopped then 0 else 1

theorem inboxCost_setInbox {channel : ChannelKey} {bytes : Bytes}
    {rest : List (ChannelKey × Bytes)}
    (h : connection.inbox priority = (channel, bytes) :: rest) :
    inboxCost connection.latency + inboxCost connection.bulk =
      inboxCost (connection.setInbox priority rest).latency +
        inboxCost (connection.setInbox priority rest).bulk + (bytes.length + 16) := by
  cases priority with
  | latency =>
    have hlatency : connection.latency = (channel, bytes) :: rest := h
    rw [hlatency]
    simp only [setInbox, inboxCost, map_cons, sum_cons]
    omega
  | bulk =>
    have hbulk : connection.bulk = (channel, bytes) :: rest := h
    rw [hbulk]
    simp only [setInbox, inboxCost, map_cons, sum_cons]
    omega

theorem connectionCost_of_edge {progress : Nat}
    (hflushed : ∀ frame ∈ connection.phase.current, progress = frame.bytes.length)
    (hedge : connection.WriterEdge connection') :
    connectionCost 0 connection' < connectionCost progress connection := by
  cases hedge with
  | skipsLive hphase hlive | endsWave hphase | latencyDrained hphase hinbox | bulkDrained hphase hinbox
  | parks hphase hpop =>
    simp only [connectionCost, hphase, phaseCost]
    omega
  | takesLive frames hphase hlive =>
    simp only [connectionCost, hphase, hlive, phaseCost, slotCost]
    omega
  | writesLive frame rest hphase =>
    have hprogress := hflushed frame (by rw [hphase]; rfl)
    simp only [connectionCost, hphase, phaseCost, waveCost, map_cons, sum_cons]
    omega
  | receives priority channel bytes rest phase hinbox hphase =>
    have hcost := inboxCost_setInbox hinbox
    have hweight := connection.scheduler.weight_enqueue frameCost ⟨channel, priority, bytes⟩
    have hsame : (connection.setInbox priority rest).live = connection.live ∧
        (connection.setInbox priority rest).liveNotify = connection.liveNotify := by
      cases priority <;> exact ⟨rfl, rfl⟩
    have hplace : phaseCost 0 phase ≤ phaseCost progress connection.phase + 4 := by
      rcases hphase with ⟨hdrain, rfl⟩ | ⟨hwaiting, rfl⟩
      · rw [hdrain]
        cases priority <;> simp [drainPhase, phaseCost]
      · rw [hwaiting]
        simp [phaseCost]
    simp only [connectionCost, hsame, hweight, frameCost]
    omega
  | pops frame scheduler hphase hpop =>
    have hweight := Scheduler.weight_popNext frameCost hpop
    simp only [connectionCost, hphase, phaseCost, hweight, frameCost]
    omega
  | writes frame hphase =>
    simp only [connectionCost, hphase, phaseCost]
    omega
  | wakes hphase hnotify =>
    simp only [connectionCost, hphase, hnotify, phaseCost, flagCost]
    simp only [if_true, Bool.false_eq_true, if_false]
    omega

theorem phaseCost_write {phase : WriterPhase Bytes} {frame : Frame Bytes} {progress count : Nat}
    (hcurrent : phase.current = some frame)
    (hcount : 0 < count)
    (hle : progress + count ≤ frame.bytes.length) :
    phaseCost (progress + count) phase < phaseCost progress phase := by
  unfold WriterPhase.current at hcurrent
  split at hcurrent
  · cases hcurrent
    simp only [phaseCost]
    omega
  · cases hcurrent
    simp only [phaseCost, waveCost, map_cons, sum_cons]
    omega
  · cases hcurrent

theorem connectionCost_atTop (hphase : t.connection.phase = .waiting) :
    connectionCost t.progress t.atTop.connection = connectionCost t.progress t.connection + 4 := by
  simp only [connectionCost, Task.atTop, hphase, phaseCost]

theorem effort_of_effect (h : t.WriterEffect t') : effort t' < effort t := by
  cases h with
  | writes frame count hcurrent hcount hle =>
    have hcost := phaseCost_write hcurrent hcount hle
    simp only [effort, connectionCost]
    omega
  | moves move connection hrunning hflushed hmove =>
    have hcost := connectionCost_of_edge hflushed (edge_of_writerStep hmove)
    simp only [effort]
    omega
  | closesLive hphase hopen hsenders hnotify =>
    have hcost := connectionCost_atTop hphase
    have hflag : flagCost t.liveOpen = 8 := by rw [hopen]; rfl
    show connectionCost t.progress t.atTop.connection + flagCost t.latencyOpen +
        flagCost t.bulkOpen + flagCost false +
      (if t.stopped then 0 else 1) < effort t
    rw [hcost, effort, hflag]
    have hclosed : flagCost false = 0 := rfl
    omega
  | closes priority hphase hopen hsenders hinbox =>
    have hcost := connectionCost_atTop hphase
    have hclosed : flagCost false = 0 := rfl
    cases priority with
    | latency =>
      have hflag : flagCost t.latencyOpen = 8 := congrArg flagCost hopen
      show connectionCost t.progress t.atTop.connection + flagCost false + flagCost t.bulkOpen +
          flagCost t.liveOpen +
        (if t.stopped then 0 else 1) < effort t
      rw [hcost, effort, hflag]
      omega
    | bulk =>
      have hflag : flagCost t.bulkOpen = 8 := congrArg flagCost hopen
      show connectionCost t.progress t.atTop.connection + flagCost t.latencyOpen + flagCost false +
          flagCost t.liveOpen +
        (if t.stopped then 0 else 1) < effort t
      rw [hcost, effort, hflag]
      omega
  | stops hphase hrunning hlatency hbulk hlive =>
    simp only [effort, hrunning, if_true, Bool.false_eq_true, if_false]
    omega

theorem length_le_effort (moves : List Task.Action)
    (hmoves : ∀ a ∈ moves, a.OfWriter)
    (hexec : exec Task.step t moves = some t') : moves.length + effort t' ≤ effort t := by
  induction moves generalizing t with
  | nil =>
    cases hexec
    simp
  | cons a rest ih =>
    obtain ⟨m, hstep, hrest⟩ := exec_cons_some hexec
    rw [Task.step_of_ofWriter t (hmoves a mem_cons_self)] at hstep
    have hfirst := effort_of_effect (Task.effect_writerStep hstep)
    have hlater := ih (fun b hb => hmoves b (mem_cons_of_mem _ hb)) hrest
    rw [length_cons]
    omega

end Kmsrdp.Guarantees.WriterEnd
