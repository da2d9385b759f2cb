import Kmsrdp.Library.ByteString
import Kmsrdp.Source.Transport.Writer

/-!
# The writer task from start to stop

`ConnectionWriter::run` with what the connection's own model leaves out: the senders' handles, the
flags for the channels still open, the end of the loop, and the bytes. A socket that fails is not
modelled.
-/
namespace Kmsrdp.Source.Transport
open Library.ByteString
open Connection (WriterMove)

def WriterPhase.current {β : Type} : WriterPhase β → Option (Frame β)
  | .writing frame => some frame
  | .writingLive (frame :: _) => some frame
  | _ => none

structure Task where
  connection : Connection Bytes
  (latencyOpen bulkOpen liveOpen stopped : Bool)
  progress : Nat
  senders : Nat
  /-- Calls of `send_live` that have stored their wave and not yet woken the writer. -/
  notifying : Nat
  wire : Bytes
  accepted : List (Frame Bytes)
  waves : List (List (Frame Bytes))

namespace Task

inductive Action where
  | cloneSender
  | dropSender
  | send (frame : Frame Bytes)
  | sendAll (frame : Frame Bytes)
  | storeLive (frames : List (Frame Bytes))
  | notifyLive
  | write (count : Nat)
  | writer (move : WriterMove)
  | closeLive
  | close (priority : Priority)
  | stop

def Action.OfWriter : Action → Prop
  | .write _ | .writer _ | .closeLive | .close _ | .stop => True
  | _ => False

def start : Task where
  connection := .new
  latencyOpen := true
  bulkOpen := true
  liveOpen := true
  stopped := false
  progress := 0
  senders := 1
  notifying := 0
  wire := []
  accepted := []
  waves := []

def isOpen (t : Task) : Priority → Bool
  | .latency => t.latencyOpen
  | .bulk => t.bulkOpen

def Enabled (t : Task) : WriterMove → Bool
  | .next => true
  | .recvNotify => t.liveOpen
  | .recv priority => t.isOpen priority

def Flushed (t : Task) : Prop :=
  ∀ frame ∈ t.connection.phase.current, t.progress = frame.bytes.length

instance (t : Task) : Decidable t.Flushed :=
  inferInstanceAs (Decidable (∀ frame ∈ t.connection.phase.current, t.progress = frame.bytes.length))

def Waits (t : Task) : Bool :=
  match t.connection.phase with
  | .waiting => !t.stopped
  | _ => false

def atTop (t : Task) : Task := { t with connection := { t.connection with phase := .top } }

def closing (t : Task) : Priority → Task
  | .latency => { t.atTop with latencyOpen := false }
  | .bulk => { t.atTop with bulkOpen := false }

def writerStep (t : Task) : Action → Option Task
  | .write count =>
    match t.connection.phase.current with
    | none => none
    | some frame =>
      if 0 < count ∧ t.progress + count ≤ frame.bytes.length then
        some { t with
          progress := t.progress + count
          wire := t.wire ++ (frame.bytes.drop t.progress).take count }
      else none
  | .writer move =>
    if !t.stopped ∧ t.Enabled move ∧ t.Flushed then
      (t.connection.writerStep move).map fun connection =>
        { t with connection := connection, progress := 0 }
    else none
  | .closeLive =>
    if t.Waits ∧ t.liveOpen ∧ t.senders = 0 ∧ !t.connection.liveNotify then
      some { t.atTop with liveOpen := false }
    else none
  | .close priority =>
    if t.Waits ∧ t.isOpen priority ∧ t.senders = 0 ∧ t.connection.inbox priority = [] then
      some (t.closing priority)
    else none
  | .stop =>
    if t.Waits ∧ !t.latencyOpen ∧ !t.bulkOpen ∧ !t.liveOpen
      then some { t with stopped := true } else none
  | _ => none

def accepting (t : Task) (frame : Frame Bytes) : Task :=
  { t with connection := t.connection.accept frame, accepted := t.accepted ++ [frame] }

def senderStep (t : Task) : Action → Option Task
  | .cloneSender => some { t with senders := t.senders + 1 }
  | .dropSender =>
    if t.senders = 1 ∧ 0 < t.notifying then none else some { t with senders := t.senders - 1 }
  | .send frame =>
    if !t.stopped ∧ (t.connection.send frame).1 then some (t.accepting frame) else some t
  | .sendAll frame =>
    if t.stopped then some t else (t.connection.sendAll frame).map fun _ => t.accepting frame
  | .storeLive frames =>
    some { t with
      connection := { t.connection with live := some frames }
      notifying := t.notifying + 1
      waves := t.waves ++ [frames] }
  | .notifyLive =>
    if 0 < t.notifying then
      some { t with
        connection := { t.connection with liveNotify := true }, notifying := t.notifying - 1 }
    else none
  | _ => none

def step (t : Task) (a : Action) : Option Task :=
  match a with
  | .write _ | .writer _ | .closeLive | .close _ | .stop => t.writerStep a
  | _ => if t.senders = 0 then none else t.senderStep a

inductive SenderEffect (t : Task) (a : Action) : Task → Prop
  | same : SenderEffect t a t
  | handles (senders : Nat) (hsender : 0 < t.senders) (hlent : 0 < t.notifying → 0 < senders) :
      SenderEffect t a { t with senders := senders }
  | accepts (frame : Frame Bytes) (haction : a = .send frame ∨ a = .sendAll frame)
      (hsender : 0 < t.senders)
      (hspace : t.connection.hasSpace frame.priority) :
      SenderEffect t a (t.accepting frame)
  | stores (frames : List (Frame Bytes)) (hsender : 0 < t.senders) :
      SenderEffect t a
        { t with
          connection := { t.connection with live := some frames }
          notifying := t.notifying + 1
          waves := t.waves ++ [frames] }
  | notifies (hsender : 0 < t.senders) (hnotifying : 0 < t.notifying) :
      SenderEffect t a
        { t with connection := { t.connection with liveNotify := true }, notifying := t.notifying - 1 }

inductive WriterEffect (t : Task) : Task → Prop
  | writes (frame : Frame Bytes) (count : Nat) (hcurrent : t.connection.phase.current = some frame)
      (hcount : 0 < count) (hle : t.progress + count ≤ frame.bytes.length) :
      WriterEffect t
        { t with
          progress := t.progress + count
          wire := t.wire ++ (frame.bytes.drop t.progress).take count }
  | moves (move : WriterMove) (connection : Connection Bytes) (hrunning : t.stopped = false)
      (hflushed : t.Flushed)
      (hmove : t.connection.writerStep move = some connection) :
      WriterEffect t { t with connection := connection, progress := 0 }
  | closesLive (hphase : t.connection.phase = .waiting) (hopen : t.liveOpen = true)
      (hsenders : t.senders = 0)
      (hnotify : t.connection.liveNotify = false) :
      WriterEffect t { t.atTop with liveOpen := false }
  | closes (priority : Priority) (hphase : t.connection.phase = .waiting)
      (hopen : t.isOpen priority = true)
      (hsenders : t.senders = 0) (hinbox : t.connection.inbox priority = []) :
      WriterEffect t (t.closing priority)
  | stops (hphase : t.connection.phase = .waiting) (hrunning : t.stopped = false)
      (hlatency : t.latencyOpen = false)
      (hbulk : t.bulkOpen = false) (hlive : t.liveOpen = false) :
      WriterEffect t { t with stopped := true }

theorem waits_iff (t : Task) :
    t.Waits = true ↔ t.connection.phase = .waiting ∧ t.stopped = false := by
  unfold Waits
  cases t.connection.phase <;> simp

variable {t t' : Task} {a : Action}

theorem effect_writerStep (h : t.writerStep a = some t') : t.WriterEffect t' := by
  cases a with
  | write count =>
    simp only [writerStep] at h
    split at h
    · cases h
    · next frame hcurrent =>
      obtain ⟨hcount, ⟨⟩⟩ := Option.ite_none_right_eq_some.mp h
      exact .writes frame count hcurrent hcount.1 hcount.2
  | writer move =>
    obtain ⟨hguard, h⟩ := Option.ite_none_right_eq_some.mp h
    obtain ⟨connection, hmove, rfl⟩ := Option.map_eq_some_iff.mp h
    exact .moves move connection (by simpa using hguard.1) hguard.2.2 hmove
  | closeLive =>
    obtain ⟨hguard, ⟨⟩⟩ := Option.ite_none_right_eq_some.mp h
    exact .closesLive ((waits_iff t).mp hguard.1).1 hguard.2.1 hguard.2.2.1
      (by simpa using hguard.2.2.2)
  | close priority =>
    obtain ⟨hguard, ⟨⟩⟩ := Option.ite_none_right_eq_some.mp h
    exact .closes priority ((waits_iff t).mp hguard.1).1 hguard.2.1 hguard.2.2.1 hguard.2.2.2
  | stop =>
    obtain ⟨hguard, ⟨⟩⟩ := Option.ite_none_right_eq_some.mp h
    obtain ⟨hphase, hrunning⟩ := (waits_iff t).mp hguard.1
    exact .stops hphase hrunning (by simpa using hguard.2.1) (by simpa using hguard.2.2.1)
      (by simpa using hguard.2.2.2)
  | cloneSender | dropSender | send frame | sendAll frame | storeLive frames | notifyLive => cases h

theorem effect_senderStep (hsender : 0 < t.senders) (h : t.senderStep a = some t') :
    t.SenderEffect a t' := by
  cases a with
  | cloneSender =>
    cases h
    exact .handles (t.senders + 1) hsender fun _ => Nat.succ_pos _
  | dropSender =>
    obtain ⟨hguard, ⟨⟩⟩ := Option.ite_none_left_eq_some.mp h
    exact .handles (t.senders - 1) hsender fun hlent => by omega
  | send frame =>
    simp only [senderStep] at h
    split at h
    · next hguard =>
      cases h
      refine .accepts frame (.inl rfl) hsender ?_
      have haccepted := hguard.2
      unfold Connection.send at haccepted
      split at haccepted
      · assumption
      · cases haccepted
    · cases h
      exact .same
  | sendAll frame =>
    simp only [senderStep] at h
    split at h
    · cases h
      exact .same
    · obtain ⟨connection, hspace, rfl⟩ := Option.map_eq_some_iff.mp h
      refine .accepts frame (.inr rfl) hsender ?_
      unfold Connection.sendAll at hspace
      split at hspace
      · assumption
      · cases hspace
  | storeLive frames =>
    cases h
    exact .stores frames hsender
  | notifyLive =>
    obtain ⟨hnotifying, ⟨⟩⟩ := Option.ite_none_right_eq_some.mp h
    exact .notifies hsender hnotifying
  | write count | writer move | closeLive | close priority | stop => cases h

/-- Every step is the effect of a sender or of the writer. -/
theorem effect_step (h : t.step a = some t') : t.SenderEffect a t' ∨ t.WriterEffect t' := by
  unfold step at h
  split at h
  case h_6 =>
    split at h
    · cases h
    · next hsender => exact .inl (effect_senderStep (Nat.pos_of_ne_zero hsender) h)
  all_goals exact .inr (effect_writerStep h)

theorem step_of_ofWriter (t : Task) (ha : a.OfWriter) : t.step a = t.writerStep a := by
  cases a with
  | write | writer | closeLive | close | stop => rfl
  | cloneSender | dropSender | send | sendAll | storeLive | notifyLive => cases ha

end Task
end Kmsrdp.Source.Transport
