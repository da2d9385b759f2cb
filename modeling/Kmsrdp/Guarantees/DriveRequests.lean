import Kmsrdp.Library.Execution
import Kmsrdp.Source.Rdpdr.Channel

/-!
# Every drive command is answered once

A command the channel has taken is to be outstanding under an id of its own, or to have had exactly
one callback, with its tag and of its kind (`Accounted`).
-/
namespace Kmsrdp.Guarantees.DriveRequests
open Library.ByteString Library.Execution Library.Requests Source.Pdu Source.Rdpdr.Channel World
  Ledger
variable {ω : Type}

/-- The table has the operation of every outstanding command, under the command's id, and
nothing else. -/
def Reflects (pending : AList fun _ : Nat => PendingOp) (ledger : Ledger Nat DriveCommand Reply) :
    Prop :=
  ∀ completionId, pending.lookup completionId = (ledger.requestAt completionId).map PendingOp.of

/-- The pending table reflects a balanced ledger. -/
structure Accounted (w : World ω) : Prop where
  balanced : w.ledger.Balanced Fits
  reflects : Reflects w.channel.pending w.ledger

/-- A completion of an outstanding request names the request's device, and a command is sent
under an id that is free. -/
def Proper (w : World ω) : Action ω → Prop
  | .deliver payload _ => w.Ready → ∀ deviceId completionId ioStatus body,
      w.incomingMessage payload = some (.deviceIoCompletion deviceId completionId ioStatus body) →
      ∀ op ∈ w.channel.pending.lookup completionId, op.deviceId = deviceId
  | .turn => ∀ command ∈ w.queue.head?, w.channel.pending.entries.length < maxPendingOps →
      w.channel.pending.lookup w.channel.nextCompletionId = none
  | _ => True

theorem accounted_start (supported : Nat) (state : ω) : Accounted (start supported state) :=
  ⟨balanced_empty, fun _ => rfl⟩

variable {consumer : DriveConsumer ω} {w w' : World ω}

theorem Accounted.of_same
    (h : Accounted w)
    (hpending : w'.channel.pending = w.channel.pending)
    (hledger : w'.ledger = w.ledger) : Accounted w' := by
  constructor
  · rw [hledger]
    exact h.balanced
  · rw [hledger, hpending]
    exact h.reflects

variable {completionId : Nat} {op : PendingOp}

theorem Accounted.command_of_lookup
    (h : Accounted w)
    (hop : w.channel.pending.lookup completionId = some op) :
    ∃ command, w.ledger.requestAt completionId = some command ∧ PendingOp.of command = op :=
  Option.map_eq_some_iff.mp ((h.reflects completionId).symm.trans hop)

theorem Accounted.complete
    (h : Accounted w)
    (hop : w.channel.pending.lookup completionId = some op)
    (ioStatus : Nat) (body : Bytes) :
    Accounted (w.complete consumer completionId op ioStatus body) := by
  obtain ⟨command, hcommand, rfl⟩ := h.command_of_lookup hop
  refine ⟨h.balanced.answer hcommand (fits_completionReply command ioStatus body), fun other => ?_⟩
  show (w.channel.pending.erase completionId).lookup other =
      ((w.ledger.answer completionId _).requestAt other).map _
  rw [requestAt_answer]
  by_cases hother : other = completionId
  · rw [if_pos hother, hother, AList.lookup_erase]
    rfl
  · rw [if_neg hother, AList.lookup_erase_ne hother]
    exact h.reflects other

theorem Accounted.onIoCompletion
    (h : Accounted w)
    {deviceId : Nat}
    (hdevice : ∀ op ∈ w.channel.pending.lookup completionId, op.deviceId = deviceId)
    (ioStatus : Nat) (body : Bytes) :
    Accounted (w.onIoCompletion consumer deviceId completionId ioStatus body) := by
  unfold World.onIoCompletion
  split
  · exact h
  · next op hop =>
    rw [if_neg (not_not.mpr (hdevice op hop))]
    exact h.complete hop ioStatus body

theorem not_accounted_onIoCompletion
    (h : Accounted w)
    {deviceId : Nat}
    (hop : w.channel.pending.lookup completionId = some op)
    (hdevice : op.deviceId ≠ deviceId)
    (ioStatus : Nat) (body : Bytes) :
    ¬ Accounted (w.onIoCompletion consumer deviceId completionId ioStatus body) := by
  unfold onIoCompletion
  rw [hop]
  dsimp only
  rw [if_pos hdevice]
  intro hafter
  obtain ⟨command, hcommand, -⟩ := h.command_of_lookup hop
  have hlookup : (w.channel.pending.erase completionId).lookup completionId =
      (w.ledger.requestAt completionId).map _ :=
    hafter.reflects completionId
  rw [AList.lookup_erase, hcommand] at hlookup
  cases hlookup

theorem Accounted.onMessage
    (h : Accounted w)
    {order : List Nat} {message : ClientMessage}
    (hproper : ∀ deviceId completionId ioStatus body,
        message = .deviceIoCompletion deviceId completionId ioStatus body →
          ∀ op ∈ w.channel.pending.lookup completionId, op.deviceId = deviceId)
    (hstep : w.onMessage consumer order message = some w') : Accounted w' := by
  cases message with
  | announceReply | userLoggedOn | other =>
    cases hstep
    exact h
  | clientName | clientCapability | deviceListAnnounce devices =>
    cases hstep
    exact h.of_same rfl rfl
  | deviceListRemove deviceIds =>
    simp only [World.onMessage] at hstep
    split at hstep
    · cases hstep
      exact h.of_same rfl rfl
    · cases hstep
  | deviceIoCompletion deviceId completionId ioStatus body =>
    cases hstep
    exact h.onIoCompletion (hproper deviceId completionId ioStatus body rfl) ioStatus body

theorem Accounted.onChannelData
    (h : Accounted w)
    {payload : Bytes} {order : List Nat}
    (hproper : ∀ deviceId completionId ioStatus body,
        w.incomingMessage payload = some (.deviceIoCompletion deviceId completionId ioStatus body) →
          ∀ op ∈ w.channel.pending.lookup completionId, op.deviceId = deviceId)
    (hstep : w.onChannelData consumer payload order = some w') : Accounted w' := by
  unfold World.onChannelData at hstep
  split at hstep
  · cases hstep
    exact h.of_same rfl rfl
  · next message hmessage =>
    refine Accounted.onMessage ?_ (fun deviceId completionId ioStatus body hio => ?_) hstep
    · exact h.of_same rfl rfl
    · exact hproper deviceId completionId ioStatus body (hio ▸ hmessage)

theorem Accounted.encodeCommand
    (h : Accounted w)
    {command : DriveCommand} {rest : List DriveCommand}
    (hfree : w.channel.pending.entries.length < maxPendingOps →
        w.channel.pending.lookup w.channel.nextCompletionId = none) :
    Accounted (w.encodeCommand consumer command rest) := by
  unfold World.encodeCommand
  split
  · refine ⟨h.balanced.refuse (fits_failReply command _), fun other => ?_⟩
    exact (h.reflects other).trans (congrArg _ (requestAt_refuse h.balanced other _ _).symm)
  · next hroom =>
    have hnone := (h.reflects _).symm.trans (hfree (Nat.lt_of_not_le hroom))
    have htable := (h.balanced.lookup_eq_none_iff _).mpr (Option.map_eq_none_iff.mp hnone)
    refine ⟨h.balanced.issue htable command, fun other => ?_⟩
    rw [requestAt_issue h.balanced]
    by_cases hother : other = w.channel.nextCompletionId
    · rw [if_pos hother, hother, AList.lookup_insert]
      rfl
    · rw [if_neg hother, AList.lookup_insert_ne hother]
      exact h.reflects other

theorem not_accounted_encodeCommand
    (h : Accounted w)
    {command : DriveCommand} {rest : List DriveCommand}
    (hroom : w.channel.pending.entries.length < maxPendingOps)
    (htaken : w.channel.pending.lookup w.channel.nextCompletionId ≠ none) :
    ¬ Accounted (w.encodeCommand consumer command rest) := by
  unfold encodeCommand
  rw [if_neg (Nat.not_le.mpr hroom)]
  intro hafter
  cases hnumber : w.ledger.table.lookup w.channel.nextCompletionId with
  | none =>
    have hnone := (h.balanced.lookup_eq_none_iff _).mp hnumber
    exact htaken ((h.reflects _).trans (Option.map_eq_none_iff.mpr hnone))
  | some number => exact not_balanced_issue h.balanced hnumber command hafter.balanced

theorem Accounted.announceDevice
    (h : Accounted w)
    (device : DeviceAnnounce) (rest : List DeviceAnnounce) :
    Accounted (w.announceDevice consumer device rest) := by
  unfold World.announceDevice
  dsimp only
  split
  · exact h.of_same rfl rfl
  · exact h.of_same rfl rfl

theorem Accounted.failStale (h : Accounted w) (completionId : Nat) (rest deviceIds : List Nat) :
    Accounted (w.failStale consumer completionId rest deviceIds) := by
  have hbefore : Accounted { w with work := .removing rest deviceIds } := h.of_same rfl rfl
  unfold World.failStale
  dsimp only
  split
  · exact hbefore
  · next op hop => exact hbefore.complete hop _ _

theorem Accounted.turn
    (h : Accounted w)
    (hfree : ∀ command ∈ w.queue.head?, w.channel.pending.entries.length < maxPendingOps →
        w.channel.pending.lookup w.channel.nextCompletionId = none)
    (hstep : w.turn consumer = some w') : Accounted w' := by
  unfold World.turn at hstep
  split at hstep
  · next command rest hqueue =>
    cases hstep
    exact h.encodeCommand (hfree command (by rw [hqueue]; rfl))
  · cases hstep
    exact h.announceDevice _ _
  · cases hstep
    exact h.of_same rfl rfl
  · cases hstep
    exact h.failStale _ _ _
  · cases hstep
    exact h.of_same rfl rfl
  · cases hstep

theorem accounted_step (w : World ω) (a : Action ω) (w' : World ω)
    (h : Accounted w)
    (hproper : Proper w a)
    (hstep : w.step consumer a = some w') : Accounted w' := by
  cases a with
  | deliver payload order =>
    simp only [step] at hstep
    split at hstep
    · next hready => exact h.onChannelData (hproper hready) hstep
    · cases hstep
  | flushPendingCommands =>
    simp only [step] at hstep
    split at hstep
    · cases hstep
      exact h.of_same rfl rfl
    · cases hstep
  | turn => exact h.turn hproper hstep
  | outside state =>
    cases hstep
    exact h.of_same rfl rfl

theorem not_accounted_step (w : World ω) (a : Action ω) (h : Accounted w) (hbad : ¬ Proper w a) :
    ∃ w', w.step consumer a = some w' ∧ ¬ Accounted w' := by
  cases a with
  | deliver payload order =>
    unfold Proper at hbad
    push Not at hbad
    obtain ⟨hready, deviceId, completionId, ioStatus, body, hmessage, op, hop, hdevice⟩ := hbad
    have hbuffered : Accounted (w.buffered payload) := h.of_same rfl rfl
    refine ⟨(w.buffered payload).onIoCompletion consumer deviceId completionId ioStatus body, ?_, ?_⟩
    · have hdata : w.onChannelData consumer payload order =
          some ((w.buffered payload).onIoCompletion consumer deviceId completionId ioStatus body) := by
        unfold onChannelData
        rw [hmessage]
        rfl
      exact (if_pos hready).trans hdata
    · exact not_accounted_onIoCompletion hbuffered hop hdevice ioStatus body
  | turn =>
    unfold Proper at hbad
    push Not at hbad
    obtain ⟨command, hcommand, hroom, htaken⟩ := hbad
    obtain ⟨rest, hqueue⟩ := List.head?_eq_some_iff.mp hcommand
    refine ⟨w.encodeCommand consumer command rest, ?_, not_accounted_encodeCommand h hroom htaken⟩
    show w.turn consumer = _
    unfold turn
    rw [hqueue]
  | flushPendingCommands => exact absurd trivial hbad
  | outside state => exact absurd trivial hbad

/-- For every consumer and every sequence of messages, commands and outside changes, each command
is outstanding under its own id or answered once in every state of the run, exactly when every
completion names the device of its request and no command is sent under an id still in use. -/
theorem accounted_always_iff_proper (consumer : DriveConsumer ω) (supported : Nat) (state : ω)
    (schedule : List (Action ω)) :
    Always (World.step consumer) Accounted (.start supported state) schedule ↔
      Careful (World.step consumer) Proper (.start supported state) schedule :=
  always_iff_careful Accounted (fun _ h => h) accounted_step not_accounted_step schedule
    (accounted_start supported state)

def openRoot (deviceId : Nat) : DriveCommand := .create deviceId "\\" 0x80000000 1 0 7

def opener : DriveConsumer Unit where
  onDeviceReady _ deviceId _ _ := ([openRoot deviceId], ())
  onReply _ _ := ([], ())
  pollCommands _ := ([], ())

def clientChunk (packetId : Nat) (body : Bytes) : Bytes :=
  let message := u16Le 0x4472 ++ u16Le packetId ++ body
  channelChunk message.length (channelFlagFirst ||| channelFlagLast) message

def announceDrive (deviceId : Nat) : Bytes :=
  clientChunk pakidCoreDevicelistAnnounce
    (u32Le 1 ++ u32Le rdpdrDtypFilesystem ++ u32Le deviceId ++ [67, 58, 0, 0, 0, 0, 0, 0] ++ u32Le 0)

def completion (deviceId completionId ioStatus : Nat) (body : Bytes) : Bytes :=
  clientChunk pakidCoreDeviceIocompletion
    (u32Le deviceId ++ u32Le completionId ++ u32Le ioStatus ++ body)

def mismatchedRun : List (Action Unit) :=
  [.deliver (announceDrive 1) [], .turn, .turn, .turn, .deliver (completion 2 0 statusSuccess []) []]

theorem completion_for_other_device :
    ∃ w,
      exec (World.step opener) (.start rdpdrDtypFilesystem ()) mismatchedRun = some w ∧
      w.ledger.issued = [openRoot 1] ∧
      w.channel.pending.entries = [] ∧
      w.ledger.answers.length = 0 ∧
      ¬ Accounted w := by
  have hrun : (exec (step opener) (.start rdpdrDtypFilesystem ()) mismatchedRun).any (fun w =>
      decide (w.ledger.issued = [openRoot 1] ∧ w.channel.pending.entries = [] ∧
        w.ledger.answers.length = 0 ∧
        w.channel.pending.lookup 0 = none ∧ w.ledger.requestAt 0 = some (openRoot 1))) = true := by
    decide +kernel
  obtain ⟨w, hexec, hfacts⟩ := (Option.any_eq_true _ _).mp hrun
  obtain ⟨hissued, hpending, hanswers, hlookup, hrequest⟩ := of_decide_eq_true hfacts
  refine ⟨w, hexec, hissued, hpending, hanswers, fun hafter => ?_⟩
  have hreflects := hafter.reflects 0
  rw [hlookup, hrequest] at hreflects
  cases hreflects

end Kmsrdp.Guarantees.DriveRequests
