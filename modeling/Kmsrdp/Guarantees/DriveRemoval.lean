import Kmsrdp.Guarantees.DriveRequests

/-!
# Requests for a removed drive

After a DeviceListRemove no request for a removed device is to be outstanding or sent until it is
announced again.
-/
namespace Kmsrdp.Guarantees.DriveRemoval
open Library.ByteString Library.Execution Source.Pdu Source.Rdpdr.Channel List List.Subset
open Guarantees.DriveRequests (openRoot opener clientChunk announceDrive)
variable {ω : Type}

/-- Nothing has been sent for a device that was gone, and nothing is outstanding for one. -/
structure Withdrawn (w : World ω) : Prop where
  notSent : w.late = []
  notPending : ∀ completionId op, w.channel.pending.lookup completionId = some op → op.deviceId ∉ w.gone

def leaving (w : World ω) : List Nat :=
  match w.work with
  | .removing _ deviceIds => deviceIds
  | _ => []

def toFail (w : World ω) : List Nat :=
  match w.work with
  | .removing stale _ => stale
  | _ => []

/-- A condition on the consumer's commands: one that is sent is for a device that is neither gone
nor leaving. That no late command was sent (the first half of `Withdrawn`) follows from it at once;
the other half, on what is outstanding, is the work of the channel. -/
def Respects (w : World ω) : Action ω → Prop
  | .turn => ∀ command ∈ w.queue.head?, w.channel.pending.entries.length < maxPendingOps →
      command.deviceId ∉ w.gone ∧ command.deviceId ∉ leaving w
  | _ => True

instance (w : World ω) : (a : Action ω) → Decidable (Respects w a)
  | .turn => inferInstanceAs (Decidable (∀ command ∈ w.queue.head?, _ → _))
  | .deliver _ _ => isTrue trivial
  | .flushPendingCommands => isTrue trivial
  | .outside _ => isTrue trivial

structure Inv (w : World ω) : Prop extends Withdrawn w where
  failing : ∀ completionId op, w.channel.pending.lookup completionId = some op →
    op.deviceId ∈ leaving w →
    completionId ∈ toFail w

theorem inv_start (supported : Nat) (state : ω) : Inv (World.start supported state) where
  notSent := rfl
  notPending _ _ hop := nomatch hop
  failing _ _ hop := nomatch hop

variable {consumer : DriveConsumer ω} {w w' : World ω}

theorem Inv.of_fewer
    (h : Inv w)
    (hlate : w'.late = w.late)
    (hpending : ∀ completionId op, w'.channel.pending.lookup completionId = some op →
        w.channel.pending.lookup completionId = some op)
    (hgone : w'.gone ⊆ w.gone)
    (hwork : w'.work = w.work) : Inv w' where
  notSent := hlate.trans h.notSent
  notPending completionId op hop hmem := h.notPending completionId op (hpending completionId op hop)
    (hgone hmem)
  failing completionId op hop hmem := by
    unfold leaving at hmem
    unfold toFail
    rw [hwork] at hmem ⊢
    exact h.failing completionId op (hpending completionId op hop) hmem

theorem Withdrawn.inv (h : Withdrawn w) (hleaving : leaving w = []) : Inv w where
  toWithdrawn := h
  failing _ _ _ hmem := by
    rw [hleaving] at hmem
    cases hmem

variable {completionId : Nat}

theorem lookup_of_erase {pending : AList fun _ : Nat => PendingOp} {erased : Nat} {op : PendingOp}
    (hop : (pending.erase erased).lookup completionId = some op) :
    completionId ≠ erased ∧ pending.lookup completionId = some op := by
  have hne : completionId ≠ erased := by
    rintro rfl
    rw [AList.lookup_erase] at hop
    cases hop
  exact ⟨hne, (AList.lookup_erase_ne hne).symm.trans hop⟩

theorem Inv.complete
    (h : Inv w)
    (completionId : Nat) (op : PendingOp) (ioStatus : Nat) (body : Bytes) :
    Inv (w.complete consumer completionId op ioStatus body) :=
  h.of_fewer rfl (fun _ _ hop => (lookup_of_erase hop).2) (refl _) rfl

theorem Inv.onIoCompletion (h : Inv w) (deviceId completionId ioStatus : Nat) (body : Bytes) :
    Inv (w.onIoCompletion consumer deviceId completionId ioStatus body) := by
  unfold World.onIoCompletion
  split
  · exact h
  · split
    · exact h.of_fewer rfl (fun _ _ hop => (lookup_of_erase hop).2) (refl _) rfl
    · exact h.complete _ _ _ _

variable {deviceIds : List Nat}

theorem mem_staleIds {channel : RdpdrChannel} {op : PendingOp}
    (hop : channel.pending.lookup completionId = some op)
    (hmem : op.deviceId ∈ deviceIds) : completionId ∈ channel.staleIds deviceIds := by
  have hentry : (⟨completionId, op⟩ : Sigma fun _ : Nat => PendingOp) ∈ channel.pending.entries :=
    AList.mem_lookup_iff.mp hop
  exact mem_map.mpr ⟨_, mem_filter.mpr ⟨hentry, decide_eq_true hmem⟩, rfl⟩

theorem Inv.onMessage
    (h : Inv w)
    {order : List Nat} {message : ClientMessage}
    (hstep : w.onMessage consumer order message = some w') : Inv w' := by
  cases message with
  | announceReply | userLoggedOn | other =>
    cases hstep
    exact h
  | clientName | clientCapability =>
    cases hstep
    exact h.of_fewer rfl (fun _ _ hop => hop) (refl _) rfl
  | deviceListAnnounce devices =>
    cases hstep
    exact Withdrawn.inv ⟨h.notSent, h.notPending⟩ rfl
  | deviceListRemove deviceIds =>
    obtain ⟨horder, ⟨⟩⟩ := Option.ite_none_right_eq_some.mp hstep
    refine ⟨⟨h.notSent, h.notPending⟩, fun completionId op hop hmem => ?_⟩
    exact horder.mem_iff.mpr (mem_staleIds hop hmem)
  | deviceIoCompletion deviceId completionId ioStatus body =>
    cases hstep
    exact h.onIoCompletion deviceId completionId ioStatus body

theorem Inv.onChannelData
    (h : Inv w)
    {payload : Bytes} {order : List Nat}
    (hstep : w.onChannelData consumer payload order = some w') : Inv w' := by
  have hbuffered : Inv (w.buffered payload) := h.of_fewer rfl (fun _ _ hop => hop) (refl _) rfl
  unfold World.onChannelData at hstep
  split at hstep
  · cases hstep
    exact hbuffered
  · exact hbuffered.onMessage hstep

theorem Inv.encodeCommand
    (h : Inv w)
    {command : DriveCommand} {rest : List DriveCommand}
    (hrespects : w.channel.pending.entries.length < maxPendingOps →
        command.deviceId ∉ w.gone ∧ command.deviceId ∉ leaving w) :
    Inv (w.encodeCommand consumer command rest) := by
  unfold World.encodeCommand
  split
  · exact h.of_fewer rfl (fun _ _ hop => hop) (refl _) rfl
  · next hroom =>
    obtain ⟨hgone, hleaving⟩ := hrespects (Nat.lt_of_not_le hroom)
    -- the only new entry of the table is the command's
    have hentry : ∀ completionId op,
        (w.channel.pending.insert w.channel.nextCompletionId (.of command)).lookup completionId =
          some op →
        op = .of command ∨ w.channel.pending.lookup completionId = some op := by
      intro completionId op hop
      by_cases hnew : completionId = w.channel.nextCompletionId
      · rw [hnew, AList.lookup_insert] at hop
        exact .inl (Option.some.inj hop).symm
      · rw [AList.lookup_insert_ne hnew] at hop
        exact .inr hop
    refine ⟨⟨(if_neg hgone).trans h.notSent, fun completionId op hop => ?_⟩,
      fun completionId op hop hmem => ?_⟩
    · rcases hentry completionId op hop with rfl | hold
      · exact hgone
      · exact h.notPending completionId op hold
    · rcases hentry completionId op hop with rfl | hold
      · exact absurd hmem hleaving
      · exact h.failing completionId op hold hmem

theorem Inv.announceDevice (h : Inv w) (device : DeviceAnnounce) (rest : List DeviceAnnounce) :
    Inv (w.announceDevice consumer device rest) := by
  have hpending : ∀ completionId op, w.channel.pending.lookup completionId = some op →
      op.deviceId ∉ w.gone.filter (· ≠ device.deviceId) := fun completionId op hop hmem =>
    h.notPending completionId op hop (mem_filter.mp hmem).1
  unfold World.announceDevice
  dsimp only
  split
  · exact Withdrawn.inv ⟨h.notSent, hpending⟩ rfl
  · exact Withdrawn.inv ⟨h.notSent, hpending⟩ rfl

theorem Inv.failStale
    (h : Inv w)
    {rest : List Nat}
    (hwork : w.work = .removing (completionId :: rest) deviceIds) :
    Inv (w.failStale consumer completionId rest deviceIds) := by
  have hfailing : ∀ other op, w.channel.pending.lookup other = some op → op.deviceId ∈ deviceIds →
      other ∈ completionId :: rest := by
    intro other op hop hmem
    have hleaving : op.deviceId ∈ leaving w := by
      unfold leaving
      rw [hwork]
      exact hmem
    have htoFail := h.failing other op hop hleaving
    unfold toFail at htoFail
    rw [hwork] at htoFail
    exact htoFail
  unfold World.failStale
  dsimp only
  split
  · next hnone =>
    refine ⟨⟨h.notSent, h.notPending⟩, fun other op hop hmem => ?_⟩
    refine mem_of_ne_of_mem ?_ (hfailing other op hop hmem)
    rintro rfl
    cases hnone.symm.trans hop
  · refine ⟨⟨h.notSent, fun other op hop => ?_⟩, fun other op hop hmem => ?_⟩
    · exact h.notPending other op (lookup_of_erase hop).2
    · obtain ⟨hne, hold⟩ := lookup_of_erase hop
      exact mem_of_ne_of_mem hne (hfailing other op hold hmem)

theorem Inv.removed (h : Inv w) (hwork : w.work = .removing [] deviceIds) :
    Inv { w with work := .idle, gone := w.gone ++ deviceIds } := by
  refine Withdrawn.inv ⟨h.notSent, fun completionId op hop hmem => ?_⟩ rfl
  rcases mem_append.mp hmem with hgone | hleaving
  · exact h.notPending completionId op hop hgone
  · have hfail := h.failing completionId op hop
    unfold leaving toFail at hfail
    rw [hwork] at hfail
    cases hfail hleaving

theorem Inv.turn
    (h : Inv w)
    (hrespects : ∀ command ∈ w.queue.head?, w.channel.pending.entries.length < maxPendingOps →
        command.deviceId ∉ w.gone ∧ command.deviceId ∉ leaving w)
    (hstep : w.turn consumer = some w') : Inv w' := by
  unfold World.turn at hstep
  split at hstep
  · next command rest hqueue =>
    cases hstep
    exact h.encodeCommand (hrespects command (by rw [hqueue]; rfl))
  · cases hstep
    exact h.announceDevice _ _
  · cases hstep
    exact Withdrawn.inv ⟨h.notSent, h.notPending⟩ rfl
  · next hwork =>
    cases hstep
    exact h.failStale hwork
  · next hwork =>
    cases hstep
    exact h.removed hwork
  · cases hstep

theorem inv_step (w : World ω) (a : Action ω) (w' : World ω)
    (h : Inv w)
    (hrespects : Respects w a)
    (hstep : w.step consumer a = some w') : Inv w' := by
  cases a with
  | deliver payload order =>
    simp only [World.step] at hstep
    split at hstep
    · exact h.onChannelData hstep
    · cases hstep
  | flushPendingCommands =>
    simp only [World.step] at hstep
    split at hstep
    · cases hstep
      exact h.of_fewer rfl (fun _ _ hop => hop) (refl _) rfl
    · cases hstep
  | turn => exact h.turn hrespects hstep
  | outside state =>
    cases hstep
    exact h.of_fewer rfl (fun _ _ hop => hop) (refl _) rfl

/-- For every consumer and every sequence of messages, commands and outside changes in which no
command is sent for a device that is gone or leaving, nothing is sent or outstanding for a removed
device in any state. -/
theorem withdrawn_always_of_respects (consumer : DriveConsumer ω) (supported : Nat) (state : ω)
    (schedule : List (Action ω))
    (h : Careful (World.step consumer) Respects (.start supported state) schedule) :
    Always (World.step consumer) Withdrawn (.start supported state) schedule :=
  always_of_careful Inv (fun _ hinv => hinv.toWithdrawn) inv_step schedule (inv_start supported state) h

def removeDrive (deviceId : Nat) : Bytes :=
  clientChunk pakidCoreDevicelistRemove (u32Le 1 ++ u32Le deviceId)

def removalRun : List (Action Unit) :=
  [.deliver (announceDrive 1) [], .turn, .turn, .turn, .deliver (removeDrive 1) [0], .turn, .turn,
    .deliver (announceDrive 1) [], .turn, .turn, .turn]

theorem withdrawn_removalRun :
    (exec (World.step opener) (.start rdpdrDtypFilesystem ()) removalRun).isSome = true ∧
    Always (World.step opener) Withdrawn (.start rdpdrDtypFilesystem ()) removalRun :=
  ⟨by decide +kernel,
    withdrawn_always_of_respects opener rdpdrDtypFilesystem () removalRun (by decide +kernel)⟩

def retrier : DriveConsumer Unit where
  onDeviceReady _ deviceId _ _ := ([openRoot deviceId], ())
  onReply _ _ := ([openRoot 1], ())
  pollCommands _ := ([], ())

def retriedRun : List (Action Unit) :=
  [.deliver (announceDrive 1) [], .turn, .turn, .turn, .deliver (removeDrive 1) [0], .turn,
    .turn, .turn]

theorem retried_for_removed_drive :
    ∃ w,
      exec (World.step retrier) (.start rdpdrDtypFilesystem ()) retriedRun = some w ∧
      w.gone = [1] ∧
      w.channel.devices.lookup 1 = none ∧
      w.channel.pending.lookup 1 = some (.of (openRoot 1)) ∧
      ServerMessage.ioRequest 1 (openRoot 1) ∈ w.sent ∧
      ¬ Withdrawn w := by
  have hrun : (exec (World.step retrier) (.start rdpdrDtypFilesystem ()) retriedRun).any (fun w =>
      decide (w.gone = [1] ∧ w.channel.devices.lookup 1 = none ∧
        w.channel.pending.lookup 1 = some (.of (openRoot 1)) ∧
        ServerMessage.ioRequest 1 (openRoot 1) ∈ w.sent)) = true := by
    decide +kernel
  obtain ⟨w, hexec, hfacts⟩ := (Option.any_eq_true _ _).mp hrun
  obtain ⟨hgone, hdevices, hpending, hsent⟩ := of_decide_eq_true hfacts
  refine ⟨w, hexec, hgone, hdevices, hpending, hsent, fun hafter => ?_⟩
  refine hafter.notPending 1 _ hpending ?_
  rw [hgone]
  exact mem_singleton.mpr rfl

end Kmsrdp.Guarantees.DriveRemoval
