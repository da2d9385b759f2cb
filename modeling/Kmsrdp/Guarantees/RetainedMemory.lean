import Kmsrdp.Guarantees.Authentication
import Kmsrdp.Source.Server.Channels

/-!
# What one connection keeps for a client

A connection keeps at most 16 MiB in each buffer of a static channel, 16 MiB for each open dynamic
channel and 1 MiB of a fragmented Confirm Active, and tracks at most 256 devices and 4096 drive
requests (`Bounded`).
-/
namespace Kmsrdp.Guarantees.RetainedMemory
open Library.ByteString Library.Execution Source.Pdu List Nat Option Source.Server.SlowPath
open Source.Cliprdr (CliprdrChannel)
open Source.Dvc Source.Connector
open Source.Server.SlowPath (SlowPathSide StaticChannels)
open Source.Server.Channels
open Source.Rdpdr.Channel (World DriveConsumer DriveCommand maxDevices maxPendingOps)
open Guarantees.Authentication (Driven Call)
variable {η ω β κ : Type}

def mebibyte : Nat := 1024 * 1024

structure MuxBounded (mux : DvcMux η) : Prop where
  incoming : mux.svcIncoming.length ≤ 16 * mebibyte
  reassembly : ∀ slot ∈ mux.channels, ∀ pending ∈ slot.reassembly, pending.2.length ≤ 16 * mebibyte

structure DriveBounded (w : World κ) : Prop where
  incoming : w.channel.incomingBuffer.length ≤ 16 * mebibyte
  devices : w.channel.devices.entries.length ≤ 256
  pending : w.channel.pending.entries.length ≤ 4096

def AcceptorBounded (a : Acceptor) : Prop := a.confirmActiveBuf.length ≤ mebibyte

structure Bounded (c : Connection η ω β κ) : Prop where
  cliprdr : ∀ channel ∈ c.cliprdr, channel.incomingBuffer.length ≤ 16 * mebibyte
  dvc : ∀ mux ∈ c.dvc, MuxBounded mux
  rdpdr : ∀ w ∈ c.rdpdr, DriveBounded w
  acceptor : AcceptorBounded c.side.acceptor

theorem kept_acceptorBounded : Acceptor.KeptThroughout AcceptorBounded where
  phase _ _ _ h := h
  buffer _ _ hbuf _ := hbuf
  capabilities _ _ _ h := h
  negotiated _ _ _ h := h
  connected _ _ _ _ h := h

theorem acceptorBounded_beginResize {a : Acceptor} (h : AcceptorBounded a) (width height : Nat) :
    AcceptorBounded (a.beginResize width height).2 := by
  unfold Acceptor.beginResize
  split
  · exact zero_le _
  · exact h

theorem acceptorBounded_driven {s t : Driven} {call : Call}
    (h : AcceptorBounded s.acceptor)
    (hstep : s.step call = some t) : AcceptorBounded t.acceptor := by
  cases call with
  | step input =>
    have hafter := kept_acceptorBounded.step h input
    simp only [Driven.step] at hstep
    generalize s.acceptor.step input = outcome at hafter hstep
    cases hstep
    exact hafter
  | approve =>
    simp only [Driven.step, Acceptor.approveClientInfo] at hstep
    split at hstep <;> cases hstep <;> rename_i happrove <;> split at happrove <;>
      cases happrove <;> exact h
  | reject =>
    simp only [Driven.step, Acceptor.rejectClientInfo] at hstep
    split at hstep <;> cases hstep <;> exact h
  | beginResize width height =>
    cases hstep
    exact acceptorBounded_beginResize h width height

variable {reassembly : Option (Nat × Bytes)}
open DvcMux

theorem mem_setReassembly {channelId : Nat} {channels : List (ChannelSlot η)}
    {slot : ChannelSlot η}
    (h : slot ∈ setReassembly channelId reassembly channels) :
    slot ∈ channels ∨ slot.reassembly = reassembly := by
  induction channels with
  | nil => cases h
  | cons first rest ih =>
    unfold setReassembly at h
    split at h
    · rcases mem_cons.mp h with rfl | h
      · exact .inr rfl
      · exact .inl (mem_cons_of_mem _ h)
    · rcases mem_cons.mp h with rfl | h
      · exact .inl mem_cons_self
      · exact (ih h).imp_left (mem_cons_of_mem _)

theorem length_assemble_le {data : Bytes}
    (h : ∀ pending ∈ reassembly, pending.2.length ≤ maxDvcMessageSize)
    (hdata : data.length ≤ maxDvcMessageSize)
    (startsNew : Option Nat) :
    ∀ pending ∈ (assemble reassembly data startsNew).2, pending.2.length ≤ maxDvcMessageSize := by
  intro pending hpending
  unfold assemble at hpending
  split at hpending
  · split at hpending
    · exact h pending hpending
    · split at hpending
      · exact h pending hpending
      · cases hpending
        exact hdata
  · split at hpending
    · split at hpending
      · cases hpending
      · next hroom =>
        split at hpending
        · cases hpending
        · cases hpending
          rw [length_append]
          exact not_lt.mp hroom
    · cases hpending

variable {mux : DvcMux η}

theorem MuxBounded.subset
    (h : MuxBounded mux)
    {after : DvcMux η}
    (hincoming : after.svcIncoming = mux.svcIncoming)
    (hchannels : ∀ slot ∈ after.channels, slot ∈ mux.channels) : MuxBounded after :=
  ⟨by rw [hincoming]; exact h.incoming, fun slot hslot => h.reassembly slot (hchannels slot hslot)⟩

section
variable (handlers : DvcHandlers η ω)
section
variable (h : MuxBounded mux)
include h

theorem muxBounded_openAll (opening : List η) : MuxBounded (openAll handlers mux opening).2 := by
  rw [openAll_snd]
  refine ⟨h.incoming, fun slot hslot => ?_⟩
  rcases mem_append.mp hslot with hold | hnew
  · exact h.reassembly slot hold
  · obtain ⟨entry, -, rfl⟩ := mem_map.mp hnew
    intro pending hpending
    cases hpending

theorem muxBounded_handleIncomingData (world : ω) (channelId : Nat) {data : Bytes}
    (hdata : data.length ≤ maxDvcMessageSize)
    (startsNew : Option Nat) :
    MuxBounded (mux.handleIncomingData handlers world channelId data startsNew).2.1 := by
  unfold handleIncomingData
  split
  · exact h
  · next slot hslot =>
    have hold := h.reassembly slot (mem_of_find?_eq_some hslot)
    have hafter : MuxBounded { mux with
        channels := setReassembly channelId (assemble slot.reassembly data startsNew).2
          mux.channels } := by
      refine ⟨h.incoming, fun other hother => ?_⟩
      rcases mem_setReassembly hother with hmem | hset
      · exact h.reassembly other hmem
      · rw [hset]
        exact length_assemble_le hold hdata startsNew
    dsimp only
    split <;> exact hafter

theorem muxBounded_onMessage (world : ω) {message : Source.Dvc.ClientMessage}
    (hdata : message.carried.length ≤ maxDvcMessageSize) :
    MuxBounded (mux.onMessage handlers world message).2.1 := by
  cases message with
  | capabilityResponse version =>
    have hnegotiated : MuxBounded { mux with capabilityNegotiated := true, pending := [] } :=
      h.subset rfl fun _ => id
    exact muxBounded_openAll handlers hnegotiated mux.pending
  | createResponse channelId creationStatus =>
    simp only [onMessage]
    split
    · exact h.subset rfl fun slot hslot => (mem_filter.mp hslot).1
    · split <;> exact h
  | data channelId data => exact muxBounded_handleIncomingData handlers h world channelId hdata none
  | dataFirst channelId totalLength data =>
    exact muxBounded_handleIncomingData handlers h world channelId hdata (some totalLength)
  | close channelId => exact h.subset rfl fun slot hslot => (mem_filter.mp hslot).1
  | other => exact h

theorem muxBounded_onChannelData (world : ω) (payload : Bytes) :
    MuxBounded (mux.onChannelData handlers world payload).2.1 := by
  have hbuffered : MuxBounded { mux with
      svcIncoming := (reassemble mux.svcIncoming payload maxDvcMessageSize "dvc.svc_incoming").2 } :=
    ⟨length_reassemble_le payload _ h.incoming, h.reassembly⟩
  unfold onChannelData
  dsimp only
  split
  · exact hbuffered
  · exact hbuffered
  · next whole hwhole =>
    cases hdecode : Source.Dvc.decodeClientMessage whole with
    | error e => exact hbuffered
    | ok message =>
      refine muxBounded_onMessage handlers hbuffered world ?_
      exact le_trans (Source.Dvc.length_carried_le hdecode) (length_le_of_reassemble_eq_ok hwhole)

end

theorem muxBounded_start (channelId userChannelId : UInt16) (registered : List η) :
    MuxBounded
      (registered.foldl (fun mux handler => (mux.registerChannel handlers handler).2)
         (new channelId userChannelId)) := by
  rw [foldl_registerChannel handlers rfl]
  exact ⟨zero_le _, fun slot hslot => by cases hslot⟩

end
section Tables
variable {α : Type} {γ : α → Type} [DecidableEq α]

theorem length_erase_le (table : AList γ) (a : α) :
    (table.erase a).entries.length ≤ table.entries.length :=
  (kerase_sublist a table.entries).length_le

theorem length_insert_le (table : AList γ) (a : α) (b : γ a) :
    (table.insert a b).entries.length ≤ table.entries.length + 1 := by
  show (kinsert a b table.entries).length ≤ _
  rw [kinsert_def, length_cons]
  exact succ_le_succ (length_erase_le table a)

theorem length_insert_of_mem {table : AList γ} {a : α} (h : a ∈ table) (b : γ a) :
    (table.insert a b).entries.length = table.entries.length := by
  obtain ⟨old, front, back, -, hentries, herase⟩ := exists_of_kerase h
  show (kinsert a b table.entries).length = _
  rw [kinsert_def, length_cons, herase, hentries]
  simp only [length_append, length_cons]
  omega

end Tables
variable {order : List Nat} {action : Source.Rdpdr.Channel.Action κ}
section Drives
variable {consumer : DriveConsumer κ} {w : World κ}
variable {w' : World κ}
section
variable (h : DriveBounded w)
include h

theorem DriveBounded.of_channel (hchannel : w'.channel = w.channel) : DriveBounded w' := by
  constructor <;> rw [hchannel]
  · exact h.incoming
  · exact h.devices
  · exact h.pending

theorem DriveBounded.erase (completionId : Nat) :
    (w.channel.pending.erase completionId).entries.length ≤ 4096 :=
  le_trans (length_erase_le _ _) h.pending

theorem DriveBounded.complete (completionId : Nat) (op : Source.Rdpdr.Channel.PendingOp)
    (ioStatus : Nat) (body : Bytes) :
    DriveBounded (w.complete consumer completionId op ioStatus body) :=
  ⟨h.incoming, h.devices, h.erase completionId⟩

theorem DriveBounded.onIoCompletion (deviceId completionId ioStatus : Nat) (body : Bytes) :
    DriveBounded (w.onIoCompletion consumer deviceId completionId ioStatus body) := by
  unfold World.onIoCompletion
  split
  · exact h
  · split
    · exact ⟨h.incoming, h.devices, h.erase completionId⟩
    · exact h.complete completionId _ ioStatus body

end

theorem length_foldl_erase_le (deviceIds : List Nat) (devices : AList fun _ : Nat => Nat × Bytes) :
    (deviceIds.foldl (fun devices id => devices.erase id) devices).entries.length ≤
      devices.entries.length := by
  induction deviceIds generalizing devices with
  | nil => exact le_refl _
  | cons id rest ih => exact le_trans (ih _) (length_erase_le devices id)

section
variable (h : DriveBounded w)
include h

theorem DriveBounded.onMessage {message : Source.Rdpdr.Channel.ClientMessage}
    (hstep : w.onMessage consumer order message = some w') : DriveBounded w' := by
  cases message with
  | announceReply => cases hstep; exact h
  | userLoggedOn => cases hstep; exact h
  | other => cases hstep; exact h
  | clientName => cases hstep; exact h.of_channel rfl
  | clientCapability => cases hstep; exact h.of_channel rfl
  | deviceListAnnounce devices => cases hstep; exact h.of_channel rfl
  | deviceListRemove deviceIds =>
    simp only [World.onMessage] at hstep
    split at hstep
    · cases hstep
      exact ⟨h.incoming, le_trans (length_foldl_erase_le deviceIds _) h.devices, h.pending⟩
    · cases hstep
  | deviceIoCompletion deviceId completionId ioStatus body =>
    cases hstep
    exact h.onIoCompletion deviceId completionId ioStatus body

theorem DriveBounded.onChannelData {payload : Bytes}
    (hstep : w.onChannelData consumer payload order = some w') : DriveBounded w' := by
  have hbuffered : DriveBounded (w.buffered payload) :=
    ⟨length_reassemble_le payload _ h.incoming, h.devices, h.pending⟩
  unfold World.onChannelData at hstep
  split at hstep
  · cases hstep
    exact hbuffered
  · exact hbuffered.onMessage hstep

theorem DriveBounded.encodeCommand (command : DriveCommand) (rest : List DriveCommand) :
    DriveBounded (w.encodeCommand consumer command rest) := by
  unfold World.encodeCommand
  split
  · exact h.of_channel rfl
  · next hroom =>
    have hpending := length_insert_le w.channel.pending w.channel.nextCompletionId
      (Source.Rdpdr.Channel.PendingOp.of command)
    unfold maxPendingOps at hroom
    exact ⟨h.incoming, h.devices, le_trans hpending (by omega)⟩

theorem DriveBounded.announceDevice (device : Source.Rdpdr.Channel.DeviceAnnounce)
    (rest : List Source.Rdpdr.Channel.DeviceAnnounce) :
    DriveBounded (w.announceDevice consumer device rest) := by
  unfold World.announceDevice
  dsimp only
  split
  · next hsupported =>
    refine ⟨h.incoming, ?_, h.pending⟩
    by_cases hknown : device.deviceId ∈ w.channel.devices
    · rw [length_insert_of_mem hknown]
      exact h.devices
    · -- a new device is only taken while there is room
      have hroom : w.channel.devices.entries.length < maxDevices :=
        not_le.mp fun hfull => hsupported.2 ⟨by simpa [AList.lookup_eq_none] using hknown, hfull⟩
      exact le_trans (length_insert_le _ _ _) hroom
  · exact h.of_channel rfl

theorem DriveBounded.failStale (completionId : Nat) (rest deviceIds : List Nat) :
    DriveBounded (w.failStale consumer completionId rest deviceIds) := by
  have hremoving : DriveBounded { w with work := .removing rest deviceIds } := h.of_channel rfl
  unfold World.failStale
  dsimp only
  split
  · exact hremoving
  · exact hremoving.complete completionId _ _ _

theorem DriveBounded.step (hstep : w.step consumer action = some w') : DriveBounded w' := by
  cases action with
  | deliver payload order =>
    simp only [World.step] at hstep
    split at hstep
    · exact h.onChannelData hstep
    · cases hstep
  | flushPendingCommands =>
    simp only [World.step] at hstep
    split at hstep
    · cases hstep
      exact h.of_channel rfl
    · cases hstep
  | turn =>
    simp only [World.step, World.turn] at hstep
    split at hstep
    · cases hstep; exact h.encodeCommand _ _
    · cases hstep; exact h.announceDevice _ _
    · cases hstep; exact h.of_channel rfl
    · cases hstep; exact h.failStale _ _ _
    · cases hstep; exact h.of_channel rfl
    · cases hstep
  | outside state =>
    cases hstep
    exact h.of_channel rfl

end
end Drives
section Steps
variable {methods : Methods η ω β κ} {c c' : Connection η ω β κ}

theorem Bounded.deliver
    (h : Bounded c)
    {delivery : Source.Server.SlowPath.Delivery}
    (hstep : c.deliver methods order delivery = some c') : Bounded c' := by
  unfold Connection.deliver at hstep
  split at hstep
  · cases hstep
    exact h
  · split at hstep
    · cases hstep
      exact h
    · next channel hchannel =>
      cases hstep
      refine ⟨fun other hother => ?_, h.dvc, h.rdpdr, h.acceptor⟩
      cases hother
      rw [CliprdrChannel.onChannelData_channel]
      exact length_reassemble_le _ _ (h.cliprdr channel hchannel)
  · split at hstep
    · cases hstep
      exact h
    · next mux hmux =>
      cases hstep
      refine ⟨h.cliprdr, fun other hother => ?_, h.rdpdr, h.acceptor⟩
      cases hother
      exact muxBounded_onChannelData methods.handlers (h.dvc mux hmux) _ _
  · split at hstep
    · cases hstep
      exact h
    · next w hw =>
      obtain ⟨w', hw', rfl⟩ := map_eq_some_iff.mp hstep
      refine ⟨h.cliprdr, h.dvc, fun other hother => ?_, h.acceptor⟩
      cases hother
      exact (h.rdpdr w hw).step hw'

theorem acceptorBounded_onFrameWhileResizing (channels : StaticChannels) {s : SlowPathSide}
    (h : AcceptorBounded s.acceptor)
    (frame : Bytes) : AcceptorBounded (s.onFrameWhileResizing channels frame).acceptor := by
  unfold SlowPathSide.onFrameWhileResizing
  split
  · exact h
  · have hafter := kept_acceptorBounded.step h frame
    generalize s.acceptor.step frame = outcome at hafter
    obtain ⟨result, acceptor⟩ := outcome
    cases result with
    | ok result => exact hafter
    | error error =>
      dsimp only
      split <;> exact hafter

theorem acceptorBounded_side (channels : StaticChannels) {s s' : SlowPathSide}
    {action : Source.Server.SlowPath.Action}
    (h : AcceptorBounded s.acceptor)
    (hstep : step channels s action = some s') : AcceptorBounded s'.acceptor := by
  cases action with
  | resized width height =>
    have hafter := acceptorBounded_beginResize h width height
    simp only [step] at hstep
    generalize s.acceptor.beginResize width height = outcome at hafter hstep
    split at hstep
    · cases hstep
      exact h
    · split at hstep <;> cases hstep <;> exact hafter
  | slowPath frame =>
    simp only [step] at hstep
    split at hstep
    · cases hstep
      exact acceptorBounded_onFrameWhileResizing channels
        (s := { s with received := s.received ++ [frame] }) h frame
    · cases hstep
      exact h

theorem Bounded.sideStep
    (h : Bounded c)
    {channels : StaticChannels} {action : Source.Server.SlowPath.Action}
    (hstep : c.sideStep methods channels order action = some c') : Bounded c' := by
  unfold Connection.sideStep at hstep
  split at hstep
  · cases hstep
  · next side hside =>
    have hafter : Bounded { c with side := side } :=
      ⟨h.cliprdr, h.dvc, h.rdpdr, acceptorBounded_side channels h.acceptor hside⟩
    split at hstep
    · cases hstep
      exact hafter
    · exact hafter.deliver hstep

theorem Bounded.driveStep (h : Bounded c) (hstep : c.driveStep methods action = some c') :
    Bounded c' := by
  unfold Connection.driveStep at hstep
  split at hstep
  · cases hstep
  · next w hw =>
    obtain ⟨w', hw', rfl⟩ := map_eq_some_iff.mp hstep
    refine ⟨h.cliprdr, h.dvc, fun other hother => ?_, h.acceptor⟩
    cases hother
    exact (h.rdpdr w hw).step hw'

theorem bounded_step {channels : StaticChannels} (c : Connection η ω β κ) (action : Action ω β κ)
    (c' : Connection η ω β κ)
    (h : Bounded c)
    (hstep : c.step methods channels action = some c') : Bounded c' := by
  cases action <;> simp only [Connection.step] at hstep
  case slowPath frame order =>
    split at hstep
    · exact h.sideStep hstep
    · cases hstep
  case fastPath frame =>
    split at hstep
    · cases hstep
      exact h
    · cases hstep
  case resized width height =>
    split at hstep
    · exact h.sideStep hstep
    · cases hstep
  case driveTurn => exact h.driveStep hstep
  case flushPendingCommands => exact h.driveStep hstep
  case outside handlers clipboard drive =>
    cases hstep
    refine ⟨h.cliprdr, h.dvc, fun w hw => ?_, h.acceptor⟩
    obtain ⟨w, hold, rfl⟩ := map_eq_some_iff.mp hw
    exact (h.rdpdr w hold).of_channel rfl

end Steps

theorem bounded_start (methods : Methods η ω β κ) (setup : Setup η ω β κ) {acceptor : Acceptor}
    (h : AcceptorBounded acceptor) : Bounded (Connection.start methods setup acceptor) := by
  refine ⟨fun channel hchannel => ?_, fun mux hmux => ?_, fun w hw => ?_, h⟩
  · obtain ⟨ids, -, rfl⟩ := map_eq_some_iff.mp hchannel
    exact zero_le _
  · obtain ⟨ids, -, rfl⟩ := map_eq_some_iff.mp hmux
    exact muxBounded_start methods.handlers _ _ _
  · obtain ⟨supported, -, rfl⟩ := map_eq_some_iff.mp hw
    exact ⟨zero_le _, zero_le _, zero_le _⟩

/-- From the acceptor that any calls leave, the bounds hold all along any run of the connection. -/
theorem retained_memory_bounded (methods : Methods η ω β κ) (channels : StaticChannels)
    (setup : Setup η ω β κ) (desktopWidth desktopHeight : Nat) (requireNla : Bool)
    (calls : List Call) (s : Driven)
    (hcalls : exec Driven.step (Driven.start desktopWidth desktopHeight requireNla) calls = some s)
    (actions : List (Action ω β κ)) :
    Always (Connection.step methods channels) Bounded (Connection.start methods setup s.acceptor)
      actions := by
  have hacceptor : AcceptorBounded s.acceptor :=
    exec_invariant (fun s => AcceptorBounded s.acceptor) (fun _ _ _ => acceptorBounded_driven) calls
      (zero_le _) hcalls
  exact always_of_invariant Bounded (fun _ => id) bounded_step actions
    (bounded_start methods setup hacceptor)

def idleMethods : Methods Unit Unit Unit Unit where
  handlers := ⟨fun _ => "ECHO", fun _ world => ([], world), fun _ world _ => ([], world)⟩
  clipboard := ⟨id, fun state _ => state, fun state _ => state, fun state _ => state⟩
  fromUtf8Lossy _ := ""
  drive := ⟨fun state _ _ _ => ([], state), fun state _ => ([], state), fun state => ([], state)⟩

def allChannels : Setup Unit Unit Unit Unit :=
  ⟨some (1004, 1002), (), some (1005, 1002), [()], (), some 8, ()⟩

def hugeClipboardChunk : Bytes :=
  wrapData (SendData.encodeRequest
    ⟨1002, 1004, channelChunk 0xFFFFFFFF channelFlagFirst [0x02, 0x00], true⟩)

/-- A client that has passed the handshake. -/
theorem retained_memory_bounded_hugeClipboardChunk :
    ∃ s,
      exec Driven.step (Driven.start 1024 768 true) (Authentication.handshakeCalls [97]) = some s ∧
      s.acceptor.phase = .accepted ∧
      Always (Connection.step idleMethods ⟨none, some 1004, some 1005, some 1006⟩) Bounded
        (Connection.start idleMethods allChannels s.acceptor)
        [.slowPath hugeClipboardChunk [], .resized 800 600, .slowPath hugeClipboardChunk []] := by
  have hrun : (exec Driven.step (Driven.start 1024 768 true) (Authentication.handshakeCalls [97])).any
      (fun s => s.acceptor.phase = .accepted) = true := by
    decide +kernel
  obtain ⟨s, hexec, hs⟩ := (Option.any_eq_true _ _).mp hrun
  exact ⟨s, hexec, of_decide_eq_true hs,
    retained_memory_bounded idleMethods _ allChannels 1024 768 true
      (Authentication.handshakeCalls [97]) s hexec _⟩

end Kmsrdp.Guarantees.RetainedMemory
