import Kmsrdp.Library.Requests
import Kmsrdp.Source.Pdu.Svc
import Kmsrdp.Source.Rdpdr.Pdu

/-!
# The device redirection channel

Model of `RdpdrChannel` in `rdpcore-rdpdr/src/lib.rs`, for any `DriveConsumer` over a state that its
methods and threads of its own change.

`ledger`, `gone` and `late` are not part of the source: every command taken and every reply given,
the devices removed and not announced since, and the commands sent for one of them.
-/
namespace Kmsrdp.Source.Rdpdr.Channel
open Library.ByteString Library.Requests Source.Pdu

inductive MajorFunction where
  | create
  | close
  | read
  | write
  | directoryControl
  | setInformation
  deriving DecidableEq

inductive DriveCommand where
  | create (deviceId : Nat) (path : String)
      (desiredAccess createDisposition createOptions requestTag : Nat)
  | close (deviceId fileId requestTag : Nat)
  | read (deviceId fileId length offset requestTag : Nat)
  | write (deviceId fileId offset : Nat) (data : Bytes) (requestTag : Nat)
  | queryDirectory (deviceId fileId : Nat) (path : Option String) (requestTag : Nat)
  | setInformation (deviceId fileId fsInformationClass : Nat) (setBuffer : Bytes) (requestTag : Nat)
  deriving DecidableEq

namespace DriveCommand

def deviceId : DriveCommand → Nat
  | .create deviceId _ _ _ _ _ | .close deviceId _ _ | .read deviceId _ _ _ _ | .write deviceId _ _ _ _
  | .queryDirectory deviceId _ _ _ | .setInformation deviceId _ _ _ _ => deviceId

def requestTag : DriveCommand → Nat
  | .create _ _ _ _ _ requestTag | .close _ _ requestTag | .read _ _ _ _ requestTag
  | .write _ _ _ _ requestTag
  | .queryDirectory _ _ _ requestTag | .setInformation _ _ _ _ requestTag => requestTag

def majorFunction : DriveCommand → MajorFunction
  | .create .. => .create
  | .close .. => .close
  | .read .. => .read
  | .write .. => .write
  | .queryDirectory .. => .directoryControl
  | .setInformation .. => .setInformation

end DriveCommand

inductive Reply where
  | create (requestTag : Nat) (result : Except Nat CreateReply)
  | close (requestTag status : Nat)
  | read (requestTag : Nat) (result : Except Nat Bytes)
  | write (requestTag : Nat) (result : Except Nat Nat)
  | queryDirectory (requestTag : Nat) (result : Except Nat (Option DirectoryEntry))
  | setInformation (requestTag : Nat) (result : Except Nat Unit)

namespace Reply

def requestTag : Reply → Nat
  | .create requestTag _ | .close requestTag _ | .read requestTag _ | .write requestTag _
  | .queryDirectory requestTag _ | .setInformation requestTag _ => requestTag

def majorFunction : Reply → MajorFunction
  | .create .. => .create
  | .close .. => .close
  | .read .. => .read
  | .write .. => .write
  | .queryDirectory .. => .directoryControl
  | .setInformation .. => .setInformation

end Reply

structure DriveConsumer (ω : Type) where
  onDeviceReady : ω → Nat → Nat → Bytes → List DriveCommand × ω
  onReply : ω → Reply → List DriveCommand × ω
  pollCommands : ω → List DriveCommand × ω

structure PendingOp where
  deviceId : Nat
  majorFunction : MajorFunction
  requestTag : Nat
  deriving DecidableEq

def PendingOp.of (command : DriveCommand) : PendingOp :=
  ⟨command.deviceId, command.majorFunction, command.requestTag⟩

def maxPendingOps : Nat := 4096
def maxDevices : Nat := 256
def maxRdpdrMessageSize : Nat := 16 * 1024 * 1024
def clientId : Nat := 0x0001

inductive ServerMessage where
  | serverAnnounceRequest (clientId : Nat)
  | serverCapabilityRequest (supported : Nat)
  | clientIdConfirm (clientId : Nat)
  | userLoggedOn
  | deviceReply (deviceId status : Nat)
  | ioRequest (completionId : Nat) (command : DriveCommand)
  deriving DecidableEq

structure RdpdrChannel where
  supported : Nat
  devices : AList fun _ : Nat => Nat × Bytes
  nextCompletionId : Nat
  pending : AList fun _ : Nat => PendingOp
  incomingBuffer : Bytes

inductive Work where
  | idle
  | announcing (devices : List DeviceAnnounce)
  | removing (stale deviceIds : List Nat)

structure World (ω : Type) where
  channel : RdpdrChannel
  consumer : ω
  queue : List DriveCommand
  work : Work
  sent : List ServerMessage
  ledger : Ledger Nat DriveCommand Reply
  gone : List Nat
  late : List DriveCommand

inductive Action (ω : Type) where
  | deliver (payload : Bytes) (order : List Nat)
  | flushPendingCommands
  | turn
  | outside (consumer : ω)

def decodedResult {α : Type} (ioStatus : Nat) (decoded : Except DecodeError α) : Except Nat α :=
  if ioStatus = statusSuccess then
    match decoded with
    | .ok value => .ok value
    | .error _ => .error (max ioStatus 1)
  else .error ioStatus

def completionReply (op : PendingOp) (ioStatus : Nat) (body : Bytes) : Reply :=
  match op.majorFunction with
  | .create => .create op.requestTag (decodedResult ioStatus (decodeCreateReply body))
  | .close => .close op.requestTag ioStatus
  | .read => .read op.requestTag (decodedResult ioStatus (decodeReadReply body))
  | .write => .write op.requestTag (decodedResult ioStatus (decodeWriteReply body))
  | .directoryControl =>
    .queryDirectory op.requestTag
      (if ioStatus = statusNoMoreFiles then .ok none
        else decodedResult ioStatus (decodeQueryDirectoryReply body))
  | .setInformation => .setInformation op.requestTag (decodedResult ioStatus (.ok ()))

def failReply (command : DriveCommand) (status : Nat) : Reply :=
  match command with
  | .create _ _ _ _ _ requestTag => .create requestTag (.error status)
  | .close _ _ requestTag => .close requestTag status
  | .read _ _ _ _ requestTag => .read requestTag (.error status)
  | .write _ _ _ _ requestTag => .write requestTag (.error status)
  | .queryDirectory _ _ _ requestTag => .queryDirectory requestTag (.error status)
  | .setInformation _ _ _ _ requestTag => .setInformation requestTag (.error status)

def Fits (command : DriveCommand) (reply : Reply) : Prop :=
  reply.requestTag = command.requestTag ∧ reply.majorFunction = command.majorFunction

theorem fits_completionReply (command : DriveCommand) (ioStatus : Nat) (body : Bytes) :
    Fits command (completionReply (.of command) ioStatus body) := by
  cases command <;> exact ⟨rfl, rfl⟩

theorem fits_failReply (command : DriveCommand) (status : Nat) :
    Fits command (failReply command status) := by
  cases command <;> exact ⟨rfl, rfl⟩

def RdpdrChannel.new (supported : Nat) : RdpdrChannel := ⟨supported, ∅, 0, ∅, []⟩

def RdpdrChannel.staleIds (channel : RdpdrChannel) (deviceIds : List Nat) : List Nat :=
  (channel.pending.entries.filter fun entry => entry.2.deviceId ∈ deviceIds).map Sigma.fst

namespace World
variable {ω : Type}

def start (supported : Nat) (consumer : ω) : World ω where
  channel := .new supported
  consumer := consumer
  queue := []
  work := .idle
  sent := [.serverAnnounceRequest clientId]
  ledger := .empty
  gone := []
  late := []

variable (consumer : DriveConsumer ω)

def complete (w : World ω) (completionId : Nat) (op : PendingOp) (ioStatus : Nat) (body : Bytes) :
    World ω :=
  let reply := completionReply op ioStatus body
  let called := consumer.onReply w.consumer reply
  { w with
    channel := { w.channel with pending := w.channel.pending.erase completionId }
    consumer := called.2
    queue := called.1
    ledger := w.ledger.answer completionId reply }

def onIoCompletion (w : World ω) (deviceId completionId ioStatus : Nat) (body : Bytes) : World ω :=
  match w.channel.pending.lookup completionId with
  | none => w
  | some op =>
    if op.deviceId ≠ deviceId then
      { w with channel := { w.channel with pending := w.channel.pending.erase completionId } }
    else w.complete consumer completionId op ioStatus body

def onMessage (w : World ω) (order : List Nat) : ClientMessage → Option (World ω)
  | .announceReply | .userLoggedOn | .other => some w
  | .clientName =>
    some { w with
      sent := w.sent ++ [.serverCapabilityRequest w.channel.supported, .clientIdConfirm clientId] }
  | .clientCapability => some { w with sent := w.sent ++ [.userLoggedOn] }
  | .deviceListAnnounce devices => some { w with work := .announcing devices }
  | .deviceListRemove deviceIds =>
    if order.Perm (w.channel.staleIds deviceIds) then
      some { w with
        channel := { w.channel with
          devices := deviceIds.foldl (fun devices id => devices.erase id) w.channel.devices }
        work := .removing order deviceIds }
    else none
  | .deviceIoCompletion deviceId completionId ioStatus body =>
    some (w.onIoCompletion consumer deviceId completionId ioStatus body)

def incomingMessage (w : World ω) (payload : Bytes) : Option ClientMessage :=
  match (reassemble w.channel.incomingBuffer payload maxRdpdrMessageSize "rdpdr.incoming_buffer").1 with
  | .ok (some message) => (decodeClientMessage message).toOption
  | _ => none

def buffered (w : World ω) (payload : Bytes) : World ω :=
  { w with channel := { w.channel with
    incomingBuffer := (reassemble w.channel.incomingBuffer payload maxRdpdrMessageSize
      "rdpdr.incoming_buffer").2 } }

def onChannelData (w : World ω) (payload : Bytes) (order : List Nat) : Option (World ω) :=
  match w.incomingMessage payload with
  | none => some (w.buffered payload)
  | some message => (w.buffered payload).onMessage consumer order message

def encodeCommand (w : World ω) (command : DriveCommand) (rest : List DriveCommand) : World ω :=
  if maxPendingOps ≤ w.channel.pending.entries.length then
    let reply := failReply command statusUnsuccessful
    let called := consumer.onReply w.consumer reply
    { w with
      consumer := called.2
      queue := rest ++ called.1
      ledger := w.ledger.refuse command reply }
  else
    let completionId := w.channel.nextCompletionId
    { w with
      channel := { w.channel with
        nextCompletionId := (completionId + 1) % 2 ^ 32
        pending := w.channel.pending.insert completionId (.of command) }
      queue := rest
      sent := w.sent ++ [.ioRequest completionId command]
      ledger := w.ledger.issue completionId command
      late := if command.deviceId ∈ w.gone then w.late ++ [command] else w.late }

def announceDevice (w : World ω) (device : DeviceAnnounce) (rest : List DeviceAnnounce) : World ω :=
  let w := { w with work := .announcing rest, gone := w.gone.filter (· ≠ device.deviceId) }
  let atCapacity := (w.channel.devices.lookup device.deviceId).isNone ∧
    maxDevices ≤ w.channel.devices.entries.length
  if w.channel.supported &&& device.deviceType ≠ 0 ∧ ¬ atCapacity then
    let called :=
      consumer.onDeviceReady w.consumer device.deviceId device.deviceType device.preferredDosName
    { w with
      channel := { w.channel with
        devices := w.channel.devices.insert device.deviceId
          (device.deviceType, device.preferredDosName) }
      consumer := called.2
      queue := called.1
      sent := w.sent ++ [.deviceReply device.deviceId statusSuccess] }
  else { w with sent := w.sent ++ [.deviceReply device.deviceId statusUnsuccessful] }

def failStale (w : World ω) (completionId : Nat) (rest deviceIds : List Nat) : World ω :=
  let w := { w with work := .removing rest deviceIds }
  match w.channel.pending.lookup completionId with
  | none => w
  | some op => w.complete consumer completionId op statusUnsuccessful []

def turn (w : World ω) : Option (World ω) :=
  match w.queue, w.work with
  | command :: rest, _ => some (w.encodeCommand consumer command rest)
  | [], .announcing (device :: rest) => some (w.announceDevice consumer device rest)
  | [], .announcing [] => some { w with work := .idle }
  | [], .removing (completionId :: rest) deviceIds =>
    some (w.failStale consumer completionId rest deviceIds)
  | [], .removing [] deviceIds => some { w with work := .idle, gone := w.gone ++ deviceIds }
  | [], .idle => none

def Ready (w : World ω) : Prop :=
  match w.queue, w.work with
  | [], .idle => True
  | _, _ => False

instance (w : World ω) : Decidable w.Ready := by
  unfold Ready
  split <;> infer_instance

def step (w : World ω) : Action ω → Option (World ω)
  | .deliver payload order => if w.Ready then w.onChannelData consumer payload order else none
  | .flushPendingCommands =>
    if w.Ready then
      let polled := consumer.pollCommands w.consumer
      some { w with consumer := polled.2, queue := polled.1 }
    else none
  | .turn => w.turn consumer
  | .outside state => some { w with consumer := state }

end World
end Kmsrdp.Source.Rdpdr.Channel
