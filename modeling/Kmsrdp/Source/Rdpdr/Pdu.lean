import Mathlib.Algebra.Ring.Int.Defs
import Kmsrdp.Source.Pdu.ClientInfo

/-!
# Device redirection messages

Model of the decoders in `crates/rdpcore-rdpdr/src/pdu.rs` and of the reply decoders in `irp.rs`. A
DOS name is kept as the bytes in front of its first NUL.
-/
namespace Kmsrdp.Source.Rdpdr.Channel
open Library.ByteString Source.Pdu

def pakidCoreClientidConfirm : Nat := 0x4343
def pakidCoreClientName : Nat := 0x434E
def pakidCoreDevicelistAnnounce : Nat := 0x4441
def pakidCoreDevicelistRemove : Nat := 0x444D
def pakidCoreDeviceIocompletion : Nat := 0x4943
def pakidCoreClientCapability : Nat := 0x4350
def pakidCoreUserLoggedon : Nat := 0x554C
def rdpdrDtypFilesystem : Nat := 0x00000008
def statusSuccess : Nat := 0x00000000
def statusUnsuccessful : Nat := 0xC0000001
def statusNoMoreFiles : Nat := 0x80000006

structure DeviceAnnounce where
  deviceType : Nat
  deviceId : Nat
  preferredDosName : Bytes
  deviceData : Bytes

inductive ClientMessage where
  | announceReply
  | clientName
  | clientCapability
  | deviceListAnnounce (devices : List DeviceAnnounce)
  | deviceListRemove (deviceIds : List Nat)
  | userLoggedOn
  | deviceIoCompletion (deviceId completionId ioStatus : Nat) (body : Bytes)
  | other

def readDeviceAnnounce : Decoder DeviceAnnounce := do
  let deviceType ← readU32Le
  let deviceId ← readU32Le
  let dosNameRaw ← readSlice 8
  let deviceDataLength ← readU32Le
  let deviceData ← readSlice deviceDataLength
  return ⟨deviceType, deviceId, dosNameRaw.takeWhile (· ≠ 0), deviceData⟩

def decodeDeviceListAnnounce : Decoder (List DeviceAnnounce) := do
  let deviceCount ← readU32Le
  ensureCount deviceCount 20
  readMany readDeviceAnnounce deviceCount

def decodeDeviceListRemove : Decoder (List Nat) := do
  let deviceCount ← readU32Le
  ensureCount deviceCount 4
  readMany readU32Le deviceCount

def readDeviceIoCompletion : Decoder ClientMessage := do
  let deviceId ← readU32Le
  let completionId ← readU32Le
  let ioStatus ← readU32Le
  let body ← readRest
  return .deviceIoCompletion deviceId completionId ioStatus body

def readClientMessage : Decoder ClientMessage := do
  let _component ← readU16Le
  let packetId ← readU16Le
  if packetId = pakidCoreClientidConfirm then return .announceReply
  else if packetId = pakidCoreClientName then return .clientName
  else if packetId = pakidCoreClientCapability then return .clientCapability
  else if packetId = pakidCoreDevicelistAnnounce
    then return .deviceListAnnounce (← decodeDeviceListAnnounce)
  else if packetId = pakidCoreDevicelistRemove then return .deviceListRemove (← decodeDeviceListRemove)
  else if packetId = pakidCoreUserLoggedon then return .userLoggedOn
  else if packetId = pakidCoreDeviceIocompletion then readDeviceIoCompletion
  else return .other

def decodeClientMessage (input : Bytes) : Except DecodeError ClientMessage :=
  decodeFrom readClientMessage input

structure CreateReply where
  fileId : Nat
  information : UInt8

structure DirectoryEntry where
  fileIndex : Nat
  (creationTime lastAccessTime lastWriteTime changeTime endOfFile allocationSize : Int)
  fileAttributes : Nat
  fileName : String

def readI64Le : Decoder Int := do
  let low ← readU32Le
  let high ← readU32Le
  let value : Nat := low + high * 2 ^ 32
  return if value < 2 ^ 63 then Int.ofNat value else Int.ofNat value - 2 ^ 64

def decodeCreateReply (body : Bytes) : Except DecodeError CreateReply :=
  decodeFrom (do
    let fileId ← readU32Le
    let information ← readU8
    return ⟨fileId, information⟩) body

def decodeReadReply (body : Bytes) : Except DecodeError Bytes :=
  decodeFrom (do readSlice (← readU32Le)) body

def decodeWriteReply (body : Bytes) : Except DecodeError Nat := decodeFrom readU32Le body

def readDirectoryEntry : Decoder DirectoryEntry := do
  let _nextEntryOffset ← readU32Le
  let fileIndex ← readU32Le
  let creationTime ← readI64Le
  let lastAccessTime ← readI64Le
  let lastWriteTime ← readI64Le
  let changeTime ← readI64Le
  let endOfFile ← readI64Le
  let allocationSize ← readI64Le
  let fileAttributes ← readU32Le
  let fileNameLength ← readU32Le
  let fileName ← readSlice fileNameLength
  return ⟨fileIndex, creationTime, lastAccessTime, lastWriteTime, changeTime, endOfFile, allocationSize,
    fileAttributes, decodeUnits fileName⟩

def decodeQueryDirectoryReply (body : Bytes) : Except DecodeError (Option DirectoryEntry) :=
  if body = [] then .ok none
  else
    match decodeFrom (do
        let length ← readU32Le
        if length = 0 then return none else return some (← readSlice length)) body with
    | .error e => .error e
    | .ok none => .ok none
    | .ok (some entry) => (decodeFrom readDirectoryEntry entry).map some

end Kmsrdp.Source.Rdpdr.Channel
