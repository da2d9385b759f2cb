import Kmsrdp.Source.Pdu.Cursor

/-!
# Share control and share data PDUs

Model of `ShareControlHeader` (`rdpcore-pdu/src/capability_sets.rs`), of the Data PDU and Control
decoders in `finalization.rs`, and of Confirm Active with the two capability sets the server reads.
-/
namespace Kmsrdp.Source.Pdu
open Library.ByteString

inductive ShareControlPduType where
  | demandActive
  | confirmActive
  | deactivateAll
  | data
  deriving DecidableEq

def ShareControlPduType.fromU16 (value : Nat) : Option ShareControlPduType :=
  if value = 0x1 then some .demandActive
  else if value = 0x3 then some .confirmActive
  else if value = 0x6 then some .deactivateAll
  else if value = 0x7 then some .data
  else none

structure ShareControlHeader where
  pduType : ShareControlPduType
  pduSource : Nat
  shareId : Nat

def ShareControlHeader.size : Nat := 10

/-- The header and the declared length of the body. The low four bits of the type field are
the PDU type, the others a fixed version. -/
def ShareControlHeader.decode : Decoder (ShareControlHeader × Nat) := do
  let totalLength ← readU16Le
  let rawType ← readU16Le
  if rawType - rawType % 16 ≠ 0x10 then
    fail "share_control_header.pdu_type" "expected the fixed 0x10 version sentinel"
  match ShareControlPduType.fromU16 (rawType % 16) with
  | none => fail "share_control_header.pdu_type" "unrecognized PDU type"
  | some pduType =>
    let pduSource ← readU16Le
    let shareId ← readU32Le
    return ({ pduType, pduSource, shareId }, totalLength - ShareControlHeader.size)

inductive ShareDataPduType where
  | synchronize
  | control
  | fontList
  | fontMap
  | refreshRect
  | suppressOutput
  | saveSessionInfo
  | monitorLayout
  | input
  deriving DecidableEq

def ShareDataPduType.fromU8 (value : UInt8) : Option ShareDataPduType :=
  if value = 0x14 then some .control
  else if value = 0x27 then some .fontList
  else if value = 0x28 then some .fontMap
  else if value = 0x1F then some .synchronize
  else if value = 0x21 then some .refreshRect
  else if value = 0x23 then some .suppressOutput
  else if value = 0x26 then some .saveSessionInfo
  else if value = 0x37 then some .monitorLayout
  else if value = 0x1C then some .input
  else none

structure ShareDataHeader where
  streamId : UInt8
  pduType2 : ShareDataPduType

def ShareDataHeader.size : Nat := 8
def ShareDataHeader.decode : Decoder ShareDataHeader := do
  let _ ← readU8
  let streamId ← readU8
  let _ ← readU16Le
  match ShareDataPduType.fromU8 (← readU8) with
  | none => fail "share_data_header.pdu_type2" "unrecognized data PDU subtype"
  | some pduType2 =>
    let _ ← readU8
    let _ ← readU16Le
    return { streamId, pduType2 }

structure DataPdu where
  shareId : Nat
  pduSource : Nat
  streamId : UInt8
  pduType2 : ShareDataPduType
  body : Bytes

/-- `DataPdu::decode`. The body length comes from the share control header; the share data
header takes eight bytes of it. -/
def DataPdu.decode (input : Bytes) : Except DecodeError DataPdu :=
  decodeFrom (do
    let (header, declaredBodyLen) ← ShareControlHeader.decode
    if header.pduType ≠ .data then
      fail "data_pdu.share_control_header.pdu_type" "expected DataPdu"
    let shareData ← ShareDataHeader.decode
    let left ← remaining
    let body ← readSlice (min (declaredBodyLen - ShareDataHeader.size) left)
    return { shareId := header.shareId, pduSource := header.pduSource,
             streamId := shareData.streamId, pduType2 := shareData.pduType2, body }) input

structure ControlPdu where
  (action grantId controlId : Nat)

def ControlPdu.requestControl : Nat := 1

def ControlPdu.decodeBody (body : Bytes) : Except DecodeError ControlPdu :=
  decodeFrom (do
    let action ← readU16Le
    let grantId ← readU16Le
    let controlId ← readU32Le
    return { action, grantId, controlId }) body

structure RawCapabilitySet where
  setType : Nat
  body : Bytes

def RawCapabilitySet.decode : Decoder RawCapabilitySet := do
  let setType ← readU16Le
  let length ← readU16Le
  let body ← readSlice (length - 4)
  return { setType, body }

def decodeCapabilities : Nat → Bytes → List RawCapabilitySet
  | 0, _ => []
  | count + 1, buf =>
    match RawCapabilitySet.decode buf with
    | .ok (set, rest) => set :: decodeCapabilities count rest
    | .error _ => []

structure ConfirmActive where
  (shareId pduSource originatorId : Nat)
  capabilities : List RawCapabilitySet

def readU16LeIfAny (buf : Bytes) : Option Nat × Bytes :=
  match readU16Le buf with
  | .ok (value, rest) => (some value, rest)
  | .error _ => (none, buf)

def confirmActiveBody (buf : Bytes) : Nat × List RawCapabilitySet :=
  let (originatorId, buf) := readU16LeIfAny buf
  let (lengthSourceDescriptor, buf) := readU16LeIfAny buf
  match lengthSourceDescriptor with
  | none => (originatorId.getD 0, [])
  | some length =>
    let (_, buf) := readU16LeIfAny buf
    let buf := buf.drop length
    let (count, buf) := readU16LeIfAny buf
    let (pad, buf) := readU16LeIfAny buf
    match count, pad with
    | some count, some _ => (originatorId.getD 0, decodeCapabilities count buf)
    | _, _ => (originatorId.getD 0, [])

def ConfirmActive.decode (input : Bytes) : Except DecodeError ConfirmActive :=
  decodeFrom (do
    let (header, _) ← ShareControlHeader.decode
    if header.pduType ≠ .confirmActive then
      fail "confirm_active.share_control_header.pdu_type" "expected ConfirmActivePdu"
    let rest ← readRest
    let (originatorId, capabilities) := confirmActiveBody rest
    return { shareId := header.shareId, pduSource := header.pduSource, originatorId,
             capabilities }) input

def tryDecodeConfirmActive (data : Bytes) : Except DecodeError ConfirmActive :=
  match ConfirmActive.decode data with
  | .ok confirm => .ok confirm
  | .error first =>
    if 14 ≤ data.length then
      match ConfirmActive.decode (data.drop 4) with
      | .ok confirm => .ok confirm
      | .error _ => .error first
    else .error first

structure NsCodecNegotiated where
  codecId : UInt8
  colorLossLevel : Nat
  deriving DecidableEq

def nsCodecGuid : Bytes :=
  [0xB9, 0x1B, 0x8D, 0xCA, 0x0F, 0x00, 0x4F, 0x15, 0x58, 0x9F, 0xAE, 0x2D, 0x1A, 0x87, 0xE2, 0xD6]

def findNsCodec (serverCll : Nat) : Nat → Decoder (Option NsCodecNegotiated)
  | 0 => pure none
  | count + 1 => do
    let guid ← readSlice 16
    let codecId ← readU8
    let propLen ← readU16Le
    if guid ≠ nsCodecGuid then
      let _ ← readSlice propLen
      findNsCodec serverCll count
    else if propLen < 3 then return none
    else
      let _ ← readU8
      let _ ← readU8
      let clientCll ← readU8
      return some { codecId, colorLossLevel := min (max 1 (min 7 clientCll.toNat)) (max serverCll 1) }

def parseClientNscodec (capabilities : List RawCapabilitySet) (serverCll : Nat) :
    Option NsCodecNegotiated :=
  match capabilities.find? (·.setType = 0x1D) with
  | none => none
  | some set =>
    match decodeFrom (do let count ← readU8; findNsCodec serverCll count.toNat) set.body with
    | .ok negotiated => negotiated
    | .error _ => none

def parseClientMaxRequestSize (capabilities : List RawCapabilitySet) : Option Nat :=
  match capabilities.find? (·.setType = 0x1A) with
  | none => none
  | some set =>
    match decodeFrom readU32Le set.body with
    | .ok size => if 0 < size then some size else none
    | .error _ => none

end Kmsrdp.Source.Pdu
